import Mathlib.Data.List.Sort
import Masonwing.Store.Authority

/-!
# Delegations

`delegation.rs`: creating a grant, revoking it with all its descendants, and the check that a
grant with its whole ancestry is active and unexpired. The two recursive queries walk the
`parent_grant_id` links; both are bounded by the number of rows.
-/

namespace Masonwing

open Outcome

abbrev Delegations := Table Uuid DelegationRow

/-! ## Ancestry -/

/-- A grant and its ancestors, the grant first. A link back into `path` ends the walk. -/
def ancestryFrom (ds : Delegations) : Nat → List Uuid → Uuid → List (Uuid × DelegationRow)
  | 0, _, _ => []
  | fuel + 1, path, id =>
    match ds.get? id with
    | none => []
    | some d => (id, d) ::
      match d.parentGrantId with
      | none => []
      | some parent =>
        if parent ∈ id :: path then [] else ancestryFrom ds fuel (id :: path) parent

def ancestry (ds : Delegations) (id : Uuid) : List (Uuid × DelegationRow) :=
  ancestryFrom ds ds.rows.length [] id

structure ActiveGrant where
  id : Uuid
  actions : List String
  resources : List ResourceRef
  expiresAt : Int
  fence : Int

/-- The grant is active and has not expired. -/
def DelegationRow.current (d : DelegationRow) (now : Int) : Bool :=
  decide (d.state = .active) && decide (now < d.expiresAt)

def requireActiveGrant (tick : Tick) (t : Tables) (actor : CommandActor) (id : Uuid)
    (action : Option String) (resource : Option ResourceRef) : Result ActiveGrant := do
  let rows := ancestry t.delegations id
  require (rows ≠ []) .notFound
  require (rows.all (fun r => r.2.current tick.now) = true) (.denied "GRANT_REVOKED_OR_EXPIRED")
  let d ← okOr (t.delegations.get? id) .notFound
  require (d.creatorId.toText = actor.principalId.text ∨
    (d.principalId = actor.principalId.text ∧ d.issuer = actor.issuer))
    (.denied "GRANT_PRINCIPAL_MISMATCH")
  require ((∀ a ∈ action, a ∈ d.actions) ∧ ∀ r ∈ resource, r ∈ d.resources)
    (.denied "CAPABILITY_DENIED")
  return { id, actions := d.actions, resources := d.resources, expiresAt := d.expiresAt
           fence := d.fence }

/-! ## Creating -/

/-- The current version and classification of a resource in the scope of a new grant. -/
def grantResource (env : Env) (t : Tables) (actor : CommandActor) (r : ResourceRef) :
    Result (Int × Classification) :=
  if r.resourceType = "Artifact" then do
    let _ ← artifactMetadata env t actor r.resourceId.text
    let id ← parseUuid r.resourceId.text
    let a ← okOr (t.journal.artifacts.get? id) .notFound
    require (a.state = .active) .notFound
    return (a.version.val, a.classification)
  else do
    let (version, a) ← okOr (currentProjection t.journal r.resourceType r.resourceId.text) .notFound
    return (version, a.classification)

/-- Every delegated action is evaluated as the creator against the resource. -/
def checkGrantResource (env : Env) (t : Tables) (actor : CommandActor) (policy : ReadPolicy)
    (actions : List String) (r : ResourceRef) : Result Unit := do
  let (version, classification) ← grantResource env t actor r
  require (version = r.version) (.conflict "STALE_VERSION")
  require (actions.all (fun action => policy.permits env action r.resourceType r.resourceId.text
    [("version", .num r.version), ("classification", .str classification.toText)]) = true)
    (.denied "GRANT_SCOPE_DENIED")

/-- A child grant stays inside its parent, which has to be active. -/
def checkParentGrant (tick : Tick) (t : Tables) (actor : CommandActor) (actions : List String)
    (resources : List ResourceRef) (expiresAt : Int) : Option String → Result (Option Uuid)
  | none => .ok none
  | some text => do
    let parent ← parseUuid text
    let grant ← requireActiveGrant tick t actor parent none none
    require (expiresAt ≤ grant.expiresAt ∧ (∀ a ∈ actions, a ∈ grant.actions) ∧
      ∀ r ∈ resources, r ∈ grant.resources) (.denied "GRANT_SCOPE_DENIED")
    return some parent

/-- `grant_json`; a new grant shows its parent as the client wrote it. -/
def grantJson (env : Env) (tenant id : Uuid) (d : DelegationRow) (parent : Option String) :
    Json :=
  .obj [("grant_id", .str id.toText), ("tenant_id", .str tenant.toText),
    ("principal", .obj [("type", .str d.principalType.toText), ("id", .str d.principalId),
      ("issuer", .str d.issuer)]),
    ("actions", .arr (d.actions.map .str)), ("resources", .arr (d.resources.map (·.toJson))),
    ("expires_at", .str (env.timestamp d.expiresAt)),
    ("parent_grant_id", .ofOption .str parent),
    ("state", .str d.state.toText), ("version", .num d.version.val)]

def createGrant (env : Env) (tick : Tick) (t : Tables) (actor : CommandActor)
    (delegate : PrincipalRef) (actions : List String) (resources : List ResourceRef)
    (expiresAt : Int) (parentGrantId : Option String) : Result (Tables × Mutation) := do
  require (tick.now < expiresAt) (.invalid "GRANT_EXPIRED")
  require (actions ≠ [] ∧ resources ≠ []) (.denied "GRANT_SCOPE_EMPTY")
  require (delegate.kind ≠ .support) (.denied "SUPPORT_SCOPE_DENIED")
  let actions := (actions.insertionSort (· ≤ ·)).dedup
  require resources.Nodup (.invalid "GRANT_DUPLICATE_RESOURCE")
  let policy ← readPolicy env t actor
  let _ ← resources.mapM (checkGrantResource env t actor policy actions)
  let parent ← checkParentGrant tick t actor actions resources expiresAt parentGrantId
  let creatorId ← parseUuid actor.principalId.text
  let id := tick.draw .grant
  let row : DelegationRow :=
    { principalId := delegate.id.text, principalType := delegate.kind, issuer := delegate.issuer
      creatorId, actions, resources, parentGrantId := parent, expiresAt, state := .active
      version := .one, fence := 1 }
  let delegations ← sql (insertRow t.delegations id row)
  return ({ t with delegations }, .one "Delegation" id .one
    (grantJson env t.identity.tenantId id row parentGrantId) ("Grant to " ++ delegate.id.text))

/-! ## Revoking -/

def childrenOf (ds : Delegations) (id : Uuid) : List Uuid :=
  (ds.select fun _ d => decide (d.parentGrantId = some id)).map Prod.fst

/-- The grants reached from `frontier` by child links, level by level; `none` if the links do
not end, where the query runs into its time limit. -/
def descendantsFrom (ds : Delegations) : Nat → List Uuid → Option (List Uuid)
  | _, [] => some []
  | 0, _ :: _ => none
  | fuel + 1, frontier => do
    let rest ← descendantsFrom ds fuel (frontier.flatMap (childrenOf ds))
    return frontier ++ rest

/-- `SET state='REVOKED',version=version+1,fence=fence+1`. -/
def revokeRow (d : DelegationRow) : Except SqlError DelegationRow := do
  let version ← okOr d.version.next? .numericOutOfRange
  let fence ← bigint (d.fence + 1)
  return { d with state := .revoked, version, fence }

def revocationChange (env : Env) (tenant : Uuid) (row : Uuid × DelegationRow) :
    ProjectionChange :=
  { resource := resourceRef "Delegation" row.1 row.2.version
    value := grantJson env tenant row.1 row.2 (row.2.parentGrantId.map (·.toText))
    label := "Revoked delegation"
    sourceArtifacts := [] }

def revokeGrant (env : Env) (t : Tables) (grantId : String) (expectedVersion : Int)
    (reason : String) : Result (Tables × Mutation) := do
  let id ← parseUuid grantId
  requireReason reason
  let d ← okOr (t.delegations.get? id) .notFound
  let version ← requireExpectedVersion d.version expectedVersion
  require (d.state = .active) (.conflict "ILLEGAL_TRANSITION")
  let ids ← okOr (descendantsFrom t.delegations t.delegations.rows.length [id])
    (.unavailable "DATA_ADAPTER_UNAVAILABLE")
  let affected := fun (k : Uuid) (g : DelegationRow) => ids.contains k && decide (g.state = .active)
  let delegations ← sql (t.delegations.updateWhereM affected revokeRow)
  let revoked := (t.delegations.select affected).filterMap fun r =>
    (delegations.get? r.1).map fun g => (r.1, g)
  return ({ t with delegations },
    { primary := resourceRef "Delegation" id version
      changes := revoked.map (revocationChange env t.identity.tenantId)
      runId := none, effectId := none, accepted := false })

end Masonwing
