import Masonwing.Store.Journal

/-!
# Authority

Who may do what: the checks at the start of a transaction (`begin`, `begin_system`), the
policy of the acting principal, the authorization of a command against the host's current
rows, and the two admission checks that handlers share, the kill switches and the metadata
of an artifact.
-/

namespace Masonwing

open Outcome

/-! ## Commands -/

/-- The operations with their inputs, after the fields were read. Identifiers are the texts
the client sent. -/
inductive CommandInput where
  | runStart (workflowId workflowVersion : String) (inputRef : ArtifactRef) (grantId : String)
  | runCancel (runId : String) (expectedVersion : Int) (reason : String)
  | approvalDecide (proposalId decision : String) (expectedVersion : Int)
      (contentDigest reason : String)
  | budgetConfigure (currency period : String) (limitMicrounits expectedVersion : Int)
  | effectPropose (action connectionId : String) (target : ResourceRef) (contentRef : ArtifactRef)
      (grantId priceProfile : String)
  | effectDispatch (effectId : String) (expectedVersion : Int)
  | effectReconcile (effectId : String) (expectedVersion : Int)
  | effectCompensate (effectId : String) (compensationRef : ArtifactRef) (approvalId : String)
  | connectionRevoke (connectionId : String) (expectedVersion : Int) (reason : String)
  | grantCreate (delegate : PrincipalRef) (actions : List String) (resources : List ResourceRef)
      (expiresAt : Int) (parentGrantId : Option String)
  | grantRevoke (grantId : String) (expectedVersion : Int) (reason : String)
  | killSwitchSet (scope targetId : String) (active : Bool) (reason : String)

namespace CommandInput

def operation : CommandInput → String
  | .runStart .. => "run.start"
  | .runCancel .. => "run.cancel"
  | .approvalDecide .. => "approval.decide"
  | .budgetConfigure .. => "budget.configure"
  | .effectPropose .. => "effect.propose"
  | .effectDispatch .. => "effect.dispatch"
  | .effectReconcile .. => "effect.reconcile"
  | .effectCompensate .. => "effect.compensate"
  | .connectionRevoke .. => "connection.revoke"
  | .grantCreate .. => "grant.create"
  | .grantRevoke .. => "grant.revoke"
  | .killSwitchSet .. => "kill-switch.set"

/-- The projection an operation is authorized against; `none` is the tenant itself. -/
def authorizationTarget : CommandInput → Option (String × String)
  | .grantRevoke grantId .. => some ("Delegation", grantId)
  | .runCancel runId .. => some ("Run", runId)
  | .approvalDecide proposalId .. => some ("Approval", proposalId)
  | .effectDispatch effectId .. => some ("EffectIntent", effectId)
  | .effectReconcile effectId .. => some ("EffectIntent", effectId)
  | .effectCompensate effectId .. => some ("EffectIntent", effectId)
  | .connectionRevoke connectionId .. => some ("Connection", connectionId)
  | _ => none

end CommandInput

/-- An authorized command, over the inputs of some set of operations. -/
structure Command (ι : Type) where
  actor : CommandActor
  input : ι
  idempotencyKey : OpaqueId
  fingerprint : Digest

/-! ## The start of a transaction -/

/-- `begin`: the actor's membership and policy are the ones it was authorized under. -/
def beginActor (t : Tables) (actor : CommandActor) : Result Unit := do
  let tenant ← parseUuid actor.tenantId.text
  let principal ← parseUuid actor.principalId.text
  require (t.identity.tenantId = tenant ∧ t.identity.tenantActive = true) .notFound
  let membership ← okOr (t.identity.memberships.get? principal) .notFound
  require (membership.status = .active ∧ membership.membershipEpoch = actor.membershipEpoch ∧
    membership.permissionEpoch = actor.permissionEpoch) (.denied "AUTHORITY_CHANGED")
  let policy ← okOr t.identity.policy (.unavailable "POLICY_UNAVAILABLE")
  require (policy.policyVersion = actor.policyVersion ∧ policy.policyEpoch = actor.policyEpoch)
    (.denied "AUTHORITY_CHANGED")

/-- `begin_system`: the platform acts, on an active tenant. -/
def beginSystem (t : Tables) : Result Unit := require (t.identity.tenantActive = true) .notFound

/-! ## Policy -/

structure ReadPolicy where
  policy : PolicyRow
  principal : TrustedPrincipal

/-- What the evaluator asks of a principal before it looks at the policy. -/
def TrustedPrincipal.entityValid (p : TrustedPrincipal) : Bool :=
  decide (0 < p.membershipEpoch ∧ 0 < p.permissionEpoch ∧ p.roles ≠ [] ∧ p.role ∈ p.roles)

def ReadPolicy.permits (env : Env) (p : ReadPolicy) (action kind id : String)
    (attributes : List (String × Json)) : Bool :=
  env.policyPermits p.policy p.principal action kind id attributes

/-- The active membership of a principal with the current policy, which has to parse. -/
def currentPolicy (env : Env) (t : Tables) (principal : Uuid) :
    Result (MembershipRow × PolicyRow) := do
  let membership ← okOr (t.identity.memberships.get? principal) .notFound
  require (membership.status = .active) .notFound
  let policy ← okOr t.identity.policy .notFound
  require (env.policyParses policy = true) (.unavailable "POLICY_INVALID")
  return (membership, policy)

def readPolicy (env : Env) (t : Tables) (actor : CommandActor) : Result ReadPolicy := do
  let principal ← parseUuid actor.principalId.text
  let (membership, policy) ← currentPolicy env t principal
  return { policy, principal :=
    { principalId := actor.principalId.text, tenantId := actor.tenantId.text
      role := membership.role, membershipEpoch := actor.membershipEpoch
      roles := membership.roles, permissionEpoch := actor.permissionEpoch } }

def readPolicyForPrincipal (env : Env) (t : Tables) (principal : Uuid) : Result ReadPolicy := do
  let (membership, policy) ← currentPolicy env t principal
  return { policy, principal :=
    { principalId := principal.toText, tenantId := t.identity.tenantId.toText
      role := membership.role, membershipEpoch := membership.membershipEpoch
      roles := membership.roles, permissionEpoch := membership.permissionEpoch } }

/-- The entity a command is authorized against: its kind, identifier and attributes. -/
def authorizationResource (t : Tables) (input : CommandInput) :
    Result (String × String × List (String × Json)) :=
  match input.authorizationTarget with
  | none => .ok ("Tenant", t.identity.tenantId.toText, [])
  | some (kind, id) => do
    let (version, artifact) ← okOr (currentProjection t.journal kind id) .notFound
    return (kind, id, [("version", .num version),
      ("classification", .str artifact.classification.toText)])

def authorizeCommand (env : Env) (t : Tables) (command : Command CommandInput) :
    Result Unit := do
  let policy ← readPolicy env t command.actor
  let (kind, id, attributes) ← authorizationResource t command.input
  require (policy.permits env command.input.operation kind id attributes = true)
    (.denied "AUTHZ_DENIED")

/-! ## Admission checks -/

/-- An active kill switch of the tenant, of the plugin or of the connection. -/
def stoppedBy (t : Tables) (plugin : Option String) (connection : Option Uuid) : Bool :=
  t.registry.killSwitches.any fun k s => s.active &&
    (decide (k = (.tenant, t.identity.tenantId.toText)) ||
      decide (plugin.map (fun p => (KillSwitchScope.plugin, p)) = some k) ||
      decide (connection.map (fun c => (KillSwitchScope.connection, c.toText)) = some k))

def requireDispatchEnabled (t : Tables) (plugin : Option String) (connection : Option Uuid) :
    Result Unit :=
  require (stoppedBy t plugin connection = false) (.precondition "KILL_SWITCH_ACTIVE")

/-- `artifact_metadata_in`: the reference of an active artifact that the actor may read. -/
def artifactMetadata (env : Env) (t : Tables) (actor : CommandActor) (id : String) :
    Result ArtifactRef := do
  let artifactId ← parseUuid id
  let a ← okOr (t.journal.artifacts.get? artifactId) .notFound
  require (a.state = .active ∧ ("Artifact", artifactId.toText) ∉ t.journal.tombstones) .notFound
  let policy ← readPolicy env t actor
  require (policy.permits env "artifact.read" "Artifact" id
    [("classification", .str a.classification.toText), ("creator_id", .str a.creatorId.toText)]
      = true) .notFound
  return { artifactId := artifactId.toId, tenantId := actor.tenantId, digest := a.digest
           schemaVersion := a.schemaVersion, classification := a.classification }

/-- `load_artifact_ref`: the bytes behind a reference, which have to match it. -/
def loadArtifactRef (env : Env) (tick : Tick) (t : Tables) (actor : CommandActor)
    (reference : ArtifactRef) (maximum : Nat) : Result Bytes := do
  require (reference.tenantId = actor.tenantId) .notFound
  let artifactId ← parseUuid reference.artifactId.text
  let a ← okOr (t.journal.artifacts.get? artifactId) .notFound
  require (a.state = .active ∧ ("Artifact", artifactId.toText) ∉ t.journal.tombstones) .notFound
  require (a.digest = reference.digest ∧ a.classification = reference.classification ∧
    a.schemaVersion = reference.schemaVersion) (.precondition "ARTIFACT_REFERENCE_MISMATCH")
  require (a.sizeBytes ≤ maximum) (.invalid "PAYLOAD_TOO_LARGE")
  let bytes ← tick.object a.storageKey maximum
  require ((bytes.length : Int) = a.sizeBytes ∧ env.digestBytes bytes = reference.digest)
    (.artifactIntegrity reference)
  return bytes

end Masonwing
