import Masonwing.Store.Artifacts
import Masonwing.Store.Invocation
import Masonwing.Store.Memberships
import Masonwing.Store.Platform
import Masonwing.Store.Provisioning

/-!
# The host

Everything that writes the store of a tenant: the platform of `Store/Platform.lean`, the commands
on uploads, invocations, memberships, providers, connectors, dead letters and the catalogue, and
the two transactions of an upload, between which any other operation may run. A claim that was
handed out is remembered in the state of the host, as the process that transfers the bytes
remembers it.

The commands that remain write tables of their own, which nothing else reads; what they share with
the rest is the projection that each of them shows, and they come as an `Extension`.
-/

namespace Masonwing

open Outcome

variable {ι ν ε : Type}

/-! ## The other commands -/

/-- What the other commands show. -/
inductive ExtensionKind where
  | notification
  | supportGrant
  | schedule
  | uiRegistration
  | exportRequest
  | releaseQualification
  | conformanceRun
  | membershipInvitation
  | policyDecision
  | policyProposal
  | identityConfiguration

def ExtensionKind.toText : ExtensionKind → String
  | .notification => "Notification"
  | .supportGrant => "SupportGrant"
  | .schedule => "Schedule"
  | .uiRegistration => "UIRegistration"
  | .exportRequest => "Export"
  | .releaseQualification => "ReleaseQualification"
  | .conformanceRun => "ConformanceRun"
  | .membershipInvitation => "MembershipInvitation"
  | .policyDecision => "PolicyDecision"
  | .policyProposal => "PolicyProposal"
  | .identityConfiguration => "IdentityConfigurationProposal"

structure ExtensionChange where
  kind : ExtensionKind
  id : Uuid
  version : Version
  value : Json
  label : String

/-- The other commands, over any type of inputs: the projection they are authorized against
(`none` is the tenant) and what they show. -/
structure Extension (ε : Type) where
  operation : ε → String
  target : ε → Option (ExtensionKind × String)
  handle : Tick → Tables → CommandActor → ε → Result ExtensionChange

/-! ## Commands -/

inductive HostInput (ε : Type) where
  | artifactBegin (classification : Classification) (contentType : String) (size : Int)
      (digest : Digest)
  | artifactFinalize (artifactId : String) (observed : Digest)
  | pluginInvoke (pluginId handlerId : String) (inputRef : ArtifactRef) (grantId : String)
  | providerConfigure (profile : Json) (qualification : Option Json)
  | providerCompact (conversationId profileId : String) (expectedVersion : Int)
  | connectionAuthorize (provider : String) (scopes : List String) (returnTo : String)
  | deadletterReplay (eventId reason : String)
  | catalogSubmit (manifest : Json) (supportContact description : String)
  | catalogReview (listingId decision : String) (evidenceRef : Json) (expectedVersion : Int)
  | membershipChange (membershipId : String) (expectedVersion : Int) (roles : List String)
  | membershipRevoke (membershipId : String) (expectedVersion : Int)
  | other (input : ε)

structure Host (ι ν ε : Type) where
  platform : Platform ι
  packages : PluginEnv ν
  invocation : InvocationEnv
  extension : Extension ε
  inputValid : HostInput ε → Bool
  fingerprint : HostInput ε → Option Digest

namespace Host

def env (h : Host ι ν ε) : Env := h.platform.env

def operation (h : Host ι ν ε) : HostInput ε → String
  | .artifactBegin .. => "artifact.begin"
  | .artifactFinalize .. => "artifact.finalize"
  | .pluginInvoke .. => "plugin.invoke"
  | .providerConfigure .. => "provider.configure"
  | .providerCompact .. => "provider.compact"
  | .connectionAuthorize .. => "connection.authorize"
  | .deadletterReplay .. => "deadletter.replay"
  | .catalogSubmit .. => "catalog.submit"
  | .catalogReview .. => "catalog.review"
  | .membershipChange .. => "membership.change"
  | .membershipRevoke .. => "membership.revoke"
  | .other input => h.extension.operation input

end Host

/-! ## Authorization -/

/-- A resource as the policy sees it: its kind, identifier and attributes. -/
abbrev PolicyResource := String × String × List (String × Json)

def tenantResource (t : Tables) : PolicyResource := ("Tenant", t.identity.tenantId.toText, [])

/-- The current projection of a resource. -/
def projectionResource (t : Tables) (kind id : String) : Result PolicyResource := do
  let (version, artifact) ← okOr (currentProjection t.journal kind id) .notFound
  return (kind, id, [("version", .num version),
    ("classification", .str artifact.classification.toText)])

def installationResource (t : Tables) (pluginId : String) : Result PolicyResource := do
  let i ← okOr (t.registry.installations.get? pluginId) .notFound
  return ("PluginInstallation", i.id.toText, [("plugin_id", .str pluginId),
    ("version", .num i.version.val), ("state", .str i.state.toText)])

/-- The row is found by the parsed identifier; the policy is asked about the text. -/
def membershipResource (t : Tables) (membershipId : String) : Result PolicyResource := do
  let id ← parseUuid membershipId
  let (principal, m) ← okOr (membershipOf t id) .notFound
  return ("Membership", membershipId, [("version", .num m.version.val),
    ("state", .str m.status.toText), ("principal_id", .str principal.toText)])

/-- Here too the policy is asked about the text. -/
def artifactResource (t : Tables) (artifactId : String) : Result PolicyResource := do
  let id ← parseUuid artifactId
  let a ← okOr ((t.journal.artifacts.get? id).filter fun a => decide (a.state ≠ .purged)) .notFound
  return ("Artifact", artifactId, [("version", .num a.version.val),
    ("classification", .str a.classification.toText), ("creator_id", .str a.creatorId.toText)])

namespace Host

def resource (h : Host ι ν ε) (t : Tables) : HostInput ε → Result PolicyResource
  | .pluginInvoke pluginId _ _ _ => installationResource t pluginId
  | .membershipChange id _ _ => membershipResource t id
  | .membershipRevoke id _ => membershipResource t id
  | .artifactFinalize id _ => artifactResource t id
  | .catalogReview listingId _ _ _ => projectionResource t "CatalogListing" listingId
  | .other input =>
    match h.extension.target input with
    | none => .ok (tenantResource t)
    | some (kind, id) => projectionResource t kind.toText id
  | _ => .ok (tenantResource t)

/-- `authorize_command`. -/
def authorize (h : Host ι ν ε) (t : Tables) (c : Command (HostInput ε)) : Result Unit := do
  let policy ← readPolicy h.env t c.actor
  let (kind, id, attributes) ← h.resource t c.input
  require (policy.permits h.env (h.operation c.input) kind id attributes = true)
    (.denied "AUTHZ_DENIED")

/-! ## Handlers -/

def runExtension (h : Host ι ν ε) (tick : Tick) (t : Tables) (actor : CommandActor) (input : ε) :
    Result (Tables × Mutation) := do
  let change ← h.extension.handle tick t actor input
  return (t, .one change.kind.toText change.id change.version change.value change.label)

def dispatch (h : Host ι ν ε) (tick : Tick) (t : Tables) (c : Command (HostInput ε)) :
    Result (Tables × Mutation) :=
  let actor := c.actor
  match c.input with
  | .artifactBegin classification contentType size digest =>
    beginArtifact h.env tick t actor classification contentType size digest
  | .artifactFinalize artifactId observed => finalizeArtifact h.env t actor artifactId observed
  | .pluginInvoke pluginId handlerId inputRef grantId =>
    invokePlugin h.env h.packages h.invocation tick t actor pluginId handlerId inputRef grantId
  | .providerConfigure profile qualification => configureProvider tick t profile qualification
  | .providerCompact conversationId profileId expected =>
    compactProvider t conversationId profileId expected
  | .connectionAuthorize provider scopes returnTo =>
    authorizeConnection h.env tick t actor provider scopes returnTo
  | .deadletterReplay eventId reason => replayDeadletter t eventId reason
  | .catalogSubmit manifest supportContact description =>
    submitCatalog tick t actor manifest supportContact description
  | .catalogReview listingId decision evidenceRef expected =>
    reviewCatalog t actor listingId decision evidenceRef expected
  | .membershipChange membershipId expected roles =>
    changeMembership t actor membershipId expected roles
  | .membershipRevoke membershipId expected => revokeMembership t actor membershipId expected
  | .other input => h.runExtension tick t actor input

def service (h : Host ι ν ε) : Service (HostInput ε) :=
  { operation := h.operation
    inputValid := h.inputValid
    fingerprint := h.fingerprint
    authorize := h.authorize
    handle := h.dispatch }

end Host

/-! ## Steps -/

/-- An attempt to store the bytes of an upload that was handed its lease. -/
structure UploadAttempt where
  actor : CommandActor
  claim : UploadClaim

structure HostState where
  store : Store
  attempts : List UploadAttempt

inductive HostOperation (ι ε : Type) where
  | platform (operation : PlatformOperation ι)
  | command (c : Command (HostInput ε))
  | quarantine (c : Command (HostInput ε)) (reference : ArtifactRef)
  | claimUpload (actor : CommandActor) (uploadId : String) (contentLength : Option Int)
  | completeUpload (attempt : Nat) (outcome : Result Digest)

structure HostCall (ι ε : Type) where
  tick : Tick
  operation : HostOperation ι ε

inductive HostReply where
  | platform (reply : PlatformReply)
  | answer (a : Answer)
  | contained
  | claimed (claim : UploadClaim)
  | completed (failure : Option CommandFailure)

def runHostOperation (h : Host ι ν ε) (tick : Tick) (s : HostState) :
    HostOperation ι ε → Result (HostState × HostReply)
  | .platform operation => do
    let (store, reply) ← runPlatformOperation h.platform tick s.store operation
    return ({ s with store }, .platform reply)
  | .command c => do
    let (store, a) ← execute h.env h.service tick s.store c
    return ({ s with store }, .answer a)
  | .quarantine c reference => do
    let store ← quarantineCorruptArtifact h.env h.service tick s.store c reference
    return ({ s with store }, .contained)
  | .claimUpload actor uploadId contentLength => do
    let (tables, claim) ← claimUpload tick s.store.tables actor uploadId contentLength
    return ({ store := { s.store with tables }, attempts := s.attempts ++ [{ actor, claim }] },
      .claimed claim)
  | .completeUpload attempt outcome => do
    let a ← okOr s.attempts[attempt]? .notFound
    let (tables, failure) ← completeUpload h.env tick s.store.tables a.actor a.claim outcome
    return ({ s with store := { s.store with tables } }, .completed failure)

/-- One step of the host. -/
def hostStep (h : Host ι ν ε) (s : HostState) (c : HostCall ι ε) : HostState × Result HostReply :=
  transact s (runHostOperation h c.tick s c.operation)

abbrev HostEvent (ι ε : Type) := Machine.Event HostState (HostCall ι ε) (Result HostReply)

/-! ## The small tenant -/

namespace Sample

/-- The host of the small tenant; it has no plugin runtime and none of the other commands. -/
def host : Host Empty Nat Empty :=
  { platform, packages
    invocation := { runtime := none, strictJson := fun _ => none }
    extension :=
      { operation := Empty.elim
        target := Empty.elim
        handle := fun _ _ _ => Empty.elim }
    inputValid := fun _ => true
    fingerprint := fun _ => some (digest []) }

/-- The small tenant with its plugin enabled, before anything was started. -/
def office : HostState :=
  { store :=
      { tables := { workshop.tables with
          journal := { tables.journal with
            projections := ⟨[(projectionOf "Connection" connectionId, projection 11 .null),
              (projectionOf "Delegation" grantId, projection 12 .null)], by decide⟩ }
          delegations := tables.delegations }
        receipts := .empty }
    attempts := [] }

def onPlatform (c : PlatformCall Empty) : HostCall Empty Empty := ⟨c.tick, .platform c.operation⟩

/-- The command of the `n`-th second on the host, under a key of its own. -/
def hostCommand (n : Nat) (input : HostInput Empty) : HostCall Empty Empty :=
  { tick := reading n
    operation := .command
      { actor, input, idempotencyKey := (uuid n).toId, fingerprint := digest [] } }

/-- A request to delete an artifact in its version. -/
def deleteCall (n : Nat) (id : Uuid) (version : Version) : HostCall Empty Empty :=
  onPlatform (platformCommand n (.deletionRequest (resourceRef "Artifact" id version)
    "not needed any more" ("DELETE " ++ id.toText)))

def officeStart : HostCall Empty Empty := onPlatform (start 1 grantId)

/-- The host after a run that begins in the office. -/
abbrev fromOffice (calls : List (HostCall Empty Empty)) : HostState :=
  Machine.run (hostStep host) office calls

end Sample

end Masonwing
