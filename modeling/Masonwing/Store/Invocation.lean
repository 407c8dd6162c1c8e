import Masonwing.Store.Plugins

/-!
# Invoking a plugin

`invocation.rs`: `plugin.invoke` runs a pure handler of an enabled plugin on a stored artifact and
stores its output as an artifact derived from the input. The whole command is one transaction; the
grant and the rights of the input are checked once more when the runtime has answered.
-/

namespace Masonwing

open Outcome

variable {ν : Type}

/-- `PurePluginInvocation`, what the runtime is given. -/
structure PluginInvocation where
  invocationId : Uuid
  tenantId : OpaqueId
  manifest : PluginManifest
  handler : HandlerContract
  grantId : String
  grantedCapabilities : List Action
  artifactBytes : Bytes
  input : Bytes

/-- The plugin runtime, if the host has one, and the strict reader of JSON documents. -/
structure InvocationEnv where
  runtime : Option (Tick → PluginInvocation → Result Bytes)
  strictJson : Bytes → Option Json

def maxIoBytes : Nat := 4 * 1024 * 1024

def maxSchemaBytes : Nat := 256 * 1024

/-- The transaction after the runtime has answered. -/
def Tick.answered (tick : Tick) : Tick :=
  { tick with now := tick.stampedAt
              started_le_now := Int.le_trans tick.started_le_now tick.now_le_stamped
              now_le_stamped := Int.le_refl _ }

/-- The transaction as far as it stores the output, whose identifier is not one of a document. -/
def Tick.forOutput (tick : Tick) : Tick :=
  { tick with draw := fun
      | .artifact _ => tick.draw .output
      | d => tick.draw d }

/-! ## Checks -/

/-- Only an enabled plugin is invoked. -/
def requireInvocable (i : InstallationRow) : Result Unit :=
  match i.state with
  | .enabled => .ok ()
  | .draining => .error (.precondition "PLUGIN_DRAINING")
  | .revoked => .error (.precondition "PLUGIN_REVOKED")
  | _ => .error (.precondition "PLUGIN_NOT_ENABLED")

/-- The rights of an artifact that allow a transformation now. -/
def RightsRow.transforms (r : RightsRow) (now : Int) : Bool :=
  decide (r.state = .active) && r.allowTransform && decide (∀ last ∈ r.expiresAt, now < last)

def requireTransform (tick : Tick) (t : Tables) (input : Uuid) : Result Unit :=
  require ((t.rights.get? input).any (fun r => r.transforms tick.now) = true)
    (.denied "SOURCE_RIGHTS_DENIED")

/-- The input, as the actor may read it and as the grant names it. -/
def invocationInput (env : Env) (t : Tables) (actor : CommandActor) (grant : ActiveGrant)
    (inputRef : ArtifactRef) : Result Uuid := do
  require (inputRef.tenantId = actor.tenantId) .notFound
  let metadata ← artifactMetadata env t actor inputRef.artifactId.text
  require (metadata = inputRef) (.precondition "ARTIFACT_REFERENCE_MISMATCH")
  let id ← parseUuid inputRef.artifactId.text
  let a ← sql (okOr (t.journal.artifacts.get? id) .rowNotFound)
  require ("artifact.read" ∈ grant.actions ∧ resourceRef "Artifact" id a.version ∈ grant.resources)
    (.denied "CAPABILITY_DENIED")
  return id

/-- The capabilities of the installation that the grant names and the policy permits. -/
def effectiveCapabilities (env : Env) (policy : ReadPolicy) (pluginId : String)
    (i : InstallationRow) (grant : ActiveGrant) : Result (List Action) :=
  ((i.grantedCapabilities.filter fun a => grant.actions.contains a).filter fun a =>
    policy.permits env a "PluginInstallation" i.id.toText
      [("plugin_id", .str pluginId), ("version", .num i.version.val),
        ("state", .str "ENABLED")]).mapM
    fun a => okOr (OpaqueId.ofText? a) (.unavailable "CAPABILITY_INTEGRITY")

/-- A schema of the handler. -/
def invocationSchema (env : Env) (tick : Tick) (t : Tables) (actor : CommandActor)
    (reference : ArtifactRef) : Result Bytes := do
  let bytes ← loadArtifactRef env tick t actor reference maxSchemaBytes
  require (env.schemaCompiles bytes = true) (.precondition "PLUGIN_SCHEMA_INVALID")
  return bytes

/-- The canonical bytes of a document. -/
def canonicalDocument (env : Env) (invocation : InvocationEnv) (bytes : Bytes)
    (failure : CommandFailure) : Result Bytes := do
  let value ← okOr (invocation.strictJson bytes) failure
  okOr (env.canonicalBytes value) failure

/-! ## The command -/

/-- An invocation whose checks have passed. -/
structure Invocation where
  pluginId : String
  digest : Digest
  handler : HandlerContract
  installation : ResourceRef
  grant : ActiveGrant
  input : Uuid
  outputSchema : Bytes
  request : PluginInvocation

/-- Everything before the runtime is asked. -/
def admitInvocation (env : Env) (packages : PluginEnv ν) (invocation : InvocationEnv) (tick : Tick)
    (t : Tables) (actor : CommandActor) (pluginId handlerId : String) (inputRef : ArtifactRef)
    (grantId : String) : Result Invocation := do
  let i ← okOr (t.registry.installations.get? pluginId) .notFound
  requireInvocable i
  let (digest, manifest) ← storedManifest t.registry pluginId i.artifactDigest.toText
  let handler ← okOr (manifest.handlers.find? fun h => h.id == handlerId) .notFound
  require (handler.effects = "DETERMINISTIC" ∨ handler.effects = "READ_ONLY")
    (.precondition "EFFECT_BROKER_REQUIRED")
  requireDispatchEnabled t (some pluginId) none
  let grantUuid ← parseUuid grantId
  let installation := installationRef i
  let grant ← requireActiveGrant tick t actor grantUuid (some "plugin.invoke") (some installation)
  let input ← invocationInput env t actor grant inputRef
  requireTransform tick t input
  let policy ← readPolicy env t actor
  let effective ← effectiveCapabilities env policy pluginId i grant
  require (∀ required ∈ handler.requiredCapabilities, required ∈ effective)
    (.denied "CAPABILITY_DENIED")
  verifyPublisherAndPackage env packages tick t actor manifest
  let packageRef ← packageArtifact env tick t actor manifest.artifactDigest maxPackageBytes
  let artifactBytes ← loadArtifactRef env tick t actor packageRef maxPackageBytes
  let inputSchema ← invocationSchema env tick t actor handler.inputSchemaRef
  let outputSchema ← invocationSchema env tick t actor handler.outputSchemaRef
  let bytes ← loadArtifactRef env tick t actor inputRef maxIoBytes
  require (env.schemaAccepts inputSchema bytes = true) (.invalid "PLUGIN_INPUT_INVALID")
  let inputBytes ← canonicalDocument env invocation bytes (.invalid "PLUGIN_INPUT_INVALID")
  return { pluginId, digest, handler, installation, grant, input, outputSchema
           request :=
            { invocationId := tick.draw .invocation, tenantId := actor.tenantId, manifest, handler
              grantId, grantedCapabilities := effective, artifactBytes, input := inputBytes } }

/-- The rights of the input, for the output. -/
def copyRights (rights : Table Uuid RightsRow) (input output : Uuid) :
    Except SqlError (Table Uuid RightsRow) :=
  match rights.get? input with
  | none => .ok rights
  | some r => insertRow rights output { r with state := .active, version := .one }

def invocationValue (v : Invocation) (inputRef outputRef : ArtifactRef) : Json :=
  .obj [("invocation_id", .str v.request.invocationId.toText), ("plugin_id", .str v.pluginId),
    ("plugin_digest", .str v.digest.toText), ("handler", .str v.handler.id),
    ("grant_id", .str v.grant.id.toText), ("grant_fence", .num v.grant.fence),
    ("input_ref", inputRef.toJson), ("output_ref", outputRef.toJson), ("state", .str "SUCCEEDED"),
    ("version", .num 1)]

/-- Store what the runtime answered, as an artifact derived from the input. -/
def storeOutput (env : Env) (invocation : InvocationEnv) (tick : Tick) (t : Tables)
    (actor : CommandActor) (v : Invocation) (inputRef : ArtifactRef) (answer : Bytes) :
    Result (Tables × Mutation) := do
  let _ ← requireActiveGrant tick.answered t actor v.grant.id (some "plugin.invoke")
    (some v.installation)
  requireTransform tick.answered t v.input
  require (answer.length ≤ maxIoBytes ∧ env.schemaAccepts v.outputSchema answer = true)
    (.precondition "PLUGIN_OUTPUT_INVALID")
  let bytes ← canonicalDocument env invocation answer (.precondition "PLUGIN_OUTPUT_INVALID")
  let (journal, outputRef) ← persistArtifact env tick.forOutput actor 0 t.journal bytes
    "application/json" inputRef.classification
  let output ← parseUuid outputRef.artifactId.text
  require ((v.input, output) ∉ journal.lineage) (databaseFailure .uniqueViolation)
  let rights ← sql (copyRights t.rights v.input output)
  return ({ t with
      journal := { journal with lineage := journal.lineage ++ [(v.input, output)] }
      rights },
    .one "PluginInvocation" v.request.invocationId .one (invocationValue v inputRef outputRef)
      (v.pluginId ++ " " ++ v.handler.id))

def invokePlugin (env : Env) (packages : PluginEnv ν) (invocation : InvocationEnv) (tick : Tick)
    (t : Tables) (actor : CommandActor) (pluginId handlerId : String) (inputRef : ArtifactRef)
    (grantId : String) : Result (Tables × Mutation) := do
  let runtime ← okOr invocation.runtime (.unavailable "PLUGIN_RUNTIME_UNAVAILABLE")
  let v ← admitInvocation env packages invocation tick t actor pluginId handlerId inputRef grantId
  let answer ← runtime tick v.request
  storeOutput env invocation tick t actor v inputRef answer

end Masonwing
