import Masonwing.Store.Manifests
import Masonwing.Store.Platform

/-!
# The lifecycle of plugins

`registry.rs`: install, enable, disable, upgrade and uninstall, as the `Lifecycle` of a platform;
`revoke_plugin` is in `Store/Registry.lean`. The manifest in a row of `plugin_versions` is the
document it was stored with, and the columns beside it (`contract_version`, `plugin_version`,
`signature_id`) repeat fields of that document.
-/

namespace Masonwing

open Outcome

variable {ν : Type}

def illegalTransition : CommandFailure := .conflict "ILLEGAL_TRANSITION"

/-! ## Packages -/

/-- `ORDER BY created_at, id`. -/
def earlier (a b : Uuid × ArtifactRow) : Bool :=
  decide (a.2.createdAt < b.2.createdAt ∨ a.2.createdAt = b.2.createdAt ∧ a.1.bits ≤ b.1.bits)

/-- `package_artifact`: the oldest active artifact with the digest, whose bytes have to match. -/
def packageArtifact (env : Env) (tick : Tick) (t : Tables) (actor : CommandActor)
    (digest : Digest) (maximum : Nat) : Result ArtifactRef := do
  let stored := t.journal.artifacts.select fun id a =>
    decide (a.digest = digest ∧ a.state = .active ∧ ("Artifact", id.toText) ∉ t.journal.tombstones)
  let (id, a) ← okOr (stored.insertionSort fun a b => earlier a b = true).head? .notFound
  let reference : ArtifactRef :=
    { artifactId := id.toId, tenantId := actor.tenantId, digest, schemaVersion := a.schemaVersion
      classification := a.classification }
  let _ ← loadArtifactRef env tick t actor reference maximum
  return reference

def maxCommandBytes : Nat := 1024 * 1024

/-- `verify_publisher_and_package`: the build was not revoked, its manifest is signed by a trusted
publisher, and its package and bill of materials are stored. -/
def verifyPublisherAndPackage (env : Env) (packages : PluginEnv ν) (tick : Tick) (t : Tables)
    (actor : CommandActor) (m : PluginManifest) : Result Unit := do
  require (t.registry.revocations.contains (m.id.text, m.artifactDigest) = false)
    (.precondition "PLUGIN_REVOKED")
  let s ← okOr (packages.signature tick m.signatureRef) (.precondition "PUBLISHER_UNTRUSTED")
  let digest ← manifestDigest env m
  require (s.publisherId = m.publisherId ∧ s.artifactDigest = m.artifactDigest ∧
    s.manifestDigest = digest) signatureInvalid
  verifySignature env packages m s.publicKey s.signature
  require (m.executionClass = .trustedNative →
    (m.id.text, m.artifactDigest.toText) ∈ packages.nativePackages)
    (.precondition "NATIVE_PLUGIN_NOT_ALLOWLISTED")
  let _ ← packageArtifact env tick t actor m.artifactDigest maxPackageBytes
  let _ ← packageArtifact env tick t actor m.sbomDigest maxCommandBytes
  return ()

/-! ## Installation checks -/

/-- Not uninstalled and not revoked. -/
def InstallationState.selected : InstallationState → Bool
  | .uninstalled | .revoked => false
  | _ => true

/-- The stored manifests of the selected installations, in the order of their plugins. -/
def selectedVersions (registry : Registry) : List (String × PluginManifest) :=
  (((registry.installations.select fun _ i => i.state.selected).filterMap fun p =>
    (registry.pluginVersions.get? (p.1, p.2.artifactDigest)).map fun m => (p.1, m)).insertionSort
      fun a b => a.1 ≤ b.1).take 513

def selectedManifests (registry : Registry) : Manifests :=
  (selectedVersions registry).foldl (fun manifests p => manifests.upsert p.2.id p.2) .empty

/-- A reference that a manifest repeats has to be the same everywhere. -/
def addReference (references : Table String ArtifactRef) (r : ArtifactRef) :
    Result (Table String ArtifactRef) := do
  require (∀ previous ∈ references.get? r.artifactId.text, previous = r)
    (.precondition "ARTIFACT_REFERENCE_MISMATCH")
  return references.upsert r.artifactId.text r

def schemaReferences (m : PluginManifest) : List ArtifactRef :=
  (m.handlers.flatMap fun h => [h.inputSchemaRef, h.outputSchemaRef]) ++
    (m.tools.flatMap fun t => [t.inputSchemaRef, t.outputSchemaRef]) ++ m.dataContracts

/-- The bytes behind a reference are a schema. -/
def checkSchema (env : Env) (tick : Tick) (t : Tables) (actor : CommandActor)
    (reference : ArtifactRef) : Result Unit := do
  let bytes ← loadArtifactRef env tick t actor reference maxCommandBytes
  require (env.schemaCompiles bytes = true) (.precondition "PLUGIN_SCHEMA_INVALID")

def documentReferences (w : WorkflowDocument) : List ArtifactRef :=
  [w.inputSchemaRef, w.outputSchemaRef] ++
    w.nodes.flatMap fun n => [n.inputSchemaRef, n.outputSchemaRef]

/-- One workflow of a manifest after the workflows `seen`. -/
def addWorkflow (env : Env) (packages : PluginEnv ν) (tick : Tick) (t : Tables)
    (actor : CommandActor) (m : PluginManifest) (seen : List WorkflowDocument)
    (reference : ArtifactRef) : Result (List WorkflowDocument) := do
  let bytes ← loadArtifactRef env tick t actor reference maxCommandBytes
  let w ← okOr (packages.readWorkflow bytes) workflowInvalid
  validateWorkflow env w m
  require ((w.id, w.version) ∉ seen.map fun w' => (w'.id, w'.version)) workflowInvalid
  let _ ← (documentReferences w).mapM (checkSchema env tick t actor)
  return seen ++ [w]

/-- `verify_installation`: all that has to hold before a build is stored; it returns the workflows
that the build ships. -/
def verifyInstallation (env : Env) (packages : PluginEnv ν) (tick : Tick) (t : Tables)
    (actor : CommandActor) (m : PluginManifest) : Result (List WorkflowDocument) := do
  validateManifest env packages.knownCapabilities actor.tenantId m
  let _ ← resolveManifests packages ((selectedManifests t.registry).upsert m.id m)
  require (m.migrations = []) (.precondition "PLUGIN_MIGRATION_UNQUALIFIED")
  verifyPublisherAndPackage env packages tick t actor m
  let references ← (schemaReferences m).foldlM addReference .empty
  let _ ← ((references.rows.insertionSort fun a b => a.1 ≤ b.1).map (·.2)).mapM
    (checkSchema env tick t actor)
  m.workflows.foldlM (addWorkflow env packages tick t actor m) []

/-- The definition of one workflow of a build. -/
def addDefinition (tick : Tick) (m : PluginManifest)
    (definitions : Table (String × String × Digest) WorkflowDefinitionRow)
    (w : WorkflowDocument) :
    Except SqlError (Table (String × String × Digest) WorkflowDefinitionRow) :=
  insertRow definitions (w.id, w.version, m.artifactDigest)
    { pluginId := m.id.text, inputSchema := some w.inputSchemaRef, createdAt := tick.startedAt }

/-- `save_plugin_version`: a build is stored once, and so is each version of a plugin. -/
def savePluginVersion (tick : Tick) (registry : Registry) (m : PluginManifest)
    (workflows : List WorkflowDocument) : Result Registry := do
  require (registry.pluginVersions.any (fun k m' =>
    decide (k.1 = m.id.text ∧ m'.version = m.version)) = false) (databaseFailure .uniqueViolation)
  let pluginVersions ← sql (insertRow registry.pluginVersions (m.id.text, m.artifactDigest) m)
  let workflowDefinitions ←
    sql (workflows.foldlM (addDefinition tick m) registry.workflowDefinitions)
  return { registry with pluginVersions, workflowDefinitions }

/-- `require_enabled_dependencies`: an optional plugin that is not installed is passed over. -/
def requireEnabledDependency (packages : PluginEnv ν) (registry : Registry)
    (d : PluginDependency) : Result Unit :=
  let row := (registry.installations.get? d.pluginId.text).bind fun i =>
    (registry.pluginVersions.get? (d.pluginId.text, i.artifactDigest)).map fun m => (i, m)
  match row with
  | none => require (d.optional = true) (.precondition "DEPENDENCY_UNSATISFIED")
  | some (i, m) => do
    require (i.state = .enabled) (.precondition "DEPENDENCY_NOT_ENABLED")
    let version ← okOr (packages.parseVersion m.contractVersion) manifestInvalid
    let range ← okOr (packages.parseRange d.contractRange) manifestInvalid
    require (range version = true) (.precondition "DEPENDENCY_UNSATISFIED")

def requireEnabledDependencies (packages : PluginEnv ν) (registry : Registry)
    (m : PluginManifest) : Result Unit := do
  let _ ← m.dependencies.mapM (requireEnabledDependency packages registry)
  return ()

def hasActivePluginRuns (t : Tables) (pluginId : String) : Bool :=
  t.runs.any fun _ r => decide (r.pluginId = pluginId) && !r.state.ended

/-! ## The commands -/

/-- What a command on plugins leaves: the registry, what it reports and what it shows. -/
abbrev RegistryMutation := Registry × ResourceRef × List RegistryChange

def installationRef (i : InstallationRow) : ResourceRef :=
  resourceRef "PluginInstallation" i.id i.version

def installationChange (pluginId : String) (i : InstallationRow) : RegistryChange :=
  { kind := .installation, id := i.id, version := i.version
    value := installationValue pluginId i, label := pluginId }

def manifestChange (tick : Tick) (m : PluginManifest) : RegistryChange :=
  { kind := .manifest, id := tick.draw .manifest, version := .one, value := m.toJson
    label := m.id.text ++ " " ++ m.version }

/-- Replace an installation, showing it in each of the given versions. -/
def setInstallation (registry : Registry) (pluginId : String) (i : InstallationRow)
    (changes : List RegistryChange) : RegistryMutation :=
  ({ registry with installations := registry.installations.set pluginId i }, installationRef i,
    changes)

def installPlugin (env : Env) (packages : PluginEnv ν) (tick : Tick) (t : Tables)
    (actor : CommandActor) (m : PluginManifest) : Result RegistryMutation := do
  let workflows ← verifyInstallation env packages tick t actor m
  let registry ← savePluginVersion tick t.registry m workflows
  let i : InstallationRow :=
    { id := tick.draw .installation, state := .installedDisabled
      artifactDigest := m.artifactDigest, grantedCapabilities := [], revocationEpoch := 1
      version := .one }
  require (registry.installations.any (fun _ i' => decide (i'.id = i.id)) = false)
    (databaseFailure .uniqueViolation)
  let installations ← sql (insertRow registry.installations m.id.text i)
  return ({ registry with installations }, installationRef i,
    [installationChange m.id.text i, manifestChange tick m])

/-- The grants are different, requested by the manifest and permitted by the policy. -/
def checkGrants (env : Env) (t : Tables) (policy : ReadPolicy) (m : PluginManifest)
    (grants : List String) : Result Unit :=
  require (grants.Nodup ∧ ∀ grant ∈ grants, grant ∈ m.requestedCapabilities.map (·.text) ∧
    policy.permits env grant "Tenant" t.identity.tenantId.toText [] = true)
    (.denied "CAPABILITY_DENIED")

def enablePlugin (env : Env) (packages : PluginEnv ν) (tick : Tick) (t : Tables)
    (actor : CommandActor) (pluginId artifactDigest : String) (grants : List String)
    (expectedVersion : Int) : Result RegistryMutation := do
  let i ← okOr (t.registry.installations.get? pluginId) .notFound
  let version ← requireExpectedVersion i.version expectedVersion
  require (i.state = .installedDisabled ∨ i.state = .disabled) illegalTransition
  require (i.artifactDigest.toText = artifactDigest) (.conflict "PLUGIN_DIGEST_MISMATCH")
  let (_, m) ← storedManifest t.registry pluginId artifactDigest
  verifyPublisherAndPackage env packages tick t actor m
  requireEnabledDependencies packages t.registry m
  requireDispatchEnabled t (some m.id.text) none
  let policy ← readPolicy env t actor
  checkGrants env t policy m grants
  let i' : InstallationRow := { i with state := .enabled, grantedCapabilities := grants, version }
  return setInstallation t.registry pluginId i' [installationChange pluginId i']

/-- Draining as long as the plugin has active runs, disabled once it has none. From an enabled
plugin without active runs both steps are taken at once, each with a version of its own. -/
def disablePlugin (t : Tables) (pluginId : String) (expectedVersion : Int) (reason : String) :
    Result RegistryMutation := do
  requireReason reason
  let i ← okOr (t.registry.installations.get? pluginId) .notFound
  let version ← requireExpectedVersion i.version expectedVersion
  let active := hasActivePluginRuns t pluginId
  require (i.state = .enabled ∨ i.state = .draining) illegalTransition
  require (i.state = .draining → active = false) illegalTransition
  let drained : InstallationRow := { i with state := .draining, version }
  if i.state = .enabled then
    if active then
      return setInstallation t.registry pluginId drained [installationChange pluginId drained]
    else do
      let last ← okOr version.next? illegalTransition
      let i' : InstallationRow := { drained with state := .disabled, version := last }
      return setInstallation t.registry pluginId i'
        [installationChange pluginId drained, installationChange pluginId i']
  else
    let i' : InstallationRow := { i with state := .disabled, version }
    return setInstallation t.registry pluginId i' [installationChange pluginId i']

/-- `Version::parse(new) <= Version::parse(old)` is refused. -/
def requireNewer [LinearOrder ν] (packages : PluginEnv ν) (new old : PluginManifest) :
    Result Unit := do
  let newVersion ← okOr (packages.parseVersion new.version) manifestInvalid
  let oldVersion ← okOr (packages.parseVersion old.version) manifestInvalid
  require (oldVersion < newVersion) (.precondition "ROLLBACK_UNSAFE")

def upgradePlugin [LinearOrder ν] (env : Env) (packages : PluginEnv ν) (tick : Tick) (t : Tables)
    (actor : CommandActor) (pluginId : String) (m : PluginManifest) (expectedVersion : Int) :
    Result RegistryMutation := do
  let i ← okOr (t.registry.installations.get? pluginId) .notFound
  let version ← requireExpectedVersion i.version expectedVersion
  require (m.id.text = pluginId) manifestInvalid
  require (i.state = .enabled ∨ i.state = .disabled ∨ i.state = .installedDisabled)
    illegalTransition
  let (_, old) ← storedManifest t.registry pluginId i.artifactDigest.toText
  requireNewer packages m old
  let workflows ← verifyInstallation env packages tick t actor m
  if i.state = .enabled then requireEnabledDependencies packages t.registry m
  let registry ← savePluginVersion tick t.registry m workflows
  let i' : InstallationRow :=
    { i with artifactDigest := m.artifactDigest, version
             grantedCapabilities := i.grantedCapabilities.filter fun g =>
               decide (g ∈ m.requestedCapabilities.map (·.text)) }
  return setInstallation registry pluginId i'
    [installationChange pluginId i', manifestChange tick m]

def uninstallPlugin (packages : PluginEnv ν) (t : Tables) (pluginId : String)
    (expectedVersion : Int) (dataPolicy : String) : Result RegistryMutation := do
  let i ← okOr (t.registry.installations.get? pluginId) .notFound
  let version ← requireExpectedVersion i.version expectedVersion
  require (i.state = .installedDisabled ∨ i.state = .disabled) illegalTransition
  require (dataPolicy = "RETAIN") (.precondition "EXPORT_REQUIRED")
  require (hasActivePluginRuns t pluginId = false) (.precondition "PLUGIN_HAS_ACTIVE_RUNS")
  let id ← okOr (OpaqueId.ofText? pluginId) manifestInvalid
  let _ ← resolveManifests packages ((selectedManifests t.registry).erase id)
  let revocationEpoch ← sql (bigint (i.revocationEpoch + 1))
  let i' : InstallationRow :=
    { i with state := .uninstalled, grantedCapabilities := [], revocationEpoch, version }
  return setInstallation t.registry pluginId i' [installationChange pluginId i']

/-! ## The platform with these commands -/

/-- Their inputs after the fields were read. -/
inductive PluginInput where
  | install (manifest : PluginManifest)
  | enable (pluginId artifactDigest : String) (grants : List String) (expectedVersion : Int)
  | disable (pluginId : String) (expectedVersion : Int) (reason : String)
  | upgrade (pluginId : String) (newManifest : PluginManifest) (expectedVersion : Int)
  | uninstall (pluginId : String) (expectedVersion : Int) (dataPolicy : String)

namespace PluginInput

def operation : PluginInput → LifecycleOperation
  | .install .. => .install
  | .enable .. => .enable
  | .disable .. => .disable
  | .upgrade .. => .upgrade
  | .uninstall .. => .uninstall

/-- The plugin that a command is about. -/
def pluginId : PluginInput → String
  | .install m => m.id.text
  | .enable pluginId .. => pluginId
  | .disable pluginId .. => pluginId
  | .upgrade pluginId .. => pluginId
  | .uninstall pluginId .. => pluginId

end PluginInput

/-- `authorize_command`: an installation is authorized against the tenant, every other command
against the installation. -/
def authorizePlugin (env : Env) (t : Tables) (actor : CommandActor) (input : PluginInput) :
    Result Unit := do
  let policy ← readPolicy env t actor
  let operation := input.operation.toText
  match input with
  | .install _ =>
    require (policy.permits env operation "Tenant" t.identity.tenantId.toText [] = true)
      (.denied "AUTHZ_DENIED")
  | _ => do
    let i ← okOr (t.registry.installations.get? input.pluginId) .notFound
    require (policy.permits env operation "PluginInstallation" i.id.toText
      [("plugin_id", .str input.pluginId), ("version", .num i.version.val),
        ("state", .str i.state.toText)] = true) (.denied "AUTHZ_DENIED")

def handlePlugin [LinearOrder ν] (env : Env) (packages : PluginEnv ν) (tick : Tick) (t : Tables)
    (actor : CommandActor) : PluginInput → Result RegistryMutation
  | .install m => installPlugin env packages tick t actor m
  | .enable pluginId artifactDigest grants expected =>
    enablePlugin env packages tick t actor pluginId artifactDigest grants expected
  | .disable pluginId expected reason => disablePlugin t pluginId expected reason
  | .upgrade pluginId m expected => upgradePlugin env packages tick t actor pluginId m expected
  | .uninstall pluginId expected dataPolicy => uninstallPlugin packages t pluginId expected dataPolicy

def pluginLifecycle [LinearOrder ν] (env : Env) (packages : PluginEnv ν) :
    Lifecycle PluginInput :=
  { operation := PluginInput.operation
    authorize := authorizePlugin env
    handle := handlePlugin env packages }

/-- The platform whose commands on plugins are the modelled ones. -/
def pluginPlatform [LinearOrder ν] (env : Env) (packages : PluginEnv ν)
    (catalogue : PlatformCatalogue PluginInput) : Platform PluginInput :=
  { env, catalogue, lifecycle := pluginLifecycle env packages }

/-! ## A tenant without plugins

The packages, bills of materials and workflows of two plugins are stored, nothing is installed. An
object holds the bytes of its own key. -/

namespace Sample

def bytesOf (key : String) : Bytes := key.toList.map fun c => UInt8.ofNat c.toNat

def digits (cs : List Char) : Option Nat :=
  if cs.isEmpty then none
  else cs.foldlM (fun n c => if c.isDigit then some (10 * n + (c.toNat - 48)) else none) 0

/-- Versions of three small numbers, as one number. -/
def parseVersion (text : String) : Option Nat :=
  match text.toList.splitOn '.' with
  | [a, b, c] => do return 1000000 * (← digits a) + 1000 * (← digits b) + (← digits c)
  | _ => none

/-- Ranges of the form `^a.b`. -/
def parseRange (text : String) : Option (Nat → Bool) :=
  match text.toList with
  | '^' :: rest =>
    match rest.splitOn '.' with
    | [a, b] => do
      let major ← digits a
      let minor ← digits b
      return fun v => decide (v / 1000000 = major ∧ 1000000 * major + 1000 * minor ≤ v)
    | _ => none
  | _ => none

def storedRef (n : Nat) (key : String) : ArtifactRef :=
  { artifactId := (uuid n).toId, tenantId := tenantId.toId, digest := digest (bytesOf key)
    schemaVersion := "1.0.0", classification := .internal }

/-- A workflow of one waiting node. -/
def unsealed : WorkflowDocument :=
  { id := "report", version := "1.0.0", inputSchemaRef := storedRef 45 "schema"
    outputSchemaRef := storedRef 45 "schema", entryNode := "wait"
    nodes := [{ id := "wait", kind := "TIMER", handlerId := none
                inputSchemaRef := storedRef 45 "schema", outputSchemaRef := storedRef 45 "schema"
                maxAttempts := 1, timeoutSeconds := 30, maxIterations := 1, onFailure := "FAIL" }]
    edges := [], maxTotalSteps := 10, maxModelTurns := 5, requiredActions := []
    digest := digest [] }

def document : WorkflowDocument :=
  { unsealed with digest := digest (render unsealed.contentJson).toUTF8.data.toList }

/-- The manifest of a plugin with one package. -/
def build (name : String) (hName : opaqueIdentifier name = true) (version package : String)
    (dependencies : List PluginDependency) (workflows : List ArtifactRef) : PluginManifest :=
  { id := ⟨name, hName⟩, version, contractVersion := "1.0.0"
    artifactDigest := digest (bytesOf package), publisherId := "publisher"
    executionClass := .wasmComponent, requestedCapabilities := [⟨"report.read", by decide⟩]
    dependencies, ui := [], migrations := [], licenseExpression := "MIT"
    sbomDigest := digest (bytesOf "sbom"), signatureRef := package, handlers := [], workflows
    dataContracts := [], tools := [] }

def storage : PluginManifest := build "storage" (by decide) "1.0.0" "storage" [] []

/-- A plugin that requires the other one. -/
def reports : PluginManifest :=
  build "reports" (by decide) "1.0.0" "reports"
    [{ pluginId := ⟨"storage", by decide⟩, contractRange := "^1.0", optional := false }]
    [storedRef 46 "workflow"]

/-- A plugin that ships the same workflow and requires nothing. -/
def printing : PluginManifest :=
  build "printing" (by decide) "1.0.0" "printing" [] [storedRef 46 "workflow"]

def storageNext : PluginManifest := build "storage" (by decide) "1.1.0" "storage-next" [] []

/-- Every build above is signed under the name of its package. -/
def packages : PluginEnv Nat :=
  { parseVersion, parseRange
    keyParses := fun _ => true
    signatureParses := fun _ => true
    verifies := fun _ _ _ => true
    knownCapabilities := ["report.read"]
    nativePackages := []
    signature := fun _ handle => ([storage, reports, printing, storageNext].find? fun m =>
      m.signatureRef == handle).map fun m =>
        { publisherId := m.publisherId, artifactDigest := m.artifactDigest
          manifestDigest := digest (render m.signedJson).toUTF8.data.toList
          signature := [], publicKey := [] }
    readWorkflow := fun bytes => if bytes = bytesOf "workflow" then some document else none }

def pluginCatalogue : PlatformCatalogue PluginInput :=
  { core := catalogue
    inputValid := fun _ => true
    fingerprint := fun _ => some (digest []) }

def plugins : Platform PluginInput := pluginPlatform env packages pluginCatalogue

/-- A transaction of the `n`-th second that reads the stored objects. -/
def stocked (n : Nat) : Tick := { tick n with object := fun key _ => .ok (bytesOf key) }

/-- The command of the `n`-th second on plugins, under a key of its own. -/
def pluginCommand (n : Nat) (input : PlatformInput PluginInput) : PlatformCall PluginInput :=
  { tick := stocked n
    operation := .command
      { actor, input, idempotencyKey := (uuid n).toId, fingerprint := digest [] } }

def lifecycleCommand (n : Nat) (input : PluginInput) : PlatformCall PluginInput :=
  pluginCommand n (.lifecycle input)

/-- The small tenant before any plugin was installed. -/
def shelf : Store :=
  { tables := { tables with
      journal := { tables.journal with
        artifacts := ⟨[(uuid 41, artifact (bytesOf "storage") "storage"),
          (uuid 42, artifact (bytesOf "reports") "reports"),
          (uuid 43, artifact (bytesOf "storage-next") "storage-next"),
          (uuid 44, artifact (bytesOf "sbom") "sbom"),
          (uuid 45, artifact (bytesOf "schema") "schema"),
          (uuid 46, artifact (bytesOf "workflow") "workflow"),
          (uuid 47, artifact (bytesOf "printing") "printing")], by decide⟩
        projections := .empty }
      registry := ⟨.empty, .empty, .empty, .empty, .empty⟩
      delegations := .empty
      runs := .empty }
    receipts := .empty }

abbrev fromShelf (calls : List (PlatformCall PluginInput)) : Store :=
  Machine.run (platformStep plugins) shelf calls

end Sample

end Masonwing
