import Masonwing.Store.RunCommands

/-!
# The plugin registry

`registry.rs`: the emergency stop `plugin.revoke`, which stops the runs of a build together with
its installation. The other commands on plugins (install, enable, disable, upgrade, uninstall) and
the composition of a product write nothing but the registry and projections of it; they come as a
`Lifecycle`, whose type leaves them no other row to write.
-/

namespace Masonwing

open Outcome

/-- `installation_projection`. -/
def installationValue (pluginId : String) (i : InstallationRow) : Json :=
  .obj [("installation_id", .str i.id.toText), ("plugin_id", .str pluginId),
    ("artifact_digest", .str i.artifactDigest.toText), ("state", .str i.state.toText),
    ("granted_capabilities", .arr (i.grantedCapabilities.map .str)),
    ("revocation_epoch", .num i.revocationEpoch), ("version", .num i.version.val)]

def installationProjection (pluginId : String) (i : InstallationRow) : Mutation :=
  .one "PluginInstallation" i.id i.version (installationValue pluginId i) pluginId

/-! ## Revoking a build -/

/-- `stored_manifest`: the build that a text names, with its manifest. -/
def storedManifest (registry : Registry) (pluginId artifactDigest : String) :
    Result (Digest × PluginManifest) := do
  let version ← okOr (registry.pluginVersions.find? fun k _ =>
    decide (k.1 = pluginId ∧ k.2.toText = artifactDigest)) .notFound
  return (version.1.2, version.2)

/-- What a revocation leaves of an installation; one of another build keeps its state. -/
def revokeInstallation (i : InstallationRow) (digest : Digest) : Result InstallationRow := do
  let version ← okOr i.version.next? (.conflict "ILLEGAL_TRANSITION")
  let revocationEpoch ← sql (bigint (i.revocationEpoch + 1))
  return { i with
    state := if i.artifactDigest = digest ∧ i.state ≠ .uninstalled then .revoked else i.state
    grantedCapabilities := if i.artifactDigest = digest then [] else i.grantedCapabilities
    revocationEpoch, version }

/-- A run of the build that has not ended. -/
def stoppedRun (pluginId : String) (digest : Digest) (_ : Uuid) (r : RunRow) : Bool :=
  decide (r.pluginId = pluginId ∧ r.pluginDigest = digest) && !r.state.ended

/-- A running run is blocked; every other one keeps its state and is only kept from starting. -/
def stopRow (tick : Tick) (r : RunRow) : Except SqlError RunRow := do
  let fence ← bigint (r.fence + 1)
  let version ← okOr r.version.next? .numericOutOfRange
  return { r with
    state := if r.state = .running then .blocked else r.state
    dispatchState := .blocked, failureCode := some "PLUGIN_REVOKED", fence, version
    updatedAt := tick.now }

/-- `run_projection`: the projection of a stopped run, without its input as a source. -/
def stoppedChange (env : Env) (tenant : Uuid) (row : Uuid × RunRow) : ProjectionChange :=
  { resource := resourceRef "Run" row.1 row.2.version
    value := runProjectionValue env tenant row.1 row.2
    label := row.2.workflowId
    sourceArtifacts := [] }

def revokePlugin (env : Env) (tick : Tick) (t : Tables) (actor : CommandActor)
    (pluginId artifactDigest reason : String) : Result (Tables × Mutation) := do
  requireReason reason
  let i ← okOr (t.registry.installations.get? pluginId) .notFound
  let (digest, _) ← storedManifest t.registry pluginId artifactDigest
  let revokedBy ← parseUuid actor.principalId.text
  let revocations ← sql (insertRow t.registry.revocations (pluginId, digest) { reason, revokedBy })
  let i' ← revokeInstallation i digest
  let runs ← sql (t.runs.updateWhereM (stoppedRun pluginId digest) (stopRow tick))
  let stopped := (t.runs.select (stoppedRun pluginId digest)).filterMap fun r =>
    (runs.get? r.1).map fun r' => (r.1, r')
  let m := installationProjection pluginId i'
  let installations := t.registry.installations.set pluginId i'
  return ({ t with registry := { t.registry with installations, revocations }, runs },
    { m with changes := m.changes ++ stopped.map (stoppedChange env t.identity.tenantId) })

/-! ## The other commands on plugins -/

inductive LifecycleOperation where
  | install
  | enable
  | disable
  | upgrade
  | uninstall
  | compose

def LifecycleOperation.toText : LifecycleOperation → String
  | .install => "plugin.install"
  | .enable => "plugin.enable"
  | .disable => "plugin.disable"
  | .upgrade => "plugin.upgrade"
  | .uninstall => "plugin.uninstall"
  | .compose => "product.compose"

/-- What these commands show. -/
inductive RegistryKind where
  | installation
  | manifest
  | composition

def RegistryKind.toText : RegistryKind → String
  | .installation => "PluginInstallation"
  | .manifest => "PluginManifest"
  | .composition => "ProductComposition"

structure RegistryChange where
  kind : RegistryKind
  id : Uuid
  version : Version
  value : Json
  label : String

def RegistryChange.projection (c : RegistryChange) : ProjectionChange :=
  { resource := resourceRef c.kind.toText c.id c.version, value := c.value, label := c.label
    sourceArtifacts := [] }

/-- The commands that write only the registry, over any type of inputs. -/
structure Lifecycle (ι : Type) where
  operation : ι → LifecycleOperation
  authorize : Tables → CommandActor → ι → Result Unit
  handle : Tick → Tables → CommandActor → ι →
    Result (Registry × ResourceRef × List RegistryChange)

def Lifecycle.run {ι : Type} (lifecycle : Lifecycle ι) (tick : Tick) (t : Tables)
    (actor : CommandActor) (input : ι) : Result (Tables × Mutation) := do
  let (registry, primary, changes) ← lifecycle.handle tick t actor input
  return ({ t with registry },
    { primary, changes := changes.map RegistryChange.projection, runId := none, effectId := none
      accepted := false })

end Masonwing
