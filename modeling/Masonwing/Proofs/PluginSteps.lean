import Masonwing.Proofs.JournalSteps
import Masonwing.Proofs.Resolution
import Masonwing.Store.Plugins

/-!
# What the commands on plugins do

Each command on plugins read back: `PluginMove` has one case for each way in which install,
enable, disable, upgrade and uninstall succeed, with the checks that were passed, and
`BuildRevoked` is the one way in which a revocation does. `registry_cases` puts them together for
the whole platform: a step leaves the plugins alone, commits one of these commands, or revokes a
build.
-/

namespace Masonwing

open Outcome

variable {ν : Type}

/-! ## The checks -/

/-- A dependency runs: its installation is enabled, with a contract in the range. -/
def DependencyRunning (packages : PluginEnv ν) (registry : Registry) (d : PluginDependency) :
    Prop :=
  ∃ i m version range, registry.installations.get? d.pluginId.text = some i ∧ i.state = .enabled ∧
    registry.pluginVersions.get? (d.pluginId.text, i.artifactDigest) = some m ∧
    packages.parseVersion m.contractVersion = some version ∧
    packages.parseRange d.contractRange = some range ∧ range version = true

/-- What the checks before a build is stored establish about the registry. -/
structure Verified (packages : PluginEnv ν) (registry : Registry) (m : PluginManifest) : Prop where
  resolves : ∃ order,
    resolveManifests packages ((selectedManifests registry).upsert m.id m) = .ok order
  trusted : registry.revocations.get? (m.id.text, m.artifactDigest) = none

/-- The registry after a build was stored with its workflows. -/
structure Saved (tick : Tick) (registry : Registry) (m : PluginManifest)
    (workflows : List WorkflowDocument) (registry' : Registry) : Prop where
  versions : registry.pluginVersions.insert? (m.id.text, m.artifactDigest) m =
    some registry'.pluginVersions
  definitions : workflows.foldlM (addDefinition tick m) registry.workflowDefinitions =
    .ok registry'.workflowDefinitions
  others : registry' = { registry with pluginVersions := registry'.pluginVersions
                                       workflowDefinitions := registry'.workflowDefinitions }

section Checks

variable {env : Env} {packages : PluginEnv ν} {tick : Tick} {t : Tables} {actor : CommandActor}
  {m : PluginManifest}

theorem verifyPublisherAndPackage_ok {u : Unit}
    (h : verifyPublisherAndPackage env packages tick t actor m = .ok u) :
    t.registry.revocations.get? (m.id.text, m.artifactDigest) = none := by
  rw [verifyPublisherAndPackage, bind_eq_ok] at h
  obtain ⟨_, hTrusted, -⟩ := h
  rw [require_eq_ok] at hTrusted
  exact Table.get?_eq_none_of_not_contains hTrusted

theorem verifyInstallation_ok {workflows : List WorkflowDocument}
    (h : verifyInstallation env packages tick t actor m = .ok workflows) :
    Verified packages t.registry m := by
  simp only [verifyInstallation, bind_eq_ok] at h
  obtain ⟨_, -, order, hOrder, _, -, _, hTrusted, -⟩ := h
  exact ⟨⟨order, hOrder⟩, verifyPublisherAndPackage_ok hTrusted⟩

theorem savePluginVersion_ok {registry registry' : Registry} {workflows : List WorkflowDocument}
    (h : savePluginVersion tick registry m workflows = .ok registry') :
    Saved tick registry m workflows registry' := by
  simp only [savePluginVersion, bind_eq_ok, sql_eq_ok, insertRow_eq_ok, pure_eq_ok] at h
  obtain ⟨-, -, versions, hVersions, definitions, hDefinitions, rfl⟩ := h
  exact ⟨hVersions, hDefinitions, rfl⟩

theorem requireEnabledDependency_ok {registry : Registry} {d : PluginDependency} {u : Unit}
    (h : requireEnabledDependency packages registry d = .ok u) (hRequired : d.optional = false) :
    DependencyRunning packages registry d := by
  unfold requireEnabledDependency at h
  dsimp only at h
  split at h
  · rw [require_eq_ok, hRequired] at h
    cases h
  · rename_i i m hRow
    simp only [bind_eq_ok, require_eq_ok, okOr_eq_ok, exists_const] at h
    obtain ⟨hState, version, hVersion, range, hRange, hMatches⟩ := h
    obtain ⟨_, hFound, hStored⟩ := Option.bind_eq_some_iff.mp hRow
    obtain ⟨_, hStored, hPair⟩ := Option.map_eq_some_iff.mp hStored
    cases hPair
    exact ⟨i, m, version, range, hFound, hState, hStored, hVersion, hRange, hMatches⟩

theorem requireEnabledDependencies_ok {registry : Registry} {u : Unit}
    (h : requireEnabledDependencies packages registry m = .ok u) :
    ∀ d ∈ m.dependencies, d.optional = false → DependencyRunning packages registry d := by
  simp only [requireEnabledDependencies, bind_eq_ok] at h
  obtain ⟨done, hDone, -⟩ := h
  intro d hd hRequired
  obtain ⟨u, -, hOne⟩ := (mapM_mem hDone).1 d hd
  exact requireEnabledDependency_ok hOne hRequired

theorem storedManifest_own {registry : Registry} {pluginId : String} {d d' : Digest}
    (h : storedManifest registry pluginId d.toText = .ok (d', m)) :
    registry.pluginVersions.get? (pluginId, d) = some m := by
  obtain ⟨hText, hStored⟩ := storedManifest_ok h
  rwa [Digest.toText_injective hText] at hStored

end Checks

/-! ## The moves of one installation -/

/-- The grants of an installation are different and requested by its manifest. -/
def GrantsRequested (m : PluginManifest) (grants : List String) : Prop :=
  grants.Nodup ∧ ∀ grant ∈ grants, grant ∈ m.requestedCapabilities.map (·.text)

/-- How a command that stores no build moves the installation it names. -/
inductive LifecycleMove (packages : PluginEnv ν) (t : Tables) (i : InstallationRow) :
    PluginInput → InstallationRow → List RegistryChange → Prop
  | enabled {pluginId digest : String} {grants : List String} {expected : Int}
      {version : Version} {m : PluginManifest} (hVersion : i.version.next? = some version)
      (hState : i.state = .installedDisabled ∨ i.state = .disabled)
      (hStored : t.registry.pluginVersions.get? (pluginId, i.artifactDigest) = some m)
      (hTrusted : t.registry.revocations.get? (m.id.text, m.artifactDigest) = none)
      (hDependencies : ∀ d ∈ m.dependencies, d.optional = false →
        DependencyRunning packages t.registry d)
      (hGrants : GrantsRequested m grants) :
      LifecycleMove packages t i (.enable pluginId digest grants expected)
        { i with state := .enabled, grantedCapabilities := grants, version }
        [installationChange pluginId
          { i with state := .enabled, grantedCapabilities := grants, version }]
  | drained {pluginId reason : String} {expected : Int} {version : Version}
      (hVersion : i.version.next? = some version) (hState : i.state = .enabled)
      (hActive : hasActivePluginRuns t pluginId = true) :
      LifecycleMove packages t i (.disable pluginId expected reason)
        { i with state := .draining, version }
        [installationChange pluginId { i with state := .draining, version }]
  | disabled {pluginId reason : String} {expected : Int} {version : Version}
      (hVersion : i.version.next? = some version) (hState : i.state = .draining)
      (hIdle : hasActivePluginRuns t pluginId = false) :
      LifecycleMove packages t i (.disable pluginId expected reason)
        { i with state := .disabled, version }
        [installationChange pluginId { i with state := .disabled, version }]
  | drainedDisabled {pluginId reason : String} {expected : Int} {version last : Version}
      (hVersion : i.version.next? = some version) (hLast : version.next? = some last)
      (hState : i.state = .enabled) (hIdle : hasActivePluginRuns t pluginId = false) :
      LifecycleMove packages t i (.disable pluginId expected reason)
        { i with state := .disabled, version := last }
        [installationChange pluginId { i with state := .draining, version },
          installationChange pluginId { i with state := .disabled, version := last }]
  | uninstalled {pluginId dataPolicy : String} {expected : Int} {version : Version} {id : PluginId}
      {epoch : Int} (hVersion : i.version.next? = some version)
      (hState : i.state = .installedDisabled ∨ i.state = .disabled)
      (hIdle : hasActivePluginRuns t pluginId = false) (hId : id.text = pluginId)
      (hResolves : ∃ order,
        resolveManifests packages ((selectedManifests t.registry).erase id) = .ok order) :
      LifecycleMove packages t i (.uninstall pluginId expected dataPolicy)
        { i with state := .uninstalled, grantedCapabilities := [], revocationEpoch := epoch
                 version }
        [installationChange pluginId
          { i with state := .uninstalled, grantedCapabilities := [], revocationEpoch := epoch
                   version }]

/-- The row of a plugin that was just installed. -/
def installedRow (tick : Tick) (m : PluginManifest) : InstallationRow :=
  { id := tick.draw .installation, state := .installedDisabled
    artifactDigest := m.artifactDigest, grantedCapabilities := [], revocationEpoch := 1
    version := .one }

/-- The row after an upgrade: the grants that the new manifest still requests. -/
def upgradedRow (i : InstallationRow) (m : PluginManifest) (version : Version) : InstallationRow :=
  { i with artifactDigest := m.artifactDigest, version
           grantedCapabilities := i.grantedCapabilities.filter fun g =>
             decide (g ∈ m.requestedCapabilities.map (·.text)) }

/-- The version of a manifest is newer than that of another one. -/
def NewerManifest [LinearOrder ν] (packages : PluginEnv ν) (old new : PluginManifest) : Prop :=
  ∃ v w, packages.parseVersion old.version = some v ∧ packages.parseVersion new.version = some w ∧
    v < w

/-- What a successful command on plugins does to the registry and what it shows. -/
inductive PluginMove [LinearOrder ν] (packages : PluginEnv ν) (tick : Tick) (t : Tables) :
    PluginInput → Registry → List RegistryChange → Prop
  | installed {m : PluginManifest} {workflows : List WorkflowDocument} {registry : Registry}
      {installations : Table String InstallationRow} (hVerified : Verified packages t.registry m)
      (hSaved : Saved tick t.registry m workflows registry)
      (hInsert : t.registry.installations.insert? m.id.text (installedRow tick m) =
        some installations) :
      PluginMove packages tick t (.install m) { registry with installations }
        [installationChange m.id.text (installedRow tick m), manifestChange tick m]
  | moved {input : PluginInput} {i i' : InstallationRow} {changes : List RegistryChange}
      (hFound : t.registry.installations.get? input.pluginId = some i)
      (hMove : LifecycleMove packages t i input i' changes) :
      PluginMove packages tick t input
        { t.registry with installations := t.registry.installations.set input.pluginId i' } changes
  | upgraded {pluginId : String} {m old : PluginManifest} {expected : Int}
      {workflows : List WorkflowDocument} {registry : Registry} {i : InstallationRow}
      {version : Version} (hFound : t.registry.installations.get? pluginId = some i)
      (hVersion : i.version.next? = some version) (hId : m.id.text = pluginId)
      (hState : i.state = .enabled ∨ i.state = .disabled ∨ i.state = .installedDisabled)
      (hOld : t.registry.pluginVersions.get? (pluginId, i.artifactDigest) = some old)
      (hNewer : NewerManifest packages old m) (hVerified : Verified packages t.registry m)
      (hDependencies : i.state = .enabled → ∀ d ∈ m.dependencies, d.optional = false →
        DependencyRunning packages t.registry d)
      (hSaved : Saved tick t.registry m workflows registry) :
      PluginMove packages tick t (.upgrade pluginId m expected)
        { registry with
          installations := t.registry.installations.set pluginId (upgradedRow i m version) }
        [installationChange pluginId (upgradedRow i m version), manifestChange tick m]

section Handlers

variable [LinearOrder ν] {env : Env} {packages : PluginEnv ν} {tick : Tick} {t : Tables}
  {actor : CommandActor} {registry : Registry} {primary : ResourceRef}
  {changes : List RegistryChange}

theorem Saved.installations {registry' : Registry} {m : PluginManifest}
    {workflows : List WorkflowDocument} (h : Saved tick registry m workflows registry') :
    registry'.installations = registry.installations := by
  rw [h.others]

theorem Saved.revocations {registry' : Registry} {m : PluginManifest}
    {workflows : List WorkflowDocument} (h : Saved tick registry m workflows registry') :
    registry'.revocations = registry.revocations := by
  rw [h.others]

theorem installPlugin_ok {m : PluginManifest}
    (h : installPlugin env packages tick t actor m = .ok (registry, primary, changes)) :
    PluginMove packages tick t (.install m) registry changes := by
  simp only [installPlugin, bind_eq_ok, require_eq_ok, sql_eq_ok, insertRow_eq_ok, pure_eq_ok,
    Prod.mk.injEq, exists_const] at h
  obtain ⟨workflows, hVerified, saved, hSaved, -, installations, hInsert, rfl, -, rfl⟩ := h
  have hSaved := savePluginVersion_ok hSaved
  rw [hSaved.installations] at hInsert
  exact .installed (verifyInstallation_ok hVerified) hSaved hInsert

theorem enablePlugin_ok {pluginId digest : String} {grants : List String} {expected : Int}
    (h : enablePlugin env packages tick t actor pluginId digest grants expected =
      .ok (registry, primary, changes)) :
    PluginMove packages tick t (.enable pluginId digest grants expected) registry changes := by
  simp only [enablePlugin, bind_eq_ok, require_eq_ok, okOr_eq_ok, requireExpectedVersion_eq_ok,
    checkGrants, pure_eq_ok, setInstallation, Prod.exists, Prod.mk.injEq, exists_const] at h
  obtain ⟨i, hFound, version, ⟨-, hVersion⟩, hState, hDigest, digest', m, hStored, _, hTrusted, _,
    hDependencies, _, -, policy, -, hGrants, rfl, -, rfl⟩ := h
  rw [← hDigest] at hStored
  have hMove : LifecycleMove packages t i (.enable pluginId digest grants expected)
      { i with state := .enabled, grantedCapabilities := grants, version }
      [installationChange pluginId
        { i with state := .enabled, grantedCapabilities := grants, version }] :=
    .enabled hVersion hState (storedManifest_own hStored) (verifyPublisherAndPackage_ok hTrusted)
      (requireEnabledDependencies_ok hDependencies)
      ⟨hGrants.1, fun grant hMem => (hGrants.2 grant hMem).1⟩
  exact .moved hFound hMove

theorem disablePlugin_ok {pluginId reason : String} {expected : Int}
    (h : disablePlugin t pluginId expected reason = .ok (registry, primary, changes)) :
    PluginMove packages tick t (.disable pluginId expected reason) registry changes := by
  simp only [disablePlugin, bind_eq_ok, require_eq_ok, okOr_eq_ok, requireExpectedVersion_eq_ok,
    requireReason, setInstallation, exists_const] at h
  obtain ⟨-, i, hFound, version, ⟨-, hVersion⟩, hState, hDrained, h⟩ := h
  split at h
  · rename_i hEnabled
    split at h
    · rename_i hActive
      cases h
      exact .moved hFound (.drained hVersion hEnabled hActive)
    · rename_i hIdle
      simp only [bind_eq_ok, okOr_eq_ok, pure_eq_ok, Prod.mk.injEq] at h
      obtain ⟨last, hLast, rfl, -, rfl⟩ := h
      exact .moved hFound
        (.drainedDisabled hVersion hLast hEnabled (Bool.eq_false_iff.mpr hIdle))
  · rename_i hNotEnabled
    cases h
    have hDraining : i.state = .draining := hState.resolve_left hNotEnabled
    exact .moved hFound (.disabled hVersion hDraining (hDrained hDraining))

theorem requireNewer_ok {m old : PluginManifest} {u : Unit}
    (h : requireNewer packages m old = .ok u) : NewerManifest packages old m := by
  simp only [requireNewer, bind_eq_ok, okOr_eq_ok, require_eq_ok] at h
  obtain ⟨w, hw, v, hv, hLt⟩ := h
  exact ⟨v, w, hv, hw, hLt⟩

theorem upgradePlugin_ok {pluginId : String} {m : PluginManifest} {expected : Int}
    (h : upgradePlugin env packages tick t actor pluginId m expected =
      .ok (registry, primary, changes)) :
    PluginMove packages tick t (.upgrade pluginId m expected) registry changes := by
  simp only [upgradePlugin, bind_eq_ok, require_eq_ok, okOr_eq_ok, requireExpectedVersion_eq_ok,
    setInstallation, Prod.exists, exists_const] at h
  obtain ⟨i, hFound, version, ⟨-, hVersion⟩, hId, hState, digest, old, hOld, _, hNewer, workflows,
    hVerified, h⟩ := h
  have hVerified := verifyInstallation_ok hVerified
  have hOld := storedManifest_own hOld
  have hNewer := requireNewer_ok hNewer
  split at h
  · rename_i hEnabled
    simp only [bind_eq_ok, pure_eq_ok, Prod.mk.injEq] at h
    obtain ⟨_, hDependencies, saved, hSaved, rfl, -, rfl⟩ := h
    have hSaved := savePluginVersion_ok hSaved
    rw [hSaved.installations]
    exact .upgraded hFound hVersion hId hState hOld hNewer hVerified
      (fun _ => requireEnabledDependencies_ok hDependencies) hSaved
  · rename_i hNotEnabled
    simp only [bind_eq_ok, pure_eq_ok, Prod.mk.injEq] at h
    obtain ⟨saved, hSaved, rfl, -, rfl⟩ := h
    have hSaved := savePluginVersion_ok hSaved
    rw [hSaved.installations]
    exact .upgraded hFound hVersion hId hState hOld hNewer hVerified
      (fun hEnabled => absurd hEnabled hNotEnabled) hSaved

theorem uninstallPlugin_ok {pluginId dataPolicy : String} {expected : Int}
    (h : uninstallPlugin packages t pluginId expected dataPolicy =
      .ok (registry, primary, changes)) :
    PluginMove packages tick t (.uninstall pluginId expected dataPolicy) registry changes := by
  simp only [uninstallPlugin, bind_eq_ok, require_eq_ok, okOr_eq_ok, requireExpectedVersion_eq_ok,
    sql_eq_ok, setInstallation, pure_eq_ok, Prod.mk.injEq, exists_const] at h
  obtain ⟨i, hFound, version, ⟨-, hVersion⟩, hState, -, hIdle, id, hId, order, hOrder, epoch, -, rfl,
    -, rfl⟩ := h
  have hText : id.text = pluginId := by
    unfold OpaqueId.ofText? at hId
    split at hId
    · cases hId
      rfl
    · cases hId
  exact .moved hFound (.uninstalled hVersion hState hIdle hText ⟨order, hOrder⟩)

theorem handlePlugin_ok {input : PluginInput}
    (h : handlePlugin env packages tick t actor input = .ok (registry, primary, changes)) :
    PluginMove packages tick t input registry changes := by
  cases input with
  | install m => exact installPlugin_ok h
  | enable pluginId digest grants expected => exact enablePlugin_ok h
  | disable pluginId expected reason => exact disablePlugin_ok h
  | upgrade pluginId m expected => exact upgradePlugin_ok h
  | uninstall pluginId expected dataPolicy => exact uninstallPlugin_ok h

end Handlers

/-! ## The revocation of a build -/

/-- What a revocation does to the registry: the build is recorded as revoked, and the installation
of exactly that build is stopped. -/
structure BuildRevoked (registry : Registry) (pluginId : String) (digest : Digest)
    (i i' : InstallationRow) (registry' : Registry) : Prop where
  found : registry.installations.get? pluginId = some i
  version : i.version.next? = some i'.version
  state : i'.state = if i.artifactDigest = digest ∧ i.state ≠ .uninstalled then .revoked
    else i.state
  grants : i'.grantedCapabilities = if i.artifactDigest = digest then [] else i.grantedCapabilities
  build : i'.artifactDigest = i.artifactDigest
  recorded : ∃ row, registry.revocations.insert? (pluginId, digest) row =
    some registry'.revocations
  others : registry' = { registry with installations := registry.installations.set pluginId i'
                                       revocations := registry'.revocations }

theorem revokePlugin_registry {env : Env} {tick : Tick} {t t' : Tables} {actor : CommandActor}
    {pluginId artifactDigest reason : String} {m : Mutation}
    (h : revokePlugin env tick t actor pluginId artifactDigest reason = .ok (t', m)) :
    ∃ digest i i', digest.toText = artifactDigest ∧
      BuildRevoked t.registry pluginId digest i i' t'.registry := by
  simp only [revokePlugin, revokeInstallation, bind_eq_ok, okOr_eq_ok, sql_eq_ok, insertRow_eq_ok,
    pure_eq_ok, requireReason, require_eq_ok, Prod.exists, Prod.mk.injEq, exists_const] at h
  obtain ⟨-, i, hFound, digest, m', hDigest, revokedBy, -, revocations, hInsert, i',
    ⟨version, hVersion, epoch, -, hRow⟩, runs, -, rfl, -⟩ := h
  refine ⟨digest, i, i', (storedManifest_ok hDigest).1, ?_⟩
  subst hRow
  exact ⟨hFound, hVersion, rfl, rfl, rfl, ⟨_, hInsert⟩, rfl⟩

/-! ## Steps of the platform -/

/-- The event carried out a command with this input. -/
def PlatformEvent.executed {ι : Type} (e : PlatformEvent ι) (input : PlatformInput ι) : Prop :=
  platformCommits e.response = true ∧ ∃ c, e.call.operation = .command c ∧ c.input = input

/-- A step of the platform leaves all plugins as they are, carries out a command on plugins, which
records what it shows, or revokes a build. -/
inductive RegistryStep [LinearOrder ν] (packages : PluginEnv ν) (e : PlatformEvent PluginInput) :
    Prop
  | same (killSwitches : Table (KillSwitchScope × String) KillSwitchRow)
      (hSame : e.after.tables.registry = { e.before.tables.registry with killSwitches })
      (hNot : ∀ input, ¬ e.executed (.lifecycle input))
      (hKept : ∀ pluginId digest reason, ¬ e.executed (.pluginRevoke pluginId digest reason))
  | moved {input : PluginInput} {changes : List RegistryChange}
      (hDone : e.executed (.lifecycle input))
      (hMove : PluginMove packages e.call.tick e.before.tables input e.after.tables.registry
        changes)
      (hShown : ∀ c ∈ changes, ∃ row,
        e.after.tables.journal.projections.get? (projectionKey c.projection.resource) =
          some row ∧ row.value = c.value)
  | revoked {pluginId reason : String} {digest : Digest} {i i' : InstallationRow}
      (hDone : e.executed (.pluginRevoke pluginId digest.toText reason))
      (hRevoked : BuildRevoked e.before.tables.registry pluginId digest i i'
        e.after.tables.registry)

theorem Change.registry {env : Env} {tick : Tick} {t t' : Tables} {a : Act}
    (h : Change env tick t a t') :
    ∃ killSwitches, t'.registry = { t.registry with killSwitches } := by
  cases h
  case switched killSwitches j => exact ⟨killSwitches, rfl⟩
  all_goals exact ⟨t.registry.killSwitches, rfl⟩

/-- Only the command on kill switches writes the registry, among the operations of the core. -/
theorem Change.registry_same {env : Env} {tick : Tick} {t t' : Tables} {a : Act}
    (h : Change env tick t a t') (hOther : a ≠ .setKillSwitch) : t'.registry = t.registry := by
  cases h
  case switched killSwitches j => exact absurd rfl hOther
  all_goals rfl

/-- A command of the platform that is answered with a commit was handled and recorded. -/
theorem platformStep_command {ι : Type} (p : Platform ι) (s : Store) (tick : Tick)
    (c : Command (PlatformInput ι)) :
    (platformCommits (platformStep p s ⟨tick, .command c⟩).2 = false ∧
      (platformStep p s ⟨tick, .command c⟩).1 = s) ∨
      (platformCommits (platformStep p s ⟨tick, .command c⟩).2 = true ∧
        ∃ key t m receipt, Committed p.env p.service tick s c key t m
          (platformStep p s ⟨tick, .command c⟩).1 receipt) := by
  rcases transact_cases s (runPlatformOperation p tick s (.command c)) with
    ⟨s', reply, hOk, hStep⟩ | ⟨failure, -, hStep⟩
  · have hEq : platformStep p s ⟨tick, .command c⟩ = (s', .ok reply) := hStep
    rw [hEq]
    simp only [runPlatformOperation, bind_eq_ok, pure_eq_ok, Prod.exists, Prod.mk.injEq] at hOk
    obtain ⟨_, a, hExecute, rfl, rfl⟩ := hOk
    obtain ⟨principal, -, ⟨row, -, -, rfl, rfl⟩ | ⟨-, t, m, receipt, hCommitted, rfl⟩⟩ :=
      execute_ok hExecute
    · exact Or.inl ⟨rfl, rfl⟩
    · exact Or.inr ⟨rfl, _, t, m, receipt, hCommitted⟩
  · have hEq : platformStep p s ⟨tick, .command c⟩ = (s, .error failure) := hStep
    rw [hEq]
    exact Or.inl ⟨rfl, rfl⟩

/-- The same of a command of the core. -/
theorem platformStep_core_command {ι : Type} (p : Platform ι) (s : Store) (tick : Tick)
    (c : Command CommandInput) :
    (platformCommits (platformStep p s ⟨tick, .core (.command c)⟩).2 = false ∧
      (platformStep p s ⟨tick, .core (.command c)⟩).1 = s) ∨
      (platformCommits (platformStep p s ⟨tick, .core (.command c)⟩).2 = true ∧
        ∃ key t m receipt, Committed p.env (service p.env p.catalogue.core) tick s c key t m
          (platformStep p s ⟨tick, .core (.command c)⟩).1 receipt) := by
  rcases platformStep_command_cases p s tick c with
    ⟨failure, hStep⟩ | ⟨receipt, hStep⟩ | ⟨s', key, t, m, receipt, hStep, hCommitted⟩
  · rw [hStep]
    exact Or.inl ⟨rfl, rfl⟩
  · rw [hStep]
    exact Or.inl ⟨rfl, rfl⟩
  · rw [hStep]
    exact Or.inr ⟨rfl, key, t, m, receipt, hCommitted⟩

section Platform

variable [LinearOrder ν] {env : Env} {packages : PluginEnv ν}
  {catalogue : PlatformCatalogue PluginInput}

/-- A step that carries out no further command leaves the plugins alone. -/
theorem RegistryStep.of_same {e : PlatformEvent PluginInput}
    (hSame : ∃ killSwitches, e.after.tables.registry =
      { e.before.tables.registry with killSwitches })
    (hNot : ∀ input, ¬ e.executed input) : RegistryStep packages e := by
  obtain ⟨killSwitches, hSame⟩ := hSame
  exact .same killSwitches hSame (fun input => hNot _) fun pluginId digest reason => hNot _

/-- Only the commands on plugins write the rows of plugins. -/
theorem PlatformChange.registry {tick : Tick} {t t' : Tables} {a : PlatformAct}
    (h : PlatformChange env tick t a t') (hOther : a ≠ .lifecycle)
    (hKept : ∀ pluginId digest, a ≠ .revokePlugin pluginId digest) :
    ∃ killSwitches, t'.registry = { t.registry with killSwitches } := by
  cases h with
  | core h => exact h.registry
  | pluginRevoked registry j hRuns => exact absurd rfl (hKept _ _)
  | registered registry j => exact absurd rfl hOther
  | deleted j rights requests => exact ⟨_, rfl⟩
  | contained j => exact ⟨_, rfl⟩
  | checkpointed hAdmitted hRows => exact ⟨_, rfl⟩

theorem PlatformOperation.act_of_not_command {ι : Type} {operation : PlatformOperation ι}
    {a : PlatformAct} (hOther : ∀ c, operation ≠ .command c) (h : operation.act = some a) :
    a ≠ .lifecycle ∧ ∀ pluginId digest, a ≠ .revokePlugin pluginId digest := by
  cases operation with
  | core operation =>
    obtain ⟨act, -, rfl⟩ := Option.map_eq_some_iff.mp h
    exact ⟨fun h => (by cases h), fun _ _ h => (by cases h)⟩
  | command c => exact absurd rfl (hOther c)
  | quarantine c reference =>
    cases h
    exact ⟨fun h => (by cases h), fun _ _ h => (by cases h)⟩
  | checkpoint runId record =>
    cases h
    exact ⟨fun h => (by cases h), fun _ _ h => (by cases h)⟩

theorem platformStep_registry_same {s : Store} {tick : Tick}
    {operation : PlatformOperation PluginInput} (hOther : ∀ c, operation ≠ .command c) :
    RegistryStep packages
      (Machine.eventAt (platformStep (pluginPlatform env packages catalogue)) s
        ⟨tick, operation⟩) := by
  refine .of_same ?_ fun input hDone => ?_
  · rcases platformStep_change (pluginPlatform env packages catalogue) s ⟨tick, operation⟩ with
      ⟨-, hSame⟩ | ⟨a, hDid, hChange⟩
    · exact ⟨s.tables.registry.killSwitches, congrArg (·.tables.registry) hSame⟩
    · obtain ⟨hLifecycle, hKept⟩ := PlatformOperation.act_of_not_command hOther hDid.2
      exact hChange.registry hLifecycle hKept
  · obtain ⟨-, c, hCommand, -⟩ := hDone
    exact hOther c hCommand

theorem platformStep_registry_command (s : Store) (tick : Tick)
    (c : Command (PlatformInput PluginInput)) :
    RegistryStep packages
      (Machine.eventAt (platformStep (pluginPlatform env packages catalogue)) s
        ⟨tick, .command c⟩) := by
  rcases platformStep_command (pluginPlatform env packages catalogue) s tick c with
    ⟨hNone, hSame⟩ | ⟨hDone, key, t, m, receipt, hCommitted⟩
  · refine .of_same ⟨s.tables.registry.killSwitches, congrArg (·.tables.registry) hSame⟩ ?_
    intro input hDone
    exact Bool.false_ne_true (hNone.symm.trans hDone.1)
  · have hHandled : (pluginPlatform env packages catalogue).dispatch tick s.tables c = .ok (t, m) :=
      hCommitted.handled
    have hRegistry : (platformStep (pluginPlatform env packages catalogue) s
        ⟨tick, .command c⟩).1.tables.registry = t.registry :=
      congrArg (·.registry) hCommitted.tables
    have hRecorded := recordChanges_ok hCommitted.recorded
    unfold Platform.dispatch at hHandled
    split at hHandled
    · rename_i pluginId artifactDigest reason hInput
      obtain ⟨digest, i, i', rfl, hRevoked⟩ := revokePlugin_registry hHandled
      rw [← hRegistry] at hRevoked
      exact .revoked ⟨hDone, c, rfl, hInput⟩ hRevoked
    · rename_i resource reason confirmation hInput
      obtain ⟨j, id, rights, requests, -, -, rfl, -⟩ := requestDeletion_ok hHandled
      refine .same s.tables.registry.killSwitches hRegistry ?_ ?_
      · rintro input ⟨-, c', hCommand, hInput'⟩
        cases hCommand
        rw [hInput] at hInput'
        cases hInput'
      · rintro pluginId digest reason' ⟨-, c', hCommand, hInput'⟩
        cases hCommand
        rw [hInput] at hInput'
        cases hInput'
    · rename_i input hInput
      simp only [Lifecycle.run, bind_eq_ok, pure_eq_ok, Prod.exists, Prod.mk.injEq] at hHandled
      obtain ⟨registry, primary, changes, hHandled, rfl, rfl⟩ := hHandled
      have hMove : PluginMove packages tick s.tables input registry changes :=
        handlePlugin_ok hHandled
      rw [← show _ = registry from hRegistry] at hMove
      exact .moved ⟨hDone, c, rfl, hInput⟩ hMove fun change hChange =>
        hRecorded.written change.projection (List.mem_map_of_mem hChange)

/-- What one step does to the plugins. -/
theorem platformStep_registry (s : Store) (c : PlatformCall PluginInput) :
    RegistryStep packages
      (Machine.eventAt (platformStep (pluginPlatform env packages catalogue)) s c) := by
  obtain ⟨tick, operation⟩ := c
  cases operation with
  | command c => exact platformStep_registry_command s tick c
  | core operation => exact platformStep_registry_same fun c h => (by cases h)
  | quarantine c reference => exact platformStep_registry_same fun c h => (by cases h)
  | checkpoint runId record => exact platformStep_registry_same fun c h => (by cases h)

end Platform

end Masonwing
