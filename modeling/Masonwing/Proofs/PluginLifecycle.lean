import Masonwing.Proofs.Evaluation
import Masonwing.Proofs.PluginSteps

/-!
# The lifecycle of an installation

One step seen from one plugin (`RegistryStep.row`): its row is kept, moved by a command that
stores no build, upgraded, or stopped by a revocation. What holds of every installation
(`InstallationsSound`) and of every change of one (`RowKept`) follows case by case, and
`plugin_lifecycle` is their conjunction along every run that begins without plugins.
-/

namespace Masonwing

open Outcome

variable {ν : Type} [LinearOrder ν] {packages : PluginEnv ν} {e : PlatformEvent PluginInput}
  {pluginId : String} {i i' : InstallationRow}

/-! ## One row -/

/-- The command is about this plugin. -/
def PlatformEvent.concerns (e : PlatformEvent PluginInput) (pluginId : String) : Prop :=
  (∃ input, e.executed (.lifecycle input) ∧ input.pluginId = pluginId) ∨
    ∃ digest reason, e.executed (.pluginRevoke pluginId digest reason)

theorem PlatformEvent.executed_unique {ι : Type} {e : PlatformEvent ι}
    {input input' : PlatformInput ι} (h : e.executed input) (h' : e.executed input') :
    input = input' := by
  obtain ⟨-, c, hCommand, rfl⟩ := h
  obtain ⟨-, c', hCommand', rfl⟩ := h'
  cases hCommand.symm.trans hCommand'
  rfl

/-- How a step changes the installation of one plugin. -/
inductive RowStep (packages : PluginEnv ν) (e : PlatformEvent PluginInput) (pluginId : String)
    (i : InstallationRow) : InstallationRow → Prop
  | kept (hNot : ¬ e.concerns pluginId) : RowStep packages e pluginId i i
  | moved {input : PluginInput} {i' : InstallationRow} {changes : List RegistryChange}
      (hDone : e.executed (.lifecycle input)) (hPlugin : input.pluginId = pluginId)
      (hMove : LifecycleMove packages e.before.tables i input i' changes)
      (hVersions : e.after.tables.registry.pluginVersions =
        e.before.tables.registry.pluginVersions)
      (hRevocations : e.after.tables.registry.revocations = e.before.tables.registry.revocations)
      (hShown : ∀ c ∈ changes, ∃ row,
        e.after.tables.journal.projections.get? (projectionKey c.projection.resource) =
          some row ∧ row.value = c.value) :
      RowStep packages e pluginId i i'
  | upgraded {m old : PluginManifest} {expected : Int} {version : Version}
      (hDone : e.executed (.lifecycle (.upgrade pluginId m expected)))
      (hVersion : i.version.next? = some version) (hId : m.id.text = pluginId)
      (hState : i.state = .enabled ∨ i.state = .disabled ∨ i.state = .installedDisabled)
      (hOld : e.before.tables.registry.pluginVersions.get? (pluginId, i.artifactDigest) = some old)
      (hNewer : NewerManifest packages old m)
      (hVerified : Verified packages e.before.tables.registry m)
      (hDependencies : i.state = .enabled → ∀ d ∈ m.dependencies, d.optional = false →
        DependencyRunning packages e.before.tables.registry d)
      (hStored : e.before.tables.registry.pluginVersions.insert? (m.id.text, m.artifactDigest) m =
        some e.after.tables.registry.pluginVersions)
      (hRevocations : e.after.tables.registry.revocations = e.before.tables.registry.revocations) :
      RowStep packages e pluginId i (upgradedRow i m version)
  | revoked {digest : Digest} {reason : String} {i' : InstallationRow}
      (hDone : e.executed (.pluginRevoke pluginId digest.toText reason))
      (hRevoked : BuildRevoked e.before.tables.registry pluginId digest i i'
        e.after.tables.registry) :
      RowStep packages e pluginId i i'

/-- What a step does to the row of one plugin. -/
inductive PluginRow (packages : PluginEnv ν) (e : PlatformEvent PluginInput) (pluginId : String) :
    Option InstallationRow → Option InstallationRow → Prop
  | absent : PluginRow packages e pluginId none none
  | installed {m : PluginManifest} (hDone : e.executed (.lifecycle (.install m)))
      (hId : m.id.text = pluginId) (hVerified : Verified packages e.before.tables.registry m)
      (hStored : e.before.tables.registry.pluginVersions.insert? (m.id.text, m.artifactDigest) m =
        some e.after.tables.registry.pluginVersions)
      (hRevocations : e.after.tables.registry.revocations = e.before.tables.registry.revocations) :
      PluginRow packages e pluginId none (some (installedRow e.call.tick m))
  | stepped {i i' : InstallationRow} (h : RowStep packages e pluginId i i') :
      PluginRow packages e pluginId (some i) (some i')

/-- A plugin that the step is not about keeps its row, or its absence. -/
theorem PluginRow.of_other {pluginId : String} (hNot : ¬ e.concerns pluginId)
    (hSame : e.after.tables.registry.installations.get? pluginId =
      e.before.tables.registry.installations.get? pluginId) :
    PluginRow packages e pluginId (e.before.tables.registry.installations.get? pluginId)
      (e.after.tables.registry.installations.get? pluginId) := by
  rw [hSame]
  cases e.before.tables.registry.installations.get? pluginId with
  | none => exact .absent
  | some i => exact .stepped (.kept hNot)

/-- A step that names one plugin leaves the others alone. -/
theorem not_concerns_of_executed {input : PluginInput} {pluginId : String}
    (hDone : e.executed (.lifecycle input)) (hOther : pluginId ≠ input.pluginId) :
    ¬ e.concerns pluginId := by
  rintro (⟨input', hDone', rfl⟩ | ⟨digest, reason, hDone'⟩)
  · cases e.executed_unique hDone hDone'
    exact hOther rfl
  · cases e.executed_unique hDone hDone'

/-- The row of a plugin under a step. -/
theorem RegistryStep.row (h : RegistryStep packages e) (pluginId : String) :
    PluginRow packages e pluginId (e.before.tables.registry.installations.get? pluginId)
      (e.after.tables.registry.installations.get? pluginId) := by
  cases h with
  | same killSwitches hSame hNot hKept =>
    refine .of_other ?_ (by rw [hSame])
    rintro (⟨input, hDone, -⟩ | ⟨digest, reason, hDone⟩)
    · exact hNot input hDone
    · exact hKept pluginId digest reason hDone
  | @moved input changes hDone hMove hShown =>
    by_cases hPlugin : pluginId = input.pluginId
    · subst hPlugin
      generalize hAfter : e.after.tables.registry = after at hMove
      cases hMove with
      | installed hVerified hSaved hInsert =>
        have hStored := hSaved.versions
        have hRevocations := hSaved.revocations
        rw [PluginInput.pluginId, (Table.insert?_eq_some hInsert).1,
          Table.insert?_get?_self hInsert]
        exact .installed hDone rfl hVerified (by rw [hAfter]; exact hStored)
          (by rw [hAfter]; exact hRevocations)
      | moved hFound hMove =>
        rw [hFound, Table.get?_set_self hFound]
        exact .stepped (.moved hDone rfl hMove (by rw [hAfter]) (by rw [hAfter]) hShown)
      | upgraded hFound hVersion hId hState hOld hNewer hVerified hDependencies hSaved =>
        have hStored := hSaved.versions
        have hRevocations := hSaved.revocations
        rw [PluginInput.pluginId, hFound, Table.get?_set_self hFound]
        exact .stepped (.upgraded hDone hVersion hId hState hOld hNewer hVerified hDependencies
          (by rw [hAfter]; exact hStored) (by rw [hAfter]; exact hRevocations))
    · refine .of_other (not_concerns_of_executed hDone hPlugin) ?_
      generalize e.after.tables.registry = after at hMove
      cases hMove with
      | installed hVerified hSaved hInsert =>
        rw [Table.insert?_get? hInsert]
        exact if_neg hPlugin
      | moved hFound hMove => rw [Table.get?_set_ne _ hPlugin]
      | upgraded hFound hVersion hId hState hOld hNewer hVerified hDependencies hSaved =>
        exact Table.get?_set_ne _ hPlugin _
  | @revoked target reason digest i i' hDone hRevoked =>
    have hInstallations : e.after.tables.registry.installations =
        e.before.tables.registry.installations.set target i' := by rw [hRevoked.others]
    by_cases hPlugin : pluginId = target
    · subst hPlugin
      rw [hInstallations, hRevoked.found, Table.get?_set_self hRevoked.found]
      exact .stepped (.revoked hDone hRevoked)
    · refine .of_other ?_ (by rw [hInstallations, Table.get?_set_ne _ hPlugin])
      rintro (⟨input, hDone', -⟩ | ⟨digest', reason', hDone'⟩)
      · cases e.executed_unique hDone hDone'
      · cases e.executed_unique hDone hDone'
        exact hPlugin rfl

/-! ## Builds -/

/-- A step keeps the builds that are stored. -/
theorem RegistryStep.versions_kept (h : RegistryStep packages e) {key : String × Digest}
    {m : PluginManifest} (hm : e.before.tables.registry.pluginVersions.get? key = some m) :
    e.after.tables.registry.pluginVersions.get? key = some m := by
  cases h with
  | same killSwitches hSame hNot hKept => rwa [hSame]
  | moved hDone hMove hShown =>
    generalize e.after.tables.registry = after at hMove
    cases hMove with
    | installed hVerified hSaved hInsert => exact Table.insert?_get?_of_some hSaved.versions hm
    | moved hFound hMove => exact hm
    | upgraded hFound hVersion hId hState hOld hNewer hVerified hDependencies hSaved =>
      exact Table.insert?_get?_of_some hSaved.versions hm
  | revoked hDone hRevoked => rwa [hRevoked.others]

/-- A build that a step stores is stored under its own name. -/
theorem RegistryStep.versions_new (h : RegistryStep packages e) {key : String × Digest}
    {m : PluginManifest} (hm : e.after.tables.registry.pluginVersions.get? key = some m) :
    e.before.tables.registry.pluginVersions.get? key = some m ∨
      key = (m.id.text, m.artifactDigest) := by
  cases h with
  | same killSwitches hSame hNot hKept =>
    rw [hSame] at hm
    exact Or.inl hm
  | moved hDone hMove hShown =>
    generalize e.after.tables.registry = after at hMove hm
    cases hMove with
    | installed hVerified hSaved hInsert =>
      rcases Table.insert?_get?_cases hSaved.versions hm with ⟨rfl, rfl⟩ | ⟨-, hm⟩
      · exact Or.inr rfl
      · exact Or.inl hm
    | moved hFound hMove => exact Or.inl hm
    | upgraded hFound hVersion hId hState hOld hNewer hVerified hDependencies hSaved =>
      rcases Table.insert?_get?_cases hSaved.versions hm with ⟨rfl, rfl⟩ | ⟨-, hm⟩
      · exact Or.inr rfl
      · exact Or.inl hm
  | revoked hDone hRevoked =>
    rw [hRevoked.others] at hm
    exact Or.inl hm

/-- A step keeps the revocations that are recorded. -/
theorem RegistryStep.revocations_kept (h : RegistryStep packages e) {key : String × Digest}
    {row : RevocationRow} (hRow : e.before.tables.registry.revocations.get? key = some row) :
    e.after.tables.registry.revocations.get? key = some row := by
  cases h with
  | same killSwitches hSame hNot hKept => rwa [hSame]
  | moved hDone hMove hShown =>
    generalize e.after.tables.registry = after at hMove
    cases hMove with
    | installed hVerified hSaved hInsert =>
      have hKept := hSaved.revocations
      rwa [← hKept] at hRow
    | moved hFound hMove => exact hRow
    | upgraded hFound hVersion hId hState hOld hNewer hVerified hDependencies hSaved =>
      have hKept := hSaved.revocations
      rwa [← hKept] at hRow
  | revoked hDone hRevoked =>
    obtain ⟨new, hInsert⟩ := hRevoked.recorded
    exact Table.insert?_get?_of_some hInsert hRow

/-- Every build is stored under its own name, and every installation is one of a stored build. -/
structure BuildsStored (registry : Registry) : Prop where
  named : ∀ pluginId digest m, registry.pluginVersions.get? (pluginId, digest) = some m →
    m.id.text = pluginId ∧ m.artifactDigest = digest
  installed : ∀ pluginId i, registry.installations.get? pluginId = some i →
    ∃ m, registry.pluginVersions.get? (pluginId, i.artifactDigest) = some m

theorem RowStep.build (h : RowStep packages e pluginId i i') :
    i'.artifactDigest = i.artifactDigest ∨
      ∃ m, e.after.tables.registry.pluginVersions.get? (pluginId, i'.artifactDigest) = some m := by
  cases h with
  | kept hNot => exact Or.inl rfl
  | moved hDone hPlugin hMove hVersions hRevocations hShown =>
    cases hMove <;> exact Or.inl rfl
  | upgraded hDone hVersion hId hState hOld hNewer hVerified hDependencies hStored hRevocations =>
    subst hId
    exact Or.inr ⟨_, Table.insert?_get?_self hStored⟩
  | revoked hDone hRevoked => exact Or.inl hRevoked.build

theorem BuildsStored.step (h : BuildsStored e.before.tables.registry)
    (hStep : RegistryStep packages e) : BuildsStored e.after.tables.registry := by
  constructor
  · intro pluginId digest m hm
    rcases hStep.versions_new hm with hm | hKey
    · exact h.named pluginId digest m hm
    · cases hKey
      exact ⟨rfl, rfl⟩
  · intro pluginId i' hAfter
    have hRow := hStep.row pluginId
    rw [hAfter] at hRow
    generalize hBefore : e.before.tables.registry.installations.get? pluginId = before at hRow
    cases hRow with
    | installed hDone hId hVerified hStored hRevocations =>
      subst hId
      exact ⟨_, Table.insert?_get?_self hStored⟩
    | @stepped i _ hRow =>
      rcases hRow.build with hSame | hNew
      · obtain ⟨m, hm⟩ := h.installed pluginId i hBefore
        rw [hSame]
        exact ⟨m, hStep.versions_kept hm⟩
      · exact hNew

/-! ## What holds of every installation -/

structure InstallationsSound (registry : Registry) : Prop where
  granted : ∀ pluginId i, registry.installations.get? pluginId = some i →
    ∃ m, registry.pluginVersions.get? (pluginId, i.artifactDigest) = some m ∧
      GrantsRequested m i.grantedCapabilities
  stopped : ∀ pluginId i, registry.installations.get? pluginId = some i →
    i.state.selected = false → i.grantedCapabilities = []
  withdrawn : ∀ pluginId i row, registry.installations.get? pluginId = some i →
    registry.revocations.get? (pluginId, i.artifactDigest) = some row → i.state.selected = false

/-- A revocation that a step records is the one it was asked for. -/
theorem RegistryStep.revocations_new (h : RegistryStep packages e) {digest : Digest}
    {row : RevocationRow}
    (hRow : e.after.tables.registry.revocations.get? (pluginId, digest) = some row) :
    e.before.tables.registry.revocations.get? (pluginId, digest) = some row ∨
      ∃ reason, e.executed (.pluginRevoke pluginId digest.toText reason) := by
  cases h with
  | same killSwitches hSame hNot hKept =>
    rw [hSame] at hRow
    exact Or.inl hRow
  | moved hDone hMove hShown =>
    generalize e.after.tables.registry = after at hMove hRow
    cases hMove with
    | installed hVerified hSaved hInsert =>
      have hKept := hSaved.revocations
      rw [← hKept]
      exact Or.inl hRow
    | moved hFound hMove => exact Or.inl hRow
    | upgraded hFound hVersion hId hState hOld hNewer hVerified hDependencies hSaved =>
      have hKept := hSaved.revocations
      rw [← hKept]
      exact Or.inl hRow
  | revoked hDone hRevoked =>
    obtain ⟨new, hInsert⟩ := hRevoked.recorded
    rcases Table.insert?_get?_cases hInsert hRow with ⟨hKey, -⟩ | ⟨-, hRow⟩
    · cases hKey
      exact Or.inr ⟨_, hDone⟩
    · exact Or.inl hRow

theorem GrantsRequested.nil (m : PluginManifest) : GrantsRequested m [] :=
  ⟨List.nodup_nil, fun grant hMem => (by cases hMem)⟩

theorem GrantsRequested.filter {m : PluginManifest} {grants : List String} (h : grants.Nodup) :
    GrantsRequested m (grants.filter fun g => decide (g ∈ m.requestedCapabilities.map (·.text))) :=
  ⟨h.filter _, fun grant hMem => of_decide_eq_true (List.mem_filter.mp hMem).2⟩

/-- The grants of a row, under a step. -/
theorem RowStep.granted (h : RowStep packages e pluginId i i') {m : PluginManifest}
    (hStep : RegistryStep packages e)
    (hStored : e.before.tables.registry.pluginVersions.get? (pluginId, i.artifactDigest) = some m)
    (hGrants : GrantsRequested m i.grantedCapabilities) :
    ∃ m', e.after.tables.registry.pluginVersions.get? (pluginId, i'.artifactDigest) = some m' ∧
      GrantsRequested m' i'.grantedCapabilities := by
  have hKept := hStep.versions_kept hStored
  cases h with
  | kept hNot => exact ⟨m, hKept, hGrants⟩
  | moved hDone hPlugin hMove hVersions hRevocations hShown =>
    cases hMove with
    | enabled hVersion hState hOwn hTrusted hDependencies hRequested =>
      subst hPlugin
      cases hStored.symm.trans hOwn
      exact ⟨m, hKept, hRequested⟩
    | drained hVersion hState hActive => exact ⟨m, hKept, hGrants⟩
    | disabled hVersion hState hIdle => exact ⟨m, hKept, hGrants⟩
    | drainedDisabled hVersion hLast hState hIdle => exact ⟨m, hKept, hGrants⟩
    | uninstalled hVersion hState hIdle hId hResolves => exact ⟨m, hKept, .nil m⟩
  | @upgraded new old expected version hDone hVersion hId hState hOld hNewer hVerified
      hDependencies hNew hRevocations =>
    subst hId
    exact ⟨new, Table.insert?_get?_self hNew, .filter hGrants.1⟩
  | revoked hDone hRevoked =>
    rw [hRevoked.build, hRevoked.grants]
    refine ⟨m, hKept, ?_⟩
    split
    · exact .nil m
    · exact hGrants

/-- A stopped row has no grants, under a step. -/
theorem RowStep.stopped (h : RowStep packages e pluginId i i')
    (hStopped : i.state.selected = false → i.grantedCapabilities = [])
    (hState' : i'.state.selected = false) : i'.grantedCapabilities = [] := by
  cases h with
  | kept hNot => exact hStopped hState'
  | moved hDone hPlugin hMove hVersions hRevocations hShown =>
    cases hMove with
    | enabled hVersion hState hOwn hTrusted hDependencies hRequested => cases hState'
    | drained hVersion hState hActive => cases hState'
    | disabled hVersion hState hIdle => cases hState'
    | drainedDisabled hVersion hLast hState hIdle => cases hState'
    | uninstalled hVersion hState hIdle hId hResolves => rfl
  | upgraded hDone hVersion hId hState hOld hNewer hVerified hDependencies hNew hRevocations =>
    have hRunning : i.state.selected = true := by
      rcases hState with h | h | h <;> rw [h] <;> rfl
    rw [show (upgradedRow _ _ _).state = i.state from rfl, hRunning] at hState'
    cases hState'
  | @revoked digest reason _ hDone hRevoked =>
    rw [hRevoked.grants]
    split
    · rfl
    · rename_i hOther
      rw [hRevoked.state, if_neg fun hBuild => hOther hBuild.1] at hState'
      exact hStopped hState'

/-- A row whose build is revoked is stopped, under a step. -/
theorem RowStep.withdrawn (h : RowStep packages e pluginId i i')
    (hBuilds : BuildsStored e.before.tables.registry) (hStep : RegistryStep packages e)
    (hWithdrawn : ∀ row, e.before.tables.registry.revocations.get? (pluginId, i.artifactDigest) =
      some row → i.state.selected = false) {row : RevocationRow}
    (hRow : e.after.tables.registry.revocations.get? (pluginId, i'.artifactDigest) = some row) :
    i'.state.selected = false := by
  cases h with
  | kept hNot =>
    rcases hStep.revocations_new hRow with hRow | ⟨reason, hDone⟩
    · exact hWithdrawn row hRow
    · exact absurd (Or.inr ⟨_, reason, hDone⟩) hNot
  | moved hDone hPlugin hMove hVersions hRevocations hShown =>
    rw [hRevocations] at hRow
    -- a row that still runs is not one of a revoked build
    have hRuns : ∀ {state}, i.state = state → state.selected = true →
        e.before.tables.registry.revocations.get? (pluginId, i.artifactDigest) = some row →
        False := by
      intro state hState hSelected hRow
      rw [← hState, hWithdrawn row hRow] at hSelected
      cases hSelected
    cases hMove with
    | enabled hVersion hState hOwn hTrusted hDependencies hRequested =>
      obtain ⟨hName, hDigest⟩ := hBuilds.named _ _ _ hOwn
      subst hPlugin
      rw [hName, hDigest] at hTrusted
      cases hTrusted.symm.trans hRow
    | drained hVersion hState hActive => exact (hRuns hState rfl hRow).elim
    | disabled hVersion hState hIdle => exact (hRuns hState rfl hRow).elim
    | drainedDisabled hVersion hLast hState hIdle => exact (hRuns hState rfl hRow).elim
    | uninstalled hVersion hState hIdle hId hResolves => rfl
  | upgraded hDone hVersion hId hState hOld hNewer hVerified hDependencies hNew hRevocations =>
    subst hId
    rw [hRevocations] at hRow
    cases hVerified.trusted.symm.trans hRow
  | @revoked digest reason _ hDone hRevoked =>
    rw [hRevoked.state]
    rw [hRevoked.build] at hRow
    obtain ⟨new, hInsert⟩ := hRevoked.recorded
    split
    · rfl
    · rename_i hOther
      rcases Table.insert?_get?_cases hInsert hRow with ⟨hKey, -⟩ | ⟨-, hRow⟩
      · cases hKey
        have hUninstalled : i.state = .uninstalled := by
          by_contra hState
          exact hOther ⟨rfl, hState⟩
        rw [hUninstalled]
        rfl
      · exact hWithdrawn row hRow

theorem InstallationsSound.step (h : InstallationsSound e.before.tables.registry)
    (hBuilds : BuildsStored e.before.tables.registry) (hStep : RegistryStep packages e) :
    InstallationsSound e.after.tables.registry := by
  refine ⟨fun pluginId i' hAfter => ?_, fun pluginId i' hAfter hState => ?_,
    fun pluginId i' row hAfter hRow => ?_⟩
  all_goals
    have hPlugin := hStep.row pluginId
    rw [hAfter] at hPlugin
    generalize hBefore : e.before.tables.registry.installations.get? pluginId = before at hPlugin
  · cases hPlugin with
    | installed hDone hId hVerified hStored hRevocations =>
      subst hId
      exact ⟨_, Table.insert?_get?_self hStored, .nil _⟩
    | stepped hRow =>
      obtain ⟨m, hStored, hGrants⟩ := h.granted pluginId _ hBefore
      exact hRow.granted hStep hStored hGrants
  · cases hPlugin with
    | installed hDone hId hVerified hStored hRevocations => rfl
    | stepped hRow => exact hRow.stopped (h.stopped pluginId _ hBefore) hState
  · cases hPlugin with
    | installed hDone hId hVerified hStored hRevocations =>
      subst hId
      rw [hRevocations] at hRow
      cases hVerified.trusted.symm.trans hRow
    | stepped hStepped =>
      exact hStepped.withdrawn hBuilds hStep (fun row => h.withdrawn pluginId _ row hBefore) hRow

/-! ## What holds of every change -/

/-- The installation is shown as it is. -/
def Displays (j : Journal) (pluginId : String) (i : InstallationRow) : Prop :=
  ∃ row, j.projections.get? (projectionKey (installationRef i)) = some row ∧
    row.value = installationValue pluginId i

/-- An enabled plugin was drained and disabled by one command: two edges of the kernel, each with
a projection and a version of its own. -/
structure DisabledAtOnce (e : PlatformEvent PluginInput) (pluginId : String)
    (i drained i' : InstallationRow) : Prop where
  asked : ∃ expected reason, e.executed (.lifecycle (.disable pluginId expected reason))
  first : i.state.kernel.edge drained.state.kernel = true
  second : drained.state.kernel.edge i'.state.kernel = true
  versions : i.version.val < drained.version.val ∧ drained.version.val < i'.version.val
  shown : Displays e.after.tables.journal pluginId drained ∧
    Displays e.after.tables.journal pluginId i'

/-- What every step keeps of an installation. -/
structure RowKept (packages : PluginEnv ν) (e : PlatformEvent PluginInput) (pluginId : String)
    (i i' : InstallationRow) : Prop where
  edge : i'.state ≠ i.state → i.state.kernel.edge i'.state.kernel = true ∨
    ∃ drained, DisabledAtOnce e pluginId i drained i'
  final : i.state.selected = false → i'.state = i.state
  upgrade : ∀ m expected, e.executed (.lifecycle (.upgrade pluginId m expected)) →
    ∀ grant ∈ i'.grantedCapabilities, grant ∈ i.grantedCapabilities
  newer : i'.artifactDigest ≠ i.artifactDigest → ∃ old new,
    e.after.tables.registry.pluginVersions.get? (pluginId, i.artifactDigest) = some old ∧
    e.after.tables.registry.pluginVersions.get? (pluginId, i'.artifactDigest) = some new ∧
    NewerManifest packages old new
  version : e.concerns pluginId → i.version.val < i'.version.val
  trusted : ∀ row, e.before.tables.registry.revocations.get? (pluginId, i'.artifactDigest) =
    some row → i'.artifactDigest = i.artifactDigest

theorem Version.lt_next {v w : Version} (h : v.next? = some w) : v.val < w.val := by
  rw [next?_eq_some h]
  exact Int.lt_succ v.val

/-- An upgrade is not one of the commands that store no build. -/
theorem LifecycleMove.not_upgrade {t : Tables} {input : PluginInput}
    {changes : List RegistryChange} (h : LifecycleMove packages t i input i' changes)
    {target : String} {m : PluginManifest} {expected : Int} :
    input ≠ .upgrade target m expected := by
  cases h <;> exact fun hInput => (by cases hInput)

theorem LifecycleMove.build {t : Tables} {input : PluginInput} {changes : List RegistryChange}
    (h : LifecycleMove packages t i input i' changes) :
    i'.artifactDigest = i.artifactDigest := by
  cases h <;> rfl

theorem LifecycleMove.version_lt {t : Tables} {input : PluginInput}
    {changes : List RegistryChange} (h : LifecycleMove packages t i input i' changes) :
    i.version.val < i'.version.val := by
  cases h with
  | enabled hVersion hState hOwn hTrusted hDependencies hRequested => exact Version.lt_next hVersion
  | drained hVersion hState hActive => exact Version.lt_next hVersion
  | disabled hVersion hState hIdle => exact Version.lt_next hVersion
  | drainedDisabled hVersion hLast hState hIdle =>
    exact lt_trans (Version.lt_next hVersion) (Version.lt_next hLast)
  | uninstalled hVersion hState hIdle hId hResolves => exact Version.lt_next hVersion

/-- These commands start from a selected state. -/
theorem LifecycleMove.selected {t : Tables} {input : PluginInput} {changes : List RegistryChange}
    (h : LifecycleMove packages t i input i' changes) : i.state.selected = true := by
  cases h with
  | enabled hVersion hState hOwn hTrusted hDependencies hRequested =>
    rcases hState with h | h <;> rw [h] <;> rfl
  | drained hVersion hState hActive => rw [hState]; rfl
  | disabled hVersion hState hIdle => rw [hState]; rfl
  | drainedDisabled hVersion hLast hState hIdle => rw [hState]; rfl
  | uninstalled hVersion hState hIdle hId hResolves =>
    rcases hState with h | h <;> rw [h] <;> rfl

theorem LifecycleMove.edge {input : PluginInput} {changes : List RegistryChange}
    (h : LifecycleMove packages e.before.tables i input i' changes)
    (hDone : e.executed (.lifecycle input))
    (hShown : ∀ c ∈ changes, ∃ row,
      e.after.tables.journal.projections.get? (projectionKey c.projection.resource) =
        some row ∧ row.value = c.value) :
    i.state.kernel.edge i'.state.kernel = true ∨
      ∃ drained, DisabledAtOnce e input.pluginId i drained i' := by
  cases h with
  | enabled hVersion hState hOwn hTrusted hDependencies hRequested =>
    left
    rcases hState with h | h <;> rw [h] <;> rfl
  | drained hVersion hState hActive =>
    left
    rw [hState]
    rfl
  | disabled hVersion hState hIdle =>
    left
    rw [hState]
    rfl
  | @drainedDisabled target reason expected version last hVersion hLast hState hIdle =>
    right
    refine ⟨{ i with state := .draining, version }, ⟨_, _, hDone⟩, ?_, rfl,
      ⟨Version.lt_next hVersion, Version.lt_next hLast⟩, ?_, ?_⟩
    · rw [hState]
      rfl
    · exact hShown _ List.mem_cons_self
    · exact hShown _ (List.mem_cons_of_mem _ List.mem_cons_self)
  | uninstalled hVersion hState hIdle hId hResolves =>
    left
    rcases hState with h | h <;> rw [h] <;> rfl

theorem BuildRevoked.edge {registry registry' : Registry} {digest : Digest}
    (h : BuildRevoked registry pluginId digest i i' registry') (hState : i'.state ≠ i.state) :
    i.state.kernel.edge i'.state.kernel = true := by
  rw [h.state] at hState ⊢
  split at hState
  · rename_i hBuild
    rw [if_pos hBuild]
    cases hFrom : i.state with
    | uninstalled => exact absurd hFrom hBuild.2
    | revoked => exact absurd hFrom.symm hState
    | installedDisabled => rfl
    | enabled => rfl
    | draining => rfl
    | disabled => rfl
  · exact absurd rfl hState

theorem BuildRevoked.final {registry registry' : Registry} {digest : Digest}
    (h : BuildRevoked registry pluginId digest i i' registry') (hState : i.state.selected = false) :
    i'.state = i.state := by
  rw [h.state]
  split
  · rename_i hBuild
    cases hFrom : i.state with
    | uninstalled => exact absurd hFrom hBuild.2
    | revoked => rfl
    | installedDisabled | enabled | draining | disabled =>
      rw [hFrom] at hState
      cases hState
  · rfl

theorem RowStep.rowKept (h : RowStep packages e pluginId i i')
    (hStep : RegistryStep packages e) : RowKept packages e pluginId i i' := by
  cases h with
  | kept hNot =>
    exact ⟨fun h => absurd rfl h, fun _ => rfl, fun m expected hDone => absurd
      (Or.inl ⟨_, hDone, rfl⟩) hNot, fun h => absurd rfl h, fun h => absurd h hNot, fun _ _ => rfl⟩
  | @moved input _ changes hDone hPlugin hMove hVersions hRevocations hShown =>
    subst hPlugin
    refine ⟨fun _ => hMove.edge hDone hShown, fun hState => ?_, fun m expected hDone' => ?_,
      fun hBuild => absurd hMove.build hBuild, fun _ => hMove.version_lt, fun _ _ => hMove.build⟩
    · cases hMove.selected.symm.trans hState
    · exact absurd (PlatformInput.lifecycle.inj (e.executed_unique hDone hDone')) hMove.not_upgrade
  | @upgraded new old expected version hDone hVersion hId hState hOld hNewer hVerified
      hDependencies hNew hRevocations =>
    subst hId
    refine ⟨fun h => absurd rfl h, fun _ => rfl, fun _ _ _ grant hMem => ?_, fun _ => ?_,
      fun _ => Version.lt_next hVersion, fun row hRow => ?_⟩
    · exact (List.mem_filter.mp hMem).1
    · exact ⟨old, new, hStep.versions_kept hOld, Table.insert?_get?_self hNew, hNewer⟩
    · cases hVerified.trusted.symm.trans hRow
  | @revoked digest reason _ hDone hRevoked =>
    refine ⟨fun hState => Or.inl ?_, fun hState => ?_, fun m expected hDone' => ?_,
      fun hBuild => absurd hRevoked.build hBuild, fun _ => Version.lt_next hRevoked.version,
      fun _ _ => hRevoked.build⟩
    · exact hRevoked.edge hState
    · exact hRevoked.final hState
    · cases e.executed_unique hDone hDone'

/-! ## Along a run -/

/-- No plugin was ever installed. -/
structure NoPlugins (s : Store) : Prop where
  installations : s.tables.registry.installations = .empty
  versions : s.tables.registry.pluginVersions = .empty

theorem NoPlugins.buildsStored {s : Store} (h : NoPlugins s) :
    BuildsStored s.tables.registry := by
  constructor
  · intro pluginId digest m hm
    rw [h.versions] at hm
    cases hm
  · intro pluginId i hi
    rw [h.installations] at hi
    cases hi

theorem NoPlugins.sound {s : Store} (h : NoPlugins s) : InstallationsSound s.tables.registry := by
  constructor
  all_goals
    intro pluginId i
    rw [h.installations]
    intros
    simp_all

section Runs

variable (env : Env) (packages : PluginEnv ν) (catalogue : PlatformCatalogue PluginInput)
  {s : Store}

theorem buildsStored_run (h : BuildsStored s.tables.registry)
    (calls : List (PlatformCall PluginInput)) :
    BuildsStored (Machine.run (platformStep (pluginPlatform env packages catalogue)) s
      calls).tables.registry :=
  Machine.run_invariant (platformStep (pluginPlatform env packages catalogue))
    (I := fun s => BuildsStored s.tables.registry)
    (fun s c hs => BuildsStored.step (e := Machine.eventAt _ s c) hs (platformStep_registry s c)) h
    calls

theorem sound_run (hs : NoPlugins s) (calls : List (PlatformCall PluginInput)) :
    InstallationsSound (Machine.run (platformStep (pluginPlatform env packages catalogue)) s
      calls).tables.registry := by
  have hBoth := Machine.run_invariant (platformStep (pluginPlatform env packages catalogue))
    (I := fun s => BuildsStored s.tables.registry ∧ InstallationsSound s.tables.registry)
    (fun s c hs => by
      have hStep : RegistryStep packages (Machine.eventAt
          (platformStep (pluginPlatform env packages catalogue)) s c) := platformStep_registry s c
      exact ⟨hs.1.step hStep, hs.2.step hs.1 hStep⟩)
    ⟨hs.buildsStored, hs.sound⟩ calls
  exact hBoth.2

/-- What a step of a run does to the plugins. -/
structure LifecycleKept (packages : PluginEnv ν) (e : PlatformEvent PluginInput) : Prop where
  sound : InstallationsSound e.after.tables.registry
  kept : ∀ pluginId i, e.before.tables.registry.installations.get? pluginId = some i →
    ∃ i', e.after.tables.registry.installations.get? pluginId = some i' ∧
      RowKept packages e pluginId i i'
  new : ∀ pluginId i', e.before.tables.registry.installations.get? pluginId = none →
    e.after.tables.registry.installations.get? pluginId = some i' →
    i'.state = .installedDisabled ∧
      e.before.tables.registry.revocations.get? (pluginId, i'.artifactDigest) = none
  revocations : ∀ key row, e.before.tables.registry.revocations.get? key = some row →
    e.after.tables.registry.revocations.get? key = some row

/-- In every run of the platform that begins without plugins, every change of an installation
follows the edges of the kernel, a disable taking two of them at most; the final states are never
left; the grants are different, requested by the manifest of the current build, not extended by an
upgrade and withdrawn at the end; versions of the build and of the row only grow; and a revoked
build is never installed, upgraded to or enabled again. -/
theorem plugin_lifecycle (s : Store) (hs : NoPlugins s)
    (calls : List (PlatformCall PluginInput)) :
    ∀ e ∈ Machine.trace (platformStep (pluginPlatform env packages catalogue)) s calls,
      LifecycleKept packages e := by
  intro e he
  obtain ⟨before, after, -, hEvent⟩ := Machine.mem_trace _ he
  have hBuilds := buildsStored_run env packages catalogue hs.buildsStored before
  have hSound := sound_run env packages catalogue hs before
  have hStep : RegistryStep packages e := by
    rw [hEvent]
    exact platformStep_registry _ _
  have hBefore : e.before = Machine.run _ s before := congrArg (·.before) hEvent
  rw [← hBefore] at hBuilds hSound
  refine ⟨hSound.step hBuilds hStep, fun pluginId i hi => ?_, fun pluginId i' hNone hNew => ?_,
    fun key row => hStep.revocations_kept⟩
  · have hRow := hStep.row pluginId
    rw [hi] at hRow
    generalize hAfter : e.after.tables.registry.installations.get? pluginId = after at hRow
    cases hRow with
    | stepped hRow => exact ⟨_, rfl, hRow.rowKept hStep⟩
  · have hRow := hStep.row pluginId
    rw [hNone, hNew] at hRow
    cases hRow with
    | installed hDone hId hVerified hStored hRevocations =>
      subst hId
      exact ⟨rfl, hVerified.trusted⟩

end Runs

/-- A plugin is installed, enabled and, with no runs of its own, disabled again. -/
def Sample.servicing : List (PlatformCall PluginInput) :=
  [lifecycleCommand 1 (.install storage),
    lifecycleCommand 2 (.enable "storage" storage.artifactDigest.toText ["report.read"] 1),
    lifecycleCommand 3 (.disable "storage" 2 "maintenance")]

theorem Sample.shelf_noPlugins : NoPlugins shelf := ⟨rfl, rfl⟩

theorem plugin_lifecycle_servicing :
    NoPlugins Sample.shelf ∧
      ((Sample.fromShelf Sample.servicing).tables.registry.installations.get? "storage").map
        (fun i => (i.state, i.version.val)) = some (.disabled, 4) ∧
      ∀ e ∈ Machine.trace (platformStep Sample.plugins) Sample.shelf Sample.servicing,
        LifecycleKept Sample.packages e := by
  refine ⟨Sample.shelf_noPlugins, ?_, plugin_lifecycle Sample.env Sample.packages
    Sample.pluginCatalogue Sample.shelf Sample.shelf_noPlugins Sample.servicing⟩
  simp only [Sample.fromShelf, platformStep_bytewise, Sample.plugins_bytewise]
  decide +kernel

/-- The packages of the small tenant with one more signed build. -/
def Sample.packagesWith (m : PluginManifest) : PluginEnv Nat :=
  { Sample.packages with
    signature := fun tick handle =>
      if handle = m.signatureRef then
        some
          { publisherId := m.publisherId, artifactDigest := m.artifactDigest
            manifestDigest := digest (render m.signedJson).toUTF8.data.toList
            signature := [], publicKey := [] }
      else Sample.packages.signature tick handle }

noncomputable def Sample.bytePackagesWith : { f // packagesWith = f } :=
  ⟨_, by
    delta packagesWith
    rw [packages_bytewise, digest_bytewise, render_bytewise,
      Bytewise.PluginManifest.signedJson.2]⟩

theorem Sample.packagesWith_bytewise : packagesWith = bytePackagesWith.val := bytePackagesWith.2

end Masonwing
