import Masonwing.Proofs.ConnectionSwitches
import Masonwing.Proofs.Evaluation
import Masonwing.Proofs.PluginLifecycle

/-!
# Which build a workflow resolves to

The definitions of all plugins share one table, and the newest row of a workflow version is the one
that `run.start` takes, whoever stored it. `WorkflowOwned` is what makes that row the one of a
given plugin: all rows of the version are of this plugin, and the one of the current build is the
newest. Along steps that keep it (`KeepsWorkflow`) the version resolves to the current build, and
what other plugins do to themselves changes neither that nor the admission of a run
(`workflow_resolution`).
-/

namespace Masonwing

open Outcome

variable {ν : Type} {env : Env} {packages : PluginEnv ν}

/-! ## Storing definitions -/

/-- The definitions after those of one build were added. -/
structure DefinitionsAdded (tick : Tick) (m : PluginManifest) (workflows : List WorkflowDocument)
    (before after : Table (String × String × Digest) WorkflowDefinitionRow) : Prop where
  kept : ∀ key row, before.get? key = some row → after.get? key = some row
  new : ∀ key row, after.get? key = some row → before.get? key = some row ∨
    ∃ w ∈ workflows, key = (w.id, w.version, m.artifactDigest) ∧ row.pluginId = m.id.text ∧
      row.createdAt = tick.startedAt

theorem addDefinitions_ok {tick : Tick} {m : PluginManifest} {workflows : List WorkflowDocument}
    {before after : Table (String × String × Digest) WorkflowDefinitionRow}
    (h : workflows.foldlM (addDefinition tick m) before = .ok after) :
    DefinitionsAdded tick m workflows before after := by
  induction workflows generalizing before with
  | nil =>
    cases h
    exact ⟨fun _ _ h => h, fun _ _ h => Or.inl h⟩
  | cons w workflows ih =>
    rw [List.foldlM_cons, bind_eq_ok] at h
    obtain ⟨next, hFirst, hRest⟩ := h
    rw [addDefinition, insertRow_eq_ok] at hFirst
    obtain ⟨hKept, hNew⟩ := ih hRest
    refine ⟨fun key row hRow => hKept key row (Table.insert?_get?_of_some hFirst hRow),
      fun key row hRow => ?_⟩
    rcases hNew key row hRow with hOld | ⟨w', hMem, hKey⟩
    · rcases Table.insert?_get?_cases hFirst hOld with ⟨rfl, rfl⟩ | ⟨-, hOld⟩
      · exact Or.inr ⟨w, List.mem_cons_self, rfl, rfl, rfl⟩
      · exact Or.inl hOld
    · exact Or.inr ⟨w', List.mem_cons_of_mem _ hMem, hKey⟩

/-- The input stores this build. -/
def PluginInput.Stores (input : PluginInput) (m : PluginManifest) : Prop :=
  input = .install m ∨ ∃ pluginId expected, input = .upgrade pluginId m expected

/-- The event stored this build, with these workflows. -/
def StoresBuild (env : Env) (packages : PluginEnv ν) (e : PlatformEvent PluginInput)
    (m : PluginManifest) (workflows : List WorkflowDocument) : Prop :=
  platformCommits e.response = true ∧ ∃ c input, e.call.operation = .command c ∧
    c.input = .lifecycle input ∧ input.Stores m ∧
    verifyInstallation env packages e.call.tick e.before.tables c.actor m = .ok workflows

/-- A step leaves the definitions alone, or adds those of the build that it stores. -/
inductive DefinitionStep (env : Env) (packages : PluginEnv ν) (e : PlatformEvent PluginInput) : Prop
  | same (hSame : e.after.tables.registry.workflowDefinitions =
      e.before.tables.registry.workflowDefinitions)
  | stored {m : PluginManifest} {workflows : List WorkflowDocument}
      (hStores : StoresBuild env packages e m workflows)
      (hAdded : DefinitionsAdded e.call.tick m workflows
        e.before.tables.registry.workflowDefinitions e.after.tables.registry.workflowDefinitions)

section Steps

variable [LinearOrder ν] {catalogue : PlatformCatalogue PluginInput} {tick : Tick} {t : Tables}
  {actor : CommandActor} {registry : Registry} {primary : ResourceRef}
  {changes : List RegistryChange}

theorem installPlugin_definitions {m : PluginManifest}
    (h : installPlugin env packages tick t actor m = .ok (registry, primary, changes)) :
    ∃ workflows, verifyInstallation env packages tick t actor m = .ok workflows ∧
      DefinitionsAdded tick m workflows t.registry.workflowDefinitions
        registry.workflowDefinitions := by
  simp only [installPlugin, bind_eq_ok, require_eq_ok, sql_eq_ok, insertRow_eq_ok, pure_eq_ok,
    Prod.mk.injEq, exists_const] at h
  obtain ⟨workflows, hVerified, saved, hSaved, -, installations, -, rfl, -⟩ := h
  exact ⟨workflows, hVerified, addDefinitions_ok (savePluginVersion_ok hSaved).definitions⟩

theorem upgradePlugin_definitions {pluginId : String} {m : PluginManifest} {expected : Int}
    (h : upgradePlugin env packages tick t actor pluginId m expected =
      .ok (registry, primary, changes)) :
    ∃ workflows, verifyInstallation env packages tick t actor m = .ok workflows ∧
      DefinitionsAdded tick m workflows t.registry.workflowDefinitions
        registry.workflowDefinitions := by
  simp only [upgradePlugin, bind_eq_ok, require_eq_ok, okOr_eq_ok, requireExpectedVersion_eq_ok,
    setInstallation, Prod.exists, exists_const] at h
  obtain ⟨i, -, version, -, -, -, digest, old, -, _, -, workflows, hVerified, h⟩ := h
  refine ⟨workflows, hVerified, ?_⟩
  split at h
  all_goals simp only [bind_eq_ok, pure_eq_ok, Prod.mk.injEq] at h
  · obtain ⟨_, -, saved, hSaved, rfl, -⟩ := h
    exact addDefinitions_ok (savePluginVersion_ok hSaved).definitions
  · obtain ⟨saved, hSaved, rfl, -⟩ := h
    exact addDefinitions_ok (savePluginVersion_ok hSaved).definitions

theorem handlePlugin_definitions {input : PluginInput}
    (h : handlePlugin env packages tick t actor input = .ok (registry, primary, changes)) :
    registry.workflowDefinitions = t.registry.workflowDefinitions ∨
      ∃ m workflows, input.Stores m ∧
        verifyInstallation env packages tick t actor m = .ok workflows ∧
        DefinitionsAdded tick m workflows t.registry.workflowDefinitions
          registry.workflowDefinitions := by
  by_cases hStores : ∃ m, input.Stores m
  · right
    obtain ⟨m, rfl | ⟨pluginId, expected, rfl⟩⟩ := hStores
    · obtain ⟨workflows, hAdded⟩ := installPlugin_definitions h
      exact ⟨m, workflows, Or.inl rfl, hAdded⟩
    · obtain ⟨workflows, hAdded⟩ := upgradePlugin_definitions h
      exact ⟨m, workflows, Or.inr ⟨_, _, rfl⟩, hAdded⟩
  · left
    cases handlePlugin_ok h with
    | installed hVerified hSaved hInsert => exact absurd ⟨_, Or.inl rfl⟩ hStores
    | moved hFound hMove => rfl
    | upgraded hFound hVersion hId hState hOld hNewer hVerified hDependencies hSaved =>
      exact absurd ⟨_, Or.inr ⟨_, _, rfl⟩⟩ hStores

/-- What one step does to the definitions. -/
theorem platformStep_definitions (s : Store) (c : PlatformCall PluginInput) :
    DefinitionStep env packages
      (Machine.eventAt (platformStep (pluginPlatform env packages catalogue)) s c) := by
  have hRegistry : RegistryStep packages
      (Machine.eventAt (platformStep (pluginPlatform env packages catalogue)) s c) :=
    platformStep_registry s c
  obtain ⟨tick, operation⟩ := c
  cases hRegistry with
  | same killSwitches hSame hNot hKept => exact .same (congrArg (·.workflowDefinitions) hSame)
  | revoked hDone hRevoked => exact .same (congrArg (·.workflowDefinitions) hRevoked.others)
  | @moved input changes hDone hMove hShown =>
    obtain ⟨hCommits, command, hCommand, hInput⟩ := hDone
    cases hCommand
    rcases platformStep_command (pluginPlatform env packages catalogue) s tick command with
      ⟨hNone, -⟩ | ⟨-, key, t, m, receipt, hCommitted⟩
    · cases hNone.symm.trans hCommits
    · have hHandled : (pluginPlatform env packages catalogue).dispatch tick s.tables command =
          .ok (t, m) := hCommitted.handled
      rw [Platform.dispatch, hInput] at hHandled
      simp only [Lifecycle.run, bind_eq_ok, pure_eq_ok, Prod.exists, Prod.mk.injEq] at hHandled
      obtain ⟨registry, primary, changes', hHandled, rfl, -⟩ := hHandled
      have hAfter : (platformStep (pluginPlatform env packages catalogue) s
          ⟨tick, .command command⟩).1.tables.registry = registry :=
        congrArg (·.registry) hCommitted.tables
      rcases handlePlugin_definitions hHandled with hSame | ⟨m', workflows, hStores, hVerified, hAdded⟩
      · rw [← hAfter] at hSame
        exact .same hSame
      · rw [← hAfter] at hAdded
        exact .stored ⟨hCommits, command, input, rfl, hInput, hStores, hVerified⟩ hAdded

end Steps

/-! ## The row of the current build -/

/-- The build an installation moves to was not stored before. -/
theorem RegistryStep.build_fresh [LinearOrder ν] {e : PlatformEvent PluginInput}
    (h : RegistryStep packages e) {pluginId : String} {i : InstallationRow}
    (hAfter : e.after.tables.registry.installations.get? pluginId = some i) :
    (∃ i₀, e.before.tables.registry.installations.get? pluginId = some i₀ ∧
      i₀.artifactDigest = i.artifactDigest) ∨
      e.before.tables.registry.pluginVersions.get? (pluginId, i.artifactDigest) = none := by
  have hRow := h.row pluginId
  rw [hAfter] at hRow
  generalize hBefore : e.before.tables.registry.installations.get? pluginId = before at hRow
  cases hRow with
  | installed hDone hId hVerified hStored hRevocations =>
    subst hId
    exact Or.inr (Table.insert?_eq_some hStored).1
  | stepped hRow =>
    cases hRow with
    | kept hNot => exact Or.inl ⟨i, rfl, rfl⟩
    | moved hDone hPlugin hMove hVersions hRevocations hShown =>
      exact Or.inl ⟨_, rfl, hMove.build.symm⟩
    | upgraded hDone hVersion hId hState hOld hNewer hVerified hDependencies hStored
        hRevocations =>
      subst hId
      exact Or.inr (Table.insert?_eq_some hStored).1
    | revoked hDone hRevoked => exact Or.inl ⟨_, rfl, hRevoked.build.symm⟩

/-- A build that a step stores becomes the current one of its plugin. -/
structure BuildCurrent (e : PlatformEvent PluginInput) (m : PluginManifest) : Prop where
  stored : e.after.tables.registry.pluginVersions.get? (m.id.text, m.artifactDigest) = some m
  current : ∃ i, e.after.tables.registry.installations.get? m.id.text = some i ∧
    i.artifactDigest = m.artifactDigest

theorem StoresBuild.current [LinearOrder ν] {e : PlatformEvent PluginInput} {m : PluginManifest}
    {workflows : List WorkflowDocument} (h : StoresBuild env packages e m workflows)
    (hStep : RegistryStep packages e) : BuildCurrent e m := by
  obtain ⟨hCommits, c, input, hCommand, hInput, hStores, -⟩ := h
  have hDone : e.executed (.lifecycle input) := ⟨hCommits, c, hCommand, hInput⟩
  cases hStep with
  | same killSwitches hSame hNot hKept => exact absurd hDone (hNot input)
  | revoked hDone' hRevoked => cases e.executed_unique hDone hDone'
  | moved hDone' hMove hShown =>
    cases e.executed_unique hDone hDone'
    generalize hAfter : e.after.tables.registry = after at hMove
    cases hMove with
    | installed hVerified hSaved hInsert =>
      rcases hStores with hInput | ⟨_, _, hInput⟩ <;> cases hInput
      constructor
      · rw [hAfter]
        exact Table.insert?_get?_self hSaved.versions
      · rw [hAfter]
        exact ⟨_, Table.insert?_get?_self hInsert, rfl⟩
    | moved hFound hMove =>
      exfalso
      rcases hStores with rfl | ⟨_, _, rfl⟩ <;> cases hMove
    | upgraded hFound hVersion hId hState hOld hNewer hVerified hDependencies hSaved =>
      rcases hStores with hInput | ⟨_, _, hInput⟩ <;> cases hInput
      subst hId
      constructor
      · rw [hAfter]
        exact Table.insert?_get?_self hSaved.versions
      · rw [hAfter]
        exact ⟨_, Table.get?_set_self hFound _, rfl⟩

/-- The definitions of a workflow version are all of one plugin, and that of its current build is
newer than the others. -/
structure WorkflowOwned (registry : Registry) (pluginId workflowId workflowVersion : String) :
    Prop where
  owner : ∀ digest row,
    registry.workflowDefinitions.get? (workflowId, workflowVersion, digest) = some row →
      row.pluginId = pluginId ∧ ∃ m, registry.pluginVersions.get? (pluginId, digest) = some m
  newest : ∀ i row, registry.installations.get? pluginId = some i →
    registry.workflowDefinitions.get? (workflowId, workflowVersion, i.artifactDigest) = some row →
    ∀ digest row', digest ≠ i.artifactDigest →
      registry.workflowDefinitions.get? (workflowId, workflowVersion, digest) = some row' →
      row'.createdAt < row.createdAt

/-- A build that the step stores and that ships the workflow version is one of the plugin, and it
is stored later than those that shipped it before. -/
def KeepsWorkflow (env : Env) (packages : PluginEnv ν) (pluginId workflowId workflowVersion : String)
    (e : PlatformEvent PluginInput) : Prop :=
  ∀ m workflows, StoresBuild env packages e m workflows →
    ∀ w ∈ workflows, w.id = workflowId → w.version = workflowVersion →
      m.id.text = pluginId ∧ ∀ digest row,
        e.before.tables.registry.workflowDefinitions.get? (workflowId, workflowVersion, digest) =
          some row → row.createdAt < e.call.tick.startedAt

section Owned

variable {pluginId workflowId workflowVersion : String} {e : PlatformEvent PluginInput}

/-- The definitions of the workflow version after a step: those from before, and that of a build
of the plugin, which is newer. -/
theorem KeepsWorkflow.definition [LinearOrder ν]
    (hKeeps : KeepsWorkflow env packages pluginId workflowId workflowVersion e)
    (hStep : RegistryStep packages e) (hDefinitions : DefinitionStep env packages e)
    {digest : Digest} {row : WorkflowDefinitionRow}
    (hRow : e.after.tables.registry.workflowDefinitions.get? (workflowId, workflowVersion, digest) =
      some row) :
    e.before.tables.registry.workflowDefinitions.get? (workflowId, workflowVersion, digest) =
        some row ∨
      (row.pluginId = pluginId ∧
        (∃ m, e.after.tables.registry.pluginVersions.get? (pluginId, digest) = some m) ∧
        (∃ i, e.after.tables.registry.installations.get? pluginId = some i ∧
          i.artifactDigest = digest) ∧
        ∀ digest' row', e.before.tables.registry.workflowDefinitions.get?
            (workflowId, workflowVersion, digest') = some row' →
          row'.createdAt < row.createdAt) := by
  cases hDefinitions with
  | same hSame =>
    rw [hSame] at hRow
    exact Or.inl hRow
  | @stored m workflows hStores hAdded =>
    rcases hAdded.new _ _ hRow with hOld | ⟨w, hMem, hKey, hPlugin, hCreated⟩
    · exact Or.inl hOld
    · right
      simp only [Prod.mk.injEq] at hKey
      obtain ⟨hId, hVersion, rfl⟩ := hKey
      obtain ⟨rfl, hLater⟩ := hKeeps m workflows hStores w hMem hId.symm hVersion.symm
      have hCurrent := hStores.current hStep
      refine ⟨hPlugin, ⟨m, hCurrent.stored⟩, hCurrent.current, fun digest' row' hRow' => ?_⟩
      rw [hCreated]
      exact hLater digest' row' hRow'

theorem WorkflowOwned.step [LinearOrder ν]
    (h : WorkflowOwned e.before.tables.registry pluginId workflowId workflowVersion)
    (hStep : RegistryStep packages e) (hDefinitions : DefinitionStep env packages e)
    (hKeeps : KeepsWorkflow env packages pluginId workflowId workflowVersion e) :
    WorkflowOwned e.after.tables.registry pluginId workflowId workflowVersion := by
  constructor
  · intro digest row hRow
    rcases hKeeps.definition hStep hDefinitions hRow with hOld | ⟨hPlugin, hStored, -⟩
    · obtain ⟨hPlugin, m, hStored⟩ := h.owner digest row hOld
      exact ⟨hPlugin, m, hStep.versions_kept hStored⟩
    · exact ⟨hPlugin, hStored⟩
  · intro i row hInstalled hRow digest row' hOther hRow'
    rcases hKeeps.definition hStep hDefinitions hRow' with hOld' | ⟨-, -, ⟨j, hCurrent, hDigest⟩, -⟩
    · rcases hKeeps.definition hStep hDefinitions hRow with hOld | ⟨-, -, -, hLater⟩
      · -- both rows are old, so the current build is that of before
        rcases hStep.build_fresh hInstalled with ⟨i₀, hBefore, hSame⟩ | hFresh
        · rw [← hSame] at hOld hOther
          exact h.newest i₀ row hBefore hOld digest row' hOther hOld'
        · obtain ⟨-, m, hStored⟩ := h.owner _ row hOld
          cases hFresh.symm.trans hStored
      · exact hLater digest row' hOld'
    · -- a new row is one of the current build
      cases hCurrent.symm.trans hInstalled
      exact absurd hDigest.symm hOther

/-- The version resolves to the current build. -/
theorem WorkflowOwned.resolves {t : Tables}
    (h : WorkflowOwned t.registry pluginId workflowId workflowVersion) {i : InstallationRow}
    {row : WorkflowDefinitionRow} (hInstalled : t.registry.installations.get? pluginId = some i)
    (hRow : t.registry.workflowDefinitions.get? (workflowId, workflowVersion, i.artifactDigest) =
      some row) :
    workflowDefinition t workflowId workflowVersion = some (i.artifactDigest, row) := by
  unfold workflowDefinition
  have hMem : ∀ digest row', (row'.createdAt, (digest, row')) ∈
      ((t.registry.workflowDefinitions.select fun k _ =>
        decide (k.1 = workflowId ∧ k.2.1 = workflowVersion)).map
          fun p => (p.2.createdAt, (p.1.2.2, p.2))) ↔
      t.registry.workflowDefinitions.get? (workflowId, workflowVersion, digest) = some row' := by
    intro digest row'
    simp only [List.mem_map, Prod.exists, Table.mem_select, decide_eq_true_eq, Prod.mk.injEq]
    constructor
    · rintro ⟨_, _, _, _, ⟨hFound, rfl, rfl⟩, -, rfl, rfl⟩
      exact hFound
    · intro hFound
      exact ⟨_, _, _, _, ⟨hFound, rfl, rfl⟩, rfl, rfl, rfl⟩
  cases hNewest : ((t.registry.workflowDefinitions.select fun k _ =>
      decide (k.1 = workflowId ∧ k.2.1 = workflowVersion)).map
        fun p => (p.2.createdAt, (p.1.2.2, p.2))).foldl newer none with
  | none =>
    have hIn := (hMem i.artifactDigest row).mpr hRow
    rw [foldl_newer_none.mp hNewest] at hIn
    cases hIn
  | some q =>
    obtain ⟨hFrom, hLatest, -⟩ := foldl_newer_some hNewest
    have hq := hFrom.resolve_right (by simp)
    obtain ⟨p, -, rfl⟩ := List.mem_map.mp hq
    obtain ⟨⟨id, version, digest⟩, row'⟩ := p
    have hFound := (hMem digest row').mp hq
    by_cases hDigest : digest = i.artifactDigest
    · subst hDigest
      cases hFound.symm.trans hRow
      rfl
    · have hOlder := h.newest i row hInstalled hRow digest row' hDigest hFound
      have hNewer := hLatest _ ((hMem i.artifactDigest row).mpr hRow)
      dsimp only at hNewer
      omega

end Owned

/-! ## What the other plugins leave alone -/

/-- The call is a command on the lifecycle of another plugin. -/
def OnOthers (pluginId : String) (c : PlatformCall PluginInput) : Prop :=
  ∃ command, c.operation = .command command ∧
    ((∃ input, command.input = .lifecycle input ∧ input.pluginId ≠ pluginId) ∨
      ∃ other digest reason, command.input = .pluginRevoke other digest reason ∧ other ≠ pluginId)

/-- What the admission of a run of a plugin reads, besides the definitions. -/
structure AdmissionKept (pluginId : String) (t t' : Tables) : Prop where
  identity : t'.identity = t.identity
  delegations : t'.delegations = t.delegations
  killSwitches : t'.registry.killSwitches = t.registry.killSwitches
  tombstones : t'.journal.tombstones = t.journal.tombstones
  artifacts : ∀ id a, t.journal.artifacts.get? id = some a → t'.journal.artifacts.get? id = some a
  installation : t'.registry.installations.get? pluginId = t.registry.installations.get? pluginId
  versions : ∀ key m, t.registry.pluginVersions.get? key = some m →
    t'.registry.pluginVersions.get? key = some m
  runs : ∀ k, t.runs.get? k = none → t'.runs.get? k = none
  workflowIds : ∀ k r', t'.runs.get? k = some r' →
    ∃ r, t.runs.get? k = some r ∧ r.temporalWorkflowId = r'.temporalWorkflowId

theorem AdmissionKept.refl (pluginId : String) (t : Tables) : AdmissionKept pluginId t t :=
  ⟨rfl, rfl, rfl, rfl, fun _ _ h => h, rfl, fun _ _ h => h, fun _ h => h, fun _ r' h => ⟨r', h, rfl⟩⟩

theorem AdmissionKept.trans {pluginId : String} {t t' t'' : Tables}
    (h : AdmissionKept pluginId t t') (h' : AdmissionKept pluginId t' t'') :
    AdmissionKept pluginId t t'' := by
  refine ⟨h'.identity.trans h.identity, h'.delegations.trans h.delegations,
    h'.killSwitches.trans h.killSwitches, h'.tombstones.trans h.tombstones,
    fun id a ha => h'.artifacts id a (h.artifacts id a ha),
    h'.installation.trans h.installation, fun key m hm => h'.versions key m (h.versions key m hm),
    fun k hk => h'.runs k (h.runs k hk), fun k r'' hr'' => ?_⟩
  obtain ⟨r', hr', hSame'⟩ := h'.workflowIds k r'' hr''
  obtain ⟨r, hr, hSame⟩ := h.workflowIds k r' hr'
  exact ⟨r, hr, hSame.trans hSame'⟩

section Others

variable [LinearOrder ν] {catalogue : PlatformCatalogue PluginInput} {pluginId : String}

theorem OnOthers.not_concerns {s : Store} {c : PlatformCall PluginInput}
    (h : OnOthers pluginId c) : ¬ PlatformEvent.concerns
      (Machine.eventAt (platformStep (pluginPlatform env packages catalogue)) s c) pluginId := by
  obtain ⟨command, hCommand, hOther⟩ := h
  rintro (⟨input, ⟨-, command', hCommand', hInput⟩, hPlugin⟩ |
    ⟨digest, reason, -, command', hCommand', hInput⟩)
  all_goals
    cases hCommand.symm.trans hCommand'
    rcases hOther with ⟨input', hInput', hOther⟩ | ⟨other, digest', reason', hInput', hOther⟩
  · cases hInput.symm.trans hInput'
    exact hOther hPlugin
  · cases hInput.symm.trans hInput'
  · cases hInput.symm.trans hInput'
  · cases hInput.symm.trans hInput'
    exact hOther rfl

/-- A step that is not about a plugin leaves its row alone. -/
theorem RegistryStep.installation_kept {e : PlatformEvent PluginInput}
    (h : RegistryStep packages e) (hNot : ¬ e.concerns pluginId) :
    e.after.tables.registry.installations.get? pluginId =
      e.before.tables.registry.installations.get? pluginId := by
  have hRow := h.row pluginId
  generalize e.after.tables.registry.installations.get? pluginId = after at hRow ⊢
  generalize e.before.tables.registry.installations.get? pluginId = before at hRow ⊢
  cases hRow with
  | absent => rfl
  | installed hDone hId hVerified hStored hRevocations =>
    exact absurd (Or.inl ⟨_, hDone, hId⟩) hNot
  | stepped hRow =>
    cases hRow with
    | kept => rfl
    | moved hDone hPlugin hMove hVersions hRevocations hShown =>
      exact absurd (Or.inl ⟨_, hDone, hPlugin⟩) hNot
    | upgraded hDone hVersion hId hState hOld hNewer hVerified hDependencies hStored
        hRevocations =>
      exact absurd (Or.inl ⟨_, hDone, rfl⟩) hNot
    | revoked hDone hRevoked => exact absurd (Or.inr ⟨_, _, hDone⟩) hNot

theorem RunsStopped.none {t : Tables} {other : String} {digest : Digest}
    {runs : Table Uuid RunRow} (h : RunsStopped t other digest runs) {k : Uuid}
    (hNone : t.runs.get? k = none) : runs.get? k = none := by
  rcases h.rows k with ⟨-, hNone'⟩ | ⟨r, r', hr, -⟩
  · exact hNone'
  · cases hNone.symm.trans hr

theorem RunsStopped.workflowId {t : Tables} {other : String} {digest : Digest}
    {runs : Table Uuid RunRow} (h : RunsStopped t other digest runs) {k : Uuid} {r' : RunRow}
    (hr' : runs.get? k = some r') :
    ∃ r, t.runs.get? k = some r ∧ r.temporalWorkflowId = r'.temporalWorkflowId := by
  rcases h.rows k with ⟨-, hNone⟩ | ⟨r, r'', hr, hr'', hRow⟩
  · cases hNone.symm.trans hr'
  · cases hr''.symm.trans hr'
    refine ⟨r, hr, ?_⟩
    split at hRow
    · exact congrArg RunTerms.temporalWorkflowId hRow.terms.symm
    · rw [hRow]

/-- A command on another plugin keeps what the admission of a run reads. -/
theorem OnOthers.admissionKept {s : Store} {c : PlatformCall PluginInput}
    (h : OnOthers pluginId c) : AdmissionKept pluginId s.tables
      (platformStep (pluginPlatform env packages catalogue) s c).1.tables := by
  have hRegistry : RegistryStep packages
      (Machine.eventAt (platformStep (pluginPlatform env packages catalogue)) s c) :=
    platformStep_registry s c
  have hInstallation := hRegistry.installation_kept h.not_concerns
  have hVersions := fun key m => @RegistryStep.versions_kept _ _ _ _ hRegistry key m
  have hSwitches : SwitchStep
      (Machine.eventAt (platformStep (pluginPlatform env packages catalogue)) s c) :=
    platformStep_switches s c
  obtain ⟨tick, operation⟩ := c
  obtain ⟨command, hCommand, hOther⟩ := h
  cases hCommand
  have hKillSwitches : (platformStep (pluginPlatform env packages catalogue) s
      ⟨tick, .command command⟩).1.tables.registry.killSwitches =
        s.tables.registry.killSwitches := by
    cases hSwitches with
    | same hSame hNot => exact hSame
    | set hDone hKind hRow hOthers =>
      obtain ⟨-, c, reason, hCore, -⟩ := hDone
      cases hCore
  rcases platformStep_command (pluginPlatform env packages catalogue) s tick command with
    ⟨-, hSame⟩ | ⟨-, key, t, m, receipt, hCommitted⟩
  · rw [hSame]
    exact .refl _ _
  · have hTables := hCommitted.tables
    have hHandled : (pluginPlatform env packages catalogue).dispatch tick s.tables command =
        .ok (t, m) := hCommitted.handled
    have hAppended := recordChanges_appended hCommitted.recorded
    have hFrame : t.identity = s.tables.identity ∧ t.delegations = s.tables.delegations ∧
        t.journal = s.tables.journal ∧ (∀ k, s.tables.runs.get? k = none → t.runs.get? k = none) ∧
        ∀ k r', t.runs.get? k = some r' → ∃ r, s.tables.runs.get? k = some r ∧
          r.temporalWorkflowId = r'.temporalWorkflowId := by
      rcases hOther with ⟨input, hInput, -⟩ | ⟨other, digest, reason, hInput, -⟩
      · rw [Platform.dispatch, hInput] at hHandled
        obtain ⟨registry, rfl, -⟩ := Lifecycle.run_ok hHandled
        exact ⟨rfl, rfl, rfl, fun _ hNone => hNone, fun _ r' hr' => ⟨r', hr', rfl⟩⟩
      · rw [Platform.dispatch, hInput] at hHandled
        obtain ⟨d, registry, runs, -, hRuns, rfl, -⟩ := revokePlugin_ok hHandled
        exact ⟨rfl, rfl, rfl, fun _ => hRuns.none, fun _ _ => hRuns.workflowId⟩
    obtain ⟨hIdentity, hDelegations, hJournal, hNone, hIds⟩ := hFrame
    rw [hJournal] at hAppended
    have hRuns := congrArg (·.runs) hTables
    refine ⟨(congrArg (·.identity) hTables).trans hIdentity,
      (congrArg (·.delegations) hTables).trans hDelegations, hKillSwitches, hAppended.tombstones,
      hAppended.artifacts_kept, hInstallation, hVersions, fun k hk => ?_, fun k r' hr' => ?_⟩
    · exact (congrArg (·.get? k) hRuns).trans (hNone k hk)
    · exact hIds k r' ((congrArg (·.get? k) hRuns).symm.trans hr')

end Others

/-! ## Admission -/

/-- The command passes the checks of its actor and its authorization, and its handler admits this
run. -/
def AdmitsRun (env : Env) (tick : Tick) (t : Tables) (c : Command CommandInput) (r : RunRow) :
    Prop :=
  beginActor t c.actor = .ok () ∧ authorizeCommand env t c = .ok () ∧
    ∃ t' m, dispatchCommand env tick t c = .ok (t', m) ∧ t'.runs.get? (tick.draw .run) = some r

section Admission

variable {pluginId : String} {t t' : Tables} {tick : Tick} {actor : CommandActor}

theorem AdmissionKept.readPolicy (h : AdmissionKept pluginId t t') :
    Masonwing.readPolicy env t' actor = Masonwing.readPolicy env t actor := by
  simp only [Masonwing.readPolicy, currentPolicy, h.identity]

theorem AdmissionKept.artifactMetadata (h : AdmissionKept pluginId t t') {id : String}
    {reference : ArtifactRef} (hOk : Masonwing.artifactMetadata env t actor id = .ok reference) :
    Masonwing.artifactMetadata env t' actor id = .ok reference := by
  simp only [Masonwing.artifactMetadata, bind_eq_ok, require_eq_ok, okOr_eq_ok, pure_eq_ok,
    exists_const] at hOk ⊢
  obtain ⟨artifactId, hId, a, ha, hActive, policy, hPolicy, hPermits, hReference⟩ := hOk
  exact ⟨artifactId, hId, a, h.artifacts _ _ ha, h.tombstones ▸ hActive, policy,
    h.readPolicy.trans hPolicy, hPermits, hReference⟩

theorem AdmissionKept.loadArtifactRef (h : AdmissionKept pluginId t t') {reference : ArtifactRef}
    {maximum : Nat} {bytes : Bytes}
    (hOk : Masonwing.loadArtifactRef env tick t actor reference maximum = .ok bytes) :
    Masonwing.loadArtifactRef env tick t' actor reference maximum = .ok bytes := by
  simp only [Masonwing.loadArtifactRef, bind_eq_ok, require_eq_ok, okOr_eq_ok, pure_eq_ok,
    exists_const] at hOk ⊢
  obtain ⟨hTenant, artifactId, hId, a, ha, hActive, hRest⟩ := hOk
  exact ⟨hTenant, artifactId, hId, a, h.artifacts _ _ ha, h.tombstones ▸ hActive, hRest⟩

theorem AdmissionKept.checkRunInput (h : AdmissionKept pluginId t t')
    {inputSchema inputRef : ArtifactRef} {u : Unit}
    (hOk : Masonwing.checkRunInput env tick t actor inputSchema inputRef = .ok u) :
    Masonwing.checkRunInput env tick t' actor inputSchema inputRef = .ok u := by
  simp only [Masonwing.checkRunInput, bind_eq_ok, require_eq_ok, exists_const] at hOk ⊢
  obtain ⟨metadata, hMetadata, hSame, schema, hSchema, hCompiles, input, hInput, hAccepts⟩ := hOk
  exact ⟨metadata, h.artifactMetadata hMetadata, hSame, schema, h.loadArtifactRef hSchema, hCompiles,
    input, h.loadArtifactRef hInput, hAccepts⟩

theorem AdmissionKept.insertRun (h : AdmissionKept pluginId t t') {id : Uuid} {r : RunRow}
    {runs : Table Uuid RunRow} (hOk : Masonwing.insertRun t id r = .ok runs) :
    ∃ runs', Masonwing.insertRun t' id r = .ok runs' ∧ runs'.get? id = some r := by
  simp only [Masonwing.insertRun, bind_eq_ok, require_eq_ok, sql_eq_ok, insertRow_eq_ok, pure_eq_ok,
    exists_const, Table.any_eq_false_iff, decide_eq_false_iff_not, Table.contains_iff] at hOk ⊢
  obtain ⟨hIds, runs', hInsert, ⟨hGrant, m, hBuild⟩, rfl⟩ := hOk
  obtain ⟨runs'', hInsert'⟩ :=
    Table.insert?_isSome_iff.mpr (h.runs id (Table.insert?_eq_some hInsert).1)
  refine ⟨runs'', ⟨fun k r' hr' hSame => ?_, runs'', hInsert', ⟨?_, m, h.versions _ m hBuild⟩, rfl⟩,
    Table.insert?_get?_self hInsert'⟩
  · obtain ⟨r₀, hr₀, hId⟩ := h.workflowIds k r' hr'
    exact hIds k r₀ hr₀ (hId.trans hSame)
  · rw [h.delegations]
    exact hGrant

theorem AdmissionKept.startRun (h : AdmissionKept pluginId t t') {workflowId workflowVersion : String}
    {inputRef : ArtifactRef} {grantId : String} {digest : Digest} {row : WorkflowDefinitionRow}
    (hBefore : workflowDefinition t workflowId workflowVersion = some (digest, row))
    (hAfter : workflowDefinition t' workflowId workflowVersion = some (digest, row))
    (hPlugin : row.pluginId = pluginId) {t₁ : Tables} {m₁ : Mutation}
    (hOk : Masonwing.startRun env tick t actor workflowId workflowVersion inputRef grantId =
      .ok (t₁, m₁)) :
    ∃ t₂ m₂, Masonwing.startRun env tick t' actor workflowId workflowVersion inputRef grantId =
      .ok (t₂, m₂) ∧ t₂.runs.get? (tick.draw .run) = t₁.runs.get? (tick.draw .run) := by
  subst hPlugin
  have hEnabled : requireEnabledPlugin t' row.pluginId digest =
      requireEnabledPlugin t row.pluginId digest := by
    rw [requireEnabledPlugin, requireEnabledPlugin, h.installation]
  have hStopped : stoppedBy t' (some row.pluginId) none =
      stoppedBy t (some row.pluginId) none := by
    rw [stoppedBy, stoppedBy, h.killSwitches, h.identity]
  have hGrant : ∀ id, requireActiveGrant tick t' actor id (some "run.start") none =
      requireActiveGrant tick t actor id (some "run.start") none := by
    intro id
    rw [requireActiveGrant, requireActiveGrant, h.delegations]
  simp only [Masonwing.startRun, bind_eq_ok, require_eq_ok, okOr_eq_ok, pure_eq_ok,
    requireDispatchEnabled, Prod.exists, exists_const, hBefore, Option.some.injEq,
    Prod.mk.injEq] at hOk
  simp only [Masonwing.startRun, bind_eq_ok, require_eq_ok, okOr_eq_ok, pure_eq_ok,
    requireDispatchEnabled, Prod.exists, exists_const, hAfter, Option.some.injEq, Prod.mk.injEq]
  obtain ⟨principal, hPrincipal, hTenant, grant, hGrantId, _, _, ⟨rfl, rfl⟩, schema, hSchema, _,
    hPasses, hOpen, active, hActive, _, hInput, runs, hInsert, input, hInputId, rfl, rfl⟩ := hOk
  obtain ⟨runs', hInsert', hRow⟩ := h.insertRun hInsert
  refine ⟨_, _, ⟨principal, hPrincipal, hTenant, grant, hGrantId, _, _, ⟨rfl, rfl⟩, schema, hSchema,
    _, hEnabled.trans hPasses, hStopped.trans hOpen, active, (hGrant grant).trans hActive, _,
    h.checkRunInput hInput, runs', hInsert', input, hInputId, rfl, rfl⟩, ?_⟩
  rw [hRow, Table.insert?_get?_self (insertRun_ok hInsert)]

/-- A run that was admitted still is, if its workflow resolves as before. -/
theorem AdmissionKept.admits (h : AdmissionKept pluginId t t') {workflowId workflowVersion : String}
    {digest : Digest} {row : WorkflowDefinitionRow}
    (hBefore : workflowDefinition t workflowId workflowVersion = some (digest, row))
    (hAfter : workflowDefinition t' workflowId workflowVersion = some (digest, row))
    (hPlugin : row.pluginId = pluginId) {c : Command CommandInput} {inputRef : ArtifactRef}
    {grantId : String} (hInput : c.input = .runStart workflowId workflowVersion inputRef grantId)
    {r : RunRow} (hAdmits : AdmitsRun env tick t c r) : AdmitsRun env tick t' c r := by
  obtain ⟨hActor, hAuthorized, t₁, m₁, hHandled, hRow⟩ := hAdmits
  rw [dispatchCommand, hInput] at hHandled
  obtain ⟨t₂, m₂, hHandled', hSame⟩ := h.startRun hBefore hAfter hPlugin hHandled
  refine ⟨?_, ?_, t₂, m₂, ?_, hSame.trans hRow⟩
  · rw [beginActor, h.identity]
    exact hActor
  · rw [authorizeCommand, h.readPolicy, authorizationResource, hInput, h.identity]
    rw [authorizeCommand, authorizationResource, hInput] at hAuthorized
    exact hAuthorized
  · rw [dispatchCommand, hInput]
    exact hHandled'

end Admission

/-- The workflow version resolves to this build of the plugin in both states, and a run of it that
is admitted in the first one is admitted in the second one. -/
structure ResolutionKept (env : Env) (pluginId workflowId workflowVersion : String)
    (i : InstallationRow) (t t' : Tables) : Prop where
  before : ∃ row, workflowDefinition t workflowId workflowVersion = some (i.artifactDigest, row) ∧
    row.pluginId = pluginId
  after : ∃ row, workflowDefinition t' workflowId workflowVersion = some (i.artifactDigest, row) ∧
    row.pluginId = pluginId
  installed : t'.registry.installations.get? pluginId = some i
  admitted : ∀ tick c r inputRef grantId,
    c.input = .runStart workflowId workflowVersion inputRef grantId →
      AdmitsRun env tick t c r → AdmitsRun env tick t' c r

section Runs

variable [LinearOrder ν] (env : Env) (packages : PluginEnv ν)
  (catalogue : PlatformCatalogue PluginInput) {pluginId workflowId workflowVersion : String}

theorem workflowOwned_run {s : Store}
    (hs : WorkflowOwned s.tables.registry pluginId workflowId workflowVersion)
    (calls : List (PlatformCall PluginInput))
    (hKeeps : ∀ e ∈ Machine.trace (platformStep (pluginPlatform env packages catalogue)) s calls,
      KeepsWorkflow env packages pluginId workflowId workflowVersion e) :
    WorkflowOwned (Machine.run (platformStep (pluginPlatform env packages catalogue)) s
      calls).tables.registry pluginId workflowId workflowVersion :=
  Machine.run_invariant_of (platformStep (pluginPlatform env packages catalogue))
    (I := fun s => WorkflowOwned s.tables.registry pluginId workflowId workflowVersion)
    (P := KeepsWorkflow env packages pluginId workflowId workflowVersion)
    (fun s c hs hKeeps => WorkflowOwned.step (e := Machine.eventAt _ s c) hs
      (platformStep_registry s c) (platformStep_definitions s c) hKeeps)
    hs hKeeps

/-- What commands on other plugins leave of a run of the platform: the admission of runs, and the
definitions that a build shipped. -/
theorem others_run {s : Store} {others : List (PlatformCall PluginInput)}
    (hOthers : ∀ c ∈ others, OnOthers pluginId c) :
    AdmissionKept pluginId s.tables
        (Machine.run (platformStep (pluginPlatform env packages catalogue)) s others).tables ∧
      ∀ key row, s.tables.registry.workflowDefinitions.get? key = some row →
        (Machine.run (platformStep (pluginPlatform env packages catalogue)) s
          others).tables.registry.workflowDefinitions.get? key = some row := by
  induction others generalizing s with
  | nil => exact ⟨.refl _ _, fun _ _ h => h⟩
  | cons c others ih =>
    obtain ⟨hRest, hRestRows⟩ := @ih (platformStep (pluginPlatform env packages catalogue) s c).1
      fun c hc => hOthers c (List.mem_cons_of_mem _ hc)
    have hFirst : AdmissionKept pluginId s.tables
        (platformStep (pluginPlatform env packages catalogue) s c).1.tables :=
      (hOthers c List.mem_cons_self).admissionKept
    have hDefinitions : DefinitionStep env packages
        (Machine.eventAt (platformStep (pluginPlatform env packages catalogue)) s c) :=
      platformStep_definitions s c
    refine ⟨hFirst.trans hRest, fun key row hRow => hRestRows key row ?_⟩
    cases hDefinitions with
    | same hSame => exact (congrArg (·.get? key) hSame).trans hRow
    | stored hStores hAdded => exact hAdded.kept key row hRow

/-- In every run that begins without plugins and keeps a workflow version to one plugin: once the
current build of the plugin ships the version, `run.start` resolves to it, and commands on other
plugins change neither that nor the admission of a run. -/
theorem workflow_resolution (s : Store) (hs : NoPlugins s)
    (hNone : s.tables.registry.workflowDefinitions = .empty)
    (calls others : List (PlatformCall PluginInput))
    (hKeeps : ∀ e ∈ Machine.trace (platformStep (pluginPlatform env packages catalogue)) s
      (calls ++ others), KeepsWorkflow env packages pluginId workflowId workflowVersion e)
    (hOthers : ∀ c ∈ others, OnOthers pluginId c) (i : InstallationRow) (row : WorkflowDefinitionRow)
    (hInstalled : (Machine.run (platformStep (pluginPlatform env packages catalogue)) s
      calls).tables.registry.installations.get? pluginId = some i)
    (hShips : (Machine.run (platformStep (pluginPlatform env packages catalogue)) s
      calls).tables.registry.workflowDefinitions.get?
        (workflowId, workflowVersion, i.artifactDigest) = some row) :
    ResolutionKept env pluginId workflowId workflowVersion i
      (Machine.run (platformStep (pluginPlatform env packages catalogue)) s calls).tables
      (Machine.run (platformStep (pluginPlatform env packages catalogue)) s
        (calls ++ others)).tables := by
  have hBegin : WorkflowOwned s.tables.registry pluginId workflowId workflowVersion := by
    constructor
    · intro digest row hRow
      rw [hNone] at hRow
      cases hRow
    · intro i row hFound
      rw [hs.installations] at hFound
      cases hFound
  have hAfterOwned := workflowOwned_run env packages catalogue hBegin _ hKeeps
  have hOwned := workflowOwned_run env packages catalogue hBegin calls fun e he =>
    hKeeps e (by
      rw [Machine.trace_append]
      exact List.mem_append_left _ he)
  obtain ⟨hKept, hRows⟩ := others_run env packages catalogue (s := Machine.run
    (platformStep (pluginPlatform env packages catalogue)) s calls) hOthers
  rw [← Machine.run_append] at hKept hRows
  have hInstalled' := hKept.installation.trans hInstalled
  have hBefore := hOwned.resolves hInstalled hShips
  have hAfter := hAfterOwned.resolves hInstalled' (hRows _ row hShips)
  have hPlugin := (hOwned.owner _ row hShips).1
  exact ⟨⟨row, hBefore, hPlugin⟩, ⟨row, hAfter, hPlugin⟩, hInstalled',
    fun tick c r inputRef grantId hInput => hKept.admits hBefore hAfter hPlugin hInput⟩

end Runs

/-- No run is admitted while the newest definition is not one of an enabled build. -/
theorem not_admitsRun {t : Tables} {tick : Tick} {c : Command CommandInput}
    {workflowId workflowVersion grantId : String} {inputRef : ArtifactRef} {digest : Digest}
    {row : WorkflowDefinitionRow} {failure : CommandFailure}
    (hInput : c.input = .runStart workflowId workflowVersion inputRef grantId)
    (hDefinition : workflowDefinition t workflowId workflowVersion = some (digest, row))
    (hRefused : requireEnabledPlugin t row.pluginId digest = .error failure) (r : RunRow) :
    ¬ AdmitsRun env tick t c r := by
  rintro ⟨-, -, t', m, hHandled, -⟩
  rw [dispatchCommand, hInput] at hHandled
  simp only [startRun, bind_eq_ok, okOr_eq_ok, Prod.exists, hDefinition, Option.some.injEq,
    Prod.mk.injEq] at hHandled
  obtain ⟨-, -, -, -, -, -, _, _, ⟨rfl, rfl⟩, -, -, _, hPasses, -⟩ := hHandled
  cases hRefused.symm.trans hPasses

/-- A build without workflows adds no definition. -/
theorem StoresBuild.of_no_workflows {e : PlatformEvent PluginInput} {m : PluginManifest}
    {workflows : List WorkflowDocument} (h : StoresBuild env packages e m workflows)
    (hNone : m.workflows = []) : workflows = [] := by
  obtain ⟨-, c, input, -, -, -, hVerified⟩ := h
  simp only [verifyInstallation, bind_eq_ok, hNone, List.foldlM_nil, pure_eq_ok] at hVerified
  obtain ⟨-, -, -, -, -, -, -, -, -, -, -, -, rfl⟩ := hVerified
  rfl

namespace Sample

/-- A plugin that ships a workflow is enabled. -/
def printed : List (PlatformCall PluginInput) :=
  [lifecycleCommand 1 (.install printing),
    lifecycleCommand 2 (.enable "printing" printing.artifactDigest.toText [] 1)]

/-- Two other plugins are installed, the second of which ships the same version. -/
def taking : List (PlatformCall PluginInput) :=
  [lifecycleCommand 3 (.install storage), lifecycleCommand 4 (.install reports)]

/-- The installation of the plugin, the build that the version resolves to, and whether it admits
runs. -/
structure WorkflowView where
  installed : Option (InstallationState × Digest)
  shipped : Bool
  resolved : Option (Digest × String)
  refused : Bool
  deriving DecidableEq

def workflowView (t : Tables) : WorkflowView :=
  { installed := (t.registry.installations.get? "printing").map fun i => (i.state, i.artifactDigest)
    shipped := t.registry.workflowDefinitions.contains ("report", "1.0.0", printing.artifactDigest)
    resolved := (workflowDefinition t "report" "1.0.0").map fun d => (d.1, d.2.pluginId)
    refused := (workflowDefinition t "report" "1.0.0").any fun d =>
      (requireEnabledPlugin t d.2.pluginId d.1).toOption.isNone }

theorem workflow_views :
    workflowView (fromShelf printed).tables =
        ⟨some (.enabled, printing.artifactDigest), true,
          some (printing.artifactDigest, "printing"), false⟩ ∧
      workflowView (fromShelf (printed ++ taking)).tables =
        ⟨some (.enabled, printing.artifactDigest), true,
          some (reports.artifactDigest, "reports"), true⟩ := by
  simp only [Sample.fromShelf, platformStep_bytewise, Sample.plugins_bytewise]
  decide +kernel

theorem view_installed {t : Tables} {resolved : Option (Digest × String)} {refused : Bool}
    (h : workflowView t = ⟨some (.enabled, printing.artifactDigest), true, resolved, refused⟩) :
    ∃ i row, t.registry.installations.get? "printing" = some i ∧ i.state = .enabled ∧
      t.registry.workflowDefinitions.get? ("report", "1.0.0", i.artifactDigest) = some row := by
  simp only [workflowView, WorkflowView.mk.injEq, Option.map_eq_some_iff, Prod.mk.injEq,
    Table.contains_iff] at h
  obtain ⟨⟨i, hFound, hState, hDigest⟩, ⟨row, hRow⟩, -⟩ := h
  rw [← hDigest] at hRow
  exact ⟨i, row, hFound, hState, hRow⟩

theorem view_refused {t : Tables} {installed : Option (InstallationState × Digest)} {shipped : Bool}
    {resolved : Digest × String}
    (h : workflowView t = ⟨installed, shipped, some resolved, true⟩) :
    ∃ row failure, workflowDefinition t "report" "1.0.0" = some (resolved.1, row) ∧
      row.pluginId = resolved.2 ∧
      requireEnabledPlugin t row.pluginId resolved.1 = .error failure := by
  simp only [workflowView, WorkflowView.mk.injEq, Option.map_eq_some_iff] at h
  obtain ⟨-, -, ⟨⟨digest, row⟩, hDefinition, rfl⟩, hRefused⟩ := h
  rw [hDefinition, Option.any_some] at hRefused
  dsimp only at hRefused ⊢
  refine ⟨row, ?_⟩
  cases hCheck : requireEnabledPlugin t row.pluginId digest with
  | error failure => exact ⟨failure, hDefinition, rfl, rfl⟩
  | ok u =>
    rw [hCheck] at hRefused
    cases hRefused

theorem taking_onOthers : ∀ c ∈ taking, OnOthers "printing" c := by
  intro c hc
  simp only [taking, List.mem_cons, List.not_mem_nil, or_false] at hc
  rcases hc with rfl | rfl
  · exact ⟨_, rfl, Or.inl ⟨_, rfl, by decide⟩⟩
  · exact ⟨_, rfl, Or.inl ⟨_, rfl, by decide⟩⟩

end Sample

/-- The version resolves to another plugin, which is not enabled, and no run of it is admitted. -/
theorem workflow_taken :
    NoPlugins Sample.shelf ∧ (∀ c ∈ Sample.taking, OnOthers "printing" c) ∧
      (∃ i row,
        (Sample.fromShelf Sample.printed).tables.registry.installations.get? "printing" = some i ∧
        i.state = .enabled ∧
        (Sample.fromShelf Sample.printed).tables.registry.workflowDefinitions.get?
          ("report", "1.0.0", i.artifactDigest) = some row) ∧
      (∀ digest row, workflowDefinition (Sample.fromShelf (Sample.printed ++ Sample.taking)).tables
        "report" "1.0.0" = some (digest, row) → row.pluginId ≠ "printing") ∧
      ∀ tick c r inputRef grantId, c.input = .runStart "report" "1.0.0" inputRef grantId →
        ¬ AdmitsRun Sample.env tick (Sample.fromShelf (Sample.printed ++ Sample.taking)).tables c
          r := by
  obtain ⟨row, failure, hDefinition, hPlugin, hRefused⟩ :=
    Sample.view_refused Sample.workflow_views.2
  refine ⟨Sample.shelf_noPlugins, Sample.taking_onOthers,
    Sample.view_installed Sample.workflow_views.1, fun digest row' hTaken hSame => ?_,
    fun tick c r inputRef grantId hInput => not_admitsRun hInput hDefinition hRefused r⟩
  cases hDefinition.symm.trans hTaken
  rw [hPlugin] at hSame
  exact absurd hSame (by decide)

namespace Sample

/-- Only a plugin without workflows is installed. -/
def sharing : List (PlatformCall PluginInput) := [lifecycleCommand 3 (.install storage)]

/-- A call that stores a build, as the event of a run. -/
theorem storesBuild_call {s : Store} {n : Nat} {input : PluginInput} {m : PluginManifest}
    {workflows : List WorkflowDocument}
    (h : StoresBuild env packages (Machine.eventAt (platformStep plugins) s
      (lifecycleCommand n input)) m workflows) : input.Stores m := by
  obtain ⟨-, c, input', hCommand, hInput, hStores, -⟩ := h
  cases hCommand
  cases hInput
  exact hStores

theorem sharing_keeps :
    ∀ e ∈ Machine.trace (platformStep plugins) shelf (printed ++ sharing),
      KeepsWorkflow Sample.env Sample.packages "printing" "report" "1.0.0" e := by
  intro e he m workflows hStores w hMem hId hVersion
  simp only [printed, sharing, List.cons_append, List.nil_append, Machine.trace, List.mem_cons,
    List.not_mem_nil, or_false] at he
  rcases he with rfl | rfl | rfl
  · rcases storesBuild_call hStores with hInput | ⟨_, _, hInput⟩ <;> cases hInput
    refine ⟨rfl, fun digest row hRow => ?_⟩
    cases hRow
  · rcases storesBuild_call hStores with hInput | ⟨_, _, hInput⟩ <;> cases hInput
  · rcases storesBuild_call hStores with hInput | ⟨_, _, hInput⟩ <;> cases hInput
    rw [hStores.of_no_workflows rfl] at hMem
    cases hMem

theorem sharing_onOthers : ∀ c ∈ sharing, OnOthers "printing" c := by
  intro c hc
  rw [List.mem_singleton.mp hc]
  exact ⟨_, rfl, Or.inl ⟨_, rfl, by decide⟩⟩

end Sample

theorem workflow_resolution_sharing :
    ∃ i : InstallationRow, i.state = .enabled ∧
      ResolutionKept Sample.env "printing" "report" "1.0.0" i
        (Sample.fromShelf Sample.printed).tables
        (Sample.fromShelf (Sample.printed ++ Sample.sharing)).tables := by
  obtain ⟨i, row, hInstalled, hState, hRow⟩ := Sample.view_installed Sample.workflow_views.1
  have hKeeps := Sample.sharing_keeps
  refine ⟨i, hState, ?_⟩
  unfold Sample.fromShelf at hInstalled hRow ⊢
  unfold Sample.plugins at hInstalled hRow hKeeps ⊢
  exact workflow_resolution Sample.env Sample.packages Sample.pluginCatalogue Sample.shelf
    Sample.shelf_noPlugins rfl Sample.printed Sample.sharing hKeeps Sample.sharing_onOthers i row
    hInstalled hRow

end Masonwing
