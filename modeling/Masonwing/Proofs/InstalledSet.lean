import Masonwing.Proofs.Evaluation
import Masonwing.Proofs.PluginLifecycle

/-!
# The installed set

The selected manifests as a function of the registry (`selection`), what `selectedManifests` has
to do with it while there are not too many of them, and how each step changes it
(`SelectionStep`). From there two properties of the installed plugins follow along runs: that they
resolve, and that what an enabled plugin requires is enabled. Each survives every command except
one, and the theorems say of that one when it does.
-/

namespace Masonwing

open Outcome

variable {ν : Type} {packages : PluginEnv ν} {registry registry' : Registry}

/-! ## The selection of a registry -/

/-- The manifest of the selected installation of each plugin. -/
def selection (registry : Registry) : Selection := fun id =>
  (registry.installations.get? id.text).bind fun i =>
    if i.state.selected then registry.pluginVersions.get? (id.text, i.artifactDigest) else none

theorem selection_some {id : PluginId} {m : PluginManifest} :
    selection registry id = some m ↔ ∃ i, registry.installations.get? id.text = some i ∧
      i.state.selected = true ∧ registry.pluginVersions.get? (id.text, i.artifactDigest) =
        some m := by
  simp only [selection, Option.bind_eq_some_iff]
  refine exists_congr fun i => and_congr_right fun _ => ?_
  cases i.state.selected <;> simp

/-- The rows that `selectedVersions` sorts and cuts off. -/
def chosenVersions (registry : Registry) : List (String × PluginManifest) :=
  (registry.installations.select fun _ i => i.state.selected).filterMap fun p =>
    (registry.pluginVersions.get? (p.1, p.2.artifactDigest)).map fun m => (p.1, m)

theorem mem_chosenVersions {pluginId : String} {m : PluginManifest} :
    (pluginId, m) ∈ chosenVersions registry ↔
      ∃ i, registry.installations.get? pluginId = some i ∧ i.state.selected = true ∧
        registry.pluginVersions.get? (pluginId, i.artifactDigest) = some m := by
  simp only [chosenVersions, List.mem_filterMap, Option.map_eq_some_iff, Prod.mk.injEq,
    Prod.exists]
  constructor
  · rintro ⟨key, i, hMem, m', hStored, rfl, rfl⟩
    obtain ⟨hFound, hSelected⟩ := Table.mem_select.mp hMem
    exact ⟨i, hFound, hSelected, hStored⟩
  · rintro ⟨i, hFound, hSelected, hStored⟩
    exact ⟨pluginId, i, Table.mem_select.mpr ⟨hFound, hSelected⟩, m, hStored, rfl, rfl⟩

theorem chosenVersions_keys : ((chosenVersions registry).map Prod.fst).Nodup := by
  have hKeys : (registry.installations.select fun _ i => i.state.selected).Pairwise
      fun a b => a.1 ≠ b.1 :=
    (List.pairwise_map.mp registry.installations.nodup).sublist List.filter_sublist
  refine List.pairwise_map.mpr (hKeys.filterMap _ ?_)
  intro a a' hNe b hb b' hb'
  obtain ⟨m, -, rfl⟩ := Option.map_eq_some_iff.mp hb
  obtain ⟨m', -, rfl⟩ := Option.map_eq_some_iff.mp hb'
  exact hNe

/-- The chosen manifests have different names. -/
theorem chosenVersions_names (h : BuildsStored registry) :
    ((chosenVersions registry).map fun p => p.2.id).Nodup := by
  have hNamed : ∀ p ∈ chosenVersions registry, p.2.id.text = p.1 := by
    rintro ⟨pluginId, m⟩ hMem
    obtain ⟨i, -, -, hStored⟩ := mem_chosenVersions.mp hMem
    exact (h.named pluginId _ m hStored).1
  have hTexts : ((chosenVersions registry).map fun p => p.2.id.text) =
      (chosenVersions registry).map Prod.fst := List.map_congr_left hNamed
  have hNodup : ((chosenVersions registry).map Prod.fst).Nodup := chosenVersions_keys
  rw [← hTexts] at hNodup
  refine List.Nodup.of_map OpaqueId.text ?_
  rwa [List.map_map]

theorem foldl_upsert_get? {ps : List (String × PluginManifest)}
    (hNames : (ps.map fun p => p.2.id).Nodup) (manifests : Manifests) {id : PluginId}
    {m : PluginManifest} :
    (ps.foldl (fun manifests p => manifests.upsert p.2.id p.2) manifests).get? id = some m ↔
      (∃ p ∈ ps, p.2 = m ∧ m.id = id) ∨
        ((∀ p ∈ ps, p.2.id ≠ id) ∧ manifests.get? id = some m) := by
  induction ps generalizing manifests with
  | nil => simp
  | cons p ps ih =>
    rw [List.map_cons, List.nodup_cons] at hNames
    rw [List.foldl_cons, ih hNames.2, Table.get?_upsert]
    have hFirst : ∀ q ∈ ps, q.2.id ≠ p.2.id := fun q hq hSame =>
      hNames.1 (List.mem_map.mpr ⟨q, hq, hSame⟩)
    constructor
    · rintro (⟨q, hq, hm⟩ | ⟨hNone, hGet⟩)
      · exact Or.inl ⟨q, List.mem_cons_of_mem _ hq, hm⟩
      · split at hGet
        · rename_i hId
          cases hGet
          exact Or.inl ⟨p, List.mem_cons_self, rfl, hId.symm⟩
        · rename_i hId
          refine Or.inr ⟨?_, hGet⟩
          intro q hq
          rcases List.mem_cons.mp hq with rfl | hq
          · exact fun h => hId h.symm
          · exact hNone q hq
    · rintro (⟨q, hq, rfl, rfl⟩ | ⟨hNone, hGet⟩)
      · rcases List.mem_cons.mp hq with rfl | hq
        · refine Or.inr ⟨hFirst, ?_⟩
          rw [if_pos rfl]
        · exact Or.inl ⟨q, hq, rfl, rfl⟩
      · refine Or.inr ⟨fun q hq => hNone q (List.mem_cons_of_mem _ hq), ?_⟩
        rw [if_neg fun h => hNone p List.mem_cons_self h.symm]
        exact hGet

/-- While the limit of the query is not reached, the manifests it returns are the selection. -/
theorem selectedManifests_get? (h : BuildsStored registry)
    (hCount : (chosenVersions registry).length ≤ 513) (id : PluginId) :
    (selectedManifests registry).get? id = selection registry id := by
  have hPerm : (selectedVersions registry).Perm (chosenVersions registry) := by
    have hSorted := List.perm_insertionSort (fun a b : String × PluginManifest => a.1 ≤ b.1)
      (chosenVersions registry)
    rw [selectedVersions, List.take_of_length_le]
    · exact hSorted
    · exact hSorted.length_eq.trans_le hCount
  have hNames : ((selectedVersions registry).map fun p => p.2.id).Nodup :=
    (hPerm.map _).nodup_iff.mpr (chosenVersions_names h)
  ext m
  rw [selectedManifests, foldl_upsert_get? hNames, selection_some]
  constructor
  · rintro (⟨⟨pluginId, _⟩, hMem, rfl, rfl⟩ | ⟨-, hNone⟩)
    · obtain ⟨i, hFound, hSelected, hStored⟩ := mem_chosenVersions.mp (hPerm.mem_iff.mp hMem)
      obtain ⟨rfl, -⟩ := h.named pluginId _ _ hStored
      exact ⟨i, hFound, hSelected, hStored⟩
    · cases hNone
  · rintro ⟨i, hFound, hSelected, hStored⟩
    refine Or.inl ⟨(id.text, m),
      hPerm.mem_iff.mpr (mem_chosenVersions.mpr ⟨i, hFound, hSelected, hStored⟩), rfl, ?_⟩
    exact OpaqueId.text_injective (h.named _ _ _ hStored).1

/-- The chosen manifests are no more than those of a table that has them all. -/
theorem chosenVersions_length_le (h : BuildsStored registry) {manifests : Manifests}
    (hAll : ∀ id m, selection registry id = some m → manifests.get? id = some m) :
    (chosenVersions registry).length ≤ manifests.rows.length := by
  have hNodup : ((chosenVersions registry).map fun p => (p.2.id, p.2)).Nodup := by
    refine List.Nodup.of_map Prod.fst ?_
    rw [List.map_map]
    exact chosenVersions_names h
  have hSubset : ((chosenVersions registry).map fun p => (p.2.id, p.2)) ⊆ manifests.rows := by
    intro entry hEntry
    obtain ⟨⟨pluginId, m⟩, hMem, rfl⟩ := List.mem_map.mp hEntry
    obtain ⟨i, hFound, hSelected, hStored⟩ := mem_chosenVersions.mp hMem
    obtain ⟨rfl, -⟩ := h.named pluginId _ m hStored
    exact Table.get?_eq_some_iff.mp (hAll m.id m (selection_some.mpr
      ⟨i, hFound, hSelected, hStored⟩))
  have hLength := (List.Nodup.subperm hNodup hSubset).length_le
  rwa [List.length_map] at hLength

/-- The manifests of the query are no more than the chosen ones. -/
theorem selectedManifests_length_le (h : BuildsStored registry)
    (hCount : (chosenVersions registry).length ≤ 513) :
    (selectedManifests registry).rows.length ≤ (chosenVersions registry).length := by
  have hSubset : (selectedManifests registry).rows ⊆
      (chosenVersions registry).map fun p => (p.2.id, p.2) := by
    rintro ⟨id, m⟩ hMem
    have hSelected := Table.get?_eq_some_iff.mpr hMem
    rw [selectedManifests_get? h hCount] at hSelected
    obtain ⟨i, hFound, hState, hStored⟩ := selection_some.mp hSelected
    refine List.mem_map.mpr ⟨(id.text, m), mem_chosenVersions.mpr ⟨i, hFound, hState, hStored⟩, ?_⟩
    rw [OpaqueId.text_injective (h.named _ _ _ hStored).1]
  have hLength := (List.Nodup.subperm (selectedManifests registry).nodup.of_map hSubset).length_le
  rwa [List.length_map] at hLength

/-! ## How a step changes the selection -/

/-- A plugin whose row and build a step leaves alone is selected as before. -/
theorem selection_congr {id : PluginId}
    (hRow : registry'.installations.get? id.text = registry.installations.get? id.text)
    (hBuild : ∀ i, registry.installations.get? id.text = some i →
      registry'.pluginVersions.get? (id.text, i.artifactDigest) =
        registry.pluginVersions.get? (id.text, i.artifactDigest)) :
    selection registry' id = selection registry id := by
  unfold selection
  rw [hRow]
  cases hFound : registry.installations.get? id.text with
  | none => rfl
  | some i => rw [Option.bind_some, Option.bind_some, hBuild i hFound]

theorem selection_of_row {id : PluginId} {i : InstallationRow}
    (hFound : registry.installations.get? id.text = some i) :
    selection registry id =
      if i.state.selected then registry.pluginVersions.get? (id.text, i.artifactDigest)
      else none := by
  rw [selection, hFound, Option.bind_some]

/-- A step changes the selection in four ways. -/
inductive SelectionStep (packages : PluginEnv ν) (e : PlatformEvent PluginInput) : Prop
  | same (hSame : selection e.after.tables.registry = selection e.before.tables.registry)
  | replaced (m : PluginManifest)
      (hSelection : selection e.after.tables.registry =
        Selection.replaced (selection e.before.tables.registry) m.id m)
      (hResolves : ∃ order, resolveManifests packages
        ((selectedManifests e.before.tables.registry).upsert m.id m) = .ok order)
  | removed (id : PluginId)
      (hSelection : selection e.after.tables.registry =
        Selection.without (selection e.before.tables.registry) id)
      (hResolves : ∃ order, resolveManifests packages
        ((selectedManifests e.before.tables.registry).erase id) = .ok order)
  | revoked (id : PluginId) {digest : Digest} {reason : String} {i : InstallationRow}
      (hDone : e.executed (.pluginRevoke id.text digest.toText reason))
      (hFound : e.before.tables.registry.installations.get? id.text = some i)
      (hBuild : i.artifactDigest = digest) (hState : i.state.selected = true)
      (hSelection : selection e.after.tables.registry =
        Selection.without (selection e.before.tables.registry) id)

section Step

variable {e : PlatformEvent PluginInput}

/-- Storing a build replaces no other one. -/
theorem Saved.versions_of_some {tick : Tick} {m : PluginManifest}
    {workflows : List WorkflowDocument} (hSaved : Saved tick registry m workflows registry')
    (hBuilds : BuildsStored registry) {pluginId : String} {i : InstallationRow}
    (hFound : registry.installations.get? pluginId = some i) :
    registry'.pluginVersions.get? (pluginId, i.artifactDigest) =
      registry.pluginVersions.get? (pluginId, i.artifactDigest) := by
  obtain ⟨m', hStored⟩ := hBuilds.installed pluginId i hFound
  rw [hStored, Table.insert?_get?_of_some hSaved.versions hStored]

/-- The selection after one row was exchanged for another of the same build. -/
theorem selection_set {pluginId : String} {i i' : InstallationRow}
    (hFound : registry.installations.get? pluginId = some i)
    (hBuild : i'.artifactDigest = i.artifactDigest) (id : PluginId) :
    selection { registry with installations := registry.installations.set pluginId i' } id =
      if id.text = pluginId then
        if i'.state.selected then registry.pluginVersions.get? (pluginId, i.artifactDigest)
        else none
      else selection registry id := by
  split
  · rename_i hId
    subst hId
    rw [selection_of_row (Table.get?_set_self hFound i'), hBuild]
  · rename_i hId
    exact selection_congr (Table.get?_set_ne _ hId i') fun _ _ => rfl

theorem LifecycleMove.selectionStep [LinearOrder ν] {input : PluginInput} {i i' : InstallationRow}
    {changes : List RegistryChange}
    (hMove : LifecycleMove packages e.before.tables i input i' changes)
    (hFound : e.before.tables.registry.installations.get? input.pluginId = some i)
    (hAfter : e.after.tables.registry = { e.before.tables.registry with
      installations := e.before.tables.registry.installations.set input.pluginId i' }) :
    SelectionStep packages e := by
  have hBuild := hMove.build
  have hSelected := hMove.selected
  have hSelection := selection_set hFound hBuild
  rw [← hAfter] at hSelection
  -- a row that stays selected changes nothing
  have hSame : i'.state.selected = true → SelectionStep packages e := by
    intro hState
    refine .same (funext fun id => ?_)
    rw [hSelection id]
    split
    · rename_i hId
      rw [← hId] at hFound ⊢
      rw [selection_of_row hFound, hSelected, if_pos rfl]
    · rfl
  cases hMove with
  | enabled hVersion hState hOwn hTrusted hDependencies hRequested => exact hSame rfl
  | drained hVersion hState hActive => exact hSame rfl
  | disabled hVersion hState hIdle => exact hSame rfl
  | drainedDisabled hVersion hLast hState hIdle => exact hSame rfl
  | @uninstalled pluginId dataPolicy expected version id epoch hVersion hState hIdle hId
      hResolves =>
    refine .removed id (funext fun other => ?_) hResolves
    rw [hSelection other, Selection.without]
    by_cases hOther : other = id
    · rw [if_pos hOther, if_pos]
      · rfl
      · rw [hOther]
        exact hId
    · rw [if_neg hOther, if_neg]
      intro hText
      exact hOther (OpaqueId.text_injective (hText.trans hId.symm))

theorem BuildRevoked.selectionStep {pluginId reason : String} {digest : Digest}
    {i i' : InstallationRow} (hBuilds : BuildsStored e.before.tables.registry)
    (hDone : e.executed (.pluginRevoke pluginId digest.toText reason))
    (h : BuildRevoked e.before.tables.registry pluginId digest i i' e.after.tables.registry) :
    SelectionStep packages e := by
  have hSelection : ∀ id, selection e.after.tables.registry id =
      if id.text = pluginId then
        if i'.state.selected then
          e.before.tables.registry.pluginVersions.get? (pluginId, i.artifactDigest)
        else none
      else selection e.before.tables.registry id := by
    intro id
    rw [h.others]
    exact selection_set h.found h.build id
  by_cases hStops : i.artifactDigest = digest ∧ i.state.selected = true
  · -- the installation of this build leaves the selection
    obtain ⟨m, hStored⟩ := hBuilds.installed pluginId i h.found
    obtain ⟨rfl, -⟩ := hBuilds.named pluginId _ m hStored
    have hState' : i'.state.selected = false := by
      have hInstalled : i.state ≠ .uninstalled := by
        intro hUninstalled
        rw [hUninstalled] at hStops
        cases hStops.2
      rw [h.state, if_pos ⟨hStops.1, hInstalled⟩]
      rfl
    refine .revoked m.id hDone h.found hStops.1 hStops.2 (funext fun other => ?_)
    rw [hSelection other, Selection.without, hState']
    by_cases hOther : other = m.id
    · rw [if_pos hOther, if_pos (congrArg OpaqueId.text hOther)]
      rfl
    · rw [if_neg hOther, if_neg fun hText => hOther (OpaqueId.text_injective hText)]
  · -- the state is kept, or was not selected before
    have hState' : i'.state.selected = i.state.selected := by
      rw [h.state]
      split
      · rename_i hBuild
        have hOut : i.state.selected = false :=
          Bool.eq_false_iff.mpr fun hSelected => hStops ⟨hBuild.1, hSelected⟩
        rw [hOut]
        rfl
      · rfl
    refine .same (funext fun id => ?_)
    rw [hSelection id, hState']
    split
    · rename_i hId
      have hFound := h.found
      rw [← hId] at hFound ⊢
      rw [selection_of_row hFound]
    · rfl

theorem RegistryStep.selectionStep [LinearOrder ν] (h : RegistryStep packages e)
    (hBuilds : BuildsStored e.before.tables.registry) : SelectionStep packages e := by
  cases h with
  | same killSwitches hSame hNot hKept => exact .same (by rw [hSame]; rfl)
  | @moved input changes hDone hMove hShown =>
    generalize hAfter : e.after.tables.registry = after at hMove
    cases hMove with
    | @installed m workflows saved installations hVerified hSaved hInsert =>
      refine .replaced m (funext fun id => ?_) hVerified.resolves
      rw [hAfter, Selection.replaced]
      split
      · rename_i hId
        subst hId
        rw [selection_of_row (Table.insert?_get?_self hInsert)]
        exact Table.insert?_get?_self hSaved.versions
      · rename_i hId
        have hText : id.text ≠ m.id.text := fun hText => hId (OpaqueId.text_injective hText)
        refine selection_congr ?_ fun i hFound => hSaved.versions_of_some hBuilds hFound
        rw [Table.insert?_get? hInsert, if_neg hText]
    | moved hFound hMove => exact hMove.selectionStep hFound hAfter
    | @upgraded pluginId m old expected workflows saved i version hFound hVersion hId hState hOld
        hNewer hVerified hDependencies hSaved =>
      subst hId
      have hSelected : i.state.selected = true := by
        rcases hState with h | h | h <;> rw [h] <;> rfl
      refine .replaced m (funext fun id => ?_) hVerified.resolves
      rw [hAfter, Selection.replaced]
      split
      · rename_i hId
        subst hId
        rw [selection_of_row (Table.get?_set_self hFound _),
          show (upgradedRow i m version).state = i.state from rfl, hSelected]
        exact Table.insert?_get?_self hSaved.versions
      · rename_i hId
        have hText : id.text ≠ m.id.text := fun hText => hId (OpaqueId.text_injective hText)
        exact selection_congr (Table.get?_set_ne _ hText _) fun i hFound =>
          hSaved.versions_of_some hBuilds hFound
  | revoked hDone hRevoked => exact hRevoked.selectionStep hBuilds hDone

/-! ## The installed set resolves -/

/-- The step revokes no build that another selected plugin requires. -/
def SparesRequired (e : PlatformEvent PluginInput) : Prop :=
  ∀ (id : PluginId) (digest : Digest) reason i,
    e.executed (.pluginRevoke id.text digest.toText reason) →
    e.before.tables.registry.installations.get? id.text = some i → i.artifactDigest = digest →
    i.state.selected = true → ¬ Required (selection e.before.tables.registry) id

/-- The selected plugins are at most as many as resolution allows, and they resolve. -/
structure SetSound (packages : PluginEnv ν) (registry : Registry) : Prop where
  builds : BuildsStored registry
  few : (chosenVersions registry).length ≤ 512
  resolvable : Resolvable packages (selection registry)

theorem SetSound.get? (h : SetSound packages registry) :
    (selectedManifests registry).get? = selection registry :=
  funext (selectedManifests_get? h.builds (h.few.trans (by decide)))

theorem SetSound.upsert_get? (h : SetSound packages registry) (m : PluginManifest) :
    ((selectedManifests registry).upsert m.id m).get? =
      Selection.replaced (selection registry) m.id m := by
  funext id
  rw [Table.get?_upsert, h.get?, Selection.replaced]

theorem SetSound.erase_get? (h : SetSound packages registry) (id : PluginId) :
    ((selectedManifests registry).erase id).get? = Selection.without (selection registry) id := by
  funext other
  rw [Table.get?_erase, h.get?, Selection.without]

/-- A step that selects nothing new keeps the number of plugins. -/
theorem SetSound.few_of_subset (h : SetSound packages registry) (hBuilds : BuildsStored registry')
    (hSubset : ∀ id m, selection registry' id = some m → selection registry id = some m) :
    (chosenVersions registry').length ≤ 512 := by
  have hCount : (chosenVersions registry).length ≤ 513 := h.few.trans (by decide)
  calc (chosenVersions registry').length
      ≤ (selectedManifests registry).rows.length := by
        refine chosenVersions_length_le hBuilds fun id m hm => ?_
        rw [h.get?]
        exact hSubset id m hm
    _ ≤ (chosenVersions registry).length := selectedManifests_length_le h.builds hCount
    _ ≤ 512 := h.few

/-- A step after which the selection is that of manifests that were resolved. -/
theorem SetSound.of_resolves {manifests : Manifests} (hBuilds : BuildsStored registry')
    (hResolves : ∃ order, resolveManifests packages manifests = .ok order)
    (hSelection : selection registry' = manifests.get?) : SetSound packages registry' := by
  obtain ⟨hLength, hResolvable⟩ := resolves_iff.mp hResolves
  refine ⟨hBuilds, ?_, by rwa [hSelection]⟩
  have hAll : ∀ id m, selection registry' id = some m → manifests.get? id = some m := by
    intro id m hm
    rwa [← hSelection]
  exact (chosenVersions_length_le hBuilds hAll).trans hLength

theorem SetSound.step [LinearOrder ν] (h : SetSound packages e.before.tables.registry)
    (hStep : RegistryStep packages e) (hSpares : SparesRequired e) :
    SetSound packages e.after.tables.registry := by
  have hBuilds := h.builds.step hStep
  cases hStep.selectionStep h.builds with
  | same hSame =>
    refine ⟨hBuilds, h.few_of_subset hBuilds fun id m hm => ?_, ?_⟩
    · rwa [← hSame]
    · rw [hSame]
      exact h.resolvable
  | replaced m hSelection hResolves =>
    exact .of_resolves hBuilds hResolves (hSelection.trans (h.upsert_get? m).symm)
  | removed id hSelection hResolves =>
    exact .of_resolves hBuilds hResolves (hSelection.trans (h.erase_get? id).symm)
  | revoked id hDone hFound hBuild hState hSelection =>
    refine ⟨hBuilds, h.few_of_subset hBuilds fun other m hm => ?_, ?_⟩
    · rw [hSelection] at hm
      exact (Selection.without_some.mp hm).2
    · rw [hSelection]
      exact h.resolvable.without (hSpares id _ _ _ hDone hFound hBuild hState)

end Step

/-- The installed set resolves, also after any addition that meets its own dependencies and that
nobody else names, and after any removal of a plugin that nobody requires. -/
structure SetResolves (packages : PluginEnv ν) (registry : Registry) : Prop where
  resolves : ∃ order, resolveManifests packages (selectedManifests registry) = .ok order
  added : ∀ m : PluginManifest, Unnamed (selection registry) m.id →
    Satisfied packages (selection registry) m → (∀ d ∈ m.dependencies, d.pluginId ≠ m.id) →
    ((selectedManifests registry).upsert m.id m).rows.length ≤ 512 →
    ∃ order, resolveManifests packages ((selectedManifests registry).upsert m.id m) = .ok order
  removed : ∀ id, ¬ Required (selection registry) id →
    ∃ order, resolveManifests packages ((selectedManifests registry).erase id) = .ok order

theorem SetSound.setResolves (h : SetSound packages registry) :
    SetResolves packages registry := by
  have hLength : (selectedManifests registry).rows.length ≤ 512 :=
    (selectedManifests_length_le h.builds (h.few.trans (by decide))).trans h.few
  refine ⟨resolves_iff.mpr ⟨hLength, ?_⟩, fun m hFree hMet hSelf hCount => ?_, fun id hFree => ?_⟩
  · rw [h.get?]
    exact h.resolvable
  · refine resolves_iff.mpr ⟨hCount, ?_⟩
    rw [h.upsert_get?]
    exact h.resolvable.replaced hFree hMet hSelf
  · refine resolves_iff.mpr ⟨?_, ?_⟩
    · exact (List.length_filter_le _ _).trans hLength
    · rw [h.erase_get?]
      exact h.resolvable.without hFree

theorem NoPlugins.setSound {s : Store} (h : NoPlugins s) :
    SetSound packages s.tables.registry := by
  have hNone : selection s.tables.registry = fun _ => none := by
    funext id
    rw [selection, h.installations]
    rfl
  refine ⟨h.buildsStored, ?_, ?_⟩
  · rw [chosenVersions, h.installations]
    exact Nat.zero_le _
  · rw [hNone]
    refine ⟨fun id m hm => (by cases hm), [], .nil, fun id m hm => (by cases hm)⟩

section Runs

variable [LinearOrder ν] (env : Env) (packages : PluginEnv ν)
  (catalogue : PlatformCatalogue PluginInput)

/-- In every run that begins without plugins and in which no revocation stops a build that another
selected plugin requires, the installed set resolves in the state that is reached. -/
theorem installed_set_resolves (s : Store) (hs : NoPlugins s)
    (calls : List (PlatformCall PluginInput))
    (hSpares : ∀ e ∈ Machine.trace (platformStep (pluginPlatform env packages catalogue)) s calls,
      SparesRequired e) :
    SetResolves packages (Machine.run (platformStep (pluginPlatform env packages catalogue)) s
      calls).tables.registry := by
  have hSound : SetSound packages (Machine.run
      (platformStep (pluginPlatform env packages catalogue)) s calls).tables.registry :=
    Machine.run_invariant_of (platformStep (pluginPlatform env packages catalogue))
      (I := fun s => SetSound packages s.tables.registry) (P := SparesRequired)
      (fun s c hs hSpares =>
        hs.step (e := Machine.eventAt _ s c) (platformStep_registry s c) hSpares)
      hs.setSound hSpares
  exact hSound.setResolves

end Runs

/-- A command that a run carries out is one of its calls. -/
theorem executed_mem {ι : Type} {p : Platform ι} {s : Store} {calls : List (PlatformCall ι)}
    {e : PlatformEvent ι} (he : e ∈ Machine.trace (platformStep p) s calls)
    {input : PlatformInput ι} (h : e.executed input) :
    ∃ call ∈ calls, ∃ c, call.operation = .command c ∧ c.input = input := by
  obtain ⟨before, after, rfl, -⟩ := Machine.mem_trace _ he
  obtain ⟨-, c, hCommand, hInput⟩ := h
  exact ⟨e.call, by simp, c, hCommand, hInput⟩

/-! ## Two plugins, one of which requires the other -/

namespace Sample

/-- A plugin is installed, then another one that requires it. -/
def stacking : List (PlatformCall PluginInput) :=
  [lifecycleCommand 1 (.install storage), lifecycleCommand 2 (.install reports)]

/-- The build that the second plugin requires is revoked. -/
def withdrawal : List (PlatformCall PluginInput) :=
  stacking ++ [pluginCommand 3 (.pluginRevoke "storage" storage.artifactDigest.toText "leaked")]

/-- Both plugins are enabled. -/
def running : List (PlatformCall PluginInput) :=
  stacking ++
    [lifecycleCommand 3 (.enable "storage" storage.artifactDigest.toText [] 1),
      lifecycleCommand 4 (.enable "reports" reports.artifactDigest.toText [] 1)]

/-- The required plugin is disabled. -/
def stopping : List (PlatformCall PluginInput) :=
  running ++ [lifecycleCommand 5 (.disable "storage" 2 "maintenance")]

/-- The states of the two plugins, and whether the second one has its own build. -/
def pluginStates (registry : Registry) : List (Option InstallationState) × Bool :=
  (["storage", "reports"].map fun id => (registry.installations.get? id).map (·.state),
    decide ((registry.installations.get? "reports").map (·.artifactDigest) =
        some reports.artifactDigest ∧
      registry.pluginVersions.get? ("reports", reports.artifactDigest) = some reports))

/-- The states that the four runs reach, evaluated together. -/
theorem plugin_runs :
    ((selectedManifests (fromShelf stacking).tables.registry).rows.length = 2 ∧
      (resolveManifests Sample.packages
        (selectedManifests (fromShelf withdrawal).tables.registry)).toOption = none) ∧
    pluginStates (fromShelf running).tables.registry = ([some .enabled, some .enabled], true) ∧
    pluginStates (fromShelf stopping).tables.registry =
      ([some .disabled, some .enabled], true) := by
  simp only [Sample.fromShelf, platformStep_bytewise, Sample.plugins_bytewise]
  decide +kernel

/-- None of these calls but the last of `withdrawal` is a revocation. -/
theorem stopping_calls {call : PlatformCall PluginInput} (hCall : call ∈ stopping)
    {c : Command (PlatformInput PluginInput)} (hCommand : call.operation = .command c) :
    ∃ input, c.input = .lifecycle input := by
  simp only [stopping, running, stacking, List.cons_append, List.nil_append, List.mem_cons,
    List.not_mem_nil, or_false] at hCall
  rcases hCall with rfl | rfl | rfl | rfl | rfl <;> cases hCommand <;> exact ⟨_, rfl⟩

/-- A run made of these calls revokes nothing. -/
theorem unrevoked_of_stopping {calls : List (PlatformCall PluginInput)}
    (hCalls : ∀ call ∈ calls, call ∈ stopping) {e : PlatformEvent PluginInput}
    (he : e ∈ Machine.trace (platformStep plugins) shelf calls) (pluginId digest reason : String) :
    ¬ e.executed (.pluginRevoke pluginId digest reason) := by
  intro hDone
  obtain ⟨call, hCall, c, hCommand, hInput⟩ := executed_mem he hDone
  obtain ⟨input, hLifecycle⟩ := stopping_calls (hCalls call hCall) hCommand
  cases hInput.symm.trans hLifecycle

theorem stacking_spares :
    ∀ e ∈ Machine.trace (platformStep plugins) shelf stacking, SparesRequired e := by
  have hCalls : ∀ call ∈ stacking, call ∈ stopping := fun call hCall =>
    List.mem_append_left _ (List.mem_append_left _ hCall)
  exact fun e he _ _ _ _ hDone => absurd hDone (unrevoked_of_stopping hCalls he _ _ _)

end Sample

theorem installed_set_resolves_stacking :
    (selectedManifests (Sample.fromShelf Sample.stacking).tables.registry).rows.length = 2 ∧
      (∀ e ∈ Machine.trace (platformStep Sample.plugins) Sample.shelf Sample.stacking,
        SparesRequired e) ∧
      SetResolves Sample.packages (Sample.fromShelf Sample.stacking).tables.registry := by
  refine ⟨Sample.plugin_runs.1.1, Sample.stacking_spares, ?_⟩
  unfold Sample.fromShelf Sample.plugins
  exact installed_set_resolves Sample.env Sample.packages Sample.pluginCatalogue Sample.shelf
    Sample.shelf_noPlugins Sample.stacking Sample.stacking_spares

/-- After a required build was revoked, what is left of the installed set does not resolve. -/
theorem installed_set_withdrawal :
    NoPlugins Sample.shelf ∧ ¬ ∃ order, resolveManifests Sample.packages
      (selectedManifests (Sample.fromShelf Sample.withdrawal).tables.registry) = .ok order := by
  refine ⟨Sample.shelf_noPlugins, ?_⟩
  rintro ⟨order, hOrder⟩
  have hFails := Sample.plugin_runs.1.2
  rw [hOrder] at hFails
  cases hFails

/-! ## What an enabled plugin requires is enabled -/

/-- An enabled plugin and a dependency that its current manifest cannot do without. -/
structure EnabledNeeds (registry : Registry) (pluginId : String) (d : PluginDependency) : Prop where
  enabled : ∃ i m, registry.installations.get? pluginId = some i ∧ i.state = .enabled ∧
    registry.pluginVersions.get? (pluginId, i.artifactDigest) = some m ∧ d ∈ m.dependencies
  required : d.optional = false

/-- What every enabled plugin requires is enabled, with a contract in the range. -/
def DependenciesRun (packages : PluginEnv ν) (registry : Registry) : Prop :=
  ∀ pluginId d, EnabledNeeds registry pluginId d → DependencyRunning packages registry d

/-- The step revokes nothing, and disables no plugin that another enabled plugin requires. -/
structure KeepsDependencies (e : PlatformEvent PluginInput) : Prop where
  unrevoked : ∀ pluginId digest reason, ¬ e.executed (.pluginRevoke pluginId digest reason)
  spared : ∀ target expected reason, e.executed (.lifecycle (.disable target expected reason)) →
    ∀ pluginId d, pluginId ≠ target → d.pluginId.text = target →
      ¬ EnabledNeeds e.before.tables.registry pluginId d

/-- What every enabled plugin requires is enabled. -/
def NeedsEnabled (registry : Registry) : Prop :=
  ∀ pluginId d, EnabledNeeds registry pluginId d →
    ∃ j, registry.installations.get? d.pluginId.text = some j ∧ j.state = .enabled

theorem DependencyRunning.enabled {d : PluginDependency}
    (h : DependencyRunning packages registry d) :
    ∃ j, registry.installations.get? d.pluginId.text = some j ∧ j.state = .enabled := by
  obtain ⟨j, -, -, -, hFound, hState, -⟩ := h
  exact ⟨j, hFound, hState⟩

/-- The contracts are in the ranges because the whole set resolves. -/
theorem NeedsEnabled.dependenciesRun (h : NeedsEnabled registry)
    (hSound : SetSound packages registry) : DependenciesRun packages registry := by
  intro pluginId d hNeeds
  obtain ⟨j, hFound, hState⟩ := h pluginId d hNeeds
  obtain ⟨⟨i, m, hInstalled, hEnabled, hStored, hMem⟩, hRequired⟩ := hNeeds
  obtain ⟨rfl, -⟩ := hSound.builds.named _ _ _ hStored
  have hSelected : selection registry m.id = some m :=
    selection_some.mpr ⟨i, hInstalled, by rw [hEnabled]; rfl, hStored⟩
  obtain ⟨range, hRange, -, hTargets⟩ := (hSound.resolvable.satisfied m.id m hSelected).met d hMem
  obtain ⟨target, hTarget⟩ := hSound.builds.installed _ j hFound
  obtain ⟨version, hVersion, hMatches⟩ :=
    hTargets target (selection_some.mpr ⟨j, hFound, by rw [hState]; rfl, hTarget⟩)
  exact ⟨j, target, version, range, hFound, hState, hTarget, hVersion, hRange, hMatches⟩

section Step

variable [LinearOrder ν] {e : PlatformEvent PluginInput}

/-- A plugin that is enabled after a step either was so before, with the same needs, or was
enabled or upgraded by it. -/
theorem EnabledNeeds.before {pluginId : String} {d : PluginDependency}
    (hNeeds : EnabledNeeds e.after.tables.registry pluginId d) (hStep : RegistryStep packages e)
    (hBuilds : BuildsStored e.before.tables.registry) (hKeeps : KeepsDependencies e) :
    (EnabledNeeds e.before.tables.registry pluginId d ∧ ¬ e.concerns pluginId) ∨
      (DependencyRunning packages e.before.tables.registry d ∧ e.concerns pluginId) := by
  obtain ⟨⟨i', m, hAfter, hEnabled, hStored, hMem⟩, hRequired⟩ := hNeeds
  have hRow := hStep.row pluginId
  rw [hAfter] at hRow
  generalize hBefore : e.before.tables.registry.installations.get? pluginId = before at hRow
  cases hRow with
  | installed hDone hId hVerified hNew hRevocations => cases hEnabled
  | stepped hRow =>
    cases hRow with
    | kept hNot =>
      obtain ⟨m', hOld⟩ := hBuilds.installed pluginId _ hBefore
      cases (hStep.versions_kept hOld).symm.trans hStored
      exact Or.inl ⟨⟨⟨i', m, hBefore, hEnabled, hOld, hMem⟩, hRequired⟩, hNot⟩
    | moved hDone hPlugin hMove hVersions hRevocations hShown =>
      refine Or.inr ⟨?_, Or.inl ⟨_, hDone, hPlugin⟩⟩
      rw [hVersions, hMove.build] at hStored
      subst hPlugin
      cases hMove with
      | enabled hVersion hState hOwn hTrusted hDependencies hRequested =>
        cases hOwn.symm.trans hStored
        exact hDependencies d hMem hRequired
      | drained hVersion hState hActive => cases hEnabled
      | disabled hVersion hState hIdle => cases hEnabled
      | drainedDisabled hVersion hLast hState hIdle => cases hEnabled
      | uninstalled hVersion hState hIdle hId hResolves => cases hEnabled
    | upgraded hDone hVersion hId hState hOld hNewer hVerified hDependencies hNew hRevocations =>
      refine Or.inr ⟨?_, Or.inl ⟨_, hDone, rfl⟩⟩
      subst hId
      cases (Table.insert?_get?_self hNew).symm.trans hStored
      exact hDependencies hEnabled d hMem hRequired
    | revoked hDone hRevoked => exact absurd hDone (hKeeps.unrevoked _ _ _)

/-- An enabled plugin stays so unless it is disabled or revoked. -/
theorem enabled_kept {target : String} {j : InstallationRow} (hStep : RegistryStep packages e)
    (hFound : e.before.tables.registry.installations.get? target = some j)
    (hState : j.state = .enabled) (hKeeps : KeepsDependencies e) :
    (∃ j', e.after.tables.registry.installations.get? target = some j' ∧ j'.state = .enabled) ∨
      ∃ expected reason, e.executed (.lifecycle (.disable target expected reason)) := by
  have hRow := hStep.row target
  rw [hFound] at hRow
  generalize e.after.tables.registry.installations.get? target = after at hRow
  cases hRow with
  | stepped hRow =>
    cases hRow with
    | kept hNot => exact Or.inl ⟨j, rfl, hState⟩
    | moved hDone hPlugin hMove hVersions hRevocations hShown =>
      subst hPlugin
      cases hMove with
      | enabled hVersion hFrom hOwn hTrusted hDependencies hRequested => exact Or.inl ⟨_, rfl, rfl⟩
      | drained hVersion hFrom hActive => exact Or.inr ⟨_, _, hDone⟩
      | disabled hVersion hFrom hIdle => exact Or.inr ⟨_, _, hDone⟩
      | drainedDisabled hVersion hLast hFrom hIdle => exact Or.inr ⟨_, _, hDone⟩
      | uninstalled hVersion hFrom hIdle hId hResolves =>
        rw [hState] at hFrom
        rcases hFrom with h | h <;> cases h
    | upgraded hDone hVersion hId hFrom hOld hNewer hVerified hDependencies hNew hRevocations =>
      exact Or.inl ⟨_, rfl, hState⟩
    | revoked hDone hRevoked => exact absurd hDone (hKeeps.unrevoked _ _ _)

theorem NeedsEnabled.step (h : NeedsEnabled e.before.tables.registry)
    (hStep : RegistryStep packages e) (hBuilds : BuildsStored e.before.tables.registry)
    (hKeeps : KeepsDependencies e) : NeedsEnabled e.after.tables.registry := by
  intro pluginId d hNeeds
  by_cases hSelf : d.pluginId.text = pluginId
  · -- a plugin that names itself is the enabled one
    obtain ⟨⟨i, -, hFound, hState, -⟩, -⟩ := hNeeds
    rw [hSelf]
    exact ⟨i, hFound, hState⟩
  rcases hNeeds.before hStep hBuilds hKeeps with ⟨hBefore, hNot⟩ | ⟨hRunning, hConcerns⟩
  · obtain ⟨j, hFound, hState⟩ := h pluginId d hBefore
    rcases enabled_kept hStep hFound hState hKeeps with hKept | ⟨expected, reason, hDone⟩
    · exact hKept
    · exact absurd hBefore (hKeeps.spared _ expected reason hDone pluginId d (Ne.symm hSelf) rfl)
  · -- the command is about the dependant, so the dependency keeps its row
    obtain ⟨j, hFound, hState⟩ := hRunning.enabled
    rcases enabled_kept hStep hFound hState hKeeps with hKept | ⟨expected, reason, hDone⟩
    · exact hKept
    · exact absurd hConcerns (not_concerns_of_executed hDone (Ne.symm hSelf))

end Step

theorem KeepsDependencies.sparesRequired {e : PlatformEvent PluginInput}
    (h : KeepsDependencies e) : SparesRequired e :=
  fun _ _ _ _ hDone => absurd hDone (h.unrevoked _ _ _)

section Runs

variable [LinearOrder ν] (env : Env) (packages : PluginEnv ν)
  (catalogue : PlatformCatalogue PluginInput)

/-- In every run that begins without plugins, revokes nothing and disables no plugin that another
enabled plugin requires, what an enabled plugin requires is enabled, with a contract in the
range. -/
theorem enabled_dependencies_run (s : Store) (hs : NoPlugins s)
    (calls : List (PlatformCall PluginInput))
    (hKeeps : ∀ e ∈ Machine.trace (platformStep (pluginPlatform env packages catalogue)) s calls,
      KeepsDependencies e) :
    DependenciesRun packages (Machine.run (platformStep (pluginPlatform env packages catalogue)) s
      calls).tables.registry := by
  have hBegin : NeedsEnabled s.tables.registry := by
    rintro pluginId d ⟨⟨i, m, hFound, -⟩, -⟩
    rw [hs.installations] at hFound
    cases hFound
  have hBoth := Machine.run_invariant_of (platformStep (pluginPlatform env packages catalogue))
    (I := fun s => SetSound packages s.tables.registry ∧ NeedsEnabled s.tables.registry)
    (P := KeepsDependencies)
    (fun s c hs hKeeps => by
      have hStep : RegistryStep packages (Machine.eventAt
          (platformStep (pluginPlatform env packages catalogue)) s c) := platformStep_registry s c
      exact ⟨hs.1.step hStep hKeeps.sparesRequired, hs.2.step hStep hs.1.builds hKeeps⟩)
    ⟨hs.setSound, hBegin⟩ hKeeps
  exact hBoth.2.dependenciesRun hBoth.1

end Runs

/-- The second call of `running` and the others disable nothing. -/
theorem Sample.running_keeps :
    ∀ e ∈ Machine.trace (platformStep plugins) shelf running, KeepsDependencies e := by
  intro e he
  refine ⟨unrevoked_of_stopping (fun call hCall => List.mem_append_left _ hCall) he,
    fun target expected reason hDone => ?_⟩
  obtain ⟨call, hCall, c, hCommand, hInput⟩ := executed_mem he hDone
  simp only [running, stacking, List.cons_append, List.nil_append, List.mem_cons,
    List.not_mem_nil, or_false] at hCall
  rcases hCall with rfl | rfl | rfl | rfl <;> cases hCommand <;> cases hInput

theorem enabled_dependencies_run_running :
    Sample.pluginStates (Sample.fromShelf Sample.running).tables.registry =
        ([some .enabled, some .enabled], true) ∧
      (∀ e ∈ Machine.trace (platformStep Sample.plugins) Sample.shelf Sample.running,
        KeepsDependencies e) ∧
      DependenciesRun Sample.packages (Sample.fromShelf Sample.running).tables.registry := by
  refine ⟨Sample.plugin_runs.2.1, Sample.running_keeps, ?_⟩
  unfold Sample.fromShelf Sample.plugins
  exact enabled_dependencies_run Sample.env Sample.packages Sample.pluginCatalogue Sample.shelf
    Sample.shelf_noPlugins Sample.running Sample.running_keeps

/-- The dependant is enabled and what it requires is not. -/
theorem Sample.not_dependenciesRun {registry : Registry}
    (h : pluginStates registry = ([some .disabled, some .enabled], true)) :
    ¬ DependenciesRun Sample.packages registry := by
  simp only [pluginStates, List.map_cons, List.map_nil, Prod.mk.injEq, List.cons.injEq,
    Option.map_eq_some_iff, and_true, decide_eq_true_eq] at h
  obtain ⟨⟨⟨i, hStorage, hDisabled⟩, j, hReports, hEnabled⟩, ⟨j', hSame, hBuild⟩, hStored⟩ := h
  cases hReports.symm.trans hSame
  intro hRun
  rw [← hBuild] at hStored
  obtain ⟨k, -, -, -, hFound, hState, -⟩ := hRun "reports"
    { pluginId := ⟨"storage", by decide⟩, contractRange := "^1.0", optional := false }
    ⟨⟨j, reports, hReports, hEnabled, hStored, List.mem_cons_self⟩, rfl⟩
  cases hStorage.symm.trans hFound
  rw [hDisabled] at hState
  cases hState

/-- Nothing was revoked, and an enabled plugin is left without what it requires. -/
theorem enabled_dependencies_stopping :
    NoPlugins Sample.shelf ∧
      (∀ e ∈ Machine.trace (platformStep Sample.plugins) Sample.shelf Sample.stopping,
        ∀ pluginId digest reason,
          ¬ PlatformEvent.executed e (.pluginRevoke pluginId digest reason)) ∧
      ¬ DependenciesRun Sample.packages (Sample.fromShelf Sample.stopping).tables.registry :=
  ⟨Sample.shelf_noPlugins, fun _ he => Sample.unrevoked_of_stopping (fun _ hCall => hCall) he,
    Sample.not_dependenciesRun Sample.plugin_runs.2.2⟩

end Masonwing
