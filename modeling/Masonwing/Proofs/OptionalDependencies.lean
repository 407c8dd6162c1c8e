import Masonwing.Proofs.Evaluation
import Masonwing.Proofs.InstalledSet

/-!
# Optional dependencies

An optional plugin that is not there is passed over. Resolution takes a plugin for absent if its
installation is not selected, `require_enabled_dependencies` only if there is no installation. So
the two agree on every dependency but those that were installed once and are now uninstalled or
revoked (`optional_dependencies_iff`), and what depends on one of these is never enabled again.
-/

namespace Masonwing

open Outcome

variable {ν : Type}

/-! ## The number of selected plugins -/

/-- The builds are stored and the selected ones are at most as many as resolution allows. -/
structure SetFew (registry : Registry) : Prop where
  builds : BuildsStored registry
  few : (chosenVersions registry).length ≤ 512

namespace SetFew

variable {registry : Registry}

theorem get? (h : SetFew registry) : (selectedManifests registry).get? = selection registry :=
  funext (selectedManifests_get? h.builds (h.few.trans (by decide)))

/-- Manifests that have the whole selection bound its number. -/
theorem of_manifests {manifests : Manifests} (hBuilds : BuildsStored registry)
    (hAll : ∀ id m, selection registry id = some m → manifests.get? id = some m)
    (hLength : manifests.rows.length ≤ 512) : SetFew registry :=
  ⟨hBuilds, (chosenVersions_length_le hBuilds hAll).trans hLength⟩

theorem length_le (h : SetFew registry) : (selectedManifests registry).rows.length ≤ 512 :=
  (selectedManifests_length_le h.builds (h.few.trans (by decide))).trans h.few

theorem step [LinearOrder ν] {packages : PluginEnv ν} {e : PlatformEvent PluginInput}
    (h : SetFew e.before.tables.registry) (hStep : RegistryStep packages e) :
    SetFew e.after.tables.registry := by
  have hBuilds := h.builds.step hStep
  cases hStep.selectionStep h.builds with
  | same hSame =>
    refine .of_manifests hBuilds (fun id m hm => ?_) h.length_le
    rwa [h.get?, ← hSame]
  | replaced m hSelection hResolves =>
    obtain ⟨order, hOrder⟩ := hResolves
    refine .of_manifests hBuilds (fun id m' hm => ?_) (resolves_iff.mp ⟨order, hOrder⟩).1
    rw [Table.get?_upsert, h.get?]
    rwa [hSelection, Selection.replaced] at hm
  | removed id hSelection hResolves =>
    refine .of_manifests hBuilds (fun other m hm => ?_) h.length_le
    rw [h.get?]
    rw [hSelection] at hm
    exact (Selection.without_some.mp hm).2
  | revoked id hDone hFound hBuild hState hSelection =>
    refine .of_manifests hBuilds (fun other m hm => ?_) h.length_le
    rw [h.get?]
    rw [hSelection] at hm
    exact (Selection.without_some.mp hm).2

theorem run [LinearOrder ν] (env : Env) (packages : PluginEnv ν)
    (catalogue : PlatformCatalogue PluginInput) {s : Store} (hs : NoPlugins s)
    (calls : List (PlatformCall PluginInput)) :
    SetFew (Machine.run (platformStep (pluginPlatform env packages catalogue)) s
      calls).tables.registry := by
  refine Machine.run_invariant (platformStep (pluginPlatform env packages catalogue))
    (I := fun s => SetFew s.tables.registry) (fun s c hs => ?_) ⟨hs.buildsStored, ?_⟩ calls
  · have hStep : RegistryStep packages
        (Machine.eventAt (platformStep (pluginPlatform env packages catalogue)) s c) :=
      platformStep_registry s c
    exact SetFew.step hs hStep
  · rw [chosenVersions, hs.installations]
    exact Nat.zero_le _

end SetFew

/-! ## Absence -/

/-- The plugin was installed, and its installation is uninstalled or revoked. -/
def Withdrawn (registry : Registry) (pluginId : String) : Prop :=
  ∃ i, registry.installations.get? pluginId = some i ∧
    (i.state = .uninstalled ∨ i.state = .revoked)

/-- The check before a plugin is enabled takes the dependency for absent: it lets it pass whatever
the versions are. -/
def AbsentForEnable (ν : Type) (registry : Registry) (d : PluginDependency) : Prop :=
  ∀ packages : PluginEnv ν, requireEnabledDependency packages registry d = .ok ()

/-- Resolution takes the dependency for absent: it lets it pass, without an edge to it, whatever
the versions are. -/
def AbsentForResolve (ν : Type) (registry : Registry) (d : PluginDependency) : Prop :=
  ∀ packages : PluginEnv ν, packages.parseRange d.contractRange ≠ none →
    dependencyEdge packages (selectedManifests registry) d = .ok []

section Absence

variable {packages : PluginEnv ν} {registry : Registry} {d : PluginDependency}

theorem InstallationState.selected_eq_false_iff {s : InstallationState} :
    s.selected = false ↔ s = .uninstalled ∨ s = .revoked := by
  cases s <;> decide

theorem absentForEnable_iff (hBuilds : BuildsStored registry) (packages : PluginEnv ν)
    (hOptional : d.optional = true) :
    AbsentForEnable ν registry d ↔ registry.installations.get? d.pluginId.text = none := by
  constructor
  · intro hAbsent
    by_contra hThere
    obtain ⟨i, hi⟩ := Option.ne_none_iff_exists'.mp hThere
    obtain ⟨m, hm⟩ := hBuilds.installed _ i hi
    -- a version that does not parse is noticed as soon as there is a row
    have hFails := hAbsent { packages with parseVersion := fun _ => none }
    unfold requireEnabledDependency at hFails
    simp only [hi, hm, Option.bind_some, Option.map_some, bind_eq_ok, okOr_eq_ok, reduceCtorEq,
      false_and, exists_false, and_false] at hFails
  · intro hNone packages
    unfold requireEnabledDependency
    rw [hNone]
    exact require_eq_ok.mpr hOptional

theorem absentForResolve_iff (packages : PluginEnv ν) (hOptional : d.optional = true) :
    AbsentForResolve ν registry d ↔ (selectedManifests registry).get? d.pluginId = none := by
  constructor
  · intro hAbsent
    by_contra hThere
    obtain ⟨m, hm⟩ := Option.ne_none_iff_exists'.mp hThere
    have hFails := hAbsent { packages with
      parseVersion := fun _ => none, parseRange := fun _ => some fun _ => true } (by simp)
    simp only [dependencyEdge, hm, bind_eq_ok, okOr_eq_ok, reduceCtorEq, false_and, exists_false,
      and_false] at hFails
  · intro hNone packages hRange
    obtain ⟨range, hParsed⟩ := Option.ne_none_iff_exists'.mp hRange
    have hOk : okOr (packages.parseRange d.contractRange) manifestInvalid = .ok range :=
      okOr_eq_ok.mpr hParsed
    unfold dependencyEdge
    rw [hOk, hNone, hOptional]
    rfl

/-- The selection has no manifest of a plugin exactly if it is not installed or withdrawn. -/
theorem selection_none_iff (hBuilds : BuildsStored registry) {id : PluginId} :
    selection registry id = none ↔
      registry.installations.get? id.text = none ∨ Withdrawn registry id.text := by
  cases hRow : registry.installations.get? id.text with
  | none =>
    refine iff_of_true ?_ (Or.inl rfl)
    rw [selection, hRow]
    rfl
  | some i =>
    obtain ⟨m, hm⟩ := hBuilds.installed _ i hRow
    rw [selection_of_row hRow, hm]
    constructor
    · intro hNone
      refine Or.inr ⟨i, hRow, InstallationState.selected_eq_false_iff.mp ?_⟩
      by_contra hSelected
      rw [if_pos (Bool.eq_true_of_not_eq_false hSelected)] at hNone
      cases hNone
    · rintro (hNone | ⟨j, hj, hState⟩)
      · cases hNone
      · cases hRow.symm.trans hj
        rw [InstallationState.selected_eq_false_iff.mpr hState]
        rfl

/-- The check refuses a plugin that is withdrawn. -/
theorem requireEnabledDependency_withdrawn (hBuilds : BuildsStored registry)
    (hWithdrawn : Withdrawn registry d.pluginId.text) :
    requireEnabledDependency packages registry d =
      .error (.precondition "DEPENDENCY_NOT_ENABLED") := by
  obtain ⟨i, hi, hState⟩ := hWithdrawn
  obtain ⟨m, hm⟩ := hBuilds.installed _ i hi
  have hNotEnabled : i.state ≠ .enabled := by
    rintro hEnabled
    rw [hEnabled] at hState
    rcases hState with hState | hState <;> cases hState
  have hRequire : require (i.state = .enabled)
      (CommandFailure.precondition "DEPENDENCY_NOT_ENABLED") =
        .error (.precondition "DEPENDENCY_NOT_ENABLED") :=
    require_eq_error.mpr ⟨hNotEnabled, rfl⟩
  unfold requireEnabledDependency
  simp only [hi, hm, Option.bind_some, Option.map_some]
  rw [hRequire]
  rfl

end Absence

/-- In every state that is reached from one without plugins, the check before enabling and the
resolution of the installed set agree on an optional dependency exactly if it is not withdrawn.
Resolution takes it for absent if it is not installed or withdrawn. A withdrawn one is refused
by the check, with every plugin that names it. -/
theorem optional_dependencies_iff [LinearOrder ν] (env : Env) (packages : PluginEnv ν)
    (catalogue : PlatformCatalogue PluginInput) (s : Store) (hs : NoPlugins s)
    (calls : List (PlatformCall PluginInput)) (d : PluginDependency)
    (hOptional : d.optional = true) :
    let registry := (Machine.run (platformStep (pluginPlatform env packages catalogue)) s
      calls).tables.registry
    ((AbsentForEnable ν registry d ↔ AbsentForResolve ν registry d) ↔
      ¬Withdrawn registry d.pluginId.text) ∧
    (AbsentForResolve ν registry d ↔
      registry.installations.get? d.pluginId.text = none ∨ Withdrawn registry d.pluginId.text) ∧
    (Withdrawn registry d.pluginId.text →
      requireEnabledDependency packages registry d =
          .error (.precondition "DEPENDENCY_NOT_ENABLED") ∧
        ∀ m : PluginManifest, d ∈ m.dependencies →
          ∀ u, requireEnabledDependencies packages registry m ≠ .ok u) := by
  intro registry
  have hFew : SetFew registry := SetFew.run env packages catalogue hs calls
  have hEnable := absentForEnable_iff hFew.builds packages hOptional
  have hResolve : AbsentForResolve ν registry d ↔
      registry.installations.get? d.pluginId.text = none ∨ Withdrawn registry d.pluginId.text := by
    rw [absentForResolve_iff packages hOptional, hFew.get?, selection_none_iff hFew.builds]
  refine ⟨?_, hResolve, fun hWithdrawn => ?_⟩
  · rw [hEnable, hResolve]
    constructor
    · rintro hAgree ⟨i, hi, hState⟩
      rw [hAgree.mpr (Or.inr ⟨i, hi, hState⟩)] at hi
      cases hi
    · intro hNot
      exact ⟨Or.inl, fun h => h.resolve_right hNot⟩
  · have hRefused : requireEnabledDependency packages registry d =
        .error (.precondition "DEPENDENCY_NOT_ENABLED") :=
      requireEnabledDependency_withdrawn hFew.builds hWithdrawn
    refine ⟨hRefused, fun m hd u hOk => ?_⟩
    simp only [requireEnabledDependencies, bind_eq_ok] at hOk
    obtain ⟨done, hDone, -⟩ := hOk
    obtain ⟨v, -, hOne⟩ := (mapM_mem hDone).1 d hd
    rw [hRefused] at hOne
    cases hOne

/-! ## A plugin that names another one as optional -/

namespace Sample

theorem storage_opaque : opaqueIdentifier "storage" = true := by decide

/-- An optional dependency on the plugin `storage`. -/
def onStorage : PluginDependency :=
  { pluginId := ⟨"storage", storage_opaque⟩, contractRange := "^1.0", optional := true }

def viewer : PluginManifest := build "viewer" (by decide) "1.0.0" "printing" [onStorage] []

/-- The packages of the small tenant, among them that of the viewer. -/
def viewerPackages : PluginEnv Nat := packagesWith viewer

def viewerPlatform : Platform PluginInput := pluginPlatform env viewerPackages pluginCatalogue

/-- The plugin is installed and uninstalled; then the viewer, which resolution accepts without it,
is installed. -/
def dropping : List (PlatformCall PluginInput) :=
  [lifecycleCommand 1 (.install storage), lifecycleCommand 2 (.uninstall "storage" 1 "RETAIN"),
    lifecycleCommand 3 (.install viewer)]

def dropped : Store := Machine.run (platformStep viewerPlatform) shelf dropping

/-- The command that enables the viewer. -/
def enableViewer : PlatformCall PluginInput :=
  lifecycleCommand 4 (.enable "viewer" viewer.artifactDigest.toText [] 1)

end Sample

theorem withdrawn_never_enabled :
    NoPlugins Sample.shelf ∧
      Withdrawn Sample.dropped.tables.registry "storage" ∧
      (Sample.dropped.tables.registry.installations.get? "viewer").map (·.state) =
        some .installedDisabled ∧
      (selectedManifests Sample.dropped.tables.registry).get? Sample.onStorage.pluginId = none ∧
      (∃ order, resolveManifests Sample.viewerPackages
        (selectedManifests Sample.dropped.tables.registry) = .ok order) ∧
      requireEnabledDependency Sample.viewerPackages Sample.dropped.tables.registry
        Sample.onStorage = .error (.precondition "DEPENDENCY_NOT_ENABLED") ∧
      (platformStep Sample.viewerPlatform Sample.dropped Sample.enableViewer).2 =
        .error (.precondition "DEPENDENCY_NOT_ENABLED") := by
  have hRun : (Sample.dropped.tables.registry.installations.get? "storage").map (·.state) =
        some .uninstalled ∧
      (Sample.dropped.tables.registry.installations.get? "viewer").map (·.state) =
        some .installedDisabled ∧
      ((selectedManifests Sample.dropped.tables.registry).get?
        Sample.onStorage.pluginId).isNone = true ∧
      (resolveManifests Sample.viewerPackages
        (selectedManifests Sample.dropped.tables.registry)).toOption.isSome = true ∧
      failure? (requireEnabledDependency Sample.viewerPackages Sample.dropped.tables.registry
        Sample.onStorage) = some (.precondition "DEPENDENCY_NOT_ENABLED") ∧
      failure? (platformStep Sample.viewerPlatform Sample.dropped Sample.enableViewer).2 =
        some (.precondition "DEPENDENCY_NOT_ENABLED") := by
    delta Sample.dropped Sample.viewerPlatform Sample.viewerPackages
    rw [platformStep_bytewise, pluginPlatform_bytewise, Sample.env_bytewise,
      Sample.packagesWith_bytewise]
    decide +kernel
  obtain ⟨hStorage, hViewer, hNone, hResolves, hCheck, hAnswer⟩ := hRun
  obtain ⟨i, hi, hState⟩ := Option.map_eq_some_iff.mp hStorage
  refine ⟨Sample.shelf_noPlugins, ⟨i, hi, Or.inl hState⟩, hViewer,
    Option.isNone_iff_eq_none.mp hNone, ?_, eq_error_of_failure? hCheck,
    eq_error_of_failure? hAnswer⟩
  cases hOrder : resolveManifests Sample.viewerPackages
      (selectedManifests Sample.dropped.tables.registry) with
  | ok order => exact ⟨order, rfl⟩
  | error failure =>
    rw [hOrder] at hResolves
    cases hResolves

theorem optional_storage :
    NoPlugins Sample.shelf ∧ Sample.onStorage.optional = true ∧
      ((AbsentForEnable Nat (Sample.fromShelf Sample.stacking).tables.registry Sample.onStorage ↔
          AbsentForResolve Nat (Sample.fromShelf Sample.stacking).tables.registry
            Sample.onStorage) ↔
        ¬Withdrawn (Sample.fromShelf Sample.stacking).tables.registry "storage") := by
  refine ⟨Sample.shelf_noPlugins, rfl, ?_⟩
  unfold Sample.fromShelf Sample.plugins
  exact (optional_dependencies_iff Sample.env Sample.packages Sample.pluginCatalogue Sample.shelf
    Sample.shelf_noPlugins Sample.stacking Sample.onStorage rfl).1

end Masonwing
