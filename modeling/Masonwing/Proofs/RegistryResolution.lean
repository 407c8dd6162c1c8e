import Masonwing.Proofs.DependencyResolution
import Masonwing.Proofs.Resolution

/-!
# The resolution of a registry is exact

`resolve_manifests` resolves every selected plugin in turn and appends what is new. Each plan is
topological, so what they add up to is one order of all of them. Every edge of the graph leads to a
selected plugin, so a root can only fail to resolve because of a cycle.

* `resolveManifests_exact`: when the resolution succeeds, and what the order is then.
-/

namespace Masonwing

open Outcome Topological

variable {ν : Type} {packages : PluginEnv ν} {selected : Selection} {manifests : Manifests}

/-- A dependency that is present is selected. -/
theorem dependenciesOf_edge {id d : PluginId} :
    Edge (dependenciesOf selected) id d ↔
      ∃ m, selected id = some m ∧ (∃ dependency ∈ m.dependencies, dependency.pluginId = d) ∧
        ∃ target, selected d = some target := by
  unfold Edge dependenciesOf
  simp only [Option.map_eq_some_iff]
  constructor
  · rintro ⟨_, ⟨m, hm, rfl⟩, hMem⟩
    obtain ⟨hNamed, hSome⟩ := List.mem_filter.mp hMem
    exact ⟨m, hm, List.mem_map.mp hNamed, Option.isSome_iff_exists.mp hSome⟩
  · rintro ⟨m, hm, hNamed, hTarget⟩
    exact ⟨_, ⟨m, hm, rfl⟩, List.mem_filter.mpr
      ⟨List.mem_map.mpr hNamed, Option.isSome_iff_exists.mpr hTarget⟩⟩

theorem declared_of_selected {id : PluginId} {m : PluginManifest} (h : selected id = some m) :
    ∃ next, dependenciesOf selected id = some next := ⟨_, by rw [dependenciesOf, h]; rfl⟩

/-- Everything below a selected plugin is selected. -/
theorem reaches_declared {id x : PluginId} {m : PluginManifest} (h : selected id = some m)
    (hReaches : Reaches (dependenciesOf selected) id x) :
    ∃ next, dependenciesOf selected x = some next := by
  cases hReaches with
  | refl => exact declared_of_selected h
  | tail _ hEdge =>
    obtain ⟨-, -, -, target, hTarget⟩ := dependenciesOf_edge.mp hEdge
    exact declared_of_selected hTarget

/-- The graph of the selected plugins. -/
def selectedGraph (manifests : Manifests) : DependencyGraph :=
  graphOf manifests.get? .empty manifests.sorted

theorem selectedGraph_get? :
    Table.get? (selectedGraph manifests) = dependenciesOf manifests.get? :=
  funext graphOf_sorted

/-- One order has all of the selected plugins exactly if they have no cycle. -/
theorem ordered_iff_acyclic :
    (∃ order, Topological (dependenciesOf manifests.get?) order ∧
      ∀ id m, manifests.get? id = some m → id ∈ order) ↔
      ¬ ∃ id, Cyclic (dependenciesOf manifests.get?) id := by
  constructor
  · rintro ⟨order, hOrder, hAll⟩ ⟨id, hCycle⟩
    obtain ⟨x, hEdge, -⟩ := Relation.TransGen.head'_iff.mp hCycle
    obtain ⟨m, hm, -⟩ := dependenciesOf_edge.mp hEdge
    exact hOrder.acyclic (hAll id m hm) hCycle
  · intro hAcyclic
    have hFold : ∃ order, manifests.sorted.foldlM (addResolved (selectedGraph manifests)) [] =
        .ok order := by
      apply foldlM_succeeds
      rintro ordered ⟨id, m⟩ hEntry
      have hm := Manifests.mem_sorted.mp hEntry
      have hResolves : DependencyGraph.Resolves (selectedGraph manifests) id := by
        unfold DependencyGraph.Resolves
        rw [selectedGraph_get?]
        exact ⟨fun x hx => reaches_declared hm hx, fun ⟨x, _, hx⟩ => hAcyclic ⟨x, hx⟩⟩
      obtain ⟨plan, hPlan⟩ := DependencyGraph.resolve_ok_iff_resolves.mpr hResolves
      exact ⟨_, addResolved_ok.mpr ⟨plan, hPlan, rfl⟩⟩
    obtain ⟨order, hOrder⟩ := hFold
    obtain ⟨hTopological, hAll⟩ := addResolvedAll_order hOrder
    rw [selectedGraph_get?] at hTopological
    exact ⟨order, hTopological, fun id m hm => hAll (id, m) (Manifests.mem_sorted.mpr hm)⟩

/-- What the resolution of a registry returns. -/
theorem resolveManifests_order {order : List PluginId}
    (h : resolveManifests packages manifests = .ok order) :
    Topological (dependenciesOf manifests.get?) order ∧
      ∀ id, id ∈ order ↔ id ∈ manifests.keys := by
  simp only [resolveManifests, bind_eq_ok, require_eq_ok, exists_const, addManifests_ok] at h
  obtain ⟨-, graph, ⟨-, rfl⟩, hOrder⟩ := h
  obtain ⟨hTopological, hAll⟩ := addResolvedAll_order hOrder
  have hGraph : (graphOf manifests.get? .empty manifests.sorted).get? =
      dependenciesOf manifests.get? := funext graphOf_sorted
  rw [hGraph] at hTopological
  refine ⟨hTopological, fun id => ⟨fun hid => ?_, fun hid => ?_⟩⟩
  · obtain ⟨next, hDeclared, -⟩ := hTopological.declared hid
    obtain ⟨m, hm, -⟩ := Option.map_eq_some_iff.mp hDeclared
    exact List.mem_map.mpr ⟨(id, m), Table.get?_eq_some_iff.mp hm, rfl⟩
  · obtain ⟨⟨id', m⟩, hRow, rfl⟩ := List.mem_map.mp hid
    exact hAll (id', m) (Manifests.mem_sorted.mpr (Table.get?_eq_some_iff.mpr hRow))

/-- The selected manifests resolve exactly if there are at most 512 of them, each names different
dependencies that are met, and the present dependencies have no cycle; the order has each of them
once, after all of its present dependencies. -/
theorem resolveManifests_exact (packages : PluginEnv ν) (manifests : Manifests) :
    ((∃ order, resolveManifests packages manifests = .ok order) ↔
      manifests.rows.length ≤ 512 ∧
      (∀ id m, manifests.get? id = some m → (m.dependencies.map (·.pluginId)).Nodup ∧
        ∀ d ∈ m.dependencies, DependencyMet packages manifests.get? d) ∧
      ¬ ∃ id, Cyclic (dependenciesOf manifests.get?) id) ∧
    ∀ order, resolveManifests packages manifests = .ok order →
      order.Perm manifests.keys ∧
      ∀ start id rest, order = start ++ id :: rest →
        ∀ d, Edge (dependenciesOf manifests.get?) id d → d ∈ start := by
  constructor
  · rw [resolves_iff]
    constructor
    · rintro ⟨hLength, hSatisfied, hOrdered⟩
      exact ⟨hLength, fun id m hm => ⟨(hSatisfied id m hm).distinct, (hSatisfied id m hm).met⟩,
        ordered_iff_acyclic.mp hOrdered⟩
    · rintro ⟨hLength, hSatisfied, hAcyclic⟩
      exact ⟨hLength, fun id m hm => ⟨(hSatisfied id m hm).1, (hSatisfied id m hm).2⟩,
        ordered_iff_acyclic.mpr hAcyclic⟩
  · intro order h
    obtain ⟨hTopological, hMem⟩ := resolveManifests_order h
    refine ⟨?_, fun start id rest hSplit d hEdge => hTopological.before hSplit hEdge⟩
    exact (List.perm_ext_iff_of_nodup hTopological.nodup manifests.nodup).mpr hMem

end Masonwing
