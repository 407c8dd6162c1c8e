import Masonwing.Store.Manifests

/-!
# When the selected manifests resolve

`resolveManifests` checks every dependency of every selected manifest and then walks the graph
that is left. `resolves_iff` says what that amounts to, in terms of the selection alone: each
manifest is satisfied, and the selected plugins have an order in which each comes after what it
depends on. Adding or removing a plugin that nobody else names keeps both.
-/

namespace Masonwing

open Outcome

/-- The selected version of each plugin. -/
abbrev Selection := PluginId → Option PluginManifest

variable {ν : Type} {packages : PluginEnv ν} {selected : Selection} {manifests : Manifests}

/-! ## What resolution asks of a selection -/

/-- The range of a dependency can be read; its plugin is selected with a contract in that range, or
is not selected and optional. -/
def DependencyMet (packages : PluginEnv ν) (selected : Selection) (d : PluginDependency) : Prop :=
  ∃ range, packages.parseRange d.contractRange = some range ∧
    (selected d.pluginId = none → d.optional = true) ∧
    ∀ target, selected d.pluginId = some target →
      ∃ version, packages.parseVersion target.contractVersion = some version ∧
        range version = true

structure Satisfied (packages : PluginEnv ν) (selected : Selection) (m : PluginManifest) :
    Prop where
  distinct : (m.dependencies.map (·.pluginId)).Nodup
  met : ∀ d ∈ m.dependencies, DependencyMet packages selected d

/-- The selected plugins that a manifest names. -/
def edgesOf (selected : Selection) (m : PluginManifest) : List PluginId :=
  (m.dependencies.map (·.pluginId)).filter fun id => (selected id).isSome

def dependenciesOf (selected : Selection) (id : PluginId) : Option (List PluginId) :=
  (selected id).map (edgesOf selected)

structure Resolvable (packages : PluginEnv ν) (selected : Selection) : Prop where
  satisfied : ∀ id m, selected id = some m → Satisfied packages selected m
  acyclic : ∃ order, Topological (dependenciesOf selected) order ∧
    ∀ id m, selected id = some m → id ∈ order

/-! ## The code asks exactly that -/

theorem dependencyEdge_ok {d : PluginDependency} {edge : List PluginId} :
    dependencyEdge packages manifests d = .ok edge ↔
      DependencyMet packages manifests.get? d ∧
        edge = [d.pluginId].filter fun id => (manifests.get? id).isSome := by
  unfold dependencyEdge DependencyMet
  simp only [bind_eq_ok, okOr_eq_ok]
  cases hTarget : manifests.get? d.pluginId with
  | none =>
    simp only [bind_eq_ok, require_eq_ok, pure_eq_ok, exists_const, List.filter_cons, hTarget,
      List.filter_nil, Option.isSome_none, Bool.false_eq_true, if_false]
    constructor
    · rintro ⟨range, hRange, hOptional, rfl⟩
      exact ⟨⟨range, hRange, fun _ => hOptional, fun _ h => (by cases h)⟩, rfl⟩
    · rintro ⟨⟨range, hRange, hOptional, -⟩, rfl⟩
      exact ⟨range, hRange, hOptional trivial, rfl⟩
  | some target =>
    simp only [bind_eq_ok, okOr_eq_ok, require_eq_ok, pure_eq_ok, exists_const, List.filter_cons,
      hTarget, List.filter_nil, Option.isSome_some, if_true]
    constructor
    · rintro ⟨range, hRange, version, hVersion, hMatches, rfl⟩
      refine ⟨⟨range, hRange, fun h => (by cases h), fun target' h => ?_⟩, rfl⟩
      cases h
      exact ⟨version, hVersion, hMatches⟩
    · rintro ⟨⟨range, hRange, -, hTargets⟩, rfl⟩
      obtain ⟨version, hVersion, hMatches⟩ := hTargets target rfl
      exact ⟨range, hRange, version, hVersion, hMatches, rfl⟩

/-- The loop over the dependencies, with what it collected and named before. -/
theorem addDependencies_ok {dependencies : List PluginDependency}
    {acc acc' : List PluginId × List PluginId} :
    dependencies.foldlM (addDependency packages manifests) acc = .ok acc' ↔
      ((∀ d ∈ dependencies, d.pluginId ∉ acc.2) ∧ (dependencies.map (·.pluginId)).Nodup ∧
        ∀ d ∈ dependencies, DependencyMet packages manifests.get? d) ∧
      acc' = (acc.1 ++ (dependencies.map (·.pluginId)).filter fun id => (manifests.get? id).isSome,
        acc.2 ++ dependencies.map (·.pluginId)) := by
  induction dependencies generalizing acc with
  | nil =>
    simp only [List.foldlM_nil, pure_eq_ok, List.map_nil, List.filter_nil, List.append_nil]
    constructor
    · rintro rfl
      exact ⟨⟨fun d hd => (by cases hd), List.nodup_nil, fun d hd => (by cases hd)⟩, rfl⟩
    · rintro ⟨-, rfl⟩
      rfl
  | cons d dependencies ih =>
    rw [List.foldlM_cons, bind_eq_ok]
    simp only [addDependency, bind_eq_ok, require_eq_ok, exists_const, dependencyEdge_ok,
      pure_eq_ok]
    constructor
    · rintro ⟨next, ⟨hNew, edge, ⟨hMet, rfl⟩, rfl⟩, hRest⟩
      obtain ⟨⟨hFree, hNodup, hMets⟩, rfl⟩ := ih.mp hRest
      have hOthers : ∀ e ∈ dependencies, e.pluginId ∉ acc.2 ∧ e.pluginId ≠ d.pluginId := by
        intro e he
        have hOut := hFree e he
        rw [List.mem_append, not_or, List.mem_singleton] at hOut
        exact hOut
      refine ⟨⟨?_, ?_, ?_⟩, ?_⟩
      · intro e he
        rcases List.mem_cons.mp he with rfl | he
        · exact hNew
        · exact (hOthers e he).1
      · rw [List.map_cons, List.nodup_cons]
        refine ⟨fun hMem => ?_, hNodup⟩
        obtain ⟨e, he, hSame⟩ := List.mem_map.mp hMem
        exact (hOthers e he).2 hSame
      · intro e he
        rcases List.mem_cons.mp he with rfl | he
        · exact hMet
        · exact hMets e he
      · simp only [List.map_cons, List.append_assoc, List.singleton_append, ← List.filter_append]
    · rintro ⟨⟨hFree, hNodup, hMets⟩, rfl⟩
      rw [List.map_cons, List.nodup_cons] at hNodup
      refine ⟨_, ⟨hFree d List.mem_cons_self, _, ⟨hMets d List.mem_cons_self, rfl⟩, rfl⟩, ?_⟩
      refine ih.mpr ⟨⟨fun e he => ?_, hNodup.2, fun e he => hMets e (List.mem_cons_of_mem _ he)⟩,
        ?_⟩
      · rw [List.mem_append, not_or, List.mem_singleton]
        exact ⟨hFree e (List.mem_cons_of_mem _ he), fun hSame =>
          hNodup.1 (List.mem_map.mpr ⟨e, he, hSame⟩)⟩
      · simp only [List.map_cons, List.append_assoc, List.singleton_append, ← List.filter_append]

theorem manifestEdges_ok {m : PluginManifest} {edges : List PluginId} :
    manifestEdges packages manifests m = .ok edges ↔
      Satisfied packages manifests.get? m ∧ edges = edgesOf manifests.get? m := by
  simp only [manifestEdges, bind_eq_ok, addDependencies_ok, pure_eq_ok, Prod.exists,
    Prod.mk.injEq, List.nil_append]
  constructor
  · rintro ⟨edges', seen, ⟨⟨-, hNodup, hMets⟩, rfl, -⟩, rfl⟩
    exact ⟨⟨hNodup, hMets⟩, rfl⟩
  · rintro ⟨⟨hNodup, hMets⟩, rfl⟩
    exact ⟨_, _, ⟨⟨fun d _ hd => (by cases hd), hNodup, hMets⟩, rfl, rfl⟩, rfl⟩

/-- The graph that the loop over the manifests builds. -/
def graphOf (selected : Selection) (graph : DependencyGraph)
    (entries : List (PluginId × PluginManifest)) : DependencyGraph :=
  entries.foldl (fun graph entry => graph.insert entry.1 (edgesOf selected entry.2)) graph

theorem addManifests_ok {entries : List (PluginId × PluginManifest)}
    {graph graph' : DependencyGraph} :
    entries.foldlM (addManifest packages manifests) graph = .ok graph' ↔
      (∀ entry ∈ entries, Satisfied packages manifests.get? entry.2) ∧
        graph' = graphOf manifests.get? graph entries := by
  induction entries generalizing graph with
  | nil =>
    simp only [List.foldlM_nil, pure_eq_ok, graphOf, List.foldl_nil]
    constructor
    · rintro rfl
      exact ⟨fun e he => (by cases he), rfl⟩
    · rintro ⟨-, rfl⟩
      rfl
  | cons entry entries ih =>
    rw [List.foldlM_cons, bind_eq_ok]
    simp only [addManifest, bind_eq_ok, manifestEdges_ok, pure_eq_ok, List.forall_mem_cons]
    constructor
    · rintro ⟨_, ⟨edges, ⟨hSatisfied, rfl⟩, rfl⟩, hRest⟩
      obtain ⟨hOthers, rfl⟩ := ih.mp hRest
      exact ⟨⟨hSatisfied, hOthers⟩, rfl⟩
    · rintro ⟨⟨hSatisfied, hOthers⟩, rfl⟩
      exact ⟨_, ⟨_, ⟨hSatisfied, rfl⟩, rfl⟩, ih.mpr ⟨hOthers, rfl⟩⟩

theorem graphOf_get? {entries : List (PluginId × PluginManifest)}
    (hNodup : (entries.map Prod.fst).Nodup) (graph : DependencyGraph) (id : PluginId) :
    (graphOf selected graph entries).get? id =
      match entries.lookup id with
      | some m => some (edgesOf selected m)
      | none => graph.get? id := by
  induction entries generalizing graph with
  | nil => rfl
  | cons entry entries ih =>
    obtain ⟨key, m⟩ := entry
    rw [List.map_cons, List.nodup_cons] at hNodup
    have hStep := ih hNodup.2 (graph.insert key (edgesOf selected m))
    change (graphOf selected (graph.insert key (edgesOf selected m)) entries).get? id = _
    rw [hStep, List.lookup_cons]
    by_cases hKey : id = key
    · subst hKey
      rw [Table.lookup_eq_none_iff.mpr hNodup.1]
      simp only [beq_self_eq_true, DependencyGraph.insert, Table.get?_upsert, if_true]
    · rw [beq_eq_false_iff_ne.mpr hKey]
      simp only [DependencyGraph.insert, Table.get?_upsert, if_neg hKey]

theorem Manifests.sorted_perm (manifests : Manifests) :
    manifests.sorted.Perm manifests.rows := List.perm_insertionSort _ _

theorem Manifests.mem_sorted {id : PluginId} {m : PluginManifest} :
    (id, m) ∈ manifests.sorted ↔ manifests.get? id = some m := by
  rw [manifests.sorted_perm.mem_iff, Table.get?_eq_some_iff]

theorem graphOf_sorted (id : PluginId) :
    (graphOf manifests.get? .empty manifests.sorted).get? id =
      dependenciesOf manifests.get? id := by
  have hNodup : (manifests.sorted.map Prod.fst).Nodup :=
    (manifests.sorted_perm.map Prod.fst).nodup_iff.mpr manifests.nodup
  have hLookup : manifests.sorted.lookup id = manifests.get? id := by
    ext m
    rw [Table.lookup_eq_some_iff hNodup, Manifests.mem_sorted]
  rw [graphOf_get? hNodup, hLookup, dependenciesOf]
  cases manifests.get? id with
  | none => rfl
  | some m => rfl

theorem addResolved_ok {graph : DependencyGraph} {ordered ordered' : List PluginId}
    {entry : PluginId × PluginManifest} :
    addResolved graph ordered entry = .ok ordered' ↔
      ∃ resolved, graph.resolve entry.1 = .ok resolved ∧
        ordered' = Topological.extend ordered resolved := by
  simp only [addResolved, bind_eq_ok, mapError_eq_ok, pure_eq_ok, @eq_comm _ ordered']

/-- The loop over the roots ends with an order that has them all. -/
theorem addResolvedAll_order {graph : DependencyGraph} {entries : List (PluginId × PluginManifest)}
    {order : List PluginId} (h : entries.foldlM (addResolved graph) [] = .ok order) :
    Topological graph.get? order ∧ ∀ entry ∈ entries, entry.1 ∈ order := by
  constructor
  · refine foldlM_invariant (fun entry _ ordered ordered' hOrdered hRun => ?_) .nil h
    obtain ⟨resolved, hResolved, rfl⟩ := addResolved_ok.mp hRun
    exact hOrdered.extended (DependencyGraph.resolve_topological hResolved).1
  · induction entries using List.reverseRecOn generalizing order with
    | nil => exact fun entry hEntry => (by cases hEntry)
    | append_singleton entries last ih =>
      rw [List.foldlM_append, bind_eq_ok] at h
      obtain ⟨before, hBefore, hLast⟩ := h
      simp only [List.foldlM_cons, List.foldlM_nil, bind_eq_ok, pure_eq_ok] at hLast
      obtain ⟨after, hAfter, rfl⟩ := hLast
      obtain ⟨resolved, hResolved, rfl⟩ := addResolved_ok.mp hAfter
      intro entry hEntry
      rw [Topological.mem_extend]
      rcases List.mem_append.mp hEntry with hEntry | hEntry
      · exact Or.inl (ih hBefore entry hEntry)
      · rw [List.mem_singleton] at hEntry
        subst hEntry
        exact Or.inr (DependencyGraph.resolve_topological hResolved).2

/-- The loop over the roots succeeds exactly if one order has them all. -/
theorem addResolvedAll_ok {graph : DependencyGraph}
    {entries : List (PluginId × PluginManifest)} :
    (∃ order, entries.foldlM (addResolved graph) [] = .ok order) ↔
      ∃ order, Topological graph.get? order ∧ ∀ entry ∈ entries, entry.1 ∈ order := by
  constructor
  · rintro ⟨order, h⟩
    exact ⟨order, addResolvedAll_order h⟩
  · rintro ⟨order, hTopological, hAll⟩
    apply foldlM_succeeds
    intro ordered entry hEntry
    obtain ⟨resolved, hResolved⟩ :=
      DependencyGraph.resolve_ok_iff.mpr ⟨order, hTopological, hAll entry hEntry⟩
    exact ⟨_, addResolved_ok.mpr ⟨resolved, hResolved, rfl⟩⟩

/-- The selected manifests resolve exactly if there are at most 512 of them and the selection is
resolvable. -/
theorem resolves_iff :
    (∃ order, resolveManifests packages manifests = .ok order) ↔
      manifests.rows.length ≤ 512 ∧ Resolvable packages manifests.get? := by
  simp only [resolveManifests, bind_eq_ok, require_eq_ok, exists_const, addManifests_ok]
  have hGraph : (graphOf manifests.get? .empty manifests.sorted).get? =
      dependenciesOf manifests.get? := funext graphOf_sorted
  constructor
  · rintro ⟨order, hLength, graph, ⟨hSatisfied, rfl⟩, hOrder⟩
    obtain ⟨list, hList, hAll⟩ := addResolvedAll_ok.mp ⟨order, hOrder⟩
    rw [hGraph] at hList
    exact ⟨hLength, ⟨fun id m hm => hSatisfied (id, m) (Manifests.mem_sorted.mpr hm),
      list, hList, fun id m hm => hAll (id, m) (Manifests.mem_sorted.mpr hm)⟩⟩
  · rintro ⟨hLength, ⟨hSatisfied, list, hList, hAll⟩⟩
    rw [← hGraph] at hList
    obtain ⟨order, hOrder⟩ := addResolvedAll_ok.mpr
      ⟨list, hList, fun entry hEntry => hAll entry.1 entry.2 (Manifests.mem_sorted.mp hEntry)⟩
    exact ⟨order, hLength, _,
      ⟨fun entry hEntry => hSatisfied entry.1 entry.2 (Manifests.mem_sorted.mp hEntry), rfl⟩,
      hOrder⟩

/-! ## Removing and adding a plugin -/

/-- The manifest names the plugin and cannot do without it. -/
def PluginManifest.Requires (m : PluginManifest) (id : PluginId) : Prop :=
  ∃ d ∈ m.dependencies, d.pluginId = id ∧ d.optional = false

/-- Some other plugin of the selection requires this one. -/
def Required (selected : Selection) (id : PluginId) : Prop :=
  ∃ other m, other ≠ id ∧ selected other = some m ∧ m.Requires id

/-- A selection without one of its plugins. -/
def Selection.without (selected : Selection) (id : PluginId) : Selection :=
  fun other => if other = id then none else selected other

/-- A selection with a version of its own for one plugin. -/
def Selection.replaced (selected : Selection) (id : PluginId) (m : PluginManifest) : Selection :=
  fun other => if other = id then some m else selected other

theorem Selection.without_some {id other : PluginId} {m : PluginManifest} :
    Selection.without selected id other = some m ↔ other ≠ id ∧ selected other = some m := by
  unfold Selection.without
  split
  · rename_i hSame
    exact ⟨fun h => (by cases h), fun h => absurd hSame h.1⟩
  · rename_i hOther
    exact ⟨fun h => ⟨hOther, h⟩, fun h => h.2⟩

theorem DependencyMet.without {id : PluginId} {d : PluginDependency}
    (h : DependencyMet packages selected d) (hFree : d.pluginId = id → d.optional = true) :
    DependencyMet packages (Selection.without selected id) d := by
  obtain ⟨range, hRange, hMissing, hTargets⟩ := h
  refine ⟨range, hRange, fun hNone => ?_, fun target hTarget => ?_⟩
  · by_cases hSame : d.pluginId = id
    · exact hFree hSame
    · rw [Selection.without, if_neg hSame] at hNone
      exact hMissing hNone
  · exact hTargets target (Selection.without_some.mp hTarget).2

/-- A plugin that no other one requires can be left out. -/
theorem Resolvable.without {id : PluginId} (h : Resolvable packages selected)
    (hFree : ¬ Required selected id) : Resolvable packages (Selection.without selected id) := by
  constructor
  · intro other m hm
    obtain ⟨hOther, hm⟩ := Selection.without_some.mp hm
    have hSatisfied := h.satisfied other m hm
    refine ⟨hSatisfied.distinct, fun d hd => (hSatisfied.met d hd).without fun hSame => ?_⟩
    cases hOptional : d.optional with
    | true => rfl
    | false => exact absurd ⟨other, m, hOther, hm, d, hd, hSame, hOptional⟩ hFree
  · obtain ⟨order, hOrder, hAll⟩ := h.acyclic
    refine ⟨order.filter fun other => decide (other ≠ id), hOrder.filter ?_, ?_⟩
    · intro other next hKeep hNext
      have hOther := of_decide_eq_true hKeep
      obtain ⟨m, hm, rfl⟩ := Option.map_eq_some_iff.mp hNext
      refine ⟨edgesOf (Selection.without selected id) m, ?_, fun y hy => ?_⟩
      · rw [dependenciesOf, Selection.without, if_neg hOther, hm]
        rfl
      · obtain ⟨hNamed, hSome⟩ := List.mem_filter.mp hy
        obtain ⟨target, hTarget⟩ := Option.isSome_iff_exists.mp hSome
        obtain ⟨hy, hTarget⟩ := Selection.without_some.mp hTarget
        refine ⟨List.mem_filter.mpr ⟨hNamed, ?_⟩, decide_eq_true hy⟩
        rw [hTarget]
        rfl
    · intro other m hm
      obtain ⟨hOther, hm⟩ := Selection.without_some.mp hm
      exact List.mem_filter.mpr ⟨hAll other m hm, decide_eq_true hOther⟩

/-- And only such a plugin. -/
theorem not_resolvable_of_required {id : PluginId} (h : Required selected id) :
    ¬ Resolvable packages (Selection.without selected id) := by
  rintro ⟨hSatisfied, -⟩
  obtain ⟨other, m, hOther, hm, d, hd, rfl, hOptional⟩ := h
  obtain ⟨range, -, hMissing, -⟩ :=
    (hSatisfied other m (Selection.without_some.mpr ⟨hOther, hm⟩)).met d hd
  have hNone : Selection.without selected d.pluginId d.pluginId = none := if_pos rfl
  rw [hMissing hNone] at hOptional
  cases hOptional

/-- No other plugin of the selection names this one. -/
def Unnamed (selected : Selection) (id : PluginId) : Prop :=
  ∀ other m, other ≠ id → selected other = some m → ∀ d ∈ m.dependencies, d.pluginId ≠ id

/-- A plugin that nobody names can be added or exchanged, if its own dependencies are met by the
others. -/
theorem Resolvable.replaced {id : PluginId} {m : PluginManifest} (h : Resolvable packages selected)
    (hFree : Unnamed selected id) (hMet : Satisfied packages selected m)
    (hSelf : ∀ d ∈ m.dependencies, d.pluginId ≠ id) :
    Resolvable packages (Selection.replaced selected id m) := by
  have hSame : ∀ other, other ≠ id → Selection.replaced selected id m other = selected other :=
    fun other hOther => if_neg hOther
  have hEdges : ∀ m' : PluginManifest, (∀ d ∈ m'.dependencies, d.pluginId ≠ id) →
      edgesOf (Selection.replaced selected id m) m' = edgesOf selected m' := by
    intro m' hNames
    refine List.filter_congr fun y hy => ?_
    obtain ⟨d, hd, rfl⟩ := List.mem_map.mp hy
    rw [hSame _ (hNames d hd)]
  have hMets : ∀ m' : PluginManifest, (∀ d ∈ m'.dependencies, d.pluginId ≠ id) →
      Satisfied packages selected m' →
      Satisfied packages (Selection.replaced selected id m) m' := by
    intro m' hNames hSatisfied
    refine ⟨hSatisfied.distinct, fun d hd => ?_⟩
    unfold DependencyMet
    rw [hSame _ (hNames d hd)]
    exact hSatisfied.met d hd
  constructor
  · intro other m' hm'
    by_cases hOther : other = id
    · rw [Selection.replaced, if_pos hOther] at hm'
      cases hm'
      exact hMets m hSelf hMet
    · rw [hSame other hOther] at hm'
      exact hMets m' (hFree other m' hOther hm') (h.satisfied other m' hm')
  · obtain ⟨order, hOrder, hAll⟩ := h.acyclic
    have hRest : Topological (dependenciesOf (Selection.replaced selected id m))
        (order.filter fun other => decide (other ≠ id)) := by
      refine hOrder.filter fun other next hKeep hNext => ?_
      have hOther := of_decide_eq_true hKeep
      obtain ⟨m', hm', rfl⟩ := Option.map_eq_some_iff.mp hNext
      have hNames := hFree other m' hOther hm'
      refine ⟨edgesOf selected m', ?_, fun y hy => ⟨hy, decide_eq_true ?_⟩⟩
      · rw [dependenciesOf, hSame other hOther, hm', Option.map_some, hEdges m' hNames]
      · obtain ⟨d, hd, rfl⟩ := List.mem_map.mp (List.mem_of_mem_filter hy)
        exact hNames d hd
    have hOwn : dependenciesOf (Selection.replaced selected id m) id =
        some (edgesOf selected m) := by
      rw [dependenciesOf, Selection.replaced, if_pos rfl, Option.map_some, hEdges m hSelf]
    refine ⟨_, .snoc hRest hOwn (fun y hy => ?_) (by simp), fun other m' hm' => ?_⟩
    · obtain ⟨hNamed, hSome⟩ := List.mem_filter.mp hy
      obtain ⟨d, hd, rfl⟩ := List.mem_map.mp hNamed
      obtain ⟨target, hTarget⟩ := Option.isSome_iff_exists.mp hSome
      exact List.mem_filter.mpr ⟨hAll _ target hTarget, decide_eq_true (hSelf d hd)⟩
    · rw [List.mem_append, List.mem_singleton]
      by_cases hOther : other = id
      · exact Or.inr hOther
      · rw [hSame other hOther] at hm'
        exact Or.inl (List.mem_filter.mpr ⟨hAll other m' hm', decide_eq_true hOther⟩)

end Masonwing
