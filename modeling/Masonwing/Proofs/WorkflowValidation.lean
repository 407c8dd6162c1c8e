import Masonwing.Proofs.DependencyResolution
import Masonwing.Proofs.Evaluation
import Masonwing.Store.Plugins

/-!
# Workflow validation bounds every cycle

`validate_workflow` leaves the bounded loops out, resolves every remaining node in the graph that is
left, and looks at the edges only afterwards. All edges of that graph lead to one of its nodes, so a
node fails to resolve only because of a cycle (`unbounded_resolve_iff`), and the cycles of that
graph are the cycles of the definition that avoid its bounded loops (`acyclic_iff_guarded`).

* `validateWorkflow_exact`: what the accepted definitions are.
-/

namespace Masonwing

open Outcome Topological

/-! ## The graph of a definition -/

namespace WorkflowDocument

/-- There is an edge, under whatever condition. -/
def Step (w : WorkflowDocument) (a b : String) : Prop :=
  ∃ e ∈ w.edges, e.source = a ∧ e.target = b

/-- The identifier is that of a bounded loop. -/
def Bounds (w : WorkflowDocument) (a : String) : Prop := ∃ n ∈ w.nodes, n.id = a ∧ n.bounded = true

def Unbounded (w : WorkflowDocument) (a : String) : Prop :=
  ∃ n ∈ w.nodes, n.id = a ∧ n.bounded = false

/-- What validation asks of the nodes and the edges. -/
structure Structured (w : WorkflowDocument) : Prop where
  distinct : (w.nodes.map (·.id)).Nodup
  entry : w.entryNode ∈ w.nodes.map (·.id)
  ends : ∀ e ∈ w.edges, e.source ∈ w.nodes.map (·.id) ∧ e.target ∈ w.nodes.map (·.id)
  conditions : (w.edges.map fun e => (e.source, e.condition)).Nodup
  guarded : ∀ path, IsCycle w.Step path → ∃ id ∈ path, w.Bounds id

end WorkflowDocument

variable {w : WorkflowDocument} {graph : DependencyGraph}

/-- An identifier names one node only. -/
theorem node_eq (hDistinct : (w.nodes.map (·.id)).Nodup) {n n' : DocumentNode} (hn : n ∈ w.nodes)
    (hn' : n' ∈ w.nodes) (hSame : n.id = n'.id) : n = n' :=
  List.inj_on_of_nodup_map hDistinct hn hn' hSame

theorem find_node (hDistinct : (w.nodes.map (·.id)).Nodup) {id : String} {n : DocumentNode} :
    (w.nodes.find? fun n' => n'.id == id) = some n ↔ n ∈ w.nodes ∧ n.id = id := by
  constructor
  · intro h
    have hId := List.find?_some h
    exact ⟨List.mem_of_find?_eq_some h, beq_iff_eq.mp hId⟩
  · rintro ⟨hn, rfl⟩
    cases hFind : w.nodes.find? fun n' => n'.id == n.id with
    | none =>
      have hNone := List.find?_eq_none.mp hFind n hn
      simp at hNone
    | some n' =>
      have hId := List.find?_some hFind
      rw [node_eq hDistinct (List.mem_of_find?_eq_some hFind) hn (beq_iff_eq.mp hId)]

/-! ## The graph that is left -/

theorem okOr_ofText_eq_ok {text : String} {e : CommandFailure} {id : OpaqueId} :
    okOr (OpaqueId.ofText? text) e = .ok id ↔ id.text = text := by
  rw [okOr_eq_ok, OpaqueId.ofText?]
  constructor
  · intro h
    split at h
    · cases h
      rfl
    · cases h
  · rintro rfl
    exact dif_pos id.valid

/-- The successors of a node in the graph that is left. -/
theorem unboundedNext_mem (hDistinct : (w.nodes.map (·.id)).Nodup) {n : DocumentNode}
    {next : List OpaqueId} (h : unboundedNext w n = .ok next) (y : OpaqueId) :
    y ∈ next ↔ w.Step n.id y.text ∧ w.Unbounded y.text := by
  obtain ⟨hForth, hBack⟩ := mapM_mem h
  have hTargets : ∀ n', n' ∈ ((w.edges.filter fun e => e.source == n.id).filterMap fun e =>
      w.nodes.find? fun n' => n'.id == e.target).filter (fun n' => !n'.bounded) ↔
        (∃ e ∈ w.edges, e.source = n.id ∧ e.target = n'.id) ∧ n' ∈ w.nodes ∧
          n'.bounded = false := by
    intro n'
    simp only [List.mem_filter, List.mem_filterMap, beq_iff_eq, find_node hDistinct,
      Bool.not_eq_true']
    constructor
    · rintro ⟨⟨e, ⟨he, hSource⟩, hn', hTarget⟩, hBounded⟩
      exact ⟨⟨e, he, hSource, hTarget.symm⟩, hn', hBounded⟩
    · rintro ⟨⟨e, he, hSource, hTarget⟩, hn', hBounded⟩
      exact ⟨⟨e, ⟨he, hSource⟩, hn', hTarget.symm⟩, hBounded⟩
  constructor
  · intro hy
    obtain ⟨n', hn', hKey⟩ := hBack y hy
    obtain ⟨⟨e, he, hSource, hTarget⟩, hNode, hBounded⟩ := (hTargets n').mp hn'
    have hText := okOr_ofText_eq_ok.mp hKey
    exact ⟨⟨e, he, hSource, hTarget.trans hText.symm⟩, n', hNode, hText.symm, hBounded⟩
  · rintro ⟨⟨e, he, hSource, hTarget⟩, n', hNode, hText, hBounded⟩
    obtain ⟨y', hy', hKey⟩ := hForth n'
      ((hTargets n').mpr ⟨⟨e, he, hSource, hTarget.trans hText.symm⟩, hNode, hBounded⟩)
    have hText' := okOr_ofText_eq_ok.mp hKey
    rwa [OpaqueId.text_injective (hText'.trans hText)] at hy'

/-- The loop over the nodes declares each of them with its successors. -/
theorem addUnbounded_get? {nodes : List DocumentNode} (hDistinct : (nodes.map (·.id)).Nodup)
    {graph' : DependencyGraph} (h : nodes.foldlM (addUnbounded w) graph = .ok graph')
    (x : OpaqueId) (next : List OpaqueId) :
    graph'.get? x = some next ↔
      (∃ n ∈ nodes, n.id = x.text ∧ unboundedNext w n = .ok next) ∨
        (x.text ∉ nodes.map (·.id) ∧ graph.get? x = some next) := by
  induction nodes generalizing graph with
  | nil =>
    cases h
    simp
  | cons n nodes ih =>
    rw [List.foldlM_cons, bind_eq_ok] at h
    obtain ⟨added, hAdd, hRest⟩ := h
    simp only [addUnbounded, bind_eq_ok, okOr_ofText_eq_ok, pure_eq_ok] at hAdd
    obtain ⟨own, hOwn, id, hId, rfl⟩ := hAdd
    rw [List.map_cons, List.nodup_cons] at hDistinct
    rw [ih hDistinct.2 hRest, DependencyGraph.insert, Table.get?_upsert, List.map_cons,
      List.mem_cons, not_or]
    by_cases hx : x = id
    · subst hx
      rw [if_pos rfl, Option.some.injEq]
      constructor
      · rintro (⟨n', hn', hText, hNext⟩ | ⟨-, rfl⟩)
        · exact Or.inl ⟨n', List.mem_cons_of_mem _ hn', hText, hNext⟩
        · exact Or.inl ⟨n, List.mem_cons_self, hId.symm, hOwn⟩
      · rintro (⟨n', hn', hText, hNext⟩ | ⟨⟨hText, -⟩, -⟩)
        · rcases List.mem_cons.mp hn' with rfl | hn'
          · rw [hOwn] at hNext
            cases hNext
            exact Or.inr ⟨hId ▸ hDistinct.1, rfl⟩
          · exact Or.inl ⟨n', hn', hText, hNext⟩
        · exact absurd hId hText
    · have hText : x.text ≠ n.id := fun hText => hx (OpaqueId.text_injective (hText.trans hId.symm))
      rw [if_neg hx]
      constructor
      · rintro (⟨n', hn', hSame, hNext⟩ | ⟨hNot, hOld⟩)
        · exact Or.inl ⟨n', List.mem_cons_of_mem _ hn', hSame, hNext⟩
        · exact Or.inr ⟨⟨hText, hNot⟩, hOld⟩
      · rintro (⟨n', hn', hSame, hNext⟩ | ⟨⟨-, hNot⟩, hOld⟩)
        · rcases List.mem_cons.mp hn' with rfl | hn'
          · exact absurd hSame.symm hText
          · exact Or.inl ⟨n', hn', hSame, hNext⟩
        · exact Or.inr ⟨hNot, hOld⟩

/-- The nodes that are not bounded loops. -/
def WorkflowDocument.unbounded (w : WorkflowDocument) : List DocumentNode :=
  w.nodes.filter fun n => !n.bounded

theorem mem_unbounded {n : DocumentNode} : n ∈ w.unbounded ↔ n ∈ w.nodes ∧ n.bounded = false := by
  rw [WorkflowDocument.unbounded, List.mem_filter, Bool.not_eq_true']

/-- The identifiers of the nodes are of the form that the schema asks for. -/
def WorkflowDocument.Named (w : WorkflowDocument) : Prop :=
  ∀ n ∈ w.nodes, opaqueIdentifier n.id = true

theorem WorkflowDocument.Named.key (hNamed : w.Named) {n : DocumentNode} (hn : n ∈ w.nodes) :
    ∃ id : OpaqueId, id.text = n.id := ⟨⟨n.id, hNamed n hn⟩, rfl⟩

theorem unboundedNext_succeeds (hDistinct : (w.nodes.map (·.id)).Nodup) (hNamed : w.Named)
    (n : DocumentNode) : ∃ next, unboundedNext w n = .ok next := by
  refine mapM_succeeds fun n' hn' => ?_
  obtain ⟨e, -, hFind⟩ := List.mem_filterMap.mp (List.mem_of_mem_filter hn')
  obtain ⟨id, hId⟩ := hNamed.key ((find_node hDistinct).mp hFind).1
  exact ⟨id, okOr_ofText_eq_ok.mpr hId⟩

theorem addUnbounded_succeeds (hDistinct : (w.nodes.map (·.id)).Nodup) (hNamed : w.Named) :
    ∃ graph, w.unbounded.foldlM (addUnbounded w) .empty = .ok graph := by
  apply foldlM_succeeds
  intro graph n hn
  obtain ⟨next, hNext⟩ := unboundedNext_succeeds hDistinct hNamed n
  obtain ⟨id, hId⟩ := hNamed.key (mem_unbounded.mp hn).1
  refine ⟨graph.insert id next, ?_⟩
  simp only [addUnbounded, bind_eq_ok, okOr_ofText_eq_ok, pure_eq_ok]
  exact ⟨next, hNext, id, hId, rfl⟩

section Graph

variable (hDistinct : (w.nodes.map (·.id)).Nodup)
  (hGraph : w.unbounded.foldlM (addUnbounded w) .empty = .ok graph)

include hDistinct hGraph

theorem unboundedGraph_get? {x : OpaqueId} {next : List OpaqueId} :
    graph.get? x = some next ↔
      ∃ n ∈ w.unbounded, n.id = x.text ∧ unboundedNext w n = .ok next := by
  have hOwn : (w.unbounded.map (·.id)).Nodup := hDistinct.sublist (List.filter_sublist.map _)
  rw [addUnbounded_get? hOwn hGraph]
  simp

theorem unboundedGraph_edge {x y : OpaqueId} :
    Edge graph.get? x y ↔ w.Step x.text y.text ∧ w.Unbounded x.text ∧ w.Unbounded y.text := by
  unfold Edge
  constructor
  · rintro ⟨next, hNext, hy⟩
    obtain ⟨n, hn, hText, hSuccessors⟩ := (unboundedGraph_get? hDistinct hGraph).mp hNext
    obtain ⟨hStep, hUnbounded⟩ := (unboundedNext_mem hDistinct hSuccessors y).mp hy
    obtain ⟨hNode, hBounded⟩ := mem_unbounded.mp hn
    rw [hText] at hStep
    exact ⟨hStep, ⟨n, hNode, hText, hBounded⟩, hUnbounded⟩
  · rintro ⟨hStep, ⟨n, hNode, hText, hBounded⟩, hUnbounded⟩
    -- the node was declared by the loop
    have hn : n ∈ w.unbounded := mem_unbounded.mpr ⟨hNode, hBounded⟩
    have hEach : ∃ next, unboundedNext w n = .ok next := by
      by_contra hNone
      obtain ⟨before, after, hSplit⟩ := List.append_of_mem hn
      rw [hSplit, List.foldlM_append, bind_eq_ok] at hGraph
      obtain ⟨middle, -, hRest⟩ := hGraph
      rw [List.foldlM_cons, bind_eq_ok] at hRest
      obtain ⟨_, hAdd, -⟩ := hRest
      simp only [addUnbounded, bind_eq_ok] at hAdd
      obtain ⟨next, hNext, -⟩ := hAdd
      exact hNone ⟨next, hNext⟩
    obtain ⟨next, hNext⟩ := hEach
    refine ⟨next, (unboundedGraph_get? hDistinct hGraph).mpr ⟨n, hn, hText, hNext⟩, ?_⟩
    rw [unboundedNext_mem hDistinct hNext, hText]
    exact ⟨hStep, hUnbounded⟩

/-- Every unbounded node resolves exactly if nothing in the graph that is left is on a cycle. -/
theorem unbounded_resolve_iff (hNamed : w.Named) :
    (∃ done, w.unbounded.mapM (checkUnbounded graph) = .ok done) ↔
      ¬ ∃ x, Cyclic graph.get? x := by
  have hDeclared : ∀ x y, Edge graph.get? x y → ∃ next, graph.get? y = some next := by
    intro x y hEdge
    obtain ⟨-, -, n, hNode, hText, hBounded⟩ := (unboundedGraph_edge hDistinct hGraph).mp hEdge
    obtain ⟨next, hNext⟩ := unboundedNext_succeeds hDistinct hNamed n
    exact ⟨next, (unboundedGraph_get? hDistinct hGraph).mpr
      ⟨n, mem_unbounded.mpr ⟨hNode, hBounded⟩, hText, hNext⟩⟩
  constructor
  · rintro ⟨done, hDone⟩ ⟨x, hCyclic⟩
    obtain ⟨y, hEdge, -⟩ := Relation.TransGen.head'_iff.mp hCyclic
    obtain ⟨-, ⟨n, hNode, hText, hBounded⟩, -⟩ := (unboundedGraph_edge hDistinct hGraph).mp hEdge
    obtain ⟨_, -, hCheck⟩ := (mapM_mem hDone).1 n (mem_unbounded.mpr ⟨hNode, hBounded⟩)
    simp only [checkUnbounded, bind_eq_ok, okOr_ofText_eq_ok, mapError_eq_ok] at hCheck
    obtain ⟨id, hId, plan, hPlan, -⟩ := hCheck
    cases OpaqueId.text_injective (hId.trans hText)
    exact (DependencyGraph.resolve_ok_iff_resolves.mp ⟨plan, hPlan⟩).2 ⟨x, .refl, hCyclic⟩
  · intro hAcyclic
    refine mapM_succeeds fun n hn => ?_
    obtain ⟨id, hId⟩ := hNamed.key (mem_unbounded.mp hn).1
    have hResolves : DependencyGraph.Resolves graph id := by
      constructor
      · intro x hx
        cases hx with
        | refl =>
          obtain ⟨next, hNext⟩ := unboundedNext_succeeds hDistinct hNamed n
          exact ⟨next, (unboundedGraph_get? hDistinct hGraph).mpr ⟨n, hn, hId.symm, hNext⟩⟩
        | tail _ hEdge => exact hDeclared _ _ hEdge
      · rintro ⟨x, -, hCyclic⟩
        exact hAcyclic ⟨x, hCyclic⟩
    obtain ⟨plan, hPlan⟩ := DependencyGraph.resolve_ok_iff_resolves.mpr hResolves
    refine ⟨(), ?_⟩
    simp only [checkUnbounded, bind_eq_ok, okOr_ofText_eq_ok, mapError_eq_ok]
    exact ⟨id, hId, plan, hPlan, rfl⟩

/-- The graph that is left has no cycle exactly if every cycle of the definition passes through a
bounded loop. -/
theorem acyclic_iff_guarded (hNamed : w.Named)
    (hEnds : ∀ e ∈ w.edges, e.source ∈ w.nodes.map (·.id) ∧ e.target ∈ w.nodes.map (·.id)) :
    (¬ ∃ x, Cyclic graph.get? x) ↔
      ∀ path, IsCycle w.Step path → ∃ id ∈ path, w.Bounds id := by
  constructor
  · intro hAcyclic path hPath
    by_contra hFree
    have hUnbounded : ∀ id ∈ path, id ∈ w.nodes.map (·.id) → w.Unbounded id := by
      intro id hid hNode
      obtain ⟨n, hn, rfl⟩ := List.mem_map.mp hNode
      cases hBounded : n.bounded with
      | false => exact ⟨n, hn, rfl, hBounded⟩
      | true => exact absurd ⟨n.id, hid, n, hn, rfl, hBounded⟩ hFree
    have hLeft : IsCycle (fun a b => w.Step a b ∧ w.Unbounded a ∧ w.Unbounded b) path := by
      refine hPath.imp fun a ha b hb hStep => ?_
      obtain ⟨e, he, rfl, rfl⟩ := hStep
      exact ⟨⟨e, he, rfl, rfl⟩, hUnbounded _ ha (hEnds e he).1, hUnbounded _ hb (hEnds e he).2⟩
    obtain ⟨a, ha, hCycle⟩ := hLeft.transGen
    obtain ⟨b, ⟨-, ⟨n, hn, rfl, -⟩, -⟩, -⟩ := Relation.TransGen.head'_iff.mp hCycle
    obtain ⟨first, hFirst⟩ := hNamed.key hn
    -- each node of the cycle has a key of its own text
    have hKey : ∀ id, w.Unbounded id → ((OpaqueId.ofText? id).getD first).text = id := by
      rintro id ⟨n', hn', rfl, -⟩
      rw [OpaqueId.ofText?, dif_pos (hNamed n' hn')]
      rfl
    refine hAcyclic ⟨_, Relation.TransGen.lift (fun id => (OpaqueId.ofText? id).getD first)
      (fun a b hStep => ?_) _ _ hCycle⟩
    change Edge graph.get? _ _
    rw [unboundedGraph_edge hDistinct hGraph, hKey a hStep.2.1, hKey b hStep.2.2]
    exact hStep
  · rintro hGuarded ⟨x, hCyclic⟩
    have hCycle : Relation.TransGen
        (fun a b => w.Step a b ∧ w.Unbounded a ∧ w.Unbounded b) x.text x.text := by
      refine Relation.TransGen.lift OpaqueId.text (fun y z hEdge => ?_) _ _ hCyclic
      exact (unboundedGraph_edge hDistinct hGraph).mp hEdge
    obtain ⟨path, hPath, -⟩ := exists_isCycle hCycle
    obtain ⟨id, hid, n, hn, rfl, hBounded⟩ :=
      hGuarded path (hPath.imp fun a _ b _ hStep => hStep.1)
    obtain ⟨b, -, ⟨n', hn', hSame, hUnbounded⟩, -⟩ := hPath.exists_next hid
    rw [node_eq hDistinct hn' hn hSame, hBounded] at hUnbounded
    cases hUnbounded

end Graph

/-! ## The other checks -/

/-- The loop over the edges, with the pairs it saw before. -/
theorem checkEdges_ok {edges : List DocumentEdge} {seen : List (String × String)} :
    (∃ seen', edges.foldlM (checkEdge w) seen = .ok seen') ↔
      (∀ e ∈ edges, e.source ∈ w.nodes.map (·.id) ∧ e.target ∈ w.nodes.map (·.id)) ∧
      (∀ e ∈ edges, (e.source, e.condition) ∉ seen) ∧
      (edges.map fun e => (e.source, e.condition)).Nodup := by
  induction edges generalizing seen with
  | nil => simp
  | cons e edges ih =>
    simp only [List.foldlM_cons, bind_eq_ok, checkEdge, require_eq_ok, pure_eq_ok, exists_const]
    constructor
    · rintro ⟨seen', next, ⟨⟨hSource, hTarget, hNew⟩, rfl⟩, hRest⟩
      obtain ⟨hEnds, hFree, hNodup⟩ := ih.mp ⟨seen', hRest⟩
      have hOthers : ∀ e' ∈ edges, (e'.source, e'.condition) ∉ seen ∧
          (e'.source, e'.condition) ≠ (e.source, e.condition) := by
        intro e' he'
        have hOut := hFree e' he'
        rw [List.mem_append, not_or, List.mem_singleton] at hOut
        exact hOut
      refine ⟨List.forall_mem_cons.mpr ⟨⟨hSource, hTarget⟩, hEnds⟩,
        List.forall_mem_cons.mpr ⟨hNew, fun e' he' => (hOthers e' he').1⟩, ?_⟩
      rw [List.map_cons, List.nodup_cons]
      refine ⟨fun hMem => ?_, hNodup⟩
      obtain ⟨e', he', hSame⟩ := List.mem_map.mp hMem
      exact (hOthers e' he').2 hSame
    · rintro ⟨hEnds, hFree, hNodup⟩
      rw [List.map_cons, List.nodup_cons] at hNodup
      obtain ⟨⟨hSource, hTarget⟩, hEnds⟩ := List.forall_mem_cons.mp hEnds
      obtain ⟨hNew, hFree⟩ := List.forall_mem_cons.mp hFree
      have hOthers : ∀ e' ∈ edges,
          (e'.source, e'.condition) ∉ seen ++ [(e.source, e.condition)] := by
        intro e' he'
        rw [List.mem_append, not_or, List.mem_singleton]
        exact ⟨hFree e' he', fun hSame => hNodup.1 (List.mem_map.mpr ⟨e', he', hSame⟩)⟩
      obtain ⟨seen', hRest⟩ := ih.mpr ⟨hEnds, hOthers, hNodup.2⟩
      exact ⟨seen', _, ⟨⟨hSource, hTarget, hNew⟩, rfl⟩, hRest⟩

/-- A definition is accepted exactly if it is valid against its schema, has the digest of its
content, meets the clauses on handlers and actions, and is structured. The schema asks the
identifiers of nodes to be of the form of identifiers. -/
theorem validateWorkflow_exact {env : Env} {w : WorkflowDocument} {m : PluginManifest}
    (hSchema : env.schemaValid "WorkflowDefinition" w.toJson = true → w.Named) :
    validateWorkflow env w m = .ok () ↔
      env.schemaValid "WorkflowDefinition" w.toJson = true ∧
      (∃ content, env.canonicalBytes w.contentJson = some content ∧
        env.digestBytes content = w.digest) ∧
      (∀ a ∈ w.requiredActions, a ∈ m.requestedCapabilities) ∧
      (∀ n ∈ w.nodes, nodeValid m w n = true) ∧ w.Structured := by
  simp only [validateWorkflow, bind_eq_ok, require_eq_ok, okOr_eq_ok, exists_const, pure_eq_ok,
    and_true]
  constructor
  · rintro ⟨hValid, content, hContent, hDigest, ⟨hDistinct, hEntry⟩, hActions, hNodes, graph,
      hGraph, seen, hEdges, done, hDone⟩
    have hNamed := hSchema hValid
    obtain ⟨hEnds, -, hConditions⟩ := checkEdges_ok.mp ⟨seen, hEdges⟩
    refine ⟨hValid, ⟨content, hContent, hDigest⟩, hActions, hNodes, hDistinct, hEntry, hEnds,
      hConditions, ?_⟩
    exact (acyclic_iff_guarded hDistinct hGraph hNamed hEnds).mp
      ((unbounded_resolve_iff hDistinct hGraph hNamed).mp ⟨done, hDone⟩)
  · rintro ⟨hValid, ⟨content, hContent, hDigest⟩, hActions, hNodes, hStructured⟩
    have hNamed := hSchema hValid
    obtain ⟨graph, hGraph⟩ := addUnbounded_succeeds hStructured.distinct hNamed
    have hChecked : ∃ seen, w.edges.foldlM (checkEdge w) [] = .ok seen :=
      checkEdges_ok.mpr ⟨hStructured.ends, fun e _ hMem => (by cases hMem), hStructured.conditions⟩
    obtain ⟨seen, hEdges⟩ := hChecked
    obtain ⟨done, hDone⟩ := (unbounded_resolve_iff hStructured.distinct hGraph hNamed).mpr
      ((acyclic_iff_guarded hStructured.distinct hGraph hNamed hStructured.ends).mpr
        hStructured.guarded)
    exact ⟨hValid, content, hContent, hDigest, ⟨hStructured.distinct, hStructured.entry⟩, hActions,
      hNodes, graph, hGraph, seen, hEdges, done, hDone⟩

/-! ## A guarded loop -/

namespace Sample

/-- A node that waits and a bounded loop back to it. -/
def unsealedLoop : WorkflowDocument :=
  { unsealed with
    nodes := unsealed.nodes ++
      [{ id := "again", kind := "BOUNDED_LOOP", handlerId := none
         inputSchemaRef := storedRef 45 "schema", outputSchemaRef := storedRef 45 "schema"
         maxAttempts := 1, timeoutSeconds := 30, maxIterations := 3, onFailure := "FAIL" }]
    edges := [{ source := "wait", target := "again", condition := "TIMER_FIRED" },
      { source := "again", target := "wait", condition := "LOOP_CONTINUE" }] }

def loopDocument : WorkflowDocument :=
  { unsealedLoop with digest := digest (render unsealedLoop.contentJson).toUTF8.data.toList }

theorem loopDocument_valid : validateWorkflow env loopDocument reports = .ok () := by
  apply eq_ok_of_isOk
  delta loopDocument unsealedLoop unsealed
  rw [validateWorkflow_bytewise, env_bytewise, digest_bytewise, render_bytewise,
    Bytewise.WorkflowDocument.contentJson.2, byteStoredRef.2]
  decide +kernel

end Sample

theorem loopDocument_structured : Sample.loopDocument.Structured := by
  have hNamed : Sample.loopDocument.Named := by
    unfold WorkflowDocument.Named
    decide
  exact ((validateWorkflow_exact fun _ => hNamed).mp Sample.loopDocument_valid).2.2.2.2

end Masonwing
