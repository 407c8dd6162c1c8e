import Mathlib.Data.List.Chain
import Mathlib.Logic.Relation
import Masonwing.Lib.Outcome
import Masonwing.Lib.Topological

/-!
# What is reached in a declared graph

The edges of a graph that declares the successors of some of its nodes, and what a topological order
says about them: it is closed, it has no cycle, and each element has all of its successors before
it (`Topological.before`).
-/

namespace Topological

variable {κ : Type} {graph : κ → Option (List κ)}

/-- A declared edge. -/
def Edge (graph : κ → Option (List κ)) (x y : κ) : Prop := ∃ next, graph x = some next ∧ y ∈ next

/-- There is a path, possibly of no edges. -/
def Reaches (graph : κ → Option (List κ)) : κ → κ → Prop := Relation.ReflTransGen (Edge graph)

/-- There is a path of at least one edge back to the node. -/
def Cyclic (graph : κ → Option (List κ)) (x : κ) : Prop := Relation.TransGen (Edge graph) x x

/-! ## Cycles of a relation -/

section Cycles

variable {r s : κ → κ → Prop} {path : List κ}

/-- A closed path of at least one edge. -/
structure IsCycle (r : κ → κ → Prop) (path : List κ) : Prop where
  length : 2 ≤ path.length
  ends : path.head? = path.getLast?
  edges : path.IsChain r

theorem IsCycle.imp (h : IsCycle r path) (hImp : ∀ x ∈ path, ∀ y ∈ path, r x y → s x y) :
    IsCycle s path :=
  ⟨h.length, h.ends, h.edges.imp_of_mem_imp fun x y hx hy => hImp x hx y hy⟩

/-- A cycle leads on from each of its nodes. -/
theorem IsCycle.exists_next (h : IsCycle r path) {x : κ} (hx : x ∈ path) : ∃ y, r x y := by
  obtain ⟨hLength, hEnds, hEdges⟩ := h
  obtain ⟨start, rest, rfl⟩ := List.append_of_mem hx
  cases rest with
  | cons y rest => exact ⟨y, (List.isChain_cons_cons.mp hEdges.right_of_append).1⟩
  | nil =>
    -- the last node is the first one
    rw [List.getLast?_concat] at hEnds
    match start with
    | [] => exact absurd hLength (by simp)
    | [z] =>
      cases hEnds
      exact ⟨x, (List.isChain_cons_cons.mp hEdges).1⟩
    | z :: y :: start =>
      cases hEnds
      exact ⟨y, (List.isChain_cons_cons.mp hEdges).1⟩

theorem IsCycle.transGen (h : IsCycle r path) : ∃ x ∈ path, Relation.TransGen r x x := by
  obtain ⟨hLength, hEnds, hEdges⟩ := h
  match path with
  | [] => exact absurd hLength (by simp)
  | [_] => exact absurd hLength (by simp)
  | x :: y :: rest =>
    obtain ⟨hEdge, hRest⟩ := List.isChain_cons_cons.mp hEdges
    have hLast : (y :: rest).getLast (List.cons_ne_nil y rest) = x := by
      rw [List.head?_cons, List.getLast?_cons_cons,
        List.getLast?_eq_some_getLast (List.cons_ne_nil y rest)] at hEnds
      exact (Option.some.inj hEnds).symm
    have hBack := List.relationReflTransGen_of_exists_isChain_cons rest hRest hLast
    exact ⟨x, List.mem_cons_self, Relation.TransGen.head' hEdge hBack⟩

theorem exists_isCycle {x : κ} (h : Relation.TransGen r x x) : ∃ path, IsCycle r path ∧ x ∈ path := by
  obtain ⟨y, hEdge, hBack⟩ := Relation.TransGen.head'_iff.mp h
  obtain ⟨rest, hRest, hLast⟩ := List.exists_isChain_cons_of_relationReflTransGen hBack
  refine ⟨x :: y :: rest, ⟨by simp, ?_, List.isChain_cons_cons.mpr ⟨hEdge, hRest⟩⟩,
    List.mem_cons_self⟩
  rw [List.head?_cons, List.getLast?_cons_cons,
    List.getLast?_eq_some_getLast (List.cons_ne_nil y rest), hLast]

end Cycles

/-! ## Orders -/

variable {order : List κ}

theorem edge_mem (h : Topological graph order) {x y : κ} (hx : x ∈ order) (hEdge : Edge graph x y) :
    y ∈ order := by
  obtain ⟨next, hGraph, hNext⟩ := h.declared hx
  obtain ⟨next', hGraph', hy⟩ := hEdge
  cases hGraph.symm.trans hGraph'
  exact hNext y hy

theorem reaches_mem (h : Topological graph order) {x y : κ} (hx : x ∈ order)
    (hReaches : Reaches graph x y) : y ∈ order := by
  induction hReaches with
  | refl => exact hx
  | tail _ hEdge ih => exact h.edge_mem ih hEdge

theorem acyclic (h : Topological graph order) {x : κ} (hx : x ∈ order) : ¬ Cyclic graph x := by
  induction h with
  | nil => cases hx
  | @snoc order last next hOrder hDeclared hNext hNew ih =>
    intro hCycle
    rcases List.mem_append.mp hx with hx | hx
    · exact ih hx hCycle
    · rw [List.mem_singleton] at hx
      subst hx
      -- the first edge leads into the order before the node, which is closed
      obtain ⟨y, ⟨next', hGraph, hy⟩, hBack⟩ := Relation.TransGen.head'_iff.mp hCycle
      cases hDeclared.symm.trans hGraph
      exact hNew (hOrder.reaches_mem (hNext y hy) hBack)

/-- All successors of an element come before it. -/
theorem before (h : Topological graph order) {start rest : List κ} {x y : κ}
    (hSplit : order = start ++ x :: rest) (hEdge : Edge graph x y) : y ∈ start := by
  induction h generalizing rest with
  | nil => cases start <;> cases hSplit
  | @snoc order last next hOrder hDeclared hNext hNew ih =>
    rcases List.eq_nil_or_concat rest with rfl | ⟨rest, z, rfl⟩
    · obtain ⟨rfl, hLast⟩ := List.append_inj' hSplit rfl
      cases hLast
      obtain ⟨next', hGraph, hy⟩ := hEdge
      cases hDeclared.symm.trans hGraph
      exact hNext y hy
    · rw [List.concat_eq_append, ← List.cons_append, ← List.append_assoc] at hSplit
      exact ih (List.append_inj' hSplit rfl).1

end Topological
