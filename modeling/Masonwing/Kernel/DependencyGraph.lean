import Mathlib.Data.List.Perm.Subperm
import Masonwing.Contracts.Identifiers
import Masonwing.Lib.Outcome
import Masonwing.Lib.Table
import Masonwing.Lib.Topological

/-!
# The dependency graph

`DependencyGraph` of `crates/kernel/src/registry.rs`: a depth-first walk from a root that
returns the nodes below it, dependencies first. `resolve_ok_iff` says when it succeeds: exactly
if the root has a place in some topological order of the declared nodes.
-/

namespace Masonwing

open Outcome

inductive RegistryError where
  | dependencyCycle (path : List OpaqueId)
  | dependencyUnsatisfied (plugin : OpaqueId)
  deriving DecidableEq

/-- The declared nodes with their dependencies. -/
abbrev DependencyGraph := Table OpaqueId (List OpaqueId)

namespace DependencyGraph

/-- `insert`: a node that is declared again replaces its dependencies. -/
def insert (graph : DependencyGraph) (plugin : OpaqueId) (dependencies : List OpaqueId) :
    DependencyGraph := Table.upsert graph plugin dependencies

/-- `visit`, with the order as the set of visited nodes, since a node enters both at once. The
fuel bounds the length of `visiting`. -/
def visit (graph : DependencyGraph) :
    Nat → List OpaqueId → List OpaqueId → OpaqueId → Except RegistryError (List OpaqueId)
  | 0, visiting, _, plugin => .error (.dependencyCycle (visiting ++ [plugin]))
  | fuel + 1, visiting, order, plugin =>
    if plugin ∈ order then .ok order
    else if plugin ∈ visiting then
      .error (.dependencyCycle (visiting.dropWhile (fun current => current ≠ plugin) ++ [plugin]))
    else
      match graph.get? plugin with
      | none => .error (.dependencyUnsatisfied plugin)
      | some dependencies => do
        let order ← dependencies.foldlM (visit graph fuel (visiting ++ [plugin])) order
        return order ++ [plugin]

/-- No more nodes than the declared ones can be under way at once. -/
def resolve (graph : DependencyGraph) (root : OpaqueId) : Except RegistryError (List OpaqueId) :=
  visit graph (graph.rows.length + 1) [] [] root

variable {graph : DependencyGraph}

/-- One visit seen from outside: the node was done, or its dependencies and then the node itself
were added. -/
theorem visit_ok {fuel : Nat} {visiting order order' : List OpaqueId} {plugin : OpaqueId}
    (h : visit graph fuel visiting order plugin = .ok order') :
    (plugin ∈ order ∧ order' = order) ∨
      ∃ fuel' dependencies below, fuel = fuel' + 1 ∧ plugin ∉ order ∧ plugin ∉ visiting ∧
        graph.get? plugin = some dependencies ∧
        dependencies.foldlM (visit graph fuel' (visiting ++ [plugin])) order = .ok below ∧
        order' = below ++ [plugin] := by
  cases fuel with
  | zero => cases h
  | succ fuel =>
    rw [visit] at h
    split at h
    · rename_i hDone
      cases h
      exact Or.inl ⟨hDone, rfl⟩
    · rename_i hNew
      split at h
      · cases h
      · rename_i hFree
        split at h
        · cases h
        · rename_i dependencies hDeclared
          rw [bind_eq_ok] at h
          obtain ⟨below, hBelow, hOrder⟩ := h
          rw [pure_eq_ok] at hOrder
          exact Or.inr ⟨fuel, dependencies, below, rfl, hNew, hFree, hDeclared, hBelow,
            hOrder.symm⟩

/-- A visit only appends to the order. -/
theorem visit_mono {fuel : Nat} {visiting order order' : List OpaqueId} {plugin : OpaqueId}
    (h : visit graph fuel visiting order plugin = .ok order') :
    ∀ x ∈ order, x ∈ order' := by
  induction fuel generalizing visiting order order' plugin with
  | zero => cases h
  | succ fuel ih =>
    intro x hx
    rcases visit_ok h with ⟨-, rfl⟩ | ⟨fuel', dependencies, below, hFuel, -, -, -, hBelow, rfl⟩
    · exact hx
    · cases hFuel
      refine List.mem_append_left _ ?_
      exact foldlM_invariant (I := fun order => x ∈ order)
        (fun d _ c c' hc hStep => ih hStep x hc) hx hBelow

/-- Nothing that is still under way enters the order. -/
theorem visit_keeps_visiting {fuel : Nat} {visiting order order' : List OpaqueId}
    {plugin : OpaqueId} (h : visit graph fuel visiting order plugin = .ok order') :
    ∀ x ∈ visiting, x ∉ order → x ∉ order' := by
  induction fuel generalizing visiting order order' plugin with
  | zero => cases h
  | succ fuel ih =>
    intro x hx hNot
    rcases visit_ok h with
      ⟨-, rfl⟩ | ⟨fuel', dependencies, below, hFuel, -, hFree, -, hBelow, rfl⟩
    · exact hNot
    · cases hFuel
      have hStill : x ∉ below :=
        foldlM_invariant (I := fun order => x ∉ order)
          (fun d _ c c' hc hStep => ih hStep x (List.mem_append_left _ hx) hc) hNot hBelow
      rw [List.mem_append, List.mem_singleton]
      rintro (hBelow | rfl)
      · exact hStill hBelow
      · exact hFree hx

/-- A fold of visits has all of its nodes in the order it ends with. -/
theorem visits_mem {fuel : Nat} {visiting order order' dependencies : List OpaqueId}
    (hEach : ∀ d order order', visit graph fuel visiting order d = .ok order' → d ∈ order')
    (h : dependencies.foldlM (visit graph fuel visiting) order = .ok order') :
    ∀ d ∈ dependencies, d ∈ order' := by
  induction dependencies generalizing order with
  | nil =>
    intro d hd
    cases hd
  | cons e dependencies ih =>
    rw [List.foldlM_cons, bind_eq_ok] at h
    obtain ⟨next, hNext, hRest⟩ := h
    intro d hd
    rcases List.mem_cons.mp hd with rfl | hd
    · exact foldlM_invariant (I := fun order => d ∈ order)
        (fun x _ c c' hc hStep => visit_mono hStep d hc) (hEach d _ _ hNext) hRest
    · exact ih hRest d hd

theorem visit_mem {fuel : Nat} {visiting order order' : List OpaqueId} {plugin : OpaqueId}
    (h : visit graph fuel visiting order plugin = .ok order') : plugin ∈ order' := by
  rcases visit_ok h with ⟨hDone, rfl⟩ | ⟨_, _, below, -, -, -, -, -, rfl⟩
  · exact hDone
  · exact List.mem_append_right _ (List.mem_singleton.mpr rfl)

/-- A walk keeps the order topological. -/
theorem visit_topological {fuel : Nat} {visiting order order' : List OpaqueId}
    {plugin : OpaqueId} (hOrder : Topological graph.get? order)
    (h : visit graph fuel visiting order plugin = .ok order') :
    Topological graph.get? order' := by
  induction fuel generalizing visiting order order' plugin with
  | zero => cases h
  | succ fuel ih =>
    rcases visit_ok h with
      ⟨-, rfl⟩ | ⟨fuel', dependencies, below, hFuel, hNew, -, hDeclared, hBelow, rfl⟩
    · exact hOrder
    · cases hFuel
      have hTopological : Topological graph.get? below :=
        foldlM_invariant (fun d _ c c' hc hStep => ih hc hStep) hOrder hBelow
      have hOut : plugin ∉ below :=
        foldlM_invariant (I := fun order => plugin ∉ order)
          (fun d _ c c' hc hStep => visit_keeps_visiting hStep plugin
            (List.mem_append_right _ (List.mem_singleton.mpr rfl)) hc) hNew hBelow
      exact .snoc hTopological hDeclared (visits_mem (fun _ _ _ => visit_mem) hBelow) hOut

/-- A walk succeeds below a node of a topological order that none of the nodes under way is in;
the induction takes the order apart from its end. -/
theorem visit_succeeds {list : List OpaqueId} (hList : Topological graph.get? list)
    {plugin : OpaqueId} (hMem : plugin ∈ list) {fuel : Nat} (hFuel : list.length ≤ fuel)
    {visiting : List OpaqueId} (hFree : ∀ x ∈ visiting, x ∉ list) (order : List OpaqueId) :
    ∃ order', visit graph fuel visiting order plugin = .ok order' := by
  induction hList generalizing plugin fuel visiting order with
  | nil => cases hMem
  | @snoc list x next hList hDeclared hNext hNew ih =>
    rw [List.length_append, List.length_singleton] at hFuel
    rcases List.mem_append.mp hMem with hMem | hMem
    · exact ih hMem (by omega) (fun y hy hIn => hFree y hy (List.mem_append_left _ hIn)) order
    · rw [List.mem_singleton] at hMem
      subst hMem
      cases fuel with
      | zero => omega
      | succ fuel =>
        by_cases hDone : plugin ∈ order
        · exact ⟨order, by rw [visit, if_pos hDone]⟩
        · have hNotUnderWay : plugin ∉ visiting := fun hIn =>
            hFree plugin hIn (List.mem_append_right _ (List.mem_singleton.mpr rfl))
          have hBelow : ∃ below,
              next.foldlM (visit graph fuel (visiting ++ [plugin])) order = .ok below := by
            apply foldlM_succeeds
            intro current d hd
            refine ih (hNext d hd) (by omega) (fun y hy hIn => ?_) current
            rcases List.mem_append.mp hy with hy | hy
            · exact hFree y hy (List.mem_append_left _ hIn)
            · rw [List.mem_singleton] at hy
              exact hNew (hy ▸ hIn)
          obtain ⟨below, hBelow⟩ := hBelow
          refine ⟨below ++ [plugin], ?_⟩
          rw [visit, if_neg hDone, if_neg hNotUnderWay, hDeclared]
          simp only [hBelow]
          rfl

/-- A topological order has no more elements than there are declared nodes. -/
theorem length_le {list : List OpaqueId} (hList : Topological graph.get? list) :
    list.length ≤ graph.rows.length := by
  have hKeys : list ⊆ graph.keys := by
    intro x hx
    obtain ⟨next, hDeclared, -⟩ := hList.declared hx
    exact List.mem_map.mpr ⟨(x, next), Table.get?_eq_some_iff.mp hDeclared, rfl⟩
  have hLength := (List.Nodup.subperm hList.nodup hKeys).length_le
  rwa [Table.keys, List.length_map] at hLength

theorem resolve_topological {root : OpaqueId} {order : List OpaqueId}
    (h : resolve graph root = .ok order) : Topological graph.get? order ∧ root ∈ order :=
  ⟨visit_topological .nil h, visit_mem h⟩

/-- A root resolves exactly if some topological order of the declared nodes contains it. -/
theorem resolve_ok_iff {root : OpaqueId} :
    (∃ order, resolve graph root = .ok order) ↔
      ∃ list, Topological graph.get? list ∧ root ∈ list := by
  constructor
  · rintro ⟨order, h⟩
    exact ⟨order, resolve_topological h⟩
  · rintro ⟨list, hList, hMem⟩
    have hLength := length_le hList
    exact visit_succeeds hList hMem (by omega) (fun x hx => by cases hx) []

end DependencyGraph

end Masonwing
