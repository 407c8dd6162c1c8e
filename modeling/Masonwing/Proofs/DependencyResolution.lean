import Masonwing.Kernel.InstallRegistry
import Masonwing.Lib.Reachability

/-!
# Dependency resolution is exact

The walk of `DependencyGraph.visit` keeps the nodes under way on a path of the graph from the root.
So an error tells the truth (`visit_error`): it carries a cycle of that path, or a node that the
path reaches and the graph does not declare. The nodes under way are different and declared, which
bounds how deep the walk goes (`visit_fuel`).

* `resolve_exact`: when the resolution of a root succeeds, what it returns then, and what it says
  otherwise, with what an installation does in both cases.
-/

namespace Masonwing

open Outcome Topological

namespace DependencyGraph

variable {graph : DependencyGraph} {root plugin : OpaqueId} {visiting order : List OpaqueId}

/-! ## The nodes under way -/

/-- The nodes under way when a node is visited: different declared nodes on a path from the root
that goes on to the node. -/
structure UnderWay (graph : DependencyGraph) (root : OpaqueId) (visiting : List OpaqueId)
    (plugin : OpaqueId) : Prop where
  path : (visiting ++ [plugin]).IsChain (Edge graph.get?)
  reached : ∀ x ∈ visiting ++ [plugin], Reaches graph.get? root x
  nodup : visiting.Nodup
  declared : ∀ x ∈ visiting, ∃ next, graph.get? x = some next

theorem UnderWay.start (graph : DependencyGraph) (root : OpaqueId) :
    UnderWay graph root [] root :=
  ⟨List.isChain_singleton root, fun x hx => by
    rw [List.nil_append, List.mem_singleton] at hx
    rw [hx]
    exact .refl, List.nodup_nil, fun x hx => (by cases hx)⟩

theorem UnderWay.length_le (h : UnderWay graph root visiting plugin) :
    visiting.length ≤ graph.rows.length := by
  have hKeys : visiting ⊆ graph.keys := by
    intro x hx
    obtain ⟨next, hDeclared⟩ := h.declared x hx
    exact List.mem_map.mpr ⟨(x, next), Table.get?_eq_some_iff.mp hDeclared, rfl⟩
  have hLength := (List.Nodup.subperm h.nodup hKeys).length_le
  rwa [Table.keys, List.length_map] at hLength

/-- On to one of the dependencies. -/
theorem UnderWay.step (h : UnderWay graph root visiting plugin) (hNew : plugin ∉ visiting)
    {dependencies : List OpaqueId} (hDeclared : graph.get? plugin = some dependencies)
    {d : OpaqueId} (hd : d ∈ dependencies) : UnderWay graph root (visiting ++ [plugin]) d := by
  have hEdge : Edge graph.get? plugin d := ⟨dependencies, hDeclared, hd⟩
  constructor
  · refine h.path.append (List.isChain_singleton d) fun x hx y hy => ?_
    rw [List.getLast?_concat, Option.mem_some_iff] at hx
    rw [List.head?_cons, Option.mem_some_iff] at hy
    rw [← hx, ← hy]
    exact hEdge
  · intro x hx
    rcases List.mem_append.mp hx with hx | hx
    · exact h.reached x hx
    · rw [List.mem_singleton] at hx
      rw [hx]
      exact (h.reached plugin (List.mem_append_right _ (List.mem_singleton.mpr rfl))).tail hEdge
  · exact List.nodup_append.mpr ⟨h.nodup, List.nodup_singleton _, fun x hx y hy hSame => by
      rw [List.mem_singleton] at hy
      exact hNew (hy ▸ hSame ▸ hx)⟩
  · intro x hx
    rcases List.mem_append.mp hx with hx | hx
    · exact h.declared x hx
    · rw [List.mem_singleton] at hx
      rw [hx]
      exact ⟨dependencies, hDeclared⟩

/-! ## Errors -/

/-- An error says what is wrong below the root. -/
inductive Genuine (graph : DependencyGraph) (root : OpaqueId) : RegistryError → Prop
  | cycle {path : List OpaqueId} (hCycle : IsCycle (Edge graph.get?) path)
      (hReached : ∀ x ∈ path, Reaches graph.get? root x) :
      Genuine graph root (.dependencyCycle path)
  | undeclared {x : OpaqueId} (hReached : Reaches graph.get? root x)
      (hNone : graph.get? x = none) : Genuine graph root (.dependencyUnsatisfied x)

/-- A node that is visited again while it is under way closes a cycle. -/
theorem UnderWay.genuine (h : UnderWay graph root visiting plugin) (hAgain : plugin ∈ visiting) :
    Genuine graph root
      (.dependencyCycle (visiting.dropWhile (fun current => current ≠ plugin) ++ [plugin])) := by
  obtain ⟨start, rest, hSplit, hStart⟩ := List.eq_append_cons_of_mem hAgain
  have hDropped : visiting.dropWhile (fun current => current ≠ plugin) = plugin :: rest := by
    rw [hSplit, List.dropWhile_append_of_pos, List.dropWhile_cons_of_neg]
    · simp
    · intro x hx
      exact decide_eq_true fun hSame => hStart (hSame ▸ hx)
  have hSuffix : (plugin :: rest) ++ [plugin] <:+ visiting ++ [plugin] := by
    rw [hSplit, List.append_assoc]
    exact List.suffix_append _ _
  rw [hDropped]
  refine .cycle ⟨?_, ?_, h.path.suffix hSuffix⟩ fun x hx => h.reached x (hSuffix.subset hx)
  · simp
  · rw [List.getLast?_concat]
    rfl

/-- An error of a walk is genuine; the induction is on the fuel, which the nodes under way leave. -/
theorem visit_error {fuel : Nat} {e : RegistryError} (hUnderWay : UnderWay graph root visiting plugin)
    (hFuel : graph.rows.length + 1 ≤ fuel + visiting.length)
    (h : visit graph fuel visiting order plugin = .error e) : Genuine graph root e := by
  induction fuel generalizing visiting order plugin with
  | zero =>
    have hLength := hUnderWay.length_le
    omega
  | succ fuel ih =>
    rw [visit] at h
    split at h
    · cases h
    split at h
    · rename_i hAgain
      cases h
      exact hUnderWay.genuine hAgain
    rename_i hNew
    split at h
    · rename_i hNone
      cases h
      exact .undeclared (hUnderWay.reached plugin
        (List.mem_append_right _ (List.mem_singleton.mpr rfl))) hNone
    · rename_i dependencies hDeclared
      rw [bind_eq_error] at h
      rcases h with h | ⟨_, -, h⟩
      · obtain ⟨c, d, hd, hError⟩ := foldlM_error h
        refine ih (hUnderWay.step hNew hDeclared hd) ?_ hError
        rw [List.length_append, List.length_singleton]
        omega
      · cases h

/-- More fuel changes nothing. -/
theorem visit_fuel {fuel : Nat} (hUnderWay : UnderWay graph root visiting plugin)
    (hFuel : graph.rows.length + 1 ≤ fuel + visiting.length) (order : List OpaqueId) :
    visit graph (fuel + 1) visiting order plugin = visit graph fuel visiting order plugin := by
  induction fuel generalizing visiting order plugin with
  | zero =>
    have hLength := hUnderWay.length_le
    omega
  | succ fuel ih =>
    rw [visit, visit]
    split
    · rfl
    split
    · rfl
    rename_i hNew
    split
    · rfl
    · rename_i dependencies hDeclared
      congr 1
      refine foldlM_congr (fun c d hd => ?_) order
      refine ih (hUnderWay.step hNew hDeclared hd) ?_ c
      rw [List.length_append, List.length_singleton]
      omega

theorem visit_enough {fuel : Nat} (hFuel : graph.rows.length + 1 ≤ fuel) :
    visit graph fuel [] [] root = resolve graph root := by
  induction fuel, hFuel using Nat.le_induction with
  | base => rfl
  | succ fuel hFuel ih =>
    rw [visit_fuel (.start graph root) (by simpa using hFuel)]
    exact ih

/-! ## Plans -/

/-- Only what is reached enters the order. -/
theorem visit_reached {fuel : Nat} {order' : List OpaqueId}
    (h : visit graph fuel visiting order plugin = .ok order') :
    ∀ x ∈ order', x ∈ order ∨ Reaches graph.get? plugin x := by
  induction fuel generalizing visiting order order' plugin with
  | zero => cases h
  | succ fuel ih =>
    rcases visit_ok h with ⟨-, rfl⟩ | ⟨_, dependencies, below, hFuel, -, -, hDeclared, hBelow, rfl⟩
    · exact fun x hx => Or.inl hx
    · cases hFuel
      have hReached : ∀ x ∈ below, x ∈ order ∨ Reaches graph.get? plugin x := by
        refine foldlM_invariant (I := fun c => ∀ x ∈ c, x ∈ order ∨ Reaches graph.get? plugin x)
          (fun d hd c c' hc hStep x hx => ?_) (fun x hx => Or.inl hx) hBelow
        rcases ih hStep x hx with hx | hx
        · exact hc x hx
        · exact Or.inr (Relation.ReflTransGen.head ⟨dependencies, hDeclared, hd⟩ hx)
      intro x hx
      rcases List.mem_append.mp hx with hx | hx
      · exact hReached x hx
      · rw [List.mem_singleton] at hx
        rw [hx]
        exact Or.inr .refl

/-- A plan has each node below the root once, after all of its dependencies, and the root last. -/
structure Plan (graph : DependencyGraph) (root : OpaqueId) (plan : List OpaqueId) : Prop where
  nodup : plan.Nodup
  mem : ∀ x, x ∈ plan ↔ Reaches graph.get? root x
  before : ∀ start x rest, plan = start ++ x :: rest → ∀ d, Edge graph.get? x d → d ∈ start
  last : plan.getLast? = some root

theorem resolve_plan {plan : List OpaqueId} (h : resolve graph root = .ok plan) :
    Plan graph root plan := by
  obtain ⟨hOrder, hRoot⟩ := resolve_topological h
  refine ⟨hOrder.nodup, fun x => ⟨fun hx => ?_, fun hx => hOrder.reaches_mem hRoot hx⟩,
    fun start x rest hSplit d hd => hOrder.before hSplit hd, ?_⟩
  · rcases visit_reached h x hx with hx | hx
    · cases hx
    · exact hx
  · rcases visit_ok h with ⟨hDone, -⟩ | ⟨_, dependencies, below, -, -, -, -, -, rfl⟩
    · cases hDone
    · exact List.getLast?_concat

/-- Everything below the root is declared, and nothing there is on a cycle. -/
def Resolves (graph : DependencyGraph) (root : OpaqueId) : Prop :=
  (∀ x, Reaches graph.get? root x → ∃ next, graph.get? x = some next) ∧
    ¬ ∃ x, Reaches graph.get? root x ∧ Cyclic graph.get? x

theorem resolve_ok_iff_resolves : (∃ plan, resolve graph root = .ok plan) ↔ Resolves graph root := by
  constructor
  · rintro ⟨plan, h⟩
    obtain ⟨hOrder, hRoot⟩ := resolve_topological h
    constructor
    · intro x hx
      obtain ⟨next, hDeclared, -⟩ := hOrder.declared (hOrder.reaches_mem hRoot hx)
      exact ⟨next, hDeclared⟩
    · rintro ⟨x, hx, hCycle⟩
      exact hOrder.acyclic (hOrder.reaches_mem hRoot hx) hCycle
  · rintro ⟨hDeclared, hAcyclic⟩
    cases h : resolve graph root with
    | ok plan => exact ⟨plan, rfl⟩
    | error e =>
      exfalso
      cases visit_error (.start graph root) (by simp) h with
      | cycle hCycle hReached =>
        obtain ⟨x, hx, hCyclic⟩ := hCycle.transGen
        exact hAcyclic ⟨x, hReached x hx, hCyclic⟩
      | undeclared hReached hNone =>
        obtain ⟨next, hNext⟩ := hDeclared _ hReached
        cases hNone.symm.trans hNext

end DependencyGraph

/-! ## Resolution and installation -/

open DependencyGraph

/-- The resolution of a root ends, whatever fuel above the number of declared nodes it is given; it
succeeds exactly if everything below the root is declared and no cycle is there; then it returns the
plan; an error is genuine; and an installation migrates the nodes of the plan in its order, each
once, or does nothing. -/
theorem resolve_exact (graph : DependencyGraph) (root : OpaqueId) :
    (∀ fuel, graph.rows.length + 1 ≤ fuel →
      visit graph fuel [] [] root = resolve graph root) ∧
    ((∃ plan, resolve graph root = .ok plan) ↔ Resolves graph root) ∧
    (∀ plan, resolve graph root = .ok plan → Plan graph root plan ∧
      ∀ {σ : Type} (registry : InstallRegistry) (migrate : σ → OpaqueId → σ) (s : σ),
        registry.installWithMigration graph root migrate s =
          (({ installed := registry.installed ∪ plan.toFinset }, plan.foldl migrate s), .ok plan)) ∧
    (∀ e, resolve graph root = .error e → Genuine graph root e ∧
      ∀ {σ : Type} (registry : InstallRegistry) (migrate : σ → OpaqueId → σ) (s : σ),
        registry.installWithMigration graph root migrate s = ((registry, s), .error e)) := by
  refine ⟨fun fuel hFuel => visit_enough hFuel, resolve_ok_iff_resolves, fun plan h => ?_,
    fun e h => ?_⟩
  · refine ⟨resolve_plan h, fun registry migrate s => ?_⟩
    rw [InstallRegistry.installWithMigration, h]
  · refine ⟨visit_error (.start graph root) (by simp) h, fun registry migrate s => ?_⟩
    rw [InstallRegistry.installWithMigration, h]

end Masonwing
