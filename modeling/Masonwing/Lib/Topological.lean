import Mathlib.Data.List.Induction
import Mathlib.Data.List.Nodup

/-!
# Topological orders

A list is topological for a graph if every element is declared, occurs once and comes after all
of its successors. The rules below are the ones that a resolution of dependencies needs: an order
survives the removal of nodes together with the edges to them (`filter`), and an order can be
appended to another one, leaving out what is already there (`extend`).
-/

variable {κ : Type}

/-- The orders of a graph that declares the successors of some of its nodes. -/
inductive Topological (graph : κ → Option (List κ)) : List κ → Prop
  | nil : Topological graph []
  | snoc {order : List κ} {x : κ} {next : List κ} (hOrder : Topological graph order)
      (hDeclared : graph x = some next) (hNext : ∀ y ∈ next, y ∈ order) (hNew : x ∉ order) :
      Topological graph (order ++ [x])

namespace Topological

variable {graph graph' : κ → Option (List κ)} {order : List κ}

theorem nodup (h : Topological graph order) : order.Nodup := by
  induction h with
  | nil => exact List.nodup_nil
  | snoc hOrder hDeclared hNext hNew ih =>
    rw [List.nodup_append]
    refine ⟨ih, List.nodup_singleton _, ?_⟩
    rintro y hy z hz rfl
    rw [List.mem_singleton] at hz
    exact hNew (hz ▸ hy)

theorem declared (h : Topological graph order) {x : κ} (hx : x ∈ order) :
    ∃ next, graph x = some next ∧ ∀ y ∈ next, y ∈ order := by
  induction h with
  | nil => cases hx
  | snoc hOrder hDeclared hNext hNew ih =>
    rcases List.mem_append.mp hx with hx | hx
    · obtain ⟨next, hGraph, hMem⟩ := ih hx
      exact ⟨next, hGraph, fun y hy => List.mem_append_left _ (hMem y hy)⟩
    · rw [List.mem_singleton] at hx
      subst hx
      exact ⟨_, hDeclared, fun y hy => List.mem_append_left _ (hNext y hy)⟩

/-- Nodes may be removed with the edges to them. -/
theorem filter {keep : κ → Bool} (h : Topological graph order)
    (hKept : ∀ x next, keep x = true → graph x = some next →
      ∃ next', graph' x = some next' ∧ ∀ y ∈ next', y ∈ next ∧ keep y = true) :
    Topological graph' (order.filter keep) := by
  induction h with
  | nil => exact .nil
  | @snoc order x next hOrder hDeclared hNext hNew ih =>
    rw [List.filter_append]
    cases hx : keep x with
    | false =>
      rw [List.filter_cons_of_neg (by simp [hx]), List.filter_nil, List.append_nil]
      exact ih
    | true =>
      rw [List.filter_cons_of_pos hx, List.filter_nil]
      obtain ⟨next', hGraph, hMem⟩ := hKept x next hx hDeclared
      refine .snoc ih hGraph (fun y hy => ?_) fun hMem => hNew (List.mem_of_mem_filter hMem)
      obtain ⟨hy, hKeep⟩ := hMem y hy
      exact List.mem_filter.mpr ⟨hNext y hy, hKeep⟩

section Extend

variable [DecidableEq κ]

/-- Append the elements of a list that are not there yet. -/
def extend (order added : List κ) : List κ :=
  added.foldl (fun order x => if x ∈ order then order else order ++ [x]) order

theorem extend_concat (order added : List κ) (x : κ) :
    extend order (added ++ [x]) =
      if x ∈ extend order added then extend order added else extend order added ++ [x] := by
  rw [extend, List.foldl_concat]
  rfl

theorem mem_extend {added : List κ} {x : κ} : x ∈ extend order added ↔ x ∈ order ∨ x ∈ added := by
  induction added using List.reverseRecOn with
  | nil => simp [extend]
  | append_singleton added y ih =>
    rw [extend_concat]
    split
    · rename_i hy
      rw [ih, List.mem_append, List.mem_singleton]
      constructor
      · rintro (h | h)
        · exact Or.inl h
        · exact Or.inr (Or.inl h)
      · rintro (h | h | rfl)
        · exact Or.inl h
        · exact Or.inr h
        · exact ih.mp hy
    · rw [List.mem_append, ih, List.mem_append, or_assoc]

theorem extended {added : List κ} (h : Topological graph order) (hAdded : Topological graph added) :
    Topological graph (extend order added) := by
  induction hAdded with
  | nil => exact h
  | snoc hOrder hDeclared hNext hNew ih =>
    rw [extend_concat]
    split
    · exact ih
    · rename_i hx
      exact .snoc ih hDeclared (fun y hy => mem_extend.mpr (Or.inr (hNext y hy))) hx

end Extend

end Topological
