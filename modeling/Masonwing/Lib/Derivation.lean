import Mathlib.Data.Finset.Card
import Mathlib.Data.Finset.Dedup
import Mathlib.Data.Finset.Union
import Mathlib.Logic.Relation

/-!
# What is derived from an element

Reachability along a finite list of edges, computed in rounds: a round adds the targets of the
edges that leave the elements so far. As many rounds as there are edges are enough, so the result
is exactly what can be reached (`mem_rounds_length`); in particular it is closed under the edges
(`closed_rounds_length`).
-/

namespace Derivation

variable {α : Type} [DecidableEq α]

/-- There is an edge from `a` to `b`. -/
def Edge (edges : List (α × α)) (a b : α) : Prop := (a, b) ∈ edges

/-- `b` is derived from `a`, in any number of steps. -/
abbrev Derives (edges : List (α × α)) : α → α → Prop := Relation.ReflTransGen (Edge edges)

def Closed (edges : List (α × α)) (xs : List α) : Prop := ∀ a ∈ xs, ∀ b, Edge edges a b → b ∈ xs

/-- One round: the elements so far and the targets of their edges. -/
def once (edges : List (α × α)) (xs : List α) : List α :=
  (xs ++ (edges.filter fun e => xs.contains e.1).map Prod.snd).dedup

def rounds (edges : List (α × α)) : Nat → List α → List α
  | 0, xs => xs
  | n + 1, xs => rounds edges n (once edges xs)

variable {edges : List (α × α)} {xs : List α}

theorem mem_once {b : α} : b ∈ once edges xs ↔ b ∈ xs ∨ ∃ a ∈ xs, Edge edges a b := by
  simp only [once, List.mem_dedup, List.mem_append, List.mem_map, List.mem_filter,
    List.contains_iff_mem, Prod.exists]
  refine or_congr_right ⟨?_, ?_⟩
  · rintro ⟨a, c, ⟨hEdge, ha⟩, rfl⟩
    exact ⟨a, ha, hEdge⟩
  · rintro ⟨a, ha, hEdge⟩
    exact ⟨a, b, ⟨hEdge, ha⟩, rfl⟩

theorem mem_rounds_of_mem (n : Nat) {a : α} (h : a ∈ xs) : a ∈ rounds edges n xs := by
  induction n generalizing xs with
  | zero => exact h
  | succ n ih => exact ih (mem_once.mpr (Or.inl h))

/-- What the rounds collect is derived from what they start with. -/
theorem derives_of_mem_rounds {n : Nat} {b : α} (h : b ∈ rounds edges n xs) :
    ∃ a ∈ xs, Derives edges a b := by
  induction n generalizing xs with
  | zero => exact ⟨b, h, .refl⟩
  | succ n ih =>
    obtain ⟨c, hc, hPath⟩ := ih h
    rcases mem_once.mp hc with hc | ⟨a, ha, hEdge⟩
    · exact ⟨c, hc, hPath⟩
    · exact ⟨a, ha, .head hEdge hPath⟩

omit [DecidableEq α] in
theorem Closed.derives {a b : α} (h : Closed edges xs) (ha : a ∈ xs) (hPath : Derives edges a b) :
    b ∈ xs := by
  induction hPath with
  | refl => exact ha
  | tail _ hEdge ih => exact h _ ih _ hEdge

theorem Closed.rounds (h : Closed edges xs) (n : Nat) : Closed edges (rounds edges n xs) := by
  induction n generalizing xs with
  | zero => exact h
  | succ n ih =>
    refine ih fun a ha b hEdge => ?_
    rcases mem_once.mp ha with ha | ⟨c, hc, hFirst⟩
    · exact mem_once.mpr (Or.inr ⟨a, ha, hEdge⟩)
    · exact mem_once.mpr (Or.inr ⟨a, h c hc a hFirst, hEdge⟩)

/-- Every round that is still needed adds an element. -/
theorem closed_or_card_le (n : Nat) (xs : List α) : Closed edges (rounds edges n xs) ∨
    n + xs.toFinset.card ≤ (rounds edges n xs).toFinset.card := by
  induction n generalizing xs with
  | zero => exact Or.inr (by simp [rounds])
  | succ n ih =>
    by_cases hClosed : Closed edges xs
    · exact Or.inl (hClosed.rounds (n + 1))
    · refine (ih (once edges xs)).imp_right fun hCard => ?_
      have hGrows : xs.toFinset.card < (once edges xs).toFinset.card := by
        refine Finset.card_lt_card ⟨fun a ha => ?_, fun hSub => hClosed fun a ha b hEdge => ?_⟩
        · exact List.mem_toFinset.mpr (mem_once.mpr (Or.inl (List.mem_toFinset.mp ha)))
        · have hb : b ∈ once edges xs := mem_once.mpr (Or.inr ⟨a, ha, hEdge⟩)
          exact List.mem_toFinset.mp (hSub (List.mem_toFinset.mpr hb))
      change n + 1 + xs.toFinset.card ≤ (rounds edges n (once edges xs)).toFinset.card
      omega

/-- As many rounds as there are edges leave nothing to add. -/
theorem closed_rounds_length (edges : List (α × α)) (a : α) :
    Closed edges (rounds edges edges.length [a]) := by
  have hRounds : Closed edges (rounds edges edges.length [a]) ∨
      edges.length + [a].toFinset.card ≤ (rounds edges edges.length [a]).toFinset.card :=
    closed_or_card_le edges.length [a]
  rcases hRounds with hClosed | hCard
  · exact hClosed
  -- otherwise every target of an edge was collected
  · have hBound : (rounds edges edges.length [a]).toFinset ⊆
        insert a (edges.map Prod.snd).toFinset := by
      intro b hb
      obtain ⟨c, hc, hPath⟩ := derives_of_mem_rounds (List.mem_toFinset.mp hb)
      rw [List.mem_singleton] at hc
      subst hc
      rcases Relation.ReflTransGen.cases_tail hPath with rfl | ⟨d, -, hEdge⟩
      · exact Finset.mem_insert_self _ _
      · exact Finset.mem_insert_of_mem (List.mem_toFinset.mpr (List.mem_map.mpr ⟨_, hEdge, rfl⟩))
    have hTargets : (insert a (edges.map Prod.snd).toFinset).card ≤ edges.length + 1 := by
      refine (Finset.card_insert_le _ _).trans (Nat.add_le_add_right ?_ 1)
      exact (List.toFinset_card_le _).trans (by rw [List.length_map])
    have hAll : (rounds edges edges.length [a]).toFinset =
        insert a (edges.map Prod.snd).toFinset := by
      refine Finset.eq_of_subset_of_card_le hBound (hTargets.trans ?_)
      simpa using hCard
    intro c _ b hEdge
    rw [← List.mem_toFinset, hAll]
    exact Finset.mem_insert_of_mem (List.mem_toFinset.mpr (List.mem_map.mpr ⟨_, hEdge, rfl⟩))

theorem mem_rounds_length {a b : α} :
    b ∈ rounds edges edges.length [a] ↔ Derives edges a b := by
  constructor
  · intro hb
    obtain ⟨c, hc, hPath⟩ := derives_of_mem_rounds hb
    rw [List.mem_singleton] at hc
    subst hc
    exact hPath
  · intro hPath
    exact (closed_rounds_length edges a).derives
      (mem_rounds_of_mem _ (List.mem_singleton_self a)) hPath

end Derivation
