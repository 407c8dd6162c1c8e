import Mathlib.Algebra.GroupWithZero.Nat
import Mathlib.Data.List.TakeDrop

/-!
# Texts with a number in front

A number padded with zeros, and the first split of a text at a separator. The padded number holds
no separator and determines the number, so a text built from both is read back in one way only.
Numbers of at most the padded width are ordered as their texts are (`padded_precedes`).
-/

namespace Text

/-- The part before and the part after the first separator. -/
def splitOnce (separator : Char) (text : String) : Option (String × String) :=
  match text.toList.span fun c => decide (c ≠ separator) with
  | (_, []) => none
  | (before, _ :: after) => some (String.ofList before, String.ofList after)

theorem splitOnce_append {separator : Char} {before after : String}
    (h : separator ∉ before.toList) :
    splitOnce separator (before ++ String.singleton separator ++ after) = some (before, after) := by
  have hSpan : (before.toList ++ separator :: after.toList).span (fun c => decide (c ≠ separator)) =
      (before.toList, separator :: after.toList) := by
    rw [List.span_eq_takeWhile_dropWhile, Prod.mk.injEq]
    have hBefore : ∀ c ∈ before.toList, decide (c ≠ separator) = true := by
      intro c hc
      rw [decide_eq_true_eq]
      rintro rfl
      exact h hc
    constructor
    · rw [List.takeWhile_append_of_pos hBefore, List.takeWhile_cons_of_neg (by simp),
        List.append_nil]
    · rw [List.dropWhile_append_of_pos hBefore, List.dropWhile_cons_of_neg (by simp)]
  have hText : (before ++ String.singleton separator ++ after).toList =
      before.toList ++ separator :: after.toList := by
    simp [String.toList_append]
  rw [splitOnce, hText, hSpan]
  simp

/-- What stands before the first separator is found again in every continuation. -/
theorem append_cons_prefix_iff {α : Type} {c : α} {xs ys s t : List α} (hx : c ∉ xs) (hy : c ∉ ys) :
    xs ++ c :: s <+: ys ++ c :: t ↔ xs = ys ∧ s <+: t := by
  induction xs generalizing ys with
  | nil =>
    cases ys with
    | nil => simp [List.cons_prefix_cons]
    | cons y ys =>
      rw [List.nil_append, List.cons_append, List.cons_prefix_cons]
      constructor
      · rintro ⟨rfl, -⟩
        exact absurd List.mem_cons_self hy
      · rintro ⟨hNil, -⟩
        cases hNil
  | cons x xs ih =>
    cases ys with
    | nil =>
      rw [List.nil_append, List.cons_append, List.cons_prefix_cons]
      constructor
      · rintro ⟨rfl, -⟩
        exact absurd List.mem_cons_self hx
      · rintro ⟨hNil, -⟩
        cases hNil
    | cons y ys =>
      rw [List.cons_append, List.cons_append, List.cons_prefix_cons,
        ih (fun h => hx (List.mem_cons_of_mem _ h)) (fun h => hy (List.mem_cons_of_mem _ h)),
        List.cons.injEq, and_assoc]

/-- A number in decimal digits, filled up with zeros to a width. -/
def padded (width n : Nat) : String := String.ofList ((Nat.toDigits 10 n).leftpad width '0')

theorem isDigit_of_mem_padded {width n : Nat} {c : Char} (h : c ∈ (padded width n).toList) :
    c.isDigit = true := by
  rw [padded, String.toList_ofList, List.leftpad, List.mem_append] at h
  rcases h with h | h
  · rw [(List.mem_replicate.mp h).2]
    rfl
  · exact Nat.isDigit_of_mem_toDigits (by omega) (by omega) h

theorem padded_injective {width n m : Nat} (h : padded width n = padded width m) : n = m := by
  have hValue : ∀ k, Nat.ofDigitChars 10 ((Nat.toDigits 10 k).leftpad width '0') 0 = k := by
    intro k
    rw [List.leftpad, Nat.ofDigitChars_append, Nat.ofDigitChars_replicate_zero, Nat.mul_zero,
      Nat.ofDigitChars_ten_toDigits]
  have hDigits : (Nat.toDigits 10 n).leftpad width '0' = (Nat.toDigits 10 m).leftpad width '0' :=
    String.ofList_injective h
  rw [← hValue n, hDigits, hValue m]

/-! ## Order -/

section Order

variable {α : Type} [LT α]

/-- At the first place where the two differ, both go on and the first one is smaller, so that
nothing behind that place can change their order. -/
def Precedes (xs ys : List α) : Prop :=
  ∃ start x y xs' ys', xs = start ++ x :: xs' ∧ ys = start ++ y :: ys' ∧ x < y

theorem Precedes.head {x y : α} (h : x < y) (xs ys : List α) : Precedes (x :: xs) (y :: ys) :=
  ⟨[], x, y, xs, ys, rfl, rfl, h⟩

theorem Precedes.append_left {xs ys : List α} (start : List α) (h : Precedes xs ys) :
    Precedes (start ++ xs) (start ++ ys) := by
  obtain ⟨first, x, y, xs', ys', rfl, rfl, hLess⟩ := h
  exact ⟨start ++ first, x, y, xs', ys', (List.append_assoc _ _ _).symm,
    (List.append_assoc _ _ _).symm, hLess⟩

theorem Precedes.append {xs ys : List α} (h : Precedes xs ys) (s t : List α) :
    Precedes (xs ++ s) (ys ++ t) := by
  obtain ⟨start, x, y, xs', ys', rfl, rfl, hLess⟩ := h
  exact ⟨start, x, y, xs' ++ s, ys' ++ t, List.append_assoc _ _ _, List.append_assoc _ _ _, hLess⟩

theorem Precedes.lt {xs ys : List α} (h : Precedes xs ys) : xs < ys := by
  obtain ⟨start, x, y, xs', ys', rfl, rfl, hLess⟩ := h
  exact List.append_left_lt (List.cons_lt_cons_iff.mpr (Or.inl hLess))

end Order

theorem digitChar_lt {a b : Nat} (hb : b < 10) (h : a < b) : Nat.digitChar a < Nat.digitChar b := by
  revert h a
  revert b
  decide

theorem padded_one {n : Nat} (hn : n < 10) : (padded 1 n).toList = [Nat.digitChar n] := by
  rw [padded, String.toList_ofList, Nat.toDigits_of_lt_base hn]
  rfl

/-- The last digit stands behind the padded rest. -/
theorem padded_succ {width : Nat} (hWidth : 0 < width) (n : Nat) :
    (padded (width + 1) n).toList = (padded width (n / 10)).toList ++ [Nat.digitChar (n % 10)] := by
  simp only [padded, String.toList_ofList, List.leftpad]
  by_cases hSmall : n < 10
  · rw [Nat.toDigits_of_lt_base hSmall, Nat.div_eq_of_lt hSmall, Nat.toDigits_zero,
      Nat.mod_eq_of_lt hSmall, List.length_singleton, List.length_singleton, ← List.replicate_succ',
      show width + 1 - 1 = width - 1 + 1 by omega]
  · rw [Nat.toDigits_of_base_le (by omega) (by omega), List.length_append, List.length_singleton,
      Nat.add_sub_add_right, List.append_assoc]

theorem padded_precedes {width s t : Nat} (hst : s < t) (ht : t < 10 ^ width) :
    Precedes (padded width s).toList (padded width t).toList := by
  induction width generalizing s t with
  | zero => omega
  | succ width ih =>
    rcases Nat.eq_zero_or_pos width with rfl | hWidth
    · rw [padded_one (by omega), padded_one (by omega)]
      exact .head (digitChar_lt (by omega) hst) _ _
    · rw [padded_succ hWidth, padded_succ hWidth]
      rcases Nat.lt_or_ge (s / 10) (t / 10) with hLess | hLarge
      · exact (ih hLess (by omega)).append _ _
      · rw [show s / 10 = t / 10 by omega]
        exact .append_left _ (.head (digitChar_lt (by omega) (by omega)) _ _)

end Text
