import Mathlib.Data.List.Induction
import Mathlib.Tactic.Ring

/-!
# Numerals of a fixed length

The lowest digits of a number in a base, the highest one first, and the number of such digits.
Between the numbers below a power of the base and the numerals of that length the two are inverse
(`value_digits`, `digits_value`).
-/

namespace Numerals

/-- The lowest digits of a number, the highest one first. -/
def digits (base : Nat) : Nat → Nat → List Nat
  | 0, _ => []
  | k + 1, n => digits base k (n / base) ++ [n % base]

def value (base : Nat) (ds : List Nat) : Nat := ds.foldl (fun acc d => acc * base + d) 0

variable {base : Nat}

@[simp] theorem length_digits (k n : Nat) : (digits base k n).length = k := by
  induction k generalizing n with
  | zero => rfl
  | succ k ih => rw [digits, List.length_append, ih, List.length_singleton]

theorem value_concat (ds : List Nat) (d : Nat) :
    value base (ds ++ [d]) = value base ds * base + d := by
  rw [value, List.foldl_append]
  rfl

theorem value_digits (hBase : 0 < base) {k n : Nat} (h : n < base ^ k) :
    value base (digits base k n) = n := by
  induction k generalizing n with
  | zero => exact (Nat.lt_one_iff.mp h).symm
  | succ k ih =>
    have hHigh : n / base < base ^ k := by
      rw [Nat.div_lt_iff_lt_mul hBase]
      exact h
    rw [digits, value_concat, ih hHigh, Nat.mul_comm]
    exact Nat.div_add_mod n base

theorem digits_lt (hBase : 0 < base) (k n : Nat) : ∀ d ∈ digits base k n, d < base := by
  induction k generalizing n with
  | zero => exact fun d hd => (by cases hd)
  | succ k ih =>
    intro d hd
    rcases List.mem_append.mp hd with hHigh | hLow
    · exact ih _ d hHigh
    · rw [List.mem_singleton.mp hLow]
      exact Nat.mod_lt n hBase

theorem value_lt {ds : List Nat} (h : ∀ d ∈ ds, d < base) : value base ds < base ^ ds.length := by
  induction ds using List.reverseRecOn with
  | nil => exact Nat.one_pos
  | append_singleton ds d ih =>
    have hHigh := ih fun e he => h e (List.mem_append_left _ he)
    have hLow := h d (List.mem_append_right _ (List.mem_singleton_self d))
    rw [value_concat, List.length_append, List.length_singleton, pow_succ]
    calc value base ds * base + d < value base ds * base + base := Nat.add_lt_add_left hLow _
      _ = (value base ds + 1) * base := (Nat.succ_mul _ _).symm
      _ ≤ base ^ ds.length * base := Nat.mul_le_mul_right base hHigh

theorem digits_value {ds : List Nat} (h : ∀ d ∈ ds, d < base) :
    digits base ds.length (value base ds) = ds := by
  induction ds using List.reverseRecOn with
  | nil => rfl
  | append_singleton ds d ih =>
    have hLow := h d (List.mem_append_right _ (List.mem_singleton_self d))
    have hHigh := ih fun e he => h e (List.mem_append_left _ he)
    have hBase : 0 < base := Nat.zero_lt_of_lt hLow
    have hDiv : (value base ds * base + d) / base = value base ds := by
      rw [Nat.add_comm, Nat.add_mul_div_right _ _ hBase, Nat.div_eq_of_lt hLow, Nat.zero_add]
    rw [value_concat, List.length_append, List.length_singleton, digits, hDiv, hHigh,
      Nat.mul_add_mod_self_right, Nat.mod_eq_of_lt hLow]

end Numerals
