import Mathlib.Data.UInt
import Masonwing.Lib.Text

/-!
# UTF-8

The bytes of a text. Their order is the order of the characters (`encode_precedes`), and what a
text begins with in its bytes is a text followed by a part of one character (`encode_prefix`).
-/

namespace Utf8

open Text

def encode (text : List Char) : List UInt8 := text.flatMap String.utf8EncodeChar

@[simp] theorem encode_nil : encode [] = [] := rfl

@[simp] theorem encode_cons (c : Char) (text : List Char) :
    encode (c :: text) = String.utf8EncodeChar c ++ encode text := rfl

@[simp] theorem encode_append (s t : List Char) : encode (s ++ t) = encode s ++ encode t :=
  List.flatMap_append

/-! ## Characters -/

/-- The bytes of a character as numbers. -/
def units (v : Nat) : List Nat :=
  if v ≤ 0x7F then [v]
  else if v ≤ 0x7FF then [v / 64 + 192, v % 64 + 128]
  else if v ≤ 0xFFFF then [v / 4096 + 224, v / 64 % 64 + 128, v % 64 + 128]
  else [v / 262144 + 240, v / 4096 % 64 + 128, v / 64 % 64 + 128, v % 64 + 128]

theorem toNat_lt (c : Char) : c.toNat < 0x110000 := by
  rcases c.valid with h | ⟨-, h⟩
  · exact Nat.lt_trans h (by decide)
  · exact h

theorem toNat_encodeChar (c : Char) :
    (String.utf8EncodeChar c).map UInt8.toNat = units c.toNat := by
  have hValid := toNat_lt c
  have hToNat : c.val.toNat = c.toNat := rfl
  unfold String.utf8EncodeChar units
  dsimp only
  rw [hToNat]
  split
  · simp only [List.map_cons, List.map_nil, UInt8.toNat_ofNat']
    rw [Nat.mod_eq_of_lt (by omega)]
  · split
    · simp only [List.map_cons, List.map_nil, UInt8.toNat_ofNat', List.cons.injEq, and_true]
      omega
    · split
      · simp only [List.map_cons, List.map_nil, UInt8.toNat_ofNat', List.cons.injEq, and_true]
        omega
      · simp only [List.map_cons, List.map_nil, UInt8.toNat_ofNat', List.cons.injEq, and_true]
        omega

theorem length_encodeChar (c : Char) :
    (String.utf8EncodeChar c).length = (units c.toNat).length := by
  rw [← toNat_encodeChar, List.length_map]

theorem length_units (v : Nat) : 1 ≤ (units v).length ∧ (units v).length ≤ 4 := by
  unfold units
  split
  · simp
  · split
    · simp
    · split <;> simp

theorem length_encode_ascii {text : List Char} (h : ∀ c ∈ text, c.toNat < 128) :
    (encode text).length = text.length := by
  induction text with
  | nil => rfl
  | cons c text ih =>
    have hOne : c.toNat ≤ 0x7F := Nat.le_of_lt_succ (h c List.mem_cons_self)
    rw [encode_cons, List.length_append, length_encodeChar, units, if_pos hOne,
      ih fun d hd => h d (List.mem_cons_of_mem _ hd)]
    exact Nat.add_comm _ _

/-! ## Order -/

theorem units_precedes {v w : Nat} (h : v < w) : Precedes (units v) (units w) := by
  unfold units
  by_cases hOne : w ≤ 0x7F
  · rw [if_pos (by omega), if_pos hOne]
    exact .head h _ _
  · rw [if_neg hOne]
    by_cases hOne' : v ≤ 0x7F
    · rw [if_pos hOne']
      split
      · exact .head (by omega) _ _
      · split
        · exact .head (by omega) _ _
        · exact .head (by omega) _ _
    · rw [if_neg hOne']
      by_cases hTwo : w ≤ 0x7FF
      · rw [if_pos (by omega), if_pos hTwo]
        rcases Nat.lt_or_ge (v / 64) (w / 64) with hLess | hLarge
        · exact .head (by omega) _ _
        · rw [show v / 64 = w / 64 by omega]
          exact .append_left [_] (.head (by omega) _ _)
      · rw [if_neg hTwo]
        by_cases hTwo' : v ≤ 0x7FF
        · rw [if_pos hTwo']
          split
          · exact .head (by omega) _ _
          · exact .head (by omega) _ _
        · rw [if_neg hTwo']
          by_cases hThree : w ≤ 0xFFFF
          · rw [if_pos (by omega), if_pos hThree]
            rcases Nat.lt_or_ge (v / 4096) (w / 4096) with hLess | hLarge
            · exact .head (by omega) _ _
            · rw [show v / 4096 = w / 4096 by omega]
              rcases Nat.lt_or_ge (v / 64) (w / 64) with hLess | hLarge
              · exact .append_left [_] (.head (by omega) _ _)
              · rw [show v / 64 = w / 64 by omega]
                exact .append_left [_, _] (.head (by omega) _ _)
          · rw [if_neg hThree]
            by_cases hThree' : v ≤ 0xFFFF
            · rw [if_pos hThree']
              exact .head (by omega) _ _
            · rw [if_neg hThree']
              rcases Nat.lt_or_ge (v / 262144) (w / 262144) with hLess | hLarge
              · exact .head (by omega) _ _
              · rw [show v / 262144 = w / 262144 by omega]
                rcases Nat.lt_or_ge (v / 4096) (w / 4096) with hLess | hLarge
                · exact .append_left [_] (.head (by omega) _ _)
                · rw [show v / 4096 = w / 4096 by omega]
                  rcases Nat.lt_or_ge (v / 64) (w / 64) with hLess | hLarge
                  · exact .append_left [_, _] (.head (by omega) _ _)
                  · rw [show v / 64 = w / 64 by omega]
                    exact .append_left [_, _, _] (.head (by omega) _ _)

theorem precedes_of_toNat {xs ys : List UInt8}
    (h : Precedes (xs.map UInt8.toNat) (ys.map UInt8.toNat)) : Precedes xs ys := by
  obtain ⟨start, x, y, xs', ys', hxs, hys, hLess⟩ := h
  obtain ⟨start₁, rest₁, rfl, hStart₁, hRest₁⟩ := List.map_eq_append_iff.mp hxs
  obtain ⟨start₂, rest₂, rfl, hStart₂, hRest₂⟩ := List.map_eq_append_iff.mp hys
  obtain ⟨b₁, tail₁, rfl, rfl, -⟩ := List.map_eq_cons_iff.mp hRest₁
  obtain ⟨b₂, tail₂, rfl, rfl, -⟩ := List.map_eq_cons_iff.mp hRest₂
  have hSame : start₁ = start₂ :=
    List.map_injective_iff.mpr (fun _ _ => UInt8.toNat_inj.mp) (hStart₁.trans hStart₂.symm)
  exact ⟨start₂, b₁, b₂, tail₁, tail₂, by rw [hSame], rfl, UInt8.lt_iff_toNat_lt.mpr hLess⟩

/-- The bytes of two texts are in the order of their first different characters. -/
theorem encode_precedes {s t : List Char} (h : Precedes s t) : Precedes (encode s) (encode t) := by
  obtain ⟨start, c, d, s', t', rfl, rfl, hLess⟩ := h
  rw [encode_append, encode_append, encode_cons, encode_cons]
  refine .append_left _ (.append (precedes_of_toNat ?_) _ _)
  rw [toNat_encodeChar, toNat_encodeChar]
  exact units_precedes hLess

/-! ## Prefixes -/

/-- The first bytes of a character, but not all of them. -/
def Partial (bytes : List UInt8) : Prop :=
  ∃ c, bytes <+: String.utf8EncodeChar c ∧ bytes ≠ String.utf8EncodeChar c

theorem Partial.length_le {bytes : List UInt8} (h : Partial bytes) : bytes.length ≤ 3 := by
  obtain ⟨c, hPrefix, hNot⟩ := h
  have hLength := hPrefix.length_le
  have hLess : bytes.length ≠ (String.utf8EncodeChar c).length :=
    fun hSame => hNot (hPrefix.eq_of_length hSame)
  rw [length_encodeChar] at hLength hLess
  have hFour := (length_units c.toNat).2
  omega

theorem Partial.nil : Partial [] :=
  ⟨'a', List.nil_prefix, fun h => String.utf8EncodeChar_ne_nil h.symm⟩

/-- A text that is cut off in its bytes is a text and a part of one character. -/
theorem encode_prefix {text : List Char} {front rest : List UInt8}
    (h : front ++ rest = encode text) :
    ∃ before tail after, front = encode before ++ tail ∧ Partial tail ∧
      tail ++ rest = encode after := by
  induction text generalizing front with
  | nil =>
    obtain ⟨rfl, rfl⟩ := List.append_eq_nil_iff.mp h
    exact ⟨[], [], [], rfl, .nil, rfl⟩
  | cons c text ih =>
    rw [encode_cons] at h
    rcases List.append_eq_append_iff.mp h with ⟨a, hChar, hRest⟩ | ⟨a, hFront, hRest⟩
    · by_cases hNil : a = []
      · subst hNil
        rw [List.append_nil] at hChar
        exact ⟨[c], [], text, by simp [hChar], .nil, hRest⟩
      · refine ⟨[], front, c :: text, rfl, ⟨c, ⟨a, hChar.symm⟩, fun hSame => hNil ?_⟩, ?_⟩
        · rw [hSame, List.self_eq_append_right] at hChar
          exact hChar
        · rw [hRest, ← List.append_assoc, ← hChar, encode_cons]
    · obtain ⟨before, tail, after, rfl, hPartial, hAfter⟩ := ih hRest.symm
      exact ⟨c :: before, tail, after, by rw [hFront, encode_cons, List.append_assoc], hPartial,
        hAfter⟩

end Utf8
