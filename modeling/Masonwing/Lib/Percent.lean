import Mathlib.Data.List.Infix

/-!
# Percent-decoding

An escape is a percent sign with two hexadecimal digits; every other byte stands for itself. A
percent sign is no digit, so an escape begins wherever its percent sign stands, whatever is before
it (`decode_append`). `Hides b s` says that decoding `s` spells an escape of `b`: decoding twice
gives `b` at such a place, and only there.
-/

namespace Percent

def percent : UInt8 := 0x25

def hexValue (b : UInt8) : Option UInt8 :=
  if 0x30 ≤ b ∧ b ≤ 0x39 then some (b - 0x30)
  else if 0x41 ≤ b ∧ b ≤ 0x46 then some (b - 0x37)
  else if 0x61 ≤ b ∧ b ≤ 0x66 then some (b - 0x57)
  else none

/-- The byte that two digits stand for. -/
def escaped (h l : UInt8) : Option UInt8 :=
  match hexValue h, hexValue l with
  | some a, some b => some (16 * a + b)
  | _, _ => none

def decode : List UInt8 → List UInt8
  | b :: h :: l :: rest =>
    if b = percent then
      match escaped h l with
      | some x => x :: decode rest
      | none => b :: decode (h :: l :: rest)
    else b :: decode (h :: l :: rest)
  | [b, c] => [b, c]
  | [b] => [b]
  | [] => []

/-! ## Decoding step by step -/

theorem hexValue_percent : hexValue percent = none := rfl

theorem escaped_digits {h l x : UInt8} (hx : escaped h l = some x) : h ≠ percent ∧ l ≠ percent := by
  constructor
  · rintro rfl
    rw [escaped, hexValue_percent] at hx
    cases hx
  · rintro rfl
    unfold escaped at hx
    rw [hexValue_percent] at hx
    split at hx
    · rename_i hNone
      cases hNone
    · cases hx

theorem decode_escape {h l x : UInt8} (hx : escaped h l = some x) (rest : List UInt8) :
    decode (percent :: h :: l :: rest) = x :: decode rest := by
  rw [decode, if_pos rfl, hx]

/-- A byte that begins no escape. -/
def Plain (b : UInt8) (rest : List UInt8) : Prop :=
  b = percent → ∀ h l tail, rest = h :: l :: tail → escaped h l = none

theorem decode_plain {b : UInt8} {rest : List UInt8} (h : Plain b rest) :
    decode (b :: rest) = b :: decode rest := by
  match rest with
  | [] => rfl
  | [_] => rfl
  | c :: d :: tail =>
    rw [decode]
    split
    · rename_i hPercent
      rw [h hPercent c d tail rfl]
    · rfl

theorem plain_of_ne {b : UInt8} (hb : b ≠ percent) (rest : List UInt8) : Plain b rest :=
  fun h => absurd h hb

/-- What a text that is not empty begins with. -/
theorem escape_or_plain (b : UInt8) (rest : List UInt8) :
    (∃ h l x tail, b = percent ∧ rest = h :: l :: tail ∧ escaped h l = some x) ∨ Plain b rest := by
  by_cases hPlain : Plain b rest
  · exact Or.inr hPlain
  · unfold Plain at hPlain
    push Not at hPlain
    obtain ⟨hb, h, l, tail, hRest, hSome⟩ := hPlain
    obtain ⟨x, hx⟩ := Option.ne_none_iff_exists'.mp hSome
    exact Or.inl ⟨h, l, x, tail, hb, hRest, hx⟩

/-- What comes before a percent sign is decoded by itself. -/
theorem decode_append (a rest : List UInt8) :
    decode (a ++ percent :: rest) = decode a ++ decode (percent :: rest) := by
  induction hLength : a.length using Nat.strongRecOn generalizing a with
  | ind n ih =>
    subst hLength
    cases a with
    | nil => rfl
    | cons b a =>
      rw [List.cons_append]
      rcases escape_or_plain b (a ++ percent :: rest) with ⟨h, l, x, tail, rfl, hRest, hx⟩ | hPlain
      · obtain ⟨hh, hl⟩ := escaped_digits hx
        -- neither digit is the percent sign, so that both are in front of it
        match a, hRest with
        | [], hRest => exact absurd (List.cons.inj hRest).1.symm hh
        | [c], hRest =>
          obtain ⟨-, hRest⟩ := List.cons.inj hRest
          exact absurd (List.cons.inj hRest).1.symm hl
        | c :: d :: a, hRest =>
          obtain ⟨hFirst, hSecond⟩ := List.cons.inj hRest
          obtain ⟨hSecond, -⟩ := List.cons.inj hSecond
          subst hFirst hSecond
          rw [List.cons_append, List.cons_append, decode_escape hx, decode_escape hx,
            ih a.length (by simp only [List.length_cons]; omega) a rfl, List.cons_append]
      · rw [decode_plain hPlain, ih a.length (by simp) a rfl, ← List.cons_append]
        congr 1
        refine (decode_plain fun hb h l tail hTail => ?_).symm
        exact hPlain hb h l (tail ++ percent :: rest) (by rw [hTail]; rfl)

/-! ## Spellings -/

/-- The byte itself or an escape of it. -/
def Spelling (b : UInt8) (s : List UInt8) : Prop :=
  s = [b] ∨ ∃ h l, s = [percent, h, l] ∧ escaped h l = some b

/-- Three spellings that make an escape of the byte. -/
def Hides (x : UInt8) (s : List UInt8) : Prop :=
  ∃ h l p a b, escaped h l = some x ∧ Spelling percent p ∧ Spelling h a ∧ Spelling l b ∧
    s = p ++ a ++ b

theorem Spelling.decode {b : UInt8} {s : List UInt8} (h : Spelling b s) (hb : b ≠ percent)
    (rest : List UInt8) : decode (s ++ rest) = b :: decode rest := by
  rcases h with rfl | ⟨h, l, rfl, hx⟩
  · exact decode_plain (plain_of_ne hb rest)
  · exact decode_escape hx rest

/-- What is decoded first was spelled first. -/
theorem decode_head {l rest : List UInt8} {b : UInt8} (h : decode l = b :: rest) :
    ∃ s tail, l = s ++ tail ∧ Spelling b s ∧ decode tail = rest := by
  cases l with
  | nil => cases h
  | cons c l =>
    rcases escape_or_plain c l with ⟨d, e, x, tail, rfl, rfl, hx⟩ | hPlain
    · rw [decode_escape hx] at h
      obtain ⟨rfl, hTail⟩ := List.cons.inj h
      exact ⟨[percent, d, e], tail, rfl, Or.inr ⟨d, e, rfl, hx⟩, hTail⟩
    · rw [decode_plain hPlain] at h
      obtain ⟨rfl, hTail⟩ := List.cons.inj h
      exact ⟨[c], l, rfl, Or.inl rfl, hTail⟩

/-- Every end of a decoded text is the decoding of an end. -/
theorem decode_split {l before after : List UInt8} (h : decode l = before ++ after) :
    ∃ first second, l = first ++ second ∧ decode second = after := by
  induction before generalizing l with
  | nil => exact ⟨[], l, rfl, h⟩
  | cons b before ih =>
    obtain ⟨s, tail, rfl, -, hTail⟩ := decode_head h
    obtain ⟨first, second, rfl, hSecond⟩ := ih hTail
    exact ⟨s ++ first, second, by rw [List.append_assoc], hSecond⟩

theorem mem_decode {x : UInt8} {l : List UInt8} (h : x ∈ decode l) :
    x ∈ l ∨ ∃ a b, escaped a b = some x ∧ [percent, a, b] <:+: l := by
  obtain ⟨before, after, hSplit⟩ := List.append_of_mem h
  obtain ⟨first, second, rfl, hSecond⟩ := decode_split hSplit
  obtain ⟨s, tail, rfl, hs, -⟩ := decode_head hSecond
  rcases hs with rfl | ⟨a, b, rfl, hx⟩
  · exact Or.inl (by simp)
  · exact Or.inr ⟨a, b, hx, first, tail, by simp⟩

theorem decode_escaped_mem {x a b : UInt8} {l : List UInt8} (hx : escaped a b = some x)
    (h : [percent, a, b] <:+: l) : x ∈ decode l := by
  obtain ⟨before, after, rfl⟩ := h
  rw [List.append_assoc]
  show x ∈ decode (before ++ percent :: (a :: b :: after))
  rw [decode_append, decode_escape hx]
  simp

/-! ## Decoding twice -/

/-- An escape at the start of a decoded text was hidden at the start. -/
theorem hides_of_decode {x h l : UInt8} {text rest : List UInt8} (hx : escaped h l = some x)
    (hDecode : decode text = percent :: h :: l :: rest) : ∃ s, Hides x s ∧ s <+: text := by
  obtain ⟨p, tail, rfl, hp, hTail⟩ := decode_head hDecode
  obtain ⟨a, tail, rfl, ha, hTail⟩ := decode_head hTail
  obtain ⟨b, tail, rfl, hb, -⟩ := decode_head hTail
  refine ⟨p ++ a ++ b, ⟨h, l, p, a, b, hx, hp, ha, hb, rfl⟩, tail, ?_⟩
  simp only [List.append_assoc]

/-- What is hidden is an escape, or is spelled as one after decoding. -/
theorem Hides.decode {x : UInt8} {s : List UInt8} (h : Hides x s) (rest : List UInt8) :
    (∃ tail, decode (s ++ rest) = x :: tail) ∨
      ∃ a b tail, escaped a b = some x ∧ decode (s ++ rest) = percent :: a :: b :: tail := by
  obtain ⟨c, d, p, a, b, hx, hp, ha, hb, rfl⟩ := h
  obtain ⟨hc, hd⟩ := escaped_digits hx
  have hDigits : Percent.decode (a ++ (b ++ rest)) = c :: d :: Percent.decode rest := by
    rw [ha.decode hc, hb.decode hd]
  simp only [List.append_assoc]
  rcases hp with rfl | ⟨e, f, rfl, hPercent⟩
  · rcases escape_or_plain percent (a ++ (b ++ rest)) with ⟨e, f, y, tail, -, hTail, hy⟩ | hPlain
    · -- both digits are there as they are
      have hRaw : Percent.decode (a ++ (b ++ rest)) = e :: f :: Percent.decode tail := by
        obtain ⟨he, hf⟩ := escaped_digits hy
        rw [hTail, decode_plain (plain_of_ne he _), decode_plain (plain_of_ne hf _)]
      rw [hDigits] at hRaw
      obtain ⟨hFirst, hSecond⟩ := List.cons.inj hRaw
      obtain ⟨hSecond, -⟩ := List.cons.inj hSecond
      subst hFirst hSecond
      refine Or.inl ⟨Percent.decode tail, ?_⟩
      rw [List.singleton_append, hTail]
      exact decode_escape hx tail
    · refine Or.inr ⟨c, d, Percent.decode rest, hx, ?_⟩
      rw [List.singleton_append, decode_plain hPlain, hDigits]
  · refine Or.inr ⟨c, d, Percent.decode rest, hx, ?_⟩
    show Percent.decode (percent :: e :: f :: (a ++ (b ++ rest))) = _
    rw [decode_escape hPercent, hDigits]

theorem Hides.cons {x : UInt8} {s : List UInt8} (h : Hides x s) : ∃ tail, s = percent :: tail := by
  obtain ⟨c, d, p, a, b, -, hp, -, -, rfl⟩ := h
  rcases hp with rfl | ⟨e, f, rfl, -⟩
  · exact ⟨a ++ b, by simp⟩
  · exact ⟨e :: f :: (a ++ b), by simp⟩

/-- A byte that one decoding does not bring is there after two where it was hidden. -/
theorem mem_twice_iff {x : UInt8} {text : List UInt8} (hOnce : x ∉ decode text) :
    x ∈ decode (decode text) ↔ ∃ s, Hides x s ∧ s <:+: text := by
  constructor
  · intro hTwice
    rcases mem_decode hTwice with hThere | ⟨a, b, hx, before, after, hInfix⟩
    · exact absurd hThere hOnce
    · rw [List.append_assoc] at hInfix
      obtain ⟨first, second, rfl, hSecond⟩ := decode_split hInfix.symm
      obtain ⟨s, hs, hStart⟩ := hides_of_decode hx hSecond
      exact ⟨s, hs, hStart.isInfix.trans (List.suffix_append first second).isInfix⟩
  · rintro ⟨s, hs, before, after, rfl⟩
    obtain ⟨tail, hTail⟩ := hs.cons
    have hSplit : decode (before ++ s ++ after) = decode before ++ decode (s ++ after) := by
      rw [List.append_assoc, hTail, List.cons_append, decode_append]
    rw [hSplit] at hOnce ⊢
    rcases hs.decode after with ⟨rest, hThere⟩ | ⟨a, b, rest, hx, hEscape⟩
    · rw [hThere] at hOnce
      exact absurd (by simp) hOnce
    · refine decode_escaped_mem hx ⟨decode before, rest, ?_⟩
      rw [hEscape]
      simp

/-- The same of the first byte. -/
theorem starts_twice_iff {x : UInt8} {text : List UInt8} (hOnce : ¬ [x] <+: decode text) :
    [x] <+: decode (decode text) ↔ ∃ s, Hides x s ∧ s <+: text := by
  constructor
  · rintro ⟨after, hAfter⟩
    obtain ⟨s, tail, hDecode, hs, -⟩ := decode_head hAfter.symm
    rcases hs with rfl | ⟨a, b, rfl, hx⟩
    · exact absurd ⟨tail, hDecode.symm⟩ hOnce
    · exact hides_of_decode hx hDecode
  · rintro ⟨s, hs, after, rfl⟩
    rcases hs.decode after with ⟨rest, hThere⟩ | ⟨a, b, rest, hx, hEscape⟩
    · exact absurd ⟨rest, hThere.symm⟩ hOnce
    · rw [hEscape, decode_escape hx]
      exact ⟨decode rest, rfl⟩

end Percent
