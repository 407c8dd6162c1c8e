import Masonwing.HostApi.ReturnTo

/-!
# Local targets

`return_to_local`: a target that `validate_return_to` accepts stays on the host, as it is and decoded
once or twice, exactly if nothing in it is spelled as an escape after the first decoding. The list
of encoded forms has the escapes and the doubly encoded ones, not those with an encoded digit.
-/

namespace Masonwing

open Outcome Percent

/-! ## Bytes of a text -/

theorem utf8Chars_cons (c : Char) (text : List Char) :
    utf8Chars (c :: text) = String.utf8EncodeChar c ++ utf8Chars text := rfl

theorem encode_ascii {c : Char} (h : c.toNat < 128) :
    String.utf8EncodeChar c = [UInt8.ofNat c.toNat] := by
  unfold String.utf8EncodeChar
  exact if_pos (Nat.le_of_lt_succ h)

theorem encode_other {c : Char} (h : 128 ≤ c.toNat) :
    ∀ b ∈ String.utf8EncodeChar c, 128 ≤ b.toNat := by
  have hLead : ¬ c.val.toNat ≤ 127 := Nat.not_le_of_lt h
  unfold String.utf8EncodeChar
  dsimp only
  rw [if_neg hLead]
  intro b hb
  split at hb
  · simp only [List.mem_cons, List.not_mem_nil, or_false] at hb
    rcases hb with rfl | rfl <;> rw [UInt8.toNat_ofNat'] <;> omega
  · split at hb
    · simp only [List.mem_cons, List.not_mem_nil, or_false] at hb
      rcases hb with rfl | rfl | rfl <;> rw [UInt8.toNat_ofNat'] <;> omega
    · simp only [List.mem_cons, List.not_mem_nil, or_false] at hb
      rcases hb with rfl | rfl | rfl | rfl <;> rw [UInt8.toNat_ofNat'] <;> omega

/-- The character of an ASCII byte. -/
def charOf (b : UInt8) : Char := Char.ofNat b.toNat

theorem charOf_ofNat {c : Char} (h : c.toNat < 128) : charOf (UInt8.ofNat c.toNat) = c := by
  rw [charOf, UInt8.toNat_ofNat', Nat.mod_eq_of_lt (by omega), Char.ofNat_toNat]

/-- What an ASCII text is in the bytes, it is in the characters. -/
theorem ascii_start {pattern : List UInt8} {text : List Char}
    (hAscii : ∀ b ∈ pattern, b.toNat < 128) (h : pattern <+: utf8Chars text) :
    pattern.map charOf <+: text := by
  induction pattern generalizing text with
  | nil => exact List.nil_prefix
  | cons b pattern ih =>
    cases text with
    | nil => exact absurd (List.prefix_nil.mp h) (List.cons_ne_nil b pattern)
    | cons c text =>
      rw [utf8Chars_cons] at h
      by_cases hc : c.toNat < 128
      · rw [encode_ascii hc, List.singleton_append, List.cons_prefix_cons] at h
        obtain ⟨rfl, hRest⟩ := h
        rw [List.map_cons, List.cons_prefix_cons, charOf_ofNat hc]
        exact ⟨rfl, ih (fun b hb => hAscii b (List.mem_cons_of_mem _ hb)) hRest⟩
      · -- a character that is not ASCII begins with a byte that is not ASCII
        cases hEncode : String.utf8EncodeChar c with
        | nil => exact absurd hEncode String.utf8EncodeChar_ne_nil
        | cons d bytes =>
          rw [hEncode, List.cons_append, List.cons_prefix_cons] at h
          have hHigh := encode_other (Nat.le_of_not_lt hc) d (by rw [hEncode]; simp)
          have hLow := hAscii b List.mem_cons_self
          rw [h.1] at hLow
          omega

/-- An end of the bytes is that of an end of the characters, or begins inside a character. -/
theorem utf8Chars_suffix {text : List Char} {bytes : List UInt8} (h : bytes <:+ utf8Chars text) :
    (∃ rest, rest <:+ text ∧ bytes = utf8Chars rest) ∨
      ∃ b rest, bytes = b :: rest ∧ 128 ≤ b.toNat := by
  induction text with
  | nil => exact Or.inl ⟨[], List.suffix_rfl, List.suffix_nil.mp h⟩
  | cons c text ih =>
    by_cases hWhole : bytes = utf8Chars (c :: text)
    · exact Or.inl ⟨c :: text, List.suffix_rfl, hWhole⟩
    have hRest : bytes <:+ utf8Chars text → _ := fun hTail => (ih hTail).imp_left
      fun ⟨rest, hRest, hBytes⟩ => (⟨rest, hRest.trans (List.suffix_cons c text), hBytes⟩ :
        ∃ rest, rest <:+ c :: text ∧ bytes = utf8Chars rest)
    rw [utf8Chars_cons] at h hWhole
    by_cases hc : c.toNat < 128
    · rw [encode_ascii hc, List.singleton_append] at h hWhole
      exact hRest ((List.suffix_cons_iff.mp h).resolve_left hWhole)
    · obtain ⟨before, hBefore⟩ := h
      rcases List.append_eq_append_iff.mp hBefore with ⟨a, hEncode, hBytes⟩ | ⟨a, -, hTail⟩
      · cases a with
        | nil => exact hRest ⟨[], hBytes.symm ▸ rfl⟩
        | cons b a =>
          refine Or.inr ⟨b, a ++ utf8Chars text, hBytes, ?_⟩
          exact encode_other (Nat.le_of_not_lt hc) b (by rw [hEncode]; simp)
      · exact hRest ⟨a, hTail.symm⟩

theorem infix_ascii {pattern : List UInt8} {text : List Char}
    (hAscii : ∀ b ∈ pattern, b.toNat < 128) (h : pattern <:+: utf8Chars text) :
    pattern.map charOf <:+: text := by
  obtain ⟨bytes, hStart, hEnd⟩ := List.infix_iff_prefix_suffix.mp h
  rcases utf8Chars_suffix hEnd with ⟨rest, hRest, rfl⟩ | ⟨b, rest, rfl, hHigh⟩
  · exact List.infix_iff_prefix_suffix.mpr ⟨rest, ascii_start hAscii hStart, hRest⟩
  · cases pattern with
    | nil => exact List.nil_infix
    | cons c pattern =>
      rw [List.cons_prefix_cons] at hStart
      have hLow := hAscii c List.mem_cons_self
      rw [hStart.1] at hLow
      omega

/-! ## Escapes in a target -/

/-- The digits are ASCII characters, and their lower case is the digit of their value. -/
theorem hexValue_table : ∀ n : Fin 256, (hexValue (UInt8.ofNat n)).all (fun u =>
    decide (u.toNat < 16 ∧ (n : Nat) < 128 ∧ (Char.ofNat n).toLower = hexDigit u.toNat)) = true := by
  decide +kernel

theorem hexValue_lower {b u : UInt8} (h : hexValue b = some u) :
    u.toNat < 16 ∧ b.toNat < 128 ∧ (charOf b).toLower = hexDigit u.toNat := by
  have hRow := hexValue_table ⟨b.toNat, b.toNat_lt⟩
  rw [UInt8.ofNat_toNat, h] at hRow
  exact of_decide_eq_true hRow

/-- An escape, in small letters. -/
def escapeOf (x : UInt8) : List Char := ['%', hexDigit (x.toNat / 16), hexDigit (x.toNat % 16)]

theorem escaped_lower {a b x : UInt8} (h : escaped a b = some x) :
    (∀ c ∈ [percent, a, b], c.toNat < 128) ∧
      ([percent, a, b].map charOf).map Char.toLower = escapeOf x := by
  unfold escaped at h
  split at h
  · rename_i u w hu hw
    obtain ⟨hHigh, ha, hLower⟩ := hexValue_lower hu
    obtain ⟨hLow, hb, hLower'⟩ := hexValue_lower hw
    have hValue : x.toNat = 16 * u.toNat + w.toNat := by
      rw [← Option.some.inj h, UInt8.toNat_add, UInt8.toNat_mul]
      show (16 * u.toNat % 256 + w.toNat) % 256 = _
      omega
    constructor
    · intro c hc
      simp only [List.mem_cons, List.not_mem_nil, or_false] at hc
      rcases hc with rfl | rfl | rfl
      · decide
      · exact ha
      · exact hb
    · have hFirst : x.toNat / 16 = u.toNat := by omega
      have hSecond : x.toNat % 16 = w.toNat := by omega
      rw [escapeOf, hFirst, hSecond, ← hLower, ← hLower']
      rfl
  · cases h

section Accepted

variable {value value' : String}

/-- What is known of a target that was accepted. -/
structure AcceptedTarget (value : String) : Prop where
  path : ∃ rest, value.toList = '/' :: rest ∧ ¬ ['/'] <+: rest
  plain : '\\' ∉ value.toList ∧ '\r' ∉ value.toList ∧ '\n' ∉ value.toList
  encoded : ∀ x ∈ slash :: forbiddenBytes, ¬ escapeOf x <:+: value.toList.map Char.toLower

theorem validateReturnTo_ok (h : validateReturnTo value = .ok value') :
    AcceptedTarget value ∧ value' = value := by
  simp only [validateReturnTo, bind_eq_ok, require_eq_ok, pure_eq_ok, exists_const] at h
  obtain ⟨⟨⟨-, -, hSlash, hTwo⟩, hBack, hReturn, hFeed, -⟩, hEncoded, rfl⟩ := h
  refine ⟨⟨?_, ⟨hBack, hReturn, hFeed⟩, ?_⟩, rfl⟩
  · obtain ⟨rest, hRest⟩ := hSlash
    refine ⟨rest, hRest.symm, fun hStart => hTwo ?_⟩
    rw [← hRest]
    exact List.cons_prefix_cons.mpr ⟨rfl, hStart⟩
  · have hForm : ∀ encoded ∈ encodedForms, ¬ encoded.toList <:+: value.toList.map Char.toLower := by
      intro encoded hMem hInfix
      rw [List.any_eq_false] at hEncoded
      exact hEncoded encoded hMem (decide_eq_true hInfix)
    intro x hx
    simp only [forbiddenBytes, List.mem_cons, List.not_mem_nil, or_false] at hx
    rcases hx with rfl | rfl | rfl | rfl
    · exact hForm "%2f" (by decide)
    · exact hForm "%5c" (by decide)
    · exact hForm "%0d" (by decide)
    · exact hForm "%0a" (by decide)

theorem AcceptedTarget.no_escape (h : AcceptedTarget value) {x a b : UInt8}
    (hx : x ∈ slash :: forbiddenBytes) (hEscaped : escaped a b = some x) :
    ¬ [percent, a, b] <:+: utf8Chars value.toList := by
  intro hInfix
  obtain ⟨hAscii, hLower⟩ := escaped_lower hEscaped
  apply h.encoded x hx
  rw [← hLower]
  exact (infix_ascii hAscii hInfix).map Char.toLower

theorem AcceptedTarget.bytes (h : AcceptedTarget value) {x : UInt8} (hx : x ∈ forbiddenBytes) :
    x ∉ utf8Chars value.toList := by
  intro hMem
  have hAscii : ∀ b ∈ [x], b.toNat < 128 := by
    intro b hb
    rw [List.mem_singleton.mp hb]
    simp only [forbiddenBytes, List.mem_cons, List.not_mem_nil, or_false] at hx
    rcases hx with rfl | rfl | rfl <;> decide
  have hChar : charOf x ∈ value.toList := by
    have hInfix := infix_ascii hAscii ((List.singleton_infix_iff x _).mpr hMem)
    exact (List.singleton_infix_iff _ _).mp hInfix
  obtain ⟨hBack, hReturn, hFeed⟩ := h.plain
  simp only [forbiddenBytes, List.mem_cons, List.not_mem_nil, or_false] at hx
  rcases hx with rfl | rfl | rfl
  · exact hBack hChar
  · exact hReturn hChar
  · exact hFeed hChar

theorem AcceptedTarget.decode_bytes (h : AcceptedTarget value) {x : UInt8}
    (hx : x ∈ forbiddenBytes) : x ∉ decode (utf8Chars value.toList) := by
  intro hMem
  rcases mem_decode hMem with hPlain | ⟨a, b, hEscaped, hInfix⟩
  · exact h.bytes hx hPlain
  · exact h.no_escape (List.mem_cons_of_mem _ hx) hEscaped hInfix

theorem AcceptedTarget.slash_start (h : AcceptedTarget value) :
    ∃ rest, utf8Chars value.toList = slash :: rest ∧ ¬ [slash] <+: rest := by
  obtain ⟨rest, hRest, hSecond⟩ := h.path
  have hAscii : ∀ b ∈ [slash], b.toNat < 128 := by
    intro b hb
    rw [List.mem_singleton.mp hb]
    decide
  refine ⟨utf8Chars rest, by rw [hRest]; rfl, fun hStart => hSecond ?_⟩
  exact ascii_start hAscii hStart

/-- Nothing but a slash or an escape of it is decoded to one. -/
theorem AcceptedTarget.decode_start (h : AcceptedTarget value) {rest : List UInt8}
    (hRest : utf8Chars value.toList = slash :: rest) (hSecond : ¬ [slash] <+: rest) :
    ¬ [slash] <+: decode rest := by
  rintro ⟨after, hAfter⟩
  obtain ⟨s, tail, rfl, hs, -⟩ := decode_head hAfter.symm
  rcases hs with rfl | ⟨a, b, rfl, hEscaped⟩
  · exact hSecond (List.prefix_append _ _)
  · refine h.no_escape List.mem_cons_self hEscaped ?_
    rw [hRest]
    exact (List.prefix_append _ tail).isInfix.trans (List.suffix_cons slash _).isInfix

/-- The target as it is and after one decoding stays on the host. -/
theorem AcceptedTarget.local_once (h : AcceptedTarget value) :
    LocalTarget (utf8Chars value.toList) ∧ LocalTarget (decode (utf8Chars value.toList)) := by
  obtain ⟨rest, hRest, hSecond⟩ := h.slash_start
  have hDecode : decode (slash :: rest) = slash :: decode rest :=
    decode_plain (plain_of_ne (by decide) rest)
  refine ⟨⟨?_, fun b hb => h.bytes hb⟩, ⟨?_, fun b hb => h.decode_bytes hb⟩⟩
  · rw [hRest, List.cons_prefix_cons]
    exact fun hStart => hSecond hStart.2
  · rw [hRest, hDecode, List.cons_prefix_cons]
    exact fun hStart => h.decode_start hRest hSecond hStart.2

/-- Nowhere in the target is a byte hidden that would lead away from the host. -/
structure Unhidden (target : List UInt8) : Prop where
  authority : ∀ s, Hides slash s → ¬ slash :: s <+: target
  bytes : ∀ b ∈ forbiddenBytes, ∀ s, Hides b s → ¬ s <:+: target

theorem AcceptedTarget.local_twice_iff (h : AcceptedTarget value) :
    LocalTarget (decode (decode (utf8Chars value.toList))) ↔
      Unhidden (utf8Chars value.toList) := by
  obtain ⟨rest, hRest, hSecond⟩ := h.slash_start
  have hTwice : decode (decode (slash :: rest)) = slash :: decode (decode rest) := by
    rw [decode_plain (plain_of_ne (by decide) rest), decode_plain (plain_of_ne (by decide) _)]
  have hStart : [slash] <+: decode (decode rest) ↔ ∃ s, Hides slash s ∧ s <+: rest :=
    starts_twice_iff (h.decode_start hRest hSecond)
  have hBytes : ∀ b ∈ forbiddenBytes, b ∈ decode (decode (utf8Chars value.toList)) ↔
      ∃ s, Hides b s ∧ s <:+: utf8Chars value.toList :=
    fun b hb => mem_twice_iff (h.decode_bytes hb)
  constructor
  · intro hLocal
    constructor
    · intro s hs hStarts
      apply hLocal.authority
      rw [hRest, hTwice, List.cons_prefix_cons]
      rw [hRest, List.cons_prefix_cons] at hStarts
      exact ⟨rfl, hStart.mpr ⟨s, hs, hStarts.2⟩⟩
    · intro b hb s hs hInfix
      exact hLocal.bytes b hb ((hBytes b hb).mpr ⟨s, hs, hInfix⟩)
  · intro hHidden
    constructor
    · rw [hRest, hTwice, List.cons_prefix_cons]
      rintro ⟨-, hSlash⟩
      obtain ⟨s, hs, hPrefix⟩ := hStart.mp hSlash
      refine hHidden.authority s hs ?_
      rw [hRest, List.cons_prefix_cons]
      exact ⟨rfl, hPrefix⟩
    · intro b hb hMem
      obtain ⟨s, hs, hInfix⟩ := (hBytes b hb).mp hMem
      exact hHidden.bytes b hb s hs hInfix

end Accepted

theorem return_to_local_iff {value target : String} (h : validateReturnTo value = .ok target) :
    (LocalTarget (utf8Chars target.toList) ∧ LocalTarget (decode (utf8Chars target.toList)) ∧
      LocalTarget (decode (decode (utf8Chars target.toList)))) ↔
        Unhidden (utf8Chars value.toList) := by
  obtain ⟨hAccepted, rfl⟩ := validateReturnTo_ok h
  obtain ⟨hPlain, hOnce⟩ := hAccepted.local_once
  rw [← hAccepted.local_twice_iff]
  exact ⟨fun hLocal => hLocal.2.2, fun hTwice => ⟨hPlain, hOnce, hTwice⟩⟩

theorem settings_target_local :
    (LocalTarget (utf8Chars "/settings?tab=auth".toList) ∧
      LocalTarget (decode (utf8Chars "/settings?tab=auth".toList)) ∧
        LocalTarget (decode (decode (utf8Chars "/settings?tab=auth".toList)))) ↔
          Unhidden (utf8Chars "/settings?tab=auth".toList) :=
  @return_to_local_iff _ "/settings?tab=auth" (by decide +kernel)

/-- The percent sign and one digit of the backslash are encoded. -/
theorem mixed_escape_leaves :
    validateReturnTo "/a%25%35c" = .ok "/a%25%35c" ∧
      ¬ LocalTarget (decode (decode (utf8Chars "/a%25%35c".toList))) := by
  refine ⟨by decide +kernel, fun hLocal => ?_⟩
  exact hLocal.bytes 0x5C (by decide) (by decide +kernel)

end Masonwing
