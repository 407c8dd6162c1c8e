import Masonwing.Lib.Utf8
import Masonwing.Store.Transfer

/-!
# Text in chunks

`Utf8Stream` looks at the chunks of a file one after the other. What it carries from one to the next
is the beginning of one character, so that it does not matter where the file was cut.

* `utf8Sequence_complete`, `utf8Sequence_truncated`: a sequence that `from_utf8` finds complete is
  a character, and one that it finds truncated is a part of one;
* `push_eq_ok`: what one push does;
* `utf8_chunks`: all pushes and the end succeed exactly if the bytes are a text without NUL.
-/

namespace Masonwing

open Outcome Utf8

/-! ## Bytes -/

theorem utf8CharWidth_eq (b : UInt8) :
    utf8CharWidth b =
      if b.toNat ≤ 127 then 1
      else if 194 ≤ b.toNat ∧ b.toNat ≤ 223 then 2
      else if 224 ≤ b.toNat ∧ b.toNat ≤ 239 then 3
      else if 240 ≤ b.toNat ∧ b.toNat ≤ 244 then 4
      else 0 := by
  simp only [utf8CharWidth, UInt8.le_iff_toNat_le]
  rfl

theorem isContinuation_iff {b : UInt8} :
    isContinuation b = true ↔ 128 ≤ b.toNat ∧ b.toNat ≤ 191 := by
  rw [isContinuation, decide_eq_true_eq, UInt8.le_iff_toNat_le, UInt8.le_iff_toNat_le]
  rfl

/-- The bounds of the second byte; they keep overlong forms, surrogates and numbers above the last
character out. -/
theorem secondAllowed_iff {first second : UInt8} :
    secondAllowed first second = true ↔
      (128 ≤ second.toNat ∧ second.toNat ≤ 191) ∧ (first.toNat = 224 → 160 ≤ second.toNat) ∧
        (first.toNat = 237 → second.toNat ≤ 159) ∧ (first.toNat = 240 → 144 ≤ second.toNat) ∧
          (first.toNat = 244 → second.toNat ≤ 143) := by
  have hSame : ∀ n : UInt8, first = n ↔ first.toNat = n.toNat := fun n => UInt8.toNat_inj.symm
  have h1 : (0xE0 : UInt8).toNat = 224 := rfl
  have h2 : (0xED : UInt8).toNat = 237 := rfl
  have h3 : (0xF0 : UInt8).toNat = 240 := rfl
  have h4 : (0xF4 : UInt8).toNat = 244 := rfl
  have hLow : (0x80 : UInt8).toNat = 128 ∧ (0x90 : UInt8).toNat = 144 ∧
      (0xA0 : UInt8).toNat = 160 := ⟨rfl, rfl, rfl⟩
  have hHigh : (0x8F : UInt8).toNat = 143 ∧ (0x9F : UInt8).toNat = 159 ∧
      (0xBF : UInt8).toNat = 191 := ⟨rfl, rfl, rfl⟩
  simp only [secondAllowed, hSame, h1, h2, h3, h4]
  split
  · rw [decide_eq_true_eq, UInt8.le_iff_toNat_le, UInt8.le_iff_toNat_le]
    omega
  · split
    · rw [decide_eq_true_eq, UInt8.le_iff_toNat_le, UInt8.le_iff_toNat_le]
      omega
    · split
      · rw [decide_eq_true_eq, UInt8.le_iff_toNat_le, UInt8.le_iff_toNat_le]
        omega
      · split
        · rw [decide_eq_true_eq, UInt8.le_iff_toNat_le, UInt8.le_iff_toNat_le]
          omega
        · rw [isContinuation_iff]
          omega

/-! ## One sequence -/

/-- More bytes change nothing once a sequence is decided. -/
theorem utf8Rest_append (missing seen : Nat) (bytes more : Bytes) :
    utf8Rest missing seen bytes = .truncated ∨
      utf8Rest missing seen (bytes ++ more) = utf8Rest missing seen bytes := by
  induction missing generalizing seen bytes with
  | zero => exact Or.inr rfl
  | succ missing ih =>
    cases bytes with
    | nil => exact Or.inl rfl
    | cons b rest =>
      rw [List.cons_append, utf8Rest, utf8Rest]
      by_cases hb : isContinuation b = true
      · rw [if_pos hb, if_pos hb]
        exact ih (seen + 1) rest
      · rw [if_neg hb, if_neg hb]
        exact Or.inr rfl

theorem utf8Sequence_append (bytes more : Bytes) :
    utf8Sequence bytes = .truncated ∨ utf8Sequence (bytes ++ more) = utf8Sequence bytes := by
  cases bytes with
  | nil => exact Or.inl rfl
  | cons first rest =>
    rw [List.cons_append, utf8Sequence.eq_def, utf8Sequence.eq_def]
    dsimp only
    rcases hWidth : utf8CharWidth first with _ | _ | missing
    · exact Or.inr rfl
    · exact Or.inr rfl
    · cases rest with
      | nil => exact Or.inl rfl
      | cons second rest =>
        dsimp only [List.cons_append]
        by_cases hSecond : secondAllowed first second = true
        · rw [if_pos hSecond, if_pos hSecond]
          exact utf8Rest_append missing 2 rest more
        · rw [if_neg hSecond, if_neg hSecond]
          exact Or.inr rfl

/-- What is truncated can be completed. -/
theorem utf8Rest_completed {missing seen : Nat} {bytes : Bytes}
    (h : utf8Rest missing seen bytes = .truncated) :
    ∃ more, more ≠ [] ∧ (bytes ++ more).length = missing ∧
      utf8Rest missing seen (bytes ++ more) = .complete (seen + missing) := by
  induction missing generalizing seen bytes with
  | zero => cases h
  | succ missing ih =>
    cases bytes with
    | nil =>
      have hFill : ∀ missing seen, utf8Rest missing seen (List.replicate missing 0x80) =
          .complete (seen + missing) := by
        intro missing
        induction missing with
        | zero => exact fun seen => rfl
        | succ missing ih =>
          intro seen
          rw [List.replicate_succ, utf8Rest, if_pos (by decide), ih, Nat.add_right_comm,
            Nat.add_assoc]
      exact ⟨List.replicate (missing + 1) 0x80, by simp, by simp, hFill (missing + 1) seen⟩
    | cons b rest =>
      rw [utf8Rest] at h
      split at h
      · rename_i hb
        obtain ⟨more, hMore, hLength, hComplete⟩ := ih h
        refine ⟨more, hMore, by rw [List.cons_append, List.length_cons, hLength], ?_⟩
        rw [List.cons_append, utf8Rest, if_pos hb, hComplete, Nat.add_right_comm, Nat.add_assoc]
      · cases h

theorem utf8Sequence_completed {bytes : Bytes} (h : utf8Sequence bytes = .truncated) :
    ∃ more, more ≠ [] ∧ utf8Sequence (bytes ++ more) = .complete (bytes ++ more).length := by
  cases bytes with
  | nil => exact ⟨[0x41], by decide, by decide⟩
  | cons first rest =>
    rw [utf8Sequence.eq_def] at h
    dsimp only at h
    rcases hWidth : utf8CharWidth first with _ | _ | missing
    · rw [hWidth] at h
      cases h
    · rw [hWidth] at h
      cases h
    · have hSplit : ∀ second rest, secondAllowed first second = true →
          utf8Sequence (first :: second :: rest) = utf8Rest missing 2 rest := by
        intro second rest hSecond
        rw [utf8Sequence.eq_def]
        dsimp only
        rw [hWidth]
        exact if_pos hSecond
      cases rest with
      | nil =>
        have hSecond : ∃ second, secondAllowed first second = true := by
          by_cases h240 : first.toNat = 240
          · exact ⟨0x90, secondAllowed_iff.mpr
              (by rw [show (0x90 : UInt8).toNat = 144 from rfl]; omega)⟩
          · by_cases h224 : first.toNat = 224
            · exact ⟨0xA0, secondAllowed_iff.mpr
                (by rw [show (0xA0 : UInt8).toNat = 160 from rfl]; omega)⟩
            · exact ⟨0x80, secondAllowed_iff.mpr
                (by rw [show (0x80 : UInt8).toNat = 128 from rfl]; omega)⟩
        obtain ⟨second, hSecond⟩ := hSecond
        cases missing with
        | zero => exact ⟨[second], by simp, hSplit second [] hSecond⟩
        | succ missing =>
          obtain ⟨more, -, hLength, hComplete⟩ := utf8Rest_completed
            (show utf8Rest (missing + 1) 2 [] = .truncated from rfl)
          refine ⟨second :: more, by simp, ?_⟩
          rw [List.nil_append] at hLength hComplete
          rw [List.singleton_append, hSplit second more hSecond, hComplete, List.length_cons,
            List.length_cons, hLength]
          congr 1
          omega
      | cons second rest =>
        rw [hWidth] at h
        dsimp only at h
        split at h
        · rename_i hSecond
          obtain ⟨more, hMore, hLength, hComplete⟩ := utf8Rest_completed h
          refine ⟨more, hMore, ?_⟩
          rw [List.cons_append, List.cons_append, hSplit second _ hSecond, hComplete,
            List.length_cons, List.length_cons, hLength]
          congr 1
          omega
        · cases h

/-! ## Sequences and characters -/

theorem eq_encodeChar {v : Nat} (hValid : v.isValidChar) {bytes : Bytes}
    (h : bytes.map UInt8.toNat = units v) : ∃ c, bytes = String.utf8EncodeChar c := by
  refine ⟨Char.ofNatAux v hValid, List.map_injective_iff.mpr (fun _ _ => UInt8.toNat_inj.mp) ?_⟩
  rw [h, toNat_encodeChar]
  rfl

theorem utf8Sequence_cons {first second : UInt8} {missing : Nat} (rest : Bytes)
    (hWidth : utf8CharWidth first = missing + 2) (hSecond : secondAllowed first second = true) :
    utf8Sequence (first :: second :: rest) = utf8Rest missing 2 rest := by
  rw [utf8Sequence.eq_def]
  dsimp only
  rw [hWidth]
  exact if_pos hSecond

/-- A character is a complete sequence, whatever follows it. -/
theorem utf8Sequence_encodeChar (c : Char) (rest : Bytes) :
    utf8Sequence (String.utf8EncodeChar c ++ rest) =
      .complete (String.utf8EncodeChar c).length := by
  have hUnits := toNat_encodeChar c
  have hValid : c.toNat < 0xD800 ∨ 0xDFFF < c.toNat ∧ c.toNat < 0x110000 := c.valid
  generalize String.utf8EncodeChar c = bytes at hUnits ⊢
  unfold units at hUnits
  split at hUnits
  · obtain ⟨b₁, tail, rfl, h₁, hTail⟩ := List.map_eq_cons_iff.mp hUnits
    cases List.map_eq_nil_iff.mp hTail
    have hWidth : utf8CharWidth b₁ = 1 := by
      rw [utf8CharWidth_eq, if_pos (by omega)]
    rw [List.singleton_append, utf8Sequence.eq_def]
    dsimp only
    rw [hWidth]
    rfl
  · split at hUnits
    · obtain ⟨b₁, tail, rfl, h₁, hTail⟩ := List.map_eq_cons_iff.mp hUnits
      obtain ⟨b₂, tail, rfl, h₂, hTail⟩ := List.map_eq_cons_iff.mp hTail
      cases List.map_eq_nil_iff.mp hTail
      have hWidth : utf8CharWidth b₁ = 0 + 2 := by
        rw [utf8CharWidth_eq, if_neg (by omega), if_pos (by omega)]
      exact utf8Sequence_cons rest hWidth (secondAllowed_iff.mpr (by omega))
    · split at hUnits
      · obtain ⟨b₁, tail, rfl, h₁, hTail⟩ := List.map_eq_cons_iff.mp hUnits
        obtain ⟨b₂, tail, rfl, h₂, hTail⟩ := List.map_eq_cons_iff.mp hTail
        obtain ⟨b₃, tail, rfl, h₃, hTail⟩ := List.map_eq_cons_iff.mp hTail
        cases List.map_eq_nil_iff.mp hTail
        have hWidth : utf8CharWidth b₁ = 1 + 2 := by
          rw [utf8CharWidth_eq, if_neg (by omega), if_neg (by omega), if_pos (by omega)]
        rw [List.cons_append, List.cons_append,
          utf8Sequence_cons _ hWidth (secondAllowed_iff.mpr (by omega)), List.cons_append, utf8Rest,
          if_pos (isContinuation_iff.mpr (by omega))]
        rfl
      · obtain ⟨b₁, tail, rfl, h₁, hTail⟩ := List.map_eq_cons_iff.mp hUnits
        obtain ⟨b₂, tail, rfl, h₂, hTail⟩ := List.map_eq_cons_iff.mp hTail
        obtain ⟨b₃, tail, rfl, h₃, hTail⟩ := List.map_eq_cons_iff.mp hTail
        obtain ⟨b₄, tail, rfl, h₄, hTail⟩ := List.map_eq_cons_iff.mp hTail
        cases List.map_eq_nil_iff.mp hTail
        have hWidth : utf8CharWidth b₁ = 2 + 2 := by
          rw [utf8CharWidth_eq, if_neg (by omega), if_neg (by omega), if_neg (by omega),
            if_pos (by omega)]
        rw [List.cons_append, List.cons_append,
          utf8Sequence_cons _ hWidth (secondAllowed_iff.mpr (by omega)), List.cons_append, utf8Rest,
          if_pos (isContinuation_iff.mpr (by omega)), List.cons_append, utf8Rest,
          if_pos (isContinuation_iff.mpr (by omega))]
        rfl

theorem utf8Rest_complete {missing seen width : Nat} {bytes : Bytes}
    (h : utf8Rest missing seen bytes = .complete width) :
    ∃ tail rest, bytes = tail ++ rest ∧ tail.length = missing ∧ width = seen + missing ∧
      ∀ b ∈ tail, 128 ≤ b.toNat ∧ b.toNat ≤ 191 := by
  induction missing generalizing seen bytes with
  | zero =>
    cases h
    exact ⟨[], bytes, rfl, rfl, rfl, fun b hb => (by cases hb)⟩
  | succ missing ih =>
    cases bytes with
    | nil => cases h
    | cons b rest =>
      rw [utf8Rest] at h
      split at h
      · rename_i hb
        obtain ⟨tail, rest, rfl, hLength, hWidth, hTail⟩ := ih h
        refine ⟨b :: tail, rest, rfl, by rw [List.length_cons, hLength], by omega, ?_⟩
        intro d hd
        rcases List.mem_cons.mp hd with rfl | hd
        · exact isContinuation_iff.mp hb
        · exact hTail d hd
      · cases h

theorem utf8Sequence_inv {first : UInt8} {bytes : Bytes} {width : Nat}
    (h : utf8Sequence (first :: bytes) = .complete width) :
    (utf8CharWidth first = 1 ∧ width = 1) ∨
      ∃ missing second tail rest, utf8CharWidth first = missing + 2 ∧ width = missing + 2 ∧
        bytes = second :: (tail ++ rest) ∧ secondAllowed first second = true ∧
        tail.length = missing ∧ ∀ b ∈ tail, 128 ≤ b.toNat ∧ b.toNat ≤ 191 := by
  rw [utf8Sequence.eq_def] at h
  dsimp only at h
  rcases hWidth : utf8CharWidth first with _ | _ | missing
  · rw [hWidth] at h
    cases h
  · rw [hWidth] at h
    cases h
    exact Or.inl ⟨rfl, rfl⟩
  · rw [hWidth] at h
    cases bytes with
    | nil => cases h
    | cons second bytes =>
      dsimp only at h
      split at h
      · rename_i hSecond
        obtain ⟨tail, rest, rfl, hLength, hSeen, hTail⟩ := utf8Rest_complete h
        exact Or.inr ⟨missing, second, tail, rest, rfl, by omega, rfl, hSecond, hLength, hTail⟩
      · cases h

/-- A complete sequence is a character. -/
theorem utf8Sequence_complete {bytes : Bytes} {width : Nat}
    (h : utf8Sequence bytes = .complete width) :
    ∃ c rest, bytes = String.utf8EncodeChar c ++ rest ∧
      width = (String.utf8EncodeChar c).length := by
  have hDone : ∀ (v : Nat) (char rest : Bytes), v.isValidChar → char.map UInt8.toNat = units v →
      width = char.length → bytes = char ++ rest →
      ∃ c rest, bytes = String.utf8EncodeChar c ++ rest ∧
        width = (String.utf8EncodeChar c).length := by
    intro v char rest hValid hUnits hWidth hBytes
    obtain ⟨c, rfl⟩ := eq_encodeChar hValid hUnits
    exact ⟨c, rest, hBytes, hWidth⟩
  cases bytes with
  | nil => cases h
  | cons first bytes =>
    have hFirst := utf8CharWidth_eq first
    rcases utf8Sequence_inv h with ⟨hOne, rfl⟩ | ⟨missing, second, tail, rest, hMore, rfl, rfl,
      hSecond, hLength, hTail⟩
    · have hValue : first.toNat ≤ 127 := by
        rw [hOne] at hFirst
        split at hFirst
        · assumption
        · split at hFirst
          · omega
          · split at hFirst
            · omega
            · split at hFirst <;> omega
      refine hDone first.toNat [first] bytes (Or.inl (by omega)) ?_ rfl rfl
      rw [units, if_pos hValue, List.map_singleton]
    · rw [hMore] at hFirst
      have hBounds := secondAllowed_iff.mp hSecond
      split at hFirst
      · omega
      · split at hFirst
        · obtain rfl : missing = 0 := by omega
          cases List.length_eq_zero_iff.mp hLength
          refine hDone ((first.toNat - 192) * 64 + (second.toNat - 128)) [first, second] rest
            (Or.inl (by omega)) ?_ rfl rfl
          rw [units, if_neg (by omega), if_pos (by omega)]
          simp only [List.map_cons, List.map_nil, List.cons.injEq, and_true]
          omega
        · split at hFirst
          · obtain rfl : missing = 1 := by omega
            obtain ⟨third, rfl⟩ := List.length_eq_one_iff.mp hLength
            have hThird := hTail third (by simp)
            refine hDone ((first.toNat - 224) * 4096 + (second.toNat - 128) * 64 +
              (third.toNat - 128)) [first, second, third] rest ?_ ?_ rfl rfl
            · rcases Nat.lt_or_ge first.toNat 238 with hLow | hHigh
              · exact Or.inl (by omega)
              · exact Or.inr (by omega)
            · rw [units, if_neg (by omega), if_neg (by omega), if_pos (by omega)]
              simp only [List.map_cons, List.map_nil, List.cons.injEq, and_true]
              omega
          · split at hFirst
            · obtain rfl : missing = 2 := by omega
              obtain ⟨third, fourth, rfl⟩ := List.length_eq_two.mp hLength
              have hThird := hTail third (by simp)
              have hFourth := hTail fourth (by simp)
              refine hDone ((first.toNat - 240) * 262144 + (second.toNat - 128) * 4096 +
                (third.toNat - 128) * 64 + (fourth.toNat - 128)) [first, second, third, fourth]
                rest (Or.inr (by omega)) ?_ rfl rfl
              rw [units, if_neg (by omega), if_neg (by omega), if_neg (by omega)]
              simp only [List.map_cons, List.map_nil, List.cons.injEq, and_true]
              omega
            · omega

theorem utf8Sequence_part {tail : Bytes} (h : Partial tail) : utf8Sequence tail = .truncated := by
  obtain ⟨c, ⟨more, hMore⟩, hNot⟩ := h
  refine (utf8Sequence_append tail more).resolve_right fun hSame => hNot ?_
  have hWhole := utf8Sequence_encodeChar c []
  rw [List.append_nil, ← hMore, hSame] at hWhole
  obtain ⟨d, rest, hTail, hWidth⟩ := utf8Sequence_complete hWhole
  rw [List.length_append] at hWidth
  have hLength := congrArg List.length hTail
  rw [List.length_append] at hLength
  have hNil : more = [] := List.eq_nil_of_length_eq_zero (by omega)
  rw [← hMore, hNil, List.append_nil]

/-- A truncated sequence is a part of a character. -/
theorem utf8Sequence_truncated {bytes : Bytes} (h : utf8Sequence bytes = .truncated) :
    Partial bytes := by
  obtain ⟨more, hMore, hComplete⟩ := utf8Sequence_completed h
  obtain ⟨c, rest, hBytes, hLength⟩ := utf8Sequence_complete hComplete
  have hNil : rest = [] := by
    rw [hBytes, List.length_append] at hLength
    exact List.eq_nil_of_length_eq_zero (by omega)
  rw [hNil, List.append_nil] at hBytes
  refine ⟨c, ⟨more, hBytes⟩, fun hSame => hMore ?_⟩
  rw [hSame] at hBytes
  exact List.append_cancel_left (hBytes.trans (List.append_nil _).symm)

/-! ## The whole -/

theorem encodeChar_cons (c : Char) : ∃ b rest, String.utf8EncodeChar c = b :: rest :=
  List.exists_cons_of_ne_nil String.utf8EncodeChar_ne_nil

/-- A text followed by a part of a character is valid up to that part. -/
theorem fromUtf8From_text (text : List Char) {tail : Bytes} (hTail : Partial tail)
    {fuel valid : Nat} (hFuel : (encode text ++ tail).length ≤ fuel) :
    fromUtf8From fuel valid (encode text ++ tail) =
      if tail = [] then none
      else some { validUpTo := valid + (encode text).length, errorLen := none } := by
  induction text generalizing fuel valid with
  | nil =>
    cases tail with
    | nil =>
      cases fuel <;> rfl
    | cons b tail =>
      rw [if_neg (List.cons_ne_nil b tail), encode_nil, List.nil_append]
      obtain ⟨fuel, rfl⟩ : ∃ left, fuel = left + 1 :=
        ⟨fuel - 1, by rw [encode_nil, List.nil_append, List.length_cons] at hFuel; omega⟩
      rw [fromUtf8From, utf8Sequence_part hTail]
      rfl
  | cons c text ih =>
    obtain ⟨b, rest, hChar⟩ := encodeChar_cons c
    rw [encode_cons, List.append_assoc] at hFuel ⊢
    have hSequence := utf8Sequence_encodeChar c (encode text ++ tail)
    have hLength : 0 < (String.utf8EncodeChar c).length := by
      rw [hChar]
      exact Nat.succ_pos _
    rw [List.length_append] at hFuel
    obtain ⟨fuel, rfl⟩ : ∃ left, fuel = left + 1 := ⟨fuel - 1, by omega⟩
    have hStep : fromUtf8From (fuel + 1) valid (String.utf8EncodeChar c ++ (encode text ++ tail)) =
        fromUtf8From fuel (valid + (String.utf8EncodeChar c).length)
          ((String.utf8EncodeChar c ++ (encode text ++ tail)).drop
            (String.utf8EncodeChar c).length) := by
      rw [hChar, List.cons_append] at hSequence ⊢
      rw [fromUtf8From, hSequence]
    rw [hStep, List.drop_left, ih (by omega), List.length_append, Nat.add_assoc]

/-- Bytes are a text and a part of a character, or a position in them cannot be repaired. -/
theorem fromUtf8From_cases (fuel valid : Nat) (bytes : Bytes) (hFuel : bytes.length ≤ fuel) :
    (∃ text tail, bytes = encode text ++ tail ∧ Partial tail) ∨
      ∃ e, fromUtf8From fuel valid bytes = some e ∧ e.errorLen ≠ none := by
  induction fuel generalizing valid bytes with
  | zero =>
    have hNil := List.eq_nil_of_length_eq_zero (Nat.le_zero.mp hFuel)
    exact Or.inl ⟨[], [], hNil, .nil⟩
  | succ fuel ih =>
    cases bytes with
    | nil => exact Or.inl ⟨[], [], rfl, .nil⟩
    | cons b rest =>
      rw [fromUtf8From]
      cases hSequence : utf8Sequence (b :: rest) with
      | complete width =>
        obtain ⟨c, more, hBytes, hWidth⟩ := utf8Sequence_complete hSequence
        obtain ⟨d, char, hChar⟩ := encodeChar_cons c
        have hLength := congrArg List.length hBytes
        rw [List.length_append, hChar, List.length_cons, List.length_cons] at hLength
        rw [List.length_cons] at hFuel
        dsimp only
        rw [hBytes, hWidth, List.drop_left]
        refine (ih (valid + _) more (by omega)).imp_left ?_
        rintro ⟨text, tail, rfl, hTail⟩
        exact ⟨c :: text, tail, by rw [encode_cons, List.append_assoc], hTail⟩
      | truncated => exact Or.inl ⟨[], b :: rest, rfl, utf8Sequence_truncated hSequence⟩
      | malformed length => exact Or.inr ⟨_, rfl, nofun⟩

theorem fromUtf8_text (text : List Char) {tail : Bytes} (hTail : Partial tail) :
    fromUtf8 (encode text ++ tail) =
      if tail = [] then none
      else some { validUpTo := (encode text).length, errorLen := none } := by
  rw [fromUtf8, fromUtf8From_text text hTail (Nat.le_refl _), Nat.zero_add]

/-! ## Chunks -/

/-- What a push leaves behind is the part of a character after the text so far. -/
theorem push_eq_ok {s s' : Utf8Stream} {bytes : Bytes} :
    s.push bytes = .ok s' ↔
      0 ∉ bytes ∧ ∃ text, s.carry ++ bytes = encode text ++ s'.carry ∧ Partial s'.carry := by
  have hText : ∀ text tail, s.carry ++ bytes = encode text ++ tail → Partial tail →
      (s.push bytes = .ok s' ↔ 0 ∉ bytes ∧ s'.carry = tail) := by
    intro text tail hBytes hTail
    have hLength := hTail.length_le
    obtain ⟨carry⟩ := s'
    unfold Utf8Stream.push
    dsimp only
    rw [hBytes, fromUtf8_text text hTail]
    by_cases hNil : tail = []
    · rw [if_pos hNil]
      simp only [bind_eq_ok, require_eq_ok, pure_eq_ok, Utf8Stream.mk.injEq, hNil, exists_const]
      rw [eq_comm]
    · rw [if_neg hNil]
      simp only [bind_eq_ok, require_eq_ok, pure_eq_ok, Utf8Stream.mk.injEq, List.drop_left,
        exists_const, true_and, hLength]
      rw [eq_comm]
  constructor
  · intro h
    rcases fromUtf8From_cases (s.carry ++ bytes).length 0 (s.carry ++ bytes) (Nat.le_refl _) with
      ⟨text, tail, hBytes, hTail⟩ | ⟨e, hError, hFinal⟩
    · obtain ⟨hNul, rfl⟩ := (hText text tail hBytes hTail).mp h
      exact ⟨hNul, text, hBytes, hTail⟩
    · unfold Utf8Stream.push at h
      rw [← fromUtf8] at hError
      dsimp only at h
      rw [hError] at h
      simp only [bind_eq_ok, require_eq_ok] at h
      obtain ⟨-, -, -, hNone, -⟩ := h
      exact absurd hNone hFinal
  · rintro ⟨hNul, text, hBytes, hTail⟩
    exact (hText text s'.carry hBytes hTail).mpr ⟨hNul, rfl⟩

/-- A part of a character is no text, unless it is empty. -/
theorem eq_nil_of_unfinished {text : List Char} (h : Partial (encode text)) : text = [] := by
  cases text with
  | nil => rfl
  | cons c text =>
    have hPart := utf8Sequence_part h
    rw [encode_cons, utf8Sequence_encodeChar] at hPart
    cases hPart

/-- All chunks so far are a text followed by what is carried. -/
theorem pushes_ok {chunks : List Bytes} {s s' : Utf8Stream} (hCarry : Partial s.carry)
    (h : chunks.foldlM Utf8Stream.push s = .ok s') :
    0 ∉ chunks.flatten ∧ Partial s'.carry ∧
      ∃ text, s.carry ++ chunks.flatten = encode text ++ s'.carry := by
  induction chunks generalizing s with
  | nil =>
    cases h
    exact ⟨List.not_mem_nil, hCarry, [], List.append_nil _⟩
  | cons chunk chunks ih =>
    rw [List.foldlM_cons, bind_eq_ok] at h
    obtain ⟨next, hPush, hRest⟩ := h
    obtain ⟨hNul, first, hFirst, hNext⟩ := push_eq_ok.mp hPush
    obtain ⟨hNuls, hPartial, second, hSecond⟩ := ih hNext hRest
    refine ⟨?_, hPartial, first ++ second, ?_⟩
    · rw [List.flatten_cons, List.mem_append]
      exact not_or.mpr ⟨hNul, hNuls⟩
    · rw [List.flatten_cons, ← List.append_assoc, hFirst, List.append_assoc, hSecond,
        encode_append, List.append_assoc]

/-- If the rest of the file completes the text, every push succeeds and nothing is left. -/
theorem pushes_text {chunks : List Bytes} {s : Utf8Stream} {text : List Char}
    (hCarry : Partial s.carry) (hNul : 0 ∉ chunks.flatten)
    (hText : s.carry ++ chunks.flatten = encode text) :
    chunks.foldlM Utf8Stream.push s = .ok .start := by
  induction chunks generalizing s text with
  | nil =>
    rw [List.flatten_nil, List.append_nil] at hText
    rw [hText] at hCarry
    rw [eq_nil_of_unfinished hCarry] at hText
    obtain ⟨carry⟩ := s
    cases hText
    rfl
  | cons chunk chunks ih =>
    rw [List.flatten_cons, List.mem_append, not_or] at hNul
    rw [List.flatten_cons, ← List.append_assoc] at hText
    obtain ⟨before, tail, after, hBefore, hTail, hAfter⟩ := encode_prefix hText
    rw [List.foldlM_cons, bind_eq_ok]
    exact ⟨{ carry := tail }, push_eq_ok.mpr ⟨hNul.1, before, hBefore, hTail⟩,
      ih hTail hNul.2 hAfter⟩

theorem finish_eq_ok {s : Utf8Stream} : s.finish = .ok () ↔ s.carry = [] := by
  rw [Utf8Stream.finish, require_eq_ok]

/-- However a file is cut, its chunks are accepted exactly if it is a text without NUL; and what is
carried from one chunk to the next is a part of one character, so that the limit on its length is
never reached. -/
theorem utf8_chunks (chunks : List Bytes) :
    ((chunks.foldlM Utf8Stream.push .start >>= Utf8Stream.finish) = .ok () ↔
        (∃ text, chunks.flatten = encode text) ∧ 0 ∉ chunks.flatten) ∧
      ∀ s, chunks.foldlM Utf8Stream.push .start = .ok s →
        Partial s.carry ∧ s.carry.length ≤ 3 ∧
          ∀ bytes e, fromUtf8 (s.carry ++ bytes) = some e → e.errorLen = none →
            ((s.carry ++ bytes).drop e.validUpTo).length ≤ 3 := by
  refine ⟨⟨fun h => ?_, ?_⟩, fun s h => ?_⟩
  · rw [bind_eq_ok] at h
    obtain ⟨s, hPushes, hFinish⟩ := h
    obtain ⟨hNul, -, text, hText⟩ := pushes_ok .nil hPushes
    rw [finish_eq_ok.mp hFinish, List.append_nil] at hText
    exact ⟨⟨text, hText⟩, hNul⟩
  · rintro ⟨⟨text, hText⟩, hNul⟩
    rw [bind_eq_ok]
    exact ⟨.start, pushes_text .nil hNul hText, rfl⟩
  · obtain ⟨-, hPartial, -⟩ := pushes_ok .nil h
    refine ⟨hPartial, hPartial.length_le, fun bytes e hError hNone => ?_⟩
    rcases fromUtf8From_cases (s.carry ++ bytes).length 0 (s.carry ++ bytes) (Nat.le_refl _) with
      ⟨text, tail, hBytes, hTail⟩ | ⟨e', hError', hFinal⟩
    · rw [hBytes, fromUtf8_text text hTail] at hError
      split at hError
      · cases hError
      · cases hError
        rw [hBytes, List.drop_left]
        exact hTail.length_le
    · cases hError'.symm.trans hError
      exact absurd hNone hFinal

/-! ## Files -/

theorem flatten_fileChunks {limit : Nat} (hLimit : 0 < limit) {fuel : Nat} {file : Bytes}
    (hFuel : file.length ≤ fuel) : (fileChunks limit fuel file).flatten = file := by
  induction fuel generalizing file with
  | zero =>
    cases List.eq_nil_of_length_eq_zero (Nat.le_zero.mp hFuel)
    rfl
  | succ fuel ih =>
    cases file with
    | nil => rfl
    | cons b rest =>
      rw [fileChunks, List.flatten_cons, ih, List.take_append_drop]
      rw [List.length_drop, List.length_cons]
      rw [List.length_cons] at hFuel
      omega

/-- A file that passes as text is one, without NUL. -/
theorem validateFileMime_text {decoders : FileDecoders} {contentType : String} {file : Bytes}
    (hType : contentType = "text/plain" ∨ contentType = "text/csv")
    (h : validateFileMime decoders contentType file = .ok ()) :
    (∃ text, file = encode text) ∧ 0 ∉ file := by
  have hOther : (contentType = "image/png" ∨ contentType = "image/jpeg") = False ∧
      (contentType = "application/json") = False := by
    rcases hType with rfl | rfl <;> decide
  simp only [validateFileMime, bind_eq_ok, hOther.1, hOther.2, if_false, if_pos hType] at h
  obtain ⟨-, -, -, -, s, hPushes, hFinish⟩ := h
  obtain ⟨hNul, -, text, hText⟩ := pushes_ok .nil hPushes
  rw [finish_eq_ok.mp hFinish, List.append_nil,
    flatten_fileChunks (by decide) (Nat.le_refl _)] at hText
  rw [flatten_fileChunks (by decide) (Nat.le_refl _)] at hNul
  exact ⟨⟨text, hText⟩, hNul⟩

end Masonwing
