import Masonwing.Contracts.Identifiers
import Masonwing.Lib.Ascii

/-!
# Identifiers as bytes

The texts of `Masonwing.Contracts.Identifiers` are made of ASCII characters, so writing one is
writing its bytes and reading one is reading them. `Uuid.byteText`, `Digest.byteText` and the
functions beside them do that, and each theorem whose name ends in `bytewise` says that one of
them is the function of the model. They are for evaluating a run on a fixed input, which is
mostly work on identifiers: character by character, a single one takes thousands of steps.
-/

namespace Masonwing

/-! ## Characters -/

def within (low high n : Nat) : Bool := Nat.ble low n && Nat.ble n high

theorem within_eq_true {low high n : Nat} : within low high n = true ↔ low ≤ n ∧ n ≤ high := by
  rw [within, Bool.and_eq_true, Nat.ble_eq, Nat.ble_eq]

theorem decide_within {low high c : Char} :
    (decide (low ≤ c) && decide (c ≤ high)) = within low.toNat high.toNat c.toNat := by
  rw [Bool.eq_iff_iff, within_eq_true, Bool.and_eq_true, decide_eq_true_iff, decide_eq_true_iff]
  exact Iff.rfl

def hexCode? (c : Char) : Option Nat :=
  bif within 48 57 c.toNat then some (c.toNat - 48)
  else bif within 97 102 c.toNat then some (c.toNat - 87)
  else bif within 65 70 c.toNat then some (c.toNat - 55)
  else none

theorem hexValue?_bytewise : hexValue? = hexCode? := by
  funext c
  have hDigit : ('0' ≤ c ∧ c ≤ '9') ↔ within 48 57 c.toNat = true := within_eq_true.symm
  have hLower : ('a' ≤ c ∧ c ≤ 'f') ↔ within 97 102 c.toNat = true := within_eq_true.symm
  have hUpper : ('A' ≤ c ∧ c ≤ 'F') ↔ within 65 70 c.toNat = true := within_eq_true.symm
  simp only [hexValue?, hexCode?, cond_eq_ite, hDigit, hLower, hUpper]

def alphanumericCode (c : Char) : Bool :=
  within 48 57 c.toNat || within 97 122 c.toNat || within 65 90 c.toNat

theorem asciiAlphanumeric_bytewise : asciiAlphanumeric = alphanumericCode := by
  funext c
  simp only [asciiAlphanumeric, decide_within]
  rfl

/-! ## Hexadecimal digits -/

def digitCode (n : Nat) : Nat := bif Nat.blt n 10 then 48 + n else 87 + n

theorem digitCode_lt {n : Nat} (h : n < 16) : digitCode n < 128 := by
  unfold digitCode
  cases Nat.blt n 10 <;> simp only [cond_true, cond_false] <;> omega

/-- The byte of the lowest hexadecimal digit of `n`. -/
def hexByte (n : Nat) : UInt8 :=
  ⟨⟨digitCode (n % 16), Nat.lt_trans (digitCode_lt (Nat.mod_lt n (by decide))) (by decide)⟩⟩

theorem toNat_hexByte (n : Nat) : (hexByte n).toNat = digitCode (n % 16) := rfl

theorem ofUInt8_hexByte (n : Nat) : Char.ofUInt8 (hexByte n) = hexDigit (n % 16) := by
  have hDigit : ∀ k < 16, (hexDigit k).toNat = digitCode k := by decide
  apply Char.toNat_inj.mp
  rw [hDigit _ (Nat.mod_lt n (by decide)), Ascii.toNat_ofUInt8, toNat_hexByte]

/-- The bytes of the lowest `w` hexadecimal digits of `n`, before the given ones. -/
def hexBytes : Nat → Nat → List UInt8 → List UInt8
  | 0, _, bytes => bytes
  | w + 1, n, bytes => hexBytes w (n / 16) (hexByte n :: bytes)

theorem map_hexBytes (w n : Nat) (bytes : List UInt8) :
    (hexBytes w n bytes).map Char.ofUInt8 = hexDigits w n ++ bytes.map Char.ofUInt8 := by
  induction w generalizing n bytes with
  | zero => rfl
  | succ w ih =>
    rw [hexBytes, ih, List.map_cons, ofUInt8_hexByte, hexDigits, List.append_assoc,
      List.singleton_append]

theorem hexBytes_ascii (w n : Nat) {bytes : List UInt8} (h : ∀ b ∈ bytes, b.toNat < 128) :
    ∀ b ∈ hexBytes w n bytes, b.toNat < 128 := by
  induction w generalizing n bytes with
  | zero => exact h
  | succ w ih =>
    refine ih _ (List.forall_mem_cons.mpr ⟨?_, h⟩)
    exact digitCode_lt (Nat.mod_lt n (by decide))

theorem hexDigits_add (v w n : Nat) :
    hexDigits (v + w) n = hexDigits v (n / 16 ^ w) ++ hexDigits w n := by
  induction w generalizing n with
  | zero => simp [hexDigits]
  | succ w ih =>
    rw [← Nat.add_assoc, hexDigits, ih, Nat.div_div_eq_div_mul, ← Nat.pow_succ', hexDigits,
      List.append_assoc]

theorem writeGroups_hexDigits (v w n : Nat) (groups : List Nat) :
    writeGroups (v :: groups) (hexDigits (v + w) n) =
      hexDigits v (n / 16 ^ w) ++ '-' :: writeGroups groups (hexDigits w n) := by
  have hLen := hexDigits_length v (n / 16 ^ w)
  rw [writeGroups, hexDigits_add, List.take_left' hLen, List.drop_left' hLen]

/-! ## UUIDs -/

namespace Uuid

/-- The groups of digits and the hyphens between them. -/
def bytes (u : Uuid) : List UInt8 :=
  let n := u.bits.toNat
  hexBytes 8 (n / 16 ^ 24) (45 :: hexBytes 4 (n / 16 ^ 20) (45 :: hexBytes 4 (n / 16 ^ 16)
    (45 :: hexBytes 4 (n / 16 ^ 12) (45 :: hexBytes 12 n []))))

theorem map_bytes (u : Uuid) : u.bytes.map Char.ofUInt8 = u.chars := by
  have hHyphen : Char.ofUInt8 45 = '-' := rfl
  simp only [bytes, map_hexBytes, List.map_cons, List.map_nil, List.append_nil, hHyphen]
  rw [chars, groups, writeGroups_hexDigits 8 24, writeGroups_hexDigits 4 20,
    writeGroups_hexDigits 4 16, writeGroups_hexDigits 4 12]
  rfl

theorem bytes_ascii (u : Uuid) : ∀ b ∈ u.bytes, b.toNat < 128 := by
  have hHyphen : ∀ bytes : List UInt8, (∀ b ∈ bytes, b.toNat < 128) →
      ∀ b ∈ 45 :: bytes, b.toNat < 128 := fun bytes h => List.forall_mem_cons.mpr ⟨by decide, h⟩
  unfold bytes
  exact hexBytes_ascii _ _ (hHyphen _ (hexBytes_ascii _ _ (hHyphen _ (hexBytes_ascii _ _
    (hHyphen _ (hexBytes_ascii _ _ (hHyphen _ (hexBytes_ascii _ _ (List.forall_mem_nil _)))))))))

def byteText (u : Uuid) : String := Ascii.ofBytes u.bytes u.bytes_ascii

theorem toText_bytewise : toText = byteText := by
  funext u
  rw [byteText, Ascii.ofBytes_eq, map_bytes, toText]

theorem byteText_valid (u : Uuid) : opaqueIdentifier u.byteText = true := by
  rw [← toText_bytewise]
  exact u.toText_valid

def byteId (u : Uuid) : OpaqueId := ⟨u.byteText, u.byteText_valid⟩

theorem toId_bytewise : toId = byteId :=
  funext fun u => OpaqueId.text_injective (congrFun toText_bytewise u)

noncomputable def parseBytes : { f // parse = f } :=
  ⟨_, by
    delta parse parseHyphenated ofHex readHex
    rw [Ascii.toList_eq, hexValue?_bytewise]⟩

end Uuid

/-! ## Opaque identifiers -/

namespace OpaqueId

/-- `opaqueIdentifier` of the characters of a text. -/
def allowed : List Char → Bool
  | [] => false
  | c :: cs =>
    Nat.blt cs.length 128 && alphanumericCode c &&
      cs.all fun d => alphanumericCode d || within 45 46 d.toNat || Nat.beq d.toNat 95 ||
        Nat.beq d.toNat 58

theorem opaqueIdentifier_eq (s : String) : opaqueIdentifier s = allowed (Ascii.chars s) := by
  have hPunctuation : ∀ d : Char, (d == '.' || d == '_' || d == ':' || d == '-') =
      (within 45 46 d.toNat || Nat.beq d.toNat 95 || Nat.beq d.toNat 58) := by
    intro d
    rw [Bool.eq_iff_iff]
    simp only [Bool.or_eq_true, beq_iff_eq, within_eq_true, Nat.beq_eq, ← Char.toNat_inj]
    simp only [Char.reduceToNat]
    omega
  rw [Ascii.chars_eq, opaqueIdentifier]
  cases s.toList with
  | nil => rfl
  | cons c cs =>
    have hLength : decide (cs.length < 128) = Nat.blt cs.length 128 := by
      rw [Bool.eq_iff_iff, decide_eq_true_iff, Nat.blt_eq]
    simp only [allowed, asciiAlphanumeric_bytewise, hLength, Bool.or_assoc] at hPunctuation ⊢
    simp only [hPunctuation]

def ofByteText? (s : String) : Option OpaqueId :=
  if h : allowed (Ascii.chars s) = true then some ⟨s, (opaqueIdentifier_eq s).trans h⟩ else none

theorem ofText?_bytewise : ofText? = ofByteText? := by
  funext s
  simp only [ofText?, ofByteText?, opaqueIdentifier_eq]

end OpaqueId

/-! ## Digests -/

namespace Digest

theorem lowerHex_bytewise :
    lowerHex = fun c => within 48 57 c.toNat || within 97 102 c.toNat := by
  funext c
  simp only [lowerHex, decide_within]
  rfl

/-- The 64 digits alone. -/
def byteHex (d : Digest) : String :=
  Ascii.ofBytes (hexBytes 64 d.bits.toNat []) (hexBytes_ascii _ _ (List.forall_mem_nil _))

theorem byteHex_eq (d : Digest) : d.byteHex = String.ofList (hexDigits 64 d.bits.toNat) := by
  rw [byteHex, Ascii.ofBytes_eq, map_hexBytes, List.map_nil, List.append_nil]

def header : List UInt8 := [115, 104, 97, 50, 53, 54, 58]

theorem map_header : header.map Char.ofUInt8 = "sha256:".toList := by decide +kernel

theorem header_ascii : ∀ b ∈ header, b.toNat < 128 := by decide +kernel

def byteText (d : Digest) : String :=
  Ascii.ofBytes (header ++ hexBytes 64 d.bits.toNat [])
    (List.forall_mem_append.mpr ⟨header_ascii, hexBytes_ascii _ _ (List.forall_mem_nil _)⟩)

theorem toText_bytewise : toText = byteText := by
  funext d
  have hText : byteText d =
      String.ofList ((header ++ hexBytes 64 d.bits.toNat []).map Char.ofUInt8) :=
    Ascii.ofBytes_eq _
  rw [List.map_append, map_hexBytes, map_header, List.map_nil, List.append_nil] at hText
  exact hText.symm

noncomputable def parseBytes : { f // parse = f } :=
  ⟨_, by
    delta parse readHex
    rw [Ascii.toList_eq, lowerHex_bytewise, hexValue?_bytewise]⟩

/-- Equality of the bits. The derived instance casts along the equality it finds, so that the
kernel compares the terms for the two digests again. -/
def byteDecEq : DecidableEq Digest := fun d e =>
  match h : Nat.beq d.bits.toNat e.bits.toNat with
  | true => isTrue (congrArg Digest.mk (BitVec.eq_of_toNat_eq (Nat.eq_of_beq_eq_true h)))
  | false => isFalse fun hEq => Nat.ne_of_beq_eq_false h (hEq ▸ rfl)

theorem decEq_bytewise : instDecidableEqDigest = byteDecEq := Subsingleton.elim _ _

end Digest

end Masonwing
