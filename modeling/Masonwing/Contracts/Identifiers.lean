import Mathlib.Data.List.Basic
import Mathlib.Tactic.Ring

/-!
# Identifiers and digests

The value objects of `crates/contracts/src/lib.rs` and the UUIDs behind them. An
`OpaqueId` carries the proof that its text passed `validate_opaque_identifier`, a `Uuid`
is its 128 bits and a `Digest` its 256 bits, so the text forms below are exactly the
accepted ones.

`Uuid.parse` accepts what `Uuid::parse_str` accepts (32 digits, or hyphenated, braced or
with the URN header, in either case) while `Uuid.toText` is the lower-case hyphenated
form that `to_string` writes; `parse_toText` says that writing and reading back gives the
same identifier.
-/

namespace Masonwing

/-! ## Hexadecimal text -/

def hexDigit (n : Nat) : Char :=
  ['0', '1', '2', '3', '4', '5', '6', '7', '8', '9', 'a', 'b', 'c', 'd', 'e', 'f'].getD n '0'

def hexValue? (c : Char) : Option Nat :=
  if '0' ≤ c ∧ c ≤ '9' then some (c.toNat - 48)
  else if 'a' ≤ c ∧ c ≤ 'f' then some (c.toNat - 87)
  else if 'A' ≤ c ∧ c ≤ 'F' then some (c.toNat - 55)
  else none

/-- The lowest `w` hexadecimal digits of `n`, most significant first. -/
def hexDigits : Nat → Nat → List Char
  | 0, _ => []
  | w + 1, n => hexDigits w (n / 16) ++ [hexDigit (n % 16)]

def readHex (cs : List Char) : Option Nat :=
  cs.foldlM (fun acc c => (hexValue? c).map (16 * acc + ·)) 0

theorem hexValue?_hexDigit : ∀ n < 16, hexValue? (hexDigit n) = some n := by decide

@[simp] theorem hexDigits_length (w n : Nat) : (hexDigits w n).length = w := by
  induction w generalizing n with
  | zero => rfl
  | succ w ih => simp [hexDigits, ih]

theorem readHex_hexDigits {w n : Nat} (h : n < 16 ^ w) : readHex (hexDigits w n) = some n := by
  induction w generalizing n with
  | zero =>
    have hn : n = 0 := by simpa using h
    subst hn
    rfl
  | succ w ih =>
    have hDiv : n / 16 < 16 ^ w := by
      rw [Nat.div_lt_iff_lt_mul (by decide)]
      rw [pow_succ] at h
      exact h
    have hHigh := ih hDiv
    unfold readHex at hHigh ⊢
    rw [hexDigits, List.foldlM_append, hHigh]
    simp only [List.foldlM_cons, List.foldlM_nil, Option.bind_eq_bind, Option.bind_some,
      hexValue?_hexDigit _ (Nat.mod_lt n (by decide)), Option.map_some, Option.pure_def]
    congr 1
    omega

/-! ## UUIDs -/

/-- The 128 bits of a UUID. -/
structure Uuid where
  bits : BitVec 128
  deriving DecidableEq, Inhabited

-- The pairs that key the tables are looked up in lists.
instance instLawfulBEqUuidPair : LawfulBEq (Uuid × Uuid) := inferInstance

instance instLawfulBEqTextPair : LawfulBEq (String × String) := inferInstance

/-- Insert a hyphen after each of the given group lengths. -/
def writeGroups : List Nat → List Char → List Char
  | [], cs => cs
  | n :: ns, cs => cs.take n ++ '-' :: writeGroups ns (cs.drop n)

/-- Read the groups back, a hyphen being required after each. -/
def readGroups : List Nat → List Char → Option (List Char)
  | [], cs => some cs
  | n :: ns, cs =>
    match cs.drop n with
    | '-' :: rest => (readGroups ns rest).map (cs.take n ++ ·)
    | _ => none

theorem readGroups_writeGroups {ns : List Nat} {cs : List Char} (h : ns.sum ≤ cs.length) :
    readGroups ns (writeGroups ns cs) = some cs := by
  induction ns generalizing cs with
  | nil => rfl
  | cons n ns ih =>
    rw [List.sum_cons] at h
    have hLen : (cs.take n).length = n := by
      rw [List.length_take]
      omega
    have hRest : ns.sum ≤ (cs.drop n).length := by
      rw [List.length_drop]
      omega
    simp only [writeGroups, readGroups, List.drop_left' hLen, List.take_left' hLen, ih hRest,
      Option.map_some, List.take_append_drop]

theorem writeGroups_length {ns : List Nat} {cs : List Char} (h : ns.sum ≤ cs.length) :
    (writeGroups ns cs).length = cs.length + ns.length := by
  induction ns generalizing cs with
  | nil => rfl
  | cons n ns ih =>
    rw [List.sum_cons] at h
    have hRest : ns.sum ≤ (cs.drop n).length := by
      rw [List.length_drop]
      omega
    simp only [writeGroups, List.length_append, List.length_cons, ih hRest, List.length_take,
      List.length_drop]
    omega

theorem writeGroups_all {p : Char → Prop} (hHyphen : p '-') {ns : List Nat} {cs : List Char}
    (h : ∀ c ∈ cs, p c) : ∀ c ∈ writeGroups ns cs, p c := by
  induction ns generalizing cs with
  | nil => exact h
  | cons n ns ih =>
    intro c hc
    simp only [writeGroups, List.mem_append, List.mem_cons] at hc
    rcases hc with hc | rfl | hc
    · exact h c (List.mem_of_mem_take hc)
    · exact hHyphen
    · exact ih (fun d hd => h d (List.mem_of_mem_drop hd)) c hc

namespace Uuid

def groups : List Nat := [8, 4, 4, 4]

def chars (u : Uuid) : List Char := writeGroups groups (hexDigits 32 u.bits.toNat)

/-- The lower-case hyphenated form. -/
def toText (u : Uuid) : String := String.ofList u.chars

def ofHex (cs : List Char) : Option Uuid := (readHex cs).map fun n => ⟨BitVec.ofNat 128 n⟩

def parseHyphenated (cs : List Char) : Option Uuid :=
  if cs.length = 36 then (readGroups groups cs).bind ofHex else none

def parse (s : String) : Option Uuid :=
  let cs := s.toList
  if cs.length = 32 then ofHex cs
  else if cs.length = 36 then parseHyphenated cs
  else if cs.length = 38 ∧ cs.head? = some '\x7b' ∧ cs.getLast? = some '\x7d' then
    parseHyphenated ((cs.drop 1).take 36)
  else if cs.length = 45 ∧ cs.take 9 = "urn:uuid:".toList then parseHyphenated (cs.drop 9)
  else none

theorem chars_length (u : Uuid) : u.chars.length = 36 := by
  rw [chars, writeGroups_length (by rw [hexDigits_length]; decide), hexDigits_length]
  rfl

/-- Reading back the text of an identifier gives the identifier. -/
@[simp] theorem parse_toText (u : Uuid) : parse u.toText = some u := by
  have hHex : readHex (hexDigits 32 u.bits.toNat) = some u.bits.toNat :=
    readHex_hexDigits (lt_of_lt_of_eq u.bits.isLt (by norm_num))
  have hRead : readGroups groups u.chars = some (hexDigits 32 u.bits.toNat) :=
    readGroups_writeGroups (by rw [hexDigits_length]; decide)
  have hOf : ofHex (hexDigits 32 u.bits.toNat) = some u := by
    rw [ofHex, hHex]
    simp
  simp [parse, parseHyphenated, toText, chars_length, hRead, hOf]

theorem toText_injective {u v : Uuid} (h : u.toText = v.toText) : u = v := by
  have hParse := congrArg parse h
  rw [parse_toText, parse_toText] at hParse
  exact Option.some.inj hParse

end Uuid

/-! ## Opaque identifiers -/

def asciiAlphanumeric (c : Char) : Bool :=
  ('0' ≤ c && c ≤ '9') || ('a' ≤ c && c ≤ 'z') || ('A' ≤ c && c ≤ 'Z')

/-- `validate_opaque_identifier`: 1 to 128 characters, the first one alphanumeric, the
others alphanumeric or one of `. _ : -`. -/
def opaqueIdentifier (s : String) : Bool :=
  match s.toList with
  | [] => false
  | c :: cs =>
    decide (cs.length < 128) && asciiAlphanumeric c &&
      cs.all fun d => asciiAlphanumeric d || d == '.' || d == '_' || d == ':' || d == '-'

/-- The shared shape of `TenantId`, `PrincipalId`, `ResourceId`, `ArtifactId` and `GrantId`. -/
structure OpaqueId where
  text : String
  valid : opaqueIdentifier text = true
  deriving DecidableEq

namespace OpaqueId

def ofText? (s : String) : Option OpaqueId :=
  if h : opaqueIdentifier s = true then some ⟨s, h⟩ else none

theorem text_injective {i j : OpaqueId} (h : i.text = j.text) : i = j := by
  cases i
  cases h
  rfl

@[simp] theorem ofText?_text (i : OpaqueId) : ofText? i.text = some i := by
  rw [ofText?, dif_pos i.valid]

end OpaqueId

theorem hexDigit_alphanumeric : ∀ n < 16, asciiAlphanumeric (hexDigit n) = true := by decide

theorem hexDigits_alphanumeric (w n : Nat) :
    ∀ c ∈ hexDigits w n, asciiAlphanumeric c = true := by
  induction w generalizing n with
  | zero => simp [hexDigits]
  | succ w ih =>
    intro c hc
    rw [hexDigits, List.mem_append, List.mem_singleton] at hc
    rcases hc with hc | rfl
    · exact ih _ c hc
    · exact hexDigit_alphanumeric _ (Nat.mod_lt n (by decide))

namespace Uuid

theorem toText_valid (u : Uuid) : opaqueIdentifier u.toText = true := by
  have hLen := u.chars_length
  have hAll : ∀ c ∈ u.chars, asciiAlphanumeric c = true ∨ c = '-' :=
    writeGroups_all (Or.inr rfl) fun c hc => Or.inl (hexDigits_alphanumeric 32 _ c hc)
  have hHead : ∀ c ∈ u.chars.take 8, asciiAlphanumeric c = true := by
    intro c hc
    have hTake : u.chars.take 8 = (hexDigits 32 u.bits.toNat).take 8 :=
      List.take_left' (by rw [List.length_take, hexDigits_length]; rfl)
    rw [hTake] at hc
    exact hexDigits_alphanumeric 32 _ c (List.mem_of_mem_take hc)
  rw [opaqueIdentifier, toText, String.toList_ofList]
  cases hc : u.chars with
  | nil =>
    rw [hc] at hLen
    cases hLen
  | cons c cs =>
    rw [hc] at hLen hAll hHead
    have hcs : cs.length = 35 := by simpa using hLen
    have hFirst : asciiAlphanumeric c = true := hHead c (by simp)
    have hTail : (cs.all fun d => asciiAlphanumeric d || d == '.' || d == '_' || d == ':' ||
        d == '-') = true := by
      rw [List.all_eq_true]
      intro d hd
      rcases hAll d (List.mem_cons_of_mem _ hd) with h | h <;> simp [h]
    simp [hcs, hFirst, hTail]

/-- `resource_id`: the identifier whose text is the UUID. -/
def toId (u : Uuid) : OpaqueId := ⟨u.toText, u.toText_valid⟩

@[simp] theorem toId_text (u : Uuid) : u.toId.text = u.toText := rfl

end Uuid

/-! ## Digests -/

/-- A SHA-256 digest; its text is `sha256:` and 64 lower-case digits. -/
structure Digest where
  bits : BitVec 256
  deriving DecidableEq, Inhabited

namespace Digest

def toText (d : Digest) : String := String.ofList ("sha256:".toList ++ hexDigits 64 d.bits.toNat)

def lowerHex (c : Char) : Bool := ('0' ≤ c && c ≤ '9') || ('a' ≤ c && c ≤ 'f')

/-- `Digest::try_from`: the header and 64 lower-case hexadecimal digits. -/
def parse (s : String) : Option Digest :=
  let cs := s.toList
  if cs.take 7 = "sha256:".toList ∧ (cs.drop 7).length = 64 ∧ (cs.drop 7).all lowerHex = true then
    (readHex (cs.drop 7)).map fun n => ⟨BitVec.ofNat 256 n⟩
  else none

theorem hexDigit_lowerHex : ∀ n < 16, lowerHex (hexDigit n) = true := by decide

theorem hexDigits_lowerHex (w n : Nat) : (hexDigits w n).all lowerHex = true := by
  induction w generalizing n with
  | zero => rfl
  | succ w ih =>
    simp [hexDigits, List.all_append, ih, hexDigit_lowerHex _ (Nat.mod_lt n (by decide))]

@[simp] theorem parse_toText (d : Digest) : parse d.toText = some d := by
  have hHex : readHex (hexDigits 64 d.bits.toNat) = some d.bits.toNat := by
    apply readHex_hexDigits
    have hPow : (16 : Nat) ^ 64 = 2 ^ 256 := by rw [show 16 = 2 ^ 4 from rfl, ← pow_mul]
    rw [hPow]
    exact d.bits.isLt
  have hHeader : "sha256:".toList.length = 7 := by decide
  have hTake : ("sha256:".toList ++ hexDigits 64 d.bits.toNat).take 7 = "sha256:".toList :=
    List.take_left' hHeader
  have hDrop : ("sha256:".toList ++ hexDigits 64 d.bits.toNat).drop 7 =
      hexDigits 64 d.bits.toNat := List.drop_left' hHeader
  unfold parse toText
  simp only [String.toList_ofList]
  rw [hTake, hDrop, if_pos ⟨rfl, hexDigits_length 64 _, hexDigits_lowerHex 64 _⟩, hHex,
    Option.map_some, BitVec.ofNat_toNat, BitVec.setWidth_eq]

theorem toText_injective {d e : Digest} (h : d.toText = e.toText) : d = e := by
  have hParse := congrArg parse h
  rw [parse_toText, parse_toText] at hParse
  exact Option.some.inj hParse

end Digest

end Masonwing
