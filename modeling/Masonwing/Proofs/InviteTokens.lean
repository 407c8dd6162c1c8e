import Masonwing.Lib.Base64
import Masonwing.Lib.Utf8
import Masonwing.Store.Invitations

/-!
# Tokens of invitations

`invite_tokens`: the text that is signed determines the claims, a token that was derived is
verified and gives its claims back, and whatever is verified carries the signature of the claims
that it gives.
-/

namespace Masonwing

open Outcome

/-! ## What is signed -/

@[simp] theorem length_bigEndian (count : Nat) {w : Nat} (bits : BitVec w) :
    (bigEndian count bits).length = count := by
  rw [bigEndian, List.length_map, List.length_range]

/-- The bytes of a bit vector determine it. -/
theorem bigEndian_injective {count : Nat} {x y : BitVec (8 * count)}
    (h : bigEndian count x = bigEndian count y) : x = y := by
  refine BitVec.eq_of_getLsbD_eq fun i hi => ?_
  have hByte : x.extractLsb' (8 * (i / 8)) 8 = y.extractLsb' (8 * (i / 8)) 8 := by
    have hBytes := congrArg UInt8.toBitVec
      (List.map_inj_left.mp h (count - 1 - i / 8) (List.mem_range.mpr (by omega)))
    dsimp only at hBytes
    rw [show count - 1 - (count - 1 - i / 8) = i / 8 by omega] at hBytes
    exact hBytes
  have hBit := congrArg (·.getLsbD (i % 8)) hByte
  simp only [BitVec.getLsbD_extractLsb'] at hBit
  rw [decide_eq_true (Nat.mod_lt i (by decide)), Bool.true_and, Bool.true_and,
    Nat.div_add_mod] at hBit
  exact hBit

/-- The text that `mac` signs. -/
def macInput (inviteId tenantId : Uuid) (expiresUnix : Int) : Bytes :=
  utf8 InviteTokenKey.version ++ [0] ++ bigEndian 16 inviteId.bits ++ bigEndian 16 tenantId.bits ++
    bigEndian 8 (BitVec.ofInt 64 expiresUnix)

/-- A value of type `i64`. -/
def inI64 (n : Int) : Prop := -maxI64 - 1 ≤ n ∧ n ≤ maxI64

theorem ofInt_injective {e e' : Int} (he : inI64 e) (he' : inI64 e')
    (h : BitVec.ofInt 64 e = BitVec.ofInt 64 e') : e = e' := by
  have hValues := congrArg BitVec.toInt h
  rw [BitVec.toInt_ofInt, BitVec.toInt_ofInt] at hValues
  unfold inI64 maxI64 at he he'
  rw [Int.bmod_def, Int.bmod_def] at hValues
  split at hValues <;> split at hValues <;> omega

theorem macInput_injective {i t i' t' : Uuid} {e e' : Int} (he : inI64 e) (he' : inI64 e')
    (h : macInput i t e = macInput i' t' e') : i = i' ∧ t = t' ∧ e = e' := by
  unfold macInput at h
  obtain ⟨hFirst, hExpiry⟩ := List.append_inj' h (by rw [length_bigEndian, length_bigEndian])
  obtain ⟨hFirst, hTenant⟩ := List.append_inj' hFirst (by rw [length_bigEndian, length_bigEndian])
  obtain ⟨-, hInvite⟩ := List.append_inj' hFirst (by rw [length_bigEndian, length_bigEndian])
  refine ⟨?_, ?_, ofInt_injective he he' (@bigEndian_injective 8 _ _ hExpiry)⟩
  · cases i
    cases i'
    cases @bigEndian_injective 16 _ _ hInvite
    rfl
  · cases t
    cases t'
    cases @bigEndian_injective 16 _ _ hTenant
    rfl

/-! ## The parts of a token -/

/-- What the token takes from HMAC-SHA256 and from base64. -/
structure InviteTokenKey.Lawful (key : InviteTokenKey) : Prop where
  length_hmac : ∀ message, (key.hmac message).length = 32
  decode_encode : ∀ bytes, key.decode (key.encode bytes) = some bytes
  length_encode : ∀ bytes, (key.encode bytes).toList.length = Base64.symbolCount bytes.length
  encode_alphabet : ∀ bytes, ∀ c ∈ (key.encode bytes).toList, c ∈ Base64.alphabet

/-- The characters in the parts of a token. -/
def tokenChar (c : Char) : Bool := asciiAlphanumeric c || c == '-' || c == '_'

theorem tokenChar_alphabet : ∀ c ∈ Base64.alphabet, tokenChar c = true :=
  List.all_eq_true.mp (by decide)

theorem tokenChar_alphanumeric {c : Char} (h : asciiAlphanumeric c = true) :
    tokenChar c = true := by
  rw [tokenChar, h]
  rfl

theorem tokenChar_toText (u : Uuid) : ∀ c ∈ u.toText.toList, tokenChar c = true := by
  intro c hc
  rw [Uuid.toText, String.toList_ofList] at hc
  exact writeGroups_all (p := fun d => tokenChar d = true) rfl
    (fun d hd => tokenChar_alphanumeric (hexDigits_alphanumeric 32 _ d hd)) c hc

theorem tokenChar_digit {c : Char} (h : c.isDigit = true) : tokenChar c = true := by
  refine tokenChar_alphanumeric ?_
  rw [Char.isDigit, Bool.and_eq_true, decide_eq_true_eq, decide_eq_true_eq] at h
  rw [asciiAlphanumeric, Bool.or_eq_true, Bool.or_eq_true, Bool.and_eq_true, decide_eq_true_eq,
    decide_eq_true_eq]
  exact Or.inl (Or.inl h)

/-- The text of a number: decimal digits, after a minus sign if it is negative. -/
theorem toString_toList (e : Int) :
    (toString e).toList =
      if 0 ≤ e then Nat.toDigits 10 e.toNat else '-' :: Nat.toDigits 10 (-e).toNat := by
  rw [Int.toString_eq_repr, Int.repr_eq_if]
  split
  · exact Nat.toList_repr
  · rw [String.toList_append, Nat.toList_repr]
    rfl

theorem tokenChar_toString (e : Int) : ∀ c ∈ (toString e).toList, tokenChar c = true := by
  have hDigits : ∀ n, ∀ c ∈ Nat.toDigits 10 n, tokenChar c = true := fun n c hc =>
    tokenChar_digit (Nat.isDigit_of_mem_toDigits (by decide) (by decide) hc)
  intro c hc
  rw [toString_toList] at hc
  split at hc
  · exact hDigits _ c hc
  · rcases List.mem_cons.mp hc with rfl | hc
    · rfl
    · exact hDigits _ c hc

theorem toDigits_all (n : Nat) : (Nat.toDigits 10 n).all Char.isDigit = true := by
  rw [List.all_eq_true]
  exact fun c hc => Nat.isDigit_of_mem_toDigits (by decide) (by decide) hc

/-- Reading back the text of a number gives the number. -/
theorem parseI64_toString {e : Int} (he : inI64 e) : parseI64 (toString e).toList = some e := by
  have hRange : -maxI64 - 1 ≤ e ∧ e ≤ maxI64 := he
  have hFilter : (some e).filter (fun n => decide (-maxI64 - 1 ≤ n ∧ n ≤ maxI64)) = some e := by
    rw [Option.filter_some, if_pos (decide_eq_true hRange)]
  rw [toString_toList, parseI64.eq_def]
  by_cases hNonneg : 0 ≤ e
  · have hValue : ((Nat.ofDigitChars 10 (Nat.toDigits 10 e.toNat) 0 : Nat) : Int) = e := by
      rw [Nat.ofDigitChars_ten_toDigits, Int.toNat_of_nonneg hNonneg]
    have hAll := toDigits_all e.toNat
    rw [if_pos hNonneg]
    dsimp only
    split
    · rename_i digits hMinus
      rw [hMinus] at hAll
      cases hAll
    · rename_i digits hPlus
      rw [hPlus] at hAll
      cases hAll
    · rw [if_pos ⟨Nat.toDigits_ne_nil, hAll⟩, if_neg (by decide), hValue]
      exact hFilter
  · have hValue : -((Nat.ofDigitChars 10 (Nat.toDigits 10 (-e).toNat) 0 : Nat) : Int) = e := by
      rw [Nat.ofDigitChars_ten_toDigits, Int.toNat_of_nonneg (by omega), Int.neg_neg]
    rw [if_neg hNonneg]
    dsimp only
    split
    · rename_i digits hMinus
      obtain ⟨-, rfl⟩ := List.cons.inj hMinus
      rw [if_pos ⟨Nat.toDigits_ne_nil, toDigits_all _⟩, if_pos rfl, hValue]
      exact hFilter
    · rename_i hPlus
      exact absurd (List.cons.inj hPlus).1 (by decide)
    · rename_i hMinus hPlus
      exact absurd rfl (hMinus _)

/-! ## The whole token -/

/-- `DateTime`: whole seconds, and the nanoseconds beyond them. -/
structure DateTime where
  seconds : Int
  nanoseconds : Nat
  representable : dateTimeSeconds seconds
  fraction : nanoseconds < 2000000000

/-- `timestamp`; the fraction is left out. -/
def DateTime.timestamp (e : DateTime) : Int := e.seconds

theorem DateTime.inI64 (e : DateTime) : inI64 e.timestamp := by
  obtain ⟨hLow, hHigh⟩ := e.representable
  unfold Masonwing.inI64 maxI64 DateTime.timestamp
  omega

theorem DateTime.length_toString (e : DateTime) : (toString e.timestamp).toList.length ≤ 14 := by
  obtain ⟨hLow, hHigh⟩ := e.representable
  rw [DateTime.timestamp, toString_toList]
  split
  · have hDigits : (Nat.toDigits 10 e.seconds.toNat).length ≤ 13 :=
      (Nat.length_toDigits_le_iff (by decide) (by decide)).mpr (by omega)
    omega
  · have hDigits : (Nat.toDigits 10 (-e.seconds).toNat).length ≤ 13 :=
      (Nat.length_toDigits_le_iff (by decide) (by decide)).mpr (by omega)
    rw [List.length_cons]
    omega

section Tokens

variable {key : InviteTokenKey} (hKey : key.Lawful) (i t : Uuid) (e : DateTime)

theorem version_chars : ∀ c ∈ InviteTokenKey.version.toList, tokenChar c = true := by
  have hVersion : InviteTokenKey.version.toList = ['m', 'w', 'i', 'v', '1'] := rfl
  rw [hVersion]
  exact List.all_eq_true.mp (by decide)

/-- The parts of a derived token, between its dots. -/
def tokenParts (key : InviteTokenKey) (i t : Uuid) (expiresUnix : Int) : List (List Char) :=
  [InviteTokenKey.version.toList, i.toText.toList, t.toText.toList, (toString expiresUnix).toList,
    (key.encode (key.mac i t expiresUnix)).toList]

theorem deriveToken_toList (expiresUnix : Int) :
    (key.deriveToken i t expiresUnix).toList =
      ['.'].intercalate (tokenParts key i t expiresUnix) := by
  simp [InviteTokenKey.deriveToken, tokenParts, String.toList_append, List.intercalate,
    List.intersperse]

include hKey in
theorem tokenParts_chars (expiresUnix : Int) :
    ∀ part ∈ tokenParts key i t expiresUnix, ∀ c ∈ part, tokenChar c = true := by
  intro part hPart
  rw [tokenParts, List.mem_cons, List.mem_cons, List.mem_cons, List.mem_cons,
    List.mem_singleton] at hPart
  rcases hPart with hPart | hPart | hPart | hPart | hPart
  all_goals rw [hPart]
  · exact version_chars
  · exact tokenChar_toText i
  · exact tokenChar_toText t
  · exact tokenChar_toString expiresUnix
  · exact fun c hc => tokenChar_alphabet c (hKey.encode_alphabet _ c hc)

theorem utf8_eq (text : String) : utf8 text = Utf8.encode text.toList := by
  rw [utf8, String.toUTF8_eq_toByteArray, ← String.utf8Encode_toList, List.utf8Encode, Utf8.encode]
  simp

theorem mem_intercalate {α : Type} {x c : α} {ls : List (List α)}
    (h : c ∈ [x].intercalate ls) : c = x ∨ ∃ l ∈ ls, c ∈ l := by
  rw [List.intercalate, List.mem_flatten] at h
  obtain ⟨l, hl, hc⟩ := h
  have hParts : ∀ ls : List (List α), l ∈ ls.intersperse [x] → l = [x] ∨ l ∈ ls := by
    intro ls
    induction ls with
    | nil => exact fun hl => Or.inr hl
    | cons a ls ih =>
      cases ls with
      | nil => exact fun hl => Or.inr hl
      | cons b ls =>
        intro hl
        rw [List.intersperse_cons_cons, List.mem_cons, List.mem_cons] at hl
        rcases hl with rfl | rfl | hl
        · exact Or.inr List.mem_cons_self
        · exact Or.inl rfl
        · exact (ih hl).imp_right (List.mem_cons_of_mem a)
  rcases hParts ls hl with rfl | hl
  · exact Or.inl (List.mem_singleton.mp hc)
  · exact Or.inr ⟨l, hl, hc⟩

theorem tokenChar_bounds {c : Char} (h : tokenChar c = true) :
    45 ≤ c.toNat ∧ c.toNat ≤ 122 ∧ c.toNat ≠ 46 := by
  have hLe : ∀ d : Char, (c ≤ d ↔ c.toNat ≤ d.toNat) ∧ (d ≤ c ↔ d.toNat ≤ c.toNat) := fun d =>
    ⟨UInt32.le_iff_toNat_le, UInt32.le_iff_toNat_le⟩
  simp only [tokenChar, asciiAlphanumeric, Bool.or_eq_true, Bool.and_eq_true, decide_eq_true_eq,
    beq_iff_eq, hLe] at h
  rcases h with ((⟨h, h'⟩ | ⟨h, h'⟩) | ⟨h, h'⟩) | (rfl | rfl)
  · have hBounds : '0'.toNat = 48 ∧ '9'.toNat = 57 := ⟨rfl, rfl⟩
    omega
  · have hBounds : 'a'.toNat = 97 ∧ 'z'.toNat = 122 := ⟨rfl, rfl⟩
    omega
  · have hBounds : 'A'.toNat = 65 ∧ 'Z'.toNat = 90 := ⟨rfl, rfl⟩
    omega
  · decide
  · decide

include hKey in
/-- Every character of a token is one byte and no white space. -/
theorem deriveToken_chars (expiresUnix : Int) :
    ∀ c ∈ (key.deriveToken i t expiresUnix).toList, c.toNat < 128 ∧ whiteSpace c = false := by
  have hPlain : ∀ c : Char, 45 ≤ c.toNat → c.toNat ≤ 122 →
      c.toNat < 128 ∧ whiteSpace c = false := by
    intro c hLow hHigh
    refine ⟨by omega, ?_⟩
    simp [whiteSpace]
    omega
  intro c hc
  rw [deriveToken_toList] at hc
  rcases mem_intercalate hc with rfl | ⟨part, hPart, hc⟩
  · exact hPlain '.' (by decide) (by decide)
  · obtain ⟨hLow, hHigh, -⟩ :=
      tokenChar_bounds (tokenParts_chars hKey i t expiresUnix part hPart c hc)
    exact hPlain c hLow hHigh

include hKey in
theorem length_deriveToken : (utf8 (key.deriveToken i t e.timestamp)).length ≤ 256 := by
  have hUuid : ∀ u : Uuid, u.toText.toList.length = 36 := fun u => by
    rw [Uuid.toText, String.toList_ofList, Uuid.chars_length]
  have hVersion : InviteTokenKey.version.toList.length = 5 := rfl
  have hSignature : (key.encode (key.mac i t e.timestamp)).toList.length = 43 := by
    rw [hKey.length_encode, InviteTokenKey.mac, hKey.length_hmac]
    rfl
  have hExpiry := e.length_toString
  rw [utf8_eq, Utf8.length_encode_ascii fun c hc => (deriveToken_chars hKey i t _ c hc).1,
    deriveToken_toList]
  simp only [tokenParts, List.intercalate_cons_cons, List.intercalate_singleton, List.length_append,
    List.length_singleton, hUuid, hVersion, hSignature]
  omega

include hKey in
/-- A derived token is read back. -/
theorem readToken_deriveToken :
    key.readToken (key.deriveToken i t e.timestamp) =
      some { inviteId := i, tenantId := t, expiresUnix := e.timestamp } := by
  have hSplit : (key.deriveToken i t e.timestamp).toList.splitOn '.' =
      tokenParts key i t e.timestamp := by
    rw [deriveToken_toList]
    refine List.splitOn_intercalate '.' (fun part hPart hDot => ?_) (List.cons_ne_nil _ _)
    exact (tokenChar_bounds (tokenParts_chars hKey i t e.timestamp part hPart '.' hDot)).2.2 rfl
  rw [InviteTokenKey.readToken, hSplit, tokenParts]
  dsimp only
  simp only [String.ofList_toList, Uuid.parse_toText, parseI64_toString e.inI64,
    hKey.decode_encode, Option.bind_eq_bind, Option.bind_some, guard, if_true]
  have hRange : dateTimeSeconds e.timestamp := e.representable
  rw [if_pos hRange]
  rfl

theorem of_guard {p : Prop} [Decidable p] {u : Unit} (h : (guard p : Option Unit) = some u) :
    p := by
  by_contra hNot
  rw [guard, if_neg hNot] at h
  cases h

/-- What is read was signed as it was read, however its parts are spelled. -/
theorem readToken_signed {raw : String} {claims : InviteTokenClaims}
    (h : key.readToken raw = some claims) :
    ∃ version invite tenant expires signature,
      raw.toList.splitOn '.' = [version, invite, tenant, expires, signature] ∧
        Uuid.parse (String.ofList invite) = some claims.inviteId ∧
        Uuid.parse (String.ofList tenant) = some claims.tenantId ∧
        parseI64 expires = some claims.expiresUnix ∧
        key.decode (String.ofList signature) =
          some (key.mac claims.inviteId claims.tenantId claims.expiresUnix) := by
  unfold InviteTokenKey.readToken at h
  split at h
  · rename_i version invite tenant expires signature hSplit
    simp only [Option.bind_eq_bind, Option.bind_eq_some_iff, Option.pure_def,
      Option.some.injEq] at h
    obtain ⟨-, -, inviteId, hInvite, tenantId, hTenant, expiresUnix, hExpires, bytes, hBytes, _,
      hSigned, -, -, rfl⟩ := h
    refine ⟨version, invite, tenant, expires, signature, hSplit, hInvite, hTenant, hExpires, ?_⟩
    rw [hBytes, of_guard hSigned]
  · cases h

include hKey in
theorem verifyToken_deriveToken :
    key.verifyToken (key.deriveToken i t e.timestamp) =
      .ok { inviteId := i, tenantId := t, expiresUnix := e.timestamp } := by
  have hSpace : (key.deriveToken i t e.timestamp).toList.any whiteSpace = false :=
    List.any_eq_false.mpr fun c hc => by
      rw [(deriveToken_chars hKey i t e.timestamp c hc).2]
      exact Bool.false_ne_true
  simp only [InviteTokenKey.verifyToken, bind_eq_ok, require_eq_ok, okOr_eq_ok]
  exact ⟨(), ⟨length_deriveToken hKey i t e, hSpace⟩, readToken_deriveToken hKey i t e⟩

end Tokens

/-- The signed text determines the claims; a derived token gives its claims back, with the expiry in
whole seconds; a token that is verified carries the signature of the claims that it gives; so two
derived tokens that give the same claims were derived from the same claims. -/
theorem invite_tokens (key : InviteTokenKey) (hKey : key.Lawful) :
    (∀ i t i' t' e e', inI64 e → inI64 e' → macInput i t e = macInput i' t' e' →
      i = i' ∧ t = t' ∧ e = e') ∧
    (∀ i t (e : DateTime), key.verifyToken (key.deriveToken i t e.timestamp) =
      .ok { inviteId := i, tenantId := t, expiresUnix := e.timestamp }) ∧
    (∀ raw claims, key.verifyToken raw = .ok claims →
      ∃ version invite tenant expires signature,
        raw.toList.splitOn '.' = [version, invite, tenant, expires, signature] ∧
          Uuid.parse (String.ofList invite) = some claims.inviteId ∧
          Uuid.parse (String.ofList tenant) = some claims.tenantId ∧
          parseI64 expires = some claims.expiresUnix ∧
          key.decode (String.ofList signature) = some (key.hmac
            (macInput claims.inviteId claims.tenantId claims.expiresUnix))) ∧
    ∀ i t i' t' (e e' : DateTime) claims,
      key.verifyToken (key.deriveToken i t e.timestamp) = .ok claims →
      key.verifyToken (key.deriveToken i' t' e'.timestamp) = .ok claims →
      i = i' ∧ t = t' ∧ e.timestamp = e'.timestamp := by
  refine ⟨fun i t i' t' e e' => macInput_injective, verifyToken_deriveToken hKey, ?_, ?_⟩
  · intro raw claims h
    simp only [InviteTokenKey.verifyToken, bind_eq_ok, require_eq_ok, okOr_eq_ok] at h
    obtain ⟨-, -, hRead⟩ := h
    exact readToken_signed hRead
  · intro i t i' t' e e' claims h h'
    rw [verifyToken_deriveToken hKey, Except.ok.injEq] at h h'
    rw [← h, InviteTokenClaims.mk.injEq] at h'
    obtain ⟨rfl, rfl, hExpiry⟩ := h'
    exact ⟨rfl, rfl, hExpiry.symm⟩

namespace Sample

/-- A key of thirty-two ones, as it signs the invitation of the example. -/
def signingKey : InviteTokenKey :=
  { hmac := fun _ =>
      [0xD0, 0x5E, 0xCD, 0x05, 0x12, 0x65, 0xF4, 0xC2, 0x1F, 0xBC, 0x70, 0x4A, 0x84,
      0x5B, 0x87, 0xAB, 0x4B, 0x30, 0x06, 0x3F, 0xB8, 0x4C, 0x8D, 0x97, 0x6B,
      0x18, 0xE4, 0x4A, 0x05, 0xC9, 0xEA, 0x70]
    encode := Base64.encode
    decode := Base64.decode }

theorem signingKey_lawful : signingKey.Lawful :=
  { length_hmac := fun _ => rfl
    decode_encode := Base64.decode_encode
    length_encode := Base64.length_encode
    encode_alphabet := Base64.encode_alphabet }

/-- Half a second after a full one. -/
def inviteExpires : DateTime :=
  { seconds := 1900000000, nanoseconds := 500000000, representable := by decide
    fraction := by decide }

end Sample

theorem invite_token_verified :
    Sample.signingKey.verifyToken
        (Sample.signingKey.deriveToken (Sample.uuid 40) Sample.tenantId 1900000000) =
      .ok { inviteId := Sample.uuid 40, tenantId := Sample.tenantId, expiresUnix := 1900000000 } :=
  (invite_tokens Sample.signingKey Sample.signingKey_lawful).2.1 (Sample.uuid 40) Sample.tenantId
    Sample.inviteExpires

end Masonwing
