import Masonwing.Lib.Utf8

/-!
# ASCII texts

The text of ASCII characters has one byte for each of them. `ofBytes` is the text of the given
bytes and `chars` reads the characters of a text off its bytes. They are `String.ofList` and
`String.toList` (`ofBytes_eq`, `chars_eq`), without encoding and decoding a character at a time.
`ofChars` is `String.ofList` of any characters (`ofList_eq`), with all their bytes at once.
-/

namespace Ascii

theorem toNat_ofUInt8 (b : UInt8) : (Char.ofUInt8 b).toNat = b.toNat := rfl

theorem encodeChar_ofUInt8 {b : UInt8} (h : b.toNat < 128) :
    String.utf8EncodeChar (Char.ofUInt8 b) = [b] := by
  have hUnits : (String.utf8EncodeChar (Char.ofUInt8 b)).map UInt8.toNat = [b].map UInt8.toNat := by
    rw [Utf8.toNat_encodeChar, toNat_ofUInt8, Utf8.units, if_pos (by omega)]
    rfl
  exact List.map_injective_iff.mpr (fun _ _ => UInt8.toNat_inj.mp) hUnits

theorem encode_chars {bytes : List UInt8} (h : ∀ b ∈ bytes, b.toNat < 128) :
    Utf8.encode (bytes.map Char.ofUInt8) = bytes := by
  induction bytes with
  | nil => rfl
  | cons b bytes ih =>
    rw [List.map_cons, Utf8.encode_cons, encodeChar_ofUInt8 (h b List.mem_cons_self),
      ih fun c hc => h c (List.mem_cons_of_mem _ hc)]
    rfl

theorem utf8Encode_eq (cs : List Char) : (⟨⟨Utf8.encode cs⟩⟩ : ByteArray) = cs.utf8Encode := by
  apply ByteArray.ext
  apply Array.toList_inj.mp
  rw [List.utf8Encode, List.toList_data_toByteArray, Utf8.encode]

theorem utf8Encode_chars {bytes : List UInt8} (h : ∀ b ∈ bytes, b.toNat < 128) :
    (⟨⟨bytes⟩⟩ : ByteArray) = (bytes.map Char.ofUInt8).utf8Encode := by
  rw [← utf8Encode_eq, encode_chars h]

/-- The text of the given bytes. -/
def ofBytes (bytes : List UInt8) (h : ∀ b ∈ bytes, b.toNat < 128) : String :=
  ⟨⟨⟨bytes⟩⟩, bytes.map Char.ofUInt8, utf8Encode_chars h⟩

theorem ofBytes_eq {bytes : List UInt8} (h : ∀ b ∈ bytes, b.toNat < 128) :
    ofBytes bytes h = String.ofList (bytes.map Char.ofUInt8) :=
  String.toByteArray_inj.mp (utf8Encode_chars h)

/-- The characters of a text. -/
def chars (s : String) : List Char :=
  bif s.toByteArray.data.toList.all fun b => Nat.blt b.toNat 128 then
    s.toByteArray.data.toList.map Char.ofUInt8
  else s.toList

theorem chars_eq (s : String) : chars s = s.toList := by
  rw [chars, cond_eq_ite]
  split
  · rename_i hAll
    have hAscii : ∀ b ∈ s.toByteArray.data.toList, b.toNat < 128 := fun b hb =>
      Nat.blt_eq.mp (List.all_eq_true.mp hAll b hb)
    have hText : s = String.ofList (s.toByteArray.data.toList.map Char.ofUInt8) :=
      String.toByteArray_inj.mp (utf8Encode_chars hAscii)
    conv_rhs => rw [hText, String.toList_ofList]
  · rfl

theorem toList_eq : String.toList = chars := funext fun s => (chars_eq s).symm

/-- The text of the given characters. -/
def ofChars (cs : List Char) : String :=
  ⟨⟨⟨Utf8.encode cs⟩⟩, cs, utf8Encode_eq cs⟩

theorem ofList_eq : String.ofList = ofChars :=
  funext fun cs => String.toByteArray_inj.mp (utf8Encode_eq cs).symm

end Ascii
