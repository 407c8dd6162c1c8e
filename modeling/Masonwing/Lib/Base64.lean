import Masonwing.Lib.Numerals

/-!
# Base64

The unpadded base64 of URLs: the bits of the bytes, filled up with zeros, in groups of six. What is
written is read back (`decode_encode`).
-/

namespace Base64

open Numerals

def alphabet : List Char :=
  "ABCDEFGHIJKLMNOPQRSTUVWXYZabcdefghijklmnopqrstuvwxyz0123456789-_".toList

def symbol (d : Nat) : Char := alphabet.getD d 'A'

def symbolValue? (c : Char) : Option Nat := alphabet.findIdx? fun d => decide (d = c)

/-- As many symbols as the bits need. -/
def symbolCount (bytes : Nat) : Nat := (4 * bytes + 2) / 3

/-- The bits of the symbols beyond those of the bytes. -/
def fill (bytes symbols : Nat) : Nat := 6 * symbols - 8 * bytes

def encode (bytes : List UInt8) : String :=
  let k := symbolCount bytes.length
  String.ofList ((digits 64 k (value 256 (bytes.map UInt8.toNat) * 2 ^ fill bytes.length k)).map
    symbol)

/-- The bits beyond the last byte have to be zero. -/
def decode (text : String) : Option (List UInt8) := do
  let ds ← text.toList.mapM symbolValue?
  let n := 3 * ds.length / 4
  guard (ds.length = symbolCount n ∧ value 64 ds % 2 ^ fill n ds.length = 0)
  return (digits 256 n (value 64 ds / 2 ^ fill n ds.length)).map UInt8.ofNat

theorem symbol_mem : ∀ d < 64, symbol d ∈ alphabet := by decide +kernel

theorem symbolValue?_symbol : ∀ d < 64, symbolValue? (symbol d) = some d := by decide +kernel

theorem mapM_symbol {ds : List Nat} (h : ∀ d ∈ ds, d < 64) :
    (ds.map symbol).mapM symbolValue? = some ds := by
  induction ds with
  | nil => rfl
  | cons d ds ih =>
    rw [List.map_cons, List.mapM_cons, symbolValue?_symbol d (h d List.mem_cons_self),
      ih fun e he => h e (List.mem_cons_of_mem _ he)]
    rfl

theorem encode_alphabet (bytes : List UInt8) : ∀ c ∈ (encode bytes).toList, c ∈ alphabet := by
  intro c hc
  rw [encode, String.toList_ofList] at hc
  obtain ⟨d, hd, rfl⟩ := List.mem_map.mp hc
  exact symbol_mem d (digits_lt (by decide) _ _ d hd)

theorem length_encode (bytes : List UInt8) :
    (encode bytes).toList.length = symbolCount bytes.length := by
  rw [encode, String.toList_ofList, List.length_map, length_digits]

theorem symbolCount_bytes (n : Nat) : 3 * symbolCount n / 4 = n := by
  unfold symbolCount
  omega

/-- The symbols hold the bits of the bytes and the zeros behind them. -/
theorem fill_symbolCount (n : Nat) : 8 * n + fill n (symbolCount n) = 6 * symbolCount n := by
  unfold fill symbolCount
  omega

/-- What is written is read back. -/
theorem decode_encode (bytes : List UInt8) : decode (encode bytes) = some bytes := by
  have hByte : ∀ d ∈ bytes.map UInt8.toNat, d < 256 := by
    intro d hd
    obtain ⟨b, -, rfl⟩ := List.mem_map.mp hd
    exact b.toNat_lt
  have hFill := fill_symbolCount bytes.length
  have hBits : value 256 (bytes.map UInt8.toNat) *
      2 ^ fill bytes.length (symbolCount bytes.length) < 64 ^ symbolCount bytes.length := by
    have hValue := value_lt hByte
    rw [List.length_map] at hValue
    calc value 256 (bytes.map UInt8.toNat) * 2 ^ fill bytes.length (symbolCount bytes.length)
        < 256 ^ bytes.length * 2 ^ fill bytes.length (symbolCount bytes.length) :=
          Nat.mul_lt_mul_of_pos_right hValue (Nat.two_pow_pos _)
      _ = 2 ^ (8 * bytes.length + fill bytes.length (symbolCount bytes.length)) := by
          rw [pow_add, pow_mul]
          norm_num
      _ = 64 ^ symbolCount bytes.length := by
          rw [hFill, pow_mul]
          norm_num
  rw [decode, encode, String.toList_ofList, mapM_symbol (digits_lt (by decide) _ _)]
  dsimp only [Option.bind_eq_bind, Option.bind_some]
  rw [length_digits, symbolCount_bytes, value_digits (by decide) hBits, Nat.mul_mod_left,
    Nat.mul_div_cancel _ (Nat.two_pow_pos _)]
  have hDigits := digits_value hByte
  rw [List.length_map] at hDigits
  have hBytes : UInt8.ofNat ∘ UInt8.toNat = id := funext fun b => UInt8.ofNat_toNat
  rw [hDigits, List.map_map, hBytes, List.map_id]
  simp [guard]

end Base64
