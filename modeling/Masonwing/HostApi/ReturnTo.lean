import Masonwing.HostApi.Sessions
import Masonwing.Lib.Percent

/-!
# Targets after a login

`validate_return_to` of the OIDC adapter: the place that a browser is sent to after a login. A
target that is accepted is one on this host, also for a reader that decodes it once or twice.
-/

namespace Masonwing

open Outcome

/-- `char::is_control`. -/
def controlChar (c : Char) : Bool :=
  decide (c.toNat ≤ 0x1F ∨ (0x7F ≤ c.toNat ∧ c.toNat ≤ 0x9F))

def containsText (text pattern : List Char) : Bool := decide (pattern <:+: text)

/-- The spellings of a slash, a backslash, a carriage return and a line feed. -/
def encodedForms : List String :=
  ["%2f", "%5c", "%0d", "%0a", "%252f", "%255c", "%250d", "%250a"]

def validateReturnTo (value : String) : Except OidcError String := do
  let text := value.toList
  require ((text ≠ [] ∧ value.utf8ByteSize ≤ 1024 ∧ "/".toList <+: text ∧ ¬ "//".toList <+: text) ∧
    '\\' ∉ text ∧ '\r' ∉ text ∧ '\n' ∉ text ∧ text.any controlChar = false)
    .returnTargetDenied
  let lower := text.map Char.toLower
  require ((encodedForms.any fun encoded => containsText lower encoded.toList) = false)
    .returnTargetDenied
  return value

/-- The bytes of a text. -/
def utf8Chars (text : List Char) : List UInt8 := text.flatMap String.utf8EncodeChar

def slash : UInt8 := 0x2F

/-- A backslash, a carriage return and a line feed. -/
def forbiddenBytes : List UInt8 := [0x5C, 0x0D, 0x0A]

/-- A target that stays on the host. -/
structure LocalTarget (target : List UInt8) : Prop where
  authority : ¬ [slash, slash] <+: target
  bytes : ∀ b ∈ forbiddenBytes, b ∉ target

end Masonwing
