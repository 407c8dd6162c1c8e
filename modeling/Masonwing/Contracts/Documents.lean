import Masonwing.Lib.Outcome
import Mathlib.Data.List.Basic
import Mathlib.Data.UInt

/-!
# Strict documents and the schema profile

`strict_json` and `ArtifactSchema::compile` of `crates/contract-validation/src/lib.rs`. The reader
of the JSON text is a parameter: what it hands to a visitor is a value of `Events`, the structure
of the document up to the error that ends it. Both visitors are modelled, the strict one of this
repository and the one that reads a plain value, which keeps the last of two equal keys.
-/

namespace Masonwing

open Outcome

variable {φ : Type}

/-- `serde_json::Number` over the type `φ` of doubles. -/
inductive Number (φ : Type) where
  | posInt (n : UInt64)
  | negInt (n : Int64)
  | float (x : φ)
  deriving DecidableEq

/-- `Number::from` of a signed integer. -/
def Number.ofInt64 (n : Int64) : Number φ := if n < 0 then .negInt n else .posInt n.toUInt64

/-- `serde_json::Value`. An object lists its members in the order in which they were inserted. -/
inductive Value (φ : Type) where
  | null
  | bool (b : Bool)
  | number (n : Number φ)
  | string (s : String)
  | array (items : List (Value φ))
  | object (members : List (String × Value φ))

abbrev Members (φ : Type) := List (String × Value φ)

namespace Members

def keys (members : Members φ) : List String := members.map Prod.fst

def containsKey (members : Members φ) (key : String) : Bool := decide (key ∈ members.keys)

def get? (members : Members φ) (key : String) : Option (Value φ) := members.lookup key

/-- A key that is there keeps its place and gets the new value. -/
def insert (members : Members φ) (key : String) (value : Value φ) : Members φ :=
  if members.containsKey key then
    members.map fun member => if member.1 = key then (key, value) else member
  else members ++ [(key, value)]

end Members

namespace Value

def asStr? : Value φ → Option String
  | .string s => some s
  | _ => none

def asObject? : Value φ → Option (Members φ)
  | .object members => some members
  | _ => none

def isObject (value : Value φ) : Bool := value.asObject?.isSome

def isBoolean : Value φ → Bool
  | .bool _ => true
  | _ => false

/-- `Occurs u d v`: `u` is a node of `v`, `d` levels below its root. -/
inductive Occurs : Value φ → Nat → Value φ → Prop
  | root (v : Value φ) : Occurs v 0 v
  | item {u v : Value φ} {d : Nat} {items : List (Value φ)} (hItem : v ∈ items)
      (hBelow : Occurs u d v) : Occurs u (d + 1) (.array items)
  | member {u v : Value φ} {d : Nat} {key : String} {members : Members φ}
      (hMember : (key, v) ∈ members) (hBelow : Occurs u d v) : Occurs u (d + 1) (.object members)

/-- No object in it has two members of one key. -/
def Keyed (v : Value φ) : Prop :=
  ∀ d (members : Members φ), Occurs (.object members) d v → members.keys.Nodup

mutual

/-- How many nodes a value has. -/
def nodes : Value φ → Nat
  | .array items => itemNodes items + 1
  | .object members => memberNodes members + 1
  | _ => 1

def itemNodes : List (Value φ) → Nat
  | [] => 0
  | v :: items => v.nodes + itemNodes items

def memberNodes : List (String × Value φ) → Nat
  | [] => 0
  | (_, v) :: members => v.nodes + memberNodes members

end

end Value

/-- A JSON value; the map type of the source holds a key once. -/
structure Document (φ : Type) where
  value : Value φ
  keyed : value.Keyed

/-! ## Reading a document -/

/-- What a deserializer hands to a visitor. `closed` says that the end of the sequence or of the
map was read, and not an error in place of the next item, key or end. -/
inductive Events (φ : Type) where
  | failed
  | unit
  | bool (b : Bool)
  | i64 (n : Int64)
  | u64 (n : UInt64)
  | f64 (x : φ)
  | str (s : String)
  | seq (items : List (Events φ)) (closed : Bool)
  | map (members : List (String × Events φ)) (closed : Bool)

/-- What a deserializer reads from a text; `ended` says that nothing but white space follows. -/
structure Decoder (φ : Type) where
  events : Events φ
  ended : Bool

inductive DecodeError where
  | syntaxError
  | custom (message : String)
  deriving DecidableEq

/-- What the two visitors do not share: how a double is taken, and which key may come next. -/
structure Visitor (φ : Type) where
  visitF64 : φ → Except DecodeError (Value φ)
  admitKey : Members φ → String → Except DecodeError Unit

section Visitors

variable (finite : φ → Bool)

/-- `Number::from_f64`. -/
def numberFromF64 (x : φ) : Option (Number φ) := if finite x then some (.float x) else none

/-- `StrictVisitor`. -/
def strictVisitor : Visitor φ where
  visitF64 x := (okOr (numberFromF64 finite x) (.custom "non-finite number")).map .number
  admitKey members key :=
    require (members.containsKey key = false) (.custom "duplicate object key")

/-- The visitor of `serde_json::Value`. -/
def valueVisitor : Visitor φ where
  visitF64 x := .ok ((numberFromF64 finite x).elim .null .number)
  admitKey _ _ := .ok ()

end Visitors

mutual

def Events.visit (visitor : Visitor φ) : Events φ → Except DecodeError (Value φ)
  | .failed => .error .syntaxError
  | .unit => .ok .null
  | .bool b => .ok (.bool b)
  | .i64 n => .ok (.number (.ofInt64 n))
  | .u64 n => .ok (.number (.posInt n))
  | .f64 x => visitor.visitF64 x
  | .str s => .ok (.string s)
  | .seq items closed => do
    let values ← visitItems visitor items
    require (closed = true) .syntaxError
    return .array values
  | .map members closed => do
    let values ← visitMembers visitor members []
    require (closed = true) .syntaxError
    return .object values

def visitItems (visitor : Visitor φ) : List (Events φ) → Except DecodeError (List (Value φ))
  | [] => .ok []
  | item :: items => do
    let value ← item.visit visitor
    let values ← visitItems visitor items
    return value :: values

/-- `values` holds the members that were read before. -/
def visitMembers (visitor : Visitor φ) :
    List (String × Events φ) → Members φ → Except DecodeError (Members φ)
  | [], values => .ok values
  | (key, member) :: members, values => do
    visitor.admitKey values key
    let value ← member.visit visitor
    visitMembers visitor members (values.insert key value)

end

structure ValidationFailure where
  code : String
  field : String
  deriving DecidableEq

def ValidationFailure.new (code field : String) : ValidationFailure := { code, field }

/-- What both readers do with a visitor. -/
def readJson (visitor : Visitor φ) (decoder : Decoder φ) : Except ValidationFailure (Value φ) := do
  let value ← (decoder.events.visit visitor).mapError fun _ => .new "JSON_INVALID" ""
  require (decoder.ended = true) (.new "JSON_INVALID" "")
  return value

section Readers

variable (finite : φ → Bool) (fromSlice : List UInt8 → Decoder φ)

def strictJson (bytes : List UInt8) : Except ValidationFailure (Value φ) :=
  readJson (strictVisitor finite) (fromSlice bytes)

end Readers

/-! ## The profile of a schema -/

/-- How a run of the check can end without a result: with its failure, or by a fault of the
machine, a counter below zero or a call for which there is no frame. -/
inductive ProfileError where
  | failure (f : ValidationFailure)
  | underflow
  | noFrame
  deriving DecidableEq

def ProfileError.of (code : String) : ProfileError := .failure (.new code "")

def decrement : Nat → Except ProfileError Nat
  | 0 => .error .underflow
  | n + 1 => .ok n

/-- `reference.as_str().is_none_or(|r| !r.starts_with('#'))`. -/
def foreign (reference : Value φ) : Bool :=
  reference.asStr?.all fun r => !r.toList.head?.any (· == '#')

def refersOutside (members : Members φ) : Bool :=
  (members.get? "$ref").any foreign || members.containsKey "$dynamicRef" ||
    members.containsKey "$recursiveRef" || (members.get? "$id").any foreign

def patternTooLong (members : Members φ) : Bool :=
  ((members.get? "pattern").bind Value.asStr?).any (fun pattern => 512 < pattern.utf8ByteSize) ||
    ((members.get? "patternProperties").bind Value.asObject?).any fun patterns =>
      patterns.keys.any fun pattern => 512 < pattern.utf8ByteSize

/-- The frames are those that are left on the stack. -/
def checkSchemaProfile :
    (frames : Nat) → Value φ → (depth remaining : Nat) → Except ProfileError Nat
  | 0, _, _, _ => .error .noFrame
  | frames + 1, value, depth, remaining => do
    require (depth ≤ 64 ∧ remaining ≠ 0) (.of "PLUGIN_SCHEMA_LIMIT")
    let remaining ← decrement remaining
    match value with
    | .object members =>
      require (refersOutside members = false) (.of "PLUGIN_SCHEMA_REFERENCE_UNSUPPORTED")
      require (patternTooLong members = false) (.of "PLUGIN_SCHEMA_LIMIT")
      members.foldlM (fun left member => checkSchemaProfile frames member.2 (depth + 1) left)
        remaining
    | .array items =>
      items.foldlM (fun left item => checkSchemaProfile frames item (depth + 1) left) remaining
    | _ => return remaining

/-- `ArtifactSchema::compile`; `build` makes the validator. -/
def compileSchema {V : Type} (finite : φ → Bool) (fromSlice : List UInt8 → Decoder φ)
    (build : Value φ → Option V) (frames : Nat) (bytes : List UInt8) : Except ProfileError V := do
  require (bytes.length ≤ 256 * 1024) (.of "PLUGIN_SCHEMA_LIMIT")
  let value ← (strictJson finite fromSlice bytes).mapError .failure
  require (value.isObject = true ∨ value.isBoolean = true) (.of "PLUGIN_SCHEMA_INVALID")
  let _ ← checkSchemaProfile frames value 0 8192
  okOr (build value) (.of "PLUGIN_SCHEMA_INVALID")

end Masonwing
