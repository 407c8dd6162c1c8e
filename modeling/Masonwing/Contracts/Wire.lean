import Masonwing.Contracts.Identifiers

/-!
# Wire values

JSON values and the wire records of `crates/contracts/src/wire.rs` that the store reads
and writes. Objects list their fields in the order in which the source writes them; no
modelled function depends on that order.

`projectionSources` is the walk that finds the artifact references inside a projection,
and `ArtifactRef.fromJson?_toJson` makes sure that it finds a reference that was embedded.
-/

namespace Masonwing

inductive Json where
  | null
  | bool (b : Bool)
  | num (n : Int)
  | str (s : String)
  | arr (items : List Json)
  | obj (fields : List (String × Json))
  deriving Inhabited

namespace Json

/-- The value of a field of an object. -/
def get? : Json → String → Option Json
  | .obj fields, k => fields.lookup k
  | _, _ => none

def str? : Json → Option String
  | .str s => some s
  | _ => none

def ofOption {α : Type} (f : α → Json) : Option α → Json
  | none => .null
  | some a => f a

end Json

/-! ## References -/

inductive Classification where
  | pub
  | internal
  | confidential
  | restricted
  deriving DecidableEq

namespace Classification

def rank : Classification → Nat
  | .pub => 0
  | .internal => 1
  | .confidential => 2
  | .restricted => 3

/-- The larger of two classifications in the order of their declaration. -/
def max (a b : Classification) : Classification := if a.rank ≤ b.rank then b else a

def toText : Classification → String
  | .pub => "PUBLIC"
  | .internal => "INTERNAL"
  | .confidential => "CONFIDENTIAL"
  | .restricted => "RESTRICTED"

def ofText? : String → Option Classification
  | "PUBLIC" => some .pub
  | "INTERNAL" => some .internal
  | "CONFIDENTIAL" => some .confidential
  | "RESTRICTED" => some .restricted
  | _ => none

@[simp] theorem ofText?_toText (c : Classification) : ofText? c.toText = some c := by
  cases c <;> rfl

end Classification

structure ResourceRef where
  resourceType : String
  resourceId : OpaqueId
  version : Int
  deriving DecidableEq

namespace ResourceRef

def toJson (r : ResourceRef) : Json :=
  .obj [("resource_type", .str r.resourceType), ("resource_id", .str r.resourceId.text),
    ("version", .num r.version)]

end ResourceRef

structure ArtifactRef where
  artifactId : OpaqueId
  tenantId : OpaqueId
  digest : Digest
  schemaVersion : String
  classification : Classification
  deriving DecidableEq

namespace ArtifactRef

def toJson (r : ArtifactRef) : Json :=
  .obj [("artifact_id", .str r.artifactId.text), ("tenant_id", .str r.tenantId.text),
    ("digest", .str r.digest.toText), ("schema_version", .str r.schemaVersion),
    ("classification", .str r.classification.toText)]

def fieldNames : List String :=
  ["artifact_id", "tenant_id", "digest", "schema_version", "classification"]

/-- Deserialization, unknown fields being denied. -/
def fromJson? (v : Json) : Option ArtifactRef := do
  let fields ← match v with
    | .obj fields => some fields
    | _ => none
  guard (fields.all fun f => fieldNames.contains f.1)
  let artifactId ← (← v.get? "artifact_id").str?
  let tenantId ← (← v.get? "tenant_id").str?
  let digest ← (← v.get? "digest").str?
  let schemaVersion ← (← v.get? "schema_version").str?
  let classification ← (← v.get? "classification").str?
  return { artifactId := ← OpaqueId.ofText? artifactId
           tenantId := ← OpaqueId.ofText? tenantId
           digest := ← Digest.parse digest
           schemaVersion
           classification := ← Classification.ofText? classification }

@[simp] theorem fromJson?_toJson (r : ArtifactRef) : fromJson? r.toJson = some r := by
  simp [fromJson?, toJson, fieldNames, Json.get?, Json.str?, List.lookup_cons]

end ArtifactRef

inductive PrincipalKind where
  | user
  | service
  | automation
  | support
  deriving DecidableEq

def PrincipalKind.toText : PrincipalKind → String
  | .user => "USER"
  | .service => "SERVICE"
  | .automation => "AUTOMATION"
  | .support => "SUPPORT"

structure PrincipalRef where
  kind : PrincipalKind
  id : OpaqueId
  issuer : String
  deriving DecidableEq

def PrincipalRef.toJson (p : PrincipalRef) : Json :=
  .obj [("type", .str p.kind.toText), ("id", .str p.id.text), ("issuer", .str p.issuer)]

/-! ## References inside a value -/

mutual

/-- `projection_sources`: an object that reads as an artifact reference is one source; any
other object or array is searched through. -/
def projectionSources : Json → List ArtifactRef
  | .obj fields =>
    match ArtifactRef.fromJson? (.obj fields) with
    | some reference => [reference]
    | none => projectionSourcesOfFields fields
  | .arr items => projectionSourcesOfItems items
  | _ => []

def projectionSourcesOfFields : List (String × Json) → List ArtifactRef
  | [] => []
  | (_, v) :: rest => projectionSources v ++ projectionSourcesOfFields rest

def projectionSourcesOfItems : List Json → List ArtifactRef
  | [] => []
  | v :: rest => projectionSources v ++ projectionSourcesOfItems rest

end

@[simp] theorem projectionSources_null : projectionSources .null = [] := by
  rw [projectionSources]
  all_goals simp

@[simp] theorem projectionSources_str (s : String) : projectionSources (.str s) = [] := by
  rw [projectionSources]
  all_goals simp

@[simp] theorem projectionSources_num (n : Int) : projectionSources (.num n) = [] := by
  rw [projectionSources]
  all_goals simp

@[simp] theorem projectionSources_artifactRef (r : ArtifactRef) :
    projectionSources r.toJson = [r] := by
  have h := r.fromJson?_toJson
  rw [ArtifactRef.toJson] at h ⊢
  rw [projectionSources, h]

/-- An object whose first field is none of a reference's is searched through. -/
theorem projectionSources_obj {key : String} {v : Json} {rest : List (String × Json)}
    (h : key ∉ ArtifactRef.fieldNames) :
    projectionSources (.obj ((key, v) :: rest)) =
      projectionSources v ++ projectionSourcesOfFields rest := by
  have hNone : ArtifactRef.fromJson? (.obj ((key, v) :: rest)) = none := by
    change (guard ((ArtifactRef.fieldNames.contains key && _) = true) >>= _) = none
    rw [List.contains_eq_mem, decide_eq_false h, Bool.false_and]
    rfl
  rw [projectionSources, hNone, projectionSourcesOfFields]

@[simp] theorem projectionSources_resourceRef (r : ResourceRef) :
    projectionSources r.toJson = [] := by
  rw [ResourceRef.toJson, projectionSources_obj (by decide)]
  simp [projectionSourcesOfFields]

/-! ## Receipts of commands -/

inductive ReceiptState where
  | accepted
  | succeeded
  deriving DecidableEq

structure CommandReceipt where
  commandId : OpaqueId
  state : ReceiptState
  resource : Option ResourceRef
  runId : Option OpaqueId
  effectId : Option OpaqueId
  correlationId : OpaqueId
  acceptedAt : Int
  deriving DecidableEq

end Masonwing
