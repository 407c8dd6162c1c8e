import Masonwing.Kernel.Runtime
import Masonwing.Lib.Table

/-!
# Transactions

What every transaction of `PostgresStore` has around it: the failures of SQL statements and
their translation, the clock and the random identifiers of one transaction (`Tick`), the
functions that live outside the store (`Env`), and the `Mutation` a handler returns.

Times are microseconds of the database clock.
-/

namespace Masonwing

open Outcome

/-! ## Statements -/

inductive SqlError where
  | uniqueViolation
  | foreignKeyViolation
  | checkViolation
  | numericOutOfRange
  | rowNotFound
  deriving DecidableEq

/-- `database_failure`. -/
def databaseFailure : SqlError → CommandFailure
  | .uniqueViolation => .conflict "RESOURCE_CONFLICT"
  | .foreignKeyViolation => .notFound
  | .checkViolation | .numericOutOfRange => .invalid "CONSTRAINT_INVALID"
  | .rowNotFound => .unavailable "DATA_ADAPTER_UNAVAILABLE"

/-- A statement inside a transaction. -/
def sql {α : Type} (x : Except SqlError α) : Result α := x.mapError databaseFailure

@[simp] theorem sql_eq_ok {α : Type} {x : Except SqlError α} {a : α} :
    sql x = .ok a ↔ x = .ok a := mapError_eq_ok

/-- `INSERT` under a primary key. -/
def insertRow {κ ρ : Type} [DecidableEq κ] (t : Table κ ρ) (k : κ) (r : ρ) :
    Except SqlError (Table κ ρ) := okOr (t.insert? k r) .uniqueViolation

@[simp] theorem insertRow_eq_ok {κ ρ : Type} [DecidableEq κ] {t t' : Table κ ρ} {k : κ} {r : ρ} :
    insertRow t k r = .ok t' ↔ t.insert? k r = some t' := okOr_eq_ok

/-- The result of an integer expression in a `bigint` column. -/
def bigint (n : Int) : Except SqlError Int := do
  require (-maxI64 - 1 ≤ n ∧ n ≤ maxI64) .numericOutOfRange
  return n

theorem bigint_eq_ok {n m : Int} :
    bigint n = .ok m ↔ (-maxI64 - 1 ≤ n ∧ n ≤ maxI64) ∧ n = m := by
  simp only [bigint, bind_eq_ok, require_eq_ok, pure_eq_ok, exists_const]

/-- The result of an integer expression in an `integer` column. -/
def integer (n : Int) : Except SqlError Int := do
  require (-maxI32 - 1 ≤ n ∧ n ≤ maxI32) .numericOutOfRange
  return n

theorem integer_eq_ok {n m : Int} :
    integer n = .ok m ↔ (-maxI32 - 1 ≤ n ∧ n ≤ maxI32) ∧ n = m := by
  simp only [integer, bind_eq_ok, require_eq_ok, pure_eq_ok, exists_const]

/-! ## The clock and the identifiers of a transaction -/

/-- The places where a transaction draws a fresh identifier (`Uuid::new_v4`). -/
inductive Draw where
  | reservation
  | costEvent
  | budgetSetting
  | effect
  | effectReceipt
  | run
  | grant
  | killSwitch
  | deletionRequest
  | installation
  | manifest
  | upload
  | uploadArtifact
  | lease
  | invocation
  | output
  | connection
  | connectorAuthorization
  | readCursor
  | providerProfile
  | catalogListing
  | invitation
  | membership
  | oidcPrincipal
  | command
  | correlation
  | artifact (change : Nat)
  | audit (change : Nat)
  | outbox (change : Nat)
  deriving DecidableEq

abbrev Bytes := List UInt8

/-- One transaction's view of the world: when it starts, when it reads the clock for its
checks, when it stamps its receipt, the identifiers it draws, and how the object store
answers it. -/
structure Tick where
  startedAt : Int
  now : Int
  stampedAt : Int
  started_le_now : startedAt ≤ now
  now_le_stamped : now ≤ stampedAt
  draw : Draw → Uuid
  put : String → Result Unit
  object : String → Nat → Result Bytes

/-! ## The environment -/

/-- The current row of `authorization_policies`. -/
structure PolicyRow where
  policyVersion : String
  policyEpoch : Int
  cedarSource : String
  deriving DecidableEq

structure TrustedPrincipal where
  principalId : String
  tenantId : String
  role : String
  membershipEpoch : Int
  roles : List String
  permissionEpoch : Int

/-- Functions of other crates and packages: canonical JSON and SHA-256, the schema catalogue,
the Cedar evaluator, JSON schemas of workflows, the text form of a time, and what the database
takes for the same letter in a search. -/
structure Env where
  canonicalBytes : Json → Option Bytes
  digestBytes : Bytes → Digest
  schemaValid : String → Json → Bool
  receiptValid : CommandReceipt → Bool
  policyParses : PolicyRow → Bool
  policyPermits : PolicyRow → TrustedPrincipal → String → String → String →
    List (String × Json) → Bool
  schemaCompiles : Bytes → Bool
  schemaAccepts : Bytes → Bytes → Bool
  timestamp : Int → String
  foldCase : Char → Char

/-! ## Mutations -/

structure ProjectionChange where
  resource : ResourceRef
  value : Json
  label : String
  sourceArtifacts : List Uuid

/-- What a handler hands to the transaction that records it. -/
structure Mutation where
  primary : ResourceRef
  changes : List ProjectionChange
  runId : Option Uuid
  effectId : Option Uuid
  accepted : Bool

def resourceRef (kind : String) (id : Uuid) (version : Version) : ResourceRef :=
  { resourceType := kind, resourceId := id.toId, version := version.val }

namespace Mutation

/-- A mutation with one projection. -/
def one (kind : String) (id : Uuid) (version : Version) (value : Json) (label : String) :
    Mutation :=
  { primary := resourceRef kind id version
    changes := [{ resource := resourceRef kind id version, value, label, sourceArtifacts := [] }]
    runId := none
    effectId := none
    accepted := false }

def withSourceArtifact (m : Mutation) (id : Uuid) : Mutation :=
  { m with changes := m.changes.map fun c =>
      { c with sourceArtifacts := c.sourceArtifacts ++ [id] } }

end Mutation

end Masonwing
