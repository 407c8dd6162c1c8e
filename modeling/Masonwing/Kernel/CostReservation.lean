import Masonwing.Kernel.State
import Masonwing.Lib.Outcome

/-!
# The kernel's cost reservation

`crates/kernel/src/budget.rs`: one reservation as the kernel sees it. The ledger of the store keeps
rows of its own; this record says what a row is meant to obey.
-/

namespace Masonwing

open Outcome

inductive BudgetError where
  | priceBoundUnknown
  | illegalCostState
  | settlementConflict
  | usageExceedsReservation
  deriving DecidableEq

structure CostReservation where
  upperBoundMicrounits : Nat
  heldMicrounits : Nat
  chargedMicrounits : Option Nat
  state : CostState
  reconciliationQueued : Bool
  deriving DecidableEq

namespace CostReservation

def reserve (upperBoundMicrounits : Nat) : Except BudgetError CostReservation := do
  require (upperBoundMicrounits ≠ 0) .priceBoundUnknown
  return { upperBoundMicrounits, heldMicrounits := upperBoundMicrounits, chargedMicrounits := none
           state := .reserved, reconciliationQueued := false }

end CostReservation

end Masonwing
