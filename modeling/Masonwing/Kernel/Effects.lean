import Masonwing.Contracts.Identifiers
import Masonwing.Kernel.State
import Masonwing.Lib.Outcome

/-!
# Kernel records of effects and approvals

`crates/kernel/src/effects.rs` and `crates/kernel/src/approval.rs`: the life of one effect
as the kernel sees it, and the binding of an approval to what is dispatched. The store
keeps its own rows for both; these records say what the rows are meant to obey.
-/

namespace Masonwing

open Outcome

inductive ReconciliationEvidence where
  | confirmedPresent
  | confirmedFailure
  | provenAbsentAndReauthorized
  | unresolved
  deriving DecidableEq

inductive EffectError where
  | outcomeUnknownBlocksResend
  | invalidEffectState
  deriving DecidableEq

structure EffectRecord where
  state : EffectState
  transmitCount : Nat
  reconciliationQueued : Bool
  deriving DecidableEq

namespace EffectRecord

def authorized : EffectRecord :=
  { state := .authorized, transmitCount := 0, reconciliationQueued := false }

def transmit (r : EffectRecord) : Except EffectError EffectRecord := do
  require (r.state.ambiguous = false) .outcomeUnknownBlocksResend
  require (r.state = .authorized) .invalidEffectState
  return { r with state := .executing, transmitCount := r.transmitCount + 1 }

def markAmbiguousTimeout (r : EffectRecord) : Except EffectError EffectRecord := do
  require (r.state = .executing) .invalidEffectState
  return { r with state := .outcomeUnknown, reconciliationQueued := true }

def beginReconciliation (r : EffectRecord) : Except EffectError EffectRecord := do
  require (r.state = .outcomeUnknown ∨ r.state = .manualReview) .invalidEffectState
  return { r with state := .reconciling, reconciliationQueued := false }

def reconcile (r : EffectRecord) (evidence : ReconciliationEvidence) :
    Except EffectError EffectRecord := do
  require (r.state = .reconciling) .invalidEffectState
  return { r with state := match evidence with
    | .confirmedPresent => .succeeded
    | .confirmedFailure => .failedConfirmed
    | .provenAbsentAndReauthorized => .authorized
    | .unresolved => .manualReview }

end EffectRecord

/-! ## Approvals -/

inductive ApprovalError where
  | approvalExpired
  | approvalStale
  deriving DecidableEq

/-- What an approval binds: `expires_at` in the same unit as the clock it is compared to. -/
structure ApprovalBinding where
  action : String
  target : OpaqueId
  contentDigest : Digest
  targetRevision : Int
  tenantScope : OpaqueId
  expiresAt : Int
  deriving DecidableEq

/-- What is about to be dispatched. -/
structure DispatchBinding where
  action : String
  target : OpaqueId
  contentDigest : Digest
  targetRevision : Int
  tenantScope : OpaqueId
  deriving DecidableEq

def ApprovalBinding.validateDispatch (a : ApprovalBinding) (d : DispatchBinding) (now : Int) :
    Except ApprovalError Unit := do
  require (now < a.expiresAt) .approvalExpired
  require (a.action = d.action ∧ a.target = d.target ∧ a.contentDigest = d.contentDigest ∧
    a.targetRevision = d.targetRevision ∧ a.tenantScope = d.tenantScope) .approvalStale

theorem ApprovalBinding.validateDispatch_eq_ok {a : ApprovalBinding} {d : DispatchBinding}
    {now : Int} : a.validateDispatch d now = .ok () ↔
      now < a.expiresAt ∧ a.action = d.action ∧ a.target = d.target ∧
        a.contentDigest = d.contentDigest ∧ a.targetRevision = d.targetRevision ∧
        a.tenantScope = d.tenantScope := by
  simp only [validateDispatch, bind_eq_ok, require_eq_ok, exists_const]

end Masonwing
