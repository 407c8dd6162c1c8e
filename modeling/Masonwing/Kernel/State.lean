import Mathlib.Tactic.Common

/-!
# State machines

The state machines of `crates/kernel/src/state.rs`: the states of runs, effects, cost
reservations and plugins with the edges the kernel allows between them, and the states of the
rows that the store keeps without asking the kernel (approvals, connections, delegations,
installations). `toText` is the text of a state in a column or in a projection.
-/

namespace Masonwing

/-! ## Runs -/

inductive RunState where
  | queued
  | running
  | waitingApproval
  | waitingRetry
  | blocked
  | cancelRequested
  | succeeded
  | failed
  | cancelled
  deriving DecidableEq

namespace RunState

def toText : RunState → String
  | .queued => "QUEUED"
  | .running => "RUNNING"
  | .waitingApproval => "WAITING_APPROVAL"
  | .waitingRetry => "WAITING_RETRY"
  | .blocked => "BLOCKED"
  | .cancelRequested => "CANCEL_REQUESTED"
  | .succeeded => "SUCCEEDED"
  | .failed => "FAILED"
  | .cancelled => "CANCELLED"

def edge : RunState → RunState → Bool
  | .queued, .running => true
  | .running, .waitingApproval => true
  | .waitingApproval, .running => true
  | .running, .waitingRetry => true
  | .waitingRetry, .running => true
  | .running, .blocked => true
  | .blocked, .running => true
  | .running, .succeeded => true
  | .running, .failed => true
  | .queued, .cancelled => true
  | .waitingApproval, .cancelled => true
  | .waitingRetry, .cancelled => true
  | .blocked, .cancelled => true
  | .running, .cancelRequested => true
  | .cancelRequested, .cancelled => true
  | .cancelRequested, .succeeded => true
  | _, _ => false

/-- The states that the admission of an effect counts as ended. -/
def ended : RunState → Bool
  | .succeeded | .failed | .cancelled => true
  | _ => false

end RunState

/-! ## Effects -/

inductive EffectState where
  | prepared
  | waitingApproval
  | authorized
  | executing
  | succeeded
  | failedConfirmed
  | outcomeUnknown
  | reconciling
  | manualReview
  | cancelled
  deriving DecidableEq

namespace EffectState

def toText : EffectState → String
  | .prepared => "PREPARED"
  | .waitingApproval => "WAITING_APPROVAL"
  | .authorized => "AUTHORIZED"
  | .executing => "EXECUTING"
  | .succeeded => "SUCCEEDED"
  | .failedConfirmed => "FAILED_CONFIRMED"
  | .outcomeUnknown => "OUTCOME_UNKNOWN"
  | .reconciling => "RECONCILING"
  | .manualReview => "MANUAL_REVIEW"
  | .cancelled => "CANCELLED"

def edge : EffectState → EffectState → Bool
  | .prepared, .waitingApproval => true
  | .prepared, .authorized => true
  | .waitingApproval, .authorized => true
  | .authorized, .executing => true
  | .executing, .succeeded => true
  | .executing, .failedConfirmed => true
  | .executing, .outcomeUnknown => true
  | .outcomeUnknown, .reconciling => true
  | .reconciling, .succeeded => true
  | .reconciling, .failedConfirmed => true
  | .reconciling, .authorized => true
  | .reconciling, .manualReview => true
  | .manualReview, .reconciling => true
  | .prepared, .cancelled => true
  | .waitingApproval, .cancelled => true
  | .authorized, .cancelled => true
  | _, _ => false

/-- An ambiguous transmission that may not be resent. -/
def ambiguous : EffectState → Bool
  | .outcomeUnknown | .reconciling | .manualReview => true
  | _ => false

/-- A transmission whose outcome is still open. -/
def unresolved : EffectState → Bool
  | .executing | .outcomeUnknown | .reconciling | .manualReview => true
  | _ => false

def dispatchable : EffectState → Bool
  | .prepared | .authorized => true
  | _ => false

end EffectState

/-! ## Cost reservations -/

inductive CostState where
  | reserved
  | settled
  | unknown
  | released
  deriving DecidableEq

namespace CostState

def toText : CostState → String
  | .reserved => "RESERVED"
  | .settled => "SETTLED"
  | .unknown => "UNKNOWN"
  | .released => "RELEASED"

def edge : CostState → CostState → Bool
  | .reserved, .settled => true
  | .reserved, .unknown => true
  | .reserved, .released => true
  | .unknown, .settled => true
  | .unknown, .released => true
  | _, _ => false

/-- The bound of the reservation is still held on its accounts. -/
def holds : CostState → Bool
  | .reserved | .unknown => true
  | .settled | .released => false

theorem edge_holds {a b : CostState} (h : edge a b = true) : a.holds = true := by
  cases a <;> cases b <;> simp_all [edge, holds]

end CostState

/-! ## Plugins -/

inductive PluginState where
  | discovered
  | verified
  | resolved
  | staged
  | installedDisabled
  | enabled
  | draining
  | disabled
  | uninstalled
  | quarantined
  | revoked
  deriving DecidableEq

def PluginState.edge : PluginState → PluginState → Bool
  | .discovered, .verified => true
  | .verified, .resolved => true
  | .resolved, .staged => true
  | .staged, .installedDisabled => true
  | .installedDisabled, .enabled => true
  | .enabled, .draining => true
  | .draining, .disabled => true
  | .disabled, .enabled => true
  | .disabled, .uninstalled => true
  | .installedDisabled, .uninstalled => true
  | .discovered, .quarantined => true
  | .verified, .quarantined => true
  | .staged, .quarantined => true
  | .enabled, .revoked => true
  | .draining, .revoked => true
  | .disabled, .revoked => true
  | .installedDisabled, .revoked => true
  | _, _ => false

/-! ## Rows without a kernel machine -/

inductive ApprovalState where
  | requested
  | approved
  | rejected
  | cancelled
  | expired
  | invalidated
  deriving DecidableEq

def ApprovalState.toText : ApprovalState → String
  | .requested => "REQUESTED"
  | .approved => "APPROVED"
  | .rejected => "REJECTED"
  | .cancelled => "CANCELLED"
  | .expired => "EXPIRED"
  | .invalidated => "INVALIDATED"

inductive ConnectionState where
  | pending
  | active
  | needsReauth
  | paused
  | revoked
  deriving DecidableEq

inductive DelegationState where
  | active
  | revoked
  | expired
  deriving DecidableEq

def DelegationState.toText : DelegationState → String
  | .active => "ACTIVE"
  | .revoked => "REVOKED"
  | .expired => "EXPIRED"

inductive InstallationState where
  | installedDisabled
  | enabled
  | draining
  | disabled
  | revoked
  | uninstalled
  deriving DecidableEq

def InstallationState.toText : InstallationState → String
  | .installedDisabled => "INSTALLED_DISABLED"
  | .enabled => "ENABLED"
  | .draining => "DRAINING"
  | .disabled => "DISABLED"
  | .revoked => "REVOKED"
  | .uninstalled => "UNINSTALLED"

/-- The states of the kernel that a stored installation can have. -/
def InstallationState.kernel : InstallationState → PluginState
  | .installedDisabled => .installedDisabled
  | .enabled => .enabled
  | .draining => .draining
  | .disabled => .disabled
  | .revoked => .revoked
  | .uninstalled => .uninstalled

inductive DispatchState where
  | pending
  | started
  | blocked
  deriving DecidableEq

end Masonwing
