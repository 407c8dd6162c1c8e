import Mathlib.Logic.Function.Basic
import Masonwing.Store.Platform

/-!
# The relay workers

Workers that run `relay_once` side by side on one tenant. Each event is handled in separate
transactions: it is claimed with its batch, its run is verified, the engine is asked to start the
workflow, the start is noted and the event acknowledged. A worker may crash between any two of them,
lose the answer to a call or not reach the store, and other calls come at any time.
-/

namespace Masonwing

open Outcome

variable {ι : Type}

structure RelayConfig where
  batchSize : Int
  leaseSeconds : Int
  maxAttempts : Int

/-- What a worker holds between two steps; `rest` are the events of the batch that it has not
looked at yet. -/
inductive RelayPhase where
  | idle
  | batch (events : List OutboxDispatchItem)
  | verified (event : OutboxDispatchItem) (run : DispatchableRun) (rest : List OutboxDispatchItem)
  | accepted (event : OutboxDispatchItem) (run : DispatchableRun) (temporalRunId : String)
      (rest : List OutboxDispatchItem)
  | acknowledging (event : OutboxDispatchItem) (started : Bool) (rest : List OutboxDispatchItem)
  | failing (event : OutboxDispatchItem) (rest : List OutboxDispatchItem)

/-- What the engine is asked for. -/
structure StartRequest where
  workflowId : String
  tenantId : Uuid
  runId : Uuid

inductive RelayReply where
  | quiet
  | requested (request : StartRequest)

namespace RelayPhase

/-- The call to the store that the worker makes next, if any. Events of other aggregates are passed
over. -/
def call (config : RelayConfig) : RelayPhase → Option SystemCall
  | .idle => some (.claimPendingOutbox config.batchSize config.leaseSeconds)
  | .batch [] => none
  | .batch (event :: _) =>
    if event.eventName ≠ "run.start" ∨ event.aggregateType ≠ "Run" then none
    else some (.verifyAndClaimRun event.aggregateId)
  | .verified .. => none
  | .accepted _ run temporalRunId _ => some (.markRunStarted run.runId temporalRunId run.fence)
  | .acknowledging event _ _ => some (.markOutboxDelivered event.eventId)
  | .failing event _ => some (.markOutboxFailed event.eventId config.maxAttempts)

/-- Where the answer of the store leads; the answers to the two reports are not looked at. -/
def answered (reply : Result Reply) : RelayPhase → RelayPhase
  | .idle =>
    match reply with
    | .ok (.events events) => .batch events
    | _ => .idle
  | .batch (event :: rest) =>
    match reply with
    | .ok (.claimed (some run)) => .verified event run rest
    | .ok (.claimed none) => .acknowledging event false rest
    | _ => .failing event rest
  | .accepted event _ _ rest =>
    match reply with
    | .ok _ => .acknowledging event true rest
    | .error _ => .failing event rest
  | .acknowledging _ _ rest | .failing _ rest => .batch rest
  | phase => phase

/-- The steps without the store. The engine answers with the identity of its execution; an empty
one is no evidence of a start. -/
def alone (engine : Option String) : RelayPhase → RelayPhase
  | .batch [] => .idle
  | .batch (_ :: rest) => .batch rest
  | .verified event run rest =>
    match engine with
    | none => .failing event rest
    | some temporalRunId =>
      if temporalRunId = "" then .failing event rest else .accepted event run temporalRunId rest
  | phase => phase

def request (tenantId : Uuid) : RelayPhase → RelayReply
  | .verified _ run _ => .requested ⟨run.temporalWorkflowId, tenantId, run.runId⟩
  | _ => .quiet

end RelayPhase

structure RelayState where
  store : Store
  phases : Nat → RelayPhase

def RelayState.enter (s : RelayState) (worker : Nat) (phase : RelayPhase) : RelayState :=
  { s with phases := Function.update s.phases worker phase }

@[simp] theorem RelayState.enter_store (s : RelayState) (worker : Nat) (phase : RelayPhase) :
    (s.enter worker phase).store = s.store := rfl

@[simp] theorem RelayState.enter_self (s : RelayState) (worker : Nat) (phase : RelayPhase) :
    (s.enter worker phase).phases worker = phase := Function.update_self ..

theorem RelayState.enter_of_ne (s : RelayState) {worker other : Nat} (phase : RelayPhase)
    (h : other ≠ worker) : (s.enter worker phase).phases other = s.phases other :=
  Function.update_of_ne h ..

/-- The connection to the store during one call. -/
inductive Link where
  | up
  /-- The call does not reach the store. -/
  | down
  /-- The call is performed and its answer is lost. -/
  | cut
  deriving DecidableEq

/-- A call of anybody but the relay, which alone acknowledges events. -/
structure OutsideCall (ι : Type) where
  call : PlatformCall ι
  others : ∀ id, call.operation ≠ .core (.system (.markOutboxDelivered id))

inductive RelayAction (ι : Type) where
  | work (worker : Nat) (tick : Tick) (link : Link) (engine : Option String)
  | crash (worker : Nat)
  | outside (c : OutsideCall ι)

/-- The worker that acts. -/
def RelayAction.worker : RelayAction ι → Option Nat
  | .work w .. | .crash w => some w
  | .outside _ => none

/-- A call over the connection. -/
def ask (p : Platform ι) (tick : Tick) (link : Link) (store : Store) (call : SystemCall) :
    Store × Result Reply :=
  match link with
  | .up => step p.env p.catalogue.core store ⟨tick, .system call⟩
  | .down => (store, .error (.unavailable "DATA_ADAPTER_UNAVAILABLE"))
  | .cut =>
    ((step p.env p.catalogue.core store ⟨tick, .system call⟩).1,
      .error (.unavailable "DATA_ADAPTER_UNAVAILABLE"))

def relayStep (p : Platform ι) (config : RelayConfig) (s : RelayState) :
    RelayAction ι → RelayState × RelayReply
  | .work w tick link engine =>
    match (s.phases w).call config with
    | some call =>
      let (store, reply) := ask p tick link s.store call
      (({ s with store } : RelayState).enter w ((s.phases w).answered reply), .quiet)
    | none =>
      (s.enter w ((s.phases w).alone engine),
        (s.phases w).request s.store.tables.identity.tenantId)
  | .crash w => (s.enter w .idle, .quiet)
  | .outside c => ({ s with store := (platformStep p s.store c.call).1 }, .quiet)

/-- All workers are idle. -/
def RelayState.start (store : Store) : RelayState := { store, phases := fun _ => .idle }

/-- The call that reaches the store. -/
def RelayAction.performed (config : RelayConfig) (s : RelayState) :
    RelayAction ι → Option (PlatformCall ι)
  | .work w tick link _ =>
    if link = .down then none
    else ((s.phases w).call config).map fun call => ⟨tick, .core (.system call)⟩
  | .crash _ => none
  | .outside c => some c.call

theorem relayStep_store (p : Platform ι) (config : RelayConfig) (s : RelayState)
    (a : RelayAction ι) :
    (relayStep p config s a).1.store =
      (a.performed config s).elim s.store fun c => (platformStep p s.store c).1 := by
  cases a with
  | work w tick link engine =>
    cases hCall : (s.phases w).call config with
    | none =>
      simp only [relayStep, RelayAction.performed, hCall, Option.map_none, ite_self,
        Option.elim_none, RelayState.enter_store]
    | some call =>
      simp only [relayStep, RelayAction.performed, hCall, Option.map_some, RelayState.enter_store]
      cases link with
      | down => rfl
      | up => exact (congrArg Prod.fst (platformStep_core p s.store tick (.system call))).symm
      | cut => exact (congrArg Prod.fst (platformStep_core p s.store tick (.system call))).symm
  | crash w => rfl
  | outside c => rfl

end Masonwing
