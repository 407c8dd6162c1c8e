import Masonwing.Store.Platform
import Masonwing.Worker.Interpreter

/-!
# The loop of the workers

Workers that drive one run: each reads the checkpoints, asks the interpreter for the next step,
executes it and records the outcome. These are separate steps, a worker may crash between any two
of them or repeat its execution and its report, and other calls reach the store at any time.
-/

namespace Masonwing

open Outcome

variable {ι : Type}

/-- What a worker holds between two steps. -/
inductive LoopPhase where
  | idle
  | loaded (rows : List DurableCheckpoint)
  | decided (logicalStepId nodeId : String)

structure LoopState where
  store : Store
  phases : Nat → LoopPhase

def LoopState.enter (s : LoopState) (worker : Nat) (phase : LoopPhase) : LoopState :=
  { s with phases := Function.update s.phases worker phase }

@[simp] theorem LoopState.enter_store (s : LoopState) (worker : Nat) (phase : LoopPhase) :
    (s.enter worker phase).store = s.store := rfl

@[simp] theorem LoopState.enter_self (s : LoopState) (worker : Nat) (phase : LoopPhase) :
    (s.enter worker phase).phases worker = phase := Function.update_self ..

theorem LoopState.enter_of_ne (s : LoopState) {worker other : Nat} (phase : LoopPhase)
    (h : other ≠ worker) : (s.enter worker phase).phases other = s.phases other :=
  Function.update_of_ne h ..

/-- The outcome that a worker reports of a step. -/
structure StepReport where
  state : String
  fence : Int
  outputRef : Option ArtifactRef
  failureCode : Option String

inductive LoopAction (ι : Type) where
  | read (worker : Nat)
  | choose (worker : Nat)
  | execute (worker : Nat)
  | record (worker : Nat) (tick : Tick) (report : StepReport)
  | crash (worker : Nat)
  | platform (c : PlatformCall ι)

/-- The worker that acts. -/
def LoopAction.worker : LoopAction ι → Option Nat
  | .read w | .choose w | .execute w | .record w .. | .crash w => some w
  | .platform _ => none

inductive LoopReply where
  | done
  | decision (d : StepDecision)
  | executed (logicalStepId nodeId : String)

/-- The step that is decided to be executed, or that is executed. -/
def LoopReply.subject : LoopReply → Option (String × String)
  | .decision (.execute logicalStepId nodeId) => some (logicalStepId, nodeId)
  | .executed logicalStepId nodeId => some (logicalStepId, nodeId)
  | _ => none

/-- A worker keeps a decision only if it is to execute a step. -/
def LoopPhase.afterDecision : StepDecision → LoopPhase
  | .execute logicalStepId nodeId => .decided logicalStepId nodeId
  | _ => .idle

def readPhase (t : Tables) (runId : Uuid) : LoopPhase :=
  match readRunCheckpoints t runId with
  | .ok rows => .loaded rows
  | .error _ => .idle

/-- The call with which a worker records the outcome of a step. -/
def checkpointOf (tick : Tick) (runId : Uuid) (logicalStepId : String) (report : StepReport) :
    PlatformCall ι :=
  { tick
    operation := .checkpoint runId
      { logicalStepId, state := report.state, fence := report.fence
        outputRef := report.outputRef, failureCode := report.failureCode } }

def loopStep (p : Platform ι) (definition : WorkflowDefinition) (runId : Uuid) (s : LoopState) :
    LoopAction ι → LoopState × LoopReply
  | .read w => (s.enter w (readPhase s.store.tables runId), .done)
  | .choose w =>
    match s.phases w with
    | .loaded rows =>
      let d := (interpreterFromCheckpoints definition rows).nextStep
      (s.enter w (.afterDecision d), .decision d)
    | _ => (s, .done)
  | .execute w =>
    match s.phases w with
    | .decided logicalStepId nodeId => (s, .executed logicalStepId nodeId)
    | _ => (s, .done)
  | .record w tick report =>
    match s.phases w with
    | .decided logicalStepId _ =>
      ({ s with store := (platformStep p s.store (checkpointOf tick runId logicalStepId report)).1 },
        .done)
    | _ => (s, .done)
  | .crash w => (s.enter w .idle, .done)
  | .platform c => ({ s with store := (platformStep p s.store c).1 }, .done)

/-- All workers are idle. -/
def LoopState.start (store : Store) : LoopState := { store, phases := fun _ => .idle }

end Masonwing
