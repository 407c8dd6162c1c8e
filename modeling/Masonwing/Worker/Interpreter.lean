import Masonwing.Lib.Text
import Masonwing.Store.RunCommands

/-!
# The workflow interpreter

`run_interpreter.rs` and `run_resume.rs` of the worker: which step a run takes next, as a function
of its workflow definition and of the checkpoints that were recorded for it. The interpreter
performs nothing itself; a worker executes the step it names and records the outcome.
-/

namespace Masonwing

/-! ## Workflow definitions -/

inductive NodeKind where
  | deterministic
  | activity
  | model
  | approval
  | effect
  | timer
  | boundedLoop
  deriving DecidableEq

/-- A node; its contract requires an identifier of at least one character. -/
structure WorkflowNode where
  id : String
  kind : NodeKind
  named : id ≠ ""

inductive EdgeCondition where
  | success
  | failure
  | approved
  | rejected
  | isTrue
  | isFalse
  | timerFired
  | loopContinue
  | loopDone
  deriving DecidableEq

structure WorkflowEdge where
  source : String
  target : String
  condition : EdgeCondition

/-- The part of a definition that the interpreter reads. -/
structure WorkflowDefinition where
  entryNode : String
  nodes : List WorkflowNode
  edges : List WorkflowEdge
  maxTotalSteps : Nat
  maxModelTurns : Nat

/-! ## Documents -/

def NodeKind.ofText? (text : String) : Option NodeKind :=
  [("DETERMINISTIC", .deterministic), ("ACTIVITY", .activity), ("MODEL", .model),
    ("APPROVAL", .approval), ("EFFECT", .effect), ("TIMER", .timer),
    ("BOUNDED_LOOP", NodeKind.boundedLoop)].lookup text

def EdgeCondition.ofText? (text : String) : Option EdgeCondition :=
  [("SUCCESS", .success), ("FAILURE", .failure), ("APPROVED", .approved), ("REJECTED", .rejected),
    ("TRUE", .isTrue), ("FALSE", .isFalse), ("TIMER_FIRED", .timerFired),
    ("LOOP_CONTINUE", .loopContinue), ("LOOP_DONE", EdgeCondition.loopDone)].lookup text

def DocumentNode.node? (n : DocumentNode) : Option WorkflowNode := do
  let kind ← NodeKind.ofText? n.kind
  if h : n.id ≠ "" then some ⟨n.id, kind, h⟩ else none

def DocumentEdge.edge? (e : DocumentEdge) : Option WorkflowEdge := do
  let condition ← EdgeCondition.ofText? e.condition
  return ⟨e.source, e.target, condition⟩

/-- What the interpreter reads of a document. -/
def WorkflowDocument.definition? (w : WorkflowDocument) : Option WorkflowDefinition := do
  let nodes ← w.nodes.mapM DocumentNode.node?
  let edges ← w.edges.mapM DocumentEdge.edge?
  return { entryNode := w.entryNode, nodes, edges, maxTotalSteps := w.maxTotalSteps
           maxModelTurns := w.maxModelTurns }

/-! ## Steps -/

/-- The key of the `seq`-th visit, counted from one. -/
def logicalStepKey (seq : Nat) (nodeId : String) : String :=
  Text.padded 4 seq ++ String.singleton ':' ++ nodeId

/-- The node inside a step key. -/
def nodeIdFromLogicalStepId (logicalStepId : String) : Option String :=
  ((Text.splitOnce ':' logicalStepId).map Prod.snd).filter fun nodeId => decide (nodeId ≠ "")

structure CheckpointRecord where
  logicalStepId : String
  nodeId : String
  state : CheckpointState
  failureCode : Option String

/-- What the worker must do next. -/
inductive StepDecision where
  | execute (logicalStepId nodeId : String)
  | completed
  | limitReached
  | waitingApproval (logicalStepId nodeId : String)
  | replayIncompatible
  | blocked (failureCode : Option String)
  | unsupported (nodeId reason : String)
  deriving DecidableEq

/-! ## The interpreter -/

/-- The records are indexed by their step; of two with one step the later one counts. -/
structure RunInterpreter where
  definition : WorkflowDefinition
  checkpoints : List CheckpointRecord

namespace WorkflowDefinition

def node (d : WorkflowDefinition) (nodeId : String) : Option WorkflowNode :=
  d.nodes.find? fun n => decide (n.id = nodeId)

/-- The first edge that the success of a node licenses: `APPROVED` from an approval, `SUCCESS` from
every other node. -/
def successor (d : WorkflowDefinition) (nodeId : String) : Option String := do
  let n ← d.node nodeId
  let condition := if n.kind = .approval then EdgeCondition.approved else .success
  let edge ← d.edges.find? fun e => decide (e.source = nodeId ∧ e.condition = condition)
  return edge.target

/-- Walk a number of edges from a node; `none` is the end of the traversal. -/
def walk (d : WorkflowDefinition) : Nat → String → Except (String × String) (Option String)
  | 0, current =>
    match d.node current with
    | none => .error ("NODE_UNDECLARED", current)
    | some _ => .ok (some current)
  | steps + 1, current =>
    match d.node current with
    | none => .error ("NODE_UNDECLARED", current)
    | some _ =>
      if (d.edges.filter fun e => decide (e.source = current)) = [] then .ok none
      else
        match d.successor current with
        | none => .error ("UNMODELED_BRANCH_EDGE", current)
        | some next =>
          match d.node next with
          | none => .error ("EDGE_TARGET_UNDECLARED", next)
          | some _ => d.walk steps next

/-- The node that the traversal visits at a step. -/
def nodeAt (d : WorkflowDefinition) (seq : Nat) : Except (String × String) (Option String) :=
  d.walk (seq - 1) d.entryNode

/-- The number of model nodes before a step. -/
def modelTurnsUsed (d : WorkflowDefinition) (uptoSeq : Nat) : Nat :=
  (((List.range' 1 (uptoSeq - 1)).filterMap fun seq => (d.nodeAt seq).toOption.join).filter
    fun nodeId => (d.node nodeId).any fun n => decide (n.kind = .model)).length

end WorkflowDefinition

namespace RunInterpreter

def checkpoint (i : RunInterpreter) (key : String) : Option CheckpointRecord :=
  i.checkpoints.reverse.find? fun r => decide (r.logicalStepId = key)

def budgetGate (i : RunInterpreter) (seq : Nat) (nodeId key : String) : StepDecision :=
  match i.definition.node nodeId with
  | none => .replayIncompatible
  | some n =>
    if n.kind = .model ∧ i.definition.maxModelTurns ≤ i.definition.modelTurnsUsed seq then
      .limitReached
    else if n.kind = .approval then .waitingApproval key nodeId
    else .execute key nodeId

/-- The steps from `seq` on, as many as are left of the budget. -/
def nextStepFrom (i : RunInterpreter) : Nat → Nat → StepDecision
  | 0, _ => .limitReached
  | left + 1, seq =>
    match i.definition.nodeAt seq with
    | .error (reason, nodeId) => .unsupported nodeId reason
    | .ok none => .completed
    | .ok (some nodeId) =>
      let key := logicalStepKey seq nodeId
      match i.checkpoint key with
      | none => i.budgetGate seq nodeId key
      | some record =>
        if record.nodeId ≠ nodeId then .replayIncompatible
        else
          match record.state with
          | .succeeded => i.nextStepFrom left (seq + 1)
          | .failed | .blocked => .blocked record.failureCode
          | .running | .incomplete => i.budgetGate seq nodeId key

def nextStep (i : RunInterpreter) : StepDecision := i.nextStepFrom i.definition.maxTotalSteps 1

end RunInterpreter

/-! ## Resuming -/

/-- A row without a node in its key is dropped. -/
def checkpointRecord (row : DurableCheckpoint) : Option CheckpointRecord :=
  (nodeIdFromLogicalStepId row.logicalStepId).map fun nodeId =>
    { logicalStepId := row.logicalStepId, nodeId, state := row.state
      failureCode := row.failureCode }

def interpreterFromCheckpoints (definition : WorkflowDefinition) (rows : List DurableCheckpoint) :
    RunInterpreter :=
  { definition, checkpoints := rows.filterMap checkpointRecord }

end Masonwing
