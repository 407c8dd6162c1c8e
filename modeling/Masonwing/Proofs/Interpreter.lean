import Masonwing.Proofs.Evaluation
import Masonwing.Proofs.PlatformChanges
import Masonwing.Worker.Interpreter

/-!
# What the interpreter decides

* `logicalStepKey_injective`, `nodeIdFromLogicalStepId_key`: a step key is read back in one way;
* `nextStep_execute`: everything that is behind the decision to execute a step;
* `nextStep_ne_replayIncompatible`: the node is stored in the key only, so a record that is found
  under the key of a node names that node, and no history is ever found incompatible.
-/

namespace Masonwing

open Outcome

/-! ## Keys -/

theorem splitOnce_logicalStepKey (seq : Nat) (nodeId : String) :
    Text.splitOnce ':' (logicalStepKey seq nodeId) = some (Text.padded 4 seq, nodeId) := by
  apply Text.splitOnce_append
  intro hColon
  have hDigit := Text.isDigit_of_mem_padded hColon
  revert hDigit
  decide

theorem logicalStepKey_injective {k j : Nat} {a b : String}
    (h : logicalStepKey k a = logicalStepKey j b) : k = j ∧ a = b := by
  have hSplit := splitOnce_logicalStepKey k a
  rw [h, splitOnce_logicalStepKey, Option.some.injEq, Prod.mk.injEq] at hSplit
  exact ⟨(Text.padded_injective hSplit.1).symm, hSplit.2.symm⟩

theorem nodeIdFromLogicalStepId_key (seq : Nat) (nodeId : String) :
    nodeIdFromLogicalStepId (logicalStepKey seq nodeId) =
      if nodeId = "" then none else some nodeId := by
  rw [nodeIdFromLogicalStepId, splitOnce_logicalStepKey, Option.map_some]
  by_cases hEmpty : nodeId = "" <;> simp [Option.filter, hEmpty]

/-! ## Records -/

section Records

variable {d : WorkflowDefinition} {rows : List DurableCheckpoint}

/-- A record comes from the row of its key and names the node of that key. -/
theorem checkpoint_row {key : String} {record : CheckpointRecord}
    (h : (interpreterFromCheckpoints d rows).checkpoint key = some record) :
    ∃ row ∈ rows, row.logicalStepId = key ∧ row.state = record.state ∧
      nodeIdFromLogicalStepId key = some record.nodeId := by
  have hKey := List.find?_some h
  have hMem := List.mem_of_find?_eq_some h
  rw [decide_eq_true_eq] at hKey
  rw [List.mem_reverse] at hMem
  obtain ⟨row, hRow, hRecord⟩ := List.mem_filterMap.mp hMem
  obtain ⟨nodeId, hNode, rfl⟩ := Option.map_eq_some_iff.mp hRecord
  dsimp only at hKey
  rw [hKey] at hNode
  exact ⟨row, hRow, hKey, rfl, hNode⟩

theorem checkpoint_nodeId {seq : Nat} {nodeId : String} {record : CheckpointRecord}
    (h : (interpreterFromCheckpoints d rows).checkpoint (logicalStepKey seq nodeId) =
      some record) : record.nodeId = nodeId := by
  obtain ⟨row, -, -, -, hNode⟩ := checkpoint_row h
  rw [nodeIdFromLogicalStepId_key] at hNode
  split at hNode
  · cases hNode
  · exact (Option.some.inj hNode).symm

/-- A row whose key names a node is found. -/
theorem checkpoint_of_row {seq : Nat} {nodeId : String} {row : DurableCheckpoint}
    (hRow : row ∈ rows) (hKey : row.logicalStepId = logicalStepKey seq nodeId)
    (hNode : nodeId ≠ "") :
    ∃ record, (interpreterFromCheckpoints d rows).checkpoint (logicalStepKey seq nodeId) =
      some record := by
  rw [← Option.isSome_iff_exists, RunInterpreter.checkpoint, List.find?_isSome]
  refine ⟨{ logicalStepId := row.logicalStepId, nodeId, state := row.state
            failureCode := row.failureCode }, ?_, decide_eq_true hKey⟩
  rw [List.mem_reverse]
  refine List.mem_filterMap.mpr ⟨row, hRow, ?_⟩
  rw [checkpointRecord, hKey, nodeIdFromLogicalStepId_key, if_neg hNode]
  rfl

end Records

/-! ## The traversal -/

section Traversal

variable {d : WorkflowDefinition}

theorem WorkflowDefinition.node_id {nodeId : String} {n : WorkflowNode}
    (h : d.node nodeId = some n) : n.id = nodeId := by
  simpa using List.find?_some h

/-- The traversal visits declared nodes only. -/
theorem WorkflowDefinition.walk_declared {steps : Nat} {current nodeId : String}
    (h : d.walk steps current = .ok (some nodeId)) : ∃ n, d.node nodeId = some n := by
  induction steps generalizing current with
  | zero =>
    rw [walk] at h
    split at h
    · cases h
    · rename_i n hNode
      cases h
      exact ⟨n, hNode⟩
  | succ steps ih =>
    rw [walk] at h
    split at h
    · cases h
    · split at h
      · cases h
      · split at h
        · cases h
        · split at h
          · cases h
          · exact ih h

theorem WorkflowDefinition.nodeAt_declared {seq : Nat} {nodeId : String}
    (h : d.nodeAt seq = .ok (some nodeId)) : ∃ n, d.node nodeId = some n := walk_declared h

theorem WorkflowDefinition.nodeAt_ne_empty {seq : Nat} {nodeId : String}
    (h : d.nodeAt seq = .ok (some nodeId)) : nodeId ≠ "" := by
  obtain ⟨n, hNode⟩ := nodeAt_declared h
  rw [← node_id hNode]
  exact n.named

end Traversal

/-! ## Decisions -/

section Decisions

variable {i : RunInterpreter}

/-- The step is recorded as succeeded under its own key. -/
def RunInterpreter.Passed (i : RunInterpreter) (seq : Nat) : Prop :=
  ∃ nodeId record, i.definition.nodeAt seq = .ok (some nodeId) ∧
    i.checkpoint (logicalStepKey seq nodeId) = some record ∧ record.state = .succeeded

/-- Everything behind the decision to execute a step. -/
structure RunInterpreter.Executes (i : RunInterpreter) (seq : Nat) (stepId nodeId : String) :
    Prop where
  node : i.definition.nodeAt seq = .ok (some nodeId)
  key : stepId = logicalStepKey seq nodeId
  open_ : ∀ record, i.checkpoint stepId = some record → record.state ≠ .succeeded
  kind : ∀ n, i.definition.node nodeId = some n → n.kind ≠ .approval ∧
    (n.kind = .model → i.definition.modelTurnsUsed seq < i.definition.maxModelTurns)

theorem RunInterpreter.budgetGate_execute {seq : Nat} {nodeId key stepId executed : String}
    (h : i.budgetGate seq nodeId key = .execute stepId executed) :
    stepId = key ∧ executed = nodeId ∧
      ∀ n, i.definition.node nodeId = some n → n.kind ≠ .approval ∧
        (n.kind = .model → i.definition.modelTurnsUsed seq < i.definition.maxModelTurns) := by
  rw [budgetGate] at h
  split at h
  · cases h
  · rename_i n hNode
    split at h
    · cases h
    · rename_i hTurns
      split at h
      · cases h
      · rename_i hApproval
        cases h
        refine ⟨rfl, rfl, fun m hm => ?_⟩
        cases hNode.symm.trans hm
        exact ⟨hApproval, fun hModel => by
          by_contra hNot
          exact hTurns ⟨hModel, not_lt.mp hNot⟩⟩

/-- The steps before the one that is executed have passed. -/
theorem RunInterpreter.nextStepFrom_execute {left seq : Nat} {stepId nodeId : String}
    (h : i.nextStepFrom left seq = .execute stepId nodeId) :
    ∃ k, seq ≤ k ∧ k < seq + left ∧ i.Executes k stepId nodeId ∧
      ∀ j, seq ≤ j → j < k → i.Passed j := by
  induction left generalizing seq with
  | zero => cases h
  | succ left ih =>
    rw [nextStepFrom] at h
    split at h
    · cases h
    · cases h
    · rename_i visited hVisited
      -- the decision falls on this step unless its checkpoint has succeeded
      have hHere : i.budgetGate seq visited (logicalStepKey seq visited) = .execute stepId nodeId →
          (∀ record, i.checkpoint (logicalStepKey seq visited) = some record →
            record.state ≠ .succeeded) →
          ∃ k, seq ≤ k ∧ k < seq + (left + 1) ∧ i.Executes k stepId nodeId ∧
            ∀ j, seq ≤ j → j < k → i.Passed j := by
        intro hGate hOpen
        obtain ⟨rfl, rfl, hKind⟩ := budgetGate_execute hGate
        refine ⟨seq, le_refl _, by omega, ⟨hVisited, rfl, hOpen, hKind⟩, fun j h₁ h₂ => ?_⟩
        omega
      dsimp only at h
      split at h
      · rename_i hNone
        refine hHere h fun record hRecord => ?_
        cases hNone.symm.trans hRecord
      · rename_i record hRecord
        have hOpen : record.state ≠ .succeeded → ∀ r,
            i.checkpoint (logicalStepKey seq visited) = some r → r.state ≠ .succeeded := by
          intro hState r hr
          cases hRecord.symm.trans hr
          exact hState
        split at h
        · cases h
        · cases hState : record.state with
          | succeeded =>
            rw [hState] at h
            obtain ⟨k, hFrom, hTo, hExecutes, hPassed⟩ := ih h
            refine ⟨k, by omega, by omega, hExecutes, fun j h₁ h₂ => ?_⟩
            rcases Nat.eq_or_lt_of_le h₁ with rfl | hLater
            · exact ⟨visited, record, hVisited, hRecord, hState⟩
            · exact hPassed j hLater h₂
          | running =>
            rw [hState] at h
            exact hHere h (hOpen (by rw [hState]; decide))
          | incomplete =>
            rw [hState] at h
            exact hHere h (hOpen (by rw [hState]; decide))
          | failed =>
            rw [hState] at h
            cases h
          | blocked =>
            rw [hState] at h
            cases h

theorem RunInterpreter.nextStep_execute {stepId nodeId : String}
    (h : i.nextStep = .execute stepId nodeId) :
    ∃ k, 1 ≤ k ∧ k ≤ i.definition.maxTotalSteps ∧ i.Executes k stepId nodeId ∧
      ∀ j, 1 ≤ j → j < k → i.Passed j := by
  obtain ⟨k, hFrom, hTo, hExecutes, hPassed⟩ := nextStepFrom_execute h
  exact ⟨k, hFrom, by omega, hExecutes, hPassed⟩

end Decisions

/-! ## Incompatible histories -/

section Replay

variable {d : WorkflowDefinition} {rows : List DurableCheckpoint}

/-- The gate refuses only what the traversal never visits. -/
theorem RunInterpreter.budgetGate_ne_replayIncompatible {i : RunInterpreter} {seq : Nat}
    {nodeId key : String} (hVisited : i.definition.nodeAt seq = .ok (some nodeId)) :
    i.budgetGate seq nodeId key ≠ .replayIncompatible := by
  obtain ⟨n, hNode⟩ := WorkflowDefinition.nodeAt_declared hVisited
  rw [budgetGate, hNode]
  dsimp only
  split
  · exact fun h => by cases h
  · split
    · exact fun h => by cases h
    · exact fun h => by cases h

theorem nextStepFrom_ne_replayIncompatible (left seq : Nat) :
    (interpreterFromCheckpoints d rows).nextStepFrom left seq ≠ .replayIncompatible := by
  induction left generalizing seq with
  | zero =>
    intro h
    cases h
  | succ left ih =>
    intro h
    rw [RunInterpreter.nextStepFrom] at h
    split at h
    · cases h
    · cases h
    · rename_i nodeId hVisited
      have hGate : (interpreterFromCheckpoints d rows).budgetGate seq nodeId
          (logicalStepKey seq nodeId) ≠ .replayIncompatible :=
        RunInterpreter.budgetGate_ne_replayIncompatible hVisited
      dsimp only at h
      split at h
      · exact hGate h
      · rename_i record hRecord
        split at h
        · rename_i hOther
          exact hOther (checkpoint_nodeId hRecord)
        · split at h
          · exact ih (seq + 1) h
          · cases h
          · cases h
          · exact hGate h
          · exact hGate h

end Replay

/-- The run accepts a checkpoint of a worker, and the step has none yet. -/
structure CheckpointAcceptable (t : Tables) (id : Uuid) (record : CheckpointWrite) : Prop where
  tenant : t.identity.tenantActive = true
  run : ∃ r, t.runs.get? id = some r ∧ r.fence = record.fence ∧ r.state.inProgress = true
  state : ∃ state, CheckpointState.ofText? record.state = some state
  fence : 0 < record.fence
  new : t.checkpoints.get? (id, record.logicalStepId) = none

/-- A checkpoint is accepted whatever other steps the run has recorded. -/
theorem recordRunCheckpoint_accepts {t : Tables} {id : Uuid} {record : CheckpointWrite}
    (h : CheckpointAcceptable t id record) :
    ∃ t' row, recordRunCheckpoint t id record = .ok (t', true) ∧
      ∀ k, t'.checkpoints.get? k =
        if k = (id, record.logicalStepId) then some row else t.checkpoints.get? k := by
  obtain ⟨r, hr, hFence, hProgress⟩ := h.run
  obtain ⟨state, hState⟩ := h.state
  have hInsert : ∃ checkpoints, t.checkpoints.insert? (id, record.logicalStepId)
      { fence := record.fence, state, outputRef := record.outputRef
        failureCode := record.failureCode } = some checkpoints :=
    Table.insert?_isSome_iff.mpr h.new
  obtain ⟨checkpoints, hInsert⟩ := hInsert
  refine ⟨{ t with checkpoints }, _, ?_, fun k => Table.insert?_get? hInsert k⟩
  simp only [recordRunCheckpoint, bind_eq_ok, okOr_eq_ok, require_eq_ok, beginSystem_eq_ok,
    exists_const]
  refine ⟨h.tenant, r, hr, hFence, hProgress, state, hState, ?_⟩
  rw [h.new]
  simp only [bind_eq_ok, require_eq_ok, sql_eq_ok, insertRow_eq_ok, pure_eq_ok, exists_const]
  exact ⟨h.fence, checkpoints, hInsert, rfl⟩

/-- No history is found incompatible, and the store accepts a second node for a step of a run. -/
theorem replay_incompatibility_undetected (d : WorkflowDefinition)
    (rows : List DurableCheckpoint) :
    (interpreterFromCheckpoints d rows).nextStep ≠ .replayIncompatible ∧
    ∀ (t : Tables) (id : Uuid) (seq : Nat) (first second : String) (old : CheckpointRow)
      (record : CheckpointWrite), first ≠ second →
      t.checkpoints.get? (id, logicalStepKey seq first) = some old →
      record.logicalStepId = logicalStepKey seq second → CheckpointAcceptable t id record →
      ∃ t' row, recordRunCheckpoint t id record = .ok (t', true) ∧
        t'.checkpoints.get? (id, logicalStepKey seq first) = some old ∧
        t'.checkpoints.get? (id, logicalStepKey seq second) = some row := by
  refine ⟨nextStepFrom_ne_replayIncompatible _ _, ?_⟩
  intro t id seq first second old record hOther hOld hKey hAcceptable
  obtain ⟨t', row, hAccepted, hRows⟩ := recordRunCheckpoint_accepts hAcceptable
  refine ⟨t', row, hAccepted, ?_, ?_⟩
  · rw [hRows, if_neg, hOld]
    intro hSame
    rw [hKey] at hSame
    exact hOther (logicalStepKey_injective (Prod.mk.inj hSame).2).2
  · rw [hRows, hKey, if_pos rfl]

/-! ## A changed definition -/

namespace Sample

/-- A letter is drafted and sent. -/
def letter : WorkflowDefinition :=
  { entryNode := "draft"
    nodes := [⟨"draft", .model, by decide⟩, ⟨"send", .activity, by decide⟩]
    edges := [⟨"draft", "send", .success⟩]
    maxTotalSteps := 4
    maxModelTurns := 1 }

/-- The history of a run under an earlier definition, in which the draft was reviewed. -/
def reviewed : List DurableCheckpoint :=
  [{ logicalStepId := logicalStepKey 1 "draft", state := .succeeded, failureCode := none, fence := 1 },
    { logicalStepId := logicalStepKey 2 "review", state := .succeeded, failureCode := none
      fence := 1 }]

def checkpointCall (n : Nat) (run : Uuid) (step state : String) : PlatformCall Empty :=
  { tick := reading n
    operation := .checkpoint run
      { logicalStepId := step, state, fence := 1, outputRef := none, failureCode := none } }

/-- A run executes and has recorded its first step. -/
def drafted : List (PlatformCall Empty) :=
  [delegate 1 none, start 2 (grantOf 1), coreSystem 3 (.markRunStarted (runOf 2) "attempt" 1),
    checkpointCall 4 (runOf 2) (logicalStepKey 1 "draft") "SUCCEEDED"]

/-- Another node for the same step. -/
def otherNode : CheckpointWrite :=
  { logicalStepId := logicalStepKey 1 "review", state := "SUCCEEDED", fence := 1
    outputRef := none, failureCode := none }

theorem drafted_facts :
    (fromWorkshop drafted).tables.identity.tenantActive = true ∧
      ((fromWorkshop drafted).tables.runs.get? (runOf 2)).map
        (fun r => (r.fence, r.state.inProgress)) = some (1, true) ∧
      ((fromWorkshop drafted).tables.checkpoints.get? (runOf 2, logicalStepKey 1 "draft")).map
        (·.state) = some .succeeded ∧
      ((fromWorkshop drafted).tables.checkpoints.get?
        (runOf 2, logicalStepKey 1 "review")).isNone = true := by
  simp only [Sample.fromWorkshop, platformStep_bytewise, Sample.platform_bytewise]
  decide +kernel

theorem otherNode_acceptable :
    CheckpointAcceptable (fromWorkshop drafted).tables (runOf 2) otherNode := by
  obtain ⟨hTenant, hRun, -, hNew⟩ := drafted_facts
  obtain ⟨r, hr, hPair⟩ := Option.map_eq_some_iff.mp hRun
  obtain ⟨hFence, hProgress⟩ := Prod.mk.inj hPair
  exact
    { tenant := hTenant
      run := ⟨r, hr, hFence, hProgress⟩
      state := ⟨.succeeded, rfl⟩
      fence := Int.zero_lt_one
      new := Option.isNone_iff_eq_none.mp hNew }

end Sample

theorem replay_undetected_reviewed :
    (interpreterFromCheckpoints Sample.letter Sample.reviewed).nextStep ≠ .replayIncompatible ∧
    ∃ t' old row, recordRunCheckpoint (Sample.fromWorkshop Sample.drafted).tables (Sample.runOf 2)
        Sample.otherNode = .ok (t', true) ∧
      t'.checkpoints.get? (Sample.runOf 2, logicalStepKey 1 "draft") = some old ∧
      t'.checkpoints.get? (Sample.runOf 2, logicalStepKey 1 "review") = some row := by
  obtain ⟨old, hOld, -⟩ := Option.map_eq_some_iff.mp Sample.drafted_facts.2.2.1
  obtain ⟨hCompatible, hSecondNode⟩ := replay_incompatibility_undetected Sample.letter
    Sample.reviewed
  obtain ⟨t', row, hAccepted, hFirst, hSecond⟩ := hSecondNode
    (Sample.fromWorkshop Sample.drafted).tables (Sample.runOf 2) 1 "draft" "review" old
    Sample.otherNode (by decide) hOld rfl Sample.otherNode_acceptable
  exact ⟨hCompatible, t', old, row, hAccepted, hFirst, hSecond⟩

/-- The second step was recorded for a node that the definition does not visit there, and the
decision is to execute. -/
theorem changed_definition_executed :
    (Sample.letter.nodeAt 1 = .ok (some "draft") ∧ Sample.letter.nodeAt 2 = .ok (some "send")) ∧
    (∃ row ∈ Sample.reviewed, row.logicalStepId = logicalStepKey 1 "draft" ∧
      row.state = .succeeded) ∧
    (∃ row ∈ Sample.reviewed, row.logicalStepId = logicalStepKey 2 "review") ∧
    (∀ row ∈ Sample.reviewed, row.logicalStepId ≠ logicalStepKey 2 "send") ∧
    (interpreterFromCheckpoints Sample.letter Sample.reviewed).nextStep =
      .execute (logicalStepKey 2 "send") "send" := by
  refine ⟨⟨rfl, rfl⟩, ⟨_, List.mem_cons_self, rfl, rfl⟩,
    ⟨_, List.mem_cons_of_mem _ List.mem_cons_self, rfl⟩, fun row hRow => ?_, by decide +kernel⟩
  have hRows : ∀ key ∈ Sample.reviewed.map (·.logicalStepId), key ≠ logicalStepKey 2 "send" := by
    decide +kernel
  exact hRows _ (List.mem_map_of_mem hRow)

end Masonwing
