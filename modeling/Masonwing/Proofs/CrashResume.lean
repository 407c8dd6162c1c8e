import Masonwing.Proofs.Evaluation
import Mathlib.Data.List.Perm.Subperm
import Masonwing.Proofs.Interpreter
import Masonwing.Proofs.RunLifecycle
import Masonwing.Worker.Loop

/-!
# Crash and resume

What any number of workers can execute of one run, with crashes between any two of their steps.
What a worker holds is tied to the store by `Sound`: a succeeded row it has read is still there, and
so are the steps before the one it has decided to execute. Everything else about a decision is a
matter of the definition.
-/

namespace Masonwing

open Outcome

variable {ι : Type}

/-! ## Counting -/

/-- Among the first numbers, those with a property and with fewer than `bound` such numbers before
them are at most `bound`. -/
theorem length_filter_bounded (P : Nat → Bool) (bound n : Nat) :
    ((List.range' 1 n).filter fun k =>
      P k && decide (((List.range' 1 (k - 1)).filter P).length < bound)).length ≤
      min ((List.range' 1 n).filter P).length bound := by
  induction n with
  | zero => exact Nat.zero_le _
  | succ n ih =>
    rw [List.range'_1_concat, List.filter_append, List.filter_append, List.length_append,
      List.length_append]
    have hBefore : 1 + n - 1 = n := by omega
    by_cases hP : P (1 + n) = true
    · have hOne : (List.filter P [1 + n]).length = 1 := by simp [hP]
      by_cases hRoom : ((List.range' 1 n).filter P).length < bound
      · have hNew : (List.filter (fun k => P k && decide
            (((List.range' 1 (k - 1)).filter P).length < bound)) [1 + n]).length = 1 := by
          simp [hP, hBefore, hRoom]
        rw [hNew, hOne]
        omega
      · have hNew : (List.filter (fun k => P k && decide
            (((List.range' 1 (k - 1)).filter P).length < bound)) [1 + n]).length = 0 := by
          simp [hBefore, hRoom]
        rw [hNew, hOne]
        omega
    · have hOne : (List.filter P [1 + n]).length = 0 := by simp [hP]
      have hNew : (List.filter (fun k => P k && decide
          (((List.range' 1 (k - 1)).filter P).length < bound)) [1 + n]).length = 0 := by
        simp [hP]
      rw [hNew, hOne]
      omega

namespace WorkflowDefinition

/-- The traversal visits a model node at the step. -/
def modelAt (d : WorkflowDefinition) (seq : Nat) : Bool :=
  (d.nodeAt seq).toOption.join.any fun nodeId =>
    (d.node nodeId).any fun n => decide (n.kind = .model)

theorem modelTurnsUsed_eq (d : WorkflowDefinition) (seq : Nat) :
    d.modelTurnsUsed seq = ((List.range' 1 (seq - 1)).filter d.modelAt).length := by
  rw [modelTurnsUsed]
  induction List.range' 1 (seq - 1) with
  | nil => rfl
  | cons k ks ih =>
    cases hNode : (d.nodeAt k).toOption.join with
    | none => simp [modelAt, hNode, ih]
    | some nodeId =>
      by_cases hModel : (d.node nodeId).any (fun n => decide (n.kind = .model)) = true
      · simp [modelAt, hNode, hModel, ih]
      · simp [modelAt, hNode, hModel, ih]

end WorkflowDefinition

/-! ## Reading -/

/-- The rows that a worker reads are those of its run. -/
theorem mem_readRunCheckpoints {t : Tables} {runId : Uuid} {rows : List DurableCheckpoint}
    (h : readRunCheckpoints t runId = .ok rows) :
    (∀ row ∈ rows, ∃ c, t.checkpoints.get? (runId, row.logicalStepId) = some c ∧
        c.state = row.state) ∧
      ∀ stepId c, t.checkpoints.get? (runId, stepId) = some c →
        ∃ row ∈ rows, row.logicalStepId = stepId := by
  simp only [readRunCheckpoints, bind_eq_ok, okOr_eq_ok, pure_eq_ok] at h
  obtain ⟨-, -, r, -, rfl⟩ := h
  refine ⟨fun row hRow => ?_, fun stepId c hc => ?_⟩
  · rw [List.mem_insertionSort] at hRow
    obtain ⟨⟨⟨k, step⟩, c⟩, hSelected, rfl⟩ := List.mem_map.mp hRow
    obtain ⟨hc, hKey⟩ := Table.mem_select.mp hSelected
    rw [decide_eq_true_eq] at hKey
    subst hKey
    exact ⟨c, hc, rfl⟩
  · refine ⟨{ logicalStepId := stepId, state := c.state, failureCode := c.failureCode
              fence := r.fence }, ?_, rfl⟩
    rw [List.mem_insertionSort]
    exact List.mem_map.mpr ⟨((runId, stepId), c),
      Table.mem_select.mpr ⟨hc, decide_eq_true rfl⟩, rfl⟩

/-! ## Soundness of what workers hold -/

/-- The step has a succeeded checkpoint. -/
def Succeeded (runId : Uuid) (stepId : String) (t : Tables) : Prop :=
  ∃ row, t.checkpoints.get? (runId, stepId) = some row ∧ row.state = .succeeded

/-- The step may be executed: the traversal visits it, the steps before it have succeeded, and it
is within the bounds of the definition. -/
structure Due (d : WorkflowDefinition) (runId : Uuid) (t : Tables) (k : Nat)
    (stepId nodeId : String) : Prop where
  within : 1 ≤ k ∧ k ≤ d.maxTotalSteps
  node : d.nodeAt k = .ok (some nodeId)
  key : stepId = logicalStepKey k nodeId
  before : ∀ j, 1 ≤ j → j < k → ∃ n, d.nodeAt j = .ok (some n) ∧
    Succeeded runId (logicalStepKey j n) t
  kind : ∀ n, d.node nodeId = some n → n.kind ≠ .approval ∧
    (n.kind = .model → d.modelTurnsUsed k < d.maxModelTurns)

/-- What a worker holds is backed by the store. -/
def LoopPhase.Sound (d : WorkflowDefinition) (runId : Uuid) (t : Tables) : LoopPhase → Prop
  | .idle => True
  | .loaded rows => ∀ row ∈ rows, row.state = .succeeded → Succeeded runId row.logicalStepId t
  | .decided stepId nodeId => ∃ k, Due d runId t k stepId nodeId

section Step

variable {p : Platform ι} {d : WorkflowDefinition} {runId : Uuid}

theorem Succeeded.step {stepId : String} {s : Store} (h : Succeeded runId stepId s.tables)
    (c : PlatformCall ι) : Succeeded runId stepId (platformStep p s c).1.tables := by
  obtain ⟨row, hRow, hState⟩ := h
  refine ⟨row, ?_, hState⟩
  exact platformStep_keeps (I := fun t => t.checkpoints.get? (runId, stepId) = some row)
    (fun _ _ _ _ h hChange => hChange.succeeded_kept h hState) hRow

theorem LoopPhase.Sound.step {s : Store} {phase : LoopPhase} (h : phase.Sound d runId s.tables)
    (c : PlatformCall ι) : phase.Sound d runId (platformStep p s c).1.tables := by
  cases phase with
  | idle => trivial
  | loaded rows => exact fun row hRow hState => (h row hRow hState).step c
  | decided stepId nodeId =>
    obtain ⟨k, hDue⟩ := h
    refine ⟨k, { hDue with before := fun j hFrom hTo => ?_ }⟩
    obtain ⟨n, hNode, hSucceeded⟩ := hDue.before j hFrom hTo
    exact ⟨n, hNode, hSucceeded.step c⟩

theorem readPhase_sound (d : WorkflowDefinition) (t : Tables) (runId : Uuid) :
    (readPhase t runId).Sound d runId t := by
  rw [readPhase]
  split
  · rename_i rows hRead
    intro row hRow hState
    obtain ⟨c, hc, hSame⟩ := (mem_readRunCheckpoints hRead).1 row hRow
    exact ⟨c, hc, hSame.trans hState⟩
  · trivial

/-- A decision to execute is backed by the rows it was made from. -/
theorem due_of_execute {t : Tables} {rows : List DurableCheckpoint} {stepId nodeId : String}
    (hRows : (LoopPhase.loaded rows).Sound d runId t)
    (h : (interpreterFromCheckpoints d rows).nextStep = .execute stepId nodeId) :
    ∃ k, Due d runId t k stepId nodeId := by
  obtain ⟨k, hFrom, hTo, hExecutes, hPassed⟩ := RunInterpreter.nextStep_execute h
  refine ⟨k, ⟨hFrom, hTo⟩, hExecutes.node, hExecutes.key, fun j h₁ h₂ => ?_, hExecutes.kind⟩
  obtain ⟨n, record, hNode, hRecord, hState⟩ := hPassed j h₁ h₂
  obtain ⟨row, hRow, hKey, hSame, -⟩ := checkpoint_row hRecord
  have hSucceeded := hRows row hRow (hSame.trans hState)
  rw [hKey] at hSucceeded
  exact ⟨n, hNode, hSucceeded⟩

theorem afterDecision_sound {t : Tables} {rows : List DurableCheckpoint}
    (hRows : (LoopPhase.loaded rows).Sound d runId t) :
    (LoopPhase.afterDecision (interpreterFromCheckpoints d rows).nextStep).Sound d runId t := by
  cases hDecision : (interpreterFromCheckpoints d rows).nextStep with
  | execute stepId nodeId => exact due_of_execute hRows hDecision
  | _ => trivial

/-- What all workers hold is backed by the store. -/
def LoopSound (d : WorkflowDefinition) (runId : Uuid) (s : LoopState) : Prop :=
  ∀ w, (s.phases w).Sound d runId s.store.tables

theorem LoopSound.enter {s : LoopState} (h : LoopSound d runId s) {w : Nat} {phase : LoopPhase}
    (hPhase : phase.Sound d runId s.store.tables) : LoopSound d runId (s.enter w phase) := by
  intro v
  by_cases hv : v = w
  · subst hv
    rw [LoopState.enter_self]
    exact hPhase
  · rw [LoopState.enter_of_ne _ _ hv]
    exact h v

/-- The step lemma: what is held stays sound, and only a step that is due is executed. -/
theorem LoopSound.step {s : LoopState} (h : LoopSound d runId s) (a : LoopAction ι) :
    LoopSound d runId (loopStep p d runId s a).1 ∧
      ∀ stepId nodeId, (loopStep p d runId s a).2.subject = some (stepId, nodeId) →
        ∃ k, Due d runId s.store.tables k stepId nodeId := by
  cases a with
  | read w => exact ⟨h.enter (readPhase_sound d _ runId), fun _ _ hNone => (by cases hNone)⟩
  | choose w =>
    have hw := h w
    rw [loopStep]
    split
    · rename_i rows hPhase
      rw [hPhase] at hw
      refine ⟨h.enter (afterDecision_sound hw), fun stepId nodeId hSubject => ?_⟩
      cases hDecision : (interpreterFromCheckpoints d rows).nextStep with
      | execute stepId' nodeId' =>
        simp only [hDecision, LoopReply.subject, Option.some.injEq, Prod.mk.injEq] at hSubject
        obtain ⟨rfl, rfl⟩ := hSubject
        exact due_of_execute hw hDecision
      | _ =>
        simp only [hDecision, LoopReply.subject] at hSubject
        cases hSubject
    · exact ⟨h, fun _ _ hNone => (by cases hNone)⟩
  | execute w =>
    have hw := h w
    rw [loopStep]
    split
    · rename_i held heldNode hPhase
      rw [hPhase] at hw
      refine ⟨h, fun stepId nodeId hSubject => ?_⟩
      cases hSubject
      exact hw
    · exact ⟨h, fun _ _ hNone => (by cases hNone)⟩
  | record w tick report =>
    rw [loopStep]
    split
    · exact ⟨fun v => (h v).step _, fun _ _ hNone => (by cases hNone)⟩
    · exact ⟨h, fun _ _ hNone => (by cases hNone)⟩
  | crash w => exact ⟨h.enter trivial, fun _ _ hNone => (by cases hNone)⟩
  | platform c => exact ⟨fun v => (h v).step c, fun _ _ hNone => (by cases hNone)⟩

end Step

/-! ## A settled step -/

/-- The rows show the step as succeeded. -/
def ShowsSucceeded (stepId : String) (rows : List DurableCheckpoint) : Prop :=
  (∃ row ∈ rows, row.logicalStepId = stepId) ∧
    ∀ row ∈ rows, row.logicalStepId = stepId → row.state = .succeeded

/-- What a worker holds was read when the step had succeeded. -/
def LoopPhase.Informed (stepId : String) : LoopPhase → Prop
  | .idle => True
  | .loaded rows => ShowsSucceeded stepId rows
  | .decided other _ => other ≠ stepId

/-- The step has succeeded and the worker has read the checkpoints since. -/
structure StepSettled (runId : Uuid) (stepId : String) (w : Nat) (s : LoopState) : Prop where
  succeeded : Succeeded runId stepId s.store.tables
  informed : (s.phases w).Informed stepId

section Settled

variable {p : Platform ι} {d : WorkflowDefinition} {runId : Uuid} {stepId : String} {w : Nat}

theorem readPhase_informed {t : Tables} (h : Succeeded runId stepId t) :
    (readPhase t runId).Informed stepId := by
  obtain ⟨c, hc, hState⟩ := h
  rw [readPhase]
  split
  · rename_i rows hRead
    obtain ⟨hRows, hAll⟩ := mem_readRunCheckpoints hRead
    refine ⟨hAll stepId c hc, fun row hRow hKey => ?_⟩
    obtain ⟨c', hc', hSame⟩ := hRows row hRow
    rw [hKey] at hc'
    cases hc'.symm.trans hc
    exact hSame.symm.trans hState
  · trivial

/-- From such rows the step is not executed. -/
theorem nextStep_not_settled {rows : List DurableCheckpoint} (h : ShowsSucceeded stepId rows)
    (nodeId : String) :
    (interpreterFromCheckpoints d rows).nextStep ≠ .execute stepId nodeId := by
  intro hDecision
  obtain ⟨k, -, -, hExecutes, -⟩ := RunInterpreter.nextStep_execute hDecision
  obtain ⟨⟨row, hRow, hKey⟩, hAll⟩ := h
  have hNamed := WorkflowDefinition.nodeAt_ne_empty hExecutes.node
  obtain ⟨record, hRecord⟩ :=
    checkpoint_of_row (d := d) hRow (hKey.trans hExecutes.key) hNamed
  rw [← hExecutes.key] at hRecord
  obtain ⟨row', hRow', hKey', hSame, -⟩ := checkpoint_row hRecord
  exact hExecutes.open_ record hRecord (hSame.symm.trans (hAll row' hRow' hKey'))

theorem afterDecision_informed {rows : List DurableCheckpoint} (h : ShowsSucceeded stepId rows) :
    (LoopPhase.afterDecision (interpreterFromCheckpoints d rows).nextStep).Informed stepId := by
  cases hDecision : (interpreterFromCheckpoints d rows).nextStep with
  | execute other nodeId =>
    rintro rfl
    exact nextStep_not_settled h nodeId hDecision
  | _ => trivial

theorem StepSettled.enter {s : LoopState} (h : StepSettled runId stepId w s) {v : Nat} {phase : LoopPhase}
    (hPhase : v = w → phase.Informed stepId) : StepSettled runId stepId w (s.enter v phase) := by
  refine ⟨h.succeeded, ?_⟩
  by_cases hv : w = v
  · subst hv
    rw [LoopState.enter_self]
    exact hPhase rfl
  · rw [LoopState.enter_of_ne _ _ hv]
    exact h.informed

/-- A settled step stays settled, and the worker does not execute it. -/
theorem StepSettled.step {s : LoopState} (h : StepSettled runId stepId w s) (a : LoopAction ι) :
    StepSettled runId stepId w (loopStep p d runId s a).1 ∧
      (a.worker = some w →
        ∀ nodeId, (loopStep p d runId s a).2.subject ≠ some (stepId, nodeId)) := by
  cases a with
  | read v =>
    exact ⟨h.enter fun _ => readPhase_informed h.succeeded, fun _ _ hNone => (by cases hNone)⟩
  | choose v =>
    rw [loopStep]
    split
    · rename_i rows hPhase
      have hShows : v = w → ShowsSucceeded stepId rows := by
        rintro rfl
        have hInformed := h.informed
        rw [hPhase] at hInformed
        exact hInformed
      refine ⟨h.enter fun hv => afterDecision_informed (hShows hv), fun hWorker nodeId hSubject => ?_⟩
      have hNot := nextStep_not_settled (d := d) (hShows (Option.some.inj hWorker)) nodeId
      cases hDecision : (interpreterFromCheckpoints d rows).nextStep with
      | execute other otherNode =>
        simp only [hDecision, LoopReply.subject, Option.some.injEq, Prod.mk.injEq] at hSubject
        rw [hDecision, hSubject.1, hSubject.2] at hNot
        exact hNot rfl
      | _ =>
        simp only [hDecision, LoopReply.subject] at hSubject
        cases hSubject
    · exact ⟨h, fun _ _ hNone => (by cases hNone)⟩
  | execute v =>
    rw [loopStep]
    split
    · rename_i held heldNode hPhase
      refine ⟨h, fun hWorker nodeId hSubject => ?_⟩
      cases hWorker
      have hInformed := h.informed
      rw [hPhase] at hInformed
      cases hSubject
      exact hInformed rfl
    · exact ⟨h, fun _ _ hNone => (by cases hNone)⟩
  | record v tick report =>
    rw [loopStep]
    split
    · exact ⟨⟨h.succeeded.step _, h.informed⟩, fun _ _ hNone => (by cases hNone)⟩
    · exact ⟨h, fun _ _ hNone => (by cases hNone)⟩
  | crash v => exact ⟨h.enter fun _ => trivial, fun _ _ hNone => (by cases hNone)⟩
  | platform c =>
    exact ⟨⟨h.succeeded.step c, h.informed⟩, fun _ _ hNone => (by cases hNone)⟩

end Settled

/-! ## Every run -/

/-- The steps that were decided or executed along a run, in order and with repetitions. -/
def executedSteps (events : List (Machine.Event LoopState (LoopAction ι) LoopReply)) :
    List (String × String) :=
  events.filterMap fun e => e.response.subject

/-- The keys of the steps of a definition that meet a condition. -/
def stepKeys (d : WorkflowDefinition) (condition : Nat → Bool) : List String :=
  ((List.range' 1 d.maxTotalSteps).filter condition).map fun k =>
    logicalStepKey k ((d.nodeAt k).toOption.join.getD "")

theorem mem_stepKeys {d : WorkflowDefinition} {condition : Nat → Bool} {runId : Uuid} {t : Tables}
    {k : Nat} {stepId nodeId : String} (h : Due d runId t k stepId nodeId)
    (hCondition : condition k = true) : stepId ∈ stepKeys d condition := by
  refine List.mem_map.mpr ⟨k, List.mem_filter.mpr ⟨?_, hCondition⟩, ?_⟩
  · rw [List.mem_range'_1]
    have hWithin := h.within
    omega
  · rw [h.node, h.key]
    rfl

/-- Distinct keys from a list are no more than the list is long. -/
theorem dedup_length_le {keys bound : List String} (h : keys ⊆ bound) :
    keys.dedup.length ≤ bound.length :=
  (List.Nodup.subperm (List.nodup_dedup keys) fun _ hKey => h (List.mem_dedup.mp hKey)).length_le

section Runs

variable {p : Platform ι} {d : WorkflowDefinition} {runId : Uuid} {s : Store}
  {actions : List (LoopAction ι)}

theorem loop_sound (p : Platform ι) (d : WorkflowDefinition) (runId : Uuid) (s : Store)
    (actions : List (LoopAction ι)) :
    LoopSound d runId (Machine.run (loopStep p d runId) (.start s) actions) :=
  Machine.run_invariant (loopStep p d runId) (fun _ a h => (h.step a).1) (fun _ => trivial) actions

/-- Every event that executes a step finds it due. -/
theorem due_of_subject {event : Machine.Event LoopState (LoopAction ι) LoopReply}
    (hMem : event ∈ Machine.trace (loopStep p d runId) (.start s) actions) {stepId nodeId : String}
    (hSubject : event.response.subject = some (stepId, nodeId)) :
    ∃ k, Due d runId event.before.store.tables k stepId nodeId := by
  obtain ⟨before, after, -, hAt⟩ := Machine.mem_trace (loopStep p d runId) hMem
  have hSound := loop_sound p d runId s before
  rw [hAt] at hSubject ⊢
  exact (hSound.step event.call).2 stepId nodeId hSubject

/-- What any interleaving of workers executes of a run. A step that has succeeded is not executed
by a worker that has read the checkpoints since; a step is executed only when those before it have
succeeded, at the node that the traversal visits there; and the number of different steps, and of
those at model nodes, stays within the bounds of the definition. -/
theorem crash_resume_bounded (p : Platform ι) (d : WorkflowDefinition) (runId : Uuid) (s : Store)
    (actions : List (LoopAction ι)) :
    (∀ past read middle event future w stepId nodeId,
      Machine.trace (loopStep p d runId) (.start s) actions =
        past ++ read :: (middle ++ event :: future) →
      read.call = .read w → Succeeded runId stepId read.before.store.tables →
      event.call.worker = some w → event.response.subject ≠ some (stepId, nodeId)) ∧
    (∀ event ∈ Machine.trace (loopStep p d runId) (.start s) actions, ∀ stepId nodeId,
      event.response.subject = some (stepId, nodeId) →
      ∃ k, 1 ≤ k ∧ k ≤ d.maxTotalSteps ∧ d.nodeAt k = .ok (some nodeId) ∧
        stepId = logicalStepKey k nodeId ∧
        (∀ j, 1 ≤ j → j < k → ∃ n, d.nodeAt j = .ok (some n) ∧
          Succeeded runId (logicalStepKey j n) event.before.store.tables) ∧
        ∀ n, d.node nodeId = some n → n.kind ≠ .approval) ∧
    ((executedSteps (Machine.trace (loopStep p d runId) (.start s) actions)).map
      Prod.fst).dedup.length ≤ d.maxTotalSteps ∧
    (((executedSteps (Machine.trace (loopStep p d runId) (.start s) actions)).filter fun step =>
      (d.node step.2).any fun n => decide (n.kind = .model)).map Prod.fst).dedup.length ≤
        d.maxModelTurns := by
  refine ⟨?_, ?_, ?_, ?_⟩
  · intro past read middle event future w stepId nodeId hSplit hRead hSucceeded hWorker
    obtain ⟨before, after, -, -, hAt, hFuture⟩ :=
      Machine.trace_eq_append_cons (loopStep p d runId) hSplit
    obtain ⟨before', after', -, -, hEvent, -⟩ :=
      Machine.trace_eq_append_cons (loopStep p d runId) hFuture
    -- the read itself settles the step for its worker
    have hStart : StepSettled runId stepId w read.after := by
      rw [hAt] at hSucceeded ⊢
      rw [hRead]
      exact ⟨hSucceeded, by
        change ((LoopState.enter _ w _).phases w).Informed stepId
        rw [LoopState.enter_self]
        exact readPhase_informed hSucceeded⟩
    have hSettled : StepSettled runId stepId w
        (Machine.run (loopStep p d runId) read.after before') :=
      Machine.run_invariant (loopStep p d runId) (fun _ a h => (h.step a).1) hStart before'
    rw [hEvent]
    exact (hSettled.step event.call).2 hWorker nodeId
  · intro event hMem stepId nodeId hSubject
    obtain ⟨k, hDue⟩ := due_of_subject hMem hSubject
    exact ⟨k, hDue.within.1, hDue.within.2, hDue.node, hDue.key, hDue.before,
      fun n hn => (hDue.kind n hn).1⟩
  · have hLength : (stepKeys d fun _ => true).length = d.maxTotalSteps := by
      rw [stepKeys, List.length_map, List.filter_true, List.length_range']
    rw [← hLength]
    refine dedup_length_le fun stepId hStep => ?_
    obtain ⟨⟨_, nodeId⟩, hExecuted, rfl⟩ := List.mem_map.mp hStep
    obtain ⟨event, hMem, hSubject⟩ := List.mem_filterMap.mp hExecuted
    obtain ⟨k, hDue⟩ := due_of_subject hMem hSubject
    exact mem_stepKeys hDue rfl
  · -- a model node is executed only at a step that has fewer model steps before it than allowed
    have hLength : (stepKeys d fun k => d.modelAt k && decide
        (((List.range' 1 (k - 1)).filter d.modelAt).length < d.maxModelTurns)).length ≤
        d.maxModelTurns := by
      rw [stepKeys, List.length_map]
      exact (length_filter_bounded d.modelAt d.maxModelTurns d.maxTotalSteps).trans
        (Nat.min_le_right _ _)
    refine le_trans (dedup_length_le fun stepId hStep => ?_) hLength
    obtain ⟨⟨_, nodeId⟩, hFiltered, rfl⟩ := List.mem_map.mp hStep
    obtain ⟨hExecuted, hModel⟩ := List.mem_filter.mp hFiltered
    obtain ⟨event, hMem, hSubject⟩ := List.mem_filterMap.mp hExecuted
    obtain ⟨k, hDue⟩ := due_of_subject hMem hSubject
    obtain ⟨n, hNode⟩ := WorkflowDefinition.nodeAt_declared hDue.node
    have hKind : n.kind = .model := by
      dsimp only at hModel
      rw [hNode, Option.any_some, decide_eq_true_eq] at hModel
      exact hModel
    have hTurns := (hDue.kind n hNode).2 hKind
    rw [WorkflowDefinition.modelTurnsUsed_eq] at hTurns
    refine mem_stepKeys hDue ?_
    rw [decide_eq_true hTurns, Bool.and_true, WorkflowDefinition.modelAt, hDue.node]
    exact hModel

end Runs

/-! ## A stale reader -/

namespace Sample

/-- A run that executes and has no checkpoint yet. -/
def executing : List (PlatformCall Empty) :=
  [delegate 1 none, start 2 (grantOf 1), coreSystem 3 (.markRunStarted (runOf 2) "attempt" 1)]

/-- Two workers read the checkpoints, and the second one executes the first step and records its
success. -/
def overtaken : List (LoopAction Empty) :=
  executing.map .platform ++
    [.read 1, .read 2, .choose 2, .execute 2, .record 2 (reading 4) ⟨"SUCCEEDED", 1, none, none⟩]

theorem overtaken_facts :
    ((Machine.run (loopStep platform letter (runOf 2)) (.start workshop)
        overtaken).store.tables.checkpoints.get? (runOf 2, logicalStepKey 1 "draft")).map
          (·.state) = some .succeeded ∧
      (Machine.eventAt (loopStep platform letter (runOf 2))
        (Machine.run (loopStep platform letter (runOf 2)) (.start workshop) overtaken)
          (.choose 1)).response.subject = some (logicalStepKey 1 "draft", "draft") := by
  delta loopStep
  rw [platformStep_bytewise, Sample.platform_bytewise]
  decide +kernel

end Sample

theorem succeeded_step_of_overtaken :
    Succeeded (Sample.runOf 2) (logicalStepKey 1 "draft")
      (Machine.run (loopStep Sample.platform Sample.letter (Sample.runOf 2))
        (.start Sample.workshop) Sample.overtaken).store.tables := by
  obtain ⟨row, hFound, hState⟩ := Option.map_eq_some_iff.mp Sample.overtaken_facts.1
  exact ⟨row, hFound, hState⟩

/-- The first worker then executes the step that has succeeded, from the rows it read before. -/
theorem succeeded_step_executed :
    Succeeded (Sample.runOf 2) (logicalStepKey 1 "draft")
      (Machine.run (loopStep Sample.platform Sample.letter (Sample.runOf 2))
        (.start Sample.workshop) Sample.overtaken).store.tables ∧
    (Machine.eventAt (loopStep Sample.platform Sample.letter (Sample.runOf 2))
      (Machine.run (loopStep Sample.platform Sample.letter (Sample.runOf 2))
        (.start Sample.workshop) Sample.overtaken) (.choose 1)).response.subject =
          some (logicalStepKey 1 "draft", "draft") :=
  ⟨succeeded_step_of_overtaken, Sample.overtaken_facts.2⟩

/-- Once it has read the checkpoints again it does not. -/
theorem crash_resume_reread :
    Succeeded (Sample.runOf 2) (logicalStepKey 1 "draft")
      (Machine.run (loopStep Sample.platform Sample.letter (Sample.runOf 2))
        (.start Sample.workshop) Sample.overtaken).store.tables ∧
    (Machine.eventAt (loopStep Sample.platform Sample.letter (Sample.runOf 2))
      (Machine.run (loopStep Sample.platform Sample.letter (Sample.runOf 2))
        (.start Sample.workshop) (Sample.overtaken ++ [.read 1]))
          (.choose 1)).response.subject ≠ some (logicalStepKey 1 "draft", "draft") := by
  have hSplit : Machine.trace (loopStep Sample.platform Sample.letter (Sample.runOf 2))
      (.start Sample.workshop) ((Sample.overtaken ++ [.read 1]) ++ [.choose 1]) =
        Machine.trace (loopStep Sample.platform Sample.letter (Sample.runOf 2))
          (.start Sample.workshop) Sample.overtaken ++
        Machine.eventAt (loopStep Sample.platform Sample.letter (Sample.runOf 2))
          (Machine.run (loopStep Sample.platform Sample.letter (Sample.runOf 2))
            (.start Sample.workshop) Sample.overtaken) (.read 1) ::
        ([] ++ Machine.eventAt (loopStep Sample.platform Sample.letter (Sample.runOf 2))
          (Machine.run (loopStep Sample.platform Sample.letter (Sample.runOf 2))
            (.start Sample.workshop) (Sample.overtaken ++ [.read 1])) (.choose 1) :: []) := by
    rw [Machine.trace_concat, Machine.trace_concat, List.append_assoc, List.nil_append,
      List.singleton_append]
  have hBounded := (crash_resume_bounded Sample.platform Sample.letter (Sample.runOf 2)
    Sample.workshop ((Sample.overtaken ++ [.read 1]) ++ [.choose 1])).1 _ _ _ _ _ 1
      (logicalStepKey 1 "draft") "draft" hSplit
  rw [Machine.eventAt_before, Machine.eventAt_call, Machine.eventAt_call] at hBounded
  exact ⟨succeeded_step_of_overtaken, hBounded rfl succeeded_step_of_overtaken rfl⟩

end Masonwing
