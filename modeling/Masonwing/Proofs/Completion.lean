import Masonwing.Proofs.Evaluation
import Masonwing.Proofs.Interpreter
import Masonwing.Proofs.WorkflowValidation

/-!
# Completion at the end of the step budget

The interpreter finds that a traversal has ended while it looks for the step after the last one,
and it looks for no step beyond the budget. A traversal of exactly as many steps as the budget
allows has done all its work and is never found completed.

* `nextStep_completed_iff`: a recorded traversal is completed exactly if it is shorter than the
  budget;
* `limitReached_iff_exhausted`: when the interpreter keeps the two promises about the budget.
-/

namespace Masonwing

/-! ## Traversals -/

namespace WorkflowDefinition

def Declares (d : WorkflowDefinition) (nodeId : String) : Prop := ∃ n, d.node nodeId = some n

/-- A traversal as far as it has come: declared nodes from the entry on, each the successor of the
one before it. -/
structure Course (d : WorkflowDefinition) (path : List String) : Prop where
  starts : ∀ a, path[0]? = some a → a = d.entryNode
  declared : ∀ a ∈ path, d.Declares a
  follows : ∀ k a b, path[k]? = some a → path[k + 1]? = some b → d.successor a = some b

/-- A traversal that has reached a node without edges. -/
structure Traversal (d : WorkflowDefinition) (path : List String) : Prop extends
    d.Course path where
  ends : ∃ a, path.getLast? = some a ∧ ∀ e ∈ d.edges, e.source ≠ a

/-- The traversal ends, or breaks off, before it has as many nodes as the budget has steps. -/
def StopsEarly (d : WorkflowDefinition) : Prop :=
  ∃ path, d.Course path ∧ path.length < d.maxTotalSteps ∧ ∀ b, ¬ d.Course (path ++ [b])

end WorkflowDefinition

namespace RunInterpreter

/-- The step is recorded as succeeded under its own key, for its own node. -/
def Recorded (i : RunInterpreter) (seq : Nat) (nodeId : String) : Prop :=
  ∃ record, i.checkpoint (logicalStepKey seq nodeId) = some record ∧ record.nodeId = nodeId ∧
    record.state = .succeeded

def Records (i : RunInterpreter) (path : List String) : Prop :=
  ∀ k a, path[k]? = some a → i.Recorded (k + 1) a

/-- Some step of the traversal is not recorded. -/
def Missing (i : RunInterpreter) : Prop := ∃ path, i.definition.Course path ∧ ¬ i.Records path

end RunInterpreter

section Walk

variable {d : WorkflowDefinition}

namespace WorkflowDefinition

theorem Course.nil : d.Course [] := by
  refine ⟨?_, ?_, ?_⟩
  · intro a h
    simp at h
  · intro a h
    simp at h
  · intro k a b h
    simp at h

theorem Course.take {path : List String} (h : d.Course path) (n : Nat) :
    d.Course (path.take n) := by
  have hOld : ∀ (k : Nat) (a : String), (path.take n)[k]? = some a → path[k]? = some a := by
    intro k a hk
    rw [List.getElem?_take] at hk
    split at hk
    · exact hk
    · cases hk
  exact ⟨fun a ha => h.starts a (hOld 0 a ha), fun a ha => h.declared a (List.mem_of_mem_take ha),
    fun k a b ha hb => h.follows k a b (hOld k a ha) (hOld (k + 1) b hb)⟩

theorem edges_of_successor {a b : String} (h : d.successor a = some b) :
    (d.edges.filter fun e => decide (e.source = a)) ≠ [] := by
  intro hNone
  simp only [successor, Option.bind_eq_bind, Option.bind_eq_some_iff, Option.pure_def] at h
  obtain ⟨n, -, edge, hEdge, -⟩ := h
  have hSource := List.find?_some hEdge
  rw [decide_eq_true_eq] at hSource
  have hMem : edge ∈ d.edges.filter fun e => decide (e.source = a) :=
    List.mem_filter.mpr ⟨List.mem_of_find?_eq_some hEdge, decide_eq_true hSource.1⟩
  rw [hNone] at hMem
  cases hMem

/-- One step of the walk along a successor that is declared. -/
theorem walk_step {a b : String} (hDeclared : d.Declares a) (hNext : d.successor a = some b)
    (hTarget : d.Declares b) (steps : Nat) : d.walk (steps + 1) a = d.walk steps b := by
  obtain ⟨n, hNode⟩ := hDeclared
  obtain ⟨n', hNode'⟩ := hTarget
  rw [walk, hNode]
  dsimp only
  rw [if_neg (edges_of_successor hNext), hNext]
  dsimp only
  rw [hNode']

theorem walk_end {a : String} (hDeclared : d.Declares a) (hEnds : ∀ e ∈ d.edges, e.source ≠ a)
    (steps : Nat) : d.walk (steps + 1) a = .ok none := by
  obtain ⟨n, hNode⟩ := hDeclared
  have hNone : (d.edges.filter fun e => decide (e.source = a)) = [] := by
    rw [List.filter_eq_nil_iff]
    intro e he
    rw [decide_eq_true_eq]
    exact hEnds e he
  rw [walk, hNode]
  dsimp only
  rw [if_pos hNone]

/-- The walk goes along a course. -/
theorem Course.walk {path : List String} (h : d.Course path) {k : Nat} {a : String}
    (hk : path[k]? = some a) (steps : Nat) : d.walk (k + steps) d.entryNode = d.walk steps a := by
  induction k generalizing a steps with
  | zero => rw [h.starts a hk, Nat.zero_add]
  | succ k ih =>
    have hLength : k < path.length := by
      have := (List.getElem?_eq_some_iff.mp hk).1
      omega
    have hBefore : path[k]? = some path[k] := List.getElem?_eq_getElem hLength
    rw [show k + 1 + steps = k + (steps + 1) by omega, ih hBefore]
    exact walk_step (h.declared _ (List.mem_of_getElem? hBefore)) (h.follows k _ _ hBefore hk)
      (h.declared _ (List.mem_of_getElem? hk)) steps

theorem Course.nodeAt {path : List String} (h : d.Course path) {k : Nat} {a : String}
    (hk : path[k]? = some a) : d.nodeAt (k + 1) = .ok (some a) := by
  obtain ⟨n, hNode⟩ := h.declared a (List.mem_of_getElem? hk)
  have hWalk := h.walk hk 0
  rw [Nat.add_zero] at hWalk
  rw [WorkflowDefinition.nodeAt, Nat.add_sub_cancel, hWalk, WorkflowDefinition.walk, hNode]

/-- After its last node a traversal visits nothing. -/
theorem Traversal.nodeAt_after {path : List String} (h : d.Traversal path) {k : Nat}
    (hk : path.length ≤ k) : d.nodeAt (k + 1) = .ok none := by
  obtain ⟨a, hLast, hEnds⟩ := h.ends
  rw [List.getLast?_eq_getElem?] at hLast
  have hPositive : 0 < path.length := by
    have := (List.getElem?_eq_some_iff.mp hLast).1
    omega
  have hWalk := h.walk hLast (k - path.length + 1)
  rw [WorkflowDefinition.nodeAt,
    show k + 1 - 1 = path.length - 1 + (k - path.length + 1) by omega, hWalk]
  exact walk_end (h.declared a (List.mem_of_getElem? hLast)) hEnds _

/-- What the walk has visited is a course from its first node on. -/
theorem walk_visited {steps : Nat} {current a : String}
    (h : d.walk steps current = .ok (some a)) :
    ∃ path : List String, path.length = steps + 1 ∧ path[0]? = some current ∧
      (∀ b ∈ path, d.Declares b) ∧
      ∀ k b c, path[k]? = some b → path[k + 1]? = some c → d.successor b = some c := by
  induction steps generalizing current with
  | zero =>
    rw [WorkflowDefinition.walk] at h
    split at h
    · cases h
    · rename_i n hNode
      cases h
      refine ⟨[a], rfl, rfl, fun b hb => ?_, fun k b c _ hc => ?_⟩
      · rw [List.mem_singleton.mp hb]
        exact ⟨n, hNode⟩
      · simp at hc
  | succ steps ih =>
    rw [WorkflowDefinition.walk] at h
    split at h
    · cases h
    · rename_i n hNode
      split at h
      · cases h
      · split at h
        · cases h
        · rename_i next hNext
          split at h
          · cases h
          · obtain ⟨path, hLength, hFirst, hDeclared, hFollows⟩ := ih h
            refine ⟨current :: path, by rw [List.length_cons, hLength], rfl,
              List.forall_mem_cons.mpr ⟨⟨n, hNode⟩, hDeclared⟩, fun k b c hb hc => ?_⟩
            cases k with
            | zero =>
              rw [List.getElem?_cons_zero, Option.some.injEq] at hb
              rw [List.getElem?_cons_succ, hFirst, Option.some.injEq] at hc
              rw [← hb, ← hc]
              exact hNext
            | succ k =>
              rw [List.getElem?_cons_succ] at hb hc
              exact hFollows k b c hb hc

/-- A visited node extends the course before it. -/
theorem Course.extend {path : List String} (h : d.Course path) {a : String}
    (hVisited : d.nodeAt (path.length + 1) = .ok (some a)) : d.Course (path ++ [a]) := by
  obtain ⟨longer, hLength, hFirst, hDeclared, hFollows⟩ := walk_visited hVisited
  rw [Nat.add_sub_cancel] at hLength
  have hLonger : d.Course longer := by
    refine ⟨fun b hb => ?_, hDeclared, hFollows⟩
    rw [hFirst, Option.some.injEq] at hb
    exact hb.symm
  have hSame : longer = path ++ [a] := by
    refine List.ext_getElem? fun k => ?_
    rcases lt_trichotomy k path.length with hk | rfl | hk
    · have hOwn := h.nodeAt (List.getElem?_eq_getElem hk)
      have hOther := hLonger.nodeAt (List.getElem?_eq_getElem (show k < longer.length by omega))
      rw [hOwn, Except.ok.injEq, Option.some.injEq] at hOther
      rw [List.getElem?_append_left hk, List.getElem?_eq_getElem hk,
        List.getElem?_eq_getElem (show k < longer.length by omega), hOther]
    · have hOther := hLonger.nodeAt
        (List.getElem?_eq_getElem (show path.length < longer.length by omega))
      rw [hVisited, Except.ok.injEq, Option.some.injEq] at hOther
      rw [List.getElem?_eq_getElem (show path.length < longer.length by omega), ← hOther,
        List.getElem?_concat_length]
    · rw [List.getElem?_eq_none (by omega), List.getElem?_eq_none]
      rw [List.length_append, List.length_singleton]
      omega
  rwa [hSame] at hLonger

end WorkflowDefinition

end Walk

/-! ## Recorded steps -/

section Budget

variable {i : RunInterpreter} {path : List String}

namespace RunInterpreter

theorem nextStepFrom_recorded {left seq : Nat} {nodeId : String}
    (hVisited : i.definition.nodeAt seq = .ok (some nodeId)) (hRecorded : i.Recorded seq nodeId) :
    i.nextStepFrom (left + 1) seq = i.nextStepFrom left (seq + 1) := by
  obtain ⟨record, hRecord, hNode, hState⟩ := hRecorded
  rw [nextStepFrom, hVisited]
  dsimp only
  rw [hRecord]
  dsimp only
  rw [if_neg (not_not.mpr hNode), hState]

/-- The interpreter passes over the part of the course that the budget covers. -/
theorem nextStep_skip (hCourse : i.definition.Course path) (hRecords : i.Records path) {n : Nat}
    (hBudget : n ≤ i.definition.maxTotalSteps) (hPath : n ≤ path.length) :
    i.nextStep = i.nextStepFrom (i.definition.maxTotalSteps - n) (n + 1) := by
  induction n with
  | zero => rfl
  | succ n ih =>
    have hVisit : path[n]? = some path[n] := List.getElem?_eq_getElem hPath
    rw [ih (by omega) (by omega), show i.definition.maxTotalSteps - n =
      i.definition.maxTotalSteps - (n + 1) + 1 by omega]
    exact nextStepFrom_recorded (hCourse.nodeAt hVisit) (hRecords n _ hVisit)

theorem nextStep_exhausted (hCourse : i.definition.Course path) (hRecords : i.Records path)
    (hBudget : i.definition.maxTotalSteps ≤ path.length) : i.nextStep = .limitReached := by
  rw [nextStep_skip hCourse hRecords (le_refl _) hBudget, Nat.sub_self]
  rfl

/-- A traversal whose steps are all recorded is completed exactly if the budget allows one step
more than it has. -/
theorem nextStep_completed_iff (hTraversal : i.definition.Traversal path)
    (hRecords : i.Records path) :
    i.nextStep = .completed ↔ path.length < i.definition.maxTotalSteps := by
  constructor
  · intro hCompleted
    by_contra hExceeds
    rw [nextStep_exhausted hTraversal.toCourse hRecords (not_lt.mp hExceeds)] at hCompleted
    cases hCompleted
  · intro hShorter
    obtain ⟨left, hLeft⟩ := Nat.exists_eq_add_of_lt hShorter
    rw [nextStep_skip hTraversal.toCourse hRecords hShorter.le (le_refl _),
      show i.definition.maxTotalSteps - path.length = left + 1 by omega, nextStepFrom,
      hTraversal.nodeAt_after (le_refl _)]

/-- No step of a recorded traversal is missing. -/
theorem not_missing (hTraversal : i.definition.Traversal path) (hRecords : i.Records path) :
    ¬ i.Missing := by
  rintro ⟨other, hCourse, hUnrecorded⟩
  refine hUnrecorded fun k a hk => ?_
  have hVisited := hCourse.nodeAt hk
  rcases Nat.lt_or_ge k path.length with hShort | hLong
  · have hOwn : path[k]? = some path[k] := List.getElem?_eq_getElem hShort
    have hSame := hTraversal.nodeAt hOwn
    rw [hVisited, Except.ok.injEq, Option.some.injEq] at hSame
    rw [hSame]
    exact hRecords k _ hOwn
  · rw [hTraversal.nodeAt_after hLong] at hVisited
    cases hVisited

/-- If no step is missing, the limit is reached exactly if the traversal has as many steps as the
budget. -/
theorem limitReached_iff_exhausted (hComplete : ¬ i.Missing) :
    i.nextStep = .limitReached ↔ ¬ i.definition.StopsEarly := by
  have hAll : ∀ path, i.definition.Course path → i.Records path := by
    intro path hCourse
    by_contra hUnrecorded
    exact hComplete ⟨path, hCourse, hUnrecorded⟩
  constructor
  · rintro hLimit ⟨path, hCourse, hShorter, hStops⟩
    have hVisited : ∀ a, i.definition.nodeAt (path.length + 1) ≠ .ok (some a) :=
      fun a ha => hStops a (hCourse.extend ha)
    obtain ⟨left, hLeft⟩ := Nat.exists_eq_add_of_lt hShorter
    rw [nextStep_skip hCourse (hAll path hCourse) hShorter.le (le_refl _),
      show i.definition.maxTotalSteps - path.length = left + 1 by omega, nextStepFrom] at hLimit
    split at hLimit
    · cases hLimit
    · cases hLimit
    · rename_i a ha
      exact hVisited a ha
  · intro hGoesOn
    -- the course goes on for as long as the budget lasts
    have hLong : ∀ n ≤ i.definition.maxTotalSteps,
        ∃ path, i.definition.Course path ∧ path.length = n := by
      intro n hn
      induction n with
      | zero => exact ⟨[], .nil, rfl⟩
      | succ n ih =>
        obtain ⟨path, hCourse, rfl⟩ := ih (by omega)
        by_contra hNone
        refine hGoesOn ⟨path, hCourse, hn, fun b hb => hNone ⟨path ++ [b], hb, ?_⟩⟩
        rw [List.length_append, List.length_singleton]
    obtain ⟨path, hCourse, hLength⟩ := hLong _ (le_refl _)
    exact nextStep_exhausted hCourse (hAll path hCourse) hLength.ge

/-- The interpreter completes every recorded traversal within the budget, and reaches the limit for
a missing step only, exactly if a step is missing or the traversal stops before the budget does. -/
theorem budget_kept_iff (i : RunInterpreter) :
    ((∀ path, i.definition.Traversal path → path.length ≤ i.definition.maxTotalSteps →
        i.Records path → i.nextStep = .completed) ∧
      (i.nextStep = .limitReached → i.Missing)) ↔
    i.Missing ∨ i.definition.StopsEarly := by
  by_cases hMissing : i.Missing
  · refine ⟨fun _ => Or.inl hMissing, fun _ => ⟨fun path hTraversal _ hRecords => ?_, fun _ =>
      hMissing⟩⟩
    exact absurd hMissing (not_missing hTraversal hRecords)
  · have hLimit := limitReached_iff_exhausted hMissing
    constructor
    · rintro ⟨-, hOnly⟩
      by_contra hNot
      exact hMissing (hOnly (hLimit.mpr fun hEarly => hNot (Or.inr hEarly)))
    · rintro (hStep | hEarly)
      · exact absurd hStep hMissing
      refine ⟨fun path hTraversal _ hRecords => ?_, fun hReached => ?_⟩
      · rw [nextStep_completed_iff hTraversal hRecords]
        by_contra hExceeds
        exact hLimit.mp
          (nextStep_exhausted hTraversal.toCourse hRecords (not_lt.mp hExceeds)) hEarly
      · exact absurd hEarly (hLimit.mp hReached)

end RunInterpreter

end Budget

/-! ## A workflow of one step -/

namespace Sample

def computes : PluginManifest :=
  { reports with
    handlers :=
      [{ id := "compute", inputSchemaRef := storedRef 45 "schema"
         outputSchemaRef := storedRef 45 "schema", effects := "DETERMINISTIC"
         requiredCapabilities := [], maxExecutionSeconds := 5 }] }

/-- A workflow of one step, with a budget of one step. -/
def unsealedStep : WorkflowDocument :=
  { unsealed with
    entryNode := "compute"
    nodes := [{ id := "compute", kind := "DETERMINISTIC", handlerId := some "compute"
                inputSchemaRef := storedRef 45 "schema", outputSchemaRef := storedRef 45 "schema"
                maxAttempts := 1, timeoutSeconds := 5, maxIterations := 1, onFailure := "FAIL" }]
    maxTotalSteps := 1, maxModelTurns := 0 }

def oneStep : WorkflowDocument :=
  { unsealedStep with digest := digest (render unsealedStep.contentJson).toUTF8.data.toList }

def computed : WorkflowDefinition :=
  { entryNode := "compute", nodes := [⟨"compute", .deterministic, by decide⟩], edges := []
    maxTotalSteps := 1, maxModelTurns := 0 }

/-- The checkpoint of the only step. -/
def computedRows : List DurableCheckpoint :=
  [{ logicalStepId := logicalStepKey 1 "compute", state := .succeeded, failureCode := none
     fence := 1 }]

theorem computed_traversal : computed.Traversal ["compute"] := by
  refine ⟨⟨fun a h => ?_, fun a h => ?_, fun k a b _ h => ?_⟩, "compute", rfl, fun e h => ?_⟩
  · cases h
    rfl
  · rw [List.mem_singleton.mp h]
    exact ⟨_, rfl⟩
  · simp at h
  · cases h

end Sample

/-- The definition is accepted and its only step is recorded, and the run is out of steps. -/
theorem finished_run_limited :
    validateWorkflow Sample.env Sample.oneStep Sample.computes = .ok () ∧
    Sample.oneStep.definition? = some Sample.computed ∧
    Sample.computed.Traversal ["compute"] ∧ 1 ≤ Sample.computed.maxTotalSteps ∧
    (interpreterFromCheckpoints Sample.computed Sample.computedRows).Records ["compute"] ∧
    (interpreterFromCheckpoints Sample.computed Sample.computedRows).nextStep = .limitReached ∧
    ¬ (interpreterFromCheckpoints Sample.computed Sample.computedRows).Missing := by
  have hRecords : (interpreterFromCheckpoints Sample.computed Sample.computedRows).Records
      ["compute"] := by
    intro k a hk
    cases k with
    | zero =>
      cases hk
      refine ⟨{ logicalStepId := logicalStepKey 1 "compute", nodeId := "compute"
                state := .succeeded, failureCode := none }, ?_, rfl, rfl⟩
      rfl
    | succ k => simp at hk
  have hOk : validateWorkflow Sample.env Sample.oneStep Sample.computes = .ok () := by
    apply Outcome.eq_ok_of_isOk
    delta Sample.oneStep Sample.unsealedStep Sample.unsealed
    rw [validateWorkflow_bytewise, Sample.env_bytewise, Sample.digest_bytewise,
      Sample.render_bytewise, Bytewise.WorkflowDocument.contentJson.2, Sample.byteStoredRef.2]
    decide +kernel
  refine ⟨hOk, rfl, Sample.computed_traversal, le_refl _, hRecords, ?_, ?_⟩
  · exact RunInterpreter.nextStep_exhausted Sample.computed_traversal.toCourse hRecords (le_refl _)
  · exact RunInterpreter.not_missing Sample.computed_traversal hRecords

end Masonwing
