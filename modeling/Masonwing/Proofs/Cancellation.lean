import Masonwing.Proofs.EffectLifecycle
import Masonwing.Proofs.Evaluation

/-!
# Cancelled runs

What a step does to one run, and when the transmissions of a cancelled run are all resolved.
`run.cancel` refuses while an effect of the run is unresolved, and every transition of an
unresolved effect starts from an unresolved one, except the dispatch, which does not look at the
run. So the property is kept by everything but the dispatch of an effect of a cancelled run.

* `RunView`, `Change.run`: every act, seen from one run;
* `CancelledIdle.change`: the step lemma;
* `cancelled_run_idle_iff`: the property over a run and the dispatches in it.
-/

namespace Masonwing

open Outcome

/-! ## One run in one step -/

/-- How an act changes the row of one run. -/
inductive RunView (id : Uuid) (a : Act) (t t' : Tables) : Prop
  | same (hRow : t'.runs.get? id = t.runs.get? id)
  | created {r : RunRow} (hNone : t.runs.get? id = none) (hRow : t'.runs.get? id = some r)
      (hState : r.state = .queued) (hAct : a = .startRun)
  | moved {r r' : RunRow} (hMoved : RunMoved t id r r') (hRow : t'.runs.get? id = some r')
      (hEffects : t'.effects = t.effects)
      (hCancelled : r'.state = .cancelled → unresolvedEffectOf t id = false)
      (hAct : a = .cancelRun id ∨ a = .markStarted id ∨ a = .markCompleted id ∨ a = .claim id)

/-- Replacing the row of one run. -/
theorem RunView.of_set {t t' : Tables} {a : Act} {i id : Uuid} {r r' : RunRow}
    (hMoved : RunMoved t i r r') (hRuns : t'.runs = t.runs.set i r')
    (hEffects : t'.effects = t.effects)
    (hCancelled : r'.state = .cancelled → unresolvedEffectOf t i = false)
    (hAct : a = .cancelRun i ∨ a = .markStarted i ∨ a = .markCompleted i ∨ a = .claim i) :
    RunView id a t t' := by
  by_cases hId : id = i
  · subst hId
    refine .moved hMoved ?_ hEffects hCancelled hAct
    rw [hRuns, Table.get?_set_self hMoved.found]
  · exact .same (by rw [hRuns, Table.get?_set_ne _ hId])

/-- Every act, seen from one run. -/
theorem Change.run {env : Env} {tick : Tick} {t t' : Tables} {a : Act}
    (h : Change env tick t a t') (id : Uuid) : RunView id a t t' := by
  cases h with
  | started j hInsert hAdmitted =>
    by_cases hId : id = tick.draw .run
    · subst hId
      exact .created (Table.insert?_eq_some hInsert).1 (Table.insert?_get?_self hInsert)
        hAdmitted.waiting.1 rfl
    · exact .same (by rw [Table.insert?_get? hInsert, if_neg hId])
  | @cancelled i r r' j h =>
    refine .of_set h.toRunMoved rfl rfl (fun hs => ?_) (Or.inl rfl)
    have hTarget := h.target
    rw [hs] at hTarget
    exact cancellationState_cancelled hTarget
  | runStarted j h =>
    refine .of_set h.toRunMoved rfl rfl (fun hs => ?_) (Or.inr (Or.inl rfl))
    cases h.running.1.symm.trans hs
  | runCompleted j h =>
    refine .of_set h.toRunMoved rfl rfl (fun hs => ?_) (Or.inr (Or.inr (Or.inl rfl)))
    cases h.succeeded.symm.trans hs
  | runFenced j hFences h =>
    refine .of_set h.toRunMoved rfl rfl (fun hs => ?_) (Or.inr (Or.inr (Or.inr rfl)))
    cases h.blocked.1.symm.trans hs
  | _ => exact .same rfl

/-! ## The invariant -/

/-- No effect of a cancelled run is executing, unknown, reconciling or under review. -/
def CancelledIdle (t : Tables) : Prop :=
  ∀ id e r, t.effects.get? id = some e → t.runs.get? e.runId = some r → r.state = .cancelled →
    e.state ∉ [EffectState.executing, .outcomeUnknown, .reconciling, .manualReview]

theorem EffectState.unresolved_iff (s : EffectState) :
    s.unresolved = true ↔
      s ∈ [EffectState.executing, .outcomeUnknown, .reconciling, .manualReview] := by
  cases s <;> decide

/-- A transition other than a dispatch starts from an unresolved state. -/
theorem EffectStep.unresolved {id : Uuid} {e e' : EffectRow} {a : Act} (h : EffectStep id e e' a)
    (hAct : a ≠ .dispatch id) : e.state.unresolved = true := by
  cases h with
  | dispatch _ _ _ => exact absurd rfl hAct
  | reconcile hFrom _ _ | succeeded hFrom _ _ | failed hFrom _ _ =>
    rcases hFrom with hs | hs <;> rw [hs] <;> rfl
  | unknown hFrom _ _ | reauthorize hFrom _ _ | review hFrom _ _ => rw [hFrom]; rfl

/-- The dispatch of an effect whose run is cancelled. -/
def DispatchesCancelled (event : SystemEvent) : Prop :=
  ∃ id e r, event.did (.dispatch id) ∧ event.before.tables.effects.get? id = some e ∧
    event.before.tables.runs.get? e.runId = some r ∧ r.state = .cancelled

theorem CancelledIdle.change {env : Env} {tick : Tick} {t t' : Tables} {a : Act}
    (h : CancelledIdle t) (hChange : Change env tick t a t')
    (hDispatch : ∀ id e r, a = .dispatch id → t.effects.get? id = some e →
      t.runs.get? e.runId = some r → r.state ≠ .cancelled) : CancelledIdle t' := by
  intro id e r he hr hState
  cases hChange.run e.runId with
  | created hNone hRow hQueued hAct =>
    cases hRow.symm.trans hr
    rw [hQueued] at hState
    cases hState
  | moved hMoved hRow hEffects hCancelled hAct =>
    cases hRow.symm.trans hr
    have hResolved := Table.any_eq_false_iff.mp (hCancelled hState) id e (hEffects ▸ he)
    rw [decide_eq_true rfl, Bool.true_and] at hResolved
    rw [← EffectState.unresolved_iff, hResolved]
    decide
  | same hRow =>
    rw [hRow] at hr
    cases hChange.effect id with
    | same hSame hAct =>
      rw [hSame] at he
      exact h id e r he hr hState
    | created hNone hRow hNew hAct hBorn =>
      cases hRow.symm.trans he
      have hDispatchable := hNew.dispatchable
      revert hDispatchable
      cases e.state <;> decide
    | @moved f f' hMoved hSelf hStep =>
      cases hSelf.symm.trans he
      have hRun : e.runId = f.runId := congrArg EffectIntent.runId hMoved.intent
      rw [hRun] at hr
      have hBefore := h id f r hMoved.found hr hState
      rw [← EffectState.unresolved_iff] at hBefore
      by_cases hAct : a = .dispatch id
      · exact absurd hState (hDispatch id f r hAct hMoved.found hr)
      · exact absurd (hStep.unresolved hAct) hBefore

/-- Such a dispatch leaves an effect of a cancelled run executing. -/
theorem DispatchesCancelled.not_idle {env : Env} {catalogue : Catalogue} {s : Store} {c : Call}
    (h : DispatchesCancelled (Machine.eventAt (step env catalogue) s c)) :
    ¬CancelledIdle (step env catalogue s c).1.tables := by
  obtain ⟨id, e, r, hDid, he, hr, hState⟩ := h
  obtain ⟨f, f', j, hDispatched, hTables⟩ := (change_of_did hDid).dispatch_inv
  cases he.symm.trans hDispatched.found
  have hRun : f'.runId = e.runId := congrArg EffectIntent.runId hDispatched.intent
  rw [hTables]
  intro hIdle
  exact hIdle id f' r (Table.get?_set_self he f') (hRun ▸ hr) hState
    (by rw [hDispatched.executing]; decide)

/-- When a cancelled run has no transmission in flight: over every run of the system, the property
holds in every state reached if and only if no dispatch is committed for an effect of a cancelled
run. -/
theorem cancelled_run_idle_iff (env : Env) (catalogue : Catalogue) (s : Store) (calls : List Call)
    (hStart : CancelledIdle s.tables) :
    (∀ event ∈ Machine.trace (step env catalogue) s calls, CancelledIdle event.after.tables) ↔
      ∀ event ∈ Machine.trace (step env catalogue) s calls, ¬DispatchesCancelled event := by
  constructor
  · intro hIdle event hMem hDispatch
    have hAfter := hIdle event hMem
    obtain ⟨before, after, -, hAt⟩ := Machine.mem_trace (step env catalogue) hMem
    rw [hAt] at hDispatch hAfter
    exact hDispatch.not_idle hAfter
  · intro hNot event hMem
    refine (Machine.trace_invariant_of (step env catalogue) (I := fun s => CancelledIdle s.tables)
      ?_ hStart hNot event hMem).2
    intro s c h hEvent
    rcases step_change env catalogue s c with ⟨-, hSame⟩ | ⟨a, hDid, hChange⟩
    · rw [hSame]
      exact h
    · refine h.change hChange ?_
      rintro id e r rfl he hr hState
      exact hEvent ⟨id, e, r, hDid, he, hr, hState⟩

/-- An effect is proposed, its run is cancelled, and the effect is dispatched. -/
def Sample.dispatchCancelled : List Call :=
  [propose 1, command 2 (.runCancel runId.toText 1 "not needed"), dispatch 3 (effectOf 1) 1]

theorem Sample.idle : CancelledIdle Sample.store.tables := by
  intro id e r he
  cases he

theorem cancelled_run_idle_dispatchCancelled :
    (∀ event ∈ Sample.events Sample.dispatchCancelled, CancelledIdle event.after.tables) ↔
    ∀ event ∈ Sample.events Sample.dispatchCancelled, ¬DispatchesCancelled event :=
  cancelled_run_idle_iff Sample.env Sample.catalogue Sample.store Sample.dispatchCancelled
    Sample.idle

/-- The effect of the cancelled run is executing. -/
theorem cancelled_run_transmits :
    CancelledIdle Sample.store.tables ∧
    ¬CancelledIdle (Sample.after Sample.dispatchCancelled).tables := by
  have hRun : ((Sample.after Sample.dispatchCancelled).tables.effects.get? (Sample.effectOf 1)).map
        (fun e => (e.runId, e.state)) = some (Sample.runId, .executing) ∧
      ((Sample.after Sample.dispatchCancelled).tables.runs.get? Sample.runId).map (·.state) =
        some .cancelled := by
    simp only [Sample.after, step_bytewise, Sample.env_bytewise]
    decide +kernel
  obtain ⟨hEffect, hCancelled⟩ := hRun
  obtain ⟨e, he, hPair⟩ := Option.map_eq_some_iff.mp hEffect
  obtain ⟨r, hr, hState⟩ := Option.map_eq_some_iff.mp hCancelled
  obtain ⟨hRunId, hExecuting⟩ := Prod.mk.inj hPair
  refine ⟨Sample.idle, fun hIdle => ?_⟩
  exact hIdle (Sample.effectOf 1) e r he (hRunId ▸ hr) hState (by rw [hExecuting]; decide)

end Masonwing
