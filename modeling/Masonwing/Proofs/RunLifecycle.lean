import Masonwing.Proofs.Evaluation
import Masonwing.Proofs.PlatformChanges

/-!
# The life of a run

Everything that happens to one run: how it is admitted, and the five ways in which a later step
moves it.

* `RunStep`, `RunView`, `PlatformChange.run`: every act of the platform, seen from one run;
* `Halting`: a run that was kept from starting is in a state that executes nothing;
* `stopped_run_stays_stopped`: what was stopped is neither started nor completed nor checkpointed
  by any later call.
-/

namespace Masonwing

open Outcome

variable {ι : Type}

/-! ## One run in one step -/

/-- How a stored run moves. -/
inductive RunStep (t : Tables) (id : Uuid) (r r' : RunRow) : PlatformAct → Prop
  | cancelled (h : RunCancelled t id r r') : RunStep t id r r' (.core (.cancelRun id))
  | started (h : RunStarted t id r r') : RunStep t id r r' (.core (.markStarted id))
  | completed (h : RunCompleted t id r r') : RunStep t id r r' (.core (.markCompleted id))
  | fenced (h : RunFenced t id r r') : RunStep t id r r' (.core (.claim id))
  | stopped (h : RunStopped t id r r') :
      RunStep t id r r' (.revokePlugin r.pluginId r.pluginDigest)

namespace RunStep

variable {t : Tables} {id : Uuid} {r r' : RunRow} {a : PlatformAct}

theorem moved (h : RunStep t id r r' a) : RunMoved t id r r' := by
  cases h with
  | cancelled h => exact h.toRunMoved
  | started h => exact h.toRunMoved
  | completed h => exact h.toRunMoved
  | fenced h => exact h.toRunMoved
  | stopped h => exact h.toRunMoved

theorem fence_le (h : RunStep t id r r' a) : r.fence ≤ r'.fence := by
  cases h with
  | cancelled h => rw [h.fence]; omega
  | started h => rw [h.fence]
  | completed h => rw [h.fence]
  | fenced h => rw [h.fence]; omega
  | stopped h => rw [h.fence]; omega

theorem version_lt (h : RunStep t id r r' a) : r.version.val < r'.version.val := by
  rw [Version.next?_eq_some h.moved.version]
  omega

end RunStep

/-- How an act of the platform changes the row of one run. -/
inductive RunProgress (tick : Tick) (id : Uuid) (a : PlatformAct) (t t' : Tables) : Prop
  | same (hRow : t'.runs.get? id = t.runs.get? id)
  | created {actor : CommandActor} {r : RunRow} (hNone : t.runs.get? id = none)
      (hRow : t'.runs.get? id = some r) (hAdmitted : RunAdmitted tick t actor r)
      (hId : id = tick.draw .run) (hAct : a = .core .startRun)
  | moved {r r' : RunRow} (hFound : t.runs.get? id = some r) (hRow : t'.runs.get? id = some r')
      (hStep : RunStep t id r r' a)

/-- Replacing the row of one run. -/
theorem RunProgress.of_set {tick : Tick} {t t' : Tables} {a : PlatformAct} {i id : Uuid}
    {r r' : RunRow} (hStep : RunStep t i r r' a) (hRuns : t'.runs = t.runs.set i r') :
    RunProgress tick id a t t' := by
  by_cases hId : id = i
  · subst hId
    refine .moved hStep.moved.found ?_ hStep
    rw [hRuns, Table.get?_set_self hStep.moved.found]
  · exact .same (by rw [hRuns, Table.get?_set_ne _ hId])

/-- Every act, seen from one run. -/
theorem PlatformChange.run {env : Env} {tick : Tick} {t t' : Tables} {a : PlatformAct}
    (h : PlatformChange env tick t a t') (id : Uuid) : RunProgress tick id a t t' := by
  cases h with
  | core hCore =>
    cases hCore with
    | started j hInsert hAdmitted =>
      by_cases hId : id = tick.draw .run
      · subst hId
        exact .created (Table.insert?_eq_some hInsert).1 (Table.insert?_get?_self hInsert)
          hAdmitted rfl rfl
      · exact .same (by rw [Table.insert?_get? hInsert, if_neg hId])
    | cancelled j hStep => exact .of_set (.cancelled hStep) rfl
    | runStarted j hStep => exact .of_set (.started hStep) rfl
    | runCompleted j hStep => exact .of_set (.completed hStep) rfl
    | runFenced j hFences hStep => exact .of_set (.fenced hStep) rfl
    | _ => exact .same rfl
  | pluginRevoked registry j hRuns =>
    rcases hRuns.rows id with ⟨hNone, hNone'⟩ | ⟨r, r', hr, hr', hRow⟩
    · exact .same (hNone'.trans hNone.symm)
    · split at hRow
      · rename_i hStopped
        rw [stoppedRun, Bool.and_eq_true, decide_eq_true_eq] at hStopped
        obtain ⟨⟨rfl, rfl⟩, -⟩ := hStopped
        exact .moved hr hr' (.stopped hRow)
      · exact .same (by rw [hr', hr, hRow])
  | _ => exact .same rfl

/-! ## Halted runs -/

/-- A run that was kept from starting executes nothing. No operation parks a run, so the two
waiting states, in which a run still accepts checkpoints, are never reached. -/
structure Halting (t : Tables) : Prop where
  unparked : ∀ id r, t.runs.get? id = some r → r.state ≠ .waitingApproval ∧ r.state ≠ .waitingRetry
  blocked : ∀ id r, t.runs.get? id = some r → r.dispatchState = .blocked →
    r.state.inProgress = false ∧ r.state ≠ .succeeded

/-- The run was kept from starting, or it has ended. -/
def RunRow.halted (r : RunRow) : Bool := decide (r.dispatchState = .blocked) || r.state.ended

/-- The target of a cancellation executes nothing. -/
theorem cancellationState_target {state next : RunState} {unresolved : Bool}
    (h : cancellationState state unresolved = .ok next) :
    state.ended = false ∧ (next = .cancelRequested ∨ next = .cancelled) := by
  cases state <;> cases unresolved <;> first | (cases h; decide) | cases h

section Steps

variable {env : Env} {tick : Tick} {t t' : Tables} {a : PlatformAct}

theorem Halting.empty (h : ∀ id, t.runs.get? id = none) : Halting t :=
  ⟨fun id r hr => (by cases (h id).symm.trans hr), fun id r hr => (by cases (h id).symm.trans hr)⟩

/-- What a stopped run is left in, given that it was not parked. -/
theorem RunStopped.idle {id : Uuid} {r r' : RunRow} (h : RunStopped t id r r')
    (hUnparked : r.state ≠ .waitingApproval ∧ r.state ≠ .waitingRetry) :
    (r'.state ≠ .waitingApproval ∧ r'.state ≠ .waitingRetry) ∧
      r'.state.inProgress = false ∧ r'.state ≠ .succeeded := by
  have hLive := h.live
  rw [h.target]
  revert hLive hUnparked
  cases r.state <;> decide

/-- The row of a moved run. -/
theorem RunStep.halting {id : Uuid} {r r' : RunRow} (h : Halting t) (hFound : t.runs.get? id = some r)
    (hStep : RunStep t id r r' a) :
    (r'.state ≠ .waitingApproval ∧ r'.state ≠ .waitingRetry) ∧
      (r'.dispatchState = .blocked → r'.state.inProgress = false ∧ r'.state ≠ .succeeded) := by
  cases hStep with
  | cancelled hCancelled =>
    rw [hCancelled.dispatch]
    rcases (cancellationState_target hCancelled.target).2 with hs | hs <;> rw [hs] <;> decide
  | started hStarted =>
    rw [hStarted.running.1, hStarted.running.2]
    decide
  | completed hCompleted =>
    rw [hCompleted.succeeded, hCompleted.dispatch]
    refine ⟨by decide, fun hBlocked => ?_⟩
    -- only a run that executes is completed, and such a run was not kept from starting
    have hIdle := (h.blocked id r hFound hBlocked).1
    rw [hCompleted.inProgress] at hIdle
    cases hIdle
  | fenced hFenced =>
    rw [hFenced.blocked.1, hFenced.blocked.2]
    decide
  | stopped hStopped =>
    have hIdle := hStopped.idle (h.unparked id r hFound)
    exact ⟨hIdle.1, fun _ => hIdle.2⟩

theorem Halting.change (h : Halting t) (hChange : PlatformChange env tick t a t') :
    Halting t' := by
  have hRow : ∀ id r, t'.runs.get? id = some r →
      (r.state ≠ .waitingApproval ∧ r.state ≠ .waitingRetry) ∧
        (r.dispatchState = .blocked → r.state.inProgress = false ∧ r.state ≠ .succeeded) := by
    intro id r hr
    cases hChange.run id with
    | same hSame =>
      rw [hSame] at hr
      exact ⟨h.unparked id r hr, h.blocked id r hr⟩
    | created hNone hNew hAdmitted hId hAct =>
      cases hNew.symm.trans hr
      rw [hAdmitted.waiting.1, hAdmitted.waiting.2]
      decide
    | moved hFound hNew hStep =>
      cases hNew.symm.trans hr
      exact hStep.halting h hFound
  exact ⟨fun id r hr => (hRow id r hr).1, fun id r hr => (hRow id r hr).2⟩

end Steps

/-! ## What stays -/

section Stays

variable {env : Env} {tick : Tick} {t t' : Tables} {a : PlatformAct}

/-- A stored run stays, with its terms, and its fence and version never decrease. -/
theorem PlatformChange.run_kept (h : PlatformChange env tick t a t') {id : Uuid} {r : RunRow}
    (hr : t.runs.get? id = some r) :
    ∃ r', t'.runs.get? id = some r' ∧ r'.terms = r.terms ∧ r.fence ≤ r'.fence ∧
      r.version.val ≤ r'.version.val := by
  cases h.run id with
  | same hRow => exact ⟨r, hRow.trans hr, rfl, le_refl _, le_refl _⟩
  | created hNone hRow hAdmitted hId hAct => cases hNone.symm.trans hr
  | moved hFound hRow hStep =>
    cases hFound.symm.trans hr
    exact ⟨_, hRow, hStep.moved.terms, hStep.fence_le, le_of_lt hStep.version_lt⟩

/-- A halted run stays halted, and no step starts or completes it. -/
theorem PlatformChange.halted_kept (hHalting : Halting t) (h : PlatformChange env tick t a t')
    {id : Uuid} {r : RunRow} (hr : t.runs.get? id = some r) (hHalted : r.halted = true) :
    ∃ r', t'.runs.get? id = some r' ∧ r'.halted = true ∧
      (r' = r ∨ (r'.state ≠ .running ∧ r'.state ≠ .succeeded)) := by
  cases h.run id with
  | same hRow => exact ⟨r, hRow.trans hr, hHalted, Or.inl rfl⟩
  | created hNone hRow hAdmitted hId hAct => cases hNone.symm.trans hr
  | @moved q q' hFound hRow hStep =>
    cases hFound.symm.trans hr
    rw [RunRow.halted, Bool.or_eq_true, decide_eq_true_eq] at hHalted
    have hMoved := (hStep.halting hHalting hFound).2
    have hIdle : r.state.inProgress = false := by
      rcases hHalted with hs | hs
      · exact (hHalting.blocked id r hr hs).1
      · revert hs
        cases r.state <;> decide
    have hBlocked : q'.dispatchState = .blocked := by
      cases hStep with
      | cancelled hCancelled => exact hCancelled.dispatch
      | started hStarted =>
        rcases hHalted with hs | hs
        · cases hStarted.waiting.2.symm.trans hs
        · rw [hStarted.waiting.1] at hs
          cases hs
      | completed hCompleted =>
        rw [hCompleted.inProgress] at hIdle
        cases hIdle
      | fenced hFenced => exact hFenced.blocked.2
      | stopped hStopped => exact hStopped.dispatch
    refine ⟨q', hRow, ?_, Or.inr ⟨?_, (hMoved hBlocked).2⟩⟩
    · rw [RunRow.halted, hBlocked]
      rfl
    · intro hRunning
      have hMoves := (hMoved hBlocked).1
      rw [hRunning] at hMoves
      cases hMoves

/-- No step writes a checkpoint of a halted run. -/
theorem PlatformChange.halted_checkpoints (hHalting : Halting t)
    (h : PlatformChange env tick t a t') {id : Uuid} {r : RunRow} (hr : t.runs.get? id = some r)
    (hHalted : r.halted = true) (step : String) :
    t'.checkpoints.get? (id, step) = t.checkpoints.get? (id, step) := by
  cases h with
  | core hCore => cases hCore <;> rfl
  | checkpointed hAdmitted hRows =>
    rw [hRows, if_neg]
    intro hKey
    obtain ⟨rfl, -⟩ := Prod.mk.inj hKey
    obtain ⟨q, hq, -, hProgress⟩ := hAdmitted.run
    cases hq.symm.trans hr
    rw [RunRow.halted, Bool.or_eq_true, decide_eq_true_eq] at hHalted
    rcases hHalted with hs | hs
    · rw [(hHalting.blocked _ _ hr hs).1] at hProgress
      cases hProgress
    · revert hs hProgress
      cases r.state <;> decide
  | _ => rfl

/-- A checkpoint in state `SUCCEEDED` stays as it is. -/
theorem PlatformChange.succeeded_kept (h : PlatformChange env tick t a t') {k : Uuid × String}
    {row : CheckpointRow} (hRow : t.checkpoints.get? k = some row) (hState : row.state = .succeeded) :
    t'.checkpoints.get? k = some row := by
  cases h with
  | core hCore => cases hCore <;> exact hRow
  | checkpointed hAdmitted hRows =>
    rw [hRows, if_neg]
    · exact hRow
    · rintro rfl
      exact hAdmitted.open_ row hRow hState
  | _ => exact hRow

theorem RunRow.halted_of_blocked {r : RunRow} (h : r.dispatchState = .blocked) :
    r.halted = true := by
  rw [RunRow.halted, h]
  rfl

theorem PlatformChange.cancel_halts {id : Uuid}
    (h : PlatformChange env tick t (.core (.cancelRun id)) t') :
    ∃ r, t'.runs.get? id = some r ∧ r.halted = true := by
  cases h with
  | core hCore =>
    cases hCore with
    | @cancelled _ r r' j hCancelled =>
      exact ⟨r', Table.get?_set_self hCancelled.found r',
        RunRow.halted_of_blocked hCancelled.dispatch⟩

/-- A revocation halts the runs of the build; those that have ended it leaves as they are. -/
theorem PlatformChange.revoke_halts {id : Uuid} {r : RunRow} (hr : t.runs.get? id = some r)
    (h : PlatformChange env tick t (.revokePlugin r.pluginId r.pluginDigest) t') :
    ∃ r', t'.runs.get? id = some r' ∧ r'.halted = true := by
  cases h with
  | pluginRevoked registry j hRuns =>
    rcases hRuns.rows id with ⟨hNone, -⟩ | ⟨q, q', hq, hq', hRow⟩
    · cases hNone.symm.trans hr
    · cases hq.symm.trans hr
      refine ⟨q', hq', ?_⟩
      split at hRow
      · exact RunRow.halted_of_blocked hRow.dispatch
      · rename_i hOther
        rw [stoppedRun, decide_eq_true ⟨rfl, rfl⟩, Bool.true_and, Bool.not_eq_true',
          Bool.not_eq_false] at hOther
        rw [hRow, RunRow.halted, hOther, Bool.or_true]

theorem PlatformChange.fence_halts {id : Uuid} (hFences : Fences env tick t id)
    (h : PlatformChange env tick t (.core (.claim id)) t') :
    ∃ r, t'.runs.get? id = some r ∧ r.halted = true := by
  cases h with
  | core hCore =>
    cases hCore with
    | @runFenced _ r r' j _ hFenced =>
      exact ⟨r', Table.get?_set_self hFenced.found r',
        RunRow.halted_of_blocked hFenced.blocked.2⟩
    | handedOut j hPasses => exact absurd hFences hPasses

end Stays

/-! ## Every run of the platform -/

/-- The event cancels the run, revokes its build, or fences it at the relay. -/
def StopsRun (env : Env) (id : Uuid) (event : PlatformEvent ι) : Prop :=
  PlatformEvent.did event (.core (.cancelRun id)) ∨
    (∃ r, event.before.tables.runs.get? id = some r ∧
      PlatformEvent.did event (.revokePlugin r.pluginId r.pluginDigest)) ∨
    (PlatformEvent.did event (.core (.claim id)) ∧
      Fences env event.call.tick event.before.tables id)

section Runs

variable {p : Platform ι} {s : Store} {c : PlatformCall ι}

/-- Each of the three leaves the run halted. -/
theorem StopsRun.halted {id : Uuid}
    (h : StopsRun p.env id (Machine.eventAt (platformStep p) s c)) :
    ∃ r, (platformStep p s c).1.tables.runs.get? id = some r ∧ r.halted = true := by
  rcases h with hDid | ⟨r, hr, hDid⟩ | ⟨hDid, hFences⟩
  · exact (platformChange_of_did hDid).cancel_halts
  · exact (platformChange_of_did hDid).revoke_halts hr
  · exact (platformChange_of_did hDid).fence_halts hFences

/-- The run is halted, in a store in which halted runs execute nothing. -/
structure Halted (id : Uuid) (s : Store) : Prop where
  halting : Halting s.tables
  run : ∃ r, s.tables.runs.get? id = some r ∧ r.halted = true

theorem Halted.step {id : Uuid} (h : Halted id s) : Halted id (platformStep p s c).1 := by
  rcases platformStep_change p s c with ⟨-, hSame⟩ | ⟨a, -, hChange⟩
  · rw [hSame]
    exact h
  · obtain ⟨r, hr, hHalted⟩ := h.run
    obtain ⟨r', hr', hStays, -⟩ := hChange.halted_kept h.halting hr hHalted
    exact ⟨h.halting.change hChange, r', hr', hStays⟩

/-- What one more call can do to a halted run. -/
theorem Halted.event {id : Uuid} (h : Halted id s) :
    (∀ r, (platformStep p s c).1.tables.runs.get? id = some r → s.tables.runs.get? id ≠ some r →
      r.state ≠ .running ∧ r.state ≠ .succeeded) ∧
    ∀ step, (platformStep p s c).1.tables.checkpoints.get? (id, step) =
      s.tables.checkpoints.get? (id, step) := by
  rcases platformStep_change p s c with ⟨-, hSame⟩ | ⟨a, -, hChange⟩
  · rw [hSame]
    exact ⟨fun r hr hNe => absurd hr hNe, fun _ => rfl⟩
  · obtain ⟨r, hr, hHalted⟩ := h.run
    obtain ⟨r', hr', -, hMoves⟩ := hChange.halted_kept h.halting hr hHalted
    refine ⟨fun q hq hNe => ?_, hChange.halted_checkpoints h.halting hr hHalted⟩
    cases hr'.symm.trans hq
    rcases hMoves with rfl | hMoves
    · exact absurd hr hNe
    · exact hMoves

/-- Once a run is cancelled, its build revoked or the run fenced, no later call starts it, completes
it or writes a checkpoint of it; fences and versions never decrease, and a succeeded checkpoint
never changes. -/
theorem stopped_run_stays_stopped (p : Platform ι) (s : Store) (calls : List (PlatformCall ι))
    (hStart : ∀ id, s.tables.runs.get? id = none) :
    (∀ later id r, (Machine.run (platformStep p) s calls).tables.runs.get? id = some r →
      ∃ r', (Machine.run (platformStep p) s (calls ++ later)).tables.runs.get? id = some r' ∧
        r.fence ≤ r'.fence ∧ r.version.val ≤ r'.version.val) ∧
    (∀ past stop future id, Machine.trace (platformStep p) s calls = past ++ stop :: future →
      StopsRun p.env id stop → ∀ event ∈ future,
        (∀ r, event.after.tables.runs.get? id = some r →
          event.before.tables.runs.get? id ≠ some r → r.state ≠ .running ∧ r.state ≠ .succeeded) ∧
        ∀ step, event.after.tables.checkpoints.get? (id, step) =
          event.before.tables.checkpoints.get? (id, step)) ∧
    ∀ later k row, (Machine.run (platformStep p) s calls).tables.checkpoints.get? k = some row →
      row.state = .succeeded →
      (Machine.run (platformStep p) s (calls ++ later)).tables.checkpoints.get? k = some row := by
  refine ⟨fun later id r hr => ?_, fun past stop future id hSplit hStop event hMem => ?_,
    fun later k row hRow hState => ?_⟩
  · rw [Machine.run_append]
    refine platform_invariant (I := fun t => ∃ r', t.runs.get? id = some r' ∧ r.fence ≤ r'.fence ∧
      r.version.val ≤ r'.version.val) ?_ ⟨r, hr, le_refl _, le_refl _⟩ later
    rintro tick t a t' ⟨q, hq, hFence, hVersion⟩ hChange
    obtain ⟨q', hq', -, hFence', hVersion'⟩ := hChange.run_kept hq
    exact ⟨q', hq', hFence.trans hFence', hVersion.trans hVersion'⟩
  · obtain ⟨before, after, -, -, hAt, hFuture⟩ :=
      Machine.trace_eq_append_cons (platformStep p) hSplit
    have hHalting : Halting (Machine.run (platformStep p) s before).tables :=
      platform_invariant (fun _ _ _ _ h hChange => h.change hChange) (Halting.empty hStart) before
    rw [hAt] at hStop
    have hHalted : Halted id stop.after := by
      rw [hAt]
      exact ⟨platformStep_keeps (fun _ _ _ _ h hChange => h.change hChange) hHalting, hStop.halted⟩
    rw [← hFuture] at hMem
    obtain ⟨before', after', -, hEvent⟩ := Machine.mem_trace (platformStep p) hMem
    have hStays : Halted id (Machine.run (platformStep p) stop.after before') :=
      Machine.run_invariant (platformStep p) (fun _ _ h => h.step) hHalted before'
    rw [hEvent]
    exact hStays.event
  · rw [Machine.run_append]
    exact platform_invariant (I := fun t => t.checkpoints.get? k = some row)
      (fun _ _ _ _ h hChange => hChange.succeeded_kept h hState) hRow later

end Runs

/-- A run is admitted under a new grant. -/
def Sample.admitted : List (PlatformCall Empty) := [delegate 1 none, start 2 (grantOf 1)]

/-- The run is cancelled. -/
def Sample.withdrawn : PlatformCall Empty := cancel 3 (runOf 2) 1

/-- A worker that was handed the run before reports its start, under the fence after the
cancellation. -/
def Sample.lateStart : PlatformCall Empty := coreSystem 4 (.markRunStarted (runOf 2) "attempt" 2)

theorem Sample.workshop_idle (id : Uuid) : workshop.tables.runs.get? id = none := rfl

theorem Sample.withdrawn_did :
    PlatformEvent.did (workshopNext admitted withdrawn) (.core (.cancelRun (runOf 2))) := by
  have hDid : platformCommits (workshopNext admitted withdrawn).response = true ∧
      withdrawn.operation.act = some (.core (.cancelRun (runOf 2))) := by
    simp only [Sample.workshopNext, Sample.fromWorkshop, platformStep_bytewise,
      Sample.platform_bytewise]
    decide +kernel
  exact hDid

theorem stopped_run_lateStart :
    StopsRun Sample.env (Sample.runOf 2) (Sample.workshopNext Sample.admitted Sample.withdrawn) ∧
    ∀ r, (Sample.workshopNext (Sample.admitted ++ [Sample.withdrawn])
        Sample.lateStart).after.tables.runs.get? (Sample.runOf 2) = some r →
      (Sample.workshopNext (Sample.admitted ++ [Sample.withdrawn])
        Sample.lateStart).before.tables.runs.get? (Sample.runOf 2) ≠ some r →
      r.state ≠ .running ∧ r.state ≠ .succeeded := by
  have hStop : StopsRun Sample.env (Sample.runOf 2)
      (Sample.workshopNext Sample.admitted Sample.withdrawn) := Or.inl Sample.withdrawn_did
  have hSplit : Sample.workshopEvents (Sample.admitted ++ [Sample.withdrawn] ++ [Sample.lateStart])
      = Sample.workshopEvents Sample.admitted ++
        Sample.workshopNext Sample.admitted Sample.withdrawn ::
          [Sample.workshopNext (Sample.admitted ++ [Sample.withdrawn]) Sample.lateStart] := by
    rw [Sample.workshopEvents_concat, Sample.workshopEvents_concat, List.append_assoc,
      List.singleton_append]
  refine ⟨hStop, ?_⟩
  exact ((stopped_run_stays_stopped Sample.platform Sample.workshop _ Sample.workshop_idle).2.1
    _ _ _ _ hSplit hStop _ List.mem_cons_self).1

end Masonwing
