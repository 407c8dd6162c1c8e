import Masonwing.Proofs.EffectLifecycle
import Masonwing.Proofs.Evaluation
import Masonwing.Proofs.RunLifecycle

/-!
# The stored machines and the machines of the kernel

The kernel declares the edges of runs and effects and the record of one effect; the store writes
the states of its rows on its own. This file compares the two, for every run of the platform.

* `RunStep.edge_iff`, `run_transitions_follow_edges`: a run moves along the kernel's edges, except
  where the relay refuses to start it;
* `EffectRow.record`, `EffectStep.kernelMove`: the kernel's record of a stored effect, and the
  operation of the record that a step of the effect is;
* `effect_transitions_follow_record`: every step of an effect is an operation of its record.
-/

namespace Masonwing

open Outcome

variable {ι : Type}

/-! ## Runs -/

section Runs

variable {t : Tables} {id : Uuid} {r r' : RunRow} {a : PlatformAct}

/-- A cancellation asks the kernel. -/
theorem cancellationState_edge {state next : RunState} {unresolved : Bool}
    (h : cancellationState state unresolved = .ok next) : state.edge next = true := by
  simp only [cancellationState, bind_eq_ok, require_eq_ok, pure_eq_ok, exists_const] at h
  obtain ⟨target, -, hEdge, rfl⟩ := h
  exact hEdge

/-- A run that executes and is not parked is running. -/
theorem RunState.running_of_inProgress {state : RunState} (h : state.inProgress = true)
    (hUnparked : state ≠ .waitingApproval ∧ state ≠ .waitingRetry) : state = .running := by
  revert h hUnparked
  cases state <;> decide

/-- The moves of a run that are not edges of the kernel are the refusals of the relay. -/
theorem RunStep.edge_iff (h : RunStep t id r r' a) (hHalting : Halting t) :
    (r'.state = r.state ∨ r.state.edge r'.state = true) ↔ a ≠ .core (.claim id) := by
  cases h with
  | cancelled h =>
    exact iff_of_true (Or.inr (cancellationState_edge h.target)) (fun hAct => by cases hAct)
  | started h =>
    rw [h.waiting.1, h.running.1]
    exact iff_of_true (Or.inr rfl) (fun hAct => by cases hAct)
  | completed h =>
    rw [RunState.running_of_inProgress h.inProgress (hHalting.unparked id r h.found), h.succeeded]
    exact iff_of_true (Or.inr rfl) (fun hAct => by cases hAct)
  | fenced h =>
    rw [h.waiting.1, h.blocked.1]
    simp [RunState.edge]
  | stopped h =>
    refine iff_of_true ?_ (fun hAct => by cases hAct)
    rw [h.target]
    split
    · rename_i hRunning
      rw [hRunning]
      exact Or.inr rfl
    · exact Or.inl rfl

end Runs

/-- The relay refuses to start the run. -/
def RefusesStart (env : Env) (id : Uuid) (event : PlatformEvent ι) : Prop :=
  PlatformEvent.did event (.core (.claim id)) ∧ Fences env event.call.tick event.before.tables id

/-- A claim moves a run exactly if the relay refuses to start it. -/
theorem PlatformChange.claim_run {env : Env} {tick : Tick} {t t' : Tables} {id : Uuid}
    (h : PlatformChange env tick t (.core (.claim id)) t') :
    (Fences env tick t id ∧ ∃ r r', RunFenced t id r r' ∧ t'.runs.get? id = some r') ∨
      (¬Fences env tick t id ∧ t'.runs = t.runs) := by
  cases h with
  | core hCore =>
    cases hCore with
    | @runFenced _ r r' j hFences hFenced =>
      exact Or.inl ⟨hFences, r, r', hFenced, Table.get?_set_self hFenced.found r'⟩
    | handedOut j hPasses => exact Or.inr ⟨hPasses, rfl⟩

section Every

variable {p : Platform ι} {s : Store} {c : PlatformCall ι}

/-- One step, seen from one stored run: where it goes, and exactly when that is not an edge. -/
theorem platformStep_run_edge {id : Uuid} {r r' : RunRow} (hHalting : Halting s.tables)
    (hr : s.tables.runs.get? id = some r)
    (hr' : (platformStep p s c).1.tables.runs.get? id = some r') :
    ((r'.state = r.state ∨ r.state.edge r'.state = true) ↔
      ¬RefusesStart p.env id (Machine.eventAt (platformStep p) s c)) ∧
    (RefusesStart p.env id (Machine.eventAt (platformStep p) s c) →
      (r.state = .queued ∧ r.dispatchState = .pending) ∧
        r'.state = .blocked ∧ r'.dispatchState = .blocked) := by
  by_cases hRefuses : RefusesStart p.env id (Machine.eventAt (platformStep p) s c)
  · rcases (platformChange_of_did hRefuses.1).claim_run with ⟨-, q, q', hFenced, hq'⟩ | ⟨hPasses, -⟩
    · cases hFenced.found.symm.trans hr
      cases hq'.symm.trans hr'
      refine ⟨iff_of_false ?_ (not_not_intro hRefuses), fun _ => ⟨hFenced.waiting, hFenced.blocked⟩⟩
      rw [hFenced.waiting.1, hFenced.blocked.1]
      decide
    · exact absurd hRefuses.2 hPasses
  · refine ⟨iff_of_true ?_ hRefuses, fun h => absurd h hRefuses⟩
    rcases platformStep_change p s c with ⟨-, hSame⟩ | ⟨a, hDid, hChange⟩
    · rw [hSame, hr] at hr'
      cases hr'
      exact Or.inl rfl
    · cases hChange.run id with
      | same hRow =>
        rw [hRow, hr] at hr'
        cases hr'
        exact Or.inl rfl
      | created hNone hRow hAdmitted hId hAct => cases hNone.symm.trans hr
      | moved hFound hRow hStep =>
        cases hFound.symm.trans hr
        cases hRow.symm.trans hr'
        refine (hStep.edge_iff hHalting).mpr ?_
        rintro rfl
        -- a claim that moved the run refused it
        rcases hChange.claim_run with ⟨hFences, -⟩ | ⟨-, hRuns⟩
        · exact hRefuses ⟨hDid, hFences⟩
        · rw [hRuns, hr] at hr'
          cases hr'
          have hVersion := hStep.version_lt
          omega

end Every

/-- In every run of the platform a stored run moves along an edge of the kernel or stays, except
where the relay refuses to start it: that takes a queued run whose dispatch is pending to
`BLOCKED`, and nothing else leaves the edges. A new run is queued. -/
theorem run_transitions_follow_edges (p : Platform ι) (s : Store) (calls : List (PlatformCall ι))
    (hStart : ∀ id, s.tables.runs.get? id = none) :
    ∀ event ∈ Machine.trace (platformStep p) s calls, ∀ id r',
      event.after.tables.runs.get? id = some r' →
        (event.before.tables.runs.get? id = none → r'.state = .queued) ∧
        ∀ r, event.before.tables.runs.get? id = some r →
          ((r'.state = r.state ∨ r.state.edge r'.state = true) ↔ ¬RefusesStart p.env id event) ∧
          (RefusesStart p.env id event →
            (r.state = .queued ∧ r.dispatchState = .pending) ∧
              r'.state = .blocked ∧ r'.dispatchState = .blocked) := by
  intro event hMem id r' hr'
  obtain ⟨before, after, -, hEvent⟩ := Machine.mem_trace (platformStep p) hMem
  have hHalting : Halting (Machine.run (platformStep p) s before).tables :=
    platform_invariant (fun _ _ _ _ h hChange => h.change hChange) (Halting.empty hStart) before
  rw [hEvent] at hr' ⊢
  refine ⟨fun hNone => ?_, fun r hr => platformStep_run_edge hHalting hr hr'⟩
  rcases platformStep_change p (Machine.run (platformStep p) s before) event.call with
    ⟨-, hSame⟩ | ⟨a, -, hChange⟩
  · have hRow : (platformStep p (Machine.run (platformStep p) s before) event.call).1.tables.runs.get?
        id = some r' := hr'
    rw [hSame] at hRow
    cases hRow.symm.trans hNone
  · cases hChange.run id with
    | same hRow => cases hr'.symm.trans (hRow.trans hNone)
    | created _ hRow hAdmitted hId hAct =>
      cases hRow.symm.trans hr'
      exact hAdmitted.waiting.1
    | moved hFound hRow hStep => cases hFound.symm.trans hNone

/-- The relay looks at the admitted run when the grant of the run has expired. -/
def Sample.lateClaim : PlatformCall Empty := coreSystem 1000001 (.verifyAndClaimRun (runOf 2))

theorem Sample.lateClaim_states :
    ((workshopNext admitted lateClaim).before.tables.runs.get? (runOf 2)).map (·.state) =
        some .queued ∧
      ((workshopNext admitted lateClaim).after.tables.runs.get? (runOf 2)).map (·.state) =
        some .blocked := by
  simp only [Sample.workshopNext, Sample.fromWorkshop, platformStep_bytewise,
    Sample.platform_bytewise]
  decide +kernel

theorem Sample.lateClaim_mem :
    workshopNext admitted lateClaim ∈ workshopEvents (admitted ++ [lateClaim]) := by
  rw [workshopEvents_concat]
  exact List.mem_append_right _ List.mem_cons_self

theorem run_edges_lateClaim :
    ∃ r r', (Sample.workshopNext Sample.admitted Sample.lateClaim).before.tables.runs.get?
        (Sample.runOf 2) = some r ∧
      (Sample.workshopNext Sample.admitted Sample.lateClaim).after.tables.runs.get?
        (Sample.runOf 2) = some r' ∧
      ((r'.state = r.state ∨ r.state.edge r'.state = true) ↔ ¬RefusesStart Sample.env
        (Sample.runOf 2) (Sample.workshopNext Sample.admitted Sample.lateClaim)) := by
  obtain ⟨r, hr, -⟩ := Option.map_eq_some_iff.mp Sample.lateClaim_states.1
  obtain ⟨r', hr', -⟩ := Option.map_eq_some_iff.mp Sample.lateClaim_states.2
  exact ⟨r, r', hr, hr', ((run_transitions_follow_edges Sample.platform Sample.workshop _
    Sample.workshop_idle _ Sample.lateClaim_mem _ r' hr').2 r hr).1⟩

/-- A queued run is blocked, which is not an edge of the kernel. -/
theorem refused_run_leaves_edges :
    ¬∀ event ∈ Sample.workshopEvents (Sample.admitted ++ [Sample.lateClaim]), ∀ id r r',
      event.before.tables.runs.get? id = some r → event.after.tables.runs.get? id = some r' →
        r'.state = r.state ∨ r.state.edge r'.state = true := by
  intro h
  obtain ⟨r, hr, hs⟩ := Option.map_eq_some_iff.mp Sample.lateClaim_states.1
  obtain ⟨r', hr', hs'⟩ := Option.map_eq_some_iff.mp Sample.lateClaim_states.2
  have hEdge := h _ Sample.lateClaim_mem _ r r' hr hr'
  rw [hs, hs'] at hEdge
  revert hEdge
  decide

/-! ## Effects -/

/-- The kernel's record of a stored effect. No step of the store authorizes a proposal, so a prepared
effect counts as authorized; the record is queued for reconciliation while its outcome is unknown. -/
def EffectRow.record (e : EffectRow) : EffectRecord :=
  { state := if e.state = .prepared then .authorized else e.state
    transmitCount := e.transmitCount.toNat
    reconciliationQueued := decide (e.state = .outcomeUnknown) }

/-- What an act on an effect is for the kernel: an operation of its record, or an outcome that is
observed while the effect executes, which is only an edge. -/
inductive KernelMove (id : Uuid) (k k' : EffectRecord) : Act → Prop
  | transmit (h : k.transmit = .ok k') : KernelMove id k k' (.dispatch id)
  | timeout (h : k.markAmbiguousTimeout = .ok k') : KernelMove id k k' (.recordUnknown id)
  | begin (h : k.beginReconciliation = .ok k') : KernelMove id k k' (.reconcile id)
  | reconcile {evidence : ReconciliationEvidence} (h : k.reconcile evidence = .ok k') :
      KernelMove id k k' (evidence.act id)
  | observed {evidence : ReconciliationEvidence} (hFrom : k.state = .executing)
      (hTo : k.state.edge k'.state = true) (hCount : k'.transmitCount = k.transmitCount)
      (hEvidence : evidence = .confirmedPresent ∨ evidence = .confirmedFailure) :
      KernelMove id k k' (evidence.act id)

section Effects

variable {id : Uuid} {e e' : EffectRow} {a : Act}

/-- What a step of the stored effect is for its record. -/
theorem EffectStep.kernelMove (h : EffectStep id e e' a) (hCount : 0 ≤ e.transmitCount) :
    KernelMove id e.record e'.record a := by
  cases h with
  | dispatch hFrom hTo hNext =>
    refine .transmit ?_
    have hNat : (e.transmitCount + 1).toNat = e.transmitCount.toNat + 1 := by omega
    rw [EffectRow.record, EffectRow.record, hTo, hNext, hNat]
    revert hFrom
    cases e.state <;> first | (intro; rfl) | (intro h; cases h)
  | reconcile hFrom hTo hNext =>
    refine .begin ?_
    rw [EffectRow.record, EffectRow.record, hTo, hNext]
    rcases hFrom with hs | hs <;> rw [hs] <;> rfl
  | unknown hFrom hTo hNext =>
    refine .timeout ?_
    rw [EffectRow.record, EffectRow.record, hFrom, hTo, hNext]
    rfl
  | succeeded hFrom hTo hNext =>
    rcases hFrom with hs | hs
    · refine @KernelMove.observed id _ _ .confirmedPresent ?_ ?_ ?_ (Or.inl rfl)
      all_goals simp [EffectRow.record, hs, hTo, hNext, EffectState.edge]
    · refine @KernelMove.reconcile id _ _ .confirmedPresent ?_
      rw [EffectRow.record, EffectRow.record, hs, hTo, hNext]
      rfl
  | failed hFrom hTo hNext =>
    rcases hFrom with hs | hs
    · refine @KernelMove.observed id _ _ .confirmedFailure ?_ ?_ ?_ (Or.inr rfl)
      all_goals simp [EffectRow.record, hs, hTo, hNext, EffectState.edge]
    · refine @KernelMove.reconcile id _ _ .confirmedFailure ?_
      rw [EffectRow.record, EffectRow.record, hs, hTo, hNext]
      rfl
  | reauthorize hFrom hTo hNext =>
    refine @KernelMove.reconcile id _ _ .provenAbsentAndReauthorized ?_
    rw [EffectRow.record, EffectRow.record, hFrom, hTo, hNext]
    rfl
  | review hFrom hTo hNext =>
    refine @KernelMove.reconcile id _ _ .unresolved ?_
    rw [EffectRow.record, EffectRow.record, hFrom, hTo, hNext]
    rfl

/-- The only step of an effect that is not an edge transmits a prepared effect. -/
theorem EffectStep.edge_iff (h : EffectStep id e e' a) :
    e.state.edge e'.state = true ↔ ¬(a = .dispatch id ∧ e.state = .prepared) := by
  cases h with
  | dispatch hFrom hTo hNext =>
    rw [hTo]
    revert hFrom
    cases e.state <;> simp [EffectState.edge, EffectState.dispatchable]
  | reconcile hFrom hTo hNext =>
    refine iff_of_true ?_ (fun hAct => by cases hAct.1)
    rcases hFrom with hs | hs <;> rw [hs, hTo] <;> rfl
  | unknown hFrom hTo hNext =>
    refine iff_of_true ?_ (fun hAct => by cases hAct.1)
    rw [hFrom, hTo]
    rfl
  | succeeded hFrom hTo hNext =>
    refine iff_of_true ?_ (fun hAct => by cases hAct.1)
    rcases hFrom with hs | hs <;> rw [hs, hTo] <;> rfl
  | failed hFrom hTo hNext =>
    refine iff_of_true ?_ (fun hAct => by cases hAct.1)
    rcases hFrom with hs | hs <;> rw [hs, hTo] <;> rfl
  | reauthorize hFrom hTo hNext =>
    refine iff_of_true ?_ (fun hAct => by cases hAct.1)
    rw [hFrom, hTo]
    rfl
  | review hFrom hTo hNext =>
    refine iff_of_true ?_ (fun hAct => by cases hAct.1)
    rw [hFrom, hTo]
    rfl

/-- The transmissions an act adds. -/
theorem EffectStep.count (h : EffectStep id e e' a) :
    e'.transmitCount = e.transmitCount + if a = .dispatch id then 1 else 0 := by
  cases h with
  | dispatch hFrom hTo hNext => rw [hNext, if_pos rfl]
  | reconcile hFrom hTo hNext => rw [hNext, if_neg (fun hAct => by cases hAct), Int.add_zero]
  | unknown hFrom hTo hNext => rw [hNext, if_neg (fun hAct => by cases hAct), Int.add_zero]
  | succeeded hFrom hTo hNext => rw [hNext, if_neg (fun hAct => by cases hAct), Int.add_zero]
  | failed hFrom hTo hNext => rw [hNext, if_neg (fun hAct => by cases hAct), Int.add_zero]
  | reauthorize hFrom hTo hNext => rw [hNext, if_neg (fun hAct => by cases hAct), Int.add_zero]
  | review hFrom hTo hNext => rw [hNext, if_neg (fun hAct => by cases hAct), Int.add_zero]

/-- No effect was transmitted a negative number of times. -/
def Counted (t : Tables) : Prop := ∀ id e, t.effects.get? id = some e → 0 ≤ e.transmitCount

/-- A step of the platform, seen from one effect: its row stays and nothing was done to it, or it
was created, or an act on it was committed. -/
theorem platformStep_effect (p : Platform ι) (s : Store) (c : PlatformCall ι) (id : Uuid) :
    ((platformStep p s c).1.tables.effects.get? id = s.tables.effects.get? id ∧
      ∀ b, b.effect = some id →
        ¬PlatformEvent.did (Machine.eventAt (platformStep p) s c) (.core b)) ∨
    (∃ b e, PlatformEvent.did (Machine.eventAt (platformStep p) s c) (.core b) ∧
      s.tables.effects.get? id = none ∧
      (platformStep p s c).1.tables.effects.get? id = some e ∧ NewEffect e ∧
      Born p.env c.tick s.tables id e b) ∨
    ∃ b e e', PlatformEvent.did (Machine.eventAt (platformStep p) s c) (.core b) ∧
      EffectMoved s.tables id e e' ∧
      (platformStep p s c).1.tables.effects.get? id = some e' ∧ EffectStep id e e' b := by
  rcases platformStep_change p s c with ⟨hNone, hSame⟩ | ⟨a, hDid, hChange⟩
  · exact Or.inl ⟨by rw [hSame], fun b _ => not_platformDid hNone _⟩
  · have hOther : (∀ b, b.effect = some id → a ≠ .core b) → ∀ b, b.effect = some id →
        ¬PlatformEvent.did (Machine.eventAt (platformStep p) s c) (.core b) :=
      fun h b hb hDid' => h b hb (PlatformEvent.did_unique hDid hDid')
    generalize (platformStep p s c).1.tables = t' at hChange ⊢
    cases hChange with
    | core hCore =>
      cases hCore.effect id with
      | same hRow hAct =>
        refine Or.inl ⟨hRow, hOther fun b hb h => hAct ?_⟩
        rw [PlatformAct.core.inj h]
        exact hb
      | created hNone hRow hNew hAct hBorn =>
        exact Or.inr (Or.inl ⟨_, _, hDid, hNone, hRow, hNew, hBorn⟩)
      | moved hMoved hRow hStep => exact Or.inr (Or.inr ⟨_, _, _, hDid, hMoved, hRow, hStep⟩)
    | pluginRevoked registry j hRuns => exact Or.inl ⟨rfl, hOther fun b _ h => by cases h⟩
    | registered registry j => exact Or.inl ⟨rfl, hOther fun b _ h => by cases h⟩
    | deleted j rights requests => exact Or.inl ⟨rfl, hOther fun b _ h => by cases h⟩
    | contained j => exact Or.inl ⟨rfl, hOther fun b _ h => by cases h⟩
    | checkpointed hAdmitted hRows => exact Or.inl ⟨rfl, hOther fun b _ h => by cases h⟩

theorem Counted.step {p : Platform ι} {s : Store} {c : PlatformCall ι} (h : Counted s.tables) :
    Counted (platformStep p s c).1.tables := by
  intro id e' he'
  rcases platformStep_effect p s c id with
    ⟨hRow, -⟩ | ⟨b, e, -, -, hRow, hNew, -⟩ | ⟨b, e, q, -, hMoved, hRow, hStep⟩
  · exact h id e' (hRow ▸ he')
  · cases hRow.symm.trans he'
    exact le_of_eq hNew.untransmitted.symm
  · cases hRow.symm.trans he'
    have hBefore := h id _ hMoved.found
    rw [hStep.count]
    split <;> omega

/-- A new effect is prepared by a proposal or authorized by a compensation. -/
theorem Origin.record {env : Env} {tick : Tick} {t : Tables} (h : Origin env tick t e a)
    (hNew : NewEffect e) :
    (e.state = .prepared ∨ e.state = .authorized) ∧ e.record = EffectRecord.authorized := by
  have hState : e.state = .prepared ∨ e.state = .authorized := by
    cases h with
    | proposal hAdmitted hRow =>
      rw [hRow]
      exact Or.inl rfl
    | compensation hCompensated => exact Or.inr hCompensated.state
  refine ⟨hState, ?_⟩
  rw [EffectRow.record, hNew.untransmitted]
  rcases hState with hs | hs <;> rw [hs] <;> rfl

end Effects

/-- In every run of the platform, a new effect has the record of an authorized one, and every later
act on it is an operation of the record or an outcome observed while it executes. Its state moves
along the edges of the kernel except where a prepared effect is transmitted, and its transmit count
advances with every transmission and with nothing else. -/
theorem effect_transitions_follow_record (p : Platform ι) (s : Store)
    (calls : List (PlatformCall ι)) (hStart : ∀ id, s.tables.effects.get? id = none) :
    ∀ event ∈ Machine.trace (platformStep p) s calls, ∀ id e',
      event.after.tables.effects.get? id = some e' →
        (event.before.tables.effects.get? id = none →
          (e'.state = .prepared ∨ e'.state = .authorized) ∧
            e'.record = EffectRecord.authorized) ∧
        ∀ e, event.before.tables.effects.get? id = some e →
          (e' = e ∨ ∃ a, PlatformEvent.did event (.core a) ∧
            KernelMove id e.record e'.record a) ∧
          (∀ a, a.effect = some id → PlatformEvent.did event (.core a) →
            KernelMove id e.record e'.record a) ∧
          ((e'.state = e.state ∨ e.state.edge e'.state = true) ↔
            ¬(PlatformEvent.did event (.core (.dispatch id)) ∧ e.state = .prepared)) ∧
          (PlatformEvent.did event (.core (.dispatch id)) →
            e'.transmitCount = e.transmitCount + 1) ∧
          (¬PlatformEvent.did event (.core (.dispatch id)) →
            e'.transmitCount = e.transmitCount) := by
  intro event hMem id e' he'
  obtain ⟨before, after, -, hEvent⟩ := Machine.mem_trace (platformStep p) hMem
  have hCounted : Counted (Machine.run (platformStep p) s before).tables :=
    Machine.run_invariant (platformStep p) (I := fun s => Counted s.tables)
      (fun _ _ h => h.step) (fun id e he => (by cases (hStart id).symm.trans he)) before
  rw [hEvent] at he' ⊢
  rcases platformStep_effect p (Machine.run (platformStep p) s before) event.call id with
    ⟨hRow, hQuiet⟩ | ⟨b, q, -, hNone, hRow, hNew, hBorn⟩ | ⟨b, q, q', hDid, hMoved, hRow, hStep⟩
  · have hSame : (Machine.run (platformStep p) s before).tables.effects.get? id = some e' :=
      hRow.symm.trans he'
    refine ⟨fun hNone => (by cases hSame.symm.trans hNone), fun e he => ?_⟩
    cases hSame.symm.trans he
    exact ⟨Or.inl rfl, fun a ha hDid => absurd hDid (hQuiet a ha),
      iff_of_true (Or.inl rfl) fun h => hQuiet _ rfl h.1, fun h => absurd h (hQuiet _ rfl),
      fun _ => rfl⟩
  · cases hRow.symm.trans he'
    exact ⟨fun _ => hBorn.origin.record hNew, fun e he => (by cases hNone.symm.trans he)⟩
  · cases hRow.symm.trans he'
    refine ⟨fun hNone => (by cases hNone.symm.trans hMoved.found), fun e he => ?_⟩
    cases hMoved.found.symm.trans he
    have hMove := hStep.kernelMove (hCounted id _ he)
    have hDispatch : PlatformEvent.did (Machine.eventAt (platformStep p)
        (Machine.run (platformStep p) s before) event.call) (.core (.dispatch id)) ↔
          b = .dispatch id := by
      constructor
      · intro h
        exact PlatformAct.core.inj (PlatformEvent.did_unique hDid h)
      · rintro rfl
        exact hDid
    refine ⟨Or.inr ⟨b, hDid, hMove⟩, fun a _ hOther => ?_, ?_, fun h => ?_, fun h => ?_⟩
    · cases PlatformEvent.did_unique hDid hOther
      exact hMove
    · rw [hDispatch, ← hStep.edge_iff]
      refine ⟨fun h => ?_, Or.inr⟩
      rcases h with hSame | hEdge
      · rw [hStep.edge_iff]
        rintro ⟨rfl, hs⟩
        cases hStep with
        | dispatch hFrom hTo hNext => cases (hTo.symm.trans hSame).trans hs
      · exact hEdge
    · rw [hStep.count, if_pos (hDispatch.mp h)]
    · rw [hStep.count, if_neg (fun hb => h (hDispatch.mpr hb)), Int.add_zero]

/-- An effect is proposed. -/
def Sample.proposed : List (PlatformCall Empty) := [coreCall (propose 1)]

/-- It is transmitted. -/
def Sample.transmission : PlatformCall Empty := coreCall (dispatch 2 (effectOf 1) 1)

/-- Its failure is confirmed while it executes. -/
def Sample.refutation : PlatformCall Empty :=
  coreCall (system 3 (.applyReconciliationEvidence (effectOf 1) .confirmedFailure none none none))

/-- The events of a run of the platform on the small tenant. -/
abbrev Sample.platformEvents (calls : List (PlatformCall Empty)) : List (PlatformEvent Empty) :=
  Machine.trace (platformStep platform) store calls

/-- The event of one more call. -/
def Sample.platformNext (calls : List (PlatformCall Empty)) (c : PlatformCall Empty) :
    PlatformEvent Empty := Machine.eventAt (platformStep platform) (afterPlatform calls) c

theorem Sample.platformNext_mem (calls : List (PlatformCall Empty)) (c : PlatformCall Empty) :
    platformNext calls c ∈ platformEvents (calls ++ [c]) := by
  rw [platformEvents, Machine.trace_concat]
  exact List.mem_append_right _ List.mem_cons_self

/-- The states of the effect before and after an event, and whether the event committed. -/
def Sample.effectStates (event : PlatformEvent Empty) :
    Option EffectState × Option EffectState × Bool :=
  ((event.before.tables.effects.get? (effectOf 1)).map (·.state),
    (event.after.tables.effects.get? (effectOf 1)).map (·.state), platformCommits event.response)

theorem Sample.refuted_states :
    effectStates (platformNext proposed transmission) = (some .prepared, some .executing, true) ∧
      effectStates (platformNext (proposed ++ [transmission]) refutation) =
        (some .executing, some .failedConfirmed, true) ∧
      transmission.operation.act = some (.core (.dispatch (effectOf 1))) := by
  simp only [Sample.platformNext, Sample.afterPlatform, platformStep_bytewise,
    Sample.platform_bytewise]
  decide +kernel

/-- The rows behind the states. -/
theorem Sample.rows_of_states {event : PlatformEvent Empty} {state state' : EffectState}
    (h : effectStates event = (some state, some state', true)) :
    ∃ e e', event.before.tables.effects.get? (effectOf 1) = some e ∧
      event.after.tables.effects.get? (effectOf 1) = some e' ∧ e.state = state ∧
      e'.state = state' ∧ platformCommits event.response = true := by
  obtain ⟨hBefore, hRest⟩ := Prod.mk.inj h
  obtain ⟨hAfter, hCommits⟩ := Prod.mk.inj hRest
  obtain ⟨e, he, hs⟩ := Option.map_eq_some_iff.mp hBefore
  obtain ⟨e', he', hs'⟩ := Option.map_eq_some_iff.mp hAfter
  exact ⟨e, e', he, he', hs, hs', hCommits⟩

theorem effect_record_transmission :
    ∃ e e', (Sample.platformNext Sample.proposed Sample.transmission).before.tables.effects.get?
        (Sample.effectOf 1) = some e ∧
      (Sample.platformNext Sample.proposed Sample.transmission).after.tables.effects.get?
        (Sample.effectOf 1) = some e' ∧
      KernelMove (Sample.effectOf 1) e.record e'.record (.dispatch (Sample.effectOf 1)) := by
  obtain ⟨e, e', he, he', -, -, hCommits⟩ := Sample.rows_of_states Sample.refuted_states.1
  refine ⟨e, e', he, he', ?_⟩
  exact ((effect_transitions_follow_record Sample.platform Sample.store _ (fun _ => rfl) _
    (Sample.platformNext_mem _ _) _ e' he').2 e he).2.1 _ rfl
      ⟨hCommits, Sample.refuted_states.2.2⟩

/-- A prepared effect is transmitted, which is neither an edge nor an operation of an unauthorized
record; and evidence is accepted about an effect that is not being reconciled. -/
theorem stored_effect_leaves_record :
    (¬∀ event ∈ Sample.platformEvents (Sample.proposed ++ [Sample.transmission]), ∀ id e e',
      event.before.tables.effects.get? id = some e → event.after.tables.effects.get? id = some e' →
        (e'.state = e.state ∨ e.state.edge e'.state = true)) ∧
    (¬∀ event ∈ Sample.platformEvents (Sample.proposed ++ [Sample.transmission]), ∀ id e,
      event.before.tables.effects.get? id = some e →
        PlatformEvent.did event (.core (.dispatch id)) → e.state = .authorized) ∧
    ¬∀ event ∈ Sample.platformEvents (Sample.proposed ++ [Sample.transmission] ++
        [Sample.refutation]), ∀ id e evidence remoteId evidenceRef used,
      event.before.tables.effects.get? id = some e → platformCommits event.response = true →
        event.call.operation = .core (.system (.applyReconciliationEvidence id evidence remoteId
          evidenceRef used)) → e.state = .reconciling := by
  obtain ⟨e, e', he, he', hs, hs', hCommits⟩ := Sample.rows_of_states Sample.refuted_states.1
  obtain ⟨q, q', hq, -, hQ, -, hCommitsQ⟩ := Sample.rows_of_states Sample.refuted_states.2.1
  refine ⟨fun h => ?_, fun h => ?_, fun h => ?_⟩
  · have hEdge := h _ (Sample.platformNext_mem _ _) _ e e' he he'
    rw [hs, hs'] at hEdge
    revert hEdge
    decide
  · have hState := h _ (Sample.platformNext_mem _ _) _ e he ⟨hCommits, Sample.refuted_states.2.2⟩
    cases hs.symm.trans hState
  · have hState := h _ (Sample.platformNext_mem _ _) _ q _ _ _ _ hq hCommitsQ rfl
    cases hQ.symm.trans hState

end Masonwing
