import Masonwing.Proofs.Delivery
import Masonwing.Proofs.Evaluation
import Masonwing.Proofs.RelayRows
import Masonwing.Worker.Relay

/-!
# Relay workers side by side

Any number of workers relay start events while runs are cancelled and grants and plugins revoked.

* `RelayPhase.Sound`, `RelaySound.step`: what a worker holds is true of the rows, in every phase;
* `verified_cases`: a worker comes to hold a run only by a verification that hands it out;
* `relay_starts_once`: the guarantees over all interleavings.
-/

namespace Masonwing

open Outcome

variable {ι : Type}

/-! ## The phases of a worker -/

/-- The item is a stored event. -/
def Held (t : Tables) (item : OutboxDispatchItem) : Prop :=
  ∃ o, t.journal.outbox.get? item.eventId = some o ∧ item = dispatchItem item.eventId o

namespace RelayPhase

/-- The events that the worker holds. -/
def events : RelayPhase → List OutboxDispatchItem
  | .idle => []
  | .batch events => events
  | .verified event _ rest | .accepted event _ _ rest | .acknowledging event _ rest
  | .failing event rest => event :: rest

/-- The run that the worker was handed for an event. -/
def handed : RelayPhase → Option (OutboxDispatchItem × DispatchableRun)
  | .verified event run _ | .accepted event run _ _ => some (event, run)
  | _ => none

/-- The event that the worker is about to acknowledge. -/
def acknowledged : RelayPhase → Option OutboxDispatchItem
  | .acknowledging event _ _ => some event
  | _ => none

/-- What a worker holds is true: its events are stored, the run it was handed is the event's, under
its own workflow identity, and it acknowledges events of closed dispatches only. -/
structure Sound (t : Tables) (phase : RelayPhase) : Prop where
  held : ∀ item ∈ phase.events, Held t item
  run : ∀ event run, phase.handed = some (event, run) →
    run.runId = event.aggregateId ∧ run.temporalWorkflowId = run.runId.toText
  closed : ∀ event, phase.acknowledged = some event → DispatchClosed event.aggregateId t

end RelayPhase

section Phases

variable {p : Platform ι} {config : RelayConfig} {tick : Tick} {t t' : Tables} {phase : RelayPhase}

open RelayPhase

/-- A phase with nothing but stored events. -/
theorem RelayPhase.Sound.of_held (hHanded : phase.handed = none)
    (hAcknowledged : phase.acknowledged = none) (h : ∀ item ∈ phase.events, Held t item) :
    phase.Sound t :=
  ⟨h, fun event run hRun => (by cases hHanded.symm.trans hRun),
    fun event hEvent => (by cases hAcknowledged.symm.trans hEvent)⟩

theorem RelayPhase.Sound.idle : RelayPhase.idle.Sound t :=
  .of_held rfl rfl fun _ hItem => (by cases hItem)

/-- The rest of a batch. -/
theorem RelayPhase.Sound.rest (h : phase.Sound t) {event : OutboxDispatchItem}
    {rest : List OutboxDispatchItem} (hEvents : phase.events = event :: rest) :
    (RelayPhase.batch rest).Sound t := by
  refine .of_held rfl rfl fun item hItem => h.held item ?_
  rw [hEvents]
  exact List.mem_cons_of_mem _ hItem

/-- An event of a batch that fails. -/
theorem RelayPhase.Sound.fail (h : phase.Sound t) {event : OutboxDispatchItem}
    {rest : List OutboxDispatchItem} (hEvents : phase.events = event :: rest) :
    (RelayPhase.failing event rest).Sound t := by
  refine .of_held rfl rfl fun item hItem => h.held item ?_
  rw [hEvents]
  exact hItem

theorem Held.outcome {op : PlatformOperation ι} {item : OutboxDispatchItem} (h : Held t item)
    (hOutcome : PlatformOutcome p tick t op t') : Held t' item := by
  obtain ⟨o, ho, hItem⟩ := h
  obtain ⟨o', ho', hTopic⟩ := (hOutcome.outbox item.eventId).topic_kept ho
  refine ⟨o', ho', ?_⟩
  simp only [OutboxRow.topic, Prod.mk.injEq] at hTopic
  obtain ⟨hAggregate, hVersion, hName, hKind⟩ := hTopic
  rw [hItem]
  simp only [dispatchItem, hAggregate, hVersion, hName, hKind]

/-- Calls of others leave true what a worker holds. -/
theorem RelayPhase.Sound.kept {s : Store} {c : PlatformCall ι} (hRows : RelayRows s.tables)
    (h : phase.Sound s.tables) : phase.Sound (platformStep p s c).1.tables :=
  ⟨fun item hItem => (h.held item hItem).outcome (platformStep_outcome p s c), h.run,
    fun event hEvent => (h.closed event hEvent).step hRows⟩

theorem RelayPhase.Sound.alone (h : phase.Sound t) (engine : Option String) :
    (phase.alone engine).Sound t := by
  cases phase with
  | batch events =>
    cases events with
    | nil => exact .idle
    | cons event rest => exact h.rest rfl
  | verified event run rest =>
    unfold RelayPhase.alone
    cases engine with
    | none => exact h.fail rfl
    | some temporalRunId =>
      dsimp only
      split
      · exact h.fail rfl
      · exact ⟨h.held, h.run, fun event hEvent => (by cases hEvent)⟩
  | _ => exact h

/-- A call that is not performed, or whose answer is lost. -/
theorem RelayPhase.Sound.unanswered (h : phase.Sound t) (failure : CommandFailure) :
    (phase.answered (.error failure)).Sound t := by
  cases phase with
  | batch events =>
    cases events with
    | nil => exact h
    | cons event rest => exact h.fail rfl
  | verified event run rest => exact h
  | idle => exact .idle
  | accepted event run temporalRunId rest => exact h.fail rfl
  | acknowledging event started rest => exact h.rest rfl
  | failing event rest => exact h.rest rfl

/-- The events of a claimed batch are stored. -/
theorem claimed_held {limit leaseSeconds : Int} {items : List OutboxDispatchItem}
    (h : runSystemCall p.env tick t (.claimPendingOutbox limit leaseSeconds) =
      .ok (t', .events items)) : ∀ item ∈ items, Held t' item := by
  intro item hItem
  obtain ⟨j, claimed, hClaimed, rfl, hReply⟩ := runSystemCall_claimPendingOutbox h
  cases hReply
  obtain ⟨o, ho, -, hIs⟩ := hClaimed.items item hItem
  exact Held.outcome (p := p) ⟨o, ho, hIs⟩ (.system h)

/-- What the verification of an event tells: the run is handed out under its own identity, or its
dispatch is closed. -/
theorem verified_answer {event : OutboxDispatchItem} {claimed : Option DispatchableRun}
    (hRows : RelayRows t) (hRows' : RelayRows t') (hHeld : Held t event)
    (hStarts : event.eventName = "run.start" ∧ event.aggregateType = "Run")
    (h : verifyAndClaimRun p.env tick t event.aggregateId = .ok (t', claimed)) :
    (∃ run, claimed = some run ∧ run.runId = event.aggregateId ∧
      run.temporalWorkflowId = run.runId.toText) ∨
    (claimed = none ∧ DispatchClosed event.aggregateId t') := by
  cases claimed with
  | some run =>
    obtain ⟨r, hr, -, -, rfl⟩ := verifyAndClaimRun_some h
    exact Or.inl ⟨_, rfl, rfl, hRows.waiting.identity _ r hr⟩
  | none =>
    obtain ⟨o, ho, hItem⟩ := hHeld
    rw [hItem] at hStarts
    obtain ⟨version, state, hRow, -⟩ := hRows.announced _ o ho hStarts.1
    obtain ⟨r, hr, -⟩ := Option.map_eq_some_iff.mp hRow
    have hAggregate : event.aggregateId = o.aggregateId := by rw [hItem]; rfl
    rw [← hAggregate] at hr
    obtain ⟨r', hr', hIdle⟩ := verifyAndClaimRun_none h hr
    refine Or.inr ⟨rfl, r', hr', fun hPending => hIdle ⟨?_, hPending⟩⟩
    exact hRows'.waiting.queued _ r' hr' hPending

theorem RelayPhase.Sound.answer {call : SystemCall} {reply : Reply} (hRows : RelayRows t)
    (hRows' : RelayRows t') (hBefore : phase.Sound t) (hAfter : phase.Sound t')
    (hCall : phase.call config = some call)
    (hRun : runSystemCall p.env tick t call = .ok (t', reply)) :
    (phase.answered (.ok reply)).Sound t' := by
  cases phase with
  | idle =>
    cases hCall
    obtain ⟨j, items, -, -, rfl⟩ := runSystemCall_claimPendingOutbox hRun
    exact .of_held rfl rfl (claimed_held hRun)
  | batch events =>
    cases events with
    | nil => cases hCall
    | cons event rest =>
      rw [RelayPhase.call] at hCall
      split at hCall
      · cases hCall
      · rename_i hStarts
        cases hCall
        rw [not_or, not_not, not_not] at hStarts
        simp only [runSystemCall, bind_eq_ok, pure_eq_ok, Prod.exists, Prod.mk.injEq] at hRun
        obtain ⟨_, claimed, hClaimed, rfl, rfl⟩ := hRun
        have hHeld := hBefore.held event List.mem_cons_self
        rcases verified_answer hRows hRows' hHeld hStarts hClaimed with
          ⟨run, rfl, hRun⟩ | ⟨rfl, hClosed⟩
        · refine ⟨hAfter.held, fun _ _ hHanded => ?_, fun _ hEvent => (by cases hEvent)⟩
          cases hHanded
          exact hRun
        · refine ⟨hAfter.held, fun _ _ hHanded => (by cases hHanded), fun _ hEvent => ?_⟩
          cases hEvent
          exact hClosed
  | verified event run rest => cases hCall
  | accepted event run temporalRunId rest =>
    cases hCall
    obtain ⟨m, hStarted⟩ := withMutation_ok hRun
    obtain ⟨r, r', hStep, -, rfl⟩ := markRunStarted_ok hStarted
    refine ⟨hAfter.held, fun _ _ hHanded => (by cases hHanded), fun _ hEvent => ?_⟩
    cases hEvent
    rw [← (hBefore.run event run rfl).1]
    refine ⟨r', Table.get?_set_self hStep.found r', ?_⟩
    rw [hStep.running.2]
    decide
  | acknowledging event started rest => exact hAfter.rest rfl
  | failing event rest => exact hAfter.rest rfl

/-- No step without the store hands out a run. -/
theorem alone_ne_verified {engine : Option String} {event : OutboxDispatchItem}
    {run : DispatchableRun} {rest : List OutboxDispatchItem} (hCall : phase.call config = none) :
    phase.alone engine ≠ .verified event run rest := by
  intro h
  cases phase with
  | batch events =>
    cases events with
    | nil => cases h
    | cons first others => cases h
  | verified first handed others =>
    unfold RelayPhase.alone at h
    cases engine with
    | none => cases h
    | some temporalRunId =>
      dsimp only at h
      split at h
      · cases h
      · cases h
  | _ => cases hCall

/-- Only the answer to a verification hands out a run. -/
theorem answered_verified {reply : Result Reply} {call : SystemCall} {event : OutboxDispatchItem}
    {run : DispatchableRun} {rest : List OutboxDispatchItem} (hCall : phase.call config = some call)
    (h : phase.answered reply = .verified event run rest) :
    call = .verifyAndClaimRun event.aggregateId ∧ reply = .ok (.claimed (some run)) := by
  cases phase with
  | idle =>
    unfold RelayPhase.answered at h
    dsimp only at h
    split at h
    · cases h
    · cases h
  | batch events =>
    cases events with
    | nil => cases hCall
    | cons first others =>
      unfold RelayPhase.answered at h
      dsimp only at h
      split at h
      · cases h
        rw [RelayPhase.call] at hCall
        split at hCall
        · cases hCall
        · exact ⟨(Option.some.inj hCall).symm, rfl⟩
      · cases h
      · cases h
  | verified first handed others => cases hCall
  | accepted first handed temporalRunId others =>
    unfold RelayPhase.answered at h
    dsimp only at h
    split at h
    · cases h
    · cases h
  | acknowledging first started others => cases h
  | failing first others => cases h

end Phases

/-! ## Every interleaving -/

abbrev RelayEvent (ι : Type) := Machine.Event RelayState (RelayAction ι) RelayReply

/-- The rows and what every worker holds. -/
structure RelaySound (s : RelayState) : Prop where
  rows : RelayRows s.store.tables
  acknowledged : Acknowledged s.store.tables
  phases : ∀ w, (s.phases w).Sound s.store.tables

section Steps

variable {p : Platform ι} {config : RelayConfig} {s : RelayState} {a : RelayAction ι}

/-- The three ways in which a call over the connection ends. -/
theorem ask_cases (p : Platform ι) (tick : Tick) (link : Link) (store : Store)
    (call : SystemCall) :
    (∃ failure, ask p tick link store call = (store, .error failure)) ∨
    (∃ failure, ask p tick link store call =
      ((platformStep p store ⟨tick, .core (.system call)⟩).1, .error failure)) ∨
    ∃ reply, ask p tick link store call =
        ((platformStep p store ⟨tick, .core (.system call)⟩).1, .ok reply) ∧
      runSystemCall p.env tick store.tables call =
        .ok ((platformStep p store ⟨tick, .core (.system call)⟩).1.tables, reply) := by
  have hCore := platformStep_core p store tick (.system call)
  rw [hCore]
  cases link with
  | down => exact Or.inl ⟨_, rfl⟩
  | cut => exact Or.inr (Or.inl ⟨_, rfl⟩)
  | up =>
    have hStep : ask p tick .up store call =
        transact store (runOperation p.env p.catalogue.core tick store (.system call)) := rfl
    rw [hStep, step, runOperation]
    cases hRun : runSystemCall p.env tick store.tables call with
    | error failure => exact Or.inl ⟨failure, rfl⟩
    | ok answer =>
      obtain ⟨tables, reply⟩ := answer
      exact Or.inr (Or.inr ⟨reply, rfl, rfl⟩)

/-- The event that a worker acknowledges is about a run whose dispatch is closed. -/
theorem RelaySound.report (h : RelaySound s) {c : PlatformCall ι}
    (hPerformed : a.performed config s = some c) {id : Uuid}
    (hReport : c.operation = .core (.system (.markOutboxDelivered id))) :
    ∃ o, s.store.tables.journal.outbox.get? id = some o ∧
      DispatchClosed o.aggregateId s.store.tables := by
  cases a with
  | work w tick link engine =>
    simp only [RelayAction.performed] at hPerformed
    split at hPerformed
    · cases hPerformed
    · obtain ⟨call, hCall, rfl⟩ := Option.map_eq_some_iff.mp hPerformed
      cases hReport
      have hSound := h.phases w
      cases hPhase : s.phases w with
      | acknowledging event started rest =>
        rw [hPhase] at hCall hSound
        cases hCall
        obtain ⟨o, ho, hItem⟩ := hSound.held event List.mem_cons_self
        refine ⟨o, ho, ?_⟩
        have hAggregate : event.aggregateId = o.aggregateId := by rw [hItem]; rfl
        rw [← hAggregate]
        exact hSound.closed event rfl
      | batch events =>
        rw [hPhase] at hCall
        cases events with
        | nil => cases hCall
        | cons event rest =>
          rw [RelayPhase.call] at hCall
          split at hCall
          · cases hCall
          · cases hCall
      | _ =>
        rw [hPhase] at hCall
        cases hCall
  | crash w => cases hPerformed
  | outside outside =>
    cases hPerformed
    exact absurd hReport (outside.others id)

/-- The store after a step: as it was, or after one call of the platform. -/
theorem relayStep_cases (p : Platform ι) (config : RelayConfig) (s : RelayState)
    (a : RelayAction ι) :
    (a.performed config s = none ∧ (relayStep p config s a).1.store = s.store) ∨
      ∃ c, a.performed config s = some c ∧
        (relayStep p config s a).1.store = (platformStep p s.store c).1 := by
  have hStore := relayStep_store p config s a
  cases hPerformed : a.performed config s with
  | none =>
    rw [hPerformed] at hStore
    exact Or.inl ⟨rfl, hStore⟩
  | some c =>
    rw [hPerformed] at hStore
    exact Or.inr ⟨c, rfl, hStore⟩

/-- What every call of the platform keeps, every step of the relay keeps. -/
theorem relayStep_keeps {I : Tables → Prop}
    (hStep : ∀ store c, I store.tables → I (platformStep p store c).1.tables)
    (h : I s.store.tables) : I (relayStep p config s a).1.store.tables := by
  rcases relayStep_cases p config s a with ⟨-, hSame⟩ | ⟨c, -, hStore⟩
  · rw [hSame]
    exact h
  · rw [hStore]
    exact hStep s.store c h

/-- What the acting worker holds after its step. -/
theorem RelaySound.worked (h : RelaySound s) {w : Nat} {tick : Tick} {link : Link}
    {engine : Option String}
    (hRows : RelayRows (relayStep p config s (.work w tick link engine)).1.store.tables)
    (hKept : (s.phases w).Sound (relayStep p config s (.work w tick link engine)).1.store.tables) :
    ((relayStep p config s (.work w tick link engine)).1.phases w).Sound
      (relayStep p config s (.work w tick link engine)).1.store.tables := by
  cases hCall : (s.phases w).call config with
  | none =>
    simp only [relayStep, hCall, RelayState.enter_self, RelayState.enter_store]
    exact (h.phases w).alone engine
  | some call =>
    simp only [relayStep, hCall, RelayState.enter_self, RelayState.enter_store] at hRows hKept ⊢
    rcases ask_cases p tick link s.store call with
      ⟨failure, hAsk⟩ | ⟨failure, hAsk⟩ | ⟨reply, hAsk, hRun⟩
    · rw [hAsk] at hKept ⊢
      exact hKept.unanswered failure
    · rw [hAsk] at hKept ⊢
      exact hKept.unanswered failure
    · rw [hAsk] at hRows hKept ⊢
      exact .answer h.rows hRows (h.phases w) hKept hCall hRun

/-- One step, whoever takes it. -/
theorem RelaySound.step (h : RelaySound s) : RelaySound (relayStep p config s a).1 := by
  have hRows : RelayRows (relayStep p config s a).1.store.tables :=
    relayStep_keeps (fun _ _ hStore => hStore.step) h.rows
  have hKept : ∀ w, (s.phases w).Sound (relayStep p config s a).1.store.tables := by
    intro w
    rcases relayStep_cases p config s a with ⟨-, hSame⟩ | ⟨c, -, hStore⟩
    · rw [hSame]
      exact h.phases w
    · rw [hStore]
      exact (h.phases w).kept h.rows
  refine ⟨hRows, ?_, fun k => ?_⟩
  · rcases relayStep_cases p config s a with ⟨-, hSame⟩ | ⟨c, hPerformed, hStore⟩
    · rw [hSame]
      exact h.acknowledged
    · rw [hStore]
      exact h.acknowledged.step (platformStep_outcome p s.store c)
        (fun _ hClosed => hClosed.step h.rows) fun _ hReport => h.report hPerformed hReport
  · cases a with
    | work w tick link engine =>
      by_cases hk : k = w
      · subst hk
        exact h.worked hRows (hKept k)
      · have hSame : (relayStep p config s (.work w tick link engine)).1.phases k = s.phases k := by
          rw [relayStep]
          split <;> exact RelayState.enter_of_ne _ _ hk
        rw [hSame]
        exact hKept k
    | crash w =>
      by_cases hk : k = w
      · subst hk
        rw [relayStep, RelayState.enter_self]
        exact .idle
      · rw [relayStep, RelayState.enter_of_ne _ _ hk]
        exact h.phases k
    | outside outside => exact hKept k

/-- A worker comes to hold a run only by a verification that hands it out. -/
theorem verified_cases {w : Nat} {event : OutboxDispatchItem} {run : DispatchableRun}
    {rest : List OutboxDispatchItem}
    (h : (relayStep p config s a).1.phases w = .verified event run rest) :
    (s.phases w = .verified event run rest) ∨
      ∃ tick t', verifyAndClaimRun p.env tick s.store.tables event.aggregateId =
        .ok (t', some run) := by
  cases a with
  | work k tick link engine =>
    by_cases hk : w = k
    · subst hk
      cases hCall : (s.phases w).call config with
      | none =>
        simp only [relayStep, hCall, RelayState.enter_self] at h
        exact absurd h (alone_ne_verified hCall)
      | some call =>
        simp only [relayStep, hCall, RelayState.enter_self] at h
        obtain ⟨rfl, hReply⟩ := answered_verified hCall h
        rcases ask_cases p tick link s.store (.verifyAndClaimRun event.aggregateId) with
          ⟨failure, hAsk⟩ | ⟨failure, hAsk⟩ | ⟨reply, hAsk, hRun⟩
        · rw [hAsk] at hReply
          cases hReply
        · rw [hAsk] at hReply
          cases hReply
        · rw [hAsk] at hReply
          cases hReply
          simp only [runSystemCall, bind_eq_ok, pure_eq_ok, Prod.exists, Prod.mk.injEq] at hRun
          obtain ⟨t', claimed, hClaimed, -, hHanded⟩ := hRun
          cases hHanded
          exact Or.inr ⟨tick, t', hClaimed⟩
    · left
      rw [← h, relayStep]
      split <;> exact (RelayState.enter_of_ne _ _ hk).symm
  | crash k =>
    by_cases hk : w = k
    · subst hk
      rw [relayStep, RelayState.enter_self] at h
      cases h
    · rw [relayStep, RelayState.enter_of_ne _ _ hk] at h
      exact Or.inl h
  | outside outside => exact Or.inl h

/-- The worker holds no permission to start the run. -/
def Unpermitted (w : Nat) (id : Uuid) (s : RelayState) : Prop :=
  ∀ event run rest, s.phases w = .verified event run rest → run.runId ≠ id

/-- A run that is withheld is not handed out. -/
theorem StartWithheld.unpermitted {w : Nat} {id : Uuid} (h : StartWithheld id s.store.tables)
    (hPhase : Unpermitted w id s) : Unpermitted w id (relayStep p config s a).1 := by
  intro event run rest hVerified hId
  rcases verified_cases hVerified with hOld | ⟨tick, t', hClaimed⟩
  · exact hPhase event run rest hOld hId
  · obtain ⟨r, -, -, -, rfl⟩ := verifyAndClaimRun_some hClaimed
    change event.aggregateId = id at hId
    rw [hId] at hClaimed
    exact h.not_handed_out hClaimed

end Steps

/-- The run is running. -/
def Running (id : Uuid) (t : Tables) : Prop := ∃ r, t.runs.get? id = some r ∧ r.state = .running

/-- A run that begins to run was open for dispatch, and is not any more. -/
theorem PlatformChange.running {env : Env} {tick : Tick} {t t' : Tables} {a : PlatformAct}
    (h : PlatformChange env tick t a t') {id : Uuid} (hBefore : ¬Running id t)
    (hAfter : Running id t') : ¬DispatchClosed id t ∧ DispatchClosed id t' := by
  obtain ⟨r, hr, hState⟩ := hAfter
  cases h.run id with
  | same hSame => exact absurd ⟨r, hSame.symm.trans hr, hState⟩ hBefore
  | created hNone hNew hAdmitted hId hAct =>
    cases hNew.symm.trans hr
    cases hAdmitted.waiting.1.symm.trans hState
  | @moved q q' hFound hNew hStep =>
    cases hNew.symm.trans hr
    cases hStep with
    | cancelled hCancelled =>
      rcases (cancellationState_target hCancelled.target).2 with hs | hs
      · cases hs.symm.trans hState
      · cases hs.symm.trans hState
    | started hStarted =>
      refine ⟨?_, r, hr, ?_⟩
      · rintro ⟨q₁, hq₁, hClosed⟩
        cases hFound.symm.trans hq₁
        exact hClosed hStarted.waiting.2
      · rw [hStarted.running.2]
        decide
    | completed hCompleted => cases hCompleted.succeeded.symm.trans hState
    | fenced hFenced => cases hFenced.blocked.1.symm.trans hState
    | stopped hStopped =>
      have hTarget := hStopped.target
      rw [hState] at hTarget
      split at hTarget
      · cases hTarget
      · exact absurd ⟨q, hFound, hTarget.symm⟩ hBefore

/-- The event starts the run. -/
def MovesToRunning (id : Uuid) (event : RelayEvent ι) : Prop :=
  ¬Running id event.before.store.tables ∧ Running id event.after.store.tables

/-- The event withdraws the run: a worker's verification fences it, or another call cancels it or
revokes its build, its grant or a grant above that. -/
def Withdraws (p : Platform ι) (config : RelayConfig) (id : Uuid) (event : RelayEvent ι) : Prop :=
  ∃ c, event.call.performed config event.before = some c ∧
    WithdrawsRun p.env id (Machine.eventAt (platformStep p) event.before.store c)

/-- The worker asks for the verification of a run. -/
def Verifies (config : RelayConfig) (w : Nat) (event : RelayEvent ι) : Prop :=
  event.call.worker = some w ∧
    ∃ id, (event.before.phases w).call config = some (.verifyAndClaimRun id)

section Runs

variable {p : Platform ι} {config : RelayConfig} {s : RelayState} {a : RelayAction ι}

theorem DispatchClosed.relayed {id : Uuid} (hRows : RelayRows s.store.tables)
    (h : DispatchClosed id s.store.tables) :
    DispatchClosed id (relayStep p config s a).1.store.tables := by
  rcases relayStep_cases p config s a with ⟨-, hSame⟩ | ⟨c, -, hStore⟩
  · rw [hSame]
    exact h
  · rw [hStore]
    exact h.step hRows

theorem StartWithheld.relayed {id : Uuid} (hRows : RelayRows s.store.tables)
    (h : StartWithheld id s.store.tables) :
    StartWithheld id (relayStep p config s a).1.store.tables := by
  rcases relayStep_cases p config s a with ⟨-, hSame⟩ | ⟨c, -, hStore⟩
  · rw [hSame]
    exact h
  · rw [hStore]
    exact h.step hRows

theorem MovesToRunning.closes {id : Uuid}
    (h : MovesToRunning id (Machine.eventAt (relayStep p config) s a)) :
    ¬DispatchClosed id s.store.tables ∧
      DispatchClosed id (relayStep p config s a).1.store.tables := by
  obtain ⟨hBefore, hAfter⟩ := h
  change Running id (relayStep p config s a).1.store.tables at hAfter
  rcases relayStep_cases p config s a with ⟨-, hSame⟩ | ⟨c, -, hStore⟩
  · rw [hSame] at hAfter
    exact absurd hAfter hBefore
  · rw [hStore] at hAfter ⊢
    rcases platformStep_change p s.store c with ⟨-, hSame⟩ | ⟨act, -, hChange⟩
    · rw [hSame] at hAfter
      exact absurd hAfter hBefore
    · exact hChange.running hBefore hAfter

theorem Withdraws.withheld {id : Uuid} (hRows : RelayRows s.store.tables)
    (h : Withdraws p config id (Machine.eventAt (relayStep p config) s a)) :
    StartWithheld id (relayStep p config s a).1.store.tables := by
  obtain ⟨c, hPerformed, hWithdraws⟩ := h
  rw [relayStep_store]
  change a.performed config s = some c at hPerformed
  rw [hPerformed]
  exact hWithdraws.withheld hRows

/-- A worker that asks for a verification holds no permission. -/
theorem Verifies.unpermitted {w : Nat}
    (h : Verifies config w (Machine.eventAt (relayStep p config) s a)) (id : Uuid) :
    Unpermitted w id s := by
  intro event run rest hPhase
  obtain ⟨-, k, hCall⟩ := h
  change (s.phases w).call config = some (.verifyAndClaimRun k) at hCall
  rw [hPhase] at hCall
  cases hCall

/-- A start is requested by a worker that was handed the run, under the identity it was handed. -/
theorem requested_verified {w : Nat} {request : StartRequest} (hWorker : a.worker = some w)
    (h : (relayStep p config s a).2 = .requested request) :
    ∃ event run rest, s.phases w = .verified event run rest ∧ run.runId = request.runId ∧
      run.temporalWorkflowId = request.workflowId := by
  cases a with
  | work k tick link engine =>
    cases hWorker
    cases hCall : (s.phases w).call config with
    | some call =>
      simp only [relayStep, hCall] at h
      cases h
    | none =>
      simp only [relayStep, hCall] at h
      cases hPhase : s.phases w with
      | verified event run rest =>
        rw [hPhase] at h
        cases h
        exact ⟨event, run, rest, rfl, rfl, rfl⟩
      | _ =>
        rw [hPhase] at h
        cases h
  | crash k => cases h
  | outside outside => cases h

theorem requested_worker {request : StartRequest}
    (h : (relayStep p config s a).2 = .requested request) : ∃ w, a.worker = some w := by
  cases a with
  | work k tick link engine => exact ⟨k, rfl⟩
  | crash k => exact ⟨k, rfl⟩
  | outside outside => cases h

theorem Untouched.relaySound {store : Store} (h : Untouched store.tables) :
    RelaySound (.start store) :=
  ⟨h.rows, h.acknowledged, fun _ => .idle⟩

theorem RelaySound.run (h : RelaySound s) (actions : List (RelayAction ι)) :
    RelaySound (Machine.run (relayStep p config) s actions) :=
  Machine.run_invariant _ (fun _ _ h => h.step) h actions

theorem DispatchClosed.run {id : Uuid} (hSound : RelaySound s)
    (h : DispatchClosed id s.store.tables) (actions : List (RelayAction ι)) :
    DispatchClosed id (Machine.run (relayStep p config) s actions).store.tables :=
  (Machine.run_invariant (relayStep p config)
    (I := fun s => RelaySound s ∧ DispatchClosed id s.store.tables)
    (fun _ _ h => ⟨h.1.step, h.2.relayed h.1.rows⟩) ⟨hSound, h⟩ actions).2

theorem StartWithheld.run {id : Uuid} (hSound : RelaySound s) (h : StartWithheld id s.store.tables)
    (actions : List (RelayAction ι)) :
    StartWithheld id (Machine.run (relayStep p config) s actions).store.tables :=
  (Machine.run_invariant (relayStep p config)
    (I := fun s => RelaySound s ∧ StartWithheld id s.store.tables)
    (fun _ _ h => ⟨h.1.step, h.2.relayed h.1.rows⟩) ⟨hSound, h⟩ actions).2

/-- While a run is withheld, a worker that holds no permission gets none. -/
theorem Unpermitted.run {w : Nat} {id : Uuid} (hSound : RelaySound s)
    (hWithheld : StartWithheld id s.store.tables) (h : Unpermitted w id s)
    (actions : List (RelayAction ι)) :
    Unpermitted w id (Machine.run (relayStep p config) s actions) :=
  (Machine.run_invariant (relayStep p config)
    (I := fun s => (RelaySound s ∧ StartWithheld id s.store.tables) ∧ Unpermitted w id s)
    (fun _ _ h => ⟨⟨h.1.1.step, h.1.2.relayed h.1.1.rows⟩, h.1.2.unpermitted h.2⟩)
    ⟨⟨hSound, hWithheld⟩, h⟩ actions).2

/-- A run that was started is not started again. -/
theorem RelaySound.started_once (hSound : RelaySound s) {actions : List (RelayAction ι)}
    {past middle future : List (RelayEvent ι)} {first second : RelayEvent ι} {id : Uuid}
    (hSplit : Machine.trace (relayStep p config) s actions =
      past ++ first :: (middle ++ second :: future))
    (hFirst : MovesToRunning id first) : ¬MovesToRunning id second := by
  intro hSecond
  obtain ⟨before, after, -, -, hAt, hRest⟩ := Machine.trace_eq_append_cons _ hSplit
  obtain ⟨between, after', -, -, hAt', -⟩ := Machine.trace_eq_append_cons _ hRest
  rw [hAt] at hFirst
  rw [hAt'] at hSecond
  have hSoundAfter : RelaySound first.after := by
    rw [hAt]
    exact (hSound.run before).step
  have hClosed : DispatchClosed id first.after.store.tables := by
    rw [hAt]
    exact hFirst.closes.2
  exact hSecond.closes.1 (hClosed.run hSoundAfter between)

/-- After the withdrawal of a run no verification gives a worker the permission to start it. -/
theorem RelaySound.withdrawn_unrequested (hSound : RelaySound s) {actions : List (RelayAction ι)}
    {past middle interval future : List (RelayEvent ι)}
    {withdrawal verification start : RelayEvent ι} {id : Uuid} {w : Nat} {request : StartRequest}
    (hSplit : Machine.trace (relayStep p config) s actions =
      past ++ withdrawal :: (middle ++ verification :: (interval ++ start :: future)))
    (hWithdraws : Withdraws p config id withdrawal) (hVerifies : Verifies config w verification)
    (hWorker : start.call.worker = some w) (hRequest : start.response = .requested request) :
    request.runId ≠ id := by
  intro hId
  obtain ⟨before, after, -, -, hAt, hRest⟩ := Machine.trace_eq_append_cons _ hSplit
  obtain ⟨between, after', -, -, hAt', hRest'⟩ := Machine.trace_eq_append_cons _ hRest
  obtain ⟨between', after'', -, -, hAt'', -⟩ := Machine.trace_eq_append_cons _ hRest'
  rw [hAt] at hWithdraws
  rw [hAt'] at hVerifies
  rw [hAt''] at hRequest
  have hSoundAfter : RelaySound withdrawal.after := by
    rw [hAt]
    exact (hSound.run before).step
  have hWithheld : StartWithheld id withdrawal.after.store.tables := by
    rw [hAt]
    exact hWithdraws.withheld (hSound.run before).rows
  have hSoundThen : RelaySound (Machine.run (relayStep p config) withdrawal.after between) :=
    hSoundAfter.run between
  have hWithheldThen :
      StartWithheld id (Machine.run (relayStep p config) withdrawal.after between).store.tables :=
    hWithheld.run hSoundAfter between
  have hUnpermitted : Unpermitted w id verification.after := by
    rw [hAt']
    exact hWithheldThen.unpermitted (hVerifies.unpermitted id)
  have hLater : Unpermitted w id (Machine.run (relayStep p config) verification.after between') := by
    refine hUnpermitted.run ?_ ?_ between'
    · rw [hAt']
      exact hSoundThen.step
    · rw [hAt']
      exact hWithheldThen.relayed hSoundThen.rows
  obtain ⟨item, run, rest, hPhase, hRun, -⟩ := requested_verified hWorker hRequest
  exact hLater item run rest hPhase (hRun.trans hId)

/-- At most one start per run, whatever the interleaving: no run is moved to `RUNNING` twice; the
engine is asked for a run under its own identity only, and never by a worker whose verification came
after the run was withdrawn; and an event that is acknowledged without a start, like every event
that is delivered, belongs to a run that was started or kept from starting. -/
theorem relay_starts_once (p : Platform ι) (config : RelayConfig) (store : Store)
    (actions : List (RelayAction ι)) (hStart : Untouched store.tables) :
    (∀ past first middle second future id,
      Machine.trace (relayStep p config) (.start store) actions =
        past ++ first :: (middle ++ second :: future) →
      MovesToRunning id first → ¬MovesToRunning id second) ∧
    (∀ event ∈ Machine.trace (relayStep p config) (.start store) actions, ∀ request,
      event.response = .requested request → request.workflowId = request.runId.toText) ∧
    (∀ past withdrawal middle verification interval start future id w request,
      Machine.trace (relayStep p config) (.start store) actions =
        past ++ withdrawal :: (middle ++ verification :: (interval ++ start :: future)) →
      Withdraws p config id withdrawal → Verifies config w verification →
      start.call.worker = some w → start.response = .requested request → request.runId ≠ id) ∧
    (∀ event ∈ Machine.trace (relayStep p config) (.start store) actions, ∀ w item rest,
      event.before.phases w = .acknowledging item false rest →
      DispatchClosed item.aggregateId event.before.store.tables) ∧
    ∀ id o, (Machine.run (relayStep p config) (.start store) actions).store.tables.journal.outbox.get?
        id = some o → o.deliveryStatus = .delivered →
      DispatchClosed o.aggregateId
        (Machine.run (relayStep p config) (.start store) actions).store.tables := by
  have hSound := hStart.relaySound
  have hReached : ∀ before, RelaySound (Machine.run (relayStep p config) (.start store) before) :=
    hSound.run
  refine ⟨?_, fun event hMem request hRequest => ?_, ?_, fun event hMem w item rest hPhase => ?_, ?_⟩
  · intro past first middle second future id hSplit hFirst
    exact hSound.started_once hSplit hFirst
  · obtain ⟨before, after, -, hAt⟩ := Machine.mem_trace _ hMem
    rw [hAt] at hRequest
    obtain ⟨w, hWorker⟩ := requested_worker hRequest
    obtain ⟨item, run, rest, hPhase, hRun, hIdentity⟩ := requested_verified hWorker hRequest
    have hWorkerSound := (hReached before).phases w
    rw [hPhase] at hWorkerSound
    rw [← hIdentity, ← hRun]
    exact (hWorkerSound.run item run rfl).2
  · intro past withdrawal middle verification interval start future id w request hSplit hWithdraws
      hVerifies hWorker hRequest
    exact hSound.withdrawn_unrequested hSplit hWithdraws hVerifies hWorker hRequest
  · obtain ⟨before, after, -, hAt⟩ := Machine.mem_trace _ hMem
    have hWorkerSound := (hReached before).phases w
    rw [hAt, Machine.eventAt_before] at hPhase ⊢
    rw [hPhase] at hWorkerSound
    exact hWorkerSound.closed item rfl
  · exact (hReached actions).acknowledged.delivered

end Runs

/-! ## Two workers -/

namespace Sample

def relayConfig : RelayConfig := { batchSize := 16, leaseSeconds := 1, maxAttempts := 10 }

/-- One step of a worker in the `n`-th second, with an engine that accepts. -/
def works (w n : Nat) : RelayAction Empty := .work w (reading n) .up (some "attempt")

def delegated : RelayAction Empty :=
  .outside ⟨delegate 1 none, fun id h => (by cases h)⟩

def admittedOutside : RelayAction Empty :=
  .outside ⟨start 2 (grantOf 1), fun id h => (by cases h)⟩

/-- The lease of the first worker expires, a second one claims the event as well, and both are
handed the run and ask the engine to start it; the report of the second one comes too late. -/
def contested : List (RelayAction Empty) :=
  [delegated, admittedOutside, works 0 3, works 1 5, works 0 6, works 1 6, works 0 7, works 1 7,
    works 0 8, works 1 9, works 0 10, works 1 11]

/-- The engine is asked under the run's identity. -/
def asksFor (id : Uuid) : RelayReply → Bool
  | .requested request => decide (request.runId = id ∧ request.workflowId = id.toText)
  | .quiet => false

theorem workshop_untouched : Untouched workshop.tables :=
  ⟨fun _ => rfl, fun _ => rfl, fun _ => rfl, rfl⟩

theorem contested_facts :
    ((Machine.trace (relayStep platform relayConfig) (.start workshop) contested).filter
        (fun event => asksFor (runOf 2) event.response)).length = 2 ∧
      ((Machine.run (relayStep platform relayConfig) (.start workshop)
        contested).store.tables.runs.get? (runOf 2)).map (·.state) = some .running ∧
      ((Machine.run (relayStep platform relayConfig) (.start workshop)
        contested).store.tables.journal.outbox.get? (startEvent 2)).map (·.deliveryStatus) =
        some .delivered := by
  delta relayStep ask
  rw [platformStep_bytewise, step_bytewise, Sample.platform_bytewise]
  decide +kernel

end Sample

theorem relay_starts_contested :
    ((Machine.trace (relayStep Sample.platform Sample.relayConfig) (.start Sample.workshop)
        Sample.contested).filter
        (fun event => Sample.asksFor (Sample.runOf 2) event.response)).length = 2 ∧
    (∀ past first middle second future id,
      Machine.trace (relayStep Sample.platform Sample.relayConfig) (.start Sample.workshop)
        Sample.contested = past ++ first :: (middle ++ second :: future) →
      MovesToRunning id first → ¬MovesToRunning id second) ∧
    ∀ o, (Machine.run (relayStep Sample.platform Sample.relayConfig) (.start Sample.workshop)
        Sample.contested).store.tables.journal.outbox.get? (Sample.startEvent 2) = some o →
      o.deliveryStatus = .delivered →
      DispatchClosed o.aggregateId (Machine.run (relayStep Sample.platform Sample.relayConfig)
        (.start Sample.workshop) Sample.contested).store.tables := by
  obtain ⟨hOnce, -, -, -, hDelivered⟩ := relay_starts_once Sample.platform Sample.relayConfig
    Sample.workshop Sample.contested Sample.workshop_untouched
  exact ⟨Sample.contested_facts.1, hOnce, hDelivered (Sample.startEvent 2)⟩

end Masonwing
