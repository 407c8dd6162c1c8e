import Masonwing.Proofs.Evaluation
import Masonwing.Proofs.JournalSteps

/-!
# Delivery of outbox events

An event is claimed under a lease, and the worker that held it reports its delivery or a failure.
Leases expire, so two workers can hold one event, and the report of the slower one comes after the
delivery: `delivered_stays_iff` says exactly when the event stays delivered.
-/

namespace Masonwing

open Outcome

variable {ι : Type}

/-- The event is stored and delivered. -/
def Delivered (id : Uuid) (t : Tables) : Prop :=
  ∃ o, t.journal.outbox.get? id = some o ∧ o.deliveryStatus = .delivered

/-- A failure of the event is reported, on an active tenant, when its attempts have used up the
bound of the report. -/
def GivesUp (id : Uuid) (event : PlatformEvent ι) : Prop :=
  ∃ maxAttempts o, event.call.operation = .core (.system (.markOutboxFailed id maxAttempts)) ∧
    event.before.tables.identity.tenantActive = true ∧
    event.before.tables.journal.outbox.get? id = some o ∧ maxAttempts ≤ o.deliveryAttempts

section Step

variable {p : Platform ι} {tick : Tick} {t t' : Tables} {s : Store} {c : PlatformCall ι} {id : Uuid}

/-- Only a report of failure that gives up changes the status of a delivered event. -/
theorem OutboxStep.delivered_kept {j j' : Journal} {op : PlatformOperation ι} {o : OutboxRow}
    (h : OutboxStep tick id j j' op) (ho : j.outbox.get? id = some o)
    (hStatus : o.deliveryStatus = .delivered) :
    (∃ o', j'.outbox.get? id = some o' ∧ o'.deliveryStatus = .delivered) ∨
      ∃ maxAttempts, op = .core (.system (.markOutboxFailed id maxAttempts)) ∧
        maxAttempts ≤ o.deliveryAttempts := by
  cases h with
  | same op hRow => exact Or.inl ⟨o, hRow.trans ho, hStatus⟩
  | created op hNone hRow hPending => cases hNone.symm.trans ho
  | claimed limit leaseSeconds hFound hRow hClaimed =>
    -- a claim selects pending events only
    exfalso
    cases hFound.symm.trans ho
    have hPending := hClaimed.claimable
    rw [OutboxRow.claimable, decide_eq_true_eq] at hPending
    cases hPending.1.symm.trans hStatus
  | delivered hFound hRow hTopic hNew => exact Or.inl ⟨_, hRow, hNew⟩
  | failed maxAttempts hFound hRow hTopic hNew =>
    cases hFound.symm.trans ho
    by_cases hUsedUp : maxAttempts ≤ o.deliveryAttempts
    · exact Or.inr ⟨maxAttempts, rfl, hUsedUp⟩
    · rw [if_neg hUsedUp] at hNew
      exact Or.inl ⟨_, hRow, hNew.trans hStatus⟩

theorem Delivered.step (h : Delivered id s.tables)
    (hKeeps : ¬GivesUp id (Machine.eventAt (platformStep p) s c)) :
    Delivered id (platformStep p s c).1.tables := by
  obtain ⟨o, ho, hStatus⟩ := h
  rcases ((platformStep_outcome p s c).outbox id).delivered_kept ho hStatus with hKept | hGivesUp
  · exact hKept
  · obtain ⟨maxAttempts, hCall, hUsedUp⟩ := hGivesUp
    cases hActive : s.tables.identity.tenantActive with
    | true => exact absurd ⟨maxAttempts, o, hCall, hActive, ho, hUsedUp⟩ hKeeps
    | false =>
      -- on a tenant that is not active the report is refused
      obtain ⟨callTick, operation⟩ := c
      cases hCall
      have hRefused : markOutboxFailed callTick s.tables id maxAttempts = .error .notFound := by
        rw [markOutboxFailed, beginSystem, hActive]
        rfl
      refine ⟨o, ?_, hStatus⟩
      rw [platformStep, runPlatformOperation, runOperation, runSystemCall, withDone, hRefused]
      exact ho

/-- A report that gives up leaves the event a dead letter. -/
theorem GivesUp.deadLetter (h : GivesUp id (Machine.eventAt (platformStep p) s c)) :
    ∃ o, (platformStep p s c).1.tables.journal.outbox.get? id = some o ∧
      o.deliveryStatus = .deadLetter := by
  obtain ⟨maxAttempts, o, hCall, hActive, ho, hUsedUp⟩ := h
  obtain ⟨callTick, operation⟩ := c
  dsimp only [Machine.eventAt] at hCall hActive ho
  cases hCall
  have hFailed : ∃ t', markOutboxFailed callTick s.tables id maxAttempts = .ok t' := by
    simp only [markOutboxFailed, bind_eq_ok, beginSystem_eq_ok, sql_eq_ok, okOr_eq_ok, pure_eq_ok,
      exists_const]
    exact ⟨_, hActive, o, ho, rfl⟩
  obtain ⟨t', hFailed⟩ := hFailed
  obtain ⟨o₁, o', ho₁, -, hStatus, rfl⟩ := markOutboxFailed_rows hFailed
  cases ho₁.symm.trans ho
  rw [if_pos hUsedUp] at hStatus
  refine ⟨o', ?_, hStatus⟩
  rw [platformStep, runPlatformOperation, runOperation, runSystemCall, withDone, hFailed]
  exact Table.get?_set_self ho o'

end Step

/-- A delivered event stays delivered along a run if and only if no report of a failure gives it
up. -/
theorem delivered_stays_iff (p : Platform ι) (s : Store) (calls : List (PlatformCall ι)) (id : Uuid)
    (hStart : Delivered id s.tables) :
    (∀ event ∈ Machine.trace (platformStep p) s calls, Delivered id event.after.tables) ↔
      ∀ event ∈ Machine.trace (platformStep p) s calls, ¬GivesUp id event := by
  constructor
  · intro hStays event hMem hGivesUp
    obtain ⟨o, ho, hStatus⟩ := hStays event hMem
    obtain ⟨before, after, -, hAt⟩ := Machine.mem_trace (platformStep p) hMem
    rw [hAt] at hGivesUp ho
    obtain ⟨o', ho', hDead⟩ := hGivesUp.deadLetter
    cases ho'.symm.trans ho
    cases hDead.symm.trans hStatus
  · intro hNever event hMem
    exact (Machine.trace_invariant_of (platformStep p) (I := fun s => Delivered id s.tables)
      (fun _ _ h hKeeps => h.step hKeeps) hStart hNever event hMem).2

/-! ## A slow worker -/

namespace Sample

/-- The event that announces the run started in the `n`-th second. -/
def startEvent (n : Nat) : Uuid := (tick n).draw (.outbox 0)

/-- A run is admitted and its event claimed. The lease expires, a second worker claims the event,
starts the run and reports the delivery. -/
def redelivery : List (PlatformCall Empty) :=
  [delegate 1 none, start 2 (grantOf 1), coreSystem 3 (.claimPendingOutbox 16 1),
    coreSystem 5 (.claimPendingOutbox 16 30), coreSystem 6 (.verifyAndClaimRun (runOf 2)),
    coreSystem 7 (.markRunStarted (runOf 2) "attempt" 1),
    coreSystem 8 (.markOutboxDelivered (startEvent 2))]

/-- The first worker reports its failure. -/
def lateFailure : PlatformCall Empty := coreSystem 9 (.markOutboxFailed (startEvent 2) 2)

end Sample

theorem Sample.redelivery_status :
    ((fromWorkshop redelivery).tables.journal.outbox.get? (startEvent 2)).map
        (fun o => (o.deliveryStatus, o.deliveryAttempts)) = some (.delivered, 2) ∧
      ((fromWorkshop (redelivery ++ [lateFailure])).tables.journal.outbox.get?
        (startEvent 2)).map (·.deliveryStatus) = some .deadLetter ∧
      ((fromWorkshop (redelivery ++ [lateFailure])).tables.runs.get? (runOf 2)).map (·.state) =
        some .running := by
  simp only [Sample.fromWorkshop, platformStep_bytewise, Sample.platform_bytewise]
  decide +kernel

theorem Sample.redelivery_delivered : Delivered (startEvent 2) (fromWorkshop redelivery).tables := by
  obtain ⟨o, ho, hStatus⟩ := Option.map_eq_some_iff.mp redelivery_status.1
  exact ⟨o, ho, congrArg Prod.fst hStatus⟩

theorem delivered_stays_lateFailure :
    (∀ event ∈ Machine.trace (platformStep Sample.platform) (Sample.fromWorkshop Sample.redelivery)
      [Sample.lateFailure], Delivered (Sample.startEvent 2) event.after.tables) ↔
    ∀ event ∈ Machine.trace (platformStep Sample.platform) (Sample.fromWorkshop Sample.redelivery)
      [Sample.lateFailure], ¬GivesUp (Sample.startEvent 2) event :=
  delivered_stays_iff Sample.platform (Sample.fromWorkshop Sample.redelivery) [Sample.lateFailure]
    (Sample.startEvent 2) Sample.redelivery_delivered

/-- The event of a run that was started and acknowledged becomes a dead letter. -/
theorem delivered_event_given_up :
    Delivered (Sample.startEvent 2) (Sample.fromWorkshop Sample.redelivery).tables ∧
    ¬Delivered (Sample.startEvent 2)
      (Sample.fromWorkshop (Sample.redelivery ++ [Sample.lateFailure])).tables := by
  refine ⟨Sample.redelivery_delivered, ?_⟩
  rintro ⟨o, ho, hStatus⟩
  have hDead := Sample.redelivery_status.2.1
  rw [ho, Option.map_some, hStatus] at hDead
  cases hDead

end Masonwing
