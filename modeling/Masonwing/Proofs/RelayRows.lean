import Masonwing.Proofs.Announcements
import Masonwing.Proofs.GrantTree

/-!
# The rows between the transactions of the relay

The relay handles an event in separate transactions, so what one of them finds must still be true
in the next.

* `RunsWaiting`: a run open for dispatch is queued, under a workflow identity of its own;
* `Acknowledged`: the inbox and the delivered events only name runs whose dispatch is closed;
* `StartWithheld`: a run that was stopped, or whose grant was revoked, is never handed out again.
-/

namespace Masonwing

open Outcome Relation

variable {ι : Type}

/-! ## Rows -/

/-- The run was started or kept from starting. -/
def DispatchClosed (id : Uuid) (t : Tables) : Prop :=
  ∃ r, t.runs.get? id = some r ∧ r.dispatchState ≠ .pending

/-- A run that may still be dispatched is queued, and every run has its own workflow identity. -/
structure RunsWaiting (t : Tables) : Prop where
  queued : ∀ id r, t.runs.get? id = some r → r.dispatchState = .pending → r.state = .queued
  identity : ∀ id r, t.runs.get? id = some r → r.temporalWorkflowId = id.toText

/-- Events that the relay received or that are delivered are about runs whose dispatch is closed. -/
structure Acknowledged (t : Tables) : Prop where
  received : ∀ id, (relayConsumer, id) ∈ t.journal.inbox →
    ∃ o, t.journal.outbox.get? id = some o ∧ DispatchClosed o.aggregateId t
  delivered : ∀ id o, t.journal.outbox.get? id = some o → o.deliveryStatus = .delivered →
    DispatchClosed o.aggregateId t

section Rows

variable {p : Platform ι} {env : Env} {tick : Tick} {t t' : Tables} {a : PlatformAct}

/-- A step never opens the dispatch of a run again. -/
theorem RunStep.closed {id : Uuid} {r r' : RunRow} (h : RunStep t id r r' a)
    (hWaiting : r.dispatchState = .pending → r.state = .queued) :
    r'.dispatchState ≠ .pending := by
  cases h with
  | cancelled hStep => rw [hStep.dispatch]; decide
  | started hStep => rw [hStep.running.2]; decide
  | completed hStep =>
    rw [hStep.dispatch]
    intro hPending
    have hProgress := hStep.inProgress
    rw [hWaiting hPending] at hProgress
    cases hProgress
  | fenced hStep => rw [hStep.blocked.2]; decide
  | stopped hStep => rw [hStep.dispatch]; decide

theorem RunsWaiting.change (h : RunsWaiting t) (hChange : PlatformChange env tick t a t') :
    RunsWaiting t' := by
  refine ⟨fun id r hr hPending => ?_, fun id r hr => ?_⟩
  · cases hChange.run id with
    | same hSame => exact h.queued id r (hSame.symm.trans hr) hPending
    | created hNone hNew hAdmitted hId hAct =>
      cases hNew.symm.trans hr
      exact hAdmitted.waiting.1
    | moved hFound hNew hStep =>
      cases hNew.symm.trans hr
      exact absurd hPending (hStep.closed (h.queued id _ hFound))
  · cases hChange.run id with
    | same hSame => exact h.identity id r (hSame.symm.trans hr)
    | created hNone hNew hAdmitted hId hAct =>
      cases hNew.symm.trans hr
      rw [hAdmitted.identity, hId]
    | @moved q _ hFound hNew hStep =>
      cases hNew.symm.trans hr
      have hSame : r.temporalWorkflowId = q.temporalWorkflowId :=
        congrArg RunTerms.temporalWorkflowId hStep.moved.terms
      rw [hSame, h.identity id q hFound]

theorem PlatformChange.closed_kept (hChange : PlatformChange env tick t a t')
    (hWaiting : RunsWaiting t) {id : Uuid} (h : DispatchClosed id t) : DispatchClosed id t' := by
  obtain ⟨r, hr, hClosed⟩ := h
  cases hChange.run id with
  | same hSame => exact ⟨r, hSame.trans hr, hClosed⟩
  | created hNone hNew hAdmitted hId hAct => cases hNone.symm.trans hr
  | moved hFound hNew hStep => exact ⟨_, hNew, hStep.closed (hWaiting.queued id _ hFound)⟩

/-- Of a delivery that a worker reports it must be known that the dispatch of the run is closed;
what a claim marks as delivered was received before. -/
theorem Acknowledged.step (h : Acknowledged t) {op : PlatformOperation ι}
    (hOutcome : PlatformOutcome p tick t op t')
    (hClosed : ∀ id, DispatchClosed id t → DispatchClosed id t')
    (hReport : ∀ id, op = .core (.system (.markOutboxDelivered id)) →
      ∃ o, t.journal.outbox.get? id = some o ∧ DispatchClosed o.aggregateId t) :
    Acknowledged t' := by
  -- the row of an event about a run whose dispatch was closed before
  have hKept : ∀ id o, t.journal.outbox.get? id = some o → DispatchClosed o.aggregateId t →
      ∃ o', t'.journal.outbox.get? id = some o' ∧ DispatchClosed o'.aggregateId t' := by
    intro id o ho hDone
    obtain ⟨o', ho', hTopic⟩ := (hOutcome.outbox id).topic_kept ho
    have hAggregate : o'.aggregateId = o.aggregateId := congrArg Prod.fst hTopic
    exact ⟨o', ho', by rw [hAggregate]; exact hClosed _ hDone⟩
  refine ⟨fun id hMem => ?_, fun id o' ho' hStatus => ?_⟩
  · rcases hOutcome.inbox with hSame | ⟨k, hReported, hInbox⟩
    · rw [hSame] at hMem
      obtain ⟨o, ho, hDone⟩ := h.received id hMem
      exact hKept id o ho hDone
    · rcases (hInbox _).mp hMem with hMem | hNew
      · obtain ⟨o, ho, hDone⟩ := h.received id hMem
        exact hKept id o ho hDone
      · cases hNew
        obtain ⟨o, ho, hDone⟩ := hReport id hReported
        exact hKept id o ho hDone
  · have hOf : ∀ o, t.journal.outbox.get? id = some o → DispatchClosed o.aggregateId t →
        DispatchClosed o'.aggregateId t' := by
      intro o ho hDone
      obtain ⟨o₁, ho₁, hDone₁⟩ := hKept id o ho hDone
      cases ho₁.symm.trans ho'
      exact hDone₁
    cases hOutcome.outbox id with
    | same _ hRow =>
      rw [hRow] at ho'
      exact hOf o' ho' (h.delivered id o' ho' hStatus)
    | created _ hNone hRow hPending =>
      cases hRow.symm.trans ho'
      cases hPending.symm.trans hStatus
    | claimed limit leaseSeconds hFound hRow hClaimed =>
      cases hRow.symm.trans ho'
      have hNew := hClaimed.status
      split at hNew
      · rename_i hReceived
        obtain ⟨o, ho, hDone⟩ := h.received id hReceived
        exact hOf o ho hDone
      · exact hOf _ hFound (h.delivered id _ hFound (hNew.symm.trans hStatus))
    | delivered hFound hRow hTopic hNew =>
      obtain ⟨o, ho, hDone⟩ := hReport id rfl
      exact hOf o ho hDone
    | failed maxAttempts hFound hRow hTopic hNew =>
      cases hRow.symm.trans ho'
      split at hNew
      · cases hNew.symm.trans hStatus
      · exact hOf _ hFound (h.delivered id _ hFound (hNew.symm.trans hStatus))

end Rows

/-! ## What a worker is answered -/

/-- The run was stopped, or the grant that it is bound to was revoked. -/
def StartWithheld (id : Uuid) (t : Tables) : Prop :=
  ∃ r, t.runs.get? id = some r ∧
    (r.halted = true ∨ ∃ d, t.delegations.get? r.grantId = some d ∧ d.state = .revoked)

section Answers

variable {env : Env} {tick : Tick} {t t' : Tables} {id : Uuid}

/-- A run is handed out as it is stored, if it waits and no check refuses it. -/
theorem verifyAndClaimRun_some {run : DispatchableRun}
    (h : verifyAndClaimRun env tick t id = .ok (t', some run)) :
    ∃ r, t.runs.get? id = some r ∧ (r.state = .queued ∧ r.dispatchState = .pending) ∧
      dispatchRefusal env tick t r = none ∧ run = dispatchableRun id r := by
  simp only [verifyAndClaimRun, bind_eq_ok, beginSystem_eq_ok, exists_const] at h
  obtain ⟨-, h⟩ := h
  split at h
  · cases h
  · rename_i r hr
    split at h
    · rename_i hWaiting
      unfold claimRun at h
      split at h
      · simp only [bind_eq_ok, pure_eq_ok, Prod.mk.injEq] at h
        obtain ⟨_, -, -, hNone⟩ := h
        cases hNone
      · rename_i hPasses
        cases h
        exact ⟨r, hr, hWaiting, hPasses, rfl⟩
    · cases h

/-- A stored run that is not handed out does not wait any more. -/
theorem verifyAndClaimRun_none {r : RunRow} (h : verifyAndClaimRun env tick t id = .ok (t', none))
    (hr : t.runs.get? id = some r) :
    ∃ r', t'.runs.get? id = some r' ∧ ¬(r'.state = .queued ∧ r'.dispatchState = .pending) := by
  simp only [verifyAndClaimRun, bind_eq_ok, beginSystem_eq_ok, exists_const, hr] at h
  obtain ⟨-, h⟩ := h
  split at h
  · unfold claimRun at h
    split at h
    · simp only [fenceRunBlocked, bind_eq_ok, pure_eq_ok, Prod.mk.injEq] at h
      obtain ⟨_, ⟨fence, -, version, -, rfl⟩, rfl, -⟩ := h
      refine ⟨_, Table.get?_set_self hr _, fun hWaiting => ?_⟩
      cases hWaiting.1
    · cases h
  · rename_i hIdle
    cases h
    exact ⟨r, hr, hIdle⟩

/-- The check of the grant is the last of the relay's checks. -/
theorem grantRefusal_of_dispatchRefusal {r : RunRow} (h : dispatchRefusal env tick t r = none) :
    grantRefusal tick t r = none := by
  unfold dispatchRefusal at h
  split at h
  · cases h
  · split at h
    · cases h
    · split at h
      · cases h
      · split at h
        · cases h
        · split at h
          · cases h
          · exact h

theorem StartWithheld.not_handed_out (h : StartWithheld id t) {run : DispatchableRun} :
    verifyAndClaimRun env tick t id ≠ .ok (t', some run) := by
  intro hClaimed
  obtain ⟨r, hr, hWaiting, hPasses, -⟩ := verifyAndClaimRun_some hClaimed
  obtain ⟨q, hq, hStopped⟩ := h
  cases hq.symm.trans hr
  rcases hStopped with hHalted | ⟨d, hd, hRevoked⟩
  · rw [RunRow.halted, hWaiting.1, hWaiting.2] at hHalted
    cases hHalted
  · have hGrant := grantRefusal_of_dispatchRefusal hPasses
    rw [grantRefusal, hd] at hGrant
    dsimp only at hGrant
    rw [DelegationRow.current, hRevoked] at hGrant
    cases hGrant

end Answers

/-! ## The rows along a run -/

/-- What holds of the rows between the transactions of the relay. -/
structure RelayRows (t : Tables) : Prop where
  tree : GrantTree t.delegations
  bound : RunsBound t
  halting : Halting t
  waiting : RunsWaiting t
  announced : EventsWithin "run.start" .run t

/-- A tenant on which nothing was delegated or started yet. -/
structure Untouched (t : Tables) : Prop where
  runs : ∀ id, t.runs.get? id = none
  delegations : ∀ id, t.delegations.get? id = none
  outbox : ∀ id, t.journal.outbox.get? id = none
  inbox : t.journal.inbox = []

section Platform

variable {p : Platform ι} {s : Store} {c : PlatformCall ι} {id : Uuid}

theorem Untouched.rows {t : Tables} (h : Untouched t) : RelayRows t :=
  { tree := GrantTree.empty h.delegations
    bound := fun id r hr => (by cases (h.runs id).symm.trans hr)
    halting := Halting.empty h.runs
    waiting := ⟨fun id r hr => (by cases (h.runs id).symm.trans hr),
      fun id r hr => (by cases (h.runs id).symm.trans hr)⟩
    announced := fun id o ho => (by cases (h.outbox id).symm.trans ho) }

theorem Untouched.acknowledged {t : Tables} (h : Untouched t) : Acknowledged t := by
  refine ⟨fun id hMem => ?_, fun id o ho => ?_⟩
  · rw [h.inbox] at hMem
    cases hMem
  · cases (h.outbox id).symm.trans ho

theorem RelayRows.step (h : RelayRows s.tables) : RelayRows (platformStep p s c).1.tables := by
  have hAnnounced : EventsWithin "run.start" .run (platformStep p s c).1.tables :=
    h.announced.step eventOf_runStart
  rcases platformStep_change p s c with ⟨-, hSame⟩ | ⟨a, -, hChange⟩
  · rw [hSame]
    exact h
  · exact ⟨h.tree.change hChange, h.bound.change h.tree hChange, h.halting.change hChange,
      h.waiting.change hChange, hAnnounced⟩

theorem DispatchClosed.step (hRows : RelayRows s.tables) (h : DispatchClosed id s.tables) :
    DispatchClosed id (platformStep p s c).1.tables := by
  rcases platformStep_change p s c with ⟨-, hSame⟩ | ⟨a, -, hChange⟩
  · rw [hSame]
    exact h
  · exact hChange.closed_kept hRows.waiting h

theorem StartWithheld.step (hRows : RelayRows s.tables) (h : StartWithheld id s.tables) :
    StartWithheld id (platformStep p s c).1.tables := by
  rcases platformStep_change p s c with ⟨-, hSame⟩ | ⟨a, -, hChange⟩
  · rw [hSame]
    exact h
  · obtain ⟨r, hr, hStopped⟩ := h
    rcases hStopped with hHalted | hRevoked
    · obtain ⟨r', hr', hHalted', -⟩ := hChange.halted_kept hRows.halting hr hHalted
      exact ⟨r', hr', Or.inl hHalted'⟩
    · obtain ⟨r', hr', hTerms, -⟩ := hChange.run_kept hr
      have hGrant : r'.grantId = r.grantId := congrArg RunTerms.grantId hTerms
      refine ⟨r', hr', Or.inr ?_⟩
      rw [hGrant]
      exact hChange.revoked_kept hRevoked

/-- The event cancels the run, revokes its build, fences it, or revokes its grant or one above
that. -/
def WithdrawsRun (env : Env) (id : Uuid) (event : PlatformEvent ι) : Prop :=
  StopsRun env id event ∨
    ∃ r g, event.before.tables.runs.get? id = some r ∧
      Ancestor event.before.tables.delegations r.grantId g ∧
      PlatformEvent.did event (.core (.revokeGrant g))

/-- A revocation above a grant leaves it revoked. -/
theorem GrantTree.revoked_of_ancestor {env : Env} {tick : Tick} {t t' : Tables} {g k : Uuid}
    (h : GrantTree t.delegations)
    (hChange : PlatformChange env tick t (.core (.revokeGrant g)) t')
    (hBelow : Ancestor t.delegations k g) (hStored : ∃ d, t.delegations.get? k = some d) :
    ∃ d, t'.delegations.get? k = some d ∧ d.state = .revoked := by
  obtain ⟨d', hd'⟩ := hChange.grant_stored hStored
  refine ⟨d', hd', ?_⟩
  cases hChange with
  | core hCore =>
    cases hCore with
    | grantRevoked j hFound hActive hIds hRevoked =>
      obtain ⟨d, hd, ⟨-, -, hStep⟩ | ⟨hOutside, rfl⟩⟩ := GrantTree.revoked_rows hIds hRevoked hd'
      · obtain ⟨version, -, rfl⟩ := revokeRow_ok hStep
        rfl
      · rcases h.staged k d' hd with ⟨hState, -⟩ | ⟨hState, -⟩
        · exact absurd ⟨hState, hBelow⟩ hOutside
        · exact hState

theorem WithdrawsRun.withheld (hRows : RelayRows s.tables)
    (h : WithdrawsRun p.env id (Machine.eventAt (platformStep p) s c)) :
    StartWithheld id (platformStep p s c).1.tables := by
  rcases h with hStops | ⟨r, g, hr, hBelow, hDid⟩
  · obtain ⟨r, hr, hHalted⟩ := hStops.halted
    exact ⟨r, hr, Or.inl hHalted⟩
  · have hChange := platformChange_of_did hDid
    obtain ⟨r', hr', hTerms, -⟩ := hChange.run_kept hr
    have hGrant : r'.grantId = r.grantId := congrArg RunTerms.grantId hTerms
    refine ⟨r', hr', Or.inr ?_⟩
    rw [hGrant]
    exact hRows.tree.revoked_of_ancestor hChange hBelow (hRows.bound id r hr).2

end Platform

end Masonwing
