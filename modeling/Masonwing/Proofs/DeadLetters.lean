import Masonwing.Proofs.HostShows
import Masonwing.Proofs.ConnectionRevocation
import Masonwing.Proofs.Delivery
import Masonwing.Proofs.Evaluation

/-!
# Replaying dead letters

A replay sets a dead letter back to pending and records a projection and an announcement under the
identifier of the event, in version 1. What is recorded stays, so the same event is never replayed
again; and the attempts stay counted, so the next failure is measured against those of before.

* `replayDeadletter_iff`: a replay commits exactly if it is the first one of its event;
* `deadletter_replay`: with what a further failed delivery does, and what stands in the way of a
  second replay in all later states.
-/

namespace Masonwing

open Outcome

variable {ι ν ε : Type}

/-! ## Commands of the host -/

/-- A well-formed command of an actor with current epochs, under a key that was not used before. -/
structure HostPresented (h : Host ι ν ε) (s : Store) (c : Command (HostInput ε)) : Prop where
  valid : h.inputValid c.input = true
  fingerprint : h.fingerprint c.input = some c.fingerprint
  actor : beginActor s.tables c.actor = .ok ()
  unused : ∀ principal, s.receipts.get? (receiptKey h.service c principal) = none

section Admission

variable {h : Host ι ν ε} {tick : Tick} {s : Store} {c : Command (HostInput ε)}

/-- A presented command on the tenant as a whole is admitted by a permissive policy. -/
theorem HostPresented.admitted (hPresented : HostPresented h s c)
    (hPolicy : Permissive h.env s.tables)
    (hTenant : h.resource s.tables c.input = .ok (tenantResource s.tables)) :
    ∃ principal, admitCommand h.service s c = .ok principal := by
  obtain ⟨policy, hRead, hPermits⟩ := hPolicy.readPolicy hPresented.actor
  obtain ⟨-, principal, -, -, hPrincipal, -⟩ := beginActor_ok hPresented.actor
  have hAuthorized : h.authorize s.tables c = .ok () := by
    simp only [Host.authorize, bind_eq_ok, require_eq_ok]
    exact ⟨policy, hRead, _, hTenant, hPermits _ _ _ _⟩
  refine ⟨principal, ?_⟩
  simp only [admitCommand, bind_eq_ok, require_eq_ok, okOr_eq_ok, exists_const]
  exact ⟨hPresented.valid, _, hPresented.fingerprint, rfl, (), hPresented.actor, (), hAuthorized,
    hPrincipal⟩

theorem HostPresented.receipt_none (hPresented : HostPresented h s c) (principal : Uuid) :
    liveReceipt tick s (receiptKey h.service c principal) = none := by
  rw [liveReceipt, hPresented.unused principal]
  rfl

/-- A command of the host answers what it commits. -/
theorem hostStep_command_iff {t t' : HostState} {receipt : CommandReceipt} :
    hostStep h t ⟨tick, .command c⟩ = (t', .ok (.answer (.committed receipt))) ↔
      execute h.env h.service tick t.store c = .ok (t'.store, .committed receipt) ∧
        t'.attempts = t.attempts := by
  rw [hostStep]
  dsimp only [runHostOperation]
  cases hRun : execute h.env h.service tick t.store c with
  | error failure =>
    change (t, Except.error failure) = _ ↔ _
    simp
  | ok result =>
    obtain ⟨store, a⟩ := result
    change (({ t with store } : HostState), Except.ok (HostReply.answer a)) = _ ↔ _
    obtain ⟨store', attempts'⟩ := t'
    simp only [Prod.mk.injEq, HostState.mk.injEq, Except.ok.injEq, HostReply.answer.injEq]
    rw [and_right_comm, eq_comm (a := attempts')]

end Admission

/-! ## A replay -/

/-- What a replay records. -/
def replayChange (id : Uuid) (reason : String) : ProjectionChange :=
  { resource := resourceRef "DeadletterReplay" id .one
    value := .obj [("event_id", .str id.toText), ("reason", .str reason), ("version", .num 1)]
    label := "Replay " ++ id.toText
    sourceArtifacts := [] }

/-- No replay of the event is recorded. -/
def NeverReplayed (j : Journal) (id : Uuid) : Prop :=
  Unrecorded j "deadletter.replay" "DeadletterReplay" id .one

theorem sourcesStored_replay {actor : CommandActor} {j : Journal} (id : Uuid) (reason : String) :
    SourcesStored actor j (replayChange id reason) := by
  have hNone : projectionSources (replayChange id reason).value = [] := by
    rw [replayChange, projectionSources_obj (by decide)]
    simp [projectionSourcesOfFields]
  refine ⟨fun source hSource => ?_, fun _ hAdded => (by cases hAdded)⟩
  rw [hNone] at hSource
  cases hSource

/-- The journal with the event set back to pending. -/
def Journal.replayed (j : Journal) (id : Uuid) (o : OutboxRow) : Journal :=
  { j with outbox := j.outbox.set id { o with deliveryStatus := .pending, leaseExpiresAt := none } }

section Replay

variable {j : Journal} {id : Uuid} {o : OutboxRow}

theorem neverReplayed_replayed (ho : j.outbox.get? id = some o) (event : Uuid) :
    NeverReplayed (j.replayed id o) event ↔ NeverReplayed j event := by
  have hRows : ∀ k, (j.replayed id o).outbox.get? k = if k = id then
      some { o with deliveryStatus := .pending, leaseExpiresAt := none } else j.outbox.get? k := by
    intro k
    split
    · rename_i hk
      subst hk
      exact Table.get?_set_self ho _
    · rename_i hk
      exact Table.get?_set_ne _ hk _
  constructor
  · rintro ⟨hShown, hAnnounced⟩
    refine ⟨hShown, fun k q hq => ?_⟩
    by_cases hk : k = id
    · subst hk
      cases hq.symm.trans ho
      refine hAnnounced k { o with deliveryStatus := .pending, leaseExpiresAt := none } ?_
      rw [hRows, if_pos rfl]
    · exact hAnnounced k q (by rw [hRows, if_neg hk]; exact hq)
  · rintro ⟨hShown, hAnnounced⟩
    refine ⟨hShown, fun k q hq => ?_⟩
    rw [hRows] at hq
    split at hq
    · cases hq
      exact hAnnounced id o ho
    · exact hAnnounced k q hq

theorem freshRecord_replayed {tick : Tick} (ho : j.outbox.get? id = some o)
    (hFresh : FreshRecord tick j) : FreshRecord tick (j.replayed id o) :=
  ⟨hFresh.artifact, hFresh.stored, hFresh.audit, set_none ho _ hFresh.outbox⟩

/-- A dead letter can be set back. -/
theorem replayDeadletter_succeeds {t : Tables} {eventId reason : String}
    (hId : Uuid.parse eventId = some id) (ho : t.journal.outbox.get? id = some o)
    (hDead : o.deliveryStatus = .deadLetter) :
    ∃ m, replayDeadletter t eventId reason =
        .ok ({ t with journal := t.journal.replayed id o }, m) ∧
      m.changes = [replayChange id reason] ∧ m.accepted = false := by
  have hFound : (t.journal.outbox.get? id).filter
      (fun o => decide (o.deliveryStatus = .deadLetter)) = some o :=
    Option.filter_eq_some_iff.mpr ⟨ho, decide_eq_true hDead⟩
  refine ⟨.one "DeadletterReplay" id .one (replayChange id reason).value
    (replayChange id reason).label, ?_, rfl, rfl⟩
  simp only [replayDeadletter, bind_eq_ok, okOr_eq_ok, parseUuid_eq_ok, pure_eq_ok]
  exact ⟨id, hId, o, hFound, rfl⟩

end Replay

section Commit

variable {h : Host ι ν ε} {tick : Tick} {t : HostState} {c : Command (HostInput ε)}
  {eventId reason : String} {id : Uuid} {o : OutboxRow}

/-- What a committed replay did. -/
theorem replay_committed {t' : HostState} {receipt : CommandReceipt}
    (hInput : c.input = .deadletterReplay eventId reason) (hId : Uuid.parse eventId = some id)
    (hStep : hostStep h t ⟨tick, .command c⟩ = (t', .ok (.answer (.committed receipt)))) :
    ∃ o, t.store.tables.journal.outbox.get? id = some o ∧ o.deliveryStatus = .deadLetter ∧
      recordChanges h.env tick c.actor "deadletter.replay" 0
        (t.store.tables.journal.replayed id o) [replayChange id reason] =
          .ok t'.store.tables.journal := by
  obtain ⟨hExecute, -⟩ := hostStep_command_iff.mp hStep
  obtain ⟨principal, -, ⟨row, -, -, -, hAnswer⟩ | ⟨-, tables, m, receipt', hCommitted, -⟩⟩ :=
    execute_ok hExecute
  · cases hAnswer
  have hHandled : h.dispatch tick t.store.tables c = .ok (tables, m) := hCommitted.handled
  have hRecorded : recordChanges h.env tick c.actor (h.operation c.input) 0 tables.journal
      m.changes = .ok t'.store.tables.journal := hCommitted.recorded
  rw [Host.dispatch, hInput] at hHandled
  obtain ⟨event, o, hEvent, ho, hDead, rfl, rfl⟩ := replayDeadletter_ok hHandled
  cases hId.symm.trans hEvent
  rw [hInput] at hRecorded
  exact ⟨o, ho, hDead, hRecorded⟩

/-- A replay commits exactly if it is the first one of its event; the event is pending then. -/
theorem replayDeadletter_iff (hInput : c.input = .deadletterReplay eventId reason)
    (hId : Uuid.parse eventId = some id) (ho : t.store.tables.journal.outbox.get? id = some o)
    (hDead : o.deliveryStatus = .deadLetter) (hPresented : HostPresented h t.store c)
    (hPolicy : Permissive h.env t.store.tables) (hFresh : FreshRecord tick t.store.tables.journal)
    (hPersistable : Persistable h.env tick (replayChange id reason))
    (hReceipt : ∀ receipt, h.env.receiptValid receipt = true) :
    (∃ t' receipt, hostStep h t ⟨tick, .command c⟩ = (t', .ok (.answer (.committed receipt))) ∧
      (t'.store.tables.journal.outbox.get? id).map (·.deliveryStatus) = some .pending) ↔
      NeverReplayed t.store.tables.journal id := by
  obtain ⟨-, principal, -, -, hPrincipal, -⟩ := beginActor_ok hPresented.actor
  have hResource : (replayChange id reason).resource = resourceRef "DeadletterReplay" id .one := rfl
  have hRecords : (∃ j, recordChanges h.env tick c.actor "deadletter.replay" 0
      (t.store.tables.journal.replayed id o) [replayChange id reason] = .ok j) ↔
        NeverReplayed t.store.tables.journal id := by
    rw [← neverReplayed_replayed ho id, recordOne_succeeds_iff hResource
      (freshRecord_replayed ho hFresh) hPersistable hPrincipal]
    exact and_iff_right (sourcesStored_replay id reason)
  constructor
  · rintro ⟨t', receipt, hStep, -⟩
    obtain ⟨o', ho', -, hRecorded⟩ := replay_committed hInput hId hStep
    cases ho'.symm.trans ho
    exact hRecords.mp ⟨_, hRecorded⟩
  · intro hNever
    obtain ⟨j, hRecorded⟩ := hRecords.mpr hNever
    obtain ⟨m, hHandled, hChanges, hAccepted⟩ : ∃ m,
        replayDeadletter t.store.tables eventId reason =
          .ok ({ t.store.tables with journal := t.store.tables.journal.replayed id o }, m) ∧
        m.changes = [replayChange id reason] ∧ m.accepted = false :=
      replayDeadletter_succeeds hId ho hDead
    obtain ⟨principal', hAdmit⟩ := hPresented.admitted hPolicy (by rw [hInput]; rfl)
    have hHandle : h.service.handle tick t.store.tables c =
        .ok ({ t.store.tables with journal := t.store.tables.journal.replayed id o }, m) := by
      change h.dispatch tick t.store.tables c = _
      rw [Host.dispatch, hInput]
      exact hHandled
    have hRecord : recordChanges h.env tick c.actor (h.service.operation c.input) 0
        (t.store.tables.journal.replayed id o) m.changes = .ok j := by
      rw [hChanges, hInput]
      exact hRecorded
    have hLength : 1 ≤ (receiptKey h.service c principal').operation.toList.length ∧
        (receiptKey h.service c principal').operation.toList.length ≤ 128 := by
      rw [receiptKey, hInput]
      change 1 ≤ "deadletter.replay".toList.length ∧ "deadletter.replay".toList.length ≤ 128
      decide
    have hRun : m.accepted = true → m.runId ≠ none := by
      rw [hAccepted]
      exact fun hNot => by cases hNot
    obtain ⟨s', hCommit, hTables⟩ := commitCommand_of_recorded hLength hHandle hRun hRecord
      (hReceipt (commandReceipt tick m))
    rw [← execute_new hAdmit (hPresented.receipt_none principal')] at hCommit
    refine ⟨⟨s', t.attempts⟩, commandReceipt tick m, hostStep_command_iff.mpr ⟨hCommit, rfl⟩, ?_⟩
    have hRow : s'.tables.journal.outbox.get? id =
        some { o with deliveryStatus := .pending, leaseExpiresAt := none } := by
      rw [hTables]
      exact (recordChanges_appended hRecorded).outbox_kept _ _ (Table.get?_set_self ho _)
    rw [hRow]
    rfl

end Commit

/-! ## The next delivery -/

/-- The journal with some events handed out: each of them counts one attempt more. -/
structure HandedOut (j j' : Journal) (items : List OutboxDispatchItem) : Prop where
  inbox : j'.inbox = j.inbox
  kept : ∀ id o, j.outbox.get? id = some o → ∃ o', j'.outbox.get? id = some o'
  items : ∀ item ∈ items, (relayConsumer, item.eventId) ∉ j.inbox ∧ ∃ o o',
    j.outbox.get? item.eventId = some o ∧ j'.outbox.get? item.eventId = some o' ∧
    o'.deliveryAttempts = o.deliveryAttempts + 1 ∧ o'.deliveryStatus = o.deliveryStatus

theorem HandedOut.step {tick : Tick} {leaseSeconds : Int} {j : Journal}
    {claimed claimed' : Journal × List OutboxDispatchItem} {event : Uuid × OutboxRow}
    (hOld : HandedOut j claimed.1 claimed.2) (hEvent : j.outbox.get? event.1 = some event.2)
    (h : claimEvent tick leaseSeconds claimed event = .ok claimed') :
    HandedOut j claimed'.1 claimed'.2 := by
  obtain ⟨j₁, items⟩ := claimed
  obtain ⟨id, o⟩ := event
  have hKept : ∀ o', ∀ k q, j.outbox.get? k = some q →
      ∃ q', (j₁.outbox.set id o').get? k = some q' := by
    intro o' k q hq
    obtain ⟨q', hq'⟩ := hOld.kept k q hq
    by_cases hk : k = id
    · subst hk
      exact ⟨o', Table.get?_set_self hq' o'⟩
    · exact ⟨q', (Table.get?_set_ne _ hk o').trans hq'⟩
  obtain ⟨o₁, ho₁⟩ := hOld.kept id o hEvent
  unfold claimEvent at h
  dsimp only at h
  split at h
  · rename_i hReceived
    cases h
    refine ⟨hOld.inbox, hKept _, fun item hItem => ?_⟩
    obtain ⟨hNew, q, q', hq, hq', hCounted⟩ := hOld.items item hItem
    refine ⟨hNew, q, q', hq, ?_, hCounted⟩
    have hOther : item.eventId ≠ id := by
      intro hSame
      rw [hSame, ← hOld.inbox] at hNew
      exact hNew hReceived
    exact (Table.get?_set_ne _ hOther _).trans hq'
  · rename_i hNotReceived
    have hNew : (relayConsumer, id) ∉ j.inbox := by
      rw [← hOld.inbox]
      exact hNotReceived
    simp only [bind_eq_ok, pure_eq_ok, sql_eq_ok, integer_eq_ok] at h
    obtain ⟨_, ⟨-, rfl⟩, rfl⟩ := h
    refine ⟨hOld.inbox, hKept _, fun item hItem => ?_⟩
    by_cases hSame : item.eventId = id
    · rw [hSame]
      exact ⟨hNew, o, _, hEvent, Table.get?_set_self ho₁ _, rfl, rfl⟩
    · rcases List.mem_append.mp hItem with hItem | hItem
      · obtain ⟨hNew, q, q', hq, hq', hCounted⟩ := hOld.items item hItem
        exact ⟨hNew, q, q', hq, (Table.get?_set_ne _ hSame _).trans hq', hCounted⟩
      · rw [List.mem_singleton] at hItem
        rw [hItem] at hSame
        exact absurd rfl hSame

theorem claimPendingOutbox_handed {tick : Tick} {t t' : Tables} {limit leaseSeconds : Int}
    {items : List OutboxDispatchItem}
    (h : claimPendingOutbox tick t limit leaseSeconds = .ok (t', items)) :
    HandedOut t.journal t'.journal items := by
  simp only [claimPendingOutbox, bind_eq_ok, beginSystem_eq_ok, require_eq_ok, pure_eq_ok,
    Prod.exists, Prod.mk.injEq, exists_const] at h
  obtain ⟨-, -, j, items', hFold, rfl, rfl⟩ := h
  refine foldlM_invariant (I := fun c => HandedOut t.journal c.1 c.2)
    (fun event hMem claimed claimed' hOld hEvent => ?_)
    ⟨rfl, fun _ o ho => ⟨o, ho⟩, fun item hItem => (by cases hItem)⟩ hFold
  exact hOld.step (Table.mem_select.mp (List.mem_of_mem_take hMem)).1 hEvent

/-- A system call of the host. -/
theorem hostStep_system_ok {h : Host ι ν ε} {tick : Tick} {t t' : HostState} {call : SystemCall}
    {reply : HostReply}
    (hStep : hostStep h t ⟨tick, .platform (.core (.system call))⟩ = (t', .ok reply)) :
    ∃ r, runSystemCall h.env tick t.store.tables call = .ok (t'.store.tables, r) ∧
      reply = .platform (.core r) := by
  rw [hostStep] at hStep
  dsimp only [runHostOperation, runPlatformOperation, runOperation] at hStep
  cases hRun : runSystemCall h.platform.env tick t.store.tables call with
  | error failure =>
    rw [hRun] at hStep
    cases hStep
  | ok result =>
    obtain ⟨tables, r⟩ := result
    rw [hRun] at hStep
    cases hStep
    exact ⟨r, hRun, rfl⟩

/-- After an event with `attempts` deliveries was handed out once more, a failure puts it away
unless the limit is above all of them. -/
theorem next_failure {h : Host ι ν ε} {tick₁ tick₂ : Tick} {t t₁ t₂ : HostState} {id : Uuid}
    {o : OutboxRow} {limit leaseSeconds maxAttempts : Int} {items : List OutboxDispatchItem}
    {reply : HostReply} (ho : t.store.tables.journal.outbox.get? id = some o)
    (hPending : o.deliveryStatus = .pending)
    (hClaim : hostStep h t ⟨tick₁, .platform (.core (.system
      (.claimPendingOutbox limit leaseSeconds)))⟩ = (t₁, .ok (.platform (.core (.events items)))))
    (hHanded : ∃ item ∈ items, item.eventId = id)
    (hFail : hostStep h t₁ ⟨tick₂, .platform (.core (.system
      (.markOutboxFailed id maxAttempts)))⟩ = (t₂, .ok reply)) :
    (t₂.store.tables.journal.outbox.get? id).map (·.deliveryStatus) ≠ some .deadLetter ↔
      o.deliveryAttempts + 1 < maxAttempts := by
  obtain ⟨r, hRun, hReply⟩ := hostStep_system_ok hClaim
  simp only [runSystemCall, bind_eq_ok, pure_eq_ok, Prod.exists, Prod.mk.injEq] at hRun
  obtain ⟨tables, items', hClaimed, hTables, rfl⟩ := hRun
  cases hReply
  obtain ⟨item, hItem, rfl⟩ := hHanded
  have hRow := (claimPendingOutbox_handed hClaimed).items item hItem
  rw [hTables] at hRow
  obtain ⟨-, q, o', hq, ho', hAttempts, hStatus⟩ := hRow
  cases ho.symm.trans hq
  obtain ⟨r', hFailed, -⟩ := hostStep_system_ok hFail
  obtain ⟨p, p', hp, -, hPutAway, hAfter⟩ := markOutboxFailed_rows (withDone_ok hFailed)
  cases ho'.symm.trans hp
  have hEnd : t₂.store.tables.journal.outbox.get? item.eventId = some p' := by
    rw [hAfter]
    exact Table.get?_set_self hp p'
  rw [hEnd, Option.map_some, hPutAway, hAttempts, hStatus, hPending]
  split
  · simp only [ne_eq, not_true_eq_false, false_iff]
    omega
  · simp only [ne_eq, Option.some.injEq, reduceCtorEq, not_false_eq_true, true_iff]
    omega

/-! ## Later replays -/

/-- What was shown stays. -/
theorem hostStep_shown {h : Host ι ν ε} {s : HostState} {c : HostCall ι ε} {k : ProjectionKey}
    {p : ProjectionRow} (hp : s.store.tables.journal.projections.get? k = some p) :
    (hostStep h s c).1.store.tables.journal.projections.get? k = some p := by
  refine hostStep_keeps (I := fun j => j.projections.get? k = some p) (fun act j _ hMove hOld => ?_)
    (fun act j changes _ _ _ i j₁ j₂ change _ hWritten hOld => ?_) hp
  · rw [hMove.projections]
    exact hOld
  · obtain ⟨q, hInsert, -⟩ := hWritten.projection
    exact Table.insert?_get?_of_some hInsert hOld

/-- After a replay of an event was committed none ever is again. -/
theorem not_replayed_again {h : Host ι ν ε} {t t₁ : HostState} {tick : Tick}
    {c : Command (HostInput ε)} {eventId reason : String} {id : Uuid} {receipt : CommandReceipt}
    (hInput : c.input = .deadletterReplay eventId reason) (hId : Uuid.parse eventId = some id)
    (hStep : hostStep h t ⟨tick, .command c⟩ = (t₁, .ok (.answer (.committed receipt))))
    (calls : List (HostCall ι ε)) {tick' : Tick} {c' : Command (HostInput ε)}
    {eventId' reason' : String} (hInput' : c'.input = .deadletterReplay eventId' reason')
    (hId' : Uuid.parse eventId' = some id) (t' : HostState) (receipt' : CommandReceipt) :
    hostStep h (Machine.run (hostStep h) t₁ calls) ⟨tick', .command c'⟩ ≠
      (t', .ok (.answer (.committed receipt'))) := by
  intro hAgain
  obtain ⟨o, -, -, hRecorded⟩ := replay_committed hInput hId hStep
  obtain ⟨p, hp, -⟩ := (recordChanges_ok hRecorded).written _ List.mem_cons_self
  have hStays := Machine.run_invariant (hostStep h)
    (I := fun s => s.store.tables.journal.projections.get?
      (projectionKey (replayChange id reason).resource) = some p)
    (fun s c hOld => hostStep_shown hOld) hp calls
  obtain ⟨o', -, -, hRecorded'⟩ := replay_committed hInput' hId' hAgain
  have hFree := (recordChanges_ok hRecorded').fresh _ List.mem_cons_self
  cases hFree.symm.trans hStays

/-- A replay of a dead letter commits exactly if it is the first one of its event, and no later one
does; a failure of the next delivery puts the event away at once unless the limit is above all
deliveries, those before the replay included. -/
theorem deadletter_replay (h : Host ι ν ε) {t : HostState} {tick : Tick} {c : Command (HostInput ε)}
    {eventId reason : String} {id : Uuid} {o : OutboxRow}
    (hInput : c.input = .deadletterReplay eventId reason) (hId : Uuid.parse eventId = some id)
    (ho : t.store.tables.journal.outbox.get? id = some o) (hDead : o.deliveryStatus = .deadLetter)
    (hPresented : HostPresented h t.store c) (hPolicy : Permissive h.env t.store.tables)
    (hFresh : FreshRecord tick t.store.tables.journal)
    (hPersistable : Persistable h.env tick (replayChange id reason))
    (hReceipt : ∀ receipt, h.env.receiptValid receipt = true) :
    ((∃ t₁ receipt, hostStep h t ⟨tick, .command c⟩ = (t₁, .ok (.answer (.committed receipt))) ∧
      (t₁.store.tables.journal.outbox.get? id).map (·.deliveryStatus) = some .pending) ↔
        NeverReplayed t.store.tables.journal id) ∧
    ∀ t₁ receipt, hostStep h t ⟨tick, .command c⟩ = (t₁, .ok (.answer (.committed receipt))) →
      (∀ calls tick' c' eventId' reason' t' receipt', c'.input = .deadletterReplay eventId' reason' →
        Uuid.parse eventId' = some id →
          hostStep h (Machine.run (hostStep h) t₁ calls) ⟨tick', .command c'⟩ ≠
            (t', .ok (.answer (.committed receipt')))) ∧
      ∀ tick₁ tick₂ limit leaseSeconds maxAttempts items t₂ t₃ reply,
        hostStep h t₁ ⟨tick₁, .platform (.core (.system (.claimPendingOutbox limit leaseSeconds)))⟩ =
          (t₂, .ok (.platform (.core (.events items)))) → (∃ item ∈ items, item.eventId = id) →
        hostStep h t₂ ⟨tick₂, .platform (.core (.system (.markOutboxFailed id maxAttempts)))⟩ =
          (t₃, .ok reply) →
        ((t₃.store.tables.journal.outbox.get? id).map (·.deliveryStatus) ≠ some .deadLetter ↔
          o.deliveryAttempts + 1 < maxAttempts) := by
  refine ⟨replayDeadletter_iff hInput hId ho hDead hPresented hPolicy hFresh hPersistable hReceipt,
    fun t₁ receipt hStep => ⟨?_, ?_⟩⟩
  · intro calls tick' c' eventId' reason' t' receipt' hInput' hId'
    exact not_replayed_again hInput hId hStep calls hInput' hId' t' receipt'
  · intro tick₁ tick₂ limit leaseSeconds maxAttempts items t₂ t₃ reply hClaim hHanded hFail
    obtain ⟨o', ho', -, hRecorded⟩ := replay_committed hInput hId hStep
    cases ho'.symm.trans ho
    have hRow := (recordChanges_appended hRecorded).outbox_kept id _ (Table.get?_set_self ho
      { o with deliveryStatus := .pending, leaseExpiresAt := none })
    have hPending : ({ o with deliveryStatus := .pending, leaseExpiresAt := none } :
        OutboxRow).deliveryStatus = .pending := rfl
    have hNext := next_failure hRow hPending hClaim hHanded hFail
    exact hNext

/-! ## A run that is never started -/

namespace Sample

def claimEvents (n : Nat) : HostCall Empty Empty :=
  onPlatform (coreSystem n (.claimPendingOutbox 16 1))

/-- The delivery of the first event failed, with a limit of one attempt. -/
def failStart (n : Nat) : HostCall Empty Empty :=
  onPlatform (coreSystem n (.markOutboxFailed (startEvent 1) 1))

def replayCommand (n : Nat) : Command (HostInput Empty) :=
  { actor, input := .deadletterReplay (startEvent 1).toText "again"
    idempotencyKey := (uuid n).toId, fingerprint := digest [] }

def replayStart (n : Nat) : HostCall Empty Empty := ⟨reading n, .command (replayCommand n)⟩

/-- A run is admitted and the delivery of its event fails. -/
abbrev undelivered : List (HostCall Empty Empty) := [officeStart, claimEvents 2, failStart 3]

end Sample

/-- The replayed event is put away by its next failure, and a second replay does nothing. -/
theorem replayed_once :
    ((Machine.run (hostStep Sample.host) Sample.office
      Sample.undelivered).store.tables.journal.outbox.get? (Sample.startEvent 1)).map
        (·.deliveryStatus) = some .deadLetter ∧
    ((Machine.run (hostStep Sample.host) Sample.office
      (Sample.undelivered ++ [Sample.replayStart 4])).store.tables.journal.outbox.get?
        (Sample.startEvent 1)).map (·.deliveryStatus) = some .pending ∧
    ((Machine.run (hostStep Sample.host) Sample.office
      (Sample.undelivered ++ [Sample.replayStart 4, Sample.claimEvents 5,
        Sample.failStart 6])).store.tables.journal.outbox.get? (Sample.startEvent 1)).map
          (·.deliveryStatus) = some .deadLetter ∧
    ((Machine.run (hostStep Sample.host) Sample.office
      (Sample.undelivered ++ [Sample.replayStart 4, Sample.claimEvents 5, Sample.failStart 6,
        Sample.replayStart 7])).store.tables.journal.outbox.get? (Sample.startEvent 1)).map
          (·.deliveryStatus) = some .deadLetter := by
  rw [hostStep_bytewise, Sample.host_bytewise]
  decide +kernel

namespace Sample

/-- No replay of the event is recorded, looked up in the journal. -/
def unreplayed (j : Journal) (id : Uuid) : Bool :=
  (j.projections.get? ⟨"DeadletterReplay", id.toText, Version.one.val⟩).isNone &&
    !j.outbox.any fun _ o => decide (o.aggregateId = id ∧ o.aggregateVersion = Version.one.val ∧
      o.eventName = "deadletter.replay")

theorem neverReplayed {j : Journal} {id : Uuid} (h : unreplayed j id = true) :
    NeverReplayed j id := by
  simp only [unreplayed, Bool.and_eq_true, Bool.not_eq_true', Option.isNone_iff_eq_none,
    Table.any_eq_false_iff, decide_eq_false_iff_not] at h
  exact ⟨h.1, h.2⟩

theorem hostPresented {s : Store} (n : Nat) (hActor : (beginActor s.tables actor).isOk = true)
    (hUnused : s.receipts.any (fun k _ => decide (k.operation = "deadletter.replay")) = false) :
    HostPresented host s (replayCommand n) := by
  refine ⟨rfl, rfl, begun hActor, fun principal => ?_⟩
  cases hReceipt : s.receipts.get? (receiptKey host.service (replayCommand n) principal) with
  | none => rfl
  | some row =>
    rw [Table.any_iff.mpr ⟨_, row, hReceipt, decide_eq_true rfl⟩] at hUnused
    cases hUnused

end Sample

theorem first_replay_commits :
    ∃ t₁ receipt, hostStep Sample.host (Machine.run (hostStep Sample.host) Sample.office
        Sample.undelivered) ⟨Sample.reading 4, .command (Sample.replayCommand 4)⟩ =
          (t₁, .ok (.answer (.committed receipt))) ∧
      (t₁.store.tables.journal.outbox.get? (Sample.startEvent 1)).map (·.deliveryStatus) =
        some .pending := by
  have hState : ((Machine.run (hostStep Sample.host) Sample.office
        Sample.undelivered).store.tables.journal.outbox.get? (Sample.startEvent 1)).map
          (·.deliveryStatus) = some .deadLetter ∧
      Sample.unreplayed (Machine.run (hostStep Sample.host) Sample.office
        Sample.undelivered).store.tables.journal (Sample.startEvent 1) = true ∧
      (beginActor (Machine.run (hostStep Sample.host) Sample.office
        Sample.undelivered).store.tables Sample.actor).isOk = true ∧
      (Machine.run (hostStep Sample.host) Sample.office Sample.undelivered).store.receipts.any
        (fun k _ => decide (k.operation = "deadletter.replay")) = false ∧
      recordUnused (Sample.reading 4) (Machine.run (hostStep Sample.host) Sample.office
        Sample.undelivered).store.tables.journal = true := by
    rw [hostStep_bytewise, Sample.host_bytewise]
    decide +kernel
  obtain ⟨hDead, hNever, hActor, hUnused, hDraws⟩ := hState
  obtain ⟨o, ho, hStatus⟩ := Option.map_eq_some_iff.mp hDead
  have hPersistable : Persistable Sample.host.env (Sample.reading 4)
      (replayChange (Sample.startEvent 1) "again") :=
    ⟨Or.inl (by decide), ⟨_, rfl, by decide +kernel⟩, fun _ => rfl⟩
  exact (deadletter_replay Sample.host rfl (Uuid.parse_toText (Sample.startEvent 1)) ho hStatus
    (Sample.hostPresented 4 hActor hUnused) (Sample.permissive_env _)
    (freshRecord_of_unused hDraws) hPersistable fun _ => rfl).1.mpr (Sample.neverReplayed hNever)

end Masonwing
