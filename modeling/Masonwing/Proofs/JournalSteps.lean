import Masonwing.Proofs.PlatformChanges
import Masonwing.Proofs.Projections

/-!
# What one step does to the journal

The second inversion of a step, by the operation that was called: what its handler returned and
what was recorded about it.

* `Appended`: recording a command only adds rows, and every new outbox row announces a change of
  the command;
* `PlatformOutcome`, `platformStep_outcome`: the handler, the system call or the containment behind
  a step;
* `OutboxStep`, `PlatformOutcome.outbox`: every step, seen from one outbox row;
* `PlatformOutcome.artifact_kept`: no step removes an artifact.
-/

namespace Masonwing

open Outcome

variable {ι : Type}

/-! ## Recording -/

/-- The outbox row that announces a change. -/
structure Announces (operation : String) (c : ProjectionChange) (o : OutboxRow) : Prop where
  aggregate : Uuid.parse c.resource.resourceId.text = some o.aggregateId
  version : o.aggregateVersion = c.resource.version
  name : o.eventName = operation
  kind : o.aggregateType = c.resource.resourceType
  waiting : o.deliveryStatus = .pending

/-- The journal after recording some changes of an operation: nothing but new rows. -/
structure Appended (tick : Tick) (operation : String) (changes : List ProjectionChange)
    (j j' : Journal) : Prop where
  artifacts : ∀ id a, j'.artifacts.get? id = some a →
    j.artifacts.get? id = some a ∨ ∃ i, id = tick.draw (.artifact i)
  artifacts_kept : ∀ id a, j.artifacts.get? id = some a → j'.artifacts.get? id = some a
  outbox : ∀ id o, j'.outbox.get? id = some o →
    j.outbox.get? id = some o ∨
      (j.outbox.get? id = none ∧ ∃ c ∈ changes, Announces operation c o)
  outbox_kept : ∀ id o, j.outbox.get? id = some o → j'.outbox.get? id = some o
  inbox : j'.inbox = j.inbox
  tombstones : j'.tombstones = j.tombstones

namespace Appended

variable {tick : Tick} {operation : String} {changes : List ProjectionChange} {j j' j'' : Journal}

theorem nil : Appended tick operation [] j j :=
  ⟨fun _ _ h => Or.inl h, fun _ _ h => h, fun _ _ h => Or.inl h, fun _ _ h => h, rfl, rfl⟩

theorem cons {c : ProjectionChange} (hFirst : Appended tick operation [c] j j')
    (hRest : Appended tick operation changes j' j'') :
    Appended tick operation (c :: changes) j j'' := by
  refine ⟨fun id a ha => ?_, fun id a ha => ?_, fun id o ho => ?_, fun id o ho => ?_, ?_, ?_⟩
  · rcases hRest.artifacts id a ha with ha | hNew
    · exact hFirst.artifacts id a ha
    · exact Or.inr hNew
  · exact hRest.artifacts_kept id a (hFirst.artifacts_kept id a ha)
  · rcases hRest.outbox id o ho with ho | ⟨hNone, d, hd, hAnnounces⟩
    · rcases hFirst.outbox id o ho with ho | ⟨hNone, d, hd, hAnnounces⟩
      · exact Or.inl ho
      · rw [List.mem_singleton] at hd
        subst hd
        exact Or.inr ⟨hNone, d, List.mem_cons_self, hAnnounces⟩
    · refine Or.inr ⟨?_, d, List.mem_cons_of_mem _ hd, hAnnounces⟩
      cases hOld : j.outbox.get? id with
      | none => rfl
      | some o' => cases hNone.symm.trans (hFirst.outbox_kept id o' hOld)
  · exact hRest.outbox_kept id o (hFirst.outbox_kept id o ho)
  · exact hRest.inbox.trans hFirst.inbox
  · exact hRest.tombstones.trans hFirst.tombstones

end Appended

section Recording

variable {env : Env} {tick : Tick} {actor : CommandActor} {operation : String} {index : Nat}
  {j j' : Journal}

theorem persistArtifact_ok {bytes : Bytes} {contentType : String} {classification : Classification}
    {reference : ArtifactRef}
    (h : persistArtifact env tick actor index j bytes contentType classification =
      .ok (j', reference)) :
    ∃ a, j.artifacts.insert? (tick.draw (.artifact index)) a = some j'.artifacts ∧
      a.state = .active ∧ j' = { j with artifacts := j'.artifacts } := by
  simp only [persistArtifact, bind_eq_ok, sql_eq_ok, insertRow_eq_ok, pure_eq_ok,
    Prod.mk.injEq] at h
  obtain ⟨-, -, -, -, creator, -, -, -, artifacts, hInsert, rfl, -⟩ := h
  exact ⟨_, hInsert, rfl, rfl⟩

theorem recordChange_appended {change : ProjectionChange}
    (h : recordChange env tick actor operation index j change = .ok j') :
    Appended tick operation [change] j j' := by
  simp only [recordChange, writeProjection, bind_eq_ok, pure_eq_ok, sql_eq_ok, insertRow_eq_ok,
    parseUuid_eq_ok, Prod.exists, Prod.mk.injEq] at h
  obtain ⟨_, artifact, ⟨-, -, bytes, -, found, -, classification, -, j₁, reference, hPersist, -, -,
    projections, -, rfl, -⟩, principal, -, resource, hResource, audit, -, -, -, outbox, hOutbox,
    rfl⟩ := h
  obtain ⟨a, hInsert, -, hRest⟩ := persistArtifact_ok hPersist
  have hOld : j₁.outbox = j.outbox ∧ j₁.inbox = j.inbox ∧ j₁.tombstones = j.tombstones := by
    rw [hRest]
    exact ⟨rfl, rfl, rfl⟩
  dsimp only at hOutbox
  rw [hOld.1] at hOutbox
  refine ⟨fun id b hb => ?_, fun id b hb => ?_, fun id o ho => ?_, fun id o ho => ?_, hOld.2.1,
    hOld.2.2⟩
  · rcases Table.insert?_get?_cases hInsert hb with ⟨hId, -⟩ | ⟨-, hb⟩
    · exact Or.inr ⟨index, hId⟩
    · exact Or.inl hb
  · exact Table.insert?_get?_of_some hInsert hb
  · rcases Table.insert?_get?_cases hOutbox ho with ⟨rfl, rfl⟩ | ⟨-, ho⟩
    · exact Or.inr ⟨(Table.insert?_eq_some hOutbox).1, change, List.mem_singleton_self _,
        ⟨hResource, rfl, rfl, rfl, rfl⟩⟩
    · exact Or.inl ho
  · exact Table.insert?_get?_of_some hOutbox ho

theorem recordChanges_appended {changes : List ProjectionChange}
    (h : recordChanges env tick actor operation index j changes = .ok j') :
    Appended tick operation changes j j' := by
  induction changes generalizing index j with
  | nil =>
    cases h
    exact .nil
  | cons change changes ih =>
    rw [recordChanges, bind_eq_ok] at h
    obtain ⟨j₁, hFirst, hRest⟩ := h
    exact (recordChange_appended hFirst).cons (ih hRest)

end Recording

/-! ## Containment -/

/-- The journal after containment: artifacts are as they were or quarantined, and the outbox has at
most one new row, about an artifact. -/
structure Contained (j j' : Journal) : Prop where
  artifacts : ∀ id a, j.artifacts.get? id = some a →
    ∃ a', j'.artifacts.get? id = some a' ∧ (a' = a ∨ a'.state = .quarantined)
  outbox : ∀ id o, j'.outbox.get? id = some o →
    j.outbox.get? id = some o ∨
      (j.outbox.get? id = none ∧ o.eventName = "artifact.quarantine" ∧
        o.aggregateType = "Artifact" ∧ o.deliveryStatus = .pending)
  outbox_kept : ∀ id o, j.outbox.get? id = some o → j'.outbox.get? id = some o
  inbox : j'.inbox = j.inbox
  projections : j'.projections = j.projections
  moved : j'.artifacts = j.artifacts ∨ ∃ id a version, j.artifacts.get? id = some a ∧
    a.state = .active ∧ j'.artifacts = j.artifacts.set id { a with state := .quarantined, version }
  others : j' = { j with artifacts := j'.artifacts, audit := j'.audit, outbox := j'.outbox }

theorem Contained.refl (j : Journal) : Contained j j :=
  ⟨fun _ a h => ⟨a, h, Or.inl rfl⟩, fun _ _ h => Or.inl h, fun _ _ h => h, rfl, rfl, Or.inl rfl,
    rfl⟩

theorem quarantineArtifact_contained {tick : Tick} {j j' : Journal} {actor : CommandActor}
    {id : Uuid} {a : ArtifactRow} (ha : j.artifacts.get? id = some a) (hActive : a.state = .active)
    (h : quarantineArtifact tick j actor id a = .ok j') : Contained j j' := by
  simp only [quarantineArtifact, bind_eq_ok, sql_eq_ok, insertRow_eq_ok, pure_eq_ok] at h
  obtain ⟨version, -, principal, -, audit, -, -, -, outbox, hOutbox, rfl⟩ := h
  refine ⟨fun k b hb => ?_, fun k o ho => ?_, fun k o ho => ?_, rfl, rfl,
    Or.inr ⟨id, a, version, ha, hActive, rfl⟩, rfl⟩
  · by_cases hk : k = id
    · subst hk
      exact ⟨_, Table.get?_set_self ha _, Or.inr rfl⟩
    · exact ⟨b, (Table.get?_set_ne _ hk _).trans hb, Or.inl rfl⟩
  · rcases Table.insert?_get?_cases hOutbox ho with ⟨rfl, rfl⟩ | ⟨-, ho⟩
    · exact Or.inr ⟨(Table.insert?_eq_some hOutbox).1, rfl, rfl, rfl⟩
    · exact Or.inl ho
  · exact Table.insert?_get?_of_some hOutbox ho

theorem quarantineCorruptArtifact_contained {env : Env} {svc : Service ι} {tick : Tick}
    {s s' : Store} {c : Command ι} {reference : ArtifactRef}
    (h : quarantineCorruptArtifact env svc tick s c reference = .ok s') :
    Contained s.tables.journal s'.tables.journal := by
  simp only [quarantineCorruptArtifact, bind_eq_ok] at h
  obtain ⟨-, -, -, -, -, -, id, -, h⟩ := h
  split at h
  · cases h
    exact .refl _
  · rename_i a hFound
    obtain ⟨ha, hChecks⟩ := Option.filter_eq_some_iff.mp hFound
    simp only [bind_eq_ok, pure_eq_ok, containArtifact] at h
    obtain ⟨journal, ⟨bytes, -, hContain⟩, rfl⟩ := h
    split at hContain
    · cases hContain
      exact .refl _
    · exact quarantineArtifact_contained ha (of_decide_eq_true hChecks).2.1 hContain

/-! ## The relay -/

/-- What an event is about. -/
def OutboxRow.topic (o : OutboxRow) : Uuid × Int × String × String :=
  (o.aggregateId, o.aggregateVersion, o.eventName, o.aggregateType)

/-- What claiming does to one event: a lease on it, or the note that it was received before. -/
structure EventClaimed (tick : Tick) (inbox : List (String × Uuid)) (id : Uuid)
    (o o' : OutboxRow) : Prop where
  claimable : o.claimable tick = true
  topic : o'.topic = o.topic
  status : o'.deliveryStatus =
    if (relayConsumer, id) ∈ inbox then .delivered else o.deliveryStatus

/-- The journal after a claim. -/
structure OutboxClaimed (tick : Tick) (j j' : Journal) (items : List OutboxDispatchItem) :
    Prop where
  rows : ∀ id, j'.outbox.get? id = j.outbox.get? id ∨
    ∃ o o', j.outbox.get? id = some o ∧ j'.outbox.get? id = some o' ∧
      EventClaimed tick j.inbox id o o'
  items : ∀ item ∈ items, ∃ o, j.outbox.get? item.eventId = some o ∧ o.claimable tick = true ∧
    item = dispatchItem item.eventId o
  others : j' = { j with outbox := j'.outbox }

/-- One event of the claim, given that the events so far were claimed. -/
theorem claimEvent_claimed {tick : Tick} {leaseSeconds : Int} {j : Journal}
    {claimed claimed' : Journal × List OutboxDispatchItem} {event : Uuid × OutboxRow}
    (hEvent : j.outbox.get? event.1 = some event.2 ∧ event.2.claimable tick = true)
    (hSoFar : OutboxClaimed tick j claimed.1 claimed.2)
    (h : claimEvent tick leaseSeconds claimed event = .ok claimed') :
    OutboxClaimed tick j claimed'.1 claimed'.2 := by
  obtain ⟨j₁, items⟩ := claimed
  obtain ⟨id, o⟩ := event
  obtain ⟨hFound, hClaimable⟩ := hEvent
  have hOthers : j₁ = { j with outbox := j₁.outbox } := hSoFar.others
  have hInbox : j₁.inbox = j.inbox := by rw [hOthers]
  have hRow : ∃ old, j₁.outbox.get? id = some old := by
    rcases hSoFar.rows id with hSame | ⟨_, o', -, ho', -⟩
    · exact ⟨o, hSame.trans hFound⟩
    · exact ⟨o', ho'⟩
  obtain ⟨old, hOld⟩ := hRow
  -- both branches set the row of this event and leave the others
  have hRows : ∀ o', EventClaimed tick j.inbox id o o' → ∀ k,
      (j₁.outbox.set id o').get? k = j.outbox.get? k ∨
        ∃ q q', j.outbox.get? k = some q ∧ (j₁.outbox.set id o').get? k = some q' ∧
          EventClaimed tick j.inbox k q q' := by
    intro o' hClaimed k
    by_cases hk : k = id
    · subst hk
      exact Or.inr ⟨o, o', hFound, Table.get?_set_self hOld o', hClaimed⟩
    · rw [Table.get?_set_ne _ hk]
      exact hSoFar.rows k
  unfold claimEvent at h
  dsimp only at h
  split at h
  · rename_i hReceived
    cases h
    rw [hInbox] at hReceived
    refine ⟨hRows _ ⟨hClaimable, rfl, (if_pos hReceived).symm⟩, hSoFar.items, ?_⟩
    rw [hOthers]
  · rename_i hNew
    simp only [bind_eq_ok, pure_eq_ok] at h
    obtain ⟨attempts, -, rfl⟩ := h
    rw [hInbox] at hNew
    refine ⟨hRows _ ⟨hClaimable, rfl, (if_neg hNew).symm⟩, fun item hItem => ?_,
      ?_⟩
    · rcases List.mem_append.mp hItem with hItem | hItem
      · exact hSoFar.items item hItem
      · rw [List.mem_singleton] at hItem
        subst hItem
        exact ⟨o, hFound, hClaimable, rfl⟩
    · rw [hOthers]

theorem claimPendingOutbox_claimed {tick : Tick} {t t' : Tables} {limit leaseSeconds : Int}
    {items : List OutboxDispatchItem}
    (h : claimPendingOutbox tick t limit leaseSeconds = .ok (t', items)) :
    ∃ j, OutboxClaimed tick t.journal j items ∧ t' = { t with journal := j } := by
  simp only [claimPendingOutbox, bind_eq_ok, beginSystem_eq_ok, require_eq_ok, pure_eq_ok,
    Prod.exists, Prod.mk.injEq, exists_const] at h
  obtain ⟨-, -, j, items', hFold, rfl, rfl⟩ := h
  refine ⟨j, ?_, rfl⟩
  refine foldlM_invariant (I := fun c => OutboxClaimed tick t.journal c.1 c.2) ?_ ?_ hFold
  · intro event hMem claimed claimed' hSoFar hStep
    have hSelected := List.mem_of_mem_take hMem
    exact claimEvent_claimed (Table.mem_select.mp hSelected) hSoFar hStep
  · exact ⟨fun _ => Or.inl rfl, fun _ hItem => (by cases hItem), rfl⟩

theorem markOutboxDelivered_rows {t t' : Tables} {id : Uuid}
    (h : markOutboxDelivered t id = .ok t') :
    (∀ e, e ∈ t'.journal.inbox ↔ e ∈ t.journal.inbox ∨ e = (relayConsumer, id)) ∧
      (∀ k, k ≠ id → t'.journal.outbox.get? k = t.journal.outbox.get? k) ∧
      (∀ o, t.journal.outbox.get? id = some o → t'.journal.outbox.get? id =
        some { o with deliveryStatus := .delivered, leaseExpiresAt := none }) ∧
      (t.journal.outbox.get? id = none → t'.journal.outbox.get? id = none) ∧
      t' = { t with journal := { t.journal with
        inbox := t'.journal.inbox, outbox := t'.journal.outbox } } := by
  simp only [markOutboxDelivered, bind_eq_ok, beginSystem_eq_ok, pure_eq_ok, exists_const] at h
  obtain ⟨-, rfl⟩ := h
  refine ⟨fun e => ?_, fun k hk => ?_, fun o ho => ?_, fun hNone => ?_, rfl⟩
  · dsimp only
    split
    · rename_i hMem
      refine ⟨Or.inl, fun h => ?_⟩
      rcases h with h | rfl
      · exact h
      · exact hMem
    · rw [List.mem_append, List.mem_singleton]
  · rw [Table.get?_updateWhere, decide_eq_false hk]
    simp
  · rw [Table.get?_updateWhere, ho]
    simp
  · rw [Table.get?_updateWhere, hNone]
    rfl

theorem markOutboxFailed_rows {tick : Tick} {t t' : Tables} {id : Uuid} {maxAttempts : Int}
    (h : markOutboxFailed tick t id maxAttempts = .ok t') :
    ∃ o o', t.journal.outbox.get? id = some o ∧ o'.topic = o.topic ∧
      o'.deliveryStatus =
        (if maxAttempts ≤ o.deliveryAttempts then .deadLetter else o.deliveryStatus) ∧
      t' = { t with journal := { t.journal with outbox := t.journal.outbox.set id o' } } := by
  simp only [markOutboxFailed, bind_eq_ok, beginSystem_eq_ok, sql_eq_ok, okOr_eq_ok, pure_eq_ok,
    exists_const] at h
  obtain ⟨-, o, ho, rfl⟩ := h
  refine ⟨o, _, ho, ?_, ?_, rfl⟩
  all_goals split <;> rfl

/-! ## Every step -/

/-- What is behind a step: the handler of a command with what was recorded about it, a containment,
or a call of the system path. -/
inductive PlatformOutcome (p : Platform ι) (tick : Tick) (t : Tables) :
    PlatformOperation ι → Tables → Prop
  | unchanged (op : PlatformOperation ι) : PlatformOutcome p tick t op t
  | command {c : Command CommandInput} {t' : Tables} {m : Mutation} {j : Journal}
      (hActor : beginActor t c.actor = .ok ()) (hAuthorized : authorizeCommand p.env t c = .ok ())
      (hHandled : dispatchCommand p.env tick t c = .ok (t', m)) (hJournal : t'.journal = t.journal)
      (hRecorded : recordChanges p.env tick c.actor c.input.operation 0 t.journal m.changes =
        .ok j) : PlatformOutcome p tick t (.core (.command c)) { t' with journal := j }
  | further {c : Command (PlatformInput ι)} {t' : Tables} {m : Mutation} {j : Journal}
      (hHandled : p.dispatch tick t c = .ok (t', m))
      (hRecorded : recordChanges p.env tick c.actor (p.operation c.input) 0 t'.journal m.changes =
        .ok j) : PlatformOutcome p tick t (.command c) { t' with journal := j }
  | contained {op : PlatformOperation ι} {j : Journal} (h : Contained t.journal j)
      (hOp : op.act = some .contain ∨ op.act = some (.core .quarantine)) :
      PlatformOutcome p tick t op { t with journal := j }
  | system {call : SystemCall} {t' : Tables} {reply : Reply}
      (h : runSystemCall p.env tick t call = .ok (t', reply)) :
      PlatformOutcome p tick t (.core (.system call)) t'
  | checkpoint {id : Uuid} {record : CheckpointWrite} {t' : Tables} {written : Bool}
      (h : recordRunCheckpoint t id record = .ok (t', written)) :
      PlatformOutcome p tick t (.checkpoint id record) t'

theorem admitCommand_ok {svc : Service ι} {s : Store} {c : Command ι} {principal : Uuid}
    (h : admitCommand svc s c = .ok principal) :
    beginActor s.tables c.actor = .ok () ∧ svc.authorize s.tables c = .ok () := by
  simp only [admitCommand, bind_eq_ok] at h
  obtain ⟨-, -, fingerprint, -, -, -, ⟨⟩, hActor, ⟨⟩, hAuthorized, -⟩ := h
  exact ⟨hActor, hAuthorized⟩

theorem runOperation_outcome {p : Platform ι} {tick : Tick} {s s' : Store} {op : Operation}
    {reply : Reply} (h : runOperation p.env p.catalogue.core tick s op = .ok (s', reply)) :
    PlatformOutcome p tick s.tables (.core op) s'.tables := by
  cases op with
  | command c =>
    simp only [runOperation, bind_eq_ok, pure_eq_ok, Prod.exists, Prod.mk.injEq] at h
    obtain ⟨_, a, hExecute, rfl, rfl⟩ := h
    obtain ⟨principal, hAdmit, ⟨row, -, -, rfl, -⟩ | ⟨-, t, m, receipt, hCommitted, -⟩⟩ :=
      execute_ok hExecute
    · exact .unchanged _
    · obtain ⟨hActor, hAuthorized⟩ := admitCommand_ok hAdmit
      have hHandled : dispatchCommand p.env tick s.tables c = .ok (t, m) := hCommitted.handled
      have hJournal := (dispatchCommand_announces hHandled).1
      have hRecorded := hCommitted.recorded
      rw [hJournal] at hRecorded
      rw [hCommitted.tables]
      exact .command hActor hAuthorized hHandled hJournal hRecorded
  | quarantine c reference =>
    simp only [runOperation, bind_eq_ok, pure_eq_ok, Prod.mk.injEq] at h
    obtain ⟨_, h, rfl, rfl⟩ := h
    rw [(quarantineCorruptArtifact_ok h).2]
    exact .contained (quarantineCorruptArtifact_contained h) (Or.inr rfl)
  | system c =>
    simp only [runOperation, bind_eq_ok, pure_eq_ok, Prod.exists, Prod.mk.injEq] at h
    obtain ⟨tables, reply', h, rfl, rfl⟩ := h
    exact .system h

theorem runPlatformOperation_outcome {p : Platform ι} {tick : Tick} {s s' : Store}
    {op : PlatformOperation ι} {reply : PlatformReply}
    (h : runPlatformOperation p tick s op = .ok (s', reply)) :
    PlatformOutcome p tick s.tables op s'.tables := by
  cases op with
  | core operation =>
    simp only [runPlatformOperation, bind_eq_ok, pure_eq_ok, Prod.exists, Prod.mk.injEq] at h
    obtain ⟨_, core, h, rfl, rfl⟩ := h
    exact runOperation_outcome h
  | command c =>
    simp only [runPlatformOperation, bind_eq_ok, pure_eq_ok, Prod.exists, Prod.mk.injEq] at h
    obtain ⟨_, a, hExecute, rfl, rfl⟩ := h
    obtain ⟨principal, -, ⟨row, -, -, rfl, -⟩ | ⟨-, t, m, receipt, hCommitted, -⟩⟩ :=
      execute_ok hExecute
    · exact .unchanged _
    · rw [hCommitted.tables]
      exact .further hCommitted.handled hCommitted.recorded
  | quarantine c reference =>
    simp only [runPlatformOperation, bind_eq_ok, pure_eq_ok, Prod.mk.injEq] at h
    obtain ⟨_, h, rfl, rfl⟩ := h
    rw [(quarantineCorruptArtifact_ok h).2]
    exact .contained (quarantineCorruptArtifact_contained h) (Or.inl rfl)
  | checkpoint runId record =>
    simp only [runPlatformOperation, bind_eq_ok, pure_eq_ok, Prod.exists, Prod.mk.injEq] at h
    obtain ⟨tables, written, h, rfl, rfl⟩ := h
    exact .checkpoint h

theorem platformStep_outcome (p : Platform ι) (s : Store) (c : PlatformCall ι) :
    PlatformOutcome p c.tick s.tables c.operation (platformStep p s c).1.tables := by
  rcases transact_cases s (runPlatformOperation p c.tick s c.operation) with
    ⟨s', reply, hOk, hStep⟩ | ⟨failure, -, hStep⟩
  · have hEq : platformStep p s c = (s', .ok reply) := hStep
    rw [hEq]
    exact runPlatformOperation_outcome hOk
  · have hEq : platformStep p s c = (s, .error failure) := hStep
    rw [hEq]
    exact .unchanged _

/-- A command of the first kind fails, is answered from a receipt, or commits. -/
theorem platformStep_command_cases (p : Platform ι) (s : Store) (tick : Tick)
    (c : Command CommandInput) :
    (∃ failure, platformStep p s ⟨tick, .core (.command c)⟩ = (s, .error failure)) ∨
      (∃ receipt, platformStep p s ⟨tick, .core (.command c)⟩ =
        (s, .ok (.core (.answer (.replayed receipt))))) ∨
      ∃ s' key t m receipt, platformStep p s ⟨tick, .core (.command c)⟩ =
        (s', .ok (.core (.answer (.committed receipt)))) ∧
        Committed p.env (service p.env p.catalogue.core) tick s c key t m s' receipt := by
  rcases transact_cases s (runPlatformOperation p tick s (.core (.command c))) with
    ⟨s', reply, hOk, hStep⟩ | ⟨failure, -, hStep⟩
  · simp only [runPlatformOperation, runOperation, bind_eq_ok, pure_eq_ok, Prod.exists,
      Prod.mk.injEq] at hOk
    obtain ⟨_, _, ⟨_, a, hExecute, rfl, rfl⟩, rfl, rfl⟩ := hOk
    obtain ⟨principal, -, ⟨row, -, -, rfl, rfl⟩ | ⟨-, t, m, receipt, hCommitted, rfl⟩⟩ :=
      execute_ok hExecute
    · exact Or.inr (Or.inl ⟨_, hStep⟩)
    · exact Or.inr (Or.inr ⟨_, _, t, m, receipt, hStep, hCommitted⟩)
  · exact Or.inl ⟨failure, hStep⟩

/-! ## One outbox row -/

/-- How a step changes one outbox row. -/
inductive OutboxStep (tick : Tick) (id : Uuid) (j j' : Journal) : PlatformOperation ι → Prop
  | same (op : PlatformOperation ι) (hRow : j'.outbox.get? id = j.outbox.get? id) :
      OutboxStep tick id j j' op
  | created {o : OutboxRow} (op : PlatformOperation ι) (hNone : j.outbox.get? id = none)
      (hRow : j'.outbox.get? id = some o) (hPending : o.deliveryStatus = .pending) :
      OutboxStep tick id j j' op
  | claimed {o o' : OutboxRow} (limit leaseSeconds : Int) (hFound : j.outbox.get? id = some o)
      (hRow : j'.outbox.get? id = some o') (hClaimed : EventClaimed tick j.inbox id o o') :
      OutboxStep tick id j j' (.core (.system (.claimPendingOutbox limit leaseSeconds)))
  | delivered {o o' : OutboxRow} (hFound : j.outbox.get? id = some o)
      (hRow : j'.outbox.get? id = some o') (hTopic : o'.topic = o.topic)
      (hStatus : o'.deliveryStatus = .delivered) :
      OutboxStep tick id j j' (.core (.system (.markOutboxDelivered id)))
  | failed {o o' : OutboxRow} (maxAttempts : Int) (hFound : j.outbox.get? id = some o)
      (hRow : j'.outbox.get? id = some o') (hTopic : o'.topic = o.topic)
      (hStatus : o'.deliveryStatus =
        if maxAttempts ≤ o.deliveryAttempts then .deadLetter else o.deliveryStatus) :
      OutboxStep tick id j j' (.core (.system (.markOutboxFailed id maxAttempts)))

/-- An outbox row stays, and stays about the same thing. -/
theorem OutboxStep.topic_kept {tick : Tick} {id : Uuid} {j j' : Journal} {op : PlatformOperation ι}
    {o : OutboxRow} (h : OutboxStep tick id j j' op) (ho : j.outbox.get? id = some o) :
    ∃ o', j'.outbox.get? id = some o' ∧ o'.topic = o.topic := by
  cases h with
  | same op hRow => exact ⟨o, hRow.trans ho, rfl⟩
  | created op hNone hRow hPending => cases hNone.symm.trans ho
  | claimed limit leaseSeconds hFound hRow hClaimed =>
    cases hFound.symm.trans ho
    exact ⟨_, hRow, hClaimed.topic⟩
  | delivered hFound hRow hTopic hStatus =>
    cases hFound.symm.trans ho
    exact ⟨_, hRow, hTopic⟩
  | failed maxAttempts hFound hRow hTopic hStatus =>
    cases hFound.symm.trans ho
    exact ⟨_, hRow, hTopic⟩

/-- Rows are only added. -/
theorem OutboxStep.of_added {tick : Tick} {id : Uuid} {j j' : Journal} (op : PlatformOperation ι)
    (hKept : ∀ o, j.outbox.get? id = some o → j'.outbox.get? id = some o)
    (hNew : ∀ o, j'.outbox.get? id = some o → j.outbox.get? id = some o ∨
      (j.outbox.get? id = none ∧ o.deliveryStatus = .pending)) : OutboxStep tick id j j' op := by
  cases hOld : j.outbox.get? id with
  | some o => exact .same op ((hKept o hOld).trans hOld.symm)
  | none =>
    cases hRow : j'.outbox.get? id with
    | none => exact .same op (hRow.trans hOld.symm)
    | some o =>
      rcases hNew o hRow with hSame | ⟨-, hPending⟩
      · cases hOld.symm.trans hSame
      · exact .created op hOld hRow hPending

theorem Appended.outboxStep {tick : Tick} {operation : String} {changes : List ProjectionChange}
    {j j' : Journal} (h : Appended tick operation changes j j') (id : Uuid)
    (op : PlatformOperation ι) : OutboxStep tick id j j' op := by
  refine .of_added op (h.outbox_kept id) fun o ho => ?_
  rcases h.outbox id o ho with hOld | ⟨hNone, c, -, hAnnounces⟩
  · exact Or.inl hOld
  · exact Or.inr ⟨hNone, hAnnounces.waiting⟩

/-- The handlers of the further commands leave the outbox alone. -/
theorem dispatch_outbox {p : Platform ι} {tick : Tick} {t t' : Tables}
    {c : Command (PlatformInput ι)} {m : Mutation} (h : p.dispatch tick t c = .ok (t', m)) :
    t'.journal.outbox = t.journal.outbox ∧ t'.journal.inbox = t.journal.inbox := by
  unfold Platform.dispatch at h
  split at h
  · obtain ⟨digest, registry, runs, -, -, rfl, -⟩ := revokePlugin_ok h
    exact ⟨rfl, rfl⟩
  · obtain ⟨j, id, rights, requests, -, hDeleted, rfl, -⟩ := requestDeletion_ok h
    dsimp only
    rw [hDeleted.others]
    exact ⟨rfl, rfl⟩
  · obtain ⟨registry, rfl, -⟩ := Lifecycle.run_ok h
    exact ⟨rfl, rfl⟩

theorem applyReconciliationEvidence_journal {env : Env} {tick : Tick} {t t' : Tables} {id : Uuid}
    {evidence : ReconciliationEvidence} {remoteId : Option String}
    {evidenceRef : Option ArtifactRef} {used : Option Int} {m : Mutation}
    (h : applyReconciliationEvidence env tick t id evidence remoteId evidenceRef used =
      .ok (t', m)) : t'.journal = t.journal := by
  cases evidence with
  | confirmedPresent =>
    simp only [applyReconciliationEvidence, bind_eq_ok] at h
    obtain ⟨remote, -, ref, -, h⟩ := h
    obtain ⟨e, e', b', receipts, receipt, -, -, -, -, -, -, rfl⟩ := recordEffectSucceeded_ok h
    rfl
  | confirmedFailure =>
    obtain ⟨e, e', b', -, -, -, rfl⟩ := resolveEffect_ok h
    rfl
  | provenAbsentAndReauthorized =>
    obtain ⟨e, e', b', -, -, -, rfl⟩ := resolveEffect_ok h
    rfl
  | unresolved =>
    obtain ⟨e, e', b', -, -, -, rfl⟩ := resolveEffect_ok h
    rfl

/-- A call of the relay on the outbox. -/
def SystemCall.relays : SystemCall → Bool
  | .claimPendingOutbox .. | .markOutboxDelivered .. | .markOutboxFailed .. => true
  | _ => false

/-- No other system call records anything. -/
theorem runSystemCall_journal {env : Env} {tick : Tick} {t t' : Tables} {call : SystemCall}
    {reply : Reply} (h : runSystemCall env tick t call = .ok (t', reply))
    (hCall : call.relays = false) : t'.journal = t.journal := by
  cases call with
  | markRunStarted runId temporalRunId fence =>
    obtain ⟨m, h⟩ := withMutation_ok h
    obtain ⟨r, r', -, -, rfl⟩ := markRunStarted_ok h
    rfl
  | markRunCompleted runId fence =>
    obtain ⟨r, r', -, rfl⟩ := markRunCompleted_ok (withDone_ok h)
    rfl
  | verifyAndClaimRun runId =>
    simp only [runSystemCall, bind_eq_ok, pure_eq_ok, Prod.exists, Prod.mk.injEq] at h
    obtain ⟨_, claimed, h, rfl, -⟩ := h
    rcases verifyAndClaimRun_ok h with ⟨rfl, -⟩ | ⟨-, r, r', -, rfl⟩
    · rfl
    · rfl
  | recordEffectUnknown effectId =>
    obtain ⟨m, h⟩ := withMutation_ok h
    obtain ⟨e, e', r, r', b', -, -, -, -, -, rfl⟩ := recordEffectUnknown_ok h
    rfl
  | recordEffectSucceeded effectId remoteId evidenceRef used =>
    obtain ⟨m, h⟩ := withMutation_ok h
    obtain ⟨e, e', b', receipts, receipt, -, -, -, -, -, -, rfl⟩ := recordEffectSucceeded_ok h
    rfl
  | applyReconciliationEvidence effectId evidence remoteId evidenceRef used =>
    obtain ⟨m, h⟩ := withMutation_ok h
    exact applyReconciliationEvidence_journal h
  | reserveRunBudget request =>
    obtain ⟨b', m, -, rfl⟩ := systemBudget_ok h
    rfl
  | settleRunBudget reservationId used fingerprint =>
    obtain ⟨b', m, -, rfl⟩ := systemBudget_ok h
    rfl
  | markRunCostUnknown reservationId =>
    obtain ⟨b', m, -, rfl⟩ := systemBudget_ok h
    rfl
  | releaseRunBudget reservationId =>
    obtain ⟨b', m, -, rfl⟩ := systemBudget_ok h
    rfl
  | claimPendingOutbox limit leaseSeconds => cases hCall
  | markOutboxDelivered eventId => cases hCall
  | markOutboxFailed eventId maxAttempts => cases hCall

theorem runSystemCall_claimPendingOutbox {env : Env} {tick : Tick} {t t' : Tables}
    {limit leaseSeconds : Int} {reply : Reply}
    (h : runSystemCall env tick t (.claimPendingOutbox limit leaseSeconds) = .ok (t', reply)) :
    ∃ j items, OutboxClaimed tick t.journal j items ∧ t' = { t with journal := j } ∧
      reply = .events items := by
  simp only [runSystemCall, bind_eq_ok, pure_eq_ok, Prod.exists, Prod.mk.injEq] at h
  obtain ⟨_, items, h, rfl, rfl⟩ := h
  obtain ⟨j, hClaimed, rfl⟩ := claimPendingOutbox_claimed h
  exact ⟨j, items, hClaimed, rfl, rfl⟩

/-- A system call adds no outbox row. -/
theorem runSystemCall_outbox_none {env : Env} {tick : Tick} {t t' : Tables} {call : SystemCall}
    {reply : Reply} (h : runSystemCall env tick t call = .ok (t', reply)) {id : Uuid}
    (hNone : t.journal.outbox.get? id = none) : t'.journal.outbox.get? id = none := by
  cases hRelays : call.relays with
  | false =>
    rw [runSystemCall_journal h hRelays]
    exact hNone
  | true =>
    cases call with
    | claimPendingOutbox limit leaseSeconds =>
      obtain ⟨j, items, hClaimed, rfl, -⟩ := runSystemCall_claimPendingOutbox h
      rcases hClaimed.rows id with hSame | ⟨o, o', ho, -⟩
      · exact hSame.trans hNone
      · cases hNone.symm.trans ho
    | markOutboxDelivered eventId =>
      obtain ⟨-, hOthers, -, hSame, -⟩ := markOutboxDelivered_rows (withDone_ok h)
      by_cases hId : id = eventId
      · subst hId
        exact hSame hNone
      · exact (hOthers id hId).trans hNone
    | markOutboxFailed eventId maxAttempts =>
      obtain ⟨o, o', ho, -, -, rfl⟩ := markOutboxFailed_rows (withDone_ok h)
      have hId : id ≠ eventId := by
        rintro rfl
        cases hNone.symm.trans ho
      exact (Table.get?_set_ne _ hId o').trans hNone
    | _ => cases hRelays

/-- A system call leaves the artifacts alone. -/
theorem runSystemCall_artifacts {env : Env} {tick : Tick} {t t' : Tables} {call : SystemCall}
    {reply : Reply} (h : runSystemCall env tick t call = .ok (t', reply)) :
    t'.journal.artifacts = t.journal.artifacts := by
  cases hRelays : call.relays with
  | false => rw [runSystemCall_journal h hRelays]
  | true =>
    cases call with
    | claimPendingOutbox limit leaseSeconds =>
      obtain ⟨j, items, hClaimed, rfl, -⟩ := runSystemCall_claimPendingOutbox h
      dsimp only
      rw [hClaimed.others]
    | markOutboxDelivered eventId =>
      obtain ⟨-, -, -, -, hOthers⟩ := markOutboxDelivered_rows (withDone_ok h)
      rw [hOthers]
    | markOutboxFailed eventId maxAttempts =>
      obtain ⟨o, o', -, -, -, rfl⟩ := markOutboxFailed_rows (withDone_ok h)
      rfl
    | _ => cases hRelays

/-- The system calls, seen from one outbox row. -/
theorem runSystemCall_outbox {env : Env} {tick : Tick} {t t' : Tables} {call : SystemCall}
    {reply : Reply} (h : runSystemCall env tick t call = .ok (t', reply)) (id : Uuid) :
    OutboxStep (ι := ι) tick id t.journal t'.journal (.core (.system call)) := by
  cases hRelays : call.relays with
  | false => exact .same _ (by rw [runSystemCall_journal h hRelays])
  | true =>
    cases call with
    | claimPendingOutbox limit leaseSeconds =>
      obtain ⟨j, items, hClaimed, rfl, -⟩ := runSystemCall_claimPendingOutbox h
      rcases hClaimed.rows id with hSame | ⟨o, o', ho, ho', hEvent⟩
      · exact .same _ hSame
      · exact .claimed limit leaseSeconds ho ho' hEvent
    | markOutboxDelivered eventId =>
      obtain ⟨-, hOthers, hSome, hNone, -⟩ := markOutboxDelivered_rows (withDone_ok h)
      by_cases hId : id = eventId
      · subst hId
        cases hRow : t.journal.outbox.get? id with
        | none => exact .same _ ((hNone hRow).trans hRow.symm)
        | some o => exact .delivered hRow (hSome o hRow) rfl rfl
      · exact .same _ (hOthers id hId)
    | markOutboxFailed eventId maxAttempts =>
      obtain ⟨o, o', ho, hTopic, hStatus, rfl⟩ := markOutboxFailed_rows (withDone_ok h)
      by_cases hId : id = eventId
      · subst hId
        exact .failed maxAttempts ho (Table.get?_set_self ho o') hTopic hStatus
      · exact .same _ (Table.get?_set_ne _ hId o')
    | _ => cases hRelays

/-- Every step, seen from one outbox row. -/
theorem PlatformOutcome.outbox {p : Platform ι} {tick : Tick} {t t' : Tables}
    {op : PlatformOperation ι} (h : PlatformOutcome p tick t op t') (id : Uuid) :
    OutboxStep tick id t.journal t'.journal op := by
  cases h with
  | unchanged => exact .same op rfl
  | command hActor hAuthorized hHandled hJournal hRecorded =>
    exact (recordChanges_appended hRecorded).outboxStep id _
  | further hHandled hRecorded =>
    have hOutbox := (dispatch_outbox hHandled).1
    refine .of_added _ (fun o ho => ?_) (fun o ho => ?_)
    · rw [← hOutbox] at ho
      exact (recordChanges_appended hRecorded).outbox_kept id o ho
    · rcases (recordChanges_appended hRecorded).outbox id o ho with hOld | ⟨hNone, c, -, hNew⟩
      · exact Or.inl (hOutbox ▸ hOld)
      · exact Or.inr ⟨hOutbox ▸ hNone, hNew.waiting⟩
  | contained hContained =>
    refine .of_added _ (hContained.outbox_kept id) fun o ho => ?_
    rcases hContained.outbox id o ho with hOld | ⟨hNone, -, -, hPending⟩
    · exact Or.inl hOld
    · exact Or.inr ⟨hNone, hPending⟩
  | system hCall => exact runSystemCall_outbox hCall id
  | checkpoint hRecord =>
    rcases recordRunCheckpoint_ok hRecord with ⟨-, rfl⟩ | ⟨-, row, checkpoints, -, rfl, -⟩
    · exact .same _ rfl
    · exact .same _ rfl

/-- Only an acknowledgement adds to the inbox. -/
theorem PlatformOutcome.inbox {p : Platform ι} {tick : Tick} {t t' : Tables}
    {op : PlatformOperation ι} (h : PlatformOutcome p tick t op t') :
    t'.journal.inbox = t.journal.inbox ∨
      ∃ id, op = .core (.system (.markOutboxDelivered id)) ∧
        ∀ e, e ∈ t'.journal.inbox ↔ e ∈ t.journal.inbox ∨ e = (relayConsumer, id) := by
  cases h with
  | unchanged => exact Or.inl rfl
  | command hActor hAuthorized hHandled hJournal hRecorded =>
    exact Or.inl (recordChanges_appended hRecorded).inbox
  | further hHandled hRecorded =>
    exact Or.inl ((recordChanges_appended hRecorded).inbox.trans (dispatch_outbox hHandled).2)
  | contained hContained => exact Or.inl hContained.inbox
  | @system call _ _ hCall =>
    cases hRelays : call.relays with
    | false => exact Or.inl (by rw [runSystemCall_journal hCall hRelays])
    | true =>
      cases call with
      | claimPendingOutbox limit leaseSeconds =>
        obtain ⟨j, items, hClaimed, rfl, -⟩ := runSystemCall_claimPendingOutbox hCall
        exact Or.inl (by rw [hClaimed.others])
      | markOutboxDelivered eventId =>
        exact Or.inr ⟨eventId, rfl, (markOutboxDelivered_rows (withDone_ok hCall)).1⟩
      | markOutboxFailed eventId maxAttempts =>
        obtain ⟨o, o', -, -, -, rfl⟩ := markOutboxFailed_rows (withDone_ok hCall)
        exact Or.inl rfl
      | _ => cases hRelays
  | checkpoint hRecord =>
    rcases recordRunCheckpoint_ok hRecord with ⟨-, rfl⟩ | ⟨-, row, checkpoints, -, rfl, -⟩
    · exact Or.inl rfl
    · exact Or.inl rfl

/-! ## One artifact -/

theorem Deleted.artifact_kept {j j' : Journal} {ids : List Uuid} (h : Deleted j j' ids) {id : Uuid}
    {a : ArtifactRow} (ha : j.artifacts.get? id = some a) :
    ∃ a', j'.artifacts.get? id = some a' := by
  rcases h.artifacts id with ⟨hNone, -⟩ | ⟨b, b', -, hb', -⟩
  · cases hNone.symm.trans ha
  · exact ⟨b', hb'⟩

theorem dispatch_artifact_kept {p : Platform ι} {tick : Tick} {t t' : Tables}
    {c : Command (PlatformInput ι)} {m : Mutation} (h : p.dispatch tick t c = .ok (t', m))
    {id : Uuid} {a : ArtifactRow} (ha : t.journal.artifacts.get? id = some a) :
    ∃ a', t'.journal.artifacts.get? id = some a' := by
  unfold Platform.dispatch at h
  split at h
  · obtain ⟨digest, registry, runs, -, -, rfl, -⟩ := revokePlugin_ok h
    exact ⟨a, ha⟩
  · obtain ⟨j, id, rights, requests, -, hDeleted, rfl, -⟩ := requestDeletion_ok h
    exact hDeleted.artifact_kept ha
  · obtain ⟨registry, rfl, -⟩ := Lifecycle.run_ok h
    exact ⟨a, ha⟩

/-- The row of an artifact stays, whatever becomes of its content. -/
theorem PlatformOutcome.artifact_kept {p : Platform ι} {tick : Tick} {t t' : Tables}
    {op : PlatformOperation ι} (h : PlatformOutcome p tick t op t') {id : Uuid} {a : ArtifactRow}
    (ha : t.journal.artifacts.get? id = some a) : ∃ a', t'.journal.artifacts.get? id = some a' := by
  cases h with
  | unchanged => exact ⟨a, ha⟩
  | command hActor hAuthorized hHandled hJournal hRecorded =>
    exact ⟨a, (recordChanges_appended hRecorded).artifacts_kept id a ha⟩
  | further hHandled hRecorded =>
    obtain ⟨a', ha'⟩ := dispatch_artifact_kept hHandled ha
    exact ⟨a', (recordChanges_appended hRecorded).artifacts_kept id a' ha'⟩
  | contained hContained =>
    obtain ⟨a', ha', -⟩ := hContained.artifacts id a ha
    exact ⟨a', ha'⟩
  | system hCall =>
    rw [runSystemCall_artifacts hCall]
    exact ⟨a, ha⟩
  | checkpoint hRecord =>
    rcases recordRunCheckpoint_ok hRecord with ⟨-, rfl⟩ | ⟨-, row, checkpoints, -, rfl, -⟩
    · exact ⟨a, ha⟩
    · exact ⟨a, ha⟩

end Masonwing
