import Masonwing.Proofs.Evaluation
import Masonwing.Proofs.Projections

/-!
# When a proposal identifies its effect

`effect.propose` looks its effect up by connection and key, `execute` looks its receipt up by
principal and key, the budget keeps one reservation for each run and key, and the read side one
projection for each effect and version. This file says exactly when these agree.

* `reserveBudget_of_room`: a reservation succeeds if its accounts have room;
* `recordEffect_succeeds_iff`: what a mutation of an effect needs to be recorded;
* `proposal_identified_iff`: a proposal is answered as its key and fingerprint say, exactly if
  nothing of this stands in its way.
-/

namespace Masonwing

open Outcome

/-! ## Room in the budget -/

/-- The account has room for a bound: under its own limit, or under the one it is opened with. -/
def HasRoom (settings : Table (Currency × Period) Setting) (currency : String) (bound : Int)
    (accounts : Accounts) (key : String) : Prop :=
  match accounts.get? key with
  | some a => a.held + bound ≤ a.limit - a.charged
  | none => ∃ seed, seedLimit settings currency key = some seed ∧ bound ≤ seed.2

section Budgets

variable {settings : Table (Currency × Period) Setting} {currency : String} {bound : Int}
  {accounts : Accounts}

theorem seedLimit_le {key : String} {seed : Currency × Int}
    (h : seedLimit settings currency key = some seed) : 0 < seed.2 ∧ seed.2 ≤ maxMicrounits := by
  simp only [seedLimit, Option.bind_eq_bind, Option.bind_eq_some_iff] at h
  obtain ⟨c, -, p, -, s, -, hLimit⟩ := h
  split at hLimit
  · rename_i hPositive
    cases hLimit
    exact ⟨hPositive, s.checked.2⟩
  · cases hLimit

theorem Account.check_of_wellFormed {a : AccountRow} (h : a.WellFormed) :
    Account.check a = .ok ⟨a, h⟩ := by
  rw [Account.check, dif_pos h]

theorem holdAccount_of_room {key : String} (hBound : 0 ≤ bound)
    (h : HasRoom settings currency bound accounts key) :
    ∃ accounts', holdAccount settings currency bound accounts key = .ok accounts' ∧
      ∀ k, k ≠ key → accounts'.get? k = accounts.get? k := by
  unfold HasRoom at h
  cases hGet : accounts.get? key with
  | some a =>
    rw [hGet] at h
    obtain ⟨⟨hLow, hHigh⟩, hHeld, hCharged, hFits⟩ := a.checked
    have hNonneg : 0 ≤ a.held + bound := by omega
    have hWellFormed : ({ a.toAccountRow with held := a.held + bound } : AccountRow).WellFormed :=
      ⟨⟨hLow, hHigh⟩, hNonneg, hCharged, h⟩
    have hRange : -maxI64 - 1 ≤ a.held + bound ∧ a.held + bound ≤ maxI64 := by
      unfold maxMicrounits at hHigh
      unfold maxI64
      omega
    have hSame : -maxI64 - 1 ≤ a.charged + 0 ∧ a.charged + 0 ≤ maxI64 := by
      unfold maxMicrounits at hHigh
      unfold maxI64
      omega
    have hMove : a.move bound 0 = .ok ⟨_, hWellFormed⟩ := by
      rw [Account.move, bigint_eq_ok.mpr ⟨hRange, rfl⟩, bigint_eq_ok.mpr ⟨hSame, rfl⟩]
      change Account.check { a.toAccountRow with held := a.held + bound, charged := a.charged + 0 } = _
      rw [Int.add_zero]
      exact Account.check_of_wellFormed hWellFormed
    refine ⟨accounts.set key ⟨_, hWellFormed⟩, ?_, fun k hk => Table.get?_set_ne _ hk _⟩
    rw [holdAccount, hGet]
    simp only [bind_eq_ok, mapError_eq_ok, pure_eq_ok]
    exact ⟨_, hMove, rfl⟩
  | none =>
    rw [hGet] at h
    obtain ⟨seed, hSeed, hLe⟩ := h
    obtain ⟨hPositive, hHigh⟩ := seedLimit_le hSeed
    have hLow : 0 ≤ seed.2 := by omega
    have hFits : bound ≤ seed.2 - 0 := by omega
    have hWellFormed : ({ currency := seed.1, limit := seed.2, held := bound, charged := 0 } :
        AccountRow).WellFormed := ⟨⟨hLow, hHigh⟩, hBound, le_refl _, hFits⟩
    have hOpens : ∃ accounts', accounts.insert? key ⟨_, hWellFormed⟩ = some accounts' :=
      Table.insert?_isSome_iff.mpr hGet
    obtain ⟨accounts', hInsert⟩ := hOpens
    refine ⟨accounts', ?_, fun k hk => by rw [Table.insert?_get? hInsert, if_neg hk]⟩
    rw [holdAccount, hGet]
    simp only [bind_eq_ok, okOr_eq_ok, mapError_eq_ok, insertRow_eq_ok]
    exact ⟨seed, hSeed, _, Account.check_of_wellFormed hWellFormed, hInsert⟩

/-- Different accounts with room can all be held. -/
theorem holdAccounts_of_room {keys : List String} (hBound : 0 ≤ bound) (hNodup : keys.Nodup)
    (h : ∀ key ∈ keys, HasRoom settings currency bound accounts key) :
    ∃ accounts', keys.foldlM (holdAccount settings currency bound) accounts = .ok accounts' := by
  induction keys generalizing accounts with
  | nil => exact ⟨accounts, rfl⟩
  | cons key keys ih =>
    obtain ⟨hNot, hRest⟩ := List.nodup_cons.mp hNodup
    obtain ⟨next, hHold, hKept⟩ := holdAccount_of_room hBound (h key List.mem_cons_self)
    have hRoom : ∀ k ∈ keys, HasRoom settings currency bound next k := by
      intro k hk
      have hOld := h k (List.mem_cons_of_mem _ hk)
      have hOther : k ≠ key := fun hEq => hNot (hEq ▸ hk)
      unfold HasRoom at hOld ⊢
      rw [hKept k hOther]
      exact hOld
    obtain ⟨accounts', hFold⟩ := ih hRest hRoom
    exact ⟨accounts', by rw [List.foldlM_cons, hHold]; exact hFold⟩

end Budgets

/-- The identifiers that a proposal draws are new. -/
structure FreshDraws (tick : Tick) (t : Tables) : Prop where
  effect : t.effects.get? (tick.draw .effect) = none
  shown : ∀ v, t.journal.projections.get? ⟨"EffectIntent", (tick.draw .effect).toText, v⟩ = none
  announced : ∀ k o, t.journal.outbox.get? k = some o → o.aggregateId ≠ tick.draw .effect
  reservation : t.budget.reservations.get? (tick.draw .reservation) = none
  logged : ∀ k l, t.budget.ledger.get? k = some l → l.reservationId ≠ tick.draw .reservation
  costEvent : t.budget.ledger.get? (tick.draw .costEvent) = none
  artifact : t.journal.artifacts.get? (tick.draw (.artifact 0)) = none
  stored : ∀ k a, t.journal.artifacts.get? k = some a →
    ∀ actor digest, a.storageKey ≠ storageKey actor (tick.draw (.artifact 0)) digest
  audit : t.journal.audit.get? (tick.draw (.audit 0)) = none
  outbox : t.journal.outbox.get? (tick.draw (.outbox 0)) = none

section Creating

variable {env : Env} {tick : Tick} {t : Tables}

theorem reserveBudget_of_room {q : ReserveRequest} {currency : Currency} (hFresh : FreshDraws tick t)
    (hPositive : 0 < q.upperBound) (hHigh : q.upperBound ≤ maxMicrounits)
    (hCurrency : Currency.ofText? q.currency = some currency) (hNodup : q.accountKeys.Nodup)
    (hRoom : ∀ key ∈ q.accountKeys,
      HasRoom t.budget.settings q.currency q.upperBound t.budget.accounts key)
    (hUnique : ∀ j r, t.budget.reservations.get? j = some r →
      ¬(r.runId = q.runId ∧ r.logicalCallId = q.logicalCallId))
    (hRun : t.runs.contains q.runId = true) :
    ∃ b' m, reserveBudget tick t.identity.tenantId t.runs.contains t.budget q = .ok (b', m) := by
  obtain ⟨accounts, hHold⟩ := holdAccounts_of_room (le_of_lt hPositive) hNodup hRoom
  have hWellFormed : (q.row tick currency).WellFormed := by
    refine ⟨⟨le_of_lt hPositive, hHigh⟩, fun used hUsed => ?_, ?_⟩
    · cases hUsed
    · constructor <;> intro h <;> cases h
  have hRow := Reservation.check_of_wellFormed hWellFormed
  have hInserts : ∃ reservations, t.budget.reservations.insert? (tick.draw .reservation)
      ⟨_, hWellFormed⟩ = some reservations := Table.insert?_isSome_iff.mpr hFresh.reservation
  obtain ⟨reservations, hInsert⟩ := hInserts
  have hStored : reservations.contains (tick.draw .reservation) = true :=
    Table.contains_iff.mpr ⟨_, Table.insert?_get?_self hInsert⟩
  have hLogs : ∃ b', insertCostEvent tick { t.budget with accounts, reservations }
      (tick.draw .reservation) .reserved q.upperBound 0 none = .ok b' := by
    obtain ⟨ledger, hLedger⟩ := Table.insert?_isSome_iff.mpr hFresh.costEvent
    refine ⟨_, insertCostEvent_eq_ok.mpr ⟨fun j l hl hEntry => ?_, hStored, ledger, hLedger, rfl⟩⟩
    exact hFresh.logged j l hl hEntry.1
  obtain ⟨b', hEvent⟩ := hLogs
  simp only [reserveBudget, bind_eq_ok, require_eq_ok, sql_eq_ok, insertRow_eq_ok, okOr_eq_ok,
    pure_eq_ok, Table.any_eq_false_iff, decide_eq_false_iff_not, exists_const, Prod.mk.injEq]
  exact ⟨b', _, hPositive, accounts, hHold, currency, hCurrency, _, hRow, hUnique, reservations,
    hInsert, hRun, b', hEvent, rfl, rfl⟩

/-- The budget has room for the bound of a proposal, in both accounts. -/
def Proposal.Room (p : Proposal) (t : Tables) : Prop :=
  ∀ key ∈ effectAccountKeys,
    HasRoom t.budget.settings "USD" (priceBound p.priceProfile) t.budget.accounts key

/-- The run has a reservation for the key of the proposal. -/
def Proposal.Reserved (p : Proposal) (t : Tables) : Prop :=
  ∃ j r, t.budget.reservations.get? j = some r ∧ r.runId = p.runId ∧
    r.logicalCallId = "effect-" ++ p.idempotencyKey

theorem priceBound_le (profile : String) : priceBound profile ≤ maxMicrounits := by
  unfold priceBound maxMicrounits
  split <;> omega

theorem resolveRun_stored {grantId runId : Uuid} (h : resolveRun t grantId = .ok runId) :
    t.runs.contains runId = true := by
  unfold resolveRun at h
  split at h
  · cases h
  · rename_i run hActive
    cases h
    have hMem : runId ∈ activeRuns t grantId := by
      rw [hActive]
      exact List.mem_cons_self
    obtain ⟨⟨id, r⟩, hRow, rfl⟩ := List.mem_map.mp hMem
    exact Table.contains_iff.mpr ⟨r, (Table.mem_select.mp hRow).1⟩
  · cases h

theorem usd_currency : ∃ c, Currency.ofText? "USD" = some c := by
  have hValid : isCurrency "USD" = true := by decide
  exact ⟨_, dif_pos hValid⟩

theorem effectAccountKeys_nodup : effectAccountKeys.Nodup := by decide

/-- The row of an admitted proposal fits into the table. -/
theorem insertProposed {actor : CommandActor} {p : Proposal} {q : ReserveRequest} {b' : Budget}
    {row : Reservation} (hFresh : FreshDraws tick t) (hAdmitted : Admitted env tick t actor p)
    (hNone : existingEffect t p.connectionId p.idempotencyKey = none)
    (hReserved : Reserved tick t.budget q row b') :
    ∃ t', insertEffect { t with budget := b' } (tick.draw .effect)
      (p.row tick (tick.draw .reservation)) = .ok t' := by
  obtain ⟨connection, hConnection, -⟩ := hAdmitted.connection
  obtain ⟨grant, hGrant⟩ := hAdmitted.grant
  obtain ⟨-, d, hd, -⟩ := requireActiveGrant_ok hGrant
  have hUnused : ∀ j e, t.effects.get? j = some e →
      ¬(e.connectionId = p.connectionId ∧ e.idempotencyKey = p.idempotencyKey) := by
    intro j e he
    exact of_decide_eq_false (Table.find?_eq_none_iff.mp hNone j e he)
  have hInserts : ∃ effects, t.effects.insert? (tick.draw .effect)
      (p.row tick (tick.draw .reservation)) = some effects :=
    Table.insert?_isSome_iff.mpr hFresh.effect
  obtain ⟨effects, hInsert⟩ := hInserts
  have hReservation : b'.reservations.contains (tick.draw .reservation) = true :=
    Table.contains_iff.mpr ⟨row, Table.insert?_get?_self hReserved.inserted⟩
  simp only [insertEffect, bind_eq_ok, require_eq_ok, sql_eq_ok, insertRow_eq_ok, pure_eq_ok,
    Table.any_eq_false_iff, decide_eq_false_iff_not, exists_const]
  refine ⟨_, hUnused, effects, hInsert, ⟨resolveRun_stored hAdmitted.run,
    Table.contains_iff.mpr ⟨d, hd⟩, Table.contains_iff.mpr ⟨connection, hConnection⟩, ?_,
    hReservation, ?_⟩, rfl⟩
  · intro a ha
    cases ha
  · intro o ho
    cases ho

/-- A new effect is created exactly if its price is known and its key is new for the run. -/
theorem proposeNew_succeeds_iff {actor : CommandActor} {p : Proposal} (hFresh : FreshDraws tick t)
    (hAdmitted : Admitted env tick t actor p)
    (hNone : existingEffect t p.connectionId p.idempotencyKey = none) (hRoom : p.Room t) :
    (∃ t' m, proposeNew env tick t p = .ok (t', m)) ↔
      p.priceProfile ≠ "0.0.0" ∧ ¬p.Reserved t := by
  constructor
  · rintro ⟨t', m, h⟩
    obtain ⟨b', effects, hCreated, -, -⟩ := proposeNew_ok h
    obtain ⟨row, hReserved⟩ := hCreated.reserved
    refine ⟨fun hProfile => ?_, ?_⟩
    · have hPositive := hReserved.positive
      change 0 < priceBound p.priceProfile at hPositive
      rw [hProfile] at hPositive
      exact absurd hPositive (by decide)
    · rintro ⟨j, r, hr, hRun, hCall⟩
      exact hReserved.unique j r hr ⟨hRun, hCall⟩
  · rintro ⟨hProfile, hKey⟩
    have hBound : priceBound p.priceProfile = 20 := if_neg hProfile
    have hPositive : 0 < p.reserveRequest.upperBound := by
      change 0 < priceBound p.priceProfile
      omega
    have hUnique : ∀ j r, t.budget.reservations.get? j = some r →
        ¬(r.runId = p.runId ∧ r.logicalCallId = "effect-" ++ p.idempotencyKey) :=
      fun j r hr hBoth => hKey ⟨j, r, hr, hBoth⟩
    have hRun := resolveRun_stored hAdmitted.run
    obtain ⟨usd, hUsd⟩ := usd_currency
    obtain ⟨b', m, hReserve⟩ := reserveBudget_of_room hFresh hPositive (priceBound_le _) hUsd
      effectAccountKeys_nodup hRoom hUnique hRun
    obtain ⟨row, hReserved, -, hPrimary⟩ := reserveBudget_ok hReserve
    have hParse : parseUuid m.primary.resourceId.text = .ok (tick.draw .reservation) := by
      rw [hPrimary]
      exact parseUuid_toText _
    obtain ⟨t', hInsert⟩ := insertProposed hFresh hAdmitted hNone hReserved
    refine ⟨t', effectMutation env t (tick.draw .effect) (p.row tick (tick.draw .reservation))
      "propose effect" true, ?_⟩
    simp only [proposeNew, bind_eq_ok, pure_eq_ok, Prod.exists, Prod.mk.injEq]
    exact ⟨b', m, hReserve, _, hParse, t', hInsert, rfl, rfl⟩

end Creating

/-! ## Recording a proposal -/

/-- The document of an effect can be stored: it matches its contract, the object store takes it,
and its receipt matches the contract of receipts. -/
structure Storable (env : Env) (tick : Tick) (t : Tables) (id : Uuid) (e : EffectRow) : Prop where
  contract : env.schemaValid "EffectIntent"
    (effectProjectionValue env t.identity.tenantId id e) = true
  canonical : ∃ bytes, env.canonicalBytes (effectProjectionValue env t.identity.tenantId id e) =
    some bytes ∧ 1 ≤ bytes.length ∧ bytes.length ≤ 1073741824
  put : ∀ key, tick.put key = .ok ()
  receipt : env.receiptValid (commandReceipt tick (effectMutation env t id e "" true)) = true

/-- This version of the effect was not shown or announced by a proposal yet. -/
structure Unpublished (j : Journal) (id : Uuid) (version : Version) : Prop where
  shown : j.projections.get? ⟨"EffectIntent", id.toText, version.val⟩ = none
  announced : ∀ k o, j.outbox.get? k = some o → ¬(o.aggregateId = id ∧
    o.aggregateVersion = version.val ∧ o.eventName = "effect.propose")

section Recording

variable {env : Env} {tick : Tick} {actor : CommandActor}

variable {t : Tables} {id : Uuid} {e : EffectRow}

theorem FreshDraws.record (h : FreshDraws tick t) : FreshRecord tick t.journal :=
  ⟨h.artifact, h.stored, h.audit, h.outbox⟩

/-- What a mutation of an effect needs to be recorded. -/
theorem recordEffect_succeeds_iff {principal : Uuid} {label : String} (hFresh : FreshDraws tick t)
    (hStorable : Storable env tick t id e) (hTenant : e.contentRef.tenantId = actor.tenantId)
    (hPrincipal : parseUuid actor.principalId.text = .ok principal) :
    (∃ j', recordChanges env tick actor "effect.propose" 0 t.journal
      (effectMutation env t id e label true).changes = .ok j') ↔
      ContentStored t.journal e.contentRef ∧ Unpublished t.journal id e.version := by
  have hWritable : ∀ change ∈ (effectMutation env t id e label true).changes,
      Writable env tick change := by
    intro change hMem
    rw [List.mem_singleton.mp hMem]
    exact ⟨hStorable.contract, hStorable.canonical, hStorable.put⟩
  refine (recordEffect_iff hFresh.record hWritable hPrincipal).trans
    (and_congr (and_iff_right hTenant) ?_)
  exact ⟨fun h => ⟨h.shown, h.announced⟩, fun h => ⟨h.shown, h.announced⟩⟩

end Recording

/-! ## Answering a proposal -/

def Answer.receipt : Answer → CommandReceipt
  | .replayed r => r
  | .committed r => r

/-- A proposal past its checks: the actor is authorized, the connection, the grant and the kill
switches let it through, and the grant has one active run. -/
structure Proposes (env : Env) (catalogue : Catalogue) (tick : Tick) (s : Store)
    (c : Command CommandInput) (principal : Uuid) (p : Proposal) : Prop where
  admitted : admitCommand (service env catalogue) s c = .ok principal
  proposal : ∃ action connectionId target contentRef grantId profile,
    c.input = .effectPropose action connectionId target contentRef grantId profile ∧
    admitProposal env tick s.tables c.actor c.idempotencyKey.text action connectionId target
      contentRef grantId profile = .ok p

/-- The effect that a proposal shows: the one of its key, or a new one. -/
def Proposal.shown (p : Proposal) (tick : Tick) (t : Tables) : Uuid × EffectRow :=
  match existingEffect t p.connectionId p.idempotencyKey with
  | some (id, e) => (id, p.again e)
  | none => (tick.draw .effect, p.row tick (tick.draw .reservation))

/-- The event answered with the effect of the proposal, and one more reservation, as new rows. -/
def Creates (event : SystemEvent) (p : Proposal) : Prop :=
  ∃ a id e r, event.response = .ok (.answer a) ∧ a.receipt.effectId = some id.toId ∧
    event.before.tables.effects.insert? id e = some event.after.tables.effects ∧
    (e.connectionId = p.connectionId ∧ e.idempotencyKey = p.idempotencyKey ∧
      e.fingerprint = p.fingerprint) ∧
    event.before.tables.budget.reservations.insert? e.reservationId r =
      some event.after.tables.budget.reservations

/-- The proposal was answered as its connection, its key and its fingerprint say. -/
def Identified (event : SystemEvent) (p : Proposal) : Prop :=
  match existingEffect event.before.tables p.connectionId p.idempotencyKey with
  | some (id, e) =>
    if e.fingerprint = p.fingerprint then
      (∃ a, event.response = .ok (.answer a) ∧ a.receipt.effectId = some id.toId) ∧
        event.after.tables.effects = event.before.tables.effects ∧
        event.after.tables.budget = event.before.tables.budget
    else event.response = .error (.conflict "IDEMPOTENCY_CONFLICT") ∧ event.after = event.before
  | none => p.Room event.before.tables → Creates event p

/-- Nothing stands between the proposal and that answer: not a receipt of another command, not the
projection of the version it would show again, not the reservation of another connection's
effect. -/
def Unobstructed (tick : Tick) (s : Store) (c : Command CommandInput) (key : ReceiptKey)
    (p : Proposal) : Prop :=
  match liveReceipt tick s key, existingEffect s.tables p.connectionId p.idempotencyKey with
  | some row, some (id, e) =>
    if e.fingerprint = p.fingerprint then
      row.fingerprint = c.fingerprint ∧ row.receipt.effectId = some id.toId
    else row.fingerprint ≠ c.fingerprint
  | some _, none => ¬p.Room s.tables
  | none, some (id, e) =>
    e.fingerprint = p.fingerprint →
      ContentStored s.tables.journal p.contentRef ∧ Unpublished s.tables.journal id e.version
  | none, none =>
    p.Room s.tables →
      ContentStored s.tables.journal p.contentRef ∧ p.priceProfile ≠ "0.0.0" ∧
        ¬p.Reserved s.tables

section Answering

variable {env : Env} {catalogue : Catalogue} {tick : Tick} {s s' : Store}
  {c : Command CommandInput} {principal : Uuid} {p : Proposal}

theorem step_answer {a : Answer}
    (h : execute env (service env catalogue) tick s c = .ok (s', a)) :
    step env catalogue s ⟨tick, .command c⟩ = (s', .ok (.answer a)) := by
  rw [step, runOperation, h]
  rfl

theorem step_refuse {failure : CommandFailure}
    (h : execute env (service env catalogue) tick s c = .error failure) :
    step env catalogue s ⟨tick, .command c⟩ = (s, .error failure) := by
  rw [step, runOperation, h]
  rfl

namespace Proposes

theorem operation (h : Proposes env catalogue tick s c principal p) :
    (service env catalogue).operation c.input = "effect.propose" := by
  obtain ⟨action, connectionId, target, contentRef, grantId, profile, hInput, -⟩ := h.proposal
  rw [hInput]
  rfl

theorem handle (h : Proposes env catalogue tick s c principal p) :
    (service env catalogue).handle tick s.tables c =
      match existingEffect s.tables p.connectionId p.idempotencyKey with
      | some (id, e) => proposeAgain env s.tables p id e
      | none => proposeNew env tick s.tables p := by
  obtain ⟨action, connectionId, target, contentRef, grantId, profile, hInput, hAdmit⟩ := h.proposal
  change dispatchCommand env tick s.tables c = _
  rw [dispatchCommand, hInput]
  change proposeEffect env tick s.tables c.actor c.idempotencyKey.text action connectionId target
    contentRef grantId profile = _
  rw [proposeEffect, hAdmit]
  rfl

theorem admits (h : Proposes env catalogue tick s c principal p) :
    Admitted env tick s.tables c.actor p ∧ p.contentRef.tenantId = c.actor.tenantId := by
  obtain ⟨action, connectionId, target, contentRef, grantId, profile, -, hAdmit⟩ := h.proposal
  obtain ⟨hAdmitted, -, -, hTenant, -, -, rfl, -⟩ := admitProposal_ok hAdmit
  exact ⟨hAdmitted, hTenant⟩

end Proposes

theorem identified_again {event : SystemEvent} {id : Uuid} {e : EffectRow}
    (h : existingEffect event.before.tables p.connectionId p.idempotencyKey = some (id, e))
    (hSame : e.fingerprint = p.fingerprint) :
    Identified event p ↔
      (∃ a, event.response = .ok (.answer a) ∧ a.receipt.effectId = some id.toId) ∧
        event.after.tables.effects = event.before.tables.effects ∧
        event.after.tables.budget = event.before.tables.budget := by
  unfold Identified
  rw [h]
  exact iff_of_eq (if_pos hSame)

theorem identified_other {event : SystemEvent} {id : Uuid} {e : EffectRow}
    (h : existingEffect event.before.tables p.connectionId p.idempotencyKey = some (id, e))
    (hOther : e.fingerprint ≠ p.fingerprint) :
    Identified event p ↔
      event.response = .error (.conflict "IDEMPOTENCY_CONFLICT") ∧ event.after = event.before := by
  unfold Identified
  rw [h]
  exact iff_of_eq (if_neg hOther)

theorem identified_new {event : SystemEvent}
    (h : existingEffect event.before.tables p.connectionId p.idempotencyKey = none) :
    Identified event p ↔ (p.Room event.before.tables → Creates event p) := by
  unfold Identified
  rw [h]

variable (env catalogue tick s c) in
/-- The event of the command. -/
abbrev commandEvent : SystemEvent := Machine.eventAt (step env catalogue) s ⟨tick, .command c⟩

/-- Under a live receipt the handler is out of reach. -/
theorem identified_iff_of_live {row : ReceiptRow}
    (h : Proposes env catalogue tick s c principal p)
    (hLive : liveReceipt tick s (receiptKey (service env catalogue) c principal) = some row)
    (hValid : env.receiptValid row.receipt = true) :
    Identified (commandEvent env catalogue tick s c) p ↔
      Unobstructed tick s c (receiptKey (service env catalogue) c principal) p := by
  have hExecute : execute env (service env catalogue) tick s c = _ :=
    (execute_live h.admitted hLive).trans (replayReceipt_eq hValid)
  -- the answer is the stored receipt or the conflict, and the store stays as it is
  have hAnswer : (commandEvent env catalogue tick s c).after = s ∧
      if row.fingerprint = c.fingerprint then
        (commandEvent env catalogue tick s c).response = .ok (.answer (.replayed row.receipt))
      else (commandEvent env catalogue tick s c).response =
        .error (.conflict "IDEMPOTENCY_CONFLICT") := by
    split at hExecute
    · rename_i hSame
      rw [if_pos hSame]
      have hStep := step_answer hExecute
      exact ⟨congrArg Prod.fst hStep, congrArg Prod.snd hStep⟩
    · rename_i hOther
      rw [if_neg hOther]
      have hStep := step_refuse hExecute
      exact ⟨congrArg Prod.fst hStep, congrArg Prod.snd hStep⟩
  obtain ⟨hAfter, hResponse⟩ := hAnswer
  unfold Unobstructed
  rw [hLive]
  cases hExisting : existingEffect s.tables p.connectionId p.idempotencyKey with
  | none =>
    rw [identified_new hExisting]
    refine imp_congr_right fun hRoom => ?_
    constructor
    · rintro ⟨a, id, e, r, -, -, hInsert, -⟩
      rw [hAfter] at hInsert
      have hNew := (Table.insert?_eq_some hInsert).1
      cases hNew.symm.trans (Table.insert?_get?_self hInsert)
    · exact False.elim
  | some found =>
    obtain ⟨id, e⟩ := found
    change _ ↔ if e.fingerprint = p.fingerprint then
      row.fingerprint = c.fingerprint ∧ row.receipt.effectId = some id.toId
      else row.fingerprint ≠ c.fingerprint
    by_cases hSame : e.fingerprint = p.fingerprint
    · rw [identified_again hExisting hSame, if_pos hSame]
      constructor
      · rintro ⟨⟨a, ha, hId⟩, -⟩
        split at hResponse
        · rename_i hCommand
          cases ha.symm.trans hResponse
          exact ⟨hCommand, hId⟩
        · cases ha.symm.trans hResponse
      · rintro ⟨hCommand, hId⟩
        rw [if_pos hCommand] at hResponse
        exact ⟨⟨_, hResponse, hId⟩, by rw [hAfter]; rfl, by rw [hAfter]; rfl⟩
    · rw [identified_other hExisting hSame, if_neg hSame]
      constructor
      · rintro ⟨hConflict, -⟩ hCommand
        rw [if_pos hCommand] at hResponse
        cases hConflict.symm.trans hResponse
      · intro hCommand
        rw [if_neg hCommand] at hResponse
        exact ⟨hResponse, hAfter⟩

theorem executed_of_answer {a : Answer}
    (h : (commandEvent env catalogue tick s c).response = .ok (.answer a)) :
    ∃ s', execute env (service env catalogue) tick s c = .ok (s', a) := by
  cases hExecute : execute env (service env catalogue) tick s c with
  | error failure =>
    have hStep : (commandEvent env catalogue tick s c).response = _ :=
      congrArg Prod.snd (step_refuse hExecute)
    cases hStep.symm.trans h
  | ok next =>
    obtain ⟨s', a'⟩ := next
    have hStep : (commandEvent env catalogue tick s c).response = _ :=
      congrArg Prod.snd (step_answer hExecute)
    cases hStep.symm.trans h
    exact ⟨s', rfl⟩

section Handled

variable {t : Tables} {id : Uuid} {e : EffectRow} {label : String}
  (h : Proposes env catalogue tick s c principal p)
  (hLive : liveReceipt tick s (receiptKey (service env catalogue) c principal) = none)
  (hFresh : FreshDraws tick s.tables) (hStorable : Storable env tick s.tables id e)
  (hContent : e.contentRef = p.contentRef)

include h hLive hFresh hStorable hContent

/-- A handled proposal commits if the effect it shows can be recorded. -/
theorem propose_commits
    (hHandle : (service env catalogue).handle tick s.tables c =
      .ok (t, effectMutation env s.tables id e label true))
    (hJournal : t.journal = s.tables.journal)
    (hStored : ContentStored s.tables.journal p.contentRef)
    (hUnpublished : Unpublished s.tables.journal id e.version) :
    (∃ a, (commandEvent env catalogue tick s c).response = .ok (.answer a) ∧
      a.receipt.effectId = some id.toId) ∧
    (commandEvent env catalogue tick s c).after.tables.effects = t.effects ∧
    (commandEvent env catalogue tick s c).after.tables.budget = t.budget := by
  have hTenant : e.contentRef.tenantId = c.actor.tenantId := hContent ▸ h.admits.2
  have hRecords : ∃ j, recordChanges env tick c.actor ((service env catalogue).operation c.input) 0
      t.journal (effectMutation env s.tables id e label true).changes = .ok j := by
    rw [h.operation, hJournal, recordEffect_succeeds_iff hFresh hStorable hTenant
      (admitCommand_principal h.admitted), hContent]
    exact ⟨hStored, hUnpublished⟩
  obtain ⟨j, hRecord⟩ := hRecords
  have hLength : 1 ≤ (receiptKey (service env catalogue) c principal).operation.toList.length ∧
      (receiptKey (service env catalogue) c principal).operation.toList.length ≤ 128 := by
    change 1 ≤ ((service env catalogue).operation c.input).toList.length ∧
      ((service env catalogue).operation c.input).toList.length ≤ 128
    rw [h.operation]
    decide
  obtain ⟨s', hCommit, hTables⟩ := commitCommand_of_recorded hLength hHandle
    (fun _ hNone => by cases hNone) hRecord hStorable.receipt
  have hStep := step_answer ((execute_new h.admitted hLive).trans hCommit)
  have hAfter : (commandEvent env catalogue tick s c).after = s' := congrArg Prod.fst hStep
  refine ⟨⟨_, congrArg Prod.snd hStep, rfl⟩, ?_, ?_⟩
  · rw [hAfter, hTables]
  · rw [hAfter, hTables]

/-- And only then. -/
theorem propose_recorded {a : Answer}
    (hHandle : ∀ t' m, (service env catalogue).handle tick s.tables c = .ok (t', m) →
      ∃ label, m = effectMutation env s.tables id e label true ∧ t'.journal = s.tables.journal)
    (hResponse : (commandEvent env catalogue tick s c).response = .ok (.answer a)) :
    ContentStored s.tables.journal p.contentRef ∧ Unpublished s.tables.journal id e.version := by
  have hTenant : e.contentRef.tenantId = c.actor.tenantId := hContent ▸ h.admits.2
  obtain ⟨s', hExecute⟩ := executed_of_answer hResponse
  rw [execute_new h.admitted hLive] at hExecute
  obtain ⟨t', m, receipt, hCommitted, -⟩ := commitCommand_ok hExecute
  obtain ⟨label, rfl, hJournal⟩ := hHandle t' m hCommitted.handled
  have hRecorded := hCommitted.recorded
  rw [h.operation, hJournal] at hRecorded
  rw [← hContent, ← recordEffect_succeeds_iff hFresh hStorable hTenant
    (admitCommand_principal h.admitted)]
  exact ⟨_, hRecorded⟩

end Handled

/-- The key names an effect already: the proposal shows it again, in the version it has. -/
theorem identified_iff_of_existing {id : Uuid} {e : EffectRow}
    (h : Proposes env catalogue tick s c principal p)
    (hLive : liveReceipt tick s (receiptKey (service env catalogue) c principal) = none)
    (hFresh : FreshDraws tick s.tables)
    (hExisting : existingEffect s.tables p.connectionId p.idempotencyKey = some (id, e))
    (hStorable : Storable env tick s.tables id (p.again e)) :
    Identified (commandEvent env catalogue tick s c) p ↔
      (e.fingerprint = p.fingerprint →
        ContentStored s.tables.journal p.contentRef ∧
          Unpublished s.tables.journal id e.version) := by
  have hHandle := h.handle
  rw [hExisting] at hHandle
  change _ = proposeAgain env s.tables p id e at hHandle
  by_cases hSame : e.fingerprint = p.fingerprint
  · rw [identified_again hExisting hSame, imp_iff_right hSame]
    have hAgain : proposeAgain env s.tables p id e =
        .ok (s.tables, effectMutation env s.tables id (p.again e) "propose effect replay" true) := by
      simp only [proposeAgain, bind_eq_ok, require_eq_ok, pure_eq_ok, exists_const]
      exact ⟨hSame, rfl⟩
    rw [hAgain] at hHandle
    constructor
    · rintro ⟨⟨a, hResponse, -⟩, -⟩
      refine propose_recorded (e := p.again e) h hLive hFresh hStorable rfl (fun t' m hOk => ?_)
        hResponse
      cases hHandle.symm.trans hOk
      exact ⟨_, rfl, rfl⟩
    · rintro ⟨hStored, hUnpublished⟩
      exact propose_commits h hLive hFresh hStorable rfl hHandle rfl hStored hUnpublished
  · have hRefuse : proposeAgain env s.tables p id e =
        .error (.conflict "IDEMPOTENCY_CONFLICT") := by
      simp only [proposeAgain, require, if_neg hSame]
      rfl
    rw [hRefuse] at hHandle
    have hStep := step_refuse ((execute_new h.admitted hLive).trans (commitCommand_error hHandle))
    rw [identified_other hExisting hSame]
    exact ⟨fun _ hEq => absurd hEq hSame,
      fun _ => ⟨congrArg Prod.snd hStep, congrArg Prod.fst hStep⟩⟩

/-- The key is new: the proposal reserves its bound and creates the effect. -/
theorem identified_iff_of_new (h : Proposes env catalogue tick s c principal p)
    (hLive : liveReceipt tick s (receiptKey (service env catalogue) c principal) = none)
    (hFresh : FreshDraws tick s.tables)
    (hNone : existingEffect s.tables p.connectionId p.idempotencyKey = none)
    (hStorable : Storable env tick s.tables (tick.draw .effect)
      (p.row tick (tick.draw .reservation))) :
    Identified (commandEvent env catalogue tick s c) p ↔
      (p.Room s.tables →
        ContentStored s.tables.journal p.contentRef ∧ p.priceProfile ≠ "0.0.0" ∧
          ¬p.Reserved s.tables) := by
  have hHandle := h.handle
  rw [hNone] at hHandle
  change _ = proposeNew env tick s.tables p at hHandle
  rw [identified_new hNone]
  refine imp_congr_right fun hRoom => ?_
  have hCreates := proposeNew_succeeds_iff hFresh h.admits.1 hNone hRoom
  constructor
  · rintro ⟨a, -, -, -, hResponse, -⟩
    have hHandled : ∃ t' m, proposeNew env tick s.tables p = .ok (t', m) := by
      obtain ⟨s', hExecute⟩ := executed_of_answer hResponse
      rw [execute_new h.admitted hLive] at hExecute
      obtain ⟨t', m, receipt, hCommitted, -⟩ := commitCommand_ok hExecute
      exact ⟨t', m, hHandle.symm.trans hCommitted.handled⟩
    refine ⟨?_, hCreates.mp hHandled⟩
    refine (propose_recorded h hLive hFresh hStorable rfl (fun t' m hOk => ?_) hResponse).1
    obtain ⟨b', effects, -, rfl, rfl⟩ := proposeNew_ok (hHandle.symm.trans hOk)
    exact ⟨_, rfl, rfl⟩
  · rintro ⟨hStored, hRest⟩
    obtain ⟨t', m, hNew⟩ := hCreates.mpr hRest
    obtain ⟨b', effects, hCreated, rfl, rfl⟩ := proposeNew_ok hNew
    obtain ⟨row, hReserved⟩ := hCreated.reserved
    have hUnpublished : Unpublished s.tables.journal (tick.draw .effect) .one :=
      ⟨hFresh.shown _, fun k o ho hBoth => hFresh.announced k o ho hBoth.1⟩
    obtain ⟨⟨a, hResponse, hId⟩, hEffects, hBudget⟩ := propose_commits h hLive hFresh hStorable rfl
      (hHandle.trans hNew) rfl hStored hUnpublished
    refine ⟨a, _, p.row tick (tick.draw .reservation), row, hResponse, hId, ?_, ⟨rfl, rfl, rfl⟩, ?_⟩
    · rw [hEffects]
      exact hCreated.inserted
    · rw [hBudget]
      exact hReserved.inserted

/-- All cases together. -/
theorem identified_iff_unobstructed (h : Proposes env catalogue tick s c principal p)
    (hValid : ∀ row, liveReceipt tick s (receiptKey (service env catalogue) c principal) =
      some row → env.receiptValid row.receipt = true)
    (hFresh : FreshDraws tick s.tables)
    (hStorable : Storable env tick s.tables (p.shown tick s.tables).1 (p.shown tick s.tables).2) :
    Identified (commandEvent env catalogue tick s c) p ↔
      Unobstructed tick s c (receiptKey (service env catalogue) c principal) p := by
  cases hLive : liveReceipt tick s (receiptKey (service env catalogue) c principal) with
  | some row => exact identified_iff_of_live h hLive (hValid row hLive)
  | none =>
    unfold Proposal.shown at hStorable
    cases hExisting : existingEffect s.tables p.connectionId p.idempotencyKey with
    | some found =>
      obtain ⟨id, e⟩ := found
      rw [hExisting] at hStorable
      rw [identified_iff_of_existing h hLive hFresh hExisting hStorable, Unobstructed, hLive,
        hExisting]
    | none =>
      rw [hExisting] at hStorable
      rw [identified_iff_of_new h hLive hFresh hExisting hStorable, Unobstructed, hLive, hExisting]

end Answering

/-! ## Along a run -/

/-- Every stored receipt matches the contract of receipts. -/
def ReceiptsValid (env : Env) (s : Store) : Prop :=
  ∀ key row, s.receipts.get? key = some row → env.receiptValid row.receipt = true

theorem execute_receiptsValid {ι : Type} {env : Env} {svc : Service ι} {tick : Tick} {s s' : Store}
    {c : Command ι} {a : Answer} (hValid : ReceiptsValid env s)
    (h : execute env svc tick s c = .ok (s', a)) : ReceiptsValid env s' := by
  obtain ⟨principal, -, ⟨row, -, -, rfl, -⟩ | ⟨hLive, t, m, receipt, hCommitted, -⟩⟩ := execute_ok h
  · exact hValid
  · have hExpired := liveReceipt_eq_none.mp hLive
    obtain ⟨hSelf, hOther⟩ := storeReceipt_get?
      (fun old hOld => le_trans (hExpired old hOld) tick.now_le_stamped) hCommitted.stored
    intro key row hRow
    by_cases hKey : key = receiptKey svc c principal
    · subst hKey
      cases hSelf.symm.trans hRow
      exact hCommitted.valid
    · rw [hOther key hKey] at hRow
      exact hValid key row hRow

theorem quarantineCorruptArtifact_receipts {ι : Type} {env : Env} {svc : Service ι} {tick : Tick}
    {s s' : Store} {c : Command ι} {reference : ArtifactRef}
    (h : quarantineCorruptArtifact env svc tick s c reference = .ok s') :
    s'.receipts = s.receipts := by
  simp only [quarantineCorruptArtifact, bind_eq_ok] at h
  obtain ⟨-, -, -, -, -, -, id, -, h⟩ := h
  split at h
  · cases h
    rfl
  · rw [bind_eq_ok] at h
    obtain ⟨journal, -, h⟩ := h
    cases h
    rfl

theorem step_receiptsValid (env : Env) (catalogue : Catalogue) (s : Store) (c : Call)
    (h : ReceiptsValid env s) : ReceiptsValid env (step env catalogue s c).1 := by
  refine transact_invariant h fun s' reply hOk => ?_
  cases hOperation : c.operation with
  | command command =>
    rw [hOperation] at hOk
    simp only [runOperation, bind_eq_ok, pure_eq_ok, Prod.exists, Prod.mk.injEq] at hOk
    obtain ⟨_, a, hExecute, rfl, -⟩ := hOk
    exact execute_receiptsValid h hExecute
  | quarantine command reference =>
    rw [hOperation] at hOk
    simp only [runOperation, bind_eq_ok, pure_eq_ok, Prod.mk.injEq] at hOk
    obtain ⟨_, hQuarantine, rfl, -⟩ := hOk
    unfold ReceiptsValid
    rw [quarantineCorruptArtifact_receipts hQuarantine]
    exact h
  | system call =>
    rw [hOperation] at hOk
    simp only [runOperation, bind_eq_ok, pure_eq_ok, Prod.exists, Prod.mk.injEq] at hOk
    obtain ⟨tables, reply', -, rfl, -⟩ := hOk
    exact h

/-- A proposal past its checks, at any point of any run, is answered as its connection, key and
fingerprint say exactly if nothing stands in its way. -/
theorem proposal_identified_iff (env : Env) (catalogue : Catalogue) (s : Store)
    (calls : List Call) (hReceipts : ReceiptsValid env s) (event : SystemEvent)
    (hEvent : event ∈ Machine.trace (step env catalogue) s calls) (c : Command CommandInput)
    (hCommand : event.call.operation = .command c) (principal : Uuid) (p : Proposal)
    (hProposes : Proposes env catalogue event.call.tick event.before c principal p)
    (hFresh : FreshDraws event.call.tick event.before.tables)
    (hStorable : Storable env event.call.tick event.before.tables
      (p.shown event.call.tick event.before.tables).1
      (p.shown event.call.tick event.before.tables).2) :
    Identified event p ↔
      Unobstructed event.call.tick event.before c
        (receiptKey (service env catalogue) c principal) p := by
  obtain ⟨before, after, -, hAt⟩ := Machine.mem_trace (step env catalogue) hEvent
  have hValid : ReceiptsValid env event.before := by
    rw [hAt]
    exact Machine.run_invariant (step env catalogue)
      (fun s c h => step_receiptsValid env catalogue s c h) hReceipts before
  -- the event is the step of its command in the state before it
  obtain ⟨store, ⟨tick, operation⟩, response, store'⟩ := event
  cases hCommand
  have hStore : store = Machine.run (step env catalogue) s before :=
    congrArg Machine.Event.before hAt
  rw [← hStore] at hAt
  rw [hAt]
  exact identified_iff_unobstructed hProposes
    (fun row hLive => hValid _ row (liveReceipt_eq_some.mp hLive).1) hFresh hStorable

/-! ## A proposal sent again the next day -/

/-- The identifiers that a proposal draws, looked up in the tables. -/
def drawsUnused (tick : Tick) (t : Tables) : Bool :=
  !(t.effects.contains (tick.draw .effect)) &&
  !(t.journal.projections.any fun k _ => decide (k.resourceType = "EffectIntent" ∧
    k.resourceId = (tick.draw .effect).toText)) &&
  !(t.journal.outbox.any fun _ o => decide (o.aggregateId = tick.draw .effect)) &&
  !(t.budget.reservations.contains (tick.draw .reservation)) &&
  !(t.budget.ledger.any fun _ l => decide (l.reservationId = tick.draw .reservation)) &&
  !(t.budget.ledger.contains (tick.draw .costEvent)) &&
  !(t.journal.artifacts.contains (tick.draw (.artifact 0))) &&
  !(t.journal.artifacts.any fun _ a => decide (keySlot a.storageKey =
    (tick.draw (.artifact 0)).chars.reverse)) &&
  !(t.journal.audit.contains (tick.draw (.audit 0))) &&
  !(t.journal.outbox.contains (tick.draw (.outbox 0)))

theorem freshDraws_of_unused {tick : Tick} {t : Tables} (h : drawsUnused tick t = true) :
    FreshDraws tick t := by
  simp only [drawsUnused, Bool.and_eq_true, Bool.not_eq_true', Table.any_eq_false_iff,
    decide_eq_false_iff_not] at h
  obtain ⟨⟨⟨⟨⟨⟨⟨⟨⟨hEffect, hShown⟩, hAnnounced⟩, hReservation⟩, hLogged⟩, hCostEvent⟩, hArtifact⟩,
    hStored⟩, hAudit⟩, hOutbox⟩ := h
  refine
    { effect := Table.get?_eq_none_of_not_contains hEffect
      shown := fun v => ?_
      announced := hAnnounced
      reservation := Table.get?_eq_none_of_not_contains hReservation
      logged := hLogged
      costEvent := Table.get?_eq_none_of_not_contains hCostEvent
      artifact := Table.get?_eq_none_of_not_contains hArtifact
      stored := fun k a ha actor digest hKey => ?_
      audit := Table.get?_eq_none_of_not_contains hAudit
      outbox := Table.get?_eq_none_of_not_contains hOutbox }
  · cases hRow : t.journal.projections.get? ⟨"EffectIntent", (tick.draw .effect).toText, v⟩ with
    | none => rfl
    | some row => exact absurd ⟨rfl, rfl⟩ (hShown _ row hRow)
  · refine hStored k a ha ?_
    rw [hKey]
    exact keySlot_storageKey actor _ digest

namespace Sample

/-- The command of the first proposal. -/
def proposeCommand : Command CommandInput :=
  { actor, idempotencyKey := (uuid 1).toId
    input := .effectPropose "mail.send" connectionId.toText target contentRef grantId.toText
      "1.0.0"
    fingerprint := digest "effect.propose".toUTF8.data.toList }

def proposal : Proposal :=
  { action := "mail.send", connectionId, target, contentRef, grantId, priceProfile := "1.0.0"
    idempotencyKey := (uuid 1).toText, runId
    fingerprint := digest
      (render (fingerprintValue "mail.send" target contentRef.digest)).toUTF8.data.toList }

/-- The same command on the next day, when its receipt has expired. -/
def proposeLate : Call := { propose 1 with tick := tick 90000 }

/-- The bytes of the document that the proposal shows. -/
def shownBytes (n : Nat) (t : Tables) : Bytes :=
  (render (effectProjectionValue env t.identity.tenantId (proposal.shown (tick n) t).1
    (proposal.shown (tick n) t).2)).toUTF8.data.toList

/-- The proposal passes its checks in the `n`-th second, and can be stored. -/
structure Proposable (n : Nat) (s : Store) : Prop where
  proposes : Proposes env catalogue (tick n) s proposeCommand principalId proposal
  fresh : FreshDraws (tick n) s.tables
  storable : Storable env (tick n) s.tables (proposal.shown (tick n) s.tables).1
    (proposal.shown (tick n) s.tables).2

theorem Proposable.of_run {n : Nat} {s : Store}
    (h : admitCommand (service env catalogue) s proposeCommand = .ok principalId ∧
      admitProposal env (tick n) s.tables actor (uuid 1).toText "mail.send" connectionId.toText
        target contentRef grantId.toText "1.0.0" = .ok proposal ∧
      drawsUnused (tick n) s.tables = true ∧
      1 ≤ (shownBytes n s.tables).length ∧ (shownBytes n s.tables).length ≤ 1073741824) :
    Proposable n s := by
  obtain ⟨hAdmit, hProposal, hUnused, hSize⟩ := h
  exact ⟨⟨hAdmit, _, _, _, _, _, _, rfl, hProposal⟩, freshDraws_of_unused hUnused,
    ⟨rfl, ⟨_, rfl, hSize⟩, fun _ => rfl, rfl⟩⟩

theorem receiptsValid (s : Store) : ReceiptsValid env s := fun _ _ _ => rfl

theorem propose_run :
    (admitCommand (service env catalogue) store proposeCommand = .ok principalId ∧
      admitProposal env (tick 1) store.tables actor (uuid 1).toText "mail.send"
        connectionId.toText target contentRef grantId.toText "1.0.0" = .ok proposal ∧
      drawsUnused (tick 1) store.tables = true ∧
      1 ≤ (shownBytes 1 store.tables).length ∧
      (shownBytes 1 store.tables).length ≤ 1073741824) := by
  delta shownBytes drawsUnused recordUnused keySlot proposal
  rw [Bytewise.admitCommand.2, Bytewise.admitProposal.2, Bytewise.effectProjectionValue.2,
    env_bytewise, render_bytewise, Uuid.toText_bytewise, Ascii.toList_eq]
  decide +kernel

theorem proposeLate_run :
    (admitCommand (service env catalogue) (after [propose 1]) proposeCommand = .ok principalId ∧
      admitProposal env (tick 90000) (after [propose 1]).tables actor (uuid 1).toText "mail.send"
        connectionId.toText target contentRef grantId.toText "1.0.0" = .ok proposal ∧
      drawsUnused (tick 90000) (after [propose 1]).tables = true ∧
      1 ≤ (shownBytes 90000 (after [propose 1]).tables).length ∧
      (shownBytes 90000 (after [propose 1]).tables).length ≤ 1073741824) ∧
    ((existingEffect (after [propose 1]).tables proposal.connectionId proposal.idempotencyKey).map
      fun found => found.2.fingerprint) = some proposal.fingerprint ∧
    failure? (step env catalogue (after [propose 1]) proposeLate).2 =
      some (.conflict "RESOURCE_CONFLICT") := by
  delta after shownBytes drawsUnused recordUnused keySlot proposal
  rw [step_bytewise, Bytewise.admitCommand.2, Bytewise.admitProposal.2,
    Bytewise.effectProjectionValue.2, env_bytewise, render_bytewise, Uuid.toText_bytewise,
    Ascii.toList_eq]
  decide +kernel

theorem room : proposal.Room store.tables := by
  have hSeeds : ∀ key ∈ effectAccountKeys,
      (seedLimit store.tables.budget.settings "USD" key).map (fun seed => decide (20 ≤ seed.2)) =
        some true := by
    decide
  intro key hKey
  obtain ⟨seed, hSeed, hLimit⟩ := Option.map_eq_some_iff.mp (hSeeds key hKey)
  exact ⟨seed, hSeed, of_decide_eq_true hLimit⟩

theorem unobstructed : Unobstructed (tick 1) store proposeCommand
    (receiptKey (service env catalogue) proposeCommand principalId) proposal := by
  have hLive : liveReceipt (tick 1) store
      (receiptKey (service env catalogue) proposeCommand principalId) = none := rfl
  have hNone : existingEffect store.tables proposal.connectionId proposal.idempotencyKey = none :=
    rfl
  have hContent : ContentStored store.tables.journal proposal.contentRef :=
    ⟨contentId, artifact [1] "content", Uuid.parse_toText _, rfl⟩
  unfold Unobstructed
  rw [hLive, hNone]
  refine fun _ => ⟨hContent, by decide, ?_⟩
  rintro ⟨j, r, hr, -⟩
  cases hr

end Sample

theorem proposal_identified_propose :
    Proposes Sample.env Sample.catalogue (Sample.tick 1) Sample.store Sample.proposeCommand
      Sample.principalId Sample.proposal ∧
    Creates (Sample.next [] (Sample.propose 1)) Sample.proposal := by
  have hRun := Sample.Proposable.of_run Sample.propose_run
  have hIdentified := proposal_identified_iff Sample.env Sample.catalogue Sample.store
    ([] ++ [Sample.propose 1]) (Sample.receiptsValid _) (Sample.next [] (Sample.propose 1))
    (Sample.next_mem _ _) Sample.proposeCommand rfl Sample.principalId Sample.proposal hRun.proposes
    hRun.fresh hRun.storable
  have hNone : existingEffect (Sample.next [] (Sample.propose 1)).before.tables
      Sample.proposal.connectionId Sample.proposal.idempotencyKey = none := rfl
  have hAnswered := hIdentified.mpr Sample.unobstructed
  exact ⟨hRun.proposes, (identified_new hNone).mp hAnswered Sample.room⟩

/-- A repeated proposal that fails is not identified. -/
theorem Sample.refused_again {calls : List Call} {c : Call} {p : Proposal}
    {failure : CommandFailure}
    (hFound : ((existingEffect (Sample.after calls).tables p.connectionId p.idempotencyKey).map
      fun found => found.2.fingerprint) = some p.fingerprint)
    (hFails : failure? (step Sample.env Sample.catalogue (Sample.after calls) c).2 = some failure) :
    (∃ id e, existingEffect (Sample.after calls).tables p.connectionId p.idempotencyKey =
      some (id, e) ∧ e.fingerprint = p.fingerprint) ∧
    (Sample.next calls c).response = .error failure ∧ ¬Identified (Sample.next calls c) p := by
  obtain ⟨⟨id, e⟩, hExisting, hSame⟩ := Option.map_eq_some_iff.mp hFound
  have hBefore : existingEffect (Sample.next calls c).before.tables p.connectionId
      p.idempotencyKey = some (id, e) := hExisting
  have hResponse : (Sample.next calls c).response = .error failure := eq_error_of_failure? hFails
  refine ⟨⟨id, e, hExisting, hSame⟩, hResponse, ?_⟩
  rw [identified_again hBefore hSame]
  rintro ⟨⟨a, hAnswer, -⟩, -⟩
  cases hResponse.symm.trans hAnswer

/-- A proposal passes every check and repeats the effect of its connection and key with the same
fingerprint, but fails with a conflict. -/
theorem proposal_replay_refused :
    ReceiptsValid Sample.env Sample.store ∧
    Sample.next [Sample.propose 1] Sample.proposeLate ∈
      Sample.events ([Sample.propose 1] ++ [Sample.proposeLate]) ∧
    Sample.proposeLate.operation = .command Sample.proposeCommand ∧
    Sample.Proposable 90000 (Sample.after [Sample.propose 1]) ∧
    (∃ id e, existingEffect (Sample.after [Sample.propose 1]).tables Sample.proposal.connectionId
      Sample.proposal.idempotencyKey = some (id, e) ∧
        e.fingerprint = Sample.proposal.fingerprint) ∧
    (Sample.next [Sample.propose 1] Sample.proposeLate).response =
      .error (.conflict "RESOURCE_CONFLICT") ∧
    ¬Identified (Sample.next [Sample.propose 1] Sample.proposeLate) Sample.proposal := by
  obtain ⟨hRun, hFound, hFails⟩ := Sample.proposeLate_run
  exact ⟨Sample.receiptsValid _, Sample.next_mem _ _, rfl, Sample.Proposable.of_run hRun,
    Sample.refused_again hFound hFails⟩

end Masonwing
