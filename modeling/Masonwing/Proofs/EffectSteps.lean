import Masonwing.Proofs.BudgetSteps
import Masonwing.Store.EffectCommands

/-!
# What one effect operation does

Each handler of an effect, read back from a successful call: the row it found, the row it
wrote, the movement of the reservation and the mutation it returned. What no operation
changes of an effect is its `intent`.

* `proposeEffect_ok` and `compensateEffect_ok`: the two ways to create an effect (`Created`);
* `dispatchEffect_ok`, `reconcileEffect_ok`: the commands on an existing effect;
* `recordEffectUnknown_ok`, `recordEffectSucceeded_ok`, `resolveEffect_ok`: its outcomes.
-/

namespace Masonwing

open Outcome

variable {env : Env} {tick : Tick} {t t' : Tables} {m : Mutation}

theorem parseUuid_eq_ok {s : String} {u : Uuid} : parseUuid s = .ok u ↔ Uuid.parse s = some u :=
  okOr_eq_ok

theorem beginSystem_eq_ok {u : Unit} : beginSystem t = .ok u ↔ t.identity.tenantActive = true :=
  require_eq_ok

/-! ## Rows -/

/-- What an effect is for, and the rows it refers to. -/
structure EffectIntent where
  runId : Uuid
  grantId : Uuid
  connectionId : Uuid
  action : String
  target : ResourceRef
  contentRef : ArtifactRef
  fingerprint : Digest
  idempotencyKey : String
  approvalId : Option Uuid
  reservationId : Uuid
  originalEffectId : Option Uuid
  createdAt : Int

def EffectRow.intent (e : EffectRow) : EffectIntent :=
  { runId := e.runId, grantId := e.grantId, connectionId := e.connectionId, action := e.action
    target := e.target, contentRef := e.contentRef, fingerprint := e.fingerprint
    idempotencyKey := e.idempotencyKey, approvalId := e.approvalId
    reservationId := e.reservationId, originalEffectId := e.originalEffectId
    createdAt := e.createdAt }

/-- A step of an existing effect: its intent stays and its version advances. -/
structure EffectMoved (t : Tables) (id : Uuid) (e e' : EffectRow) : Prop where
  found : t.effects.get? id = some e
  intent : e'.intent = e.intent
  version : e.version.next? = some e'.version

theorem EffectMoved.reservationId {id : Uuid} {e e' : EffectRow} (h : EffectMoved t id e e') :
    e'.reservationId = e.reservationId := congrArg EffectIntent.reservationId h.intent

/-! ## Creating -/

/-- A new effect with its new reservation. -/
structure Created (tick : Tick) (t : Tables) (q : ReserveRequest) (e : EffectRow) (b' : Budget)
    (effects : Table Uuid EffectRow) : Prop where
  reserved : ∃ row, Reserved tick t.budget q row b'
  reservation : e.reservationId = tick.draw .reservation
  free : ∀ j f, t.effects.get? j = some f →
    ¬(f.connectionId = e.connectionId ∧ f.idempotencyKey = e.idempotencyKey)
  inserted : t.effects.insert? (tick.draw .effect) e = some effects
  untransmitted : e.transmitCount = 0
  first : e.version = .one

theorem insertEffect_ok {id : Uuid} {e : EffectRow} (h : insertEffect t id e = .ok t') :
    (∀ j f, t.effects.get? j = some f →
      ¬(f.connectionId = e.connectionId ∧ f.idempotencyKey = e.idempotencyKey)) ∧
    (∃ effects, t.effects.insert? id e = some effects ∧ t' = { t with effects }) ∧
    ∀ a ∈ e.approvalId, t.approvals.contains a = true := by
  simp only [insertEffect, bind_eq_ok, require_eq_ok, sql_eq_ok, insertRow_eq_ok, pure_eq_ok,
    Table.any_eq_false_iff, decide_eq_false_iff_not, exists_const] at h
  obtain ⟨hFree, effects, hInsert, ⟨-, -, -, hApproval, -, -⟩, rfl⟩ := h
  exact ⟨hFree, ⟨effects, hInsert, rfl⟩, hApproval⟩

/-- The reservation of a new effect is the one that was just made. -/
theorem reserved_id {tenant : Uuid} {runExists : Uuid → Bool} {b b' : Budget} {q : ReserveRequest}
    {id : Uuid} (hReserve : reserveBudget tick tenant runExists b q = .ok (b', m))
    (hParse : parseUuid m.primary.resourceId.text = .ok id) : id = tick.draw .reservation := by
  obtain ⟨-, -, -, hPrimary⟩ := reserveBudget_ok hReserve
  rw [hPrimary] at hParse
  have hText : parseUuid (tick.draw .reservation).toText = .ok id := hParse
  rw [parseUuid_toText] at hText
  cases hText
  rfl

/-- Reserving and inserting together, as both creating handlers do it. -/
theorem created_of {q : ReserveRequest} {b' : Budget} {id : Uuid} {e : EffectRow}
    (hReserve : reserveBudget tick t.identity.tenantId t.runs.contains t.budget q = .ok (b', m))
    (hParse : parseUuid m.primary.resourceId.text = .ok id)
    (hInsert : insertEffect { t with budget := b' } (tick.draw .effect) e = .ok t')
    (hReservation : e.reservationId = id) (hCount : e.transmitCount = 0)
    (hVersion : e.version = .one) :
    ∃ effects, Created tick t q e b' effects ∧ t' = { t with budget := b', effects } := by
  obtain ⟨row, hReserved, -, -⟩ := reserveBudget_ok hReserve
  obtain ⟨hFree, ⟨effects, hEffects, rfl⟩, -⟩ := insertEffect_ok hInsert
  have hId := reserved_id hReserve hParse
  exact ⟨effects,
    ⟨⟨row, hReserved⟩, hReservation.trans hId, hFree, hEffects, hCount, hVersion⟩, rfl⟩

/-- The admission checks of a proposal, passed. -/
structure Admitted (env : Env) (tick : Tick) (t : Tables) (actor : CommandActor) (p : Proposal) :
    Prop where
  connection : ∃ c, t.connections.get? p.connectionId = some c ∧ c.state = .active
  grant : ∃ g, requireActiveGrant tick t actor p.grantId (some p.action) (some p.target) = .ok g
  enabled : stoppedBy t none (some p.connectionId) = false
  run : resolveRun t p.grantId = .ok p.runId
  fingerprint : effectFingerprint env p.action p.target p.contentRef.digest = .ok p.fingerprint

theorem admitProposal_ok {actor : CommandActor} {key action connectionId grantId profile : String}
    {target : ResourceRef} {contentRef : ArtifactRef} {p : Proposal}
    (h : admitProposal env tick t actor key action connectionId target contentRef grantId profile =
      .ok p) :
    Admitted env tick t actor p ∧ Uuid.parse connectionId = some p.connectionId ∧
      Uuid.parse grantId = some p.grantId ∧ contentRef.tenantId = actor.tenantId ∧
      p.action = action ∧ p.target = target ∧ p.contentRef = contentRef ∧
      p.priceProfile = profile ∧ p.idempotencyKey = key := by
  simp only [admitProposal, bind_eq_ok, require_eq_ok, okOr_eq_ok, parseUuid_eq_ok, pure_eq_ok,
    requireDispatchEnabled, exists_const] at h
  obtain ⟨connection, hConnection, grant, hGrant, hTenant, c, hc, hActive, g, hg, hStopped, run,
    hRun, fingerprint, hFingerprint, rfl⟩ := h
  exact ⟨⟨⟨c, hc, hActive⟩, ⟨g, hg⟩, hStopped, hRun, hFingerprint⟩, hConnection, hGrant, hTenant,
    rfl, rfl, rfl, rfl, rfl⟩

theorem proposeNew_ok {p : Proposal} (h : proposeNew env tick t p = .ok (t', m)) :
    ∃ b' effects,
      Created tick t p.reserveRequest (p.row tick (tick.draw .reservation)) b' effects ∧
      t' = { t with budget := b', effects } ∧
      m = effectMutation env t (tick.draw .effect) (p.row tick (tick.draw .reservation))
        "propose effect" true := by
  simp only [proposeNew, bind_eq_ok, pure_eq_ok, Prod.exists, Prod.mk.injEq] at h
  obtain ⟨b', r, hReserve, id, hParse, t'', hInsert, rfl, rfl⟩ := h
  have hId := reserved_id hReserve hParse
  subst hId
  obtain ⟨effects, hCreated, hTables⟩ := created_of hReserve hParse hInsert rfl rfl rfl
  exact ⟨b', effects, hCreated, hTables, rfl⟩

/-- The row that a repeated proposal shows: the stored one, with what the request repeats. -/
def Proposal.again (p : Proposal) (e : EffectRow) : EffectRow :=
  { e with runId := p.runId, action := p.action, target := p.target, contentRef := p.contentRef }

theorem proposeAgain_ok {p : Proposal} {id : Uuid} {e : EffectRow}
    (h : proposeAgain env t p id e = .ok (t', m)) :
    e.fingerprint = p.fingerprint ∧ t' = t ∧
      m = effectMutation env t id (p.again e) "propose effect replay" true := by
  simp only [proposeAgain, bind_eq_ok, require_eq_ok, pure_eq_ok, Prod.mk.injEq,
    exists_const] at h
  obtain ⟨hFingerprint, rfl, rfl⟩ := h
  exact ⟨hFingerprint, rfl, rfl⟩

theorem existingEffect_some {connectionId id : Uuid} {key : String} {e : EffectRow}
    (h : existingEffect t connectionId key = some (id, e)) :
    t.effects.get? id = some e ∧ e.connectionId = connectionId ∧ e.idempotencyKey = key := by
  obtain ⟨hGet, hKey⟩ := Table.find?_some h
  obtain ⟨hConnection, hKey⟩ := of_decide_eq_true hKey
  exact ⟨hGet, hConnection, hKey⟩

/-- A proposal repeats the effect of its key or creates one. -/
theorem proposeEffect_ok {actor : CommandActor} {key action connectionId grantId profile : String}
    {target : ResourceRef} {contentRef : ArtifactRef}
    (h : proposeEffect env tick t actor key action connectionId target contentRef grantId profile =
      .ok (t', m)) :
    ∃ p, admitProposal env tick t actor key action connectionId target contentRef grantId profile =
        .ok p ∧
      ((∃ id e, existingEffect t p.connectionId p.idempotencyKey = some (id, e) ∧
          e.fingerprint = p.fingerprint ∧ t' = t ∧
          m = effectMutation env t id (p.again e) "propose effect replay" true) ∨
        (existingEffect t p.connectionId p.idempotencyKey = none ∧ ∃ b' effects,
          Created tick t p.reserveRequest (p.row tick (tick.draw .reservation)) b' effects ∧
          t' = { t with budget := b', effects } ∧
          m = effectMutation env t (tick.draw .effect) (p.row tick (tick.draw .reservation))
            "propose effect" true)) := by
  simp only [proposeEffect, bind_eq_ok] at h
  obtain ⟨p, hAdmit, h⟩ := h
  refine ⟨p, hAdmit, ?_⟩
  split at h
  · rename_i id e hExisting
    obtain ⟨hFingerprint, hTables, hMutation⟩ := proposeAgain_ok h
    exact Or.inl ⟨id, e, hExisting, hFingerprint, hTables, hMutation⟩
  · rename_i hNone
    exact Or.inr ⟨hNone, proposeNew_ok h⟩

/-- A compensation: the completed effect it is for, the approval it names, and the new row. -/
structure Compensated (env : Env) (tick : Tick) (t : Tables) (original approval : Uuid)
    (content : ArtifactRef) (e row : EffectRow) : Prop where
  found : t.effects.get? original = some e
  completed : e.state = .succeeded ∨ e.state = .failedConfirmed
  approved : ∃ a, t.approvals.get? approval = some a ∧ a.state = .approved
  row_eq : ∃ key fingerprint, row = compensationRow tick original e content key approval
    fingerprint (tick.draw .reservation)

theorem compensateEffect_ok {key effectId approvalId : String} {content : ArtifactRef}
    (h : compensateEffect env tick t key effectId content approvalId = .ok (t', m)) :
    ∃ original approval e row b' effects, Uuid.parse effectId = some original ∧
      Uuid.parse approvalId = some approval ∧
      Compensated env tick t original approval content e row ∧
      Created tick t (compensationRequest e.runId (tick.draw .effect)) row b' effects ∧
      t' = { t with budget := b', effects } ∧
      m = effectMutation env t (tick.draw .effect) row "compensate effect" false := by
  simp only [compensateEffect, bind_eq_ok, require_eq_ok, okOr_eq_ok, parseUuid_eq_ok, pure_eq_ok,
    Prod.exists, Prod.mk.injEq, exists_const] at h
  obtain ⟨original, hOriginal, approval, hApproval, e, hFound, hCompleted, -, a, ha, hApproved, -,
    fingerprint, -, b', r, hReserve, id, hParse, t'', hInsert, rfl, rfl⟩ := h
  have hId := reserved_id hReserve (parseUuid_eq_ok.mpr hParse)
  subst hId
  obtain ⟨effects, hCreated, hTables⟩ :=
    created_of hReserve (parseUuid_eq_ok.mpr hParse) hInsert rfl rfl rfl
  exact ⟨original, approval, e, _, b', effects, hOriginal, hApproval,
    ⟨hFound, hCompleted, ⟨a, ha, hApproved⟩, key, fingerprint, rfl⟩, hCreated, hTables, rfl⟩

/-! ## Dispatching and reconciling -/

/-- A transmission is started. -/
structure Dispatched (tick : Tick) (t : Tables) (id : Uuid) (e e' : EffectRow) : Prop
    extends EffectMoved t id e e' where
  dispatchable : e.state.dispatchable = true
  enabled : stoppedBy t none (some e.connectionId) = false
  approval : checkApproval tick t e.approvalId = .ok ()
  executing : e'.state = .executing
  counted : e'.transmitCount = e.transmitCount + 1

theorem dispatchEffect_ok {effectId : String} {expected : Int}
    (h : dispatchEffect env tick t effectId expected = .ok (t', m)) :
    ∃ id e e', Uuid.parse effectId = some id ∧ Dispatched tick t id e e' ∧
      t' = { t with effects := t.effects.set id e' } ∧
      m = effectMutation env t id e' "dispatch effect" true := by
  simp only [dispatchEffect, bind_eq_ok, require_eq_ok, okOr_eq_ok, parseUuid_eq_ok, sql_eq_ok,
    pure_eq_ok, requireExpectedVersion_eq_ok, requireDispatchEnabled, integer_eq_ok, bigint_eq_ok,
    exists_const, Prod.mk.injEq] at h
  obtain ⟨id, hId, e, hFound, version, ⟨-, hVersion⟩, hStopped, -, hState, u, hApproval, count,
    ⟨-, rfl⟩, fence, ⟨-, rfl⟩, rfl, rfl⟩ := h
  refine ⟨id, e, _, hId, ?_, rfl, rfl⟩
  exact ⟨⟨hFound, rfl, hVersion⟩, hState, hStopped, hApproval, rfl, rfl⟩

/-- An uncertain transmission is looked up. -/
structure Reconciled (t : Tables) (id : Uuid) (e e' : EffectRow) : Prop
    extends EffectMoved t id e e' where
  uncertain : e.state = .outcomeUnknown ∨ e.state = .manualReview
  reconciling : e'.state = .reconciling
  uncounted : e'.transmitCount = e.transmitCount

theorem reconcileEffect_ok {effectId : String} {expected : Int}
    (h : reconcileEffect env tick t effectId expected = .ok (t', m)) :
    ∃ id e e', Uuid.parse effectId = some id ∧ Reconciled t id e e' ∧
      t' = { t with effects := t.effects.set id e' } ∧
      m = effectMutation env t id e' "reconcile effect" false := by
  simp only [reconcileEffect, bind_eq_ok, require_eq_ok, okOr_eq_ok, parseUuid_eq_ok, pure_eq_ok,
    requireExpectedVersion_eq_ok, exists_const, Prod.mk.injEq] at h
  obtain ⟨id, hId, e, hFound, version, ⟨-, hVersion⟩, hState, rfl, rfl⟩ := h
  refine ⟨id, e, _, hId, ?_, rfl, rfl⟩
  exact ⟨⟨hFound, rfl, hVersion⟩, hState, rfl, rfl⟩

/-! ## Outcomes -/

/-- An outcome is recorded: nothing is transmitted by it. -/
structure Resolved (t : Tables) (id : Uuid) (e e' : EffectRow) (next : EffectState) : Prop
    extends EffectMoved t id e e' where
  state : e'.state = next
  uncounted : e'.transmitCount = e.transmitCount

theorem recordEffectUnknown_ok {id : Uuid} (h : recordEffectUnknown env tick t id = .ok (t', m)) :
    ∃ e e' r r' b', Resolved t id e e' .outcomeUnknown ∧ e.state = .executing ∧
      Advanced tick t.budget e.reservationId r r' b' ∧ r'.state = .unknown ∧
      b'.accounts = t.budget.accounts ∧
      t' = { t with effects := t.effects.set id e', budget := b' } := by
  simp only [recordEffectUnknown, bind_eq_ok, require_eq_ok, okOr_eq_ok, beginSystem_eq_ok,
    Version.bump_eq_ok, pure_eq_ok, exists_const, Prod.exists, Prod.mk.injEq] at h
  obtain ⟨-, e, hFound, hState, version, hVersion, b', r, hMark, rfl, -⟩ := h
  obtain ⟨r, r', hAdvanced, hUnknown, hAccounts⟩ := markCostUnknown_ok hMark
  refine ⟨e, _, r, r', b', ?_, hState, hAdvanced, hUnknown, hAccounts, rfl⟩
  exact ⟨⟨hFound, rfl, hVersion⟩, rfl, rfl⟩

theorem insertEffectReceipt_ok {id : Uuid} {r : EffectReceiptRow}
    {receipts : Table Uuid EffectReceiptRow} (h : insertEffectReceipt t id r = .ok receipts) :
    (∀ j r', t.effectReceipts.get? j = some r' → r'.effectId ≠ r.effectId) ∧
      t.effectReceipts.insert? id r = some receipts := by
  simp only [insertEffectReceipt, bind_eq_ok, require_eq_ok, sql_eq_ok, insertRow_eq_ok,
    pure_eq_ok, Table.any_eq_false_iff, decide_eq_false_iff_not, exists_const] at h
  obtain ⟨hFree, receipts', hInsert, -, rfl⟩ := h
  exact ⟨hFree, hInsert⟩

/-- The settlement of a success: it closes the open hold, or finds it settled with this amount. -/
def Settled (tick : Tick) (b : Budget) (reservationId : Uuid) (b' : Budget) : Prop :=
  (b' = b ∧ ∃ r, b.reservations.get? reservationId = some r ∧ r.state = .settled) ∨
    ∃ r r', Advanced tick b reservationId r r' b' ∧ r'.state = .settled

theorem recordEffectSucceeded_ok {id : Uuid} {remoteId : String} {evidenceRef : ArtifactRef}
    {used : Int}
    (h : recordEffectSucceeded env tick t id remoteId evidenceRef used = .ok (t', m)) :
    ∃ e e' b' receipts receipt, Resolved t id e e' .succeeded ∧
      (e.state = .executing ∨ e.state = .reconciling) ∧
      Settled tick t.budget e.reservationId b' ∧
      receipt.effectId = id ∧
      t.effectReceipts.insert? (tick.draw .effectReceipt) receipt = some receipts ∧
      (∀ j r, t.effectReceipts.get? j = some r → r.effectId ≠ id) ∧
      t' = { t with effects := t.effects.set id e', effectReceipts := receipts, budget := b' } := by
  simp only [recordEffectSucceeded, bind_eq_ok, require_eq_ok, okOr_eq_ok, beginSystem_eq_ok,
    Version.bump_eq_ok, pure_eq_ok, exists_const, Prod.exists, Prod.mk.injEq] at h
  obtain ⟨-, e, hFound, hState, version, hVersion, receipts, hReceipt, b', r, hSettle, rfl, -⟩ := h
  obtain ⟨hFree, hInsert⟩ := insertEffectReceipt_ok hReceipt
  refine ⟨e, _, b', receipts, _, ?_, hState, ?_, rfl, hInsert, hFree, rfl⟩
  · exact ⟨⟨hFound, rfl, hVersion⟩, rfl, rfl⟩
  · rcases settleBudget_ok hSettle with hAgain | ⟨r, r', hAdvanced, hSettled, -⟩
    · exact Or.inl hAgain
    · exact Or.inr ⟨r, r', hAdvanced, hSettled⟩

theorem resolveEffect_ok {id : Uuid} {next : EffectState} {label : String}
    {expectedFrom : List EffectState} {release : Bool}
    (h : resolveEffect env tick t id next label expectedFrom release = .ok (t', m)) :
    ∃ e e' b', Resolved t id e e' next ∧ e.state ∈ expectedFrom ∧
      (if release then ∃ r r', Advanced tick t.budget e.reservationId r r' b' ∧
        r'.state = .released else b' = t.budget) ∧
      t' = { t with effects := t.effects.set id e', budget := b' } := by
  simp only [resolveEffect, bind_eq_ok, require_eq_ok, okOr_eq_ok, beginSystem_eq_ok,
    Version.bump_eq_ok, pure_eq_ok, exists_const, Prod.mk.injEq] at h
  obtain ⟨-, e, hFound, hState, version, hVersion, b', hRelease, rfl, -⟩ := h
  refine ⟨e, _, b', ?_, hState, ?_, rfl⟩
  · exact ⟨⟨hFound, rfl, hVersion⟩, rfl, rfl⟩
  · cases release with
    | false =>
      cases hRelease
      rfl
    | true =>
      simp only [releaseIf, if_true, bind_eq_ok, pure_eq_ok, Prod.exists] at hRelease
      obtain ⟨b'', r, hBudget, rfl⟩ := hRelease
      exact releaseBudget_ok hBudget

end Masonwing
