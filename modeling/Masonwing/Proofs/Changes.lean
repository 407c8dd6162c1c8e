import Masonwing.Proofs.Execution
import Masonwing.Proofs.RowSteps

/-!
# What one step of the system does

`Act` names what an operation was asked to do, with the rows it names, and `Change` says what
an act does to the rows of the tenant when it commits, the journal apart. `step_change` is the
inversion of every step: it changed nothing, or it committed an act with its change. Everything
that is proved about runs of the system starts from a case analysis of `Change`, never from the
handlers.
-/

namespace Masonwing

open Outcome

/-! ## Acts -/

/-- What an operation is asked to do. -/
inductive Act where
  | startRun
  | cancelRun (run : Uuid)
  | decideApproval (approval : Uuid)
  | configureBudget
  | propose
  | dispatch (effect : Uuid)
  | reconcile (effect : Uuid)
  | compensate (original approval : Uuid) (content : ArtifactRef)
  | revokeConnection (connection : Uuid)
  | createGrant
  | revokeGrant (grant : Uuid)
  | setKillSwitch
  | quarantine
  | markStarted (run : Uuid)
  | markCompleted (run : Uuid)
  | claim (run : Uuid)
  | recordUnknown (effect : Uuid)
  | recordSucceeded (effect : Uuid)
  | recordFailed (effect : Uuid)
  | reauthorize (effect : Uuid)
  | review (effect : Uuid)
  | reserve
  | moveReservation (reservation : Uuid)
  | relay
  deriving DecidableEq

/-- The act of a command; `none` if an identifier in it is not one. -/
def CommandInput.act : CommandInput → Option Act
  | .runStart .. => some .startRun
  | .runCancel runId .. => (Uuid.parse runId).map .cancelRun
  | .approvalDecide proposalId .. => (Uuid.parse proposalId).map .decideApproval
  | .budgetConfigure .. => some .configureBudget
  | .effectPropose .. => some .propose
  | .effectDispatch effectId .. => (Uuid.parse effectId).map .dispatch
  | .effectReconcile effectId .. => (Uuid.parse effectId).map .reconcile
  | .effectCompensate effectId content approvalId => do
    let original ← Uuid.parse effectId
    let approval ← Uuid.parse approvalId
    return .compensate original approval content
  | .connectionRevoke connectionId .. => (Uuid.parse connectionId).map .revokeConnection
  | .grantCreate .. => some .createGrant
  | .grantRevoke grantId .. => (Uuid.parse grantId).map .revokeGrant
  | .killSwitchSet .. => some .setKillSwitch

/-- What evidence about a transmission records. -/
def ReconciliationEvidence.act (effect : Uuid) : ReconciliationEvidence → Act
  | .confirmedPresent => .recordSucceeded effect
  | .confirmedFailure => .recordFailed effect
  | .provenAbsentAndReauthorized => .reauthorize effect
  | .unresolved => .review effect

def SystemCall.act : SystemCall → Act
  | .markRunStarted runId .. => .markStarted runId
  | .markRunCompleted runId .. => .markCompleted runId
  | .verifyAndClaimRun runId => .claim runId
  | .recordEffectUnknown effectId => .recordUnknown effectId
  | .recordEffectSucceeded effectId .. => .recordSucceeded effectId
  | .applyReconciliationEvidence effectId evidence .. => evidence.act effectId
  | .reserveRunBudget .. => .reserve
  | .settleRunBudget reservationId .. => .moveReservation reservationId
  | .markRunCostUnknown reservationId => .moveReservation reservationId
  | .releaseRunBudget reservationId => .moveReservation reservationId
  | .claimPendingOutbox .. | .markOutboxDelivered .. | .markOutboxFailed .. => .relay

def Operation.act : Operation → Option Act
  | .command c => c.input.act
  | .quarantine .. => some .quarantine
  | .system c => some c.act

/-- A response that reports a commit: not a failure, and not the receipt of an earlier command. -/
def commits : Result Reply → Bool
  | .ok (.answer (.replayed _)) => false
  | .ok _ => true
  | .error _ => false

abbrev SystemEvent := Machine.Event Store Call (Result Reply)

/-- The event committed the act. -/
def SystemEvent.did (e : SystemEvent) (a : Act) : Prop :=
  commits e.response = true ∧ e.call.operation.act = some a

instance (e : SystemEvent) (a : Act) : Decidable (e.did a) := inferInstanceAs (Decidable (_ ∧ _))

theorem SystemEvent.did_unique {e : SystemEvent} {a b : Act} (ha : e.did a) (hb : e.did b) :
    a = b := Option.some.inj (ha.2.symm.trans hb.2)

/-! ## Changes -/

/-- What a committed act does to the rows; `j` is the journal after it. -/
inductive Change (env : Env) (tick : Tick) (t : Tables) : Act → Tables → Prop
  | started {actor : CommandActor} {row : RunRow} {runs : Table Uuid RunRow} (j : Journal)
      (hInsert : t.runs.insert? (tick.draw .run) row = some runs)
      (hAdmitted : RunAdmitted tick t actor row) :
      Change env tick t .startRun { t with runs, journal := j }
  | cancelled {id : Uuid} {r r' : RunRow} (j : Journal) (h : RunCancelled t id r r') :
      Change env tick t (.cancelRun id) { t with runs := t.runs.set id r', journal := j }
  | runStarted {id : Uuid} {r r' : RunRow} (j : Journal) (h : RunStarted t id r r') :
      Change env tick t (.markStarted id) { t with runs := t.runs.set id r', journal := j }
  | runCompleted {id : Uuid} {r r' : RunRow} (j : Journal) (h : RunCompleted t id r r') :
      Change env tick t (.markCompleted id) { t with runs := t.runs.set id r', journal := j }
  | runFenced {id : Uuid} {r r' : RunRow} (j : Journal) (hFences : Fences env tick t id)
      (h : RunFenced t id r r') :
      Change env tick t (.claim id) { t with runs := t.runs.set id r', journal := j }
  | decided {id : Uuid} {p p' : ApprovalRow} (j : Journal) (hFound : t.approvals.get? id = some p)
      (hTerms : p'.terms = p.terms) :
      Change env tick t (.decideApproval id)
        { t with approvals := t.approvals.set id p', journal := j }
  | configured {b' : Budget} (j : Journal) (hReservations : b'.reservations = t.budget.reservations)
      (hLedger : b'.ledger = t.budget.ledger) :
      Change env tick t .configureBudget { t with budget := b', journal := j }
  | reserved {q : ReserveRequest} {row : Reservation} {b' : Budget} (j : Journal)
      (hReserved : Reserved tick t.budget q row b') :
      Change env tick t .reserve { t with budget := b', journal := j }
  | reservationMoved {id : Uuid} {b' : Budget} (j : Journal)
      (hMoved : b' = t.budget ∨ ∃ r r', Advanced tick t.budget id r r' b') :
      Change env tick t (.moveReservation id) { t with budget := b', journal := j }
  | proposed {actor : CommandActor} {p : Proposal} {b' : Budget} {effects : Table Uuid EffectRow}
      (j : Journal) (hTenant : t.identity.tenantActive = true)
      (hAdmitted : Admitted env tick t actor p)
      (hCreated : Created tick t p.reserveRequest (p.row tick (tick.draw .reservation)) b'
        effects) :
      Change env tick t .propose { t with budget := b', effects, journal := j }
  | compensated {original approval : Uuid} {content : ArtifactRef} {e row : EffectRow}
      {q : ReserveRequest} {b' : Budget} {effects : Table Uuid EffectRow} (j : Journal)
      (hTenant : t.identity.tenantActive = true)
      (hCompensated : Compensated env tick t original approval content e row)
      (hCreated : Created tick t q row b' effects) :
      Change env tick t (.compensate original approval content)
        { t with budget := b', effects, journal := j }
  | dispatched {id : Uuid} {e e' : EffectRow} (j : Journal) (h : Dispatched tick t id e e') :
      Change env tick t (.dispatch id) { t with effects := t.effects.set id e', journal := j }
  | reconciled {id : Uuid} {e e' : EffectRow} (j : Journal) (h : Reconciled t id e e') :
      Change env tick t (.reconcile id) { t with effects := t.effects.set id e', journal := j }
  | unknown {id : Uuid} {e e' : EffectRow} {r r' : Reservation} {b' : Budget} (j : Journal)
      (h : Resolved t id e e' .outcomeUnknown) (hFrom : e.state = .executing)
      (hAdvanced : Advanced tick t.budget e.reservationId r r' b') (hState : r'.state = .unknown) :
      Change env tick t (.recordUnknown id)
        { t with effects := t.effects.set id e', budget := b', journal := j }
  | succeeded {id : Uuid} {e e' : EffectRow} {b' : Budget}
      {receipts : Table Uuid EffectReceiptRow} {receipt : EffectReceiptRow} (j : Journal)
      (h : Resolved t id e e' .succeeded) (hFrom : e.state = .executing ∨ e.state = .reconciling)
      (hSettled : Settled tick t.budget e.reservationId b') (hReceipt : receipt.effectId = id)
      (hInsert : t.effectReceipts.insert? (tick.draw .effectReceipt) receipt = some receipts)
      (hFree : ∀ k r, t.effectReceipts.get? k = some r → r.effectId ≠ id) :
      Change env tick t (.recordSucceeded id)
        { t with effects := t.effects.set id e', effectReceipts := receipts, budget := b',
                 journal := j }
  | failed {id : Uuid} {e e' : EffectRow} {r r' : Reservation} {b' : Budget} (j : Journal)
      (h : Resolved t id e e' .failedConfirmed)
      (hFrom : e.state = .executing ∨ e.state = .reconciling)
      (hAdvanced : Advanced tick t.budget e.reservationId r r' b') (hState : r'.state = .released) :
      Change env tick t (.recordFailed id)
        { t with effects := t.effects.set id e', budget := b', journal := j }
  | reauthorized {id : Uuid} {e e' : EffectRow} (j : Journal) (h : Resolved t id e e' .authorized)
      (hFrom : e.state = .reconciling) :
      Change env tick t (.reauthorize id) { t with effects := t.effects.set id e', journal := j }
  | reviewed {id : Uuid} {e e' : EffectRow} (j : Journal) (h : Resolved t id e e' .manualReview)
      (hFrom : e.state = .reconciling) :
      Change env tick t (.review id) { t with effects := t.effects.set id e', journal := j }
  | connectionRevoked {id : Uuid} {c c' : ConnectionRow} (j : Journal)
      (hFound : t.connections.get? id = some c) (hState : c'.state = .revoked) :
      Change env tick t (.revokeConnection id)
        { t with connections := t.connections.set id c', journal := j }
  | grantCreated {d : DelegationRow} {ds : Delegations} (j : Journal)
      (hInsert : t.delegations.insert? (tick.draw .grant) d = some ds)
      (hAdmitted : GrantAdmitted tick t d) :
      Change env tick t .createGrant { t with delegations := ds, journal := j }
  | grantRevoked {id : Uuid} {d : DelegationRow} {ids : List Uuid} {ds : Delegations} (j : Journal)
      (hFound : t.delegations.get? id = some d) (hActive : d.state = .active)
      (hIds : descendantsFrom t.delegations t.delegations.rows.length [id] = some ids)
      (hRevoked : GrantsRevoked t.delegations ds ids) :
      Change env tick t (.revokeGrant id) { t with delegations := ds, journal := j }
  | switched (killSwitches : Table (KillSwitchScope × String) KillSwitchRow) (j : Journal) :
      Change env tick t .setKillSwitch
        { t with registry := { t.registry with killSwitches }, journal := j }
  -- what is only noted in the journal
  | repeated (j : Journal) : Change env tick t .propose { t with journal := j }
  | handedOut {id : Uuid} (j : Journal) (hPasses : ¬Fences env tick t id) :
      Change env tick t (.claim id) { t with journal := j }
  | relayed (j : Journal) : Change env tick t .relay { t with journal := j }
  | contained (j : Journal) : Change env tick t .quarantine { t with journal := j }

section Step

variable {env : Env} {catalogue : Catalogue} {tick : Tick} {t t' : Tables} {s s' : Store}

/-! ## Commands -/

/-- The handlers of commands. -/
theorem dispatchCommand_change {c : Command CommandInput} {m : Mutation} (j : Journal)
    (hTenant : t.identity.tenantActive = true)
    (h : dispatchCommand env tick t c = .ok (t', m)) :
    ∃ a, c.input.act = some a ∧ Change env tick t a { t' with journal := j } := by
  unfold dispatchCommand at h
  dsimp only at h
  split at h
  · rename_i hInput
    obtain ⟨row, runs, input, hInsert, hAdmitted, rfl, -⟩ := startRun_ok h
    exact ⟨_, by rw [hInput]; rfl, .started j hInsert hAdmitted⟩
  · rename_i hInput
    obtain ⟨id, r, r', input, hId, hCancelled, rfl, -⟩ := cancelRun_ok h
    exact ⟨_, by rw [hInput, CommandInput.act, hId]; rfl, .cancelled j hCancelled⟩
  · rename_i hInput
    obtain ⟨id, p, p', hId, hFound, hTerms, rfl, -⟩ := decideApproval_ok h
    exact ⟨_, by rw [hInput, CommandInput.act, hId]; rfl, .decided j hFound hTerms⟩
  · rename_i hInput
    obtain ⟨b', hReservations, hLedger, rfl, -⟩ := configureBudgetCommand_ok h
    exact ⟨_, by rw [hInput]; rfl, .configured j hReservations hLedger⟩
  · rename_i hInput
    obtain ⟨p, hAdmit, ⟨id, e, -, -, rfl, -⟩ | ⟨-, b', effects, hCreated, rfl, -⟩⟩ :=
      proposeEffect_ok h
    · exact ⟨_, by rw [hInput]; rfl, .repeated j⟩
    · exact ⟨_, by rw [hInput]; rfl, .proposed j hTenant (admitProposal_ok hAdmit).1 hCreated⟩
  · rename_i hInput
    obtain ⟨id, e, e', hId, hDispatched, rfl, -⟩ := dispatchEffect_ok h
    exact ⟨_, by rw [hInput, CommandInput.act, hId]; rfl, .dispatched j hDispatched⟩
  · rename_i hInput
    obtain ⟨id, e, e', hId, hReconciled, rfl, -⟩ := reconcileEffect_ok h
    exact ⟨_, by rw [hInput, CommandInput.act, hId]; rfl, .reconciled j hReconciled⟩
  · rename_i hInput
    obtain ⟨original, approval, e, row, b', effects, hOriginal, hApproval, hCompensated, hCreated,
      rfl, -⟩ := compensateEffect_ok h
    exact ⟨_, by rw [hInput, CommandInput.act, hOriginal, hApproval]; rfl,
      .compensated j hTenant hCompensated hCreated⟩
  · rename_i hInput
    obtain ⟨id, c, c', hId, hFound, hState, rfl, -⟩ := revokeConnection_ok h
    exact ⟨_, by rw [hInput, CommandInput.act, hId]; rfl, .connectionRevoked j hFound hState⟩
  · rename_i hInput
    obtain ⟨d, ds, hInsert, hAdmitted, rfl, -⟩ := createGrant_ok h
    exact ⟨_, by rw [hInput]; rfl, .grantCreated j hInsert hAdmitted⟩
  · rename_i hInput
    obtain ⟨id, d, ids, ds, hId, hFound, hActive, hIds, hRevoked, rfl, -⟩ := revokeGrant_ok h
    exact ⟨_, by rw [hInput, CommandInput.act, hId]; rfl,
      .grantRevoked j hFound hActive hIds hRevoked⟩
  · rename_i hInput
    obtain ⟨killSwitches, rfl, -⟩ := setKillSwitch_ok h
    exact ⟨_, by rw [hInput]; rfl, .switched killSwitches j⟩

theorem admitCommand_tenantActive {ι : Type} {svc : Service ι} {c : Command ι} {principal : Uuid}
    (h : admitCommand svc s c = .ok principal) : s.tables.identity.tenantActive = true := by
  simp only [admitCommand, beginActor, bind_eq_ok, require_eq_ok, exists_const] at h
  obtain ⟨-, -, -, -, ⟨tenant, -, actor, -, ⟨-, hActive⟩, -⟩, -⟩ := h
  exact hActive

/-! ## The system path -/

theorem applyReconciliationEvidence_change {id : Uuid} {evidence : ReconciliationEvidence}
    {remoteId : Option String} {evidenceRef : Option ArtifactRef} {used : Option Int} {m : Mutation}
    (h : applyReconciliationEvidence env tick t id evidence remoteId evidenceRef used =
      .ok (t', m)) : Change env tick t (evidence.act id) t' := by
  cases evidence with
  | confirmedPresent =>
    simp only [applyReconciliationEvidence, bind_eq_ok] at h
    obtain ⟨remote, -, ref, -, h⟩ := h
    obtain ⟨e, e', b', receipts, receipt, hResolved, hFrom, hSettled, hReceipt, hInsert, hFree,
      rfl⟩ := recordEffectSucceeded_ok h
    exact .succeeded t.journal hResolved hFrom hSettled hReceipt hInsert hFree
  | confirmedFailure =>
    obtain ⟨e, e', b', hResolved, hFrom, ⟨r, r', hAdvanced, hState⟩, rfl⟩ := resolveEffect_ok h
    exact .failed t.journal hResolved (by simpa using hFrom) hAdvanced hState
  | provenAbsentAndReauthorized =>
    obtain ⟨e, e', b', hResolved, hFrom, hBudget, rfl⟩ := resolveEffect_ok h
    cases hBudget
    exact .reauthorized t.journal hResolved (by simpa using hFrom)
  | unresolved =>
    obtain ⟨e, e', b', hResolved, hFrom, hBudget, rfl⟩ := resolveEffect_ok h
    cases hBudget
    exact .reviewed t.journal hResolved (by simpa using hFrom)

theorem systemBudget_ok {x : Result (Budget × Mutation)} {reply : Reply}
    (h : systemBudget t x = .ok (t', reply)) :
    ∃ b' m, x = .ok (b', m) ∧ t' = { t with budget := b' } := by
  simp only [systemBudget, bind_eq_ok, beginSystem_eq_ok, pure_eq_ok, Prod.exists, Prod.mk.injEq,
    exists_const] at h
  obtain ⟨-, b', m, hx, rfl, -⟩ := h
  exact ⟨b', m, hx, rfl⟩

theorem withMutation_ok {x : Result (Tables × Mutation)} {reply : Reply}
    (h : withMutation x = .ok (t', reply)) : ∃ m, x = .ok (t', m) := by
  simp only [withMutation, bind_eq_ok, pure_eq_ok, Prod.exists, Prod.mk.injEq] at h
  obtain ⟨_, m, hx, rfl, -⟩ := h
  exact ⟨m, hx⟩

theorem withDone_ok {x : Result Tables} {reply : Reply} (h : withDone x = .ok (t', reply)) :
    x = .ok t' := by
  simp only [withDone, bind_eq_ok, pure_eq_ok, Prod.mk.injEq] at h
  obtain ⟨_, hx, rfl, -⟩ := h
  exact hx

/-- What the relay does is only noted in the journal. -/
theorem Relayed.change (h : Relayed t t') : Change env tick t .relay t' := by
  rw [h.2]
  exact .relayed _

theorem runSystemCall_change {c : SystemCall} {reply : Reply}
    (h : runSystemCall env tick t c = .ok (t', reply)) : Change env tick t c.act t' := by
  cases c with
  | markRunStarted runId temporalRunId fence =>
    obtain ⟨m, h⟩ := withMutation_ok h
    obtain ⟨r, r', hStarted, -, rfl⟩ := markRunStarted_ok h
    exact .runStarted t.journal hStarted
  | markRunCompleted runId fence =>
    obtain ⟨r, r', hCompleted, rfl⟩ := markRunCompleted_ok (withDone_ok h)
    exact .runCompleted t.journal hCompleted
  | verifyAndClaimRun runId =>
    simp only [runSystemCall, bind_eq_ok, pure_eq_ok, Prod.exists, Prod.mk.injEq] at h
    obtain ⟨_, claimed, h, rfl, -⟩ := h
    rcases verifyAndClaimRun_ok h with ⟨rfl, hPasses⟩ | ⟨hFences, r, r', hFenced, rfl⟩
    · exact .handedOut _ hPasses
    · exact .runFenced t.journal hFences hFenced
  | recordEffectUnknown effectId =>
    obtain ⟨m, h⟩ := withMutation_ok h
    obtain ⟨e, e', r, r', b', hResolved, hFrom, hAdvanced, hState, -, rfl⟩ :=
      recordEffectUnknown_ok h
    exact .unknown t.journal hResolved hFrom hAdvanced hState
  | recordEffectSucceeded effectId remoteId evidenceRef used =>
    obtain ⟨m, h⟩ := withMutation_ok h
    obtain ⟨e, e', b', receipts, receipt, hResolved, hFrom, hSettled, hReceipt, hInsert, hFree,
      rfl⟩ := recordEffectSucceeded_ok h
    exact .succeeded t.journal hResolved hFrom hSettled hReceipt hInsert hFree
  | applyReconciliationEvidence effectId evidence remoteId evidenceRef used =>
    obtain ⟨m, h⟩ := withMutation_ok h
    exact applyReconciliationEvidence_change h
  | reserveRunBudget request =>
    obtain ⟨b', m, hBudget, rfl⟩ := systemBudget_ok h
    obtain ⟨row, hReserved, -⟩ := reserveBudget_ok hBudget
    exact .reserved t.journal hReserved
  | settleRunBudget reservationId used fingerprint =>
    obtain ⟨b', m, hBudget, rfl⟩ := systemBudget_ok h
    rcases settleBudget_ok hBudget with ⟨rfl, -⟩ | ⟨r, r', hAdvanced, -⟩
    · exact .reservationMoved t.journal (Or.inl rfl)
    · exact .reservationMoved t.journal (Or.inr ⟨r, r', hAdvanced⟩)
  | markRunCostUnknown reservationId =>
    obtain ⟨b', m, hBudget, rfl⟩ := systemBudget_ok h
    obtain ⟨r, r', hAdvanced, -⟩ := markCostUnknown_ok hBudget
    exact .reservationMoved t.journal (Or.inr ⟨r, r', hAdvanced⟩)
  | releaseRunBudget reservationId =>
    obtain ⟨b', m, hBudget, rfl⟩ := systemBudget_ok h
    obtain ⟨r, r', hAdvanced, -⟩ := releaseBudget_ok hBudget
    exact .reservationMoved t.journal (Or.inr ⟨r, r', hAdvanced⟩)
  | claimPendingOutbox limit leaseSeconds =>
    simp only [runSystemCall, bind_eq_ok, pure_eq_ok, Prod.exists, Prod.mk.injEq] at h
    obtain ⟨_, items, h, rfl, -⟩ := h
    exact (claimPendingOutbox_ok h).change
  | markOutboxDelivered eventId => exact (markOutboxDelivered_ok (withDone_ok h)).change
  | markOutboxFailed eventId maxAttempts => exact (markOutboxFailed_ok (withDone_ok h)).change

theorem quarantineArtifact_ok {j j' : Journal} {actor : CommandActor} {id : Uuid} {a : ArtifactRow}
    (h : quarantineArtifact tick j actor id a = .ok j') : j'.projections = j.projections := by
  simp only [quarantineArtifact, bind_eq_ok, pure_eq_ok] at h
  obtain ⟨version, -, principal, -, audit, -, -, -, outbox, -, rfl⟩ := h
  rfl

theorem quarantineCorruptArtifact_ok {ι : Type} {svc : Service ι} {c : Command ι}
    {reference : ArtifactRef}
    (h : quarantineCorruptArtifact env svc tick s c reference = .ok s') :
    Relayed s.tables s'.tables := by
  simp only [quarantineCorruptArtifact, bind_eq_ok] at h
  obtain ⟨-, -, -, -, -, -, id, -, h⟩ := h
  split at h
  · cases h
    exact ⟨rfl, rfl⟩
  · simp only [bind_eq_ok, pure_eq_ok, containArtifact] at h
    obtain ⟨journal, ⟨bytes, -, hContain⟩, rfl⟩ := h
    refine ⟨?_, rfl⟩
    split at hContain
    · cases hContain
      rfl
    · exact quarantineArtifact_ok hContain

/-! ## Every step -/

theorem runOperation_change {op : Operation} {reply : Reply}
    (h : runOperation env catalogue tick s op = .ok (s', reply)) :
    (commits (.ok reply) = false ∧ s' = s) ∨
      (commits (.ok reply) = true ∧ ∃ a, op.act = some a ∧ Change env tick s.tables a s'.tables) := by
  cases op with
  | command c =>
    simp only [runOperation, bind_eq_ok, pure_eq_ok, Prod.exists, Prod.mk.injEq] at h
    obtain ⟨_, a, hExecute, rfl, rfl⟩ := h
    obtain ⟨principal, hAdmit, ⟨row, -, -, hs, rfl⟩ | ⟨-, t, m, receipt, hCommitted, rfl⟩⟩ :=
      execute_ok hExecute
    · exact Or.inl ⟨rfl, hs⟩
    · refine Or.inr ⟨rfl, ?_⟩
      rw [hCommitted.tables]
      exact dispatchCommand_change _ (admitCommand_tenantActive hAdmit) hCommitted.handled
  | quarantine c reference =>
    simp only [runOperation, bind_eq_ok, pure_eq_ok, Prod.mk.injEq] at h
    obtain ⟨_, h, rfl, rfl⟩ := h
    refine Or.inr ⟨rfl, _, rfl, ?_⟩
    rw [(quarantineCorruptArtifact_ok h).2]
    exact .contained _
  | system c =>
    simp only [runOperation, bind_eq_ok, pure_eq_ok, Prod.exists, Prod.mk.injEq] at h
    obtain ⟨tables, reply', h, rfl, rfl⟩ := h
    have hChange := runSystemCall_change h
    cases hReply : commits (.ok reply') with
    | true => exact Or.inr ⟨rfl, _, rfl, hChange⟩
    | false =>
      -- no system call answers with the receipt of a command
      exfalso
      cases c with
      | verifyAndClaimRun runId =>
        simp only [runSystemCall, bind_eq_ok, pure_eq_ok, Prod.exists, Prod.mk.injEq] at h
        obtain ⟨_, _, -, -, rfl⟩ := h
        cases hReply
      | claimPendingOutbox limit leaseSeconds =>
        simp only [runSystemCall, bind_eq_ok, pure_eq_ok, Prod.exists, Prod.mk.injEq] at h
        obtain ⟨_, _, -, -, rfl⟩ := h
        cases hReply
      | _ =>
        simp only [runSystemCall, withMutation, withDone, systemBudget, bind_eq_ok, pure_eq_ok,
          Prod.exists, Prod.mk.injEq] at h
        grind [commits]

/-- A step changes nothing or commits an act. -/
theorem step_change (env : Env) (catalogue : Catalogue) (s : Store) (c : Call) :
    (commits (step env catalogue s c).2 = false ∧ (step env catalogue s c).1 = s) ∨
      ∃ a, SystemEvent.did (Machine.eventAt (step env catalogue) s c) a ∧
        Change env c.tick s.tables a (step env catalogue s c).1.tables := by
  rcases transact_cases s (runOperation env catalogue c.tick s c.operation) with
    ⟨s', reply, hOk, hStep⟩ | ⟨failure, -, hStep⟩
  · have hEq : step env catalogue s c = (s', .ok reply) := hStep
    rw [hEq]
    rcases runOperation_change hOk with hNone | ⟨hCommits, a, hAct, hChange⟩
    · exact Or.inl hNone
    · refine Or.inr ⟨a, ⟨?_, hAct⟩, hChange⟩
      change commits (step env catalogue s c).2 = true
      rw [hEq]
      exact hCommits
  · have hEq : step env catalogue s c = (s, .error failure) := hStep
    rw [hEq]
    exact Or.inl ⟨rfl, rfl⟩

theorem not_did {e : SystemEvent} (h : commits e.response = false) (a : Act) : ¬e.did a := by
  intro hDid
  rw [hDid.1] at h
  cases h

/-- The change of an act that was committed. -/
theorem change_of_did {c : Call} {a : Act}
    (h : SystemEvent.did (Machine.eventAt (step env catalogue) s c) a) :
    Change env c.tick s.tables a (step env catalogue s c).1.tables := by
  rcases step_change env catalogue s c with ⟨hNone, -⟩ | ⟨b, hDid, hChange⟩
  · exact absurd h (not_did hNone a)
  · cases SystemEvent.did_unique hDid h
    exact hChange

/-- Everything a committed dispatch checked and wrote. -/
theorem Change.dispatch_inv {id : Uuid} (h : Change env tick t (.dispatch id) t') :
    ∃ e e' j, Dispatched tick t id e e' ∧
      t' = { t with effects := t.effects.set id e', journal := j } := by
  cases h with
  | dispatched j hDispatched => exact ⟨_, _, j, hDispatched, rfl⟩

/-- Everything a committed compensation found and created. -/
theorem Change.compensate_inv {original approval : Uuid} {content : ArtifactRef}
    (h : Change env tick t (.compensate original approval content) t') :
    ∃ e row q b' effects j, Compensated env tick t original approval content e row ∧
      Created tick t q row b' effects ∧ t' = { t with budget := b', effects, journal := j } := by
  cases h with
  | compensated j hTenant hCompensated hCreated =>
    exact ⟨_, _, _, _, _, j, hCompensated, hCreated, rfl⟩

end Step

end Masonwing
