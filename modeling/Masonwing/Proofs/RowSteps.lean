import Masonwing.Proofs.EffectSteps
import Masonwing.Store.Administration

/-!
# What the other operations do

The handlers of runs, grants, connections, approvals, kill switches and the relay, read back
from a successful call in the same way as those of effects.

* `startRun_ok`, `cancelRun_ok`, `markRunStarted_ok`, `markRunCompleted_ok`,
  `verifyAndClaimRun_ok`: runs;
* `createGrant_ok`, `revokeGrant_ok`: delegations, whose parent and expiry never change;
* `revokeConnection_ok`, `decideApproval_ok`, `setKillSwitch_ok`: administration;
* `claimPendingOutbox_ok`, `markOutboxDelivered_ok`, `markOutboxFailed_ok`: the relay, which
  leaves every projection alone.
-/

namespace Masonwing

open Outcome

variable {env : Env} {tick : Tick} {t t' : Tables} {m : Mutation}

/-- Every projection of the mutation is of one kind of resource. -/
def Mutation.Only (m : Mutation) (kind : String) : Prop :=
  ∀ c ∈ m.changes, c.resource.resourceType = kind

theorem Mutation.one_only (kind : String) (id : Uuid) (version : Version) (value : Json)
    (label : String) : (Mutation.one kind id version value label).Only kind := by
  intro c hc
  rw [Mutation.one, List.mem_singleton] at hc
  rw [hc]
  rfl

/-! ## Runs -/

/-- What a run was admitted with; no later step changes it. -/
structure RunTerms where
  principalId : Uuid
  workflowId : String
  workflowVersion : String
  pluginId : String
  pluginDigest : Digest
  grantId : Uuid
  grantFence : Int
  inputRef : ArtifactRef
  temporalWorkflowId : String
  createdAt : Int

def RunRow.terms (r : RunRow) : RunTerms :=
  { principalId := r.principalId, workflowId := r.workflowId, workflowVersion := r.workflowVersion
    pluginId := r.pluginId, pluginDigest := r.pluginDigest, grantId := r.grantId
    grantFence := r.grantFence, inputRef := r.inputRef, temporalWorkflowId := r.temporalWorkflowId
    createdAt := r.createdAt }

/-- A step of an existing run: its version advances and its terms stay. -/
structure RunMoved (t : Tables) (id : Uuid) (r r' : RunRow) : Prop where
  found : t.runs.get? id = some r
  version : r.version.next? = some r'.version
  terms : r'.terms = r.terms

structure RunCancelled (t : Tables) (id : Uuid) (r r' : RunRow) : Prop
    extends RunMoved t id r r' where
  target : cancellationState r.state (unresolvedEffectOf t id) = .ok r'.state
  dispatch : r'.dispatchState = .blocked
  fence : r'.fence = r.fence + 1

structure RunStarted (t : Tables) (id : Uuid) (r r' : RunRow) : Prop
    extends RunMoved t id r r' where
  waiting : r.state = .queued ∧ r.dispatchState = .pending
  running : r'.state = .running ∧ r'.dispatchState = .started
  fence : r'.fence = r.fence

structure RunCompleted (t : Tables) (id : Uuid) (r r' : RunRow) : Prop
    extends RunMoved t id r r' where
  inProgress : r.state.inProgress = true
  succeeded : r'.state = .succeeded
  dispatch : r'.dispatchState = r.dispatchState
  fence : r'.fence = r.fence

structure RunFenced (t : Tables) (id : Uuid) (r r' : RunRow) : Prop
    extends RunMoved t id r r' where
  waiting : r.state = .queued ∧ r.dispatchState = .pending
  blocked : r'.state = .blocked ∧ r'.dispatchState = .blocked
  fence : r'.fence = r.fence + 1

/-- A new run: what its admission found, and the state it begins in. -/
structure RunAdmitted (tick : Tick) (t : Tables) (actor : CommandActor) (r : RunRow) : Prop where
  principal : Uuid.parse actor.principalId.text = some r.principalId
  plugin : requireEnabledPlugin t r.pluginId r.pluginDigest = .ok ()
  enabled : stoppedBy t (some r.pluginId) none = false
  grant : ∃ g, requireActiveGrant tick t actor r.grantId (some "run.start") none = .ok g ∧
    r.grantFence = g.fence
  tenant : r.inputRef.tenantId = actor.tenantId
  waiting : r.state = .queued ∧ r.dispatchState = .pending
  first : r.fence = 1 ∧ r.version = .one
  identity : r.temporalWorkflowId = (tick.draw .run).toText

theorem insertRun_ok {id : Uuid} {r : RunRow} {runs : Table Uuid RunRow}
    (h : insertRun t id r = .ok runs) : t.runs.insert? id r = some runs := by
  simp only [insertRun, bind_eq_ok, require_eq_ok, sql_eq_ok, insertRow_eq_ok, pure_eq_ok,
    exists_const] at h
  obtain ⟨-, runs', hInsert, -, rfl⟩ := h
  exact hInsert

theorem startRun_ok {actor : CommandActor} {workflowId workflowVersion grantId : String}
    {inputRef : ArtifactRef}
    (h : startRun env tick t actor workflowId workflowVersion inputRef grantId = .ok (t', m)) :
    ∃ row runs input, t.runs.insert? (tick.draw .run) row = some runs ∧
      RunAdmitted tick t actor row ∧ t' = { t with runs } ∧
      m = runMutation env t (tick.draw .run) row input true := by
  simp only [startRun, bind_eq_ok, require_eq_ok, okOr_eq_ok, pure_eq_ok, parseUuid_eq_ok,
    requireDispatchEnabled, Prod.exists, Prod.mk.injEq, exists_const] at h
  obtain ⟨principal, hPrincipal, hTenant, grant, -, digest, definition, -, schema, -, _, hPlugin,
    hEnabled, active, hGrant, -, -, runs, hInsert, input, -, rfl, rfl⟩ := h
  exact ⟨_, runs, input, insertRun_ok hInsert,
    ⟨hPrincipal, hPlugin, hEnabled, ⟨active, hGrant, rfl⟩, hTenant, ⟨rfl, rfl⟩, ⟨rfl, rfl⟩, rfl⟩,
    rfl, rfl⟩

theorem cancelRun_ok {actor : CommandActor} {runId reason : String} {expected : Int}
    (h : cancelRun env tick t actor runId expected reason = .ok (t', m)) :
    ∃ id r r' input, Uuid.parse runId = some id ∧ RunCancelled t id r r' ∧
      t' = { t with runs := t.runs.set id r' } ∧
      m = runMutation env t id r' input (decide (r'.state = .cancelRequested)) := by
  simp only [cancelRun, bind_eq_ok, require_eq_ok, okOr_eq_ok, parseUuid_eq_ok, pure_eq_ok,
    requireReason, requireExpectedVersion_eq_ok, Prod.mk.injEq, exists_const] at h
  obtain ⟨id, hId, -, r, hFound, version, ⟨-, hVersion⟩, next, hNext, -, -, input, -, rfl, rfl⟩ := h
  refine ⟨id, r, _, input, hId, ⟨⟨hFound, hVersion, ?_⟩, hNext, ?_, ?_⟩, rfl, rfl⟩
  all_goals rfl

/-- A run is cancelled only while none of its transmissions is unresolved. -/
theorem cancellationState_cancelled {state : RunState} {unresolved : Bool}
    (h : cancellationState state unresolved = .ok .cancelled) : unresolved = false := by
  cases unresolved with
  | false => rfl
  | true => cases state <;> cases h

theorem markRunStarted_ok {id : Uuid} {temporalRunId : String} {fence : Int}
    (h : markRunStarted env tick t id temporalRunId fence = .ok (t', m)) :
    ∃ r r', RunStarted t id r r' ∧ r.fence = fence ∧ t' = { t with runs := t.runs.set id r' } := by
  simp only [markRunStarted, bind_eq_ok, require_eq_ok, okOr_eq_ok, beginSystem_eq_ok,
    Version.bump_eq_ok, pure_eq_ok, Prod.mk.injEq, exists_const] at h
  obtain ⟨-, r, hFound, hFence, version, hVersion, hWaiting, -, input, -, rfl, -⟩ := h
  refine ⟨r, _, ⟨⟨hFound, hVersion, ?_⟩, hWaiting, ⟨?_, ?_⟩, ?_⟩, hFence, rfl⟩
  all_goals rfl

theorem markRunCompleted_ok {id : Uuid} {fence : Int}
    (h : markRunCompleted tick t id fence = .ok t') :
    ∃ r r', RunCompleted t id r r' ∧ t' = { t with runs := t.runs.set id r' } := by
  simp only [markRunCompleted, bind_eq_ok, require_eq_ok, okOr_eq_ok, beginSystem_eq_ok,
    Version.bump_eq_ok, pure_eq_ok, exists_const] at h
  obtain ⟨-, r, hFound, -, hProgress, version, hVersion, rfl⟩ := h
  refine ⟨r, _, ⟨⟨hFound, hVersion, ?_⟩, hProgress, ?_, ?_, ?_⟩, rfl⟩
  all_goals rfl

/-- A claim of the run fences it: it waits to be started and fails a check. -/
def Fences (env : Env) (tick : Tick) (t : Tables) (id : Uuid) : Prop :=
  ∃ r, t.runs.get? id = some r ∧ (r.state = .queued ∧ r.dispatchState = .pending) ∧
    dispatchRefusal env tick t r ≠ none

/-- A claim hands the run out as it is, or fences it. -/
theorem verifyAndClaimRun_ok {id : Uuid} {claimed : Option DispatchableRun}
    (h : verifyAndClaimRun env tick t id = .ok (t', claimed)) :
    (t' = t ∧ ¬Fences env tick t id) ∨
      (Fences env tick t id ∧ ∃ r r', RunFenced t id r r' ∧
        t' = { t with runs := t.runs.set id r' }) := by
  simp only [verifyAndClaimRun, bind_eq_ok, beginSystem_eq_ok, exists_const] at h
  obtain ⟨-, h⟩ := h
  split at h
  · rename_i hNone
    cases h
    refine Or.inl ⟨rfl, ?_⟩
    rintro ⟨r, hr, -⟩
    cases hNone.symm.trans hr
  · rename_i r hFound
    split at h
    · rename_i hWaiting
      unfold claimRun at h
      split at h
      · rename_i code hRefusal
        simp only [fenceRunBlocked, bind_eq_ok, sql_eq_ok, Version.bump_eq_ok, pure_eq_ok,
          Prod.mk.injEq] at h
        obtain ⟨_, ⟨fence, hFence, version, hVersion, rfl⟩, rfl, -⟩ := h
        have hFences : Fences env tick t id :=
          ⟨r, hFound, hWaiting, fun hNone => by cases hRefusal.symm.trans hNone⟩
        refine Or.inr ⟨hFences, r, _, ⟨⟨hFound, hVersion, ?_⟩, hWaiting, ⟨?_, ?_⟩, ?_⟩, rfl⟩
        · rfl
        · rfl
        · rfl
        · exact (bigint_eq_ok.mp hFence).2.symm
      · rename_i hPasses
        cases h
        refine Or.inl ⟨rfl, ?_⟩
        rintro ⟨r', hr', -, hRefused⟩
        cases hFound.symm.trans hr'
        exact hRefused hPasses
    · rename_i hNot
      cases h
      refine Or.inl ⟨rfl, ?_⟩
      rintro ⟨r', hr', hWaiting, -⟩
      cases hFound.symm.trans hr'
      exact hNot hWaiting

/-! ## Grants -/

theorem requireActiveGrant_ok {actor : CommandActor} {id : Uuid} {action : Option String}
    {resource : Option ResourceRef} {g : ActiveGrant}
    (h : requireActiveGrant tick t actor id action resource = .ok g) :
    (∀ r ∈ ancestry t.delegations id, r.2.current tick.now = true) ∧
      ∃ d, t.delegations.get? id = some d ∧
        g = { id, actions := d.actions, resources := d.resources, expiresAt := d.expiresAt
              fence := d.fence } := by
  simp only [requireActiveGrant, bind_eq_ok, require_eq_ok, okOr_eq_ok, pure_eq_ok,
    List.all_eq_true, exists_const] at h
  obtain ⟨-, hCurrent, d, hFound, -, -, rfl⟩ := h
  exact ⟨hCurrent, d, hFound, rfl⟩

/-- A new grant: active, in its first version, and inside its parent, whose whole ancestry is
current. -/
structure GrantAdmitted (tick : Tick) (t : Tables) (d : DelegationRow) : Prop where
  active : d.state = .active
  first : d.version = .one ∧ d.fence = 1
  unexpired : tick.now < d.expiresAt
  parent : ∀ p ∈ d.parentGrantId,
    (∀ r ∈ ancestry t.delegations p, r.2.current tick.now = true) ∧
    ∃ parent, t.delegations.get? p = some parent ∧ d.expiresAt ≤ parent.expiresAt ∧
      d.actions ⊆ parent.actions ∧ d.resources ⊆ parent.resources

theorem checkParentGrant_ok {actor : CommandActor} {actions : List String}
    {resources : List ResourceRef} {expiresAt : Int} {text : Option String} {parent : Option Uuid}
    (h : checkParentGrant tick t actor actions resources expiresAt text = .ok parent) :
    ∀ p ∈ parent, (∀ r ∈ ancestry t.delegations p, r.2.current tick.now = true) ∧
      ∃ d, t.delegations.get? p = some d ∧ expiresAt ≤ d.expiresAt ∧ actions ⊆ d.actions ∧
        resources ⊆ d.resources := by
  intro p hp
  cases text with
  | none =>
    rw [checkParentGrant] at h
    cases h
    cases hp
  | some text =>
    simp only [checkParentGrant, bind_eq_ok, require_eq_ok, pure_eq_ok, exists_const] at h
    obtain ⟨q, -, grant, hGrant, ⟨hExpiry, hActions, hResources⟩, rfl⟩ := h
    cases hp
    obtain ⟨hCurrent, d, hFound, rfl⟩ := requireActiveGrant_ok hGrant
    exact ⟨hCurrent, d, hFound, hExpiry, hActions, hResources⟩

theorem createGrant_ok {actor : CommandActor} {delegate : PrincipalRef} {actions : List String}
    {resources : List ResourceRef} {expiresAt : Int} {parentGrantId : Option String}
    (h : createGrant env tick t actor delegate actions resources expiresAt parentGrantId =
      .ok (t', m)) :
    ∃ d ds, t.delegations.insert? (tick.draw .grant) d = some ds ∧ GrantAdmitted tick t d ∧
      t' = { t with delegations := ds } ∧ m.Only "Delegation" := by
  simp only [createGrant, bind_eq_ok, require_eq_ok, sql_eq_ok, insertRow_eq_ok, pure_eq_ok,
    Prod.mk.injEq, exists_const] at h
  obtain ⟨hExpiry, -, -, -, policy, -, checked, -, parent, hParent, creator, -, ds, hInsert, rfl,
    rfl⟩ := h
  refine ⟨_, ds, hInsert, ⟨rfl, ⟨rfl, rfl⟩, hExpiry, ?_⟩, rfl, Mutation.one_only _ _ _ _ _⟩
  exact checkParentGrant_ok hParent

theorem revokeRow_ok {d d' : DelegationRow} (h : revokeRow d = .ok d') :
    ∃ version, d.version.next? = some version ∧
      d' = { d with state := .revoked, version, fence := d.fence + 1 } := by
  simp only [revokeRow, bind_eq_ok, okOr_eq_ok, pure_eq_ok, bigint_eq_ok] at h
  obtain ⟨version, hVersion, _, ⟨-, rfl⟩, rfl⟩ := h
  exact ⟨version, hVersion, rfl⟩

/-- A revocation leaves each grant as it is or revokes it. -/
structure GrantsRevoked (ds ds' : Delegations) (ids : List Uuid) : Prop where
  rows : ∀ k, (ds.get? k = none ∧ ds'.get? k = none) ∨
    ∃ d d', ds.get? k = some d ∧ ds'.get? k = some d' ∧
      if k ∈ ids ∧ d.state = .active then revokeRow d = .ok d' else d' = d

theorem revokeGrant_ok {grantId reason : String} {expected : Int}
    (h : revokeGrant env t grantId expected reason = .ok (t', m)) :
    ∃ id d ids ds, Uuid.parse grantId = some id ∧ t.delegations.get? id = some d ∧
      d.state = .active ∧
      descendantsFrom t.delegations t.delegations.rows.length [id] = some ids ∧
      GrantsRevoked t.delegations ds ids ∧ t' = { t with delegations := ds } ∧
      m.Only "Delegation" := by
  simp only [revokeGrant, bind_eq_ok, require_eq_ok, okOr_eq_ok, parseUuid_eq_ok, sql_eq_ok,
    pure_eq_ok, requireReason, Prod.mk.injEq, exists_const] at h
  obtain ⟨id, hId, -, d, hFound, version, -, hActive, ids, hIds, ds, hUpdate, rfl, rfl⟩ := h
  refine ⟨id, d, ids, ds, hId, hFound, hActive, hIds, ⟨fun k => ?_⟩, rfl, ?_⟩
  · rcases Table.updateWhereM_get? hUpdate k with hNone | ⟨g, g', hg, hg', hRow⟩
    · exact Or.inl hNone
    · refine Or.inr ⟨g, g', hg, hg', ?_⟩
      unfold Table.rewriteRow at hRow
      split at hRow
      · rename_i hAffected
        have hBoth : k ∈ ids ∧ g.state = .active := by simpa using hAffected
        rw [if_pos hBoth]
        exact hRow
      · rename_i hAffected
        cases hRow
        have hNot : ¬(k ∈ ids ∧ g.state = .active) := by simpa using hAffected
        rw [if_neg hNot]
  · intro c hc
    obtain ⟨r, -, rfl⟩ := List.mem_map.mp hc
    rfl

/-! ## Administration -/

theorem revokeConnection_ok {connectionId reason : String} {expected : Int}
    (h : revokeConnection env t connectionId expected reason = .ok (t', m)) :
    ∃ id c c', Uuid.parse connectionId = some id ∧ t.connections.get? id = some c ∧
      c'.state = .revoked ∧ t' = { t with connections := t.connections.set id c' } ∧
      m.Only "Connection" := by
  simp only [revokeConnection, bind_eq_ok, require_eq_ok, okOr_eq_ok, parseUuid_eq_ok, pure_eq_ok,
    requireReason, Prod.mk.injEq, exists_const] at h
  obtain ⟨id, hId, -, c, hFound, guarded, -, version, -, rfl, rfl⟩ := h
  refine ⟨id, c, _, hId, hFound, ?_, rfl, Mutation.one_only _ _ _ _ _⟩
  rfl

/-- What an approval was given for; a decision does not change it. -/
def ApprovalRow.terms (a : ApprovalRow) : String × ResourceRef × Digest × Int :=
  (a.action, a.target, a.contentDigest, a.expiresAt)

theorem decideApproval_ok {actor : CommandActor} {proposalId decision contentDigest reason : String}
    {expected : Int}
    (h : decideApproval env tick t actor proposalId decision expected contentDigest reason =
      .ok (t', m)) :
    ∃ id a a', Uuid.parse proposalId = some id ∧ t.approvals.get? id = some a ∧
      a'.terms = a.terms ∧ t' = { t with approvals := t.approvals.set id a' } ∧
      m.Only "Approval" := by
  simp only [decideApproval, bind_eq_ok, require_eq_ok, okOr_eq_ok, parseUuid_eq_ok, pure_eq_ok,
    requireReason, Prod.mk.injEq, exists_const] at h
  obtain ⟨principal, -, id, hId, -, a, hFound, next, -, -, -, -, version, -, rfl, rfl⟩ := h
  refine ⟨id, a, _, hId, hFound, ?_, rfl, Mutation.one_only _ _ _ _ _⟩
  rfl

theorem setKillSwitch_ok {actor : CommandActor} {scope targetId reason : String} {active : Bool}
    (h : setKillSwitch tick t actor scope targetId active reason = .ok (t', m)) :
    ∃ killSwitches, t' = { t with registry := { t.registry with killSwitches } } ∧
      m.Only "KillSwitch" := by
  simp only [setKillSwitch, bind_eq_ok, require_eq_ok, pure_eq_ok, requireReason, Prod.exists,
    Prod.mk.injEq, exists_const] at h
  obtain ⟨principal, -, -, kind, -, switches, s, -, rfl, rfl⟩ := h
  exact ⟨_, rfl, Mutation.one_only _ _ _ _ _⟩

theorem configureBudgetCommand_ok {currency period : String} {limit expected : Int}
    (h : configureBudgetCommand tick t currency period limit expected = .ok (t', m)) :
    ∃ b', b'.reservations = t.budget.reservations ∧ b'.ledger = t.budget.ledger ∧
      t' = { t with budget := b' } ∧ m.Only "BudgetSettings" := by
  simp only [configureBudgetCommand, bind_eq_ok, pure_eq_ok, Prod.exists, Prod.mk.injEq] at h
  obtain ⟨b', m', hConfigure, rfl, rfl⟩ := h
  obtain ⟨hReservations, hLedger, -⟩ := configureBudget_ok hConfigure
  refine ⟨b', hReservations, hLedger, rfl, ?_⟩
  simp only [configureBudget, bind_eq_ok, pure_eq_ok, Prod.mk.injEq] at hConfigure
  obtain ⟨c, -, p, -, settings, -, current, -, version, -, -, -, row, -, accounts, -, -,
    rfl⟩ := hConfigure
  exact Mutation.one_only _ _ _ _ _

/-! ## The relay -/

/-- The journal may change, but what it shows of any resource does not. -/
def Relayed (t t' : Tables) : Prop :=
  t'.journal.projections = t.journal.projections ∧ t' = { t with journal := t'.journal }

theorem claimEvent_ok {leaseSeconds : Int} {claimed claimed' : Journal × List OutboxDispatchItem}
    {event : Uuid × OutboxRow} (h : claimEvent tick leaseSeconds claimed event = .ok claimed') :
    claimed'.1.projections = claimed.1.projections := by
  unfold claimEvent at h
  dsimp only at h
  split at h
  · cases h
    rfl
  · simp only [bind_eq_ok, pure_eq_ok] at h
    obtain ⟨attempts, -, rfl⟩ := h
    rfl

theorem claimPendingOutbox_ok {limit leaseSeconds : Int} {items : List OutboxDispatchItem}
    (h : claimPendingOutbox tick t limit leaseSeconds = .ok (t', items)) : Relayed t t' := by
  simp only [claimPendingOutbox, bind_eq_ok, beginSystem_eq_ok, require_eq_ok, pure_eq_ok,
    Prod.exists, Prod.mk.injEq, exists_const] at h
  obtain ⟨-, -, journal, claimed, hFold, rfl, -⟩ := h
  refine ⟨?_, rfl⟩
  exact foldlM_invariant (I := fun c => c.1.projections = t.journal.projections)
    (fun event _ c c' hc hEvent => (claimEvent_ok hEvent).trans hc) rfl hFold

theorem markOutboxDelivered_ok {eventId : Uuid} (h : markOutboxDelivered t eventId = .ok t') :
    Relayed t t' := by
  simp only [markOutboxDelivered, bind_eq_ok, beginSystem_eq_ok, pure_eq_ok, exists_const] at h
  obtain ⟨-, rfl⟩ := h
  exact ⟨rfl, rfl⟩

theorem markOutboxFailed_ok {eventId : Uuid} {maxAttempts : Int}
    (h : markOutboxFailed tick t eventId maxAttempts = .ok t') : Relayed t t' := by
  simp only [markOutboxFailed, bind_eq_ok, beginSystem_eq_ok, sql_eq_ok, okOr_eq_ok, pure_eq_ok,
    exists_const] at h
  obtain ⟨-, o, -, rfl⟩ := h
  exact ⟨rfl, rfl⟩

end Masonwing
