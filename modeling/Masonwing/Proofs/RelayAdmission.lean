import Masonwing.Proofs.Ancestry
import Masonwing.Proofs.Evaluation
import Masonwing.Proofs.JournalSteps
import Masonwing.Proofs.RunLifecycle

/-!
# Admission and relay

A run is authorized twice: `run.start` is evaluated against the tenant when the run is admitted, and
against the workflow definition when the relay verifies it. Everything else that the relay checks
follows from the admission as long as the rows it read are unchanged, so the two agree exactly on
the policies that give both answers (`relay_agrees_iff`).
-/

namespace Masonwing

open Outcome Relation

variable {ι : Type}

/-- The rows that both checks read are the same: the installation of the plugin, the grant and the
kill switches. The policy and the memberships are the same in any case (`identity_kept`). -/
structure AuthorityUnchanged (t t' : Tables) (r : RunRow) : Prop where
  installation : t'.registry.installations.get? r.pluginId =
    t.registry.installations.get? r.pluginId
  grant : t'.delegations.get? r.grantId = t.delegations.get? r.grantId
  killSwitches : t'.registry.killSwitches = t.registry.killSwitches

/-- The current policy lets the principal of the run start the workflow of its build. -/
def DefinitionPermitted (env : Env) (t : Tables) (r : RunRow) : Prop :=
  ∃ requester, readPolicyForPrincipal env t r.principalId = .ok requester ∧
    requester.permits env "run.start" "WorkflowDefinition"
      (r.pluginId ++ ":" ++ r.pluginDigest.toText)
      [("plugin_id", .str r.pluginId), ("digest", .str r.pluginDigest.toText)] = true

/-- What an admission leaves true as long as the rows are unchanged. -/
structure Dispatchable (env : Env) (tick : Tick) (t : Tables) (r : RunRow) : Prop where
  tenant : t.identity.tenantActive = true
  running : stoppedBy t (some r.pluginId) none = false
  enabled : (t.registry.installations.get? r.pluginId).any (fun i =>
    decide (i.state = .enabled ∧ i.artifactDigest = r.pluginDigest)) = true
  member : (t.identity.memberships.get? r.principalId).any (fun m =>
    decide (m.status = .active)) = true
  policy : ∃ requester, readPolicyForPrincipal env t r.principalId = .ok requester
  grant : grantRefusal tick t r = none

section Admission

variable {env : Env} {tick : Tick} {t : Tables}

theorem requireEnabledPlugin_ok {pluginId : String} {digest : Digest}
    (h : requireEnabledPlugin t pluginId digest = .ok ()) :
    (t.registry.installations.get? pluginId).any (fun i =>
      decide (i.state = .enabled ∧ i.artifactDigest = digest)) = true := by
  simp only [requireEnabledPlugin, bind_eq_ok, okOr_eq_ok, require_eq_ok, exists_const] at h
  obtain ⟨i, hFound, -, -, hEnabled⟩ := h
  rw [hFound, Option.any_some, decide_eq_true hEnabled]

theorem currentPolicy_ok {principal : Uuid} {row : MembershipRow × PolicyRow}
    (h : currentPolicy env t principal = .ok row) :
    (t.identity.memberships.get? principal).any (fun m => decide (m.status = .active)) = true ∧
      ∃ requester, readPolicyForPrincipal env t principal = .ok requester := by
  refine ⟨?_, ?_⟩
  · simp only [currentPolicy, bind_eq_ok, okOr_eq_ok, require_eq_ok, exists_const] at h
    obtain ⟨m, hFound, hActive, -⟩ := h
    rw [hFound, Option.any_some, decide_eq_true hActive]
  · rw [readPolicyForPrincipal, h]
    exact ⟨_, rfl⟩

theorem beginActor_tenantActive {actor : CommandActor} (h : beginActor t actor = .ok ()) :
    t.identity.tenantActive = true := by
  simp only [beginActor, bind_eq_ok, require_eq_ok, exists_const] at h
  obtain ⟨tenant, -, principal, -, ⟨-, hActive⟩, -⟩ := h
  exact hActive

/-- The grant that the run is bound to passes the relay's check as long as it does not expire. -/
theorem RunAdmitted.grantRefusal {actor : CommandActor} {r : RunRow}
    (h : RunAdmitted tick t actor r) {later : Tick} {t' : Tables}
    (hSame : t'.delegations.get? r.grantId = t.delegations.get? r.grantId)
    (hUnexpired : ∀ d, t'.delegations.get? r.grantId = some d → later.now < d.expiresAt) :
    Masonwing.grantRefusal later t' r = none := by
  obtain ⟨g, hActive, hFence⟩ := h.grant
  obtain ⟨hCurrent, d, hd, rfl⟩ := requireActiveGrant_ok hActive
  have hOwn := hCurrent _ (mem_ancestry ReflTransGen.refl hd)
  rw [DelegationRow.current, Bool.and_eq_true, decide_eq_true_eq] at hOwn
  have hLater : d.current later.now = true := by
    rw [DelegationRow.current, decide_eq_true hOwn.1,
      decide_eq_true (hUnexpired d (hSame.trans hd))]
    rfl
  rw [Masonwing.grantRefusal, hSame.trans hd]
  dsimp only
  rw [hLater, hFence, decide_eq_true rfl]
  rfl

/-- An admitted run is dispatchable while the rows of its admission are unchanged. -/
theorem RunAdmitted.dispatchable {c : Command CommandInput} {r : RunRow}
    (h : RunAdmitted tick t c.actor r) (hActor : beginActor t c.actor = .ok ())
    (hAuthorized : authorizeCommand env t c = .ok ()) {later : Tick} {t' : Tables}
    (hIdentity : t'.identity = t.identity) (hSame : AuthorityUnchanged t t' r)
    (hUnexpired : ∀ d, t'.delegations.get? r.grantId = some d → later.now < d.expiresAt) :
    Dispatchable env later t' r := by
  simp only [authorizeCommand, readPolicy, bind_eq_ok, parseUuid_eq_ok] at hAuthorized
  obtain ⟨policy, ⟨principal, hPrincipal, row, hPolicy, -⟩, -⟩ := hAuthorized
  cases hPrincipal.symm.trans h.principal
  obtain ⟨hMember, hRequester⟩ := currentPolicy_ok hPolicy
  exact
    { tenant := by rw [hIdentity]; exact beginActor_tenantActive hActor
      running := by
        rw [stoppedBy, hSame.killSwitches, hIdentity]
        exact h.enabled
      enabled := by rw [hSame.installation]; exact requireEnabledPlugin_ok h.plugin
      member := by rw [hIdentity]; exact hMember
      policy := by
        obtain ⟨requester, hRead⟩ := hRequester
        refine ⟨requester, ?_⟩
        simp only [readPolicyForPrincipal, currentPolicy] at hRead ⊢
        rw [hIdentity]
        exact hRead
      grant := h.grantRefusal hSame.grant hUnexpired }

/-- The checks read only the terms of the run. -/
theorem Dispatchable.of_terms {r r' : RunRow} (h : Dispatchable env tick t r)
    (hTerms : r'.terms = r.terms) : Dispatchable env tick t r' := by
  have hPrincipal : r'.principalId = r.principalId := congrArg RunTerms.principalId hTerms
  have hPlugin : r'.pluginId = r.pluginId := congrArg RunTerms.pluginId hTerms
  have hDigest : r'.pluginDigest = r.pluginDigest := congrArg RunTerms.pluginDigest hTerms
  have hGrant : r'.grantId = r.grantId := congrArg RunTerms.grantId hTerms
  have hFence : r'.grantFence = r.grantFence := congrArg RunTerms.grantFence hTerms
  refine ⟨h.tenant, ?_, ?_, ?_, ?_, ?_⟩
  · rw [hPlugin]
    exact h.running
  · rw [hPlugin, hDigest]
    exact h.enabled
  · rw [hPrincipal]
    exact h.member
  · rw [hPrincipal]
    exact h.policy
  · have hRefusal := h.grant
    rw [Masonwing.grantRefusal] at hRefusal ⊢
    rw [hGrant, hFence]
    exact hRefusal

/-- On such rows only the policy on the workflow definition is left to refuse. -/
theorem Dispatchable.refusal {r : RunRow} (h : Dispatchable env tick t r) :
    dispatchRefusal env tick t r = none ↔ DefinitionPermitted env t r := by
  obtain ⟨requester, hRead⟩ := h.policy
  have hPermitted : DefinitionPermitted env t r ↔ requester.permits env "run.start"
      "WorkflowDefinition" (r.pluginId ++ ":" ++ r.pluginDigest.toText)
      [("plugin_id", .str r.pluginId), ("digest", .str r.pluginDigest.toText)] = true := by
    constructor
    · rintro ⟨other, hOther, hPermits⟩
      cases hRead.symm.trans hOther
      exact hPermits
    · exact fun hPermits => ⟨requester, hRead, hPermits⟩
  rw [hPermitted, dispatchRefusal, if_neg (by rw [h.running]; exact Bool.false_ne_true),
    if_neg (by rw [h.enabled]; exact Bool.true_eq_false.mp), if_neg (by rw [h.member]; decide),
    hRead]
  dsimp only
  split
  · rename_i hDenied
    rw [hDenied]
    exact ⟨fun hNone => (by cases hNone), fun hTrue => (by cases hTrue)⟩
  · rename_i hPermits
    rw [Bool.not_eq_false] at hPermits
    exact ⟨fun _ => hPermits, fun _ => h.grant⟩

/-- The relay hands out a run exactly if it waits for its start and no check refuses it. -/
theorem verifyAndClaimRun_hands_out_iff {id : Uuid} {r : RunRow}
    (hTenant : t.identity.tenantActive = true) (hr : t.runs.get? id = some r) :
    (∃ run, verifyAndClaimRun env tick t id = .ok (t, some run)) ↔
      (r.state = .queued ∧ r.dispatchState = .pending) ∧ dispatchRefusal env tick t r = none := by
  have hBegin : beginSystem t = .ok () := by rw [beginSystem, hTenant]; rfl
  have hEq : verifyAndClaimRun env tick t id =
      if r.state = .queued ∧ r.dispatchState = .pending then claimRun env tick t id r
      else .ok (t, none) := by
    rw [verifyAndClaimRun, hBegin, hr]
    rfl
  rw [hEq]
  constructor
  · rintro ⟨run, hRun⟩
    split at hRun
    · rename_i hWaiting
      refine ⟨hWaiting, ?_⟩
      cases hRefusal : dispatchRefusal env tick t r with
      | none => rfl
      | some code =>
        simp only [claimRun, hRefusal, bind_eq_ok, pure_eq_ok, Prod.mk.injEq] at hRun
        obtain ⟨t', -, -, hNone⟩ := hRun
        cases hNone
    · cases hRun
  · rintro ⟨hWaiting, hRefusal⟩
    rw [if_pos hWaiting, claimRun, hRefusal]
    exact ⟨_, rfl⟩

end Admission

/-! ## Every run -/

section Runs

variable {p : Platform ι} {s : Store} {c : PlatformCall ι}

/-- No operation changes the tenant, its policy or its memberships. -/
theorem identity_kept (p : Platform ι) (s : Store) (calls : List (PlatformCall ι)) :
    (Machine.run (platformStep p) s calls).tables.identity = s.tables.identity := by
  refine platform_invariant (I := fun t => t.identity = s.tables.identity) ?_ rfl calls
  intro tick t a t' h hChange
  cases hChange with
  | core hCore => cases hCore <;> exact h
  | _ => exact h

/-- A stored run keeps its terms. -/
theorem terms_kept (p : Platform ι) (s : Store) (calls : List (PlatformCall ι)) {id : Uuid}
    {r : RunRow} (hr : s.tables.runs.get? id = some r) :
    ∃ r', (Machine.run (platformStep p) s calls).tables.runs.get? id = some r' ∧
      r'.terms = r.terms := by
  refine platform_invariant (I := fun t => ∃ r', t.runs.get? id = some r' ∧ r'.terms = r.terms)
    ?_ ⟨r, hr, rfl⟩ calls
  rintro tick t a t' ⟨q, hq, hTerms⟩ hChange
  obtain ⟨q', hq', hSame, -⟩ := hChange.run_kept hq
  exact ⟨q', hq', hSame.trans hTerms⟩

/-- Only the command `run.start` is asked to start a run. -/
theorem PlatformOperation.act_startRun {op : PlatformOperation ι}
    (h : op.act = some (.core .startRun)) :
    ∃ (command : Command CommandInput) (workflowId workflowVersion : String)
      (inputRef : ArtifactRef) (grantId : String), op = .core (.command command) ∧
      command.input = .runStart workflowId workflowVersion inputRef grantId := by
  obtain ⟨⟨actor, input, key, fingerprint⟩, rfl, hAct⟩ := PlatformOperation.act_commanded h rfl
  cases input with
  | runStart workflowId workflowVersion inputRef grantId =>
    exact ⟨_, workflowId, workflowVersion, inputRef, grantId, rfl, rfl⟩
  | effectCompensate effectId content approvalId =>
    simp [CommandInput.act, Option.bind_eq_some_iff] at hAct
  | _ => simp [CommandInput.act] at hAct

/-- What a committed `run.start` was authorized by and what it admitted. -/
theorem started_of_did
    (h : PlatformEvent.did (Machine.eventAt (platformStep p) s c) (.core .startRun)) :
    ∃ (command : Command CommandInput) (r : RunRow),
      beginActor s.tables command.actor = .ok () ∧
      authorizeCommand p.env s.tables command = .ok () ∧
      RunAdmitted c.tick s.tables command.actor r ∧
      (platformStep p s c).1.tables.runs.get? (c.tick.draw .run) = some r := by
  have hNew : ∃ r, (platformStep p s c).1.tables.runs.get? (c.tick.draw .run) = some r ∧
      s.tables.runs.get? (c.tick.draw .run) = none := by
    have hChange := platformChange_of_did h
    generalize (platformStep p s c).1.tables = t' at hChange
    cases hChange with
    | core hCore =>
      cases hCore with
      | started j hInsert hAdmitted =>
        exact ⟨_, Table.insert?_get?_self hInsert, (Table.insert?_eq_some hInsert).1⟩
  obtain ⟨r, hr, hNone⟩ := hNew
  obtain ⟨command, workflowId, workflowVersion, inputRef, grantId, hOp, hInput⟩ :=
    PlatformOperation.act_startRun h.2
  have hCall : c.operation = .core (.command command) := hOp
  have hOutcome := platformStep_outcome p s c
  rw [hCall] at hOutcome
  generalize (platformStep p s c).1.tables = t' at hOutcome hr ⊢
  cases hOutcome with
  | unchanged => cases hNone.symm.trans hr
  | command hActor hAuthorized hHandled hJournal hRecorded =>
    refine ⟨command, r, hActor, hAuthorized, ?_, hr⟩
    unfold dispatchCommand at hHandled
    rw [hInput] at hHandled
    obtain ⟨row, runs, _, hInsert, hAdmitted, rfl, -⟩ := startRun_ok hHandled
    cases (Table.insert?_get?_self hInsert).symm.trans hr
    exact hAdmitted
  | contained hContained => cases hNone.symm.trans hr

/-- The relay hands out an admitted run, with the rows of its admission unchanged and its grant not
expired, if and only if the run still waits for its start and the policy permits it on the workflow
definition as well. -/
theorem relay_agrees_iff (p : Platform ι) (s : Store) (c : PlatformCall ι)
    (later : List (PlatformCall ι)) (tick : Tick) (r : RunRow)
    (hStarted : PlatformEvent.did (Machine.eventAt (platformStep p) s c) (.core .startRun))
    (hr : (Machine.run (platformStep p) s (c :: later)).tables.runs.get? (c.tick.draw .run) =
      some r)
    (hSame : AuthorityUnchanged s.tables (Machine.run (platformStep p) s (c :: later)).tables r)
    (hUnexpired : ∀ d, (Machine.run (platformStep p) s (c :: later)).tables.delegations.get?
      r.grantId = some d → tick.now < d.expiresAt) :
    (∃ run, verifyAndClaimRun p.env tick (Machine.run (platformStep p) s (c :: later)).tables
        (c.tick.draw .run) =
      .ok ((Machine.run (platformStep p) s (c :: later)).tables, some run)) ↔
      (r.state = .queued ∧ r.dispatchState = .pending) ∧
        DefinitionPermitted p.env (Machine.run (platformStep p) s (c :: later)).tables r := by
  obtain ⟨command, r₀, hActor, hAuthorized, hAdmitted, hNew⟩ := started_of_did hStarted
  have hIdentity := identity_kept p s (c :: later)
  obtain ⟨r', hr', hTerms⟩ := terms_kept p (platformStep p s c).1 later hNew
  cases hr'.symm.trans hr
  have hPlugin : r.pluginId = r₀.pluginId := congrArg RunTerms.pluginId hTerms
  have hGrant : r.grantId = r₀.grantId := congrArg RunTerms.grantId hTerms
  have hSame₀ : AuthorityUnchanged s.tables
      (Machine.run (platformStep p) s (c :: later)).tables r₀ := by
    obtain ⟨hInstallation, hGrantRow, hSwitches⟩ := hSame
    rw [hPlugin] at hInstallation
    rw [hGrant] at hGrantRow
    exact ⟨hInstallation, hGrantRow, hSwitches⟩
  rw [hGrant] at hUnexpired
  have hDispatchable : Dispatchable p.env tick
      (Machine.run (platformStep p) s (c :: later)).tables r :=
    (hAdmitted.dispatchable hActor hAuthorized hIdentity hSame₀ hUnexpired).of_terms hTerms
  rw [verifyAndClaimRun_hands_out_iff hDispatchable.tenant hr, hDispatchable.refusal]

/-- The store right after an admission: the run waits, and the rows are as they were. -/
theorem admitted_of_did
    (h : PlatformEvent.did (Machine.eventAt (platformStep p) s c) (.core .startRun)) :
    ∃ r, (Machine.run (platformStep p) s [c]).tables.runs.get? (c.tick.draw .run) = some r ∧
      (r.state = .queued ∧ r.dispatchState = .pending) ∧
      AuthorityUnchanged s.tables (Machine.run (platformStep p) s [c]).tables r := by
  obtain ⟨command, r, -, -, hAdmitted, hr⟩ := started_of_did h
  refine ⟨r, hr, hAdmitted.waiting, ?_⟩
  have hChange := platformChange_of_did h
  change AuthorityUnchanged s.tables (platformStep p s c).1.tables r
  generalize (platformStep p s c).1.tables = t' at hChange
  cases hChange with
  | core hCore =>
    cases hCore with
    | started j hInsert hAdmitted => exact ⟨rfl, rfl, rfl⟩

end Runs

/-! ## Two policies -/

namespace Sample

/-- A policy that permits everything but what is asked of a workflow definition. -/
def tenantPolicy : Platform Empty :=
  { platform with
    env :=
      { env with
        policyPermits := fun _ _ _ kind _ _ => decide (kind ≠ "WorkflowDefinition") } }

/-- The workshop with a grant, under a policy. -/
def granted (p : Platform Empty) : Store :=
  Machine.run (platformStep p) workshop [delegate 1 none]

def admission : PlatformCall Empty := start 2 (grantOf 1)

theorem admission_did {p : Platform Empty}
    (h : platformCommits (platformStep p (granted p) admission).2 = true) :
    PlatformEvent.did (Machine.eventAt (platformStep p) (granted p) admission)
      (.core .startRun) := ⟨h, rfl⟩

theorem unexpired {t : Tables} {later : Tick}
    (h : t.delegations.any (fun _ d => decide (d.expiresAt ≤ later.now)) = false) (id : Uuid)
    (d : DelegationRow) (hd : t.delegations.get? id = some d) : later.now < d.expiresAt := by
  have hNot := Table.any_eq_false_iff.mp h id d hd
  rw [decide_eq_false_iff_not] at hNot
  omega

end Sample

theorem Sample.admission_facts :
    platformCommits (platformStep platform (granted platform) admission).2 = true ∧
      (Machine.run (platformStep platform) (granted platform)
        [admission]).tables.delegations.any
          (fun _ d => decide (d.expiresAt ≤ (tick 3).now)) = false := by
  simp only [Sample.granted, platformStep_bytewise, Sample.platform_bytewise]
  decide +kernel

theorem relay_agrees_admission : ∃ r,
    (Machine.run (platformStep Sample.platform) (Sample.granted Sample.platform)
      [Sample.admission]).tables.runs.get? (Sample.admission.tick.draw .run) = some r ∧
    ((∃ run, verifyAndClaimRun Sample.platform.env (Sample.tick 3)
        (Machine.run (platformStep Sample.platform) (Sample.granted Sample.platform)
          [Sample.admission]).tables (Sample.admission.tick.draw .run) =
      .ok ((Machine.run (platformStep Sample.platform) (Sample.granted Sample.platform)
        [Sample.admission]).tables, some run)) ↔
      (r.state = .queued ∧ r.dispatchState = .pending) ∧
        DefinitionPermitted Sample.platform.env
          (Machine.run (platformStep Sample.platform) (Sample.granted Sample.platform)
            [Sample.admission]).tables r) := by
  obtain ⟨hCommits, hUnexpired⟩ := Sample.admission_facts
  have hDid := Sample.admission_did hCommits
  obtain ⟨r, hr, -, hSame⟩ := admitted_of_did hDid
  exact ⟨r, hr, relay_agrees_iff Sample.platform (Sample.granted Sample.platform) Sample.admission []
    (Sample.tick 3) r hDid hr hSame (Sample.unexpired hUnexpired r.grantId)⟩

theorem Sample.narrow_facts :
    platformCommits (platformStep tenantPolicy (granted tenantPolicy) admission).2 = true ∧
      (Machine.run (platformStep tenantPolicy) (granted tenantPolicy)
        [admission]).tables.delegations.any
          (fun _ d => decide (d.expiresAt ≤ (tick 3).now)) = false ∧
      (verifyAndClaimRun tenantPolicy.env (tick 3) (Machine.run (platformStep tenantPolicy)
        (granted tenantPolicy) [admission]).tables (admission.tick.draw .run)).toOption.map
          (fun claimed => (claimed.2.isSome, (claimed.1.runs.get? (admission.tick.draw .run)).bind
            (·.failureCode))) = some (false, some "POLICY_REVOKED") := by
  simp only [Sample.granted, platformStep_bytewise]
  decide +kernel

/-- A run that was just admitted, with nothing changed since, is fenced as if the policy had been
revoked. -/
theorem relay_refuses_admitted : ∃ r,
    PlatformEvent.did (Machine.eventAt (platformStep Sample.tenantPolicy)
      (Sample.granted Sample.tenantPolicy) Sample.admission) (.core .startRun) ∧
    (Machine.run (platformStep Sample.tenantPolicy) (Sample.granted Sample.tenantPolicy)
      [Sample.admission]).tables.runs.get? (Sample.admission.tick.draw .run) = some r ∧
    (r.state = .queued ∧ r.dispatchState = .pending) ∧
    AuthorityUnchanged (Sample.granted Sample.tenantPolicy).tables
      (Machine.run (platformStep Sample.tenantPolicy) (Sample.granted Sample.tenantPolicy)
        [Sample.admission]).tables r ∧
    (∀ d, (Machine.run (platformStep Sample.tenantPolicy) (Sample.granted Sample.tenantPolicy)
      [Sample.admission]).tables.delegations.get? r.grantId = some d →
        (Sample.tick 3).now < d.expiresAt) ∧
    ¬∃ t run, verifyAndClaimRun Sample.tenantPolicy.env (Sample.tick 3)
      (Machine.run (platformStep Sample.tenantPolicy) (Sample.granted Sample.tenantPolicy)
        [Sample.admission]).tables (Sample.admission.tick.draw .run) = .ok (t, some run) := by
  obtain ⟨hCommits, hUnexpired, hFenced⟩ := Sample.narrow_facts
  have hDid := Sample.admission_did hCommits
  obtain ⟨r, hr, hWaiting, hSame⟩ := admitted_of_did hDid
  refine ⟨r, hDid, hr, hWaiting, hSame, Sample.unexpired hUnexpired r.grantId, ?_⟩
  rintro ⟨t, run, hClaimed⟩
  rw [hClaimed] at hFenced
  cases hFenced

end Masonwing
