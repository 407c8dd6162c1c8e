import Masonwing.Proofs.ArtifactRows
import Masonwing.Proofs.RunLifecycle

/-!
# What the operations of the host show

The resources that the changes of an operation are about (`CommandShows`, `Records.kind`) and the
artifacts that they are derived from (`runMutation_sources`, `effectMutation_sources`).
-/

namespace Masonwing

open Outcome

variable {ι ν ε : Type}

/-! ## The first commands -/

/-- The reference that the document of a run or an effect is derived from. -/
def CommandInput.content (t : Tables) : CommandInput → Option ArtifactRef
  | .runStart _ _ inputRef _ => some inputRef
  | .runCancel runId _ _ => ((Uuid.parse runId).bind t.runs.get?).map (·.inputRef)
  | .effectPropose _ _ _ contentRef _ _ => some contentRef
  | .effectDispatch effectId _ => ((Uuid.parse effectId).bind t.effects.get?).map (·.contentRef)
  | .effectReconcile effectId _ => ((Uuid.parse effectId).bind t.effects.get?).map (·.contentRef)
  | .effectCompensate _ compensationRef _ => some compensationRef
  | _ => none

/-- The kind of resource that the other commands show. -/
def CommandInput.kind : CommandInput → Option String
  | .approvalDecide .. => some "Approval"
  | .budgetConfigure .. => some "BudgetSettings"
  | .connectionRevoke .. => some "Connection"
  | .grantCreate .. | .grantRevoke .. => some "Delegation"
  | .killSwitchSet .. => some "KillSwitch"
  | _ => none

/-- A command shows one run, one effect, or resources of one other kind. -/
inductive CommandShows (env : Env) (t t' : Tables) (input : CommandInput) (m : Mutation) : Prop
  | run {id s : Uuid} {r : RunRow} {accepted : Bool} (hShown : m = runMutation env t id r s accepted)
      (hRow : t'.runs.get? id = some r) (hParse : Uuid.parse r.inputRef.artifactId.text = some s)
      (hContent : input.content t = some r.inputRef)
  | effect {id : Uuid} {e : EffectRow} {label : String} {accepted : Bool}
      (hShown : m = effectMutation env t id e label accepted)
      (hContent : input.content t = some e.contentRef)
  | other {kind : String} (hOnly : m.Only kind) (hKind : input.kind = some kind)

section Handlers

variable {env : Env} {tick : Tick} {t t' : Tables} {m : Mutation}

theorem startRun_shows {actor : CommandActor} {workflowId workflowVersion grantId : String}
    {inputRef : ArtifactRef}
    (h : startRun env tick t actor workflowId workflowVersion inputRef grantId = .ok (t', m)) :
    ∃ r s, m = runMutation env t (tick.draw .run) r s true ∧ r.inputRef = inputRef ∧
      t'.runs.get? (tick.draw .run) = some r ∧ Uuid.parse inputRef.artifactId.text = some s := by
  simp only [startRun, bind_eq_ok, require_eq_ok, okOr_eq_ok, parseUuid_eq_ok, pure_eq_ok,
    requireDispatchEnabled, Prod.exists, Prod.mk.injEq, exists_const] at h
  obtain ⟨principal, -, -, grant, -, digest, definition, -, schema, -, -, -, -, active, -, _, -,
    runs, hInsert, input, hInput, rfl, rfl⟩ := h
  exact ⟨_, input, rfl, rfl, Table.insert?_get?_self (insertRun_ok hInsert), hInput⟩

theorem cancelRun_shows {actor : CommandActor} {runId reason : String} {expected : Int}
    (h : cancelRun env tick t actor runId expected reason = .ok (t', m)) :
    ∃ id r r' s accepted, Uuid.parse runId = some id ∧ t.runs.get? id = some r ∧
      m = runMutation env t id r' s accepted ∧ r'.inputRef = r.inputRef ∧
      t'.runs.get? id = some r' ∧ Uuid.parse r.inputRef.artifactId.text = some s := by
  simp only [cancelRun, bind_eq_ok, require_eq_ok, okOr_eq_ok, parseUuid_eq_ok, pure_eq_ok,
    requireReason, Prod.mk.injEq, exists_const] at h
  obtain ⟨id, hId, -, r, hFound, version, -, next, -, -, -, input, hInput, rfl, rfl⟩ := h
  exact ⟨id, r, _, input, _, hId, hFound, rfl, rfl, Table.get?_set_self hFound _, hInput⟩

theorem EffectMoved.contentRef {id : Uuid} {e e' : EffectRow} (h : EffectMoved t id e e') :
    e'.contentRef = e.contentRef := congrArg EffectIntent.contentRef h.intent

theorem dispatchCommand_shows {c : Command CommandInput}
    (h : dispatchCommand env tick t c = .ok (t', m)) : CommandShows env t t' c.input m := by
  unfold dispatchCommand at h
  dsimp only at h
  split at h
  · rename_i hInput
    obtain ⟨r, s, hShown, hRef, hRow, hParse⟩ := startRun_shows h
    rw [hInput]
    refine .run hShown hRow ?_ ?_
    · rw [hRef]
      exact hParse
    · rw [hRef]
      rfl
  · rename_i hInput
    obtain ⟨id, r, r', s, accepted, hId, hFound, hShown, hRef, hRow, hParse⟩ := cancelRun_shows h
    rw [hInput]
    refine .run hShown hRow ?_ ?_
    · rw [hRef]
      exact hParse
    · rw [CommandInput.content, hId, Option.bind_some, hFound, hRef]
      rfl
  · rename_i hInput
    obtain ⟨i, a, a', -, -, -, -, hOnly⟩ := decideApproval_ok h
    exact .other hOnly (by rw [hInput]; rfl)
  · rename_i hInput
    obtain ⟨b', -, -, -, hOnly⟩ := configureBudgetCommand_ok h
    exact .other hOnly (by rw [hInput]; rfl)
  · rename_i hInput
    obtain ⟨p, hAdmit, hOutcome⟩ := proposeEffect_ok h
    obtain ⟨-, -, -, -, -, -, hContent, -, -⟩ := admitProposal_ok hAdmit
    rw [hInput, ← hContent]
    rcases hOutcome with ⟨i, f, -, -, -, hShown⟩ | ⟨-, b', effects, -, -, hShown⟩
    · exact .effect hShown rfl
    · exact .effect hShown rfl
  · rename_i hInput
    obtain ⟨i, f, f', hId, hMoved, -, hShown⟩ := dispatchEffect_ok h
    refine .effect hShown ?_
    rw [hInput, CommandInput.content, hId, Option.bind_some, hMoved.found,
      hMoved.toEffectMoved.contentRef]
    rfl
  · rename_i hInput
    obtain ⟨i, f, f', hId, hMoved, -, hShown⟩ := reconcileEffect_ok h
    refine .effect hShown ?_
    rw [hInput, CommandInput.content, hId, Option.bind_some, hMoved.found,
      hMoved.toEffectMoved.contentRef]
    rfl
  · rename_i hInput
    obtain ⟨original, approval, f, row, b', effects, -, -, hCompensated, -, -, hShown⟩ :=
      compensateEffect_ok h
    obtain ⟨key, fingerprint, hRow⟩ := hCompensated.row_eq
    refine .effect hShown ?_
    rw [hInput, hRow]
    rfl
  · rename_i hInput
    obtain ⟨i, r, r', -, -, -, -, hOnly⟩ := revokeConnection_ok h
    exact .other hOnly (by rw [hInput]; rfl)
  · rename_i hInput
    obtain ⟨d, ds, -, -, -, hOnly⟩ := createGrant_ok h
    exact .other hOnly (by rw [hInput]; rfl)
  · rename_i hInput
    obtain ⟨i, d, ids, ds, -, -, -, -, -, -, hOnly⟩ := revokeGrant_ok h
    exact .other hOnly (by rw [hInput]; rfl)
  · rename_i hInput
    obtain ⟨killSwitches, -, hOnly⟩ := setKillSwitch_ok h
    exact .other hOnly (by rw [hInput]; rfl)

end Handlers

/-! ## What the commands of the host leave alone -/

/-- The commands of the host write no run, no effect and no budget. -/
theorem Host.dispatch_frame {h : Host ι ν ε} {tick : Tick} {t t' : Tables} {m : Mutation}
    {c : Command (HostInput ε)} (hHandled : h.dispatch tick t c = .ok (t', m)) :
    t' = { t with
      identity := { t.identity with memberships := t'.identity.memberships }
      journal := t'.journal, connections := t'.connections
      connectorAuthorizations := t'.connectorAuthorizations, rights := t'.rights
      uploads := t'.uploads, providerProfiles := t'.providerProfiles
      catalogListings := t'.catalogListings } := by
  unfold Host.dispatch at hHandled
  dsimp only at hHandled
  split at hHandled
  · obtain ⟨a, u, artifacts, uploads, -, -, -, -, rfl, -⟩ := beginArtifact_ok hHandled
    rfl
  · obtain ⟨id, upload, u, a, version, uploadVersion, rights, -, -, -, -, -, rfl, -⟩ :=
      finalizeArtifact_ok hHandled
    rfl
  · obtain ⟨input, j, rights, -, -, rfl, -⟩ := invokePlugin_ok hHandled
    rfl
  · obtain ⟨profileId, profiles, rfl, -⟩ := configureProvider_ok hHandled
    rfl
  · obtain ⟨id, p, version, next, value, label, -, -, -, -, rfl, -⟩ := compactProvider_ok hHandled
    rfl
  · obtain ⟨authorizations, rfl, -⟩ := authorizeConnection_ok hHandled
    rfl
  · obtain ⟨id, o, -, -, -, rfl, -⟩ := replayDeadletter_ok hHandled
    rfl
  · obtain ⟨listings, rfl, -⟩ := submitCatalog_ok hHandled
    rfl
  · obtain ⟨id, l, l', guarded, version, value, label, -, -, -, -, -, rfl, -⟩ :=
      reviewCatalog_ok hHandled
    rfl
  · obtain ⟨memberships, rfl, -⟩ := (changeMembership_ok hHandled).unfold
    rfl
  · obtain ⟨memberships, rfl, -⟩ := (revokeMembership_ok hHandled).unfold
    rfl
  · obtain ⟨rfl, -⟩ := Host.runExtension_ok hHandled
    rfl

/-- An operation of the platform does on the host what it does on the platform. -/
theorem hostStep_platform (h : Host ι ν ε) (s : HostState) (tick : Tick)
    (op : PlatformOperation ι) : (hostStep h s ⟨tick, .platform op⟩).1.store =
      (platformStep h.platform s.store ⟨tick, op⟩).1 := by
  rw [hostStep, platformStep]
  dsimp only
  rw [runHostOperation]
  cases runPlatformOperation h.platform tick s.store op with
  | ok result => rfl
  | error failure => rfl

/-- The other operations leave the runs and the effects as they are. -/
theorem HostOutcome.rows {h : Host ι ν ε} {tick : Tick} {t t' : Tables}
    {attempts attempts' : List UploadAttempt} {op : HostOperation ι ε}
    (hOutcome : HostOutcome h tick t attempts op t' attempts') :
    (∃ o, op = .platform o) ∨ (t'.runs = t.runs ∧ t'.effects = t.effects) := by
  cases hOutcome with
  | unchanged => exact Or.inr ⟨rfl, rfl⟩
  | platform hOutcome => exact Or.inl ⟨_, rfl⟩
  | command hActor hAuthorized hHandled hRecorded =>
    refine Or.inr ?_
    rw [Host.dispatch_frame hHandled]
    exact ⟨rfl, rfl⟩
  | contained hContained => exact Or.inr ⟨rfl, rfl⟩
  | claimed hClaimed =>
    obtain ⟨u, u', a, -, -, -, -, -, rfl⟩ := claimUpload_ok hClaimed
    exact Or.inr ⟨rfl, rfl⟩
  | completed hAttempt hCompleted =>
    obtain ⟨u, u', act, j, j', tenant, expires, state, label, version, -, -, -, -, -, rfl⟩ :=
      completeUpload_ok hCompleted
    exact Or.inr ⟨rfl, rfl⟩

/-- A run stays, with its input. -/
theorem hostStep_run_kept {h : Host ι ν ε} {s : HostState} {c : HostCall ι ε} {id : Uuid}
    {r : RunRow} (hr : s.store.tables.runs.get? id = some r) :
    ∃ r', (hostStep h s c).1.store.tables.runs.get? id = some r' ∧ r'.inputRef = r.inputRef := by
  rcases (hostStep_outcome h s c).rows with ⟨o, hOp⟩ | ⟨hRuns, -⟩
  · obtain ⟨tick, op⟩ := c
    subst hOp
    rw [hostStep_platform]
    rcases platformStep_change h.platform s.store ⟨tick, o⟩ with ⟨-, hSame⟩ | ⟨a, -, hChange⟩
    · rw [hSame]
      exact ⟨r, hr, rfl⟩
    · obtain ⟨r', hr', hTerms, -, -⟩ := hChange.run_kept hr
      exact ⟨r', hr', congrArg RunTerms.inputRef hTerms⟩
  · rw [hRuns]
    exact ⟨r, hr, rfl⟩

/-! ## Sources -/

theorem projectionSources_run (env : Env) (tenant id : Uuid) (r : RunRow) :
    projectionSources (runProjectionValue env tenant id r) = [] := by
  rw [runProjectionValue, projectionSources_obj (by decide)]
  simp [projectionSourcesOfFields]

/-- The document of a run is derived from its input only. -/
theorem runMutation_sources {env : Env} {t : Tables} {id s x : Uuid} {r : RunRow} {accepted : Bool}
    {c : ProjectionChange} (hMem : c ∈ (runMutation env t id r s accepted).changes) :
    x ∈ c.sources ↔ x = s := by
  rw [runMutation, Mutation.withSourceArtifact, Mutation.one, List.map_singleton,
    List.mem_singleton] at hMem
  rw [hMem, ProjectionChange.sources, projectionSources_run]
  simp

/-- The document of an effect is derived from its content only. -/
theorem effectMutation_sources {env : Env} {t : Tables} {id x : Uuid} {e : EffectRow}
    {label : String} {accepted : Bool} {c : ProjectionChange}
    (hMem : c ∈ (effectMutation env t id e label accepted).changes) :
    x ∈ c.sources ↔ Uuid.parse e.contentRef.artifactId.text = some x := by
  rw [effectMutation, Mutation.one, List.mem_singleton] at hMem
  rw [hMem, ProjectionChange.sources, projectionSources_effect]
  simp

theorem projectionSources_upload (env : Env) (tenant upload artifact : Uuid) (size : Int)
    (digest : Digest) (contentType : String) (expires : Int) (state : UploadState) :
    projectionSources (uploadValue env tenant upload artifact size digest contentType expires state) =
      [] := by
  rw [uploadValue, projectionSources_obj (by decide)]
  simp [projectionSourcesOfFields]

theorem projectionSourcesOfItems_str (texts : List String) :
    projectionSourcesOfItems (texts.map .str) = [] := by
  induction texts with
  | nil => rfl
  | cons text texts ih => simp [projectionSourcesOfItems, ih]

theorem projectionSources_deletion (request : Uuid) (target : ResourceRef) (state : DeletionState)
    (ids : List Uuid) : projectionSources (deletionValue request target state ids) = [] := by
  have hItems : projectionSourcesOfItems (ids.map fun id => .str id.toText) = [] := by
    have hStrings := projectionSourcesOfItems_str (ids.map Uuid.toText)
    rw [List.map_map] at hStrings
    exact hStrings
  rw [deletionValue, projectionSources_obj (by decide)]
  simp [projectionSources, projectionSourcesOfFields, hItems]

theorem projectionSources_invocation (v : Invocation) (inputRef outputRef : ArtifactRef) :
    projectionSources (invocationValue v inputRef outputRef) = [inputRef, outputRef] := by
  rw [invocationValue, projectionSources_obj (by decide)]
  simp [projectionSourcesOfFields]

/-- The document of a deletion request is not derived from anything. -/
theorem requestDeletion_sources {env : Env} {tick : Tick} {t t' : Tables} {m : Mutation}
    {actor : CommandActor} {target : ResourceRef} {reason confirmation : String}
    (h : requestDeletion env tick t actor target reason confirmation = .ok (t', m))
    {c : ProjectionChange} (hMem : c ∈ m.changes) : c.sources = [] := by
  simp only [requestDeletion, bind_eq_ok, okOr_eq_ok, sql_eq_ok, insertRow_eq_ok, pure_eq_ok,
    parseUuid_eq_ok, require_eq_ok, Prod.mk.injEq, exists_const] at h
  obtain ⟨-, -, id, -, a, -, -, -, -, policy, -, -, requestedBy, -, artifacts, -, rights, -, requests,
    -, -, rfl⟩ := h
  rw [Mutation.one, List.mem_singleton] at hMem
  rw [hMem, ProjectionChange.sources, projectionSources_deletion]
  rfl

/-! ## The other operations -/

/-- The kinds of resource that the commands of the host show. -/
def hostKinds : List String :=
  ["UploadSession", "PluginInvocation", "ProviderProfile", "ProviderCompact",
    "ConnectorAuthorization", "DeadletterReplay", "CatalogListing", "Membership"]

theorem Host.dispatch_kind {h : Host ι ν ε} {tick : Tick} {t t' : Tables} {m : Mutation}
    {c : Command (HostInput ε)} (hHandled : h.dispatch tick t c = .ok (t', m)) :
    (∃ kind ∈ hostKinds, m.Only kind) ∨ ∃ kind : ExtensionKind, m.Only kind.toText := by
  have hOne : ∀ {kind : String}, kind ∈ hostKinds → m.Only kind →
      (∃ kind ∈ hostKinds, m.Only kind) ∨ ∃ kind : ExtensionKind, m.Only kind.toText :=
    fun hMem hOnly => Or.inl ⟨_, hMem, hOnly⟩
  unfold Host.dispatch at hHandled
  dsimp only at hHandled
  split at hHandled
  · obtain ⟨a, u, artifacts, uploads, -, -, -, -, -, hOnly, -⟩ := beginArtifact_ok hHandled
    exact hOne (by simp [hostKinds]) hOnly
  · obtain ⟨id, upload, u, a, version, uploadVersion, rights, -, -, -, -, -, -, hOnly, -⟩ :=
      finalizeArtifact_ok hHandled
    exact hOne (by simp [hostKinds]) hOnly
  · obtain ⟨input, j, rights, -, -, -, hOnly, -⟩ := invokePlugin_ok hHandled
    exact hOne (by simp [hostKinds]) hOnly
  · obtain ⟨profileId, profiles, -, rfl⟩ := configureProvider_ok hHandled
    exact hOne (by simp [hostKinds]) (Mutation.one_only "ProviderProfile" _ _ _ _)
  · obtain ⟨id, p, version, next, value, label, -, -, -, -, -, rfl⟩ := compactProvider_ok hHandled
    exact hOne (by simp [hostKinds]) (Mutation.one_only "ProviderCompact" _ _ _ _)
  · obtain ⟨authorizations, -, hOnly⟩ := authorizeConnection_ok hHandled
    exact hOne (by simp [hostKinds]) hOnly
  · obtain ⟨id, o, -, -, -, -, rfl⟩ := replayDeadletter_ok hHandled
    exact hOne (by simp [hostKinds]) (Mutation.one_only "DeadletterReplay" _ _ _ _)
  · obtain ⟨listings, -, hOnly⟩ := submitCatalog_ok hHandled
    exact hOne (by simp [hostKinds]) hOnly
  · obtain ⟨id, l, l', guarded, version, value, label, -, -, -, -, -, -, rfl⟩ :=
      reviewCatalog_ok hHandled
    exact hOne (by simp [hostKinds]) (Mutation.one_only "CatalogListing" _ _ _ _)
  · obtain ⟨memberships, -, hOnly⟩ := (changeMembership_ok hHandled).unfold
    exact hOne (by simp [hostKinds]) hOnly
  · obtain ⟨memberships, -, hOnly⟩ := (revokeMembership_ok hHandled).unfold
    exact hOne (by simp [hostKinds]) hOnly
  · obtain ⟨-, kind, hOnly⟩ := Host.runExtension_ok hHandled
    exact Or.inr ⟨kind, hOnly⟩

/-- A kind that none of the commands of the host shows, nor any of the commands that write the
registry or request a deletion. -/
structure PlatformKind (kind : String) : Prop where
  host : kind ∉ hostKinds
  extension : ∀ k : ExtensionKind, kind ≠ k.toText
  registry : ∀ k : RegistryKind, kind ≠ k.toText
  deletion : kind ≠ "DeletionRequest"

/-- A resource of such a kind is shown by a command of the first kind, or it is a run that a
revocation stopped. -/
theorem Records.platform {h : Host ι ν ε} {tick : Tick} {t t' : Tables}
    {attempts : List UploadAttempt} {op : HostOperation ι ε} {changes : List ProjectionChange}
    {change : ProjectionChange} (hRecords : Records h tick t t' attempts op changes)
    (hMem : change ∈ changes) (hKind : PlatformKind change.resource.resourceType) :
    (∃ c t₁ m, op = .platform (.core (.command c)) ∧ authorizeCommand h.env t c = .ok () ∧
      dispatchCommand h.env tick t c = .ok (t₁, m) ∧ t' = { t₁ with journal := t'.journal } ∧
      change ∈ m.changes) ∨
    ∃ c plugin text reason digest id r r' runs, op = .platform (.command c) ∧
      c.input = .pluginRevoke plugin text reason ∧ Digest.parse text = some digest ∧
      RunsStopped t plugin digest runs ∧ RunStopped t id r r' ∧ runs.get? id = some r' ∧
      change = stoppedChange h.env t.identity.tenantId (id, r') := by
  cases hRecords with
  | nothing => cases hMem
  | core hAuthorized hHandled hAfter =>
    exact Or.inl ⟨_, _, _, rfl, hAuthorized, hHandled, hAfter, hMem⟩
  | @further c t₁ m hHandled hAfter =>
    unfold Platform.dispatch at hHandled
    split at hHandled
    · rename_i hInput
      obtain ⟨digest, registry, runs, hDigest, hStopped, -, hRevokes⟩ := revokePlugin_ok hHandled
      rcases hRevokes change hMem with hOther | ⟨id, r, r', hRun, hRow, hChange⟩
      · exact absurd hOther (hKind.registry .installation)
      · exact Or.inr ⟨c, _, _, _, digest, id, r, r', runs, rfl, hInput, hDigest, hStopped, hRun,
          hRow, hChange⟩
    · obtain ⟨j, id, rights, requests, -, -, -, hOnly⟩ := requestDeletion_ok hHandled
      exact absurd (hOnly change hMem) hKind.deletion
    · obtain ⟨registry, -, hKinds⟩ := Lifecycle.run_ok hHandled
      obtain ⟨kind, hOther⟩ := hKinds change hMem
      exact absurd hOther (hKind.registry kind)
  | command hAuthorized hHandled hAfter =>
    rcases Host.dispatch_kind hHandled with ⟨kind, hHost, hOnly⟩ | ⟨kind, hOnly⟩
    · rw [← hOnly change hMem] at hHost
      exact absurd hHost hKind.host
    · exact absurd (hOnly change hMem) (hKind.extension kind)
  | completed hAttempt =>
    rw [List.mem_singleton] at hMem
    rw [hMem] at hKind
    exact absurd List.mem_cons_self hKind.host

theorem platformKind_run : PlatformKind "Run" := by
  refine ⟨by decide, fun k => ?_, fun k => ?_, by decide⟩
  · cases k <;> decide
  · cases k <;> decide

theorem platformKind_connection : PlatformKind "Connection" := by
  refine ⟨by decide, fun k => ?_, fun k => ?_, by decide⟩
  · cases k <;> decide
  · cases k <;> decide

end Masonwing
