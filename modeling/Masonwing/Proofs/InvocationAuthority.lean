import Masonwing.Proofs.ArtifactRows
import Masonwing.Proofs.DeadLetters
import Masonwing.Proofs.Evaluation
import Masonwing.Proofs.GrantTree
import Masonwing.Proofs.PluginLifecycle

/-!
# The authority of an invocation

A plugin is invoked with the capabilities of its installation that the grant names and the policy
permits. That each of them is requested by the manifest holds because an enabled plugin was granted
nothing else and an upgrade narrows its grants, and that each is an action of every ancestor of the
grant because a child grant stays inside its parent; so both are read off the invariants of the
registry and of the grants in every run of the host (`AuthoritySound`). The output is no freer than
the input (`invocation_gains_nothing`).
-/

namespace Masonwing

open Outcome

variable {ν ε : Type}

/-! ## The invariants on the host -/

/-- The host whose commands on plugins are the modelled ones. -/
def pluginHost [LinearOrder ν] (h : Host PluginInput ν ε) (env : Env) (packages : PluginEnv ν)
    (catalogue : PlatformCatalogue PluginInput) : Host PluginInput ν ε :=
  { h with platform := pluginPlatform env packages catalogue, packages }

/-- What holds of the installations and of the grants at every time. -/
structure AuthoritySound (t : Tables) : Prop where
  builds : BuildsStored t.registry
  installations : InstallationsSound t.registry
  grants : GrantTree t.delegations

/-- Only operations of the platform write plugins and grants. -/
theorem HostOutcome.authority {ι : Type} {h : Host ι ν ε} {tick : Tick} {t t' : Tables}
    {attempts attempts' : List UploadAttempt} {op : HostOperation ι ε}
    (hOutcome : HostOutcome h tick t attempts op t' attempts') :
    (∃ o, op = .platform o) ∨ (t'.registry = t.registry ∧ t'.delegations = t.delegations) := by
  cases hOutcome with
  | unchanged => exact Or.inr ⟨rfl, rfl⟩
  | platform hOutcome => exact Or.inl ⟨_, rfl⟩
  | command hActor hAuthorized hHandled hRecorded =>
    refine Or.inr ?_
    rw [Host.dispatch_frame hHandled]
    exact ⟨rfl, rfl⟩
  | contained hContained => exact Or.inr ⟨rfl, rfl⟩
  | claimed hClaimed =>
    obtain ⟨u, u', a, -, -, -, -, -, rfl⟩ := claimUpload_ok hClaimed
    exact Or.inr ⟨rfl, rfl⟩
  | completed hAttempt hCompleted =>
    obtain ⟨u, u', act, j, j', tenant, expires, state, label, version, -, -, -, -, -, rfl⟩ :=
      completeUpload_ok hCompleted
    exact Or.inr ⟨rfl, rfl⟩

section Soundness

variable [LinearOrder ν] {h : Host PluginInput ν ε} {env : Env} {packages : PluginEnv ν}
  {catalogue : PlatformCatalogue PluginInput}

theorem AuthoritySound.step {s : HostState} {c : HostCall PluginInput ε}
    (hs : AuthoritySound s.store.tables) :
    AuthoritySound (hostStep (pluginHost h env packages catalogue) s c).1.store.tables := by
  rcases (hostStep_outcome (pluginHost h env packages catalogue) s c).authority with
    ⟨o, hOp⟩ | ⟨hRegistry, hDelegations⟩
  · obtain ⟨tick, op⟩ := c
    subst hOp
    rw [hostStep_platform]
    have hStep : RegistryStep packages (Machine.eventAt
        (platformStep (pluginPlatform env packages catalogue)) s.store ⟨tick, o⟩) :=
      platformStep_registry s.store ⟨tick, o⟩
    exact ⟨hs.builds.step hStep, hs.installations.step hs.builds hStep,
      platformStep_keeps (I := fun t => GrantTree t.delegations)
        (fun _ _ _ _ h hChange => h.change hChange) hs.grants⟩
  · refine ⟨?_, ?_, ?_⟩
    · rw [hRegistry]
      exact hs.builds
    · rw [hRegistry]
      exact hs.installations
    · rw [hDelegations]
      exact hs.grants

theorem AuthoritySound.run {s : HostState} (hPlugins : NoPlugins s.store)
    (hGrants : ∀ id, s.store.tables.delegations.get? id = none)
    (calls : List (HostCall PluginInput ε)) :
    AuthoritySound (Machine.run (hostStep (pluginHost h env packages catalogue)) s
      calls).store.tables :=
  Machine.run_invariant (hostStep (pluginHost h env packages catalogue))
    (I := fun s => AuthoritySound s.store.tables) (fun _ _ hs => hs.step)
    ⟨hPlugins.buildsStored, hPlugins.sound, GrantTree.empty hGrants⟩ calls

end Soundness

/-! ## What the runtime is given -/

/-- A capability that the manifest, the installation, the grant with all above it, and the policy
allow. -/
structure Allowed (env : Env) (t : Tables) (pluginId : String) (i : InstallationRow)
    (m : PluginManifest) (grant : Uuid) (policy : ReadPolicy) (a : Action) : Prop where
  requested : a ∈ m.requestedCapabilities
  granted : a.text ∈ i.grantedCapabilities
  delegated : ∀ top, Ancestor t.delegations grant top →
    ∃ d, t.delegations.get? top = some d ∧ a.text ∈ d.actions
  permitted : policy.permits env a.text "PluginInstallation" i.id.toText
    [("plugin_id", .str pluginId), ("version", .num i.version.val), ("state", .str "ENABLED")] =
      true

/-- The invocation of an enabled plugin, in its current build, with allowed capabilities, among
them all that its handler requires. -/
structure InvocationAttenuated (env : Env) (t : Tables) (actor : CommandActor)
    (pluginId grantId : String) (v : Invocation) : Prop where
  allowed : ∃ i m grant policy, t.registry.installations.get? pluginId = some i ∧
    i.state = .enabled ∧ t.registry.pluginVersions.get? (pluginId, i.artifactDigest) = some m ∧
    v.request.manifest = m ∧ v.request.handler ∈ m.handlers ∧ Uuid.parse grantId = some grant ∧
    readPolicy env t actor = .ok policy ∧
    ∀ a ∈ v.request.grantedCapabilities, Allowed env t pluginId i m grant policy a
  required : ∀ a ∈ v.request.handler.requiredCapabilities, a ∈ v.request.grantedCapabilities

section Admission

variable {env : Env} {packages : PluginEnv ν} {invocation : InvocationEnv} {tick : Tick}
  {t : Tables} {actor : CommandActor} {pluginId handlerId grantId : String}
  {inputRef : ArtifactRef} {v : Invocation}

/-- A capability that is handed out comes from the installation, the grant and the policy. -/
theorem mem_effectiveCapabilities {policy : ReadPolicy} {i : InstallationRow} {grant : ActiveGrant}
    {effective : List Action}
    (h : effectiveCapabilities env policy pluginId i grant = .ok effective) {a : Action}
    (ha : a ∈ effective) :
    a.text ∈ i.grantedCapabilities ∧ a.text ∈ grant.actions ∧
      policy.permits env a.text "PluginInstallation" i.id.toText
        [("plugin_id", .str pluginId), ("version", .num i.version.val),
          ("state", .str "ENABLED")] = true := by
  obtain ⟨text, hText, hOf⟩ := (mapM_mem h).2 a ha
  rw [okOr_eq_ok] at hOf
  have hSame : a.text = text := by
    unfold OpaqueId.ofText? at hOf
    split at hOf
    · cases hOf
      rfl
    · cases hOf
  obtain ⟨hOuter, hPermits⟩ := List.mem_filter.mp hText
  obtain ⟨hGranted, hActions⟩ := List.mem_filter.mp hOuter
  rw [hSame]
  exact ⟨hGranted, List.contains_iff_mem.mp hActions, hPermits⟩

theorem requireInvocable_ok {i : InstallationRow} {u : Unit} (h : requireInvocable i = .ok u) :
    i.state = .enabled := by
  unfold requireInvocable at h
  split at h
  · assumption
  · cases h
  · cases h
  · cases h

/-- The checks of an invocation that bear on its authority, passed. -/
structure InvocationAdmitted (env : Env) (tick : Tick) (t : Tables) (actor : CommandActor)
    (pluginId grantId : String) (inputRef : ArtifactRef) (v : Invocation) (i : InstallationRow)
    (m : PluginManifest) (grantUuid : Uuid) (grant : ActiveGrant) (policy : ReadPolicy) : Prop where
  installed : t.registry.installations.get? pluginId = some i
  enabled : i.state = .enabled
  stored : t.registry.pluginVersions.get? (pluginId, i.artifactDigest) = some m
  manifest : v.request.manifest = m
  handler : v.request.handler ∈ m.handlers
  named : Uuid.parse grantId = some grantUuid
  delegated : requireActiveGrant tick t actor grantUuid (some "plugin.invoke")
    (some (installationRef i)) = .ok grant
  input : invocationInput env t actor grant inputRef = .ok v.input
  permitted : readPolicy env t actor = .ok policy
  effective : effectiveCapabilities env policy pluginId i grant = .ok v.request.grantedCapabilities
  required : ∀ a ∈ v.request.handler.requiredCapabilities, a ∈ v.request.grantedCapabilities

theorem admitInvocation_ok
    (h : admitInvocation env packages invocation tick t actor pluginId handlerId inputRef grantId =
      .ok v) :
    ∃ i m grantUuid grant policy,
      InvocationAdmitted env tick t actor pluginId grantId inputRef v i m grantUuid grant policy := by
  simp only [admitInvocation, bind_eq_ok, okOr_eq_ok, parseUuid_eq_ok, require_eq_ok, pure_eq_ok,
    Prod.exists, exists_const] at h
  obtain ⟨i, hInstalled, _, hEnabled, digest, m, hManifest, handler, hHandler, -, _, -, grantUuid,
    hNamed, grant, hGrant, input, hInput, _, -, policy, hPolicy, effective, hEffective, hRequired,
    _, -, packageRef, -, package, -, inputSchema, -, outputSchema, -, bytes, -, -, document, -,
    rfl⟩ := h
  exact ⟨i, m, grantUuid, grant, policy, hInstalled, requireInvocable_ok hEnabled,
    storedManifest_own hManifest, rfl, List.mem_of_find?_eq_some hHandler, hNamed, hGrant, hInput,
    hPolicy, hEffective, hRequired⟩

theorem InvocationAdmitted.attenuated {i : InstallationRow} {m : PluginManifest} {grantUuid : Uuid}
    {grant : ActiveGrant} {policy : ReadPolicy} (hSound : AuthoritySound t)
    (h : InvocationAdmitted env tick t actor pluginId grantId inputRef v i m grantUuid grant
      policy) : InvocationAttenuated env t actor pluginId grantId v := by
  obtain ⟨-, d, hd, hTerms⟩ := requireActiveGrant_ok h.delegated
  have hActions : grant.actions = d.actions := congrArg ActiveGrant.actions hTerms
  refine ⟨⟨i, m, grantUuid, policy, h.installed, h.enabled, h.stored, h.manifest, h.handler,
    h.named, h.permitted, fun a ha => ?_⟩, h.required⟩
  obtain ⟨hGranted, hAction, hPermits⟩ := mem_effectiveCapabilities h.effective ha
  refine ⟨?_, hGranted, fun top hTop => ?_, hPermits⟩
  · -- what is granted was requested by the build that is installed
    obtain ⟨m', hm', -, hRequested⟩ := hSound.installations.granted pluginId i h.installed
    cases h.stored.symm.trans hm'
    obtain ⟨b, hb, hText⟩ := List.mem_map.mp (hRequested _ hGranted)
    rwa [← OpaqueId.text_injective hText]
  · obtain ⟨row, hRow, hWithin⟩ := hSound.grants.ancestor hd hTop
    exact ⟨row, hRow, hWithin.actions (hActions ▸ hAction)⟩

end Admission

/-! ## What is stored -/

/-- The rights allow nothing that the other ones do not, and for no longer. -/
structure RightsRow.Within (r top : RightsRow) : Prop where
  acquire : r.allowAcquire = true → top.allowAcquire = true
  aiAnalysis : r.allowAiAnalysis = true → top.allowAiAnalysis = true
  transform : r.allowTransform = true → top.allowTransform = true
  publicRedistribution : r.allowPublicRedistribution = true → top.allowPublicRedistribution = true
  providers : r.allowedProviderProfiles ⊆ top.allowedProviderProfiles
  expiry : ∀ last ∈ top.expiresAt, ∃ own ∈ r.expiresAt, own ≤ last

/-- The output of an invocation: derived from the input, classified as high, and no freer. -/
structure OutputAttenuated (tick : Tick) (t t' : Tables) (input : Uuid) : Prop where
  derived : (input, tick.draw .output) ∈ t'.journal.lineage
  classified : ∃ a b, t.journal.artifacts.get? input = some a ∧
    t'.journal.artifacts.get? (tick.draw .output) = some b ∧
    a.classification.rank ≤ b.classification.rank
  rights : ∃ r r', t.rights.get? input = some r ∧ r.state = .active ∧
    t'.rights.get? (tick.draw .output) = some r' ∧ r'.Within r

section Output

variable {env : Env} {packages : PluginEnv ν} {invocation : InvocationEnv} {tick : Tick}
  {t t' : Tables} {actor : CommandActor} {pluginId handlerId grantId : String}
  {inputRef : ArtifactRef} {v : Invocation} {m : Mutation}

theorem requireTransform_ok {input : Uuid} {u : Unit} (h : requireTransform tick t input = .ok u) :
    ∃ r, t.rights.get? input = some r ∧ r.state = .active := by
  rw [requireTransform, require_eq_ok, Option.any_eq_true] at h
  obtain ⟨r, hr, hTransforms⟩ := h
  simp only [RightsRow.transforms, Bool.and_eq_true, decide_eq_true_eq] at hTransforms
  exact ⟨r, hr, hTransforms.1.1⟩

/-- The rights of an artifact are copied as they are. -/
theorem copyRights_ok {rights rights' : Table Uuid RightsRow} {input output : Uuid}
    {r : RightsRow} (hr : rights.get? input = some r)
    (h : copyRights rights input output = .ok rights') :
    ∃ r', rights'.get? output = some r' ∧ r'.Within r := by
  unfold copyRights at h
  rw [hr] at h
  have hInsert := insertRow_eq_ok.mp h
  refine ⟨_, Table.insert?_get?_self hInsert, id, id, id, id, List.Subset.refl _, fun last hLast => ?_⟩
  exact ⟨last, hLast, le_refl _⟩

theorem storeOutput_rights {answer : Bytes}
    (h : storeOutput env invocation tick t actor v inputRef answer = .ok (t', m)) :
    (∃ u, requireTransform tick.answered t v.input = .ok u) ∧
      copyRights t.rights v.input (tick.draw .output) = .ok t'.rights := by
  simp only [storeOutput, persistArtifact, bind_eq_ok, require_eq_ok, sql_eq_ok, insertRow_eq_ok,
    pure_eq_ok, parseUuid_eq_ok, Prod.exists, Prod.mk.injEq, exists_const] at h
  obtain ⟨_, -, u, hTransform, -, bytes, -, _, outputRef, ⟨-, _, -, creator, -, -, artifacts, -,
    rfl, rfl⟩, output, hOutput, -, rights, hRights, rfl, rfl⟩ := h
  rw [Uuid.toId_text, Uuid.parse_toText] at hOutput
  cases hOutput
  exact ⟨⟨u, hTransform⟩, hRights⟩

/-- What `storeOutput` leaves, before the command is recorded. -/
theorem storeOutput_attenuated {answer : Bytes} {a : ArtifactRow}
    (ha : t.journal.artifacts.get? v.input = some a)
    (hClassification : inputRef.classification = a.classification)
    (h : storeOutput env invocation tick t actor v inputRef answer = .ok (t', m)) :
    OutputAttenuated tick t t' v.input := by
  obtain ⟨⟨u, hTransform⟩, hRights⟩ := storeOutput_rights h
  obtain ⟨r, hr, hActive⟩ := requireTransform_ok hTransform
  obtain ⟨r', hr', hWithin⟩ := copyRights_ok hr hRights
  obtain ⟨b, artifacts, rights, outputRef, hInsert, -, hSame, rfl, -⟩ := storeOutput_ok h
  refine ⟨List.mem_append_right _ List.mem_cons_self, ⟨a, b, ha,
    Table.insert?_get?_self hInsert, ?_⟩, r, r', hr, hActive, hr', hWithin⟩
  rw [hSame, hClassification]

theorem invocationInput_ok {grant : ActiveGrant} {input : Uuid}
    (h : invocationInput env t actor grant inputRef = .ok input) :
    ∃ a, t.journal.artifacts.get? input = some a ∧ inputRef.classification = a.classification ∧
      Uuid.parse inputRef.artifactId.text = some input := by
  simp only [invocationInput, bind_eq_ok, okOr_eq_ok, parseUuid_eq_ok, require_eq_ok, sql_eq_ok,
    pure_eq_ok, exists_const] at h
  obtain ⟨-, metadata, hMetadata, hSame, id, hId, a, ha, -, rfl⟩ := h
  obtain ⟨artifactId, b, hText, -, hb, -, hRead⟩ := artifactMetadata_ok hMetadata
  cases hId.symm.trans hText
  cases ha.symm.trans hb
  exact ⟨a, ha, by rw [← hSame, hRead], hId⟩

/-- Recording the command leaves the output as it was stored. -/
theorem OutputAttenuated.recorded {operation : String} {index : Nat} {j : Journal} {input : Uuid}
    {changes : List ProjectionChange} (hOutput : OutputAttenuated tick t t' input)
    (h : recordChanges env tick actor operation index t'.journal changes = .ok j) :
    OutputAttenuated tick t { t' with journal := j } input := by
  obtain ⟨hDerived, ⟨a, b, ha, hb, hClassified⟩, hRights⟩ := hOutput
  have hKept := recordChanges_keeps
    (I := fun j => (input, tick.draw .output) ∈ j.lineage ∧
      j.artifacts.get? (tick.draw .output) = some b) h
    (fun i j₁ j₂ change _ hWritten hBoth => by
      obtain ⟨c, hInsert, -⟩ := hWritten.artifact
      exact ⟨(hWritten.lineage _ _).mpr (Or.inl hBoth.1),
        Table.insert?_get?_of_some hInsert hBoth.2⟩)
    ⟨hDerived, hb⟩
  exact ⟨hKept.1, ⟨a, b, ha, hKept.2, hClassified⟩, hRights⟩

/-- An invocation that succeeds was admitted, and its output is attenuated. -/
theorem invokePlugin_attenuated
    (h : invokePlugin env packages invocation tick t actor pluginId handlerId inputRef grantId =
      .ok (t', m)) :
    ∃ v, admitInvocation env packages invocation tick t actor pluginId handlerId inputRef grantId =
        .ok v ∧
      Uuid.parse inputRef.artifactId.text = some v.input ∧ OutputAttenuated tick t t' v.input := by
  simp only [invokePlugin, bind_eq_ok] at h
  obtain ⟨runtime, -, v, hAdmit, answer, -, hStore⟩ := h
  obtain ⟨i, manifest, grantUuid, grant, policy, hAdmitted⟩ := admitInvocation_ok hAdmit
  obtain ⟨a, ha, hClassification, hInput⟩ := invocationInput_ok hAdmitted.input
  exact ⟨v, hAdmit, hInput, storeOutput_attenuated ha hClassification hStore⟩

end Output

/-! ## Every run -/

/-- The command that invokes a handler of a plugin. -/
def invokeCommand (actor : CommandActor) (pluginId handlerId : String) (inputRef : ArtifactRef)
    (grantId : String) (key : OpaqueId) (fingerprint : Digest) : Command (HostInput ε) :=
  { actor, input := .pluginInvoke pluginId handlerId inputRef grantId, idempotencyKey := key
    fingerprint }

/-- In every state that the host reaches from one without plugins and grants, what the runtime is
given for an invocation is allowed by the manifest, by the installation, by the grant with all its
ancestors and by the policy, and covers what the handler requires; and an invocation that commits
was admitted so and leaves an output that is derived from its input and no freer. -/
theorem invocation_gains_nothing [LinearOrder ν] (h : Host PluginInput ν ε) (env : Env)
    (packages : PluginEnv ν) (catalogue : PlatformCatalogue PluginInput) (s : HostState)
    (hPlugins : NoPlugins s.store) (hGrants : ∀ id, s.store.tables.delegations.get? id = none)
    (calls : List (HostCall PluginInput ε)) (tick : Tick) (actor : CommandActor)
    (pluginId handlerId grantId : String) (inputRef : ArtifactRef) (key : OpaqueId)
    (fingerprint : Digest) :
    let host := pluginHost h env packages catalogue
    let before := Machine.run (hostStep host) s calls
    let e := Machine.eventAt (hostStep host) before
      ⟨tick, .command (invokeCommand actor pluginId handlerId inputRef grantId key fingerprint)⟩
    (∀ v, admitInvocation env packages h.invocation tick before.store.tables actor pluginId
        handlerId inputRef grantId = .ok v →
      InvocationAttenuated env before.store.tables actor pluginId grantId v) ∧
    ∀ receipt, e.response = .ok (.answer (.committed receipt)) →
      ∃ v, admitInvocation env packages h.invocation tick before.store.tables actor pluginId
          handlerId inputRef grantId = .ok v ∧
        Uuid.parse inputRef.artifactId.text = some v.input ∧
        OutputAttenuated tick before.store.tables e.after.store.tables v.input := by
  intro host before e
  have hSound : AuthoritySound before.store.tables := AuthoritySound.run hPlugins hGrants calls
  refine ⟨fun v hAdmit => ?_, fun receipt hResponse => ?_⟩
  · obtain ⟨i, m, grantUuid, grant, policy, hAdmitted⟩ := admitInvocation_ok hAdmit
    exact hAdmitted.attenuated hSound
  · have hExecute := (hostStep_command_iff.mp
      (show hostStep host before e.call = (e.after, .ok (.answer (.committed receipt))) from
        Prod.ext rfl hResponse)).1
    obtain ⟨principal, -, ⟨row, -, -, -, hAnswer⟩ | ⟨-, t, m, receipt', hCommitted, -⟩⟩ :=
      execute_ok hExecute
    · cases hAnswer
    · obtain ⟨v, hAdmit, hInput, hOutput⟩ := invokePlugin_attenuated hCommitted.handled
      refine ⟨v, hAdmit, hInput, ?_⟩
      rw [hCommitted.tables]
      exact hOutput.recorded hCommitted.recorded

/-! ## A plugin that is invoked -/

namespace Sample

theorem report_read_opaque : opaqueIdentifier "report.read" = true := by decide

/-- A plugin with one handler, which requires its capability. -/
def transformer : PluginManifest :=
  { build "transformer" (by decide) "1.0.0" "printing" [] [] with
    handlers := [{ id := "summarize", inputSchemaRef := storedRef 45 "schema"
                   outputSchemaRef := storedRef 45 "schema", effects := "DETERMINISTIC"
                   requiredCapabilities := [⟨"report.read", report_read_opaque⟩]
                   maxExecutionSeconds := 30 }] }

/-- A host whose runtime answers every invocation. -/
def runtimeHost : Host PluginInput Nat Empty :=
  { platform := plugins, packages
    invocation :=
      { runtime := some fun _ _ => .ok [1]
        strictJson := fun _ => some (.str "summary") }
    extension :=
      { operation := Empty.elim
        target := Empty.elim
        handle := fun _ _ _ => Empty.elim }
    inputValid := fun _ => true
    fingerprint := fun _ => some (digest []) }

def transformRights : RightsRow :=
  { accessMode := .firstParty, allowAcquire := true, allowAiAnalysis := false
    allowTransform := true, allowPublicRedistribution := false
    allowedProviderProfiles := ["local"], expiresAt := some 1000000000000, evidenceRef := none
    state := .active, version := .one }

/-- The small tenant before any plugin was installed, with the rights to transform an artifact. -/
def library : HostState :=
  { store :=
      { shelf with
        tables := { shelf.tables with rights := ⟨[(uuid 45, transformRights)], by decide⟩ } }
    attempts := [] }

/-- The plugin is installed and enabled, and its use on the artifact is delegated. -/
def delegating : List (HostCall PluginInput Empty) :=
  [⟨stocked 1, .platform (lifecycleCommand 1 (.install transformer)).operation⟩,
    ⟨stocked 2, .platform (lifecycleCommand 2
      (.enable "transformer" transformer.artifactDigest.toText ["report.read"] 1)).operation⟩,
    ⟨stocked 3, .platform (.core (command 3
      (.grantCreate ⟨.user, principalId.toId, "local"⟩
        ["plugin.invoke", "artifact.read", "report.read"]
        [resourceRef "PluginInstallation" ((tick 1).draw .installation)
            ⟨2, Version.two_pos, Version.two_le⟩,
          resourceRef "Artifact" (uuid 45) .one] 1000000000000 none)).operation)⟩]

def invoker : Host PluginInput Nat Empty :=
  pluginHost runtimeHost env (packagesWith transformer) pluginCatalogue

def lentLibrary : HostState := Machine.run (hostStep invoker) library delegating

/-- The event of the invocation under the new grant. -/
def invocationEvent : HostEvent PluginInput Empty :=
  Machine.eventAt (hostStep invoker) lentLibrary
    ⟨stocked 4, .command (invokeCommand actor "transformer" "summarize" (storedRef 45 "schema")
      (grantOf 3).toText (uuid 4).toId (digest []))⟩

def answeredReceipt? : Result HostReply → Option CommandReceipt
  | .ok (.answer (.committed receipt)) => some receipt
  | _ => none

theorem eq_of_answeredReceipt? {reply : Result HostReply} {receipt : CommandReceipt}
    (h : answeredReceipt? reply = some receipt) : reply = .ok (.answer (.committed receipt)) := by
  unfold answeredReceipt? at h
  split at h
  · rw [Option.some.inj h]
  · cases h

end Sample

theorem transformer_invoked :
    NoPlugins Sample.library.store ∧
      (∀ id, Sample.library.store.tables.delegations.get? id = none) ∧
      (∃ receipt, Sample.invocationEvent.response = .ok (.answer (.committed receipt))) ∧
      ∃ input, Uuid.parse (Sample.storedRef 45 "schema").artifactId.text = some input ∧
        OutputAttenuated (Sample.stocked 4) Sample.lentLibrary.store.tables
          Sample.invocationEvent.after.store.tables input := by
  have hPlugins : NoPlugins Sample.library.store := ⟨rfl, rfl⟩
  have hGrants : ∀ id, Sample.library.store.tables.delegations.get? id = none := fun id => rfl
  have hRun : (Sample.answeredReceipt? Sample.invocationEvent.response).isSome = true := by
    delta Sample.invocationEvent Sample.lentLibrary Sample.invoker pluginHost
    rw [hostStep_bytewise, pluginPlatform_bytewise, Sample.env_bytewise,
      Sample.packagesWith_bytewise]
    decide +kernel
  obtain ⟨receipt, hReceipt⟩ := Option.isSome_iff_exists.mp hRun
  have hResponse := Sample.eq_of_answeredReceipt? hReceipt
  refine ⟨hPlugins, hGrants, ⟨receipt, hResponse⟩, ?_⟩
  unfold Sample.invocationEvent Sample.lentLibrary Sample.invoker at hResponse ⊢
  have hBoth := invocation_gains_nothing Sample.runtimeHost Sample.env
    (Sample.packagesWith Sample.transformer) Sample.pluginCatalogue Sample.library hPlugins hGrants
    Sample.delegating (Sample.stocked 4) Sample.actor "transformer" "summarize"
    (Sample.grantOf 3).toText (Sample.storedRef 45 "schema") (Sample.uuid 4).toId
    (Sample.digest [])
  obtain ⟨v, -, hInput, hOutput⟩ := hBoth.2 receipt hResponse
  exact ⟨v.input, hInput, hOutput⟩

end Masonwing
