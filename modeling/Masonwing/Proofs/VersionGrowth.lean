import Masonwing.Lib.Growth
import Masonwing.Proofs.Acceptance
import Masonwing.Proofs.Evaluation
import Masonwing.Proofs.Versions

/-!
# Versions only grow

The rows that commands with an expected version are guarded by are never taken away, and no step of
the host takes back a version of them (`hostStep_grows`). So a version that a command found is not
found again once the command committed.

* `expected_version_iff`: which commands advance by one and report the version they stored.
-/

namespace Masonwing

open Outcome

variable {ι ν ε : Type}

/-! ## Growth -/

/-- No guarded row is lost or falls behind. -/
structure VersionsGrow (t t' : Tables) : Prop where
  runs : t.runs.Grows (·.version.val) t'.runs
  approvals : t.approvals.Grows (·.version.val) t'.approvals
  effects : t.effects.Grows (·.version.val) t'.effects
  settings : t.budget.settings.Grows (·.version.val) t'.budget.settings
  connections : t.connections.Grows (·.version.val) t'.connections
  delegations : t.delegations.Grows (·.version.val) t'.delegations
  providers : t.providerProfiles.Grows (·.version.val) t'.providerProfiles
  listings : t.catalogListings.Grows (·.version.val) t'.catalogListings
  memberships : t.identity.memberships.Grows (·.version.val) t'.identity.memberships
  installations : t.registry.installations.Grows (·.version.val) t'.registry.installations

namespace VersionsGrow

variable {t t' t'' : Tables}

theorem refl (t : Tables) : VersionsGrow t t :=
  ⟨.refl _ _, .refl _ _, .refl _ _, .refl _ _, .refl _ _, .refl _ _, .refl _ _, .refl _ _,
    .refl _ _, .refl _ _⟩

theorem trans (h : VersionsGrow t t') (h' : VersionsGrow t' t'') : VersionsGrow t t'' :=
  ⟨h.runs.trans h'.runs, h.approvals.trans h'.approvals, h.effects.trans h'.effects,
    h.settings.trans h'.settings, h.connections.trans h'.connections,
    h.delegations.trans h'.delegations, h.providers.trans h'.providers,
    h.listings.trans h'.listings, h.memberships.trans h'.memberships,
    h.installations.trans h'.installations⟩

theorem journal (t : Tables) (j : Journal) : VersionsGrow t { t with journal := j } :=
  { refl t with runs := .refl _ _ }

theorem row (h : VersionsGrow t t') {row : GuardedRow} {v : Version}
    (hv : row.version t = some v) : ∃ v', row.version t' = some v' ∧ v.val ≤ v'.val := by
  cases row
  all_goals
    obtain ⟨r, hr, rfl⟩ := Option.map_eq_some_iff.mp hv
  · obtain ⟨r', hr', hLe⟩ := h.runs _ r hr
    exact ⟨_, Option.map_eq_some_iff.mpr ⟨r', hr', rfl⟩, hLe⟩
  · obtain ⟨r', hr', hLe⟩ := h.approvals _ r hr
    exact ⟨_, Option.map_eq_some_iff.mpr ⟨r', hr', rfl⟩, hLe⟩
  · obtain ⟨r', hr', hLe⟩ := h.effects _ r hr
    exact ⟨_, Option.map_eq_some_iff.mpr ⟨r', hr', rfl⟩, hLe⟩
  · obtain ⟨r', hr', hLe⟩ := h.settings _ r hr
    exact ⟨_, Option.map_eq_some_iff.mpr ⟨r', hr', rfl⟩, hLe⟩
  · obtain ⟨r', hr', hLe⟩ := h.connections _ r hr
    exact ⟨_, Option.map_eq_some_iff.mpr ⟨r', hr', rfl⟩, hLe⟩
  · obtain ⟨r', hr', hLe⟩ := h.delegations _ r hr
    exact ⟨_, Option.map_eq_some_iff.mpr ⟨r', hr', rfl⟩, hLe⟩
  · obtain ⟨r', hr', hLe⟩ := h.providers _ r hr
    exact ⟨_, Option.map_eq_some_iff.mpr ⟨r', hr', rfl⟩, hLe⟩
  · obtain ⟨r', hr', hLe⟩ := h.listings _ r hr
    exact ⟨_, Option.map_eq_some_iff.mpr ⟨r', hr', rfl⟩, hLe⟩
  · obtain ⟨r', hr', hLe⟩ := h.memberships _ r hr
    exact ⟨_, Option.map_eq_some_iff.mpr ⟨r', hr', rfl⟩, hLe⟩
  · obtain ⟨r', hr', hLe⟩ := h.installations _ r hr
    exact ⟨_, Option.map_eq_some_iff.mpr ⟨r', hr', rfl⟩, hLe⟩

end VersionsGrow

/-! ## The first commands and the system path -/

section Core

variable {env : Env} {tick : Tick} {t t' : Tables} {m : Mutation}

theorem RunMoved.grows {id : Uuid} {r r' : RunRow} (h : RunMoved t id r r') :
    t.runs.Grows (·.version.val) (t.runs.set id r') :=
  .set h.found (Version.lt_next h.version).le

theorem EffectMoved.grows {id : Uuid} {e e' : EffectRow} (h : EffectMoved t id e e') :
    t.effects.Grows (·.version.val) (t.effects.set id e') :=
  .set h.found (Version.lt_next h.version).le

theorem Settled.settings {id : Uuid} {b b' : Budget} (h : Settled tick b id b') :
    b'.settings = b.settings := by
  rcases h with ⟨rfl, -⟩ | ⟨r, r', hAdvanced, -⟩
  · rfl
  · exact hAdvanced.settings

theorem GrantsRevoked.grows {ds ds' : Delegations} {ids : List Uuid} (h : GrantsRevoked ds ds' ids) :
    ds.Grows (·.version.val) ds' := by
  intro k d hd
  rcases h.rows k with ⟨hNone, -⟩ | ⟨e, e', he, he', hRow⟩
  · cases hNone.symm.trans hd
  cases he.symm.trans hd
  refine ⟨e', he', ?_⟩
  split at hRow
  · obtain ⟨version, hVersion, rfl⟩ := revokeRow_ok hRow
    exact (Version.lt_next hVersion).le
  · rw [hRow]

/-- The acts whose change says nothing about the version of the row. -/
def Act.unversioned : Act → Bool
  | .decideApproval _ | .configureBudget | .revokeConnection _ => true
  | _ => false

theorem Change.grows {a : Act} (h : Change env tick t a t') (ha : a.unversioned = false) :
    VersionsGrow t t' := by
  cases h with
  | started j hInsert hAdmitted => exact { VersionsGrow.refl t with runs := .insert hInsert }
  | cancelled j h => exact { VersionsGrow.refl t with runs := h.grows }
  | runStarted j h => exact { VersionsGrow.refl t with runs := h.grows }
  | runCompleted j h => exact { VersionsGrow.refl t with runs := h.grows }
  | runFenced j hFences h => exact { VersionsGrow.refl t with runs := h.grows }
  | decided j hFound hTerms => cases ha
  | configured j hReservations hLedger => cases ha
  | reserved j hReserved =>
    exact { VersionsGrow.refl t with settings := .of_eq hReserved.settings }
  | reservationMoved j hMoved =>
    rcases hMoved with rfl | ⟨r, r', hAdvanced⟩
    · exact .journal t j
    · exact { VersionsGrow.refl t with settings := .of_eq hAdvanced.settings }
  | proposed j hTenant hAdmitted hCreated =>
    obtain ⟨row, hReserved⟩ := hCreated.reserved
    exact { VersionsGrow.refl t with
      effects := .insert hCreated.inserted, settings := .of_eq hReserved.settings }
  | compensated j hTenant hCompensated hCreated =>
    obtain ⟨row, hReserved⟩ := hCreated.reserved
    exact { VersionsGrow.refl t with
      effects := .insert hCreated.inserted, settings := .of_eq hReserved.settings }
  | dispatched j h => exact { VersionsGrow.refl t with effects := h.grows }
  | reconciled j h => exact { VersionsGrow.refl t with effects := h.grows }
  | unknown j h hFrom hAdvanced hState =>
    exact { VersionsGrow.refl t with effects := h.grows, settings := .of_eq hAdvanced.settings }
  | succeeded j h hFrom hSettled hReceipt hInsert hFree =>
    exact { VersionsGrow.refl t with effects := h.grows, settings := .of_eq hSettled.settings }
  | failed j h hFrom hAdvanced hState =>
    exact { VersionsGrow.refl t with effects := h.grows, settings := .of_eq hAdvanced.settings }
  | reauthorized j h hFrom => exact { VersionsGrow.refl t with effects := h.grows }
  | reviewed j h hFrom => exact { VersionsGrow.refl t with effects := h.grows }
  | connectionRevoked j hFound hState => cases ha
  | grantCreated j hInsert hAdmitted =>
    exact { VersionsGrow.refl t with delegations := .insert hInsert }
  | grantRevoked j hFound hActive hIds hRevoked =>
    exact { VersionsGrow.refl t with delegations := hRevoked.grows }
  | switched killSwitches j => exact { VersionsGrow.refl t with installations := .refl _ _ }
  | repeated j => exact .journal t _
  | handedOut j hPasses => exact .journal t _
  | relayed j => exact .journal t _
  | contained j => exact .journal t _

/-- A guarded row does not fall behind. -/
theorem Guarded.le {row : GuardedRow} {expected : Int} {overshoots : Bool}
    (h : Guarded t t' m row expected overshoots) {v v' : Version} (hv : row.version t = some v)
    (hv' : row.version t' = some v') : v.val ≤ v'.val := by
  obtain ⟨w, hw, hLt, -⟩ := h.after
  cases hw.symm.trans hv'
  rw [h.before v hv]
  exact hLt.le

theorem decideApproval_grows {actor : CommandActor} {proposalId decision contentDigest : String}
    {expected : Int} {reason : String}
    (h : decideApproval env tick t actor proposalId decision expected contentDigest reason =
      .ok (t', m)) : VersionsGrow t t' := by
  obtain ⟨id, a, a', hId, hFound, -, rfl, -⟩ := decideApproval_ok h
  have hLe := (decideApproval_guarded hId h).le (version_found hFound) (version_stored hFound a')
  exact { VersionsGrow.refl t with approvals := .set hFound hLe }

theorem revokeConnection_grows {connectionId reason : String} {expected : Int}
    (h : revokeConnection env t connectionId expected reason = .ok (t', m)) :
    VersionsGrow t t' := by
  obtain ⟨id, c, c', hId, hFound, -, rfl, -⟩ := revokeConnection_ok h
  have hLe := (revokeConnection_guarded hId h).le (version_found hFound) (version_stored hFound c')
  exact { VersionsGrow.refl t with connections := .set hFound hLe }

theorem seedSetting_grows {settings settings' : Table (Currency × Period) Setting}
    {dimension : Currency × Period} {id : Uuid}
    (h : seedSetting settings dimension id = .ok settings') :
    settings.Grows (·.version.val) settings' := by
  unfold seedSetting at h
  split at h
  · cases h
    exact .refl _ _
  · simp only [bind_eq_ok, insertRow_eq_ok] at h
    obtain ⟨-, -, row, -, hInsert⟩ := h
    exact .insert hInsert

/-- A setting is seeded, if need be, and then advanced. -/
theorem configureBudget_grows {currency period : String} {limit expected : Int}
    (h : configureBudgetCommand tick t currency period limit expected = .ok (t', m)) :
    VersionsGrow t t' := by
  simp only [configureBudgetCommand, configureBudget, bind_eq_ok, require_eq_ok, okOr_eq_ok,
    sql_eq_ok, pure_eq_ok, requireExpectedVersion_eq_ok, Prod.mk.injEq, Prod.exists,
    exists_const] at h
  obtain ⟨_, _, ⟨c, -, p, -, settings, hSeed, current, hCurrent, version, ⟨-, hNext⟩, -, row, hRow,
    accounts, -, rfl, rfl⟩, rfl, rfl⟩ := h
  have hVersion : row.version = version := Setting.check_version hRow
  have hLe : current.version.val ≤ row.version.val := by
    rw [hVersion]
    exact (Version.lt_next hNext).le
  exact { VersionsGrow.refl t with settings := (seedSetting_grows hSeed).trans (.set hCurrent hLe) }

theorem dispatchCommand_grows {c : Command CommandInput}
    (hTenant : t.identity.tenantActive = true)
    (h : dispatchCommand env tick t c = .ok (t', m)) : VersionsGrow t t' := by
  obtain ⟨a, hAct, hChange⟩ := dispatchCommand_change t'.journal hTenant h
  cases hUnversioned : a.unversioned with
  | false => exact hChange.grows hUnversioned
  | true =>
    unfold dispatchCommand at h
    dsimp only at h
    split at h
    all_goals
      rename_i hInput
      rw [hInput] at hAct
    · cases hAct
      cases hUnversioned
    · obtain ⟨id, -, rfl⟩ := Option.map_eq_some_iff.mp hAct
      cases hUnversioned
    · exact decideApproval_grows h
    · exact configureBudget_grows h
    · cases hAct
      cases hUnversioned
    · obtain ⟨id, -, rfl⟩ := Option.map_eq_some_iff.mp hAct
      cases hUnversioned
    · obtain ⟨id, -, rfl⟩ := Option.map_eq_some_iff.mp hAct
      cases hUnversioned
    · obtain ⟨original, -, hRest⟩ := Option.bind_eq_some_iff.mp hAct
      obtain ⟨approval, -, hPure⟩ := Option.bind_eq_some_iff.mp hRest
      cases hPure
      cases hUnversioned
    · exact revokeConnection_grows h
    · cases hAct
      cases hUnversioned
    · obtain ⟨id, -, rfl⟩ := Option.map_eq_some_iff.mp hAct
      cases hUnversioned
    · cases hAct
      cases hUnversioned

theorem runSystemCall_grows {call : SystemCall} {reply : Reply}
    (h : runSystemCall env tick t call = .ok (t', reply)) : VersionsGrow t t' := by
  refine (runSystemCall_change h).grows ?_
  have hCommanded := call.act_not_commanded
  generalize call.act = a at hCommanded
  cases a with
  | decideApproval id => cases hCommanded
  | configureBudget => cases hCommanded
  | revokeConnection id => cases hCommanded
  | _ => rfl

end Core

/-! ## Plugins -/

section Plugins

variable {env : Env} {tick : Tick} {t t' : Tables} {m : Mutation} {actor : CommandActor}

theorem PluginMove.grows [LinearOrder ν] {packages : PluginEnv ν} {input : PluginInput}
    {registry : Registry} {changes : List RegistryChange}
    (h : PluginMove packages tick t input registry changes) : VersionsGrow t { t with registry } := by
  cases h with
  | installed hVerified hSaved hInsert =>
    exact { VersionsGrow.refl t with installations := .insert hInsert }
  | moved hFound hMove =>
    exact { VersionsGrow.refl t with installations := .set hFound hMove.version_lt.le }
  | upgraded hFound hVersion hId hState hOld hNewer hVerified hDependencies hSaved =>
    exact { VersionsGrow.refl t with
      installations := .set hFound (Version.lt_next hVersion).le }

theorem RunsStopped.grows {pluginId : String} {digest : Digest} {runs : Table Uuid RunRow}
    (h : RunsStopped t pluginId digest runs) : t.runs.Grows (·.version.val) runs := by
  intro k r hr
  rcases h.rows k with ⟨hNone, -⟩ | ⟨q, q', hq, hq', hRow⟩
  · cases hNone.symm.trans hr
  cases hq.symm.trans hr
  refine ⟨q', hq', ?_⟩
  split at hRow
  · exact (Version.lt_next hRow.version).le
  · rw [hRow]

theorem revokePlugin_grows {pluginId artifactDigest reason : String}
    (h : revokePlugin env tick t actor pluginId artifactDigest reason = .ok (t', m)) :
    VersionsGrow t t' := by
  obtain ⟨digest, i, i', -, hRevoked⟩ := revokePlugin_registry h
  obtain ⟨digest', registry, runs, -, hRuns, rfl, -⟩ := revokePlugin_ok h
  have hInstallations : registry.installations = t.registry.installations.set pluginId i' :=
    congrArg (·.installations) hRevoked.others
  have hGrows : t.registry.installations.Grows (·.version.val) registry.installations := by
    rw [hInstallations]
    exact .set hRevoked.found (Version.lt_next hRevoked.version).le
  exact { VersionsGrow.refl t with runs := hRuns.grows, installations := hGrows }

end Plugins

/-! ## The host -/

section HostSteps

variable {tick : Tick} {t t' : Tables} {m : Mutation} {actor : CommandActor}

theorem MembershipChanged.grows {membershipId : String} {expected : Int}
    (h : MembershipChanged t t' m membershipId expected) : VersionsGrow t t' := by
  obtain ⟨id, principal, row, row', version, -, hOf, hVersion, hWritten⟩ := h
  obtain ⟨hGet, -⟩ := Table.find?_some hOf
  obtain ⟨-, hNext⟩ := requireExpectedVersion_eq_ok.mp hVersion
  have hLe : row.version.val ≤ row'.version.val := by
    rw [hWritten.version]
    exact (Version.lt_next hNext).le
  rw [hWritten.tables]
  exact { VersionsGrow.refl t with memberships := .set hGet hLe }

theorem seedConnection_grows (connections : Table Uuid ConnectionRow) (id : Uuid)
    (provider : String) (scopes : List String) :
    connections.Grows (·.version.val) (seedConnection connections id provider scopes) := by
  unfold seedConnection
  generalize hInsert : connections.insert? id _ = inserted
  cases inserted with
  | none => exact .refl _ _
  | some connections' => exact .insert hInsert

theorem Host.dispatch_grows {h : Host ι ν ε} {c : Command (HostInput ε)}
    (hHandled : h.dispatch tick t c = .ok (t', m)) : VersionsGrow t t' := by
  unfold Host.dispatch at hHandled
  dsimp only at hHandled
  split at hHandled
  · obtain ⟨a, u, artifacts, uploads, -, -, -, -, rfl, -⟩ := beginArtifact_ok hHandled
    exact { VersionsGrow.refl t with runs := .refl _ _ }
  · obtain ⟨id, upload, u, a, version, uploadVersion, rights, -, -, -, -, -, rfl, -⟩ :=
      finalizeArtifact_ok hHandled
    exact { VersionsGrow.refl t with runs := .refl _ _ }
  · obtain ⟨input, j, rights, -, -, rfl, -⟩ := invokePlugin_ok hHandled
    exact { VersionsGrow.refl t with runs := .refl _ _ }
  · simp only [configureProvider, bind_eq_ok, sql_eq_ok, insertRow_eq_ok, pure_eq_ok,
      Prod.mk.injEq] at hHandled
    obtain ⟨-, -, -, -, profileId, -, -, -, profiles, hInsert, rfl, -⟩ := hHandled
    exact { VersionsGrow.refl t with providers := .insert hInsert }
  · obtain ⟨id, p, version, next, value, label, hFound, -, hVersion, -, rfl, -⟩ :=
      compactProvider_ok hHandled
    obtain ⟨-, hNext⟩ := requireExpectedVersion_eq_ok.mp hVersion
    exact { VersionsGrow.refl t with providers := .set hFound (Version.lt_next hNext).le }
  · obtain ⟨authorizations, rfl, -⟩ := authorizeConnection_ok hHandled
    exact { VersionsGrow.refl t with connections := seedConnection_grows _ _ _ _ }
  · obtain ⟨id, o, -, -, -, rfl, -⟩ := replayDeadletter_ok hHandled
    exact .journal t _
  · simp only [submitCatalog, bind_eq_ok, okOr_eq_ok, sql_eq_ok, insertRow_eq_ok, pure_eq_ok,
      Prod.mk.injEq] at hHandled
    obtain ⟨publisher, -, plugin, -, digest, -, -, -, -, -, listings, hInsert, rfl, -⟩ := hHandled
    exact { VersionsGrow.refl t with listings := .insert hInsert }
  · obtain ⟨id, l, l', guarded, version, value, label, -, hFound, hGuarded, hBumped, rfl, rfl, -⟩ :=
      reviewCatalog_ok hHandled
    obtain ⟨-, hNext⟩ := requireExpectedVersion_eq_ok.mp hGuarded
    have hLe := ((Version.lt_next hNext).trans (Version.lt_next (Version.bump_eq_ok.mp hBumped))).le
    exact { VersionsGrow.refl t with listings := .set hFound hLe }
  · exact (changeMembership_ok hHandled).grows
  · exact (revokeMembership_ok hHandled).grows
  · obtain ⟨rfl, -⟩ := Host.runExtension_ok hHandled
    exact .refl _

/-- An operation of the platform, with the commands that manage plugins. -/
theorem PlatformOutcome.grows [LinearOrder ν] {p : Platform PluginInput} {packages : PluginEnv ν}
    (hLifecycle : p.lifecycle = pluginLifecycle p.env packages)
    {op : PlatformOperation PluginInput} (h : PlatformOutcome p tick t op t') :
    VersionsGrow t t' := by
  cases h with
  | unchanged => exact .refl t
  | command hActor hAuthorized hHandled hJournal hRecorded =>
    have hGrows := dispatchCommand_grows (beginActor_ok hActor).1 hHandled
    exact hGrows.trans (.journal _ _)
  | further hHandled hRecorded =>
    unfold Platform.dispatch at hHandled
    split at hHandled
    · exact (revokePlugin_grows hHandled).trans (.journal _ _)
    · obtain ⟨_, id, rights, requests, -, -, rfl, -⟩ := requestDeletion_ok hHandled
      exact { VersionsGrow.refl t with runs := .refl _ _ }
    · simp only [Lifecycle.run, hLifecycle, bind_eq_ok, pure_eq_ok, Prod.exists,
        Prod.mk.injEq] at hHandled
      obtain ⟨registry, primary, changes, hHandled, rfl, rfl⟩ := hHandled
      have hMove : PluginMove packages tick t _ registry changes := handlePlugin_ok hHandled
      exact hMove.grows.trans (.journal _ _)
  | contained h hOp => exact .journal t _
  | system h => exact runSystemCall_grows h
  | checkpoint h =>
    rcases recordRunCheckpoint_ok h with ⟨-, rfl⟩ | ⟨-, row, checkpoints, -, rfl, -⟩
    · exact .refl _
    · exact { VersionsGrow.refl t with runs := .refl _ _ }

variable [LinearOrder ν] {h : Host PluginInput ν ε}
  (hLifecycle : h.platform.lifecycle = pluginLifecycle h.platform.env h.packages)

include hLifecycle

theorem HostOutcome.grows {attempts attempts' : List UploadAttempt}
    {op : HostOperation PluginInput ε}
    (hOutcome : HostOutcome h tick t attempts op t' attempts') : VersionsGrow t t' := by
  cases hOutcome with
  | unchanged => exact .refl _
  | platform hOutcome => exact hOutcome.grows hLifecycle
  | command hActor hAuthorized hHandled hRecorded =>
    exact (Host.dispatch_grows hHandled).trans (.journal _ _)
  | contained hContained => exact .journal _ _
  | claimed hClaimed =>
    obtain ⟨u, u', a, -, -, -, -, -, rfl⟩ := claimUpload_ok hClaimed
    exact { VersionsGrow.refl t with runs := .refl _ _ }
  | completed hAttempt hCompleted =>
    obtain ⟨u, u', act, j, j', tenant, expires, state, label, version, -, -, -, -, -, rfl⟩ :=
      completeUpload_ok hCompleted
    exact { VersionsGrow.refl t with runs := .refl _ _ }

/-- No step of the host takes back a version. -/
theorem hostStep_grows (s : HostState) (c : HostCall PluginInput ε) :
    VersionsGrow s.store.tables (hostStep h s c).1.store.tables :=
  (hostStep_outcome h s c).grows hLifecycle

theorem run_grows (s : HostState) (calls : List (HostCall PluginInput ε)) :
    VersionsGrow s.store.tables (Machine.run (hostStep h) s calls).store.tables :=
  Machine.run_invariant (hostStep h) (I := fun t => VersionsGrow s.store.tables t.store.tables)
    (fun t c ht => ht.trans (hostStep_grows hLifecycle t c)) (.refl _) calls

end HostSteps

/-! ## Committed commands -/

/-- The receipt of a command that committed. -/
def committedReceipt : Result HostReply → Option CommandReceipt
  | .ok (.platform (.core (.answer (.committed receipt)))) => some receipt
  | .ok (.answer (.committed receipt)) => some receipt
  | _ => none

/-- The row is one version further, and the receipt reports that version, with which its reader is
not refused as stale. -/
def AdvancedByOne (t : Tables) (row : GuardedRow) (expected : Int) (receipt : CommandReceipt) :
    Prop :=
  ∃ v reported, row.version t = some v ∧ receipt.resource = some reported ∧
    v.val = expected + 1 ∧ reported.version = v.val ∧ reported.version ≤ maxI32 ∧
    requireExpectedVersion v reported.version ≠ .error (.conflict "STALE_VERSION")

section Committed

variable {tick : Tick} {s : HostState} {receipt : CommandReceipt}
  {row : GuardedRow} {expected : Int}

theorem Guarded.journal {t t' : Tables} {m : Mutation} {overshoots : Bool}
    (h : Guarded t t' m row expected overshoots) (j : Journal) :
    Guarded t { t' with journal := j } m row expected overshoots := by
  refine ⟨h.before, ?_⟩
  rw [row.version_journal]
  exact h.after

/-- A command that committed was handled, and its receipt reports what the handler returned. -/
theorem execute_committed {ι : Type} {env : Env} {svc : Service ι} {store store' : Store}
    {c : Command ι} (h : execute env svc tick store c = .ok (store', .committed receipt)) :
    ∃ t m, svc.handle tick store.tables c = .ok (t, m) ∧
      store'.tables = { t with journal := store'.tables.journal } ∧
      receipt = commandReceipt tick m := by
  obtain ⟨principal, -, ⟨row, -, -, -, hAnswer⟩ | ⟨-, t, m, receipt', hCommitted, hAnswer⟩⟩ :=
    execute_ok h
  · cases hAnswer
  · cases hAnswer
    exact ⟨t, m, hCommitted.handled, hCommitted.tables, hCommitted.receipt_eq⟩

theorem hostStep_guarded [LinearOrder ν] {h : Host PluginInput ν ε}
    (hLifecycle : h.platform.lifecycle = pluginLifecycle h.platform.env h.packages)
    {op : HostOperation PluginInput ε} (hExpects : op.expectation s.store.tables = some (row, expected))
    (hReceipt : committedReceipt (hostStep h s ⟨tick, op⟩).2 = some receipt) :
    ∃ m, Guarded s.store.tables (hostStep h s ⟨tick, op⟩).1.store.tables m row expected
      op.addsTwice ∧ receipt = commandReceipt tick m := by
  rcases transact_cases s (runHostOperation h tick s op) with
    ⟨s', reply, hRun, hStep⟩ | ⟨failure, -, hStep⟩
  swap
  · have hEq : hostStep h s ⟨tick, op⟩ = (s, .error failure) := hStep
    rw [hEq] at hReceipt
    cases hReceipt
  have hEq : hostStep h s ⟨tick, op⟩ = (s', .ok reply) := hStep
  rw [hEq] at hReceipt ⊢
  cases op with
  | platform op =>
    simp only [runHostOperation, bind_eq_ok, pure_eq_ok, Prod.exists, Prod.mk.injEq] at hRun
    obtain ⟨store, reply', hRun, rfl, rfl⟩ := hRun
    cases op with
    | core op =>
      cases op with
      | command c =>
        simp only [runPlatformOperation, runOperation, bind_eq_ok, pure_eq_ok, Prod.exists,
          Prod.mk.injEq] at hRun
        obtain ⟨_, _, ⟨_, a, hExecute, rfl, rfl⟩, rfl, rfl⟩ := hRun
        cases a with
        | replayed old => cases hReceipt
        | committed new =>
          cases hReceipt
          obtain ⟨t, m, hHandled, hTables, rfl⟩ := execute_committed hExecute
          have hGuarded := dispatchCommand_guarded hExpects hHandled
          refine ⟨m, ?_, rfl⟩
          change Guarded _ _ m row expected c.input.addsTwice
          rw [hTables]
          exact hGuarded.journal _
      | quarantine c reference => cases hExpects
      | system call => cases hExpects
    | command c =>
      simp only [runPlatformOperation, bind_eq_ok, pure_eq_ok, Prod.exists, Prod.mk.injEq] at hRun
      obtain ⟨_, a, hExecute, rfl, rfl⟩ := hRun
      cases a with
      | replayed old => cases hReceipt
      | committed new =>
        cases hReceipt
        obtain ⟨t, m, hHandled, hTables, rfl⟩ := execute_committed hExecute
        refine ⟨m, ?_, rfl⟩
        dsimp only
        rw [hTables]
        refine Guarded.journal ?_ _
        have hDispatched : h.platform.dispatch tick s.store.tables c = .ok (t, m) := hHandled
        unfold Platform.dispatch at hDispatched
        simp only [HostOperation.expectation] at hExpects
        split at hDispatched
        all_goals
          rename_i hInput
          rw [hInput] at hExpects
        · cases hExpects
        · cases hExpects
        · simp only [Lifecycle.run, hLifecycle, bind_eq_ok, pure_eq_ok, Prod.exists,
            Prod.mk.injEq] at hDispatched
          obtain ⟨registry, primary, changes, hPlugin, rfl, rfl⟩ := hDispatched
          exact handlePlugin_guarded hExpects hPlugin rfl
    | quarantine c reference => cases hExpects
    | checkpoint runId record => cases hExpects
  | command c =>
    simp only [runHostOperation, bind_eq_ok, pure_eq_ok, Prod.exists, Prod.mk.injEq] at hRun
    obtain ⟨store, a, hExecute, rfl, rfl⟩ := hRun
    cases a with
    | replayed old => cases hReceipt
    | committed new =>
      cases hReceipt
      obtain ⟨t, m, hHandled, hTables, rfl⟩ := execute_committed hExecute
      have hGuarded := Host.dispatch_guarded hExpects hHandled
      refine ⟨m, ?_, rfl⟩
      change Guarded _ _ m row expected c.input.addsTwice
      dsimp only
      rw [hTables]
      exact hGuarded.journal _
  | quarantine c reference => cases hExpects
  | claimUpload actor uploadId length => cases hExpects
  | completeUpload attempt outcome => cases hExpects

/-- What a command with an expected version reports is one version further exactly if its handler
adds one to the version only once; and whichever command it was, no later command commits that
expects the same version of the row. -/
theorem expected_version_iff [LinearOrder ν] {h : Host PluginInput ν ε}
    (hLifecycle : h.platform.lifecycle = pluginLifecycle h.platform.env h.packages)
    {op : HostOperation PluginInput ε}
    (hExpects : op.expectation s.store.tables = some (row, expected))
    (hReceipt : committedReceipt (hostStep h s ⟨tick, op⟩).2 = some receipt) :
    (AdvancedByOne (hostStep h s ⟨tick, op⟩).1.store.tables row expected receipt ↔
      op.addsTwice = false) ∧
    ∀ calls later op', op'.expectation
        (Machine.run (hostStep h) (hostStep h s ⟨tick, op⟩).1 calls).store.tables =
          some (row, expected) →
      committedReceipt (hostStep h (Machine.run (hostStep h) (hostStep h s ⟨tick, op⟩).1 calls)
        ⟨later, op'⟩).2 = none := by
  obtain ⟨m, hGuarded, rfl⟩ := hostStep_guarded hLifecycle hExpects hReceipt
  obtain ⟨v, hStored, hLt, hFits, hAdvanced⟩ := hGuarded.after
  constructor
  · rw [← hAdvanced]
    constructor
    · rintro ⟨w, reported, hw, hReported, hNext, hSame, -, -⟩
      cases hStored.symm.trans hw
      cases hReported
      exact ⟨hNext, hSame⟩
    · rintro ⟨hNext, hSame⟩
      refine ⟨v, m.primary, hStored, rfl, hNext, hSame, hFits, ?_⟩
      rw [hSame]
      exact requireExpectedVersion_self_ne_stale v
  · intro calls later op' hExpects'
    obtain ⟨w, hw, hLe⟩ := (run_grows hLifecycle _ calls).row hStored
    cases hLater : committedReceipt _ with
    | none => rfl
    | some receipt' =>
      -- the version that was expected is behind for ever
      exfalso
      obtain ⟨m', hGuarded', -⟩ := hostStep_guarded hLifecycle hExpects' hLater
      have hSame := hGuarded'.before w hw
      omega

end Committed

namespace Sample

/-- The host of the small tenant with the commands that manage plugins. -/
def serviceHost : Host PluginInput Nat Empty :=
  { platform := plugins, packages, invocation := host.invocation, extension := host.extension
    inputValid := host.inputValid, fingerprint := host.fingerprint }

def emptyShelf : HostState := { store := shelf, attempts := [] }

/-- The command of the `n`-th second, under a key of its own. -/
def serviceCommand (n : Nat) (input : HostInput Empty) : HostCall PluginInput Empty :=
  { tick := stocked n
    operation := .command
      { actor, input, idempotencyKey := (uuid n).toId, fingerprint := digest [] } }

def configureProfile : HostCall PluginInput Empty :=
  serviceCommand 1 (.providerConfigure
    (.obj [("id", .str "local"), ("live_status", .str "DISABLED")]) none)

def compactProfile : HostCall PluginInput Empty :=
  serviceCommand 2 (.providerCompact "conversation" "local" 1)

def installStorage : HostCall PluginInput Empty :=
  ⟨stocked 1, .platform (lifecycleCommand 1 (.install storage)).operation⟩

def enableStorage : HostOperation PluginInput Empty :=
  .platform (lifecycleCommand 2
    (.enable "storage" storage.artifactDigest.toText ["report.read"] 1)).operation

end Sample

/-- A compaction of a new provider stores version 2 and reports version 3. -/
theorem compacted_version_overshoots :
    ((GuardedRow.provider ((Sample.stocked 1).draw .providerProfile)).version
      (Machine.run (hostStep Sample.serviceHost) Sample.emptyShelf
        [Sample.configureProfile, Sample.compactProfile]).store.tables).map (·.val) = some 2 ∧
    ((committedReceipt (hostStep Sample.serviceHost
      (Machine.run (hostStep Sample.serviceHost) Sample.emptyShelf [Sample.configureProfile])
      Sample.compactProfile).2).bind (·.resource)).map (·.version) = some 3 := by
  simp only [Sample.serviceHost, hostStep_bytewise, Sample.plugins_bytewise]
  decide +kernel

theorem enabled_advances :
    ∃ receipt, committedReceipt (hostStep Sample.serviceHost
        (Machine.run (hostStep Sample.serviceHost) Sample.emptyShelf [Sample.installStorage])
        ⟨Sample.stocked 2, Sample.enableStorage⟩).2 = some receipt ∧
      AdvancedByOne (hostStep Sample.serviceHost
        (Machine.run (hostStep Sample.serviceHost) Sample.emptyShelf [Sample.installStorage])
        ⟨Sample.stocked 2, Sample.enableStorage⟩).1.store.tables (.installation "storage") 1
        receipt := by
  have hCommits : (committedReceipt (hostStep Sample.serviceHost
      (Machine.run (hostStep Sample.serviceHost) Sample.emptyShelf [Sample.installStorage])
      ⟨Sample.stocked 2, Sample.enableStorage⟩).2).isSome = true := by
    simp only [Sample.serviceHost, hostStep_bytewise, Sample.plugins_bytewise]
    decide +kernel
  obtain ⟨receipt, hReceipt⟩ := Option.isSome_iff_exists.mp hCommits
  exact ⟨receipt, hReceipt, (expected_version_iff rfl rfl hReceipt).1.mpr rfl⟩

end Masonwing
