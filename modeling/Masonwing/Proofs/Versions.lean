import Masonwing.Proofs.HostShows
import Masonwing.Proofs.PluginLifecycle
import Masonwing.Proofs.Ancestry

/-!
# Expected versions

A command that names the version it expects is guarded by one row. The guard returns the next
version, and most handlers write and report just that one. Three of them add one more: the
revocation of a connection and the review of a listing write and report the version after the next,
and the compaction of a provider writes the next version but reports the one after it.

* `Guarded`: what a handler of such a command does to the row and what it reports;
* `dispatchCommand_guarded`, `Host.dispatch_guarded`, `handlePlugin_guarded`: that it does so.
-/

namespace Masonwing

open Outcome

variable {ι ν ε : Type}

/-! ## The guarded row -/

inductive GuardedRow where
  | run (id : Uuid)
  | approval (id : Uuid)
  | effect (id : Uuid)
  | setting (dimension : Currency × Period)
  | connection (id : Uuid)
  | delegation (id : Uuid)
  | provider (id : Uuid)
  | listing (id : Uuid)
  | membership (principal : Uuid)
  | installation (pluginId : String)

def GuardedRow.version (t : Tables) : GuardedRow → Option Version
  | .run id => (t.runs.get? id).map (·.version)
  | .approval id => (t.approvals.get? id).map (·.version)
  | .effect id => (t.effects.get? id).map (·.version)
  | .setting dimension => (t.budget.settings.get? dimension).map (·.version)
  | .connection id => (t.connections.get? id).map (·.version)
  | .delegation id => (t.delegations.get? id).map (·.version)
  | .provider id => (t.providerProfiles.get? id).map (·.version)
  | .listing id => (t.catalogListings.get? id).map (·.version)
  | .membership principal => (t.identity.memberships.get? principal).map (·.version)
  | .installation pluginId => (t.registry.installations.get? pluginId).map (·.version)

theorem GuardedRow.version_journal (row : GuardedRow) (t : Tables) (j : Journal) :
    row.version { t with journal := j } = row.version t := by
  cases row <;> rfl

/-- The row that a command is guarded by, with the version it has to have. -/
def CommandInput.expectation : CommandInput → Option (GuardedRow × Int)
  | .runCancel runId expected _ => (Uuid.parse runId).map fun id => (.run id, expected)
  | .approvalDecide proposalId _ expected _ _ =>
    (Uuid.parse proposalId).map fun id => (.approval id, expected)
  | .budgetConfigure currency period _ expected =>
    (Currency.ofText? currency).bind fun c =>
      (Period.ofText? period).map fun p => (.setting (c, p), expected)
  | .effectDispatch effectId expected => (Uuid.parse effectId).map fun id => (.effect id, expected)
  | .effectReconcile effectId expected => (Uuid.parse effectId).map fun id => (.effect id, expected)
  | .connectionRevoke connectionId expected _ =>
    (Uuid.parse connectionId).map fun id => (.connection id, expected)
  | .grantRevoke grantId expected _ =>
    (Uuid.parse grantId).map fun id => (.delegation id, expected)
  | _ => none

/-- A command that disables a plugin may take two steps at once; it is left out. -/
def PluginInput.expectation : PluginInput → Option (GuardedRow × Int)
  | .enable pluginId _ _ expected => some (.installation pluginId, expected)
  | .upgrade pluginId _ expected => some (.installation pluginId, expected)
  | .uninstall pluginId expected _ => some (.installation pluginId, expected)
  | _ => none

def HostInput.expectation (t : Tables) : HostInput ε → Option (GuardedRow × Int)
  | .providerCompact _ profileId expected =>
    (t.providerProfiles.find? fun _ p => decide (p.profileId = profileId)).map
      fun r => (.provider r.1, expected)
  | .catalogReview listingId _ _ expected =>
    (Uuid.parse listingId).map fun id => (.listing id, expected)
  | .membershipChange membershipId expected _ =>
    ((Uuid.parse membershipId).bind (membershipOf t)).map fun r => (.membership r.1, expected)
  | .membershipRevoke membershipId expected =>
    ((Uuid.parse membershipId).bind (membershipOf t)).map fun r => (.membership r.1, expected)
  | _ => none

def HostOperation.expectation (t : Tables) :
    HostOperation PluginInput ε → Option (GuardedRow × Int)
  | .platform (.core (.command c)) => c.input.expectation
  | .platform (.command c) =>
    match c.input with
    | .lifecycle input => input.expectation
    | _ => none
  | .command c => c.input.expectation t
  | _ => none

/-! The commands whose handler adds one to the version that the guard returned. -/

def CommandInput.addsTwice : CommandInput → Bool
  | .connectionRevoke .. => true
  | _ => false

def HostInput.addsTwice : HostInput ε → Bool
  | .providerCompact .. => true
  | .catalogReview .. => true
  | _ => false

def HostOperation.addsTwice : HostOperation ι ε → Bool
  | .platform (.core (.command c)) => c.input.addsTwice
  | .command c => c.input.addsTwice
  | _ => false

/-! ## Handlers -/

/-- A handler found the expected version, or seeded the row, and left a later one; what it reports
fits, and it advanced by one and reported what it stored unless it `overshoots`. -/
structure Guarded (t t' : Tables) (m : Mutation) (row : GuardedRow) (expected : Int)
    (overshoots : Bool) : Prop where
  before : ∀ v, row.version t = some v → v.val = expected
  after : ∃ v, row.version t' = some v ∧ expected < v.val ∧ m.primary.version ≤ maxI32 ∧
    ((v.val = expected + 1 ∧ m.primary.version = v.val) ↔ overshoots = false)

section Handlers

variable {env : Env} {tick : Tick} {t t' : Tables} {m : Mutation} {row : GuardedRow}
  {expected : Int}

/-- The row was found with the expected version and stored with the next one, which is reported. -/
theorem Guarded.of_next {v v' : Version} (hBefore : row.version t = some v)
    (hExpected : v.val = expected) (hNext : v.next? = some v') (hAfter : row.version t' = some v')
    (hPrimary : m.primary.version = v'.val) : Guarded t t' m row expected false := by
  refine ⟨fun w hw => ?_, v', hAfter, ?_, ?_, ?_⟩
  · cases hBefore.symm.trans hw
    exact hExpected
  · rw [Version.next?_eq_some hNext, hExpected]
    exact Int.lt_succ expected
  · rw [hPrimary]
    exact v'.le
  · rw [← hExpected]
    exact iff_of_true ⟨Version.next?_eq_some hNext, hPrimary⟩ rfl

/-- The row was found with the expected version; what is reported is the version after the next. -/
theorem Guarded.of_overshot {v guarded version v' : Version} (hBefore : row.version t = some v)
    (hExpected : v.val = expected) (hNext : v.next? = some guarded)
    (hBumped : guarded.next? = some version) (hAfter : row.version t' = some v')
    (hStored : v' = guarded ∨ v' = version) (hPrimary : m.primary.version = version.val) :
    Guarded t t' m row expected true := by
  have hGuarded := Version.next?_eq_some hNext
  have hVersion := Version.next?_eq_some hBumped
  refine ⟨fun w hw => ?_, v', hAfter, ?_, ?_, ?_⟩
  · cases hBefore.symm.trans hw
    exact hExpected
  · rcases hStored with rfl | rfl
    · omega
    · omega
  · rw [hPrimary]
    exact version.le
  · refine iff_of_false (fun hBoth => ?_) (fun hNot => (by cases hNot))
    rcases hStored with rfl | rfl
    · omega
    · omega

section Rows

variable {κ ρ : Type} [DecidableEq κ] {rows : Table κ ρ} {k : κ} {r : ρ} {v : ρ → Version}

theorem version_found (hFound : rows.get? k = some r) : (rows.get? k).map v = some (v r) := by
  rw [hFound]
  rfl

theorem version_stored (hFound : rows.get? k = some r) (r' : ρ) :
    ((rows.set k r').get? k).map v = some (v r') := by
  rw [Table.get?_set_self hFound]
  rfl

end Rows

theorem cancelRun_guarded {actor : CommandActor} {runId reason : String} {id : Uuid}
    (hId : Uuid.parse runId = some id)
    (h : cancelRun env tick t actor runId expected reason = .ok (t', m)) :
    Guarded t t' m (.run id) expected false := by
  simp only [cancelRun, bind_eq_ok, require_eq_ok, okOr_eq_ok, parseUuid_eq_ok, pure_eq_ok,
    requireReason, requireExpectedVersion_eq_ok, Prod.mk.injEq, exists_const] at h
  obtain ⟨_, hParse, -, r, hFound, version, ⟨hExpected, hNext⟩, next, -, -, -, input, -, rfl, rfl⟩ :=
    h
  cases hId.symm.trans hParse
  exact .of_next (version_found hFound) hExpected hNext (version_stored hFound _) rfl

theorem decideApproval_guarded {actor : CommandActor} {proposalId decision contentDigest : String}
    {reason : String} {id : Uuid} (hId : Uuid.parse proposalId = some id)
    (h : decideApproval env tick t actor proposalId decision expected contentDigest reason =
      .ok (t', m)) : Guarded t t' m (.approval id) expected false := by
  simp only [decideApproval, bind_eq_ok, require_eq_ok, okOr_eq_ok, parseUuid_eq_ok, pure_eq_ok,
    requireReason, requireExpectedVersion_eq_ok, Prod.mk.injEq, exists_const] at h
  obtain ⟨principal, -, _, hParse, -, a, hFound, next, -, -, -, -, version, ⟨hExpected, hNext⟩, rfl,
    rfl⟩ := h
  cases hId.symm.trans hParse
  exact .of_next (version_found hFound) hExpected hNext (version_stored hFound _) rfl

theorem dispatchEffect_guarded {effectId : String} {id : Uuid}
    (hId : Uuid.parse effectId = some id)
    (h : dispatchEffect env tick t effectId expected = .ok (t', m)) :
    Guarded t t' m (.effect id) expected false := by
  simp only [dispatchEffect, bind_eq_ok, require_eq_ok, okOr_eq_ok, parseUuid_eq_ok, pure_eq_ok,
    requireDispatchEnabled, requireExpectedVersion_eq_ok, Prod.mk.injEq, exists_const] at h
  obtain ⟨_, hParse, e, hFound, version, ⟨hExpected, hNext⟩, -, -, -, _, -, count, -, fence, -, rfl,
    rfl⟩ := h
  cases hId.symm.trans hParse
  exact .of_next (version_found hFound) hExpected hNext (version_stored hFound _) rfl

theorem reconcileEffect_guarded {effectId : String} {id : Uuid}
    (hId : Uuid.parse effectId = some id)
    (h : reconcileEffect env tick t effectId expected = .ok (t', m)) :
    Guarded t t' m (.effect id) expected false := by
  simp only [reconcileEffect, bind_eq_ok, require_eq_ok, okOr_eq_ok, parseUuid_eq_ok, pure_eq_ok,
    requireExpectedVersion_eq_ok, Prod.mk.injEq, exists_const] at h
  obtain ⟨_, hParse, e, hFound, version, ⟨hExpected, hNext⟩, -, rfl, rfl⟩ := h
  cases hId.symm.trans hParse
  exact .of_next (version_found hFound) hExpected hNext (version_stored hFound _) rfl

theorem revokeConnection_guarded {connectionId reason : String} {id : Uuid}
    (hId : Uuid.parse connectionId = some id)
    (h : revokeConnection env t connectionId expected reason = .ok (t', m)) :
    Guarded t t' m (.connection id) expected true := by
  simp only [revokeConnection, Version.bump, bind_eq_ok, require_eq_ok, okOr_eq_ok, parseUuid_eq_ok,
    pure_eq_ok, requireReason, requireExpectedVersion_eq_ok, Prod.mk.injEq, exists_const] at h
  obtain ⟨_, hParse, -, c, hFound, guarded, ⟨hExpected, hNext⟩, version, hBumped, rfl, rfl⟩ := h
  cases hId.symm.trans hParse
  exact .of_overshot (version_found hFound) hExpected hNext hBumped (version_stored hFound _)
    (Or.inr rfl) rfl

/-- A grant that is revoked is one of the grants below it, so its row is rewritten. -/
theorem revokeGrant_guarded {grantId reason : String} {id : Uuid}
    (hId : Uuid.parse grantId = some id)
    (h : revokeGrant env t grantId expected reason = .ok (t', m)) :
    Guarded t t' m (.delegation id) expected false := by
  have hRevoked := revokeGrant_ok h
  simp only [revokeGrant, bind_eq_ok, require_eq_ok, okOr_eq_ok, parseUuid_eq_ok, sql_eq_ok,
    pure_eq_ok, requireReason, requireExpectedVersion_eq_ok, Prod.mk.injEq, exists_const] at h
  obtain ⟨_, hParse, -, d, hFound, version, ⟨hExpected, hNext⟩, hActive, ids, hIds, ds, -, rfl, rfl⟩ :=
    h
  cases hId.symm.trans hParse
  obtain ⟨_, d', ids', ds', hParse', hFound', -, hIds', hRows, hTables, -⟩ := hRevoked
  cases hId.symm.trans hParse'
  cases hIds.symm.trans hIds'
  cases hFound.symm.trans hFound'
  have hListed : id ∈ ids := (mem_descendantsFrom hIds).1 List.mem_cons_self
  rcases hRows.rows id with ⟨hNone, -⟩ | ⟨g, g', hg, hg', hRow⟩
  · cases hNone.symm.trans hFound
  cases hg.symm.trans hFound
  rw [if_pos ⟨hListed, hActive⟩] at hRow
  simp only [revokeRow, bind_eq_ok, okOr_eq_ok, pure_eq_ok] at hRow
  obtain ⟨version', hNext', fence, -, rfl⟩ := hRow
  cases hNext.symm.trans hNext'
  refine .of_next (version_found hFound) hExpected hNext ?_ rfl
  rw [hTables]
  exact version_found hg'

theorem seedSetting_found {settings settings' : Table (Currency × Period) Setting}
    {dimension : Currency × Period} {id : Uuid} {r : Setting}
    (h : seedSetting settings dimension id = .ok settings')
    (hFound : settings.get? dimension = some r) : settings' = settings := by
  rw [seedSetting, if_pos (Table.contains_iff.mpr ⟨r, hFound⟩)] at h
  cases h
  rfl

theorem Setting.check_version {s : SettingRow} {r : Setting} (h : Setting.check s = .ok r) :
    r.version = s.version := by
  unfold Setting.check at h
  split at h
  · cases h
    rfl
  · cases h

/-- A setting that is not there yet is seeded in version 1 before the guard looks at it. -/
theorem configureBudget_guarded {currency period : String} {limit : Int} {c : Currency} {p : Period}
    (hCurrency : Currency.ofText? currency = some c) (hPeriod : Period.ofText? period = some p)
    (h : configureBudgetCommand tick t currency period limit expected = .ok (t', m)) :
    Guarded t t' m (.setting (c, p)) expected false := by
  simp only [configureBudgetCommand, configureBudget, bind_eq_ok, require_eq_ok, okOr_eq_ok,
    sql_eq_ok, pure_eq_ok, requireExpectedVersion_eq_ok, Prod.mk.injEq, Prod.exists,
    exists_const] at h
  obtain ⟨_, _, ⟨c', hC, p', hP, settings, hSeed, current, hCurrent, version, ⟨hExpected, hNext⟩, -,
    row, hRow, accounts, -, rfl, rfl⟩, rfl, rfl⟩ := h
  cases hCurrency.symm.trans hC
  cases hPeriod.symm.trans hP
  have hStored : (settings.set (c, p) row).get? (c, p) = some row := Table.get?_set_self hCurrent row
  have hVersion : row.version = version := Setting.check_version hRow
  refine ⟨fun v hv => ?_, version, ?_, ?_, version.le, ?_⟩
  · obtain ⟨old, hOld, rfl⟩ := Option.map_eq_some_iff.mp hv
    rw [seedSetting_found hSeed hOld, hOld] at hCurrent
    cases hCurrent
    exact hExpected
  · rw [← hVersion]
    exact version_found hStored
  · rw [Version.next?_eq_some hNext, hExpected]
    exact Int.lt_succ expected
  · rw [← hExpected]
    exact iff_of_true ⟨Version.next?_eq_some hNext, rfl⟩ rfl

/-- The row of a provider advances by one, the version that is reported by two. -/
theorem compactProvider_guarded {conversationId profileId : String} {id : Uuid}
    {p : ProviderProfileRow}
    (hFound : t.providerProfiles.find? (fun _ p => decide (p.profileId = profileId)) = some (id, p))
    (h : compactProvider t conversationId profileId expected = .ok (t', m)) :
    Guarded t t' m (.provider id) expected true := by
  simp only [compactProvider, Version.bump, bind_eq_ok, okOr_eq_ok, pure_eq_ok,
    requireExpectedVersion_eq_ok, Prod.mk.injEq, Prod.exists] at h
  obtain ⟨id', p', hFound', version, ⟨hExpected, hNext⟩, newVersion, hBumped, rfl, rfl⟩ := h
  cases hFound.symm.trans hFound'
  obtain ⟨hGet, -⟩ := Table.find?_some hFound
  exact .of_overshot (version_found hGet) hExpected hNext hBumped (version_stored hGet _) (Or.inl rfl)
    rfl

theorem reviewCatalog_guarded {actor : CommandActor} {listingId decision : String}
    {evidenceRef : Json} {id : Uuid} (hId : Uuid.parse listingId = some id)
    (h : reviewCatalog t actor listingId decision evidenceRef expected = .ok (t', m)) :
    Guarded t t' m (.listing id) expected true := by
  simp only [reviewCatalog, Version.bump, bind_eq_ok, okOr_eq_ok, parseUuid_eq_ok, pure_eq_ok,
    requireExpectedVersion_eq_ok, Prod.mk.injEq] at h
  obtain ⟨_, hParse, l, hFound, guarded, ⟨hExpected, hNext⟩, state, -, version, hBumped, reviewer, -,
    rfl, rfl⟩ := h
  cases hId.symm.trans hParse
  exact .of_overshot (version_found hFound) hExpected hNext hBumped (version_stored hFound _)
    (Or.inr rfl) rfl

theorem MembershipChanged.guarded {membershipId : String} {id principal : Uuid}
    {row : MembershipRow} (hId : Uuid.parse membershipId = some id)
    (hOf : membershipOf t id = some (principal, row))
    (h : MembershipChanged t t' m membershipId expected) :
    Guarded t t' m (.membership principal) expected false := by
  obtain ⟨id', principal', row', stored, version, hId', hOf', hVersion, hWritten⟩ := h
  cases hId.symm.trans hId'
  cases hOf.symm.trans hOf'
  obtain ⟨hExpected, hNext⟩ := requireExpectedVersion_eq_ok.mp hVersion
  obtain ⟨hGet, -⟩ := Table.find?_some hOf
  obtain ⟨value, label, hShown⟩ := hWritten.shown
  refine .of_next (version_found hGet) hExpected hNext ?_ ?_
  · rw [hWritten.tables, ← hWritten.version]
    exact version_stored hGet stored
  · rw [hShown]
    rfl

section Plugins

variable {packages : PluginEnv ν} {actor : CommandActor} {registry : Registry}
  {primary : ResourceRef} {changes : List RegistryChange} {pluginId : String}

/-- What the commands on an installation do to its row. -/
def InstallationAdvanced (t : Tables) (registry : Registry) (primary : ResourceRef)
    (pluginId : String) (expected : Int) : Prop :=
  ∃ i i', t.registry.installations.get? pluginId = some i ∧ i.version.val = expected ∧
    i.version.next? = some i'.version ∧
    registry.installations = t.registry.installations.set pluginId i' ∧
    primary.version = i'.version.val

theorem enablePlugin_advanced {digest : String} {grants : List String}
    (h : enablePlugin env packages tick t actor pluginId digest grants expected =
      .ok (registry, primary, changes)) :
    InstallationAdvanced t registry primary pluginId expected := by
  simp only [enablePlugin, bind_eq_ok, require_eq_ok, okOr_eq_ok, requireExpectedVersion_eq_ok,
    pure_eq_ok, setInstallation, Prod.exists, Prod.mk.injEq, exists_const] at h
  obtain ⟨i, hFound, version, ⟨hExpected, hNext⟩, -, -, digest', manifest, -, _, -, _, -, _, -, policy,
    -, _, -, rfl, rfl, -⟩ := h
  exact ⟨i, { i with state := .enabled, grantedCapabilities := grants, version }, hFound, hExpected,
    hNext, rfl, rfl⟩

theorem upgradePlugin_advanced [LinearOrder ν] {manifest : PluginManifest}
    (h : upgradePlugin env packages tick t actor pluginId manifest expected =
      .ok (registry, primary, changes)) :
    InstallationAdvanced t registry primary pluginId expected := by
  simp only [upgradePlugin, bind_eq_ok, require_eq_ok, okOr_eq_ok, requireExpectedVersion_eq_ok,
    setInstallation, Prod.exists, exists_const] at h
  obtain ⟨i, hFound, version, ⟨hExpected, hNext⟩, -, -, digest, old, -, _, -, workflows, -, h⟩ := h
  have hSaves : ∃ saved, savePluginVersion tick t.registry manifest workflows = .ok saved ∧
      setInstallation saved pluginId (upgradedRow i manifest version)
        [installationChange pluginId (upgradedRow i manifest version), manifestChange tick manifest] =
          (registry, primary, changes) := by
    split at h
    · simp only [bind_eq_ok, pure_eq_ok] at h
      obtain ⟨_, -, saved, hSaved, h⟩ := h
      exact ⟨saved, hSaved, h⟩
    · simp only [bind_eq_ok, pure_eq_ok] at h
      obtain ⟨saved, hSaved, h⟩ := h
      exact ⟨saved, hSaved, h⟩
  obtain ⟨saved, hSaved, h⟩ := hSaves
  cases h
  refine ⟨i, upgradedRow i manifest version, hFound, hExpected, hNext, ?_, rfl⟩
  rw [← (savePluginVersion_ok hSaved).installations]

theorem uninstallPlugin_advanced {dataPolicy : String}
    (h : uninstallPlugin packages t pluginId expected dataPolicy =
      .ok (registry, primary, changes)) :
    InstallationAdvanced t registry primary pluginId expected := by
  simp only [uninstallPlugin, bind_eq_ok, require_eq_ok, okOr_eq_ok, requireExpectedVersion_eq_ok,
    sql_eq_ok, setInstallation, pure_eq_ok, Prod.mk.injEq, exists_const] at h
  obtain ⟨i, hFound, version, ⟨hExpected, hNext⟩, -, -, -, id, -, order, -, epoch, -, rfl, rfl, -⟩ := h
  exact ⟨i, { i with state := .uninstalled, grantedCapabilities := [], revocationEpoch := epoch
                     version }, hFound, hExpected, hNext, rfl, rfl⟩

theorem InstallationAdvanced.guarded (hAdvanced : InstallationAdvanced t registry primary pluginId expected)
    (hPrimary : m.primary = primary) :
    Guarded t { t with registry } m (.installation pluginId) expected false := by
  obtain ⟨i, i', hFound, hExpected, hNext, hSet, hReported⟩ := hAdvanced
  refine .of_next (version_found hFound) hExpected hNext ?_ ?_
  · change (registry.installations.get? pluginId).map _ = _
    rw [hSet]
    exact version_stored hFound i'
  · rw [hPrimary]
    exact hReported

theorem handlePlugin_guarded [LinearOrder ν] {input : PluginInput} {row : GuardedRow}
    (hExpects : input.expectation = some (row, expected))
    (h : handlePlugin env packages tick t actor input = .ok (registry, primary, changes))
    (hPrimary : m.primary = primary) : Guarded t { t with registry } m row expected false := by
  cases input with
  | install manifest => cases hExpects
  | disable pluginId version reason => cases hExpects
  | enable pluginId digest grants version =>
    cases hExpects
    exact (enablePlugin_advanced h).guarded hPrimary
  | upgrade pluginId manifest version =>
    cases hExpects
    exact (upgradePlugin_advanced h).guarded hPrimary
  | uninstall pluginId version dataPolicy =>
    cases hExpects
    exact (uninstallPlugin_advanced h).guarded hPrimary

end Plugins

/-! ## Commands -/

theorem dispatchCommand_guarded {c : Command CommandInput}
    (hExpects : c.input.expectation = some (row, expected))
    (h : dispatchCommand env tick t c = .ok (t', m)) :
    Guarded t t' m row expected c.input.addsTwice := by
  unfold dispatchCommand at h
  dsimp only at h
  split at h
  all_goals
    rename_i hInput
    rw [hInput] at hExpects ⊢
  · cases hExpects
  · obtain ⟨id, hId, hPair⟩ := Option.map_eq_some_iff.mp hExpects
    cases hPair
    exact cancelRun_guarded hId h
  · obtain ⟨id, hId, hPair⟩ := Option.map_eq_some_iff.mp hExpects
    cases hPair
    exact decideApproval_guarded hId h
  · obtain ⟨c, hCurrency, hRest⟩ := Option.bind_eq_some_iff.mp hExpects
    obtain ⟨p, hPeriod, hPair⟩ := Option.map_eq_some_iff.mp hRest
    cases hPair
    exact configureBudget_guarded hCurrency hPeriod h
  · cases hExpects
  · obtain ⟨id, hId, hPair⟩ := Option.map_eq_some_iff.mp hExpects
    cases hPair
    exact dispatchEffect_guarded hId h
  · obtain ⟨id, hId, hPair⟩ := Option.map_eq_some_iff.mp hExpects
    cases hPair
    exact reconcileEffect_guarded hId h
  · cases hExpects
  · obtain ⟨id, hId, hPair⟩ := Option.map_eq_some_iff.mp hExpects
    cases hPair
    exact revokeConnection_guarded hId h
  · cases hExpects
  · obtain ⟨id, hId, hPair⟩ := Option.map_eq_some_iff.mp hExpects
    cases hPair
    exact revokeGrant_guarded hId h
  · cases hExpects

theorem Host.dispatch_guarded {h : Host ι ν ε} {c : Command (HostInput ε)}
    (hExpects : c.input.expectation t = some (row, expected))
    (hHandled : h.dispatch tick t c = .ok (t', m)) :
    Guarded t t' m row expected c.input.addsTwice := by
  unfold Host.dispatch at hHandled
  dsimp only at hHandled
  split at hHandled
  all_goals
    rename_i hInput
    rw [hInput] at hExpects ⊢
  · cases hExpects
  · cases hExpects
  · cases hExpects
  · cases hExpects
  · obtain ⟨⟨id, p⟩, hFound, hPair⟩ := Option.map_eq_some_iff.mp hExpects
    cases hPair
    exact compactProvider_guarded hFound hHandled
  · cases hExpects
  · cases hExpects
  · cases hExpects
  · obtain ⟨id, hId, hPair⟩ := Option.map_eq_some_iff.mp hExpects
    cases hPair
    exact reviewCatalog_guarded hId hHandled
  · obtain ⟨⟨principal, stored⟩, hOf, hPair⟩ := Option.map_eq_some_iff.mp hExpects
    obtain ⟨id, hId, hOf⟩ := Option.bind_eq_some_iff.mp hOf
    cases hPair
    exact (changeMembership_ok hHandled).guarded hId hOf
  · obtain ⟨⟨principal, stored⟩, hOf, hPair⟩ := Option.map_eq_some_iff.mp hExpects
    obtain ⟨id, hId, hOf⟩ := Option.bind_eq_some_iff.mp hOf
    cases hPair
    exact (revokeMembership_ok hHandled).guarded hId hOf
  · cases hExpects

end Handlers

end Masonwing
