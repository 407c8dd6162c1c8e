import Masonwing.Proofs.Acceptance
import Masonwing.Proofs.HostSteps
import Masonwing.Store.Invitations

/-!
# What the steps do to memberships and invitations

`membership.change` and `membership.revoke` of the host, and the operations on invitations beside
it, each read back as what it checks of the acting member and what it writes (`RolesChanged`,
`MembershipRevoked`, `MemberInvited`, `SecretRetrieved`, `InviteAccepted`). `EnrollmentMove` is the
case distinction over one step; every other step leaves the rows alone.
-/

namespace Masonwing

open Outcome

variable {ι ν ε : Type}

/-! ## Roles -/

/-- The outcome of normalizing a list of roles. -/
structure Normalized (roles normal : List String) : Prop where
  nonempty : normal ≠ []
  distinct : normal.Nodup
  allowed : ∀ role ∈ normal, role ∈ allowedRoles
  perm : normal.Perm roles

theorem normalizeRoles_ok {roles normal : List String} (h : normalizeRoles roles = .ok normal) :
    Normalized roles normal := by
  simp only [normalizeRoles, bind_eq_ok, require_eq_ok, pure_eq_ok, exists_const] at h
  obtain ⟨⟨hPositive, -⟩, hAllowed, hLength, rfl⟩ := h
  have hSorted := List.perm_insertionSort (fun a b : String => a ≤ b) roles
  have hSame := (List.dedup_sublist (roles.insertionSort fun a b => a ≤ b)).eq_of_length
    (hLength.trans hSorted.length_eq.symm)
  have hPerm : ((roles.insertionSort fun a b => a ≤ b).dedup).Perm roles := by
    rw [hSame]
    exact hSorted
  refine ⟨fun hEmpty => ?_, List.nodup_dedup _, fun role hRole => ?_, hPerm⟩
  · rw [hEmpty, List.length_nil] at hLength
    omega
  · exact hAllowed role (hPerm.mem_iff.mp hRole)

theorem Normalized.mem_iff {roles normal : List String} (h : Normalized roles normal)
    {role : String} : role ∈ normal ↔ role ∈ roles := h.perm.mem_iff

/-! ## The acting member -/

section Acting

variable {t : Tables} {actor : CommandActor} {own : MembershipRow}

/-- The membership of the acting principal, which is active. -/
def ActingMember (t : Tables) (actor : CommandActor) (own : MembershipRow) : Prop :=
  ∃ principal, Uuid.parse actor.principalId.text = some principal ∧
    t.identity.memberships.get? principal = some own ∧ own.status = .active

/-- Only an owner assigns roles that it does not hold itself. -/
def MayAssign (own : MembershipRow) (roles : List String) : Prop :=
  "OWNER" ∈ own.roles ∨ ("OWNER" ∉ roles ∧ ∀ role ∈ roles, role ∈ own.roles)

theorem beginActor_acting (h : beginActor t actor = .ok ()) : ∃ own, ActingMember t actor own := by
  obtain ⟨-, principal, own, -, hPrincipal, hFound, hActive, -⟩ := beginActor_ok h
  exact ⟨own, principal, okOr_eq_ok.mp hPrincipal, hFound, hActive⟩

theorem actorMembershipRoles_ok (hActing : ActingMember t actor own) {roles : List String}
    (h : actorMembershipRoles t actor = .ok roles) : roles = own.roles := by
  obtain ⟨principal, hPrincipal, hFound, hActive⟩ := hActing
  simp only [actorMembershipRoles, bind_eq_ok, parseUuid_eq_ok, pure_eq_ok] at h
  obtain ⟨principal', hPrincipal', -, -, rfl⟩ := h
  cases hPrincipal.symm.trans hPrincipal'
  rw [hFound, Option.filter_some, if_pos (decide_eq_true hActive)]
  rfl

theorem requireAssignableRoles_ok (hActing : ActingMember t actor own) {roles : List String}
    (h : requireAssignableRoles t actor roles = .ok ()) : MayAssign own roles := by
  simp only [requireAssignableRoles, bind_eq_ok, require_eq_ok] at h
  obtain ⟨held, hHeld, hMay⟩ := h
  rwa [actorMembershipRoles_ok hActing hHeld] at hMay

theorem requireActorCanManageOwner_ok (hActing : ActingMember t actor own) {roles : List String}
    (h : requireActorCanManageOwner t actor (roles.contains "OWNER") = .ok ())
    (hOwner : "OWNER" ∈ roles) : "OWNER" ∈ own.roles := by
  rw [requireActorCanManageOwner, if_pos (List.contains_iff_mem.mpr hOwner)] at h
  simp only [bind_eq_ok, require_eq_ok] at h
  obtain ⟨held, hHeld, hMember⟩ := h
  rwa [actorMembershipRoles_ok hActing hHeld] at hMember

end Acting

/-! ## Changing and revoking -/

section Changing

variable {t t' : Tables} {m : Mutation} {actor : CommandActor}

/-- The roles of a membership were replaced. -/
structure RolesChanged (t : Tables) (actor : CommandActor) (roles : List String) (target : Uuid)
    (row row' : MembershipRow) : Prop where
  acting : ∃ own, ActingMember t actor own ∧ MayAssign own roles ∧
    ("OWNER" ∈ row.roles → "OWNER" ∈ own.roles)
  found : t.identity.memberships.get? target = some row
  active : row.status = .active
  normalized : Normalized roles row'.roles
  role : row'.role ∈ row'.roles
  status : row'.status = .active
  membershipEpoch : row'.membershipEpoch = row.membershipEpoch + 1
  permissionEpoch : row'.permissionEpoch = row.permissionEpoch + 1
  owners : "OWNER" ∈ row.roles → "OWNER" ∉ row'.roles → 1 < (activeOwners t).length

/-- A membership was revoked; it keeps its roles. -/
structure MembershipRevoked (t : Tables) (actor : CommandActor) (target : Uuid)
    (row row' : MembershipRow) : Prop where
  acting : ∃ own, ActingMember t actor own ∧ ("OWNER" ∈ row.roles → "OWNER" ∈ own.roles)
  found : t.identity.memberships.get? target = some row
  active : row.status = .active
  roles : row'.roles = row.roles
  role : row'.role = row.role
  status : row'.status = .revoked
  membershipEpoch : row'.membershipEpoch = row.membershipEpoch + 1
  permissionEpoch : row'.permissionEpoch = row.permissionEpoch + 1
  owners : "OWNER" ∈ row.roles → 1 < (activeOwners t).length

/-- The row with both of its epochs advanced. -/
def MembershipRow.advanced (row : MembershipRow) : MembershipRow :=
  { row with membershipEpoch := row.membershipEpoch + 1
             permissionEpoch := row.permissionEpoch + 1 }

theorem writeMembership_epochs {principal : Uuid} {row : MembershipRow} {label : String}
    (h : writeMembership t principal row label = .ok (t', m)) :
    t'.identity = { t.identity with
      memberships := t.identity.memberships.set principal row.advanced } := by
  simp only [writeMembership, bind_eq_ok, sql_eq_ok, bigint_eq_ok, pure_eq_ok,
    Prod.mk.injEq] at h
  obtain ⟨epoch, ⟨-, rfl⟩, permissions, ⟨-, rfl⟩, rfl, -⟩ := h
  rfl

theorem changeMembership_rows {membershipId : String} {expected : Int} {roles : List String}
    (hActor : beginActor t actor = .ok ())
    (h : changeMembership t actor membershipId expected roles = .ok (t', m)) :
    ∃ target row row', RolesChanged t actor roles target row row' ∧
      t'.identity = { t.identity with memberships := t.identity.memberships.set target row' } := by
  obtain ⟨own, hActing⟩ := beginActor_acting hActor
  simp only [changeMembership, bind_eq_ok, okOr_eq_ok, parseUuid_eq_ok, require_eq_ok,
    Prod.exists, exists_const] at h
  obtain ⟨id, -, normal, hNormal, _, hAssignable, target, row, hFound, hActive, version, -, _,
    hManages, h⟩ := h
  have hNormalized := normalizeRoles_ok hNormal
  have hMay := requireAssignableRoles_ok hActing hAssignable
  -- the membership holds an owner, and stays one
  have hRest : ("OWNER" ∈ row.roles → "OWNER" ∉ normal → 1 < (activeOwners t).length) ∧
      ∃ role, normal.head? = some role ∧
        writeMembership t target { row with role, roles := normal, version } "Membership" =
          .ok (t', m) := by
    split at h
    · simp only [bind_eq_ok, okOr_eq_ok, ensureNotLastOwner, require_eq_ok, exists_const] at h
      obtain ⟨hOwners, hWrite⟩ := h
      exact ⟨fun _ _ => hOwners, hWrite⟩
    · rename_i hKeeps
      simp only [bind_eq_ok, okOr_eq_ok] at h
      refine ⟨fun hOwner hGone => ?_, h⟩
      rw [Bool.and_eq_true, Bool.not_eq_true', List.contains_iff_mem] at hKeeps
      have hAbsent : normal.contains "OWNER" = false := by
        rw [← Bool.not_eq_true, List.contains_iff_mem]
        exact hGone
      exact absurd ⟨hOwner, hAbsent⟩ hKeeps
  obtain ⟨hOwners, role, hRole, hWrite⟩ := hRest
  have hAssigned : MayAssign own roles := by
    rcases hMay with hOwner | ⟨hNot, hHeld⟩
    · exact Or.inl hOwner
    · exact Or.inr ⟨fun hMem => hNot (hNormalized.mem_iff.mpr hMem),
        fun r hr => hHeld r (hNormalized.mem_iff.mpr hr)⟩
  refine ⟨target, row, _, ?_, writeMembership_epochs hWrite⟩
  exact { acting := ⟨own, hActing, hAssigned, requireActorCanManageOwner_ok hActing hManages⟩
          found := (Table.find?_some hFound).1
          active := hActive
          normalized := hNormalized
          role := List.mem_of_head? hRole
          status := hActive
          membershipEpoch := rfl
          permissionEpoch := rfl
          owners := hOwners }

theorem revokeMembership_rows {membershipId : String} {expected : Int}
    (hActor : beginActor t actor = .ok ())
    (h : revokeMembership t actor membershipId expected = .ok (t', m)) :
    ∃ target row row', MembershipRevoked t actor target row row' ∧
      t'.identity = { t.identity with memberships := t.identity.memberships.set target row' } := by
  obtain ⟨own, hActing⟩ := beginActor_acting hActor
  simp only [revokeMembership, bind_eq_ok, okOr_eq_ok, parseUuid_eq_ok, require_eq_ok,
    Prod.exists, exists_const] at h
  obtain ⟨id, -, target, row, hFound, hActive, version, -, _, hManages, h⟩ := h
  have hRest : ("OWNER" ∈ row.roles → 1 < (activeOwners t).length) ∧
      writeMembership t target { row with status := .revoked, version } "Revoked membership" =
        .ok (t', m) := by
    split at h
    · simp only [bind_eq_ok, ensureNotLastOwner, require_eq_ok, exists_const] at h
      exact ⟨fun _ => h.1, h.2.2⟩
    · rename_i hNotOwner
      simp only [bind_eq_ok, require_eq_ok, exists_const] at h
      exact ⟨fun hOwner => absurd (List.contains_iff_mem.mpr hOwner) hNotOwner, h.2⟩
  obtain ⟨hOwners, hWrite⟩ := hRest
  refine ⟨target, row, _, ?_, writeMembership_epochs hWrite⟩
  exact { acting := ⟨own, hActing, requireActorCanManageOwner_ok hActing hManages⟩
          found := (Table.find?_some hFound).1
          active := hActive
          roles := rfl
          role := rfl
          status := rfl
          membershipEpoch := rfl
          permissionEpoch := rfl
          owners := hOwners }

end Changing

/-! ## The host -/

section HostSteps

variable {tick : Tick} {t t' : Tables}

theorem Change.identity {env : Env} {a : Act} (h : Change env tick t a t') :
    t'.identity = t.identity := by
  cases h <;> rfl

theorem PlatformOutcome.identity {p : Platform ι} {op : PlatformOperation ι}
    (h : PlatformOutcome p tick t op t') : t'.identity = t.identity := by
  cases h with
  | unchanged => rfl
  | command hActor hAuthorized hHandled hJournal hRecorded =>
    obtain ⟨a, -, hChange⟩ := dispatchCommand_change t.journal (beginActor_ok hActor).1 hHandled
    exact hChange.identity
  | further hHandled hRecorded =>
    unfold Platform.dispatch at hHandled
    split at hHandled
    · obtain ⟨digest, registry, runs, -, -, rfl, -⟩ := revokePlugin_ok hHandled
      rfl
    · obtain ⟨j, id, rights, requests, -, -, rfl, -⟩ := requestDeletion_ok hHandled
      rfl
    · obtain ⟨registry, rfl, -⟩ := Lifecycle.run_ok hHandled
      rfl
  | contained hContained hOp => rfl
  | system hCall => exact (runSystemCall_change hCall).identity
  | checkpoint hRecord =>
    rcases recordRunCheckpoint_ok hRecord with ⟨-, rfl⟩ | ⟨-, row, checkpoints, -, rfl, -⟩
    · rfl
    · rfl

/-- What a step of the host does to the memberships. -/
inductive HostMembers (t : Tables) : HostOperation ι ε → Tables → Prop
  | kept {op : HostOperation ι ε} {t' : Tables} (hIdentity : t'.identity = t.identity) :
      HostMembers t op t'
  | changed {c : Command (HostInput ε)} {membershipId : String} {expected : Int}
      {roles : List String} {target : Uuid} {row row' : MembershipRow} {t' : Tables}
      (hInput : c.input = .membershipChange membershipId expected roles)
      (hChanged : RolesChanged t c.actor roles target row row')
      (hIdentity : t'.identity = { t.identity with
        memberships := t.identity.memberships.set target row' }) : HostMembers t (.command c) t'
  | revoked {c : Command (HostInput ε)} {membershipId : String} {expected : Int} {target : Uuid}
      {row row' : MembershipRow} {t' : Tables}
      (hInput : c.input = .membershipRevoke membershipId expected)
      (hRevoked : MembershipRevoked t c.actor target row row')
      (hIdentity : t'.identity = { t.identity with
        memberships := t.identity.memberships.set target row' }) : HostMembers t (.command c) t'

theorem Host.dispatch_members {h : Host ι ν ε} {c : Command (HostInput ε)} {m : Mutation}
    (hActor : beginActor t c.actor = .ok ()) (hHandled : h.dispatch tick t c = .ok (t', m))
    (j : Journal) : HostMembers t (.command c : HostOperation ι ε) { t' with journal := j } := by
  unfold Host.dispatch at hHandled
  dsimp only at hHandled
  split at hHandled
  · obtain ⟨a, u, artifacts, uploads, -, -, -, -, rfl, -⟩ := beginArtifact_ok hHandled
    exact .kept rfl
  · obtain ⟨id, upload, u, a, version, uploadVersion, rights, -, -, -, -, -, rfl, -⟩ :=
      finalizeArtifact_ok hHandled
    exact .kept rfl
  · obtain ⟨input, j, rights, -, -, rfl, -⟩ := invokePlugin_ok hHandled
    exact .kept rfl
  · obtain ⟨profileId, profiles, rfl, -⟩ := configureProvider_ok hHandled
    exact .kept rfl
  · obtain ⟨id, p, version, next, value, label, -, -, -, -, rfl, -⟩ := compactProvider_ok hHandled
    exact .kept rfl
  · obtain ⟨authorizations, rfl, -⟩ := authorizeConnection_ok hHandled
    exact .kept rfl
  · obtain ⟨id, o, -, -, -, rfl, -⟩ := replayDeadletter_ok hHandled
    exact .kept rfl
  · obtain ⟨listings, rfl, -⟩ := submitCatalog_ok hHandled
    exact .kept rfl
  · obtain ⟨id, l, l', guarded, version, value, label, -, -, -, -, -, rfl, -⟩ :=
      reviewCatalog_ok hHandled
    exact .kept rfl
  · rename_i hInput
    obtain ⟨target, row, row', hChanged, hIdentity⟩ := changeMembership_rows hActor hHandled
    exact .changed hInput hChanged hIdentity
  · rename_i hInput
    obtain ⟨target, row, row', hRevoked, hIdentity⟩ := revokeMembership_rows hActor hHandled
    exact .revoked hInput hRevoked hIdentity
  · obtain ⟨rfl, -⟩ := Host.runExtension_ok hHandled
    exact .kept rfl

theorem HostOutcome.members {h : Host ι ν ε} {attempts attempts' : List UploadAttempt}
    {op : HostOperation ι ε} (hOutcome : HostOutcome h tick t attempts op t' attempts') :
    HostMembers t op t' := by
  cases hOutcome with
  | unchanged => exact .kept rfl
  | platform hOutcome => exact .kept hOutcome.identity
  | command hActor hAuthorized hHandled hRecorded =>
    exact Host.dispatch_members hActor hHandled _
  | contained hContained => exact .kept rfl
  | claimed hClaimed =>
    obtain ⟨u, u', a, -, -, -, -, -, rfl⟩ := claimUpload_ok hClaimed
    exact .kept rfl
  | completed hAttempt hCompleted =>
    obtain ⟨u, u', act, j, j', tenant, expires, state, label, version, -, -, -, -, -, rfl⟩ :=
      completeUpload_ok hCompleted
    exact .kept rfl

end HostSteps

/-! ## Invitations -/

section Invitations

variable {e : Enrollment ι ν ε} {tick : Tick} {s s' : EnrollmentState}

/-- The digest of an invitation is that of the token derived for it. -/
def Enrollment.TokenDerived (e : Enrollment ι ν ε) (tenant id : Uuid) (i : InviteRow) : Prop :=
  i.tokenDigest = e.env.digestBytes
    (utf8 (e.inviteKey.deriveToken id tenant (Int.fdiv i.expiresAt secondMicroseconds)))

/-- A command that invited somebody. -/
structure MemberInvited (e : Enrollment ι ν ε) (tick : Tick) (s s' : EnrollmentState)
    (c : Command MembershipInvite) (i : InviteRow) : Prop where
  acting : ∃ own, ActingMember s.tables c.actor own ∧ MayAssign own c.input.roles
  normalized : Normalized c.input.roles i.roles
  email : normalizeEmail c.input.email = .ok i.emailNormalized
  derived : e.TokenDerived s.tables.identity.tenantId (tick.draw .invitation) i
  unretrieved : i.secretRetrievedAt = none
  unconsumed : i.consumption = none
  inserted : s.invites.insert? (tick.draw .invitation) i = some s'.invites
  identity : s'.tables.identity = s.tables.identity
  acceptances : s'.acceptances = s.acceptances

theorem inviteMembership_ok {env : Env} {key : InviteTokenKey} {t : Tables}
    {invites invites' : Table Uuid InviteRow} {actor : CommandActor} {input : MembershipInvite}
    {m : Mutation} (hActor : beginActor t actor = .ok ())
    (h : inviteMembership env key tick t invites actor input = .ok (invites', m)) :
    ∃ i, invites.insert? (tick.draw .invitation) i = some invites' ∧
      (∃ own, ActingMember t actor own ∧ MayAssign own input.roles) ∧
      Normalized input.roles i.roles ∧ normalizeEmail input.email = .ok i.emailNormalized ∧
      i.tokenDigest = env.digestBytes (utf8 (key.deriveToken (tick.draw .invitation)
        t.identity.tenantId (Int.fdiv i.expiresAt secondMicroseconds))) ∧
      i.secretRetrievedAt = none ∧ i.consumption = none := by
  obtain ⟨own, hActing⟩ := beginActor_acting hActor
  simp only [beginActor, bind_eq_ok, parseUuid_eq_ok, require_eq_ok, exists_const] at hActor
  obtain ⟨tenant, hTenant, -, -, ⟨hSame, -⟩, -⟩ := hActor
  simp only [inviteMembership, inviteExpiry, bind_eq_ok, parseUuid_eq_ok, require_eq_ok, sql_eq_ok,
    insertRow_eq_ok, pure_eq_ok, Prod.mk.injEq, exists_const] at h
  obtain ⟨tenant', hTenant', createdBy, -, email, hEmail, normal, hNormal, _, hAssignable, seconds,
    ⟨-, -, rfl⟩, -, -, invites'', hInsert, rfl, -⟩ := h
  cases hTenant.symm.trans hTenant'
  have hNormalized := normalizeRoles_ok hNormal
  have hMay : MayAssign own input.roles := by
    rcases requireAssignableRoles_ok hActing hAssignable with hOwner | ⟨hNot, hHeld⟩
    · exact Or.inl hOwner
    · exact Or.inr ⟨fun hMem => hNot (hNormalized.mem_iff.mpr hMem),
        fun r hr => hHeld r (hNormalized.mem_iff.mpr hr)⟩
  refine ⟨_, hInsert, ⟨own, hActing, hMay⟩, hNormalized, hEmail, ?_, rfl, rfl⟩
  dsimp only
  rw [Int.mul_fdiv_cancel _ (by decide), hSame]

/-- An invitation command was answered from its receipt, or it invited somebody. -/
theorem runInvite_ok {c : Command MembershipInvite} {a : Answer}
    (h : e.runInvite tick s c = .ok (s', a)) :
    (s' = s ∧ ∃ receipt, a = .replayed receipt) ∨ ∃ i, MemberInvited e tick s s' c i := by
  simp only [Enrollment.runInvite, bind_eq_ok, Prod.exists] at h
  obtain ⟨store, answer, hExecute, h⟩ := h
  obtain ⟨principal, hAdmit, ⟨row, -, -, rfl, rfl⟩ | ⟨-, t, m, receipt, hCommitted, rfl⟩⟩ :=
    execute_ok hExecute
  · cases h
    exact Or.inl ⟨rfl, _, rfl⟩
  · simp only [bind_eq_ok, Prod.exists, pure_eq_ok, Prod.mk.injEq] at h
    obtain ⟨invites, m', hInvite, rfl, -⟩ := h
    obtain ⟨hActor, -⟩ := admitCommand_ok hAdmit
    obtain ⟨i, hInsert, hActing, hNormalized, hEmail, hDerived, hUnretrieved, hUnconsumed⟩ :=
      inviteMembership_ok hActor hInvite
    have hHandled := hCommitted.handled
    simp only [Enrollment.inviteService, bind_eq_ok, Prod.exists, pure_eq_ok,
      Prod.mk.injEq] at hHandled
    obtain ⟨-, -, -, rfl, -⟩ := hHandled
    have hIdentity : store.tables.identity = s.tables.identity := by
      rw [hCommitted.tables]
      rfl
    exact Or.inr ⟨i, hActing, hNormalized, hEmail, hDerived, hUnretrieved, hUnconsumed, hInsert,
      hIdentity, rfl⟩

/-- The secret of an invitation was handed out. -/
structure SecretRetrieved (e : Enrollment ι ν ε) (tick : Tick) (s s' : EnrollmentState)
    (inviteId : Uuid) (i : InviteRow) (token : String) : Prop where
  found : s.invites.get? inviteId = some i
  unexpired : tick.now < i.expiresAt
  unconsumed : i.consumption = none
  unretrieved : i.secretRetrievedAt = none
  token : token = e.inviteKey.deriveToken inviteId s.tables.identity.tenantId
    (Int.fdiv i.expiresAt secondMicroseconds)
  invites : s'.invites = s.invites.set inviteId { i with secretRetrievedAt := some tick.now }
  identity : s'.tables.identity = s.tables.identity
  acceptances : s'.acceptances = s.acceptances

theorem retrieveMembershipInviteSecret_ok {actor : CommandActor} {inviteId : Uuid}
    {token : String}
    (h : e.retrieveMembershipInviteSecret tick s actor inviteId = .ok (s', token)) :
    ∃ i, SecretRetrieved e tick s s' inviteId i token := by
  simp only [Enrollment.retrieveMembershipInviteSecret, bind_eq_ok, parseUuid_eq_ok, okOr_eq_ok,
    require_eq_ok, sql_eq_ok, insertRow_eq_ok, pure_eq_ok, Prod.mk.injEq, exists_const,
    Option.isNone_iff_eq_none] at h
  obtain ⟨tenant, hTenant, principal, -, _, hActor, i, hFound, hUnexpired, hUnconsumed,
    hUnretrieved, _, -, -, audit, -, rfl, rfl⟩ := h
  simp only [beginActor, bind_eq_ok, parseUuid_eq_ok, require_eq_ok, exists_const] at hActor
  obtain ⟨tenant', hTenant', -, -, ⟨hSame, -⟩, -⟩ := hActor
  cases hTenant.symm.trans hTenant'
  exact ⟨i, hFound, hUnexpired, hUnconsumed, hUnretrieved, by rw [hSame], rfl, rfl, rfl⟩

/-- An invitation was accepted. -/
structure InviteAccepted (e : Enrollment ι ν ε) (tick : Tick) (s s' : EnrollmentState)
    (c : MembershipAcceptCommand) (inviteId : Uuid) (i i' : InviteRow) (m : MembershipRow)
    (receipt : CommandReceipt) : Prop where
  named : ∃ claims, e.inviteKey.verifyToken c.inviteToken = .ok claims ∧ claims.inviteId = inviteId
  found : s.invites.get? inviteId = some i
  unexpired : tick.now < i.expiresAt
  unconsumed : i.consumption = none
  digest : i.tokenDigest = e.env.digestBytes (utf8 c.inviteToken)
  verified : Enrollment.verifiedEmail s c.identity = .ok i.emailNormalized
  newcomer : s.memberships.get? c.identity.principalId = none
  normalized : Normalized i.roles m.roles
  role : m.role ∈ m.roles
  status : m.status = .active
  membershipEpoch : m.membershipEpoch = 1
  permissionEpoch : m.permissionEpoch = 1
  admitted : ∃ memberships, s.memberships.insert? c.identity.principalId m = some memberships ∧
    s'.tables.identity = { s.tables.identity with memberships }
  kept : i'.roles = i.roles ∧ i'.tokenDigest = i.tokenDigest ∧ i'.expiresAt = i.expiresAt ∧
    i'.secretRetrievedAt = i.secretRetrievedAt
  consumed : i'.consumption = some { consumedAt := tick.now
                                     consumedBy := c.identity.principalId
                                     membershipId := m.membershipId }
  invites : s'.invites = s.invites.set inviteId i'
  acceptances : s.acceptances.insert? (Enrollment.acceptKey c)
    { fingerprint := c.fingerprint, commandId := tick.draw .command, receipt
      expiresAt := tick.stampedAt + dayMicroseconds } = some s'.acceptances

/-- An acceptance was answered from the receipt of an earlier one. -/
structure AcceptReplayed (tick : Tick) (s : EnrollmentState) (c : MembershipAcceptCommand)
    (row : ReceiptRow) : Prop where
  found : s.acceptances.get? (Enrollment.acceptKey c) = some row
  unexpired : tick.now < row.expiresAt
  fingerprint : row.fingerprint = c.fingerprint
  active : ∃ m, s.memberships.get? c.identity.principalId = some m ∧ m.status = .active

theorem executeMembershipAccept_ok {c : MembershipAcceptCommand} {a : Answer}
    (h : e.executeMembershipAccept tick s c = .ok (s', a)) :
    (∃ row, AcceptReplayed tick s c row ∧ s' = s ∧ a = .replayed row.receipt) ∨
      ∃ inviteId i i' m receipt, InviteAccepted e tick s s' c inviteId i i' m receipt ∧
        a = .committed receipt := by
  simp only [Enrollment.executeMembershipAccept, bind_eq_ok, okOr_eq_ok, require_eq_ok,
    exists_const] at h
  obtain ⟨-, fingerprint, -, -, claims, hClaims, -, -, email, hEmail, h⟩ := h
  split at h
  · rename_i row hLive
    rw [Option.filter_eq_some_iff, decide_eq_true_eq] at hLive
    simp only [Enrollment.replayAcceptance, bind_eq_ok, require_eq_ok, pure_eq_ok, Prod.mk.injEq,
      exists_const] at h
    obtain ⟨hSame, hActive, -, rfl, rfl⟩ := h
    have hMember : ∃ m, s.memberships.get? c.identity.principalId = some m ∧
        m.status = .active := by
      cases hFound : s.memberships.get? c.identity.principalId with
      | none =>
        rw [hFound] at hActive
        cases hActive
      | some m =>
        rw [hFound] at hActive
        exact ⟨m, rfl, of_decide_eq_true hActive⟩
    exact Or.inl ⟨row, ⟨hLive.1, hLive.2, hSame, hMember⟩, rfl, rfl⟩
  · simp only [bind_eq_ok, Enrollment.openInvite, Enrollment.admitMember, okOr_eq_ok,
      require_eq_ok, sql_eq_ok, insertRow_eq_ok, pure_eq_ok, Prod.mk.injEq, exists_const,
      Option.isNone_iff_eq_none] at h
    obtain ⟨_, ⟨-, i, hFound, ⟨-, hUnexpired⟩, hUnconsumed, hDigest, rfl, rfl⟩, normal, hNormal,
      hNew, role, hRole, -, memberships, hInsert, version, -, policy, -, journal, -, -,
      acceptances, hAccept, rfl, rfl⟩ := h
    refine Or.inr ⟨claims.inviteId, i,
      Enrollment.consumedInvite tick i c.identity.principalId version,
      Enrollment.acceptedMembership tick role normal, _, ?_, rfl⟩
    exact { named := ⟨claims, hClaims, rfl⟩
            found := hFound
            unexpired := hUnexpired
            unconsumed := hUnconsumed
            digest := hDigest
            verified := hEmail
            newcomer := Table.get?_eq_none_of_not_contains hNew
            normalized := normalizeRoles_ok hNormal
            role := List.mem_of_head? hRole
            status := rfl
            membershipEpoch := rfl
            permissionEpoch := rfl
            admitted := ⟨memberships, hInsert, rfl⟩
            kept := ⟨rfl, rfl, rfl, rfl⟩
            consumed := rfl
            invites := rfl
            acceptances := hAccept }

end Invitations

/-! ## Steps -/

/-- What a step does to memberships, invitations and the receipts of acceptances. -/
inductive EnrollmentMove (e : Enrollment ι ν ε) (tick : Tick) (s : EnrollmentState) :
    EnrollmentOperation ι ε → EnrollmentState → Prop
  | kept {op : EnrollmentOperation ι ε} {s' : EnrollmentState}
      (hIdentity : s'.tables.identity = s.tables.identity) (hInvites : s'.invites = s.invites)
      (hAcceptances : s'.acceptances = s.acceptances) : EnrollmentMove e tick s op s'
  | changed {c : Command (HostInput ε)} {membershipId : String} {expected : Int}
      {roles : List String} {target : Uuid} {row row' : MembershipRow} {s' : EnrollmentState}
      (hInput : c.input = .membershipChange membershipId expected roles)
      (hChanged : RolesChanged s.tables c.actor roles target row row')
      (hIdentity : s'.tables.identity = { s.tables.identity with
        memberships := s.memberships.set target row' }) (hInvites : s'.invites = s.invites)
      (hAcceptances : s'.acceptances = s.acceptances) :
      EnrollmentMove e tick s (.host (.command c)) s'
  | revoked {c : Command (HostInput ε)} {membershipId : String} {expected : Int} {target : Uuid}
      {row row' : MembershipRow} {s' : EnrollmentState}
      (hInput : c.input = .membershipRevoke membershipId expected)
      (hRevoked : MembershipRevoked s.tables c.actor target row row')
      (hIdentity : s'.tables.identity = { s.tables.identity with
        memberships := s.memberships.set target row' }) (hInvites : s'.invites = s.invites)
      (hAcceptances : s'.acceptances = s.acceptances) :
      EnrollmentMove e tick s (.host (.command c)) s'
  | invited {c : Command MembershipInvite} {i : InviteRow} {s' : EnrollmentState}
      (hInvited : MemberInvited e tick s s' c i) : EnrollmentMove e tick s (.invite c) s'
  | retrieved {actor : CommandActor} {inviteId : Uuid} {i : InviteRow} {token : String}
      {s' : EnrollmentState} (hRetrieved : SecretRetrieved e tick s s' inviteId i token) :
      EnrollmentMove e tick s (.retrieveSecret actor inviteId) s'
  | accepted {c : MembershipAcceptCommand} {inviteId : Uuid} {i i' : InviteRow}
      {m : MembershipRow} {receipt : CommandReceipt} {s' : EnrollmentState}
      (hAccepted : InviteAccepted e tick s s' c inviteId i i' m receipt) :
      EnrollmentMove e tick s (.accept c) s'

section Steps

variable {e : Enrollment ι ν ε} {tick : Tick} {s s' : EnrollmentState}

theorem runEnrollmentOperation_move {op : EnrollmentOperation ι ε} {reply : EnrollmentReply}
    (h : runEnrollmentOperation e tick s op = .ok (s', reply)) : EnrollmentMove e tick s op s' := by
  cases op with
  | host op =>
    simp only [runEnrollmentOperation, bind_eq_ok, Prod.exists, pure_eq_ok, Prod.mk.injEq] at h
    obtain ⟨host, reply', hRun, rfl, -⟩ := h
    cases (runHostOperation_outcome hRun).members with
    | kept hIdentity => exact .kept hIdentity rfl rfl
    | changed hInput hChanged hIdentity => exact .changed hInput hChanged hIdentity rfl rfl
    | revoked hInput hRevoked hIdentity => exact .revoked hInput hRevoked hIdentity rfl rfl
  | invite c =>
    simp only [runEnrollmentOperation, bind_eq_ok, Prod.exists, pure_eq_ok, Prod.mk.injEq] at h
    obtain ⟨s'', a, hRun, rfl, -⟩ := h
    rcases runInvite_ok hRun with ⟨rfl, -⟩ | ⟨i, hInvited⟩
    · exact .kept rfl rfl rfl
    · exact .invited hInvited
  | retrieveSecret actor inviteId =>
    simp only [runEnrollmentOperation, bind_eq_ok, Prod.exists, pure_eq_ok, Prod.mk.injEq] at h
    obtain ⟨s'', token, hRun, rfl, -⟩ := h
    obtain ⟨i, hRetrieved⟩ := retrieveMembershipInviteSecret_ok hRun
    exact .retrieved hRetrieved
  | accept c =>
    simp only [runEnrollmentOperation, bind_eq_ok, Prod.exists, pure_eq_ok, Prod.mk.injEq] at h
    obtain ⟨s'', a, hRun, rfl, -⟩ := h
    rcases executeMembershipAccept_ok hRun with ⟨row, -, rfl, -⟩ |
      ⟨inviteId, i, i', m, receipt, hAccepted, -⟩
    · exact .kept rfl rfl rfl
    · exact .accepted hAccepted
  | login issuer subject email emailVerified =>
    simp only [runEnrollmentOperation, bind_eq_ok, Prod.exists, pure_eq_ok, Prod.mk.injEq] at h
    obtain ⟨s'', id, hRun, rfl, -⟩ := h
    unfold Enrollment.upsertVerifiedIdentity at hRun
    dsimp only at hRun
    split at hRun
    · cases hRun
      exact .kept rfl rfl rfl
    · simp only [bind_eq_ok, pure_eq_ok, Prod.mk.injEq] at hRun
      obtain ⟨identities, -, rfl, -⟩ := hRun
      exact .kept rfl rfl rfl

theorem enrollmentStep_move (e : Enrollment ι ν ε) (s : EnrollmentState)
    (c : EnrollmentCall ι ε) : EnrollmentMove e c.tick s c.operation (enrollmentStep e s c).1 := by
  rcases transact_cases s (runEnrollmentOperation e c.tick s c.operation) with
    ⟨s', reply, hOk, hStep⟩ | ⟨failure, -, hStep⟩
  · have hEq : enrollmentStep e s c = (s', .ok reply) := hStep
    rw [hEq]
    exact runEnrollmentOperation_move hOk
  · have hEq : enrollmentStep e s c = (s, .error failure) := hStep
    rw [hEq]
    exact .kept rfl rfl rfl

end Steps

end Masonwing
