import Masonwing.Lib.Growth
import Masonwing.Proofs.Evaluation
import Masonwing.Proofs.MembershipSteps

/-!
# Owners, epochs and roles of the memberships

* `last_owner_stays`: a tenant with an active owner keeps one, whatever its members do to each other;
* `authority_goes_stale`: every change of the roles or the status of a membership advances both of
  its epochs, so that an actor from before the change is refused from then on, and every membership
  stays one that the evaluator of policies accepts.
-/

namespace Masonwing

open Outcome

variable {ι ν ε : Type}

/-! ## The last owner -/

def MembershipRow.Owns (m : MembershipRow) : Prop := m.status = .active ∧ "OWNER" ∈ m.roles

def EnrollmentState.HasOwner (s : EnrollmentState) : Prop :=
  ∃ principal m, s.memberships.get? principal = some m ∧ m.Owns

/-- Of two owners one is not the target. -/
theorem exists_other_owner {t : Tables} (h : 1 < (activeOwners t).length) (target : Uuid) :
    ∃ principal m, principal ≠ target ∧ t.identity.memberships.get? principal = some m ∧
      m.Owns := by
  have hOwner : ∀ p ∈ activeOwners t, t.identity.memberships.get? p.1 = some p.2 ∧ p.2.Owns := by
    rintro ⟨k, m⟩ hp
    obtain ⟨hGet, hOwns⟩ := Table.mem_select.mp hp
    rw [Bool.and_eq_true, decide_eq_true_eq, List.contains_iff_mem] at hOwns
    exact ⟨hGet, hOwns⟩
  have hDistinct : ((activeOwners t).map Prod.fst).Nodup :=
    t.identity.memberships.nodup.sublist (List.filter_sublist.map Prod.fst)
  cases hList : activeOwners t with
  | nil =>
    rw [hList, List.length_nil] at h
    omega
  | cons p rest =>
    cases rest with
    | nil =>
      rw [hList, List.length_singleton] at h
      omega
    | cons q rest =>
      rw [hList] at hDistinct hOwner
      have hNe : p.1 ≠ q.1 := by
        intro hSame
        rw [List.map_cons, List.nodup_cons] at hDistinct
        exact hDistinct.1 (hSame ▸ List.mem_cons_self)
      by_cases hTarget : p.1 = target
      · refine ⟨q.1, q.2, fun hq => hNe (hTarget.trans hq.symm), ?_⟩
        exact hOwner q (List.mem_cons_of_mem _ List.mem_cons_self)
      · exact ⟨p.1, p.2, hTarget, hOwner p List.mem_cons_self⟩

/-- An owner stays if it is not the one that is written, or is written as an owner. -/
theorem owner_after_set {ms : Table Uuid MembershipRow} {target : Uuid} {row row' : MembershipRow}
    (hFound : ms.get? target = some row) {principal : Uuid} {m : MembershipRow}
    (hm : ms.get? principal = some m) (hOwns : m.Owns)
    (hWritten : principal = target → row'.Owns) :
    ∃ k q, (ms.set target row').get? k = some q ∧ q.Owns := by
  by_cases hTarget : principal = target
  · exact ⟨target, row', Table.get?_set_self hFound row', hWritten hTarget⟩
  · exact ⟨principal, m, (Table.get?_set_ne _ hTarget row').trans hm, hOwns⟩

section Owners

variable {e : Enrollment ι ν ε} {tick : Tick} {s s' : EnrollmentState}

theorem memberships_of_identity {memberships : Table Uuid MembershipRow}
    (h : s'.tables.identity = { s.tables.identity with memberships }) :
    s'.memberships = memberships := congrArg Identity.memberships h

theorem EnrollmentMove.hasOwner {op : EnrollmentOperation ι ε} (h : EnrollmentMove e tick s op s')
    (hOwner : s.HasOwner) : s'.HasOwner := by
  obtain ⟨principal, m, hm, hOwns⟩ := hOwner
  have hKept : s'.tables.identity = s.tables.identity → s'.HasOwner := by
    intro hIdentity
    refine ⟨principal, m, ?_, hOwns⟩
    rw [memberships_of_identity (s := s) hIdentity]
    exact hm
  cases h with
  | kept hIdentity hInvites hAcceptances => exact hKept hIdentity
  | @changed c membershipId expected roles target row row' s' hInput hChanged hIdentity hInvites
      hAcceptances =>
    unfold EnrollmentState.HasOwner
    rw [memberships_of_identity hIdentity]
    by_cases hStays : "OWNER" ∈ row'.roles
    · exact owner_after_set hChanged.found hm hOwns fun _ => ⟨hChanged.status, hStays⟩
    · by_cases hTarget : principal = target
      · subst hTarget
        cases hm.symm.trans hChanged.found
        obtain ⟨other, q, hOther, hq, hOwnsToo⟩ :=
          exists_other_owner (hChanged.owners hOwns.2 hStays) principal
        exact owner_after_set hChanged.found hq hOwnsToo fun hSame => absurd hSame hOther
      · exact owner_after_set hChanged.found hm hOwns fun hSame => absurd hSame hTarget
  | @revoked c membershipId expected target row row' s' hInput hRevoked hIdentity hInvites
      hAcceptances =>
    unfold EnrollmentState.HasOwner
    rw [memberships_of_identity hIdentity]
    by_cases hTarget : principal = target
    · subst hTarget
      cases hm.symm.trans hRevoked.found
      obtain ⟨other, q, hOther, hq, hOwnsToo⟩ :=
        exists_other_owner (hRevoked.owners hOwns.2) principal
      exact owner_after_set hRevoked.found hq hOwnsToo fun hSame => absurd hSame hOther
    · exact owner_after_set hRevoked.found hm hOwns fun hSame => absurd hSame hTarget
  | invited hInvited => exact hKept hInvited.identity
  | retrieved hRetrieved => exact hKept hRetrieved.identity
  | accepted hAccepted =>
    obtain ⟨memberships, hInsert, hIdentity⟩ := hAccepted.admitted
    unfold EnrollmentState.HasOwner
    rw [memberships_of_identity hIdentity]
    exact ⟨principal, m, Table.insert?_get?_of_some hInsert hm, hOwns⟩

end Owners

/-- A tenant with an active owner has one after every run. -/
theorem last_owner_stays (e : Enrollment ι ν ε) {s : EnrollmentState} (h : s.HasOwner)
    (calls : List (EnrollmentCall ι ε)) : (Machine.run (enrollmentStep e) s calls).HasOwner :=
  Machine.run_invariant (enrollmentStep e) (fun s c hs => (enrollmentStep_move e s c).hasOwner hs) h
    calls

namespace Sample

/-- The only owner tries to revoke itself. -/
def resignation : EnrollmentCall Empty Empty :=
  onHost (hostCommand 1 (.membershipRevoke (uuid 10).toText 1))

end Sample

theorem resigned_owner_stays : (Sample.fromReception [Sample.resignation]).HasOwner :=
  last_owner_stays Sample.enrollment
    ⟨Sample.principalId, ⟨.active, "OWNER", ["OWNER"], 1, 1, Sample.uuid 10, .one⟩, rfl, rfl,
      by decide⟩ [Sample.resignation]

/-! ## Epochs -/

/-- The row is not behind the other one, and it is ahead if its roles or its status differ. -/
structure MembershipRow.Follows (m' m : MembershipRow) : Prop where
  membershipEpoch : m.membershipEpoch ≤ m'.membershipEpoch
  permissionEpoch : m.permissionEpoch ≤ m'.permissionEpoch
  advances : m'.roles ≠ m.roles ∨ m'.status ≠ m.status →
    m.membershipEpoch < m'.membershipEpoch ∧ m.permissionEpoch < m'.permissionEpoch

theorem MembershipRow.Follows.refl (m : MembershipRow) : m.Follows m :=
  ⟨le_refl _, le_refl _, fun h => by simp at h⟩

theorem MembershipRow.Follows.of_advanced {m m' : MembershipRow}
    (hMembership : m'.membershipEpoch = m.membershipEpoch + 1)
    (hPermission : m'.permissionEpoch = m.permissionEpoch + 1) : m'.Follows m := by
  refine ⟨?_, ?_, fun _ => ⟨?_, ?_⟩⟩
  all_goals omega

/-- No membership is lost, and each follows what it was. -/
def MembersFollow (ms ms' : Table Uuid MembershipRow) : Prop :=
  ∀ principal m, ms.get? principal = some m → ∃ m', ms'.get? principal = some m' ∧ m'.Follows m

theorem MembersFollow.refl (ms : Table Uuid MembershipRow) : MembersFollow ms ms :=
  fun _ m hm => ⟨m, hm, .refl m⟩

theorem MembersFollow.set {ms : Table Uuid MembershipRow} {target : Uuid}
    {row row' : MembershipRow} (hFound : ms.get? target = some row) (hFollows : row'.Follows row) :
    MembersFollow ms (ms.set target row') := by
  intro principal m hm
  by_cases hTarget : principal = target
  · subst hTarget
    cases hm.symm.trans hFound
    exact ⟨row', Table.get?_set_self hFound row', hFollows⟩
  · exact ⟨m, (Table.get?_set_ne _ hTarget row').trans hm, .refl m⟩

/-- What the policies are told of a member is an entity that their evaluator accepts. -/
structure MembershipRow.WellFormed (m : MembershipRow) : Prop where
  nonempty : m.roles ≠ []
  distinct : m.roles.Nodup
  allowed : ∀ role ∈ m.roles, role ∈ allowedRoles
  role : m.role ∈ m.roles
  membershipEpoch : 0 < m.membershipEpoch
  permissionEpoch : 0 < m.permissionEpoch

def EnrollmentState.MembersWellFormed (s : EnrollmentState) : Prop :=
  ∀ principal m, s.memberships.get? principal = some m → m.WellFormed

section Epochs

variable {e : Enrollment ι ν ε} {tick : Tick} {s s' : EnrollmentState}

theorem EnrollmentMove.follows {op : EnrollmentOperation ι ε} (h : EnrollmentMove e tick s op s') :
    MembersFollow s.memberships s'.memberships := by
  have hKept : s'.tables.identity = s.tables.identity →
      MembersFollow s.memberships s'.memberships := by
    intro hIdentity
    rw [memberships_of_identity (s := s) hIdentity]
    exact .refl _
  cases h with
  | kept hIdentity hInvites hAcceptances => exact hKept hIdentity
  | changed hInput hChanged hIdentity hInvites hAcceptances =>
    rw [memberships_of_identity hIdentity]
    exact .set hChanged.found (.of_advanced hChanged.membershipEpoch hChanged.permissionEpoch)
  | revoked hInput hRevoked hIdentity hInvites hAcceptances =>
    rw [memberships_of_identity hIdentity]
    exact .set hRevoked.found (.of_advanced hRevoked.membershipEpoch hRevoked.permissionEpoch)
  | invited hInvited => exact hKept hInvited.identity
  | retrieved hRetrieved => exact hKept hRetrieved.identity
  | accepted hAccepted =>
    obtain ⟨memberships, hInsert, hIdentity⟩ := hAccepted.admitted
    rw [memberships_of_identity hIdentity]
    exact fun principal m hm => ⟨m, Table.insert?_get?_of_some hInsert hm, .refl m⟩

/-- The tenant itself stays as it is. -/
theorem EnrollmentMove.tenant {op : EnrollmentOperation ι ε} (h : EnrollmentMove e tick s op s') :
    s'.tables.identity.tenantId = s.tables.identity.tenantId ∧
      s'.tables.identity.tenantActive = s.tables.identity.tenantActive := by
  cases h with
  | kept hIdentity hInvites hAcceptances => rw [hIdentity]; exact ⟨rfl, rfl⟩
  | changed hInput hChanged hIdentity hInvites hAcceptances => rw [hIdentity]; exact ⟨rfl, rfl⟩
  | revoked hInput hRevoked hIdentity hInvites hAcceptances => rw [hIdentity]; exact ⟨rfl, rfl⟩
  | invited hInvited => rw [hInvited.identity]; exact ⟨rfl, rfl⟩
  | retrieved hRetrieved => rw [hRetrieved.identity]; exact ⟨rfl, rfl⟩
  | accepted hAccepted =>
    obtain ⟨memberships, -, hIdentity⟩ := hAccepted.admitted
    rw [hIdentity]
    exact ⟨rfl, rfl⟩

theorem EnrollmentMove.wellFormed {op : EnrollmentOperation ι ε}
    (h : EnrollmentMove e tick s op s') (hWell : s.MembersWellFormed) : s'.MembersWellFormed := by
  have hKept : s'.tables.identity = s.tables.identity → s'.MembersWellFormed := by
    intro hIdentity principal m hm
    rw [memberships_of_identity (s := s) hIdentity] at hm
    exact hWell principal m hm
  cases h with
  | kept hIdentity hInvites hAcceptances => exact hKept hIdentity
  | changed hInput hChanged hIdentity hInvites hAcceptances =>
    intro principal m hm
    rw [memberships_of_identity hIdentity] at hm
    rcases Table.get?_set_cases hm with ⟨-, rfl⟩ | ⟨-, hOld⟩
    · have hRow := hWell _ _ hChanged.found
      have hNormalized := hChanged.normalized
      refine ⟨hNormalized.nonempty, hNormalized.distinct, hNormalized.allowed, hChanged.role, ?_,
        ?_⟩
      · have := hRow.membershipEpoch
        rw [hChanged.membershipEpoch]
        omega
      · have := hRow.permissionEpoch
        rw [hChanged.permissionEpoch]
        omega
    · exact hWell principal m hOld
  | revoked hInput hRevoked hIdentity hInvites hAcceptances =>
    intro principal m hm
    rw [memberships_of_identity hIdentity] at hm
    rcases Table.get?_set_cases hm with ⟨-, rfl⟩ | ⟨-, hOld⟩
    · have hRow := hWell _ _ hRevoked.found
      have hRoles := hRevoked.roles
      refine ⟨hRoles ▸ hRow.nonempty, hRoles ▸ hRow.distinct, hRoles ▸ hRow.allowed, ?_, ?_, ?_⟩
      · rw [hRoles, hRevoked.role]
        exact hRow.role
      · have := hRow.membershipEpoch
        rw [hRevoked.membershipEpoch]
        omega
      · have := hRow.permissionEpoch
        rw [hRevoked.permissionEpoch]
        omega
    · exact hWell principal m hOld
  | invited hInvited => exact hKept hInvited.identity
  | retrieved hRetrieved => exact hKept hRetrieved.identity
  | accepted hAccepted =>
    obtain ⟨memberships, hInsert, hIdentity⟩ := hAccepted.admitted
    intro principal m hm
    rw [memberships_of_identity hIdentity] at hm
    rcases Table.insert?_get?_cases hInsert hm with ⟨-, rfl⟩ | ⟨-, hOld⟩
    · have hNormalized := hAccepted.normalized
      refine ⟨hNormalized.nonempty, hNormalized.distinct, fun role hRole => ?_, hAccepted.role, ?_,
        ?_⟩
      · exact hNormalized.allowed role hRole
      · rw [hAccepted.membershipEpoch]
        decide
      · rw [hAccepted.permissionEpoch]
        decide
    · exact hWell principal m hOld

end Epochs

/-! ## Stale actors -/

/-- An actor as it was built from the membership of its principal. -/
structure BuiltFrom (t : Tables) (actor : CommandActor) (principal : Uuid) (m : MembershipRow) :
    Prop where
  tenant : Uuid.parse actor.tenantId.text = some t.identity.tenantId
  named : Uuid.parse actor.principalId.text = some principal
  found : t.identity.memberships.get? principal = some m
  membershipEpoch : actor.membershipEpoch = m.membershipEpoch
  permissionEpoch : actor.permissionEpoch = m.permissionEpoch

/-- An actor that is behind its membership is refused; a tenant that is not active refuses it
before that is looked at. -/
theorem beginActor_stale {t : Tables} {actor : CommandActor} {principal : Uuid}
    {m : MembershipRow} (hTenant : Uuid.parse actor.tenantId.text = some t.identity.tenantId)
    (hPrincipal : Uuid.parse actor.principalId.text = some principal)
    (hFound : t.identity.memberships.get? principal = some m)
    (hStale : actor.membershipEpoch ≠ m.membershipEpoch) :
    beginActor t actor = .error (if t.identity.tenantActive = true then
      .denied "AUTHORITY_CHANGED" else .notFound) := by
  have hTenantId : parseUuid actor.tenantId.text = .ok t.identity.tenantId :=
    okOr_eq_ok.mpr hTenant
  have hPrincipalId : parseUuid actor.principalId.text = .ok principal := okOr_eq_ok.mpr hPrincipal
  have hNotCurrent : ¬ (m.status = .active ∧ m.membershipEpoch = actor.membershipEpoch ∧
      m.permissionEpoch = actor.permissionEpoch) := fun h => hStale h.2.1.symm
  rw [beginActor, hTenantId, hPrincipalId]
  split
  · rename_i hActive
    refine bind_eq_error.mpr (Or.inr ⟨_, rfl, bind_eq_error.mpr (Or.inr ⟨_, rfl, ?_⟩)⟩)
    refine bind_eq_error.mpr (Or.inr ⟨(), require_eq_ok.mpr ⟨rfl, hActive⟩, ?_⟩)
    refine bind_eq_error.mpr (Or.inr ⟨m, okOr_eq_ok.mpr hFound, ?_⟩)
    exact bind_eq_error.mpr (Or.inl (require_eq_error.mpr ⟨hNotCurrent, rfl⟩))
  · rename_i hInactive
    refine bind_eq_error.mpr (Or.inr ⟨_, rfl, bind_eq_error.mpr (Or.inr ⟨_, rfl, ?_⟩)⟩)
    exact bind_eq_error.mpr (Or.inl (require_eq_error.mpr ⟨fun h => hInactive h.2, rfl⟩))

/-- An admitted actor has the epochs of its membership. -/
theorem beginActor_current {t : Tables} {actor : CommandActor} (h : beginActor t actor = .ok ()) :
    ∃ principal m, Uuid.parse actor.principalId.text = some principal ∧
      t.identity.memberships.get? principal = some m ∧
      m.membershipEpoch = actor.membershipEpoch ∧ m.permissionEpoch = actor.permissionEpoch := by
  simp only [beginActor, bind_eq_ok, parseUuid_eq_ok, require_eq_ok, okOr_eq_ok,
    exists_const] at h
  obtain ⟨tenant, -, principal, hPrincipal, -, m, hFound, ⟨-, hMembership, hPermission⟩, -⟩ := h
  exact ⟨principal, m, hPrincipal, hFound, hMembership, hPermission⟩

section Policies

variable {env : Env} {s : EnrollmentState}

theorem currentPolicy_member {t : Tables} {principal : Uuid} {m : MembershipRow}
    {policy : PolicyRow} (h : currentPolicy env t principal = .ok (m, policy)) :
    t.identity.memberships.get? principal = some m := by
  simp only [currentPolicy, bind_eq_ok, okOr_eq_ok, require_eq_ok, pure_eq_ok, Prod.mk.injEq,
    exists_const] at h
  obtain ⟨m', hFound, -, policy', -, -, rfl, -⟩ := h
  exact hFound

theorem readPolicy_entityValid (hWell : s.MembersWellFormed) {actor : CommandActor}
    {policy : ReadPolicy} (hActor : beginActor s.tables actor = .ok ())
    (h : readPolicy env s.tables actor = .ok policy) : policy.principal.entityValid = true := by
  obtain ⟨principal, m, hPrincipal, hFound, hMembership, hPermission⟩ := beginActor_current hActor
  simp only [readPolicy, bind_eq_ok, parseUuid_eq_ok, pure_eq_ok, Prod.exists] at h
  obtain ⟨principal', hPrincipal', m', row, hPolicy, rfl⟩ := h
  cases hPrincipal.symm.trans hPrincipal'
  cases hFound.symm.trans (currentPolicy_member hPolicy)
  have hRow := hWell principal m hFound
  exact decide_eq_true ⟨hMembership ▸ hRow.membershipEpoch, hPermission ▸ hRow.permissionEpoch,
    hRow.nonempty, hRow.role⟩

theorem readPolicyForPrincipal_entityValid (hWell : s.MembersWellFormed) {principal : Uuid}
    {policy : ReadPolicy} (h : readPolicyForPrincipal env s.tables principal = .ok policy) :
    policy.principal.entityValid = true := by
  simp only [readPolicyForPrincipal, bind_eq_ok, pure_eq_ok, Prod.exists] at h
  obtain ⟨m, row, hPolicy, rfl⟩ := h
  have hRow := hWell principal m (currentPolicy_member hPolicy)
  exact decide_eq_true ⟨hRow.membershipEpoch, hRow.permissionEpoch, hRow.nonempty, hRow.role⟩

end Policies

section Runs

variable (e : Enrollment ι ν ε)

/-- Neither epoch of a membership ever falls. -/
theorem run_epochs (s : EnrollmentState) (calls : List (EnrollmentCall ι ε)) :
    s.memberships.Grows (·.membershipEpoch)
        (Machine.run (enrollmentStep e) s calls).memberships ∧
      s.memberships.Grows (·.permissionEpoch)
        (Machine.run (enrollmentStep e) s calls).memberships := by
  refine Machine.run_invariant (enrollmentStep e)
    (I := fun t => s.memberships.Grows (·.membershipEpoch) t.memberships ∧
      s.memberships.Grows (·.permissionEpoch) t.memberships) ?_ ⟨.refl _ _, .refl _ _⟩ calls
  rintro t c ⟨hMembership, hPermission⟩
  have hFollow := (enrollmentStep_move e t c).follows
  refine ⟨hMembership.trans fun k m hm => ?_, hPermission.trans fun k m hm => ?_⟩
  · obtain ⟨m', hm', hFollows⟩ := hFollow k m hm
    exact ⟨m', hm', hFollows.membershipEpoch⟩
  · obtain ⟨m', hm', hFollows⟩ := hFollow k m hm
    exact ⟨m', hm', hFollows.permissionEpoch⟩

theorem run_tenant (s : EnrollmentState) (calls : List (EnrollmentCall ι ε)) :
    (Machine.run (enrollmentStep e) s calls).tables.identity.tenantId =
      s.tables.identity.tenantId := by
  refine Machine.run_invariant (enrollmentStep e)
    (I := fun t => t.tables.identity.tenantId = s.tables.identity.tenantId) ?_ rfl calls
  exact fun t c ht => (enrollmentStep_move e t c).tenant.1.trans ht

/-- An actor from before a change of its membership is refused after it. -/
theorem stale_actor_refused (s : EnrollmentState) (first middle last : List (EnrollmentCall ι ε))
    (c : EnrollmentCall ι ε) {actor : CommandActor} {principal : Uuid} {m m₁ m₂ : MembershipRow}
    (hBuilt : BuiltFrom (Machine.run (enrollmentStep e) s first).tables actor principal m)
    (hBefore : (Machine.run (enrollmentStep e) s (first ++ middle)).memberships.get? principal =
      some m₁)
    (hAfter : (Machine.run (enrollmentStep e) s (first ++ middle ++ [c])).memberships.get?
      principal = some m₂)
    (hChanged : m₂.roles ≠ m₁.roles ∨ m₂.status ≠ m₁.status) :
    beginActor (Machine.run (enrollmentStep e) s (first ++ middle ++ c :: last)).tables actor =
      .error (if s.tables.identity.tenantActive = true then .denied "AUTHORITY_CHANGED"
        else .notFound) := by
  have hActive : (Machine.run (enrollmentStep e) s
      (first ++ middle ++ c :: last)).tables.identity.tenantActive =
        s.tables.identity.tenantActive := by
    refine Machine.run_invariant (enrollmentStep e)
      (I := fun t => t.tables.identity.tenantActive = s.tables.identity.tenantActive) ?_ rfl _
    exact fun t c ht => (enrollmentStep_move e t c).tenant.2.trans ht
  -- the epochs up to the change, through it, and after it
  have hUntil := (run_epochs e (Machine.run (enrollmentStep e) s first) middle).1
  rw [← Machine.run_append] at hUntil
  obtain ⟨m₁', hm₁', hLe⟩ := hUntil principal m hBuilt.found
  cases hBefore.symm.trans hm₁'
  rw [Machine.run_concat] at hAfter
  obtain ⟨m₂', hm₂', hFollows⟩ := (enrollmentStep_move e _ c).follows principal m₁ hBefore
  cases hAfter.symm.trans hm₂'
  have hLater := (run_epochs e
    (Machine.run (enrollmentStep e) s (first ++ middle ++ [c])) last).1
  rw [← Machine.run_append, List.append_assoc _ [c] last, List.singleton_append,
    Machine.run_concat] at hLater
  obtain ⟨m₃, hm₃, hLe₃⟩ := hLater principal m₂ hAfter
  have hTenant := hBuilt.tenant
  rw [run_tenant e s, ← run_tenant e s (first ++ middle ++ c :: last)] at hTenant
  rw [beginActor_stale hTenant hBuilt.named hm₃ ?_, hActive]
  have hStrict := (hFollows.advances hChanged).1
  have hOwn := hBuilt.membershipEpoch
  dsimp only at hLe hLe₃
  omega

/-- In every run each step advances the epochs with the roles and the status, the epochs never fall,
an actor from before a change is refused after it, and the memberships stay well formed, so that
the principals that the policies are asked about are valid entities. -/
theorem authority_goes_stale {s : EnrollmentState} (hWell : s.MembersWellFormed)
    (calls : List (EnrollmentCall ι ε)) :
    (∀ ev ∈ Machine.trace (enrollmentStep e) s calls,
      MembersFollow ev.before.memberships ev.after.memberships) ∧
    (s.memberships.Grows (·.membershipEpoch)
        (Machine.run (enrollmentStep e) s calls).memberships ∧
      s.memberships.Grows (·.permissionEpoch)
        (Machine.run (enrollmentStep e) s calls).memberships) ∧
    (∀ first middle c last, calls = first ++ middle ++ c :: last →
      ∀ actor principal m m₁ m₂,
        BuiltFrom (Machine.run (enrollmentStep e) s first).tables actor principal m →
        (Machine.run (enrollmentStep e) s (first ++ middle)).memberships.get? principal = some m₁ →
        (Machine.run (enrollmentStep e) s (first ++ middle ++ [c])).memberships.get? principal =
          some m₂ →
        m₂.roles ≠ m₁.roles ∨ m₂.status ≠ m₁.status →
        beginActor (Machine.run (enrollmentStep e) s calls).tables actor =
          .error (if s.tables.identity.tenantActive = true then .denied "AUTHORITY_CHANGED"
            else .notFound)) ∧
    (Machine.run (enrollmentStep e) s calls).MembersWellFormed ∧
    (∀ actor policy,
      beginActor (Machine.run (enrollmentStep e) s calls).tables actor = .ok () →
      readPolicy e.env (Machine.run (enrollmentStep e) s calls).tables actor = .ok policy →
      policy.principal.entityValid = true) ∧
    (∀ principal policy,
      readPolicyForPrincipal e.env (Machine.run (enrollmentStep e) s calls).tables principal =
        .ok policy →
      policy.principal.entityValid = true) := by
  have hRun : (Machine.run (enrollmentStep e) s calls).MembersWellFormed :=
    Machine.run_invariant (enrollmentStep e)
      (fun s c hs => (enrollmentStep_move e s c).wellFormed hs) hWell calls
  refine ⟨fun ev hev => ?_, run_epochs e s calls, ?_, hRun, ?_, ?_⟩
  · obtain ⟨before, after, -, hEvent⟩ := Machine.mem_trace _ hev
    rw [hEvent]
    exact (enrollmentStep_move e _ _).follows
  · rintro first middle c last rfl actor principal m m₁ m₂ hBuilt hBefore hAfter hChanged
    exact stale_actor_refused e s first middle last c hBuilt hBefore hAfter hChanged
  · exact fun actor policy hActor hPolicy => readPolicy_entityValid hRun hActor hPolicy
  · exact fun principal policy hPolicy => readPolicyForPrincipal_entityValid hRun hPolicy

end Runs

namespace Sample

/-- The owner makes the editor a viewer. -/
def demotion : EnrollmentCall Empty Empty :=
  onHost (hostCommand 1 (.membershipChange (uuid 21).toText 1 ["VIEWER"]))

theorem reception_wellFormed : reception.MembersWellFormed := by
  have hRows : ∀ p ∈ reception.memberships.rows, p.2.roles ≠ [] ∧ p.2.roles.Nodup ∧
      (∀ role ∈ p.2.roles, role ∈ allowedRoles) ∧ p.2.role ∈ p.2.roles ∧
      0 < p.2.membershipEpoch ∧ 0 < p.2.permissionEpoch := by decide
  intro principal m hm
  obtain ⟨hNonempty, hDistinct, hAllowed, hRole, hMembership, hPermission⟩ :=
    hRows (principal, m) (Table.get?_eq_some_iff.mp hm)
  exact ⟨hNonempty, hDistinct, hAllowed, hRole, hMembership, hPermission⟩

end Sample

/-- The editor is refused with the authority it had before. -/
theorem demoted_editor_refused :
    beginActor (Sample.fromReception [Sample.demotion]).tables Sample.colleague =
      .error (.denied "AUTHORITY_CHANGED") := by
  have hRoles : (((Sample.fromReception [Sample.demotion]).memberships.get?
      Sample.colleagueId).map (·.roles)) = some ["VIEWER"] := by
    rw [Sample.fromReception, enrollmentStep_bytewise, Sample.enrollment_bytewise]
    decide +kernel
  obtain ⟨m, hm, hViewer⟩ := Option.map_eq_some_iff.mp hRoles
  have hStale := (authority_goes_stale Sample.enrollment Sample.reception_wellFormed
    [Sample.demotion]).2.2.1 [] [] Sample.demotion [] rfl Sample.colleague Sample.colleagueId
  exact hStale ⟨.active, "EDITOR", ["EDITOR"], 1, 1, Sample.uuid 21, .one⟩ _ m
    ⟨by decide +kernel, by decide +kernel, rfl, rfl, rfl⟩ rfl hm
    (Or.inl (by rw [hViewer]; decide))

end Masonwing
