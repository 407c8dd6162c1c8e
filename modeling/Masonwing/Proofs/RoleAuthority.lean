import Masonwing.Proofs.MembershipSteps

/-!
# Where the roles come from

A role of a member was there from the beginning, was given by a change, or came with an invitation;
a role of an open invitation was there from the beginning or was written by a command. Both kinds of
command are backed: their actor was an owner or held the role itself when the command committed.

* `roles_not_escalated`: this holds after every run, and around each of its steps nobody but an
  owner touches `OWNER`.
-/

namespace Masonwing

open Outcome

variable {ι ν ε : Type}

/-! ## Sources -/

section Sources

/-- The acting member of an event was an owner or held the role. -/
def EnrollmentEvent.Backed (ev : EnrollmentEvent ι ε) (actor : CommandActor) (role : String) :
    Prop :=
  ∃ own, ActingMember ev.before.tables actor own ∧ ("OWNER" ∈ own.roles ∨ role ∈ own.roles)

/-- A change of the membership listed the role. -/
def EnrollmentEvent.Gives (ev : EnrollmentEvent ι ε) (principal : Uuid) (role : String) : Prop :=
  ∃ c membershipId expected roles row, ev.call.operation = .host (.command c) ∧
    c.input = .membershipChange membershipId expected roles ∧ role ∈ roles ∧
    ev.after.memberships.get? principal = some row ∧ row.roles.Perm roles ∧ ev.Backed c.actor role

/-- An invitation was written that lists the role. -/
def EnrollmentEvent.Offers (ev : EnrollmentEvent ι ε) (inviteId : Uuid) (role : String) : Prop :=
  ∃ c i, ev.call.operation = .invite c ∧ role ∈ c.input.roles ∧
    ev.before.invites.get? inviteId = none ∧ ev.after.invites.get? inviteId = some i ∧
    i.roles.Perm c.input.roles ∧ ev.Backed c.actor role

/-- The principal accepted the invitation, and has the roles written in it. -/
def EnrollmentEvent.Accepts (ev : EnrollmentEvent ι ε) (principal inviteId : Uuid) : Prop :=
  ∃ c i m, ev.call.operation = .accept c ∧ c.identity.principalId = principal ∧
    ev.before.invites.get? inviteId = some i ∧ i.consumption = none ∧
    ev.before.memberships.get? principal = none ∧
    ev.after.memberships.get? principal = some m ∧ m.roles.Perm i.roles

/-- Where a role of an open invitation comes from. -/
def InviteSource (start : EnrollmentState) (past : List (EnrollmentEvent ι ε)) (inviteId : Uuid)
    (role : String) : Prop :=
  (∃ i, start.invites.get? inviteId = some i ∧ i.consumption = none ∧ role ∈ i.roles) ∨
    ∃ ev ∈ past, ev.Offers inviteId role

/-- Where a role of a member comes from. -/
def MemberSource (start : EnrollmentState) (past : List (EnrollmentEvent ι ε)) (principal : Uuid)
    (role : String) : Prop :=
  (∃ m, start.memberships.get? principal = some m ∧ role ∈ m.roles) ∨
    (∃ ev ∈ past, ev.Gives principal role) ∨
    ∃ ev ∈ past, ∃ inviteId, ev.Accepts principal inviteId ∧ InviteSource start past inviteId role

variable {start : EnrollmentState} {past future : List (EnrollmentEvent ι ε)} {role : String}

theorem InviteSource.later {inviteId : Uuid} (h : InviteSource start past inviteId role) :
    InviteSource start (past ++ future) inviteId role := by
  rcases h with hStart | ⟨ev, hev, hOffers⟩
  · exact Or.inl hStart
  · exact Or.inr ⟨ev, List.mem_append_left _ hev, hOffers⟩

theorem MemberSource.later {principal : Uuid} (h : MemberSource start past principal role) :
    MemberSource start (past ++ future) principal role := by
  rcases h with hStart | ⟨ev, hev, hGives⟩ | ⟨ev, hev, inviteId, hAccepts, hSource⟩
  · exact Or.inl hStart
  · exact Or.inr (Or.inl ⟨ev, List.mem_append_left _ hev, hGives⟩)
  · exact Or.inr (Or.inr ⟨ev, List.mem_append_left _ hev, inviteId, hAccepts, hSource.later⟩)

/-- All roles have a source. -/
structure RolesSourced (start : EnrollmentState) (past : List (EnrollmentEvent ι ε))
    (s : EnrollmentState) : Prop where
  members : ∀ principal m, s.memberships.get? principal = some m → ∀ role ∈ m.roles,
    MemberSource start past principal role
  invites : ∀ inviteId i, s.invites.get? inviteId = some i → i.consumption = none →
    ∀ role ∈ i.roles, InviteSource start past inviteId role

theorem RolesSourced.initial (start : EnrollmentState) :
    RolesSourced (ι := ι) (ε := ε) start [] start :=
  ⟨fun _ m hm _ hRole => Or.inl ⟨m, hm, hRole⟩,
    fun _ i hi hOpen _ hRole => Or.inl ⟨i, hi, hOpen, hRole⟩⟩

end Sources

/-! ## Steps -/

section Steps

variable {e : Enrollment ι ν ε} {s : EnrollmentState} {c : EnrollmentCall ι ε}

/-- The event of a step. -/
abbrev enrollmentEventAt (e : Enrollment ι ν ε) (s : EnrollmentState) (c : EnrollmentCall ι ε) :
    EnrollmentEvent ι ε := Machine.eventAt (enrollmentStep e) s c

theorem MayAssign.backs {own : MembershipRow} {roles : List String} (h : MayAssign own roles)
    {role : String} (hRole : role ∈ roles) : "OWNER" ∈ own.roles ∨ role ∈ own.roles := by
  rcases h with hOwner | ⟨-, hHeld⟩
  · exact Or.inl hOwner
  · exact Or.inr (hHeld role hRole)

theorem MayAssign.owner {own : MembershipRow} {roles : List String} (h : MayAssign own roles)
    (hOwner : "OWNER" ∈ roles) : "OWNER" ∈ own.roles := by
  rcases h with hOwns | ⟨hNot, -⟩
  · exact hOwns
  · exact absurd hOwner hNot

theorem members_kept {s' : EnrollmentState}
    (hIdentity : s'.tables.identity = s.tables.identity) : s'.memberships = s.memberships :=
  congrArg Identity.memberships hIdentity

/-- A step adds the sources of the roles that it writes. -/
theorem RolesSourced.step {start : EnrollmentState} {past : List (EnrollmentEvent ι ε)}
    (h : RolesSourced start past s) :
    RolesSourced start (past ++ [enrollmentEventAt e s c]) (enrollmentStep e s c).1 := by
  have hEvent : enrollmentEventAt e s c ∈ past ++ [enrollmentEventAt e s c] :=
    List.mem_append_right _ List.mem_cons_self
  have hAfter : (enrollmentEventAt e s c).after = (enrollmentStep e s c).1 := rfl
  have hMove := enrollmentStep_move e s c
  rw [← hAfter] at hMove ⊢
  generalize hOperation : c.operation = op at hMove
  have hMembers : (enrollmentEventAt e s c).after.tables.identity = s.tables.identity →
      ∀ principal m, (enrollmentEventAt e s c).after.memberships.get? principal = some m →
        ∀ role ∈ m.roles, MemberSource start (past ++ [enrollmentEventAt e s c]) principal role := by
    intro hIdentity principal m hm role hRole
    rw [members_kept hIdentity] at hm
    exact (h.members principal m hm role hRole).later
  have hInvites : (enrollmentEventAt e s c).after.invites = s.invites →
      ∀ inviteId i, (enrollmentEventAt e s c).after.invites.get? inviteId = some i →
        i.consumption = none → ∀ role ∈ i.roles,
          InviteSource start (past ++ [enrollmentEventAt e s c]) inviteId role := by
    intro hSame inviteId i hi hOpen role hRole
    rw [hSame] at hi
    exact (h.invites inviteId i hi hOpen role hRole).later
  cases hMove with
  | kept hIdentity hSame hAcceptances => exact ⟨hMembers hIdentity, hInvites hSame⟩
  | @changed command membershipId expected roles target row row' _ hInput hChanged hIdentity hSame
      hAcceptances =>
    have hTables : (enrollmentEventAt e s c).after.memberships = s.memberships.set target row' :=
      congrArg Identity.memberships hIdentity
    refine ⟨fun principal m hm role hRole => ?_, hInvites hSame⟩
    have hRow := hm
    rw [hTables] at hm
    rcases Table.get?_set_cases hm with ⟨rfl, rfl⟩ | ⟨-, hOld⟩
    · obtain ⟨own, hActing, hMay, -⟩ := hChanged.acting
      have hListed : role ∈ roles := hChanged.normalized.mem_iff.mp hRole
      exact Or.inr (Or.inl ⟨_, hEvent, command, membershipId, expected, roles, m, hOperation, hInput,
        hListed, hRow, hChanged.normalized.perm, own, hActing, hMay.backs hListed⟩)
    · exact (h.members principal m hOld role hRole).later
  | @revoked command membershipId expected target row row' _ hInput hRevoked hIdentity hSame
      hAcceptances =>
    have hTables : (enrollmentEventAt e s c).after.memberships = s.memberships.set target row' :=
      congrArg Identity.memberships hIdentity
    refine ⟨fun principal m hm role hRole => ?_, hInvites hSame⟩
    rw [hTables] at hm
    rcases Table.get?_set_cases hm with ⟨rfl, rfl⟩ | ⟨-, hOld⟩
    · rw [hRevoked.roles] at hRole
      exact (h.members _ row hRevoked.found role hRole).later
    · exact (h.members principal m hOld role hRole).later
  | @invited command i _ hInvited =>
    refine ⟨hMembers hInvited.identity, fun inviteId j hj hOpen role hRole => ?_⟩
    rcases Table.insert?_get?_cases hInvited.inserted hj with ⟨rfl, rfl⟩ | ⟨-, hOld⟩
    · obtain ⟨own, hActing, hMay⟩ := hInvited.acting
      have hListed : role ∈ command.input.roles := hInvited.normalized.mem_iff.mp hRole
      have hNew : s.invites.get? (c.tick.draw .invitation) = none :=
        Table.insert?_isSome_iff.mp ⟨_, hInvited.inserted⟩
      exact Or.inr ⟨_, hEvent, command, j, hOperation, hListed, hNew, hj, hInvited.normalized.perm,
        own, hActing, hMay.backs hListed⟩
    · exact (h.invites inviteId j hOld hOpen role hRole).later
  | @retrieved actor inviteId i token _ hRetrieved =>
    refine ⟨hMembers hRetrieved.identity, fun id j hj hOpen role hRole => ?_⟩
    rw [hRetrieved.invites] at hj
    rcases Table.get?_set_cases hj with ⟨rfl, rfl⟩ | ⟨-, hOld⟩
    · exact (h.invites id i hRetrieved.found hRetrieved.unconsumed role hRole).later
    · exact (h.invites id j hOld hOpen role hRole).later
  | @accepted command inviteId i i' m receipt _ hAccepted =>
    obtain ⟨memberships, hInsert, hIdentity⟩ := hAccepted.admitted
    have hTables : (enrollmentEventAt e s c).after.memberships = memberships :=
      congrArg Identity.memberships hIdentity
    refine ⟨fun principal m' hm' role hRole => ?_, fun id j hj hOpen role hRole => ?_⟩
    · have hRow := hm'
      rw [hTables] at hm'
      rcases Table.insert?_get?_cases hInsert hm' with ⟨rfl, rfl⟩ | ⟨-, hOld⟩
      · have hListed : role ∈ i.roles := hAccepted.normalized.mem_iff.mp hRole
        refine Or.inr (Or.inr ⟨_, hEvent, inviteId, ⟨command, i, m', hOperation, rfl,
          hAccepted.found, hAccepted.unconsumed, hAccepted.newcomer, hRow,
          hAccepted.normalized.perm⟩, ?_⟩)
        exact (h.invites inviteId i hAccepted.found hAccepted.unconsumed role hListed).later
      · exact (h.members principal m' hOld role hRole).later
    · rw [hAccepted.invites] at hj
      rcases Table.get?_set_cases hj with ⟨rfl, rfl⟩ | ⟨-, hOld⟩
      · rw [hAccepted.consumed] at hOpen
        cases hOpen
      · exact (h.invites id j hOld hOpen role hRole).later

/-- Nobody but an owner gives `OWNER` or touches a membership that holds it, and an acceptance
gives the roles of its invitation. -/
structure EnrollmentEvent.RankKept (ev : EnrollmentEvent ι ε) : Prop where
  members : ∀ principal m m', ev.before.memberships.get? principal = some m →
    ev.after.memberships.get? principal = some m' → m' ≠ m →
    ∃ command own, ev.call.operation = .host (.command command) ∧
      ActingMember ev.before.tables command.actor own ∧
      ("OWNER" ∈ m.roles ∨ "OWNER" ∈ m'.roles → "OWNER" ∈ own.roles)
  invites : ∀ inviteId i, ev.before.invites.get? inviteId = none →
    ev.after.invites.get? inviteId = some i →
    ∃ command own, ev.call.operation = .invite command ∧
      ActingMember ev.before.tables command.actor own ∧ MayAssign own i.roles
  newcomers : ∀ principal m, ev.before.memberships.get? principal = none →
    ev.after.memberships.get? principal = some m → ∃ inviteId, ev.Accepts principal inviteId

theorem enrollmentStep_rankKept (e : Enrollment ι ν ε) (s : EnrollmentState)
    (c : EnrollmentCall ι ε) : (enrollmentEventAt e s c).RankKept := by
  have hMove := enrollmentStep_move e s c
  have hAfter : (enrollmentEventAt e s c).after = (enrollmentStep e s c).1 := rfl
  have hBefore : (enrollmentEventAt e s c).before = s := rfl
  rw [← hAfter] at hMove
  generalize hOperation : c.operation = op at hMove
  -- a part that the step left alone
  have hMembers : (enrollmentEventAt e s c).after.memberships = s.memberships →
      ∀ principal m', (enrollmentEventAt e s c).after.memberships.get? principal = some m' →
        s.memberships.get? principal = some m' := fun hSame principal m' hm' => hSame ▸ hm'
  have hInvites : (enrollmentEventAt e s c).after.invites = s.invites →
      ∀ inviteId i, s.invites.get? inviteId = none →
        (enrollmentEventAt e s c).after.invites.get? inviteId ≠ some i := by
    intro hSame inviteId i hNone hi
    rw [hSame, hNone] at hi
    cases hi
  have hUpdated : ∀ {target row row'}, s.memberships.get? target = some row →
      (enrollmentEventAt e s c).after.memberships = s.memberships.set target row' →
      ∀ principal, s.memberships.get? principal = none →
        (enrollmentEventAt e s c).after.memberships.get? principal = none := by
    intro target row row' hFound hTables principal hNone
    have hOther : principal ≠ target := by
      rintro rfl
      rw [hNone] at hFound
      cases hFound
    rw [hTables, Table.get?_set_ne _ hOther, hNone]
  have hSomeNone : ∀ {α : Type} {x : Option α} {a : α}, x = some a → x = none → False := by
    intro α x a hSome hNone
    rw [hNone] at hSome
    cases hSome
  cases hMove with
  | kept hIdentity hSame hAcceptances =>
    have hTables := members_kept hIdentity
    refine ⟨fun principal m m' hm hm' hNe => ?_, fun inviteId i hNone hi => ?_,
      fun principal m hNone hm => ?_⟩
    · exact absurd (Option.some.inj ((hMembers hTables _ _ hm').symm.trans hm)) hNe
    · exact absurd hi (hInvites hSame inviteId i hNone)
    · exact (hSomeNone (hMembers hTables _ _ hm) hNone).elim
  | @changed command membershipId expected roles target row row' _ hInput hChanged hIdentity hSame
      hAcceptances =>
    have hTables : (enrollmentEventAt e s c).after.memberships = s.memberships.set target row' :=
      congrArg Identity.memberships hIdentity
    refine ⟨fun principal m m' hm hm' hNe => ?_, fun inviteId i hNone hi => ?_,
      fun principal m hNone hm => ?_⟩
    · rw [hTables] at hm'
      rcases Table.get?_set_cases hm' with ⟨rfl, rfl⟩ | ⟨-, hOld⟩
      · cases hm.symm.trans hChanged.found
        obtain ⟨own, hActing, hMay, hManages⟩ := hChanged.acting
        refine ⟨command, own, hOperation, hActing, fun hOwner => ?_⟩
        rcases hOwner with hHad | hHas
        · exact hManages hHad
        · exact hMay.owner (hChanged.normalized.mem_iff.mp hHas)
      · exact absurd (Option.some.inj (hOld.symm.trans hm)) hNe
    · exact absurd hi (hInvites hSame inviteId i hNone)
    · exact (hSomeNone hm (hUpdated hChanged.found hTables principal hNone)).elim
  | @revoked command membershipId expected target row row' _ hInput hRevoked hIdentity hSame
      hAcceptances =>
    have hTables : (enrollmentEventAt e s c).after.memberships = s.memberships.set target row' :=
      congrArg Identity.memberships hIdentity
    refine ⟨fun principal m m' hm hm' hNe => ?_, fun inviteId i hNone hi => ?_,
      fun principal m hNone hm => ?_⟩
    · rw [hTables] at hm'
      rcases Table.get?_set_cases hm' with ⟨rfl, rfl⟩ | ⟨-, hOld⟩
      · cases hm.symm.trans hRevoked.found
        obtain ⟨own, hActing, hManages⟩ := hRevoked.acting
        refine ⟨command, own, hOperation, hActing, fun hOwner => ?_⟩
        rw [hRevoked.roles, or_self] at hOwner
        exact hManages hOwner
      · exact absurd (Option.some.inj (hOld.symm.trans hm)) hNe
    · exact absurd hi (hInvites hSame inviteId i hNone)
    · exact (hSomeNone hm (hUpdated hRevoked.found hTables principal hNone)).elim
  | @invited command i _ hInvited =>
    have hTables := members_kept hInvited.identity
    refine ⟨fun principal m m' hm hm' hNe => ?_, fun inviteId j hNone hj => ?_,
      fun principal m hNone hm => ?_⟩
    · exact absurd (Option.some.inj ((hMembers hTables _ _ hm').symm.trans hm)) hNe
    · rcases Table.insert?_get?_cases hInvited.inserted hj with ⟨rfl, rfl⟩ | ⟨-, hOld⟩
      · obtain ⟨own, hActing, hMay⟩ := hInvited.acting
        refine ⟨command, own, hOperation, hActing, ?_⟩
        rcases hMay with hOwner | ⟨hNot, hHeld⟩
        · exact Or.inl hOwner
        · exact Or.inr ⟨fun hMem => hNot (hInvited.normalized.mem_iff.mp hMem),
            fun role hRole => hHeld role (hInvited.normalized.mem_iff.mp hRole)⟩
      · exact (hSomeNone hOld hNone).elim
    · exact (hSomeNone (hMembers hTables _ _ hm) hNone).elim
  | @retrieved actor inviteId i token _ hRetrieved =>
    have hTables := members_kept hRetrieved.identity
    refine ⟨fun principal m m' hm hm' hNe => ?_, fun id j hNone hj => ?_,
      fun principal m hNone hm => ?_⟩
    · exact absurd (Option.some.inj ((hMembers hTables _ _ hm').symm.trans hm)) hNe
    · rw [hRetrieved.invites] at hj
      rcases Table.get?_set_cases hj with ⟨rfl, rfl⟩ | ⟨-, hOld⟩
      · exact (hSomeNone hRetrieved.found hNone).elim
      · exact (hSomeNone hOld hNone).elim
    · exact (hSomeNone (hMembers hTables _ _ hm) hNone).elim
  | @accepted command inviteId i i' m receipt _ hAccepted =>
    obtain ⟨memberships, hInsert, hIdentity⟩ := hAccepted.admitted
    have hTables : (enrollmentEventAt e s c).after.memberships = memberships :=
      congrArg Identity.memberships hIdentity
    refine ⟨fun principal q q' hq hq' hNe => ?_, fun id j hNone hj => ?_,
      fun principal q hNone hq => ?_⟩
    · rw [hTables, Table.insert?_get?_of_some hInsert hq] at hq'
      exact absurd (Option.some.inj hq').symm hNe
    · rw [hAccepted.invites] at hj
      rcases Table.get?_set_cases hj with ⟨rfl, rfl⟩ | ⟨-, hOld⟩
      · exact (hSomeNone hAccepted.found hNone).elim
      · exact (hSomeNone hOld hNone).elim
    · have hRow := hq
      rw [hTables] at hq
      rcases Table.insert?_get?_cases hInsert hq with ⟨rfl, rfl⟩ | ⟨-, hOld⟩
      · exact ⟨inviteId, command, i, q, hOperation, rfl, hAccepted.found, hAccepted.unconsumed,
          hAccepted.newcomer, hRow, hAccepted.normalized.perm⟩
      · exact (hSomeNone hOld hNone).elim

end Steps

/-! ## Runs -/

/-- After every run each role of a member and of an open invitation comes from the start or from a
command whose actor was an owner or held it, and no step changes ranks otherwise. -/
theorem roles_not_escalated (e : Enrollment ι ν ε) (s : EnrollmentState)
    (calls : List (EnrollmentCall ι ε)) :
    RolesSourced s (Machine.trace (enrollmentStep e) s calls)
      (Machine.run (enrollmentStep e) s calls) ∧
    ∀ ev ∈ Machine.trace (enrollmentStep e) s calls, EnrollmentEvent.RankKept ev := by
  constructor
  · exact Machine.history (enrollmentStep e) (H := fun past t => RolesSourced s past t)
      (fun past t c h => h.step) (.initial s) calls
  · intro ev hev
    obtain ⟨before, after, -, hEvent⟩ := Machine.mem_trace _ hev
    rw [hEvent]
    exact enrollmentStep_rankKept e _ _

end Masonwing
