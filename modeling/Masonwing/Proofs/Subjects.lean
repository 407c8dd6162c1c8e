import Masonwing.Proofs.SignIn

/-!
# Principals and subjects

A principal stands for one subject of one issuer, and it does so for ever:

* `signInStep_names`: every step keeps the names of the identities, and adds no second one;
* `signInStep_session`: the envelope of a session is the one before, or names an identity;
* `subjects_stable`: so any two sessions, of any browsers at any times, are of one principal just if
  they are of one subject of one issuer.
-/

namespace Masonwing

open Outcome

variable {β ι ν ε : Type}

/-- The identities after a step keep the names of those before. -/
abbrev KeepsSubjects (s s' : EnrollmentState) : Prop :=
  s.identities.KeepsNames OidcIdentityRow.name s'.identities

/-! ## The store -/

section Store

variable {e : Enrollment ι ν ε} {tick : Tick} {s s' : EnrollmentState}

theorem runInvite_identities {c : Command MembershipInvite} {a : Answer}
    (h : e.runInvite tick s c = .ok (s', a)) : s'.identities = s.identities := by
  simp only [Enrollment.runInvite, bind_eq_ok, Prod.exists] at h
  obtain ⟨store, answer, -, h⟩ := h
  split at h
  · cases h
    rfl
  · simp only [bind_eq_ok, Prod.exists, pure_eq_ok, Prod.mk.injEq] at h
    obtain ⟨invites, m, -, rfl, -⟩ := h
    rfl

theorem retrieve_identities {actor : CommandActor} {inviteId : Uuid} {token : String}
    (h : e.retrieveMembershipInviteSecret tick s actor inviteId = .ok (s', token)) :
    s'.identities = s.identities := by
  simp only [Enrollment.retrieveMembershipInviteSecret, bind_eq_ok, parseUuid_eq_ok, okOr_eq_ok,
    require_eq_ok, sql_eq_ok, insertRow_eq_ok, pure_eq_ok, Prod.mk.injEq, exists_const] at h
  obtain ⟨tenant, -, principal, -, _, -, i, -, -, -, -, _, -, -, audit, -, rfl, -⟩ := h
  rfl

theorem accept_identities {c : MembershipAcceptCommand} {a : Answer}
    (h : e.executeMembershipAccept tick s c = .ok (s', a)) : s'.identities = s.identities := by
  simp only [Enrollment.executeMembershipAccept, bind_eq_ok, okOr_eq_ok, require_eq_ok,
    exists_const] at h
  obtain ⟨-, fingerprint, -, -, claims, -, -, -, email, -, h⟩ := h
  split at h
  · simp only [Enrollment.replayAcceptance, bind_eq_ok, require_eq_ok, pure_eq_ok, Prod.mk.injEq,
      exists_const] at h
    obtain ⟨-, -, -, rfl, -⟩ := h
    rfl
  · simp only [bind_eq_ok] at h
    obtain ⟨i, -, h⟩ := h
    simp only [Enrollment.admitMember, bind_eq_ok, require_eq_ok, okOr_eq_ok, sql_eq_ok,
      insertRow_eq_ok, pure_eq_ok, Prod.mk.injEq, exists_const] at h
    obtain ⟨roles, -, -, role, -, -, memberships, -, version, -, policy, -, journal, -, -,
      acceptances, -, rfl, -⟩ := h
    rfl

theorem enrollmentStep_names (e : Enrollment ι ν ε) (s : EnrollmentState)
    (c : EnrollmentCall ι ε) : KeepsSubjects s (enrollmentStep e s c).1 := by
  rcases transact_cases s (runEnrollmentOperation e c.tick s c.operation) with
    ⟨s', reply, hOk, hStep⟩ | ⟨failure, -, hStep⟩
  · have hEq : enrollmentStep e s c = (s', .ok reply) := hStep
    rw [hEq]
    obtain ⟨tick, operation⟩ := c
    cases operation with
    | host operation =>
      simp only [runEnrollmentOperation, bind_eq_ok, Prod.exists, pure_eq_ok, Prod.mk.injEq] at hOk
      obtain ⟨host, reply', -, rfl, -⟩ := hOk
      exact .refl _ _
    | invite c =>
      simp only [runEnrollmentOperation, bind_eq_ok, Prod.exists, pure_eq_ok, Prod.mk.injEq] at hOk
      obtain ⟨after, a, hRun, rfl, -⟩ := hOk
      exact .of_eq (runInvite_identities hRun)
    | retrieveSecret actor inviteId =>
      simp only [runEnrollmentOperation, bind_eq_ok, Prod.exists, pure_eq_ok, Prod.mk.injEq] at hOk
      obtain ⟨after, token, hRun, rfl, -⟩ := hOk
      exact .of_eq (retrieve_identities hRun)
    | accept c =>
      simp only [runEnrollmentOperation, bind_eq_ok, Prod.exists, pure_eq_ok, Prod.mk.injEq] at hOk
      obtain ⟨after, a, hRun, rfl, -⟩ := hOk
      exact .of_eq (accept_identities hRun)
    | login issuer subject email emailVerified =>
      simp only [runEnrollmentOperation, bind_eq_ok, Prod.exists, pure_eq_ok, Prod.mk.injEq] at hOk
      obtain ⟨after, id, hRun, rfl, -⟩ := hOk
      exact (upsertVerifiedIdentity_ok hRun).2
  · have hEq : enrollmentStep e s c = (s, .error failure) := hStep
    rw [hEq]
    exact .refl _ _

end Store

/-! ## Callbacks -/

section Callback

variable {x : SignIn} {clocks : Clocks} {tick : Tick} {t : SignInTables} {s : Session}
  {q : ProviderReturn} {context : CallbackContext}

theorem signIn_callback_names :
    KeepsSubjects t.enrollment (x.callback clocks tick t s q context).1.enrollment := by
  rcases signIn_callback_cases x clocks tick t s q context with hSame |
    ⟨state, pending, -, -, -, hAsked⟩
  · rw [hSame]
    exact .refl _ _
  · rw [hAsked]
    rcases completeCallbackInner_cases x.adapter clocks tick t state pending.browserBinding q
      pending.purpose.expected with ⟨hSame, -⟩ | ⟨row, -, -, -, -, ⟨hSame, -⟩ | ⟨completed, hOk, -⟩⟩
    · dsimp only
      rw [hSame]
      exact .refl _ _
    · dsimp only
      rw [hSame]
      exact .refl _ _
    · obtain ⟨code, response, claims, principal, -, -, -, -, hIdentify, -⟩ :=
        completeConsumed_ok hOk
      exact (identify_ok hIdentify).2.1

/-- A step-up finds the identity that it expects, or adds none. -/
theorem signIn_stepUp_names {pending : PendingOidcFlow} {principalId : Uuid}
    {issuer subject : String} (hFlow : s.flow = some pending)
    (hStepUp : pending.purpose = .stepUp principalId issuer subject) {principal : Uuid}
    {name : String × String}
    (h : (x.callback clocks tick t s q context).1.enrollment.identities.Names
      OidcIdentityRow.name principal name) :
    t.enrollment.identities.Names OidcIdentityRow.name principal name := by
  rcases signIn_callback_cases x clocks tick t s q context with hSame |
    ⟨state, begun, -, hBegun, -, hAsked⟩
  · rw [hSame] at h
    exact h
  cases hFlow.symm.trans hBegun
  rw [hAsked] at h
  have hExpected : pending.purpose.expected = some principalId := by
    rw [hStepUp]
    rfl
  rcases completeCallbackInner_cases x.adapter clocks tick t state pending.browserBinding q
    pending.purpose.expected with ⟨hSame, -⟩ | ⟨row, -, -, -, -, ⟨hSame, -⟩ | ⟨completed, hOk, -⟩⟩
  · dsimp only at h
    rw [hSame] at h
    exact h
  · dsimp only at h
    rw [hSame] at h
    exact h
  · obtain ⟨code, response, claims, found, -, -, -, -, hIdentify, -⟩ := completeConsumed_ok hOk
    exact ((identify_ok hIdentify).2.2 principalId hExpected).2 principal name h

/-- A session keeps its principal, or gets that of a login. -/
theorem SessionMove.principal {r : AuthRoutes} {ev : SessionEvent} {envelope : SessionEnvelope}
    (hMove : SessionMove r ev) (h : ev.after.auth = some envelope) :
    (∃ old, ev.before.auth = some old ∧ old.principal = envelope.principal) ∨
      ∃ completed, SessionEvent.LogsIn ev completed ∧ envelope.principal = completed.principal := by
  cases hMove with
  | kept hSame => exact Or.inl ⟨envelope, hSame.symm.trans h, rfl⟩
  | touched hBefore hCurrent hAfter =>
    cases hAfter.symm.trans h
    exact Or.inl ⟨_, hBefore, rfl⟩
  | steppedUp hBefore hCurrent hStepsUp hAfter =>
    cases hAfter.symm.trans h
    exact Or.inl ⟨_, hBefore, rfl⟩
  | established hLogin hOff hTouches hAfter hPrincipal =>
    cases hAfter.symm.trans h
    exact Or.inr ⟨_, hLogin, hPrincipal⟩
  | ended hBefore hCurrent hAfter => cases hAfter.symm.trans h

theorem signIn_callback_session {envelope : SessionEnvelope}
    (h : (x.callback clocks tick t s q context).2.1.auth = some envelope) :
    (∃ old, s.auth = some old ∧ old.principal = envelope.principal) ∨
      StandsFor (x.callback clocks tick t s q context).1.enrollment.identities
        envelope.principalId envelope.issuer envelope.subject := by
  rcases signIn_callback_cases x clocks tick t s q context with hSame |
    ⟨state, pending, -, -, -, hAsked⟩
  · rw [hSame] at h
    exact Or.inl ⟨envelope, h, rfl⟩
  rw [hAsked] at h ⊢
  generalize hCall : (AuthCallback.mk q.state q.code q.error _ context.verifiedAt
    context.memberships context.csrfToken) = c at h
  have hMove := sessionStep_move x.routes s ⟨clocks.host, .callback c⟩
  rcases hMove.principal h with hOld | ⟨completed, hLogin, hPrincipal⟩
  · exact Or.inl hOld
  · right
    obtain ⟨c', begun, hOperation, -, -, hCompletion, -⟩ := hLogin
    cases hOperation
    rw [← hCall] at hCompletion
    rcases completeCallbackInner_cases x.adapter clocks tick t state pending.browserBinding q
      pending.purpose.expected with ⟨-, -, hError⟩ |
      ⟨row, -, -, -, -, ⟨-, failure, hError⟩ | ⟨completed', hConsumed, hOk⟩⟩
    · cases hError.symm.trans hCompletion
    · cases hError.symm.trans hCompletion
    cases hOk.symm.trans hCompletion
    obtain ⟨code, response, claims, principal, -, -, -, -, hIdentify, rfl⟩ :=
      completeConsumed_ok hConsumed
    obtain ⟨hNamed, -⟩ := identify_ok hIdentify
    injection hPrincipal with hId hIssuer hSubject
    dsimp only
    rw [hId, hIssuer, hSubject]
    exact hNamed

end Callback

/-! ## Steps -/

section Steps

variable [DecidableEq β] {x : SignIn} {e : Enrollment ι ν ε} {s : SignInState β}
  {c : SignInCall β ι ε}

theorem signInStep_names (x : SignIn) (e : Enrollment ι ν ε) (s : SignInState β)
    (c : SignInCall β ι ε) :
    KeepsSubjects s.tables.enrollment (signInStep x e s c).1.tables.enrollment := by
  obtain ⟨clocks, tick, operation⟩ := c
  cases operation with
  | login browser stepUp returnTo draws =>
    refine .of_eq ?_
    have hTables :
        (signInStep x e s ⟨clocks, tick, .login browser stepUp returnTo draws⟩).1.tables =
          (x.login clocks s.tables (s.sessions browser) stepUp returnTo draws).1 := rfl
    rw [hTables]
    rcases login_cases x clocks s.tables (s.sessions browser) stepUp returnTo draws with
      ⟨hSame, -⟩ | ⟨target, purpose, transactions, -, -, -, hSame, -⟩
    · rw [hSame]
    · rw [hSame]
  | callback browser q context => exact signIn_callback_names
  | visit browser v => exact .refl _ _
  | cleanup => exact .refl _ _
  | store operation => exact enrollmentStep_names e s.tables.enrollment ⟨tick, operation⟩

/-- The session of a browser keeps its principal, or its principal is identified. -/
theorem signInStep_session {browser : β} {envelope : SessionEnvelope}
    (h : ((signInStep x e s c).1.sessions browser).auth = some envelope) :
    (∃ old, (s.sessions browser).auth = some old ∧ old.principal = envelope.principal) ∨
      StandsFor (signInStep x e s c).1.tables.enrollment.identities envelope.principalId
        envelope.issuer envelope.subject := by
  obtain ⟨clocks, tick, operation⟩ := c
  cases operation with
  | login other stepUp returnTo draws =>
    have hAfter : (Function.update s.sessions other (x.login clocks s.tables (s.sessions other)
        stepUp returnTo draws).2.1 browser).auth = some envelope := h
    left
    by_cases hOther : browser = other
    · subst hOther
      rw [Function.update_self] at hAfter
      rcases login_cases x clocks s.tables (s.sessions browser) stepUp returnTo draws with
        ⟨-, hSame, -⟩ | ⟨target, purpose, transactions, -, -, -, -, hSession⟩
      · rw [hSame] at hAfter
        exact ⟨envelope, hAfter, rfl⟩
      · rw [hSession] at hAfter
        exact ⟨envelope, hAfter, rfl⟩
    · rw [Function.update_of_ne hOther] at hAfter
      exact ⟨envelope, hAfter, rfl⟩
  | callback other q context =>
    have hAfter : (Function.update s.sessions other (x.callback clocks tick s.tables
        (s.sessions other) q context).2.1 browser).auth = some envelope := h
    by_cases hOther : browser = other
    · subst hOther
      rw [Function.update_self] at hAfter
      exact signIn_callback_session hAfter
    · rw [Function.update_of_ne hOther] at hAfter
      exact Or.inl ⟨envelope, hAfter, rfl⟩
  | visit other v =>
    have hAfter : (Function.update s.sessions other (sessionStep x.routes (s.sessions other)
        ⟨clocks.host, v.operation⟩).1 browser).auth = some envelope := h
    left
    by_cases hOther : browser = other
    · subst hOther
      rw [Function.update_self] at hAfter
      have hMove := sessionStep_move x.routes (s.sessions browser) ⟨clocks.host, v.operation⟩
      rcases hMove.principal hAfter with hOld | ⟨completed, ⟨c, pending, hOperation, -⟩, -⟩
      · exact hOld
      · cases v <;> cases hOperation
    · rw [Function.update_of_ne hOther] at hAfter
      exact ⟨envelope, hAfter, rfl⟩
  | cleanup => exact Or.inl ⟨envelope, h, rfl⟩
  | store operation => exact Or.inl ⟨envelope, h, rfl⟩

end Steps

/-! ## Runs -/

/-- The identities are named once, and every session is of one of them. -/
structure SessionsNamed (s : SignInState β) : Prop where
  once : s.tables.enrollment.identities.NamedOnce OidcIdentityRow.name
  sessions : ∀ browser envelope, (s.sessions browser).auth = some envelope →
    StandsFor s.tables.enrollment.identities envelope.principalId envelope.issuer envelope.subject

/-- The principal stands for the subject of the issuer. -/
def SignInState.Says (s : SignInState β) (a : Uuid × String × String) : Prop :=
  StandsFor s.tables.enrollment.identities a.1 a.2.1 a.2.2

section Runs

variable [DecidableEq β] {x : SignIn} {e : Enrollment ι ν ε} {s : SignInState β}

theorem SessionsNamed.step (c : SignInCall β ι ε) (h : SessionsNamed s) :
    SessionsNamed (signInStep x e s c).1 := by
  have hKeeps := signInStep_names x e s c
  refine ⟨hKeeps.once h.once, fun browser envelope hAuth => ?_⟩
  rcases signInStep_session hAuth with ⟨old, hOld, hSame⟩ | hNamed
  · have hNamed := hKeeps.names _ _ (h.sessions browser old hOld)
    injection hSame with hId hIssuer hSubject
    rw [hId, hIssuer, hSubject] at hNamed
    exact hNamed
  · exact hNamed

theorem run_names (x : SignIn) (e : Enrollment ι ν ε) (s : SignInState β)
    (calls : List (SignInCall β ι ε)) :
    KeepsSubjects s.tables.enrollment
      (Machine.run (signInStep x e) s calls).tables.enrollment := by
  refine Machine.run_invariant (signInStep x e)
    (I := fun s' => KeepsSubjects s.tables.enrollment s'.tables.enrollment)
    (fun s' c h => h.trans (signInStep_names x e s' c)) (.refl _ _) calls

/-- In a run from named identities and no sessions: whatever a principal stands for at one time, it
stands for at every later one; any two sessions, of any browsers at any times, are of one principal
just if they are of one subject of one issuer; and a callback of a step-up identifies nobody new. -/
theorem subjects_stable (x : SignIn) (e : Enrollment ι ν ε) (s : SignInState β)
    (hOnce : s.tables.enrollment.identities.NamedOnce OidcIdentityRow.name)
    (hAnonymous : ∀ browser, (s.sessions browser).auth = none) (calls : List (SignInCall β ι ε)) :
    ((Machine.trace (signInStep x e) s calls).Pairwise fun ev ev' => ∀ principal issuer subject,
      StandsFor ev.after.tables.enrollment.identities principal issuer subject →
        StandsFor ev'.after.tables.enrollment.identities principal issuer subject) ∧
    (∀ ev ∈ Machine.trace (signInStep x e) s calls, ∀ ev' ∈ Machine.trace (signInStep x e) s calls,
      ∀ browser browser' envelope envelope',
        (ev.after.sessions browser).auth = some envelope →
        (ev'.after.sessions browser').auth = some envelope' →
          (envelope.principalId = envelope'.principalId ↔
            envelope.issuer = envelope'.issuer ∧ envelope.subject = envelope'.subject)) ∧
    ∀ ev ∈ Machine.trace (signInStep x e) s calls, ∀ browser q context pending principalId issuer
      subject, ev.call.operation = .callback browser q context →
        (ev.before.sessions browser).flow = some pending →
        pending.purpose = .stepUp principalId issuer subject → ∀ principal name,
          ev.after.tables.enrollment.identities.Names OidcIdentityRow.name principal name →
            ev.before.tables.enrollment.identities.Names OidcIdentityRow.name principal name := by
  have hStart : SessionsNamed s := ⟨hOnce, fun browser envelope hAuth => by
    cases (hAnonymous browser).symm.trans hAuth⟩
  have hStep : ∀ (s : SignInState β) c, SessionsNamed s → SessionsNamed (signInStep x e s c).1 :=
    fun s c h => h.step c
  refine ⟨?_, fun ev hEv ev' hEv' browser browser' envelope envelope' hAuth hAuth' => ?_,
    fun ev hEv browser q context pending principalId issuer subject hOp hFlow hPurpose principal
      name hName => ?_⟩
  · have hPairs := Machine.trace_pairwise (signInStep x e)
      (Q := fun a ev => ev.after.Says a) (R := fun a ev => ev.after.Says a)
      (D := fun a s => s.Says a)
      (fun a s c h => h) (fun a s c h => (signInStep_names x e s c).names _ _ h)
      (fun a s c h => (signInStep_names x e s c).names _ _ h) s calls
    exact hPairs.imp fun hLater principal issuer subject hHere =>
      hLater (principal, issuer, subject) hHere
  · -- both are identified at the end of the run
    have hFinal : ∀ ev ∈ Machine.trace (signInStep x e) s calls, ∀ browser envelope,
        (ev.after.sessions browser).auth = some envelope →
        (Machine.run (signInStep x e) s calls).tables.enrollment.identities.Names
          OidcIdentityRow.name envelope.principalId (envelope.issuer, envelope.subject) := by
      intro ev hEv browser envelope hAuth
      obtain ⟨before, after, rfl, hEvent⟩ := Machine.mem_trace (signInStep x e) hEv
      have hAfter : SessionsNamed ev.after := by
        rw [hEvent]
        exact (Machine.run_invariant (signInStep x e) hStep hStart before).step ev.call
      have hRest := run_names x e ev.after after
      have hRun : Machine.run (signInStep x e) s (before ++ ev.call :: after) =
          Machine.run (signInStep x e) ev.after after := by
        rw [Machine.run_append, hEvent]
        rfl
      rw [hRun]
      exact hRest.names _ _ (hAfter.sessions browser envelope hAuth)
    have hEnd := (Machine.run_invariant (signInStep x e) hStep hStart calls).once
    have hIff := hEnd.key_eq_iff (hFinal ev hEv browser envelope hAuth)
      (hFinal ev' hEv' browser' envelope' hAuth')
    rw [hIff, Prod.mk.injEq]
  · obtain ⟨before, after, -, hEvent⟩ := Machine.mem_trace (signInStep x e) hEv
    generalize Machine.run (signInStep x e) s before = reached at hEvent
    generalize ev.call = call at hEvent hOp
    subst hEvent
    obtain ⟨clocks, tick, operation⟩ := call
    dsimp only at hOp
    subst hOp
    exact signIn_stepUp_names hFlow hPurpose hName

end Runs

/-- The two browsers have come back with one subject, and as one principal. -/
theorem arrivals_stable :
    (([true, false].map fun browser =>
      ((Machine.run (signInStep Sample.signIn Sample.enrollment) Sample.lobby
        Sample.arrivals).sessions browser).auth.map (·.principalId)) =
          [some ((Sample.reading 2).draw .oidcPrincipal),
            some ((Sample.reading 2).draw .oidcPrincipal)]) ∧
    ∀ ev ∈ Machine.trace (signInStep Sample.signIn Sample.enrollment) Sample.lobby Sample.arrivals,
      ∀ ev' ∈ Machine.trace (signInStep Sample.signIn Sample.enrollment) Sample.lobby
        Sample.arrivals, ∀ browser browser' envelope envelope',
        (ev.after.sessions browser).auth = some envelope →
        (ev'.after.sessions browser').auth = some envelope' →
          (envelope.principalId = envelope'.principalId ↔
            envelope.issuer = envelope'.issuer ∧ envelope.subject = envelope'.subject) := by
  refine ⟨Sample.arrivals_answered.2, ?_⟩
  have hOnce : Sample.lobby.tables.enrollment.identities.NamedOnce OidcIdentityRow.name := by
    rintro k k' a ⟨row, hRow, -⟩
    cases hRow
  exact (subjects_stable Sample.signIn Sample.enrollment Sample.lobby hOnce (fun _ => rfl)
    Sample.arrivals).2.1

end Masonwing
