import Masonwing.HostApi.Sessions

/-!
# Expiry and step-up of a session

Every request either leaves the envelope alone, touches one that is current, records a step-up in
it, replaces it at a login, or drops it (`SessionMove`). What the past says about an envelope
(`Documented`) is kept by each of these.

* `session_freshness`: an envelope works only before its absolute expiry and while it is not idle, an
  expired one is never used again, and a step-up is no older than its settings allow.
-/

namespace Masonwing

open Outcome

/-! ## Events -/

namespace SessionEvent

/-- The event answered. -/
def Succeeds (ev : SessionEvent) : Prop := ∃ reply, ev.response = .ok reply

/-- A completed login. -/
def LogsIn (ev : SessionEvent) (completed : CompletedLogin) : Prop :=
  ∃ c pending, ev.call.operation = .callback c ∧ ev.before.flow = some pending ∧
    pending.purpose = .login ∧ c.completion = .ok completed ∧ SessionEvent.Succeeds ev

/-- A completed step-up of the principal. -/
def StepsUp (r : AuthRoutes) (ev : SessionEvent) (principal : VerifiedOidcPrincipal)
    (evidence : VerifiedStepUpEvidence) : Prop :=
  ∃ c pending completed, ev.call.operation = .callback c ∧ ev.before.flow = some pending ∧
    pending.purpose = .stepUp principal.principalId principal.issuer principal.subject ∧
    c.completion = .ok completed ∧
    verifyStepUpClaims r.stepUp completed c.verifiedAt = .ok evidence ∧
    evidence.principalId = principal.principalId ∧ evidence.issuer = principal.issuer ∧
    evidence.subject = principal.subject ∧ SessionEvent.Succeeds ev

/-- The event renewed the inactivity window; a view does so before it lists the memberships. -/
def Touches (r : AuthRoutes) (ev : SessionEvent) : Prop :=
  match ev.call.operation with
  | .callback _ | .touch => SessionEvent.Succeeds ev
  | .view _ _ => ∃ p, r.sessions.touchAuthenticated ev.call.now ev.before = .ok p
  | _ => False

/-- The request is one on the authenticated envelope. -/
def OnEnvelope (ev : SessionEvent) : Prop :=
  match ev.call.operation with
  | .login stepUp _ _ => stepUp = true
  | .callback _ => ∀ pending ∈ ev.before.flow, pending.purpose ≠ .login
  | _ => True

end SessionEvent

namespace SessionAuthority

/-- The envelope is neither too old nor idle. -/
def Current (a : SessionAuthority) (envelope : SessionEnvelope) (now : Int) : Prop :=
  now < envelope.absoluteExpiresAt ∧ now < envelope.lastSeenAt + a.idleTimeout

end SessionAuthority

def SessionEnvelope.principal (envelope : SessionEnvelope) : VerifiedOidcPrincipal :=
  { principalId := envelope.principalId, issuer := envelope.issuer, subject := envelope.subject }

/-! ## Steps -/

section Operations

variable {a : SessionAuthority} {now : Int} {s s' : Session} {auth : AuthenticatedSession}

theorem peekAuthenticated_ok (h : a.peekAuthenticated now s = .ok auth) :
    ∃ envelope, s.auth = some envelope ∧ a.Current envelope now ∧ auth = a.project envelope := by
  simp only [SessionAuthority.peekAuthenticated, SessionAuthority.readEnvelope,
    SessionAuthority.ensureNotExpired, bind_eq_ok, okOr_eq_ok, require_eq_ok, pure_eq_ok,
    exists_const] at h
  obtain ⟨envelope, hAuth, hCurrent, rfl⟩ := h
  exact ⟨envelope, hAuth, hCurrent, rfl⟩

theorem touchAuthenticated_ok (h : a.touchAuthenticated now s = .ok (s', auth)) :
    ∃ envelope, s.auth = some envelope ∧ a.Current envelope now ∧
      s' = { s with auth := some { envelope with lastSeenAt := now } } := by
  simp only [SessionAuthority.touchAuthenticated, SessionAuthority.readEnvelope,
    SessionAuthority.ensureNotExpired, bind_eq_ok, okOr_eq_ok, require_eq_ok, pure_eq_ok,
    exists_const, Prod.mk.injEq] at h
  obtain ⟨envelope, hAuth, hCurrent, rfl, -⟩ := h
  exact ⟨envelope, hAuth, hCurrent, rfl⟩

theorem recordVerifiedStepUp_ok {proof : VerifiedStepUpEvidence}
    (h : a.recordVerifiedStepUp now s proof = .ok (s', auth)) :
    ∃ envelope, s.auth = some envelope ∧ a.Current envelope now ∧
      (proof.principalId = envelope.principalId ∧ proof.issuer = envelope.issuer ∧
        proof.subject = envelope.subject) ∧
      s' = { s with auth := some { envelope with
        stepUpExpiresAt := some (proof.verifiedAt + a.stepUpTimeout), lastSeenAt := now } } := by
  simp only [SessionAuthority.recordVerifiedStepUp, SessionAuthority.readEnvelope,
    SessionAuthority.ensureNotExpired, bind_eq_ok, okOr_eq_ok, require_eq_ok, pure_eq_ok,
    exists_const, Prod.mk.injEq] at h
  obtain ⟨envelope, hAuth, hCurrent, ⟨hSame, -⟩, rfl, -⟩ := h
  exact ⟨envelope, hAuth, hCurrent, hSame, rfl⟩

/-- A verified step-up is recent, up to the allowed age and the skew of the clocks. -/
theorem verifyStepUpClaims_ok {config : StepUpConfig} {completed : CompletedLogin}
    {evidence : VerifiedStepUpEvidence} (h : verifyStepUpClaims config completed now = .ok evidence) :
    evidence.verifiedAt = now ∧
      now - evidence.authTime ≤ seconds config.maxAgeSeconds + seconds config.clockSkewSeconds ∧
      evidence.acr ∈ config.acrValues ∧ completed.authContextRef = some evidence.acr ∧
      (∃ actual ∈ completed.authMethodRefs, ∃ allowed ∈ config.strongAmrValues,
        eqIgnoreAsciiCase allowed actual = true) ∧
      completed.authTime = some evidence.authTime := by
  simp only [verifyStepUpClaims, bind_eq_ok, okOr_eq_ok, require_eq_ok, pure_eq_ok, exists_const,
    Option.filter_eq_some_iff, List.contains_iff_mem, List.any_eq_true] at h
  obtain ⟨authTime, hTime, ⟨-, hAge⟩, acr, ⟨hAcr, hAllowed⟩, hStrong, rfl⟩ := h
  exact ⟨rfl, hAge, hAllowed, hAcr, hStrong, hTime⟩

/-- The evidence is about the principal of the code flow. -/
theorem verifyStepUpClaims_principal {config : StepUpConfig} {completed : CompletedLogin}
    {evidence : VerifiedStepUpEvidence} (h : verifyStepUpClaims config completed now = .ok evidence) :
    evidence.principalId = completed.principal.principalId ∧
      evidence.issuer = completed.principal.issuer ∧
      evidence.subject = completed.principal.subject := by
  simp only [verifyStepUpClaims, bind_eq_ok, okOr_eq_ok, require_eq_ok, pure_eq_ok,
    exists_const] at h
  obtain ⟨authTime, -, -, acr, -, -, rfl⟩ := h
  exact ⟨rfl, rfl, rfl⟩

end Operations

/-- What an event does to the envelope. -/
inductive SessionMove (r : AuthRoutes) (ev : SessionEvent) : Prop
  | kept (hAfter : ev.after.auth = ev.before.auth) (hTouches : ¬ SessionEvent.Touches r ev)
      (hLogin : ∀ completed, ¬ SessionEvent.LogsIn ev completed)
      (hCurrent : SessionEvent.OnEnvelope ev → SessionEvent.Succeeds ev →
        ∃ envelope, ev.before.auth = some envelope ∧
          r.sessions.Current envelope ev.call.now) : SessionMove r ev
  | touched {envelope : SessionEnvelope} (hBefore : ev.before.auth = some envelope)
      (hCurrent : r.sessions.Current envelope ev.call.now)
      (hAfter : ev.after.auth = some { envelope with lastSeenAt := ev.call.now })
      (hTouches : SessionEvent.Touches r ev)
      (hLogin : ∀ completed, ¬ SessionEvent.LogsIn ev completed) : SessionMove r ev
  | steppedUp {envelope : SessionEnvelope} {evidence : VerifiedStepUpEvidence}
      (hBefore : ev.before.auth = some envelope)
      (hCurrent : r.sessions.Current envelope ev.call.now)
      (hStepsUp : SessionEvent.StepsUp r ev envelope.principal evidence)
      (hAfter : ev.after.auth = some { envelope with
        stepUpExpiresAt := some (evidence.verifiedAt + r.sessions.stepUpTimeout)
        lastSeenAt := ev.call.now })
      (hTouches : SessionEvent.Touches r ev)
      (hLogin : ∀ completed, ¬ SessionEvent.LogsIn ev completed) : SessionMove r ev
  | established {completed : CompletedLogin} {envelope : SessionEnvelope}
      (hLogin : SessionEvent.LogsIn ev completed) (hEnvelope : ¬ SessionEvent.OnEnvelope ev)
      (hTouches : SessionEvent.Touches r ev) (hAfter : ev.after.auth = some envelope)
      (hPrincipal : envelope.principal = completed.principal)
      (hSeen : envelope.lastSeenAt = ev.call.now)
      (hExpiry : envelope.absoluteExpiresAt = ev.call.now + r.sessions.absoluteTimeout)
      (hStepUp : envelope.stepUpExpiresAt = none) : SessionMove r ev
  | ended {envelope : SessionEnvelope} (hBefore : ev.before.auth = some envelope)
      (hCurrent : r.sessions.Current envelope ev.call.now) (hAfter : ev.after.auth = none)
      (hTouches : ¬ SessionEvent.Touches r ev)
      (hLogin : ∀ completed, ¬ SessionEvent.LogsIn ev completed) : SessionMove r ev

section Steps

variable {r : AuthRoutes} {now : Int} {s : Session}

theorem login_auth {stepUp : Bool} {binding : Except OidcError String} {target : String} :
    (r.login now s stepUp binding target).1.auth = s.auth := by
  unfold AuthRoutes.login
  split
  · split
    · rfl
    · split
      · rfl
      · rfl
  · split
    · rfl
    · rfl

theorem login_stepUp {binding : Except OidcError String} {target : String} {reply : SessionReply}
    (h : (r.login now s true binding target).2 = .ok reply) :
    ∃ envelope, s.auth = some envelope ∧ r.sessions.Current envelope now := by
  unfold AuthRoutes.login at h
  rw [if_pos rfl] at h
  split at h
  · cases h
  · rename_i auth hPeek
    obtain ⟨envelope, hAuth, hCurrent, -⟩ := peekAuthenticated_ok hPeek
    exact ⟨envelope, hAuth, hCurrent⟩

/-- A callback that fails leaves the envelope alone. -/
theorem callback_error {c : AuthCallback} {failure : AuthError}
    (h : (r.callback now s c).2 = .error failure) : (r.callback now s c).1.auth = s.auth := by
  unfold AuthRoutes.callback at h ⊢
  split at h
  · rename_i hQuery
    rw [if_pos hQuery]
  rename_i hQuery
  rw [if_neg hQuery]
  split at h
  · rfl
  · split at h
    · dsimp only
      split
      · rfl
      · rfl
    · split at h
      · unfold AuthRoutes.completeLogin at h ⊢
        split at h
        · rfl
        · cases h
      · unfold AuthRoutes.completeStepUp at h ⊢
        split at h
        · rename_i hSame
          rw [if_pos hSame]
          split at h
          · rfl
          · split at h
            · rfl
            · cases h
        · rename_i hOther
          rw [if_neg hOther]
          rfl

/-- A callback that succeeds completes the login or the step-up that was begun. -/
theorem callback_ok {c : AuthCallback} {reply : SessionReply}
    (h : (r.callback now s c).2 = .ok reply) :
    ∃ pending completed, s.flow = some pending ∧ c.completion = .ok completed ∧
      ((pending.purpose = .login ∧ ∃ auth,
        r.sessions.establishAuthenticatedSession now c.memberships c.csrfToken
          completed.principal = .ok ((r.callback now s c).1, auth)) ∨
      ∃ principalId issuer subject evidence auth,
        pending.purpose = .stepUp principalId issuer subject ∧
        (completed.principal.principalId = principalId ∧ completed.principal.issuer = issuer ∧
          completed.principal.subject = subject) ∧
        verifyStepUpClaims r.stepUp completed c.verifiedAt = .ok evidence ∧
        r.sessions.recordVerifiedStepUp now (clearOidcBrowserFlow s) evidence =
          .ok ((r.callback now s c).1, auth)) := by
  unfold AuthRoutes.callback at h ⊢
  split at h
  · cases h
  rename_i hQuery
  rw [if_neg hQuery]
  split at h
  · cases h
  · rename_i pending hFlow
    split at h
    · cases h
    · rename_i completed hCompletion
      refine ⟨pending, completed, hFlow, hCompletion, ?_⟩
      split at h
      · rename_i hPurpose
        refine Or.inl ⟨hPurpose, ?_⟩
        unfold AuthRoutes.completeLogin at h ⊢
        split at h
        · cases h
        · rename_i s' auth hEstablished
          exact ⟨auth, hEstablished⟩
      · rename_i principalId issuer subject hPurpose
        refine Or.inr ⟨principalId, issuer, subject, ?_⟩
        unfold AuthRoutes.completeStepUp at h ⊢
        split at h
        · rename_i hSame
          rw [if_pos hSame]
          split at h
          · cases h
          · rename_i evidence hVerified
            split at h
            · cases h
            · rename_i s' auth hRecorded
              exact ⟨evidence, auth, hPurpose, hSame, hVerified, hRecorded⟩
        · cases h

theorem logout_cases (r : AuthRoutes) (now : Int) (s : Session) (origin csrf : Option String) :
    ((r.logout now s origin csrf).1 = s ∧ ∃ failure,
      (r.logout now s origin csrf).2 = .error failure) ∨
    ((r.logout now s origin csrf).1 = .anonymous ∧
      ∃ envelope, s.auth = some envelope ∧ r.sessions.Current envelope now) := by
  unfold AuthRoutes.logout
  split
  · rename_i failure _
    exact Or.inl ⟨rfl, failure, rfl⟩
  · rename_i auth hPeek
    obtain ⟨envelope, hAuth, hCurrent, -⟩ := peekAuthenticated_ok hPeek
    split
    · rename_i failure _
      exact Or.inl ⟨rfl, failure, rfl⟩
    · exact Or.inr ⟨rfl, envelope, hAuth, hCurrent⟩

theorem sessionView_cases (r : AuthRoutes) (now viewedAt : Int)
    (memberships : Option (List Uuid)) (s : Session) :
    (∃ failure, r.sessions.touchAuthenticated now s = .error failure ∧
      r.sessions.sessionView now viewedAt memberships s = (s, .error failure)) ∨
    ∃ p, r.sessions.touchAuthenticated now s = .ok p ∧
      (r.sessions.sessionView now viewedAt memberships s).1 = p.1 := by
  unfold SessionAuthority.sessionView
  split
  · rename_i failure hTouch
    exact Or.inl ⟨failure, hTouch, rfl⟩
  · rename_i s' auth hTouch
    refine Or.inr ⟨(s', auth), hTouch, ?_⟩
    split
    · rfl
    · rfl

end Steps

theorem sessionStep_callback (r : AuthRoutes) (s : Session) (now : Int) (c : AuthCallback) :
    SessionMove r (Machine.eventAt (sessionStep r) s ⟨now, .callback c⟩) := by
  have hStep : sessionStep r s ⟨now, .callback c⟩ = r.callback now s c := rfl
  cases hResponse : (r.callback now s c).2 with
  | error failure =>
    have hFails : ¬ SessionEvent.Succeeds
        (Machine.eventAt (sessionStep r) s ⟨now, .callback c⟩) := by
      rintro ⟨reply, hOk⟩
      cases hResponse.symm.trans hOk
    refine .kept (callback_error hResponse) hFails ?_ fun _ hOk => absurd hOk hFails
    rintro completed ⟨c', pending, -, -, -, -, hOk⟩
    exact hFails hOk
  | ok reply =>
    have hOk : SessionEvent.Succeeds
        (Machine.eventAt (sessionStep r) s ⟨now, .callback c⟩) := ⟨reply, hResponse⟩
    obtain ⟨pending, completed, hFlow, hCompletion, ⟨hPurpose, auth, hEstablished⟩ |
      ⟨principalId, issuer, subject, evidence, auth, hPurpose, hSame, hVerified, hRecorded⟩⟩ :=
      callback_ok hResponse
    · simp only [SessionAuthority.establishAuthenticatedSession, bind_eq_ok, okOr_eq_ok,
        pure_eq_ok, Prod.mk.injEq] at hEstablished
      obtain ⟨memberships, -, hAfter, -⟩ := hEstablished
      refine .established ⟨c, pending, rfl, hFlow, hPurpose, hCompletion, hOk⟩ ?_ hOk
        (congrArg Session.auth hAfter.symm) rfl rfl rfl rfl
      exact fun hEnvelope => hEnvelope pending hFlow hPurpose
    · have hPrincipal : evidence.principalId = principalId ∧ evidence.issuer = issuer ∧
          evidence.subject = subject := by
        obtain ⟨hId, hIssuer, hSubject⟩ := verifyStepUpClaims_principal hVerified
        exact ⟨hId.trans hSame.1, hIssuer.trans hSame.2.1, hSubject.trans hSame.2.2⟩
      obtain ⟨envelope, hAuth, hCurrent, ⟨hId, hIssuer, hSubject⟩, hAfter⟩ :=
        recordVerifiedStepUp_ok hRecorded
      have hStepsUp : SessionEvent.StepsUp r
          (Machine.eventAt (sessionStep r) s ⟨now, .callback c⟩) envelope.principal evidence := by
        refine ⟨c, pending, completed, rfl, hFlow, ?_, hCompletion, hVerified, hId, hIssuer,
          hSubject, hOk⟩
        rw [hPurpose, ← hPrincipal.1, ← hPrincipal.2.1, ← hPrincipal.2.2, hId, hIssuer, hSubject]
        rfl
      refine .steppedUp hAuth hCurrent hStepsUp (congrArg Session.auth hAfter) hOk ?_
      rintro completed' ⟨c', pending', -, hFlow', hLogin, -⟩
      cases hFlow.symm.trans hFlow'
      rw [hPurpose] at hLogin
      cases hLogin

theorem sessionStep_move (r : AuthRoutes) (s : Session) (call : SessionCall) :
    SessionMove r (Machine.eventAt (sessionStep r) s call) := by
  obtain ⟨now, operation⟩ := call
  cases operation with
  | login stepUp binding target =>
    refine .kept login_auth id ?_ ?_
    · rintro completed ⟨c, pending, hOperation, -⟩
      cases hOperation
    · rintro hStepUp ⟨reply, hOk⟩
      have hStepUp : stepUp = true := hStepUp
      subst hStepUp
      exact login_stepUp hOk
  | callback c => exact sessionStep_callback r s now c
  | peek =>
    refine .kept rfl id ?_ ?_
    · rintro completed ⟨c, pending, hOperation, -⟩
      cases hOperation
    · rintro - ⟨reply, hOk⟩
      have hPeek : (r.sessions.peekAuthenticated now s).map SessionReply.session = .ok reply := hOk
      cases hRead : r.sessions.peekAuthenticated now s with
      | error failure =>
        rw [hRead] at hPeek
        cases hPeek
      | ok auth =>
        obtain ⟨envelope, hAuth, hCurrent, -⟩ := peekAuthenticated_ok hRead
        exact ⟨envelope, hAuth, hCurrent⟩
  | touch =>
    have hLogin : ∀ completed, ¬ SessionEvent.LogsIn
        (Machine.eventAt (sessionStep r) s ⟨now, .touch⟩) completed := by
      rintro completed ⟨c, pending, hOperation, -⟩
      cases hOperation
    cases hTouch : r.sessions.touchAuthenticated now s with
    | error failure =>
      have hStep : sessionStep r s ⟨now, .touch⟩ = (s, .error failure) := by
        simp only [sessionStep, hTouch]
      have hFails : ¬ SessionEvent.Succeeds
          (Machine.eventAt (sessionStep r) s ⟨now, .touch⟩) := by
        rintro ⟨reply, hOk⟩
        have hResponse : (sessionStep r s ⟨now, .touch⟩).2 = .ok reply := hOk
        rw [hStep] at hResponse
        cases hResponse
      exact .kept (congrArg (fun p => p.1.auth) hStep) hFails hLogin
        fun _ hOk => absurd hOk hFails
    | ok p =>
      obtain ⟨s', auth⟩ := p
      have hStep : sessionStep r s ⟨now, .touch⟩ = (s', .ok (.session auth)) := by
        simp only [sessionStep, hTouch]
      obtain ⟨envelope, hAuth, hCurrent, rfl⟩ := touchAuthenticated_ok hTouch
      exact .touched hAuth hCurrent (congrArg (fun p => p.1.auth) hStep)
        ⟨_, congrArg Prod.snd hStep⟩ hLogin
  | view viewedAt memberships =>
    have hLogin : ∀ completed, ¬ SessionEvent.LogsIn
        (Machine.eventAt (sessionStep r) s ⟨now, .view viewedAt memberships⟩) completed := by
      rintro completed ⟨c, pending, hOperation, -⟩
      cases hOperation
    have hStep : sessionStep r s ⟨now, .view viewedAt memberships⟩ =
        ((r.sessions.sessionView now viewedAt memberships s).1,
          (r.sessions.sessionView now viewedAt memberships s).2.map .view) := rfl
    rcases sessionView_cases r now viewedAt memberships s with
      ⟨failure, hTouch, hView⟩ | ⟨p, hTouch, hView⟩
    · rw [hView] at hStep
      refine .kept (congrArg (fun p => p.1.auth) hStep) ?_ hLogin ?_
      · rintro ⟨p, hOk⟩
        have hTouched : r.sessions.touchAuthenticated now s = .ok p := hOk
        rw [hTouch] at hTouched
        cases hTouched
      · rintro - ⟨reply, hOk⟩
        have hResponse := (congrArg Prod.snd hStep).symm.trans hOk
        cases hResponse
    · obtain ⟨s', auth⟩ := p
      obtain ⟨envelope, hAuth, hCurrent, rfl⟩ := touchAuthenticated_ok hTouch
      rw [hView] at hStep
      exact .touched hAuth hCurrent (congrArg (fun p => p.1.auth) hStep) ⟨_, hTouch⟩ hLogin
  | logout origin csrf =>
    have hLogin : ∀ completed, ¬ SessionEvent.LogsIn
        (Machine.eventAt (sessionStep r) s ⟨now, .logout origin csrf⟩) completed := by
      rintro completed ⟨c, pending, hOperation, -⟩
      cases hOperation
    rcases logout_cases r now s origin csrf with
      ⟨hAfter, failure, hFails⟩ | ⟨hAfter, envelope, hAuth, hCurrent⟩
    · refine .kept (congrArg Session.auth hAfter) id hLogin ?_
      rintro - ⟨reply, hOk⟩
      cases hFails.symm.trans hOk
    · exact .ended hAuth hCurrent (congrArg Session.auth hAfter) id hLogin

/-! ## Expiry -/

section Expiry

variable {r : AuthRoutes} {now : Int} {s : Session}

/-- Nothing in the session works any more at this time. -/
def SessionAuthority.Expired (a : SessionAuthority) (t : Int) (s : Session) : Prop :=
  ∀ envelope, s.auth = some envelope → ¬ a.Current envelope t

theorem SessionAuthority.Current.earlier {a : SessionAuthority} {envelope : SessionEnvelope} {t : Int}
    (h : a.Current envelope now) (ht : t ≤ now) : a.Current envelope t :=
  ⟨lt_of_le_of_lt ht h.1, lt_of_le_of_lt ht h.2⟩

theorem OidcError.toAuthError_ne_expired (failure : OidcError) :
    failure.toAuthError ≠ .sessionExpired := by
  cases failure <;> exact AuthError.noConfusion

theorem expired_of_peek (h : r.sessions.peekAuthenticated now s = .error .sessionExpired) :
    r.sessions.Expired now s := by
  simp only [SessionAuthority.peekAuthenticated, SessionAuthority.readEnvelope,
    SessionAuthority.ensureNotExpired, bind_eq_error, okOr_eq_error, okOr_eq_ok,
    require_eq_error] at h
  intro envelope hAuth
  rcases h with ⟨-, hNone⟩ | ⟨envelope', hAuth', ⟨hExpired, -⟩ | ⟨_, -, hPure⟩⟩
  · cases hNone
  · cases hAuth.symm.trans hAuth'
    exact hExpired
  · cases hPure

theorem expired_of_touch (h : r.sessions.touchAuthenticated now s = .error .sessionExpired) :
    r.sessions.Expired now s := by
  simp only [SessionAuthority.touchAuthenticated, SessionAuthority.readEnvelope,
    SessionAuthority.ensureNotExpired, bind_eq_error, okOr_eq_error, okOr_eq_ok,
    require_eq_error] at h
  intro envelope hAuth
  rcases h with ⟨-, hNone⟩ | ⟨envelope', hAuth', ⟨hExpired, -⟩ | ⟨_, -, hPure⟩⟩
  · cases hNone
  · cases hAuth.symm.trans hAuth'
    exact hExpired
  · cases hPure

theorem expired_of_record {proof : VerifiedStepUpEvidence}
    (h : r.sessions.recordVerifiedStepUp now s proof = .error .sessionExpired) :
    r.sessions.Expired now s := by
  simp only [SessionAuthority.recordVerifiedStepUp, SessionAuthority.readEnvelope,
    SessionAuthority.ensureNotExpired, bind_eq_error, okOr_eq_error, okOr_eq_ok,
    require_eq_error] at h
  intro envelope hAuth
  rcases h with ⟨-, hNone⟩ | ⟨envelope', hAuth', ⟨hExpired, -⟩ | ⟨_, -, ⟨-, hRefused⟩ |
    ⟨_, -, hPure⟩⟩⟩
  · cases hNone
  · cases hAuth.symm.trans hAuth'
    exact hExpired
  · cases hRefused
  · cases hPure

/-- A callback answers that the session is expired only if it is. -/
theorem expired_of_callback {c : AuthCallback}
    (h : (r.callback now s c).2 = .error .sessionExpired) : r.sessions.Expired now s := by
  unfold AuthRoutes.callback at h
  split at h
  · cases h
  split at h
  · cases h
  · split at h
    · rename_i failure _
      exact absurd (Except.error.inj h) failure.toAuthError_ne_expired
    · split at h
      · unfold AuthRoutes.completeLogin at h
        split at h
        · rename_i failure hEstablished
          simp only [SessionAuthority.establishAuthenticatedSession, bind_eq_error,
            okOr_eq_error] at hEstablished
          rcases hEstablished with ⟨-, hSame⟩ | ⟨_, -, hPure⟩
          · rw [← hSame] at h
            cases h
          · cases hPure
        · cases h
      · unfold AuthRoutes.completeStepUp at h
        split at h
        · split at h
          · rename_i failure _
            exact absurd (Except.error.inj h) failure.toAuthError_ne_expired
          · split at h
            · rename_i failure hRecorded
              cases Except.error.inj h
              have hOut := expired_of_record hRecorded
              exact hOut
            · cases h
        · cases h

theorem expired_of_response {call : SessionCall}
    (h : (sessionStep r s call).2 = .error .sessionExpired) :
    r.sessions.Expired call.now s ∧ (sessionStep r s call).1.auth = s.auth := by
  obtain ⟨now, operation⟩ := call
  cases operation with
  | login stepUp binding target =>
    refine ⟨?_, login_auth⟩
    have hLogin : (r.login now s stepUp binding target).2 = .error .sessionExpired := h
    unfold AuthRoutes.login at hLogin
    split at hLogin
    · split at hLogin
      · rename_i failure hPeek
        cases Except.error.inj hLogin
        exact expired_of_peek hPeek
      · split at hLogin
        · rename_i failure
          exact absurd (Except.error.inj hLogin) failure.toAuthError_ne_expired
        · cases hLogin
    · split at hLogin
      · rename_i failure
        exact absurd (Except.error.inj hLogin) failure.toAuthError_ne_expired
      · cases hLogin
  | callback c => exact ⟨expired_of_callback h, callback_error h⟩
  | peek =>
    refine ⟨?_, rfl⟩
    have hPeek : (r.sessions.peekAuthenticated now s).map SessionReply.session =
        .error .sessionExpired := h
    cases hRead : r.sessions.peekAuthenticated now s with
    | error failure =>
      rw [hRead] at hPeek
      cases hPeek
      exact expired_of_peek hRead
    | ok auth =>
      rw [hRead] at hPeek
      cases hPeek
  | touch =>
    cases hTouch : r.sessions.touchAuthenticated now s with
    | error failure =>
      simp only [sessionStep, hTouch] at h ⊢
      cases h
      exact ⟨expired_of_touch hTouch, trivial⟩
    | ok p =>
      simp only [sessionStep, hTouch] at h
      cases h
  | view viewedAt memberships =>
    rcases sessionView_cases r now viewedAt memberships s with
      ⟨failure, hTouch, hView⟩ | ⟨p, hTouch, hView⟩
    · simp only [sessionStep, hView] at h ⊢
      cases h
      exact ⟨expired_of_touch hTouch, trivial⟩
    · have hMap : (r.sessions.sessionView now viewedAt memberships s).2.map SessionReply.view =
          .error .sessionExpired := h
      unfold SessionAuthority.sessionView at hMap
      rw [hTouch] at hMap
      dsimp only at hMap
      split at hMap
      · cases hMap
      · cases hMap
  | logout origin csrf =>
    have hLogout : (r.logout now s origin csrf).2 = .error .sessionExpired := h
    rcases logout_cases r now s origin csrf with ⟨hAfter, -⟩ | ⟨-, envelope, hAuth, hCurrent⟩
    · refine ⟨?_, congrArg Session.auth hAfter⟩
      unfold AuthRoutes.logout at hLogout
      split at hLogout
      · rename_i failure hPeek
        cases Except.error.inj hLogout
        exact expired_of_peek hPeek
      · split at hLogout
        · rename_i auth _ failure hCsrf
          cases Except.error.inj hLogout
          simp only [verifyCsrf, bind_eq_error, okOr_eq_error, require_eq_error] at hCsrf
          rcases hCsrf with ⟨-, hSame⟩ | ⟨_, -, ⟨-, hSame⟩ | ⟨_, -, -, hSame⟩⟩
          · cases hSame
          · cases hSame
          · cases hSame
        · cases hLogout
    · have hPeek : r.sessions.peekAuthenticated now s = .ok (r.sessions.project envelope) := by
        simp only [SessionAuthority.peekAuthenticated, SessionAuthority.readEnvelope,
          SessionAuthority.ensureNotExpired, bind_eq_ok, okOr_eq_ok, require_eq_ok, pure_eq_ok,
          exists_const]
        exact ⟨envelope, hAuth, hCurrent, rfl⟩
      unfold AuthRoutes.logout at hLogout
      rw [hPeek] at hLogout
      dsimp only at hLogout
      split at hLogout
      · rename_i failure hCsrf
        cases Except.error.inj hLogout
        simp only [verifyCsrf, bind_eq_error, okOr_eq_error, require_eq_error] at hCsrf
        rcases hCsrf with ⟨-, hSame⟩ | ⟨_, -, ⟨-, hSame⟩ | ⟨_, -, -, hSame⟩⟩
        · cases hSame
        · cases hSame
        · cases hSame
      · cases hLogout

/-- An expired session stays expired until somebody logs in. -/
theorem expired_step {t : Int} {call : SessionCall} (h : r.sessions.Expired t s)
    (hTime : t ≤ call.now)
    (hLogin : ∀ completed,
      ¬ SessionEvent.LogsIn (Machine.eventAt (sessionStep r) s call) completed) :
    r.sessions.Expired t (sessionStep r s call).1 := by
  intro envelope hAfter
  cases sessionStep_move r s call with
  | kept hSame => exact h envelope (hSame.symm.trans hAfter)
  | touched hBefore hCurrent => exact absurd (hCurrent.earlier hTime) (h _ hBefore)
  | steppedUp hBefore hCurrent => exact absurd (hCurrent.earlier hTime) (h _ hBefore)
  | established hDone => exact absurd hDone (hLogin _)
  | ended hBefore hCurrent => exact absurd (hCurrent.earlier hTime) (h _ hBefore)

/-- A request on the envelope that succeeds found it current. -/
theorem current_of_success {call : SessionCall}
    (hOn : SessionEvent.OnEnvelope (Machine.eventAt (sessionStep r) s call))
    (hOk : SessionEvent.Succeeds (Machine.eventAt (sessionStep r) s call)) :
    ∃ envelope, s.auth = some envelope ∧ r.sessions.Current envelope call.now := by
  cases sessionStep_move r s call with
  | kept hSame hTouches hLogin hCurrent => exact hCurrent hOn hOk
  | touched hBefore hCurrent => exact ⟨_, hBefore, hCurrent⟩
  | steppedUp hBefore hCurrent => exact ⟨_, hBefore, hCurrent⟩
  | established hDone hOff => exact absurd hOn hOff
  | ended hBefore hCurrent => exact ⟨_, hBefore, hCurrent⟩

end Expiry

/-! ## The past of an envelope -/

section Past

variable {r : AuthRoutes}

/-- What the past says about an envelope: when it was established and for whom, with the step-up
since then, and when it was last touched. -/
structure Documented (r : AuthRoutes) (past : List SessionEvent) (envelope : SessionEnvelope) :
    Prop where
  login : ∃ before ev after completed, past = before ++ ev :: after ∧
    SessionEvent.LogsIn ev completed ∧ envelope.principal = completed.principal ∧
    envelope.absoluteExpiresAt = ev.call.now + r.sessions.absoluteTimeout ∧
    (∀ e ∈ after, ∀ c, ¬ SessionEvent.LogsIn e c) ∧
    ∀ expiry, envelope.stepUpExpiresAt = some expiry → ∃ e ∈ after, ∃ evidence,
      SessionEvent.StepsUp r e envelope.principal evidence ∧
      expiry = evidence.verifiedAt + r.sessions.stepUpTimeout
  touch : ∃ before ev after, past = before ++ ev :: after ∧ SessionEvent.Touches r ev ∧
    envelope.lastSeenAt = ev.call.now ∧ ∀ e ∈ after, ¬ SessionEvent.Touches r e

variable {past : List SessionEvent} {envelope : SessionEnvelope} {ev : SessionEvent}

theorem append_event {before after : List SessionEvent} {first last : SessionEvent}
    (h : past = before ++ first :: after) :
    past ++ [last] = before ++ first :: (after ++ [last]) := by
  rw [h, List.append_assoc, List.cons_append]

/-- An event that is no login keeps what is known of the login. -/
theorem Documented.loginLater (h : Documented r past envelope)
    (hLogin : ∀ c, ¬ SessionEvent.LogsIn ev c) {envelope' : SessionEnvelope}
    (hPrincipal : envelope'.principal = envelope.principal)
    (hExpiry : envelope'.absoluteExpiresAt = envelope.absoluteExpiresAt)
    (hStepUp : ∀ expiry, envelope'.stepUpExpiresAt = some expiry →
      envelope.stepUpExpiresAt = some expiry ∨ ∃ evidence,
        SessionEvent.StepsUp r ev envelope.principal evidence ∧
        expiry = evidence.verifiedAt + r.sessions.stepUpTimeout) :
    ∃ before first after completed, past ++ [ev] = before ++ first :: after ∧
      SessionEvent.LogsIn first completed ∧ envelope'.principal = completed.principal ∧
      envelope'.absoluteExpiresAt = first.call.now + r.sessions.absoluteTimeout ∧
      (∀ e ∈ after, ∀ c, ¬ SessionEvent.LogsIn e c) ∧
      ∀ expiry, envelope'.stepUpExpiresAt = some expiry → ∃ e ∈ after, ∃ evidence,
        SessionEvent.StepsUp r e envelope'.principal evidence ∧
        expiry = evidence.verifiedAt + r.sessions.stepUpTimeout := by
  obtain ⟨before, first, after, completed, hPast, hFirst, hSame, hAbsolute, hNoLogin, hOld⟩ :=
    h.login
  refine ⟨before, first, after ++ [ev], completed, append_event hPast, hFirst,
    hPrincipal.trans hSame, hExpiry.trans hAbsolute, ?_, ?_⟩
  · intro e he
    rcases List.mem_append.mp he with he | he
    · exact hNoLogin e he
    · rw [List.mem_singleton.mp he]
      exact hLogin
  · intro expiry hSome
    rw [hPrincipal]
    rcases hStepUp expiry hSome with hKept | ⟨evidence, hStep, hValue⟩
    · obtain ⟨e, he, hEvidence⟩ := hOld expiry hKept
      exact ⟨e, List.mem_append_left _ he, hEvidence⟩
    · exact ⟨ev, List.mem_append_right _ List.mem_cons_self, evidence, hStep, hValue⟩

/-- A step documents the envelope that it leaves. -/
theorem documented_step {s : Session} {call : SessionCall}
    (h : ∀ envelope, s.auth = some envelope → Documented r past envelope)
    {envelope' : SessionEnvelope} (hAfter : (sessionStep r s call).1.auth = some envelope') :
    Documented r (past ++ [Machine.eventAt (sessionStep r) s call]) envelope' := by
  have hNow : past ++ [Machine.eventAt (sessionStep r) s call] =
      past ++ Machine.eventAt (sessionStep r) s call :: [] := rfl
  cases sessionStep_move r s call with
  | kept hSame hTouches hLogin =>
    have hOld := h envelope' (hSame.symm.trans hAfter)
    refine ⟨hOld.loginLater hLogin rfl rfl fun _ hSome => Or.inl hSome, ?_⟩
    obtain ⟨before, first, after, hPast, hFirst, hSeen, hQuiet⟩ := hOld.touch
    refine ⟨before, first, _, append_event hPast, hFirst, hSeen, fun e he => ?_⟩
    rcases List.mem_append.mp he with he | he
    · exact hQuiet e he
    · rw [List.mem_singleton.mp he]
      exact hTouches
  | touched hBefore hCurrent hWritten hTouches hLogin =>
    cases hAfter.symm.trans hWritten
    refine ⟨(h _ hBefore).loginLater hLogin rfl rfl fun _ hSome => Or.inl hSome, ?_⟩
    exact ⟨past, _, [], hNow, hTouches, rfl, fun e he => by cases he⟩
  | steppedUp hBefore hCurrent hStepsUp hWritten hTouches hLogin =>
    cases hAfter.symm.trans hWritten
    refine ⟨(h _ hBefore).loginLater hLogin rfl rfl fun expiry hSome => ?_, ?_⟩
    · exact Or.inr ⟨_, hStepsUp, (Option.some.inj hSome).symm⟩
    · exact ⟨past, _, [], hNow, hTouches, rfl, fun e he => by cases he⟩
  | established hLogin hOff hTouches hWritten hPrincipal hSeen hExpiry hStepUp =>
    cases hAfter.symm.trans hWritten
    refine ⟨⟨past, _, [], _, hNow, hLogin, hPrincipal, hExpiry, ?_, ?_⟩,
      past, _, [], hNow, hTouches, hSeen, ?_⟩
    · exact fun e he => by cases he
    · intro expiry hSome
      cases hStepUp.symm.trans hSome
    · exact fun e he => by cases he
  | ended hBefore hCurrent hNone => cases hNone.symm.trans hAfter

theorem documented_run (r : AuthRoutes) (calls : List SessionCall) :
    ∀ envelope, (Machine.run (sessionStep r) .anonymous calls).auth = some envelope →
      Documented r (Machine.trace (sessionStep r) .anonymous calls) envelope := by
  refine Machine.history (sessionStep r)
    (H := fun past s => ∀ envelope, s.auth = some envelope → Documented r past envelope) ?_ ?_ calls
  · intro past s call h envelope hAfter
    exact documented_step h hAfter
  · intro envelope hNone
    cases hNone

end Past

/-! ## Runs -/

/-- At times that do not decrease: a request on the envelope succeeds only while the envelope is
current; after it was found expired no request on it succeeds before a new login; nothing but a login
changes its principal or its absolute expiry; and a step-up that has not run out is the verified
strong authentication of this principal, no older than the settings allow. -/
theorem session_freshness (r : AuthRoutes) (calls : List SessionCall)
    (hTimes : calls.Pairwise fun c d => c.now ≤ d.now) :
    (∀ past ev future, Machine.trace (sessionStep r) .anonymous calls = past ++ ev :: future →
      SessionEvent.OnEnvelope ev → SessionEvent.Succeeds ev →
      ∃ envelope, ev.before.auth = some envelope ∧ r.sessions.Current envelope ev.call.now ∧
        Documented r past envelope) ∧
    (∀ past ev mid ev' future,
      Machine.trace (sessionStep r) .anonymous calls = past ++ ev :: (mid ++ ev' :: future) →
      ev.response = .error .sessionExpired → (∀ e ∈ mid, ∀ c, ¬ SessionEvent.LogsIn e c) →
      SessionEvent.OnEnvelope ev' → ¬ SessionEvent.Succeeds ev') ∧
    (∀ ev ∈ Machine.trace (sessionStep r) .anonymous calls,
      (∀ c, ¬ SessionEvent.LogsIn ev c) → ∀ envelope envelope',
        ev.before.auth = some envelope → ev.after.auth = some envelope' →
        envelope'.principal = envelope.principal ∧
        envelope'.absoluteExpiresAt = envelope.absoluteExpiresAt) ∧
    (∀ envelope expiry t, (Machine.run (sessionStep r) .anonymous calls).auth = some envelope →
      envelope.stepUpExpiresAt = some expiry → t < expiry →
      ∃ ev ∈ Machine.trace (sessionStep r) .anonymous calls, ∃ evidence,
        SessionEvent.StepsUp r ev envelope.principal evidence ∧
        t - (r.sessions.stepUpTimeout + seconds r.stepUp.maxAgeSeconds +
          seconds r.stepUp.clockSkewSeconds) ≤ evidence.authTime) := by
  refine ⟨?_, ?_, ?_, ?_⟩
  · intro past ev future hTrace hOn hOk
    obtain ⟨before, after, -, hPast, hEvent, -⟩ := Machine.trace_eq_append_cons _ hTrace
    rw [hEvent] at hOn hOk ⊢
    obtain ⟨envelope, hAuth, hCurrent⟩ := current_of_success hOn hOk
    refine ⟨envelope, hAuth, hCurrent, ?_⟩
    rw [← hPast]
    exact documented_run r before envelope hAuth
  · intro past ev mid ev' future hTrace hExpired hNoLogin hOn hOk
    obtain ⟨before, after, hCalls, -, hEvent, hRest⟩ := Machine.trace_eq_append_cons _ hTrace
    obtain ⟨between, last, hAfter, hMid, hEvent', -⟩ := Machine.trace_eq_append_cons _ hRest
    rw [hCalls, List.pairwise_append] at hTimes
    have hLater := (List.pairwise_cons.mp hTimes.2.1).1
    rw [hEvent] at hExpired
    obtain ⟨hOut, hKept⟩ := expired_of_response hExpired
    have hStart : r.sessions.Expired ev.call.now ev.after := by
      rw [hEvent]
      intro envelope hAuth
      exact hOut envelope (hKept.symm.trans hAuth)
    have hStays : r.sessions.Expired ev.call.now
        (Machine.run (sessionStep r) ev.after between) := by
      refine Machine.run_invariant_of (sessionStep r)
        (P := fun e => ev.call.now ≤ e.call.now ∧ ∀ c, ¬ SessionEvent.LogsIn e c)
        (fun s call hs hP => expired_step hs hP.1 hP.2) hStart fun e he => ⟨?_, ?_⟩
      · refine hLater e.call ?_
        rw [hAfter]
        exact List.mem_append_left _ (Machine.call_mem _ he)
      · exact hNoLogin e (hMid ▸ he)
    rw [hEvent'] at hOn hOk
    obtain ⟨envelope, hAuth, hCurrent⟩ := current_of_success hOn hOk
    have hNotBefore : ev.call.now ≤ ev'.call.now := by
      refine hLater ev'.call ?_
      rw [hAfter]
      exact List.mem_append_right _ List.mem_cons_self
    exact hStays envelope hAuth (hCurrent.earlier hNotBefore)
  · intro ev hev hNoLogin envelope envelope' hBefore hAfter
    obtain ⟨before, after, -, hEvent⟩ := Machine.mem_trace _ hev
    rw [hEvent] at hBefore hAfter hNoLogin
    cases sessionStep_move r (Machine.run (sessionStep r) .anonymous before) ev.call with
    | kept hSame =>
      cases (hSame.trans hBefore).symm.trans hAfter
      exact ⟨rfl, rfl⟩
    | touched hFound hCurrent hWritten =>
      cases hFound.symm.trans hBefore
      cases hWritten.symm.trans hAfter
      exact ⟨rfl, rfl⟩
    | steppedUp hFound hCurrent hStepsUp hWritten =>
      cases hFound.symm.trans hBefore
      cases hWritten.symm.trans hAfter
      exact ⟨rfl, rfl⟩
    | established hLogin => exact absurd hLogin (hNoLogin _)
    | ended hFound hCurrent hNone => cases hNone.symm.trans hAfter
  · intro envelope expiry t hAuth hStepUp ht
    obtain ⟨before, first, after, completed, hPast, -, -, -, -, hEvidence⟩ :=
      (documented_run r calls envelope hAuth).login
    obtain ⟨ev, hev, evidence, hStepsUp, rfl⟩ := hEvidence expiry hStepUp
    refine ⟨ev, ?_, evidence, hStepsUp, ?_⟩
    · rw [hPast]
      exact List.mem_append_right _ (List.mem_cons_of_mem _ hev)
    · obtain ⟨c, pending, completed', -, -, -, -, hVerified, -⟩ := hStepsUp
      obtain ⟨hAt, hAge, -⟩ := verifyStepUpClaims_ok hVerified
      omega

namespace Sample

def visitor : VerifiedOidcPrincipal :=
  { principalId := ⟨30⟩, issuer := "local", subject := "guest" }

/-- The visitor comes back from the provider, with a one-time password. -/
def returns (second : Int) : SessionCall :=
  { now := seconds second
    operation := .callback
      { state := some "state", code := some "code", error := none
        completion := .ok
          { principal := visitor, returnTo := "/", authTime := some (seconds second)
            authContextRef := some "urn:masonwing:loa:2", authMethodRefs := ["pwd", "OTP"] }
        verifiedAt := seconds second, memberships := some [], csrfToken := "token" } }

/-- A login and a step-up, and nothing for more than an hour. -/
def visit : List SessionCall :=
  [⟨0, .login false (.ok "binding") "/idp"⟩, returns 10,
    ⟨seconds 20, .login true (.ok "binding") "/idp"⟩, returns 30,
    ⟨seconds 40, .view (seconds 40) (some [])⟩, ⟨seconds 4000, .peek⟩, ⟨seconds 4001, .touch⟩]

end Sample

/-- The visit ends with an expired session. -/
theorem visit_expires :
    ((Machine.trace (sessionStep Sample.authRoutes) .anonymous Sample.visit).map fun ev =>
      match ev.response with
      | .ok (.redirect _) => "redirect"
      | .ok _ => "ok"
      | .error .sessionExpired => "SESSION_EXPIRED"
      | .error _ => "error") =
      ["redirect", "redirect", "redirect", "redirect", "ok", "SESSION_EXPIRED",
        "SESSION_EXPIRED"] ∧
    ∀ ev ∈ Machine.trace (sessionStep Sample.authRoutes) .anonymous Sample.visit,
      (∀ c, ¬ SessionEvent.LogsIn ev c) → ∀ envelope envelope',
        ev.before.auth = some envelope → ev.after.auth = some envelope' →
        envelope'.principal = envelope.principal ∧
        envelope'.absoluteExpiresAt = envelope.absoluteExpiresAt :=
  ⟨by decide +kernel, (session_freshness Sample.authRoutes Sample.visit (by decide)).2.2.1⟩

end Masonwing
