import Masonwing.HostApi.SignIn
import Masonwing.Lib.AlternateKey
import Masonwing.Proofs.MembershipSteps
import Masonwing.Proofs.SessionFreshness

/-!
# Signing in once

A sign-in is bound to the login that a browser has begun:

* `signInStep_transaction`, `signInStep_flow`, `consumed_gone`: only a login adds a transaction or
  gives a browser a flow, and a transaction that was consumed is gone;
* `SignInTracked.step`: so each of both comes from a login of the past, and no transaction has the
  binding of one that was consumed;
* `sign_in_bound`: a callback that is answered with a redirection has consumed the transaction of
  one login of the same browser, for the purpose of that login, and no other callback consumes it.
-/

namespace Masonwing

open Outcome

variable {β ι ν ε : Type}

namespace SignInEvent

/-- A login that was begun, with what is stored for it. -/
structure Begins (x : SignIn) (ev : SignInEvent β ι ε) (browser : β) (draws : AuthorizationDraws)
    (row : AuthTransaction) (purpose : OidcFlowPurpose) : Prop where
  login : ∃ stepUp returnTo target, ev.call.operation = .login browser stepUp returnTo draws ∧
    validateReturnTo (returnTo.getD "/") = .ok target ∧
    row = x.adapter.transaction ev.call.clocks target draws ∧
    ((stepUp = false ∧ purpose = .login) ∨ (stepUp = true ∧ ∃ envelope,
      (ev.before.sessions browser).auth = some envelope ∧
      x.routes.sessions.Current envelope ev.call.clocks.host ∧
      purpose = .stepUp envelope.principalId envelope.issuer envelope.subject))

/-- A callback that consumes a transaction. -/
structure Consumes (x : SignIn) (ev : SignInEvent β ι ε) (browser : β) (q : ProviderReturn)
    (pending : PendingOidcFlow) (state : String) (row : AuthTransaction) : Prop where
  operation : ∃ context, ev.call.operation = .callback browser q context
  query : q.state = some state ∧ state ≠ ""
  answer : q.code.isSome ≠ q.error.isSome
  flow : (ev.before.sessions browser).flow = some pending
  row : x.adapter.consumable ev.call.clocks.database ev.before.tables.transactions state
    pending.browserBinding = some row

/-- The session of a browser that a callback has signed in or stepped up. -/
structure SignsIn (x : SignIn) (ev : SignInEvent β ι ε) (browser : β) (q : ProviderReturn)
    (pending : PendingOidcFlow) (row : AuthTransaction) : Prop where
  verified : ∃ code response claims, q.code = some code ∧
    q.exchange code row.pkceVerifier = some response ∧
    response.verifiedClaims row.nonce = .ok claims ∧
    ∃ envelope, (ev.after.sessions browser).auth = some envelope ∧
      envelope.issuer = x.adapter.issuer ∧ envelope.subject = claims.subject ∧
      (∀ principalId issuer subject, pending.purpose = .stepUp principalId issuer subject →
        envelope.principalId = principalId ∧ envelope.issuer = issuer ∧
          envelope.subject = subject)
  redirected : ev.response = .session (.ok (.redirect row.returnTo))

/-- Two logins are given different bindings. -/
def BindingsDiffer (ev ev' : SignInEvent β ι ε) : Prop :=
  ∀ b, ev.call.operation.binding = some b → ∀ b', ev'.call.operation.binding = some b' → b ≠ b'

theorem BindingsDiffer.symm {ev ev' : SignInEvent β ι ε} (h : BindingsDiffer ev ev') :
    BindingsDiffer ev' ev := fun b hb b' hb' hSame => h b' hb' b hb hSame.symm

/-- A login stores one row, for one purpose. -/
theorem Begins.unique {x : SignIn} {ev : SignInEvent β ι ε} {browser browser' : β}
    {draws draws' : AuthorizationDraws} {row row' : AuthTransaction}
    {purpose purpose' : OidcFlowPurpose} (h : Begins x ev browser draws row purpose)
    (h' : Begins x ev browser' draws' row' purpose') :
    browser = browser' ∧ draws = draws' ∧ purpose = purpose' := by
  obtain ⟨stepUp, returnTo, target, hOp, -, -, hPurpose⟩ := h.login
  obtain ⟨stepUp', returnTo', target', hOp', -, -, hPurpose'⟩ := h'.login
  have hSame := hOp.symm.trans hOp'
  injection hSame with hBrowser hStepUp hReturnTo hDraws
  subst hBrowser hStepUp hReturnTo hDraws
  refine ⟨rfl, rfl, ?_⟩
  rcases hPurpose with ⟨hPlain, rfl⟩ | ⟨hUp, envelope, hAuth, -, rfl⟩
  · rcases hPurpose' with ⟨-, rfl⟩ | ⟨hUp, -⟩
    · rfl
    · cases hPlain.symm.trans hUp
  · rcases hPurpose' with ⟨hPlain, -⟩ | ⟨-, envelope', hAuth', -, rfl⟩
    · cases hPlain.symm.trans hUp
    · cases hAuth.symm.trans hAuth'
      rfl

end SignInEvent

section Login

variable {x : SignIn} {clocks : Clocks} {t : SignInTables} {s : Session} {stepUp : Bool}
  {returnTo : Option String} {draws : AuthorizationDraws}

theorem beginAuthorization_ok {transactions : Table String AuthTransaction} {start : LoginStart}
    (h : x.adapter.beginAuthorization clocks t.transactions returnTo stepUp draws =
      .ok (transactions, start)) :
    ∃ target, validateReturnTo (returnTo.getD "/") = .ok target ∧
      t.transactions.insert? draws.state (x.adapter.transaction clocks target draws) =
        some transactions ∧ start.browserBinding = draws.browserBinding := by
  simp only [OidcAdapter.beginAuthorization, bind_eq_ok, require_eq_ok, okOr_eq_ok, pure_eq_ok,
    Prod.mk.injEq, exists_const] at h
  obtain ⟨target, hTarget, -, transactions', hInsert, rfl, rfl⟩ := h
  exact ⟨target, hTarget, hInsert, rfl⟩

/-- A login is refused and changes nothing, or it is begun. -/
theorem login_cases (x : SignIn) (clocks : Clocks) (t : SignInTables) (s : Session) (stepUp : Bool)
    (returnTo : Option String) (draws : AuthorizationDraws) :
    ((x.login clocks t s stepUp returnTo draws).1 = t ∧
      (x.login clocks t s stepUp returnTo draws).2.1 = s ∧
      ∃ failure, (x.login clocks t s stepUp returnTo draws).2.2 = .error failure) ∨
    ∃ target purpose transactions, validateReturnTo (returnTo.getD "/") = .ok target ∧
      t.transactions.insert? draws.state (x.adapter.transaction clocks target draws) =
        some transactions ∧
      ((stepUp = false ∧ purpose = .login) ∨ (stepUp = true ∧ ∃ envelope, s.auth = some envelope ∧
        x.routes.sessions.Current envelope clocks.host ∧
        purpose = .stepUp envelope.principalId envelope.issuer envelope.subject)) ∧
      (x.login clocks t s stepUp returnTo draws).1 = { t with transactions } ∧
      (x.login clocks t s stepUp returnTo draws).2.1 =
        { s with flow := some { browserBinding := draws.browserBinding, purpose } } := by
  unfold SignIn.login
  dsimp only
  cases hBegun : x.adapter.beginAuthorization clocks t.transactions returnTo stepUp draws with
  | error failure =>
    left
    split
    · split
      · rename_i failure' _
        exact ⟨rfl, rfl, failure', rfl⟩
      · exact ⟨rfl, rfl, failure.toAuthError, rfl⟩
    · exact ⟨rfl, rfl, failure.toAuthError, rfl⟩
  | ok begun =>
    obtain ⟨transactions, start⟩ := begun
    obtain ⟨target, hTarget, hInsert, hBinding⟩ := beginAuthorization_ok hBegun
    split
    · rename_i hUp
      split
      · rename_i failure _
        exact Or.inl ⟨rfl, rfl, failure, rfl⟩
      · rename_i auth hPeek
        obtain ⟨envelope, hAuth, hCurrent, rfl⟩ := peekAuthenticated_ok hPeek
        right
        refine ⟨target, .stepUp envelope.principalId envelope.issuer envelope.subject, transactions,
          hTarget, hInsert, Or.inr ⟨hUp, envelope, hAuth, hCurrent, rfl⟩, rfl, ?_⟩
        simp only [setOidcStepUpBinding, hBinding, SessionAuthority.project]
    · rename_i hPlain
      right
      refine ⟨target, .login, transactions, hTarget, hInsert,
        Or.inl ⟨Bool.eq_false_of_not_eq_true hPlain, rfl⟩, rfl, ?_⟩
      simp only [setOidcLoginBinding, hBinding]

end Login

section Callback

variable {x : SignIn} {clocks : Clocks} {tick : Tick} {t : SignInTables} {s : Session}
  {q : ProviderReturn} {context : CallbackContext}

/-- A callback begins no flow. -/
theorem callback_flow {r : AuthRoutes} {now : Int} {c : AuthCallback} {pending : PendingOidcFlow}
    (h : (r.callback now s c).1.flow = some pending) : s.flow = some pending := by
  cases hReply : (r.callback now s c).2 with
  | ok reply =>
    obtain ⟨begun, completed, hFlow, -, ⟨-, auth, hEstablished⟩ |
      ⟨principalId, issuer, subject, evidence, auth, -, -, -, hRecorded⟩⟩ := callback_ok hReply
    · simp only [SessionAuthority.establishAuthenticatedSession, bind_eq_ok, pure_eq_ok,
        Prod.mk.injEq] at hEstablished
      obtain ⟨memberships, -, hAfter, -⟩ := hEstablished
      rw [← hAfter] at h
      cases h
    · obtain ⟨envelope, -, -, -, hAfter⟩ := recordVerifiedStepUp_ok hRecorded
      rw [hAfter] at h
      cases h
  | error failure =>
    unfold AuthRoutes.callback at h
    split at h
    · exact h
    · split at h
      · exact h
      · split at h
        · dsimp only at h
          split at h
          · cases h
          · exact h
        · split at h
          · unfold AuthRoutes.completeLogin at h
            split at h
            · exact h
            · rename_i s' auth hEstablished
              simp only [SessionAuthority.establishAuthenticatedSession, bind_eq_ok, pure_eq_ok,
                Prod.mk.injEq] at hEstablished
              obtain ⟨memberships, -, rfl, -⟩ := hEstablished
              cases h
          · unfold AuthRoutes.completeStepUp at h
            split at h
            · split at h
              · exact h
              · split at h
                · cases h
                · rename_i s' auth hRecorded
                  obtain ⟨envelope, -, -, -, rfl⟩ := recordVerifiedStepUp_ok hRecorded
                  cases h
            · cases h

/-- What the adapter answers to a flow. -/
theorem completeCallbackInner_cases (p : OidcAdapter) (clocks : Clocks) (tick : Tick)
    (t : SignInTables) (state browserBinding : String) (q : ProviderReturn)
    (expected : Option Uuid) :
    ((p.completeCallbackInner clocks tick t state browserBinding q expected).1 = t ∧
      (state = "" ∨ q.code.isSome = q.error.isSome ∨
        p.consumable clocks.database t.transactions state browserBinding = none) ∧
      (p.completeCallbackInner clocks tick t state browserBinding q expected).2 =
        .error .invalidCallback) ∨
    ∃ row, state ≠ "" ∧ q.code.isSome ≠ q.error.isSome ∧
      p.consumable clocks.database t.transactions state browserBinding = some row ∧
      (p.completeCallbackInner clocks tick t state browserBinding q expected).1.transactions =
        t.transactions.erase state ∧
      (((p.completeCallbackInner clocks tick t state browserBinding q expected).1.enrollment =
          t.enrollment ∧
        ∃ failure, (p.completeCallbackInner clocks tick t state browserBinding q expected).2 =
          .error failure) ∨
      ∃ completed, p.completeConsumed tick t.enrollment row q expected = .ok
          ((p.completeCallbackInner clocks tick t state browserBinding q expected).1.enrollment,
            completed) ∧
        (p.completeCallbackInner clocks tick t state browserBinding q expected).2 =
          .ok completed) := by
  unfold OidcAdapter.completeCallbackInner
  split
  · rename_i hQuery
    exact Or.inl ⟨rfl, hQuery.imp id Or.inl, rfl⟩
  · rename_i hQuery
    obtain ⟨hState, hAnswer⟩ := not_or.mp hQuery
    split
    · rename_i hNone
      exact Or.inl ⟨rfl, Or.inr (Or.inr hNone), rfl⟩
    · rename_i row hRow
      refine Or.inr ⟨row, hState, hAnswer, hRow, ?_⟩
      dsimp only
      split
      · rename_i failure _
        exact ⟨rfl, Or.inl ⟨rfl, failure, rfl⟩⟩
      · rename_i enrollment completed hCompleted
        exact ⟨rfl, Or.inr ⟨completed, hCompleted, rfl⟩⟩

theorem completeConsumed_ok {p : OidcAdapter} {enrollment enrollment' : EnrollmentState}
    {row : AuthTransaction} {expected : Option Uuid} {completed : CompletedLogin}
    (h : p.completeConsumed tick enrollment row q expected = .ok (enrollment', completed)) :
    ∃ code response claims principal, q.code.getD "" = code ∧ q.error = none ∧
      q.exchange code row.pkceVerifier = some response ∧
      response.verifiedClaims row.nonce = .ok claims ∧
      p.identify tick enrollment claims expected = .ok (enrollment', principal) ∧
      completed = p.completed row claims principal := by
  unfold OidcAdapter.completeConsumed at h
  split at h
  · cases h
  · rename_i hError
    simp only [bind_eq_ok, okOr_eq_ok, Prod.exists, pure_eq_ok, Prod.mk.injEq] at h
    obtain ⟨response, hResponse, claims, hClaims, s', principal, hIdentify, rfl, rfl⟩ := h
    exact ⟨_, response, claims, principal, rfl, hError, hResponse, hClaims, hIdentify, rfl⟩

/-- The route asks the adapter only about a flow of the browser. -/
theorem signIn_callback_cases (x : SignIn) (clocks : Clocks) (tick : Tick) (t : SignInTables)
    (s : Session) (q : ProviderReturn) (context : CallbackContext) :
    x.callback clocks tick t s q context = (t, s, .error .invalidCallback) ∨
    ∃ state pending, q.state = some state ∧ s.flow = some pending ∧
      q.code.isSome ≠ q.error.isSome ∧
      x.callback clocks tick t s q context =
        ((x.adapter.completeCallbackInner clocks tick t state pending.browserBinding q
            pending.purpose.expected).1,
          x.routes.callback clocks.host s
            { state := q.state, code := q.code, error := q.error
              completion := (x.adapter.completeCallbackInner clocks tick t state
                pending.browserBinding q pending.purpose.expected).2
              verifiedAt := context.verifiedAt, memberships := context.memberships
              csrfToken := context.csrfToken }) := by
  unfold SignIn.callback
  split
  · rename_i state pending hState hFlow
    split
    · exact Or.inl rfl
    · rename_i hAnswer
      exact Or.inr ⟨state, pending, hState, hFlow, hAnswer, rfl⟩
  · exact Or.inl rfl

theorem signIn_callback_transactions {k : String} {row : AuthTransaction}
    (h : (x.callback clocks tick t s q context).1.transactions.get? k = some row) :
    t.transactions.get? k = some row := by
  rcases signIn_callback_cases x clocks tick t s q context with hSame |
    ⟨state, pending, -, -, -, hAsked⟩
  · rw [hSame] at h
    exact h
  · rw [hAsked] at h
    rcases completeCallbackInner_cases x.adapter clocks tick t state pending.browserBinding q
      pending.purpose.expected with ⟨hSame, -⟩ | ⟨row', -, -, -, hErased, -⟩
    · dsimp only at h
      rw [hSame] at h
      exact h
    · dsimp only at h
      rw [hErased, Table.get?_erase] at h
      split at h
      · cases h
      · exact h

theorem signIn_callback_flow {pending : PendingOidcFlow}
    (h : (x.callback clocks tick t s q context).2.1.flow = some pending) :
    s.flow = some pending := by
  rcases signIn_callback_cases x clocks tick t s q context with hSame |
    ⟨state, begun, -, -, -, hAsked⟩
  · rw [hSame] at h
    exact h
  · rw [hAsked] at h
    exact callback_flow h

/-- A transaction that was consumed is gone. -/
theorem signIn_callback_gone {state : String} {pending : PendingOidcFlow} {row : AuthTransaction}
    (hState : q.state = some state) (hNamed : state ≠ "") (hAnswer : q.code.isSome ≠ q.error.isSome)
    (hFlow : s.flow = some pending)
    (hRow : x.adapter.consumable clocks.database t.transactions state pending.browserBinding =
      some row) :
    (x.callback clocks tick t s q context).1.transactions.get? state = none := by
  have hAsked : (x.callback clocks tick t s q context).1 = (x.adapter.completeCallbackInner clocks
      tick t state pending.browserBinding q pending.purpose.expected).1 := by
    simp only [SignIn.callback, hState, hFlow, hAnswer, if_false]
  rw [hAsked]
  rcases completeCallbackInner_cases x.adapter clocks tick t state pending.browserBinding q
    pending.purpose.expected with ⟨-, hEmpty | hBoth | hNone, -⟩ | ⟨row', -, -, -, hErased, -⟩
  · exact absurd hEmpty hNamed
  · exact absurd hBoth hAnswer
  · cases hRow.symm.trans hNone
  · rw [hErased, Table.get?_erase, if_pos rfl]

/-- A callback that succeeds sends the browser where the login has said. -/
theorem callback_target {r : AuthRoutes} {now : Int} {c : AuthCallback} {reply : SessionReply}
    {completed : CompletedLogin} (hCompletion : c.completion = .ok completed)
    (h : (r.callback now s c).2 = .ok reply) : reply = .redirect completed.returnTo := by
  unfold AuthRoutes.callback at h
  split at h
  · cases h
  split at h
  · cases h
  rw [hCompletion] at h
  dsimp only at h
  split at h
  · unfold AuthRoutes.completeLogin at h
    split at h
    · cases h
    · cases h
      rfl
  · unfold AuthRoutes.completeStepUp at h
    split at h
    · split at h
      · cases h
      · split at h
        · cases h
        · cases h
          rfl
    · cases h

/-- The issuer and the subject of an identity. -/
def OidcIdentityRow.name (row : OidcIdentityRow) : String × String := (row.issuer, row.subject)

/-- The principal is the one of the issuer and the subject. -/
def StandsFor (identities : Table Uuid OidcIdentityRow) (principal : Uuid)
    (issuer subject : String) : Prop :=
  identities.Names OidcIdentityRow.name principal (issuer, subject)

theorem upsertVerifiedIdentity_ok {s s' : EnrollmentState} {issuer subject : String}
    {email : Option String} {emailVerified : Bool} {principal : Uuid}
    (h : Enrollment.upsertVerifiedIdentity tick s issuer subject email emailVerified =
      .ok (s', principal)) :
    StandsFor s'.identities principal issuer subject ∧
      s.identities.KeepsNames OidcIdentityRow.name s'.identities := by
  unfold Enrollment.upsertVerifiedIdentity at h
  dsimp only at h
  split at h
  · rename_i found row hFound
    obtain ⟨hRow, hSame⟩ := Table.find?_some hFound
    obtain ⟨rfl, rfl⟩ := of_decide_eq_true hSame
    cases h
    exact ⟨⟨_, Table.get?_set_self hRow _, rfl⟩, Table.KeepsNames.set hRow rfl⟩
  · rename_i hNone
    simp only [bind_eq_ok, sql_eq_ok, insertRow_eq_ok, pure_eq_ok, Prod.mk.injEq] at h
    obtain ⟨identities, hInsert, rfl, rfl⟩ := h
    refine ⟨⟨_, Table.insert?_get?_self hInsert, rfl⟩, Table.KeepsNames.insert hInsert ?_⟩
    rintro k ⟨row, hRow, hName⟩
    have hOther := of_decide_eq_false (Table.find?_eq_none_iff.mp hNone k row hRow)
    obtain ⟨hIssuer, hSubject⟩ := Prod.mk.inj hName
    exact hOther ⟨hIssuer, hSubject⟩

theorem identify_ok {p : OidcAdapter} {s s' : EnrollmentState} {claims : IdTokenClaims}
    {expected : Option Uuid} {principal : Uuid}
    (h : p.identify tick s claims expected = .ok (s', principal)) :
    StandsFor s'.identities principal p.issuer claims.subject ∧
      s.identities.KeepsNames OidcIdentityRow.name s'.identities ∧
      ∀ id, expected = some id → principal = id ∧ ∀ k name,
        s'.identities.Names OidcIdentityRow.name k name →
          s.identities.Names OidcIdentityRow.name k name := by
  unfold OidcAdapter.identify at h
  dsimp only at h
  split at h
  · rename_i id
    simp only [OidcAdapter.resolveExistingStepUpIdentity, bind_eq_ok, okOr_eq_ok, pure_eq_ok,
      Prod.mk.injEq, Option.filter_eq_some_iff, decide_eq_true_eq] at h
    obtain ⟨row, ⟨hRow, hIssuer, hSubject⟩, rfl, rfl⟩ := h
    have hName : row.name = (p.issuer, claims.subject) := Prod.ext hIssuer hSubject
    refine ⟨⟨_, Table.get?_set_self hRow _, hName⟩, Table.KeepsNames.set hRow rfl,
      fun id hId => ?_⟩
    cases hId
    exact ⟨rfl, fun k name hAfter => (Table.names_set_iff hRow (by rfl) k name).mp hAfter⟩
  · rw [mapError_eq_ok] at h
    obtain ⟨hFound, hKept⟩ := upsertVerifiedIdentity_ok h
    exact ⟨hFound, hKept, fun id hId => absurd hId (by simp)⟩

/-- A callback that sends the browser on has consumed its transaction and verified the token. -/
theorem signIn_callback_redirect {target : String}
    (h : (x.callback clocks tick t s q context).2.2 = .ok (.redirect target)) :
    ∃ state pending row code response claims envelope, q.state = some state ∧ state ≠ "" ∧
      q.code.isSome ≠ q.error.isSome ∧ s.flow = some pending ∧
      x.adapter.consumable clocks.database t.transactions state pending.browserBinding =
        some row ∧ target = row.returnTo ∧ q.code = some code ∧
      q.exchange code row.pkceVerifier = some response ∧
      response.verifiedClaims row.nonce = .ok claims ∧
      (x.callback clocks tick t s q context).2.1.auth = some envelope ∧
      envelope.issuer = x.adapter.issuer ∧ envelope.subject = claims.subject ∧
      StandsFor (x.callback clocks tick t s q context).1.enrollment.identities
        envelope.principalId envelope.issuer envelope.subject ∧
      ∀ principalId issuer subject, pending.purpose = .stepUp principalId issuer subject →
        envelope.principalId = principalId ∧ envelope.issuer = issuer ∧
          envelope.subject = subject := by
  rcases signIn_callback_cases x clocks tick t s q context with hSame |
    ⟨state, pending, hState, hFlow, hAnswer, hAsked⟩
  · rw [hSame] at h
    cases h
  · rw [hAsked] at h ⊢
    obtain ⟨begun, completed, hBegun, hCompletion, hPurpose⟩ := callback_ok h
    cases hFlow.symm.trans hBegun
    have hTarget := callback_target hCompletion h
    rcases completeCallbackInner_cases x.adapter clocks tick t state pending.browserBinding q
      pending.purpose.expected with ⟨-, -, hError⟩ |
      ⟨row, hNamed, -, hRow, -, ⟨-, failure, hError⟩ | ⟨completed', hConsumed, hOk⟩⟩
    · cases hError.symm.trans hCompletion
    · cases hError.symm.trans hCompletion
    cases hOk.symm.trans hCompletion
    obtain ⟨code, response, claims, principal, hCode, hNoError, hExchange, hClaims, hIdentify,
      rfl⟩ := completeConsumed_ok hConsumed
    obtain ⟨hStands, -⟩ := identify_ok hIdentify
    have hCode : q.code = some code := by
      cases hGiven : q.code with
      | none =>
        rw [hGiven, hNoError] at hAnswer
        exact absurd rfl hAnswer
      | some given =>
        rw [hGiven] at hCode
        rw [← hCode]
        rfl
    have hReturn : target = row.returnTo := by
      injection hTarget
    rcases hPurpose with ⟨hLogin, auth, hEstablished⟩ |
      ⟨principalId, issuer, subject, evidence, auth, hStepUp, hSame, hVerified, hRecorded⟩
    · simp only [SessionAuthority.establishAuthenticatedSession, bind_eq_ok, pure_eq_ok,
        Prod.mk.injEq] at hEstablished
      obtain ⟨memberships, -, hAfter, -⟩ := hEstablished
      refine ⟨state, pending, row, code, response, claims, _, hState, hNamed, hAnswer, hFlow, hRow,
        hReturn, hCode, hExchange, hClaims, congrArg Session.auth hAfter.symm, rfl, rfl,
        hStands, fun _ _ _ hUp => ?_⟩
      rw [hLogin] at hUp
      cases hUp
    · obtain ⟨envelope, -, -, ⟨hPrincipal, hIssuer, hSubject⟩, hAfter⟩ :=
        recordVerifiedStepUp_ok hRecorded
      obtain ⟨hPrincipal', hIssuer', hSubject'⟩ := verifyStepUpClaims_principal hVerified
      have hId : envelope.principalId = principal := hPrincipal.symm.trans hPrincipal'
      have hIss : envelope.issuer = x.adapter.issuer := hIssuer.symm.trans hIssuer'
      have hSub : envelope.subject = claims.subject := hSubject.symm.trans hSubject'
      refine ⟨state, pending, row, code, response, claims, _, hState, hNamed, hAnswer, hFlow, hRow,
        hReturn, hCode, hExchange, hClaims, congrArg Session.auth hAfter, hIss, hSub, ?_,
        fun _ _ _ hUp => ?_⟩
      · dsimp only
        rw [hId, hIss, hSub]
        exact hStands
      · cases hStepUp.symm.trans hUp
        obtain ⟨rfl, rfl, rfl⟩ := hSame
        exact ⟨hId, hIss, hSub⟩

end Callback

/-! ## Steps -/

section Steps

variable [DecidableEq β] {x : SignIn} {e : Enrollment ι ν ε} {s : SignInState β}
  {c : SignInCall β ι ε}

/-- Only a login stores a transaction. -/
theorem signInStep_transaction {k : String} {row : AuthTransaction}
    (h : (signInStep x e s c).1.tables.transactions.get? k = some row) :
    s.tables.transactions.get? k = some row ∨ ∃ browser draws purpose,
      SignInEvent.Begins x (Machine.eventAt (signInStep x e) s c) browser draws row purpose ∧
        draws.state = k := by
  obtain ⟨clocks, tick, operation⟩ := c
  cases operation with
  | login browser stepUp returnTo draws =>
    have hAfter : (x.login clocks s.tables (s.sessions browser) stepUp returnTo
        draws).1.transactions.get? k = some row := h
    rcases login_cases x clocks s.tables (s.sessions browser) stepUp returnTo draws with
      ⟨hSame, -⟩ | ⟨target, purpose, transactions, hTarget, hInsert, hPurpose, hTables, -⟩
    · rw [hSame] at hAfter
      exact Or.inl hAfter
    · rw [hTables] at hAfter
      rcases Table.insert?_get?_cases hInsert hAfter with ⟨hKey, hRow⟩ | ⟨-, hOld⟩
      · exact Or.inr ⟨browser, draws, purpose,
          ⟨stepUp, returnTo, target, rfl, hTarget, hRow, hPurpose⟩, hKey.symm⟩
      · exact Or.inl hOld
  | callback browser q context => exact Or.inl (signIn_callback_transactions h)
  | visit browser v => exact Or.inl h
  | cleanup => exact Or.inl (Table.get?_retain.mp h).1
  | store operation => exact Or.inl h

theorem sessionStep_visit_flow {r : AuthRoutes} {session : Session} {now : Int} {v : Visit}
    {pending : PendingOidcFlow}
    (h : (sessionStep r session ⟨now, v.operation⟩).1.flow = some pending) :
    session.flow = some pending := by
  cases v with
  | peek => exact h
  | touch =>
    simp only [Visit.operation, sessionStep] at h
    split at h
    · exact h
    · rename_i s' auth hTouch
      obtain ⟨envelope, -, -, rfl⟩ := touchAuthenticated_ok hTouch
      exact h
  | view viewedAt memberships =>
    simp only [Visit.operation, sessionStep] at h
    rcases sessionView_cases r now viewedAt memberships session with ⟨failure, -, hView⟩ |
      ⟨⟨s', auth⟩, hTouch, hView⟩
    · rw [hView] at h
      exact h
    · rw [hView] at h
      obtain ⟨envelope, -, -, rfl⟩ := touchAuthenticated_ok hTouch
      exact h
  | logout origin csrf =>
    rcases logout_cases r now session origin csrf with ⟨hSame, -⟩ | ⟨hNone, -⟩
    · have hFlow : (r.logout now session origin csrf).1.flow = some pending := h
      rw [hSame] at hFlow
      exact hFlow
    · have hFlow : (r.logout now session origin csrf).1.flow = some pending := h
      rw [hNone] at hFlow
      cases hFlow

/-- Only a login gives a browser a flow. -/
theorem signInStep_flow {browser : β} {pending : PendingOidcFlow}
    (h : ((signInStep x e s c).1.sessions browser).flow = some pending) :
    (s.sessions browser).flow = some pending ∨ ∃ draws row,
      SignInEvent.Begins x (Machine.eventAt (signInStep x e) s c) browser draws row
        pending.purpose ∧ draws.browserBinding = pending.browserBinding := by
  obtain ⟨clocks, tick, operation⟩ := c
  cases operation with
  | login other stepUp returnTo draws =>
    have hAfter : (Function.update s.sessions other (x.login clocks s.tables (s.sessions other)
        stepUp returnTo draws).2.1 browser).flow = some pending := h
    by_cases hOther : browser = other
    · subst hOther
      rw [Function.update_self] at hAfter
      rcases login_cases x clocks s.tables (s.sessions browser) stepUp returnTo draws with
        ⟨-, hSame, -⟩ | ⟨target, purpose, transactions, hTarget, -, hPurpose, -, hSession⟩
      · rw [hSame] at hAfter
        exact Or.inl hAfter
      · rw [hSession] at hAfter
        cases hAfter
        exact Or.inr ⟨draws, _, ⟨stepUp, returnTo, target, rfl, hTarget, rfl, hPurpose⟩, rfl⟩
    · rw [Function.update_of_ne hOther] at hAfter
      exact Or.inl hAfter
  | callback other q context =>
    have hAfter : (Function.update s.sessions other (x.callback clocks tick s.tables
        (s.sessions other) q context).2.1 browser).flow = some pending := h
    by_cases hOther : browser = other
    · subst hOther
      rw [Function.update_self] at hAfter
      exact Or.inl (signIn_callback_flow hAfter)
    · rw [Function.update_of_ne hOther] at hAfter
      exact Or.inl hAfter
  | visit other v =>
    have hAfter : (Function.update s.sessions other (sessionStep x.routes (s.sessions other)
        ⟨clocks.host, v.operation⟩).1 browser).flow = some pending := h
    by_cases hOther : browser = other
    · subst hOther
      rw [Function.update_self] at hAfter
      exact Or.inl (sessionStep_visit_flow hAfter)
    · rw [Function.update_of_ne hOther] at hAfter
      exact Or.inl hAfter
  | cleanup => exact Or.inl h
  | store operation => exact Or.inl h

theorem consumed_gone {browser : β} {q : ProviderReturn} {pending : PendingOidcFlow}
    {state : String} {row : AuthTransaction}
    (h : SignInEvent.Consumes x (Machine.eventAt (signInStep x e) s c) browser q pending state
      row) : (signInStep x e s c).1.tables.transactions.get? state = none := by
  obtain ⟨clocks, tick, operation⟩ := c
  obtain ⟨context, hOp⟩ := h.operation
  obtain ⟨hState, hNamed⟩ := h.query
  have hCall : operation = .callback browser q context := hOp
  subst hCall
  exact signIn_callback_gone hState hNamed h.answer h.flow h.row

end Steps

/-! ## Runs -/

section Runs

variable {x : SignIn}

namespace SignInEvent

theorem Begins.binding {ev : SignInEvent β ι ε} {browser : β} {draws : AuthorizationDraws}
    {row : AuthTransaction} {purpose : OidcFlowPurpose}
    (h : ev.Begins x browser draws row purpose) : row.browserBinding = draws.browserBinding := by
  obtain ⟨stepUp, returnTo, target, -, -, hRow, -⟩ := h.login
  rw [hRow]
  rfl

theorem Begins.differ {ev ev' : SignInEvent β ι ε} {browser browser' : β}
    {draws draws' : AuthorizationDraws} {row row' : AuthTransaction}
    {purpose purpose' : OidcFlowPurpose} (h : ev.Begins x browser draws row purpose)
    (h' : ev'.Begins x browser' draws' row' purpose') (hDiffer : BindingsDiffer ev ev') :
    draws.browserBinding ≠ draws'.browserBinding := by
  obtain ⟨stepUp, returnTo, target, hOp, -⟩ := h.login
  obtain ⟨stepUp', returnTo', target', hOp', -⟩ := h'.login
  exact hDiffer _ (congrArg SignInOperation.binding hOp) _ (congrArg SignInOperation.binding hOp')

/-- A binding names its login. -/
theorem Begins.same {past : List (SignInEvent β ι ε)} (hFresh : past.Pairwise BindingsDiffer)
    {ev ev' : SignInEvent β ι ε} {browser browser' : β} {draws draws' : AuthorizationDraws}
    {row row' : AuthTransaction} {purpose purpose' : OidcFlowPurpose} (hMem : ev ∈ past)
    (hMem' : ev' ∈ past) (h : ev.Begins x browser draws row purpose)
    (h' : ev'.Begins x browser' draws' row' purpose')
    (hBinding : draws.browserBinding = draws'.browserBinding) :
    browser = browser' ∧ draws = draws' ∧ purpose = purpose' := by
  by_cases hEvent : ev = ev'
  · subst hEvent
    exact h.unique h'
  · have : Std.Symm (BindingsDiffer : SignInEvent β ι ε → SignInEvent β ι ε → Prop) :=
      ⟨fun _ _ => BindingsDiffer.symm⟩
    have hDiffer : BindingsDiffer ev ev' := hFresh.forall hMem hMem' hEvent
    exact absurd hBinding (h.differ h' hDiffer)

theorem Consumes.binding {ev : SignInEvent β ι ε} {browser : β} {q : ProviderReturn}
    {pending : PendingOidcFlow} {state : String} {row : AuthTransaction}
    (h : ev.Consumes x browser q pending state row) :
    ev.before.tables.transactions.get? state = some row ∧
      row.browserBinding = pending.browserBinding ∧ ev.call.clocks.database < row.expiresAt := by
  obtain ⟨hRow, hSame⟩ := Option.filter_eq_some_iff.mp h.row
  obtain ⟨hBinding, -, hLive⟩ := of_decide_eq_true hSame
  exact ⟨hRow, hBinding, hLive⟩

end SignInEvent

/-- What the transactions and the flows come from, and what is left of those that were consumed. -/
structure SignInTracked (x : SignIn) (past : List (SignInEvent β ι ε)) (s : SignInState β) :
    Prop where
  transactions : ∀ k row, s.tables.transactions.get? k = some row → ∃ ev ∈ past,
    ∃ browser draws purpose, ev.Begins x browser draws row purpose ∧ draws.state = k
  flows : ∀ browser pending, (s.sessions browser).flow = some pending → ∃ ev ∈ past,
    ∃ draws row, ev.Begins x browser draws row pending.purpose ∧
      draws.browserBinding = pending.browserBinding
  spent : ∀ ev ∈ past, ∀ browser q pending state row,
    ev.Consumes x browser q pending state row → (∃ begun ∈ past, ∃ draws,
      begun.Begins x browser draws row pending.purpose) ∧
      ∀ k row', s.tables.transactions.get? k = some row' →
        row'.browserBinding ≠ row.browserBinding

/-- What is consumed was begun by the same browser, for the same purpose. -/
theorem SignInTracked.begun {past : List (SignInEvent β ι ε)}
    (hFresh : past.Pairwise SignInEvent.BindingsDiffer) {ev : SignInEvent β ι ε}
    (hTracked : SignInTracked x past ev.before) {browser : β} {q : ProviderReturn}
    {pending : PendingOidcFlow} {state : String} {row : AuthTransaction}
    (h : ev.Consumes x browser q pending state row) :
    ∃ begun ∈ past, ∃ draws, begun.Begins x browser draws row pending.purpose ∧
      draws.state = state := by
  obtain ⟨hRow, hBinding, -⟩ := h.binding
  obtain ⟨begun, hMem, other, draws, purpose, hBegins, hState⟩ := hTracked.transactions _ _ hRow
  obtain ⟨begun', hMem', draws', row', hBegins', hBinding'⟩ := hTracked.flows _ _ h.flow
  have hSame : draws.browserBinding = draws'.browserBinding :=
    hBegins.binding.symm.trans (hBinding.trans hBinding'.symm)
  obtain ⟨rfl, rfl, rfl⟩ := hBegins.same hFresh hMem hMem' hBegins' hSame
  exact ⟨begun, hMem, draws, hBegins, hState⟩

variable [DecidableEq β] {e : Enrollment ι ν ε}

theorem SignInTracked.step {past : List (SignInEvent β ι ε)} {s : SignInState β}
    {c : SignInCall β ι ε}
    (hFresh : (past ++ [Machine.eventAt (signInStep x e) s c]).Pairwise
      SignInEvent.BindingsDiffer)
    (hTracked : SignInTracked x past s) :
    SignInTracked x (past ++ [Machine.eventAt (signInStep x e) s c]) (signInStep x e s c).1 := by
  obtain ⟨hPast, -, hNew⟩ := List.pairwise_append.mp hFresh
  have hLast : Machine.eventAt (signInStep x e) s c ∈
      past ++ [Machine.eventAt (signInStep x e) s c] := List.mem_append_right _ List.mem_cons_self
  refine ⟨fun k row hRow => ?_, fun browser pending hFlow => ?_,
    fun ev hEv browser q pending state row hConsumes => ?_⟩
  · rcases signInStep_transaction hRow with hOld | ⟨browser, draws, purpose, hBegins, hState⟩
    · obtain ⟨ev, hMem, hEv⟩ := hTracked.transactions k row hOld
      exact ⟨ev, List.mem_append_left _ hMem, hEv⟩
    · exact ⟨_, hLast, browser, draws, purpose, hBegins, hState⟩
  · rcases signInStep_flow hFlow with hOld | ⟨draws, row, hBegins, hBinding⟩
    · obtain ⟨ev, hMem, hEv⟩ := hTracked.flows browser pending hOld
      exact ⟨ev, List.mem_append_left _ hMem, hEv⟩
    · exact ⟨_, hLast, draws, row, hBegins, hBinding⟩
  · rcases List.mem_append.mp hEv with hOld | hThis
    · -- a consumption of the past: only the login of this step stores a row, under a new binding
      obtain ⟨⟨begun, hMem, draws, hBegins⟩, hGone⟩ :=
        hTracked.spent ev hOld browser q pending state row hConsumes
      refine ⟨⟨begun, List.mem_append_left _ hMem, draws, hBegins⟩, fun k row' hRow' => ?_⟩
      rcases signInStep_transaction hRow' with hKept | ⟨browser', draws', purpose', hBegins', -⟩
      · exact hGone k row' hKept
      · have hDiffer := hBegins.differ hBegins' (hNew begun hMem _ List.mem_cons_self)
        rw [hBegins.binding, hBegins'.binding]
        exact hDiffer.symm
    · -- the consumption of this step: a row that is left was stored under another state
      rw [List.mem_singleton] at hThis
      subst hThis
      have hTracked' : SignInTracked x past (Machine.eventAt (signInStep x e) s c).before :=
        hTracked
      obtain ⟨begun, hMem, draws, hBegins, hState⟩ := hTracked'.begun hPast hConsumes
      refine ⟨⟨begun, List.mem_append_left _ hMem, draws, hBegins⟩,
        fun k row' hRow' hSame => ?_⟩
      have hNone := consumed_gone hConsumes
      obtain ⟨context, hCallback⟩ := hConsumes.operation
      rcases signInStep_transaction hRow' with hKept | ⟨browser', draws', purpose', hBegins', -⟩
      · obtain ⟨begun', hMem', browser', draws', purpose', hBegins', hState'⟩ :=
          hTracked.transactions k row' hKept
        have hBinding : draws.browserBinding = draws'.browserBinding :=
          hBegins.binding.symm.trans (hSame.symm.trans hBegins'.binding)
        obtain ⟨-, rfl, -⟩ := hBegins.same hPast hMem hMem' hBegins' hBinding
        rw [← hState, hState', hRow'] at hNone
        cases hNone
      · obtain ⟨stepUp, returnTo, target, hLogin, -⟩ := hBegins'.login
        cases hCallback.symm.trans hLogin

theorem SignInEvent.pairwise_of_nodup (x : SignIn) (e : Enrollment ι ν ε) (s : SignInState β)
    {calls : List (SignInCall β ι ε)}
    (hFresh : (calls.filterMap fun c => c.operation.binding).Nodup) :
    (Machine.trace (signInStep x e) s calls).Pairwise SignInEvent.BindingsDiffer := by
  rw [← Machine.map_call_trace (signInStep x e) s calls, List.filterMap_map] at hFresh
  exact List.pairwise_filterMap.mp hFresh

/-- In a run from no transactions and no flows, with no two logins under one binding: a callback
consumes the transaction of a login that its browser has begun before, for the purpose of that
login, in its time, and that no callback before has consumed; and a callback that is answered with
a redirection consumes one, has verified the token of its nonce and verifier and leaves the session
of the token's subject, which a step-up does not change. -/
theorem sign_in_bound (x : SignIn) (e : Enrollment ι ν ε) (s : SignInState β)
    (hTransactions : ∀ k, s.tables.transactions.get? k = none)
    (hFlows : ∀ browser, (s.sessions browser).flow = none) (calls : List (SignInCall β ι ε))
    (hFresh : (calls.filterMap fun c => c.operation.binding).Nodup)
    {past future : List (SignInEvent β ι ε)} {ev : SignInEvent β ι ε}
    (hTrace : Machine.trace (signInStep x e) s calls = past ++ ev :: future) :
    (∀ browser q pending state row, ev.Consumes x browser q pending state row →
      (∃ begun ∈ past, ∃ draws, begun.Begins x browser draws row pending.purpose ∧
        draws.state = state) ∧
      ev.call.clocks.database < row.expiresAt ∧
      ev.after.tables.transactions.get? state = none ∧
      ∀ ev' ∈ past, ∀ browser' q' pending' state' row',
        ev'.Consumes x browser' q' pending' state' row' →
          row'.browserBinding ≠ row.browserBinding) ∧
    ∀ browser q context target, ev.call.operation = .callback browser q context →
      ev.response = .session (.ok (.redirect target)) →
        ∃ pending state row, ev.Consumes x browser q pending state row ∧
          ev.SignsIn x browser q pending row := by
  obtain ⟨before, after, -, hBefore, hEvent, -⟩ :=
    Machine.trace_eq_append_cons (signInStep x e) hTrace
  have hPast : past.Pairwise SignInEvent.BindingsDiffer := by
    have hAll := SignInEvent.pairwise_of_nodup x e s hFresh
    rw [hTrace] at hAll
    exact (List.pairwise_append.mp hAll).1
  have hTracked : SignInTracked x past ev.before := by
    rw [hEvent, ← hBefore]
    rw [← hBefore] at hPast
    refine Machine.history (signInStep x e)
      (H := fun past s => past.Pairwise SignInEvent.BindingsDiffer → SignInTracked x past s)
      (fun past s c ih hAll => ?_) (fun _ => ?_) before hPast
    · exact (ih (List.pairwise_append.mp hAll).1).step hAll
    · refine ⟨fun k row hRow => ?_, fun browser pending hFlow => ?_, fun ev hEv => ?_⟩
      · cases (hTransactions k).symm.trans hRow
      · cases (hFlows browser).symm.trans hFlow
      · cases hEv
  refine ⟨fun browser q pending state row hConsumes => ⟨hTracked.begun hPast hConsumes,
    hConsumes.binding.2.2, ?_, fun ev' hMem browser' q' pending' state' row' hConsumes' => ?_⟩,
    fun browser q context target hOp hReply => ?_⟩
  · rw [hEvent] at hConsumes ⊢
    exact consumed_gone hConsumes
  · obtain ⟨-, hGone⟩ := hTracked.spent ev' hMem browser' q' pending' state' row' hConsumes'
    exact (hGone state row hConsumes.binding.1).symm
  · generalize hState : Machine.run (signInStep x e) s before = reached at hEvent
    generalize ev.call = call at hEvent hOp
    subst hEvent
    obtain ⟨clocks, tick, operation⟩ := call
    dsimp only at hOp
    subst hOp
    have hAnswer : (x.callback clocks tick reached.tables (reached.sessions browser) q
        context).2.2 = .ok (.redirect target) := SignInReply.session.inj hReply
    obtain ⟨state, pending, row, code, response, claims, envelope, hGiven, hNamed, hOne, hFlow,
      hRow, rfl, hCode, hExchange, hClaims, hAuth, hIssuer, hSubject, -, hSame⟩ :=
      signIn_callback_redirect hAnswer
    have hSession : ((signInStep x e reached ⟨clocks, tick, .callback browser q
        context⟩).1.sessions browser).auth = some envelope := by
      rw [← hAuth]
      exact congrArg Session.auth (Function.update_self browser _ _)
    exact ⟨pending, state, row, ⟨⟨context, rfl⟩, ⟨hGiven, hNamed⟩, hOne, hFlow, hRow⟩,
      ⟨code, response, claims, hCode, hExchange, hClaims, envelope, hSession, hIssuer, hSubject,
        hSame⟩, hReply⟩

end Runs

def SignInReply.target : SignInReply → Option String
  | .session (.ok (.redirect target)) => some target
  | _ => none

theorem SignInReply.of_target {reply : SignInReply} {target : String}
    (h : reply.target = some target) : reply = .session (.ok (.redirect target)) := by
  unfold SignInReply.target at h
  split at h
  · cases h
    rfl
  · cases h

namespace Sample

def signIn : SignIn :=
  { routes := authRoutes
    adapter := { issuer := "local", transactionTtlSeconds := 300
                 authorizationUrl := fun _ _ => "/idp", ttl_pos := by decide } }

/-- The reception, where nobody has logged in. -/
def lobby : SignInState Bool :=
  { tables := { transactions := .empty, enrollment := { reception with identities := .empty } }
    sessions := fun _ => .anonymous }

def arrive (browser : Bool) (secret : String) : SignInCall Bool Empty Empty :=
  { clocks := ⟨0, 0⟩, tick := reading 0
    operation := .login browser false none ⟨secret, secret, secret, secret⟩ }

/-- The provider knows one subject, under the verifier and the nonce of the login. -/
def comeBack (n : Nat) (browser : Bool) (secret : String) : SignInCall Bool Empty Empty :=
  { clocks := ⟨seconds n, seconds n⟩, tick := reading n
    operation := .callback browser
      { state := some secret, code := some "code", error := none
        exchange := fun _ verifier => if verifier = secret then
            some ⟨some ⟨fun nonce => if nonce = secret then
              some ⟨"guest", none, none, none, none, none, none⟩ else none, none⟩⟩
          else none }
      ⟨0, some [], "token"⟩ }

/-- Two browsers log in, and the second one also tries the state of the first. -/
def arrivals : List (SignInCall Bool Empty Empty) :=
  [arrive false "one", arrive true "two", comeBack 1 true "one", comeBack 2 true "two",
    comeBack 3 false "one"]

theorem arrivals_answered :
    ((Machine.trace (signInStep signIn enrollment) lobby arrivals).map fun ev =>
      ev.response.target) = [some "/idp", some "/idp", none, some "/", some "/"] ∧
    ([true, false].map fun browser =>
      ((Machine.run (signInStep signIn enrollment) lobby arrivals).sessions browser).auth.map
        (·.principalId)) = [some ((reading 2).draw .oidcPrincipal),
          some ((reading 2).draw .oidcPrincipal)] := by decide +kernel

/-- The second browser is about to come back. -/
def waiting : SignInState Bool :=
  Machine.run (signInStep signIn enrollment) lobby (arrivals.take 3)

def secondReturn : SignInEvent Bool Empty Empty :=
  Machine.eventAt (signInStep signIn enrollment) waiting (comeBack 2 true "two")

theorem secondReturn_answered : secondReturn.response.target = some "/" := by
  have hFourth := congrArg (fun answers => answers.getD 3 none) arrivals_answered.1
  exact hFourth

end Sample

/-- The second browser has consumed its own transaction. -/
theorem second_return_bound :
    ∃ q pending state row, Sample.secondReturn.Consumes Sample.signIn true q pending state row ∧
      Sample.secondReturn.SignsIn Sample.signIn true q pending row := by
  have hTrace : Machine.trace (signInStep Sample.signIn Sample.enrollment) Sample.lobby
      Sample.arrivals = Machine.trace (signInStep Sample.signIn Sample.enrollment) Sample.lobby
        (Sample.arrivals.take 3) ++ Sample.secondReturn ::
          Machine.trace (signInStep Sample.signIn Sample.enrollment) Sample.secondReturn.after
            (Sample.arrivals.drop 4) := rfl
  have hBound := (sign_in_bound Sample.signIn Sample.enrollment Sample.lobby (fun _ => rfl)
    (fun _ => rfl) Sample.arrivals (by decide) hTrace).2
  exact ⟨_, hBound true _ _ "/" rfl (SignInReply.of_target Sample.secondReturn_answered)⟩

end Masonwing
