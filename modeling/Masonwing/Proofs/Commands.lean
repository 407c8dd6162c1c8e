import Masonwing.HostApi.Commands
import Masonwing.Proofs.Evaluation
import Masonwing.Proofs.JournalSteps
import Masonwing.Proofs.Subjects

/-!
# Whom a command is for

A request that changes the store is admitted by what its browser shows, and performed later. This
file follows it from the one to the other, over every order of the steps in between:

* `CommandApi.admit_ok`: an operation is admitted for the principal of a session, with the authority
  that this principal has at that time;
* `runEnrollmentOperation_authority`: an operation of an actor commits only with the actor's
  authority in place;
* `commands_attributed`: what is performed was admitted by one request, which is used up by it, and
  what it commits, it commits under the authority of its admission.
-/

namespace Masonwing

open Outcome

variable {β ι ν ε : Type}

/-! ## What is checked -/

/-- The actor of an operation that a member asks for. -/
def EnrollmentOperation.actor? : EnrollmentOperation ι ε → Option CommandActor
  | .host (.platform (.core (.command c))) => some c.actor
  | .host (.platform (.command c)) => some c.actor
  | .host (.command c) => some c.actor
  | .host (.claimUpload actor _ _) => some actor
  | .invite c => some c.actor
  | .retrieveSecret actor _ => some actor
  | _ => none

/-- The action that the gate authorizes on the tenant. -/
def Route.action : Route → Option String
  | .command => none
  | .inviteSecret => some "membership.invite"
  | .upload => some "artifact.begin"

/-- The route asks a member for a step-up. -/
def CommandApi.needsStepUp (x : CommandApi ι ν ε) (q : ApiRequest) : Route → Prop
  | .command => ∃ tenantId operation, q.path = some (tenantId, operation) ∧
      x.operations operation = some true
  | .inviteSecret => True
  | .upload => False

/-- The browser shows a session that has not run out, by a request of its own. -/
structure Recognised (x : CommandApi ι ν ε) (s : Session) (readings : Readings) (q : ApiRequest)
    (tenant : Uuid) (envelope : SessionEnvelope) : Prop where
  session : s.auth = some envelope
  current : x.signIn.routes.sessions.Current envelope readings.peek
  origin : q.headers.first "origin" = some x.signIn.routes.expectedOrigin
  csrf : q.headers.first "x-csrf-token" = some envelope.csrfToken
  override : q.headers.getAll "x-tenant-id" = [] ∧ q.headers.getAll "x-masonwing-tenant" = []
  tenant : ∃ tenantId name, q.path = some (tenantId, name) ∧ parseUuid tenantId = .ok tenant

/-- The operation is for the principal of the session, as a member with the authority of the tables,
or as one who is invited. -/
inductive Attributed (x : CommandApi ι ν ε) (t : Tables) (route : Route) (readings : Readings)
    (q : ApiRequest) (tenant : Uuid) (envelope : SessionEnvelope)
    (operation : EnrollmentOperation ι ε) : Prop
  | member {current : CurrentAuthority}
      (hCurrent : currentAuthority t envelope.principalId tenant = .ok current)
      (hActor : operation.actor? = some
        (commandActor (projectActor (x.signIn.routes.sessions.project envelope) tenant current)))
      (hStepUp : x.needsStepUp q route →
        stepUpFresh envelope.stepUpExpiresAt readings.stepUp = true)
      (hPermits : ∀ action ∈ route.action, x.enrollment.env.policyPermits current.policy
        (projectActor (x.signIn.routes.sessions.project envelope) tenant current).trusted action
          "Tenant" tenant.toText [] = true)
  | invited {c : MembershipAcceptCommand} (hOperation : operation = .accept c)
      (hTenant : tenantAdmission t tenant = .ok () ∧ c.expectedTenantId = tenant)
      (hIdentity : c.identity.principalId = envelope.principalId ∧
        c.identity.issuer = envelope.issuer ∧ c.identity.subject = envelope.subject)

/-! ## Admission -/

section Admission

variable {x : CommandApi ι ν ε} {now : Int} {readings : Readings} {t : Tables} {s : Session}
  {q : ApiRequest} {tenant : Uuid}

theorem sessionResult_ok {α : Type} {y : Except AuthError α} {a : α} :
    sessionResult y = .ok a ↔ y = .ok a := by
  cases y <;> simp [sessionResult, Except.mapError]

theorem gateResult_ok {α : Type} {y : Except GateError α} {a : α} :
    gateResult y = .ok a ↔ y = .ok a := by
  cases y <;> simp [gateResult, Except.mapError]

theorem commandResult_ok {α : Type} {y : Result α} {a : α} :
    commandResult y = .ok a ↔ y = .ok a := by
  cases y <;> simp [commandResult, Except.mapError]

theorem CommandApi.admitBrowser_ok {headers : Headers} {tenantId : String}
    {auth : AuthenticatedSession}
    (h : x.admitBrowser now s headers tenantId = .ok (auth, tenant)) :
    ∃ envelope, s.auth = some envelope ∧ x.signIn.routes.sessions.Current envelope now ∧
      auth = x.signIn.routes.sessions.project envelope ∧
      headers.first "origin" = some x.signIn.routes.expectedOrigin ∧
      headers.first "x-csrf-token" = some envelope.csrfToken ∧
      (headers.getAll "x-tenant-id" = [] ∧ headers.getAll "x-masonwing-tenant" = []) ∧
      parseUuid tenantId = .ok tenant := by
  simp only [admitBrowser, bind_eq_ok, sessionResult_ok, commandResult_ok, pure_eq_ok,
    Prod.mk.injEq] at h
  obtain ⟨auth', hPeek, _, hCsrf, _, hOverride, tenant', hTenant, rfl, rfl⟩ := h
  obtain ⟨envelope, hAuth, hCurrent, rfl⟩ := peekAuthenticated_ok hPeek
  simp only [verifyCsrf, bind_eq_ok, okOr_eq_ok, require_eq_ok] at hCsrf
  obtain ⟨origin, hOrigin, token, hToken, rfl, rfl⟩ := hCsrf
  rw [Headers.rejectTenantOverride, require_eq_ok] at hOverride
  exact ⟨envelope, hAuth, hCurrent, rfl, hOrigin, hToken, hOverride, hTenant⟩

theorem CommandApi.commandHead_ok {head : CommandHead}
    (h : x.commandHead readings.peek s q = .ok head) :
    ∃ envelope, Recognised x s readings q head.tenant envelope ∧
      head.auth = x.signIn.routes.sessions.project envelope ∧
      (x.needsStepUp q .command → head.stepUp = true) := by
  simp only [commandHead, bind_eq_ok, okOr_eq_ok, commandResult_ok, require_eq_ok, pure_eq_ok,
    Prod.exists, exists_const] at h
  obtain ⟨tenantId, operation, hPath, stepUp, hStepUp, auth, tenant, hBrowser, contentType, -, -,
    key, -, idempotencyKey, -, rfl⟩ := h
  obtain ⟨envelope, hAuth, hCurrent, hProject, hOrigin, hCsrf, hOverride, hTenant⟩ :=
    admitBrowser_ok hBrowser
  refine ⟨envelope, ⟨hAuth, hCurrent, hOrigin, hCsrf, hOverride, tenantId, operation, hPath,
    hTenant⟩, hProject, ?_⟩
  rintro ⟨tenantId', operation', hPath', hStepUp'⟩
  cases hPath.symm.trans hPath'
  exact Option.some.inj (hStepUp.symm.trans hStepUp')

theorem SessionAuthority.verifyForTenant_ok {a : SessionAuthority} {actor : VerifiedActor}
    {envelope : SessionEnvelope} (hAuth : s.auth = some envelope)
    (h : (a.verifyForTenant now t s tenant).2 = .ok actor) :
    ∃ current, currentAuthority t envelope.principalId tenant = .ok current ∧
      actor = projectActor (a.project { envelope with lastSeenAt := now }) tenant current := by
  unfold verifyForTenant at h
  split at h
  · cases h
  · rename_i s' auth hTouch
    simp only [touchAuthenticated, readEnvelope, bind_eq_ok, okOr_eq_ok, pure_eq_ok,
      Prod.mk.injEq] at hTouch
    obtain ⟨touched, hTouched, -, -, -, rfl⟩ := hTouch
    cases hAuth.symm.trans hTouched
    simp only [bind_eq_ok, pure_eq_ok] at h
    obtain ⟨current, hCurrent, rfl⟩ := h
    exact ⟨current, hCurrent, rfl⟩

theorem SessionAuthority.authorizeCurrent_ok {a : SessionAuthority} {env : Env} {action : String}
    {requiresStepUp : Bool} {actor : VerifiedActor} {envelope : SessionEnvelope}
    (hAuth : s.auth = some envelope)
    (h : (a.authorizeCurrent env readings t s tenant action requiresStepUp).2 = .ok actor) :
    ∃ current, currentAuthority t envelope.principalId tenant = .ok current ∧
      actor =
        projectActor (a.project { envelope with lastSeenAt := readings.touch }) tenant current ∧
      (requiresStepUp = true → stepUpFresh envelope.stepUpExpiresAt readings.stepUp = true) ∧
      env.policyPermits current.policy actor.trusted action "Tenant" tenant.toText [] = true := by
  unfold authorizeCurrent at h
  split at h
  · cases h
  · rename_i s' auth hTouch
    simp only [touchAuthenticated, readEnvelope, bind_eq_ok, okOr_eq_ok, pure_eq_ok,
      Prod.mk.injEq] at hTouch
    obtain ⟨touched, hTouched, -, -, -, rfl⟩ := hTouch
    cases hAuth.symm.trans hTouched
    simp only [bind_eq_ok, require_eq_ok, pure_eq_ok, exists_const] at h
    obtain ⟨current, hCurrent, -, hStepUp, hPermits, rfl⟩ := h
    exact ⟨current, hCurrent, rfl, hStepUp, hPermits⟩

theorem ApiInput.command_actor (input : ApiInput ι ε) (actor : CommandActor) (key : OpaqueId)
    (fingerprint : Digest) : (input.command actor key fingerprint).actor? = some actor := by
  cases input <;> rfl

theorem CommandApi.acceptCommand_ok {head : CommandHead} {operation : EnrollmentOperation ι ε}
    {envelope : SessionEnvelope} (hHead : head.auth = x.signIn.routes.sessions.project envelope)
    (h : (x.acceptCommand readings t s head q).2 = .ok operation) :
    Attributed x t .command readings q head.tenant envelope operation := by
  unfold acceptCommand at h
  split at h
  · cases h
  · rename_i c hBody
    split at h
    · cases h
    · cases h
      simp only [acceptBody, bind_eq_ok, gateResult_ok, pure_eq_ok] at hBody
      obtain ⟨_, hTenant, bytes, -, inviteToken, -, fingerprint, -, rfl⟩ := hBody
      refine .invited rfl ⟨hTenant, rfl⟩ ?_
      rw [hHead]
      exact ⟨rfl, rfl, rfl⟩

theorem CommandApi.memberCommand_ok {head : CommandHead} {operation : EnrollmentOperation ι ε}
    {envelope : SessionEnvelope} (hAuth : s.auth = some envelope)
    (hStepUp : x.needsStepUp q .command → head.stepUp = true)
    (h : (x.memberCommand readings t s head q).2 = .ok operation) :
    Attributed x t .command readings q head.tenant envelope operation := by
  simp only [memberCommand, bind_eq_ok, gateResult_ok] at h
  obtain ⟨actor, hVerified, hBody⟩ := h
  obtain ⟨current, hCurrent, rfl⟩ := SessionAuthority.verifyForTenant_ok hAuth hVerified
  simp only [memberBody, bind_eq_ok, require_eq_ok, pure_eq_ok] at hBody
  obtain ⟨_, hFresh, bytes, -, input, -, fingerprint, -, rfl⟩ := hBody
  refine .member hCurrent ?_ (fun hNeeded => hFresh (hStepUp hNeeded)) ?_
  · exact input.command_actor _ _ _
  · intro action hAction
    cases hAction

theorem CommandApi.authorizedRoute_ok {route : Route} {action : String} {requiresStepUp : Bool}
    {finish : CommandActor → String → Result (EnrollmentOperation ι ε)}
    {operation : EnrollmentOperation ι ε} (hAction : route.action = some action)
    (hStepUp : x.needsStepUp q route → requiresStepUp = true)
    (hFinish : ∀ actor name operation, finish actor name = .ok operation →
      operation.actor? = some actor)
    (h : (x.authorizedRoute action requiresStepUp finish readings t s q).2 = .ok operation) :
    ∃ tenant envelope, Recognised x s readings q tenant envelope ∧
      Attributed x t route readings q tenant envelope operation := by
  unfold authorizedRoute at h
  split at h
  · cases h
  · rename_i tenant name hHead
    simp only [routeHead, bind_eq_ok, okOr_eq_ok, pure_eq_ok, Prod.exists, Prod.mk.injEq] at hHead
    obtain ⟨tenantId, name', hPath, auth, tenant', hBrowser, rfl, rfl⟩ := hHead
    obtain ⟨envelope, hAuth, hCurrent, -, hOrigin, hCsrf, hOverride, hTenant⟩ :=
      admitBrowser_ok hBrowser
    simp only [bind_eq_ok, gateResult_ok, commandResult_ok] at h
    obtain ⟨actor, hVerified, hFinished⟩ := h
    obtain ⟨current, hAuthority, rfl, hFresh, hPermits⟩ :=
      SessionAuthority.authorizeCurrent_ok hAuth hVerified
    refine ⟨tenant', envelope, ⟨hAuth, hCurrent, hOrigin, hCsrf, hOverride, tenantId, name', hPath,
      hTenant⟩, .member hAuthority (hFinish _ _ _ hFinished) (fun hNeeded =>
        hFresh (hStepUp hNeeded)) fun action' hAction' => ?_⟩
    cases hAction.symm.trans hAction'
    exact hPermits

/-- What is admitted is for the principal of the session. -/
theorem CommandApi.admit_ok {route : Route} {operation : EnrollmentOperation ι ε}
    (h : (x.receive route readings t s q).2 = .ok operation) :
    ∃ tenant envelope, Recognised x s readings q tenant envelope ∧
      Attributed x t route readings q tenant envelope operation := by
  cases route with
  | command =>
    have hRoute : (x.commandInner readings t s q).2 = .ok operation := h
    unfold commandInner at hRoute
    split at hRoute
    · cases hRoute
    · rename_i head hHead
      obtain ⟨envelope, hRecognised, hProject, hStepUp⟩ := commandHead_ok hHead
      refine ⟨head.tenant, envelope, hRecognised, ?_⟩
      split at hRoute
      · exact acceptCommand_ok hProject hRoute
      · exact memberCommand_ok hRecognised.session hStepUp hRoute
  | inviteSecret =>
    have hRoute : (x.inviteSecret readings t s q).2 = .ok operation := h
    refine authorizedRoute_ok rfl (fun _ => rfl) (fun actor name operation hFinish => ?_) hRoute
    simp only [bind_eq_ok, pure_eq_ok] at hFinish
    obtain ⟨inviteId, -, rfl⟩ := hFinish
    rfl
  | upload =>
    have hRoute : (x.upload readings t s q).2 = .ok operation := h
    refine authorizedRoute_ok rfl (fun hNever => hNever.elim)
      (fun actor name operation hFinish => ?_) hRoute
    simp only [bind_eq_ok, pure_eq_ok] at hFinish
    obtain ⟨length, -, _, -, rfl⟩ := hFinish
    rfl

end Admission

/-! ## The session of a request -/

section Touch

variable {x : CommandApi ι ν ε} {readings : Readings} {t : Tables} {s : Session} {q : ApiRequest}

/-- A session is left, or touched. -/
def KeepsPrincipal (s s' : Session) : Prop :=
  ∀ envelope, s'.auth = some envelope →
    ∃ old, s.auth = some old ∧ old.principal = envelope.principal

theorem KeepsPrincipal.refl (s : Session) : KeepsPrincipal s s := fun envelope h =>
  ⟨envelope, h, rfl⟩

theorem touchAuthenticated_keeps {a : SessionAuthority} {now : Int} {s' : Session}
    {auth : AuthenticatedSession} (h : a.touchAuthenticated now s = .ok (s', auth)) :
    KeepsPrincipal s s' := by
  obtain ⟨old, hOld, -, rfl⟩ := touchAuthenticated_ok h
  intro envelope hAuth
  cases hAuth
  exact ⟨old, hOld, rfl⟩

theorem CommandApi.authorizedRoute_keeps {action : String} {requiresStepUp : Bool}
    {finish : CommandActor → String → Result (EnrollmentOperation ι ε)} :
    KeepsPrincipal s (x.authorizedRoute action requiresStepUp finish readings t s q).1 := by
  unfold authorizedRoute
  split
  · exact .refl s
  · dsimp only
    unfold SessionAuthority.authorizeCurrent
    split
    · exact .refl s
    · rename_i hTouch
      exact touchAuthenticated_keeps hTouch

theorem CommandApi.commandInner_keeps :
    KeepsPrincipal s (x.commandInner readings t s q).1 := by
  unfold commandInner
  split
  · exact .refl s
  · split
    · unfold acceptCommand
      split
      · exact .refl s
      · split
        · exact .refl s
        · rename_i hTouch
          exact touchAuthenticated_keeps hTouch
    · unfold memberCommand
      dsimp only
      unfold SessionAuthority.verifyForTenant
      split
      · exact .refl s
      · rename_i hTouch
        exact touchAuthenticated_keeps hTouch

theorem CommandApi.receive_keeps (route : Route) :
    KeepsPrincipal s (x.receive route readings t s q).1 := by
  cases route with
  | command => exact commandInner_keeps
  | inviteSecret => exact authorizedRoute_keeps
  | upload => exact authorizedRoute_keeps

end Touch

/-! ## The transaction -/

section Transaction

variable {e : Enrollment ι ν ε} {tick : Tick} {s s' : EnrollmentState} {reply : EnrollmentReply}

theorem execute_authority {ι : Type} {env : Env} {svc : Service ι} {store store' : Store}
    {c : Command ι} {a : Answer} (h : execute env svc tick store c = .ok (store', a)) :
    beginActor store.tables c.actor = .ok () := by
  obtain ⟨principal, hAdmit, -⟩ := execute_ok h
  exact (admitCommand_ok hAdmit).1

/-- An operation of an actor commits under the authority that the actor carries. -/
theorem runEnrollmentOperation_authority {operation : EnrollmentOperation ι ε}
    {actor : CommandActor} (hActor : operation.actor? = some actor)
    (h : runEnrollmentOperation e tick s operation = .ok (s', reply)) :
    beginActor s.tables actor = .ok () := by
  cases operation with
  | host operation =>
    simp only [runEnrollmentOperation, bind_eq_ok, Prod.exists, pure_eq_ok, Prod.mk.injEq] at h
    obtain ⟨host, hostReply, hHost, -⟩ := h
    cases operation with
    | platform operation =>
      simp only [runHostOperation, bind_eq_ok, Prod.exists, pure_eq_ok, Prod.mk.injEq] at hHost
      obtain ⟨store, platformReply, hPlatform, -⟩ := hHost
      cases operation with
      | core operation =>
        simp only [runPlatformOperation, bind_eq_ok, Prod.exists, pure_eq_ok,
          Prod.mk.injEq] at hPlatform
        obtain ⟨store, coreReply, hCore, -⟩ := hPlatform
        cases operation with
        | command c =>
          cases hActor
          simp only [runOperation, bind_eq_ok, Prod.exists, pure_eq_ok, Prod.mk.injEq] at hCore
          obtain ⟨store, a, hExecute, -⟩ := hCore
          exact execute_authority hExecute
        | quarantine c reference => cases hActor
        | system c => cases hActor
      | command c =>
        cases hActor
        simp only [runPlatformOperation, bind_eq_ok, Prod.exists, pure_eq_ok,
          Prod.mk.injEq] at hPlatform
        obtain ⟨store, a, hExecute, -⟩ := hPlatform
        exact execute_authority hExecute
      | quarantine c reference => cases hActor
      | checkpoint runId record => cases hActor
    | command c =>
      cases hActor
      simp only [runHostOperation, bind_eq_ok, Prod.exists, pure_eq_ok, Prod.mk.injEq] at hHost
      obtain ⟨store, a, hExecute, -⟩ := hHost
      exact execute_authority hExecute
    | quarantine c reference => cases hActor
    | claimUpload uploader uploadId contentLength =>
      cases hActor
      simp only [runHostOperation, claimUpload, bind_eq_ok, Prod.exists] at hHost
      obtain ⟨tables, claim, ⟨_, -, _, -, _, hBegin, -⟩, -⟩ := hHost
      exact hBegin
    | completeUpload attempt outcome => cases hActor
  | invite c =>
    cases hActor
    simp only [runEnrollmentOperation, Enrollment.runInvite, bind_eq_ok, Prod.exists] at h
    obtain ⟨_, _, ⟨store, a, hExecute, -⟩, -⟩ := h
    exact execute_authority hExecute
  | retrieveSecret retriever inviteId =>
    cases hActor
    simp only [runEnrollmentOperation, Enrollment.retrieveMembershipInviteSecret, bind_eq_ok,
      Prod.exists] at h
    obtain ⟨_, _, ⟨_, -, _, -, _, hBegin, -⟩, -⟩ := h
    exact hBegin
  | accept c => cases hActor
  | login issuer subject email emailVerified => cases hActor

theorem enrollmentStep_authority {operation : EnrollmentOperation ι ε} {actor : CommandActor}
    (hActor : operation.actor? = some actor)
    (h : (enrollmentStep e s ⟨tick, operation⟩).2 = .ok reply) :
    beginActor s.tables actor = .ok () := by
  rcases transact_cases s (runEnrollmentOperation e tick s operation) with
    ⟨s', reply', hOk, -⟩ | ⟨failure, -, hStep⟩
  · exact runEnrollmentOperation_authority hActor hOk
  · have hFailed : enrollmentStep e s ⟨tick, operation⟩ = (s, .error failure) := hStep
    rw [hFailed] at h
    cases h

/-- The epochs and the policy of an authority are those of another one. -/
structure SameEpochs (a a' : CurrentAuthority) : Prop where
  membershipEpoch : a'.membership.membershipEpoch = a.membership.membershipEpoch
  permissionEpoch : a'.membership.permissionEpoch = a.membership.permissionEpoch
  policyVersion : a'.policy.policyVersion = a.policy.policyVersion
  policyEpoch : a'.policy.policyEpoch = a.policy.policyEpoch

/-- An actor whom the store takes has the authority that it was projected from. -/
theorem beginActor_authority {t : Tables} {auth : AuthenticatedSession} {tenant : Uuid}
    {current : CurrentAuthority}
    (h : beginActor t (commandActor (projectActor auth tenant current)) = .ok ()) :
    ∃ now, currentAuthority t auth.principalId tenant = .ok now ∧ SameEpochs current now := by
  simp only [beginActor, bind_eq_ok, okOr_eq_ok, require_eq_ok, exists_const] at h
  obtain ⟨tenant', hTenant, principal, hPrincipal, hActive, membership, hMembership,
    ⟨hStatus, hEpoch, hPermission⟩, policy, hPolicy, hVersion, hPolicyEpoch⟩ := h
  have hTenantSame : parseUuid tenant.toText = .ok tenant' := hTenant
  have hPrincipalSame : parseUuid auth.principalId.toText = .ok principal := hPrincipal
  rw [parseUuid_eq_ok, Uuid.parse_toText] at hTenantSame hPrincipalSame
  cases hTenantSame
  cases hPrincipalSame
  refine ⟨⟨membership, policy⟩, ?_, hEpoch, hPermission, hVersion, hPolicyEpoch⟩
  rw [currentAuthority, require, if_pos hActive, hMembership, hPolicy]
  simp only [Option.filter, hStatus]
  rfl

end Transaction

/-! ## Steps -/

/-- The event admits the operation as the request. -/
structure AdmitsRequest (x : CommandApi ι ν ε) (ev : ApiEvent β ι ε) (request : Nat) (browser : β)
    (route : Route) (readings : Readings) (q : ApiRequest) (operation : EnrollmentOperation ι ε) :
    Prop where
  call : ev.call.operation = .receive request browser route readings q
  outcome : (x.receive route readings ev.before.signIn.tables.enrollment.tables
    (ev.before.signIn.sessions browser) q).2 = .ok operation
  answer : ev.response = .admitted

/-- The event performs the request, or drops it. -/
def ClosesRequest (ev : ApiEvent β ι ε) (request : Nat) : Prop :=
  ev.call.operation = .perform request ∨ ev.call.operation = .drop request

section Steps

variable [DecidableEq β] {x : CommandApi ι ν ε} {s : ApiState β ι ε} {c : ApiCall β ι ε}

theorem ApiState.enter_cases (s : ApiState β ι ε) (request : Nat) (browser : β) (session : Session)
    (outcome : Except ApiError (EnrollmentOperation ι ε)) :
    s.enter request browser session outcome = (s, .none) ∨
    ((s.enter request browser session outcome).1.signIn =
        { s.signIn with sessions := Function.update s.signIn.sessions browser session } ∧
      ((s.enter request browser session outcome).1.admitted = s.admitted ∨
        ∃ operation, outcome = .ok operation ∧
          s.admitted.insert? request operation =
            some (s.enter request browser session outcome).1.admitted ∧
          (s.enter request browser session outcome).2 = .admitted)) := by
  cases outcome with
  | error failure => exact Or.inr ⟨rfl, Or.inl rfl⟩
  | ok operation =>
    cases hInsert : s.admitted.insert? request operation with
    | none =>
      left
      rw [enter, hInsert]
    | some admitted =>
      right
      rw [enter, hInsert]
      exact ⟨rfl, Or.inr ⟨operation, rfl, hInsert, rfl⟩⟩

/-- The sessions stay named. -/
theorem apiStep_named (c : ApiCall β ι ε) (h : SessionsNamed s.signIn) :
    SessionsNamed (apiStep x s c).1.signIn := by
  obtain ⟨clocks, tick, operation⟩ := c
  cases operation with
  | signIn operation =>
    have hStep : SessionsNamed
        (signInStep x.signIn x.enrollment s.signIn ⟨clocks, tick, operation⟩).1 := h.step _
    exact hStep
  | receive request browser route readings q =>
    have hKeeps : KeepsPrincipal (s.signIn.sessions browser)
        (x.receive route readings s.signIn.tables.enrollment.tables
          (s.signIn.sessions browser) q).1 := CommandApi.receive_keeps route
    have hStep : apiStep x s ⟨clocks, tick, .receive request browser route readings q⟩ =
        s.enter request browser
          (x.receive route readings s.signIn.tables.enrollment.tables
            (s.signIn.sessions browser) q).1
          (x.receive route readings s.signIn.tables.enrollment.tables
            (s.signIn.sessions browser) q).2 := rfl
    generalize x.receive route readings s.signIn.tables.enrollment.tables
      (s.signIn.sessions browser) q = admission at hKeeps hStep
    rw [hStep]
    rcases s.enter_cases request browser admission.1 admission.2 with hSame | ⟨hSignIn, -⟩
    · rw [hSame]
      exact h
    · rw [hSignIn]
      refine ⟨h.once, fun other envelope hAuth => ?_⟩
      dsimp only at hAuth ⊢
      by_cases hOther : other = browser
      · subst hOther
        rw [Function.update_self] at hAuth
        obtain ⟨old, hOld, hSame⟩ := hKeeps envelope hAuth
        have hNamed := h.sessions other old hOld
        injection hSame with hId hIssuer hSubject
        rw [hId, hIssuer, hSubject] at hNamed
        exact hNamed
      · rw [Function.update_of_ne hOther] at hAuth
        exact h.sessions other envelope hAuth
  | perform request =>
    cases hRequest : s.admitted.get? request with
    | none =>
      have hStep : (apiStep x s ⟨clocks, tick, .perform request⟩).1 = s := by
        simp only [apiStep, hRequest]
      rw [hStep]
      exact h
    | some operation =>
      have hStep : (apiStep x s ⟨clocks, tick, .perform request⟩).1.signIn =
          (signInStep x.signIn x.enrollment s.signIn ⟨clocks, tick, .store operation⟩).1 := by
        simp only [apiStep, hRequest]
        rfl
      rw [hStep]
      exact h.step _
  | drop request => exact h

/-- A request that is waiting waited before, or is admitted by the step. -/
theorem apiStep_admitted {request : Nat} {operation : EnrollmentOperation ι ε}
    (h : (apiStep x s c).1.admitted.get? request = some operation) :
    (s.admitted.get? request = some operation ∧
      ¬ ClosesRequest (Machine.eventAt (apiStep x) s c) request) ∨
    ∃ browser route readings q, AdmitsRequest x (Machine.eventAt (apiStep x) s c) request browser
      route readings q operation := by
  obtain ⟨clocks, tick, call⟩ := c
  cases call with
  | signIn operation =>
    left
    refine ⟨h, ?_⟩
    rintro (hCloses | hCloses) <;> cases hCloses
  | receive number browser route readings q =>
    have hStep : apiStep x s ⟨clocks, tick, .receive number browser route readings q⟩ =
        s.enter number browser
          (x.receive route readings s.signIn.tables.enrollment.tables
            (s.signIn.sessions browser) q).1
          (x.receive route readings s.signIn.tables.enrollment.tables
            (s.signIn.sessions browser) q).2 := rfl
    have hOpen : ¬ ClosesRequest (Machine.eventAt (apiStep x) s
        ⟨clocks, tick, .receive number browser route readings q⟩) request := by
      rintro (hCloses | hCloses) <;> cases hCloses
    rcases s.enter_cases number browser
        (x.receive route readings s.signIn.tables.enrollment.tables (s.signIn.sessions browser) q).1
        (x.receive route readings s.signIn.tables.enrollment.tables (s.signIn.sessions browser) q).2
      with hSame | ⟨-, hSame | ⟨admitted, hOutcome, hInsert, hAnswer⟩⟩
    · left
      rw [hStep, hSame] at h
      exact ⟨h, hOpen⟩
    · left
      rw [hStep, hSame] at h
      exact ⟨h, hOpen⟩
    · rw [hStep] at h
      rcases Table.insert?_get?_cases hInsert h with ⟨rfl, rfl⟩ | ⟨-, hOld⟩
      · exact Or.inr ⟨browser, route, readings, q, rfl, hOutcome, hAnswer⟩
      · exact Or.inl ⟨hOld, hOpen⟩
  | perform number =>
    left
    have hAfter : (apiStep x s ⟨clocks, tick, .perform number⟩).1.admitted.get? request =
        if request = number then none else s.admitted.get? request := by
      cases hNumber : s.admitted.get? number with
      | none =>
        simp only [apiStep, hNumber]
        split
        · rename_i hSame
          rw [hSame, hNumber]
        · rfl
      | some found =>
        simp only [apiStep, hNumber, Table.get?_erase]
    rw [hAfter] at h
    split at h
    · cases h
    · rename_i hOther
      refine ⟨h, ?_⟩
      rintro (hCloses | hCloses) <;> cases hCloses
      exact hOther rfl
  | drop number =>
    left
    have hAfter : (apiStep x s ⟨clocks, tick, .drop number⟩).1.admitted.get? request =
        if request = number then none else s.admitted.get? request :=
      Table.get?_erase s.admitted number request
    rw [hAfter] at h
    split at h
    · cases h
    · rename_i hOther
      refine ⟨h, ?_⟩
      rintro (hCloses | hCloses) <;> cases hCloses
      exact hOther rfl

/-- A request that is performed runs its operation. -/
theorem apiStep_perform {request : Nat} {operation : EnrollmentOperation ι ε}
    (hPerform : c.operation = .perform request) (h : s.admitted.get? request = some operation) :
    (apiStep x s c).2 = .performed
      (enrollmentStep x.enrollment s.signIn.tables.enrollment ⟨c.tick, operation⟩).2 := by
  obtain ⟨clocks, tick, call⟩ := c
  cases hPerform
  simp only [apiStep, h]

theorem apiStep_subjects (x : CommandApi ι ν ε) (s : ApiState β ι ε) (c : ApiCall β ι ε) :
    KeepsSubjects s.signIn.tables.enrollment (apiStep x s c).1.signIn.tables.enrollment := by
  obtain ⟨clocks, tick, operation⟩ := c
  cases operation with
  | signIn operation =>
    exact signInStep_names x.signIn x.enrollment s.signIn ⟨clocks, tick, operation⟩
  | receive request browser route readings q =>
    rcases s.enter_cases request browser
        (x.receive route readings s.signIn.tables.enrollment.tables (s.signIn.sessions browser) q).1
        (x.receive route readings s.signIn.tables.enrollment.tables (s.signIn.sessions browser) q).2
      with hSame | ⟨hSignIn, -⟩
    · have hStep : (apiStep x s ⟨clocks, tick, .receive request browser route readings q⟩).1 = s :=
        congrArg Prod.fst hSame
      rw [hStep]
      exact .refl _ _
    · have hStep :
          (apiStep x s ⟨clocks, tick, .receive request browser route readings q⟩).1.signIn = _ :=
        hSignIn
      rw [hStep]
      exact .refl _ _
  | perform request =>
    cases hRequest : s.admitted.get? request with
    | none =>
      have hStep : (apiStep x s ⟨clocks, tick, .perform request⟩).1 = s := by
        simp only [apiStep, hRequest]
      rw [hStep]
      exact .refl _ _
    | some operation =>
      have hStep : (apiStep x s ⟨clocks, tick, .perform request⟩).1.signIn.tables.enrollment =
          (enrollmentStep x.enrollment s.signIn.tables.enrollment ⟨tick, operation⟩).1 := by
        simp only [apiStep, hRequest]
      rw [hStep]
      exact enrollmentStep_names _ _ _
  | drop request => exact .refl _ _

end Steps

/-! ## Runs -/

/-- Every request that waits was admitted, and has not been closed since. -/
def RequestsTracked (x : CommandApi ι ν ε) (past : List (ApiEvent β ι ε)) (s : ApiState β ι ε) :
    Prop :=
  ∀ request operation, s.admitted.get? request = some operation →
    ∃ before adm between browser route readings q, past = before ++ adm :: between ∧
      AdmitsRequest x adm request browser route readings q operation ∧
      ∀ ev ∈ between, ¬ ClosesRequest ev request

section Runs

variable [DecidableEq β] {x : CommandApi ι ν ε} {s : ApiState β ι ε}

theorem RequestsTracked.step {past : List (ApiEvent β ι ε)} (c : ApiCall β ι ε)
    (h : RequestsTracked x past s) :
    RequestsTracked x (past ++ [Machine.eventAt (apiStep x) s c]) (apiStep x s c).1 := by
  intro request operation hWaiting
  rcases apiStep_admitted hWaiting with ⟨hWaited, hOpen⟩ | ⟨browser, route, readings, q, hAdmits⟩
  · obtain ⟨before, adm, between, browser, route, readings, q, rfl, hAdmits, hBetween⟩ :=
      h request operation hWaited
    refine ⟨before, adm, between ++ [Machine.eventAt (apiStep x) s c], browser, route, readings, q,
      ?_, hAdmits, fun ev hEv => ?_⟩
    · rw [List.append_assoc, List.cons_append]
    · rcases List.mem_append.mp hEv with hOld | hNew
      · exact hBetween ev hOld
      · rw [List.mem_singleton.mp hNew]
        exact hOpen
  · exact ⟨past, _, [], browser, route, readings, q, rfl, hAdmits, fun ev hEv => by cases hEv⟩

/-- In a run that starts with named identities, no sessions and no requests, every operation that is
performed was admitted by one request, which nothing has performed since: the browser showed a
session that was current, by a request of its own, and the operation is for the principal of that
session, which still stands for one subject; and what is committed for a member is committed under
the epochs and the policy of the admission. -/
theorem commands_attributed (x : CommandApi ι ν ε) (s : ApiState β ι ε)
    (hOnce : s.signIn.tables.enrollment.identities.NamedOnce OidcIdentityRow.name)
    (hAnonymous : ∀ browser, (s.signIn.sessions browser).auth = none)
    (hIdle : ∀ request, s.admitted.get? request = none) (calls : List (ApiCall β ι ε))
    {past future : List (ApiEvent β ι ε)} {ev : ApiEvent β ι ε}
    (hTrace : Machine.trace (apiStep x) s calls = past ++ ev :: future) {request : Nat}
    {operation : EnrollmentOperation ι ε} (hPerform : ev.call.operation = .perform request)
    (hWaiting : ev.before.admitted.get? request = some operation) :
    ∃ before adm between browser route readings q tenant envelope,
      past = before ++ adm :: between ∧ (∀ ev' ∈ between, ¬ ClosesRequest ev' request) ∧
      AdmitsRequest x adm request browser route readings q operation ∧
      Recognised x (adm.before.signIn.sessions browser) readings q tenant envelope ∧
      Attributed x adm.before.signIn.tables.enrollment.tables route readings q tenant envelope
        operation ∧
      StandsFor ev.before.signIn.tables.enrollment.identities envelope.principalId envelope.issuer
        envelope.subject ∧
      ∀ actor reply, operation.actor? = some actor → ev.response = .performed (.ok reply) →
        ∃ a a', currentAuthority adm.before.signIn.tables.enrollment.tables envelope.principalId
            tenant = .ok a ∧
          currentAuthority ev.before.signIn.tables.enrollment.tables envelope.principalId tenant =
            .ok a' ∧ SameEpochs a a' := by
  obtain ⟨calls', rest, -, hPast, hEvent, -⟩ := Machine.trace_eq_append_cons (apiStep x) hTrace
  have hTracked : RequestsTracked x past ev.before := by
    rw [← hPast, hEvent]
    refine Machine.history (apiStep x) (H := RequestsTracked x) (fun _ _ c h => h.step c) ?_ calls'
    intro request operation hNone
    cases (hIdle request).symm.trans hNone
  obtain ⟨before, adm, between, browser, route, readings, q, hSplit, hAdmits, hBetween⟩ :=
    hTracked request operation hWaiting
  obtain ⟨tenant, envelope, hRecognised, hAttributed⟩ := CommandApi.admit_ok hAdmits.outcome
  refine ⟨before, adm, between, browser, route, readings, q, tenant, envelope, hSplit, hBetween,
    hAdmits, hRecognised, hAttributed, ?_, fun actor reply hActor hReply => ?_⟩
  · -- the name of the session, at its admission and from there on
    obtain ⟨first, later, hCalls, -, hAdm, -⟩ :=
      Machine.trace_eq_append_cons (apiStep x) (hPast.trans hSplit)
    have hStart : SessionsNamed s.signIn := ⟨hOnce, fun browser envelope hAuth => by
      cases (hAnonymous browser).symm.trans hAuth⟩
    have hNamed : SessionsNamed adm.before.signIn := by
      rw [hAdm]
      exact Machine.run_invariant (apiStep x) (I := fun s => SessionsNamed s.signIn)
        (fun _ c h => apiStep_named c h) hStart first
    have hKeeps : KeepsSubjects adm.before.signIn.tables.enrollment
        ev.before.signIn.tables.enrollment := by
      have hRun : ev.before = Machine.run (apiStep x) adm.before (adm.call :: later) := by
        have hFirst : adm.before = Machine.run (apiStep x) s first := congrArg (·.before) hAdm
        have hLast : ev.before = Machine.run (apiStep x) s calls' := congrArg (·.before) hEvent
        rw [hLast, hFirst, hCalls, Machine.run_append]
      rw [hRun]
      exact Machine.run_invariant (apiStep x)
        (I := fun s' => KeepsSubjects adm.before.signIn.tables.enrollment
          s'.signIn.tables.enrollment)
        (fun s' c h => h.trans (apiStep_subjects x s' c)) (.refl _ _) _
    exact hKeeps.names _ _ (hNamed.sessions browser envelope hRecognised.session)
  · have hCommitted : beginActor ev.before.signIn.tables.enrollment.tables actor = .ok () := by
      have hResponse : ev.response = (apiStep x ev.before ev.call).2 := by
        rw [hEvent]
        rfl
      rw [hResponse, apiStep_perform hPerform hWaiting] at hReply
      injection hReply with hAnswer
      exact enrollmentStep_authority hActor hAnswer
    cases hAttributed with
    | member hCurrent hMember hStepUp hPermits =>
      rw [Option.some.inj (hActor.symm.trans hMember)] at hCommitted
      obtain ⟨a', hNow, hSame⟩ := beginActor_authority hCommitted
      exact ⟨_, a', hCurrent, hNow, hSame⟩
    | invited hOperation hTenant hIdentity =>
      subst hOperation
      cases hActor

end Runs

/-- The reply says that a transaction was committed. -/
def ApiReply.committed : ApiReply → Bool
  | .performed (.ok _) => true
  | _ => false

theorem ApiReply.of_committed {reply : ApiReply} (h : reply.committed = true) :
    ∃ answer, reply = .performed (.ok answer) := by
  unfold committed at h
  split at h
  · exact ⟨_, rfl⟩
  · cases h

namespace Sample

/-- The boundary at the reception, where every body revokes the grant. -/
def commandApi : CommandApi Empty Nat Empty :=
  { signIn, enrollment
    operations := fun operation => if operation = "grant.revoke" then some false else none
    commandInput := fun _ _ => .ok (.core (.grantRevoke grantId.toText 1 "not needed any more"))
    acceptInput := fun _ => .error "SCHEMA_INVALID" }

/-- The owner of the tenant is known to the provider. -/
def desk : ApiState Bool Empty Empty :=
  { signIn :=
      { lobby with
        tables := { lobby.tables with
          enrollment := { reception with
            identities := ⟨[(principalId, ⟨"local", "guest", none, true⟩)], by decide⟩ } } }
    admitted := .empty }

def atDesk (c : SignInCall Bool Empty Empty) : ApiCall Bool Empty Empty :=
  ⟨c.clocks, c.tick, .signIn c.operation⟩

def revocation : ApiRequest :=
  { path := some (tenantId.toText, "grant.revoke")
    headers :=
      [("origin", some "https://local"), ("x-csrf-token", some "token"),
        ("content-type", some "application/json; charset=utf-8"),
        ("idempotency-key", some (uuid 9).toText)]
    body := .ok [] }

/-- The owner logs in and asks for the revocation. -/
def asked : List (ApiCall Bool Empty Empty) :=
  [atDesk (arrive false "one"), atDesk (comeBack 1 false "one"),
    ⟨⟨seconds 2, seconds 2⟩, reading 2,
      .receive 7 false .command ⟨seconds 2, seconds 2, seconds 2⟩ revocation⟩]

def carryOut : ApiCall Bool Empty Empty := ⟨⟨seconds 3, seconds 3⟩, reading 3, .perform 7⟩

def carriedOut : ApiEvent Bool Empty Empty :=
  Machine.eventAt (apiStep commandApi) (Machine.run (apiStep commandApi) desk asked) carryOut

theorem carriedOut_committed :
    (carriedOut.before.admitted.get? 7).map (fun operation => operation.actor?.isSome) =
      some true ∧ carriedOut.response.committed = true := by
  delta carriedOut asked revocation commandApi apiStep
  rw [enrollmentStep_bytewise, enrollment_bytewise, Uuid.toText_bytewise]
  decide +kernel

end Sample

theorem revocation_attributed : ∃ (operation : EnrollmentOperation Empty Empty)
    (adm : ApiState Bool Empty Empty) (route : Route) (readings : Readings) (q : ApiRequest)
    (tenant : Uuid) (envelope : SessionEnvelope) (a a' : CurrentAuthority),
    Sample.carriedOut.before.admitted.get? 7 = some operation ∧
    Attributed Sample.commandApi adm.signIn.tables.enrollment.tables route readings q tenant
      envelope operation ∧
    currentAuthority Sample.carriedOut.before.signIn.tables.enrollment.tables envelope.principalId
      tenant = .ok a' ∧ SameEpochs a a' := by
  obtain ⟨hOperation, hCommitted⟩ := Sample.carriedOut_committed
  obtain ⟨operation, hWaiting, hActor⟩ := Option.map_eq_some_iff.mp hOperation
  obtain ⟨actor, hActor⟩ := Option.isSome_iff_exists.mp hActor
  obtain ⟨answer, hAnswer⟩ := ApiReply.of_committed hCommitted
  have hTrace : Machine.trace (apiStep Sample.commandApi) Sample.desk
      (Sample.asked ++ [Sample.carryOut]) =
        Machine.trace (apiStep Sample.commandApi) Sample.desk Sample.asked ++
          Sample.carriedOut :: [] := Machine.trace_concat _ _ _ _
  have hOnce : Sample.desk.signIn.tables.enrollment.identities.NamedOnce OidcIdentityRow.name := by
    have hOnly : ∀ k row, Sample.desk.signIn.tables.enrollment.identities.get? k = some row →
        k = Sample.principalId := by
      intro k row hRow
      exact (Prod.mk.inj (List.mem_singleton.mp (Table.get?_eq_some_iff.mp hRow))).1
    rintro k k' name ⟨row, hRow, -⟩ ⟨row', hRow', -⟩
    rw [hOnly k row hRow, hOnly k' row' hRow']
  obtain ⟨before, adm, between, browser, route, readings, q, tenant, envelope, -, -, -, -,
    hAttributed, -, hSame⟩ := commands_attributed Sample.commandApi Sample.desk hOnce (fun _ => rfl)
      (fun _ => rfl) (Sample.asked ++ [Sample.carryOut]) hTrace rfl hWaiting
  obtain ⟨a, a', -, hNow, hEpochs⟩ := hSame actor answer hActor hAnswer
  exact ⟨operation, adm.before, route, readings, q, tenant, envelope, a, a', hWaiting, hAttributed,
    hNow, hEpochs⟩

end Masonwing
