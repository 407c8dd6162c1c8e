import Masonwing.Contracts.Identifiers
import Masonwing.Lib.Machine
import Masonwing.Lib.Outcome

/-!
# Sessions

The browser session of `auth/session.rs` and `auth/router.rs`, with the step-up checks of the OIDC
adapter. A session holds the authenticated envelope and the login flow that the browser has begun;
the session store returns what was last put in. What the OIDC library answers to a callback, and
what the database answers about memberships, come with the call.

Times are microseconds.
-/

namespace Masonwing

open Outcome

/-! ## Errors -/

inductive OidcError where
  | configInvalid
  | issuerTrustFailed
  | discoveryUnavailable
  | returnTargetDenied
  | invalidCallback
  | providerError (reason : String)
  | tokenExchangeFailed
  | invalidIdToken
  | stepUpInsufficient
  | databaseUnavailable
  deriving DecidableEq

inductive AuthError where
  | unauthenticated
  | sessionExpired
  | invalidCallback
  | returnTargetDenied
  | providerDenied
  | csrfRejected
  | stepUpRequired
  | dependencyUnavailable
  deriving DecidableEq

/-- `From<OidcError> for AuthError`. -/
def OidcError.toAuthError : OidcError → AuthError
  | .returnTargetDenied => .returnTargetDenied
  | .invalidCallback | .tokenExchangeFailed | .invalidIdToken => .invalidCallback
  | .providerError _ => .providerDenied
  | .stepUpInsufficient => .stepUpRequired
  | .databaseUnavailable | .discoveryUnavailable | .configInvalid | .issuerTrustFailed =>
    .dependencyUnavailable

/-! ## Step-up -/

structure VerifiedOidcPrincipal where
  principalId : Uuid
  issuer : String
  subject : String

/-- What a completed code flow says about the authentication. -/
structure CompletedLogin where
  principal : VerifiedOidcPrincipal
  returnTo : String
  authTime : Option Int
  authContextRef : Option String
  authMethodRefs : List String

structure VerifiedStepUpEvidence where
  principalId : Uuid
  issuer : String
  subject : String
  verifiedAt : Int
  authTime : Int
  acr : String
  amr : List String

/-- The step-up settings of the provider, as `discover` admits them. -/
structure StepUpConfig where
  maxAgeSeconds : Nat
  clockSkewSeconds : Int
  acrValues : List String
  strongAmrValues : List String
  maxAge_le : maxAgeSeconds ≤ 300
  clockSkew_bounds : 0 ≤ clockSkewSeconds ∧ clockSkewSeconds ≤ 300
  acrValues_named : acrValues ≠ [] ∧ "" ∉ acrValues
  strongAmrValues_strong : strongAmrValues ≠ [] ∧
    ∀ value ∈ strongAmrValues, value ≠ "" ∧ value ≠ "pwd" ∧ value ≠ "password"

/-- `Duration::seconds`. -/
def seconds (n : Int) : Int := n * 1000000

def eqIgnoreAsciiCase (a b : String) : Bool :=
  decide (a.toList.map Char.toLower = b.toList.map Char.toLower)

def verifyStepUpClaims (config : StepUpConfig) (completed : CompletedLogin) (now : Int) :
    Except OidcError VerifiedStepUpEvidence := do
  let authTime ← okOr completed.authTime .stepUpInsufficient
  let skew := seconds config.clockSkewSeconds
  require (authTime ≤ now + skew ∧ now - authTime ≤ seconds config.maxAgeSeconds + skew)
    .stepUpInsufficient
  let acr ← okOr (completed.authContextRef.filter fun actual => config.acrValues.contains actual)
    .stepUpInsufficient
  require ((completed.authMethodRefs.any fun actual =>
      config.strongAmrValues.any fun allowed => eqIgnoreAsciiCase allowed actual) = true)
    .stepUpInsufficient
  return {
    principalId := completed.principal.principalId
    issuer := completed.principal.issuer
    subject := completed.principal.subject
    verifiedAt := now
    authTime, acr
    amr := completed.authMethodRefs }

/-! ## The session -/

structure SessionEnvelope where
  principalId : Uuid
  issuer : String
  subject : String
  createdAt : Int
  lastSeenAt : Int
  absoluteExpiresAt : Int
  stepUpExpiresAt : Option Int
  csrfToken : String
  activeTenantId : Option Uuid

inductive OidcFlowPurpose where
  | login
  | stepUp (principalId : Uuid) (issuer subject : String)

structure PendingOidcFlow where
  browserBinding : String
  purpose : OidcFlowPurpose

/-- The two entries of a session. -/
structure Session where
  auth : Option SessionEnvelope
  flow : Option PendingOidcFlow

def Session.anonymous : Session := { auth := none, flow := none }

structure AuthenticatedSession where
  principalId : Uuid
  issuer : String
  subject : String
  absoluteExpiresAt : Int
  idleExpiresAt : Int
  stepUpExpiresAt : Option Int
  csrfToken : String
  activeTenantId : Option Uuid

structure SessionView where
  principalId : Uuid
  issuer : String
  tenantIds : List Uuid
  activeTenantId : Option Uuid
  expiresAt : Int
  stepUpExpiresAt : Option Int
  csrfToken : String

/-- The timeouts, as `with_timeouts` admits them. -/
structure SessionAuthority where
  idleTimeout : Int
  absoluteTimeout : Int
  stepUpTimeout : Int
  idle_pos : 0 < idleTimeout
  absolute_pos : 0 < absoluteTimeout
  stepUp_pos : 0 < stepUpTimeout

namespace SessionAuthority

variable (a : SessionAuthority)

def project (envelope : SessionEnvelope) : AuthenticatedSession :=
  { principalId := envelope.principalId
    issuer := envelope.issuer
    subject := envelope.subject
    absoluteExpiresAt := envelope.absoluteExpiresAt
    idleExpiresAt := envelope.lastSeenAt + a.idleTimeout
    stepUpExpiresAt := envelope.stepUpExpiresAt
    csrfToken := envelope.csrfToken
    activeTenantId := envelope.activeTenantId }

def readEnvelope (s : Session) : Except AuthError SessionEnvelope := okOr s.auth .unauthenticated

def ensureNotExpired (envelope : SessionEnvelope) (now : Int) : Except AuthError Unit :=
  require (now < envelope.absoluteExpiresAt ∧ now < envelope.lastSeenAt + a.idleTimeout)
    .sessionExpired

/-- `memberships` are the tenants of the principal, if the database could be asked. -/
def establishAuthenticatedSession (now : Int) (memberships : Option (List Uuid))
    (csrfToken : String) (principal : VerifiedOidcPrincipal) :
    Except AuthError (Session × AuthenticatedSession) := do
  let memberships ← okOr memberships .dependencyUnavailable
  let envelope : SessionEnvelope :=
    { principalId := principal.principalId, issuer := principal.issuer
      subject := principal.subject, createdAt := now, lastSeenAt := now
      absoluteExpiresAt := now + a.absoluteTimeout, stepUpExpiresAt := none, csrfToken
      activeTenantId := memberships.head? }
  return ({ auth := some envelope, flow := none }, a.project envelope)

def peekAuthenticated (now : Int) (s : Session) : Except AuthError AuthenticatedSession := do
  let envelope ← readEnvelope s
  a.ensureNotExpired envelope now
  return a.project envelope

def touchAuthenticated (now : Int) (s : Session) :
    Except AuthError (Session × AuthenticatedSession) := do
  let envelope ← readEnvelope s
  a.ensureNotExpired envelope now
  let envelope := { envelope with lastSeenAt := now }
  return ({ s with auth := some envelope }, a.project envelope)

def recordVerifiedStepUp (now : Int) (s : Session) (proof : VerifiedStepUpEvidence) :
    Except AuthError (Session × AuthenticatedSession) := do
  let envelope ← readEnvelope s
  a.ensureNotExpired envelope now
  require ((proof.principalId = envelope.principalId ∧ proof.issuer = envelope.issuer ∧
    proof.subject = envelope.subject) ∧ proof.verifiedAt ≤ now ∧
    now - proof.verifiedAt ≤ seconds 60) .stepUpRequired
  let envelope :=
    { envelope with stepUpExpiresAt := some (proof.verifiedAt + a.stepUpTimeout)
                    lastSeenAt := now }
  return ({ s with auth := some envelope }, a.project envelope)

/-- The session is touched also when the memberships cannot be listed. -/
def sessionView (now viewedAt : Int) (memberships : Option (List Uuid)) (s : Session) :
    Session × Except AuthError SessionView :=
  match a.touchAuthenticated now s with
  | .error failure => (s, .error failure)
  | .ok (s', auth) =>
    match memberships with
    | none => (s', .error .dependencyUnavailable)
    | some tenantIds =>
      (s', .ok {
        principalId := auth.principalId
        issuer := auth.issuer
        tenantIds
        activeTenantId :=
          (auth.activeTenantId.filter fun active => tenantIds.contains active) <|>
            tenantIds.head?
        expiresAt := min auth.absoluteExpiresAt auth.idleExpiresAt
        stepUpExpiresAt := auth.stepUpExpiresAt.filter fun expiry => decide (viewedAt < expiry)
        csrfToken := auth.csrfToken })

end SessionAuthority

def setOidcLoginBinding (s : Session) (binding : String) : Session :=
  { s with flow := some { browserBinding := binding, purpose := .login } }

def setOidcStepUpBinding (s : Session) (binding : String) (auth : AuthenticatedSession) :
    Session :=
  { s with flow := some { browserBinding := binding
                          purpose := .stepUp auth.principalId auth.issuer auth.subject } }

def clearOidcBrowserFlow (s : Session) : Session := { s with flow := none }

/-- `CsrfGuard::verify`. -/
def verifyCsrf (expectedOrigin : String) (origin csrf : Option String)
    (auth : AuthenticatedSession) : Except AuthError Unit := do
  let origin ← okOr origin .csrfRejected
  let csrf ← okOr csrf .csrfRejected
  require (origin = expectedOrigin ∧ csrf = auth.csrfToken) .csrfRejected

/-! ## Requests -/

/-- The routes of authentication, with the timeouts, the step-up settings and the origin. -/
structure AuthRoutes where
  sessions : SessionAuthority
  stepUp : StepUpConfig
  expectedOrigin : String

/-- A callback with what the adapter answers to it: the code flow that it completed, and the reading
of the clock at which the step-up was verified. -/
structure AuthCallback where
  state : Option String
  code : Option String
  error : Option String
  completion : Except OidcError CompletedLogin
  verifiedAt : Int
  memberships : Option (List Uuid)
  csrfToken : String

inductive SessionReply where
  | redirect (target : String)
  | session (auth : AuthenticatedSession)
  | view (v : SessionView)
  | done

namespace AuthRoutes

variable (r : AuthRoutes)

/-- `binding` is that of the authorization that the adapter begins. -/
def login (now : Int) (s : Session) (stepUp : Bool) (binding : Except OidcError String)
    (target : String) : Session × Except AuthError SessionReply :=
  if stepUp then
    match r.sessions.peekAuthenticated now s with
    | .error failure => (s, .error failure)
    | .ok auth =>
      match binding with
      | .error failure => (s, .error failure.toAuthError)
      | .ok binding => (setOidcStepUpBinding s binding auth, .ok (.redirect target))
  else
    match binding with
    | .error failure => (s, .error failure.toAuthError)
    | .ok binding => (setOidcLoginBinding s binding, .ok (.redirect target))

/-- The failures after which a begun flow must not be used again. -/
def consumesFlow : OidcError → Bool
  | .providerError _ | .tokenExchangeFailed | .invalidIdToken | .stepUpInsufficient => true
  | _ => false

def completeLogin (now : Int) (s : Session) (c : AuthCallback) (completed : CompletedLogin) :
    Session × Except AuthError SessionReply :=
  match r.sessions.establishAuthenticatedSession now c.memberships c.csrfToken
      completed.principal with
  | .error failure => (s, .error failure)
  | .ok (s', _) => (s', .ok (.redirect completed.returnTo))

/-- The flow is spent before the step-up is recorded. -/
def completeStepUp (now : Int) (s : Session) (c : AuthCallback) (completed : CompletedLogin)
    (principal : VerifiedOidcPrincipal) : Session × Except AuthError SessionReply :=
  if completed.principal.principalId = principal.principalId ∧
      completed.principal.issuer = principal.issuer ∧
      completed.principal.subject = principal.subject then
    match verifyStepUpClaims r.stepUp completed c.verifiedAt with
    | .error failure => (s, .error failure.toAuthError)
    | .ok evidence =>
      match r.sessions.recordVerifiedStepUp now (clearOidcBrowserFlow s) evidence with
      | .error failure => (clearOidcBrowserFlow s, .error failure)
      | .ok (s', _) => (s', .ok (.redirect completed.returnTo))
  else (clearOidcBrowserFlow s, .error .stepUpRequired)

def callback (now : Int) (s : Session) (c : AuthCallback) :
    Session × Except AuthError SessionReply :=
  if c.state.isNone ∨ c.code.isSome = c.error.isSome then (s, .error .invalidCallback)
  else
    match s.flow with
    | none => (s, .error .invalidCallback)
    | some pending =>
      match c.completion with
      | .error failure =>
        (if consumesFlow failure then clearOidcBrowserFlow s else s, .error failure.toAuthError)
      | .ok completed =>
        match pending.purpose with
        | .login => r.completeLogin now s c completed
        | .stepUp principalId issuer subject =>
          r.completeStepUp now s c completed { principalId, issuer, subject }

def logout (now : Int) (s : Session) (origin csrf : Option String) :
    Session × Except AuthError SessionReply :=
  match r.sessions.peekAuthenticated now s with
  | .error failure => (s, .error failure)
  | .ok auth =>
    match verifyCsrf r.expectedOrigin origin csrf auth with
    | .error failure => (s, .error failure)
    | .ok () => (.anonymous, .ok .done)

end AuthRoutes

inductive SessionOperation where
  | login (stepUp : Bool) (binding : Except OidcError String) (target : String)
  | callback (c : AuthCallback)
  | peek
  | touch
  | view (viewedAt : Int) (memberships : Option (List Uuid))
  | logout (origin csrf : Option String)

structure SessionCall where
  now : Int
  operation : SessionOperation

/-- One request on the session. -/
def sessionStep (r : AuthRoutes) (s : Session) (call : SessionCall) :
    Session × Except AuthError SessionReply :=
  match call.operation with
  | .login stepUp binding target => r.login call.now s stepUp binding target
  | .callback c => r.callback call.now s c
  | .peek => (s, (r.sessions.peekAuthenticated call.now s).map .session)
  | .touch =>
    match r.sessions.touchAuthenticated call.now s with
    | .error failure => (s, .error failure)
    | .ok (s', auth) => (s', .ok (.session auth))
  | .view viewedAt memberships =>
    let (s', v) := r.sessions.sessionView call.now viewedAt memberships s
    (s', v.map .view)
  | .logout origin csrf => r.logout call.now s origin csrf

abbrev SessionEvent := Machine.Event Session SessionCall (Except AuthError SessionReply)

/-! ## A small provider -/

namespace Sample

def authRoutes : AuthRoutes :=
  { sessions :=
      { idleTimeout := seconds 1800, absoluteTimeout := seconds 43200, stepUpTimeout := seconds 300
        idle_pos := by decide, absolute_pos := by decide, stepUp_pos := by decide }
    stepUp :=
      { maxAgeSeconds := 0, clockSkewSeconds := 60, acrValues := ["urn:masonwing:loa:2"]
        strongAmrValues := ["otp"], maxAge_le := by decide, clockSkew_bounds := by decide
        acrValues_named := by decide, strongAmrValues_strong := by decide }
    expectedOrigin := "https://local" }

end Sample

end Masonwing
