import Masonwing.HostApi.ReturnTo
import Masonwing.Store.Invitations

/-!
# Signing in

The login transactions of the OIDC adapter, between the sessions of any number of browsers and the
identities: `/auth/login` stores what was drawn for an authorization, `/auth/callback` consumes it
before anything is asked of the provider, and expired ones are swept.

The provider is outside. What its token endpoint answers to a code and a verifier, and what the OIDC
library reads from an ID token under a nonce, come with the callback.
-/

namespace Masonwing

open Outcome

/-! ## The provider -/

/-- The claims of an ID token whose signature and nonce were verified. -/
structure IdTokenClaims where
  subject : String
  email : Option String
  emailVerified : Option Bool
  accessTokenHash : Option String
  authTime : Option Int
  authContextRef : Option String
  authMethodRefs : Option (List String)

/-- An ID token: what the library reads from it under a nonce, and its hash of the access token. -/
structure IdToken where
  claims : String → Option IdTokenClaims
  actualHash : Option String

/-- What the token endpoint answers. -/
structure TokenResponse where
  idToken : Option IdToken

/-- `verified_claims` of a token response: the access token has to be the one that is hashed. -/
def TokenResponse.verifiedClaims (response : TokenResponse) (nonce : String) :
    Except OidcError IdTokenClaims := do
  let idToken ← okOr response.idToken .invalidIdToken
  let claims ← okOr (idToken.claims nonce) .invalidIdToken
  match claims.accessTokenHash with
  | none => return claims
  | some expected => do
    let actual ← okOr idToken.actualHash .invalidIdToken
    require (actual = expected) .invalidIdToken
    return claims

/-! ## Transactions -/

/-- A row of `oidc_auth_transactions`, under its state. -/
structure AuthTransaction where
  browserBinding : String
  issuer : String
  nonce : String
  pkceVerifier : String
  returnTo : String
  expiresAt : Int

/-- What is drawn for an authorization. -/
structure AuthorizationDraws where
  state : String
  nonce : String
  browserBinding : String
  pkceVerifier : String

structure LoginStart where
  authorizationUrl : String
  state : String
  browserBinding : String

/-- What the adapter was configured with; `authorizationUrl` is what the library builds. -/
structure OidcAdapter where
  issuer : String
  transactionTtlSeconds : Int
  authorizationUrl : (stepUp : Bool) → AuthorizationDraws → String
  ttl_pos : 0 < transactionTtlSeconds

/-- The two clocks of a request: that of the host and that of the database. -/
structure Clocks where
  host : Int
  database : Int

/-- The tables of the adapter; the identities are those of the store. -/
structure SignInTables where
  transactions : Table String AuthTransaction
  enrollment : EnrollmentState

/-- `cleanup_expired_transactions`. -/
def SignInTables.cleanupExpiredTransactions (t : SignInTables) (now : Int) : SignInTables :=
  { t with transactions := t.transactions.retain fun _ x => decide (now < x.expiresAt) }

namespace OidcAdapter

variable (p : OidcAdapter)

/-- What is stored for an authorization. -/
def transaction (clocks : Clocks) (returnTo : String) (draws : AuthorizationDraws) :
    AuthTransaction :=
  { browserBinding := draws.browserBinding, issuer := p.issuer, nonce := draws.nonce
    pkceVerifier := draws.pkceVerifier, returnTo
    expiresAt := clocks.host + seconds p.transactionTtlSeconds }

def beginAuthorization (clocks : Clocks) (transactions : Table String AuthTransaction)
    (returnTo : Option String) (stepUp : Bool) (draws : AuthorizationDraws) :
    Except OidcError (Table String AuthTransaction × LoginStart) := do
  let returnTo ← validateReturnTo (returnTo.getD "/")
  let row := p.transaction clocks returnTo draws
  require (clocks.database < row.expiresAt) .databaseUnavailable
  let transactions ← okOr (transactions.insert? draws.state row) .databaseUnavailable
  return (transactions, { authorizationUrl := p.authorizationUrl stepUp draws
                          state := draws.state, browserBinding := draws.browserBinding })

/-- The transaction that a callback consumes. -/
def consumable (databaseNow : Int) (transactions : Table String AuthTransaction)
    (state browserBinding : String) : Option AuthTransaction :=
  (transactions.get? state).filter fun x =>
    decide (x.browserBinding = browserBinding ∧ x.issuer = p.issuer ∧ databaseNow < x.expiresAt)

/-- `resolve_existing_step_up_identity`: the row is found, and its address is written. -/
def resolveExistingStepUpIdentity (s : EnrollmentState) (expected : Uuid) (subject : String)
    (email : Option String) (emailVerified : Bool) : Except OidcError (EnrollmentState × Uuid) := do
  let row ← okOr ((s.identities.get? expected).filter fun row =>
    decide (row.issuer = p.issuer ∧ row.subject = subject)) .stepUpInsufficient
  return ({ s with identities := s.identities.set expected { row with email, emailVerified } },
    expected)

/-- The principal of the verified claims; a step-up only finds the one it expects. -/
def identify (tick : Tick) (s : EnrollmentState) (claims : IdTokenClaims)
    (expected : Option Uuid) : Except OidcError (EnrollmentState × Uuid) :=
  let emailVerified := claims.emailVerified.getD false
  match expected with
  | some expected =>
    p.resolveExistingStepUpIdentity s expected claims.subject claims.email emailVerified
  | none =>
    (Enrollment.upsertVerifiedIdentity tick s p.issuer claims.subject claims.email
      emailVerified).mapError fun _ => .databaseUnavailable

def completed (x : AuthTransaction) (claims : IdTokenClaims) (principal : Uuid) : CompletedLogin :=
  { principal := { principalId := principal, issuer := p.issuer, subject := claims.subject }
    returnTo := x.returnTo, authTime := claims.authTime, authContextRef := claims.authContextRef
    authMethodRefs := claims.authMethodRefs.getD [] }

end OidcAdapter

/-- `sanitize_provider_error`. -/
def sanitizeProviderError (error : String) : String :=
  let clean := (error.toList.filter fun c => c.isAlphanum || c = '_' || c = '-').take 64
  if clean = [] then "provider_error" else String.ofList clean

/-- What the browser brings from the provider, and what the token endpoint answers to the code and
the verifier. -/
structure ProviderReturn where
  state : Option String
  code : Option String
  error : Option String
  exchange : (code pkceVerifier : String) → Option TokenResponse

namespace OidcAdapter

variable (p : OidcAdapter)

/-- What follows once the transaction was consumed. -/
def completeConsumed (tick : Tick) (s : EnrollmentState) (x : AuthTransaction)
    (q : ProviderReturn) (expected : Option Uuid) :
    Except OidcError (EnrollmentState × CompletedLogin) :=
  match q.error with
  | some error => .error (.providerError (sanitizeProviderError error))
  | none => do
    let response ← okOr (q.exchange (q.code.getD "") x.pkceVerifier) .tokenExchangeFailed
    let claims ← response.verifiedClaims x.nonce
    let (s, principal) ← p.identify tick s claims expected
    return (s, p.completed x claims principal)

/-- `complete_callback_inner`: whatever follows, the transaction is consumed. -/
def completeCallbackInner (clocks : Clocks) (tick : Tick) (t : SignInTables) (state : String)
    (browserBinding : String) (q : ProviderReturn) (expected : Option Uuid) :
    SignInTables × Except OidcError CompletedLogin :=
  if state = "" ∨ q.code.isSome = q.error.isSome then (t, .error .invalidCallback)
  else
    match p.consumable clocks.database t.transactions state browserBinding with
    | none => (t, .error .invalidCallback)
    | some x =>
      let t := { t with transactions := t.transactions.erase state }
      match p.completeConsumed tick t.enrollment x q expected with
      | .error failure => (t, .error failure)
      | .ok (enrollment, completed) => ({ t with enrollment }, .ok completed)

end OidcAdapter

/-! ## The routes -/

/-- The purpose of a flow as the adapter is told it. -/
def OidcFlowPurpose.expected : OidcFlowPurpose → Option Uuid
  | .login => none
  | .stepUp principalId _ _ => some principalId

/-- What a callback finds out beside the provider's answer. -/
structure CallbackContext where
  verifiedAt : Int
  memberships : Option (List Uuid)
  csrfToken : String

/-- The routes with their adapter. -/
structure SignIn where
  routes : AuthRoutes
  adapter : OidcAdapter

namespace SignIn

variable (x : SignIn)

/-- `GET /auth/login`: a step-up is begun only for a session that is current. -/
def login (clocks : Clocks) (t : SignInTables) (s : Session) (stepUp : Bool)
    (returnTo : Option String) (draws : AuthorizationDraws) :
    SignInTables × Session × Except AuthError SessionReply :=
  let begun := x.adapter.beginAuthorization clocks t.transactions returnTo stepUp draws
  if stepUp then
    match x.routes.sessions.peekAuthenticated clocks.host s with
    | .error failure => (t, s, .error failure)
    | .ok auth =>
      match begun with
      | .error failure => (t, s, .error failure.toAuthError)
      | .ok (transactions, start) =>
        ({ t with transactions }, setOidcStepUpBinding s start.browserBinding auth,
          .ok (.redirect start.authorizationUrl))
  else
    match begun with
    | .error failure => (t, s, .error failure.toAuthError)
    | .ok (transactions, start) =>
      ({ t with transactions }, setOidcLoginBinding s start.browserBinding,
        .ok (.redirect start.authorizationUrl))

/-- `GET /auth/callback`: the session goes on with what the adapter answers to its flow. -/
def callback (clocks : Clocks) (tick : Tick) (t : SignInTables) (s : Session)
    (q : ProviderReturn) (context : CallbackContext) :
    SignInTables × Session × Except AuthError SessionReply :=
  match q.state, s.flow with
  | some state, some pending =>
    if q.code.isSome = q.error.isSome then (t, s, .error .invalidCallback)
    else
      let (t', completion) := x.adapter.completeCallbackInner clocks tick t state
        pending.browserBinding q pending.purpose.expected
      let (s', reply) := x.routes.callback clocks.host s
        { state := q.state, code := q.code, error := q.error, completion
          verifiedAt := context.verifiedAt, memberships := context.memberships
          csrfToken := context.csrfToken }
      (t', s', reply)
  | _, _ => (t, s, .error .invalidCallback)

end SignIn

/-! ## Steps -/

/-- The other requests on a session. -/
inductive Visit where
  | peek
  | touch
  | view (viewedAt : Int) (memberships : Option (List Uuid))
  | logout (origin csrf : Option String)

def Visit.operation : Visit → SessionOperation
  | .peek => .peek
  | .touch => .touch
  | .view viewedAt memberships => .view viewedAt memberships
  | .logout origin csrf => .logout origin csrf

/-- The tables, and the session of each browser. -/
structure SignInState (β : Type) where
  tables : SignInTables
  sessions : β → Session

inductive SignInOperation (β ι ε : Type) where
  | login (browser : β) (stepUp : Bool) (returnTo : Option String) (draws : AuthorizationDraws)
  | callback (browser : β) (q : ProviderReturn) (context : CallbackContext)
  | visit (browser : β) (v : Visit)
  | cleanup
  | store (operation : EnrollmentOperation ι ε)

/-- The binding that a login gives to its browser. -/
def SignInOperation.binding {β ι ε : Type} : SignInOperation β ι ε → Option String
  | .login _ _ _ draws => some draws.browserBinding
  | _ => none

structure SignInCall (β ι ε : Type) where
  clocks : Clocks
  tick : Tick
  operation : SignInOperation β ι ε

inductive SignInReply where
  | session (reply : Except AuthError SessionReply)
  | store (reply : Result EnrollmentReply)
  | done

variable {β ι ν ε : Type} [DecidableEq β]

/-- The answer to a request, with the session of its browser. -/
def SignInState.after (s : SignInState β) (browser : β)
    (answer : SignInTables × Session × Except AuthError SessionReply) :
    SignInState β × SignInReply :=
  ({ tables := answer.1, sessions := Function.update s.sessions browser answer.2.1 },
    .session answer.2.2)

/-- One request of a browser, or one operation on the store. -/
def signInStep (x : SignIn) (e : Enrollment ι ν ε) (s : SignInState β) (c : SignInCall β ι ε) :
    SignInState β × SignInReply :=
  match c.operation with
  | .login browser stepUp returnTo draws =>
    s.after browser (x.login c.clocks s.tables (s.sessions browser) stepUp returnTo draws)
  | .callback browser q context =>
    s.after browser (x.callback c.clocks c.tick s.tables (s.sessions browser) q context)
  | .visit browser v =>
    let (session, reply) := sessionStep x.routes (s.sessions browser) ⟨c.clocks.host, v.operation⟩
    s.after browser (s.tables, session, reply)
  | .cleanup => ({ s with tables := s.tables.cleanupExpiredTransactions c.clocks.database }, .done)
  | .store operation =>
    let (enrollment, reply) := enrollmentStep e s.tables.enrollment ⟨c.tick, operation⟩
    ({ s with tables := { s.tables with enrollment } }, .store reply)

abbrev SignInEvent (β ι ε : Type) :=
  Machine.Event (SignInState β) (SignInCall β ι ε) SignInReply

end Masonwing
