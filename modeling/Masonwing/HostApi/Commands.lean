import Masonwing.HostApi.SignIn
import Masonwing.Sdk.Plugins

/-!
# The command boundary

The routes of `runtime.rs` that change the store: commands, the secret of an invitation, and
uploads. A request is admitted by the session and the headers of its browser and by the authority
that the gate of `auth/gate.rs` reads. What was admitted is performed later, in a transaction of its
own, and in between anybody may do anything; an admitted request may also be dropped, when its
browser is gone.

The containment of a corrupt artifact, which may follow a command, is an operation of the store.
-/

namespace Masonwing

open Outcome

/-! ## Refusals -/

/-- What the gate refuses with, beside the errors of a session. -/
inductive GateError where
  | session (failure : AuthError)
  | membershipDenied
  | tenantContextMismatch
  | notFound
  | policyUnavailable
  | authorizationDenied
  deriving DecidableEq

inductive ApiError where
  | auth (failure : GateError)
  | command (failure : CommandFailure)
  deriving DecidableEq

/-- A tenant that the browser may not see is one that is not there. -/
def maskTenant : GateError → GateError
  | .membershipDenied | .tenantContextMismatch => .notFound
  | failure => failure

def sessionResult {α : Type} (x : Except AuthError α) : Except ApiError α :=
  x.mapError fun failure => .auth (.session failure)

def gateResult {α : Type} (x : Except GateError α) : Except ApiError α :=
  x.mapError fun failure => .auth (maskTenant failure)

def commandResult {α : Type} (x : Result α) : Except ApiError α := x.mapError .command

/-- A code of the contract catalogue or of the body reader. -/
def invalidResult {α : Type} (x : Except String α) : Except ApiError α :=
  x.mapError fun code => .command (.invalid code)

/-! ## Headers -/

/-- The headers of a request, with the texts of those that are visible ASCII. -/
abbrev Headers := List (String × Option String)

namespace Headers

variable (headers : Headers)

def getAll (name : String) : List (Option String) :=
  (headers.filter fun h => decide (h.1 = name)).map Prod.snd

/-- The text of the first header of the name. -/
def first (name : String) : Option String := (headers.getAll name).head?.join

def singleHeader (name : String) : Result String :=
  match headers.getAll name with
  | some value :: rest => do
    require (rest = [] ∧ value ≠ "") (.invalid "AMBIGUOUS_HEADER")
    return value
  | _ => .error (.invalid "REQUIRED_HEADER_MISSING")

def rejectTenantOverride : Result Unit :=
  require (headers.getAll "x-tenant-id" = [] ∧ headers.getAll "x-masonwing-tenant" = [])
    (.invalid "TENANT_OVERRIDE_REJECTED")

end Headers

/-- `str::trim`. -/
def trimText (text : List Char) : List Char :=
  ((text.dropWhile whiteSpace).reverse.dropWhile whiteSpace).reverse

def jsonContent (contentType : String) : Bool :=
  eqIgnoreAsciiCase (String.ofList (trimText (contentType.toList.takeWhile (· ≠ ';'))))
    "application/json"

/-- `optional_length`. -/
def Headers.optionalLength (headers : Headers) : Result (Option Int) :=
  if headers.getAll "content-length" = [] then .ok none
  else do
    let value ← headers.singleHeader "content-length"
    let length ← okOr (parseU64 value.toList) (.invalid "CONTENT_LENGTH_INVALID")
    return some (length : Int)

/-! ## The gate -/

structure CurrentAuthority where
  membership : MembershipRow
  policy : PolicyRow

/-- The active membership and the current policy, read in one transaction. -/
def currentAuthority (t : Tables) (principal tenant : Uuid) :
    Except GateError CurrentAuthority := do
  require (t.identity.tenantId = tenant ∧ t.identity.tenantActive = true) .membershipDenied
  let membership ← okOr ((t.identity.memberships.get? principal).filter fun m =>
    decide (m.status = .active)) .membershipDenied
  let policy ← okOr t.identity.policy .policyUnavailable
  return { membership, policy }

/-- `tenant_admission`: the tenant is there, whoever asks. -/
def tenantAdmission (t : Tables) (tenant : Uuid) : Except GateError Unit :=
  require (t.identity.tenantId = tenant ∧ t.identity.tenantActive = true) .tenantContextMismatch

structure VerifiedActor where
  tenantId : Uuid
  principalId : Uuid
  issuer : String
  subject : String
  membershipId : Uuid
  role : String
  roles : List String
  membershipEpoch : Int
  permissionEpoch : Int
  policyVersion : String
  policyEpoch : Int
  stepUpExpiresAt : Option Int

def projectActor (auth : AuthenticatedSession) (tenant : Uuid) (current : CurrentAuthority) :
    VerifiedActor :=
  { tenantId := tenant, principalId := auth.principalId, issuer := auth.issuer
    subject := auth.subject, membershipId := current.membership.membershipId
    role := current.membership.role, roles := current.membership.roles
    membershipEpoch := current.membership.membershipEpoch
    permissionEpoch := current.membership.permissionEpoch
    policyVersion := current.policy.policyVersion, policyEpoch := current.policy.policyEpoch
    stepUpExpiresAt := auth.stepUpExpiresAt }

/-- The step-up is there and has not run out. -/
def stepUpFresh (expiresAt : Option Int) (now : Int) : Bool :=
  expiresAt.any fun expiry => decide (now < expiry)

def VerifiedActor.trusted (actor : VerifiedActor) : TrustedPrincipal :=
  { principalId := actor.principalId.toText, tenantId := actor.tenantId.toText
    role := actor.role, membershipEpoch := actor.membershipEpoch, roles := actor.roles
    permissionEpoch := actor.permissionEpoch }

/-- What the clock shows at the checks of a request. -/
structure Readings where
  peek : Int
  touch : Int
  stepUp : Int

namespace SessionAuthority

variable (a : SessionAuthority)

/-- The session is touched, whatever the authority is. -/
def verifyForTenant (now : Int) (t : Tables) (s : Session) (tenant : Uuid) :
    Session × Except GateError VerifiedActor :=
  match a.touchAuthenticated now s with
  | .error failure => (s, .error (.session failure))
  | .ok (s', auth) => (s', do
      let current ← currentAuthority t auth.principalId tenant
      return projectActor auth tenant current)

/-- `authorize_current`, for an action on the tenant itself. -/
def authorizeCurrent (env : Env) (readings : Readings) (t : Tables) (s : Session) (tenant : Uuid)
    (action : String) (requiresStepUp : Bool) : Session × Except GateError VerifiedActor :=
  match a.touchAuthenticated readings.touch s with
  | .error failure => (s, .error (.session failure))
  | .ok (s', auth) => (s', do
      let current ← currentAuthority t auth.principalId tenant
      require (env.policyParses current.policy = true) .policyUnavailable
      let actor := projectActor auth tenant current
      require (requiresStepUp = true → stepUpFresh auth.stepUpExpiresAt readings.stepUp = true)
        (.session .stepUpRequired)
      require (env.policyPermits current.policy actor.trusted action "Tenant" tenant.toText [] =
        true) .authorizationDenied
      return actor)

end SessionAuthority

def commandActor (actor : VerifiedActor) : CommandActor :=
  { tenantId := actor.tenantId.toId, principalId := actor.principalId.toId, issuer := actor.issuer
    membershipEpoch := actor.membershipEpoch, permissionEpoch := actor.permissionEpoch
    policyVersion := actor.policyVersion, policyEpoch := actor.policyEpoch }

/-! ## Requests -/

/-- The input of a command of a member. -/
inductive ApiInput (ι ε : Type) where
  | core (input : CommandInput)
  | platform (input : PlatformInput ι)
  | host (input : HostInput ε)
  | invite (input : MembershipInvite)

namespace ApiInput

variable {ι ν ε : Type}

def fingerprint (e : Enrollment ι ν ε) : ApiInput ι ε → Option Digest
  | .core input => e.host.platform.catalogue.core.fingerprint input
  | .platform input => e.host.platform.catalogue.fingerprint input
  | .host input => e.host.fingerprint input
  | .invite input => e.inviteFingerprint input

/-- The command of an actor as the store takes it. -/
def command (actor : CommandActor) (idempotencyKey : OpaqueId) (fingerprint : Digest) :
    ApiInput ι ε → EnrollmentOperation ι ε
  | .core input => .host (.platform (.core (.command ⟨actor, input, idempotencyKey, fingerprint⟩)))
  | .platform input => .host (.platform (.command ⟨actor, input, idempotencyKey, fingerprint⟩))
  | .host input => .host (.command ⟨actor, input, idempotencyKey, fingerprint⟩)
  | .invite input => .invite ⟨actor, input, idempotencyKey, fingerprint⟩

end ApiInput

/-- A request with the two parts of its path, and the body as it comes. -/
structure ApiRequest where
  path : Option (String × String)
  headers : Headers
  body : Except String Bytes

inductive Route where
  | command
  | inviteSecret
  | upload
  deriving DecidableEq

/-- The boundary: the sessions, the store, the catalogue of operations with those that need a
step-up, and what the contract catalogue reads from a body. -/
structure CommandApi (ι ν ε : Type) where
  signIn : SignIn
  enrollment : Enrollment ι ν ε
  operations : String → Option Bool
  commandInput : (operation : String) → Bytes → Except String (ApiInput ι ε)
  acceptInput : Bytes → Except String String

/-- What a command says before its body is read. -/
structure CommandHead where
  auth : AuthenticatedSession
  tenant : Uuid
  operation : String
  stepUp : Bool
  idempotencyKey : OpaqueId

namespace CommandApi

variable {ι ν ε : Type} (x : CommandApi ι ν ε)

/-- The checks that every route begins with. -/
def admitBrowser (now : Int) (s : Session) (headers : Headers) (tenantId : String) :
    Except ApiError (AuthenticatedSession × Uuid) := do
  let auth ← sessionResult (x.signIn.routes.sessions.peekAuthenticated now s)
  sessionResult (verifyCsrf x.signIn.routes.expectedOrigin (headers.first "origin")
    (headers.first "x-csrf-token") auth)
  commandResult headers.rejectTenantOverride
  let tenant ← commandResult (parseUuid tenantId)
  return (auth, tenant)

def commandHead (now : Int) (s : Session) (q : ApiRequest) : Except ApiError CommandHead := do
  let (tenantId, operation) ← okOr q.path (.command .notFound)
  let stepUp ← okOr (x.operations operation) (.command .notFound)
  let (auth, tenant) ← x.admitBrowser now s q.headers tenantId
  let contentType ← commandResult (q.headers.singleHeader "content-type")
  require (jsonContent contentType = true) (.command (.invalid "CONTENT_TYPE_INVALID"))
  let key ← commandResult (q.headers.singleHeader "idempotency-key")
  let idempotencyKey ← okOr (OpaqueId.ofText? key) (.command (.invalid "IDEMPOTENCY_KEY_INVALID"))
  return { auth, tenant, operation, stepUp, idempotencyKey }

/-- An acceptance is admitted to the tenant without a membership; its body names the invitation. -/
def acceptBody (t : Tables) (head : CommandHead) (q : ApiRequest) :
    Except ApiError (MembershipAcceptCommand) := do
  gateResult (tenantAdmission t head.tenant)
  let bytes ← invalidResult q.body
  let inviteToken ← invalidResult (x.acceptInput bytes)
  let fingerprint ← okOr (x.enrollment.acceptFingerprint inviteToken)
    (.command (.invalid "FINGERPRINT_INVALID"))
  return { expectedTenantId := head.tenant
           identity := { principalId := head.auth.principalId, issuer := head.auth.issuer
                         subject := head.auth.subject }
           idempotencyKey := head.idempotencyKey, fingerprint, inviteToken }

def acceptCommand (readings : Readings) (t : Tables) (s : Session) (head : CommandHead)
    (q : ApiRequest) : Session × Except ApiError (EnrollmentOperation ι ε) :=
  match x.acceptBody t head q with
  | .error failure => (s, .error failure)
  | .ok c =>
    match x.signIn.routes.sessions.touchAuthenticated readings.touch s with
    | .error failure => (s, .error (.auth (.session failure)))
    | .ok (s', _) => (s', .ok (.accept c))

/-- The body is read after the admission. -/
def memberBody (readings : Readings) (head : CommandHead) (actor : VerifiedActor) (q : ApiRequest) :
    Except ApiError (EnrollmentOperation ι ε) := do
  require (head.stepUp = true → stepUpFresh actor.stepUpExpiresAt readings.stepUp = true)
    (.auth (.session .stepUpRequired))
  let bytes ← invalidResult q.body
  let input ← invalidResult (x.commandInput head.operation bytes)
  let fingerprint ← okOr (input.fingerprint x.enrollment)
    (.command (.invalid "FINGERPRINT_INVALID"))
  return input.command (commandActor actor) head.idempotencyKey fingerprint

def memberCommand (readings : Readings) (t : Tables) (s : Session) (head : CommandHead)
    (q : ApiRequest) : Session × Except ApiError (EnrollmentOperation ι ε) :=
  let (s', verified) :=
    x.signIn.routes.sessions.verifyForTenant readings.touch t s head.tenant
  (s', do
    let actor ← gateResult verified
    x.memberBody readings head actor q)

/-- `command_inner`, up to the transaction. -/
def commandInner (readings : Readings) (t : Tables) (s : Session) (q : ApiRequest) :
    Session × Except ApiError (EnrollmentOperation ι ε) :=
  match x.commandHead readings.peek s q with
  | .error failure => (s, .error failure)
  | .ok head =>
    if head.operation = "membership.accept" then x.acceptCommand readings t s head q
    else x.memberCommand readings t s head q

def routeHead (now : Int) (s : Session) (q : ApiRequest) : Except ApiError (Uuid × String) := do
  let (tenantId, name) ← okOr q.path (.command .notFound)
  let (_, tenant) ← x.admitBrowser now s q.headers tenantId
  return (tenant, name)

/-- A route whose action the gate authorizes on the tenant. -/
def authorizedRoute (action : String) (requiresStepUp : Bool)
    (finish : CommandActor → String → Result (EnrollmentOperation ι ε)) (readings : Readings)
    (t : Tables) (s : Session) (q : ApiRequest) :
    Session × Except ApiError (EnrollmentOperation ι ε) :=
  match x.routeHead readings.peek s q with
  | .error failure => (s, .error failure)
  | .ok (tenant, name) =>
    let (s', verified) := x.signIn.routes.sessions.authorizeCurrent x.enrollment.env readings t s
      tenant action requiresStepUp
    (s', do
      let actor ← gateResult verified
      commandResult (finish (commandActor actor) name))

def inviteSecret (readings : Readings) (t : Tables) (s : Session) (q : ApiRequest) :
    Session × Except ApiError (EnrollmentOperation ι ε) :=
  x.authorizedRoute "membership.invite" true (fun actor name => do
    let inviteId ← parseUuid name
    return .retrieveSecret actor inviteId) readings t s q

def upload (readings : Readings) (t : Tables) (s : Session) (q : ApiRequest) :
    Session × Except ApiError (EnrollmentOperation ι ε) :=
  x.authorizedRoute "artifact.begin" false (fun actor name => do
    let length ← q.headers.optionalLength
    require (∀ size ∈ length, size ≤ maxArtifactBytes) (.invalid "PAYLOAD_TOO_LARGE")
    return .host (.claimUpload actor name length)) readings t s q

def receive (route : Route) (readings : Readings) (t : Tables) (s : Session) (q : ApiRequest) :
    Session × Except ApiError (EnrollmentOperation ι ε) :=
  match route with
  | .command => x.commandInner readings t s q
  | .inviteSecret => x.inviteSecret readings t s q
  | .upload => x.upload readings t s q

end CommandApi

/-! ## Steps -/

/-- The sessions and the tables, with the requests that were admitted and not yet performed. -/
structure ApiState (β ι ε : Type) where
  signIn : SignInState β
  admitted : Table Nat (EnrollmentOperation ι ε)

inductive ApiOperation (β ι ε : Type) where
  | signIn (operation : SignInOperation β ι ε)
  | receive (request : Nat) (browser : β) (route : Route) (readings : Readings) (q : ApiRequest)
  | perform (request : Nat)
  | drop (request : Nat)

structure ApiCall (β ι ε : Type) where
  clocks : Clocks
  tick : Tick
  operation : ApiOperation β ι ε

inductive ApiReply where
  | signIn (reply : SignInReply)
  | admitted
  | refused (failure : ApiError)
  | performed (reply : Result EnrollmentReply)
  | none

variable {β ι ν ε : Type} [DecidableEq β]

/-- The session is written back whatever comes of the request; what is admitted takes its number,
which no other request has. -/
def ApiState.enter (s : ApiState β ι ε) (request : Nat) (browser : β) (session : Session)
    (outcome : Except ApiError (EnrollmentOperation ι ε)) : ApiState β ι ε × ApiReply :=
  let signIn : SignInState β :=
    { s.signIn with sessions := Function.update s.signIn.sessions browser session }
  match outcome with
  | .error failure => ({ s with signIn }, .refused failure)
  | .ok operation =>
    match s.admitted.insert? request operation with
    | none => (s, .none)
    | some admitted => ({ signIn, admitted }, .admitted)

/-- One step of the boundary. -/
def apiStep (x : CommandApi ι ν ε) (s : ApiState β ι ε) (c : ApiCall β ι ε) :
    ApiState β ι ε × ApiReply :=
  match c.operation with
  | .signIn operation =>
    let (signIn, reply) := signInStep x.signIn x.enrollment s.signIn ⟨c.clocks, c.tick, operation⟩
    ({ s with signIn }, .signIn reply)
  | .receive request browser route readings q =>
    let (session, outcome) := x.receive route readings s.signIn.tables.enrollment.tables
      (s.signIn.sessions browser) q
    s.enter request browser session outcome
  | .perform request =>
    match s.admitted.get? request with
    | none => (s, .none)
    | some operation =>
      let (enrollment, reply) :=
        enrollmentStep x.enrollment s.signIn.tables.enrollment ⟨c.tick, operation⟩
      ({ signIn := { s.signIn with tables := { s.signIn.tables with enrollment } }
         admitted := s.admitted.erase request }, .performed reply)
  | .drop request => ({ s with admitted := s.admitted.erase request }, .none)

abbrev ApiEvent (β ι ε : Type) := Machine.Event (ApiState β ι ε) (ApiCall β ι ε) ApiReply

end Masonwing
