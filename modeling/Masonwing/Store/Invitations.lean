import Masonwing.Store.Host

/-!
# Invitations

`membership.invite`, the retrieval of the secret of an invitation and `membership.accept`, of
`identity_commands.rs`, with the logins that record who a principal is. They run beside the host:
`membership.invite` is a command like the others, while whoever accepts is not a member yet, so
that the acceptance is a transaction of its own with its own receipts. No other operation writes a
receipt of `membership.accept`, so these are kept apart.
-/

namespace Masonwing

open Outcome

variable {ι ν ε : Type}

/-! ## Tokens -/

/-- HMAC-SHA256 under the key of the operator, and unpadded base64 for URLs. -/
structure InviteTokenKey where
  hmac : Bytes → Bytes
  encode : Bytes → String
  decode : String → Option Bytes

structure InviteTokenClaims where
  inviteId : Uuid
  tenantId : Uuid
  expiresUnix : Int

def secondMicroseconds : Int := 1000000

/-- The seconds that a `DateTime` can hold. -/
def dateTimeSeconds (seconds : Int) : Prop :=
  -8334601228800 ≤ seconds ∧ seconds ≤ 8210266876799

instance (seconds : Int) : Decidable (dateTimeSeconds seconds) :=
  inferInstanceAs (Decidable (_ ∧ _))

/-- The bytes of a bit vector, the highest one first. -/
def bigEndian (count : Nat) {w : Nat} (bits : BitVec w) : Bytes :=
  (List.range count).map fun i => ⟨bits.extractLsb' (8 * (count - 1 - i)) 8⟩

def utf8 (text : String) : Bytes := text.toUTF8.data.toList

/-- `str::parse::<i64>`. -/
def parseI64 (text : List Char) : Option Int :=
  let read (negative : Bool) (digits : List Char) : Option Int :=
    if digits ≠ [] ∧ digits.all Char.isDigit = true then
      let value : Int := Nat.ofDigitChars 10 digits 0
      some (if negative then -value else value)
    else none
  let number :=
    match text with
    | '-' :: digits => read true digits
    | '+' :: digits => read false digits
    | digits => read false digits
  number.filter fun n => decide (-maxI64 - 1 ≤ n ∧ n ≤ maxI64)

namespace InviteTokenKey

def version : String := "mwiv1"

def mac (key : InviteTokenKey) (inviteId tenantId : Uuid) (expiresUnix : Int) : Bytes :=
  key.hmac (utf8 version ++ [0] ++ bigEndian 16 inviteId.bits ++ bigEndian 16 tenantId.bits ++
    bigEndian 8 (BitVec.ofInt 64 expiresUnix))

def deriveToken (key : InviteTokenKey) (inviteId tenantId : Uuid) (expiresUnix : Int) : String :=
  version ++ "." ++ inviteId.toText ++ "." ++ tenantId.toText ++ "." ++ toString expiresUnix ++
    "." ++ key.encode (key.mac inviteId tenantId expiresUnix)

/-- What a token says, if it is signed; identifiers and numbers may be spelled differently. -/
def readToken (key : InviteTokenKey) (raw : String) : Option InviteTokenClaims :=
  match raw.toList.splitOn '.' with
  | [version, invite, tenant, expires, signature] => do
    guard (String.ofList version = InviteTokenKey.version)
    let inviteId ← Uuid.parse (String.ofList invite)
    let tenantId ← Uuid.parse (String.ofList tenant)
    let expiresUnix ← parseI64 expires
    let signature ← key.decode (String.ofList signature)
    guard (signature = key.mac inviteId tenantId expiresUnix)
    guard (dateTimeSeconds expiresUnix)
    return { inviteId, tenantId, expiresUnix }
  | _ => none

def verifyToken (key : InviteTokenKey) (raw : String) : Result InviteTokenClaims := do
  require ((utf8 raw).length ≤ 256 ∧ raw.toList.any whiteSpace = false)
    (.denied "INVITE_TOKEN_INVALID")
  okOr (key.readToken raw) (.denied "INVITE_TOKEN_INVALID")

end InviteTokenKey

/-! ## Rows -/

structure InviteConsumption where
  consumedAt : Int
  consumedBy : Uuid
  membershipId : Uuid

/-- A row of `membership_invites`. -/
structure InviteRow where
  emailNormalized : String
  roles : List String
  expiresAt : Int
  tokenDigest : Digest
  createdBy : Uuid
  secretRetrievedAt : Option Int
  consumption : Option InviteConsumption
  version : Version

/-- A row of `oidc_identities`, under its principal. -/
structure OidcIdentityRow where
  issuer : String
  subject : String
  email : Option String
  emailVerified : Bool

/-! ## Inputs -/

structure MembershipInvite where
  email : String
  roles : List String
  expiresAt : Int

/-- Identity facts of the session that accepts. -/
structure VerifiedInviteAcceptIdentity where
  principalId : Uuid
  issuer : String
  subject : String

structure MembershipAcceptCommand where
  expectedTenantId : Uuid
  identity : VerifiedInviteAcceptIdentity
  idempotencyKey : OpaqueId
  fingerprint : Digest
  inviteToken : String

/-- The host with what the operations on invitations need beside it: the key of the tokens, and the
schemas and fingerprints of the two commands. -/
structure Enrollment (ι ν ε : Type) where
  host : Host ι ν ε
  inviteKey : InviteTokenKey
  inviteValid : MembershipInvite → Bool
  inviteFingerprint : MembershipInvite → Option Digest
  acceptValid : String → Bool
  acceptFingerprint : String → Option Digest

structure EnrollmentState where
  host : HostState
  invites : Table Uuid InviteRow
  acceptances : Table (Uuid × String) ReceiptRow
  identities : Table Uuid OidcIdentityRow

namespace EnrollmentState

def tables (s : EnrollmentState) : Tables := s.host.store.tables

def memberships (s : EnrollmentState) : Table Uuid MembershipRow :=
  s.host.store.tables.identity.memberships

def withTables (s : EnrollmentState) (t : Tables) : EnrollmentState :=
  { s with host := { s.host with store := { s.host.store with tables := t } } }

end EnrollmentState

def expired (code : String) : CommandFailure := { code, kind := .expired }

/-- `normalize_email`. -/
def normalizeEmail (email : String) : Result String := do
  let trimmed := ((email.toList.dropWhile whiteSpace).reverse.dropWhile whiteSpace).reverse
  let normalized := String.ofList (trimmed.map Char.toLower)
  require ((3 ≤ (utf8 normalized).length ∧ (utf8 normalized).length ≤ 320) ∧
    normalized.toList.any whiteSpace = false ∧ '@' ∈ normalized.toList)
    (.invalid "INVITE_EMAIL_INVALID")
  return normalized

/-! ## Inviting -/

def inviteValue (env : Env) (tenant id : Uuid) (i : InviteRow) (state : String)
    (membership : List (String × Json)) : Json :=
  .obj ([("invite_id", .str id.toText), ("tenant_id", .str tenant.toText),
    ("email", .str i.emailNormalized), ("roles", .arr (i.roles.map .str)),
    ("expires_at", .str (env.timestamp i.expiresAt)), ("state", .str state)] ++ membership ++
    [("version", .num i.version.val)])

/-- The latest whole second, as the token holds it. -/
def inviteExpiry (tick : Tick) (expiresAt : Int) : Result Int := do
  let seconds := Int.fdiv expiresAt secondMicroseconds
  require (dateTimeSeconds seconds) (.invalid "INVITE_EXPIRY_INVALID")
  require (tick.now < seconds * secondMicroseconds ∧
    seconds * secondMicroseconds ≤ tick.now + hourMicroseconds) (.invalid "INVITE_EXPIRY_INVALID")
  return seconds

def inviteMembership (env : Env) (key : InviteTokenKey) (tick : Tick) (t : Tables)
    (invites : Table Uuid InviteRow) (actor : CommandActor) (input : MembershipInvite) :
    Result (Table Uuid InviteRow × Mutation) := do
  let tenant ← parseUuid actor.tenantId.text
  let createdBy ← parseUuid actor.principalId.text
  let emailNormalized ← normalizeEmail input.email
  let roles ← normalizeRoles input.roles
  requireAssignableRoles t actor roles
  let seconds ← inviteExpiry tick input.expiresAt
  let id := tick.draw .invitation
  let tokenDigest := env.digestBytes (utf8 (key.deriveToken id tenant seconds))
  let row : InviteRow :=
    { emailNormalized, roles, expiresAt := seconds * secondMicroseconds, tokenDigest, createdBy
      secretRetrievedAt := none, consumption := none, version := .one }
  require (3 ≤ emailNormalized.toList.length ∧ emailNormalized.toList.length ≤ 320)
    (databaseFailure .checkViolation)
  require (invites.any (fun _ i => decide (i.tokenDigest = tokenDigest)) = false)
    (databaseFailure .uniqueViolation)
  let invites ← sql (insertRow invites id row)
  return (invites, .one "MembershipInvitation" id .one (inviteValue env tenant id row "PENDING" [])
    "Membership invitation")

namespace Enrollment

variable (e : Enrollment ι ν ε)

def env : Env := e.host.env

/-- The command as `execute` sees it; the rows that it adds are not in its tables. -/
def inviteService (invites : Table Uuid InviteRow) : Service MembershipInvite :=
  { operation := fun _ => "membership.invite"
    inputValid := e.inviteValid
    fingerprint := e.inviteFingerprint
    authorize := fun t c => do
      let policy ← readPolicy e.env t c.actor
      let (kind, id, attributes) := tenantResource t
      require (policy.permits e.env "membership.invite" kind id attributes = true)
        (.denied "AUTHZ_DENIED")
    handle := fun tick t c => do
      let (_, m) ← inviteMembership e.env e.inviteKey tick t invites c.actor c.input
      return (t, m) }

/-- If the command commits, so do the rows that its handler wrote. -/
def runInvite (tick : Tick) (s : EnrollmentState) (c : Command MembershipInvite) :
    Result (EnrollmentState × Answer) := do
  let (store, answer) ← execute e.env (e.inviteService s.invites) tick s.host.store c
  let s' : EnrollmentState := { s with host := { s.host with store } }
  match answer with
  | .replayed _ => .ok (s', answer)
  | .committed _ => do
    let (invites, _) ← inviteMembership e.env e.inviteKey tick s.tables s.invites c.actor c.input
    return ({ s' with invites }, answer)

/-! ## The secret -/

/-- An owner retrieves the secret of any invitation, an editor those of its own. -/
def requireRetriever (t : Tables) (actor : CommandActor) (createdBy : Uuid) : Result Unit := do
  let principal ← parseUuid actor.principalId.text
  let roles ← actorMembershipRoles t actor
  require ("OWNER" ∈ roles ∨ ("EDITOR" ∈ roles ∧ createdBy = principal))
    (.denied "MEMBERSHIP_INVITE_SECRET_DENIED")

def retrieveMembershipInviteSecret (tick : Tick) (s : EnrollmentState) (actor : CommandActor)
    (inviteId : Uuid) : Result (EnrollmentState × String) := do
  let tenant ← parseUuid actor.tenantId.text
  let principal ← parseUuid actor.principalId.text
  beginActor s.tables actor
  let i ← okOr (s.invites.get? inviteId) .notFound
  require (tick.now < i.expiresAt) (expired "INVITE_EXPIRED")
  require (i.consumption.isNone = true) (.conflict "INVITE_ALREADY_USED")
  require (i.secretRetrievedAt.isNone = true) (.conflict "INVITE_SECRET_ALREADY_RETRIEVED")
  requireRetriever s.tables actor i.createdBy
  let token := e.inviteKey.deriveToken inviteId tenant (Int.fdiv i.expiresAt secondMicroseconds)
  require (i.tokenDigest = e.env.digestBytes (utf8 token)) (.unavailable "INVITE_INTEGRITY")
  let t := s.tables
  let audit ← sql (insertRow t.journal.audit (tick.draw (.audit 0))
    { principalId := principal, action := "membership.invite.secret.retrieve"
      resourceType := "MembershipInvitation", resourceId := inviteId
      correlationId := tick.draw .correlation })
  let s' := s.withTables { t with journal := { t.journal with audit } }
  return ({ s' with
    invites := s.invites.set inviteId { i with secretRetrievedAt := some tick.now } }, token)

/-! ## Accepting -/

def acceptKey (c : MembershipAcceptCommand) : Uuid × String :=
  (c.identity.principalId, c.idempotencyKey.text)

/-- The normalized e-mail address of the session's identity, which has to be verified. -/
def verifiedEmail (s : EnrollmentState) (identity : VerifiedInviteAcceptIdentity) :
    Result String := do
  let row ← okOr ((s.identities.get? identity.principalId).filter fun r =>
    decide (r.issuer = identity.issuer ∧ r.subject = identity.subject))
    (.denied "INVITE_IDENTITY_MISMATCH")
  let email ← okOr (row.email.filter fun _ => row.emailVerified)
    (.denied "INVITE_EMAIL_NOT_VERIFIED")
  normalizeEmail email

/-- The answer to an acceptance whose key was used before. -/
def replayAcceptance (s : EnrollmentState) (c : MembershipAcceptCommand) (row : ReceiptRow) :
    Result (EnrollmentState × Answer) := do
  require (row.fingerprint = c.fingerprint) (.conflict "IDEMPOTENCY_CONFLICT")
  let membership := s.memberships.get? c.identity.principalId
  require (membership.any (fun m => decide (m.status = .active)) = true)
    (.denied "AUTHORITY_CHANGED")
  require (e.env.receiptValid row.receipt = true) (.unavailable "RECEIPT_INTEGRITY")
  return (s, .replayed row.receipt)

/-- The invitation of a token, which has to be open, the token's own and for the address. -/
def openInvite (tick : Tick) (s : EnrollmentState) (c : MembershipAcceptCommand)
    (claims : InviteTokenClaims) (email : String) : Result InviteRow := do
  require (tick.now < claims.expiresUnix * secondMicroseconds) (expired "INVITE_EXPIRED")
  let i ← okOr (s.invites.get? claims.inviteId) .notFound
  require (Int.fdiv i.expiresAt secondMicroseconds = claims.expiresUnix ∧
    tick.now < i.expiresAt) (expired "INVITE_EXPIRED")
  require (i.consumption.isNone = true) (.conflict "INVITE_ALREADY_USED")
  require (i.tokenDigest = e.env.digestBytes (utf8 c.inviteToken)) (.denied "INVITE_TOKEN_INVALID")
  require (i.emailNormalized = email) (.denied "INVITE_EMAIL_MISMATCH")
  return i

def secondVersion : Version := ⟨2, Version.two_pos, Version.two_le⟩

/-- What an acceptance shows: the membership and the consumed invitation, in its second version. -/
def acceptMutation (tenant principal : Uuid) (m : MembershipRow) (inviteId : Uuid)
    (i : InviteRow) : Mutation :=
  let membership : ProjectionChange :=
    { resource := resourceRef "Membership" m.membershipId .one
      value := membershipValue tenant principal m, label := "Membership", sourceArtifacts := [] }
  let invite : ProjectionChange :=
    { resource := resourceRef "MembershipInvitation" inviteId secondVersion
      value := inviteValue e.env tenant inviteId { i with version := secondVersion } "CONSUMED"
        [("membership_id", .str m.membershipId.toText)]
      label := "Consumed membership invitation", sourceArtifacts := [] }
  { primary := membership.resource, changes := [membership, invite], runId := none
    effectId := none, accepted := false }

/-- The actor that the acceptance creates. -/
def acceptActor (tenant : Uuid) (identity : VerifiedInviteAcceptIdentity) (policy : PolicyRow) :
    CommandActor :=
  { tenantId := tenant.toId, principalId := identity.principalId.toId, issuer := identity.issuer
    membershipEpoch := 1, permissionEpoch := 1, policyVersion := policy.policyVersion
    policyEpoch := policy.policyEpoch }

def acceptedMembership (tick : Tick) (role : String) (roles : List String) : MembershipRow :=
  { status := .active, role, roles, membershipEpoch := 1, permissionEpoch := 1
    membershipId := tick.draw .membership, version := .one }

def consumedInvite (tick : Tick) (i : InviteRow) (principal : Uuid) (version : Version) :
    InviteRow :=
  { i with
    consumption := some { consumedAt := tick.now, consumedBy := principal
                          membershipId := tick.draw .membership }
    version }

/-- The membership of somebody who had none, with the roles of the invitation. -/
def admitMember (tick : Tick) (s : EnrollmentState) (c : MembershipAcceptCommand)
    (claims : InviteTokenClaims) (i : InviteRow) : Result (EnrollmentState × Answer) := do
  let t := s.tables
  let principal := c.identity.principalId
  let roles ← normalizeRoles i.roles
  require (s.memberships.contains principal = false) (.conflict "MEMBERSHIP_EXISTS")
  let role ← okOr roles.head? (.invalid "MEMBERSHIP_ROLES_INVALID")
  let m := acceptedMembership tick role roles
  require (s.memberships.any (fun _ r => decide (r.membershipId = m.membershipId)) = false)
    (databaseFailure .uniqueViolation)
  let memberships ← sql (insertRow s.memberships principal m)
  let version ← i.version.bump
  let i' := consumedInvite tick i principal version
  let policy ← okOr t.identity.policy (.unavailable "POLICY_UNAVAILABLE")
  let actor := acceptActor claims.tenantId c.identity policy
  let mutation := e.acceptMutation claims.tenantId principal m claims.inviteId { i' with roles }
  let journal ← recordChanges e.env tick actor "membership.accept" 0 t.journal mutation.changes
  let receipt := commandReceipt tick mutation
  require (e.env.receiptValid receipt = true) (.unavailable "RECEIPT_INTEGRITY")
  let acceptances ← sql (insertRow s.acceptances (acceptKey c)
    { fingerprint := c.fingerprint, commandId := tick.draw .command, receipt
      expiresAt := tick.stampedAt + dayMicroseconds })
  let s' := s.withTables { t with identity := { t.identity with memberships }, journal }
  return ({ s' with invites := s.invites.set claims.inviteId i', acceptances },
    .committed receipt)

def executeMembershipAccept (tick : Tick) (s : EnrollmentState) (c : MembershipAcceptCommand) :
    Result (EnrollmentState × Answer) := do
  require (e.acceptValid c.inviteToken = true) (.invalid "SCHEMA_INVALID")
  let fingerprint ← okOr (e.acceptFingerprint c.inviteToken) (.invalid "SCHEMA_INVALID")
  require (fingerprint = c.fingerprint) (.invalid "FINGERPRINT_MISMATCH")
  let claims ← e.inviteKey.verifyToken c.inviteToken
  require (claims.tenantId = c.expectedTenantId) (.denied "TENANT_CONTEXT_MISMATCH")
  require (s.tables.identity.tenantId = claims.tenantId ∧ s.tables.identity.tenantActive = true)
    .notFound
  let email ← verifiedEmail s c.identity
  match (s.acceptances.get? (acceptKey c)).filter fun r => decide (tick.now < r.expiresAt) with
  | some row => e.replayAcceptance s c row
  | none => do
    let i ← e.openInvite tick s c claims email
    e.admitMember tick s c claims i

/-! ## Logins -/

/-- `upsert_verified_identity`: a principal is the issuer and the subject it was first seen with. -/
def upsertVerifiedIdentity (tick : Tick) (s : EnrollmentState) (issuer subject : String)
    (email : Option String) (emailVerified : Bool) : Result (EnrollmentState × Uuid) := do
  let known := s.identities.find? fun _ r => decide (r.issuer = issuer ∧ r.subject = subject)
  match known with
  | some (principal, r) =>
    return ({ s with
      identities := s.identities.set principal { r with email, emailVerified } }, principal)
  | none => do
    let principal := tick.draw .oidcPrincipal
    let identities ← sql (insertRow s.identities principal
      { issuer, subject, email, emailVerified })
    return ({ s with identities }, principal)

end Enrollment

/-! ## Steps -/

inductive EnrollmentOperation (ι ε : Type) where
  | host (operation : HostOperation ι ε)
  | invite (c : Command MembershipInvite)
  | retrieveSecret (actor : CommandActor) (inviteId : Uuid)
  | accept (c : MembershipAcceptCommand)
  | login (issuer subject : String) (email : Option String) (emailVerified : Bool)

structure EnrollmentCall (ι ε : Type) where
  tick : Tick
  operation : EnrollmentOperation ι ε

inductive EnrollmentReply where
  | host (reply : HostReply)
  | answer (a : Answer)
  | secret (token : String)
  | principal (id : Uuid)

def runEnrollmentOperation (e : Enrollment ι ν ε) (tick : Tick) (s : EnrollmentState) :
    EnrollmentOperation ι ε → Result (EnrollmentState × EnrollmentReply)
  | .host operation => do
    let (host, reply) ← runHostOperation e.host tick s.host operation
    return ({ s with host }, .host reply)
  | .invite c => do
    let (s', a) ← e.runInvite tick s c
    return (s', .answer a)
  | .retrieveSecret actor inviteId => do
    let (s', token) ← e.retrieveMembershipInviteSecret tick s actor inviteId
    return (s', .secret token)
  | .accept c => do
    let (s', a) ← e.executeMembershipAccept tick s c
    return (s', .answer a)
  | .login issuer subject email emailVerified => do
    let (s', id) ← Enrollment.upsertVerifiedIdentity tick s issuer subject email emailVerified
    return (s', .principal id)

/-- One step of the host with its invitations. -/
def enrollmentStep (e : Enrollment ι ν ε) (s : EnrollmentState) (c : EnrollmentCall ι ε) :
    EnrollmentState × Result EnrollmentReply :=
  transact s (runEnrollmentOperation e c.tick s c.operation)

abbrev EnrollmentEvent (ι ε : Type) :=
  Machine.Event EnrollmentState (EnrollmentCall ι ε) (Result EnrollmentReply)

/-! ## The small tenant -/

namespace Sample

def colleagueId : Uuid := uuid 20

def guestId : Uuid := uuid 30

/-- Tokens are signed with one byte. -/
def inviteKey : InviteTokenKey :=
  { hmac := fun message => [UInt8.ofNat (message.foldl (fun acc b => acc * 31 + b.toNat) 7)]
    encode := fun bytes => String.ofList (bytes.flatMap fun b => hexDigits 2 b.toNat)
    decode := fun text => (readHex text.toList).map fun n => [UInt8.ofNat n] }

def enrollment : Enrollment Empty Nat Empty :=
  { host, inviteKey
    inviteValid := fun _ => true
    inviteFingerprint := fun _ => some (digest [])
    acceptValid := fun _ => true
    acceptFingerprint := fun token => some (digest (utf8 token)) }

/-- The office with a second member, an editor, and with a guest who has logged in. -/
def reception : EnrollmentState :=
  { host :=
      { office with
        store := { office.store with
          tables := { office.store.tables with
            identity := { office.store.tables.identity with
              memberships :=
                ⟨[(principalId, ⟨.active, "OWNER", ["OWNER"], 1, 1, uuid 10, .one⟩),
                  (colleagueId, ⟨.active, "EDITOR", ["EDITOR"], 1, 1, uuid 21, .one⟩)],
                  by decide⟩ } } } }
    invites := .empty
    acceptances := .empty
    identities := ⟨[(guestId, ⟨"local", "guest", some "Guest@Example.test", true⟩)], by decide⟩ }

def colleague : CommandActor := { actor with principalId := colleagueId.toId }

def onHost (c : HostCall Empty Empty) : EnrollmentCall Empty Empty := ⟨c.tick, .host c.operation⟩

/-- The editor invites the guest in the `n`-th second, for ten minutes. -/
def inviteCall (n : Nat) (roles : List String) : EnrollmentCall Empty Empty :=
  { tick := reading n
    operation := .invite
      { actor := colleague, idempotencyKey := (uuid n).toId, fingerprint := digest []
        input := { email := " guest@example.test", roles
                   expiresAt := (n + 600) * secondMicroseconds } } }

def invitationOf (n : Nat) : Uuid := (reading n).draw .invitation

def tokenOf (n : Nat) : String := inviteKey.deriveToken (invitationOf n) tenantId (n + 600)

def acceptCall (n : Nat) (token : String) : EnrollmentCall Empty Empty :=
  { tick := reading n
    operation := .accept
      { expectedTenantId := tenantId, identity := ⟨guestId, "local", "guest"⟩
        idempotencyKey := (uuid 9).toId, fingerprint := digest (utf8 token)
        inviteToken := token } }

/-- The host with its invitations after a run that begins at the reception. -/
abbrev fromReception (calls : List (EnrollmentCall Empty Empty)) : EnrollmentState :=
  Machine.run (enrollmentStep enrollment) reception calls

end Sample

end Masonwing
