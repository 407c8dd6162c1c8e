import Masonwing.Kernel.Effects
import Masonwing.Store.Delegation

/-!
# Effects

`effect_commands.rs`: proposing, dispatching, reconciling and compensating an effect, and the
three system-path operations that record what became of a transmission. A handler returns the
changed tables with its mutation; nothing is committed if it fails.
-/

namespace Masonwing

open Outcome

/-- `effect_projection_value`. -/
def effectProjectionValue (env : Env) (tenant id : Uuid) (e : EffectRow) : Json :=
  .obj [("effect_id", .str id.toText), ("tenant_id", .str tenant.toText),
    ("run_id", .str e.runId.toText), ("action", .str e.action),
    ("connection_id", .str e.connectionId.toText), ("target", e.target.toJson),
    ("content_ref", e.contentRef.toJson), ("fingerprint", .str e.fingerprint.toText),
    ("idempotency_key", .str e.idempotencyKey),
    ("approval_id", .ofOption (fun a => .str a.toText) e.approvalId),
    ("reservation_id", .str e.reservationId.toText), ("state", .str e.state.toText),
    ("version", .num e.version.val), ("created_at", .str (env.timestamp e.createdAt))]

/-- The mutation of every effect operation: one projection of the effect. -/
def effectMutation (env : Env) (t : Tables) (id : Uuid) (e : EffectRow) (label : String)
    (accepted : Bool) : Mutation :=
  { Mutation.one "EffectIntent" id e.version (effectProjectionValue env t.identity.tenantId id e)
      label with
    runId := some e.runId
    effectId := some id
    accepted }

/-- The canonical document whose digest is the fingerprint of an effect. -/
def fingerprintValue (action : String) (target : ResourceRef) (contentDigest : Digest) : Json :=
  .obj [("action", .str action), ("target", target.toJson),
    ("content_digest", .str contentDigest.toText)]

def effectFingerprint (env : Env) (action : String) (target : ResourceRef)
    (contentDigest : Digest) : Result Digest := do
  let bytes ← okOr (env.canonicalBytes (fingerprintValue action target contentDigest))
    (.invalid "SCHEMA_INVALID")
  return env.digestBytes bytes

/-- `INSERT INTO effects` with its unique and foreign keys. -/
def insertEffect (t : Tables) (id : Uuid) (e : EffectRow) : Result Tables := do
  require (t.effects.any (fun _ e' => decide (e'.connectionId = e.connectionId ∧
    e'.idempotencyKey = e.idempotencyKey)) = false) (databaseFailure .uniqueViolation)
  let effects ← sql (insertRow t.effects id e)
  require (t.runs.contains e.runId = true ∧ t.delegations.contains e.grantId = true ∧
    t.connections.contains e.connectionId = true ∧
    (∀ a ∈ e.approvalId, t.approvals.contains a = true) ∧
    t.budget.reservations.contains e.reservationId = true ∧
    ∀ o ∈ e.originalEffectId, effects.contains o = true) (databaseFailure .foreignKeyViolation)
  return { t with effects }

/-- The accounts every effect is charged to. -/
def effectAccountKeys : List String := ["RUN:USD:default", "DAY:USD:default"]

/-! ## Proposing -/

/-- The active runs of a grant. -/
def activeRuns (t : Tables) (grantId : Uuid) : List Uuid :=
  (t.runs.select fun _ r => decide (r.grantId = grantId) && !r.state.ended).map Prod.fst

/-- The run an effect belongs to: the only active one of its grant. -/
def resolveRun (t : Tables) (grantId : Uuid) : Result Uuid :=
  match activeRuns t grantId with
  | [] => .error (.precondition "RUN_CONTEXT_REQUIRED")
  | [runId] => .ok runId
  | _ => .error (.conflict "RUN_CONTEXT_AMBIGUOUS")

/-- The effect that a key of a connection already names. -/
def existingEffect (t : Tables) (connectionId : Uuid) (key : String) : Option (Uuid × EffectRow) :=
  t.effects.find? fun _ e => decide (e.connectionId = connectionId ∧ e.idempotencyKey = key)

/-- What a proposal asks for, after its admission checks. -/
structure Proposal where
  action : String
  connectionId : Uuid
  target : ResourceRef
  contentRef : ArtifactRef
  grantId : Uuid
  priceProfile : String
  idempotencyKey : String
  runId : Uuid
  fingerprint : Digest
  deriving DecidableEq

/-- `connection, grant and kill switch` of a proposal, its run and its fingerprint. -/
def admitProposal (env : Env) (tick : Tick) (t : Tables) (actor : CommandActor)
    (idempotencyKey : String) (action connectionId : String) (target : ResourceRef)
    (contentRef : ArtifactRef) (grantId priceProfile : String) : Result Proposal := do
  let connectionId ← parseUuid connectionId
  let grantId ← parseUuid grantId
  require (contentRef.tenantId = actor.tenantId) .notFound
  let connection ← okOr (t.connections.get? connectionId) .notFound
  require (connection.state = .active) (.precondition "CONNECTION_NOT_ACTIVE")
  let _ ← requireActiveGrant tick t actor grantId (some action) (some target)
  requireDispatchEnabled t none (some connectionId)
  let runId ← resolveRun t grantId
  let fingerprint ← effectFingerprint env action target contentRef.digest
  return { action, connectionId, target, contentRef, grantId, priceProfile, idempotencyKey, runId
           fingerprint }

/-- The key was used before: the same request gets the same effect. -/
def proposeAgain (env : Env) (t : Tables) (p : Proposal) (id : Uuid) (e : EffectRow) :
    Result (Tables × Mutation) := do
  require (e.fingerprint = p.fingerprint) (.conflict "IDEMPOTENCY_CONFLICT")
  return (t, effectMutation env t id
    { e with runId := p.runId, action := p.action, target := p.target, contentRef := p.contentRef }
    "propose effect replay" true)

/-- The bound of a price profile. -/
def priceBound (priceProfile : String) : Int := if priceProfile = "0.0.0" then 0 else 20

def Proposal.reserveRequest (p : Proposal) : ReserveRequest :=
  { runId := p.runId, logicalCallId := "effect-" ++ p.idempotencyKey, currency := "USD"
    upperBound := priceBound p.priceProfile, priceProfile := p.priceProfile
    accountKeys := effectAccountKeys }

/-- The row of a new effect. -/
def Proposal.row (p : Proposal) (tick : Tick) (reservationId : Uuid) : EffectRow :=
  { runId := p.runId, grantId := p.grantId, connectionId := p.connectionId, action := p.action
    target := p.target, contentRef := p.contentRef, fingerprint := p.fingerprint
    idempotencyKey := p.idempotencyKey, approvalId := none, reservationId, state := .prepared
    transmitCount := 0, dispatchFence := 1, leaseExpiresAt := none, reconciliationQueued := false
    originalEffectId := none, version := .one, createdAt := tick.now, updatedAt := tick.now }

def proposeNew (env : Env) (tick : Tick) (t : Tables) (p : Proposal) :
    Result (Tables × Mutation) := do
  let (budget, reservation) ← reserveBudget tick t.identity.tenantId t.runs.contains t.budget
    p.reserveRequest
  let reservationId ← parseUuid reservation.primary.resourceId.text
  let id := tick.draw .effect
  let t' ← insertEffect { t with budget } id (p.row tick reservationId)
  return (t', effectMutation env t id (p.row tick reservationId) "propose effect" true)

def proposeEffect (env : Env) (tick : Tick) (t : Tables) (actor : CommandActor)
    (idempotencyKey : String) (action connectionId : String) (target : ResourceRef)
    (contentRef : ArtifactRef) (grantId priceProfile : String) : Result (Tables × Mutation) := do
  let p ← admitProposal env tick t actor idempotencyKey action connectionId target contentRef
    grantId priceProfile
  match existingEffect t p.connectionId p.idempotencyKey with
  | some (id, e) => proposeAgain env t p id e
  | none => proposeNew env tick t p

/-! ## Dispatching -/

/-- An approval, where the effect carries one, has to be approved and unexpired. -/
def checkApproval (tick : Tick) (t : Tables) : Option Uuid → Result Unit
  | none => .ok ()
  | some id => do
    let approval ← okOr (t.approvals.get? id) (.precondition "APPROVAL_REQUIRED")
    require (approval.state = .approved) (.precondition "APPROVAL_REQUIRED")
    require (tick.now < approval.expiresAt) (.precondition "APPROVAL_EXPIRED")

def leaseMicroseconds : Int := 60000000

def dispatchEffect (env : Env) (tick : Tick) (t : Tables) (effectId : String)
    (expectedVersion : Int) : Result (Tables × Mutation) := do
  let id ← parseUuid effectId
  let e ← okOr (t.effects.get? id) .notFound
  let version ← requireExpectedVersion e.version expectedVersion
  requireDispatchEnabled t none (some e.connectionId)
  require (e.state.ambiguous = false) (.conflict "OUTCOME_UNKNOWN_BLOCKS_RESEND")
  require (e.state.dispatchable = true) (.conflict "ILLEGAL_TRANSITION")
  checkApproval tick t e.approvalId
  let transmitCount ← sql (integer (e.transmitCount + 1))
  let dispatchFence ← sql (bigint (e.dispatchFence + 1))
  let e' : EffectRow :=
    { e with state := .executing, transmitCount, dispatchFence
             leaseExpiresAt := some (tick.now + leaseMicroseconds), version
             updatedAt := tick.now }
  return ({ t with effects := t.effects.set id e' },
    effectMutation env t id e' "dispatch effect" true)

/-! ## Reconciling -/

def reconcileEffect (env : Env) (tick : Tick) (t : Tables) (effectId : String)
    (expectedVersion : Int) : Result (Tables × Mutation) := do
  let id ← parseUuid effectId
  let e ← okOr (t.effects.get? id) .notFound
  let version ← requireExpectedVersion e.version expectedVersion
  require (e.state = .outcomeUnknown ∨ e.state = .manualReview) (.conflict "ILLEGAL_TRANSITION")
  let e' : EffectRow :=
    { e with state := .reconciling, reconciliationQueued := true, version, updatedAt := tick.now }
  return ({ t with effects := t.effects.set id e' },
    effectMutation env t id e' "reconcile effect" false)

/-! ## Compensating -/

/-- The row of a compensating effect: the original's scope with a new content and approval. -/
def compensationRow (tick : Tick) (original : Uuid) (e : EffectRow)
    (compensationRef : ArtifactRef) (idempotencyKey : String) (approvalId : Uuid)
    (fingerprint : Digest) (reservationId : Uuid) : EffectRow :=
  { runId := e.runId, grantId := e.grantId, connectionId := e.connectionId
    action := e.action ++ ".compensate", target := e.target, contentRef := compensationRef
    fingerprint, idempotencyKey, approvalId := some approvalId, reservationId
    state := .authorized, transmitCount := 0, dispatchFence := 1, leaseExpiresAt := none
    reconciliationQueued := false, originalEffectId := some original, version := .one
    createdAt := tick.now, updatedAt := tick.now }

def compensationRequest (runId newId : Uuid) : ReserveRequest :=
  { runId, logicalCallId := "compensate-" ++ newId.toText, currency := "USD", upperBound := 20
    priceProfile := "1.0.0", accountKeys := effectAccountKeys }

def compensateEffect (env : Env) (tick : Tick) (t : Tables) (idempotencyKey : String)
    (effectId : String) (compensationRef : ArtifactRef) (approvalId : String) :
    Result (Tables × Mutation) := do
  let original ← parseUuid effectId
  let approvalId ← parseUuid approvalId
  let e ← okOr (t.effects.get? original) .notFound
  require (e.state = .succeeded ∨ e.state = .failedConfirmed) (.precondition "EFFECT_NOT_COMPLETED")
  require (e.approvalId ≠ some approvalId) (.precondition "SEPARATE_APPROVAL_REQUIRED")
  let approval ← okOr (t.approvals.get? approvalId) .notFound
  require (approval.state = .approved) (.precondition "APPROVAL_REQUIRED")
  require (t.effects.any (fun _ e' => decide (e'.originalEffectId = some original ∧
    e'.approvalId = some approvalId)) = false) (.precondition "APPROVAL_ALREADY_USED")
  let newId := tick.draw .effect
  let fingerprint ← effectFingerprint env (e.action ++ ".compensate") e.target
    compensationRef.digest
  let (budget, reservation) ← reserveBudget tick t.identity.tenantId t.runs.contains t.budget
    (compensationRequest e.runId newId)
  let reservationId ← parseUuid reservation.primary.resourceId.text
  let row := compensationRow tick original e compensationRef idempotencyKey approvalId fingerprint
    reservationId
  let t' ← insertEffect { t with budget } newId row
  return (t', effectMutation env t newId row "compensate effect" false)

/-! ## The outcome of a transmission -/

def recordEffectUnknown (env : Env) (tick : Tick) (t : Tables) (id : Uuid) :
    Result (Tables × Mutation) := do
  beginSystem t
  let e ← okOr (t.effects.get? id) .notFound
  require (e.state = .executing) (.conflict "ILLEGAL_TRANSITION")
  let version ← e.version.bump
  let e' : EffectRow :=
    { e with state := .outcomeUnknown, reconciliationQueued := true, version
             updatedAt := tick.now }
  let (budget, _) ← markCostUnknown tick t.identity.tenantId t.budget e.reservationId
  return ({ t with effects := t.effects.set id e', budget },
    effectMutation env t id e' "effect outcome unknown" false)

/-- `INSERT INTO effect_receipts` with its unique and foreign keys. -/
def insertEffectReceipt (t : Tables) (id : Uuid) (r : EffectReceiptRow) :
    Result (Table Uuid EffectReceiptRow) := do
  require (t.effectReceipts.any (fun _ r' => decide (r'.effectId = r.effectId)) = false)
    (databaseFailure .uniqueViolation)
  let receipts ← sql (insertRow t.effectReceipts id r)
  require (t.effects.contains r.effectId = true) (databaseFailure .foreignKeyViolation)
  return receipts

def recordEffectSucceeded (env : Env) (tick : Tick) (t : Tables) (id : Uuid) (remoteId : String)
    (evidenceRef : ArtifactRef) (used : Int) : Result (Tables × Mutation) := do
  beginSystem t
  let e ← okOr (t.effects.get? id) .notFound
  require (e.state = .executing ∨ e.state = .reconciling) (.conflict "ILLEGAL_TRANSITION")
  let version ← e.version.bump
  let e' : EffectRow :=
    { e with state := .succeeded, reconciliationQueued := false, version, updatedAt := tick.now }
  let effectReceipts ← insertEffectReceipt t (tick.draw .effectReceipt)
    { effectId := id, remoteId, evidenceRef, observedAt := tick.now }
  let (budget, _) ← settleBudget tick t.identity.tenantId t.budget e.reservationId used
    (some e.fingerprint.toText)
  return ({ t with effects := t.effects.set id e', effectReceipts, budget },
    effectMutation env t id e' "effect succeeded" false)

/-- Release the hold if the evidence says that the mutation was not applied. -/
def releaseIf (release : Bool) (tick : Tick) (tenant : Uuid) (b : Budget) (reservationId : Uuid) :
    Result Budget :=
  if release then do
    let (b', _) ← releaseBudget tick tenant b reservationId
    return b'
  else .ok b

/-- The evidence other than confirmed presence: the next state, from which states it is
accepted, and whether the hold is released. -/
def resolveEffect (env : Env) (tick : Tick) (t : Tables) (id : Uuid) (next : EffectState)
    (label : String) (expectedFrom : List EffectState) (release : Bool) :
    Result (Tables × Mutation) := do
  beginSystem t
  let e ← okOr (t.effects.get? id) .notFound
  require (e.state ∈ expectedFrom) (.conflict "ILLEGAL_TRANSITION")
  let version ← e.version.bump
  let e' : EffectRow :=
    { e with state := next, reconciliationQueued := false, version, updatedAt := tick.now }
  let budget ← releaseIf release tick t.identity.tenantId t.budget e.reservationId
  return ({ t with effects := t.effects.set id e', budget }, effectMutation env t id e' label false)

def applyReconciliationEvidence (env : Env) (tick : Tick) (t : Tables) (id : Uuid)
    (evidence : ReconciliationEvidence) (remoteId : Option String)
    (evidenceRef : Option ArtifactRef) (used : Option Int) : Result (Tables × Mutation) :=
  match evidence with
  | .confirmedPresent => do
    let remoteId ← okOr remoteId (.invalid "REMOTE_ID_REQUIRED")
    let evidenceRef ← okOr evidenceRef (.invalid "EVIDENCE_REF_REQUIRED")
    recordEffectSucceeded env tick t id remoteId evidenceRef (used.getD 12)
  | .confirmedFailure =>
    resolveEffect env tick t id .failedConfirmed "effect failed confirmed"
      [.executing, .reconciling] true
  | .provenAbsentAndReauthorized =>
    resolveEffect env tick t id .authorized "effect proven absent reauthorized" [.reconciling] false
  | .unresolved =>
    resolveEffect env tick t id .manualReview "effect manual review" [.reconciling] false

end Masonwing
