import Masonwing.Store.Administration

/-!
# Executing a command

`CommandRepository::execute` of `store.rs`, for any set of operations: the operations come as
a `Service` with the schema, the fingerprint, the authorization and the handler of a command.
The receipts of the tenant are read and written here and nowhere else, so a handler works on
`Tables` only.
-/

namespace Masonwing

open Outcome

/-- A set of operations: what `execute` needs to know about a command. -/
structure Service (ι : Type) where
  operation : ι → String
  inputValid : ι → Bool
  fingerprint : ι → Option Digest
  authorize : Tables → Command ι → Result Unit
  handle : Tick → Tables → Command ι → Result (Tables × Mutation)

/-- How a command was answered: with the receipt of an earlier command, or by committing. -/
inductive Answer where
  | replayed (receipt : CommandReceipt)
  | committed (receipt : CommandReceipt)
  deriving DecidableEq

def dayMicroseconds : Int := 86400000000

variable {ι : Type}

def receiptKey (svc : Service ι) (c : Command ι) (principal : Uuid) : ReceiptKey :=
  { principalId := principal, operation := svc.operation c.input
    idempotencyKey := c.idempotencyKey.text }

/-- The receipt under a key that has not expired. -/
def liveReceipt (tick : Tick) (s : Store) (key : ReceiptKey) : Option ReceiptRow :=
  (s.receipts.get? key).filter fun r => decide (tick.now < r.expiresAt)

/-- The answer to a command whose key was used before. -/
def replayReceipt (env : Env) (s : Store) (c : Command ι) (row : ReceiptRow) :
    Result (Store × Answer) := do
  require (row.fingerprint = c.fingerprint) (.conflict "IDEMPOTENCY_CONFLICT")
  require (env.receiptValid row.receipt = true) (.unavailable "RECEIPT_INTEGRITY")
  return (s, .replayed row.receipt)

/-- The receipt of a command that is about to commit. -/
def commandReceipt (tick : Tick) (m : Mutation) : CommandReceipt :=
  { commandId := (tick.draw .command).toId
    state := if m.accepted then .accepted else .succeeded
    resource := some m.primary
    runId := m.runId.map (·.toId)
    effectId := m.effectId.map (·.toId)
    correlationId := (tick.draw .correlation).toId
    acceptedAt := tick.now }

/-- `INSERT INTO command_receipts ... ON CONFLICT DO UPDATE ... WHERE expires_at<=now`. -/
def storeReceipt (tick : Tick) (receipts : Table ReceiptKey ReceiptRow) (key : ReceiptKey)
    (row : ReceiptRow) : Except SqlError (Table ReceiptKey ReceiptRow) := do
  require (1 ≤ key.operation.toList.length ∧ key.operation.toList.length ≤ 128) .checkViolation
  match receipts.get? key with
  | none => insertRow receipts key row
  | some old => .ok (if old.expiresAt ≤ tick.stampedAt then receipts.set key row else receipts)

/-- Run the handler and record what it did, with its receipt. -/
def commitCommand (env : Env) (svc : Service ι) (tick : Tick) (s : Store) (c : Command ι)
    (key : ReceiptKey) : Result (Store × Answer) := do
  let (t, m) ← svc.handle tick s.tables c
  require (m.accepted = true → m.runId ≠ none) (.unavailable "DURABLE_RUN_REQUIRED")
  let journal ← recordChanges env tick c.actor (svc.operation c.input) 0 t.journal m.changes
  let receipt := commandReceipt tick m
  require (env.receiptValid receipt = true) (.unavailable "RECEIPT_INTEGRITY")
  let receipts ← sql (storeReceipt tick s.receipts key
    { fingerprint := c.fingerprint, commandId := tick.draw .command, receipt
      expiresAt := tick.stampedAt + dayMicroseconds })
  return ({ tables := { t with journal }, receipts }, .committed receipt)

/-- The checks before anything of the command is looked up: its form and the actor's current
authority. -/
def admitCommand (svc : Service ι) (s : Store) (c : Command ι) : Result Uuid := do
  require (svc.inputValid c.input = true) (.invalid "SCHEMA_INVALID")
  let fingerprint ← okOr (svc.fingerprint c.input) (.invalid "SCHEMA_INVALID")
  require (fingerprint = c.fingerprint) (.invalid "FINGERPRINT_MISMATCH")
  beginActor s.tables c.actor
  svc.authorize s.tables c
  parseUuid c.actor.principalId.text

def execute (env : Env) (svc : Service ι) (tick : Tick) (s : Store) (c : Command ι) :
    Result (Store × Answer) := do
  let principal ← admitCommand svc s c
  match liveReceipt tick s (receiptKey svc c principal) with
  | some row => replayReceipt env s c row
  | none => commitCommand env svc tick s c (receiptKey svc c principal)

/-! ## Containment of a corrupt artifact -/

def maxPackageBytes : Nat := 32 * 1024 * 1024

/-- Quarantine an artifact, with its audit row and its outbox row. -/
def quarantineArtifact (tick : Tick) (j : Journal) (actor : CommandActor) (id : Uuid)
    (a : ArtifactRow) : Result Journal := do
  let version ← a.version.bump
  let a' : ArtifactRow := { a with state := .quarantined, version }
  let principalId ← parseUuid actor.principalId.text
  let correlationId := tick.draw .correlation
  let audit ← sql (insertRow j.audit (tick.draw (.audit 0))
    { principalId, action := "artifact.quarantine", resourceType := "Artifact", resourceId := id
      correlationId })
  require (j.outbox.any (fun _ o => decide (o.aggregateId = id ∧
    o.aggregateVersion = version.val ∧ o.eventName = "artifact.quarantine")) = false)
    (databaseFailure .uniqueViolation)
  let outbox ← sql (insertRow j.outbox (tick.draw (.outbox 0))
    { aggregateId := id, aggregateVersion := version.val, eventName := "artifact.quarantine"
      artifactRefs := [], aggregateType := "Artifact", principalId, correlationId
      deliveryStatus := .pending, deliveryAttempts := 0, availableAt := tick.startedAt
      leaseExpiresAt := none })
  return { j with artifacts := j.artifacts.set id a', audit, outbox }

/-- Read the bytes of the artifact again; only proven corruption is quarantined. -/
def containArtifact (env : Env) (tick : Tick) (j : Journal) (actor : CommandActor) (id : Uuid)
    (a : ArtifactRow) : Result Journal := do
  let bytes ← tick.object a.storageKey maxPackageBytes
  if env.digestBytes bytes = a.digest ∧ (bytes.length : Int) = a.sizeBytes then .ok j
  else quarantineArtifact tick j actor id a

/-- `quarantine_corrupt_artifact`: the transaction that follows the rollback of a command whose
handler met a corrupt artifact. -/
def quarantineCorruptArtifact (env : Env) (svc : Service ι) (tick : Tick) (s : Store)
    (c : Command ι) (reference : ArtifactRef) : Result Store := do
  beginActor s.tables c.actor
  svc.authorize s.tables c
  require (reference.tenantId = c.actor.tenantId) .notFound
  let id ← parseUuid reference.artifactId.text
  let found := (s.tables.journal.artifacts.get? id).filter fun a =>
    decide (a.digest = reference.digest ∧ a.state = .active ∧
      a.sizeBytes ≤ (maxPackageBytes : Int))
  match found with
  | none => .ok s
  | some a => do
    let journal ← containArtifact env tick s.tables.journal c.actor id a
    return { s with tables := { s.tables with journal } }

end Masonwing
