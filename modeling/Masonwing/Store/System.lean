import Masonwing.Lib.Machine
import Masonwing.Store.Execute

/-!
# The store as one machine

All modelled operations as calls on one tenant's store. Write transactions of a tenant are
serialized by its advisory lock, so a run of the system is a list of calls; a transaction that
fails, or that crashes before its commit, changes nothing.
-/

namespace Masonwing

open Outcome

/-- Which inputs the schema catalogue accepts, and their contract fingerprints. -/
structure Catalogue where
  inputValid : CommandInput → Bool
  fingerprint : CommandInput → Option Digest

/-- The modelled operations as a service. -/
def service (env : Env) (catalogue : Catalogue) : Service CommandInput :=
  { operation := CommandInput.operation
    inputValid := catalogue.inputValid
    fingerprint := catalogue.fingerprint
    authorize := authorizeCommand env
    handle := dispatchCommand env }

inductive SystemCall where
  | markRunStarted (runId : Uuid) (temporalRunId : String) (fence : Int)
  | markRunCompleted (runId : Uuid) (fence : Int)
  | verifyAndClaimRun (runId : Uuid)
  | recordEffectUnknown (effectId : Uuid)
  | recordEffectSucceeded (effectId : Uuid) (remoteId : String) (evidenceRef : ArtifactRef)
      (used : Int)
  | applyReconciliationEvidence (effectId : Uuid) (evidence : ReconciliationEvidence)
      (remoteId : Option String) (evidenceRef : Option ArtifactRef) (used : Option Int)
  | reserveRunBudget (request : ReserveRequest)
  | settleRunBudget (reservationId : Uuid) (used : Int) (usageFingerprint : Option String)
  | markRunCostUnknown (reservationId : Uuid)
  | releaseRunBudget (reservationId : Uuid)
  | claimPendingOutbox (limit leaseSeconds : Int)
  | markOutboxDelivered (eventId : Uuid)
  | markOutboxFailed (eventId : Uuid) (maxAttempts : Int)

inductive Operation where
  | command (c : Command CommandInput)
  | quarantine (c : Command CommandInput) (reference : ArtifactRef)
  | system (c : SystemCall)

/-- One call: an operation in its own transaction. -/
structure Call where
  tick : Tick
  operation : Operation

inductive Reply where
  | answer (a : Answer)
  | mutation (m : Mutation)
  | claimed (run : Option DispatchableRun)
  | events (items : List OutboxDispatchItem)
  | done

/-- A budget operation on the system path. -/
def systemBudget (t : Tables) (x : Result (Budget × Mutation)) : Result (Tables × Reply) := do
  beginSystem t
  let (budget, m) ← x
  return ({ t with budget }, .mutation m)

def withMutation (x : Result (Tables × Mutation)) : Result (Tables × Reply) := do
  let (t, m) ← x
  return (t, .mutation m)

def withDone (x : Result Tables) : Result (Tables × Reply) := do
  let t ← x
  return (t, .done)

def runSystemCall (env : Env) (tick : Tick) (t : Tables) : SystemCall → Result (Tables × Reply)
  | .markRunStarted runId temporalRunId fence =>
    withMutation (markRunStarted env tick t runId temporalRunId fence)
  | .markRunCompleted runId fence => withDone (markRunCompleted tick t runId fence)
  | .verifyAndClaimRun runId => do
    let (t', run) ← verifyAndClaimRun env tick t runId
    return (t', .claimed run)
  | .recordEffectUnknown effectId => withMutation (recordEffectUnknown env tick t effectId)
  | .recordEffectSucceeded effectId remoteId evidenceRef used =>
    withMutation (recordEffectSucceeded env tick t effectId remoteId evidenceRef used)
  | .applyReconciliationEvidence effectId evidence remoteId evidenceRef used =>
    withMutation
      (applyReconciliationEvidence env tick t effectId evidence remoteId evidenceRef used)
  | .reserveRunBudget request =>
    systemBudget t (reserveBudget tick t.identity.tenantId t.runs.contains t.budget request)
  | .settleRunBudget reservationId used fingerprint =>
    systemBudget t (settleBudget tick t.identity.tenantId t.budget reservationId used fingerprint)
  | .markRunCostUnknown reservationId =>
    systemBudget t (markCostUnknown tick t.identity.tenantId t.budget reservationId)
  | .releaseRunBudget reservationId =>
    systemBudget t (releaseBudget tick t.identity.tenantId t.budget reservationId)
  | .claimPendingOutbox limit leaseSeconds => do
    let (t', items) ← claimPendingOutbox tick t limit leaseSeconds
    return (t', .events items)
  | .markOutboxDelivered eventId => withDone (markOutboxDelivered t eventId)
  | .markOutboxFailed eventId maxAttempts => withDone (markOutboxFailed tick t eventId maxAttempts)

def runOperation (env : Env) (catalogue : Catalogue) (tick : Tick) (s : Store) :
    Operation → Result (Store × Reply)
  | .command c => do
    let (s', a) ← execute env (service env catalogue) tick s c
    return (s', .answer a)
  | .quarantine c reference => do
    let s' ← quarantineCorruptArtifact env (service env catalogue) tick s c reference
    return (s', .done)
  | .system c => do
    let (tables, reply) ← runSystemCall env tick s.tables c
    return ({ s with tables }, reply)

/-- One step of the system. -/
def step (env : Env) (catalogue : Catalogue) (s : Store) (c : Call) : Store × Result Reply :=
  transact s (runOperation env catalogue c.tick s c.operation)

/-! ## A small tenant

One tenant with a connection, a grant, a queued run under it and an approval, each with the
projection it was created with; the examples of later files run on it. -/

namespace Sample

def uuid (n : Nat) : Uuid := ⟨BitVec.ofNat 128 n⟩

def tenantId : Uuid := uuid 1
def principalId : Uuid := uuid 2
def connectionId : Uuid := uuid 3
def grantId : Uuid := uuid 4
def runId : Uuid := uuid 5
def approvalId : Uuid := uuid 6
def contentId : Uuid := uuid 7

/-- A 256-bit fold in the place of the digest. -/
def digest (bytes : Bytes) : Digest :=
  ⟨BitVec.ofNat 256 (bytes.foldl (fun acc b => acc * 257 + b.toNat + 1) 0)⟩

mutual

/-- Compact JSON text. -/
def render : Json → String
  | .null => "null"
  | .bool b => if b then "true" else "false"
  | .num n => toString n
  | .str s => "\"" ++ s ++ "\""
  | .arr items => "[" ++ renderItems items ++ "]"
  | .obj fields => "\x7b" ++ renderFields fields ++ "\x7d"

def renderItems : List Json → String
  | [] => ""
  | [v] => render v
  | v :: rest => render v ++ "," ++ renderItems rest

def renderFields : List (String × Json) → String
  | [] => ""
  | [(k, v)] => "\"" ++ k ++ "\":" ++ render v
  | (k, v) :: rest => "\"" ++ k ++ "\":" ++ render v ++ "," ++ renderFields rest

end

def env : Env :=
  { canonicalBytes := fun v => some (render v).toUTF8.data.toList
    digestBytes := digest
    schemaValid := fun _ _ => true
    receiptValid := fun _ => true
    policyParses := fun _ => true
    policyPermits := fun _ _ _ _ _ _ => true
    schemaCompiles := fun _ => true
    schemaAccepts := fun _ _ => true
    timestamp := fun t => toString t
    foldCase := Char.toLower }

def catalogue : Catalogue :=
  { inputValid := fun _ => true
    fingerprint := fun input => some (digest input.operation.toUTF8.data.toList) }

/-- Which identifier of a transaction is drawn. -/
def drawCode : Draw → Nat
  | .deletionRequest => 0
  | .reservation => 1
  | .costEvent => 2
  | .budgetSetting => 3
  | .effect => 4
  | .effectReceipt => 5
  | .run => 6
  | .grant => 7
  | .killSwitch => 8
  | .command => 9
  | .correlation => 10
  | .installation => 11
  | .manifest => 12
  | .upload => 13
  | .uploadArtifact => 14
  | .lease => 15
  | .invocation => 16
  | .output => 17
  | .connection => 18
  | .connectorAuthorization => 19
  | .readCursor => 20
  | .providerProfile => 21
  | .catalogListing => 22
  | .invitation => 997
  | .membership => 998
  | .oidcPrincipal => 999
  | .artifact i => 23 + 3 * i
  | .audit i => 24 + 3 * i
  | .outbox i => 25 + 3 * i

/-- The `n`-th second of the clock, with identifiers of its own. -/
def tick (n : Nat) : Tick :=
  { startedAt := n * 1000000
    now := n * 1000000
    stampedAt := n * 1000000
    started_le_now := le_refl _
    now_le_stamped := le_refl _
    draw := fun d => uuid (1000 * (n + 1) + drawCode d)
    put := fun _ => .ok ()
    object := fun _ _ => .ok [] }

def actor : CommandActor :=
  { tenantId := tenantId.toId, principalId := principalId.toId, issuer := "local"
    membershipEpoch := 1, permissionEpoch := 1, policyVersion := "1.0.0", policyEpoch := 1 }

/-- The command of the `n`-th second, under a key of its own. -/
def command (n : Nat) (input : CommandInput) : Call :=
  { tick := tick n
    operation := .command
      { actor, input, idempotencyKey := (uuid n).toId
        fingerprint := digest input.operation.toUTF8.data.toList } }

def system (n : Nat) (c : SystemCall) : Call := { tick := tick n, operation := .system c }

def target : ResourceRef := resourceRef "Document" (uuid 8) .one

def artifact (bytes : Bytes) (key : String) : ArtifactRow :=
  { digest := digest bytes, schemaVersion := "1.0.0", classification := .internal
    contentType := "application/json", sizeBytes := bytes.length, storageKey := key
    state := .active, legalHold := false, creatorId := principalId, createdAt := 0
    version := .one }

def contentRef : ArtifactRef :=
  { artifactId := contentId.toId, tenantId := tenantId.toId, digest := digest [1]
    schemaVersion := "1.0.0", classification := .internal }

def grant : DelegationRow :=
  { principalId := principalId.toText, principalType := .user, issuer := "local"
    creatorId := principalId, actions := ["mail.send", "run.start"], resources := [target]
    parentGrantId := none, expiresAt := 1000000000000, state := .active, version := .one
    fence := 1 }

def connection : ConnectionRow :=
  { provider := "smtp", externalAccount := "office", scopes := [], secretRef := "secret"
    state := .active, contractVersion := "1.0.0", capabilities := [], verifiedAt := none
    version := .one }

def run : RunRow :=
  { principalId, workflowId := "mailer", workflowVersion := "1.0.0", pluginId := "mailer"
    pluginDigest := digest [2], grantId, grantFence := 1, inputRef := contentRef, state := .queued
    fence := 1, version := .one, temporalWorkflowId := runId.toText, temporalRunId := none
    dispatchState := .pending, failureCode := none, createdAt := 0, updatedAt := 0 }

/-- The build of the run's plugin. -/
def manifest : PluginManifest :=
  { id := ⟨"mailer", by decide⟩, version := "1.0.0", contractVersion := "1.0.0"
    artifactDigest := digest [2], publisherId := "publisher", executionClass := .wasmComponent
    requestedCapabilities := [], dependencies := [], ui := [], migrations := []
    licenseExpression := "MIT", sbomDigest := digest [8], signatureRef := "signature"
    handlers := [], workflows := [contentRef], dataContracts := [], tools := [] }

def usd : Currency := ⟨"USD", by decide⟩

def approval : ApprovalRow :=
  { runId, action := "mail.send.compensate", target, contentDigest := digest [3]
    scopeDigest := digest [4], policyVersion := "1.0.0", maxCostMicrounits := 20, currency := usd
    expiresAt := 1000000000, createdBy := uuid 9, decidedBy := some principalId
    decidedIssuer := some "local", decisionReason := some "reviewed", state := .approved
    version := .one, createdAt := 0, updatedAt := 0 }

def setting (n : Nat) : Setting :=
  ⟨{ id := uuid n, limit := 1000, version := .one },
    ⟨show (0 : Int) ≤ 1000 by decide, show (1000 : Int) ≤ maxMicrounits by decide⟩⟩

def projection (n : Nat) (value : Json) : ProjectionRow :=
  { artifactId := uuid n, value, label := "", createdAt := 0, updatedAt := 0 }

def projectionOf (kind : String) (id : Uuid) : ProjectionKey :=
  projectionKey (resourceRef kind id .one)

def tables : Tables :=
  { identity :=
      { tenantId, tenantActive := true
        memberships := ⟨[(principalId, ⟨.active, "OWNER", ["OWNER"], 1, 1, uuid 10, .one⟩)], by decide⟩
        policy := some ⟨"1.0.0", 1, ""⟩ }
    journal :=
      { artifacts := ⟨[(contentId, artifact [1] "content"), (uuid 11, artifact [5] "connection"),
          (uuid 12, artifact [6] "grant"), (uuid 13, artifact [7] "run")], by decide⟩
        lineage := []
        tombstones := []
        projections := ⟨[(projectionOf "Connection" connectionId, projection 11 .null),
          (projectionOf "Delegation" grantId, projection 12 .null),
          (projectionOf "Run" runId, projection 13 (runProjectionValue env tenantId runId run))],
          by decide⟩
        audit := .empty
        outbox := .empty
        inbox := [] }
    registry := ⟨.empty, ⟨[(("mailer", digest [2]), manifest)], by decide⟩, .empty, .empty, .empty⟩
    delegations := ⟨[(grantId, grant)], by decide⟩
    connections := ⟨[(connectionId, connection)], by decide⟩
    connectorAuthorizations := .empty
    approvals := ⟨[(approvalId, approval)], by decide⟩
    runs := ⟨[(runId, run)], by decide⟩
    budget := { Budget.empty with
      settings := ⟨[((usd, .run), setting 21), ((usd, .day), setting 22)], by decide⟩ }
    effects := .empty
    effectReceipts := .empty
    checkpoints := .empty
    rights := .empty
    deletionRequests := .empty
    uploads := .empty
    providerProfiles := .empty
    catalogListings := .empty
    readCursors := .empty }

def store : Store := { tables, receipts := .empty }

/-- The effect that the proposal of the `n`-th second creates. -/
def effectOf (n : Nat) : Uuid := (tick n).draw .effect

def propose (n : Nat) : Call :=
  command n
    (.effectPropose "mail.send" connectionId.toText target contentRef grantId.toText "1.0.0")

def dispatch (n : Nat) (effect : Uuid) (version : Int) : Call :=
  command n (.effectDispatch effect.toText version)

def reconcile (n : Nat) (effect : Uuid) (version : Int) : Call :=
  command n (.effectReconcile effect.toText version)

/-- The store after a run of the small tenant. -/
abbrev after (calls : List Call) : Store := Machine.run (step env catalogue) store calls

/-- The events of a run of the small tenant. -/
abbrev events (calls : List Call) : List (Machine.Event Store Call (Result Reply)) :=
  Machine.trace (step env catalogue) store calls

/-- The event of one more call. -/
def next (calls : List Call) (c : Call) : Machine.Event Store Call (Result Reply) :=
  Machine.eventAt (step env catalogue) (after calls) c

theorem events_concat (calls : List Call) (c : Call) :
    events (calls ++ [c]) = events calls ++ next calls c :: [] := Machine.trace_concat _ _ _ _

theorem next_mem (calls : List Call) (c : Call) : next calls c ∈ events (calls ++ [c]) := by
  rw [events_concat]
  exact List.mem_append_right _ List.mem_cons_self

/-- An effect is transmitted, its outcome is unknown, its absence is proven, and it is transmitted
again. -/
def secondLap : List Call :=
  [propose 1, dispatch 2 (effectOf 1) 1, system 3 (.recordEffectUnknown (effectOf 1)),
    reconcile 4 (effectOf 1) 3,
    system 5
      (.applyReconciliationEvidence (effectOf 1) .provenAbsentAndReauthorized none none none),
    dispatch 6 (effectOf 1) 5]

end Sample

end Masonwing
