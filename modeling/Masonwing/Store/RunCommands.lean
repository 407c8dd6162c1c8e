import Masonwing.Store.EffectCommands

/-!
# Runs

`run_commands.rs` and `relay.rs`: admission and cancellation of a run, the system-path
transitions that follow its durable execution, and the relay of the outbox.
-/

namespace Masonwing

open Outcome

/-- The projection of a run. -/
def runProjectionValue (env : Env) (tenant id : Uuid) (r : RunRow) : Json :=
  .obj [("run_id", .str id.toText), ("tenant_id", .str tenant.toText),
    ("workflow_id", .str r.workflowId), ("workflow_version", .str r.workflowVersion),
    ("state", .str r.state.toText), ("plugin_digest", .str r.pluginDigest.toText),
    ("grant_id", .str r.grantId.toText), ("version", .num r.version.val),
    ("created_at", .str (env.timestamp r.createdAt)),
    ("updated_at", .str (env.timestamp r.updatedAt))]

/-- The mutation of every run operation: one projection, with the input as its source. -/
def runMutation (env : Env) (t : Tables) (id : Uuid) (r : RunRow) (input : Uuid)
    (accepted : Bool) : Mutation :=
  { (Mutation.one "Run" id r.version (runProjectionValue env t.identity.tenantId id r)
      r.workflowId).withSourceArtifact input with
    runId := some id
    accepted }

/-! ## Admission -/

def maxRunInputBytes : Nat := 4 * 1024 * 1024
def maxWorkflowSchemaBytes : Nat := 256 * 1024

/-- The newest definition of a workflow version, with the plugin digest it is pinned to. -/
def workflowDefinition (t : Tables) (workflowId workflowVersion : String) :
    Option (Digest × WorkflowDefinitionRow) :=
  (((t.registry.workflowDefinitions.select fun k _ =>
    decide (k.1 = workflowId ∧ k.2.1 = workflowVersion)).map
      fun p => (p.2.createdAt, (p.1.2.2, p.2))).foldl newer none).map Prod.snd

/-- Only an enabled build of the pinned plugin admits new runs. -/
def requireEnabledPlugin (t : Tables) (pluginId : String) (digest : Digest) : Result Unit := do
  let installation ← okOr (t.registry.installations.get? pluginId) .notFound
  require (installation.state ≠ .draining) (.precondition "PLUGIN_DRAINING")
  require (installation.state ≠ .revoked) (.precondition "PLUGIN_REVOKED")
  require (installation.state = .enabled ∧ installation.artifactDigest = digest)
    (.precondition "PLUGIN_NOT_ENABLED")

/-- The input of a run is a readable artifact that its workflow's schema accepts. -/
def checkRunInput (env : Env) (tick : Tick) (t : Tables) (actor : CommandActor)
    (inputSchema inputRef : ArtifactRef) : Result Unit := do
  let metadata ← artifactMetadata env t actor inputRef.artifactId.text
  require (metadata = inputRef) (.precondition "ARTIFACT_REFERENCE_MISMATCH")
  let schema ← loadArtifactRef env tick t actor inputSchema maxWorkflowSchemaBytes
  require (env.schemaCompiles schema = true) (.precondition "WORKFLOW_SCHEMA_INVALID")
  let input ← loadArtifactRef env tick t actor inputRef maxRunInputBytes
  require (env.schemaAccepts schema input = true) (.invalid "WORKFLOW_INPUT_INVALID")

/-- `INSERT INTO runs` with its unique and foreign keys. -/
def insertRun (t : Tables) (id : Uuid) (r : RunRow) : Result (Table Uuid RunRow) := do
  require (t.runs.any (fun _ r' => decide (r'.temporalWorkflowId = r.temporalWorkflowId)) = false)
    (databaseFailure .uniqueViolation)
  let runs ← sql (insertRow t.runs id r)
  require (t.delegations.contains r.grantId = true ∧
    t.registry.pluginVersions.contains (r.pluginId, r.pluginDigest) = true)
    (databaseFailure .foreignKeyViolation)
  return runs

def startRun (env : Env) (tick : Tick) (t : Tables) (actor : CommandActor)
    (workflowId workflowVersion : String) (inputRef : ArtifactRef) (grantId : String) :
    Result (Tables × Mutation) := do
  let principalId ← parseUuid actor.principalId.text
  require (inputRef.tenantId = actor.tenantId) .notFound
  let grantId ← parseUuid grantId
  let (pluginDigest, definition) ← okOr (workflowDefinition t workflowId workflowVersion) .notFound
  let inputSchema ← okOr definition.inputSchema (.unavailable "RUN_INTEGRITY")
  requireEnabledPlugin t definition.pluginId pluginDigest
  requireDispatchEnabled t (some definition.pluginId) none
  let grant ← requireActiveGrant tick t actor grantId (some "run.start") none
  checkRunInput env tick t actor inputSchema inputRef
  let id := tick.draw .run
  let row : RunRow :=
    { principalId, workflowId, workflowVersion, pluginId := definition.pluginId, pluginDigest
      grantId, grantFence := grant.fence, inputRef, state := .queued, fence := 1, version := .one
      temporalWorkflowId := id.toText, temporalRunId := none, dispatchState := .pending
      failureCode := none, createdAt := tick.startedAt, updatedAt := tick.startedAt }
  let runs ← insertRun t id row
  let input ← parseUuid inputRef.artifactId.text
  return ({ t with runs }, runMutation env t id row input true)

/-! ## Cancellation -/

/-- A running run is only asked to stop; a waiting one is cancelled unless a transmission of
it is unresolved. -/
def cancellationTarget (state : RunState) (unresolvedEffect : Bool) : Result RunState :=
  match state with
  | .running => .ok .cancelRequested
  | .queued | .waitingApproval | .waitingRetry | .blocked => do
    require (unresolvedEffect = false) (.precondition "EFFECT_RECONCILIATION_REQUIRED")
    return .cancelled
  | _ => .error (.conflict "ILLEGAL_TRANSITION")

/-- `cancellation_state`: the target, checked against the edges of the kernel. -/
def cancellationState (state : RunState) (unresolvedEffect : Bool) : Result RunState := do
  let next ← cancellationTarget state unresolvedEffect
  require (state.edge next = true) (.conflict "ILLEGAL_TRANSITION")
  return next

/-- An effect of the run is executing, unknown, reconciling or under review. -/
def unresolvedEffectOf (t : Tables) (runId : Uuid) : Bool :=
  t.effects.any fun _ e => decide (e.runId = runId) && e.state.unresolved

def cancelRun (env : Env) (tick : Tick) (t : Tables) (actor : CommandActor) (runId : String)
    (expectedVersion : Int) (reason : String) : Result (Tables × Mutation) := do
  let id ← parseUuid runId
  requireReason reason
  let r ← okOr (t.runs.get? id) .notFound
  let version ← requireExpectedVersion r.version expectedVersion
  let next ← cancellationState r.state (unresolvedEffectOf t id)
  require (r.fence < maxI64) (.precondition "FENCE_EXHAUSTED")
  let r' : RunRow :=
    { r with state := next, version, fence := r.fence + 1, dispatchState := .blocked
             updatedAt := tick.now }
  require (r.inputRef.tenantId = actor.tenantId) .notFound
  let input ← parseUuid r.inputRef.artifactId.text
  return ({ t with runs := t.runs.set id r' },
    runMutation env t id r' input (decide (next = .cancelRequested)))

/-! ## Execution -/

def markRunStarted (env : Env) (tick : Tick) (t : Tables) (id : Uuid) (temporalRunId : String)
    (fence : Int) : Result (Tables × Mutation) := do
  beginSystem t
  let r ← okOr (t.runs.get? id) .notFound
  require (r.fence = fence) (.conflict "STALE_FENCE")
  let version ← r.version.bump
  require (r.state = .queued ∧ r.dispatchState = .pending) (.conflict "ILLEGAL_TRANSITION")
  let r' : RunRow :=
    { r with state := .running, dispatchState := .started, temporalRunId := some temporalRunId
             version, updatedAt := tick.now }
  require (r.inputRef.tenantId = t.identity.tenantId.toId) .notFound
  let input ← parseUuid r.inputRef.artifactId.text
  return ({ t with runs := t.runs.set id r' }, runMutation env t id r' input false)

/-- The states in which a run executes. -/
def RunState.inProgress : RunState → Bool
  | .running | .waitingApproval | .waitingRetry => true
  | _ => false

def markRunCompleted (tick : Tick) (t : Tables) (id : Uuid) (fence : Int) : Result Tables := do
  beginSystem t
  let r ← okOr (t.runs.get? id) .notFound
  require (r.fence = fence) (.conflict "STALE_FENCE")
  require (r.state.inProgress = true) (.conflict "ILLEGAL_TRANSITION")
  let version ← r.version.bump
  let r' : RunRow := { r with state := .succeeded, version, updatedAt := tick.now }
  return { t with runs := t.runs.set id r' }

/-! ## Checkpoints -/

/-- The outcome of one step, as a worker reports it. -/
structure CheckpointWrite where
  logicalStepId : String
  state : String
  fence : Int
  outputRef : Option ArtifactRef
  failureCode : Option String

/-- Whether the checkpoint was written; one in state `SUCCEEDED` is never rewritten. -/
def recordRunCheckpoint (t : Tables) (id : Uuid) (record : CheckpointWrite) :
    Result (Tables × Bool) := do
  beginSystem t
  let r ← okOr (t.runs.get? id) .notFound
  require (r.fence = record.fence) (.conflict "STALE_FENCE")
  require (r.state.inProgress = true) (.conflict "ILLEGAL_TRANSITION")
  let state ← okOr (CheckpointState.ofText? record.state) (.invalid "CHECKPOINT_STATE_INVALID")
  let key := (id, record.logicalStepId)
  let row : CheckpointRow :=
    { fence := record.fence, state, outputRef := record.outputRef
      failureCode := record.failureCode }
  match t.checkpoints.get? key with
  | some old =>
    if old.state = .succeeded then return (t, false)
    else do
      require (0 < record.fence) (databaseFailure .checkViolation)
      return ({ t with checkpoints := t.checkpoints.set key row }, true)
  | none => do
    require (0 < record.fence) (databaseFailure .checkViolation)
    let checkpoints ← sql (insertRow t.checkpoints key row)
    return ({ t with checkpoints }, true)

/-- One checkpoint as a resuming worker reads it back; the fence is the run's current one. -/
structure DurableCheckpoint where
  logicalStepId : String
  state : CheckpointState
  failureCode : Option String
  fence : Int

/-- The checkpoints of a run in the order of their step ids. -/
def readRunCheckpoints (t : Tables) (id : Uuid) : Result (List DurableCheckpoint) := do
  beginSystem t
  let r ← okOr (t.runs.get? id) .notFound
  let rows := (t.checkpoints.select fun k _ => decide (k.1 = id)).map fun c =>
    { logicalStepId := c.1.2, state := c.2.state, failureCode := c.2.failureCode
      fence := r.fence : DurableCheckpoint }
  return rows.insertionSort fun a b => a.logicalStepId ≤ b.logicalStepId

/-! ## The relay -/

structure DispatchableRun where
  runId : Uuid
  workflowId : String
  workflowVersion : String
  pluginId : String
  pluginDigest : Digest
  grantId : Uuid
  grantFence : Int
  fence : Int
  temporalWorkflowId : String

/-- The grant of a run is still there, current and unchanged since the run was admitted. -/
def grantRefusal (tick : Tick) (t : Tables) (r : RunRow) : Option String :=
  match t.delegations.get? r.grantId with
  | none => some "GRANT_NOT_FOUND"
  | some d =>
    if d.current tick.now && decide (d.fence = r.grantFence) then none
    else some "GRANT_REVOKED_OR_EXPIRED"

/-- The first authority check that a queued run fails before it is started. -/
def dispatchRefusal (env : Env) (tick : Tick) (t : Tables) (r : RunRow) : Option String :=
  if stoppedBy t (some r.pluginId) none then some "KILL_SWITCH_ACTIVE"
  else if (t.registry.installations.get? r.pluginId).any (fun i =>
      decide (i.state = .enabled ∧ i.artifactDigest = r.pluginDigest)) = false then
    some "PLUGIN_NOT_ENABLED"
  else if (t.identity.memberships.get? r.principalId).any (fun m =>
      decide (m.status = .active)) = false then
    some "MEMBERSHIP_INACTIVE"
  else
    match readPolicyForPrincipal env t r.principalId with
    | .error _ => some "POLICY_REVOKED"
    | .ok requester =>
      if requester.permits env "run.start" "WorkflowDefinition"
          (r.pluginId ++ ":" ++ r.pluginDigest.toText)
          [("plugin_id", .str r.pluginId), ("digest", .str r.pluginDigest.toText)] = false then
        some "POLICY_REVOKED"
      else grantRefusal tick t r

/-- `fence_run_blocked`. -/
def fenceRunBlocked (tick : Tick) (t : Tables) (id : Uuid) (r : RunRow) (failureCode : String) :
    Result Tables := do
  let fence ← sql (bigint (r.fence + 1))
  let version ← r.version.bump
  let r' : RunRow :=
    { r with state := .blocked, dispatchState := .blocked, fence, failureCode := some failureCode
             version, updatedAt := tick.now }
  return { t with runs := t.runs.set id r' }

def dispatchableRun (id : Uuid) (r : RunRow) : DispatchableRun :=
  { runId := id, workflowId := r.workflowId, workflowVersion := r.workflowVersion
    pluginId := r.pluginId, pluginDigest := r.pluginDigest, grantId := r.grantId
    grantFence := r.grantFence, fence := r.fence, temporalWorkflowId := r.temporalWorkflowId }

/-- A queued run that passes all checks is handed out; one that fails a check is fenced. -/
def claimRun (env : Env) (tick : Tick) (t : Tables) (id : Uuid) (r : RunRow) :
    Result (Tables × Option DispatchableRun) :=
  match dispatchRefusal env tick t r with
  | some code => do
    let t' ← fenceRunBlocked tick t id r code
    return (t', none)
  | none => .ok (t, some (dispatchableRun id r))

def verifyAndClaimRun (env : Env) (tick : Tick) (t : Tables) (id : Uuid) :
    Result (Tables × Option DispatchableRun) := do
  beginSystem t
  match t.runs.get? id with
  | none => .ok (t, none)
  | some r =>
    if r.state = .queued ∧ r.dispatchState = .pending then claimRun env tick t id r
    else .ok (t, none)

/-! ## The outbox -/

def relayConsumer : String := "worker-relay"

/-- A pending start event that no other worker holds. -/
def OutboxRow.claimable (tick : Tick) (o : OutboxRow) : Bool :=
  decide (o.deliveryStatus = .pending ∧ o.availableAt ≤ tick.now ∧
    (∀ l ∈ o.leaseExpiresAt, l < tick.now) ∧ o.eventName = "run.start" ∧ o.aggregateType = "Run")

structure OutboxDispatchItem where
  eventId : Uuid
  eventName : String
  aggregateId : Uuid
  aggregateVersion : Int
  aggregateType : String

def dispatchItem (id : Uuid) (o : OutboxRow) : OutboxDispatchItem :=
  { eventId := id, eventName := o.eventName, aggregateId := o.aggregateId
    aggregateVersion := o.aggregateVersion, aggregateType := o.aggregateType }

/-- Claim one event: an event that was received before is only marked delivered. -/
def claimEvent (tick : Tick) (leaseSeconds : Int) (claimed : Journal × List OutboxDispatchItem)
    (event : Uuid × OutboxRow) : Result (Journal × List OutboxDispatchItem) :=
  let (j, items) := claimed
  if (relayConsumer, event.1) ∈ j.inbox then
    let o' : OutboxRow := { event.2 with deliveryStatus := .delivered, leaseExpiresAt := none }
    .ok ({ j with outbox := j.outbox.set event.1 o' }, items)
  else do
    let deliveryAttempts ← sql (integer (event.2.deliveryAttempts + 1))
    let o' : OutboxRow :=
      { event.2 with leaseExpiresAt := some (tick.now + leaseSeconds * 1000000)
                     deliveryAttempts }
    return ({ j with outbox := j.outbox.set event.1 o' },
      items ++ [dispatchItem event.1 event.2])

def claimPendingOutbox (tick : Tick) (t : Tables) (limit leaseSeconds : Int) :
    Result (Tables × List OutboxDispatchItem) := do
  beginSystem t
  require (0 ≤ limit) (.unavailable "DATA_ADAPTER_UNAVAILABLE")
  let events := (t.journal.outbox.select fun _ o => o.claimable tick).take limit.toNat
  let (journal, items) ← events.foldlM (claimEvent tick leaseSeconds) (t.journal, [])
  return ({ t with journal }, items)

def markOutboxDelivered (t : Tables) (eventId : Uuid) : Result Tables := do
  beginSystem t
  let inbox := if (relayConsumer, eventId) ∈ t.journal.inbox then t.journal.inbox
    else t.journal.inbox ++ [(relayConsumer, eventId)]
  let outbox := t.journal.outbox.updateWhere (fun k _ => decide (k = eventId))
    fun o => { o with deliveryStatus := .delivered, leaseExpiresAt := none }
  return { t with journal := { t.journal with inbox, outbox } }

/-- The pause before the next attempt, in seconds. -/
def backoffSeconds (attempts : Int) : Int := min (2 ^ (min attempts 6).toNat) 60

def markOutboxFailed (tick : Tick) (t : Tables) (eventId : Uuid) (maxAttempts : Int) :
    Result Tables := do
  beginSystem t
  let o ← sql (okOr (t.journal.outbox.get? eventId) .rowNotFound)
  let o' : OutboxRow :=
    if maxAttempts ≤ o.deliveryAttempts then
      { o with deliveryStatus := .deadLetter, leaseExpiresAt := none }
    else
      { o with leaseExpiresAt := none
               availableAt := tick.now + backoffSeconds o.deliveryAttempts * 1000000 }
  return { t with journal := { t.journal with outbox := t.journal.outbox.set eventId o' } }

end Masonwing
