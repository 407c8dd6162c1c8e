import Masonwing.Store.RunCommands

/-!
# Kill switches, connections and approvals

The rest of the handlers: `set_kill_switch` and `revoke_connection` of `administration.rs`
and `decide_approval` of `approval_commands.rs`, and `dispatch` of `commands.rs` that selects
the handler of a command.
-/

namespace Masonwing

open Outcome

/-! ## Kill switches -/

/-- The scope of a switch, whose target has to exist. -/
def killSwitchScope (t : Tables) (scope targetId : String) : Result KillSwitchScope :=
  match KillSwitchScope.ofText? scope with
  | some .tenant => do
    require (targetId = t.identity.tenantId.toText) .notFound
    return .tenant
  | some .plugin => do
    require ((t.registry.installations.get? targetId).any (fun i =>
      decide (i.state ≠ .uninstalled)) = true) .notFound
    return .plugin
  | some .connection => do
    let id ← parseUuid targetId
    require (t.connections.contains id = true) .notFound
    return .connection
  | none => .error .notFound

/-- `INSERT ... ON CONFLICT (scope, target_id) DO UPDATE`. -/
def upsertKillSwitch (switches : Table (KillSwitchScope × String) KillSwitchRow)
    (key : KillSwitchScope × String) (id : Uuid) (active : Bool) (reason : String)
    (changedBy : Uuid) :
    Except SqlError (Table (KillSwitchScope × String) KillSwitchRow × KillSwitchRow) :=
  match switches.get? key with
  | some s => do
    let version ← okOr s.version.next? .numericOutOfRange
    let s' : KillSwitchRow := { s with active, reason, changedBy, version }
    return (switches.set key s', s')
  | none => do
    require (switches.any (fun _ s => decide (s.id = id)) = false) .uniqueViolation
    let s : KillSwitchRow := { id, active, reason, changedBy, version := .one }
    let switches' ← insertRow switches key s
    return (switches', s)

def setKillSwitch (tick : Tick) (t : Tables) (actor : CommandActor) (scope targetId : String)
    (active : Bool) (reason : String) : Result (Tables × Mutation) := do
  let principal ← parseUuid actor.principalId.text
  requireReason reason
  let kind ← killSwitchScope t scope targetId
  let (killSwitches, s) ← sql (upsertKillSwitch t.registry.killSwitches (kind, targetId)
    (tick.draw .killSwitch) active reason principal)
  return ({ t with registry := { t.registry with killSwitches } },
    .one "KillSwitch" s.id s.version
      (.obj [("switch_id", .str s.id.toText), ("scope", .str scope), ("target_id", .str targetId),
        ("active", .bool active), ("reason", .str reason), ("version", .num s.version.val)]) scope)

/-! ## Connections -/

def connectionValue (env : Env) (tenant id : Uuid) (c : ConnectionRow) : Json :=
  .obj [("connection_id", .str id.toText), ("tenant_id", .str tenant.toText),
    ("provider", .str c.provider), ("external_account", .str c.externalAccount),
    ("scopes", .arr (c.scopes.map .str)), ("secret_ref", .str c.secretRef),
    ("state", .str "REVOKED"), ("contract_version", .str c.contractVersion),
    ("capabilities", .arr (c.capabilities.map .str)),
    ("verified_at", .ofOption (fun v => .str (env.timestamp v)) c.verifiedAt),
    ("version", .num c.version.val)]

/-- The version advances by two: the guard returns the next version and the handler adds one
more. -/
def revokeConnection (env : Env) (t : Tables) (connectionId : String) (expectedVersion : Int)
    (reason : String) : Result (Tables × Mutation) := do
  let id ← parseUuid connectionId
  requireReason reason
  let c ← okOr (t.connections.get? id) .notFound
  let guarded ← requireExpectedVersion c.version expectedVersion
  let version ← guarded.bump
  let c' : ConnectionRow := { c with state := .revoked, version }
  return ({ t with connections := t.connections.set id c' },
    .one "Connection" id version (connectionValue env t.identity.tenantId id c')
      ("Revoke " ++ id.toText))

/-! ## Approvals -/

def decisionState : String → Result ApprovalState
  | "APPROVE" => .ok .approved
  | "REJECT" => .ok .rejected
  | "CANCEL" => .ok .cancelled
  | _ => .error (.invalid "DECISION_INVALID")

/-- A proposal is decided once. -/
def nextApprovalState (state : ApprovalState) (decision : String) : Result ApprovalState :=
  match state with
  | .requested => decisionState decision
  | .approved | .rejected | .cancelled => .error (.conflict "DECISION_CONFLICT")
  | .expired => .error (.precondition "APPROVAL_EXPIRED")
  | .invalidated => .error (.precondition "APPROVAL_STALE")

def approvalValue (env : Env) (tenant id : Uuid) (a : ApprovalRow) (actor : CommandActor)
    (reason : String) : Json :=
  let decider : PrincipalRef := { kind := .user, id := actor.principalId, issuer := actor.issuer }
  .obj [("proposal_id", .str id.toText), ("tenant_id", .str tenant.toText),
    ("action", .str a.action), ("target", a.target.toJson),
    ("content_digest", .str a.contentDigest.toText), ("scope_digest", .str a.scopeDigest.toText),
    ("policy_version", .str a.policyVersion), ("expires_at", .str (env.timestamp a.expiresAt)),
    ("max_cost_microunits", .num a.maxCostMicrounits), ("currency", .str a.currency.text),
    ("state", .str a.state.toText), ("decided_by", decider.toJson),
    ("decision_reason", .str reason), ("version", .num a.version.val),
    ("created_at", .str (env.timestamp a.createdAt)),
    ("updated_at", .str (env.timestamp a.updatedAt)),
    ("approved_by", if a.state = .approved then decider.toJson else .null)]

def decideApproval (env : Env) (tick : Tick) (t : Tables) (actor : CommandActor)
    (proposalId decision : String) (expectedVersion : Int) (contentDigest reason : String) :
    Result (Tables × Mutation) := do
  let principal ← parseUuid actor.principalId.text
  let id ← parseUuid proposalId
  requireReason reason
  let a ← okOr (t.approvals.get? id) .notFound
  let next ← nextApprovalState a.state decision
  require (a.createdBy ≠ principal) (.denied "FOUR_EYES_REQUIRED")
  require (tick.now < a.expiresAt) (.precondition "APPROVAL_EXPIRED")
  require (a.contentDigest.toText = contentDigest) (.conflict "REVIEW_CONFLICT")
  let version ← requireExpectedVersion a.version expectedVersion
  let a' : ApprovalRow :=
    { a with state := next, decidedBy := some principal, decidedIssuer := some actor.issuer
             decisionReason := some reason, version, updatedAt := tick.now }
  return ({ t with approvals := t.approvals.set id a' },
    { Mutation.one "Approval" id version (approvalValue env t.identity.tenantId id a' actor reason)
        ("approval " ++ decision) with runId := some a.runId })

/-! ## Selecting the handler -/

def configureBudgetCommand (tick : Tick) (t : Tables) (currency period : String)
    (limit expectedVersion : Int) : Result (Tables × Mutation) := do
  let (budget, m) ← configureBudget tick t.identity.tenantId t.budget currency period limit
    expectedVersion
  return ({ t with budget }, m)

/-- `dispatch` of `commands.rs`. -/
def dispatchCommand (env : Env) (tick : Tick) (t : Tables) (command : Command CommandInput) :
    Result (Tables × Mutation) :=
  let actor := command.actor
  let key := command.idempotencyKey.text
  match command.input with
  | .runStart workflowId workflowVersion inputRef grantId =>
    startRun env tick t actor workflowId workflowVersion inputRef grantId
  | .runCancel runId expected reason => cancelRun env tick t actor runId expected reason
  | .approvalDecide proposalId decision expected contentDigest reason =>
    decideApproval env tick t actor proposalId decision expected contentDigest reason
  | .budgetConfigure currency period limit expected =>
    configureBudgetCommand tick t currency period limit expected
  | .effectPropose action connectionId target contentRef grantId priceProfile =>
    proposeEffect env tick t actor key action connectionId target contentRef grantId priceProfile
  | .effectDispatch effectId expected => dispatchEffect env tick t effectId expected
  | .effectReconcile effectId expected => reconcileEffect env tick t effectId expected
  | .effectCompensate effectId compensationRef approvalId =>
    compensateEffect env tick t key effectId compensationRef approvalId
  | .connectionRevoke connectionId expected reason =>
    revokeConnection env t connectionId expected reason
  | .grantCreate delegate actions resources expiresAt parentGrantId =>
    createGrant env tick t actor delegate actions resources expiresAt parentGrantId
  | .grantRevoke grantId expected reason => revokeGrant env t grantId expected reason
  | .killSwitchSet scope targetId active reason =>
    setKillSwitch tick t actor scope targetId active reason

end Masonwing
