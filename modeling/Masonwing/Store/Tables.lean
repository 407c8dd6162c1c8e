import Masonwing.Contracts.Manifests
import Masonwing.Store.Budget

/-!
# The rows of one tenant

The tables of `infra/migrations` that the run, effect, grant and budget operations read or
write, for one tenant: every statement of the store is scoped by `tenant_id`, so the rows of
another tenant are neither read nor written. They are grouped by who writes them, and an
operation that leaves a group alone leaves it equal.

Columns that only the database reads back for its own use (bookkeeping timestamps, sequence
numbers) are left out unless a projection shows them.
-/

namespace Masonwing

/-! ## Identity -/

inductive MembershipStatus where
  | invited
  | active
  | revoked
  deriving DecidableEq

def MembershipStatus.toText : MembershipStatus → String
  | .invited => "INVITED"
  | .active => "ACTIVE"
  | .revoked => "REVOKED"

/-- A row of `memberships`, under its principal, with its `membership_roles`. -/
structure MembershipRow where
  status : MembershipStatus
  role : String
  roles : List String
  membershipEpoch : Int
  permissionEpoch : Int
  membershipId : Uuid
  version : Version

structure Identity where
  tenantId : Uuid
  tenantActive : Bool
  memberships : Table Uuid MembershipRow
  policy : Option PolicyRow

/-! ## The journal -/

inductive ArtifactState where
  | pending
  | active
  | quarantined
  | tombstoned
  | purged
  deriving DecidableEq

structure ArtifactRow where
  digest : Digest
  schemaVersion : String
  classification : Classification
  contentType : String
  sizeBytes : Int
  storageKey : String
  state : ArtifactState
  legalHold : Bool
  creatorId : Uuid
  createdAt : Int
  version : Version

structure ProjectionKey where
  resourceType : String
  resourceId : String
  version : Int
  deriving DecidableEq

/-- A row of `resource_projections`. Its value is the JSON document that the artifact under
`artifactId` holds. -/
structure ProjectionRow where
  artifactId : Uuid
  value : Json
  label : String
  createdAt : Int
  updatedAt : Int

structure AuditRow where
  principalId : Uuid
  action : String
  resourceType : String
  resourceId : Uuid
  correlationId : Uuid

inductive DeliveryStatus where
  | pending
  | delivered
  | deadLetter
  deriving DecidableEq

structure OutboxRow where
  aggregateId : Uuid
  aggregateVersion : Int
  eventName : String
  artifactRefs : List ArtifactRef
  aggregateType : String
  principalId : Uuid
  correlationId : Uuid
  deliveryStatus : DeliveryStatus
  deliveryAttempts : Int
  availableAt : Int
  leaseExpiresAt : Option Int

/-- What is recorded about every change: artifacts, projections, audit and outbox. -/
structure Journal where
  artifacts : Table Uuid ArtifactRow
  lineage : List (Uuid × Uuid)
  tombstones : List (String × String)
  projections : Table ProjectionKey ProjectionRow
  audit : Table Uuid AuditRow
  outbox : Table Uuid OutboxRow
  inbox : List (String × Uuid)

/-! ## The registry -/

structure InstallationRow where
  id : Uuid
  state : InstallationState
  artifactDigest : Digest
  grantedCapabilities : List String
  revocationEpoch : Int
  version : Version

/-- A row of `plugin_revocations`. -/
structure RevocationRow where
  reason : String
  revokedBy : Uuid

/-- A workflow definition; `inputSchema` is `none` if its document does not read as one. -/
structure WorkflowDefinitionRow where
  pluginId : String
  inputSchema : Option ArtifactRef
  createdAt : Int

inductive KillSwitchScope where
  | tenant
  | plugin
  | connection
  deriving DecidableEq

def KillSwitchScope.ofText? : String → Option KillSwitchScope
  | "TENANT" => some .tenant
  | "PLUGIN" => some .plugin
  | "CONNECTION" => some .connection
  | _ => none

structure KillSwitchRow where
  id : Uuid
  active : Bool
  reason : String
  changedBy : Uuid
  version : Version

/-- Installed plugins, their builds with the manifest each was stored with, the builds that were
revoked, their workflow definitions (by workflow, version and plugin digest) and the kill switches
(by scope and target). -/
structure Registry where
  installations : Table String InstallationRow
  pluginVersions : Table (String × Digest) PluginManifest
  revocations : Table (String × Digest) RevocationRow
  workflowDefinitions : Table (String × String × Digest) WorkflowDefinitionRow
  killSwitches : Table (KillSwitchScope × String) KillSwitchRow

/-! ## Grants, connections, approvals -/

structure DelegationRow where
  principalId : String
  principalType : PrincipalKind
  issuer : String
  creatorId : Uuid
  actions : List String
  resources : List ResourceRef
  parentGrantId : Option Uuid
  expiresAt : Int
  state : DelegationState
  version : Version
  fence : Int

structure ConnectionRow where
  provider : String
  externalAccount : String
  scopes : List String
  secretRef : String
  state : ConnectionState
  contractVersion : String
  capabilities : List String
  verifiedAt : Option Int
  version : Version

inductive AuthorizationState where
  | pending
  | completed
  | expired
  | failed
  deriving DecidableEq

/-- A row of `connector_authorizations`. -/
structure ConnectorAuthorizationRow where
  principalId : Uuid
  connectionId : Uuid
  stateDigest : Digest
  authorizationUrl : String
  returnTo : String
  secretRef : String
  requestedScopes : List String
  state : AuthorizationState
  expiresAt : Int

/-- A row of `approvals`; its target is the resource reference of the approval contract. -/
structure ApprovalRow where
  runId : Uuid
  action : String
  target : ResourceRef
  contentDigest : Digest
  scopeDigest : Digest
  policyVersion : String
  maxCostMicrounits : Int
  currency : Currency
  expiresAt : Int
  createdBy : Uuid
  decidedBy : Option Uuid
  decidedIssuer : Option String
  decisionReason : Option String
  state : ApprovalState
  version : Version
  createdAt : Int
  updatedAt : Int

/-! ## Runs and effects -/

structure RunRow where
  principalId : Uuid
  workflowId : String
  workflowVersion : String
  pluginId : String
  pluginDigest : Digest
  grantId : Uuid
  grantFence : Int
  inputRef : ArtifactRef
  state : RunState
  fence : Int
  version : Version
  temporalWorkflowId : String
  temporalRunId : Option String
  dispatchState : DispatchState
  failureCode : Option String
  createdAt : Int
  updatedAt : Int

structure EffectRow where
  runId : Uuid
  grantId : Uuid
  connectionId : Uuid
  action : String
  target : ResourceRef
  contentRef : ArtifactRef
  fingerprint : Digest
  idempotencyKey : String
  approvalId : Option Uuid
  reservationId : Uuid
  state : EffectState
  transmitCount : Int
  dispatchFence : Int
  leaseExpiresAt : Option Int
  reconciliationQueued : Bool
  originalEffectId : Option Uuid
  version : Version
  createdAt : Int
  updatedAt : Int

structure EffectReceiptRow where
  effectId : Uuid
  remoteId : String
  evidenceRef : ArtifactRef
  observedAt : Int

inductive CheckpointState where
  | running
  | succeeded
  | failed
  | blocked
  | incomplete
  deriving DecidableEq

def CheckpointState.ofText? : String → Option CheckpointState
  | "RUNNING" => some .running
  | "SUCCEEDED" => some .succeeded
  | "FAILED" => some .failed
  | "BLOCKED" => some .blocked
  | "INCOMPLETE" => some .incomplete
  | _ => none

/-- A row of `run_checkpoints`, under the run and the logical step. -/
structure CheckpointRow where
  fence : Int
  state : CheckpointState
  outputRef : Option ArtifactRef
  failureCode : Option String

/-! ## Deletion -/

inductive RightsState where
  | active
  | revoked
  | expired
  deriving DecidableEq

inductive AccessMode where
  | firstParty
  | authorizedApi
  | licensed
  | permittedCrawl
  | manualImport
  deriving DecidableEq

/-- A row of `artifact_rights`, under its artifact. -/
structure RightsRow where
  accessMode : AccessMode
  allowAcquire : Bool
  allowAiAnalysis : Bool
  allowTransform : Bool
  allowPublicRedistribution : Bool
  allowedProviderProfiles : List String
  expiresAt : Option Int
  evidenceRef : Option Json
  state : RightsState
  version : Version

inductive DeletionState where
  | tombstoned
  | pendingExternal
  | purgePending
  | purged
  deriving DecidableEq

def DeletionState.toText : DeletionState → String
  | .tombstoned => "TOMBSTONED"
  | .pendingExternal => "PENDING_EXTERNAL"
  | .purgePending => "PURGE_PENDING"
  | .purged => "PURGED"

structure DeletionRequestRow where
  resourceType : String
  resourceId : String
  state : DeletionState
  affectedArtifactIds : List Uuid
  requestedBy : Uuid
  reason : String

/-! ## Uploads -/

/-- The states of an upload; `opened` is `OPEN`. -/
inductive UploadState where
  | opened
  | uploaded
  | finalized
  | expired
  | failed
  deriving DecidableEq

def UploadState.toText : UploadState → String
  | .opened => "OPEN"
  | .uploaded => "UPLOADED"
  | .finalized => "FINALIZED"
  | .expired => "EXPIRED"
  | .failed => "FAILED"

/-- A row of `uploads`. The lease names the attempt that may store bytes. -/
structure UploadRow where
  artifactId : Uuid
  principalId : Uuid
  expiresAt : Int
  state : UploadState
  observedDigest : Option Digest
  observedSizeBytes : Option Int
  leaseId : Option Uuid
  leaseExpiresAt : Option Int
  scanCode : Option String
  version : Version

/-! ## Providers and the catalogue -/

/-- A row of `provider_profiles`. -/
structure ProviderProfileRow where
  profileId : String
  version : Version

inductive ListingState where
  | pending
  | approved
  | rejected
  | revoked
  deriving DecidableEq

def ListingState.toText : ListingState → String
  | .pending => "PENDING"
  | .approved => "APPROVED"
  | .rejected => "REJECTED"
  | .revoked => "REVOKED"

/-- A row of `catalog_listings`. -/
structure CatalogListingRow where
  pluginId : String
  artifactDigest : String
  reviewedBy : Option Uuid
  evidenceRef : Option Json
  state : ListingState
  version : Version

/-! ## Cursors -/

/-- A row of `read_cursors`: whose listing it continues, the snapshot that the listing is read
from, and the last row that was looked at. -/
structure ReadCursorRow where
  principalId : Uuid
  membershipEpoch : Int
  permissionEpoch : Int
  policyVersion : String
  policyEpoch : Int
  resourceType : String
  queryDigest : Digest
  snapshotAt : Int
  snapshotSequence : Nat
  lastCreatedAt : Int
  lastResourceId : String
  pageLimit : Nat
  expiresAt : Int

/-! ## All of them -/

structure Tables where
  identity : Identity
  journal : Journal
  registry : Registry
  delegations : Table Uuid DelegationRow
  connections : Table Uuid ConnectionRow
  connectorAuthorizations : Table Uuid ConnectorAuthorizationRow
  approvals : Table Uuid ApprovalRow
  runs : Table Uuid RunRow
  budget : Budget
  effects : Table Uuid EffectRow
  effectReceipts : Table Uuid EffectReceiptRow
  checkpoints : Table (Uuid × String) CheckpointRow
  rights : Table Uuid RightsRow
  deletionRequests : Table Uuid DeletionRequestRow
  uploads : Table Uuid UploadRow
  providerProfiles : Table Uuid ProviderProfileRow
  catalogListings : Table Uuid CatalogListingRow
  readCursors : Table Uuid ReadCursorRow

/-- One row of `command_receipts`. -/
structure ReceiptKey where
  principalId : Uuid
  operation : String
  idempotencyKey : String
  deriving DecidableEq

structure ReceiptRow where
  fingerprint : Digest
  commandId : Uuid
  receipt : CommandReceipt
  expiresAt : Int

/-- The rows of one tenant, with the receipts of its commands kept apart: no handler reads or
writes them. -/
structure Store where
  tables : Tables
  receipts : Table ReceiptKey ReceiptRow

end Masonwing
