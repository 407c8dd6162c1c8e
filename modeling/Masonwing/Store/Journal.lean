import Mathlib.Data.List.Dedup
import Masonwing.Store.Tables

/-!
# Recording a change

`write_projection` and the loop of `execute` around it: every change of a command becomes an
artifact with its lineage, a projection of the new version, an audit row and an outbox row.
Nothing else of the store is touched, which the types say: these functions work on a
`Journal`.
-/

namespace Masonwing

open Outcome

/-- `BASELINE_RESOURCE_TYPES`: projections that have to match their wire contract. -/
def baselineResourceTypes : List String :=
  ["Run", "Membership", "Delegation", "EffectIntent", "Connection", "CostReservation",
    "PluginManifest", "UploadSession", "ConnectorAuthorization"]

def Digest.hex (d : Digest) : String := String.ofList (hexDigits 64 d.bits.toNat)

def storageKey (actor : CommandActor) (id : Uuid) (digest : Digest) : String :=
  actor.tenantId.text ++ "/" ++ id.toText ++ "/" ++ digest.hex

/-- `persist_artifact`, for the change of the given index. -/
def persistArtifact (env : Env) (tick : Tick) (actor : CommandActor) (index : Nat) (j : Journal)
    (bytes : Bytes) (contentType : String) (classification : Classification) :
    Result (Journal × ArtifactRef) := do
  let id := tick.draw (.artifact index)
  let digest := env.digestBytes bytes
  let key := storageKey actor id digest
  require (1 ≤ bytes.length ∧ bytes.length ≤ 1073741824) (.invalid "PAYLOAD_TOO_LARGE")
  tick.put key
  let creatorId ← parseUuid actor.principalId.text
  require (j.artifacts.any (fun _ a => decide (a.storageKey = key)) = false)
    (databaseFailure .uniqueViolation)
  let artifacts ← sql (insertRow j.artifacts id
    { digest, schemaVersion := "1.0.0", classification, contentType
      sizeBytes := bytes.length, storageKey := key, state := .active
      legalHold := false, creatorId, createdAt := tick.startedAt, version := .one })
  return ({ j with artifacts },
    { artifactId := id.toId, tenantId := actor.tenantId, digest, schemaVersion := "1.0.0"
      classification })

/-- The artifact behind a reference found in a projection; another tenant's is not found. -/
def sourceId (actor : CommandActor) (source : ArtifactRef) : Result Uuid := do
  require (source.tenantId = actor.tenantId) .notFound
  parseUuid source.artifactId.text

/-- The stored classification of a source can only raise the one of the projection. -/
def raiseClassification (j : Journal) (c : Classification) (id : Uuid) : Result Classification := do
  let a ← okOr (j.artifacts.get? id) .notFound
  return c.max a.classification

/-- `INSERT INTO artifact_lineage ... ON CONFLICT DO NOTHING`. -/
def addLineage (derived : Uuid) (lineage : List (Uuid × Uuid)) (source : Uuid) :
    List (Uuid × Uuid) :=
  if (source, derived) ∈ lineage then lineage else lineage ++ [(source, derived)]

/-- The creation time of a resource: that of its oldest projection, or now. -/
def projectionCreatedAt (tick : Tick) (j : Journal) (r : ResourceRef) : Int :=
  let times := (j.projections.select fun k _ =>
    decide (k.resourceType = r.resourceType ∧ k.resourceId = r.resourceId.text)).map
      fun p => p.2.createdAt
  match times with
  | [] => tick.now
  | t :: ts => ts.foldl min t

def projectionKey (r : ResourceRef) : ProjectionKey :=
  { resourceType := r.resourceType, resourceId := r.resourceId.text, version := r.version }

def writeProjection (env : Env) (tick : Tick) (actor : CommandActor) (index : Nat) (j : Journal)
    (change : ProjectionChange) : Result (Journal × ArtifactRef) := do
  require (baselineResourceTypes.contains change.resource.resourceType = false ∨
    env.schemaValid change.resource.resourceType change.value = true)
    (.unavailable "PROJECTION_CONTRACT_INVALID")
  let bytes ← okOr (env.canonicalBytes change.value) (.invalid "PROJECTION_INVALID")
  let sources := projectionSources change.value
  let found ← sources.mapM (sourceId actor)
  let sourceIds := (change.sourceArtifacts ++ found).dedup
  let classification ← sourceIds.foldlM (raiseClassification j)
    ((sources.map fun s => s.classification).foldl .max .internal)
  let (j', reference) ← persistArtifact env tick actor index j bytes "application/json"
    classification
  let derived := tick.draw (.artifact index)
  require (0 < change.resource.version) (databaseFailure .checkViolation)
  let projections ← sql (insertRow j'.projections (projectionKey change.resource)
    { artifactId := derived, value := change.value
      label := String.ofList (change.label.toList.take 512)
      createdAt := projectionCreatedAt tick j change.resource
      updatedAt := tick.startedAt })
  return ({ j' with lineage := sourceIds.foldl (addLineage derived) j'.lineage, projections },
    reference)

/-- One turn of the loop in `execute`: the projection, its audit row and its outbox row. -/
def recordChange (env : Env) (tick : Tick) (actor : CommandActor) (operation : String)
    (index : Nat) (j : Journal) (change : ProjectionChange) : Result Journal := do
  let (j', artifact) ← writeProjection env tick actor index j change
  let principalId ← parseUuid actor.principalId.text
  let resourceId ← parseUuid change.resource.resourceId.text
  let correlationId := tick.draw .correlation
  let audit ← sql (insertRow j'.audit (tick.draw (.audit index))
    { principalId, action := operation, resourceType := change.resource.resourceType, resourceId
      correlationId })
  require (j'.outbox.any (fun _ o => decide (o.aggregateId = resourceId ∧
    o.aggregateVersion = change.resource.version ∧ o.eventName = operation)) = false)
    (databaseFailure .uniqueViolation)
  let outbox ← sql (insertRow j'.outbox (tick.draw (.outbox index))
    { aggregateId := resourceId, aggregateVersion := change.resource.version
      eventName := operation, artifactRefs := [artifact]
      aggregateType := change.resource.resourceType, principalId, correlationId
      deliveryStatus := .pending, deliveryAttempts := 0, availableAt := tick.startedAt
      leaseExpiresAt := none })
  return { j' with audit, outbox }

def recordChanges (env : Env) (tick : Tick) (actor : CommandActor) (operation : String) :
    Nat → Journal → List ProjectionChange → Result Journal
  | _, j, [] => .ok j
  | index, j, change :: changes => do
    let j' ← recordChange env tick actor operation index j change
    recordChanges env tick actor operation (index + 1) j' changes

/-! ## Reading it back -/

/-- The one of two versioned values with the higher version. -/
def newer {α : Type} (best : Option (Int × α)) (next : Int × α) : Option (Int × α) :=
  match best with
  | none => some next
  | some b => if b.1 < next.1 then some next else some b

/-- The newest projection of a resource, with the artifact that holds it, among those whose
artifact is active. -/
def currentProjection (j : Journal) (kind id : String) : Option (Int × ArtifactRow) :=
  ((j.projections.select fun k _ => decide (k.resourceType = kind ∧ k.resourceId = id)).filterMap
    fun p => ((j.artifacts.get? p.2.artifactId).filter fun a =>
      decide (a.state = .active)).map fun a => (p.1.version, a)).foldl newer none

/-- The newest projection row of a resource. -/
def latestProjection (j : Journal) (kind id : String) : Option (Int × ProjectionRow) :=
  ((j.projections.select fun k _ => decide (k.resourceType = kind ∧ k.resourceId = id)).map
    fun p => (p.1.version, p.2)).foldl newer none

end Masonwing
