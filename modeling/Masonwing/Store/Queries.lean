import Mathlib.Data.Prod.Lex
import Mathlib.Data.String.Basic
import Masonwing.Lib.Like
import Masonwing.Lib.Paging
import Masonwing.Store.Transfer

/-!
# Reading

`queries.rs`: the pages of a collection at a snapshot, one projection, and the artifacts that a
member may read, with `verified_artifact_download` of `artifact_commands.rs`. Every read begins
with the same check of the actor as a command, and asks the policy about each row it shows.

A revision of a projection is its place among the rows of the table, which only grows.
-/

namespace Masonwing

open Outcome

/-! ## Resource types -/

/-- `EXTENSION_RESOURCE_TYPES`. -/
def extensionResourceTypes : List String :=
  ["ProductComposition", "PluginInstallation", "PluginInvocation", "Approval", "Notification",
    "BudgetSettings", "KillSwitch", "ProviderProfile", "SupportGrant", "CatalogListing", "Export",
    "ReleaseQualification", "ConformanceRun", "PolicyProposal", "Schedule", "DeletionRequest",
    "PolicyDecision", "MembershipInvitation", "IdentityConfigurationProposal"]

def requireReadable (kind : String) : Result Unit :=
  require ((baselineResourceTypes ++ extensionResourceTypes).contains kind = true) .notFound

/-- What the policy is told about a projection. -/
def projectionAttributes (version : Int) (classification : Classification) :
    List (String × Json) :=
  [("classification", .str classification.toText), ("version", .num version)]

/-! ## One projection -/

structure ResourceProjection where
  resource : ResourceRef
  artifactRef : ArtifactRef
  updatedAt : Int
  dataState : String

/-- The versions of a resource whose artifact is active. -/
def activeVersions (j : Journal) (kind id : String) :
    List (Int × Uuid × ProjectionRow × ArtifactRow) :=
  (j.projections.select fun k _ => decide (k.resourceType = kind ∧ k.resourceId = id)).filterMap
    fun p => ((j.artifacts.get? p.2.artifactId).filter fun a => decide (a.state = .active)).map
      fun a => (p.1.version, p.2.artifactId, p.2, a)

/-- The row that `read_projection` finds. -/
def readableVersion (j : Journal) (kind : String) (id : Uuid) :
    Option (Int × Uuid × ProjectionRow × ArtifactRow) :=
  if (kind, id.toText) ∈ j.tombstones then none
  else (activeVersions j kind id.toText).foldl newer none

/-- The row is found under the identifier that was parsed, the policy is asked about the text. -/
def readProjection (env : Env) (t : Tables) (actor : CommandActor) (kind id : String) :
    Result ResourceProjection := do
  requireReadable kind
  beginActor t actor
  let policy ← readPolicy env t actor
  let resourceId ← parseUuid id
  let (version, artifactId, p, a) ← okOr (readableVersion t.journal kind resourceId) .notFound
  require (policy.permits env "resource.read" kind id
    (projectionAttributes version a.classification) = true) .notFound
  return { resource := { resourceType := kind, resourceId := resourceId.toId, version }
           artifactRef := { artifactId := artifactId.toId, tenantId := actor.tenantId
                            digest := a.digest, schemaVersion := a.schemaVersion
                            classification := a.classification }
           updatedAt := p.updatedAt, dataState := "FRESH" }

/-! ## Artifacts -/

structure StoredArtifact where
  reference : ArtifactRef
  contentType : String
  sizeBytes : Int
  createdAt : Int
  state : ArtifactState

/-- `artifact_metadata_in`. -/
def artifactMetadataIn (env : Env) (t : Tables) (actor : CommandActor) (id : String) :
    Result StoredArtifact := do
  let reference ← artifactMetadata env t actor id
  let artifactId ← parseUuid id
  let a ← okOr (t.journal.artifacts.get? artifactId) .notFound
  return { reference, contentType := a.contentType, sizeBytes := a.sizeBytes
           createdAt := a.createdAt, state := a.state }

/-- `artifact_metadata`. -/
def readArtifactMetadata (env : Env) (t : Tables) (actor : CommandActor) (id : String) :
    Result StoredArtifact := do
  beginActor t actor
  artifactMetadataIn env t actor id

def artifactIntegrity : CommandFailure := .precondition "ARTIFACT_INTEGRITY"

structure PageQuery where
  cursor : Option String
  limit : Option Nat
  q : Option String

def PageQuery.checkedLimit (page : PageQuery) : Result Nat := do
  let limit := page.limit.getD 50
  require (1 ≤ limit ∧ limit ≤ 200) (.invalid "PAGE_LIMIT_INVALID")
  return limit

structure ReadCollection where
  items : List ResourceRef
  nextCursor : Option String
  snapshotAt : Int
  dataState : String
  totalVisible : Option Nat

def snapshotRequired : CommandFailure := { code := "SNAPSHOT_REQUIRED", kind := .expired }

/-- `(created_at, resource_id)`, in lexicographic order. -/
abbrev Position := Int ×ₗ String

structure Candidate where
  resourceId : String
  version : Int
  createdAt : Int
  classification : Classification

def Candidate.position (c : Candidate) : Position := toLex (c.createdAt, c.resourceId)

/-- The newest version of each resource of a type among the first revisions. -/
def latestRows (j : Journal) (kind : String) (snapshot : Nat) :
    List (ProjectionKey × ProjectionRow) :=
  let rows := (j.projections.rows.take snapshot).filter fun p => decide (p.1.resourceType = kind)
  rows.filter fun p => rows.all fun q =>
    decide (q.1.resourceId = p.1.resourceId → q.1.version ≤ p.1.version)

/-- `str::replace` of a character. -/
def replaceChar (text : List Char) (c : Char) (new : String) : List Char :=
  text.flatMap fun d => if d = c then new.toList else [d]

def escapeLike (value : List Char) : List Char :=
  replaceChar (replaceChar (replaceChar value '\\' "\\\\") '%' "\\%") '_' "\\_"

/-- The pattern of a search. -/
def searchPattern (query : String) : List Char := '%' :: (escapeLike query.toList ++ ['%'])

/-- `$6='' OR search_label ILIKE $6`. -/
def labelMatches (env : Env) (query label : String) : Bool :=
  query = "" || Like.Matches env.foldCase (searchPattern query) label.toList

/-- The artifact of a row, if it is active, and its resource neither deleted nor left out by the
query. -/
def candidateArtifact (env : Env) (j : Journal) (query : String)
    (p : ProjectionKey × ProjectionRow) : Option ArtifactRow :=
  (j.artifacts.get? p.2.artifactId).filter fun a =>
    decide (a.state = .active ∧ (p.1.resourceType, p.1.resourceId) ∉ j.tombstones ∧
      labelMatches env query p.2.label = true)

def candidateRows (env : Env) (j : Journal) (kind query : String) (snapshot : Nat) :
    List Candidate :=
  (latestRows j kind snapshot).filterMap fun p => (candidateArtifact env j query p).map fun a =>
    { resourceId := p.1.resourceId, version := p.1.version, createdAt := p.2.createdAt
      classification := a.classification }

def batchRows : Nat := 200

def scanRows : Nat := 2000

/-- The query of one batch; it asks for one row more than it looks at. -/
def candidateBatch (env : Env) (j : Journal) (kind query : String) (snapshot : Nat)
    (last : Option Position) : List Candidate :=
  (Paging.sortRows Candidate.position (Paging.rest Candidate.position
    (candidateRows env j kind query snapshot) last)).take (batchRows + 1)

def ReadPolicy.shows (env : Env) (policy : ReadPolicy) (kind : String) (c : Candidate) : Bool :=
  policy.permits env "resource.read" kind c.resourceId
    (projectionAttributes c.version c.classification)

/-- A candidate as an item, if the policy permits it. -/
def emitCandidate (env : Env) (policy : ReadPolicy) (kind : String) (c : Candidate) :
    Result (Option ResourceRef) :=
  if policy.shows env kind c then do
    let id ← parseUuid c.resourceId
    return some { resourceType := kind, resourceId := id.toId, version := c.version }
  else .ok none

/-- The cursor is of this actor under its present authority, of this query, and still alive. -/
def ReadCursorRow.usable (c : ReadCursorRow) (actor : CommandActor) (principal : Uuid)
    (kind : String) (queryDigest : Digest) (limit : Nat) (now : Int) : Bool :=
  decide (c.principalId = principal ∧ c.membershipEpoch = actor.membershipEpoch ∧
    c.permissionEpoch = actor.permissionEpoch ∧ c.policyVersion = actor.policyVersion ∧
    c.policyEpoch = actor.policyEpoch ∧ c.resourceType = kind ∧ c.queryDigest = queryDigest ∧
    c.pageLimit = limit ∧ now < c.expiresAt)

def cursorMicroseconds : Int := 900000000

/-- `str::trim`. -/
def trim (text : String) : String :=
  String.ofList ((text.toList.dropWhile whiteSpace).reverse.dropWhile whiteSpace).reverse

def dataStateOf (scanned : Nat) (further empty : Bool) : String :=
  if scanRows ≤ scanned ∧ further = true then "PARTIAL" else if empty then "NO_DATA" else "FRESH"

abbrev CandidateScan := Paging.Scan Position ResourceRef

/-- Where a page starts: at the cursor, or at a snapshot of its own. -/
def pageStart (t : Tables) (now : Int) (cursor : Option String) (usable : ReadCursorRow → Bool) :
    Result (Int × Nat × Option Position) :=
  match cursor with
  | some cursor => do
    let id ← okOr (Uuid.parse cursor) snapshotRequired
    let c ← okOr ((t.readCursors.get? id).filter usable) snapshotRequired
    return (c.snapshotAt, c.snapshotSequence, some (toLex (c.lastCreatedAt, c.lastResourceId)))
  | none => .ok (now, t.journal.projections.rows.length, none)

/-- A page, with the scan that has found it. -/
def readCollection (env : Env) (tick : Tick) (t : Tables) (actor : CommandActor) (kind : String)
    (page : PageQuery) : Result (Tables × ReadCollection × CandidateScan) := do
  requireReadable kind
  let limit ← page.checkedLimit
  let query := trim (page.q.getD "")
  require (query.utf8ByteSize ≤ 256) (.invalid "SEARCH_QUERY_INVALID")
  let bytes ← okOr (env.canonicalBytes (.obj [("q", .str query), ("type", .str kind),
    ("limit", .num limit)])) (.invalid "SEARCH_QUERY_INVALID")
  let queryDigest := env.digestBytes bytes
  beginActor t actor
  let policy ← readPolicy env t actor
  let principal ← parseUuid actor.principalId.text
  let (snapshotAt, snapshot, last) ← pageStart t tick.now page.cursor fun c =>
    c.usable actor principal kind queryDigest limit tick.now
  let scan ← Paging.scanPage Candidate.position (emitCandidate env policy kind)
    (candidateBatch env t.journal kind query snapshot) limit scanRows batchRows scanRows
    (.from last)
  let collection (nextCursor : Option String) : ReadCollection :=
    { items := scan.items, nextCursor, snapshotAt
      dataState := dataStateOf scan.scanned nextCursor.isSome scan.items.isEmpty
      totalVisible := none }
  if scan.more then do
    let position ← okOr scan.last (.unavailable "DATA_ADAPTER_UNAVAILABLE")
    let readCursors ← sql (insertRow t.readCursors (tick.draw .readCursor)
      { principalId := principal, membershipEpoch := actor.membershipEpoch
        permissionEpoch := actor.permissionEpoch, policyVersion := actor.policyVersion
        policyEpoch := actor.policyEpoch, resourceType := kind, queryDigest, snapshotAt
        snapshotSequence := snapshot, lastCreatedAt := (ofLex position).1
        lastResourceId := (ofLex position).2, pageLimit := limit
        expiresAt := snapshotAt + cursorMicroseconds })
    return ({ t with readCursors }, collection (some (tick.draw .readCursor).toText), scan)
  else return (t, collection none, scan)

/-! ## Turning the pages -/

/-- What a member asks for, page after page. -/
structure Browse where
  actor : CommandActor
  kind : String
  q : Option String
  limit : Option Nat

/-- The host beside a member who follows the cursors; after the last page nothing is asked. -/
structure BrowseState where
  host : HostState
  cursor : Option String
  finished : Bool
  pages : List (ReadCollection × CandidateScan)

inductive BrowseOperation (ι ε : Type) where
  | host (operation : HostOperation ι ε)
  | page

structure BrowseCall (ι ε : Type) where
  tick : Tick
  operation : BrowseOperation ι ε

variable {ι ν ε : Type}

def browseStep (h : Host ι ν ε) (b : Browse) (s : BrowseState) (c : BrowseCall ι ε) :
    BrowseState × Result Unit :=
  match c.operation with
  | .host operation => ({ s with host := (hostStep h s.host ⟨c.tick, operation⟩).1 }, .ok ())
  | .page =>
    if s.finished then (s, .ok ())
    else
      match readCollection h.env c.tick s.host.store.tables b.actor b.kind
          { cursor := s.cursor, limit := b.limit, q := b.q } with
      | .error failure => (s, .error failure)
      | .ok (tables, collection, scan) =>
        ({ host := { s.host with store := { s.host.store with tables } }
           cursor := collection.nextCursor
           finished := collection.nextCursor.isNone
           pages := s.pages ++ [(collection, scan)] }, .ok ())

end Masonwing
