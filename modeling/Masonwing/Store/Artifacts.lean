import Masonwing.Store.Authority

/-!
# Uploads

`artifact_commands.rs` before deletion: an artifact is begun as pending together with its upload, a
PUT stages its bytes in two transactions with the transfer between them, and `artifact.finalize`
makes it active. The first transaction takes a lease on the upload; the second one stores what
became of the transfer, provided that the lease is still held.
-/

namespace Masonwing

open Outcome

def maxArtifactBytes : Int := 1073741824

def uploadTtlMicroseconds : Int := 300000000

def uploadLeaseMicroseconds : Int := 40000000

/-- The types that `validate_declared_mime` accepts. -/
def declaredMimes : List String :=
  ["application/octet-stream", "application/json", "text/plain", "text/csv", "application/pdf",
    "image/png", "image/jpeg", "application/wasm"]

/-- `upload_json`. -/
def uploadValue (env : Env) (tenant upload artifact : Uuid) (size : Int) (digest : Digest)
    (contentType : String) (expires : Int) (state : UploadState) : Json :=
  .obj [("upload_id", .str upload.toText), ("tenant_id", .str tenant.toText),
    ("artifact_id", .str artifact.toText),
    ("upload_path", .str ("/v1/tenants/" ++ tenant.toText ++ "/uploads/" ++ upload.toText)),
    ("expected_size_bytes", .num size), ("expected_digest", .str digest.toText),
    ("content_type", .str contentType), ("expires_at", .str (env.timestamp expires)),
    ("state", .str state.toText)]

/-! ## Beginning -/

/-- The uploads that a principal may still send bytes for. -/
def openUploads (tick : Tick) (t : Tables) (principal : Uuid) : List (Uuid × UploadRow) :=
  t.uploads.select fun _ u => decide (u.principalId = principal ∧ u.state = .opened ∧
    tick.now < u.expiresAt)

/-- `INSERT INTO artifacts` with its checks and its unique keys. -/
def insertArtifact (artifacts : Table Uuid ArtifactRow) (id : Uuid) (a : ArtifactRow) :
    Except SqlError (Table Uuid ArtifactRow) := do
  require (1 ≤ a.sizeBytes ∧ a.sizeBytes ≤ maxArtifactBytes ∧ 1 ≤ a.contentType.length ∧
    a.contentType.length ≤ 128) .checkViolation
  require (artifacts.any (fun _ b => decide (b.storageKey = a.storageKey)) = false) .uniqueViolation
  insertRow artifacts id a

/-- `INSERT INTO uploads`; an artifact has one upload. -/
def insertUpload (uploads : Table Uuid UploadRow) (id : Uuid) (u : UploadRow) :
    Except SqlError (Table Uuid UploadRow) := do
  require (uploads.any (fun _ v => decide (v.artifactId = u.artifactId)) = false) .uniqueViolation
  insertRow uploads id u

def beginArtifact (env : Env) (tick : Tick) (t : Tables) (actor : CommandActor)
    (classification : Classification) (contentType : String) (size : Int) (digest : Digest) :
    Result (Tables × Mutation) := do
  let principal ← parseUuid actor.principalId.text
  require (declaredMimes.contains contentType = true) (.invalid "ARTIFACT_MIME_UNSUPPORTED")
  require ((openUploads tick t principal).length < 20)
    { code := "UPLOAD_QUEUE_FULL", kind := .exhausted }
  let artifact := tick.draw .uploadArtifact
  let upload := tick.draw .upload
  let expires := tick.now + uploadTtlMicroseconds
  let artifacts ← sql (insertArtifact t.journal.artifacts artifact
    { digest, schemaVersion := "1.0.0", classification, contentType, sizeBytes := size
      storageKey := "pending/" ++ t.identity.tenantId.toText ++ "/" ++ artifact.toText
      state := .pending, legalHold := false, creatorId := principal, createdAt := tick.startedAt
      version := .one })
  let uploads ← sql (insertUpload t.uploads upload
    { artifactId := artifact, principalId := principal, expiresAt := expires, state := .opened
      observedDigest := none, observedSizeBytes := none, leaseId := none, leaseExpiresAt := none
      scanCode := none, version := .one })
  return ({ t with journal := { t.journal with artifacts }, uploads },
    (Mutation.one "UploadSession" upload .one
      (uploadValue env t.identity.tenantId upload artifact size digest contentType expires .opened)
      "Pending file upload").withSourceArtifact artifact)

/-! ## Storing the bytes -/

/-- The upload of a principal with its artifact. -/
def ownUpload (t : Tables) (principal upload : Uuid) : Result (UploadRow × ArtifactRow) := do
  let u ← okOr ((t.uploads.get? upload).filter fun u => decide (u.principalId = principal))
    .notFound
  let a ← okOr (t.journal.artifacts.get? u.artifactId) .notFound
  return (u, a)

/-- What an attempt to store the bytes of an upload keeps of its first transaction. -/
structure UploadClaim where
  upload : Uuid
  artifact : Uuid
  lease : Uuid
  size : Int
  digest : Digest
  contentType : String
  deriving DecidableEq

def uploadExpired : CommandFailure := { code := "UPLOAD_EXPIRED", kind := .expired }

/-- The first transaction of `put_upload`. -/
def claimUpload (tick : Tick) (t : Tables) (actor : CommandActor) (uploadId : String)
    (contentLength : Option Int) : Result (Tables × UploadClaim) := do
  let upload ← parseUuid uploadId
  let principal ← parseUuid actor.principalId.text
  beginActor t actor
  let (u, a) ← ownUpload t principal upload
  require (tick.now < u.expiresAt) uploadExpired
  require (u.state = .opened ∧ a.state = .pending) (.conflict "IMMUTABLE_UPLOAD")
  require (∀ last ∈ u.leaseExpiresAt, last ≤ tick.now) (.conflict "UPLOAD_IN_PROGRESS")
  require ((1 ≤ a.sizeBytes ∧ a.sizeBytes ≤ maxArtifactBytes) ∧
    ∀ length ∈ contentLength, length = a.sizeBytes) (.invalid "ARTIFACT_SIZE_MISMATCH")
  let lease := tick.draw .lease
  let u' : UploadRow :=
    { u with leaseId := some lease, leaseExpiresAt := some (tick.now + uploadLeaseMicroseconds) }
  return ({ t with uploads := t.uploads.set upload u' },
    { upload, artifact := u.artifactId, lease, size := a.sizeBytes, digest := a.digest
      contentType := a.contentType })

/-- The failures of a transfer that put the artifact away. -/
def quarantineCodes : List String :=
  ["ARTIFACT_DIGEST_MISMATCH", "ARTIFACT_QUARANTINED", "ARTIFACT_MIME_MISMATCH",
    "ARTIFACT_POLYGLOT", "ARTIFACT_JSON_INVALID"]

/-- The object that the transfer of an attempt wrote. -/
def uploadKey (tenant : Uuid) (claim : UploadClaim) (digest : Digest) : String :=
  "uploads/" ++ tenant.toText ++ "/" ++ claim.artifact.toText ++ "/" ++ claim.lease.toText ++ "/" ++
    digest.hex

/-- `SET storage_key=$3 WHERE ... AND state='PENDING'`, with the unique key of the column. -/
def stageArtifact (artifacts : Table Uuid ArtifactRow) (id : Uuid) (key : String) :
    Except SqlError (Table Uuid ArtifactRow) :=
  match (artifacts.get? id).filter fun a => decide (a.state = .pending) with
  | none => .ok artifacts
  | some a => do
    require (artifacts.any (fun k b => decide (k ≠ id ∧ b.storageKey = key)) = false)
      .uniqueViolation
    return artifacts.set id { a with storageKey := key }

/-- `SET state='QUARANTINED',version=version+1`, whatever the state was. -/
def rejectArtifact (artifacts : Table Uuid ArtifactRow) (id : Uuid) :
    Except SqlError (Table Uuid ArtifactRow) :=
  match artifacts.get? id with
  | none => .ok artifacts
  | some a => do
    let version ← okOr a.version.next? .numericOutOfRange
    return artifacts.set id { a with state := .quarantined, version }

/-- What an attempt leaves of the artifacts and of its upload, and how it is answered: the bytes
arrived with the declared digest, or the transfer failed. -/
def settleAttempt (tick : Tick) (tenant : Uuid) (artifacts : Table Uuid ArtifactRow)
    (claim : UploadClaim) (u : UploadRow) :
    Result Digest → Except SqlError (Table Uuid ArtifactRow × UploadRow × Option CommandFailure)
  | .ok digest =>
    if u.expiresAt ≤ tick.now then
      .ok (artifacts, { u with state := .expired, scanCode := some "UPLOAD_EXPIRED" },
        some uploadExpired)
    else do
      let artifacts' ← stageArtifact artifacts claim.artifact (uploadKey tenant claim digest)
      return (artifacts',
        { u with state := .uploaded, scanCode := some "CLEAN", observedDigest := some digest
                 observedSizeBytes := some claim.size }, none)
  | .error failure =>
    if quarantineCodes.contains failure.code then do
      let artifacts' ← rejectArtifact artifacts claim.artifact
      return (artifacts', { u with state := .failed, scanCode := some failure.code }, some failure)
    else
      .ok (artifacts, { u with state := .opened, scanCode := some failure.code }, some failure)

/-- The second transaction of `put_upload`; it commits also when the attempt is answered with a
failure. The state of the artifact is not looked at again. -/
def completeUpload (env : Env) (tick : Tick) (t : Tables) (actor : CommandActor)
    (claim : UploadClaim) (outcome : Result Digest) : Result (Tables × Option CommandFailure) := do
  let principal ← parseUuid actor.principalId.text
  beginActor t actor
  let (u, _) ← ownUpload t principal claim.upload
  require (u.leaseId = some claim.lease ∧ u.state = .opened ∧
    u.leaseExpiresAt.any (fun last => decide (tick.now < last)) = true)
    (.conflict "UPLOAD_LEASE_STALE")
  let tenant := t.identity.tenantId
  let (artifacts, u', answer) ← sql (settleAttempt tick tenant t.journal.artifacts claim u outcome)
  let version ← okOr u.version.next? (.precondition "VERSION_EXHAUSTED")
  let uploads := t.uploads.set claim.upload
    { u' with leaseId := none, leaseExpiresAt := none, version }
  let change : ProjectionChange :=
    { resource := resourceRef "UploadSession" claim.upload version
      value := uploadValue env tenant claim.upload claim.artifact claim.size claim.digest
        claim.contentType u.expiresAt u'.state
      label := "File upload " ++ u'.state.toText
      sourceArtifacts := [claim.artifact] }
  let journal ← recordChange env tick actor "artifact.upload" 0 { t.journal with artifacts } change
  return ({ t with journal, uploads }, answer)

/-! ## Finalizing -/

/-- The rights that come with a manual upload. -/
def manualImport : RightsRow :=
  { accessMode := .manualImport, allowAcquire := true, allowAiAnalysis := false
    allowTransform := true, allowPublicRedistribution := false, allowedProviderProfiles := []
    expiresAt := none, evidenceRef := none, state := .active, version := .one }

def finalizeArtifact (env : Env) (t : Tables) (actor : CommandActor) (artifactId : String)
    (observed : Digest) : Result (Tables × Mutation) := do
  let id ← parseUuid artifactId
  let principal ← parseUuid actor.principalId.text
  let (upload, u) ← okOr (t.uploads.find? fun _ u =>
    decide (u.artifactId = id ∧ u.principalId = principal)) .notFound
  let a ← okOr (t.journal.artifacts.get? id) .notFound
  require (u.state = .uploaded ∧ a.state = .pending ∧ u.scanCode = some "CLEAN")
    (.precondition "ARTIFACT_NOT_VERIFIED")
  require (a.digest = observed ∧ u.observedDigest = some a.digest ∧
    u.observedSizeBytes = some a.sizeBytes) (.precondition "ARTIFACT_DIGEST_MISMATCH")
  let version ← okOr u.version.next? (.precondition "VERSION_EXHAUSTED")
  let artifactVersion ← a.version.bump
  let rights ← sql (insertRow t.rights id manualImport)
  return ({ t with
      journal := { t.journal with
        artifacts := t.journal.artifacts.set id
          { a with state := .active, version := artifactVersion } }
      uploads := t.uploads.set upload { u with state := .finalized, version }
      rights },
    (Mutation.one "UploadSession" upload version
      (uploadValue env t.identity.tenantId upload id a.sizeBytes a.digest a.contentType u.expiresAt
        .finalized) "Verified file upload").withSourceArtifact id)

end Masonwing
