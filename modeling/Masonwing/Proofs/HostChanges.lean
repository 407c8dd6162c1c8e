import Masonwing.Lib.Derivation
import Masonwing.Proofs.JournalSteps
import Masonwing.Store.Host

/-!
# What the commands of the host do

The handlers of `Store/Host.lean` read back, in the two respects that a later step depends on: what
a handler does to the stored artifacts before its changes are recorded (`JournalMove`, one case for
each way in which an artifact comes or changes), and the kind of resource that its changes show.
-/

namespace Masonwing

open Outcome

variable {ι ν ε : Type}

/-! ## Artifacts -/

/-- What an operation does to the stored artifacts, apart from recording its changes. -/
inductive ArtifactAct where
  | keep
  | begin
  | finalize (id : Uuid)
  | derive (input : Uuid)
  | stage (id : Uuid)
  | reject (id : Uuid)
  | contain (id : Uuid)
  | delete (id : Uuid)
  deriving DecidableEq

/-- An artifact that can be read: active and without a tombstone. -/
def Live (j : Journal) (id : Uuid) : Prop :=
  ∃ a, j.artifacts.get? id = some a ∧ a.state = .active ∧ ("Artifact", id.toText) ∉ j.tombstones

/-- The journal after an act. -/
inductive JournalMove (tick : Tick) (j : Journal) : ArtifactAct → Journal → Prop
  | kept {j' : Journal}
      (h : j' = { j with audit := j'.audit, outbox := j'.outbox, inbox := j'.inbox }) :
      JournalMove tick j .keep j'
  | begun {a : ArtifactRow} {artifacts : Table Uuid ArtifactRow}
      (hInsert : j.artifacts.insert? (tick.draw .uploadArtifact) a = some artifacts)
      (hPending : a.state = .pending) : JournalMove tick j .begin { j with artifacts }
  | finalized {id : Uuid} {a : ArtifactRow} {version : Version}
      (hFound : j.artifacts.get? id = some a) (hPending : a.state = .pending) :
      JournalMove tick j (.finalize id)
        { j with artifacts := j.artifacts.set id { a with state := .active, version } }
  | derived {input : Uuid} {a b : ArtifactRow} {artifacts : Table Uuid ArtifactRow}
      (hLive : Live j input) (hInput : j.artifacts.get? input = some b)
      (hInsert : j.artifacts.insert? (tick.draw .output) a = some artifacts)
      (hActive : a.state = .active) (hClassification : a.classification = b.classification) :
      JournalMove tick j (.derive input)
        { j with artifacts, lineage := j.lineage ++ [(input, tick.draw .output)] }
  | staged {id : Uuid} {a : ArtifactRow} {storageKey : String}
      (hFound : j.artifacts.get? id = some a) (hPending : a.state = .pending) :
      JournalMove tick j (.stage id)
        { j with artifacts := j.artifacts.set id { a with storageKey } }
  | rejected {id : Uuid} {a : ArtifactRow} {version : Version}
      (hFound : j.artifacts.get? id = some a) :
      JournalMove tick j (.reject id)
        { j with artifacts := j.artifacts.set id { a with state := .quarantined, version } }
  | contained {id : Uuid} {a : ArtifactRow} {version : Version} {j' : Journal}
      (hFound : j.artifacts.get? id = some a) (hActive : a.state = .active)
      (hArtifacts : j'.artifacts = j.artifacts.set id { a with state := .quarantined, version })
      (hOthers : j' = { j with
        artifacts := j'.artifacts, audit := j'.audit, outbox := j'.outbox }) :
      JournalMove tick j (.contain id) j'
  | deleted {id : Uuid} {j' : Journal} (h : Deleted j j' (affectedArtifacts j.lineage id)) :
      JournalMove tick j (.delete id) j'

theorem JournalMove.same (tick : Tick) (j : Journal) : JournalMove tick j .keep j := .kept rfl

theorem Contained.move (tick : Tick) {j j' : Journal} (h : Contained j j') :
    JournalMove tick j .keep j' ∨ ∃ id, JournalMove tick j (.contain id) j' := by
  rcases h.moved with hSame | ⟨id, a, version, hFound, hActive, hArtifacts⟩
  · refine Or.inl (.kept (h.others.trans ?_))
    rw [hSame, ← h.inbox]
  · exact Or.inr ⟨id, .contained hFound hActive hArtifacts h.others⟩

/-- The closure that a deletion computes is what is derived from its target. -/
theorem mem_affectedArtifacts {lineage : List (Uuid × Uuid)} {a b : Uuid} :
    b ∈ affectedArtifacts lineage a ↔ Derivation.Derives lineage a b := by
  have hRounds : ∀ n ids, deriveFrom lineage n ids = Derivation.rounds lineage n ids := by
    intro n
    induction n with
    | zero => exact fun _ => rfl
    | succ n ih => exact fun ids => ih _
  rw [affectedArtifacts, hRounds, List.mem_insertionSort]
  exact Derivation.mem_rounds_length

section Handlers

variable {env : Env} {tick : Tick} {t t' : Tables} {m : Mutation} {actor : CommandActor}

theorem beginArtifact_ok {classification : Classification} {contentType : String} {size : Int}
    {digest : Digest}
    (h : beginArtifact env tick t actor classification contentType size digest = .ok (t', m)) :
    ∃ a u artifacts uploads,
      t.journal.artifacts.insert? (tick.draw .uploadArtifact) a = some artifacts ∧
      a.state = .pending ∧ t.uploads.insert? (tick.draw .upload) u = some uploads ∧
      u.artifactId = tick.draw .uploadArtifact ∧
      t' = { t with journal := { t.journal with artifacts }, uploads } ∧
      m.Only "UploadSession" ∧ ∃ expires label, m.changes =
        [{ resource := resourceRef "UploadSession" (tick.draw .upload) .one
           value := uploadValue env t.identity.tenantId (tick.draw .upload)
            (tick.draw .uploadArtifact) size digest contentType expires .opened
           label, sourceArtifacts := [tick.draw .uploadArtifact] }] := by
  simp only [beginArtifact, bind_eq_ok, sql_eq_ok, insertArtifact, insertUpload, insertRow_eq_ok,
    pure_eq_ok, Prod.mk.injEq, exists_const] at h
  obtain ⟨principal, -, -, -, -, -, artifacts, ⟨_, -, _, -, hArtifacts⟩, uploads, ⟨_, -, hUploads⟩,
    rfl, rfl⟩ := h
  refine ⟨_, _, artifacts, uploads, hArtifacts, rfl, hUploads, rfl, rfl, ?_, _, _, rfl⟩
  intro c hc
  rw [Mutation.withSourceArtifact, Mutation.one, List.map_singleton, List.mem_singleton] at hc
  rw [hc]
  rfl

theorem Mutation.withSourceArtifact_only {kind : String} (h : m.Only kind) (id : Uuid) :
    (m.withSourceArtifact id).Only kind := by
  intro c hc
  obtain ⟨d, hd, rfl⟩ := List.mem_map.mp hc
  exact h d hd

theorem finalizeArtifact_ok {artifactId : String} {observed : Digest}
    (h : finalizeArtifact env t actor artifactId observed = .ok (t', m)) :
    ∃ id upload u a version uploadVersion rights, Uuid.parse artifactId = some id ∧
      t.uploads.get? upload = some u ∧ u.artifactId = id ∧
      t.journal.artifacts.get? id = some a ∧ a.state = .pending ∧
      t' = { t with
        journal := { t.journal with
          artifacts := t.journal.artifacts.set id { a with state := .active, version } }
        uploads := t.uploads.set upload { u with state := .finalized, version := uploadVersion }
        rights } ∧
      m.Only "UploadSession" ∧ ∃ label, m.changes =
        [{ resource := resourceRef "UploadSession" upload uploadVersion
           value := uploadValue env t.identity.tenantId upload id a.sizeBytes a.digest a.contentType
            u.expiresAt .finalized
           label, sourceArtifacts := [id] }] := by
  simp only [finalizeArtifact, bind_eq_ok, sql_eq_ok, insertRow_eq_ok, okOr_eq_ok, parseUuid_eq_ok,
    require_eq_ok, pure_eq_ok, Prod.exists, Prod.mk.injEq, exists_const] at h
  obtain ⟨id, hId, principal, -, upload, u, hUpload, a, hFound, ⟨-, hPending, -⟩, -, uploadVersion,
    -, version, -, rights, -, rfl, rfl⟩ := h
  obtain ⟨hGet, hOwn⟩ := Table.find?_some hUpload
  refine ⟨id, upload, u, a, version, uploadVersion, rights, hId, hGet, (of_decide_eq_true hOwn).1,
    hFound, hPending, rfl, ?_, _, rfl⟩
  exact Mutation.withSourceArtifact_only (Mutation.one_only _ _ _ _ _) id

theorem claimUpload_ok {uploadId : String} {length : Option Int} {claim : UploadClaim}
    (h : claimUpload tick t actor uploadId length = .ok (t', claim)) :
    ∃ u u' a, t.uploads.get? claim.upload = some u ∧ u.artifactId = claim.artifact ∧
      u'.artifactId = u.artifactId ∧ t.journal.artifacts.get? claim.artifact = some a ∧
      a.state = .pending ∧ t' = { t with uploads := t.uploads.set claim.upload u' } := by
  simp only [claimUpload, ownUpload, bind_eq_ok, okOr_eq_ok, require_eq_ok, pure_eq_ok, Prod.exists,
    Prod.mk.injEq, exists_const] at h
  obtain ⟨upload, -, principal, -, _, -, _, _, ⟨u, hUpload, a, hFound, rfl, rfl⟩, -, ⟨-, hPending⟩,
    -, -, rfl, rfl⟩ := h
  obtain ⟨hGet, -⟩ := Option.filter_eq_some_iff.mp hUpload
  exact ⟨u, { u with
    leaseId := some (tick.draw .lease), leaseExpiresAt := some (tick.now + uploadLeaseMicroseconds) },
    a, hGet, rfl, rfl, hFound, hPending, rfl⟩

/-- What an attempt may do to its artifact, by the outcome of its transfer. -/
def UploadClaim.acts (artifacts : Table Uuid ArtifactRow) (claim : UploadClaim) :
    Result Digest → ArtifactAct → Prop
  | .ok _, .keep => True
  | .ok _, .stage id => id = claim.artifact
  | .error failure, .keep =>
    quarantineCodes.contains failure.code = true → artifacts.get? claim.artifact = none
  | .error failure, .reject id =>
    id = claim.artifact ∧ quarantineCodes.contains failure.code = true
  | _, _ => False

theorem settleAttempt_move {tenant : Uuid} {claim : UploadClaim} {u u' : UploadRow}
    {outcome : Result Digest} {artifacts : Table Uuid ArtifactRow} {answer : Option CommandFailure}
    {j : Journal} (h : settleAttempt tick tenant j.artifacts claim u outcome =
      .ok (artifacts, u', answer)) :
    u'.artifactId = u.artifactId ∧
      ∃ act, claim.acts j.artifacts outcome act ∧ JournalMove tick j act { j with artifacts } := by
  cases outcome with
  | ok digest =>
    rw [settleAttempt] at h
    split at h
    · cases h
      exact ⟨rfl, .keep, trivial, .kept rfl⟩
    · simp only [bind_eq_ok, pure_eq_ok, Prod.mk.injEq] at h
      obtain ⟨staged, hStage, rfl, rfl, -⟩ := h
      unfold stageArtifact at hStage
      split at hStage
      · cases hStage
        exact ⟨rfl, .keep, trivial, .kept rfl⟩
      · rename_i a hFound
        obtain ⟨hGet, hPending⟩ := Option.filter_eq_some_iff.mp hFound
        simp only [bind_eq_ok, pure_eq_ok] at hStage
        obtain ⟨_, -, rfl⟩ := hStage
        exact ⟨rfl, .stage claim.artifact, rfl, .staged hGet (of_decide_eq_true hPending)⟩
  | error failure =>
    rw [settleAttempt] at h
    split at h
    · rename_i hCode
      simp only [bind_eq_ok, pure_eq_ok, Prod.mk.injEq] at h
      obtain ⟨rejected, hReject, rfl, rfl, -⟩ := h
      unfold rejectArtifact at hReject
      split at hReject
      · rename_i hNone
        cases hReject
        exact ⟨rfl, .keep, fun _ => hNone, .kept rfl⟩
      · rename_i a hFound
        simp only [bind_eq_ok, pure_eq_ok] at hReject
        obtain ⟨version, -, rfl⟩ := hReject
        exact ⟨rfl, .reject claim.artifact, ⟨rfl, hCode⟩, .rejected hFound⟩
    · rename_i hCode
      cases h
      exact ⟨rfl, .keep, fun hQuarantined => absurd hQuarantined hCode, .kept rfl⟩

theorem completeUpload_ok {claim : UploadClaim} {outcome : Result Digest}
    {answer : Option CommandFailure}
    (h : completeUpload env tick t actor claim outcome = .ok (t', answer)) :
    ∃ u u' act j j' tenant expires state label version, t.uploads.get? claim.upload = some u ∧
      u'.artifactId = u.artifactId ∧ claim.acts t.journal.artifacts outcome act ∧
      JournalMove tick t.journal act j ∧
      recordChanges env tick actor "artifact.upload" 0 j
        [{ resource := resourceRef "UploadSession" claim.upload version
           value := uploadValue env tenant claim.upload claim.artifact claim.size claim.digest
            claim.contentType expires state
           label, sourceArtifacts := [claim.artifact] }] = .ok j' ∧
      t' = { t with journal := j', uploads := t.uploads.set claim.upload u' } := by
  simp only [completeUpload, ownUpload, bind_eq_ok, okOr_eq_ok, sql_eq_ok, pure_eq_ok, Prod.exists,
    Prod.mk.injEq, exists_const] at h
  obtain ⟨principal, -, _, -, _, _, ⟨u, hUpload, a, hFound, rfl, rfl⟩, _, -, artifacts, u', answer',
    hSettle, version, -, j', hRecord, rfl, rfl⟩ := h
  obtain ⟨hGet, -⟩ := Option.filter_eq_some_iff.mp hUpload
  obtain ⟨hArtifact, act, hActs, hMove⟩ := settleAttempt_move hSettle
  refine ⟨u, { u' with leaseId := none, leaseExpiresAt := none, version }, act,
    { t.journal with artifacts }, j', t.identity.tenantId, u.expiresAt, u'.state,
    "File upload " ++ u'.state.toText, version, hGet, hArtifact, hActs, hMove, ?_, rfl⟩
  rw [recordChanges, hRecord]
  rfl

theorem artifactMetadata_ok {id : String} {reference : ArtifactRef}
    (h : artifactMetadata env t actor id = .ok reference) :
    ∃ artifactId a, Uuid.parse id = some artifactId ∧ Live t.journal artifactId ∧
      t.journal.artifacts.get? artifactId = some a ∧ reference.artifactId = artifactId.toId ∧
      reference.classification = a.classification := by
  simp only [artifactMetadata, bind_eq_ok, okOr_eq_ok, parseUuid_eq_ok, require_eq_ok, pure_eq_ok,
    exists_const] at h
  obtain ⟨artifactId, hId, a, hFound, ⟨hActive, hTombstone⟩, policy, -, -, rfl⟩ := h
  exact ⟨artifactId, a, hId, ⟨a, hFound, hActive, hTombstone⟩, hFound, rfl, rfl⟩

theorem storeOutput_ok {invocation : InvocationEnv} {v : Invocation} {inputRef : ArtifactRef}
    {answer : Bytes} (h : storeOutput env invocation tick t actor v inputRef answer = .ok (t', m)) :
    ∃ a artifacts rights outputRef,
      t.journal.artifacts.insert? (tick.draw .output) a = some artifacts ∧ a.state = .active ∧
      a.classification = inputRef.classification ∧
      t' = { t with
        journal := { t.journal with
          artifacts, lineage := t.journal.lineage ++ [(v.input, tick.draw .output)] }
        rights } ∧
      m = .one "PluginInvocation" v.request.invocationId .one (invocationValue v inputRef outputRef)
        (v.pluginId ++ " " ++ v.handler.id) ∧
      outputRef.artifactId = (tick.draw .output).toId := by
  simp only [storeOutput, persistArtifact, requireTransform, bind_eq_ok, require_eq_ok, sql_eq_ok,
    insertRow_eq_ok, pure_eq_ok, parseUuid_eq_ok, Prod.exists, Prod.mk.injEq, exists_const] at h
  obtain ⟨-, -, -, -, bytes, -, _, outputRef, ⟨-, -, -, creator, -, -, artifacts, hInsert, rfl,
    rfl⟩, output, hOutput, -, rights, -, rfl, rfl⟩ := h
  rw [Uuid.toId_text, Uuid.parse_toText] at hOutput
  cases hOutput
  exact ⟨_, artifacts, rights, _, hInsert, rfl, rfl, rfl, rfl, rfl⟩

/-- The output is derived from the input, which can be read, and classified as it is. -/
theorem invokePlugin_ok {packages : PluginEnv ν} {invocation : InvocationEnv}
    {pluginId handlerId grantId : String} {inputRef : ArtifactRef}
    (h : invokePlugin env packages invocation tick t actor pluginId handlerId inputRef grantId =
      .ok (t', m)) :
    ∃ input j rights, Uuid.parse inputRef.artifactId.text = some input ∧
      JournalMove tick t.journal (.derive input) j ∧ t' = { t with journal := j, rights } ∧
      m.Only "PluginInvocation" ∧ ∃ v outputRef, outputRef.artifactId = (tick.draw .output).toId ∧
        m = .one "PluginInvocation" v.request.invocationId .one
          (invocationValue v inputRef outputRef) (v.pluginId ++ " " ++ v.handler.id) := by
  simp only [invokePlugin, bind_eq_ok] at h
  obtain ⟨runtime, -, v, hAdmit, answer, -, hStore⟩ := h
  obtain ⟨a, artifacts, rights, outputRef, hInsert, hActive, hClassification, rfl, rfl, hOutput⟩ :=
    storeOutput_ok hStore
  simp only [admitInvocation, invocationInput, bind_eq_ok, okOr_eq_ok, parseUuid_eq_ok,
    require_eq_ok, requireDispatchEnabled, sql_eq_ok, pure_eq_ok, Prod.exists, exists_const] at hAdmit
  obtain ⟨i, -, _, -, digest, manifest, -, handler, -, -, -, grantUuid, -, grant, -, input,
    ⟨-, metadata, hMetadata, hSame, id, hId, b, hFound, -, rfl⟩, _, -, policy, -, effective, -, -,
    _, -, packageRef, -, artifactBytes, -, inputSchema, -, outputSchema, -, bytes, -, -, inputBytes,
    -, rfl⟩ := hAdmit
  obtain ⟨artifactId, c, hText, hLive, hGet, -, hRead⟩ := artifactMetadata_ok hMetadata
  cases hId.symm.trans hText
  cases hFound.symm.trans hGet
  refine ⟨id, _, rights, hId, .derived hLive hFound hInsert hActive ?_, rfl,
    Mutation.one_only _ _ _ _ _, _, outputRef, hOutput, rfl⟩
  rw [hClassification, ← hSame, hRead]

/-! ## The other handlers -/

theorem configureProvider_ok {profile : Json} {qualification : Option Json}
    (h : configureProvider tick t profile qualification = .ok (t', m)) :
    ∃ profileId providerProfiles, t' = { t with providerProfiles } ∧
      m = .one "ProviderProfile" (tick.draw .providerProfile) .one profile profileId := by
  simp only [configureProvider, bind_eq_ok, sql_eq_ok, insertRow_eq_ok, pure_eq_ok,
    Prod.mk.injEq] at h
  obtain ⟨-, -, -, -, profileId, -, -, -, providerProfiles, -, rfl, rfl⟩ := h
  exact ⟨profileId, providerProfiles, rfl, rfl⟩

theorem compactProvider_ok {conversationId profileId : String} {expected : Int}
    (h : compactProvider t conversationId profileId expected = .ok (t', m)) :
    ∃ id p version next value label, t.providerProfiles.get? id = some p ∧
      p.profileId = profileId ∧ requireExpectedVersion p.version expected = .ok version ∧
      version.bump = .ok next ∧
      t' = { t with providerProfiles := t.providerProfiles.set id { p with version } } ∧
      m = .one "ProviderCompact" id next value label := by
  simp only [compactProvider, bind_eq_ok, okOr_eq_ok, pure_eq_ok, Prod.exists, Prod.mk.injEq] at h
  obtain ⟨id, p, hFound, version, hVersion, next, hNext, rfl, rfl⟩ := h
  obtain ⟨hGet, hProfile⟩ := Table.find?_some hFound
  exact ⟨id, p, version, next, _, _, hGet, of_decide_eq_true hProfile, hVersion, hNext, rfl, rfl⟩

theorem authorizeConnection_ok {provider returnTo : String} {scopes : List String}
    (h : authorizeConnection env tick t actor provider scopes returnTo = .ok (t', m)) :
    ∃ connectorAuthorizations, t' = { t with
        connections := seedConnection t.connections (tick.draw .connection) provider scopes
        connectorAuthorizations } ∧ m.Only "ConnectorAuthorization" := by
  simp only [authorizeConnection, bind_eq_ok, sql_eq_ok, insertRow_eq_ok, pure_eq_ok,
    Prod.mk.injEq] at h
  obtain ⟨principal, -, -, -, authorizations, -, rfl, rfl⟩ := h
  exact ⟨authorizations, rfl, Mutation.one_only _ _ _ _ _⟩

theorem replayDeadletter_ok {eventId reason : String}
    (h : replayDeadletter t eventId reason = .ok (t', m)) :
    ∃ id o, Uuid.parse eventId = some id ∧ t.journal.outbox.get? id = some o ∧
      o.deliveryStatus = .deadLetter ∧
      t' = { t with
        journal := { t.journal with
          outbox := t.journal.outbox.set id
            { o with deliveryStatus := .pending, leaseExpiresAt := none } } } ∧
      m = .one "DeadletterReplay" id .one
        (.obj [("event_id", .str id.toText), ("reason", .str reason), ("version", .num 1)])
        ("Replay " ++ id.toText) := by
  simp only [replayDeadletter, bind_eq_ok, okOr_eq_ok, parseUuid_eq_ok, pure_eq_ok,
    Prod.mk.injEq] at h
  obtain ⟨id, hId, o, hFound, rfl, rfl⟩ := h
  obtain ⟨hGet, hDead⟩ := Option.filter_eq_some_iff.mp hFound
  exact ⟨id, o, hId, hGet, of_decide_eq_true hDead, rfl, rfl⟩

theorem submitCatalog_ok {manifest : Json} {supportContact description : String}
    (h : submitCatalog tick t actor manifest supportContact description = .ok (t', m)) :
    ∃ catalogListings, t' = { t with catalogListings } ∧ m.Only "CatalogListing" := by
  simp only [submitCatalog, bind_eq_ok, okOr_eq_ok, sql_eq_ok, insertRow_eq_ok, pure_eq_ok,
    Prod.mk.injEq] at h
  obtain ⟨publisher, -, plugin, -, digest, -, -, -, -, -, listings, -, rfl, rfl⟩ := h
  exact ⟨listings, rfl, Mutation.one_only _ _ _ _ _⟩

theorem reviewCatalog_ok {listingId decision : String} {evidenceRef : Json} {expected : Int}
    (h : reviewCatalog t actor listingId decision evidenceRef expected = .ok (t', m)) :
    ∃ id l l' guarded version value label, Uuid.parse listingId = some id ∧
      t.catalogListings.get? id = some l ∧
      requireExpectedVersion l.version expected = .ok guarded ∧ guarded.bump = .ok version ∧
      l'.version = version ∧
      t' = { t with catalogListings := t.catalogListings.set id l' } ∧
      m = .one "CatalogListing" id version value label := by
  simp only [reviewCatalog, bind_eq_ok, okOr_eq_ok, parseUuid_eq_ok, pure_eq_ok,
    Prod.mk.injEq] at h
  obtain ⟨id, hId, l, hFound, guarded, hGuarded, state, -, version, hVersion, reviewer, -, rfl,
    rfl⟩ := h
  exact ⟨id, l, _, guarded, version, _, _, hId, hFound, hGuarded, hVersion, rfl, rfl, rfl⟩

/-- A membership that was stored in a new version, with what is shown of it. -/
structure MembershipWritten (t t' : Tables) (m : Mutation) (principal : Uuid)
    (row row' : MembershipRow) (next : Version) : Prop where
  version : row'.version = next
  membershipId : row'.membershipId = row.membershipId
  tables : t' = { t with
    identity := { t.identity with memberships := t.identity.memberships.set principal row' } }
  shown : ∃ value label, m = .one "Membership" row.membershipId next value label

theorem writeMembership_ok {principal : Uuid} {row : MembershipRow} {label : String}
    (h : writeMembership t principal row label = .ok (t', m)) :
    ∃ row', MembershipWritten t t' m principal row row' row.version := by
  simp only [writeMembership, bind_eq_ok, pure_eq_ok, Prod.mk.injEq] at h
  obtain ⟨epoch, -, permissions, -, rfl, rfl⟩ := h
  exact ⟨{ row with membershipEpoch := epoch, permissionEpoch := permissions }, rfl, rfl, rfl, _, _,
    rfl⟩

/-- What `membership.change` and `membership.revoke` do to a row. -/
def MembershipChanged (t t' : Tables) (m : Mutation) (membershipId : String) (expected : Int) :
    Prop :=
  ∃ id principal row row' version, Uuid.parse membershipId = some id ∧
    membershipOf t id = some (principal, row) ∧
    requireExpectedVersion row.version expected = .ok version ∧
    MembershipWritten t t' m principal row row' version

theorem changeMembership_ok {membershipId : String} {expected : Int} {roles : List String}
    (h : changeMembership t actor membershipId expected roles = .ok (t', m)) :
    MembershipChanged t t' m membershipId expected := by
  simp only [changeMembership, bind_eq_ok, okOr_eq_ok, parseUuid_eq_ok, Prod.exists] at h
  obtain ⟨id, hId, distinct, -, _, -, principal, row, hFound, _, -, version, hVersion, _, -, h⟩ := h
  have hWrite : ∃ role, writeMembership t principal { row with role, roles := distinct, version }
      "Membership" = .ok (t', m) := by
    split at h
    · simp only [bind_eq_ok] at h
      obtain ⟨_, -, role, -, h⟩ := h
      exact ⟨role, h⟩
    · simp only [bind_eq_ok] at h
      obtain ⟨role, -, h⟩ := h
      exact ⟨role, h⟩
  obtain ⟨role, hWrite⟩ := hWrite
  obtain ⟨row', hWritten⟩ := writeMembership_ok hWrite
  exact ⟨id, principal, row, row', version, hId, hFound, hVersion, hWritten.version,
    hWritten.membershipId, hWritten.tables, hWritten.shown⟩

theorem revokeMembership_ok {membershipId : String} {expected : Int}
    (h : revokeMembership t actor membershipId expected = .ok (t', m)) :
    MembershipChanged t t' m membershipId expected := by
  simp only [revokeMembership, bind_eq_ok, okOr_eq_ok, parseUuid_eq_ok, Prod.exists] at h
  obtain ⟨id, hId, principal, row, hFound, _, -, version, hVersion, _, -, h⟩ := h
  have hWrite : writeMembership t principal { row with status := .revoked, version }
      "Revoked membership" = .ok (t', m) := by
    split at h
    · simp only [bind_eq_ok] at h
      obtain ⟨_, -, _, -, h⟩ := h
      exact h
    · simp only [bind_eq_ok] at h
      obtain ⟨_, -, h⟩ := h
      exact h
  obtain ⟨row', hWritten⟩ := writeMembership_ok hWrite
  exact ⟨id, principal, row, row', version, hId, hFound, hVersion, hWritten.version,
    hWritten.membershipId, hWritten.tables, hWritten.shown⟩

theorem MembershipChanged.unfold {membershipId : String} {expected : Int}
    (h : MembershipChanged t t' m membershipId expected) :
    ∃ memberships, t' = { t with identity := { t.identity with memberships } } ∧
      m.Only "Membership" := by
  obtain ⟨id, principal, row, row', version, -, -, -, hWritten⟩ := h
  obtain ⟨value, label, hShown⟩ := hWritten.shown
  refine ⟨_, hWritten.tables, ?_⟩
  rw [hShown]
  exact Mutation.one_only _ _ _ _ _

theorem Host.runExtension_ok {h : Host ι ν ε} {input : ε}
    (hRun : h.runExtension tick t actor input = .ok (t', m)) :
    t' = t ∧ ∃ kind : ExtensionKind, m.Only kind.toText := by
  simp only [Host.runExtension, bind_eq_ok, pure_eq_ok, Prod.mk.injEq] at hRun
  obtain ⟨change, -, rfl, rfl⟩ := hRun
  exact ⟨rfl, change.kind, Mutation.one_only _ _ _ _ _⟩

end Handlers

end Masonwing
