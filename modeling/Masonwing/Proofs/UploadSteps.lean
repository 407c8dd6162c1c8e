import Masonwing.Proofs.ArtifactRows
import Masonwing.Proofs.MembershipSteps

/-!
# What the steps do to uploads

The four operations on uploads, each read back as what it checks and what it writes
(`UploadBegun`, `UploadClaimed`, `UploadCompleted`, `UploadFinalized`). `UploadMove` is the case
distinction over one step of the host; every other step leaves the uploads alone, and of an artifact
what was declared of it and where it is stored.
-/

namespace Masonwing

open Outcome

variable {ι ν ε : Type}

/-! ## Artifacts -/

/-- What was declared of an artifact. -/
def ArtifactRow.declared (a : ArtifactRow) : Digest × Int × String :=
  (a.digest, a.sizeBytes, a.contentType)

/-- What a step that is no upload leaves of an artifact. -/
structure ArtifactRow.Kept (a a' : ArtifactRow) : Prop where
  declared : a'.declared = a.declared
  storageKey : a'.storageKey = a.storageKey
  pending : a'.state = .pending → a.state = .pending
  active : a'.state = .active → a.state = .active

theorem ArtifactRow.Kept.refl (a : ArtifactRow) : a.Kept a := ⟨rfl, rfl, id, id⟩

/-- Every artifact but this one is kept. -/
def KeptBut (but : Option Uuid) (j j' : Journal) : Prop :=
  ∀ id a, j.artifacts.get? id = some a → but ≠ some id →
    ∃ a', j'.artifacts.get? id = some a' ∧ a.Kept a'

section Artifacts

variable {tick : Tick} {j j' j'' : Journal} {but : Option Uuid}

theorem KeptBut.of_eq (h : j'.artifacts = j.artifacts) : KeptBut but j j' := by
  intro id a ha _
  exact ⟨a, h ▸ ha, .refl a⟩

theorem KeptBut.of_set {id : Uuid} {a' : ArtifactRow}
    (h : j'.artifacts = j.artifacts.set id a') : KeptBut (some id) j j' := by
  intro k a ha hk
  have hNe : k ≠ id := fun hSame => hk (congrArg some hSame.symm)
  rw [h]
  exact ⟨a, (Table.get?_set_ne _ hNe a').trans ha, .refl a⟩

/-- The rows that are there stay as they are while changes are recorded. -/
theorem recordChanges_row {env : Env} {actor : CommandActor} {operation : String} {index : Nat}
    {changes : List ProjectionChange}
    (h : recordChanges env tick actor operation index j changes = .ok j') {id : Uuid}
    {a : ArtifactRow} (ha : j.artifacts.get? id = some a) : j'.artifacts.get? id = some a := by
  refine recordChanges_keeps (I := fun j => j.artifacts.get? id = some a) h ?_ ha
  intro i j₁ j₂ change _ hWritten hOld
  obtain ⟨b, hInsert, -⟩ := hWritten.artifact
  exact Table.insert?_get?_of_some hInsert hOld

theorem KeptBut.recorded (h : KeptBut but j j') {env : Env} {actor : CommandActor}
    {operation : String} {changes : List ProjectionChange}
    (hRecorded : recordChanges env tick actor operation 0 j' changes = .ok j'') :
    KeptBut but j j'' := by
  intro id a ha hBut
  obtain ⟨a', ha', hKept⟩ := h id a ha hBut
  exact ⟨a', recordChanges_row hRecorded ha', hKept⟩

/-- The acts that are no part of an upload. -/
def ArtifactAct.foreign : ArtifactAct → Prop
  | .finalize _ | .stage _ => False
  | _ => True

theorem JournalMove.keptBut {act : ArtifactAct} (h : JournalMove tick j act j')
    (hAct : act.foreign) : KeptBut none j j' := by
  intro id a ha _
  have hSet : ∀ {k : Uuid} {b b' : ArtifactRow}, j.artifacts.get? k = some b → b.Kept b' →
      ∃ a', (j.artifacts.set k b').get? id = some a' ∧ a.Kept a' := by
    intro k b b' hb hKept
    by_cases hk : id = k
    · subst hk
      cases ha.symm.trans hb
      exact ⟨b', Table.get?_set_self ha b', hKept⟩
    · exact ⟨a, (Table.get?_set_ne _ hk b').trans ha, .refl a⟩
  cases h with
  | kept hSame => exact ⟨a, by rw [hSame]; exact ha, .refl a⟩
  | begun hInsert hPending => exact ⟨a, Table.insert?_get?_of_some hInsert ha, .refl a⟩
  | finalized hFound hPending => exact hAct.elim
  | derived hLive hInput hInsert hActive hClassification =>
    exact ⟨a, Table.insert?_get?_of_some hInsert ha, .refl a⟩
  | staged hFound hPending => exact hAct.elim
  | rejected hFound =>
    exact hSet hFound ⟨rfl, rfl, ArtifactState.noConfusion, ArtifactState.noConfusion⟩
  | contained hFound hActive hArtifacts hOthers =>
    rw [hArtifacts]
    exact hSet hFound ⟨rfl, rfl, ArtifactState.noConfusion, ArtifactState.noConfusion⟩
  | deleted hDeleted =>
    rcases hDeleted.artifacts id with ⟨hNone, -⟩ | ⟨b, b', hb, hb', hRow⟩
    · cases hNone.symm.trans ha
    · cases hb.symm.trans ha
      refine ⟨b', hb', ?_⟩
      split at hRow
      · simp only [tombstoneRow, bind_eq_ok, pure_eq_ok] at hRow
        obtain ⟨version, -, rfl⟩ := hRow
        exact ⟨rfl, rfl, ArtifactState.noConfusion, ArtifactState.noConfusion⟩
      · rw [hRow]
        exact .refl _

end Artifacts

/-! ## Operations -/

section Operations

variable {env : Env} {tick : Tick} {t t' : Tables} {m : Mutation} {actor : CommandActor}

/-- An upload was begun, with an artifact of its own. -/
structure UploadBegun (t t' : Tables) (upload : Uuid) (u : UploadRow) : Prop where
  inserted : t.uploads.insert? upload u = some t'.uploads
  opened : u.state = .opened
  unleased : u.leaseId = none
  alone : ∀ k v, t.uploads.get? k = some v → v.artifactId ≠ u.artifactId
  fresh : t.journal.artifacts.get? u.artifactId = none
  stored : ∃ a, t'.journal.artifacts.get? u.artifactId = some a ∧ a.state = .pending

theorem beginArtifact_begun {classification : Classification} {contentType : String} {size : Int}
    {digest : Digest}
    (h : beginArtifact env tick t actor classification contentType size digest = .ok (t', m)) :
    ∃ upload u, UploadBegun t t' upload u := by
  simp only [beginArtifact, bind_eq_ok, sql_eq_ok, insertArtifact, insertUpload, insertRow_eq_ok,
    require_eq_ok, pure_eq_ok, Prod.mk.injEq, exists_const] at h
  obtain ⟨principal, -, -, -, artifacts, ⟨-, -, hArtifact⟩, uploads, ⟨hAlone, hUpload⟩, rfl, -⟩ := h
  refine ⟨_, _, hUpload, rfl, rfl, fun k v hv hSame => ?_, ?_, _,
    Table.insert?_get?_self hArtifact, rfl⟩
  · exact of_decide_eq_false (Table.any_eq_false_iff.mp hAlone k v hv) hSame
  · exact Table.insert?_isSome_iff.mp ⟨_, hArtifact⟩

/-- What a claim knows of its artifact. -/
def UploadClaim.declared (claim : UploadClaim) : Digest × Int × String :=
  (claim.digest, claim.size, claim.contentType)

/-- An attempt took the lease of an open upload, and knows what was declared of its artifact. -/
structure UploadClaimed (tick : Tick) (t t' : Tables) (claim : UploadClaim) : Prop where
  written : ∃ u a, t.uploads.get? claim.upload = some u ∧ u.state = .opened ∧
    u.artifactId = claim.artifact ∧ t.journal.artifacts.get? claim.artifact = some a ∧
    a.declared = claim.declared ∧
    t' = { t with uploads := t.uploads.set claim.upload { u with
      leaseId := some claim.lease
      leaseExpiresAt := some (tick.now + uploadLeaseMicroseconds) } }
  lease : claim.lease = tick.draw .lease

theorem claimUpload_claimed {uploadId : String} {length : Option Int} {claim : UploadClaim}
    (h : claimUpload tick t actor uploadId length = .ok (t', claim)) :
    UploadClaimed tick t t' claim := by
  simp only [claimUpload, ownUpload, bind_eq_ok, okOr_eq_ok, require_eq_ok, pure_eq_ok, Prod.exists,
    Prod.mk.injEq, exists_const] at h
  obtain ⟨upload, -, principal, -, _, -, _, _, ⟨u, hUpload, a, hFound, rfl, rfl⟩, -, ⟨hOpen, -⟩, -,
    -, rfl, rfl⟩ := h
  obtain ⟨hGet, -⟩ := Option.filter_eq_some_iff.mp hUpload
  exact ⟨⟨u, a, hGet, hOpen, rfl, hFound, rfl, rfl⟩, rfl⟩

/-- What an attempt leaves of its artifact: the object of a transfer that succeeded, or the storage
as it was. -/
inductive AttemptSettled (tenant : Uuid) (claim : UploadClaim) (outcome : Result Digest)
    (u' : UploadRow) (a a' : ArtifactRow) : Prop
  | staged {digest : Digest} (hOutcome : outcome = .ok digest) (hUploaded : u'.state = .uploaded)
      (hPending : a.state = .pending)
      (hStaged : a' = { a with storageKey := uploadKey tenant claim digest }) :
      AttemptSettled tenant claim outcome u' a a'
  | late (hOutcome : ∃ digest, outcome = .ok digest) (hUploaded : u'.state = .uploaded)
      (hPending : a.state ≠ .pending) (hKept : a' = a) : AttemptSettled tenant claim outcome u' a a'
  | failed (hState : u'.state = .opened ∨ u'.state = .failed ∨ u'.state = .expired)
      (hKept : a.Kept a') : AttemptSettled tenant claim outcome u' a a'

theorem settleAttempt_settled {tenant : Uuid} {claim : UploadClaim} {u u' : UploadRow}
    {outcome : Result Digest} {artifacts artifacts' : Table Uuid ArtifactRow}
    {answer : Option CommandFailure} {a : ArtifactRow}
    (h : settleAttempt tick tenant artifacts claim u outcome = .ok (artifacts', u', answer))
    (ha : artifacts.get? claim.artifact = some a) :
    u'.artifactId = u.artifactId ∧
      (∀ id, id ≠ claim.artifact → artifacts'.get? id = artifacts.get? id) ∧
      ∃ a', artifacts'.get? claim.artifact = some a' ∧
        AttemptSettled tenant claim outcome u' a a' := by
  cases outcome with
  | ok digest =>
    rw [settleAttempt] at h
    split at h
    · cases h
      exact ⟨rfl, fun _ _ => rfl, a, ha, .failed (Or.inr (Or.inr rfl)) (.refl a)⟩
    · simp only [bind_eq_ok, pure_eq_ok, Prod.mk.injEq] at h
      obtain ⟨staged, hStage, rfl, rfl, -⟩ := h
      unfold stageArtifact at hStage
      rw [ha] at hStage
      split at hStage
      · rename_i hNone
        cases hStage
        refine ⟨rfl, fun _ _ => rfl, a, ha, .late ⟨digest, rfl⟩ rfl (fun hPending => ?_) rfl⟩
        rw [Option.filter_some, if_pos (decide_eq_true hPending)] at hNone
        cases hNone
      · rename_i b hFound
        obtain ⟨hSame, hPending⟩ := Option.filter_eq_some_iff.mp hFound
        cases hSame
        simp only [bind_eq_ok, pure_eq_ok] at hStage
        obtain ⟨_, -, rfl⟩ := hStage
        refine ⟨rfl, fun id hId => Table.get?_set_ne _ hId _, _, Table.get?_set_self ha _, ?_⟩
        exact .staged rfl rfl (of_decide_eq_true hPending) rfl
  | error failure =>
    rw [settleAttempt] at h
    split at h
    · simp only [bind_eq_ok, pure_eq_ok, Prod.mk.injEq] at h
      obtain ⟨rejected, hReject, rfl, rfl, -⟩ := h
      unfold rejectArtifact at hReject
      rw [ha] at hReject
      simp only [bind_eq_ok, pure_eq_ok] at hReject
      obtain ⟨version, -, rfl⟩ := hReject
      refine ⟨rfl, fun id hId => Table.get?_set_ne _ hId _, _, Table.get?_set_self ha _, ?_⟩
      refine .failed (Or.inr (Or.inl rfl)) ⟨rfl, rfl, ?_, ?_⟩
      · exact ArtifactState.noConfusion
      · exact ArtifactState.noConfusion
    · cases h
      exact ⟨rfl, fun _ _ => rfl, a, ha, .failed (Or.inl rfl) (.refl a)⟩

/-- An attempt that held the lease of its open upload settled it. -/
structure UploadCompleted (t t' : Tables) (claim : UploadClaim) (outcome : Result Digest)
    (now : Int) (u u' : UploadRow) : Prop where
  found : t.uploads.get? claim.upload = some u
  opened : u.state = .opened
  leased : u.leaseId = some claim.lease
  unexpired : ∃ last, u.leaseExpiresAt = some last ∧ now < last
  artifact : u'.artifactId = u.artifactId
  unleased : u'.leaseId = none
  uploads : t'.uploads = t.uploads.set claim.upload u'
  others : KeptBut (some claim.artifact) t.journal t'.journal
  settled : ∀ a, t.journal.artifacts.get? claim.artifact = some a →
    ∃ a', t'.journal.artifacts.get? claim.artifact = some a' ∧
      AttemptSettled t.identity.tenantId claim outcome u' a a'
  states : u'.state = .opened ∨ u'.state = .uploaded ∨ u'.state = .failed ∨ u'.state = .expired

theorem completeUpload_completed {claim : UploadClaim} {outcome : Result Digest}
    {answer : Option CommandFailure} {a : ArtifactRow}
    (ha : t.journal.artifacts.get? claim.artifact = some a)
    (h : completeUpload env tick t actor claim outcome = .ok (t', answer)) :
    ∃ u u', UploadCompleted t t' claim outcome tick.now u u' := by
  simp only [completeUpload, ownUpload, bind_eq_ok, okOr_eq_ok, sql_eq_ok, require_eq_ok,
    pure_eq_ok, Prod.exists, Prod.mk.injEq, exists_const] at h
  obtain ⟨principal, -, _, -, _, _, ⟨u, hUpload, b, -, rfl, rfl⟩, ⟨hLease, hOpen, hUnexpired⟩,
    artifacts, u', answer', hSettle, version, -, j', hRecord, rfl, -⟩ := h
  obtain ⟨hGet, -⟩ := Option.filter_eq_some_iff.mp hUpload
  obtain ⟨hArtifact, hOthers, a', ha', hSettled⟩ := settleAttempt_settled hSettle ha
  have hKeeps : ∀ {id : Uuid} {c : ArtifactRow}, artifacts.get? id = some c →
      j'.artifacts.get? id = some c := by
    intro id c hc
    obtain ⟨d, hInsert, -⟩ := (recordChange_written hRecord).artifact
    exact Table.insert?_get?_of_some hInsert hc
  have hStates : u'.state = .opened ∨ u'.state = .uploaded ∨ u'.state = .failed ∨
      u'.state = .expired := by
    cases hSettled with
    | staged _ hUploaded => exact Or.inr (Or.inl hUploaded)
    | late _ hUploaded => exact Or.inr (Or.inl hUploaded)
    | failed hState => exact hState.imp_right Or.inr
  refine ⟨u, { u' with leaseId := none, leaseExpiresAt := none, version }, hGet, hOpen, hLease, ?_,
    hArtifact, rfl, rfl, ?_, fun c hc => ?_, hStates⟩
  · cases hLast : u.leaseExpiresAt with
    | none =>
      rw [hLast] at hUnexpired
      cases hUnexpired
    | some last =>
      rw [hLast] at hUnexpired
      exact ⟨last, rfl, of_decide_eq_true hUnexpired⟩
  · intro id c hc hBut
    have hNe : id ≠ claim.artifact := fun hSame => hBut (congrArg some hSame.symm)
    exact ⟨c, hKeeps ((hOthers id hNe).trans hc), .refl c⟩
  · cases hc.symm.trans ha
    refine ⟨a', hKeeps ha', ?_⟩
    cases hSettled with
    | staged hOutcome hUploaded hPending hStaged => exact .staged hOutcome hUploaded hPending hStaged
    | late hOutcome hUploaded hPending hKept => exact .late hOutcome hUploaded hPending hKept
    | failed hState hKept => exact .failed hState hKept

/-- An upload with verified bytes was finalized. -/
structure UploadFinalized (t t' : Tables) (upload : Uuid) (u u' : UploadRow) (a : ArtifactRow) :
    Prop where
  found : t.uploads.get? upload = some u
  uploaded : u.state = .uploaded
  artifact : u'.artifactId = u.artifactId
  finalized : u'.state = .finalized
  lease : u'.leaseId = u.leaseId
  leaseEnd : u'.leaseExpiresAt = u.leaseExpiresAt
  uploads : t'.uploads = t.uploads.set upload u'
  stored : t.journal.artifacts.get? u.artifactId = some a
  pending : a.state = .pending
  activated : ∃ version, t'.journal.artifacts =
    t.journal.artifacts.set u.artifactId { a with state := .active, version }

theorem finalizeArtifact_finalized {artifactId : String} {observed : Digest}
    (h : finalizeArtifact env t actor artifactId observed = .ok (t', m)) :
    ∃ upload u u' a, UploadFinalized t t' upload u u' a := by
  simp only [finalizeArtifact, bind_eq_ok, sql_eq_ok, insertRow_eq_ok, okOr_eq_ok, parseUuid_eq_ok,
    require_eq_ok, pure_eq_ok, Prod.exists, Prod.mk.injEq, exists_const] at h
  obtain ⟨id, -, principal, -, upload, u, hUpload, a, hFound, ⟨hUploaded, hPending, -⟩, -,
    uploadVersion, -, version, -, rights, -, rfl, -⟩ := h
  obtain ⟨hGet, hOwn⟩ := Table.find?_some hUpload
  obtain ⟨rfl, -⟩ := of_decide_eq_true hOwn
  exact ⟨upload, u, { u with state := .finalized, version := uploadVersion }, a, hGet, hUploaded,
    rfl, rfl, rfl, rfl, rfl, hFound, hPending, version, rfl⟩

end Operations

/-! ## Steps -/

/-- What a step of the host does to uploads and to the artifacts that were there. -/
inductive UploadMove (tick : Tick) (t : Tables) (attempts : List UploadAttempt) :
    HostOperation ι ε → Tables → List UploadAttempt → Prop
  | kept {op : HostOperation ι ε} {t' : Tables} (hUploads : t'.uploads = t.uploads)
      (hArtifacts : KeptBut none t.journal t'.journal) : UploadMove tick t attempts op t' attempts
  | begun {c : Command (HostInput ε)} {t' : Tables} {upload : Uuid} {u : UploadRow}
      (hBegun : UploadBegun t t' upload u) (hArtifacts : KeptBut none t.journal t'.journal) :
      UploadMove tick t attempts (.command c) t' attempts
  | claimed {actor : CommandActor} {uploadId : String} {length : Option Int} {t' : Tables}
      {claim : UploadClaim} (hClaimed : UploadClaimed tick t t' claim) :
      UploadMove tick t attempts (.claimUpload actor uploadId length) t'
        (attempts ++ [⟨actor, claim⟩])
  | completed {attempt : Nat} {outcome : Result Digest} {x : UploadAttempt} {t' : Tables}
      {u u' : UploadRow} (hAttempt : attempts[attempt]? = some x)
      (hCompleted : UploadCompleted t t' x.claim outcome tick.now u u') :
      UploadMove tick t attempts (.completeUpload attempt outcome) t' attempts
  | finalized {c : Command (HostInput ε)} {t₁ t' : Tables} {upload : Uuid} {u u' : UploadRow}
      {a : ArtifactRow} (hFinalized : UploadFinalized t t₁ upload u u' a)
      (hUploads : t'.uploads = t₁.uploads)
      (hArtifacts : ∀ id b, t₁.journal.artifacts.get? id = some b →
        t'.journal.artifacts.get? id = some b) :
      UploadMove tick t attempts (.command c) t' attempts

section Steps

variable {tick : Tick} {t t' : Tables} {attempts attempts' : List UploadAttempt}

theorem Change.uploads {env : Env} {a : Act} (h : Change env tick t a t') :
    t'.uploads = t.uploads := by
  cases h <;> rfl

theorem PlatformOutcome.uploads {p : Platform ι} {op : PlatformOperation ι}
    (h : PlatformOutcome p tick t op t') : t'.uploads = t.uploads := by
  cases h with
  | unchanged => rfl
  | command hActor hAuthorized hHandled hJournal hRecorded =>
    obtain ⟨a, -, hChange⟩ := dispatchCommand_change t.journal (beginActor_ok hActor).1 hHandled
    exact hChange.uploads
  | further hHandled hRecorded =>
    unfold Platform.dispatch at hHandled
    split at hHandled
    · obtain ⟨digest, registry, runs, -, -, rfl, -⟩ := revokePlugin_ok hHandled
      rfl
    · obtain ⟨j, id, rights, requests, -, -, rfl, -⟩ := requestDeletion_ok hHandled
      rfl
    · obtain ⟨registry, rfl, -⟩ := Lifecycle.run_ok hHandled
      rfl
  | contained hContained hOp => rfl
  | system hCall => exact (runSystemCall_change hCall).uploads
  | checkpoint hRecord =>
    rcases recordRunCheckpoint_ok hRecord with ⟨-, rfl⟩ | ⟨-, row, checkpoints, -, rfl, -⟩
    · rfl
    · rfl

/-- An operation other than those on uploads keeps the artifacts. -/
theorem Journaled.keptBut {h : Host ι ν ε} {op : HostOperation ι ε} {act : ArtifactAct}
    {changes : List ProjectionChange} {j : Journal}
    (hJournaled : Journaled h tick t t' attempts op act changes j) (hAct : act.foreign) :
    KeptBut none t.journal t'.journal := by
  have hMoved := hJournaled.move.keptBut hAct
  rcases hJournaled.recorded with ⟨-, hSame⟩ | ⟨actor, operation, hRecorded⟩
  · rw [hSame]
    exact hMoved
  · exact hMoved.recorded hRecorded

theorem PlatformOutcome.keptBut {h : Host ι ν ε} {op : PlatformOperation ι}
    (hOutcome : PlatformOutcome h.platform tick t op t') :
    KeptBut none t.journal t'.journal := by
  have hRead : ∃ act changes j, Journaled h tick t t' [] (.platform op) act changes j :=
    hOutcome.journal
  obtain ⟨act, changes, j, hJournaled⟩ := hRead
  refine hJournaled.keptBut ?_
  cases hJournaled.does <;> trivial

/-- The uploads after a handler that is none of theirs. -/
theorem Host.dispatch_uploads {h : Host ι ν ε} {c : Command (HostInput ε)} {m : Mutation}
    (hHandled : h.dispatch tick t c = .ok (t', m)) :
    (∃ upload u, UploadBegun t t' upload u ∧ KeptBut none t.journal t'.journal) ∨
    (∃ upload u u' a, UploadFinalized t t' upload u u' a) ∨
    (t'.uploads = t.uploads ∧ KeptBut none t.journal t'.journal) := by
  unfold Host.dispatch at hHandled
  dsimp only at hHandled
  split at hHandled
  · obtain ⟨upload, u, hBegun⟩ := beginArtifact_begun hHandled
    obtain ⟨a, v, artifacts, uploads, hInsert, hPending, -, -, rfl, -⟩ := beginArtifact_ok hHandled
    exact Or.inl ⟨upload, u, hBegun, (JournalMove.begun hInsert hPending).keptBut trivial⟩
  · obtain ⟨upload, u, u', a, hFinalized⟩ := finalizeArtifact_finalized hHandled
    exact Or.inr (Or.inl ⟨upload, u, u', a, hFinalized⟩)
  · obtain ⟨input, j, rights, hId, hMove, rfl, -⟩ := invokePlugin_ok hHandled
    exact Or.inr (Or.inr ⟨rfl, hMove.keptBut trivial⟩)
  · obtain ⟨profileId, profiles, rfl, -⟩ := configureProvider_ok hHandled
    exact Or.inr (Or.inr ⟨rfl, .of_eq rfl⟩)
  · obtain ⟨id, p, version, next, value, label, -, -, -, -, rfl, -⟩ := compactProvider_ok hHandled
    exact Or.inr (Or.inr ⟨rfl, .of_eq rfl⟩)
  · obtain ⟨authorizations, rfl, -⟩ := authorizeConnection_ok hHandled
    exact Or.inr (Or.inr ⟨rfl, .of_eq rfl⟩)
  · obtain ⟨id, o, -, -, -, rfl, -⟩ := replayDeadletter_ok hHandled
    exact Or.inr (Or.inr ⟨rfl, .of_eq rfl⟩)
  · obtain ⟨listings, rfl, -⟩ := submitCatalog_ok hHandled
    exact Or.inr (Or.inr ⟨rfl, .of_eq rfl⟩)
  · obtain ⟨id, l, l', guarded, version, value, label, -, -, -, -, -, rfl, -⟩ :=
      reviewCatalog_ok hHandled
    exact Or.inr (Or.inr ⟨rfl, .of_eq rfl⟩)
  · obtain ⟨memberships, rfl, -⟩ := (changeMembership_ok hHandled).unfold
    exact Or.inr (Or.inr ⟨rfl, .of_eq rfl⟩)
  · obtain ⟨memberships, rfl, -⟩ := (revokeMembership_ok hHandled).unfold
    exact Or.inr (Or.inr ⟨rfl, .of_eq rfl⟩)
  · obtain ⟨rfl, -⟩ := Host.runExtension_ok hHandled
    exact Or.inr (Or.inr ⟨rfl, .of_eq rfl⟩)

/-- The artifact of every attempt is stored, so that each completion is one of an artifact. -/
theorem HostOutcome.uploadMove {h : Host ι ν ε} {op : HostOperation ι ε}
    (hStored : ∀ x ∈ attempts, ∃ a, t.journal.artifacts.get? x.claim.artifact = some a)
    (hOutcome : HostOutcome h tick t attempts op t' attempts') :
    UploadMove tick t attempts op t' attempts' := by
  cases hOutcome with
  | unchanged => exact .kept rfl (.of_eq rfl)
  | platform hOutcome => exact .kept hOutcome.uploads hOutcome.keptBut
  | command hActor hAuthorized hHandled hRecorded =>
    rcases Host.dispatch_uploads hHandled with ⟨upload, u, hBegun, hArtifacts⟩ |
      ⟨upload, u, u', a, hFinalized⟩ | ⟨hUploads, hArtifacts⟩
    · refine .begun ⟨hBegun.inserted, hBegun.opened, hBegun.unleased, hBegun.alone, hBegun.fresh, ?_⟩
        (hArtifacts.recorded hRecorded)
      obtain ⟨a, ha, hPending⟩ := hBegun.stored
      exact ⟨a, recordChanges_row hRecorded ha, hPending⟩
    · exact .finalized hFinalized rfl fun id b hb => recordChanges_row hRecorded hb
    · exact .kept hUploads (hArtifacts.recorded hRecorded)
  | contained hContained =>
    rcases hContained.move tick with hMove | ⟨id, hMove⟩
    · exact .kept rfl (hMove.keptBut trivial)
    · exact .kept rfl (hMove.keptBut trivial)
  | claimed hClaimed => exact .claimed (claimUpload_claimed hClaimed)
  | completed hAttempt hCompleted =>
    obtain ⟨a, ha⟩ := hStored _ (List.mem_of_getElem? hAttempt)
    obtain ⟨u, u', hDone⟩ := completeUpload_completed ha hCompleted
    exact .completed hAttempt hDone

end Steps

end Masonwing
