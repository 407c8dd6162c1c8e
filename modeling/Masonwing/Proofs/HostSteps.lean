import Masonwing.Proofs.HostChanges
import Masonwing.Proofs.Sources

/-!
# The steps of the host

What is behind a step of the host (`HostOutcome`), and what any step does to the journal, in one
form: it moves the artifacts, and then it records some changes (`HostOutcome.journal`). `Does` says
which moves an operation can make and `Records` which changes it can record, so a property of the
journal is kept by every step if each move and each recorded change keeps it.
-/

namespace Masonwing

open Outcome

variable {ι ν ε : Type}

/-! ## Outcomes -/

inductive HostOutcome (h : Host ι ν ε) (tick : Tick) (t : Tables) (attempts : List UploadAttempt) :
    HostOperation ι ε → Tables → List UploadAttempt → Prop
  | unchanged (op : HostOperation ι ε) : HostOutcome h tick t attempts op t attempts
  | platform {op : PlatformOperation ι} {t' : Tables}
      (hOutcome : PlatformOutcome h.platform tick t op t') :
      HostOutcome h tick t attempts (.platform op) t' attempts
  | command {c : Command (HostInput ε)} {t' : Tables} {m : Mutation} {j : Journal}
      (hActor : beginActor t c.actor = .ok ()) (hAuthorized : h.authorize t c = .ok ())
      (hHandled : h.dispatch tick t c = .ok (t', m))
      (hRecorded : recordChanges h.env tick c.actor (h.operation c.input) 0 t'.journal m.changes =
        .ok j) : HostOutcome h tick t attempts (.command c) { t' with journal := j } attempts
  | contained {c : Command (HostInput ε)} {reference : ArtifactRef} {j : Journal}
      (hContained : Contained t.journal j) :
      HostOutcome h tick t attempts (.quarantine c reference) { t with journal := j } attempts
  | claimed {actor : CommandActor} {uploadId : String} {length : Option Int} {t' : Tables}
      {claim : UploadClaim} (hClaimed : claimUpload tick t actor uploadId length = .ok (t', claim)) :
      HostOutcome h tick t attempts (.claimUpload actor uploadId length) t'
        (attempts ++ [⟨actor, claim⟩])
  | completed {attempt : Nat} {outcome : Result Digest} {a : UploadAttempt} {t' : Tables}
      {answer : Option CommandFailure} (hAttempt : attempts[attempt]? = some a)
      (hCompleted : completeUpload h.env tick t a.actor a.claim outcome = .ok (t', answer)) :
      HostOutcome h tick t attempts (.completeUpload attempt outcome) t' attempts

theorem runHostOperation_outcome {h : Host ι ν ε} {tick : Tick} {s s' : HostState}
    {op : HostOperation ι ε} {reply : HostReply}
    (hRun : runHostOperation h tick s op = .ok (s', reply)) :
    HostOutcome h tick s.store.tables s.attempts op s'.store.tables s'.attempts := by
  cases op with
  | platform operation =>
    simp only [runHostOperation, bind_eq_ok, pure_eq_ok, Prod.exists, Prod.mk.injEq] at hRun
    obtain ⟨store, reply', hRun, rfl, -⟩ := hRun
    exact .platform (runPlatformOperation_outcome hRun)
  | command c =>
    simp only [runHostOperation, bind_eq_ok, pure_eq_ok, Prod.exists, Prod.mk.injEq] at hRun
    obtain ⟨store, a, hExecute, rfl, -⟩ := hRun
    obtain ⟨principal, hAdmit, ⟨row, -, -, rfl, -⟩ | ⟨-, t, m, receipt, hCommitted, -⟩⟩ :=
      execute_ok hExecute
    · exact .unchanged _
    · obtain ⟨hActor, hAuthorized⟩ := admitCommand_ok hAdmit
      dsimp only
      rw [hCommitted.tables]
      exact .command hActor hAuthorized hCommitted.handled hCommitted.recorded
  | quarantine c reference =>
    simp only [runHostOperation, bind_eq_ok, pure_eq_ok, Prod.mk.injEq] at hRun
    obtain ⟨store, hRun, rfl, -⟩ := hRun
    dsimp only
    rw [(quarantineCorruptArtifact_ok hRun).2]
    exact .contained (quarantineCorruptArtifact_contained hRun)
  | claimUpload actor uploadId length =>
    simp only [runHostOperation, bind_eq_ok, pure_eq_ok, Prod.exists, Prod.mk.injEq] at hRun
    obtain ⟨tables, claim, hClaimed, rfl, -⟩ := hRun
    exact .claimed hClaimed
  | completeUpload attempt outcome =>
    simp only [runHostOperation, bind_eq_ok, okOr_eq_ok, pure_eq_ok, Prod.exists,
      Prod.mk.injEq] at hRun
    obtain ⟨a, hAttempt, tables, failure, hCompleted, rfl, -⟩ := hRun
    exact .completed hAttempt hCompleted

theorem hostStep_outcome (h : Host ι ν ε) (s : HostState) (c : HostCall ι ε) :
    HostOutcome h c.tick s.store.tables s.attempts c.operation (hostStep h s c).1.store.tables
      (hostStep h s c).1.attempts := by
  rcases transact_cases s (runHostOperation h c.tick s c.operation) with
    ⟨s', reply, hOk, hStep⟩ | ⟨failure, -, hStep⟩
  · have hEq : hostStep h s c = (s', .ok reply) := hStep
    rw [hEq]
    exact runHostOperation_outcome hOk
  · have hEq : hostStep h s c = (s, .error failure) := hStep
    rw [hEq]
    exact .unchanged _

/-! ## The journal -/

/-- An operation that puts a corrupt artifact away. -/
def HostOperation.contains : HostOperation ι ε → Prop
  | .quarantine .. => True
  | .platform op => op.act = some .contain ∨ op.act = some (.core .quarantine)
  | _ => False

/-- What an operation can do to the stored artifacts. -/
inductive Does (j : Journal) (attempts : List UploadAttempt) :
    HostOperation ι ε → ArtifactAct → Prop
  | keep (op : HostOperation ι ε) : Does j attempts op .keep
  | begin {c : Command (HostInput ε)} {classification : Classification} {contentType : String}
      {size : Int} {digest : Digest}
      (hInput : c.input = .artifactBegin classification contentType size digest) :
      Does j attempts (.command c) .begin
  | finalize {c : Command (HostInput ε)} {artifactId : String} {observed : Digest} {id : Uuid}
      (hInput : c.input = .artifactFinalize artifactId observed)
      (hId : Uuid.parse artifactId = some id) : Does j attempts (.command c) (.finalize id)
  | derive {c : Command (HostInput ε)} {pluginId handlerId grantId : String}
      {inputRef : ArtifactRef} {id : Uuid}
      (hInput : c.input = .pluginInvoke pluginId handlerId inputRef grantId)
      (hId : Uuid.parse inputRef.artifactId.text = some id) : Does j attempts (.command c) (.derive id)
  | upload {attempt : Nat} {outcome : Result Digest} {a : UploadAttempt} {act : ArtifactAct}
      (hAttempt : attempts[attempt]? = some a) (hActs : a.claim.acts j.artifacts outcome act) :
      Does j attempts (.completeUpload attempt outcome) act
  | contain {op : HostOperation ι ε} (hOp : op.contains) (id : Uuid) :
      Does j attempts op (.contain id)
  | delete {c : Command (PlatformInput ι)} {target : ResourceRef} {reason confirmation : String}
      {id : Uuid} (hInput : c.input = .deletionRequest target reason confirmation)
      (hId : Uuid.parse target.resourceId.text = some id) :
      Does j attempts (.platform (.command c)) (.delete id)

/-- The changes that an operation can record on its way from the tables `t` to `t'`. -/
inductive Records (h : Host ι ν ε) (tick : Tick) (t t' : Tables) (attempts : List UploadAttempt) :
    HostOperation ι ε → List ProjectionChange → Prop
  | nothing (op : HostOperation ι ε) : Records h tick t t' attempts op []
  | core {c : Command CommandInput} {t₁ : Tables} {m : Mutation}
      (hAuthorized : authorizeCommand h.env t c = .ok ())
      (hHandled : dispatchCommand h.env tick t c = .ok (t₁, m))
      (hAfter : t' = { t₁ with journal := t'.journal }) :
      Records h tick t t' attempts (.platform (.core (.command c))) m.changes
  | further {c : Command (PlatformInput ι)} {t₁ : Tables} {m : Mutation}
      (hHandled : h.platform.dispatch tick t c = .ok (t₁, m))
      (hAfter : t' = { t₁ with journal := t'.journal }) :
      Records h tick t t' attempts (.platform (.command c)) m.changes
  | command {c : Command (HostInput ε)} {t₁ : Tables} {m : Mutation}
      (hAuthorized : h.authorize t c = .ok ()) (hHandled : h.dispatch tick t c = .ok (t₁, m))
      (hAfter : t' = { t₁ with journal := t'.journal }) :
      Records h tick t t' attempts (.command c) m.changes
  | completed {attempt : Nat} {outcome : Result Digest} {a : UploadAttempt} {tenant : Uuid}
      {expires : Int} {state : UploadState} {version : Version} {label : String}
      (hAttempt : attempts[attempt]? = some a) :
      Records h tick t t' attempts (.completeUpload attempt outcome)
        [{ resource := resourceRef "UploadSession" a.claim.upload version
           value := uploadValue h.env tenant a.claim.upload a.claim.artifact a.claim.size
            a.claim.digest a.claim.contentType expires state
           label, sourceArtifacts := [a.claim.artifact] }]

section Journal

variable {h : Host ι ν ε} {tick : Tick} {t t' : Tables} {attempts attempts' : List UploadAttempt}

theorem runSystemCall_move {call : SystemCall} {reply : Reply}
    (hCall : runSystemCall h.env tick t call = .ok (t', reply)) :
    JournalMove tick t.journal .keep t'.journal := by
  cases hRelays : call.relays with
  | false =>
    rw [runSystemCall_journal hCall hRelays]
    exact .same tick _
  | true =>
    cases call with
    | claimPendingOutbox limit leaseSeconds =>
      obtain ⟨j, items, hClaimed, rfl, -⟩ := runSystemCall_claimPendingOutbox hCall
      refine .kept ?_
      dsimp only
      rw [hClaimed.others]
    | markOutboxDelivered eventId =>
      obtain ⟨-, -, -, -, hOthers⟩ := markOutboxDelivered_rows (withDone_ok hCall)
      refine .kept ?_
      rw [hOthers]
    | markOutboxFailed eventId maxAttempts =>
      obtain ⟨o, o', -, -, -, rfl⟩ := markOutboxFailed_rows (withDone_ok hCall)
      exact .kept rfl
    | _ => cases hRelays

theorem dispatch_move (attempts : List UploadAttempt) {c : Command (PlatformInput ι)} {m : Mutation}
    (hHandled : h.platform.dispatch tick t c = .ok (t', m)) :
    ∃ act, Does t.journal attempts (.platform (.command c) : HostOperation ι ε) act ∧
      JournalMove tick t.journal act t'.journal := by
  unfold Platform.dispatch at hHandled
  split at hHandled
  · obtain ⟨digest, registry, runs, -, -, rfl, -⟩ := revokePlugin_ok hHandled
    exact ⟨.keep, .keep _, .same tick _⟩
  · rename_i target reason confirmation hInput
    obtain ⟨j, id, rights, requests, hId, hDeleted, rfl, -⟩ := requestDeletion_ok hHandled
    exact ⟨.delete id, .delete hInput hId, .deleted hDeleted⟩
  · obtain ⟨registry, rfl, -⟩ := Lifecycle.run_ok hHandled
    exact ⟨.keep, .keep _, .same tick _⟩

theorem Host.dispatch_move (attempts : List UploadAttempt) {c : Command (HostInput ε)} {m : Mutation}
    (hHandled : h.dispatch tick t c = .ok (t', m)) :
    ∃ act, Does t.journal attempts (.command c : HostOperation ι ε) act ∧
      JournalMove tick t.journal act t'.journal := by
  unfold Host.dispatch at hHandled
  dsimp only at hHandled
  split at hHandled
  · rename_i hInput
    obtain ⟨a, u, artifacts, uploads, hInsert, hPending, -, -, rfl, -⟩ := beginArtifact_ok hHandled
    exact ⟨.begin, .begin hInput, .begun hInsert hPending⟩
  · rename_i hInput
    obtain ⟨id, upload, u, a, version, uploadVersion, rights, hId, -, -, hFound, hPending, rfl, -⟩ :=
      finalizeArtifact_ok hHandled
    exact ⟨.finalize id, .finalize hInput hId, .finalized hFound hPending⟩
  · rename_i hInput
    obtain ⟨input, j, rights, hId, hMove, rfl, -⟩ := invokePlugin_ok hHandled
    exact ⟨.derive input, .derive hInput hId, hMove⟩
  · obtain ⟨profileId, profiles, rfl, -⟩ := configureProvider_ok hHandled
    exact ⟨.keep, .keep _, .same tick _⟩
  · obtain ⟨id, p, version, next, value, label, -, -, -, -, rfl, -⟩ := compactProvider_ok hHandled
    exact ⟨.keep, .keep _, .same tick _⟩
  · obtain ⟨authorizations, rfl, -⟩ := authorizeConnection_ok hHandled
    exact ⟨.keep, .keep _, .same tick _⟩
  · obtain ⟨id, o, -, -, -, rfl, -⟩ := replayDeadletter_ok hHandled
    exact ⟨.keep, .keep _, .kept rfl⟩
  · obtain ⟨listings, rfl, -⟩ := submitCatalog_ok hHandled
    exact ⟨.keep, .keep _, .same tick _⟩
  · obtain ⟨id, l, l', guarded, version, value, label, -, -, -, -, -, rfl, -⟩ :=
      reviewCatalog_ok hHandled
    exact ⟨.keep, .keep _, .same tick _⟩
  · obtain ⟨memberships, rfl, -⟩ := (changeMembership_ok hHandled).unfold
    exact ⟨.keep, .keep _, .same tick _⟩
  · obtain ⟨memberships, rfl, -⟩ := (revokeMembership_ok hHandled).unfold
    exact ⟨.keep, .keep _, .same tick _⟩
  · obtain ⟨rfl, -⟩ := Host.runExtension_ok hHandled
    exact ⟨.keep, .keep _, .same tick _⟩

/-- A step of the host moves the artifacts and then records some changes. -/
structure Journaled (h : Host ι ν ε) (tick : Tick) (t t' : Tables) (attempts : List UploadAttempt)
    (op : HostOperation ι ε) (act : ArtifactAct) (changes : List ProjectionChange)
    (j : Journal) : Prop where
  does : Does t.journal attempts op act
  move : JournalMove tick t.journal act j
  records : Records h tick t t' attempts op changes
  recorded : (changes = [] ∧ t'.journal = j) ∨ ∃ actor operation,
    recordChanges h.env tick actor operation 0 j changes = .ok t'.journal

theorem Journaled.of_move {op : HostOperation ι ε} {act : ArtifactAct}
    (hDoes : Does t.journal attempts op act) (hMove : JournalMove tick t.journal act t'.journal) :
    Journaled h tick t t' attempts op act [] t'.journal :=
  ⟨hDoes, hMove, .nothing op, Or.inl ⟨rfl, rfl⟩⟩

theorem PlatformOutcome.journal {op : PlatformOperation ι}
    (hOutcome : PlatformOutcome h.platform tick t op t') :
    ∃ act changes j, Journaled h tick t t' attempts (.platform op) act changes j := by
  cases hOutcome with
  | unchanged => exact ⟨_, _, _, .of_move (.keep _) (.same tick _)⟩
  | command hActor hAuthorized hHandled hJournal hRecorded =>
    exact ⟨.keep, _, t.journal, .keep _, .same tick _, .core hAuthorized hHandled rfl,
      Or.inr ⟨_, _, hRecorded⟩⟩
  | further hHandled hRecorded =>
    obtain ⟨act, hDoes, hMove⟩ := dispatch_move attempts hHandled
    exact ⟨act, _, _, hDoes, hMove, .further hHandled rfl, Or.inr ⟨_, _, hRecorded⟩⟩
  | contained hContained hOp =>
    have hContains : HostOperation.contains (.platform op : HostOperation ι ε) := hOp
    rcases hContained.move tick with hMove | ⟨id, hMove⟩
    · exact ⟨_, _, _, .of_move (.keep _) hMove⟩
    · exact ⟨_, _, _, .of_move (.contain hContains id) hMove⟩
  | system hCall => exact ⟨_, _, _, .of_move (.keep _) (runSystemCall_move hCall)⟩
  | checkpoint hRecord =>
    refine ⟨_, _, _, .of_move (.keep _) ?_⟩
    rcases recordRunCheckpoint_ok hRecord with ⟨-, rfl⟩ | ⟨-, row, checkpoints, -, rfl, -⟩
    · exact .same tick _
    · exact .same tick _

theorem HostOutcome.journal {op : HostOperation ι ε}
    (hOutcome : HostOutcome h tick t attempts op t' attempts') :
    ∃ act changes j, Journaled h tick t t' attempts op act changes j := by
  cases hOutcome with
  | unchanged => exact ⟨_, _, _, .of_move (.keep _) (.same tick _)⟩
  | platform hOutcome => exact hOutcome.journal
  | command hActor hAuthorized hHandled hRecorded =>
    obtain ⟨act, hDoes, hMove⟩ := Host.dispatch_move attempts hHandled
    exact ⟨act, _, _, hDoes, hMove, .command hAuthorized hHandled rfl, Or.inr ⟨_, _, hRecorded⟩⟩
  | @contained c reference j hContained =>
    have hContains : HostOperation.contains (.quarantine c reference : HostOperation ι ε) := trivial
    rcases hContained.move tick with hMove | ⟨id, hMove⟩
    · exact ⟨_, _, _, .of_move (.keep _) hMove⟩
    · exact ⟨_, _, _, .of_move (.contain hContains id) hMove⟩
  | claimed hClaimed =>
    obtain ⟨u, u', a, -, -, -, -, -, rfl⟩ := claimUpload_ok hClaimed
    exact ⟨_, _, _, .of_move (.keep _) (.same tick _)⟩
  | completed hAttempt hCompleted =>
    obtain ⟨u, u', act, j, j', tenant, expires, state, label, version, -, -, hActs, hMove,
      hRecorded, rfl⟩ := completeUpload_ok hCompleted
    exact ⟨act, _, j, .upload hAttempt hActs, hMove, .completed hAttempt,
      Or.inr ⟨_, _, hRecorded⟩⟩

end Journal

end Masonwing
