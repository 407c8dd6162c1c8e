import Masonwing.Proofs.Evaluation
import Masonwing.Proofs.HostShows

/-!
# Deleted artifacts

A deletion tombstones an artifact and what is derived from it at that time. What comes later has to
respect the tombstones on its own:

* an attempt to upload that fails after the deletion puts the artifact into quarantine, whatever its
  state is; nothing else leaves `TOMBSTONED` (`tombstoned_stays`);
* commands on effects and runs and the completion of an upload derive a new projection from the
  artifact that they name without looking at its state; where none of them names a tombstoned one,
  nothing active is ever derived from what was deleted (`deletion_closed`).
-/

namespace Masonwing

open Outcome

variable {ι ν ε : Type}

def Tombstoned (j : Journal) (id : Uuid) : Prop :=
  ∃ a, j.artifacts.get? id = some a ∧ a.state = .tombstoned

theorem Live.not_tombstoned {j : Journal} {id : Uuid} (h : Live j id) : ¬Tombstoned j id := by
  obtain ⟨a, ha, hActive, -⟩ := h
  rintro ⟨b, hb, hState⟩
  cases ha.symm.trans hb
  cases hActive.symm.trans hState

-- The content that the small tenant works with is live.
example : (Sample.office.store.tables.journal.artifacts.get? Sample.contentId).map (·.state) =
    some .active := by decide +kernel

/-! ## Leaving the state -/

/-- The upload of a tombstoned artifact is completed with a failure that puts artifacts away. -/
def RejectsTombstoned (e : HostEvent ι ε) : Prop :=
  ∃ attempt failure a, e.call.operation = .completeUpload attempt (.error failure) ∧
    quarantineCodes.contains failure.code = true ∧ e.before.attempts[attempt]? = some a ∧
    Tombstoned e.before.store.tables.journal a.claim.artifact

/-- A rejection comes from the completion of an upload. -/
theorem Does.reject_inv {j : Journal} {attempts : List UploadAttempt} {op : HostOperation ι ε}
    {id : Uuid} (h : Does j attempts op (.reject id)) :
    ∃ attempt failure a, op = .completeUpload attempt (.error failure) ∧
      quarantineCodes.contains failure.code = true ∧ attempts[attempt]? = some a ∧
      a.claim.artifact = id := by
  cases h with
  | @upload attempt outcome a _ hAttempt hActs =>
    cases outcome with
    | ok digest => cases hActs
    | error failure => exact ⟨attempt, failure, a, rfl, hActs.2, hAttempt, hActs.1.symm⟩

theorem Tombstoned.step {h : Host ι ν ε} {s : HostState} {c : HostCall ι ε} {id : Uuid}
    (hDeleted : Tombstoned s.store.tables.journal id)
    (hQuiet : ¬RejectsTombstoned (Machine.eventAt (hostStep h) s c)) :
    Tombstoned (hostStep h s c).1.store.tables.journal id := by
  refine hostStep_keeps (I := fun j => Tombstoned j id) (fun act j hDoes hMove hOld => ?_)
    (fun act j changes hDoes hMove hRecords i j₁ j₂ change hMem hWritten hOld => ?_) hDeleted
  · obtain ⟨a, ha, hState⟩ := hOld
    obtain ⟨a', ha', -, hStep⟩ := hMove.row ha
    refine ⟨a', ha', ?_⟩
    rw [hState] at hStep
    generalize a'.state = state at hStep
    cases hStep with
    | same => rfl
    | deleted => rfl
    | rejected =>
      obtain ⟨attempt, failure, b, hOp, hCode, hAttempt, hArtifact⟩ := hDoes.reject_inv
      refine absurd ⟨attempt, failure, b, hOp, hCode, hAttempt, ?_⟩ hQuiet
      rw [hArtifact]
      exact hDeleted
  · obtain ⟨a, ha, hState⟩ := hOld
    obtain ⟨b, hInsert, -⟩ := hWritten.artifact
    exact ⟨a, Table.insert?_get?_of_some hInsert ha, hState⟩

/-- In a run in which no tombstoned artifact is rejected, an artifact that is tombstoned at some
time is so ever after. -/
theorem tombstoned_stays (h : Host ι ν ε) (s : HostState) (calls : List (HostCall ι ε))
    (hQuiet : ∀ e ∈ Machine.trace (hostStep h) s calls, ¬RejectsTombstoned e)
    (before after : List (HostCall ι ε)) (hCalls : calls = before ++ after) (id : Uuid)
    (hDeleted : Tombstoned (Machine.run (hostStep h) s before).store.tables.journal id) :
    Tombstoned (Machine.run (hostStep h) s calls).store.tables.journal id := by
  subst hCalls
  rw [Machine.run_append]
  rw [Machine.trace_append] at hQuiet
  exact Machine.run_invariant_of (hostStep h)
    (I := fun s => Tombstoned s.store.tables.journal id)
    (fun s c hOld hEvent => hOld.step hEvent) hDeleted
    fun e he => hQuiet e (List.mem_append_right _ he)

namespace Sample

def beginUpload (n : Nat) : HostCall Empty Empty :=
  hostCommand n (.artifactBegin .internal "text/plain" 4 (digest [1]))

def uploadOf (n : Nat) : Uuid := (tick n).draw .upload

def uploadArtifactOf (n : Nat) : Uuid := (tick n).draw .uploadArtifact

def claimCall (n : Nat) (upload : Uuid) : HostCall Empty Empty :=
  ⟨reading n, .claimUpload actor upload.toText none⟩

def completeCall (n attempt : Nat) (outcome : Result Digest) : HostCall Empty Empty :=
  ⟨reading n, .completeUpload attempt outcome⟩

/-- While the bytes of an upload are on their way its artifact is deleted; then the transfer fails. -/
abbrev lateRejection : List (HostCall Empty Empty) :=
  [beginUpload 1, claimCall 2 (uploadOf 1), deleteCall 3 (uploadArtifactOf 1) .one,
    completeCall 4 0 (.error (.invalid "ARTIFACT_DIGEST_MISMATCH"))]

end Sample

theorem deleted_upload_quarantined :
    ((Machine.run (hostStep Sample.host) Sample.office
      (Sample.lateRejection.take 3)).store.tables.journal.artifacts.get?
        (Sample.uploadArtifactOf 1)).map (·.state) = some .tombstoned ∧
    ((Machine.run (hostStep Sample.host) Sample.office
      Sample.lateRejection).store.tables.journal.artifacts.get?
        (Sample.uploadArtifactOf 1)).map (·.state) = some .quarantined := by
  rw [hostStep_bytewise, Sample.host_bytewise]
  decide +kernel

theorem deleted_content_stays :
    Tombstoned (Machine.run (hostStep Sample.host) Sample.office
      [Sample.deleteCall 1 Sample.contentId .one, Sample.beginUpload 2]).store.tables.journal
        Sample.contentId := by
  have hState : ((Machine.run (hostStep Sample.host) Sample.office
      [Sample.deleteCall 1 Sample.contentId .one]).store.tables.journal.artifacts.get?
        Sample.contentId).map (·.state) = some .tombstoned := by
    rw [hostStep_bytewise, Sample.host_bytewise]
    decide +kernel
  have hQuiet : ∀ e ∈ Machine.trace (hostStep Sample.host) Sample.office
      [Sample.deleteCall 1 Sample.contentId .one, Sample.beginUpload 2], ¬RejectsTombstoned e := by
    rintro e he ⟨attempt, failure, a, hOp, -⟩
    rcases List.mem_cons.mp (Machine.call_mem _ he) with hCall | hCall
    · rw [hCall] at hOp
      cases hOp
    · rw [List.mem_singleton.mp hCall] at hOp
      cases hOp
  exact tombstoned_stays Sample.host Sample.office _ hQuiet
    [Sample.deleteCall 1 Sample.contentId .one] [Sample.beginUpload 2] rfl Sample.contentId
    (Option.map_eq_some_iff.mp hState)

/-! ## Deriving from what was deleted -/

/-- The artifacts that the document of an operation is derived from, as far as they are not looked
at; the bytes that a completed upload puts away are no source of anything active. -/
def HostOperation.derivesFrom (t : Tables) (attempts : List UploadAttempt) :
    HostOperation ι ε → Uuid → Prop
  | .platform (.core (.command c)), id =>
    (∀ workflowId workflowVersion inputRef grantId,
      c.input ≠ .runStart workflowId workflowVersion inputRef grantId) ∧
    ∃ content, c.input.content t = some content ∧ Uuid.parse content.artifactId.text = some id
  | .completeUpload attempt outcome, id =>
    ∃ a, attempts[attempt]? = some a ∧ a.claim.artifact = id ∧
      ∀ failure, outcome = .error failure → quarantineCodes.contains failure.code = false
  | _, _ => False

/-- The document of the operation is derived from an artifact that is tombstoned. -/
def DerivesFromTombstoned (e : HostEvent ι ε) : Prop :=
  ∃ id, e.call.operation.derivesFrom e.before.store.tables e.before.attempts id ∧
    Tombstoned e.before.store.tables.journal id

/-- The operations on uploads, deletions, runs, effects and invocations, and those that record no
document. -/
def HostOperation.handlesContent : HostOperation ι ε → Prop
  | .platform (.core (.command c)) => c.input.kind = none
  | .platform (.command c) => ∃ target reason confirmation,
    c.input = .deletionRequest target reason confirmation
  | .command c => (∃ classification contentType size digest,
      c.input = .artifactBegin classification contentType size digest) ∨
    (∃ artifactId observed, c.input = .artifactFinalize artifactId observed) ∨
    ∃ pluginId handlerId inputRef grantId,
      c.input = .pluginInvoke pluginId handlerId inputRef grantId
  | _ => True

/-- What was deleted is deleted with everything derived from it. Edges join stored artifacts; the
artifact of an upload is not derived from anything. -/
structure DeletionClosed (claimed : Uuid → Prop) (j : Journal) : Prop where
  stored : ∀ x y, (x, y) ∈ j.lineage →
    (∃ a, j.artifacts.get? x = some a) ∧ ∃ b, j.artifacts.get? y = some b
  closed : ∀ x y, (x, y) ∈ j.lineage → Tombstoned j x → Tombstoned j y
  purged : ∀ id a, j.artifacts.get? id = some a → a.state ≠ .purged
  pending : ∀ id a, j.artifacts.get? id = some a → a.state = .pending → ∀ x, (x, id) ∉ j.lineage
  claimed : ∀ id, claimed id → (∃ a, j.artifacts.get? id = some a) ∧ ∀ x, (x, id) ∉ j.lineage

theorem JournalMove.deletes {tick : Tick} {j j' : Journal} {target id : Uuid} {a : ArtifactRow}
    (h : JournalMove tick j (.delete target) j') (ha : j.artifacts.get? id = some a)
    (hDerived : Derivation.Derives j.lineage target id) (hPurged : a.state ≠ .purged) :
    Tombstoned j' id := by
  cases h with
  | deleted hDeleted =>
    rcases hDeleted.artifacts id with ⟨hNone, -⟩ | ⟨b, b', hb, hb', hRow⟩
    · cases hNone.symm.trans ha
    · cases hb.symm.trans ha
      rw [if_pos ⟨mem_affectedArtifacts.mpr hDerived, hPurged⟩] at hRow
      exact ⟨b', hb', (tombstoneRow_ok hRow).2⟩

/-- What is tombstoned after a move was so before unless the move is a deletion. -/
theorem JournalMove.tombstoned_of {tick : Tick} {act : ArtifactAct} {j j' : Journal} {id : Uuid}
    (h : JournalMove tick j act j') (hDeleted : Tombstoned j' id) :
    Tombstoned j id ∨ ∃ target, act = .delete target := by
  obtain ⟨b, hb, hState⟩ := hDeleted
  cases hOld : j.artifacts.get? id with
  | some a =>
    obtain ⟨a', ha', -, hStep⟩ := h.row hOld
    cases ha'.symm.trans hb
    rw [hState] at hStep
    generalize hBefore : a.state = state at hStep
    cases hStep with
    | same => exact Or.inl ⟨a, hOld, hBefore⟩
    | deleted => exact Or.inr ⟨_, rfl⟩
  | none =>
    cases h.fresh hOld hb with
    | begun _ hPending => cases hPending.symm.trans hState
    | derived _ hActive _ _ => cases hActive.symm.trans hState

/-- What is tombstoned after a change was recorded was so before. -/
theorem Written.tombstoned_of {derived : Uuid} {j j' : Journal} {change : ProjectionChange} {id : Uuid}
    (h : Written derived j j' change) (hDeleted : Tombstoned j' id) : Tombstoned j id := by
  obtain ⟨a, hInsert, hActive, -⟩ := h.artifact
  obtain ⟨b, hb, hState⟩ := hDeleted
  rcases Table.insert?_get?_cases hInsert hb with ⟨-, rfl⟩ | ⟨-, hb⟩
  · cases hActive.symm.trans hState
  · exact ⟨b, hb, hState⟩

namespace DeletionClosed

variable {claimed : Uuid → Prop} {j j' : Journal}

/-- Nothing active is derived from a tombstoned artifact, in any number of steps. -/
theorem derives (h : DeletionClosed claimed j) {x y : Uuid} (hDeleted : Tombstoned j x)
    (hPath : Derivation.Derives j.lineage x y) : Tombstoned j y := by
  induction hPath with
  | refl => exact hDeleted
  | tail _ hEdge ih => exact h.closed _ _ hEdge ih

/-- A recorded change keeps it unless one of its sources is tombstoned. -/
theorem written {derived : Uuid} {change : ProjectionChange} (h : DeletionClosed claimed j)
    (hWritten : Written derived j j' change) (hSources : ∀ s ∈ change.sources, ¬Tombstoned j s) :
    DeletionClosed claimed j' := by
  obtain ⟨a, hInsert, hActive, hStored⟩ := hWritten.artifact
  obtain ⟨hNew, -⟩ := Table.insert?_eq_some hInsert
  have hKept : ∀ {id : Uuid} {b : ArtifactRow}, j.artifacts.get? id = some b →
      j'.artifacts.get? id = some b := fun hb => Table.insert?_get?_of_some hInsert hb
  have hRow : ∀ {id : Uuid} {b : ArtifactRow}, j'.artifacts.get? id = some b →
      (id = derived ∧ b = a) ∨ j.artifacts.get? id = some b := fun hb =>
    (Table.insert?_get?_cases hInsert hb).imp_right And.right
  have hOld : ∀ {id : Uuid}, id ≠ derived → (Tombstoned j' id ↔ Tombstoned j id) := by
    intro id hId
    refine exists_congr fun b => and_congr_left fun _ => ⟨fun hb => ?_, hKept⟩
    exact (hRow hb).resolve_left fun hDerived => hId hDerived.1
  have hEdges : ∀ {x id : Uuid}, (∃ b, j.artifacts.get? id = some b) → (x, id) ∉ j.lineage →
      (x, id) ∉ j'.lineage := by
    intro x id hFound hNot hEdge
    obtain ⟨b, hb⟩ := hFound
    rcases (hWritten.lineage x id).mp hEdge with hEdge | ⟨-, rfl⟩
    · exact hNot hEdge
    · cases hNew.symm.trans hb
  refine ⟨fun x y hEdge => ?_, fun x y hEdge hDeleted => ?_, fun id b hb => ?_,
    fun id b hb hPending x => ?_, fun id hClaimed => ?_⟩
  · rcases (hWritten.lineage x y).mp hEdge with hEdge | ⟨hSource, rfl⟩
    · obtain ⟨⟨b, hb⟩, c, hc⟩ := h.stored x y hEdge
      exact ⟨⟨b, hKept hb⟩, c, hKept hc⟩
    · obtain ⟨b, hb, -⟩ := hStored x hSource
      exact ⟨⟨b, hKept hb⟩, a, Table.insert?_get?_self hInsert⟩
  · have hStoredEnd : ∀ {id : Uuid}, (∃ b, j.artifacts.get? id = some b) → id ≠ derived := by
      rintro id ⟨b, hb⟩ rfl
      cases hNew.symm.trans hb
    rcases (hWritten.lineage x y).mp hEdge with hEdge | ⟨hSource, rfl⟩
    · obtain ⟨hx, hy⟩ := h.stored x y hEdge
      rw [hOld (hStoredEnd hy)]
      exact h.closed x y hEdge ((hOld (hStoredEnd hx)).mp hDeleted)
    · obtain ⟨b, hb, -⟩ := hStored x hSource
      exact absurd ((hOld (hStoredEnd ⟨b, hb⟩)).mp hDeleted) (hSources x hSource)
  · rcases hRow hb with ⟨-, rfl⟩ | hb
    · rw [hActive]
      decide
    · exact h.purged id b hb
  · rcases hRow hb with ⟨-, rfl⟩ | hb
    · cases hActive.symm.trans hPending
    · exact hEdges ⟨b, hb⟩ (h.pending id b hb hPending x)
  · obtain ⟨⟨b, hb⟩, hNone⟩ := h.claimed id hClaimed
    exact ⟨⟨b, hKept hb⟩, fun x => hEdges ⟨b, hb⟩ (hNone x)⟩

/-- What a move tombstones, it tombstones with everything derived from it. -/
theorem edge_moved {tick : Tick} {act : ArtifactAct} (h : DeletionClosed claimed j)
    (hMove : JournalMove tick j act j') (hReject : ∀ id, act = .reject id → claimed id) {x y : Uuid}
    (hEdge : (x, y) ∈ j.lineage) (hDeleted : Tombstoned j' x) : Tombstoned j' y := by
  obtain ⟨⟨a, ha⟩, b, hb⟩ := h.stored x y hEdge
  obtain ⟨a', ha', -, hSource⟩ := hMove.row ha
  obtain ⟨b', hb', -, hDerived⟩ := hMove.row hb
  have hTombstoned : a'.state = .tombstoned := by
    obtain ⟨c, hc, hState⟩ := hDeleted
    cases hc.symm.trans ha'
    exact hState
  rw [hTombstoned] at hSource
  generalize hOld : a.state = state at hSource
  cases hSource with
  | same =>
    obtain ⟨c, hc, hState⟩ := h.closed x y hEdge ⟨a, ha, hOld⟩
    cases hc.symm.trans hb
    refine ⟨b', hb', ?_⟩
    rw [hState] at hDerived
    generalize b'.state = state at hDerived
    cases hDerived with
    | same => rfl
    | deleted => rfl
    | rejected => exact absurd hEdge ((h.claimed y (hReject y rfl)).2 x)
  | deleted hPath =>
    exact hMove.deletes hb (hPath.tail hEdge) (h.purged y b hb)

/-- So does a move, where only artifacts of uploads are rejected. -/
theorem moved {tick : Tick} {act : ArtifactAct} (h : DeletionClosed claimed j)
    (hMove : JournalMove tick j act j') (hReject : ∀ id, act = .reject id → claimed id) :
    DeletionClosed claimed j' := by
  have hKept : ∀ {id : Uuid}, (∃ a, j.artifacts.get? id = some a) →
      ∃ a, j'.artifacts.get? id = some a := by
    rintro id ⟨a, ha⟩
    obtain ⟨a', ha', -⟩ := hMove.row ha
    exact ⟨a', ha'⟩
  have hEdges : ∀ {x id : Uuid}, (∃ a, j.artifacts.get? id = some a) → (x, id) ∉ j.lineage →
      (x, id) ∉ j'.lineage := by
    intro x id hFound hNot hEdge
    obtain ⟨a, ha⟩ := hFound
    rcases hMove.lineage.mp hEdge with hEdge | ⟨rfl, rfl⟩
    · exact hNot hEdge
    · cases hMove with
      | derived hLive hInput hInsert hActive hClassification =>
        cases (Table.insert?_eq_some hInsert).1.symm.trans ha
  refine ⟨fun x y hEdge => ?_, fun x y hEdge hDeleted => ?_, fun id b hb => ?_,
    fun id b hb hPending x => ?_, fun id hClaimed => ?_⟩
  · rcases hMove.lineage.mp hEdge with hEdge | ⟨rfl, rfl⟩
    · obtain ⟨hx, hy⟩ := h.stored x y hEdge
      exact ⟨hKept hx, hKept hy⟩
    · cases hMove with
      | derived hLive hInput hInsert hActive hClassification =>
        exact ⟨hKept ⟨_, hInput⟩, _, Table.insert?_get?_self hInsert⟩
  · rcases hMove.lineage.mp hEdge with hEdge | ⟨rfl, rfl⟩
    · exact h.edge_moved hMove hReject hEdge hDeleted
    · cases hMove with
      | derived hLive hInput hInsert hActive hClassification =>
        obtain ⟨a, ha, hState⟩ := hDeleted
        rw [Table.insert?_get?_of_some hInsert hInput] at ha
        exact absurd ⟨a, hInput.trans ha, hState⟩ hLive.not_tombstoned
  · cases hOld : j.artifacts.get? id with
    | some a =>
      obtain ⟨a', ha', -, hStep⟩ := hMove.row hOld
      cases ha'.symm.trans hb
      intro hPurged
      rw [hPurged] at hStep
      generalize hState : a.state = state at hStep
      cases hStep
      exact h.purged id a hOld hState
    | none =>
      cases hMove.fresh hOld hb with
      | begun _ hPending =>
        rw [hPending]
        decide
      | derived _ hActive _ _ =>
        rw [hActive]
        decide
  · cases hOld : j.artifacts.get? id with
    | some a =>
      obtain ⟨a', ha', -, hStep⟩ := hMove.row hOld
      cases ha'.symm.trans hb
      rw [hPending] at hStep
      generalize hState : a.state = state at hStep
      cases hStep
      exact hEdges ⟨a, hOld⟩ (h.pending id a hOld hState x)
    | none =>
      intro hEdge
      rcases hMove.lineage.mp hEdge with hEdge | ⟨hAct, -⟩
      · obtain ⟨a, ha⟩ := (h.stored x id hEdge).2
        cases hOld.symm.trans ha
      · have hFresh := hMove.fresh hOld hb
        rw [hAct] at hFresh
        cases hFresh with
        | derived _ hActive _ _ => cases hActive.symm.trans hPending
  · obtain ⟨hFound, hNone⟩ := h.claimed id hClaimed
    exact ⟨hKept hFound, fun x => hEdges hFound (hNone x)⟩

/-- So does recording changes none of which has a tombstoned source. -/
theorem recorded {env : Env} {tick : Tick} {actor : CommandActor} {operation : String}
    {changes : List ProjectionChange} (h : DeletionClosed claimed j)
    (hRecorded : recordChanges env tick actor operation 0 j changes = .ok j')
    (hSources : ∀ change ∈ changes, ∀ s ∈ change.sources, ¬Tombstoned j s) :
    DeletionClosed claimed j' := by
  have hBoth : DeletionClosed claimed j' ∧
      ∀ change ∈ changes, ∀ s ∈ change.sources, ¬Tombstoned j' s := by
    refine recordChanges_keeps (I := fun j => DeletionClosed claimed j ∧
      ∀ change ∈ changes, ∀ s ∈ change.sources, ¬Tombstoned j s) hRecorded
      (fun i j₁ j₂ change hMem hWritten hOld => ?_) ⟨h, hSources⟩
    obtain ⟨hClosed, hOld⟩ := hOld
    refine ⟨hClosed.written hWritten (hOld change hMem), fun c hc s hs hDeleted => ?_⟩
    exact hOld c hc s hs (hWritten.tombstoned_of hDeleted)
  exact hBoth.1

end DeletionClosed

/-- A run is only started with an input that can be read. -/
theorem startRun_live {env : Env} {tick : Tick} {t t' : Tables} {m : Mutation} {actor : CommandActor}
    {workflowId workflowVersion grantId : String} {inputRef : ArtifactRef}
    (h : startRun env tick t actor workflowId workflowVersion inputRef grantId = .ok (t', m)) :
    ∃ s, Uuid.parse inputRef.artifactId.text = some s ∧ Live t.journal s := by
  simp only [startRun, checkRunInput, bind_eq_ok, require_eq_ok, okOr_eq_ok, pure_eq_ok,
    requireDispatchEnabled, Prod.exists, Prod.mk.injEq, exists_const] at h
  obtain ⟨principal, -, -, grant, -, digest, definition, -, schema, -, -, -, -, active, -,
    ⟨metadata, hMetadata, -⟩, -⟩ := h
  obtain ⟨id, a, hId, hLive, -⟩ := artifactMetadata_ok hMetadata
  exact ⟨id, hId, hLive⟩

section Steps

variable {h : Host ι ν ε} {tick : Tick} {t t' : Tables} {attempts attempts' : List UploadAttempt}
  {op : HostOperation ι ε}

/-- What an operation other than the completion of an upload records has no tombstoned source. -/
theorem Records.sources {act : ArtifactAct} {j : Journal} {changes : List ProjectionChange}
    (hRecords : Records h tick t t' attempts op changes) (hDoes : Does t.journal attempts op act)
    (hMove : JournalMove tick t.journal act j)
    (hHandles : op.handlesContent)
    (hOther : ∀ attempt outcome, op ≠ .completeUpload attempt outcome)
    (hQuiet : ∀ id, op.derivesFrom t attempts id → ¬Tombstoned t.journal id) :
    ∀ change ∈ changes, ∀ s ∈ change.sources, ¬Tombstoned j s := by
  -- a source is looked at in the state before the move unless the move is a deletion
  have hBefore : ∀ s, (∀ target, act ≠ .delete target) → ¬Tombstoned t.journal s →
      ¬Tombstoned j s := by
    intro s hAct hOld hDeleted
    rcases hMove.tombstoned_of hDeleted with hDeleted | ⟨target, hTarget⟩
    · exact hOld hDeleted
    · exact hAct target hTarget
  intro change hMem s hs
  cases hRecords with
  | nothing => cases hMem
  | @core c t₁ m hAuthorized hHandled hAfter =>
    refine hBefore s (fun target hAct => ?_) ?_
    · rw [hAct] at hDoes
      cases hDoes
    -- the document is derived from the content that the command names
    have hSource : ∃ content, c.input.content t = some content ∧
        Uuid.parse content.artifactId.text = some s := by
      cases dispatchCommand_shows hHandled with
      | run hShown hRow hParse hContent =>
        rw [hShown] at hMem
        rw [(runMutation_sources hMem).mp hs]
        exact ⟨_, hContent, hParse⟩
      | effect hShown hContent =>
        rw [hShown] at hMem
        exact ⟨_, hContent, (effectMutation_sources hMem).mp hs⟩
      | other hOnly hKind =>
        have hNone : c.input.kind = none := hHandles
        rw [hKind] at hNone
        cases hNone
    by_cases hStart : ∃ workflowId workflowVersion inputRef grantId,
        c.input = .runStart workflowId workflowVersion inputRef grantId
    · obtain ⟨workflowId, workflowVersion, inputRef, grantId, hInput⟩ := hStart
      obtain ⟨content, hContent, hParse⟩ := hSource
      rw [hInput] at hContent
      cases hContent
      unfold dispatchCommand at hHandled
      rw [hInput] at hHandled
      obtain ⟨id, hId, hLive⟩ := startRun_live hHandled
      cases hId.symm.trans hParse
      exact hLive.not_tombstoned
    · refine hQuiet s ⟨fun workflowId workflowVersion inputRef grantId hInput => ?_, hSource⟩
      exact hStart ⟨workflowId, workflowVersion, inputRef, grantId, hInput⟩
  | further hHandled hAfter =>
    obtain ⟨target, reason, confirmation, hInput⟩ := hHandles
    unfold Platform.dispatch at hHandled
    rw [hInput] at hHandled
    rw [requestDeletion_sources hHandled hMem] at hs
    cases hs
  | @command c t₁ m hAuthorized hHandled hAfter =>
    refine hBefore s (fun target hAct => ?_) ?_
    · rw [hAct] at hDoes
      cases hDoes
    unfold Host.dispatch at hHandled
    rcases hHandles with ⟨classification, contentType, size, digest, hInput⟩ |
      ⟨artifactId, observed, hInput⟩ | ⟨pluginId, handlerId, inputRef, grantId, hInput⟩
    · rw [hInput] at hHandled
      obtain ⟨a, u, artifacts, uploads, hInsert, -, -, -, -, -, expires, label, hChanges⟩ :=
        beginArtifact_ok hHandled
      rw [hChanges, List.mem_singleton] at hMem
      rw [hMem, ProjectionChange.sources, projectionSources_upload] at hs
      rw [List.mem_singleton.mp hs]
      rintro ⟨b, hb, -⟩
      cases (Table.insert?_eq_some hInsert).1.symm.trans hb
    · rw [hInput] at hHandled
      obtain ⟨id, upload, u, a, version, uploadVersion, rights, -, -, -, hFound, hPending, -, -,
        label, hChanges⟩ := finalizeArtifact_ok hHandled
      rw [hChanges, List.mem_singleton] at hMem
      rw [hMem, ProjectionChange.sources, projectionSources_upload] at hs
      rw [List.mem_singleton.mp hs]
      rintro ⟨b, hb, hState⟩
      cases hb.symm.trans hFound
      cases hPending.symm.trans hState
    · rw [hInput] at hHandled
      obtain ⟨input, j', rights, hParse, hMoved, -, -, v, outputRef, hOutput, hShown⟩ :=
        invokePlugin_ok hHandled
      cases hMoved with
      | derived hLive hFound hInsert hActive hClassification =>
        rw [hShown, Mutation.one, List.mem_singleton] at hMem
        rw [hMem, ProjectionChange.sources, projectionSources_invocation] at hs
        simp only [List.nil_append, List.mem_filterMap, List.mem_cons, List.not_mem_nil,
          or_false] at hs
        obtain ⟨r, rfl | rfl, hRead⟩ := hs
        · cases hRead.symm.trans hParse
          exact hLive.not_tombstoned
        · rw [hOutput, Uuid.toId_text, Uuid.parse_toText] at hRead
          cases hRead
          rintro ⟨b, hb, -⟩
          cases (Table.insert?_eq_some hInsert).1.symm.trans hb
  | completed hAttempt => exact absurd rfl (hOther _ _)

/-- What the artifacts of an attempt to upload are by the end of the attempt. -/
theorem UploadClaim.acts_live {claim : UploadClaim} {outcome : Result Digest} {act : ArtifactAct}
    {j j' : Journal} (hActs : claim.acts j.artifacts outcome act)
    (hMove : JournalMove tick j act j')
    (hQuiet : (∀ failure, outcome = .error failure →
      quarantineCodes.contains failure.code = false) → ¬Tombstoned j claim.artifact) :
    ¬Tombstoned j' claim.artifact := by
  intro hDeleted
  have hOld : ∀ target, act ≠ .delete target := by
    rintro target rfl
    cases outcome <;> exact hActs
  have hBefore : Tombstoned j claim.artifact :=
    (hMove.tombstoned_of hDeleted).resolve_right fun ⟨target, hAct⟩ => hOld target hAct
  cases outcome with
  | ok digest => exact hQuiet (fun failure hEq => by cases hEq) hBefore
  | error failure =>
    by_cases hCode : quarantineCodes.contains failure.code = true
    · cases act with
      | keep =>
        obtain ⟨a, ha, -⟩ := hBefore
        cases (hActs hCode).symm.trans ha
      | reject id =>
        obtain ⟨rfl, -⟩ := hActs
        cases hMove with
        | rejected hFound =>
          obtain ⟨a, ha, hState⟩ := hDeleted
          rw [Table.get?_set_self hFound] at ha
          cases ha
          cases hState
      | _ => exact hActs
    · refine hQuiet (fun other hEq => ?_) hBefore
      cases hEq
      exact Bool.eq_false_iff.mpr hCode

/-- The artifacts that attempts to upload were made for. -/
def Attempted (attempts : List UploadAttempt) (id : Uuid) : Prop :=
  ∃ a ∈ attempts, a.claim.artifact = id

theorem HostOutcome.closed (hOutcome : HostOutcome h tick t attempts op t' attempts')
    (hClosed : DeletionClosed (Attempted attempts) t.journal) (hHandles : op.handlesContent)
    (hQuiet : ∀ id, op.derivesFrom t attempts id → ¬Tombstoned t.journal id) :
    DeletionClosed (Attempted attempts) t'.journal := by
  by_cases hOther : ∀ attempt outcome, op ≠ .completeUpload attempt outcome
  · obtain ⟨act, changes, j, hStep⟩ := hOutcome.journal
    have hMoved : DeletionClosed (Attempted attempts) j := by
      refine hClosed.moved hStep.move fun id hAct => ?_
      have hDoes := hStep.does
      rw [hAct] at hDoes
      obtain ⟨attempt, failure, a, hOp, -⟩ := hDoes.reject_inv
      exact absurd hOp (hOther _ _)
    rcases hStep.recorded with ⟨-, hSame⟩ | ⟨actor, operation, hRecorded⟩
    · rw [hSame]
      exact hMoved
    · exact hMoved.recorded hRecorded
        (hStep.records.sources hStep.does hStep.move hHandles hOther hQuiet)
  · cases hOutcome with
    | unchanged => exact hClosed
    | @completed attempt outcome a t' answer hAttempt hCompleted =>
      have hMem : a ∈ attempts := List.mem_of_getElem? hAttempt
      obtain ⟨u, u', act, j, j', tenant, expires, state, label, version, -, -, hActs, hMove,
        hRecorded, rfl⟩ := completeUpload_ok hCompleted
      have hMoved : DeletionClosed (Attempted attempts) j := by
        refine hClosed.moved hMove fun id hAct => ?_
        subst hAct
        cases outcome with
        | ok digest => cases hActs
        | error failure => exact ⟨a, hMem, hActs.1.symm⟩
      refine hMoved.recorded hRecorded fun change hChange s hs => ?_
      rw [List.mem_singleton] at hChange
      rw [hChange, ProjectionChange.sources, projectionSources_upload] at hs
      rw [List.mem_singleton.mp hs]
      exact UploadClaim.acts_live hActs hMove fun hCodes => hQuiet _ ⟨a, hAttempt, rfl, hCodes⟩
    | _ => exact absurd (fun attempt outcome hEq => by cases hEq) hOther

/-- A new attempt is for an artifact that is still pending. -/
theorem HostOutcome.attempted (hOutcome : HostOutcome h tick t attempts op t' attempts') {id : Uuid}
    (hNew : Attempted attempts' id) : Attempted attempts id ∨
      t'.journal = t.journal ∧ ∃ a, t.journal.artifacts.get? id = some a ∧ a.state = .pending := by
  cases hOutcome with
  | claimed hClaimed =>
    obtain ⟨u, u', a, -, -, -, hFound, hPending, rfl⟩ := claimUpload_ok hClaimed
    obtain ⟨b, hb, rfl⟩ := hNew
    rcases List.mem_append.mp hb with hb | hb
    · exact Or.inl ⟨b, hb, rfl⟩
    · rw [List.mem_singleton.mp hb]
      exact Or.inr ⟨rfl, a, hFound, hPending⟩
  | _ => exact Or.inl hNew

end Steps

/-- A state in which what was deleted is deleted with everything derived from it. -/
def HostState.DeletionClosed (s : HostState) : Prop :=
  Masonwing.DeletionClosed (Attempted s.attempts) s.store.tables.journal

theorem HostState.DeletionClosed.step {h : Host ι ν ε} {s : HostState} {c : HostCall ι ε}
    (hClosed : s.DeletionClosed) (hHandles : c.operation.handlesContent)
    (hQuiet : ¬DerivesFromTombstoned (Machine.eventAt (hostStep h) s c)) :
    (hostStep h s c).1.DeletionClosed := by
  have hOutcome := hostStep_outcome h s c
  have hAfter := hOutcome.closed hClosed hHandles fun id hDerives hDeleted =>
    hQuiet ⟨id, hDerives, hDeleted⟩
  refine ⟨hAfter.stored, hAfter.closed, hAfter.purged, hAfter.pending, fun id hNew => ?_⟩
  rcases hOutcome.attempted hNew with hOld | ⟨hSame, a, ha, hPending⟩
  · exact hAfter.claimed id hOld
  · rw [hSame]
    exact ⟨⟨a, ha⟩, hClosed.pending id a ha hPending⟩

/-- In every run on uploads, deletions, runs, effects and invocations in which no document is
derived from a tombstoned artifact, nothing active is derived from what was deleted. -/
theorem deletion_closed (h : Host ι ν ε) (s : HostState) (hStart : s.DeletionClosed)
    (calls : List (HostCall ι ε)) (hHandles : ∀ c ∈ calls, c.operation.handlesContent)
    (hQuiet : ∀ e ∈ Machine.trace (hostStep h) s calls, ¬DerivesFromTombstoned e) {j : Journal}
    (hEnd : j = (Machine.run (hostStep h) s calls).store.tables.journal) {x y : Uuid}
    (hDeleted : Tombstoned j x) (hDerived : Derivation.Derives j.lineage x y) {a : ArtifactRow}
    (ha : j.artifacts.get? y = some a) : a.state ≠ .active := by
  have hClosed : (Machine.run (hostStep h) s calls).DeletionClosed :=
    Machine.run_invariant_of (hostStep h) (I := HostState.DeletionClosed)
      (P := fun e => e.call.operation.handlesContent ∧ ¬DerivesFromTombstoned e)
      (fun s c hOld hEvent => hOld.step hEvent.1 hEvent.2) hStart
      fun e he => ⟨hHandles e.call (Machine.call_mem _ he), hQuiet e he⟩
  subst hEnd
  obtain ⟨b, hb, hState⟩ := hClosed.derives hDeleted hDerived
  cases hb.symm.trans ha
  rw [hState]
  decide

namespace Sample

theorem office_closed : office.DeletionClosed := by
  have hPurged : office.store.tables.journal.artifacts.any
      (fun _ a => decide (a.state = .purged)) = false := by decide
  refine ⟨fun x y hEdge => (by cases hEdge), fun x y hEdge _ => (by cases hEdge),
    fun id a ha hState => ?_, fun id a ha hState x hEdge => (by cases hEdge),
    fun id ⟨a, hMem, _⟩ => (by cases hMem)⟩
  rw [Table.any_iff.mpr ⟨id, a, ha, decide_eq_true hState⟩] at hPurged
  cases hPurged

end Sample

/-- An effect is proposed with content that was deleted: its document is active, and derived from
what was deleted. -/
theorem proposed_deleted_content :
    ∃ y a, Tombstoned (Machine.run (hostStep Sample.host) Sample.office
        [Sample.officeStart, Sample.deleteCall 2 Sample.contentId .one,
          Sample.onPlatform (Sample.coreCall (Sample.propose 3))]).store.tables.journal
        Sample.contentId ∧
      Derivation.Derives (Machine.run (hostStep Sample.host) Sample.office
        [Sample.officeStart, Sample.deleteCall 2 Sample.contentId .one,
          Sample.onPlatform (Sample.coreCall (Sample.propose 3))]).store.tables.journal.lineage
        Sample.contentId y ∧
      (Machine.run (hostStep Sample.host) Sample.office
        [Sample.officeStart, Sample.deleteCall 2 Sample.contentId .one,
          Sample.onPlatform (Sample.coreCall (Sample.propose 3))]).store.tables.journal.artifacts.get?
        y = some a ∧ a.state = .active := by
  have hRun : ((Machine.run (hostStep Sample.host) Sample.office
        [Sample.officeStart, Sample.deleteCall 2 Sample.contentId .one,
          Sample.onPlatform (Sample.coreCall (Sample.propose 3))]).store.tables.journal.artifacts.get?
        Sample.contentId).map (·.state) = some .tombstoned ∧
      (Machine.run (hostStep Sample.host) Sample.office
        [Sample.officeStart, Sample.deleteCall 2 Sample.contentId .one,
          Sample.onPlatform (Sample.coreCall (Sample.propose 3))]).store.tables.journal.lineage.any
        (fun e => decide (e.1 = Sample.contentId ∧ ((Machine.run (hostStep Sample.host) Sample.office
          [Sample.officeStart, Sample.deleteCall 2 Sample.contentId .one,
            Sample.onPlatform (Sample.coreCall
              (Sample.propose 3))]).store.tables.journal.artifacts.get? e.2).map (·.state) =
          some .active)) = true := by
    rw [hostStep_bytewise, Sample.host_bytewise]
    decide +kernel
  obtain ⟨⟨x, y⟩, hEdge, hBoth⟩ := List.any_eq_true.mp hRun.2
  obtain ⟨rfl, hActive⟩ := of_decide_eq_true hBoth
  obtain ⟨a, ha, hState⟩ := Option.map_eq_some_iff.mp hActive
  exact ⟨y, a, Option.map_eq_some_iff.mp hRun.1, Relation.ReflTransGen.single hEdge, ha, hState⟩

theorem deleted_run_hidden :
    ∃ y a, (Sample.contentId, y) ∈ (Machine.run (hostStep Sample.host) Sample.office
        [Sample.officeStart, Sample.deleteCall 2 Sample.contentId .one]).store.tables.journal.lineage ∧
      (Machine.run (hostStep Sample.host) Sample.office
        [Sample.officeStart,
          Sample.deleteCall 2 Sample.contentId .one]).store.tables.journal.artifacts.get? y = some a ∧
      a.state ≠ .active := by
  have hRun : ((Machine.run (hostStep Sample.host) Sample.office
        [Sample.officeStart,
          Sample.deleteCall 2 Sample.contentId .one]).store.tables.journal.artifacts.get?
        Sample.contentId).map (·.state) = some .tombstoned ∧
      (Machine.run (hostStep Sample.host) Sample.office
        [Sample.officeStart,
          Sample.deleteCall 2 Sample.contentId .one]).store.tables.journal.lineage.any
        (fun e => decide (e.1 = Sample.contentId ∧ ((Machine.run (hostStep Sample.host) Sample.office
          [Sample.officeStart,
            Sample.deleteCall 2 Sample.contentId .one]).store.tables.journal.artifacts.get?
              e.2).isSome = true)) = true := by
    rw [hostStep_bytewise, Sample.host_bytewise]
    decide +kernel
  obtain ⟨⟨x, y⟩, hEdge, hBoth⟩ := List.any_eq_true.mp hRun.2
  obtain ⟨rfl, hStored⟩ := of_decide_eq_true hBoth
  obtain ⟨a, ha⟩ := Option.isSome_iff_exists.mp hStored
  have hHandles : ∀ c ∈ [Sample.officeStart, Sample.deleteCall 2 Sample.contentId .one],
      c.operation.handlesContent := by
    intro c hc
    rcases List.mem_cons.mp hc with rfl | hc
    · exact rfl
    · rw [List.mem_singleton.mp hc]
      exact ⟨_, _, _, rfl⟩
  have hQuiet : ∀ e ∈ Machine.trace (hostStep Sample.host) Sample.office
      [Sample.officeStart, Sample.deleteCall 2 Sample.contentId .one],
      ¬DerivesFromTombstoned e := by
    rintro e he ⟨id, hDerives, -⟩
    rcases List.mem_cons.mp (Machine.call_mem _ he) with hCall | hCall
    · rw [hCall] at hDerives
      exact hDerives.1 _ _ _ _ rfl
    · rw [List.mem_singleton.mp hCall] at hDerives
      exact hDerives
  exact ⟨y, a, hEdge, ha, deletion_closed Sample.host Sample.office Sample.office_closed
    [Sample.officeStart, Sample.deleteCall 2 Sample.contentId .one] hHandles hQuiet rfl
    (Option.map_eq_some_iff.mp hRun.1) (Relation.ReflTransGen.single hEdge) ha⟩

end Masonwing
