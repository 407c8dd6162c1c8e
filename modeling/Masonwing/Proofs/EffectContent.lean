import Masonwing.Proofs.Evaluation
import Masonwing.Proofs.HostShows
import Masonwing.Proofs.Sources

/-!
# What the content of an effect denotes

A command that creates an effect records a document that is derived from the content, so the
artifact of the content is there (`Sources`). Nothing compares the reference with it: the store
never looks at the state of the artifact, nor at the digest, the schema version and the
classification that the caller put into the reference.

* `LiveAs.history`: an artifact can be read with its terms exactly if it was released with them and
  was not retracted since;
* `content_faithful_iff`: so the content of a new effect is what it says it is exactly if the
  reference repeats the terms of such an artifact.
-/

namespace Masonwing

open Outcome

variable {ι ν ε : Type}

/-! ## Released and retracted -/

/-- An artifact can be read and was stored with these terms. -/
def LiveAs (j : Journal) (id : Uuid) (terms : Digest × String × Classification) : Prop :=
  ∃ a, j.artifacts.get? id = some a ∧ a.terms = terms ∧ a.state = .active ∧
    ("Artifact", id.toText) ∉ j.tombstones

/-- An artifact cannot be read and will never be. -/
def Gone (j : Journal) (id : Uuid) : Prop :=
  ("Artifact", id.toText) ∈ j.tombstones ∨
    ∃ a, j.artifacts.get? id = some a ∧ a.state ≠ .active ∧ a.state ≠ .pending

theorem Gone.not_liveAs {j : Journal} {id : Uuid} {terms : Digest × String × Classification}
    (h : Gone j id) : ¬LiveAs j id terms := by
  rintro ⟨a, ha, -, hActive, hFree⟩
  rcases h with hTombstone | ⟨b, hb, hState, -⟩
  · exact hFree hTombstone
  · cases ha.symm.trans hb
    exact hState hActive

/-- The operation is a request to delete something that the artifact is derived from. -/
def HostOperation.deletes (op : HostOperation ι ε) (j : Journal) (id : Uuid) : Prop :=
  ∃ c target reason confirmation source, op = .platform (.command c) ∧
    c.input = .deletionRequest target reason confirmation ∧
    Uuid.parse target.resourceId.text = some source ∧ Derivation.Derives j.lineage source id

/-- The operation finalizes the upload of the artifact. -/
def HostOperation.finalizes (op : HostOperation ι ε) (id : Uuid) : Prop :=
  ∃ c text observed, op = .command c ∧ c.input = .artifactFinalize text observed ∧
    Uuid.parse text = some id

/-- The event makes an artifact readable: it finalizes its upload or stores it as an output or a
document. -/
def Releases (e : HostEvent ι ε) (id : Uuid) (terms : Digest × String × Classification) : Prop :=
  (∃ a, e.after.store.tables.journal.artifacts.get? id = some a ∧ a.terms = terms ∧
    a.state = .active) ∧
  (e.before.store.tables.journal.artifacts.get? id = none ∨
    e.call.operation.finalizes id ∧ ∃ a, e.before.store.tables.journal.artifacts.get? id = some a ∧
      a.state = .pending)

/-- The event takes an artifact back: it is deleted or goes into quarantine. -/
def Retracts (e : HostEvent ι ε) (id : Uuid) : Prop :=
  (e.call.operation.deletes e.before.store.tables.journal id ∧
    ("Artifact", id.toText) ∈ e.after.store.tables.journal.tombstones) ∨
  ∃ a a', e.before.store.tables.journal.artifacts.get? id = some a ∧ a.state ≠ .quarantined ∧
    e.after.store.tables.journal.artifacts.get? id = some a' ∧ a'.state = .quarantined

theorem Retracts.gone {e : HostEvent ι ε} {id : Uuid} (h : Retracts e id) :
    Gone e.after.store.tables.journal id := by
  rcases h with ⟨-, hTombstone⟩ | ⟨-, a, -, -, ha, hState⟩
  · exact Or.inl hTombstone
  · refine Or.inr ⟨a, ha, ?_, ?_⟩
    · rw [hState]
      decide
    · rw [hState]
      decide

/-! ## One step -/

section Steps

variable {h : Host ι ν ε} {s : HostState} {c : HostCall ι ε} {id : Uuid}
  {terms : Digest × String × Classification}

theorem Does.deletes {j : Journal} {attempts : List UploadAttempt} {op : HostOperation ι ε}
    {source : Uuid} (h : Does j attempts op (.delete source))
    (hDerived : Derivation.Derives j.lineage source id) : op.deletes j id := by
  cases h with
  | upload hAttempt hActs =>
    rename_i outcome a
    cases outcome <;> cases hActs
  | delete hInput hId => exact ⟨_, _, _, _, _, rfl, hInput, hId, hDerived⟩

theorem Does.finalizes {j : Journal} {attempts : List UploadAttempt} {op : HostOperation ι ε}
    (h : Does j attempts op (.finalize id)) : op.finalizes id := by
  cases h with
  | upload hAttempt hActs =>
    rename_i outcome a
    cases outcome <;> cases hActs
  | finalize hInput hId => exact ⟨_, _, _, rfl, hInput, hId⟩

/-- A row stays through what is recorded, and so do the tombstones. -/
theorem Written.kept {derived : Uuid} {j j' : Journal} {change : ProjectionChange}
    (h : Written derived j j' change) {a : ArtifactRow} (ha : j.artifacts.get? id = some a) :
    j'.artifacts.get? id = some a := by
  obtain ⟨b, hInsert, -⟩ := h.artifact
  exact Table.insert?_get?_of_some hInsert ha

/-- Only a deletion writes a tombstone. -/
theorem tombstone_of_step
    (hAfter : ("Artifact", id.toText) ∈ (hostStep h s c).1.store.tables.journal.tombstones) :
    ("Artifact", id.toText) ∈ s.store.tables.journal.tombstones ∨
      c.operation.deletes s.store.tables.journal id := by
  refine hostStep_keeps (I := fun j => ("Artifact", id.toText) ∈ j.tombstones →
    ("Artifact", id.toText) ∈ s.store.tables.journal.tombstones ∨
      c.operation.deletes s.store.tables.journal id) (fun act j hDoes hMove _ hNew => ?_)
    (fun _ _ _ _ _ _ _ _ _ _ _ hWritten hOld hNew => ?_) Or.inl hAfter
  · rcases hMove.tombstones.mp hNew with hOld | ⟨source, rfl, hDerived⟩
    · exact Or.inl hOld
    · exact Or.inr (hDoes.deletes hDerived)
  · rw [hWritten.tombstones] at hNew
    exact hOld hNew

theorem tombstone_kept (hTombstone : ("Artifact", id.toText) ∈ s.store.tables.journal.tombstones) :
    ("Artifact", id.toText) ∈ (hostStep h s c).1.store.tables.journal.tombstones := by
  refine hostStep_keeps (I := fun j => ("Artifact", id.toText) ∈ j.tombstones)
    (fun act j _ hMove hOld => hMove.tombstones.mpr (Or.inl hOld))
    (fun _ _ _ _ _ _ _ _ _ _ _ hWritten hOld => ?_) hTombstone
  rw [hWritten.tombstones]
  exact hOld

theorem Gone.step (hGone : Gone s.store.tables.journal id) :
    Gone (hostStep h s c).1.store.tables.journal id := by
  rcases hGone with hTombstone | hRow
  · exact Or.inl (tombstone_kept hTombstone)
  refine Or.inr (hostStep_keeps (I := fun j => ∃ a, j.artifacts.get? id = some a ∧
    a.state ≠ .active ∧ a.state ≠ .pending) (fun act j _ hMove hOld => ?_)
    (fun _ _ _ _ _ _ _ _ _ _ _ hWritten hOld => ?_) hRow)
  · obtain ⟨a, ha, hActive, hPending⟩ := hOld
    obtain ⟨a', ha', -, hStep⟩ := hMove.row ha
    refine ⟨a', ha', ?_⟩
    generalize a.state = state at hActive hPending hStep
    generalize a'.state = state' at hStep ⊢
    cases hStep with
    | same => exact ⟨hActive, hPending⟩
    | finalized => exact absurd rfl hPending
    | rejected => exact ⟨by decide, by decide⟩
    | contained => exact absurd rfl hActive
    | deleted => exact ⟨by decide, by decide⟩
  · obtain ⟨a, ha, hState⟩ := hOld
    exact ⟨a, hWritten.kept ha, hState⟩

/-- What can be read after the step could be read before it, or the step released it. -/
theorem LiveAs.of_step (hAfter : LiveAs (hostStep h s c).1.store.tables.journal id terms) :
    LiveAs s.store.tables.journal id terms ∨
      Releases (Machine.eventAt (hostStep h) s c) id terms := by
  obtain ⟨a, ha, hTerms, hActive, hFree⟩ := hAfter
  cases hBefore : s.store.tables.journal.artifacts.get? id with
  | none => exact Or.inr ⟨⟨a, ha, hTerms, hActive⟩, Or.inl hBefore⟩
  | some b =>
    have hRow : ∃ b', (hostStep h s c).1.store.tables.journal.artifacts.get? id = some b' ∧
        b'.terms = b.terms ∧ (b'.state = .active → b.state = .active ∨
          b.state = .pending ∧ c.operation.finalizes id) := by
      refine hostStep_keeps (I := fun j => ∃ b', j.artifacts.get? id = some b' ∧
        b'.terms = b.terms ∧ (b'.state = .active → b.state = .active ∨
          b.state = .pending ∧ c.operation.finalizes id)) (fun act j hDoes hMove _ => ?_)
        (fun _ _ _ _ _ _ _ _ _ _ _ hWritten hOld => ?_) ⟨b, hBefore, rfl, Or.inl⟩
      · obtain ⟨b', hb', hSame, hStep⟩ := hMove.row hBefore
        refine ⟨b', hb', hSame, fun hNow => ?_⟩
        rw [hNow] at hStep
        generalize b.state = state at hStep
        cases hStep with
        | same => exact Or.inl rfl
        | finalized => exact Or.inr ⟨rfl, hDoes.finalizes⟩
      · obtain ⟨b', hb', hSame⟩ := hOld
        exact ⟨b', hWritten.kept hb', hSame⟩
    obtain ⟨b', hb', hSame, hState⟩ := hRow
    cases hb'.symm.trans ha
    rcases hState hActive with hWas | ⟨hPending, hFinal⟩
    · refine Or.inl ⟨b, hBefore, hSame.symm.trans hTerms, hWas, fun hOld => ?_⟩
      exact hFree (tombstone_kept hOld)
    · exact Or.inr ⟨⟨_, ha, hTerms, hActive⟩, Or.inr ⟨hFinal, b, hBefore, hPending⟩⟩

/-- What can be read before a step can be read after it unless the step retracts it. -/
theorem LiveAs.step (hLive : LiveAs s.store.tables.journal id terms)
    (hNot : ¬Retracts (Machine.eventAt (hostStep h) s c) id) :
    LiveAs (hostStep h s c).1.store.tables.journal id terms := by
  obtain ⟨a, ha, hTerms, hActive, hFree⟩ := hLive
  have hFree' : ("Artifact", id.toText) ∉ (hostStep h s c).1.store.tables.journal.tombstones := by
    intro hNew
    rcases tombstone_of_step hNew with hOld | hDeletes
    · exact hFree hOld
    · exact hNot (Or.inl ⟨hDeletes, hNew⟩)
  have hRow : ∃ a', (hostStep h s c).1.store.tables.journal.artifacts.get? id = some a' ∧
      a'.terms = terms ∧ (a'.state = .active ∨ a'.state = .quarantined ∨
        ("Artifact", id.toText) ∈ (hostStep h s c).1.store.tables.journal.tombstones) := by
    have hKept := hostStep_keeps (h := h) (s := s) (c := c)
      (I := fun j => ∃ a', j.artifacts.get? id = some a' ∧ a'.terms = terms ∧
        (a'.state = .active ∨ a'.state = .quarantined ∨ ("Artifact", id.toText) ∈ j.tombstones))
      (fun act j hDoes hMove _ => ?_) (fun _ _ _ _ _ _ _ _ _ _ _ hWritten hOld => ?_)
      ⟨a, ha, hTerms, Or.inl hActive⟩
    · exact hKept
    · obtain ⟨a', ha', hSame, hStep⟩ := hMove.row ha
      refine ⟨a', ha', hSame.trans hTerms, ?_⟩
      have hTombstones := @JournalMove.tombstones _ _ _ _ hMove id
      rw [hActive] at hStep
      generalize a'.state = state' at hStep ⊢
      cases hStep with
      | same => exact Or.inl rfl
      | rejected => exact Or.inr (Or.inl rfl)
      | contained => exact Or.inr (Or.inl rfl)
      | deleted hDerived => exact Or.inr (Or.inr (hTombstones.mpr (Or.inr ⟨_, rfl, hDerived⟩)))
    · obtain ⟨a', ha', hSame, hState⟩ := hOld
      refine ⟨a', hWritten.kept ha', hSame, ?_⟩
      rw [hWritten.tombstones]
      exact hState
  obtain ⟨a', ha', hSame, hNow | hQuarantined | hTombstone⟩ := hRow
  · exact ⟨a', ha', hSame, hNow, hFree'⟩
  · refine absurd (Or.inr ⟨a, a', ha, ?_, ha', hQuarantined⟩) hNot
    rw [hActive]
    decide
  · exact absurd hTombstone hFree'

end Steps

/-! ## Along a run -/

section Runs

variable {h : Host ι ν ε} {start : HostState} {id : Uuid}
  {terms : Digest × String × Classification}

/-- The history of one artifact: released at some time and retracted at none. -/
def ReleasedBy (start : HostState) (past : List (HostEvent ι ε)) (id : Uuid)
    (terms : Digest × String × Classification) : Prop :=
  ("Artifact", id.toText) ∉ start.store.tables.journal.tombstones ∧
    (LiveAs start.store.tables.journal id terms ∨ ∃ e ∈ past, Releases e id terms) ∧
    ∀ e ∈ past, ¬Retracts e id

structure Recounts (start : HostState) (id : Uuid) (terms : Digest × String × Classification)
    (past : List (HostEvent ι ε)) (s : HostState) : Prop where
  live : LiveAs s.store.tables.journal id terms ↔ ReleasedBy start past id terms
  gone : (∃ e ∈ past, Retracts e id) → Gone s.store.tables.journal id
  tombstone : ("Artifact", id.toText) ∈ s.store.tables.journal.tombstones →
    ("Artifact", id.toText) ∈ start.store.tables.journal.tombstones ∨ ∃ e ∈ past, Retracts e id
  first : ("Artifact", id.toText) ∈ start.store.tables.journal.tombstones →
    ("Artifact", id.toText) ∈ s.store.tables.journal.tombstones

theorem Recounts.step {past : List (HostEvent ι ε)} {s : HostState} {c : HostCall ι ε}
    (hPast : Recounts start id terms past s) :
    Recounts start id terms (past ++ [Machine.eventAt (hostStep h) s c]) (hostStep h s c).1 := by
  have hGone : (∃ e ∈ past ++ [Machine.eventAt (hostStep h) s c], Retracts e id) →
      Gone (hostStep h s c).1.store.tables.journal id := by
    rintro ⟨e, he, hRetracts⟩
    rcases List.mem_append.mp he with hOld | hNew
    · exact (hPast.gone ⟨e, hOld, hRetracts⟩).step
    · rw [List.mem_singleton] at hNew
      subst hNew
      exact hRetracts.gone
  have hTombstone : ("Artifact", id.toText) ∈ (hostStep h s c).1.store.tables.journal.tombstones →
      ("Artifact", id.toText) ∈ start.store.tables.journal.tombstones ∨
        ∃ e ∈ past ++ [Machine.eventAt (hostStep h) s c], Retracts e id := by
    intro hNew
    rcases tombstone_of_step hNew with hOld | hDeletes
    · refine (hPast.tombstone hOld).imp_right ?_
      rintro ⟨e, he, hRetracts⟩
      exact ⟨e, List.mem_append_left _ he, hRetracts⟩
    · exact Or.inr ⟨_, List.mem_append_right _ (List.mem_singleton_self _),
        Or.inl ⟨hDeletes, hNew⟩⟩
  refine ⟨⟨fun hLive => ?_, ?_⟩, hGone, hTombstone,
    fun hFirst => tombstone_kept (hPast.first hFirst)⟩
  · have hNone : ∀ e ∈ past ++ [Machine.eventAt (hostStep h) s c], ¬Retracts e id :=
      fun e he hRetracts => (hGone ⟨e, he, hRetracts⟩).not_liveAs hLive
    rcases hLive.of_step with hBefore | hReleases
    · obtain ⟨hFirst, hReleased, -⟩ := hPast.live.mp hBefore
      refine ⟨hFirst, hReleased.imp_right ?_, hNone⟩
      rintro ⟨e, he, hReleases⟩
      exact ⟨e, List.mem_append_left _ he, hReleases⟩
    · obtain ⟨-, -, -, -, hFree⟩ := hLive
      exact ⟨fun hFirst => hFree (tombstone_kept (hPast.first hFirst)),
        Or.inr ⟨_, List.mem_append_right _ (List.mem_singleton_self _), hReleases⟩, hNone⟩
  · rintro ⟨hFirst, hReleased, hNone⟩
    have hNot : ¬Retracts (Machine.eventAt (hostStep h) s c) id :=
      hNone _ (List.mem_append_right _ (List.mem_singleton_self _))
    have hBefore : (LiveAs start.store.tables.journal id terms ∨
        ∃ e ∈ past, Releases e id terms) →
        LiveAs (hostStep h s c).1.store.tables.journal id terms := fun hOld =>
      (hPast.live.mpr ⟨hFirst, hOld, fun e he => hNone e (List.mem_append_left _ he)⟩).step hNot
    rcases hReleased with hStart | ⟨e, he, hReleases⟩
    · exact hBefore (Or.inl hStart)
    · rcases List.mem_append.mp he with hOld | hNew
      · exact hBefore (Or.inr ⟨e, hOld, hReleases⟩)
      · rw [List.mem_singleton] at hNew
        subst hNew
        obtain ⟨⟨a, ha, hTerms, hActive⟩, -⟩ := hReleases
        refine ⟨a, ha, hTerms, hActive, fun hTombstoned => ?_⟩
        rcases hTombstone hTombstoned with hOld | ⟨e, he, hRetracts⟩
        · exact hFirst hOld
        · exact hNone e he hRetracts

/-- An artifact can be read with its terms exactly if it was released with them, at the start or by
an event, and no event retracted it. -/
theorem LiveAs.history (h : Host ι ν ε) (start : HostState) (calls : List (HostCall ι ε))
    (id : Uuid) (terms : Digest × String × Classification) :
    LiveAs (Machine.run (hostStep h) start calls).store.tables.journal id terms ↔
      ReleasedBy start (Machine.trace (hostStep h) start calls) id terms := by
  have hRecounts : Recounts start id terms (Machine.trace (hostStep h) start calls)
      (Machine.run (hostStep h) start calls) := by
    refine Machine.history (hostStep h) (H := Recounts start id terms)
      (fun past s c hPast => hPast.step) ⟨⟨fun hLive => ?_, ?_⟩, ?_, Or.inl, fun hOld => hOld⟩ calls
    · have hFree : ("Artifact", id.toText) ∉ start.store.tables.journal.tombstones := by
        obtain ⟨-, -, -, -, hFree⟩ := hLive
        exact hFree
      exact ⟨hFree, Or.inl hLive, fun e he => (by cases he)⟩
    · rintro ⟨-, hLive | ⟨e, he, -⟩, -⟩
      · exact hLive
      · cases he
    · rintro ⟨e, he, -⟩
      cases he
  exact hRecounts.live

end Runs

/-! ## The content of a new effect -/

def ArtifactRef.terms (r : ArtifactRef) : Digest × String × Classification :=
  (r.digest, r.schemaVersion, r.classification)

/-- The reference denotes an artifact of the tenant that can be read and is what it says. -/
def Faithful (t : Tables) (r : ArtifactRef) : Prop :=
  Uuid.parse r.tenantId.text = some t.identity.tenantId ∧
    ∃ id, Uuid.parse r.artifactId.text = some id ∧ LiveAs t.journal id r.terms

section Effects

variable {h : Host ι ν ε} {s : HostState} {c : HostCall ι ε}

theorem beginActor_tenant {t : Tables} {actor : CommandActor} (h : beginActor t actor = .ok ()) :
    Uuid.parse actor.tenantId.text = some t.identity.tenantId := by
  simp only [beginActor, bind_eq_ok, require_eq_ok, parseUuid_eq_ok, exists_const] at h
  obtain ⟨tenant, hTenant, principal, -, ⟨hSame, -⟩, -⟩ := h
  rw [hSame]
  exact hTenant

/-- The content of a new effect is of the tenant. -/
theorem created_tenant {id : Uuid} {e : EffectRow}
    (hNone : s.store.tables.effects.get? id = none)
    (he : (hostStep h s c).1.store.tables.effects.get? id = some e) :
    Uuid.parse e.contentRef.tenantId.text = some s.store.tables.identity.tenantId := by
  have hKept : ∀ t' : Tables, t'.effects.get? id = some e →
      (s.store.tables.effects.get? id = none → t'.effects.get? id = none) →
      Uuid.parse e.contentRef.tenantId.text = some s.store.tables.identity.tenantId := by
    intro t' he hSame
    cases (hSame hNone).symm.trans he
  rcases (hostStep_outcome h s c).rows with ⟨o, hOp⟩ | ⟨-, hEffects⟩
  · obtain ⟨tick, op⟩ := c
    subst hOp
    rw [hostStep_platform] at he
    have hOutcome := platformStep_outcome h.platform s.store ⟨tick, o⟩
    generalize (platformStep h.platform s.store ⟨tick, o⟩).1.tables = t' at hOutcome he
    dsimp only at hOutcome
    cases hOutcome with
    | unchanged => exact hKept _ he fun hSame => hSame
    | @command call t₁ m j hActor hAuthorized hHandled hJournal hRecorded =>
      obtain ⟨label, accepted, rfl⟩ := (dispatchCommand_creations hHandled).effect id e hNone he
      have hSources := sourcesStored_effect.mp (recordChanges_sources hRecorded)
      rw [hSources.1]
      exact beginActor_tenant hActor
    | further hHandled hRecorded =>
      refine hKept _ he fun hSame => ?_
      dsimp only
      rw [(dispatch_creates hHandled).2]
      exact hSame
    | contained hContained => exact hKept _ he fun hSame => hSame
    | system hCall => exact hKept _ he ((runSystemCall_creates hCall).2 id)
    | checkpoint hRecord =>
      refine hKept _ he fun hSame => ?_
      rcases recordRunCheckpoint_ok hRecord with ⟨-, rfl⟩ | ⟨-, row, checkpoints, -, rfl, -⟩
      · exact hSame
      · exact hSame
  · rw [hEffects, hNone] at he
    cases he

/-- The content of a new effect is faithful exactly if the reference repeats the terms of an
artifact that was released with them and was not retracted since. -/
theorem content_faithful_iff (h : Host ι ν ε) (start : HostState) (calls : List (HostCall ι ε))
    (c : HostCall ι ε) {s : HostState} (hReached : s = Machine.run (hostStep h) start calls)
    {id : Uuid} {e : EffectRow} (hNone : s.store.tables.effects.get? id = none)
    (hCreated : (hostStep h s c).1.store.tables.effects.get? id = some e) :
    Faithful s.store.tables e.contentRef ↔
      ∃ artifact, Uuid.parse e.contentRef.artifactId.text = some artifact ∧
        ReleasedBy start (Machine.trace (hostStep h) start calls) artifact e.contentRef.terms := by
  have hTenant := created_tenant hNone hCreated
  have hHistory : ∀ artifact, LiveAs s.store.tables.journal artifact e.contentRef.terms ↔
      ReleasedBy start (Machine.trace (hostStep h) start calls) artifact e.contentRef.terms := by
    intro artifact
    rw [hReached]
    exact LiveAs.history h start calls artifact _
  constructor
  · rintro ⟨-, artifact, hParse, hLive⟩
    exact ⟨artifact, hParse, (hHistory artifact).mp hLive⟩
  · rintro ⟨artifact, hParse, hReleased⟩
    exact ⟨hTenant, artifact, hParse, (hHistory artifact).mpr hReleased⟩

end Effects

namespace Sample

/-- The content under the digest of other bytes. -/
def forgedRef : ArtifactRef := { contentRef with digest := digest [9] }

def proposeContent (n : Nat) (content : ArtifactRef) : HostCall Empty Empty :=
  onPlatform (coreCommand n
    (.effectPropose "mail.send" connectionId.toText target content grantId.toText "1.0.0"))

/-- The effect that the proposal creates, if it creates one. -/
def proposed? (content : ArtifactRef) : Option EffectRow :=
  (hostStep host (fromOffice [officeStart]) (proposeContent 2 content)).1.store.tables.effects.get?
    (effectOf 2)

theorem effectOf_unused :
    (fromOffice [officeStart]).store.tables.effects.get? (effectOf 2) = none := by
  simp only [Sample.fromOffice, hostStep_bytewise, Sample.host_bytewise]
  decide +kernel

end Sample

/-- The forged digest is accepted, so the effect carries a digest of other bytes than those of its
content. -/
theorem forged_content_accepted :
    ¬ ∀ (calls : List (HostCall Empty Empty)) (c : HostCall Empty Empty) (id : Uuid)
      (e : EffectRow), (Sample.fromOffice calls).store.tables.effects.get? id = none →
      (hostStep Sample.host (Sample.fromOffice calls) c).1.store.tables.effects.get? id = some e →
      Faithful (Sample.fromOffice calls).store.tables e.contentRef := by
  intro hAll
  have hRun : (Sample.proposed? Sample.forgedRef).map (·.contentRef.terms.1) =
        some (Sample.digest [9]) ∧
      (Sample.proposed? Sample.forgedRef).map (Uuid.parse ·.contentRef.artifactId.text) =
        some (some Sample.contentId) ∧
      ((Sample.fromOffice [Sample.officeStart]).store.tables.journal.artifacts.get?
        Sample.contentId).map (·.terms.1) = some (Sample.digest [1]) := by
    simp only [Sample.fromOffice, Sample.proposed?, hostStep_bytewise, Sample.host_bytewise]
    decide +kernel
  obtain ⟨hDigest, hName, hStored⟩ := hRun
  obtain ⟨e, he, hForged⟩ := Option.map_eq_some_iff.mp hDigest
  obtain ⟨stored, hStored, hTrue⟩ := Option.map_eq_some_iff.mp hStored
  rw [he, Option.map_some, Option.some.injEq] at hName
  obtain ⟨-, id, hParse, a, ha, hTerms, -⟩ :=
    hAll [Sample.officeStart] (Sample.proposeContent 2 Sample.forgedRef) (Sample.effectOf 2) e
      Sample.effectOf_unused he
  cases hName.symm.trans hParse
  cases hStored.symm.trans ha
  rw [hTerms, hForged] at hTrue
  exact absurd hTrue (by decide)

theorem true_content_faithful :
    ∃ e, Sample.proposed? Sample.contentRef = some e ∧
      (Faithful (Sample.fromOffice [Sample.officeStart]).store.tables e.contentRef ↔
        ∃ artifact, Uuid.parse e.contentRef.artifactId.text = some artifact ∧
          ReleasedBy Sample.office
            (Machine.trace (hostStep Sample.host) Sample.office [Sample.officeStart]) artifact
            e.contentRef.terms) := by
  have hRun : (Sample.proposed? Sample.contentRef).isSome = true := by
    simp only [Sample.proposed?, Sample.fromOffice, hostStep_bytewise, Sample.host_bytewise]
    decide +kernel
  obtain ⟨e, he⟩ := Option.isSome_iff_exists.mp hRun
  -- given by name, so that the unifier does not run the host to compare the two states
  have hReached : Sample.fromOffice [Sample.officeStart] =
      Machine.run (hostStep Sample.host) Sample.office [Sample.officeStart] := rfl
  exact ⟨e, he, content_faithful_iff Sample.host Sample.office [Sample.officeStart]
    (Sample.proposeContent 2 Sample.contentRef) hReached Sample.effectOf_unused he⟩

end Masonwing
