import Masonwing.Proofs.HostSteps

/-!
# One artifact through a step

What the two parts of a step do to the row of one artifact: a move of the artifacts changes at most
its state (`JournalMove.row`) and creates a row under a fresh identifier (`JournalMove.fresh`); a
recorded change creates one active row with its edges and its projection (`Written`).

* `recordChanges_keeps`: the rule for a property that every recorded change keeps;
* `hostStep_keeps`: the one for a property of the journal that both parts of a step keep.
-/

namespace Masonwing

open Outcome

variable {ι ν ε : Type}

/-! ## Moves -/

/-- What an artifact was stored with; nothing changes it. -/
def ArtifactRow.terms (a : ArtifactRow) : Digest × String × Classification :=
  (a.digest, a.schemaVersion, a.classification)

/-- How a move changes the state of a stored artifact. -/
inductive StateStep (lineage : List (Uuid × Uuid)) (id : Uuid) :
    ArtifactAct → ArtifactState → ArtifactState → Prop
  | same (act : ArtifactAct) (state : ArtifactState) : StateStep lineage id act state state
  | finalized : StateStep lineage id (.finalize id) .pending .active
  | rejected (state : ArtifactState) : StateStep lineage id (.reject id) state .quarantined
  | contained : StateStep lineage id (.contain id) .active .quarantined
  | deleted {target : Uuid} {state : ArtifactState}
      (hDerived : Derivation.Derives lineage target id) (hPurged : state ≠ .purged) :
      StateStep lineage id (.delete target) state .tombstoned

theorem tombstoneRow_ok {a a' : ArtifactRow} (h : tombstoneRow a = .ok a') :
    a'.terms = a.terms ∧ a'.state = .tombstoned := by
  simp only [tombstoneRow, bind_eq_ok, pure_eq_ok] at h
  obtain ⟨version, -, rfl⟩ := h
  exact ⟨rfl, rfl⟩

section Moves

variable {tick : Tick} {j j' : Journal} {act : ArtifactAct}

/-- A stored artifact stays, with its terms. -/
theorem JournalMove.row (h : JournalMove tick j act j') {id : Uuid} {a : ArtifactRow}
    (ha : j.artifacts.get? id = some a) :
    ∃ a', j'.artifacts.get? id = some a' ∧ a'.terms = a.terms ∧
      StateStep j.lineage id act a.state a'.state := by
  -- an artifact under another identifier is as it was
  have hSet : ∀ {k : Uuid} {b b' : ArtifactRow} {act : ArtifactAct},
      j.artifacts.get? k = some b → b'.terms = b.terms → StateStep j.lineage k act b.state b'.state →
      ∃ a', (j.artifacts.set k b').get? id = some a' ∧ a'.terms = a.terms ∧
        StateStep j.lineage id act a.state a'.state := by
    intro k b b' act hb hTerms hState
    by_cases hk : id = k
    · subst hk
      cases ha.symm.trans hb
      exact ⟨b', Table.get?_set_self ha b', hTerms, hState⟩
    · exact ⟨a, (Table.get?_set_ne _ hk b').trans ha, rfl, .same _ _⟩
  cases h with
  | kept hSame => exact ⟨a, by rw [hSame]; exact ha, rfl, .same _ _⟩
  | begun hInsert hPending => exact ⟨a, Table.insert?_get?_of_some hInsert ha, rfl, .same _ _⟩
  | @finalized k b version hFound hPending =>
    exact hSet hFound rfl (by rw [hPending]; exact .finalized)
  | derived hLive hInput hInsert hActive hClassification =>
    exact ⟨a, Table.insert?_get?_of_some hInsert ha, rfl, .same _ _⟩
  | staged hFound hPending => exact hSet hFound rfl (.same _ _)
  | @rejected k b version hFound => exact hSet hFound rfl (.rejected b.state)
  | contained hFound hActive hArtifacts hOthers =>
    rw [hArtifacts]
    exact hSet hFound rfl (by rw [hActive]; exact .contained)
  | @deleted target _ hDeleted =>
    rcases hDeleted.artifacts id with ⟨hNone, -⟩ | ⟨b, b', hb, hb', hRow⟩
    · cases hNone.symm.trans ha
    · cases hb.symm.trans ha
      refine ⟨b', hb', ?_⟩
      split at hRow
      · rename_i hAffected
        obtain ⟨hTerms, hState⟩ := tombstoneRow_ok hRow
        rw [hState]
        exact ⟨hTerms, .deleted (mem_affectedArtifacts.mp hAffected.1) hAffected.2⟩
      · rw [hRow]
        exact ⟨rfl, .same _ _⟩

/-- A new artifact is pending or derived from one that can be read. -/
inductive FreshRow (tick : Tick) (j j' : Journal) (id : Uuid) (a : ArtifactRow) :
    ArtifactAct → Prop
  | begun (hId : id = tick.draw .uploadArtifact) (hPending : a.state = .pending) :
      FreshRow tick j j' id a .begin
  | derived {input : Uuid} {b : ArtifactRow} (hId : id = tick.draw .output)
      (hActive : a.state = .active) (hInput : j.artifacts.get? input = some b)
      (hClassification : a.classification = b.classification) :
      FreshRow tick j j' id a (.derive input)

theorem JournalMove.fresh (h : JournalMove tick j act j') {id : Uuid} {a : ArtifactRow}
    (hNone : j.artifacts.get? id = none) (ha : j'.artifacts.get? id = some a) :
    FreshRow tick j j' id a act := by
  have hSet : ∀ {k : Uuid} {b b' : ArtifactRow}, j.artifacts.get? k = some b →
      (j.artifacts.set k b').get? id = some a → False := by
    intro k b b' hb hSet
    have hk : id ≠ k := by
      rintro rfl
      cases hNone.symm.trans hb
    rw [Table.get?_set_ne _ hk, hNone] at hSet
    cases hSet
  cases h with
  | kept hSame =>
    rw [hSame] at ha
    cases hNone.symm.trans ha
  | begun hInsert hPending =>
    rcases Table.insert?_get?_cases hInsert ha with ⟨hId, rfl⟩ | ⟨-, hOld⟩
    · exact .begun hId hPending
    · cases hNone.symm.trans hOld
  | finalized hFound hPending => exact (hSet hFound ha).elim
  | derived hLive hInput hInsert hActive hClassification =>
    rcases Table.insert?_get?_cases hInsert ha with ⟨hId, rfl⟩ | ⟨-, hOld⟩
    · exact .derived hId hActive hInput hClassification
    · cases hNone.symm.trans hOld
  | staged hFound hPending => exact (hSet hFound ha).elim
  | rejected hFound => exact (hSet hFound ha).elim
  | contained hFound hActive hArtifacts hOthers =>
    rw [hArtifacts] at ha
    exact (hSet hFound ha).elim
  | deleted hDeleted =>
    rcases hDeleted.artifacts id with ⟨-, hNew⟩ | ⟨b, b', hb, hb', hRow⟩
    · cases hNew.symm.trans ha
    · cases hNone.symm.trans hb

theorem JournalMove.projections (h : JournalMove tick j act j') :
    j'.projections = j.projections := by
  cases h with
  | kept hSame => rw [hSame]
  | contained hFound hActive hArtifacts hOthers => rw [hOthers]
  | deleted hDeleted => rw [hDeleted.others]
  | _ => rfl

/-- An edge that a move adds leads from an artifact that can be read to a new one. -/
theorem JournalMove.lineage (h : JournalMove tick j act j') {s d : Uuid} :
    (s, d) ∈ j'.lineage ↔ (s, d) ∈ j.lineage ∨ (act = .derive s ∧ d = tick.draw .output) := by
  cases h with
  | kept hSame =>
    rw [hSame]
    simp
  | derived hLive hInput hInsert hActive hClassification =>
    simp only [List.mem_append, List.mem_singleton, Prod.mk.injEq, ArtifactAct.derive.injEq]
    exact or_congr_right ⟨fun h => ⟨h.1.symm, h.2⟩, fun h => ⟨h.1.symm, h.2⟩⟩
  | contained hFound hActive hArtifacts hOthers =>
    rw [hOthers]
    simp
  | deleted hDeleted =>
    rw [hDeleted.others]
    simp
  | _ => simp

theorem mem_foldl_addTombstone {ids : List Uuid} {tombstones : List (String × String)}
    {t : String × String} : t ∈ ids.foldl addTombstone tombstones ↔
      t ∈ tombstones ∨ ∃ id ∈ ids, t = ("Artifact", id.toText) := by
  induction ids generalizing tombstones with
  | nil => simp
  | cons id ids ih =>
    simp only [List.foldl_cons, ih, List.mem_cons, exists_eq_or_imp]
    rw [← or_assoc]
    refine or_congr_left ?_
    unfold addTombstone
    split
    · rename_i hMem
      refine ⟨Or.inl, ?_⟩
      rintro (hOld | rfl)
      · exact hOld
      · exact hMem
    · rw [List.mem_append, List.mem_singleton]

theorem JournalMove.tombstones (h : JournalMove tick j act j') {id : Uuid} :
    ("Artifact", id.toText) ∈ j'.tombstones ↔ ("Artifact", id.toText) ∈ j.tombstones ∨
      ∃ target, act = .delete target ∧ Derivation.Derives j.lineage target id := by
  cases h with
  | kept hSame =>
    rw [hSame]
    simp
  | contained hFound hActive hArtifacts hOthers =>
    rw [hOthers]
    simp
  | @deleted target _ hDeleted =>
    rw [hDeleted.tombstones, mem_foldl_addTombstone]
    refine or_congr_right ⟨?_, ?_⟩
    · rintro ⟨k, hk, hText⟩
      obtain ⟨-, hSame⟩ := Prod.mk.inj hText
      rw [Uuid.toText_injective hSame]
      exact ⟨target, rfl, mem_affectedArtifacts.mp hk⟩
    · rintro ⟨_, hTarget, hDerived⟩
      cases hTarget
      exact ⟨id, mem_affectedArtifacts.mpr hDerived, rfl⟩
  | _ => simp

end Moves

/-! ## Recorded changes -/

/-- What a change is derived from: the artifacts that are declared and those its value refers to. -/
def ProjectionChange.sources (c : ProjectionChange) : List Uuid :=
  c.sourceArtifacts ++ (projectionSources c.value).filterMap fun r => Uuid.parse r.artifactId.text

/-- What recording a change adds. -/
structure Written (derived : Uuid) (j j' : Journal) (change : ProjectionChange) : Prop where
  artifact : ∃ a, j.artifacts.insert? derived a = some j'.artifacts ∧ a.state = .active ∧
    ∀ s ∈ change.sources, ∃ b, j.artifacts.get? s = some b ∧
      b.classification.rank ≤ a.classification.rank
  lineage : ∀ s d, (s, d) ∈ j'.lineage ↔ (s, d) ∈ j.lineage ∨ (s ∈ change.sources ∧ d = derived)
  projection : ∃ p, j.projections.insert? (projectionKey change.resource) p = some j'.projections ∧
    p.artifactId = derived ∧ p.value = change.value
  tombstones : j'.tombstones = j.tombstones
  named : ∀ r ∈ projectionSources change.value, ∃ s, Uuid.parse r.artifactId.text = some s
  resource : ∃ id, Uuid.parse change.resource.resourceId.text = some id

theorem Classification.rank_le_max_left (a b : Classification) : a.rank ≤ (a.max b).rank := by
  unfold Classification.max
  split
  · assumption
  · exact le_refl _

theorem Classification.rank_le_max_right (a b : Classification) : b.rank ≤ (a.max b).rank := by
  unfold Classification.max
  split
  · exact le_refl _
  · omega

/-- The classification of a projection is at least that of each of its sources. -/
theorem raiseClassification_le {j : Journal} {ids : List Uuid} {c c' : Classification}
    (h : ids.foldlM (raiseClassification j) c = .ok c') : c.rank ≤ c'.rank ∧
      ∀ id ∈ ids, ∃ a, j.artifacts.get? id = some a ∧ a.classification.rank ≤ c'.rank := by
  induction ids generalizing c with
  | nil =>
    cases h
    exact ⟨le_refl _, fun id hMem => (by cases hMem)⟩
  | cons id ids ih =>
    simp only [List.foldlM_cons, raiseClassification, bind_eq_ok, okOr_eq_ok, pure_eq_ok] at h
    obtain ⟨_, ⟨a, ha, rfl⟩, h⟩ := h
    obtain ⟨hLe, hRest⟩ := ih h
    refine ⟨(Classification.rank_le_max_left _ _).trans hLe, fun k hk => ?_⟩
    rcases List.mem_cons.mp hk with rfl | hk
    · exact ⟨a, ha, (Classification.rank_le_max_right _ _).trans hLe⟩
    · exact hRest k hk

theorem mem_foldl_addLineage {derived : Uuid} {ids : List Uuid} {lineage : List (Uuid × Uuid)}
    {s d : Uuid} : (s, d) ∈ ids.foldl (addLineage derived) lineage ↔
      (s, d) ∈ lineage ∨ (s ∈ ids ∧ d = derived) := by
  induction ids generalizing lineage with
  | nil => simp
  | cons id ids ih =>
    rw [List.foldl_cons, ih]
    have hOne : (s, d) ∈ addLineage derived lineage id ↔
        (s, d) ∈ lineage ∨ (s = id ∧ d = derived) := by
      unfold addLineage
      split
      · rename_i hMem
        refine ⟨Or.inl, ?_⟩
        rintro (hOld | ⟨rfl, rfl⟩)
        · exact hOld
        · exact hMem
      · rw [List.mem_append, List.mem_singleton, Prod.mk.injEq]
    rw [hOne, List.mem_cons, or_and_right, or_assoc]

section Recording

variable {env : Env} {tick : Tick} {actor : CommandActor} {operation : String} {index : Nat}
  {j j' : Journal}

/-- The sources that were read are those of the change. -/
theorem mem_sources {change : ProjectionChange} {found : List Uuid}
    (h : (projectionSources change.value).mapM (sourceId actor) = .ok found) (s : Uuid) :
    s ∈ change.sourceArtifacts ++ found ↔ s ∈ change.sources := by
  have hRead : ∀ r id, sourceId actor r = .ok id → Uuid.parse r.artifactId.text = some id := by
    intro r id hSource
    simp only [sourceId, bind_eq_ok, parseUuid_eq_ok] at hSource
    obtain ⟨-, -, hParse⟩ := hSource
    exact hParse
  simp only [ProjectionChange.sources, List.mem_append, List.mem_filterMap]
  refine or_congr_right ⟨fun hs => ?_, ?_⟩
  · obtain ⟨r, hr, hSource⟩ := (mapM_mem h).2 s hs
    exact ⟨r, hr, hRead r s hSource⟩
  · rintro ⟨r, hr, hParse⟩
    obtain ⟨id, hId, hSource⟩ := (mapM_mem h).1 r hr
    cases (hRead r id hSource).symm.trans hParse
    exact hId

theorem recordChange_written {change : ProjectionChange}
    (h : recordChange env tick actor operation index j change = .ok j') :
    Written (tick.draw (.artifact index)) j j' change := by
  simp only [recordChange, writeProjection, bind_eq_ok, pure_eq_ok, sql_eq_ok, insertRow_eq_ok,
    parseUuid_eq_ok, Prod.exists, Prod.mk.injEq] at h
  obtain ⟨_, artifact, ⟨-, -, bytes, -, found, hFound, classification, hRaise, j₁, reference,
    hPersist, -, -, projections, hInsert, rfl, -⟩, principal, -, resource, hResource, audit, -, -, -,
    outbox, -, rfl⟩ := h
  simp only [persistArtifact, bind_eq_ok, sql_eq_ok, insertRow_eq_ok, pure_eq_ok,
    Prod.mk.injEq] at hPersist
  obtain ⟨-, -, -, -, creator, -, -, -, artifacts, hArtifact, rfl, -⟩ := hPersist
  have hSources := mem_sources hFound
  refine ⟨⟨_, hArtifact, rfl, fun s hs => ?_⟩, fun s d => ?_, ⟨_, hInsert, rfl, rfl⟩, rfl,
    fun r hr => ?_, ⟨resource, hResource⟩⟩
  · exact (raiseClassification_le hRaise).2 s (List.mem_dedup.mpr ((hSources s).mpr hs))
  · rw [mem_foldl_addLineage, List.mem_dedup, hSources]
  · obtain ⟨id, -, hSource⟩ := (mapM_mem hFound).1 r hr
    simp only [sourceId, bind_eq_ok, parseUuid_eq_ok] at hSource
    obtain ⟨-, -, hParse⟩ := hSource
    exact ⟨id, hParse⟩

/-- A property of the journal that each of the changes keeps is kept by recording them all. -/
theorem recordChanges_keeps {I : Journal → Prop} {changes : List ProjectionChange}
    (h : recordChanges env tick actor operation index j changes = .ok j')
    (hStep : ∀ i j₁ j₂, ∀ change ∈ changes, Written (tick.draw (.artifact i)) j₁ j₂ change → I j₁ →
      I j₂) (hI : I j) : I j' := by
  induction changes generalizing index j with
  | nil =>
    cases h
    exact hI
  | cons change changes ih =>
    rw [recordChanges, bind_eq_ok] at h
    obtain ⟨j₁, hFirst, hRest⟩ := h
    have hFirst := hStep index j j₁ change List.mem_cons_self (recordChange_written hFirst) hI
    exact ih hRest (fun i j₁ j₂ c hc => hStep i j₁ j₂ c (List.mem_cons_of_mem _ hc)) hFirst

end Recording

/-- A property of the journal that every possible move and every possible change keeps is kept by
the step. -/
theorem hostStep_keeps {h : Host ι ν ε} {s : HostState} {c : HostCall ι ε} {I : Journal → Prop}
    (hMove : ∀ act j, Does s.store.tables.journal s.attempts c.operation act →
      JournalMove c.tick s.store.tables.journal act j → I s.store.tables.journal → I j)
    (hWrite : ∀ act j changes, Does s.store.tables.journal s.attempts c.operation act →
      JournalMove c.tick s.store.tables.journal act j →
      Records h c.tick s.store.tables (hostStep h s c).1.store.tables s.attempts c.operation changes →
      ∀ i j₁ j₂, ∀ change ∈ changes, Written (c.tick.draw (.artifact i)) j₁ j₂ change → I j₁ → I j₂)
    (hI : I s.store.tables.journal) : I (hostStep h s c).1.store.tables.journal := by
  obtain ⟨act, changes, j, hStep⟩ := (hostStep_outcome h s c).journal
  have hMoved : I j := hMove act j hStep.does hStep.move hI
  rcases hStep.recorded with ⟨-, hSame⟩ | ⟨actor, operation, hRecorded⟩
  · rw [hSame]
    exact hMoved
  · have hWrites := hWrite act j changes hStep.does hStep.move hStep.records
    exact recordChanges_keeps hRecorded hWrites hMoved

end Masonwing
