import Mathlib.Data.Option.Basic
import Masonwing.Proofs.ArtifactRows
import Masonwing.Proofs.Evaluation

/-!
# Lineage and classification

Every edge of the lineage leads to an artifact that is classified at least as high, and every
reference inside a projected value has its edge. An object that reads as a reference has only texts
in its fields, so that the walk of `projectionSources`, which stops there, misses no reference
(`mem_projectionSources_of_occurs`).
-/

namespace Masonwing

open Outcome

variable {ι ν ε : Type}

/-! ## References inside a value -/

/-- `v` is somewhere in a value, at any depth. -/
inductive Json.Occurs (v : Json) : Json → Prop
  | here : Json.Occurs v v
  | item {w : Json} {items : List Json} (hMem : w ∈ items) (h : Json.Occurs v w) :
      Json.Occurs v (.arr items)
  | field {key : String} {w : Json} {fields : List (String × Json)}
      (hField : fields.lookup key = some w) (h : Json.Occurs v w) : Json.Occurs v (.obj fields)

theorem mem_sourcesOfItems {r : ArtifactRef} {w : Json} {items : List Json} (hMem : w ∈ items)
    (h : r ∈ projectionSources w) : r ∈ projectionSourcesOfItems items := by
  induction items with
  | nil => cases hMem
  | cons item items ih =>
    rw [projectionSourcesOfItems, List.mem_append]
    rcases List.mem_cons.mp hMem with rfl | hMem
    · exact Or.inl h
    · exact Or.inr (ih hMem)

theorem mem_sourcesOfFields {r : ArtifactRef} {key : String} {w : Json}
    {fields : List (String × Json)} (hField : fields.lookup key = some w)
    (h : r ∈ projectionSources w) : r ∈ projectionSourcesOfFields fields := by
  induction fields with
  | nil => cases hField
  | cons field fields ih =>
    rw [projectionSourcesOfFields, List.mem_append]
    rw [List.lookup_cons] at hField
    split at hField
    · cases hField
      exact Or.inl h
    · exact Or.inr (ih hField)

theorem Json.str?_eq_some {v : Json} {s : String} (h : v.str? = some s) : v = .str s := by
  cases v with
  | str t =>
    cases h
    rfl
  | _ => cases h

/-- The fields of a reference are texts. -/
theorem ArtifactRef.field_of_fromJson? {fields : List (String × Json)} {r : ArtifactRef}
    (h : ArtifactRef.fromJson? (.obj fields) = some r) {key : String} {w : Json}
    (hField : fields.lookup key = some w) : ∃ s, w = .str s := by
  obtain ⟨_, hNames, h⟩ := Option.bind_eq_some_iff.mp h
  obtain ⟨v₁, h₁, h⟩ := Option.bind_eq_some_iff.mp h
  obtain ⟨a, hText₁, h⟩ := Option.bind_eq_some_iff.mp h
  obtain ⟨v₂, h₂, h⟩ := Option.bind_eq_some_iff.mp h
  obtain ⟨b, hText₂, h⟩ := Option.bind_eq_some_iff.mp h
  obtain ⟨v₃, h₃, h⟩ := Option.bind_eq_some_iff.mp h
  obtain ⟨c, hText₃, h⟩ := Option.bind_eq_some_iff.mp h
  obtain ⟨v₄, h₄, h⟩ := Option.bind_eq_some_iff.mp h
  obtain ⟨d, hText₄, h⟩ := Option.bind_eq_some_iff.mp h
  obtain ⟨v₅, h₅, h⟩ := Option.bind_eq_some_iff.mp h
  obtain ⟨e, hText₅, -⟩ := Option.bind_eq_some_iff.mp h
  have hName : key ∈ ArtifactRef.fieldNames := by
    obtain ⟨before, after, rfl, -⟩ := List.lookup_eq_some_iff.mp hField
    have hAll := List.all_eq_true.mp ((Option.guard_eq_some' _).mp hNames) (key, w)
      (List.mem_append_right before List.mem_cons_self)
    exact List.contains_iff_mem.mp hAll
  simp only [ArtifactRef.fieldNames, List.mem_cons, List.not_mem_nil, or_false] at hName
  rcases hName with rfl | rfl | rfl | rfl | rfl
  · cases h₁.symm.trans hField
    exact ⟨a, Json.str?_eq_some hText₁⟩
  · cases h₂.symm.trans hField
    exact ⟨b, Json.str?_eq_some hText₂⟩
  · cases h₃.symm.trans hField
    exact ⟨c, Json.str?_eq_some hText₃⟩
  · cases h₄.symm.trans hField
    exact ⟨d, Json.str?_eq_some hText₄⟩
  · cases h₅.symm.trans hField
    exact ⟨e, Json.str?_eq_some hText₅⟩

/-- Every reference that occurs in a value is found. -/
theorem mem_projectionSources_of_occurs {v w : Json} {r : ArtifactRef} (h : Json.Occurs v w)
    (hRead : ArtifactRef.fromJson? v = some r) : r ∈ projectionSources w := by
  induction h with
  | here =>
    cases v with
    | obj fields =>
      rw [projectionSources, hRead]
      exact List.mem_singleton_self r
    | _ => cases hRead
  | item hMem h ih =>
    rw [projectionSources]
    exact mem_sourcesOfItems hMem ih
  | @field key w fields hField h ih =>
    rw [projectionSources]
    split
    · rename_i outer hOuter
      -- a field of a reference is a text, in which no reference occurs
      obtain ⟨s, rfl⟩ := ArtifactRef.field_of_fromJson? hOuter hField
      rw [projectionSources_str] at ih
      cases ih
    · exact mem_sourcesOfFields hField ih

/-! ## The lineage of a journal -/

/-- Every edge joins stored artifacts and does not lower the classification, and every reference in
a projected value has its edge. -/
structure LineageSound (j : Journal) : Prop where
  classified : ∀ s d, (s, d) ∈ j.lineage → ∃ a b, j.artifacts.get? s = some a ∧
    j.artifacts.get? d = some b ∧ a.classification.rank ≤ b.classification.rank
  projected : ∀ k p, j.projections.get? k = some p → ∀ r ∈ projectionSources p.value,
    ∃ s, Uuid.parse r.artifactId.text = some s ∧ (s, p.artifactId) ∈ j.lineage

namespace LineageSound

variable {j j' : Journal}

/-- Along the lineage the classification does not decrease. -/
theorem derives (h : LineageSound j) {s d : Uuid} (hPath : Derivation.Derives j.lineage s d)
    {a : ArtifactRow} (ha : j.artifacts.get? s = some a) :
    ∃ b, j.artifacts.get? d = some b ∧ a.classification.rank ≤ b.classification.rank := by
  induction hPath with
  | refl => exact ⟨a, ha, le_refl _⟩
  | tail _ hEdge ih =>
    obtain ⟨b, hb, hLe⟩ := ih
    obtain ⟨b', c, hb', hc, hNext⟩ := h.classified _ _ hEdge
    cases hb.symm.trans hb'
    exact ⟨c, hc, hLe.trans hNext⟩

/-- A move creates an edge only from an artifact to one that is classified like it. -/
theorem moved {tick : Tick} {act : ArtifactAct} (h : LineageSound j)
    (hMove : JournalMove tick j act j') : LineageSound j' := by
  have hKept : ∀ id a, j.artifacts.get? id = some a →
      ∃ a', j'.artifacts.get? id = some a' ∧ a'.classification = a.classification := by
    intro id a ha
    obtain ⟨a', ha', hTerms, -⟩ := hMove.row ha
    exact ⟨a', ha', congrArg (fun terms => terms.2.2) hTerms⟩
  refine ⟨fun s d hEdge => ?_, fun k p hp r hr => ?_⟩
  · rcases hMove.lineage.mp hEdge with hOld | ⟨rfl, rfl⟩
    · obtain ⟨a, b, ha, hb, hLe⟩ := h.classified s d hOld
      obtain ⟨a', ha', hSame⟩ := hKept s a ha
      obtain ⟨b', hb', hSame'⟩ := hKept d b hb
      refine ⟨a', b', ha', hb', ?_⟩
      rw [hSame, hSame']
      exact hLe
    · cases hMove with
      | derived hLive hInput hInsert hActive hClassification =>
        refine ⟨_, _, Table.insert?_get?_of_some hInsert hInput, Table.insert?_get?_self hInsert, ?_⟩
        rw [hClassification]
  · rw [hMove.projections] at hp
    obtain ⟨s, hParse, hEdge⟩ := h.projected k p hp r hr
    exact ⟨s, hParse, hMove.lineage.mpr (Or.inl hEdge)⟩

/-- A recorded change is classified at least as high as each of its sources. -/
theorem written {derived : Uuid} {change : ProjectionChange} (h : LineageSound j)
    (hWritten : Written derived j j' change) : LineageSound j' := by
  obtain ⟨a, hInsert, -, hSources⟩ := hWritten.artifact
  obtain ⟨p, hShown, hArtifact, hValue⟩ := hWritten.projection
  refine ⟨fun s d hEdge => ?_, fun k q hq r hr => ?_⟩
  · rcases (hWritten.lineage s d).mp hEdge with hOld | ⟨hSource, rfl⟩
    · obtain ⟨b, c, hb, hc, hLe⟩ := h.classified s d hOld
      exact ⟨b, c, Table.insert?_get?_of_some hInsert hb, Table.insert?_get?_of_some hInsert hc, hLe⟩
    · obtain ⟨b, hb, hLe⟩ := hSources s hSource
      exact ⟨b, a, Table.insert?_get?_of_some hInsert hb, Table.insert?_get?_self hInsert, hLe⟩
  · rcases Table.insert?_get?_cases hShown hq with ⟨-, rfl⟩ | ⟨-, hOld⟩
    · rw [hValue] at hr
      obtain ⟨s, hParse⟩ := hWritten.named r hr
      refine ⟨s, hParse, (hWritten.lineage _ _).mpr (Or.inr ⟨?_, hArtifact⟩)⟩
      exact List.mem_append_right _ (List.mem_filterMap.mpr ⟨r, hr, hParse⟩)
    · obtain ⟨s, hParse, hEdge⟩ := h.projected k q hOld r hr
      exact ⟨s, hParse, (hWritten.lineage _ _).mpr (Or.inl hEdge)⟩

theorem step {h : Host ι ν ε} {s : HostState} {c : HostCall ι ε}
    (hSound : LineageSound s.store.tables.journal) :
    LineageSound (hostStep h s c).1.store.tables.journal :=
  hostStep_keeps (fun _ _ _ hMove hSound => hSound.moved hMove)
    (fun _ _ _ _ _ _ _ _ _ _ _ hWritten hSound => hSound.written hWritten) hSound

end LineageSound

/-! ## What was recorded stays -/

/-- The projection of a change is there, with an edge from each of its sources. -/
def Sourced (j : Journal) (change : ProjectionChange) : Prop :=
  ∃ p, j.projections.get? (projectionKey change.resource) = some p ∧
    ∀ s ∈ change.sources, (s, p.artifactId) ∈ j.lineage

namespace Sourced

variable {j j' : Journal} {change : ProjectionChange}

theorem written {derived : Uuid} {next : ProjectionChange} (h : Sourced j change)
    (hWritten : Written derived j j' next) : Sourced j' change := by
  obtain ⟨p, hp, hEdges⟩ := h
  obtain ⟨q, hShown, -⟩ := hWritten.projection
  refine ⟨p, Table.insert?_get?_of_some hShown hp, fun s hs => ?_⟩
  exact (hWritten.lineage _ _).mpr (Or.inl (hEdges s hs))

theorem of_written {derived : Uuid} (hWritten : Written derived j j' change) :
    Sourced j' change := by
  obtain ⟨p, hShown, hArtifact, -⟩ := hWritten.projection
  refine ⟨p, Table.insert?_get?_self hShown, fun s hs => ?_⟩
  exact (hWritten.lineage _ _).mpr (Or.inr ⟨hs, hArtifact⟩)

/-- Each of the changes of a command has its edges when all of them are recorded. -/
theorem recorded {env : Env} {tick : Tick} {actor : CommandActor} {operation : String} {index : Nat}
    {changes : List ProjectionChange}
    (h : recordChanges env tick actor operation index j changes = .ok j') :
    ∀ c ∈ changes, Sourced j' c := by
  induction changes generalizing index j with
  | nil => exact fun c hc => (by cases hc)
  | cons first changes ih =>
    rw [recordChanges, bind_eq_ok] at h
    obtain ⟨j₁, hFirst, hRest⟩ := h
    intro c hc
    rcases List.mem_cons.mp hc with rfl | hc
    · exact recordChanges_keeps (I := fun j => Sourced j c) hRest
        (fun _ _ _ _ _ hWritten hOld => hOld.written hWritten)
        (of_written (recordChange_written hFirst))
    · exact ih hRest c hc

theorem step {h : Host ι ν ε} {s : HostState} {c : HostCall ι ε}
    (hSourced : Sourced s.store.tables.journal change) :
    Sourced (hostStep h s c).1.store.tables.journal change := by
  refine hostStep_keeps (I := fun j => Sourced j change) (fun act j _ hMove hOld => ?_)
    (fun _ _ _ _ _ _ _ _ _ _ _ hWritten hOld => hOld.written hWritten) hSourced
  obtain ⟨p, hp, hEdges⟩ := hOld
  refine ⟨p, ?_, fun s hs => hMove.lineage.mpr (Or.inl (hEdges s hs))⟩
  rw [hMove.projections]
  exact hp

end Sourced

section Runs

variable (h : Host ι ν ε)

/-- Classification never drops along the lineage, and no source of a projection is missing from it:
neither a reference inside the value nor an artifact that its writer declared. -/
theorem lineage_complete (s : HostState) (hStart : LineageSound s.store.tables.journal)
    (calls : List (HostCall ι ε)) {j : Journal}
    (hEnd : j = (Machine.run (hostStep h) s calls).store.tables.journal) :
    (∀ x y, (x, y) ∈ j.lineage → ∃ a b, j.artifacts.get? x = some a ∧
      j.artifacts.get? y = some b ∧ a.classification.rank ≤ b.classification.rank) ∧
    (∀ x y a, Derivation.Derives j.lineage x y → j.artifacts.get? x = some a →
      ∃ b, j.artifacts.get? y = some b ∧ a.classification.rank ≤ b.classification.rank) ∧
    (∀ k p v r, j.projections.get? k = some p → Json.Occurs v p.value →
      ArtifactRef.fromJson? v = some r →
      ∃ x, Uuid.parse r.artifactId.text = some x ∧ (x, p.artifactId) ∈ j.lineage) ∧
    ∀ before c after, calls = before ++ c :: after → ∀ actor operation j₁ changes,
      recordChanges h.env c.tick actor operation 0 j₁ changes =
        .ok (Machine.run (hostStep h) s (before ++ [c])).store.tables.journal →
      ∀ change ∈ changes, ∃ p, j.projections.get? (projectionKey change.resource) = some p ∧
        ∀ x ∈ change.sources, (x, p.artifactId) ∈ j.lineage := by
  have hSound : LineageSound j := by
    rw [hEnd]
    exact Machine.run_invariant (hostStep h) (I := fun s => LineageSound s.store.tables.journal)
      (fun s c hOld => hOld.step) hStart calls
  refine ⟨hSound.classified, fun x y a hPath ha => hSound.derives hPath ha,
    fun k p v r hp hOccurs hRead => ?_, ?_⟩
  · exact hSound.projected k p hp r (mem_projectionSources_of_occurs hOccurs hRead)
  · rintro before c after rfl actor operation j₁ changes hRecorded change hMem
    have hThen := Sourced.recorded hRecorded change hMem
    have hSplit : Machine.run (hostStep h) s (before ++ c :: after) =
        Machine.run (hostStep h) (Machine.run (hostStep h) s (before ++ [c])) after := by
      rw [← Machine.run_append, List.append_assoc, List.singleton_append]
    rw [hEnd, hSplit]
    exact Machine.run_invariant (hostStep h)
      (I := fun s => Sourced s.store.tables.journal change) (fun s c hOld => hOld.step) hThen after

end Runs

namespace Sample

theorem office_projections : ∀ k p, office.store.tables.journal.projections.get? k = some p →
    p.value = .null ∧ k.resourceType ≠ "Run" := by
  intro k p hp
  have hMem := Table.get?_eq_some_iff.mp hp
  simp only [office, List.mem_cons, List.not_mem_nil, or_false, Prod.mk.injEq] at hMem
  rcases hMem with ⟨rfl, rfl⟩ | ⟨rfl, rfl⟩
  · exact ⟨rfl, by decide⟩
  · exact ⟨rfl, by decide⟩

theorem office_lineage : LineageSound office.store.tables.journal := by
  refine ⟨fun s d hEdge => (by cases hEdge), fun k p hp r hr => ?_⟩
  rw [(office_projections k p hp).1, projectionSources_null] at hr
  cases hr

end Sample

/-- The projection of a started run is derived from its input and classified like it. -/
theorem started_run_classified :
    ∃ x y a b, (x, y) ∈ (Machine.run (hostStep Sample.host) Sample.office
        [Sample.officeStart]).store.tables.journal.lineage ∧
      (Machine.run (hostStep Sample.host) Sample.office
        [Sample.officeStart]).store.tables.journal.artifacts.get? x = some a ∧
      (Machine.run (hostStep Sample.host) Sample.office
        [Sample.officeStart]).store.tables.journal.artifacts.get? y = some b ∧
      a.classification.rank ≤ b.classification.rank := by
  have hEdges : (Machine.run (hostStep Sample.host) Sample.office
      [Sample.officeStart]).store.tables.journal.lineage.isEmpty = false := by
    rw [hostStep_bytewise, Sample.host_bytewise]
    decide +kernel
  obtain ⟨⟨x, y⟩, hEdge⟩ := List.exists_mem_of_ne_nil _ (List.isEmpty_eq_false_iff.mp hEdges)
  have hComplete := lineage_complete Sample.host Sample.office Sample.office_lineage
    [Sample.officeStart] rfl
  obtain ⟨a, b, ha, hb, hLe⟩ := hComplete.1 x y hEdge
  exact ⟨x, y, a, b, hEdge, ha, hb, hLe⟩

end Masonwing
