import Masonwing.Proofs.Execution

/-!
# What recording a command writes

`execute` writes one projection for each change of a mutation. `Recorded` is all that this does
to the projections, `recordChanges_ok` says so for the whole loop, `recordOne_succeeds_iff` says
when a single change can be recorded, and `latestProjection_eq_some` reads the newest projection
back.
-/

namespace Masonwing

open Outcome

variable {env : Env} {tick : Tick} {actor : CommandActor} {operation : String} {index : Nat}
  {j j' : Journal}

/-! ## Writing -/

/-- The projections after recording some changes: one new row for each, and the rest as it was. -/
structure Recorded (p p' : Table ProjectionKey ProjectionRow) (changes : List ProjectionChange) :
    Prop where
  fresh : ∀ c ∈ changes, p.get? (projectionKey c.resource) = none
  written : ∀ c ∈ changes, ∃ row, p'.get? (projectionKey c.resource) = some row ∧
    row.value = c.value
  kept : ∀ k, (∀ c ∈ changes, projectionKey c.resource ≠ k) → p'.get? k = p.get? k

theorem persistArtifact_projections {bytes : Bytes} {contentType : String}
    {classification : Classification} {reference : ArtifactRef}
    (h : persistArtifact env tick actor index j bytes contentType classification =
      .ok (j', reference)) : j'.projections = j.projections := by
  simp only [persistArtifact, bind_eq_ok, pure_eq_ok, Prod.mk.injEq] at h
  obtain ⟨-, -, -, -, creator, -, -, -, artifacts, -, rfl, -⟩ := h
  rfl

theorem recordChange_ok {change : ProjectionChange}
    (h : recordChange env tick actor operation index j change = .ok j') :
    ∃ row, j.projections.insert? (projectionKey change.resource) row = some j'.projections ∧
      row.value = change.value := by
  simp only [recordChange, writeProjection, bind_eq_ok, pure_eq_ok, sql_eq_ok, insertRow_eq_ok,
    Prod.exists, Prod.mk.injEq] at h
  obtain ⟨_, artifact, ⟨-, -, bytes, -, found, -, classification, -, j₁, reference, hPersist, -, -,
    projections, hInsert, rfl, -⟩, principal, -, resource, -, audit, -, -, -, outbox, -, rfl⟩ := h
  rw [persistArtifact_projections hPersist] at hInsert
  exact ⟨_, hInsert, rfl⟩

theorem recordChanges_ok {changes : List ProjectionChange}
    (h : recordChanges env tick actor operation index j changes = .ok j') :
    Recorded j.projections j'.projections changes := by
  induction changes generalizing index j with
  | nil =>
    cases h
    exact ⟨fun c hc => (by cases hc), fun c hc => (by cases hc), fun k _ => rfl⟩
  | cons change changes ih =>
    rw [recordChanges, bind_eq_ok] at h
    obtain ⟨j₁, hFirst, hRest⟩ := h
    obtain ⟨row, hInsert, hValue⟩ := recordChange_ok hFirst
    have hRecorded := ih hRest
    have hFirstRow := Table.insert?_get?_self hInsert
    refine ⟨fun c hc => ?_, fun c hc => ?_, fun k hk => ?_⟩
    · rcases List.mem_cons.mp hc with rfl | hc
      · exact (Table.insert?_eq_some hInsert).1
      · have hFresh := hRecorded.fresh c hc
        rw [Table.insert?_get? hInsert] at hFresh
        split at hFresh
        · cases hFresh
        · exact hFresh
    · rcases List.mem_cons.mp hc with rfl | hc
      · -- the later changes have other keys: theirs were free when the first was written
        refine ⟨row, ?_, hValue⟩
        rw [hRecorded.kept, hFirstRow]
        intro later hLater hKey
        rw [← hKey, hRecorded.fresh later hLater] at hFirstRow
        cases hFirstRow
      · exact hRecorded.written c hc
    · rw [hRecorded.kept k fun c hc => hk c (List.mem_cons_of_mem _ hc),
        Table.insert?_get? hInsert, if_neg fun hEq => hk change List.mem_cons_self hEq.symm]

/-! ## Sources -/

/-- The artifact behind a reference is there. -/
def ContentStored (j : Journal) (content : ArtifactRef) : Prop :=
  ∃ id a, Uuid.parse content.artifactId.text = some id ∧ j.artifacts.get? id = some a

/-- The sources of a projection can be read exactly if they are of the actor's tenant and their
artifacts are there, in whatever state. -/
theorem readSources_iff {sources : List ArtifactRef} {extra : List Uuid} {c : Classification} :
    (∃ found, sources.mapM (sourceId actor) = .ok found ∧
      ∃ c', (extra ++ found).dedup.foldlM (raiseClassification j) c = .ok c') ↔
      (∀ source ∈ sources, source.tenantId = actor.tenantId ∧ ContentStored j source) ∧
        ∀ id ∈ extra, ∃ a, j.artifacts.get? id = some a := by
  have hSource : ∀ source id, sourceId actor source = .ok id ↔
      source.tenantId = actor.tenantId ∧ Uuid.parse source.artifactId.text = some id := by
    intro source id
    simp only [sourceId, bind_eq_ok, require_eq_ok, exists_const]
    exact and_congr_right fun _ => okOr_eq_ok
  have hRaise : ∀ (ids : List Uuid), (∃ c', ids.foldlM (raiseClassification j) c = .ok c') ↔
      ∀ id ∈ ids, ∃ a, j.artifacts.get? id = some a := by
    intro ids
    refine foldlM_succeeds_iff fun b id => ?_
    simp only [raiseClassification, bind_eq_ok, okOr_eq_ok, pure_eq_ok]
    constructor
    · rintro ⟨_, a, ha, -⟩
      exact ⟨a, ha⟩
    · rintro ⟨a, ha⟩
      exact ⟨_, a, ha, rfl⟩
  simp only [hRaise, List.mem_dedup, List.mem_append]
  constructor
  · rintro ⟨found, hFound, hStored⟩
    refine ⟨fun source hMem => ?_, fun id hMem => hStored id (Or.inl hMem)⟩
    obtain ⟨id, hId, hRead⟩ := (mapM_mem hFound).1 source hMem
    obtain ⟨hTenant, hParse⟩ := (hSource source id).mp hRead
    obtain ⟨a, ha⟩ := hStored id (Or.inr hId)
    exact ⟨hTenant, id, a, hParse, ha⟩
  · rintro ⟨hSources, hExtra⟩
    have hReads : ∀ source ∈ sources, ∃ id, sourceId actor source = .ok id := by
      intro source hMem
      obtain ⟨hTenant, id, _, hParse, -⟩ := hSources source hMem
      exact ⟨id, (hSource source id).mpr ⟨hTenant, hParse⟩⟩
    obtain ⟨found, hFound⟩ := mapM_succeeds hReads
    refine ⟨found, hFound, fun id hMem => ?_⟩
    rcases hMem with hMem | hMem
    · exact hExtra id hMem
    · obtain ⟨source, hSourceMem, hRead⟩ := (mapM_mem hFound).2 id hMem
      obtain ⟨-, id', a, hParse, ha⟩ := hSources source hSourceMem
      cases (Option.some.inj (((hSource source id).mp hRead).2.symm.trans hParse))
      exact ⟨a, ha⟩

/-! ## Recording one change -/

/-- The identifiers that recording one change draws are new. -/
structure FreshRecord (tick : Tick) (j : Journal) : Prop where
  artifact : j.artifacts.get? (tick.draw (.artifact 0)) = none
  stored : ∀ k a, j.artifacts.get? k = some a →
    ∀ actor digest, a.storageKey ≠ storageKey actor (tick.draw (.artifact 0)) digest
  audit : j.audit.get? (tick.draw (.audit 0)) = none
  outbox : j.outbox.get? (tick.draw (.outbox 0)) = none

/-- The place of the identifier in a storage key, read from the end. -/
def keySlot (key : String) : List Char := (key.toList.reverse.drop 65).take 36

theorem keySlot_storageKey (actor : CommandActor) (id : Uuid) (digest : Digest) :
    keySlot (storageKey actor id digest) = id.chars.reverse := by
  have hDigest : digest.hex.toList.length = 64 := by simp [Digest.hex]
  have hId : id.toText.toList = id.chars := by simp [Uuid.toText]
  have hText : (storageKey actor id digest).toList.reverse =
      (digest.hex.toList.reverse ++ ['/']) ++ (id.chars.reverse ++
        ('/' :: actor.tenantId.text.toList.reverse)) := by
    simp [storageKey, hId]
  have hFirst : (digest.hex.toList.reverse ++ ['/']).length = 65 := by simp [hDigest]
  have hSecond : id.chars.reverse.length = 36 := by simp [Uuid.chars_length]
  rw [keySlot, hText, List.drop_left' hFirst, List.take_left' hSecond]

/-- The identifiers that recording one change draws, looked up in the journal. -/
def recordUnused (tick : Tick) (j : Journal) : Bool :=
  !(j.artifacts.contains (tick.draw (.artifact 0))) &&
  !(j.artifacts.any fun _ a =>
    decide (keySlot a.storageKey = (tick.draw (.artifact 0)).chars.reverse)) &&
  !(j.audit.contains (tick.draw (.audit 0))) && !(j.outbox.contains (tick.draw (.outbox 0)))

theorem freshRecord_of_unused (h : recordUnused tick j = true) : FreshRecord tick j := by
  simp only [recordUnused, Bool.and_eq_true, Bool.not_eq_true', Table.any_eq_false_iff,
    decide_eq_false_iff_not] at h
  obtain ⟨⟨⟨hArtifact, hStored⟩, hAudit⟩, hOutbox⟩ := h
  refine ⟨Table.get?_eq_none_of_not_contains hArtifact, fun k a ha actor digest hKey => ?_,
    Table.get?_eq_none_of_not_contains hAudit, Table.get?_eq_none_of_not_contains hOutbox⟩
  refine hStored k a ha ?_
  rw [hKey]
  exact keySlot_storageKey actor _ digest

/-- The document of a change matches its contract, and the object store takes it. -/
structure Writable (env : Env) (tick : Tick) (change : ProjectionChange) : Prop where
  contract : env.schemaValid change.resource.resourceType change.value = true
  canonical : ∃ bytes, env.canonicalBytes change.value = some bytes ∧ 1 ≤ bytes.length ∧
    bytes.length ≤ 1073741824
  put : ∀ key, tick.put key = .ok ()

/-- The document of a change matches its contract, if its kind has one, and can be stored. -/
structure Persistable (env : Env) (tick : Tick) (change : ProjectionChange) : Prop where
  contract : baselineResourceTypes.contains change.resource.resourceType = false ∨
    env.schemaValid change.resource.resourceType change.value = true
  canonical : ∃ bytes, env.canonicalBytes change.value = some bytes ∧ 1 ≤ bytes.length ∧
    bytes.length ≤ 1073741824
  put : ∀ key, tick.put key = .ok ()

theorem Writable.persistable {change : ProjectionChange} (h : Writable env tick change) :
    Persistable env tick change := ⟨Or.inr h.contract, h.canonical, h.put⟩

/-- The artifacts that a change is derived from are of the actor's tenant and are there. -/
structure SourcesStored (actor : CommandActor) (j : Journal) (change : ProjectionChange) :
    Prop where
  named : ∀ source ∈ projectionSources change.value,
    source.tenantId = actor.tenantId ∧ ContentStored j source
  added : ∀ id ∈ change.sourceArtifacts, ∃ a, j.artifacts.get? id = some a

/-- The version was neither shown nor announced under this name yet. -/
structure Unrecorded (j : Journal) (operation kind : String) (id : Uuid) (version : Version) :
    Prop where
  shown : j.projections.get? ⟨kind, id.toText, version.val⟩ = none
  announced : ∀ k o, j.outbox.get? k = some o → ¬(o.aggregateId = id ∧
    o.aggregateVersion = version.val ∧ o.eventName = operation)

section One

variable {change : ProjectionChange} {kind : String} {id : Uuid} {version : Version}

theorem persistArtifact_of_fresh {principal : Uuid} {bytes : Bytes} {contentType : String}
    {classification : Classification} (hFresh : FreshRecord tick j)
    (hSize : 1 ≤ bytes.length ∧ bytes.length ≤ 1073741824) (hPut : ∀ key, tick.put key = .ok ())
    (hPrincipal : parseUuid actor.principalId.text = .ok principal) :
    ∃ artifacts reference, persistArtifact env tick actor 0 j bytes contentType classification =
      .ok ({ j with artifacts }, reference) := by
  simp only [persistArtifact, bind_eq_ok, require_eq_ok, sql_eq_ok, insertRow_eq_ok, pure_eq_ok,
    exists_const, Prod.mk.injEq, Table.any_eq_false_iff, decide_eq_false_iff_not]
  obtain ⟨artifacts, hInsert⟩ := Table.insert?_isSome_iff.mpr hFresh.artifact
  have hNew : ∀ k a, j.artifacts.get? k = some a →
      ¬a.storageKey = storageKey actor (tick.draw (.artifact 0)) (env.digestBytes bytes) :=
    fun k a ha => hFresh.stored k a ha actor _
  exact ⟨artifacts, _, hSize, (), hPut _, principal, hPrincipal, hNew, artifacts, hInsert, rfl, rfl⟩

/-- What was written was derived from stored artifacts. -/
theorem writeProjection_sources {reference : ArtifactRef}
    (h : writeProjection env tick actor index j change = .ok (j', reference)) :
    SourcesStored actor j change := by
  simp only [writeProjection, bind_eq_ok] at h
  obtain ⟨-, -, bytes, -, found, hFound, c, hc, -⟩ := h
  obtain ⟨hNamed, hAdded⟩ := readSources_iff.mp ⟨found, hFound, c, hc⟩
  exact ⟨hNamed, hAdded⟩

/-- A document is written exactly if its sources are there and its version was not shown yet. -/
theorem writeProjection_succeeds_iff {principal : Uuid}
    (hResource : change.resource = resourceRef kind id version) (hFresh : FreshRecord tick j)
    (hPersistable : Persistable env tick change)
    (hPrincipal : parseUuid actor.principalId.text = .ok principal) :
    (∃ j' reference, writeProjection env tick actor 0 j change = .ok (j', reference)) ↔
      SourcesStored actor j change ∧
        j.projections.get? ⟨kind, id.toText, version.val⟩ = none := by
  have hKey : projectionKey change.resource = ⟨kind, id.toText, version.val⟩ := by
    rw [hResource]
    rfl
  constructor
  · rintro ⟨j', reference, hWrite⟩
    refine ⟨writeProjection_sources hWrite, ?_⟩
    simp only [writeProjection, bind_eq_ok, sql_eq_ok, insertRow_eq_ok, Prod.exists] at hWrite
    obtain ⟨-, -, bytes, -, found, -, c, -, j₁, r, hPersist, -, -, projections, hInsert, -⟩ := hWrite
    rw [persistArtifact_projections hPersist, hKey] at hInsert
    exact (Table.insert?_eq_some hInsert).1
  · rintro ⟨hSources, hFree⟩
    obtain ⟨found, hFound, c, hc⟩ := readSources_iff.mpr ⟨hSources.named, hSources.added⟩
    obtain ⟨bytes, hBytes, hSize⟩ := hPersistable.canonical
    obtain ⟨artifacts, reference, hPersist⟩ :=
      persistArtifact_of_fresh hFresh hSize hPersistable.put hPrincipal
    rw [← hKey] at hFree
    obtain ⟨projections, hInsert⟩ := Table.insert?_isSome_iff.mpr hFree
    have hPositive : 0 < change.resource.version := by
      rw [hResource]
      exact version.pos
    simp only [writeProjection, bind_eq_ok, require_eq_ok, okOr_eq_ok, sql_eq_ok, insertRow_eq_ok,
      pure_eq_ok, exists_const, Prod.exists, Prod.mk.injEq]
    exact ⟨_, reference, hPersistable.contract, bytes, hBytes, found, hFound, c, hc, _,
      reference, hPersist, hPositive, projections, hInsert, rfl, rfl⟩

theorem writeProjection_frame {reference : ArtifactRef}
    (h : writeProjection env tick actor index j change = .ok (j', reference)) :
    j'.audit = j.audit ∧ j'.outbox = j.outbox := by
  simp only [writeProjection, persistArtifact, bind_eq_ok, pure_eq_ok, Prod.exists,
    Prod.mk.injEq] at h
  obtain ⟨-, -, bytes, -, found, -, c, -, j₁, r, ⟨-, -, -, -, -, -, -, -, artifacts, -, rfl, -⟩, -, -,
    projections, -, rfl, -⟩ := h
  exact ⟨rfl, rfl⟩

/-- One change is recorded exactly if its sources are there and its version is new. -/
theorem recordOne_succeeds_iff {principal : Uuid}
    (hResource : change.resource = resourceRef kind id version) (hFresh : FreshRecord tick j)
    (hPersistable : Persistable env tick change)
    (hPrincipal : parseUuid actor.principalId.text = .ok principal) :
    (∃ j', recordChanges env tick actor operation 0 j [change] = .ok j') ↔
      SourcesStored actor j change ∧ Unrecorded j operation kind id version := by
  have hWrites := writeProjection_succeeds_iff hResource hFresh hPersistable hPrincipal
  have hId : parseUuid change.resource.resourceId.text = .ok id := by
    rw [hResource]
    exact parseUuid_toText id
  have hVersion : change.resource.version = version.val := by rw [hResource]; rfl
  simp only [recordChanges, recordChange, bind_eq_ok, require_eq_ok, sql_eq_ok, insertRow_eq_ok,
    pure_eq_ok, exists_const, Prod.exists, Table.any_eq_false_iff, decide_eq_false_iff_not, hId,
    hPrincipal, hVersion, Except.ok.injEq]
  constructor
  · rintro ⟨_, j₂, ⟨j₁, reference, hWrite, -, -, _, rfl, audit, -, hAnnounced, -⟩, -⟩
    obtain ⟨hSources, hShown⟩ := hWrites.mp ⟨j₁, reference, hWrite⟩
    rw [(writeProjection_frame hWrite).2] at hAnnounced
    exact ⟨hSources, hShown, hAnnounced⟩
  · rintro ⟨hSources, hUnrecorded⟩
    obtain ⟨j₁, reference, hWrite⟩ := hWrites.mpr ⟨hSources, hUnrecorded.shown⟩
    obtain ⟨hAudit, hOutbox⟩ := writeProjection_frame hWrite
    obtain ⟨audit, hAuditRow⟩ := Table.insert?_isSome_iff.mpr hFresh.audit
    obtain ⟨outbox, hOutboxRow⟩ := Table.insert?_isSome_iff.mpr hFresh.outbox
    rw [← hAudit] at hAuditRow
    rw [← hOutbox] at hOutboxRow
    have hAnnounced := hUnrecorded.announced
    rw [← hOutbox] at hAnnounced
    exact ⟨_, _, ⟨j₁, reference, hWrite, principal, rfl, id, rfl, audit, hAuditRow, hAnnounced,
      outbox, hOutboxRow, rfl⟩, rfl⟩

/-- The changes that were recorded had their sources, in the journal before the first. -/
theorem recordChanges_sources {changes : List ProjectionChange}
    (h : recordChanges env tick actor operation index j (change :: changes) = .ok j') :
    SourcesStored actor j change := by
  simp only [recordChanges, recordChange, bind_eq_ok, Prod.exists] at h
  obtain ⟨_, ⟨j₁, reference, hWrite, -⟩, -⟩ := h
  exact writeProjection_sources hWrite

/-- The only reference in the document of an effect is that of its content. -/
theorem projectionSources_effect (tenant id : Uuid) (e : EffectRow) :
    projectionSources (effectProjectionValue env tenant id e) = [e.contentRef] := by
  have hApproval : projectionSources (.ofOption (fun a : Uuid => .str a.toText) e.approvalId) =
      [] := by
    cases e.approvalId with
    | none => exact projectionSources_null
    | some a => exact projectionSources_str _
  rw [effectProjectionValue, projectionSources_obj (by decide)]
  simp [projectionSourcesOfFields, hApproval]

/-- The document of an effect can be derived exactly if its content is the tenant's and there. -/
theorem sourcesStored_effect {resource : ResourceRef} {tenant id : Uuid} {e : EffectRow}
    {label : String} :
    SourcesStored actor j
      { resource, value := effectProjectionValue env tenant id e, label, sourceArtifacts := [] } ↔
      e.contentRef.tenantId = actor.tenantId ∧ ContentStored j e.contentRef := by
  have hOnly := @projectionSources_effect env tenant id e
  constructor
  · intro h
    have hMem : e.contentRef ∈ projectionSources (effectProjectionValue env tenant id e) := by
      rw [hOnly]
      exact List.mem_singleton_self _
    exact h.named _ hMem
  · refine fun h => ⟨fun source hSource => ?_, fun _ hNone => (by cases hNone)⟩
    rw [hOnly, List.mem_singleton] at hSource
    rw [hSource]
    exact h

/-- What a mutation of an effect needs to be recorded. -/
theorem recordEffect_iff {t : Tables} {e : EffectRow} {label : String} {accepted : Bool}
    {principal : Uuid} (hFresh : FreshRecord tick t.journal)
    (hWritable : ∀ change ∈ (effectMutation env t id e label accepted).changes,
      Writable env tick change) (hPrincipal : parseUuid actor.principalId.text = .ok principal) :
    (∃ j', recordChanges env tick actor operation 0 t.journal
      (effectMutation env t id e label accepted).changes = .ok j') ↔
      (e.contentRef.tenantId = actor.tenantId ∧ ContentStored t.journal e.contentRef) ∧
        Unrecorded t.journal operation "EffectIntent" id e.version := by
  have hRecord : (∃ j', recordChanges env tick actor operation 0 t.journal
      (effectMutation env t id e label accepted).changes = .ok j') ↔
      SourcesStored actor t.journal
        { resource := resourceRef "EffectIntent" id e.version
          value := effectProjectionValue env t.identity.tenantId id e, label
          sourceArtifacts := [] } ∧
        Unrecorded t.journal operation "EffectIntent" id e.version :=
    recordOne_succeeds_iff rfl hFresh (hWritable _ List.mem_cons_self).persistable hPrincipal
  exact hRecord.trans (and_congr_left' sourcesStored_effect)

end One

/-! ## Reading -/

/-- One comparison keeps the newer of the two. -/
theorem newer_eq {α : Type} (best : Option (Int × α)) (a : Int × α) :
    ∃ r, newer best a = some r ∧ (r = a ∨ best = some r) ∧ a.1 ≤ r.1 ∧ ∀ b ∈ best, b.1 ≤ r.1 := by
  cases best with
  | none => exact ⟨a, rfl, Or.inl rfl, le_refl _, fun b hb => (by cases hb)⟩
  | some b =>
    by_cases hLess : b.1 < a.1
    · refine ⟨a, if_pos hLess, Or.inl rfl, le_refl _, fun b' hb' => ?_⟩
      cases hb'
      omega
    · refine ⟨b, if_neg hLess, Or.inr rfl, by omega, fun b' hb' => ?_⟩
      cases hb'
      exact le_refl _

theorem foldl_newer_some {α : Type} {l : List (Int × α)} {best : Option (Int × α)} {q : Int × α}
    (h : l.foldl newer best = some q) :
    (q ∈ l ∨ best = some q) ∧ (∀ r ∈ l, r.1 ≤ q.1) ∧ ∀ b ∈ best, b.1 ≤ q.1 := by
  induction l generalizing best with
  | nil =>
    refine ⟨Or.inr h, fun r hr => (by cases hr), fun b hb => ?_⟩
    cases hb.symm.trans h
    exact le_refl _
  | cons a l ih =>
    obtain ⟨r, hNewer, hFrom, hHead, hOld⟩ := newer_eq best a
    rw [List.foldl_cons, hNewer] at h
    obtain ⟨hMem, hList, hBest⟩ := ih h
    have hr : r.1 ≤ q.1 := hBest r rfl
    refine ⟨?_, fun x hx => ?_, fun b hb => (hOld b hb).trans hr⟩
    · rcases hMem with hMem | hMem
      · exact Or.inl (List.mem_cons_of_mem _ hMem)
      · cases hMem
        rcases hFrom with rfl | hFrom
        · exact Or.inl List.mem_cons_self
        · exact Or.inr hFrom
    · rcases List.mem_cons.mp hx with rfl | hx
      · exact hHead.trans hr
      · exact hList x hx

theorem foldl_newer_isSome {α : Type} (l : List (Int × α)) (b : Int × α) :
    ∃ q, l.foldl newer (some b) = some q := by
  induction l generalizing b with
  | nil => exact ⟨b, rfl⟩
  | cons a l ih =>
    obtain ⟨r, hNewer, -⟩ := newer_eq (some b) a
    rw [List.foldl_cons, hNewer]
    exact ih r

theorem foldl_newer_none {α : Type} {l : List (Int × α)} :
    l.foldl newer none = none ↔ l = [] := by
  cases l with
  | nil => exact ⟨fun _ => rfl, fun _ => rfl⟩
  | cons a l =>
    obtain ⟨q, hq⟩ := foldl_newer_isSome l a
    constructor
    · intro h
      cases hq.symm.trans h
    · intro h
      cases h

/-- The rows of a resource by their versions. -/
theorem mem_projections {kind id : String} {v : Int} {p : ProjectionRow} :
    (v, p) ∈ (j.projections.select fun k _ =>
      decide (k.resourceType = kind ∧ k.resourceId = id)).map (fun p => (p.1.version, p.2)) ↔
      j.projections.get? ⟨kind, id, v⟩ = some p := by
  rw [List.mem_map]
  constructor
  · rintro ⟨⟨k, q⟩, hMem, hPair⟩
    obtain ⟨hGet, hKey⟩ := Table.mem_select.mp hMem
    obtain ⟨rfl, rfl⟩ := of_decide_eq_true hKey
    cases hPair
    exact hGet
  · intro hGet
    exact ⟨(⟨kind, id, v⟩, p), Table.mem_select.mpr ⟨hGet, decide_eq_true ⟨rfl, rfl⟩⟩, rfl⟩

/-- The newest projection of a resource. -/
theorem latestProjection_eq_some {kind id : String} {v : Int} {p : ProjectionRow} :
    latestProjection j kind id = some (v, p) ↔
      j.projections.get? ⟨kind, id, v⟩ = some p ∧
        ∀ w q, j.projections.get? ⟨kind, id, w⟩ = some q → w ≤ v := by
  unfold latestProjection
  constructor
  · intro h
    obtain ⟨hMem, hList, -⟩ := foldl_newer_some h
    rcases hMem with hMem | hMem
    · exact ⟨mem_projections.mp hMem, fun w q hq => hList _ (mem_projections.mpr hq)⟩
    · cases hMem
  · rintro ⟨hp, hMax⟩
    cases hLatest : ((j.projections.select fun k _ => decide (k.resourceType = kind ∧
        k.resourceId = id)).map fun p => (p.1.version, p.2)).foldl newer none with
    | none =>
      have hMem := mem_projections.mpr hp
      rw [foldl_newer_none.mp hLatest] at hMem
      cases hMem
    | some q =>
      obtain ⟨w, q⟩ := q
      obtain ⟨hMem | hMem, hList, -⟩ := foldl_newer_some hLatest
      · have hq := mem_projections.mp hMem
        have hLe := hMax w q hq
        have hGe := hList _ (mem_projections.mpr hp)
        have hEq : w = v := by omega
        subst hEq
        cases hp.symm.trans hq
        rfl
      · cases hMem

theorem latestProjection_eq_none {kind id : String} :
    latestProjection j kind id = none ↔ ∀ v, j.projections.get? ⟨kind, id, v⟩ = none := by
  unfold latestProjection
  rw [foldl_newer_none, List.eq_nil_iff_forall_not_mem]
  constructor
  · intro h v
    cases hp : j.projections.get? ⟨kind, id, v⟩ with
    | none => rfl
    | some p => exact absurd (mem_projections.mpr hp) (h (v, p))
  · rintro h ⟨v, p⟩ hMem
    cases (h v).symm.trans (mem_projections.mp hMem)

end Masonwing
