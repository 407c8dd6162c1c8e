import Masonwing.Proofs.ArtifactRows
import Masonwing.Proofs.Evaluation
import Masonwing.Proofs.PluginSteps

/-!
# What a deletion does

`requestDeletion_exact`: on every lineage a deletion tombstones what is derived from its target, in
any number of steps, and revokes the rights in force on it, and leaves all other artifacts,
tombstones and rights as they were. An artifact under legal hold among these fails the whole
command.
-/

namespace Masonwing

open Outcome

/-! ## Tombstones -/

theorem addTombstone_nodup {tombstones : List (String × String)} (h : tombstones.Nodup) (id : Uuid) :
    (addTombstone tombstones id).Nodup := by
  unfold addTombstone
  split
  · exact h
  · rename_i hNew
    rw [List.nodup_append]
    refine ⟨h, List.nodup_singleton _, ?_⟩
    rintro old hOld new hMem rfl
    exact hNew (List.mem_singleton.mp hMem ▸ hOld)

theorem foldl_addTombstone_nodup {tombstones : List (String × String)} (h : tombstones.Nodup)
    (ids : List Uuid) : (ids.foldl addTombstone tombstones).Nodup := by
  induction ids generalizing tombstones with
  | nil => exact h
  | cons id ids ih => exact ih (addTombstone_nodup h id)

/-- Lists without repetitions count what they both have, or both have not, alike. -/
theorem count_eq_of_mem_iff {α : Type} [BEq α] [LawfulBEq α] {xs ys : List α} {a : α} (hx : xs.Nodup)
    (hy : ys.Nodup) (h : a ∈ xs ↔ a ∈ ys) : xs.count a = ys.count a := by
  by_cases hMem : a ∈ xs
  · rw [List.count_eq_one_of_mem hx hMem, List.count_eq_one_of_mem hy (h.mp hMem)]
  · rw [List.count_eq_zero_of_not_mem hMem, List.count_eq_zero_of_not_mem fun hIn => hMem (h.mpr hIn)]

theorem affectedArtifacts_nodup (lineage : List (Uuid × Uuid)) (id : Uuid) :
    (affectedArtifacts lineage id).Nodup := by
  have hRounds : ∀ n (ids : List Uuid), ids.Nodup → (deriveFrom lineage n ids).Nodup := by
    intro n
    induction n with
    | zero => exact fun _ h => h
    | succ n ih => exact fun _ _ => ih _ (List.nodup_dedup _)
  exact (List.perm_insertionSort _ _).nodup_iff.mpr (hRounds _ _ (List.nodup_singleton id))

/-! ## Rows -/

theorem tombstoneRow_row {a a' : ArtifactRow} (h : tombstoneRow a = .ok a') :
    a'.version.val = a.version.val + 1 ∧
      a' = { a with state := .tombstoned, version := a'.version } := by
  simp only [tombstoneRow, bind_eq_ok, okOr_eq_ok, pure_eq_ok] at h
  obtain ⟨version, hVersion, rfl⟩ := h
  exact ⟨Version.next?_eq_some hVersion, rfl⟩

theorem revokeRights_row {r r' : RightsRow} (h : revokeRights r = .ok r') :
    r'.version.val = r.version.val + 1 ∧
      r' = { r with state := .revoked, version := r'.version } := by
  simp only [revokeRights, bind_eq_ok, okOr_eq_ok, pure_eq_ok] at h
  obtain ⟨version, hVersion, rfl⟩ := h
  exact ⟨Version.next?_eq_some hVersion, rfl⟩

/-- What an update of the affected rows with a guard leaves. -/
theorem updateAffected {ρ : Type} {table table' : Table Uuid ρ} {ids : List Uuid}
    {guard : ρ → Prop} [DecidablePred guard] {f : ρ → Except SqlError ρ}
    (h : table.updateWhereM (fun k r => ids.contains k && decide (guard r)) f = .ok table') :
    (∀ {k r}, k ∈ ids → table.get? k = some r → guard r →
      ∃ r', table'.get? k = some r' ∧ f r = .ok r') ∧
    ∀ k, (k ∈ ids → ∀ r, table.get? k = some r → ¬ guard r) → table'.get? k = table.get? k := by
  constructor
  · intro k r hk hr hGuard
    rcases Table.updateWhereM_get? h k with ⟨hNone, -⟩ | ⟨q, r', hq, hr', hRow⟩
    · cases hNone.symm.trans hr
    · cases hq.symm.trans hr
      refine ⟨r', hr', ?_⟩
      unfold Table.rewriteRow at hRow
      have hBoth : (ids.contains k && decide (guard r)) = true := by
        rw [List.contains_iff_mem.mpr hk, decide_eq_true hGuard]
        rfl
      rw [if_pos hBoth] at hRow
      exact hRow
  · intro k hOther
    rcases Table.updateWhereM_get? h k with ⟨hNone, hNone'⟩ | ⟨r, r', hr, hr', hRow⟩
    · rw [hNone, hNone']
    · unfold Table.rewriteRow at hRow
      split at hRow
      · rename_i hBoth
        rw [Bool.and_eq_true, List.contains_iff_mem, decide_eq_true_eq] at hBoth
        exact absurd hBoth.2 (hOther hBoth.1 r hr)
      · cases hRow
        rw [hr, hr']

/-! ## The request -/

/-- Exactly what is derived from the target is deleted. -/
structure ClosureDeleted (t t' : Tables) (target request : Uuid) : Prop where
  artifact : ∀ k a, Derivation.Derives t.journal.lineage target k →
    t.journal.artifacts.get? k = some a → a.state ≠ .purged →
    ∃ a', t'.journal.artifacts.get? k = some a' ∧ a'.version.val = a.version.val + 1 ∧
      a' = { a with state := .tombstoned, version := a'.version }
  artifact_kept : ∀ k, (Derivation.Derives t.journal.lineage target k →
      ∀ a, t.journal.artifacts.get? k = some a → a.state = .purged) →
    t'.journal.artifacts.get? k = t.journal.artifacts.get? k
  tombstone : ∀ k, Derivation.Derives t.journal.lineage target k →
    t'.journal.tombstones.count ("Artifact", k.toText) = 1
  tombstone_kept : ∀ x, (∀ k, Derivation.Derives t.journal.lineage target k →
      x ≠ ("Artifact", k.toText)) →
    t'.journal.tombstones.count x = t.journal.tombstones.count x
  rights : ∀ k r, Derivation.Derives t.journal.lineage target k → t.rights.get? k = some r →
    r.state = .active →
    ∃ r', t'.rights.get? k = some r' ∧ r'.version.val = r.version.val + 1 ∧
      r' = { r with state := .revoked, version := r'.version }
  rights_kept : ∀ k, (Derivation.Derives t.journal.lineage target k →
      ∀ r, t.rights.get? k = some r → r.state ≠ .active) →
    t'.rights.get? k = t.rights.get? k
  request : ∃ row, t'.deletionRequests.get? request = some row ∧ row.affectedArtifactIds.Nodup ∧
    ∀ k, k ∈ row.affectedArtifactIds ↔ Derivation.Derives t.journal.lineage target k
  others : t' = { t with
    journal := { t.journal with
      artifacts := t'.journal.artifacts, tombstones := t'.journal.tombstones }
    rights := t'.rights, deletionRequests := t'.deletionRequests }

section Request

variable {env : Env} {tick : Tick} {t t' : Tables} {m : Mutation} {actor : CommandActor}
  {target : ResourceRef} {reason confirmation : String}

theorem requestDeletion_deleted (hUnique : t.journal.tombstones.Nodup)
    (h : requestDeletion env tick t actor target reason confirmation = .ok (t', m)) :
    ∃ id row, Uuid.parse target.resourceId.text = some id ∧
      ClosureDeleted t t' id (tick.draw .deletionRequest) ∧
      t'.deletionRequests.get? (tick.draw .deletionRequest) = some row ∧
      m = .one "DeletionRequest" (tick.draw .deletionRequest) .one
        (deletionValue (tick.draw .deletionRequest) target row.state row.affectedArtifactIds)
        "File deletion request" := by
  simp only [requestDeletion, bind_eq_ok, okOr_eq_ok, sql_eq_ok, insertRow_eq_ok, pure_eq_ok,
    parseUuid_eq_ok, require_eq_ok, Prod.mk.injEq, exists_const] at h
  obtain ⟨-, -, id, hId, a, -, -, -, -, policy, -, -, requestedBy, -, artifacts, hArtifacts, rights,
    hRights, requests, hRequests, rfl, rfl⟩ := h
  have hClosure := fun k => @mem_affectedArtifacts t.journal.lineage id k
  obtain ⟨hTombstoned, hArtifactKept⟩ := updateAffected hArtifacts
  obtain ⟨hRevoked, hRightsKept⟩ := updateAffected hRights
  have hNodup := foldl_addTombstone_nodup hUnique (affectedArtifacts t.journal.lineage id)
  refine ⟨id, _, hId, ?_, Table.insert?_get?_self hRequests, rfl⟩
  constructor
  · intro k a hDerived ha hState
    obtain ⟨a', ha', hRow⟩ := hTombstoned ((hClosure k).mpr hDerived) ha hState
    exact ⟨a', ha', tombstoneRow_row hRow⟩
  · intro k hOther
    exact hArtifactKept k fun hk a ha hState => hState (hOther ((hClosure k).mp hk) a ha)
  · intro k hDerived
    refine List.count_eq_one_of_mem hNodup (mem_foldl_addTombstone.mpr (Or.inr ⟨k, ?_, rfl⟩))
    exact (hClosure k).mpr hDerived
  · intro x hOther
    refine count_eq_of_mem_iff hNodup hUnique ?_
    rw [mem_foldl_addTombstone, or_iff_left]
    rintro ⟨k, hk, hx⟩
    exact hOther k ((hClosure k).mp hk) hx
  · intro k r hDerived hr hState
    obtain ⟨r', hr', hRow⟩ := hRevoked ((hClosure k).mpr hDerived) hr hState
    exact ⟨r', hr', revokeRights_row hRow⟩
  · intro k hOther
    exact hRightsKept k fun hk r hr => hOther ((hClosure k).mp hk) r hr
  · refine ⟨_, Table.insert?_get?_self hRequests, affectedArtifacts_nodup _ _, hClosure⟩
  · rfl

/-- An artifact under legal hold that is derived from the target keeps the request from being
made. -/
theorem requestDeletion_held {id k : Uuid} {a : ArtifactRow}
    (hId : Uuid.parse target.resourceId.text = some id)
    (hDerived : Derivation.Derives t.journal.lineage id k)
    (ha : t.journal.artifacts.get? k = some a) (hHold : a.legalHold = true) :
    requestDeletion env tick t actor target reason confirmation ≠ .ok (t', m) := by
  intro h
  simp only [requestDeletion, bind_eq_ok, okOr_eq_ok, sql_eq_ok, insertRow_eq_ok, pure_eq_ok,
    parseUuid_eq_ok, require_eq_ok, Prod.mk.injEq, exists_const] at h
  obtain ⟨-, -, id', hId', -, -, -, -, hFree, -⟩ := h
  cases hId.symm.trans hId'
  have hAny : t.journal.artifacts.any (fun k a =>
      (affectedArtifacts t.journal.lineage id).contains k && a.legalHold) = true := by
    refine Table.any_iff.mpr ⟨k, a, ha, ?_⟩
    rw [List.contains_iff_mem.mpr (mem_affectedArtifacts.mpr hDerived), hHold]
    rfl
  rw [hFree] at hAny
  cases hAny

end Request

/-- A command whose handler refuses leaves the store as it is. -/
theorem platformStep_refused {ι : Type} {p : Platform ι} {s : Store} {tick : Tick}
    {c : Command (PlatformInput ι)} (h : ∀ t m, p.dispatch tick s.tables c ≠ .ok (t, m)) :
    (platformStep p s ⟨tick, .command c⟩).1 = s := by
  rcases platformStep_command p s tick c with ⟨-, hSame⟩ | ⟨-, key, t, m, receipt, hCommitted⟩
  · exact hSame
  · exact absurd hCommitted.handled (h t m)

theorem requestDeletion_exact {ι : Type} (p : Platform ι) (s : Store) (tick : Tick)
    (c : Command (PlatformInput ι)) {target : ResourceRef} {reason confirmation : String}
    (hInput : c.input = .deletionRequest target reason confirmation)
    (hUnique : s.tables.journal.tombstones.Nodup) :
    (∀ t' m, requestDeletion p.env tick s.tables c.actor target reason confirmation = .ok (t', m) →
      ∃ id row, Uuid.parse target.resourceId.text = some id ∧
        ClosureDeleted s.tables t' id (tick.draw .deletionRequest) ∧
        t'.deletionRequests.get? (tick.draw .deletionRequest) = some row ∧
        m = .one "DeletionRequest" (tick.draw .deletionRequest) .one
          (deletionValue (tick.draw .deletionRequest) target row.state row.affectedArtifactIds)
          "File deletion request") ∧
    ∀ id k a, Uuid.parse target.resourceId.text = some id →
      Derivation.Derives s.tables.journal.lineage id k →
      s.tables.journal.artifacts.get? k = some a → a.legalHold = true →
      (∃ e, requestDeletion p.env tick s.tables c.actor target reason confirmation = .error e) ∧
        (platformStep p s ⟨tick, .command c⟩).1 = s := by
  refine ⟨fun t' m h => requestDeletion_deleted hUnique h, fun id k a hId hDerived ha hHold => ?_⟩
  have hRefused : ∀ t m, requestDeletion p.env tick s.tables c.actor target reason confirmation ≠
      .ok (t, m) := fun t m => requestDeletion_held hId hDerived ha hHold
  constructor
  · cases hRequest : requestDeletion p.env tick s.tables c.actor target reason confirmation with
    | error e => exact ⟨e, rfl⟩
    | ok result => exact absurd hRequest (hRefused result.1 result.2)
  · refine platformStep_refused fun t m hDispatch => hRefused t m ?_
    rw [Platform.dispatch, hInput] at hDispatch
    exact hDispatch

namespace Sample

/-- The deletion of the content from which the run was started. -/
def deletion : Command (PlatformInput Empty) :=
  { actor
    input := .deletionRequest (resourceRef "Artifact" contentId .one) "not needed any more"
      ("DELETE " ++ contentId.toText)
    idempotencyKey := (uuid 2).toId
    fingerprint := digest [] }

/-- The request on the tables after the run was started. -/
def deletionOutcome : Result (Tables × Mutation) :=
  requestDeletion platform.env (reading 2) (fromOffice [officeStart]).store.tables deletion.actor
    (resourceRef "Artifact" contentId .one) "not needed any more" ("DELETE " ++ contentId.toText)

end Sample

theorem started_content_deleted :
    ∃ t' m id row, Sample.deletionOutcome = .ok (t', m) ∧
      Uuid.parse (resourceRef "Artifact" Sample.contentId .one).resourceId.text = some id ∧
      ClosureDeleted (Sample.fromOffice [Sample.officeStart]).store.tables t' id
        ((Sample.reading 2).draw .deletionRequest) ∧
      t'.deletionRequests.get? ((Sample.reading 2).draw .deletionRequest) = some row := by
  have hRun : Sample.deletionOutcome.isOk = true ∧
      (Sample.fromOffice [Sample.officeStart]).store.tables.journal.tombstones.Nodup := by
    simp only [Sample.deletionOutcome, Sample.fromOffice, hostStep_bytewise, Sample.host_bytewise]
    decide +kernel
  cases hOutcome : Sample.deletionOutcome with
  | error e =>
    rw [hOutcome] at hRun
    cases hRun.1
  | ok result =>
    obtain ⟨id, row, hId, hDeleted, hRow, -⟩ :=
      (requestDeletion_exact Sample.platform (Sample.fromOffice [Sample.officeStart]).store
        (Sample.reading 2) Sample.deletion rfl hRun.2).1 result.1 result.2 hOutcome
    exact ⟨result.1, result.2, id, row, rfl, hId, hDeleted, hRow⟩

end Masonwing
