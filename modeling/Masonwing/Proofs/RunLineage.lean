import Masonwing.Proofs.Evaluation
import Masonwing.Proofs.HostShows
import Masonwing.Proofs.Lineage

/-!
# The lineage of the projections of runs

The document of a run does not name its input, so each writer of such a document has to declare it.
`run.start` and `run.cancel` do; a revocation of a plugin shows the runs that it stops without it
(`stoppedChange`), and deleting the input does not hide these versions.
-/

namespace Masonwing

open Outcome

variable {ι ν ε : Type}

/-- The projection is derived from the input of a stored run. -/
def RunSourced (t : Tables) (j : Journal) (k : ProjectionKey) (p : ProjectionRow) : Prop :=
  ∃ id r s, k.resourceId = id.toText ∧ t.runs.get? id = some r ∧
    Uuid.parse r.inputRef.artifactId.text = some s ∧ (s, p.artifactId) ∈ j.lineage

/-- Every projection of a run is derived from its input. -/
def RunsSourced (t : Tables) (j : Journal) : Prop :=
  ∀ k p, j.projections.get? k = some p → k.resourceType = "Run" → RunSourced t j k p

/-- A command that revokes a build of a plugin while runs of it have not ended. -/
def StopsRuns (e : HostEvent ι ε) : Prop :=
  ∃ c plugin text reason digest, e.call.operation = .platform (.command c) ∧
    c.input = .pluginRevoke plugin text reason ∧ Digest.parse text = some digest ∧
    e.before.store.tables.runs.any (stoppedRun plugin digest) = true

theorem RunStopped.stops {t : Tables} {plugin : String} {digest : Digest} {runs : Table Uuid RunRow}
    {id : Uuid} {r r' : RunRow} (h : RunStopped t id r r') (hRuns : RunsStopped t plugin digest runs)
    (hRow : runs.get? id = some r') : stoppedRun plugin digest id r = true := by
  rcases hRuns.rows id with ⟨hNone, -⟩ | ⟨q, q', hq, hq', hStep⟩
  · cases hNone.symm.trans h.found
  · cases hq.symm.trans h.found
    cases hq'.symm.trans hRow
    split at hStep
    · assumption
    · have hFence := h.fence
      rw [hStep] at hFence
      omega

theorem RunsSourced.step {h : Host ι ν ε} {s : HostState} {c : HostCall ι ε}
    (hSourced : RunsSourced s.store.tables s.store.tables.journal)
    (hQuiet : ¬StopsRuns (Machine.eventAt (hostStep h) s c)) :
    RunsSourced (hostStep h s c).1.store.tables (hostStep h s c).1.store.tables.journal := by
  have hBefore : RunsSourced (hostStep h s c).1.store.tables s.store.tables.journal := by
    intro k p hp hKind
    obtain ⟨id, r, x, hId, hr, hParse, hEdge⟩ := hSourced k p hp hKind
    obtain ⟨r', hr', hInput⟩ := hostStep_run_kept hr
    refine ⟨id, r', x, hId, hr', ?_, hEdge⟩
    rw [hInput]
    exact hParse
  refine hostStep_keeps (I := RunsSourced (hostStep h s c).1.store.tables)
    (fun act j _ hMove hOld => ?_) (fun act j changes _ _ hRecords => ?_) hBefore
  · intro k p hp hKind
    rw [hMove.projections] at hp
    obtain ⟨id, r, x, hId, hr, hParse, hEdge⟩ := hOld k p hp hKind
    exact ⟨id, r, x, hId, hr, hParse, hMove.lineage.mpr (Or.inl hEdge)⟩
  · intro i j₁ j₂ change hMem hWritten hOld k p hp hKind
    obtain ⟨q, hShown, hArtifact, -⟩ := hWritten.projection
    rcases Table.insert?_get?_cases hShown hp with ⟨rfl, rfl⟩ | ⟨-, hp⟩
    · have hPlatform : PlatformKind change.resource.resourceType := by
        rw [show change.resource.resourceType = "Run" from hKind]
        exact platformKind_run
      rcases hRecords.platform hMem hPlatform with ⟨command, t₁, m, -, -, hHandled, hAfter, hChange⟩ |
        ⟨command, plugin, text, reason, digest, id, r, r', runs, hOp, hInput, hDigest, hRuns, hRun,
          hRow, -⟩
      · cases dispatchCommand_shows hHandled with
        | @run id x r accepted hMutation hRow hParse hContent =>
          rw [hMutation] at hChange
          refine ⟨id, r, x, ?_, ?_, hParse, (hWritten.lineage _ _).mpr (Or.inr ⟨?_, hArtifact⟩)⟩
          · rw [runMutation, Mutation.withSourceArtifact, Mutation.one, List.map_singleton,
              List.mem_singleton] at hChange
            rw [hChange]
            rfl
          · rw [hAfter]
            exact hRow
          · exact (runMutation_sources hChange).mpr rfl
        | effect hMutation hContent =>
          rw [hMutation, effectMutation, Mutation.one, List.mem_singleton] at hChange
          rw [hChange] at hKind
          exact absurd hKind (by simp [projectionKey, resourceRef])
        | @other kind hOnly hOther =>
          have hEq : kind = "Run" := (hOnly change hChange).symm.trans hKind
          subst hEq
          cases hInput : command.input <;> simp [hInput, CommandInput.kind] at hOther
      · refine absurd ⟨command, plugin, text, reason, digest, hOp, hInput, hDigest, ?_⟩ hQuiet
        exact Table.any_iff.mpr ⟨id, r, hRun.found, hRun.stops hRuns hRow⟩
    · obtain ⟨id, r, x, hId, hr, hParse, hEdge⟩ := hOld k p hp hKind
      exact ⟨id, r, x, hId, hr, hParse, (hWritten.lineage _ _).mpr (Or.inl hEdge)⟩

/-- A version that was derived from the artifact before its deletion is hidden by it. -/
theorem Deleted.hides {j j' : Journal} {s d : Uuid}
    (h : Deleted j j' (affectedArtifacts j.lineage s)) (hEdge : (s, d) ∈ j.lineage) :
    ∀ a, j'.artifacts.get? d = some a → a.state ≠ .active := by
  intro a ha
  have hAffected : d ∈ affectedArtifacts j.lineage s :=
    mem_affectedArtifacts.mpr (Relation.ReflTransGen.single hEdge)
  rcases h.artifacts d with ⟨-, hNone⟩ | ⟨b, b', hb, hb', hRow⟩
  · cases hNone.symm.trans ha
  · cases hb'.symm.trans ha
    split at hRow
    · rw [(tombstoneRow_ok hRow).2]
      decide
    · rename_i hNot
      rw [hRow]
      intro hActive
      refine hNot ⟨hAffected, ?_⟩
      rw [hActive]
      decide

/-- As long as no revocation stops a run, every projection of a run has an edge from its input, is
classified at least as high, and is hidden by a deletion of the input. -/
theorem run_projections_sourced (h : Host ι ν ε) (s : HostState)
    (hLineage : LineageSound s.store.tables.journal)
    (hRuns : RunsSourced s.store.tables s.store.tables.journal) (calls : List (HostCall ι ε))
    (hQuiet : ∀ e ∈ Machine.trace (hostStep h) s calls, ¬StopsRuns e) {t : Tables}
    (hEnd : t = (Machine.run (hostStep h) s calls).store.tables) {k : ProjectionKey}
    {p : ProjectionRow} (hp : t.journal.projections.get? k = some p) (hKind : k.resourceType = "Run") :
    ∃ id r x, k.resourceId = id.toText ∧ t.runs.get? id = some r ∧
      Uuid.parse r.inputRef.artifactId.text = some x ∧ (x, p.artifactId) ∈ t.journal.lineage ∧
      (∃ a b, t.journal.artifacts.get? x = some a ∧
        t.journal.artifacts.get? p.artifactId = some b ∧
        a.classification.rank ≤ b.classification.rank) ∧
      ∀ tick actor target reason confirmation t' m, Uuid.parse target.resourceId.text = some x →
        requestDeletion h.env tick t actor target reason confirmation = .ok (t', m) →
        ∀ a, t'.journal.artifacts.get? p.artifactId = some a → a.state ≠ .active := by
  have hBoth : LineageSound t.journal ∧ RunsSourced t t.journal := by
    rw [hEnd]
    exact Machine.run_invariant_of (hostStep h)
      (I := fun s => LineageSound s.store.tables.journal ∧
        RunsSourced s.store.tables s.store.tables.journal)
      (fun s c hOld hEvent => ⟨hOld.1.step, hOld.2.step hEvent⟩) ⟨hLineage, hRuns⟩ hQuiet
  obtain ⟨id, r, x, hId, hr, hParse, hEdge⟩ := hBoth.2 k p hp hKind
  refine ⟨id, r, x, hId, hr, hParse, hEdge, hBoth.1.classified _ _ hEdge, ?_⟩
  intro tick actor target reason confirmation t' m hTarget hDelete a ha
  obtain ⟨j, y, rights, requests, hy, hDeleted, rfl, -⟩ := requestDeletion_ok hDelete
  cases hTarget.symm.trans hy
  exact hDeleted.hides hEdge a ha

/-! ## A revoked plugin -/

namespace Sample

theorem office_runs : RunsSourced office.store.tables office.store.tables.journal :=
  fun k p hp hKind => absurd hKind (office_projections k p hp).2

def revokeMailer (n : Nat) : HostCall Empty Empty :=
  onPlatform (platformCommand n (.pluginRevoke "mailer" (digest [2]).toText "compromised"))

/-- Some projection of a run has no edge. -/
def unsourced (j : Journal) : Bool :=
  j.projections.any fun k p =>
    decide (k.resourceType = "Run") && j.lineage.all fun e => decide (e.2 ≠ p.artifactId)

theorem not_runsSourced {t : Tables} {j : Journal} (h : unsourced j = true) : ¬RunsSourced t j := by
  intro hSourced
  obtain ⟨k, p, hp, hBoth⟩ := Table.any_iff.mp h
  obtain ⟨hKind, hNone⟩ := Bool.and_eq_true_iff.mp hBoth
  obtain ⟨id, r, x, -, -, -, hEdge⟩ := hSourced k p hp (of_decide_eq_true hKind)
  exact absurd rfl (of_decide_eq_true (List.all_eq_true.mp hNone _ hEdge))

end Sample

/-- The run is stopped by a revocation and its input is deleted: the last version of the run is
still there to be read. -/
theorem stopped_run_unsourced :
    ¬RunsSourced (Sample.fromOffice [Sample.officeStart, Sample.revokeMailer 2]).store.tables
      (Sample.fromOffice [Sample.officeStart, Sample.revokeMailer 2]).store.tables.journal ∧
    (currentProjection (Sample.fromOffice [Sample.officeStart, Sample.revokeMailer 2,
      Sample.deleteCall 3 Sample.contentId .one]).store.tables.journal "Run"
        (Sample.runOf 1).toText).isSome = true := by
  have hRun : Sample.unsourced
      (Sample.fromOffice [Sample.officeStart, Sample.revokeMailer 2]).store.tables.journal = true ∧
      (currentProjection (Sample.fromOffice [Sample.officeStart, Sample.revokeMailer 2,
        Sample.deleteCall 3 Sample.contentId .one]).store.tables.journal "Run"
          (Sample.runOf 1).toText).isSome = true := by
    simp only [Sample.fromOffice, hostStep_bytewise, Sample.host_bytewise]
    decide +kernel
  exact ⟨Sample.not_runsSourced hRun.1, hRun.2⟩

theorem started_run_sourced :
    ∃ k p id r x, (Machine.run (hostStep Sample.host) Sample.office
        [Sample.officeStart]).store.tables.journal.projections.get? k = some p ∧
      k.resourceType = "Run" ∧ k.resourceId = id.toText ∧
      (Machine.run (hostStep Sample.host) Sample.office
        [Sample.officeStart]).store.tables.runs.get? id = some r ∧
      Uuid.parse r.inputRef.artifactId.text = some x ∧
      (x, p.artifactId) ∈ (Machine.run (hostStep Sample.host) Sample.office
        [Sample.officeStart]).store.tables.journal.lineage := by
  have hShown : (Machine.run (hostStep Sample.host) Sample.office
      [Sample.officeStart]).store.tables.journal.projections.any
        (fun k _ => decide (k.resourceType = "Run")) = true := by
    rw [hostStep_bytewise, Sample.host_bytewise]
    decide +kernel
  obtain ⟨k, p, hp, hKey⟩ := Table.any_iff.mp hShown
  have hKind : k.resourceType = "Run" := of_decide_eq_true hKey
  have hQuiet : ∀ e ∈ Machine.trace (hostStep Sample.host) Sample.office [Sample.officeStart],
      ¬StopsRuns e := by
    rintro e he ⟨c, plugin, text, reason, digest, hOp, -⟩
    rw [List.mem_singleton.mp (Machine.call_mem _ he)] at hOp
    cases hOp
  obtain ⟨id, r, x, hId, hr, hParse, hEdge, -⟩ := run_projections_sourced Sample.host Sample.office
    Sample.office_lineage Sample.office_runs [Sample.officeStart] hQuiet rfl hp hKind
  exact ⟨k, p, id, r, x, hp, hKind, hId, hr, hParse, hEdge⟩
end Masonwing
