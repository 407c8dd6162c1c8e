import Masonwing.Proofs.Changes
import Masonwing.Store.Platform

/-!
# What one step of the platform does

The inversion of `Proofs/Changes.lean` for the whole platform: `PlatformChange` adds to `Change`
what the commands on plugins and artifacts and the checkpoints do, and `platformStep_change` says
that a step changed nothing or committed one of them.
-/

namespace Masonwing

open Outcome

variable {ι : Type}

/-! ## The handlers -/

section Handlers

variable {env : Env} {tick : Tick} {t t' : Tables} {m : Mutation}

/-- A run of a revoked build: it is blocked if it was running and cannot be started any more. -/
structure RunStopped (t : Tables) (id : Uuid) (r r' : RunRow) : Prop
    extends RunMoved t id r r' where
  live : r.state.ended = false
  target : r'.state = if r.state = .running then .blocked else r.state
  dispatch : r'.dispatchState = .blocked
  fence : r'.fence = r.fence + 1

/-- The runs after a revocation: those of the build are stopped, the others are as they were. -/
structure RunsStopped (t : Tables) (pluginId : String) (digest : Digest)
    (runs : Table Uuid RunRow) : Prop where
  rows : ∀ k, (t.runs.get? k = none ∧ runs.get? k = none) ∨
    ∃ r r', t.runs.get? k = some r ∧ runs.get? k = some r' ∧
      if stoppedRun pluginId digest k r = true then RunStopped t k r r' else r' = r

theorem stopRow_ok {k : Uuid} {r r' : RunRow} {pluginId : String} {digest : Digest}
    (hFound : t.runs.get? k = some r) (hStopped : stoppedRun pluginId digest k r = true)
    (h : stopRow tick r = .ok r') : RunStopped t k r r' := by
  simp only [stopRow, bind_eq_ok, okOr_eq_ok, bigint_eq_ok, pure_eq_ok] at h
  obtain ⟨fence, ⟨-, rfl⟩, version, hVersion, rfl⟩ := h
  rw [stoppedRun, Bool.and_eq_true, Bool.not_eq_true'] at hStopped
  refine ⟨⟨hFound, hVersion, ?_⟩, hStopped.2, ?_, ?_, ?_⟩
  all_goals rfl

theorem storedManifest_ok {registry : Registry} {pluginId artifactDigest : String} {d : Digest}
    {manifest : PluginManifest}
    (h : storedManifest registry pluginId artifactDigest = .ok (d, manifest)) :
    d.toText = artifactDigest ∧ registry.pluginVersions.get? (pluginId, d) = some manifest := by
  simp only [storedManifest, bind_eq_ok, okOr_eq_ok, pure_eq_ok, Prod.mk.injEq] at h
  obtain ⟨⟨⟨plugin, digest⟩, stored⟩, hFind, rfl, rfl⟩ := h
  obtain ⟨hGet, hNamed⟩ := Table.find?_some hFind
  obtain ⟨hPlugin, hText⟩ := of_decide_eq_true hNamed
  cases hPlugin
  exact ⟨hText, hGet⟩

/-- What a revocation shows: the installation, and each stopped run in its new version. -/
def Revokes (env : Env) (t : Tables) (runs : Table Uuid RunRow) (m : Mutation) : Prop :=
  ∀ c ∈ m.changes, c.resource.resourceType = "PluginInstallation" ∨
    ∃ k r r', RunStopped t k r r' ∧ runs.get? k = some r' ∧
      c = stoppedChange env t.identity.tenantId (k, r')

theorem revokePlugin_ok {actor : CommandActor} {pluginId artifactDigest reason : String}
    (h : revokePlugin env tick t actor pluginId artifactDigest reason = .ok (t', m)) :
    ∃ digest registry runs, Digest.parse artifactDigest = some digest ∧
      RunsStopped t pluginId digest runs ∧ t' = { t with registry, runs } ∧
      Revokes env t runs m := by
  simp only [revokePlugin, bind_eq_ok, okOr_eq_ok, sql_eq_ok, insertRow_eq_ok, pure_eq_ok,
    requireReason, require_eq_ok, Prod.exists, Prod.mk.injEq, exists_const] at h
  obtain ⟨-, i, -, digest, _, hDigest, revokedBy, -, revocations, -, i', -, runs, hRuns, rfl, rfl⟩ :=
    h
  have hRows : RunsStopped t pluginId digest runs := by
    refine ⟨fun k => ?_⟩
    rcases Table.updateWhereM_get? hRuns k with hNone | ⟨r, r', hr, hr', hRow⟩
    · exact Or.inl hNone
    · refine Or.inr ⟨r, r', hr, hr', ?_⟩
      unfold Table.rewriteRow at hRow
      split at hRow
      · rename_i hStopped
        rw [if_pos hStopped]
        exact stopRow_ok hr hStopped hRow
      · rename_i hOther
        cases hRow
        rw [if_neg hOther]
  have hText : Digest.parse artifactDigest = some digest := by
    rw [← (storedManifest_ok hDigest).1, Digest.parse_toText]
  refine ⟨digest, _, runs, hText, hRows, rfl, ?_⟩
  intro c hc
  rcases List.mem_append.mp hc with hc | hc
  · exact Or.inl (Mutation.one_only _ _ _ _ _ c hc)
  · obtain ⟨row, hMem, rfl⟩ := List.mem_map.mp hc
    obtain ⟨⟨k, r⟩, hSelected, hNew⟩ := List.mem_filterMap.mp hMem
    obtain ⟨r', hGet, rfl⟩ := Option.map_eq_some_iff.mp hNew
    obtain ⟨hr, hStopped⟩ := Table.mem_select.mp hSelected
    refine Or.inr ⟨k, r, r', ?_, hGet, rfl⟩
    rcases hRows.rows k with ⟨hNone, -⟩ | ⟨q, q', hq, hq', hStep⟩
    · cases hNone.symm.trans hr
    · cases hq.symm.trans hr
      cases hq'.symm.trans hGet
      rw [if_pos hStopped] at hStep
      exact hStep

/-- The artifacts after a deletion: each is as it was or tombstoned. -/
structure Deleted (j j' : Journal) (ids : List Uuid) : Prop where
  artifacts : ∀ k, (j.artifacts.get? k = none ∧ j'.artifacts.get? k = none) ∨
    ∃ a a', j.artifacts.get? k = some a ∧ j'.artifacts.get? k = some a' ∧
      if k ∈ ids ∧ a.state ≠ .purged then tombstoneRow a = .ok a' else a' = a
  tombstones : j'.tombstones = ids.foldl addTombstone j.tombstones
  others : j' = { j with artifacts := j'.artifacts, tombstones := j'.tombstones }

theorem requestDeletion_ok {actor : CommandActor} {target : ResourceRef}
    {reason confirmation : String}
    (h : requestDeletion env tick t actor target reason confirmation = .ok (t', m)) :
    ∃ j id rights deletionRequests, Uuid.parse target.resourceId.text = some id ∧
      Deleted t.journal j (affectedArtifacts t.journal.lineage id) ∧
      t' = { t with journal := j, rights, deletionRequests } ∧ m.Only "DeletionRequest" := by
  simp only [requestDeletion, bind_eq_ok, okOr_eq_ok, sql_eq_ok, insertRow_eq_ok, pure_eq_ok,
    parseUuid_eq_ok, require_eq_ok, Prod.mk.injEq, exists_const] at h
  obtain ⟨-, -, id, hId, a, -, -, -, -, policy, -, -, requestedBy, -, artifacts, hArtifacts, rights,
    -, requests, -, rfl, rfl⟩ := h
  refine ⟨_, id, rights, requests, hId, ⟨fun k => ?_, rfl, rfl⟩, rfl,
    Mutation.one_only _ _ _ _ _⟩
  rcases Table.updateWhereM_get? hArtifacts k with hNone | ⟨b, b', hb, hb', hRow⟩
  · exact Or.inl hNone
  · refine Or.inr ⟨b, b', hb, hb', ?_⟩
    unfold Table.rewriteRow at hRow
    split at hRow
    · rename_i hAffected
      rw [Bool.and_eq_true, List.contains_iff_mem, decide_eq_true_eq] at hAffected
      rw [if_pos hAffected]
      exact hRow
    · rename_i hOther
      rw [Bool.and_eq_true, List.contains_iff_mem, decide_eq_true_eq] at hOther
      cases hRow
      rw [if_neg hOther]

theorem Lifecycle.run_ok {lifecycle : Lifecycle ι} {actor : CommandActor} {input : ι}
    (h : lifecycle.run tick t actor input = .ok (t', m)) :
    ∃ registry, t' = { t with registry } ∧
      ∀ c ∈ m.changes, ∃ kind : RegistryKind, c.resource.resourceType = kind.toText := by
  simp only [Lifecycle.run, bind_eq_ok, pure_eq_ok, Prod.exists, Prod.mk.injEq] at h
  obtain ⟨registry, primary, changes, -, rfl, rfl⟩ := h
  refine ⟨registry, rfl, fun c hc => ?_⟩
  obtain ⟨change, -, rfl⟩ := List.mem_map.mp hc
  exact ⟨change.kind, rfl⟩

/-- A worker may write the checkpoint: it names the run's current fence and the run executes. -/
structure CheckpointAdmitted (t : Tables) (id : Uuid) (record : CheckpointWrite)
    (row : CheckpointRow) : Prop where
  run : ∃ r, t.runs.get? id = some r ∧ r.fence = record.fence ∧ r.state.inProgress = true
  state : CheckpointState.ofText? record.state = some row.state
  open_ : ∀ old, t.checkpoints.get? (id, record.logicalStepId) = some old → old.state ≠ .succeeded

theorem recordRunCheckpoint_ok {id : Uuid} {record : CheckpointWrite} {written : Bool}
    (h : recordRunCheckpoint t id record = .ok (t', written)) :
    (written = false ∧ t' = t) ∨
      (written = true ∧ ∃ row checkpoints, CheckpointAdmitted t id record row ∧
        t' = { t with checkpoints } ∧ ∀ k, checkpoints.get? k =
          if k = (id, record.logicalStepId) then some row else t.checkpoints.get? k) := by
  simp only [recordRunCheckpoint, bind_eq_ok, okOr_eq_ok, require_eq_ok, beginSystem_eq_ok,
    exists_const] at h
  obtain ⟨-, r, hFound, hFence, hProgress, state, hState, h⟩ := h
  have hRun : ∃ r, t.runs.get? id = some r ∧ r.fence = record.fence ∧
      r.state.inProgress = true := ⟨r, hFound, hFence, hProgress⟩
  split at h
  · rename_i old hOld
    split at h
    · cases h
      exact Or.inl ⟨rfl, rfl⟩
    · rename_i hOpen
      simp only [bind_eq_ok, require_eq_ok, pure_eq_ok, exists_const, Prod.mk.injEq] at h
      obtain ⟨-, rfl, rfl⟩ := h
      refine Or.inr ⟨rfl, ⟨record.fence, state, record.outputRef, record.failureCode⟩, _,
        ⟨hRun, hState, fun o ho => ?_⟩, rfl, fun k => ?_⟩
      · cases hOld.symm.trans ho
        exact hOpen
      · rw [Table.get?_set]
        split
        · rename_i hk
          rw [hk, hOld]
          rfl
        · rfl
  · rename_i hNone
    simp only [bind_eq_ok, require_eq_ok, sql_eq_ok, insertRow_eq_ok, pure_eq_ok, exists_const,
      Prod.mk.injEq] at h
    obtain ⟨-, checkpoints, hInsert, rfl, rfl⟩ := h
    refine Or.inr ⟨rfl, ⟨record.fence, state, record.outputRef, record.failureCode⟩, checkpoints,
      ⟨hRun, hState, fun o ho => ?_⟩, rfl, fun k => ?_⟩
    · cases hNone.symm.trans ho
    · exact Table.insert?_get? hInsert k

end Handlers

/-! ## Acts -/

/-- What an operation of the platform is asked to do. -/
inductive PlatformAct where
  | core (a : Act)
  | revokePlugin (pluginId : String) (digest : Digest)
  | lifecycle
  | delete
  | contain
  | checkpoint (run : Uuid) (step : String)
  deriving DecidableEq

def PlatformInput.act : PlatformInput ι → Option PlatformAct
  | .pluginRevoke pluginId artifactDigest _ =>
    (Digest.parse artifactDigest).map (.revokePlugin pluginId)
  | .deletionRequest .. => some .delete
  | .lifecycle _ => some .lifecycle

def PlatformOperation.act : PlatformOperation ι → Option PlatformAct
  | .core operation => operation.act.map .core
  | .command c => c.input.act
  | .quarantine .. => some .contain
  | .checkpoint runId record => some (.checkpoint runId record.logicalStepId)

/-- A response that reports a commit. -/
def platformCommits : Result PlatformReply → Bool
  | .ok (.core reply) => commits (.ok reply)
  | .ok (.recorded written) => written
  | .error _ => false

abbrev PlatformEvent (ι : Type) := Machine.Event Store (PlatformCall ι) (Result PlatformReply)

/-- The event committed the act. -/
def PlatformEvent.did (e : PlatformEvent ι) (a : PlatformAct) : Prop :=
  platformCommits e.response = true ∧ e.call.operation.act = some a

theorem PlatformEvent.did_unique {e : PlatformEvent ι} {a b : PlatformAct} (ha : e.did a)
    (hb : e.did b) : a = b := Option.some.inj (ha.2.symm.trans hb.2)

/-- Acts that only a command is asked to do. -/
def Act.commanded : Act → Bool
  | .startRun | .cancelRun _ | .decideApproval _ | .configureBudget | .propose | .dispatch _
  | .reconcile _ | .compensate .. | .revokeConnection _ | .createGrant | .revokeGrant _
  | .setKillSwitch => true
  | _ => false

theorem SystemCall.act_not_commanded (call : SystemCall) : call.act.commanded = false := by
  cases call with
  | applyReconciliationEvidence effectId evidence remoteId evidenceRef used => cases evidence <;> rfl
  | _ => rfl

/-- The operation behind an act of a command. -/
theorem PlatformOperation.act_commanded {op : PlatformOperation ι} {a : Act}
    (h : op.act = some (.core a)) (hCommanded : a.commanded = true) :
    ∃ c, op = .core (.command c) ∧ c.input.act = some a := by
  cases op with
  | core operation =>
    obtain ⟨b, hAct, hSame⟩ := Option.map_eq_some_iff.mp h
    cases hSame
    cases operation with
    | command c => exact ⟨c, rfl, hAct⟩
    | quarantine c reference =>
      cases hAct
      cases hCommanded
    | system call =>
      cases hAct
      cases hCommanded.symm.trans call.act_not_commanded
  | command c =>
    obtain ⟨actor, input, key, fingerprint⟩ := c
    cases input <;> simp [PlatformOperation.act, PlatformInput.act] at h
  | quarantine c reference => cases h
  | checkpoint runId record => cases h

/-! ## Changes -/

/-- What a committed act of the platform does to the rows; `j` is the journal after it. -/
inductive PlatformChange (env : Env) (tick : Tick) (t : Tables) : PlatformAct → Tables → Prop
  | core {a : Act} {t' : Tables} (h : Change env tick t a t') :
      PlatformChange env tick t (.core a) t'
  | pluginRevoked {pluginId : String} {digest : Digest} {runs : Table Uuid RunRow}
      (registry : Registry) (j : Journal) (hRuns : RunsStopped t pluginId digest runs) :
      PlatformChange env tick t (.revokePlugin pluginId digest)
        { t with registry, runs, journal := j }
  | registered (registry : Registry) (j : Journal) :
      PlatformChange env tick t .lifecycle { t with registry, journal := j }
  | deleted (j : Journal) (rights : Table Uuid RightsRow)
      (deletionRequests : Table Uuid DeletionRequestRow) :
      PlatformChange env tick t .delete { t with journal := j, rights, deletionRequests }
  | contained (j : Journal) : PlatformChange env tick t .contain { t with journal := j }
  | checkpointed {id : Uuid} {record : CheckpointWrite} {row : CheckpointRow}
      {checkpoints : Table (Uuid × String) CheckpointRow}
      (hAdmitted : CheckpointAdmitted t id record row)
      (hRows : ∀ k, checkpoints.get? k =
        if k = (id, record.logicalStepId) then some row else t.checkpoints.get? k) :
      PlatformChange env tick t (.checkpoint id record.logicalStepId) { t with checkpoints }

section Step

variable {p : Platform ι} {tick : Tick} {t t' : Tables} {s s' : Store}

theorem dispatch_change {c : Command (PlatformInput ι)} {m : Mutation} (j : Journal)
    (h : p.dispatch tick t c = .ok (t', m)) :
    ∃ a, c.input.act = some a ∧ PlatformChange p.env tick t a { t' with journal := j } := by
  unfold Platform.dispatch at h
  split at h
  · rename_i pluginId artifactDigest reason hInput
    obtain ⟨digest, registry, runs, hDigest, hRuns, rfl, -⟩ := revokePlugin_ok h
    exact ⟨_, by rw [hInput, PlatformInput.act, hDigest]; rfl, .pluginRevoked registry j hRuns⟩
  · rename_i hInput
    obtain ⟨_, id, rights, requests, -, -, rfl, -⟩ := requestDeletion_ok h
    exact ⟨_, by rw [hInput]; rfl, .deleted j rights requests⟩
  · rename_i hInput
    obtain ⟨registry, rfl, -⟩ := Lifecycle.run_ok h
    exact ⟨_, by rw [hInput]; rfl, .registered registry j⟩

theorem runPlatformOperation_change {op : PlatformOperation ι} {reply : PlatformReply}
    (h : runPlatformOperation p tick s op = .ok (s', reply)) :
    (platformCommits (.ok reply) = false ∧ s' = s) ∨
      (platformCommits (.ok reply) = true ∧
        ∃ a, op.act = some a ∧ PlatformChange p.env tick s.tables a s'.tables) := by
  cases op with
  | core operation =>
    simp only [runPlatformOperation, bind_eq_ok, pure_eq_ok, Prod.exists, Prod.mk.injEq] at h
    obtain ⟨_, core, h, rfl, rfl⟩ := h
    rcases runOperation_change h with hNone | ⟨hCommits, a, hAct, hChange⟩
    · exact Or.inl hNone
    · refine Or.inr ⟨hCommits, .core a, ?_, .core hChange⟩
      rw [PlatformOperation.act, hAct]
      rfl
  | command c =>
    simp only [runPlatformOperation, bind_eq_ok, pure_eq_ok, Prod.exists, Prod.mk.injEq] at h
    obtain ⟨_, a, hExecute, rfl, rfl⟩ := h
    obtain ⟨principal, -, ⟨row, -, -, hs, rfl⟩ | ⟨-, t, m, receipt, hCommitted, rfl⟩⟩ :=
      execute_ok hExecute
    · exact Or.inl ⟨rfl, hs⟩
    · refine Or.inr ⟨rfl, ?_⟩
      rw [hCommitted.tables]
      exact dispatch_change _ hCommitted.handled
  | quarantine c reference =>
    simp only [runPlatformOperation, bind_eq_ok, pure_eq_ok, Prod.mk.injEq] at h
    obtain ⟨_, h, rfl, rfl⟩ := h
    refine Or.inr ⟨rfl, _, rfl, ?_⟩
    rw [(quarantineCorruptArtifact_ok h).2]
    exact .contained _
  | checkpoint runId record =>
    simp only [runPlatformOperation, bind_eq_ok, pure_eq_ok, Prod.exists, Prod.mk.injEq] at h
    obtain ⟨tables, written, h, rfl, rfl⟩ := h
    rcases recordRunCheckpoint_ok h with ⟨rfl, rfl⟩ | ⟨rfl, row, checkpoints, hAdmitted, rfl, hRows⟩
    · exact Or.inl ⟨rfl, rfl⟩
    · exact Or.inr ⟨rfl, _, rfl, .checkpointed hAdmitted hRows⟩

/-- A step of the platform changes nothing, or commits an act with its change. -/
theorem platformStep_change (p : Platform ι) (s : Store) (c : PlatformCall ι) :
    (platformCommits (platformStep p s c).2 = false ∧ (platformStep p s c).1 = s) ∨
      ∃ a, PlatformEvent.did (Machine.eventAt (platformStep p) s c) a ∧
        PlatformChange p.env c.tick s.tables a (platformStep p s c).1.tables := by
  rcases transact_cases s (runPlatformOperation p c.tick s c.operation) with
    ⟨s', reply, hOk, hStep⟩ | ⟨failure, -, hStep⟩
  · have hEq : platformStep p s c = (s', .ok reply) := hStep
    rw [hEq]
    rcases runPlatformOperation_change hOk with hNone | ⟨hCommits, a, hAct, hChange⟩
    · exact Or.inl hNone
    · refine Or.inr ⟨a, ⟨?_, hAct⟩, hChange⟩
      change platformCommits (platformStep p s c).2 = true
      rw [hEq]
      exact hCommits
  · have hEq : platformStep p s c = (s, .error failure) := hStep
    rw [hEq]
    exact Or.inl ⟨rfl, rfl⟩

theorem not_platformDid {e : PlatformEvent ι} (h : platformCommits e.response = false)
    (a : PlatformAct) : ¬e.did a := by
  intro hDid
  rw [hDid.1] at h
  cases h

/-- The change of an act that was committed. -/
theorem platformChange_of_did {c : PlatformCall ι} {a : PlatformAct}
    (h : PlatformEvent.did (Machine.eventAt (platformStep p) s c) a) :
    PlatformChange p.env c.tick s.tables a (platformStep p s c).1.tables := by
  rcases platformStep_change p s c with ⟨hNone, -⟩ | ⟨b, hDid, hChange⟩
  · exact absurd h (not_platformDid hNone a)
  · cases PlatformEvent.did_unique hDid h
    exact hChange

/-- A step keeps what every change keeps. -/
theorem platformStep_keeps {c : PlatformCall ι} {I : Tables → Prop}
    (hChange : ∀ tick t a t', I t → PlatformChange p.env tick t a t' → I t') (hs : I s.tables) :
    I (platformStep p s c).1.tables := by
  rcases platformStep_change p s c with ⟨-, hSame⟩ | ⟨a, -, hStep⟩
  · rw [hSame]
    exact hs
  · exact hChange c.tick s.tables a _ hs hStep

/-- A property of the rows that every change keeps holds after every run of the platform. -/
theorem platform_invariant {I : Tables → Prop}
    (hChange : ∀ tick t a t', I t → PlatformChange p.env tick t a t' → I t')
    (hs : I s.tables) (calls : List (PlatformCall ι)) :
    I (Machine.run (platformStep p) s calls).tables :=
  Machine.run_invariant (platformStep p) (I := fun s => I s.tables)
    (fun _ _ h => platformStep_keeps hChange h) hs calls

end Step

end Masonwing
