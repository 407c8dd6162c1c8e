import Masonwing.Proofs.Announcements

/-!
# The artifacts behind the rows

Every effect has a content and every run an input. Recording the command that creates such a row
reads the artifact behind it, and no step removes the row of an artifact, so a later document of the
effect or the run finds its source again, whatever became of the content.

* `dispatchCommand_creations`: what a new row refers to is checked or recorded with it;
* `EffectsStored.step`, `RunsStored.step`: on the whole platform, for callers that name the tenant
  as the host does.
-/

namespace Masonwing

open Outcome

variable {ι : Type}

/-- The reference is of the tenant, and its artifact is there. -/
def TenantContent (t : Tables) (content : ArtifactRef) : Prop :=
  content.tenantId = t.identity.tenantId.toId ∧ ContentStored t.journal content

/-- The caller names the tenant by its canonical text, as the host does for every command. -/
def NamesTenant (tenant : Uuid) (c : PlatformCall ι) : Prop :=
  match c.operation with
  | .core (.command command) => command.actor.tenantId = tenant.toId
  | _ => True

/-! ## New rows -/

section Handlers

variable {env : Env} {tick : Tick} {t t' : Tables} {m : Mutation}

theorem checkRunInput_ok {actor : CommandActor} {inputSchema inputRef : ArtifactRef} {u : Unit}
    (h : checkRunInput env tick t actor inputSchema inputRef = .ok u) :
    ContentStored t.journal inputRef := by
  simp only [checkRunInput, artifactMetadata, bind_eq_ok, okOr_eq_ok, parseUuid_eq_ok] at h
  obtain ⟨metadata, ⟨id, hId, a, ha, -⟩, -⟩ := h
  exact ⟨id, a, hId, ha⟩

/-- A run is admitted with an input that is there, of the tenant that the actor names. -/
theorem startRun_input {actor : CommandActor} {workflowId workflowVersion grantId : String}
    {inputRef : ArtifactRef}
    (h : startRun env tick t actor workflowId workflowVersion inputRef grantId = .ok (t', m))
    {id : Uuid} {r : RunRow} (hNone : t.runs.get? id = none) (hr : t'.runs.get? id = some r) :
    r.inputRef.tenantId = actor.tenantId ∧ ContentStored t.journal r.inputRef := by
  simp only [startRun, bind_eq_ok, require_eq_ok, okOr_eq_ok, pure_eq_ok, requireDispatchEnabled,
    Prod.exists, Prod.mk.injEq, exists_const] at h
  obtain ⟨principal, -, hTenant, grant, -, digest, definition, -, schema, -, -, -, -, active, -, _,
    hInput, runs, hInsert, input, -, rfl, -⟩ := h
  rcases Table.insert?_get?_cases (insertRun_ok hInsert) hr with ⟨-, rfl⟩ | ⟨-, hOld⟩
  · exact ⟨hTenant, checkRunInput_ok hInput⟩
  · cases hNone.symm.trans hOld

/-- The rows that a command creates: a run has its input, and an effect is shown. -/
structure Creations (env : Env) (actor : CommandActor) (t t' : Tables) (m : Mutation) : Prop where
  run : ∀ id r, t.runs.get? id = none → t'.runs.get? id = some r →
    r.inputRef.tenantId = actor.tenantId ∧ ContentStored t.journal r.inputRef
  effect : ∀ id e, t.effects.get? id = none → t'.effects.get? id = some e →
    ∃ label accepted, m = effectMutation env t id e label accepted

namespace Creations

variable {actor : CommandActor}

theorem of_kept (hRuns : ∀ id, t.runs.get? id = none → t'.runs.get? id = none)
    (hEffects : ∀ id, t.effects.get? id = none → t'.effects.get? id = none) :
    Creations env actor t t' m := by
  refine ⟨fun id r hNone hr => ?_, fun id e hNone he => ?_⟩
  · cases (hRuns id hNone).symm.trans hr
  · cases (hEffects id hNone).symm.trans he

theorem of_created {q : ReserveRequest} {e : EffectRow} {b' : Budget}
    {effects : Table Uuid EffectRow} {label : String} {accepted : Bool}
    (hCreated : Created tick t q e b' effects) :
    Creations env actor t { t with budget := b', effects }
      (effectMutation env t (tick.draw .effect) e label accepted) := by
  refine ⟨fun id r hNone hr => (by cases hNone.symm.trans hr), fun id f hNone hf => ?_⟩
  rcases Table.insert?_get?_cases hCreated.inserted hf with ⟨rfl, rfl⟩ | ⟨-, hOld⟩
  · exact ⟨_, _, rfl⟩
  · cases hNone.symm.trans hOld

end Creations

theorem set_none {ρ : Type} {rows : Table Uuid ρ} {i : Uuid} {old new : ρ}
    (hFound : rows.get? i = some old) (id : Uuid) (hNone : rows.get? id = none) :
    (rows.set i new).get? id = none := by
  have hOther : id ≠ i := by
    rintro rfl
    cases hNone.symm.trans hFound
  rw [Table.get?_set_ne _ hOther, hNone]

theorem dispatchCommand_creations {c : Command CommandInput}
    (h : dispatchCommand env tick t c = .ok (t', m)) : Creations env c.actor t t' m := by
  unfold dispatchCommand at h
  dsimp only at h
  split at h
  · refine ⟨fun id r => startRun_input h, ?_⟩
    obtain ⟨row, runs, input, -, -, rfl, -⟩ := startRun_ok h
    intro id e hNone he
    cases hNone.symm.trans he
  · obtain ⟨i, r, r', input, -, hMoved, rfl, -⟩ := cancelRun_ok h
    exact .of_kept (set_none hMoved.found) fun _ => id
  · obtain ⟨i, a, a', -, -, -, rfl, -⟩ := decideApproval_ok h
    exact .of_kept (fun _ => id) fun _ => id
  · obtain ⟨b', -, -, rfl, -⟩ := configureBudgetCommand_ok h
    exact .of_kept (fun _ => id) fun _ => id
  · obtain ⟨p, -, ⟨i, f, -, -, rfl, -⟩ | ⟨-, b', effects, hCreated, rfl, rfl⟩⟩ := proposeEffect_ok h
    · exact .of_kept (fun _ => id) fun _ => id
    · exact .of_created hCreated
  · obtain ⟨i, f, f', -, hMoved, rfl, -⟩ := dispatchEffect_ok h
    exact .of_kept (fun _ => id) (set_none hMoved.found)
  · obtain ⟨i, f, f', -, hMoved, rfl, -⟩ := reconcileEffect_ok h
    exact .of_kept (fun _ => id) (set_none hMoved.found)
  · obtain ⟨original, approval, f, row, b', effects, -, -, -, hCreated, rfl, rfl⟩ :=
      compensateEffect_ok h
    exact .of_created hCreated
  · obtain ⟨i, r, r', -, -, -, rfl, -⟩ := revokeConnection_ok h
    exact .of_kept (fun _ => id) fun _ => id
  · obtain ⟨d, ds, -, -, rfl, -⟩ := createGrant_ok h
    exact .of_kept (fun _ => id) fun _ => id
  · obtain ⟨i, d, ids, ds, -, -, -, -, -, rfl, -⟩ := revokeGrant_ok h
    exact .of_kept (fun _ => id) fun _ => id
  · obtain ⟨killSwitches, rfl, -⟩ := setKillSwitch_ok h
    exact .of_kept (fun _ => id) fun _ => id

end Handlers

/-! ## Along a run -/

theorem runSystemCall_creates {env : Env} {tick : Tick} {t t' : Tables} {call : SystemCall}
    {reply : Reply} (h : runSystemCall env tick t call = .ok (t', reply)) :
    (∀ id, t.runs.get? id = none → t'.runs.get? id = none) ∧
      ∀ id, t.effects.get? id = none → t'.effects.get? id = none := by
  have hMoves := (runSystemCall_moves h).2
  constructor
  · intro id hNone
    cases hMoves .run id with
    | same hRow hNot => simpa [Tracked.row, hNone] using hRow
    | moved hFrom hTo hForward hBypasses => simp [Tracked.row, hNone] at hFrom
  · intro id hNone
    cases hMoves .effect id with
    | same hRow hNot => simpa [Tracked.row, hNone] using hRow
    | moved hFrom hTo hForward hBypasses => simp [Tracked.row, hNone] at hFrom

theorem dispatch_creates {p : Platform ι} {tick : Tick} {t t' : Tables}
    {c : Command (PlatformInput ι)} {m : Mutation} (h : p.dispatch tick t c = .ok (t', m)) :
    (∀ id, t.runs.get? id = none → t'.runs.get? id = none) ∧ t'.effects = t.effects := by
  unfold Platform.dispatch at h
  split at h
  · obtain ⟨digest, registry, runs, -, hRuns, rfl, -⟩ := revokePlugin_ok h
    refine ⟨fun id hNone => ?_, rfl⟩
    rcases hRuns.rows id with ⟨-, hNone'⟩ | ⟨r, r', hr, -⟩
    · exact hNone'
    · cases hNone.symm.trans hr
  · obtain ⟨j, id, rights, requests, -, -, rfl, -⟩ := requestDeletion_ok h
    exact ⟨fun _ hNone => hNone, rfl⟩
  · obtain ⟨registry, rfl, -⟩ := Lifecycle.run_ok h
    exact ⟨fun _ hNone => hNone, rfl⟩

section Steps

variable {p : Platform ι} {s : Store} {c : PlatformCall ι}

theorem platformStep_identity (p : Platform ι) (s : Store) (c : PlatformCall ι) :
    (platformStep p s c).1.tables.identity = s.tables.identity := by
  rcases platformStep_change p s c with ⟨-, hSame⟩ | ⟨a, -, hChange⟩
  · rw [hSame]
  · exact hChange.identity

theorem TenantContent.step {content : ArtifactRef} (h : TenantContent s.tables content) :
    TenantContent (platformStep p s c).1.tables content := by
  obtain ⟨hTenant, id, a, hParse, ha⟩ := h
  obtain ⟨a', ha'⟩ := (platformStep_outcome p s c).artifact_kept ha
  refine ⟨?_, id, a', hParse, ha'⟩
  rw [platformStep_identity]
  exact hTenant

/-- What a new row refers to was there when it was created. -/
theorem platformStep_creates (hNames : NamesTenant s.tables.identity.tenantId c) :
    (∀ id r, s.tables.runs.get? id = none → (platformStep p s c).1.tables.runs.get? id = some r →
      TenantContent s.tables r.inputRef) ∧
    ∀ id e, s.tables.effects.get? id = none →
      (platformStep p s c).1.tables.effects.get? id = some e →
      TenantContent s.tables e.contentRef := by
  have hOutcome := platformStep_outcome p s c
  unfold NamesTenant at hNames
  generalize (platformStep p s c).1.tables = t' at hOutcome ⊢
  generalize c.operation = op at hOutcome hNames
  -- only the commands of runs and effects create anything
  have hQuiet : (∀ id, s.tables.runs.get? id = none → t'.runs.get? id = none) →
      (∀ id, s.tables.effects.get? id = none → t'.effects.get? id = none) →
      (∀ id r, s.tables.runs.get? id = none → t'.runs.get? id = some r →
        TenantContent s.tables r.inputRef) ∧
      ∀ id e, s.tables.effects.get? id = none → t'.effects.get? id = some e →
        TenantContent s.tables e.contentRef := by
    intro hRuns hEffects
    refine ⟨fun id r hNone hr => ?_, fun id e hNone he => ?_⟩
    · cases (hRuns id hNone).symm.trans hr
    · cases (hEffects id hNone).symm.trans he
  cases hOutcome with
  | unchanged => exact hQuiet (fun _ h => h) fun _ h => h
  | @command call t₁ m j hActor hAuthorized hHandled hJournal hRecorded =>
    have hCreations := dispatchCommand_creations hHandled
    have hTenant : call.actor.tenantId = s.tables.identity.tenantId.toId := hNames
    refine ⟨fun id r hNone hr => ?_, fun id e hNone he => ?_⟩
    · obtain ⟨hActorTenant, hStored⟩ := hCreations.run id r hNone hr
      exact ⟨hActorTenant.trans hTenant, hStored⟩
    · obtain ⟨label, accepted, rfl⟩ := hCreations.effect id e hNone he
      have hSources := sourcesStored_effect.mp (recordChanges_sources hRecorded)
      exact ⟨hSources.1.trans hTenant, hSources.2⟩
  | further hHandled hRecorded =>
    obtain ⟨hRuns, hEffects⟩ := dispatch_creates hHandled
    refine hQuiet hRuns fun id hNone => ?_
    dsimp only
    rw [hEffects]
    exact hNone
  | contained hContained => exact hQuiet (fun _ h => h) fun _ h => h
  | system hCall => exact hQuiet (runSystemCall_creates hCall).1 (runSystemCall_creates hCall).2
  | checkpoint hRecord =>
    rcases recordRunCheckpoint_ok hRecord with ⟨-, rfl⟩ | ⟨-, row, checkpoints, -, rfl, -⟩
    · exact hQuiet (fun _ h => h) fun _ h => h
    · exact hQuiet (fun _ h => h) fun _ h => h

/-- The content of every effect is of the tenant and is there. -/
def EffectsStored (t : Tables) : Prop :=
  ∀ id e, t.effects.get? id = some e → TenantContent t e.contentRef

/-- The input of every run is of the tenant and is there. -/
def RunsStored (t : Tables) : Prop :=
  ∀ id r, t.runs.get? id = some r → TenantContent t r.inputRef

theorem EffectsStored.step (h : EffectsStored s.tables)
    (hNames : NamesTenant s.tables.identity.tenantId c) :
    EffectsStored (platformStep p s c).1.tables := by
  intro id e he
  cases hBefore : s.tables.effects.get? id with
  | none => exact ((platformStep_creates hNames).2 id e hBefore he).step
  | some e₀ =>
    have hContent : e.contentRef = e₀.contentRef := by
      rcases platformStep_change p s c with ⟨-, hSame⟩ | ⟨a, -, hChange⟩
      · rw [hSame] at he
        cases hBefore.symm.trans he
        rfl
      · obtain ⟨e', he', hIntent, -⟩ := hChange.effect_kept hBefore
        cases he'.symm.trans he
        exact congrArg EffectIntent.contentRef hIntent
    rw [hContent]
    exact (h id e₀ hBefore).step

theorem RunsStored.step (h : RunsStored s.tables)
    (hNames : NamesTenant s.tables.identity.tenantId c) :
    RunsStored (platformStep p s c).1.tables := by
  intro id r hr
  cases hBefore : s.tables.runs.get? id with
  | none => exact ((platformStep_creates hNames).1 id r hBefore hr).step
  | some r₀ =>
    have hInput : r.inputRef = r₀.inputRef := by
      rcases platformStep_change p s c with ⟨-, hSame⟩ | ⟨a, -, hChange⟩
      · rw [hSame] at hr
        cases hBefore.symm.trans hr
        rfl
      · obtain ⟨r', hr', hTerms, -, -⟩ := hChange.run_kept hBefore
        cases hr'.symm.trans hr
        exact congrArg RunTerms.inputRef hTerms
    rw [hInput]
    exact (h id r₀ hBefore).step

end Steps

end Masonwing
