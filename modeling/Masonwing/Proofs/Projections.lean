import Masonwing.Lib.Publication
import Masonwing.Proofs.Changes
import Masonwing.Proofs.Evaluation
import Masonwing.Proofs.Recording

/-!
# The read side of runs and effects

A command writes a row and, in `execute`, a projection of it. The system path writes the row
alone. With runs and effects as pages of `Publication`, a committed command publishes the row it
writes and a system-path transition bypasses the projections:

* `dispatchCommand_announces`: what the mutation of a command shows, and of which rows;
* `runSystemCall_moves`: what a system call does to a row;
* `step_page`: every step as a `Publication.Move`;
* `projections_track_rows`: over every run, the newest projection of a row is current exactly if
  each system-path transition of the row was followed by a command on it.
-/

namespace Masonwing

open Outcome Publication

/-! ## Rows and what is shown of them -/

/-- The resources that commands and the system path both write. -/
inductive Tracked where
  | run
  | effect
  deriving DecidableEq

namespace Tracked

/-- The resource type of its projections. -/
def kind : Tracked → String
  | .run => "Run"
  | .effect => "EffectIntent"

/-- The version and the state of a row. -/
def row (t : Tables) (id : Uuid) : Tracked → Option (Version × String)
  | .run => (t.runs.get? id).map fun r => (r.version, r.state.toText)
  | .effect => (t.effects.get? id).map fun e => (e.version, e.state.toText)

theorem kind_injective {k k' : Tracked} (h : k.kind = k'.kind) : k = k' := by
  cases k <;> cases k' <;> first | rfl | exact absurd h (by decide)

end Tracked

/-- The newest projection of a resource carries the version and the state. -/
def Shown (k : Tracked) (t : Tables) (id : Uuid) (version : Version) (state : String) : Prop :=
  ∃ p, latestProjection t.journal k.kind id.toText = some (version.val, p) ∧
    p.value.get? "version" = some (.num version.val) ∧ p.value.get? "state" = some (.str state)

/-- What a projection shows: its version and its state. -/
abbrev Face := Option Json × Option Json

def face (version : Version) (state : String) : Face := (some (.num version.val), some (.str state))

/-- A row with its projections. -/
def page (k : Tracked) (t : Tables) (id : Uuid) : Page Face :=
  { current := (k.row t id).map fun r => (r.1.val, face r.1 r.2)
    published := fun v => (t.journal.projections.get? ⟨k.kind, id.toText, v⟩).map fun p =>
      (p.value.get? "version", p.value.get? "state") }

theorem page_current {k : Tracked} {t : Tables} {id : Uuid} {version : Version} {state : String}
    (h : k.row t id = some (version, state)) :
    (page k t id).current = some (version.val, face version state) := by
  rw [page, h]
  rfl

theorem page_congr {k : Tracked} {t t' : Tables} {id : Uuid} (hRow : k.row t' id = k.row t id)
    (hProjections : ∀ v, t'.journal.projections.get? ⟨k.kind, id.toText, v⟩ =
      t.journal.projections.get? ⟨k.kind, id.toText, v⟩) : page k t' id = page k t id := by
  unfold page
  rw [hRow]
  simp only [hProjections]

theorem upToDate_iff_shown {k : Tracked} {t : Tables} {id : Uuid} {version : Version}
    {state : String} (h : k.row t id = some (version, state)) :
    (page k t id).UpToDate ↔ Shown k t id version state := by
  constructor
  · rintro ⟨v, x, hCurrent, hShown, hNewest⟩
    cases (page_current h).symm.trans hCurrent
    obtain ⟨p, hp, hFace⟩ := Option.map_eq_some_iff.mp hShown
    obtain ⟨hVersion, hState⟩ := Prod.mk.inj hFace
    refine ⟨p, latestProjection_eq_some.mpr ⟨hp, fun w q hq => ?_⟩, hVersion, hState⟩
    exact hNewest w _ (Option.map_eq_some_iff.mpr ⟨q, hq, rfl⟩)
  · rintro ⟨p, hLatest, hVersion, hState⟩
    obtain ⟨hp, hNewest⟩ := latestProjection_eq_some.mp hLatest
    refine ⟨version.val, face version state, page_current h, ?_, fun w y hy => ?_⟩
    · exact Option.map_eq_some_iff.mpr ⟨p, hp, by rw [hVersion, hState]; rfl⟩
    · obtain ⟨q, hq, -⟩ := Option.map_eq_some_iff.mp hy
      exact hNewest w q hq

/-! ## What acts write -/

/-- The connection and the key of a proposal. -/
def Operation.proposal : Operation → Option (Uuid × String)
  | .command c =>
    match c.input with
    | .effectPropose _ connectionId .. =>
      (Uuid.parse connectionId).map fun connection => (connection, c.idempotencyKey.text)
    | _ => none
  | _ => none

/-- The effect of a proposal: the one that its key names already, or the new one. -/
def proposedEffect (tick : Tick) (t : Tables) (key : Uuid × String) : Uuid :=
  match existingEffect t key.1 key.2 with
  | some (id, _) => id
  | none => tick.draw .effect

/-- The act is a command that writes or shows the row. -/
def Act.publishes (k : Tracked) (id : Uuid) (t : Tables) (c : Call) (a : Act) : Prop :=
  match k, a with
  | .run, .startRun => c.tick.draw .run = id
  | .run, .cancelRun run => run = id
  | .effect, .propose => ∃ key ∈ c.operation.proposal, proposedEffect c.tick t key = id
  | .effect, .compensate .. => c.tick.draw .effect = id
  | .effect, .dispatch effect => effect = id
  | .effect, .reconcile effect => effect = id
  | _, _ => False

/-- The act writes the row on the system path. -/
def Act.bypasses (env : Env) (k : Tracked) (id : Uuid) (t : Tables) (tick : Tick) (a : Act) :
    Prop :=
  match k, a with
  | .run, .markStarted run => run = id
  | .run, .markCompleted run => run = id
  | .run, .claim run => run = id ∧ Fences env tick t run
  | .effect, .recordUnknown effect => effect = id
  | .effect, .recordSucceeded effect => effect = id
  | .effect, .recordFailed effect => effect = id
  | .effect, .reauthorize effect => effect = id
  | .effect, .review effect => effect = id
  | _, _ => False

/-- The event committed a command that writes or shows the row. -/
def Publishes (k : Tracked) (id : Uuid) (event : SystemEvent) : Prop :=
  ∃ a, event.did a ∧ a.publishes k id event.before.tables event.call

/-- The event committed a system-path transition of the row. -/
def Bypasses (env : Env) (k : Tracked) (id : Uuid) (event : SystemEvent) : Prop :=
  ∃ a, event.did a ∧ a.bypasses env k id event.before.tables event.call.tick

/-! ## Commands -/

/-- The mutation shows a version of the resource and nothing else. -/
def Mutation.Shows (m : Mutation) (k : Tracked) (id : Uuid) (version : Version) (state : String) :
    Prop :=
  ∃ c, m.changes = [c] ∧ c.resource = resourceRef k.kind id version ∧
    c.value.get? "version" = some (.num version.val) ∧ c.value.get? "state" = some (.str state)

/-- The mutation does not show the resource. -/
def Mutation.Omits (m : Mutation) (k : Tracked) (id : Uuid) : Prop :=
  ∀ c ∈ m.changes, ∀ v, projectionKey c.resource ≠ ⟨k.kind, id.toText, v⟩

theorem runMutation_shows (env : Env) (t : Tables) (id : Uuid) (r : RunRow) (input : Uuid)
    (accepted : Bool) :
    (runMutation env t id r input accepted).Shows .run id r.version r.state.toText :=
  ⟨_, rfl, rfl, rfl, rfl⟩

theorem effectMutation_shows (env : Env) (t : Tables) (id : Uuid) (e : EffectRow) (label : String)
    (accepted : Bool) :
    (effectMutation env t id e label accepted).Shows .effect id e.version e.state.toText :=
  ⟨_, rfl, rfl, rfl, rfl⟩

theorem Mutation.Shows.omits {m : Mutation} {k k' : Tracked} {id id' : Uuid} {version : Version}
    {state : String} (h : m.Shows k id version state) (hOther : (k', id') ≠ (k, id)) :
    m.Omits k' id' := by
  obtain ⟨c, hChanges, hResource, -, -⟩ := h
  intro c' hc' v hKey
  rw [hChanges, List.mem_singleton] at hc'
  rw [hc', hResource] at hKey
  simp only [projectionKey, resourceRef, Uuid.toId_text, ProjectionKey.mk.injEq] at hKey
  obtain ⟨hKind, hId, -⟩ := hKey
  rw [Tracked.kind_injective hKind, Uuid.toText_injective hId] at hOther
  exact hOther rfl

theorem Mutation.Only.omits {m : Mutation} {kind : String} (h : m.Only kind) {k : Tracked}
    (hKind : kind ≠ k.kind) (id : Uuid) : m.Omits k id := by
  intro c hc v hKey
  have hType : c.resource.resourceType = k.kind := congrArg ProjectionKey.resourceType hKey
  exact hKind ((h c hc).symm.trans hType)

/-- What a command does to one row and shows of it. -/
inductive Announcement (k : Tracked) (id : Uuid) (t t' : Tables) (m : Mutation)
    (publishes : Prop) : Prop
  | quiet (hRow : k.row t' id = k.row t id) (hOmits : m.Omits k id) (hNot : ¬publishes)
  | shown {version : Version} {state : String} (hRow : k.row t' id = some (version, state))
      (hForward : ∀ v s, k.row t id = some (v, s) → v.val ≤ version.val)
      (hShows : m.Shows k id version state) (hPublishes : publishes)

section Commands

variable {env : Env} {tick : Tick} {t t' : Tables} {m : Mutation}
  {publishes : Tracked → Uuid → Prop}

/-- A command that writes one row and shows it. -/
theorem Announcement.of_shows {k : Tracked} {id : Uuid} {version : Version} {state : String}
    (hShows : m.Shows k id version state) (hRow : k.row t' id = some (version, state))
    (hForward : ∀ v s, k.row t id = some (v, s) → v.val ≤ version.val)
    (hOther : ∀ k' id', (k', id') ≠ (k, id) → k'.row t' id' = k'.row t id')
    (hPublishes : ∀ k' id', publishes k' id' ↔ (k', id') = (k, id)) (k' : Tracked) (id' : Uuid) :
    Announcement k' id' t t' m (publishes k' id') := by
  by_cases hSame : (k', id') = (k, id)
  · have hPublish := (hPublishes k' id').mpr hSame
    cases hSame
    exact .shown hRow hForward hShows hPublish
  · exact .quiet (hOther k' id' hSame) (hShows.omits hSame) (mt (hPublishes k' id').mp hSame)

/-- A command on another kind of resource. -/
theorem Announcement.of_only {kind : String} (h : m.Only kind) (hKind : ∀ k : Tracked, kind ≠ k.kind)
    (hRuns : t'.runs = t.runs) (hEffects : t'.effects = t.effects)
    (hPublishes : ∀ k id, ¬publishes k id) (k : Tracked) (id : Uuid) :
    Announcement k id t t' m (publishes k id) := by
  refine .quiet ?_ (h.omits (hKind k) id) (hPublishes k id)
  cases k with
  | run => rw [Tracked.row, Tracked.row, hRuns]
  | effect => rw [Tracked.row, Tracked.row, hEffects]

theorem row_run {id : Uuid} {r : RunRow} (h : t.runs.get? id = some r) :
    Tracked.run.row t id = some (r.version, r.state.toText) := by
  rw [Tracked.row, h]
  rfl

theorem row_effect {id : Uuid} {e : EffectRow} (h : t.effects.get? id = some e) :
    Tracked.effect.row t id = some (e.version, e.state.toText) := by
  rw [Tracked.row, h]
  rfl

/-- A command that writes one run. -/
theorem Announcement.of_run {id input : Uuid} {r : RunRow} {accepted : Bool}
    (hMutation : m = runMutation env t id r input accepted) (hRow : t'.runs.get? id = some r)
    (hForward : ∀ r₀, t.runs.get? id = some r₀ → r₀.version.val ≤ r.version.val)
    (hRuns : ∀ j, j ≠ id → t'.runs.get? j = t.runs.get? j) (hEffects : t'.effects = t.effects)
    (hPublishes : ∀ k' id', publishes k' id' ↔ (k', id') = (.run, id)) (k : Tracked) (i : Uuid) :
    Announcement k i t t' m (publishes k i) := by
  subst hMutation
  refine .of_shows (runMutation_shows env t id r input accepted) (row_run hRow) ?_ ?_ hPublishes k i
  · intro v s hBefore
    obtain ⟨r₀, hr₀, hPair⟩ := Option.map_eq_some_iff.mp hBefore
    cases hPair
    exact hForward r₀ hr₀
  · intro k' j hOther
    cases k' with
    | run => rw [Tracked.row, Tracked.row, hRuns j fun hj => hOther (by rw [hj])]
    | effect => rw [Tracked.row, Tracked.row, hEffects]

/-- A command that writes or repeats one effect; what it shows may differ from the row in the
fields that a repeated proposal sends again. -/
theorem Announcement.of_effect {id : Uuid} {e e' : EffectRow} {label : String} {accepted : Bool}
    (hMutation : m = effectMutation env t id e' label accepted)
    (hRow : t'.effects.get? id = some e)
    (hShown : e'.version = e.version ∧ e'.state = e.state)
    (hForward : ∀ e₀, t.effects.get? id = some e₀ → e₀.version.val ≤ e.version.val)
    (hEffects : ∀ j, j ≠ id → t'.effects.get? j = t.effects.get? j) (hRuns : t'.runs = t.runs)
    (hPublishes : ∀ k' id', publishes k' id' ↔ (k', id') = (.effect, id)) (k : Tracked)
    (i : Uuid) : Announcement k i t t' m (publishes k i) := by
  subst hMutation
  have hShows := effectMutation_shows env t id e' label accepted
  rw [hShown.1, hShown.2] at hShows
  refine .of_shows hShows (row_effect hRow) ?_ ?_ hPublishes k i
  · intro v s hBefore
    obtain ⟨e₀, he₀, hPair⟩ := Option.map_eq_some_iff.mp hBefore
    cases hPair
    exact hForward e₀ he₀
  · intro k' j hOther
    cases k' with
    | run => rw [Tracked.row, Tracked.row, hRuns]
    | effect => rw [Tracked.row, Tracked.row, hEffects j fun hj => hOther (by rw [hj])]

/-- Replacing one effect. -/
theorem Announcement.of_moved {id : Uuid} {e e' : EffectRow} {label : String} {accepted : Bool}
    (hMoved : EffectMoved t id e e') (hTables : t' = { t with effects := t.effects.set id e' })
    (hMutation : m = effectMutation env t id e' label accepted)
    (hPublishes : ∀ k' id', publishes k' id' ↔ (k', id') = (.effect, id)) (k : Tracked)
    (i : Uuid) : Announcement k i t t' m (publishes k i) := by
  have hEffects : t'.effects = t.effects.set id e' := by rw [hTables]
  have hRow : t'.effects.get? id = some e' := by rw [hEffects, Table.get?_set_self hMoved.found]
  refine .of_effect hMutation hRow ⟨rfl, rfl⟩ ?_ ?_ (by rw [hTables]) hPublishes k i
  · intro e₀ he₀
    cases hMoved.found.symm.trans he₀
    rw [Version.next?_eq_some hMoved.version]
    omega
  · intro j hj
    rw [hEffects, Table.get?_set_ne _ hj]

/-- Inserting one effect. -/
theorem Announcement.of_created {q : ReserveRequest} {e : EffectRow} {b' : Budget}
    {effects : Table Uuid EffectRow} {label : String} {accepted : Bool}
    (hCreated : Created tick t q e b' effects) (hTables : t' = { t with budget := b', effects })
    (hMutation : m = effectMutation env t (tick.draw .effect) e label accepted)
    (hPublishes : ∀ k' id', publishes k' id' ↔ (k', id') = (.effect, tick.draw .effect))
    (k : Tracked) (i : Uuid) : Announcement k i t t' m (publishes k i) := by
  have hEffects : t'.effects = effects := by rw [hTables]
  have hRow : t'.effects.get? (tick.draw .effect) = some e := by
    rw [hEffects, Table.insert?_get?_self hCreated.inserted]
  refine .of_effect hMutation hRow ⟨rfl, rfl⟩ ?_ ?_ (by rw [hTables]) hPublishes k i
  · intro e₀ he₀
    cases (Table.insert?_eq_some hCreated.inserted).1.symm.trans he₀
  · intro j hj
    rw [hEffects, Table.insert?_get? hCreated.inserted, if_neg hj]

/-- The handlers of commands, by what they show. -/
theorem dispatchCommand_announces {c : Command CommandInput}
    (h : dispatchCommand env tick t c = .ok (t', m)) :
    t'.journal = t.journal ∧ ∃ a, c.input.act = some a ∧
      ∀ k id, Announcement k id t t' m (a.publishes k id t ⟨tick, .command c⟩) := by
  unfold dispatchCommand at h
  dsimp only at h
  split at h
  · rename_i hInput
    obtain ⟨row, runs, input, hInsert, -, rfl, hMutation⟩ := startRun_ok h
    refine ⟨rfl, .startRun, by rw [hInput]; rfl, .of_run hMutation
      (Table.insert?_get?_self hInsert) ?_ ?_ rfl ?_⟩
    · intro r₀ hr₀
      cases (Table.insert?_eq_some hInsert).1.symm.trans hr₀
    · intro j hj
      change runs.get? j = _
      rw [Table.insert?_get? hInsert, if_neg hj]
    · intro k' id'
      cases k' <;> simp [Act.publishes, eq_comm]
  · rename_i hInput
    obtain ⟨id, r, r', input, hId, hCancelled, rfl, hMutation⟩ := cancelRun_ok h
    have hMoved := hCancelled.toRunMoved
    refine ⟨rfl, .cancelRun id, by rw [hInput, CommandInput.act, hId]; rfl, .of_run hMutation
      (Table.get?_set_self hMoved.found r') ?_ (fun j hj => Table.get?_set_ne _ hj r') rfl ?_⟩
    · intro r₀ hr₀
      cases hMoved.found.symm.trans hr₀
      rw [Version.next?_eq_some hMoved.version]
      omega
    · intro k' id'
      cases k' <;> simp [Act.publishes, eq_comm]
  · rename_i hInput
    obtain ⟨id, p, p', hId, -, -, rfl, hOnly⟩ := decideApproval_ok h
    refine ⟨rfl, .decideApproval id, by rw [hInput, CommandInput.act, hId]; rfl,
      .of_only hOnly (by intro k; cases k <;> decide) rfl rfl ?_⟩
    intro k i
    cases k <;> exact not_false
  · rename_i hInput
    obtain ⟨b', -, -, rfl, hOnly⟩ := configureBudgetCommand_ok h
    refine ⟨rfl, .configureBudget, by rw [hInput]; rfl,
      .of_only hOnly (by intro k; cases k <;> decide) rfl rfl ?_⟩
    intro k i
    cases k <;> exact not_false
  · rename_i action connectionId target contentRef grantId profile hInput
    obtain ⟨p, hAdmit, hOutcome⟩ := proposeEffect_ok h
    obtain ⟨-, hConnection, -, -, -, -, -, -, hKey⟩ := admitProposal_ok hAdmit
    have hPublishes : ∀ k' id', Act.propose.publishes k' id' t ⟨tick, .command c⟩ ↔
        (k', id') = (.effect, proposedEffect tick t (p.connectionId, p.idempotencyKey)) := by
      intro k' id'
      cases k' with
      | run => simp [Act.publishes]
      | effect => simp [Act.publishes, Operation.proposal, hInput, hConnection, hKey, eq_comm]
    rcases hOutcome with ⟨id, e, hExisting, -, rfl, hMutation⟩ | ⟨hNone, b', effects, hCreated,
      hTables, hMutation⟩
    · simp only [proposedEffect, hExisting] at hPublishes
      refine ⟨rfl, .propose, by rw [hInput]; rfl,
        .of_effect hMutation (existingEffect_some hExisting).1 ⟨rfl, rfl⟩ ?_ (fun _ _ => rfl) rfl
          hPublishes⟩
      intro e₀ he₀
      cases (existingEffect_some hExisting).1.symm.trans he₀
      exact le_refl _
    · simp only [proposedEffect, hNone] at hPublishes
      exact ⟨by rw [hTables], .propose, by rw [hInput]; rfl,
        .of_created hCreated hTables hMutation hPublishes⟩
  · rename_i hInput
    obtain ⟨id, e, e', hId, hDispatched, hTables, hMutation⟩ := dispatchEffect_ok h
    refine ⟨by rw [hTables], .dispatch id, by rw [hInput, CommandInput.act, hId]; rfl,
      .of_moved hDispatched.toEffectMoved hTables hMutation ?_⟩
    intro k' id'
    cases k' <;> simp [Act.publishes, eq_comm]
  · rename_i hInput
    obtain ⟨id, e, e', hId, hReconciled, hTables, hMutation⟩ := reconcileEffect_ok h
    refine ⟨by rw [hTables], .reconcile id, by rw [hInput, CommandInput.act, hId]; rfl,
      .of_moved hReconciled.toEffectMoved hTables hMutation ?_⟩
    intro k' id'
    cases k' <;> simp [Act.publishes, eq_comm]
  · rename_i hInput
    obtain ⟨original, approval, e, row, b', effects, hOriginal, hApproval, -, hCreated, hTables,
      hMutation⟩ := compensateEffect_ok h
    refine ⟨by rw [hTables], .compensate original approval _,
      by rw [hInput, CommandInput.act, hOriginal, hApproval]; rfl,
      .of_created hCreated hTables hMutation ?_⟩
    intro k' id'
    cases k' <;> simp [Act.publishes, eq_comm]
  · rename_i hInput
    obtain ⟨id, row, row', hId, -, -, rfl, hOnly⟩ := revokeConnection_ok h
    refine ⟨rfl, .revokeConnection id, by rw [hInput, CommandInput.act, hId]; rfl,
      .of_only hOnly (by intro k; cases k <;> decide) rfl rfl ?_⟩
    intro k i
    cases k <;> exact not_false
  · rename_i hInput
    obtain ⟨d, ds, -, -, rfl, hOnly⟩ := createGrant_ok h
    refine ⟨rfl, .createGrant, by rw [hInput]; rfl,
      .of_only hOnly (by intro k; cases k <;> decide) rfl rfl ?_⟩
    intro k i
    cases k <;> exact not_false
  · rename_i hInput
    obtain ⟨id, d, ids, ds, hId, -, -, -, -, rfl, hOnly⟩ := revokeGrant_ok h
    refine ⟨rfl, .revokeGrant id, by rw [hInput, CommandInput.act, hId]; rfl,
      .of_only hOnly (by intro k; cases k <;> decide) rfl rfl ?_⟩
    intro k i
    cases k <;> exact not_false
  · rename_i hInput
    obtain ⟨killSwitches, rfl, hOnly⟩ := setKillSwitch_ok h
    refine ⟨rfl, .setKillSwitch, by rw [hInput]; rfl,
      .of_only hOnly (by intro k; cases k <;> decide) rfl rfl ?_⟩
    intro k i
    cases k <;> exact not_false

end Commands

/-! ## The system path -/

/-- What a system call does to one row. -/
inductive RowMove (k : Tracked) (id : Uuid) (t t' : Tables) (bypasses : Prop) : Prop
  | same (hRow : k.row t' id = k.row t id) (hNot : ¬bypasses)
  | moved {v w : Version} {s s' : String} (hFrom : k.row t id = some (v, s))
      (hTo : k.row t' id = some (w, s')) (hForward : v.val < w.val) (hBypasses : bypasses)

section System

variable {env : Env} {tick : Tick} {t t' : Tables} {bypasses : Tracked → Uuid → Prop}

theorem RowMove.of_same (hRuns : t'.runs = t.runs) (hEffects : t'.effects = t.effects)
    (hNot : ∀ k id, ¬bypasses k id) (k : Tracked) (id : Uuid) :
    RowMove k id t t' (bypasses k id) := by
  refine .same ?_ (hNot k id)
  cases k with
  | run => rw [Tracked.row, Tracked.row, hRuns]
  | effect => rw [Tracked.row, Tracked.row, hEffects]

theorem RowMove.of_run {id : Uuid} {r r' : RunRow} (hMoved : RunMoved t id r r')
    (hTables : t' = { t with runs := t.runs.set id r' })
    (hBypasses : ∀ k' id', bypasses k' id' ↔ (k', id') = (.run, id)) (k : Tracked) (i : Uuid) :
    RowMove k i t t' (bypasses k i) := by
  have hRuns : t'.runs = t.runs.set id r' := by rw [hTables]
  by_cases hSame : (k, i) = (.run, id)
  · have hBypass := (hBypasses k i).mpr hSame
    cases hSame
    have hRow : t'.runs.get? id = some r' := by rw [hRuns, Table.get?_set_self hMoved.found]
    refine .moved (row_run hMoved.found) (row_run hRow) ?_ hBypass
    rw [Version.next?_eq_some hMoved.version]
    omega
  · refine .same ?_ (mt (hBypasses k i).mp hSame)
    cases k with
    | run =>
      have hi : i ≠ id := fun hi => hSame (by rw [hi])
      rw [Tracked.row, Tracked.row, hRuns, Table.get?_set_ne _ hi]
    | effect => rw [Tracked.row, Tracked.row, hTables]

theorem RowMove.of_effect {id : Uuid} {e e' : EffectRow} (hMoved : EffectMoved t id e e')
    (hEffects : t'.effects = t.effects.set id e') (hRuns : t'.runs = t.runs)
    (hBypasses : ∀ k' id', bypasses k' id' ↔ (k', id') = (.effect, id)) (k : Tracked) (i : Uuid) :
    RowMove k i t t' (bypasses k i) := by
  by_cases hSame : (k, i) = (.effect, id)
  · have hBypass := (hBypasses k i).mpr hSame
    cases hSame
    have hRow : t'.effects.get? id = some e' := by
      rw [hEffects, Table.get?_set_self hMoved.found]
    refine .moved (row_effect hMoved.found) (row_effect hRow) ?_ hBypass
    rw [Version.next?_eq_some hMoved.version]
    omega
  · refine .same ?_ (mt (hBypasses k i).mp hSame)
    cases k with
    | run => rw [Tracked.row, Tracked.row, hRuns]
    | effect =>
      have hi : i ≠ id := fun hi => hSame (by rw [hi])
      rw [Tracked.row, Tracked.row, hEffects, Table.get?_set_ne _ hi]

/-- What the relay does to no row. -/
theorem Relayed.same (h : Relayed t t') (hNot : ∀ k id, ¬bypasses k id) :
    t'.journal.projections = t.journal.projections ∧
      ∀ k id, RowMove k id t t' (bypasses k id) :=
  ⟨h.1, .of_same (by rw [h.2]) (by rw [h.2]) hNot⟩

theorem bypasses_effect {id : Uuid} {a : Act}
    (h : a = .recordUnknown id ∨ a = .recordSucceeded id ∨ a = .recordFailed id ∨
      a = .reauthorize id ∨ a = .review id) (k : Tracked) (i : Uuid) :
    a.bypasses env k i t tick ↔ (k, i) = (.effect, id) := by
  rcases h with rfl | rfl | rfl | rfl | rfl <;> cases k <;> simp [Act.bypasses, eq_comm]

theorem applyReconciliationEvidence_moves {id : Uuid} {evidence : ReconciliationEvidence}
    {remoteId : Option String} {evidenceRef : Option ArtifactRef} {used : Option Int} {m : Mutation}
    (h : applyReconciliationEvidence env tick t id evidence remoteId evidenceRef used =
      .ok (t', m)) :
    t'.journal.projections = t.journal.projections ∧
      ∀ k i, RowMove k i t t' ((evidence.act id).bypasses env k i t tick) := by
  cases evidence with
  | confirmedPresent =>
    simp only [applyReconciliationEvidence, bind_eq_ok] at h
    obtain ⟨remote, -, ref, -, h⟩ := h
    obtain ⟨e, e', b', receipts, receipt, hResolved, -, -, -, -, -, rfl⟩ :=
      recordEffectSucceeded_ok h
    exact ⟨rfl, .of_effect hResolved.toEffectMoved rfl rfl
      (bypasses_effect (Or.inr (Or.inl rfl)))⟩
  | confirmedFailure =>
    obtain ⟨e, e', b', hResolved, -, -, rfl⟩ := resolveEffect_ok h
    exact ⟨rfl, .of_effect hResolved.toEffectMoved rfl rfl
      (bypasses_effect (Or.inr (Or.inr (Or.inl rfl))))⟩
  | provenAbsentAndReauthorized =>
    obtain ⟨e, e', b', hResolved, -, -, rfl⟩ := resolveEffect_ok h
    exact ⟨rfl, .of_effect hResolved.toEffectMoved rfl rfl
      (bypasses_effect (Or.inr (Or.inr (Or.inr (Or.inl rfl)))))⟩
  | unresolved =>
    obtain ⟨e, e', b', hResolved, -, -, rfl⟩ := resolveEffect_ok h
    exact ⟨rfl, .of_effect hResolved.toEffectMoved rfl rfl
      (bypasses_effect (Or.inr (Or.inr (Or.inr (Or.inr rfl)))))⟩

/-- A budget operation of a run touches no row that is shown. -/
theorem systemBudget_moves {x : Result (Budget × Mutation)} {reply : Reply}
    (h : systemBudget t x = .ok (t', reply)) (hNot : ∀ k id, ¬bypasses k id) :
    t'.journal.projections = t.journal.projections ∧
      ∀ k id, RowMove k id t t' (bypasses k id) := by
  obtain ⟨b', m, -, rfl⟩ := systemBudget_ok h
  exact ⟨rfl, .of_same rfl rfl hNot⟩

theorem runSystemCall_moves {c : SystemCall} {reply : Reply}
    (h : runSystemCall env tick t c = .ok (t', reply)) :
    t'.journal.projections = t.journal.projections ∧
      ∀ k id, RowMove k id t t' (c.act.bypasses env k id t tick) := by
  cases c with
  | markRunStarted runId temporalRunId fence =>
    obtain ⟨m, h⟩ := withMutation_ok h
    obtain ⟨r, r', hStarted, -, hTables⟩ := markRunStarted_ok h
    refine ⟨by rw [hTables], .of_run hStarted.toRunMoved hTables fun k i => ?_⟩
    cases k <;> simp [SystemCall.act, Act.bypasses, eq_comm]
  | markRunCompleted runId fence =>
    obtain ⟨r, r', hCompleted, hTables⟩ := markRunCompleted_ok (withDone_ok h)
    refine ⟨by rw [hTables], .of_run hCompleted.toRunMoved hTables fun k i => ?_⟩
    cases k <;> simp [SystemCall.act, Act.bypasses, eq_comm]
  | verifyAndClaimRun runId =>
    simp only [runSystemCall, bind_eq_ok, pure_eq_ok, Prod.exists, Prod.mk.injEq] at h
    obtain ⟨_, claimed, h, rfl, -⟩ := h
    rcases verifyAndClaimRun_ok h with ⟨rfl, hPasses⟩ | ⟨hFences, r, r', hFenced, hTables⟩
    · refine ⟨rfl, .of_same rfl rfl fun k i => ?_⟩
      cases k <;> simp [SystemCall.act, Act.bypasses, hPasses]
    · refine ⟨by rw [hTables], .of_run hFenced.toRunMoved hTables fun k i => ?_⟩
      cases k <;> simp [SystemCall.act, Act.bypasses, hFences, eq_comm]
  | recordEffectUnknown effectId =>
    obtain ⟨m, h⟩ := withMutation_ok h
    obtain ⟨e, e', r, r', b', hResolved, -, -, -, -, rfl⟩ := recordEffectUnknown_ok h
    exact ⟨rfl, .of_effect hResolved.toEffectMoved rfl rfl (bypasses_effect (Or.inl rfl))⟩
  | recordEffectSucceeded effectId remoteId evidenceRef used =>
    obtain ⟨m, h⟩ := withMutation_ok h
    obtain ⟨e, e', b', receipts, receipt, hResolved, -, -, -, -, -, rfl⟩ :=
      recordEffectSucceeded_ok h
    exact ⟨rfl, .of_effect hResolved.toEffectMoved rfl rfl
      (bypasses_effect (Or.inr (Or.inl rfl)))⟩
  | applyReconciliationEvidence effectId evidence remoteId evidenceRef used =>
    obtain ⟨m, h⟩ := withMutation_ok h
    exact applyReconciliationEvidence_moves h
  | reserveRunBudget request =>
    exact systemBudget_moves h fun k i => by cases k <;> exact not_false
  | settleRunBudget reservationId used fingerprint =>
    exact systemBudget_moves h fun k i => by cases k <;> exact not_false
  | markRunCostUnknown reservationId =>
    exact systemBudget_moves h fun k i => by cases k <;> exact not_false
  | releaseRunBudget reservationId =>
    exact systemBudget_moves h fun k i => by cases k <;> exact not_false
  | claimPendingOutbox limit leaseSeconds =>
    simp only [runSystemCall, bind_eq_ok, pure_eq_ok, Prod.exists, Prod.mk.injEq] at h
    obtain ⟨_, items, h, rfl, -⟩ := h
    exact (claimPendingOutbox_ok h).same fun k i => by cases k <;> exact not_false
  | markOutboxDelivered eventId =>
    exact (markOutboxDelivered_ok (withDone_ok h)).same fun k i => by cases k <;> exact not_false
  | markOutboxFailed eventId maxAttempts =>
    exact (markOutboxFailed_ok (withDone_ok h)).same fun k i => by cases k <;> exact not_false

end System

/-! ## Every step -/

section Steps

variable {env : Env} {catalogue : Catalogue} {tick : Tick}

/-- A committed command publishes what it shows. -/
theorem Announcement.move {k : Tracked} {id : Uuid} {t t' t'' : Tables} {m : Mutation}
    {publishes bypasses : Prop} (h : Announcement k id t t' m publishes) (hNot : ¬bypasses)
    (hRow : k.row t'' id = k.row t' id)
    (hRecorded : Recorded t.journal.projections t''.journal.projections m.changes) :
    Move (page k t id) (page k t'' id) publishes bypasses := by
  cases h with
  | quiet hSame hOmits hQuiet =>
    refine .quiet (page_congr (hRow.trans hSame) fun v => ?_) fun _ => ⟨hQuiet, hNot⟩
    exact hRecorded.kept _ fun c hc => hOmits c hc v
  | @shown version state hNew hForward hShows hPublishes =>
    obtain ⟨c, hChanges, hResource, hVersion, hState⟩ := hShows
    have hMem : c ∈ m.changes := by
      rw [hChanges]
      exact List.mem_cons_self
    have hKey : projectionKey c.resource = ⟨k.kind, id.toText, version.val⟩ := by
      rw [hResource]
      rfl
    obtain ⟨p, hp, hValue⟩ := hRecorded.written c hMem
    rw [hKey] at hp
    refine .publish ?_ (page_current (hRow.trans hNew)) ?_ ?_ hPublishes hNot
    · intro w y hCurrent
      obtain ⟨⟨v, s⟩, hBefore, hPair⟩ := Option.map_eq_some_iff.mp hCurrent
      cases hPair
      exact hForward v s hBefore
    · refine Option.map_eq_some_iff.mpr ⟨p, hp, ?_⟩
      rw [hValue, hVersion, hState]
      rfl
    · intro w hw
      have hKept := hRecorded.kept ⟨k.kind, id.toText, w⟩ fun c' hc' hEq => by
        rw [hChanges, List.mem_singleton] at hc'
        rw [hc', hKey] at hEq
        exact hw (congrArg ProjectionKey.version hEq).symm
      simp only [page, hKept]

/-- A system call leaves the projections alone. -/
theorem RowMove.move {k : Tracked} {id : Uuid} {t t' : Tables} {publishes bypasses : Prop}
    (h : RowMove k id t t' bypasses) (hNot : ¬publishes)
    (hProjections : t'.journal.projections = t.journal.projections) :
    Move (page k t id) (page k t' id) publishes bypasses := by
  cases h with
  | same hRow hQuiet =>
    exact .quiet (page_congr hRow fun v => by rw [hProjections]) fun _ => ⟨hNot, hQuiet⟩
  | moved hFrom hTo hForward hBypasses =>
    refine .bypass (page_current hFrom) (page_current hTo) hForward ?_ hBypasses
    simp only [page, hProjections]

/-- No command is a system-path act. -/
theorem command_not_bypasses {input : CommandInput} {a : Act} (h : input.act = some a)
    (k : Tracked) (id : Uuid) (t : Tables) : ¬a.bypasses env k id t tick := by
  cases input with
  | runStart _ _ _ _ | budgetConfigure _ _ _ _ | effectPropose _ _ _ _ _ _
  | grantCreate _ _ _ _ _ | killSwitchSet _ _ _ _ =>
    cases h
    cases k <;> exact not_false
  | runCancel _ _ _ | approvalDecide _ _ _ _ _ | effectDispatch _ _ | effectReconcile _ _
  | connectionRevoke _ _ _ | grantRevoke _ _ _ =>
    obtain ⟨i, -, rfl⟩ := Option.map_eq_some_iff.mp h
    cases k <;> exact not_false
  | effectCompensate effectId content approvalId =>
    obtain ⟨original, -, h⟩ := Option.bind_eq_some_iff.mp h
    obtain ⟨approval, -, h⟩ := Option.bind_eq_some_iff.mp h
    cases h
    cases k <;> exact not_false

/-- No system-path act is a command. -/
theorem system_not_publishes (c : SystemCall) (k : Tracked) (id : Uuid) (t : Tables) (call : Call) :
    ¬c.act.publishes k id t call := by
  cases c with
  | applyReconciliationEvidence effectId evidence remoteId evidenceRef used =>
    cases evidence <;> cases k <;> exact not_false
  | _ => cases k <;> exact not_false

theorem publishes_iff {k : Tracked} {id : Uuid} {event : SystemEvent} {a : Act}
    (h : event.did a) :
    Publishes k id event ↔ a.publishes k id event.before.tables event.call := by
  constructor
  · rintro ⟨b, hDid, hPublishes⟩
    cases SystemEvent.did_unique hDid h
    exact hPublishes
  · exact fun hPublishes => ⟨a, h, hPublishes⟩

theorem bypasses_iff {k : Tracked} {id : Uuid} {event : SystemEvent} {a : Act}
    (h : event.did a) :
    Bypasses env k id event ↔ a.bypasses env k id event.before.tables event.call.tick := by
  constructor
  · rintro ⟨b, hDid, hBypasses⟩
    cases SystemEvent.did_unique hDid h
    exact hBypasses
  · exact fun hBypasses => ⟨a, h, hBypasses⟩

/-- What an operation that succeeds does to a row and its projections. -/
theorem runOperation_page {tick : Tick} {s s' : Store} {op : Operation} {reply : Reply}
    (h : runOperation env catalogue tick s op = .ok (s', reply))
    (hCommits : commits (.ok reply) = true) (k : Tracked) (id : Uuid) :
    ∃ a, op.act = some a ∧ Move (page k s.tables id) (page k s'.tables id)
      (a.publishes k id s.tables ⟨tick, op⟩) (a.bypasses env k id s.tables tick) := by
  cases op with
  | command c =>
    simp only [runOperation, bind_eq_ok, pure_eq_ok, Prod.exists, Prod.mk.injEq] at h
    obtain ⟨_, answer, hExecute, rfl, rfl⟩ := h
    obtain ⟨principal, -, ⟨row, -, -, -, rfl⟩ | ⟨-, t, m, receipt, hCommitted, rfl⟩⟩ :=
      execute_ok hExecute
    · cases hCommits
    · obtain ⟨hJournal, a, hAct, hAnnounces⟩ := dispatchCommand_announces hCommitted.handled
      refine ⟨a, hAct, (hAnnounces k id).move (command_not_bypasses hAct k id _) ?_ ?_⟩
      · rw [hCommitted.tables]
        cases k <;> rfl
      · rw [← hJournal]
        exact recordChanges_ok hCommitted.recorded
  | quarantine c reference =>
    simp only [runOperation, bind_eq_ok, pure_eq_ok, Prod.mk.injEq] at h
    obtain ⟨_, h, rfl, rfl⟩ := h
    obtain ⟨hProjections, hTables⟩ := quarantineCorruptArtifact_ok h
    refine ⟨.quarantine, rfl, .quiet (page_congr ?_ fun v => by rw [hProjections]) fun _ => ?_⟩
    · rw [hTables]
      cases k <;> rfl
    · cases k <;> exact ⟨not_false, not_false⟩
  | system c =>
    simp only [runOperation, bind_eq_ok, pure_eq_ok, Prod.exists, Prod.mk.injEq] at h
    obtain ⟨tables, reply', h, rfl, rfl⟩ := h
    obtain ⟨hProjections, hMoves⟩ := runSystemCall_moves h
    exact ⟨c.act, rfl, (hMoves k id).move (system_not_publishes c k id _ _) hProjections⟩

/-- Every step, seen from one row and its projections. -/
theorem step_page (env : Env) (catalogue : Catalogue) (s : Store) (c : Call) (k : Tracked)
    (id : Uuid) :
    Move (page k s.tables id) (page k (step env catalogue s c).1.tables id)
      (Publishes k id (Machine.eventAt (step env catalogue) s c))
      (Bypasses env k id (Machine.eventAt (step env catalogue) s c)) := by
  have hQuiet : ∀ s' reply, step env catalogue s c = (s', reply) → commits reply = false →
      s' = s → Move (page k s.tables id) (page k s'.tables id)
        (Publishes k id (Machine.eventAt (step env catalogue) s c))
        (Bypasses env k id (Machine.eventAt (step env catalogue) s c)) := by
    rintro s' reply hStep hNone rfl
    have hNot : commits (Machine.eventAt (step env catalogue) s' c).response = false := by
      change commits (step env catalogue s' c).2 = false
      rw [hStep]
      exact hNone
    refine .quiet rfl fun _ => ⟨?_, ?_⟩
    · rintro ⟨a, hDid, -⟩
      exact not_did hNot a hDid
    · rintro ⟨a, hDid, -⟩
      exact not_did hNot a hDid
  rcases transact_cases s (runOperation env catalogue c.tick s c.operation) with
    ⟨s', reply, hOk, hStep⟩ | ⟨failure, -, hStep⟩
  · have hEq : step env catalogue s c = (s', .ok reply) := hStep
    rw [hEq]
    cases hCommits : commits (.ok reply) with
    | false =>
      rcases runOperation_change hOk with ⟨-, hSame⟩ | ⟨hTrue, -⟩
      · exact hQuiet s' (.ok reply) hEq hCommits hSame
      · cases hCommits.symm.trans hTrue
    | true =>
      obtain ⟨a, hAct, hMove⟩ := runOperation_page hOk hCommits k id
      have hDid : SystemEvent.did (Machine.eventAt (step env catalogue) s c) a := by
        refine ⟨?_, hAct⟩
        change commits (step env catalogue s c).2 = true
        rw [hEq]
        exact hCommits
      rw [publishes_iff hDid, bypasses_iff hDid]
      exact hMove
  · have hEq : step env catalogue s c = (s, .error failure) := hStep
    rw [hEq]
    exact hQuiet s (.error failure) hEq rfl rfl

end Steps

/-! ## The version guard -/

/-- The refusal of a command that was sent for another version. -/
def stale : CommandFailure := .conflict "STALE_VERSION"

/-- The guarded commands on a resource, sent for the version `v`. -/
def Submits (k : Tracked) (id : Uuid) (v : Int) (input : CommandInput) : Prop :=
  match k, input with
  | .run, .runCancel runId expected _ => runId = id.toText ∧ expected = v
  | .effect, .effectReconcile effectId expected => effectId = id.toText ∧ expected = v
  | _, _ => False

section Guard

variable {env : Env} {catalogue : Catalogue} {tick : Tick} {s : Store} {t : Tables}

theorem sql_avoids {α : Type} (x : Except SqlError α) : Avoids stale (sql x) :=
  avoids_mapError fun d => by cases d <;> decide

theorem parseUuid_avoids (text : String) : Avoids stale (parseUuid text) :=
  avoids_okOr (by decide)

theorem readPolicy_avoids (actor : CommandActor) : Avoids stale (readPolicy env t actor) := by
  refine (parseUuid_avoids _).bind fun principal _ => ?_
  refine Avoids.bind ?_ fun _ _ => avoids_pure _ _
  refine (avoids_okOr (by decide)).bind fun _ _ => (avoids_require (by decide)).bind fun _ _ => ?_
  refine (avoids_okOr (by decide)).bind fun _ _ => (avoids_require (by decide)).bind fun _ _ => ?_
  exact avoids_pure _ _

theorem authorizeCommand_avoids (c : Command CommandInput) :
    Avoids stale (authorizeCommand env t c) := by
  refine (readPolicy_avoids c.actor).bind fun _ _ => ?_
  refine Avoids.bind ?_ fun _ _ => avoids_require (by decide)
  unfold authorizationResource
  split
  · exact avoids_ok _ _
  · exact (avoids_okOr (by decide)).bind fun _ _ => avoids_pure _ _

theorem beginActor_avoids (actor : CommandActor) : Avoids stale (beginActor t actor) := by
  refine (parseUuid_avoids _).bind fun _ _ => (parseUuid_avoids _).bind fun _ _ => ?_
  refine (avoids_require (by decide)).bind fun _ _ => (avoids_okOr (by decide)).bind fun _ _ => ?_
  refine (avoids_require (by decide)).bind fun _ _ => (avoids_okOr (by decide)).bind fun _ _ => ?_
  exact avoids_require (by decide)

theorem admitCommand_avoids (c : Command CommandInput) :
    Avoids stale (admitCommand (service env catalogue) s c) := by
  refine (avoids_require (by decide)).bind fun _ _ => (avoids_okOr (by decide)).bind fun _ _ => ?_
  refine (avoids_require (by decide)).bind fun _ _ => (beginActor_avoids _).bind fun _ _ => ?_
  exact (authorizeCommand_avoids c).bind fun _ _ => parseUuid_avoids _

theorem persistArtifact_avoids (hPut : ∀ key, Avoids stale (tick.put key)) (actor : CommandActor)
    (index : Nat) (j : Journal) (bytes : Bytes) (contentType : String)
    (classification : Classification) :
    Avoids stale (persistArtifact env tick actor index j bytes contentType classification) := by
  refine (avoids_require (by decide)).bind fun _ _ => (hPut _).bind fun _ _ => ?_
  refine (parseUuid_avoids _).bind fun _ _ => (avoids_require (by decide)).bind fun _ _ => ?_
  exact (sql_avoids _).bind fun _ _ => avoids_pure _ _

theorem writeProjection_avoids (hPut : ∀ key, Avoids stale (tick.put key)) (actor : CommandActor)
    (index : Nat) (j : Journal) (change : ProjectionChange) :
    Avoids stale (writeProjection env tick actor index j change) := by
  refine (avoids_require (by decide)).bind fun _ _ => (avoids_okOr (by decide)).bind fun _ _ => ?_
  refine (avoids_mapM fun source => ?_).bind fun _ _ => ?_
  · exact (avoids_require (by decide)).bind fun _ _ => parseUuid_avoids _
  refine (avoids_foldlM fun c id => ?_).bind fun _ _ => ?_
  · exact (avoids_okOr (by decide)).bind fun _ _ => avoids_pure _ _
  refine (persistArtifact_avoids hPut actor index j _ _ _).bind fun _ _ => ?_
  refine (avoids_require (by decide)).bind fun _ _ => (sql_avoids _).bind fun _ _ => ?_
  exact avoids_pure _ _

theorem recordChanges_avoids (hPut : ∀ key, Avoids stale (tick.put key)) (actor : CommandActor)
    (operation : String) (index : Nat) (j : Journal) (changes : List ProjectionChange) :
    Avoids stale (recordChanges env tick actor operation index j changes) := by
  induction changes generalizing index j with
  | nil => exact avoids_ok _ _
  | cons change changes ih =>
    refine Avoids.bind ?_ fun _ _ => ih _ _
    refine (writeProjection_avoids hPut actor index j change).bind fun _ _ => ?_
    refine (parseUuid_avoids _).bind fun _ _ => (parseUuid_avoids _).bind fun _ _ => ?_
    refine (sql_avoids _).bind fun _ _ => (avoids_require (by decide)).bind fun _ _ => ?_
    exact (sql_avoids _).bind fun _ _ => avoids_pure _ _

/-- `execute` calls a command stale only where its handler does. -/
theorem execute_avoids {c : Command CommandInput} (hPut : ∀ key, Avoids stale (tick.put key))
    (hHandler : Avoids stale (dispatchCommand env tick s.tables c)) :
    Avoids stale (execute env (service env catalogue) tick s c) := by
  refine (admitCommand_avoids c).bind fun principal _ => ?_
  split
  · refine (avoids_require (by decide)).bind fun _ _ => ?_
    exact (avoids_require (by decide)).bind fun _ _ => avoids_pure _ _
  · refine Avoids.bind hHandler fun _ _ => (avoids_require (by decide)).bind fun _ _ => ?_
    refine (recordChanges_avoids hPut _ _ _ _ _).bind fun _ _ => ?_
    refine (avoids_require (by decide)).bind fun _ _ => (sql_avoids _).bind fun _ _ => ?_
    exact avoids_pure _ _

theorem step_not_stale {c : Command CommandInput} (hPut : ∀ key, tick.put key ≠ .error stale)
    (hHandler : Avoids stale (dispatchCommand env tick s.tables c)) :
    (step env catalogue s ⟨tick, .command c⟩).2 ≠ .error stale := by
  intro hStale
  have hRun : Avoids stale (runOperation env catalogue tick s (.command c)) :=
    (execute_avoids hPut hHandler).bind fun _ _ => avoids_pure _ _
  rcases transact_cases s (runOperation env catalogue tick s (.command c)) with
    ⟨s', reply, -, hStep⟩ | ⟨failure, hError, hStep⟩
  · have hEq : (step env catalogue s ⟨tick, .command c⟩).2 = .ok reply := congrArg Prod.snd hStep
    cases hEq.symm.trans hStale
  · have hEq : (step env catalogue s ⟨tick, .command c⟩).2 = .error failure :=
      congrArg Prod.snd hStep
    cases hEq.symm.trans hStale
    exact hRun hError

theorem cancellationState_avoids (state : RunState) (unresolved : Bool) :
    Avoids stale (cancellationState state unresolved) := by
  refine Avoids.bind ?_ fun _ _ => (avoids_require (by decide)).bind fun _ _ => avoids_pure _ _
  unfold cancellationTarget
  split
  · exact avoids_ok _ _
  any_goals exact (avoids_require (by decide)).bind fun _ _ => avoids_pure _ _
  exact avoids_error (by decide)

/-- A guarded command for the current version of its row is not refused as stale. -/
theorem dispatchCommand_avoids {c : Command CommandInput} {k : Tracked} {id : Uuid}
    {version : Version} {state : String} (hRow : k.row t id = some (version, state))
    (hSubmits : Submits k id version.val c.input) : Avoids stale (dispatchCommand env tick t c) := by
  unfold dispatchCommand
  unfold Submits at hSubmits
  split at hSubmits
  · rename_i runId expected reason hInput
    obtain ⟨rfl, rfl⟩ := hSubmits
    obtain ⟨r, hr, hPair⟩ := Option.map_eq_some_iff.mp hRow
    obtain ⟨rfl, rfl⟩ := Prod.mk.inj hPair
    rw [hInput]
    dsimp only
    unfold cancelRun
    rw [parseUuid_toText]
    refine (avoids_ok _ _).bind fun _ h => ?_
    rw [← Except.ok.inj h, hr]
    refine (avoids_require (by decide)).bind fun _ _ => (avoids_ok _ _).bind fun _ h => ?_
    rw [← Except.ok.inj h]
    refine Avoids.bind (requireExpectedVersion_self_ne_stale r.version) fun _ _ => ?_
    refine (cancellationState_avoids _ _).bind fun _ _ => ?_
    refine (avoids_require (by decide)).bind fun _ _ => ?_
    refine (avoids_require (by decide)).bind fun _ _ => ?_
    exact (parseUuid_avoids _).bind fun _ _ => avoids_pure _ _
  · rename_i effectId expected hInput
    obtain ⟨rfl, rfl⟩ := hSubmits
    obtain ⟨e, he, hPair⟩ := Option.map_eq_some_iff.mp hRow
    obtain ⟨rfl, rfl⟩ := Prod.mk.inj hPair
    rw [hInput]
    dsimp only
    unfold reconcileEffect
    rw [parseUuid_toText]
    refine (avoids_ok _ _).bind fun _ h => ?_
    rw [← Except.ok.inj h, he]
    refine (avoids_ok _ _).bind fun _ h => ?_
    rw [← Except.ok.inj h]
    refine Avoids.bind (requireExpectedVersion_self_ne_stale e.version) fun _ _ => ?_
    exact (avoids_require (by decide)).bind fun _ _ => avoids_pure _ _
  · exact hSubmits.elim

end Guard

/-! ## Whole runs -/

/-- The newest projection of every run and effect carries the version and the state of its row, and
nothing is shown where there is no row. -/
def ReadSideCurrent (t : Tables) : Prop :=
  ∀ k id, (∀ version state, k.row t id = some (version, state) → Shown k t id version state) ∧
    (k.row t id = none → latestProjection t.journal k.kind id.toText = none)

theorem ReadSideCurrent.tracks {t : Tables} (h : ReadSideCurrent t) (env : Env) (k : Tracked)
    (id : Uuid) : Tracks (Bypasses env k id) (Publishes k id) [] (page k t id) := by
  obtain ⟨hShown, hNone⟩ := h k id
  cases hRow : k.row t id with
  | none =>
    refine Tracks.start (fun w y hy => ?_) fun hSome => ?_
    · obtain ⟨p, hp, -⟩ := Option.map_eq_some_iff.mp hy
      cases (latestProjection_eq_none.mp (hNone hRow) w).symm.trans hp
    · rw [page, hRow] at hSome
      exact absurd rfl hSome
  | some r =>
    obtain ⟨version, state⟩ := r
    have hUpToDate := (upToDate_iff_shown hRow).mpr (hShown version state hRow)
    refine Tracks.start (fun w y hy => ?_) fun _ => hUpToDate
    obtain ⟨v, x, hCurrent, -, hNewest⟩ := hUpToDate
    exact ⟨v, x, hCurrent, hNewest w y hy⟩

/-- When the read side tracks the write side. After every run from a state in which it does, the
newest projection of a run or an effect carries the version and the state of its row if and only if
every system-path transition of the row was followed by a command that writes or shows it; and then
a command that is sent for the version of that projection is not refused as stale, whoever sends it.
The object store does not answer with that refusal itself. -/
theorem projections_track_rows (env : Env) (catalogue : Catalogue) (s : Store) (calls : List Call)
    (hStart : ReadSideCurrent s.tables) :
    let reached := Machine.run (step env catalogue) s calls
    ∀ k id version state, k.row reached.tables id = some (version, state) →
      (Shown k reached.tables id version state ↔
        ∀ past event future, Machine.trace (step env catalogue) s calls = past ++ event :: future →
          Bypasses env k id event → ∃ later ∈ future, Publishes k id later) ∧
      (Shown k reached.tables id version state →
        ∀ v p, latestProjection reached.tables.journal k.kind id.toText = some (v, p) →
        ∀ (c : Command CommandInput) (tick : Tick), Submits k id v c.input →
          (∀ key, tick.put key ≠ .error stale) →
          (step env catalogue reached ⟨tick, .command c⟩).2 ≠ .error stale) := by
  intro reached k id version state hRow
  have hTracks := Machine.history (step env catalogue)
    (H := fun past s => Tracks (Bypasses env k id) (Publishes k id) past (page k s.tables id))
    (fun past s c h => h.move (step_page env catalogue s c k id)) (hStart.tracks env k id) calls
  refine ⟨?_, fun hShown v p hLatest c tick hSubmits hPut => ?_⟩
  · rw [← upToDate_iff_shown hRow]
    exact hTracks.upToDate_iff (by rw [page_current hRow]; exact fun h => by cases h)
  · obtain ⟨q, hNewest, -, -⟩ := hShown
    cases hNewest.symm.trans hLatest
    exact step_not_stale hPut (dispatchCommand_avoids hRow hSubmits)

/-- The projections of runs and effects of the small tenant. -/
theorem Sample.projections {k : Tracked} {id : Uuid} {v : Int} {p : ProjectionRow}
    (h : Sample.tables.journal.projections.get? ⟨k.kind, id.toText, v⟩ = some p) :
    k = .run ∧ id = Sample.runId ∧ v = 1 ∧
      p = Sample.projection 13
        (runProjectionValue Sample.env Sample.tenantId Sample.runId Sample.run) := by
  have hMem := Table.get?_eq_some_iff.mp h
  change _ ∈ [_, _, _] at hMem
  simp only [List.mem_cons, List.not_mem_nil, or_false, Prod.mk.injEq, Sample.projectionOf,
    projectionKey, resourceRef, Uuid.toId_text, ProjectionKey.mk.injEq] at hMem
  rcases hMem with ⟨⟨hKind, -⟩, -⟩ | ⟨⟨hKind, -⟩, -⟩ | ⟨⟨hKind, hId, hVersion⟩, hp⟩
  · cases k <;> exact absurd hKind (by decide)
  · cases k <;> exact absurd hKind (by decide)
  · have hRun : k.kind = Tracked.run.kind := hKind
    exact ⟨Tracked.kind_injective hRun, Uuid.toText_injective hId, hVersion, hp⟩

theorem Sample.readSideCurrent : ReadSideCurrent Sample.tables := by
  have hFound : Sample.tables.runs.get? Sample.runId = some Sample.run :=
    Table.get?_eq_some_iff.mpr List.mem_cons_self
  refine fun k id => ⟨fun version state hRow => ?_, fun hNone => ?_⟩
  · cases k with
    | run =>
      obtain ⟨r, hr, hPair⟩ := Option.map_eq_some_iff.mp hRow
      have hMem : (id, r) ∈ [(Sample.runId, Sample.run)] := Table.get?_eq_some_iff.mp hr
      rw [List.mem_singleton] at hMem
      cases hMem
      cases hPair
      refine ⟨Sample.projection 13
          (runProjectionValue Sample.env Sample.tenantId Sample.runId Sample.run),
        latestProjection_eq_some.mpr ⟨Table.get?_eq_some_iff.mpr ?_, ?_⟩, rfl, rfl⟩
      · exact List.mem_cons_of_mem _ (List.mem_cons_of_mem _ List.mem_cons_self)
      · intro w q hq
        obtain ⟨-, -, hVersion, -⟩ := Sample.projections hq
        exact le_of_eq hVersion
    | effect => cases hRow
  · refine latestProjection_eq_none.mpr fun v => ?_
    cases hp : Sample.tables.journal.projections.get? ⟨k.kind, id.toText, v⟩ with
    | none => rfl
    | some p =>
      obtain ⟨rfl, rfl, -, -⟩ := Sample.projections hp
      cases (row_run hFound).symm.trans hNone

/-- The worker reports the start of the run. -/
def Sample.reportStart : List Call := [system 1 (.markRunStarted runId "temporal-1" 1)]

/-- The operator cancels the run with the version that is shown. -/
def Sample.cancelShown : Call := command 2 (.runCancel runId.toText 1 "not needed")

def Sample.versionTwo : Version := ⟨2, by decide, by decide⟩

theorem Sample.reportStart_row :
    Tracked.run.row (Sample.after Sample.reportStart).tables Sample.runId =
      some (Sample.versionTwo, "RUNNING") := by
  simp only [Sample.after, step_bytewise, Sample.env_bytewise]
  decide +kernel

/-- The rule for the started run. -/
theorem projections_track_reportStart :
    Shown .run (Sample.after Sample.reportStart).tables Sample.runId Sample.versionTwo "RUNNING" ↔
      ∀ past event future, Sample.events Sample.reportStart = past ++ event :: future →
        Bypasses Sample.env .run Sample.runId event →
        ∃ later ∈ future, Publishes .run Sample.runId later := by
  have hRow := Sample.reportStart_row
  unfold Sample.after at hRow
  unfold Sample.after Sample.events
  exact (projections_track_rows Sample.env Sample.catalogue Sample.store Sample.reportStart
    Sample.readSideCurrent .run Sample.runId Sample.versionTwo "RUNNING" hRow).1

/-- A row of which another version is shown. -/
theorem not_shown {k : Tracked} {t : Tables} {id : Uuid} {version : Version} {state : String}
    {v : Int} (h : (latestProjection t.journal k.kind id.toText).map (·.1) = some v)
    (hOther : v ≠ version.val) : ¬Shown k t id version state := by
  rintro ⟨p, hLatest, -⟩
  rw [hLatest] at h
  cases h
  exact hOther rfl

/-- The started run is shown as it was before, and the cancellation that an operator sends for the
version that is shown is refused as stale. -/
theorem projection_behind_row :
    ReadSideCurrent Sample.store.tables ∧
    Tracked.run.row (Sample.after Sample.reportStart).tables Sample.runId =
      some (Sample.versionTwo, "RUNNING") ∧
    ¬Shown .run (Sample.after Sample.reportStart).tables Sample.runId Sample.versionTwo "RUNNING" ∧
    (step Sample.env Sample.catalogue (Sample.after Sample.reportStart) Sample.cancelShown).2 =
      .error stale := by
  have hRun : (latestProjection (Sample.after Sample.reportStart).tables.journal Tracked.run.kind
        Sample.runId.toText).map (·.1) = some 1 ∧
      failure? (step Sample.env Sample.catalogue (Sample.after Sample.reportStart)
        Sample.cancelShown).2 = some stale := by
    simp only [Sample.after, step_bytewise, Sample.env_bytewise]
    decide +kernel
  exact ⟨Sample.readSideCurrent, Sample.reportStart_row, not_shown hRun.1 (by decide),
    eq_error_of_failure? hRun.2⟩

end Masonwing
