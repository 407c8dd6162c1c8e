import Masonwing.Proofs.EffectLifecycle
import Masonwing.Proofs.JournalSteps
import Masonwing.Proofs.RunLifecycle

/-!
# What the journal knows of a row

A command checks that the version it writes was neither shown nor announced before. These checks
never fail for the next version of a run or an effect, because the journal does not run ahead of
the rows, on the whole platform.

* `PlatformChange.row_kept`: a row stays, and its version never decreases;
* `EventOf`, `EventsWithin.step`: the events of a name are about rows that reached their version;
* `ShownWithin.step`: so are the projections;
* `unrecorded_next`: the next version of a row is new.
-/

namespace Masonwing

open Outcome

variable {ι : Type}

/-! ## Rows -/

section Rows

variable {env : Env} {tick : Tick} {t t' : Tables} {a : PlatformAct}

/-- A stored effect stays, with its intent, and its version never decreases. -/
theorem PlatformChange.effect_kept (h : PlatformChange env tick t a t') {id : Uuid} {e : EffectRow}
    (he : t.effects.get? id = some e) :
    ∃ e', t'.effects.get? id = some e' ∧ e'.intent = e.intent ∧
      e.version.val ≤ e'.version.val := by
  cases h with
  | core hCore =>
    cases hCore.effect id with
    | same hRow hAct => exact ⟨e, hRow.trans he, rfl, le_refl _⟩
    | created hNone hRow hNew hAct hBorn => cases hNone.symm.trans he
    | moved hMoved hRow hStep =>
      cases hMoved.found.symm.trans he
      refine ⟨_, hRow, hMoved.intent, ?_⟩
      rw [Version.next?_eq_some hMoved.version]
      omega
  | _ => exact ⟨e, he, rfl, le_refl _⟩

theorem PlatformChange.row_kept (h : PlatformChange env tick t a t') {k : Tracked} {id : Uuid}
    {version : Version} {state : String} (hRow : k.row t id = some (version, state)) :
    ∃ version' state', k.row t' id = some (version', state') ∧ version.val ≤ version'.val := by
  cases k with
  | run =>
    obtain ⟨r, hr, hPair⟩ := Option.map_eq_some_iff.mp hRow
    cases hPair
    obtain ⟨r', hr', -, -, hVersion⟩ := h.run_kept hr
    exact ⟨_, _, row_run hr', hVersion⟩
  | effect =>
    obtain ⟨e, he, hPair⟩ := Option.map_eq_some_iff.mp hRow
    cases hPair
    obtain ⟨e', he', -, hVersion⟩ := h.effect_kept he
    exact ⟨_, _, row_effect he', hVersion⟩

/-- No act changes the tenant, its policy or its memberships. -/
theorem PlatformChange.identity (h : PlatformChange env tick t a t') :
    t'.identity = t.identity := by
  cases h with
  | core hCore => cases hCore <;> rfl
  | _ => rfl

end Rows

/-- A version of the resource that is not beyond the row. -/
def Tracked.Reached (k : Tracked) (t : Tables) (id : Uuid) (v : Int) : Prop :=
  ∃ version state, k.row t id = some (version, state) ∧ v ≤ version.val

theorem Tracked.Reached.step {p : Platform ι} {s : Store} {c : PlatformCall ι} {k : Tracked}
    {id : Uuid} {v : Int} (h : k.Reached s.tables id v) :
    k.Reached (platformStep p s c).1.tables id v := by
  rcases platformStep_change p s c with ⟨-, hSame⟩ | ⟨a, -, hChange⟩
  · rw [hSame]
    exact h
  · obtain ⟨version, state, hRow, hLe⟩ := h
    obtain ⟨version', state', hRow', hLe'⟩ := hChange.row_kept hRow
    exact ⟨version', state', hRow', hLe.trans hLe'⟩

/-- A command that publishes a row shows the version that it leaves. -/
theorem shown_of_publishes {env : Env} {tick : Tick} {t t' : Tables} {m : Mutation}
    {c : Command CommandInput} {a : Act} (h : dispatchCommand env tick t c = .ok (t', m))
    (hAct : c.input.act = some a) {k : Tracked} {id : Uuid}
    (hPublishes : a.publishes k id t ⟨tick, .command c⟩) :
    ∃ version state, m.Shows k id version state ∧ k.row t' id = some (version, state) := by
  obtain ⟨-, b, hb, hAnnounces⟩ := dispatchCommand_announces h
  cases hb.symm.trans hAct
  cases hAnnounces k id with
  | quiet hRow hOmits hNot => exact absurd hPublishes hNot
  | shown hRow hForward hShows hPublishes => exact ⟨_, _, hShows, hRow⟩

/-! ## Events -/

/-- The events of this name come from commands that publish a row of this kind. -/
structure EventOf (name : String) (k : Tracked) : Prop where
  commands : ∀ (tick : Tick) (t : Tables) (c : Command CommandInput) (a : Act),
    c.input.operation = name → c.input.act = some a → ∃ id, a.publishes k id t ⟨tick, .command c⟩
  further : ∀ {ι : Type} (p : Platform ι) (input : PlatformInput ι), p.operation input ≠ name
  contained : name ≠ "artifact.quarantine"

/-- The names of the further commands. -/
theorem Platform.operation_mem (p : Platform ι) (input : PlatformInput ι) :
    p.operation input ∈ ["plugin.revoke", "deletion.request", "plugin.install", "plugin.enable",
      "plugin.disable", "plugin.upgrade", "plugin.uninstall", "product.compose"] := by
  cases input with
  | pluginRevoke pluginId artifactDigest reason => exact List.mem_cons_self
  | deletionRequest resource reason confirmation =>
    exact List.mem_cons_of_mem _ List.mem_cons_self
  | lifecycle input =>
    change (p.lifecycle.operation input).toText ∈ _
    cases p.lifecycle.operation input <;> decide

theorem Platform.operation_ne {name : String}
    (h : name ∉ ["plugin.revoke", "deletion.request", "plugin.install", "plugin.enable",
      "plugin.disable", "plugin.upgrade", "plugin.uninstall", "product.compose"])
    (p : Platform ι) (input : PlatformInput ι) : p.operation input ≠ name := by
  intro hName
  exact h (hName ▸ p.operation_mem input)

theorem eventOf_runStart : EventOf "run.start" .run := by
  refine ⟨fun tick t c a hName hAct => ?_, Platform.operation_ne (by decide), by decide⟩
  cases hInput : c.input with
  | runStart workflowId workflowVersion inputRef grantId =>
    rw [hInput] at hAct
    cases hAct
    exact ⟨tick.draw .run, rfl⟩
  | _ => simp [hInput, CommandInput.operation] at hName

theorem eventOf_runCancel : EventOf "run.cancel" .run := by
  refine ⟨fun tick t c a hName hAct => ?_, Platform.operation_ne (by decide), by decide⟩
  cases hInput : c.input with
  | runCancel runId expectedVersion reason =>
    rw [hInput] at hAct
    obtain ⟨id, -, rfl⟩ := Option.map_eq_some_iff.mp hAct
    exact ⟨id, rfl⟩
  | _ => simp [hInput, CommandInput.operation] at hName

theorem eventOf_effectReconcile : EventOf "effect.reconcile" .effect := by
  refine ⟨fun tick t c a hName hAct => ?_, Platform.operation_ne (by decide), by decide⟩
  cases hInput : c.input with
  | effectReconcile effectId expectedVersion =>
    rw [hInput] at hAct
    obtain ⟨id, -, rfl⟩ := Option.map_eq_some_iff.mp hAct
    exact ⟨id, rfl⟩
  | _ => simp [hInput, CommandInput.operation] at hName

/-- The events of a name are about rows that reached their version. -/
def EventsWithin (name : String) (k : Tracked) (t : Tables) : Prop :=
  ∀ i o, t.journal.outbox.get? i = some o → o.eventName = name →
    k.Reached t o.aggregateId o.aggregateVersion

/-- The event of a shown row names it, in the version that it has. -/
theorem Mutation.Shows.announced {k : Tracked} {m : Mutation} {id : Uuid} {version : Version}
    {state operation : String} (h : m.Shows k id version state) {change : ProjectionChange}
    (hMem : change ∈ m.changes) {o : OutboxRow} (hAnnounces : Announces operation change o) :
    o.aggregateId = id ∧ o.aggregateVersion = version.val := by
  obtain ⟨first, hChanges, hResource, -⟩ := h
  rw [hChanges, List.mem_singleton] at hMem
  have hAggregate := hAnnounces.aggregate
  have hVersion := hAnnounces.version
  rw [hMem, hResource] at hAggregate hVersion
  rw [resourceRef, Uuid.toId_text, Uuid.parse_toText] at hAggregate
  exact ⟨(Option.some.inj hAggregate).symm, hVersion⟩

section Steps

variable {p : Platform ι} {s : Store} {c : PlatformCall ι}

/-- An old event is about a row that does not fall behind; a new one comes with its row. -/
theorem EventsWithin.step {name : String} {k : Tracked} (hName : EventOf name k)
    (h : EventsWithin name k s.tables) :
    EventsWithin name k (platformStep p s c).1.tables := by
  intro i o ho hEvent
  have hOutcome := platformStep_outcome p s c
  cases hBefore : s.tables.journal.outbox.get? i with
  | some o₀ =>
    obtain ⟨o₁, ho₁, hTopic⟩ := (hOutcome.outbox i).topic_kept hBefore
    cases ho₁.symm.trans ho
    simp only [OutboxRow.topic, Prod.mk.injEq] at hTopic
    obtain ⟨hAggregate, hVersion, hSame, -⟩ := hTopic
    rw [hSame] at hEvent
    rw [hAggregate, hVersion]
    exact (h i o₀ hBefore hEvent).step
  | none =>
    generalize (platformStep p s c).1.tables = t' at hOutcome ho ⊢
    generalize c.operation = op at hOutcome
    cases hOutcome with
    | unchanged => cases hBefore.symm.trans ho
    | @command call _ m _ hActor hAuthorized hHandled hJournal hRecorded =>
      rcases (recordChanges_appended hRecorded).outbox i o ho with hSame | ⟨-, change, hMem, hNew⟩
      · cases hBefore.symm.trans hSame
      · have hOperation : call.input.operation = name := hNew.name.symm.trans hEvent
        obtain ⟨-, a, hAct, -⟩ := dispatchCommand_announces hHandled
        obtain ⟨id, hPublishes⟩ := hName.commands _ s.tables call a hOperation hAct
        obtain ⟨version, state, hShows, hRow⟩ := shown_of_publishes hHandled hAct hPublishes
        obtain ⟨hAggregate, hVersion⟩ := hShows.announced hMem hNew
        rw [hAggregate, hVersion]
        refine ⟨version, state, ?_, le_refl _⟩
        cases k <;> exact hRow
    | @further call _ _ _ hHandled hRecorded =>
      rcases (recordChanges_appended hRecorded).outbox i o ho with hSame | ⟨-, change, hMem, hNew⟩
      · rw [(dispatch_outbox hHandled).1] at hSame
        cases hBefore.symm.trans hSame
      · exact absurd (hNew.name.symm.trans hEvent) (hName.further p call.input)
    | contained hContained =>
      rcases hContained.outbox i o ho with hSame | ⟨-, hQuarantine, -⟩
      · cases hBefore.symm.trans hSame
      · exact absurd (hEvent.symm.trans hQuarantine) hName.contained
    | system hCall => cases (runSystemCall_outbox_none hCall hBefore).symm.trans ho
    | checkpoint hRecord =>
      rcases recordRunCheckpoint_ok hRecord with ⟨-, rfl⟩ | ⟨-, row, checkpoints, -, rfl, -⟩
      · cases hBefore.symm.trans ho
      · cases hBefore.symm.trans ho

end Steps

/-! ## Projections -/

/-- The projections of a kind are of rows that reached their version. -/
def ShownWithin (k : Tracked) (t : Tables) : Prop :=
  ∀ id v row, t.journal.projections.get? ⟨k.kind, id.toText, v⟩ = some row → k.Reached t id v

section Shown

variable {p : Platform ι} {s : Store} {c : PlatformCall ι} {k : Tracked}

/-- The handlers of the further commands leave the projections alone. -/
theorem dispatch_projections {tick : Tick} {t t' : Tables} {c : Command (PlatformInput ι)}
    {m : Mutation} (h : p.dispatch tick t c = .ok (t', m)) :
    t'.journal.projections = t.journal.projections := by
  unfold Platform.dispatch at h
  split at h
  · obtain ⟨digest, registry, runs, -, -, rfl, -⟩ := revokePlugin_ok h
    rfl
  · obtain ⟨j, id, rights, requests, -, hDeleted, rfl, -⟩ := requestDeletion_ok h
    dsimp only
    rw [hDeleted.others]
  · obtain ⟨registry, rfl, -⟩ := Lifecycle.run_ok h
    rfl

/-- Of runs and effects, the further commands show the stopped runs only. -/
theorem dispatch_shows {tick : Tick} {t t' : Tables} {c : Command (PlatformInput ι)}
    {m : Mutation} (h : p.dispatch tick t c = .ok (t', m)) {change : ProjectionChange}
    (hMem : change ∈ m.changes) {id : Uuid} {v : Int}
    (hKey : projectionKey change.resource = ⟨k.kind, id.toText, v⟩) : k.Reached t' id v := by
  have hKind : change.resource.resourceType = k.kind := congrArg ProjectionKey.resourceType hKey
  unfold Platform.dispatch at h
  split at h
  · obtain ⟨digest, registry, runs, -, -, rfl, hRevokes⟩ := revokePlugin_ok h
    rcases hRevokes change hMem with hOther | ⟨i, r, r', -, hr', rfl⟩
    · exact absurd (hKind.symm.trans hOther) (by cases k <;> decide)
    · have hRun : k = .run := by
        cases k with
        | run => rfl
        | effect => exact absurd hKind (by simp [stoppedChange, resourceRef, Tracked.kind])
      subst hRun
      simp only [stoppedChange, projectionKey, resourceRef, Uuid.toId_text,
        ProjectionKey.mk.injEq] at hKey
      obtain ⟨-, hId, rfl⟩ := hKey
      cases Uuid.toText_injective hId
      exact ⟨r'.version, r'.state.toText, row_run hr', le_refl _⟩
  · obtain ⟨j, id, rights, requests, -, -, rfl, hOnly⟩ := requestDeletion_ok h
    exact absurd (hKind.symm.trans (hOnly change hMem)) (by cases k <;> decide)
  · obtain ⟨registry, rfl, hKinds⟩ := Lifecycle.run_ok h
    obtain ⟨kind, hOther⟩ := hKinds change hMem
    exact absurd (hKind.symm.trans hOther) (by cases k <;> cases kind <;> decide)

/-- A projection that was not there before was recorded with one of the changes. -/
theorem Recorded.cases {before after : Table ProjectionKey ProjectionRow}
    {changes : List ProjectionChange} (h : Recorded before after changes) (key : ProjectionKey) :
    after.get? key = before.get? key ∨ ∃ change ∈ changes, projectionKey change.resource = key := by
  by_cases hKey : ∃ change ∈ changes, projectionKey change.resource = key
  · exact Or.inr hKey
  · refine Or.inl (h.kept key fun change hMem hEq => hKey ⟨change, hMem, hEq⟩)

theorem ShownWithin.step (h : ShownWithin k s.tables) :
    ShownWithin k (platformStep p s c).1.tables := by
  intro id v row hRow
  by_cases hOld : (platformStep p s c).1.tables.journal.projections.get? ⟨k.kind, id.toText, v⟩ =
      s.tables.journal.projections.get? ⟨k.kind, id.toText, v⟩
  · rw [hOld] at hRow
    exact (h id v row hRow).step
  · have hOutcome := platformStep_outcome p s c
    generalize (platformStep p s c).1.tables = t' at hOutcome hRow hOld ⊢
    generalize c.operation = op at hOutcome
    cases hOutcome with
    | unchanged => exact absurd rfl hOld
    | @command call t₁ m j hActor hAuthorized hHandled hJournal hRecorded =>
      rcases (recordChanges_ok hRecorded).cases ⟨k.kind, id.toText, v⟩ with hSame |
        ⟨change, hMem, hKey⟩
      · exact absurd hSame hOld
      · obtain ⟨-, a, -, hAnnounces⟩ := dispatchCommand_announces hHandled
        cases hAnnounces k id with
        | quiet hSame hOmits hNot => exact absurd hKey (hOmits change hMem v)
        | @shown version state hNew hForward hShows hPublishes =>
          obtain ⟨first, hChanges, hResource, -⟩ := hShows
          rw [hChanges, List.mem_singleton] at hMem
          rw [hMem, hResource] at hKey
          have hVersion : version.val = v := congrArg ProjectionKey.version hKey
          refine ⟨version, state, ?_, le_of_eq hVersion.symm⟩
          cases k <;> exact hNew
    | @further call t₁ m j hHandled hRecorded =>
      rcases (recordChanges_ok hRecorded).cases ⟨k.kind, id.toText, v⟩ with hSame |
        ⟨change, hMem, hKey⟩
      · rw [dispatch_projections hHandled] at hSame
        exact absurd hSame hOld
      · obtain ⟨version, state, hNew, hLe⟩ := dispatch_shows hHandled hMem hKey
        refine ⟨version, state, ?_, hLe⟩
        cases k <;> exact hNew
    | contained hContained => exact absurd (by rw [hContained.projections]) hOld
    | system hCall => exact absurd (by rw [(runSystemCall_moves hCall).1]) hOld
    | checkpoint hRecord =>
      rcases recordRunCheckpoint_ok hRecord with ⟨-, rfl⟩ | ⟨-, row, checkpoints, -, rfl, -⟩
      · exact absurd rfl hOld
      · exact absurd rfl hOld

end Shown

/-- So the next version of a row is always new. -/
theorem unrecorded_next {t : Tables} {name : String} {k : Tracked} {id : Uuid}
    {version next : Version} {state : String} (hShown : ShownWithin k t)
    (hEvents : EventsWithin name k t) (hRow : k.row t id = some (version, state))
    (hNext : version.next? = some next) : Unrecorded t.journal name k.kind id next := by
  have hBeyond : ¬k.Reached t id next.val := by
    rintro ⟨reached, _, hReached, hLe⟩
    cases hRow.symm.trans hReached
    rw [Version.next?_eq_some hNext] at hLe
    omega
  constructor
  · cases hProjection : t.journal.projections.get? ⟨k.kind, id.toText, next.val⟩ with
    | none => rfl
    | some row => exact absurd (hShown id next.val row hProjection) hBeyond
  · rintro i o ho ⟨rfl, hVersion, hName⟩
    have hReached := hEvents i o ho hName
    rw [hVersion] at hReached
    exact hBeyond hReached

end Masonwing
