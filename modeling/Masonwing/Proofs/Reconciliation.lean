import Masonwing.Proofs.Acceptance
import Masonwing.Proofs.Evaluation

/-!
# Reconciling an ambiguous effect

`effect.reconcile` is the only way out of `OUTCOME_UNKNOWN` and `MANUAL_REVIEW`. Its handler asks
for the state and the version of the row, but its authorization asks for the projection, and
`deletion.request` tombstones the projections of an effect together with its content.

* `EffectRecords.run`: in every reached state the content of an effect is stored and its next
  version is new, so nothing else stands in the way of a reconciliation;
* `reconciles_iff`: a request is granted exactly if the effect is displayed and its version can
  advance;
* `EffectsDisplayed.step`: only a deletion or a containment hides an effect;
* `ambiguous_effect_reconcilable_iff`: both for every reached state.
-/

namespace Masonwing

open Outcome

variable {ι : Type}

/-! ## What is known of the effects -/

/-- The tenant before anything was proposed. -/
structure EffectFree (t : Tables) : Prop where
  effects : ∀ id, t.effects.get? id = none
  shown : ∀ (id : Uuid) v, t.journal.projections.get? ⟨"EffectIntent", id.toText, v⟩ = none
  announced : ∀ i o, t.journal.outbox.get? i = some o → o.eventName ≠ "effect.reconcile"

/-- The contents of effects are stored, and neither the projections of effects nor the events of
their reconciliations run ahead of the rows. -/
structure EffectRecords (t : Tables) : Prop where
  stored : EffectsStored t
  shown : ShownWithin .effect t
  announced : EventsWithin "effect.reconcile" .effect t

theorem EffectFree.records {t : Tables} (h : EffectFree t) : EffectRecords t := by
  refine ⟨fun id e he => ?_, fun id v row hRow => ?_, fun i o ho hName => ?_⟩
  · cases (h.effects id).symm.trans he
  · cases (h.shown id v).symm.trans hRow
  · exact absurd hName (h.announced i o ho)

section Steps

variable {p : Platform ι} {s : Store} {c : PlatformCall ι}

theorem EffectRecords.step (h : EffectRecords s.tables)
    (hNames : NamesTenant s.tables.identity.tenantId c) :
    EffectRecords (platformStep p s c).1.tables :=
  ⟨h.stored.step hNames, h.shown.step, h.announced.step eventOf_effectReconcile⟩

/-- The records of effects stay right in every run of callers that name the tenant. -/
theorem EffectRecords.run {calls : List (PlatformCall ι)} (h : EffectRecords s.tables)
    (hNames : ∀ c ∈ calls, NamesTenant s.tables.identity.tenantId c) :
    EffectRecords (Machine.run (platformStep p) s calls).tables := by
  induction calls generalizing s with
  | nil => exact h
  | cons c calls ih =>
    refine ih (h.step (hNames c List.mem_cons_self)) fun d hd => ?_
    rw [platformStep_identity]
    exact hNames d (List.mem_cons_of_mem _ hd)

end Steps

/-! ## One request -/

/-- The row that a reconciliation leaves. -/
def EffectRow.reconciled (e : EffectRow) (tick : Tick) (version : Version) : EffectRow :=
  { e with state := .reconciling, reconciliationQueued := true, version, updatedAt := tick.now }

/-- A request to reconcile an effect in the version of its row: well-formed, by a current actor
under a policy that permits everything, with a new key and new identifiers; its document and its
receipt match their contracts, and the object store takes the document. -/
structure ReconcileRequest (p : Platform ι) (tick : Tick) (s : Store) (c : Command CommandInput)
    (id : Uuid) (e : EffectRow) : Prop where
  input : c.input = .effectReconcile id.toText e.version.val
  presented : Presented p.env p.catalogue.core s c
  policy : Permissive p.env s.tables
  fresh : FreshRecord tick s.tables.journal
  storable : ∀ version, e.version.next? = some version →
    ∀ change ∈ (effectMutation p.env s.tables id (e.reconciled tick version) "reconcile effect"
      false).changes, Writable p.env tick change
  receipt : ∀ version, e.version.next? = some version →
    p.env.receiptValid (commandReceipt tick (effectMutation p.env s.tables id
      (e.reconciled tick version) "reconcile effect" false)) = true

/-- The command is granted, and the effect is being reconciled after it. -/
def Reconciles (p : Platform ι) (tick : Tick) (s : Store) (c : Command CommandInput) (id : Uuid) :
    Prop :=
  ∃ receipt e', (platformStep p s ⟨tick, .core (.command c)⟩).2 =
      .ok (.core (.answer (.committed receipt))) ∧
    (platformStep p s ⟨tick, .core (.command c)⟩).1.tables.effects.get? id = some e' ∧
    e'.state = .reconciling

section Request

variable {p : Platform ι} {env : Env} {tick : Tick} {s s' : Store} {t : Tables}
  {c : Command CommandInput} {id : Uuid} {e : EffectRow}

theorem reconcileEffect_of {version : Version} (hFound : t.effects.get? id = some e)
    (hState : e.state = .outcomeUnknown ∨ e.state = .manualReview)
    (hVersion : e.version.next? = some version) :
    reconcileEffect env tick t id.toText e.version.val =
      .ok ({ t with effects := t.effects.set id (e.reconciled tick version) },
        effectMutation env t id (e.reconciled tick version) "reconcile effect" false) := by
  simp only [reconcileEffect, bind_eq_ok, require_eq_ok, okOr_eq_ok, parseUuid_eq_ok, pure_eq_ok,
    requireExpectedVersion_eq_ok, exists_const]
  exact ⟨id, Uuid.parse_toText id, e, hFound, version, ⟨rfl, hVersion⟩, hState, rfl⟩

theorem platformStep_answer {a : Answer}
    (h : execute p.env (service p.env p.catalogue.core) tick s c = .ok (s', a)) :
    platformStep p s ⟨tick, .core (.command c)⟩ = (s', .ok (.core (.answer a))) := by
  rw [platformStep, runPlatformOperation, runOperation, h]
  rfl

theorem platformStep_refuse {failure : CommandFailure}
    (h : execute p.env (service p.env p.catalogue.core) tick s c = .error failure) :
    platformStep p s ⟨tick, .core (.command c)⟩ = (s, .error failure) := by
  rw [platformStep, runPlatformOperation, runOperation, h]
  rfl

namespace ReconcileRequest

theorem target (h : ReconcileRequest p tick s c id e) :
    c.input.authorizationTarget = some ("EffectIntent", id.toText) := by
  rw [h.input]
  rfl

theorem visible_iff (h : ReconcileRequest p tick s c id e) :
    Visible s.tables c.input ↔ Displayed s.tables.journal "EffectIntent" id.toText := by
  unfold Visible
  rw [h.target]
  constructor
  · exact fun hVisible => hVisible _ _ rfl
  · rintro hDisplayed kind text hSame
    cases hSame
    exact hDisplayed

theorem handle_eq (h : ReconcileRequest p tick s c id e) :
    dispatchCommand p.env tick s.tables c =
      reconcileEffect p.env tick s.tables id.toText e.version.val := by
  rw [dispatchCommand, h.input]

/-- The next version of the effect can be recorded. -/
theorem recorded (h : ReconcileRequest p tick s c id e) (hRecords : EffectRecords s.tables)
    (hFound : s.tables.effects.get? id = some e) {version : Version}
    (hVersion : e.version.next? = some version) :
    ∃ j, recordChanges p.env tick c.actor c.input.operation 0 s.tables.journal
      (effectMutation p.env s.tables id (e.reconciled tick version) "reconcile effect"
        false).changes = .ok j := by
  obtain ⟨principal, hPrincipal⟩ := h.presented.principal
  obtain ⟨hTenant, hStored⟩ := hRecords.stored id e hFound
  have hOperation : c.input.operation = "effect.reconcile" := by
    rw [h.input]
    rfl
  have hNew : Unrecorded s.tables.journal c.input.operation "EffectIntent" id
      (e.reconciled tick version).version := by
    rw [hOperation]
    exact unrecorded_next hRecords.shown hRecords.announced (row_effect hFound) hVersion
  have hContent : (e.reconciled tick version).contentRef.tenantId = c.actor.tenantId ∧
      ContentStored s.tables.journal (e.reconciled tick version).contentRef :=
    ⟨hTenant.trans h.presented.tenant.symm, hStored⟩
  exact (recordEffect_iff h.fresh (h.storable version hVersion) hPrincipal).mpr ⟨hContent, hNew⟩

end ReconcileRequest

/-- A request is granted exactly if the effect is displayed and its version can advance. -/
theorem reconciles_iff (hRecords : EffectRecords s.tables)
    (hFound : s.tables.effects.get? id = some e)
    (hState : e.state = .outcomeUnknown ∨ e.state = .manualReview)
    (h : ReconcileRequest p tick s c id e) :
    Reconciles p tick s c id ↔
      Displayed s.tables.journal "EffectIntent" id.toText ∧ e.version.val < maxI32 := by
  rw [← h.visible_iff, ← Version.exists_next?_iff]
  constructor
  · rintro ⟨receipt, e', hResponse, -⟩
    cases hExecute : execute p.env (service p.env p.catalogue.core) tick s c with
    | error failure =>
      rw [platformStep_refuse hExecute] at hResponse
      cases hResponse
    | ok result =>
      obtain ⟨s', a⟩ := result
      obtain ⟨principal, hAdmit, ⟨row, hLive, -⟩ | ⟨-, t, m, r, hCommitted, -⟩⟩ :=
        execute_ok hExecute
      · cases (h.presented.receipt_none principal).symm.trans hLive
      · have hVisible := (h.presented.admitted_iff h.policy).mp ⟨principal, hAdmit⟩
        have hHandled : dispatchCommand p.env tick s.tables c = .ok (t, m) := hCommitted.handled
        rw [h.handle_eq] at hHandled
        obtain ⟨i, f, f', hParse, hReconciled, -, -⟩ := reconcileEffect_ok hHandled
        rw [Uuid.parse_toText] at hParse
        cases hParse
        cases hFound.symm.trans hReconciled.found
        exact ⟨hVisible, f'.version, hReconciled.version⟩
  · rintro ⟨hVisible, version, hVersion⟩
    have hHandle := @reconcileEffect_of p.env tick _ _ _ _ hFound hState hVersion
    rw [← h.handle_eq] at hHandle
    obtain ⟨j, hRecord⟩ := h.recorded hRecords hFound hVersion
    obtain ⟨s', hExecute, hTables⟩ := h.presented.commits h.policy hVisible hHandle
      (fun hAccepted => by cases hAccepted) hRecord (h.receipt version hVersion)
    have hStep := platformStep_answer hExecute
    refine ⟨_, e.reconciled tick version, by rw [hStep], ?_, rfl⟩
    rw [hStep, hTables]
    exact Table.get?_set_self hFound _

end Request

/-! ## Along a run -/

/-- Every effect is displayed. -/
def EffectsDisplayed (t : Tables) : Prop :=
  ∀ id e, t.effects.get? id = some e → Displayed t.journal "EffectIntent" id.toText

/-- The step tombstoned or quarantined an artifact. -/
def Erases (event : PlatformEvent ι) : Prop :=
  event.did .delete ∨ event.did .contain ∨ event.did (.core .quarantine)

section Displayed

variable {p : Platform ι} {s : Store} {c : PlatformCall ι}

/-- The handlers of the further commands leave the journal to its recording, but for deletions. -/
theorem dispatch_journal {tick : Tick} {t t' : Tables} {call : Command (PlatformInput ι)}
    {m : Mutation} (h : p.dispatch tick t call = .ok (t', m)) :
    call.input.act = some .delete ∨ t'.journal = t.journal := by
  unfold Platform.dispatch at h
  split at h
  · obtain ⟨digest, registry, runs, -, -, rfl, -⟩ := revokePlugin_ok h
    exact Or.inr rfl
  · rename_i hInput
    rw [hInput]
    exact Or.inl rfl
  · obtain ⟨registry, rfl, -⟩ := Lifecycle.run_ok h
    exact Or.inr rfl

/-- What was visible stays visible, unless an artifact is erased. -/
theorem Displayed.step {kind id : String} (h : Displayed s.tables.journal kind id)
    (hSpares : ¬Erases (Machine.eventAt (platformStep p) s c)) :
    Displayed (platformStep p s c).1.tables.journal kind id := by
  rcases platformStep_change p s c with ⟨-, hSame⟩ | ⟨a, hDid, -⟩
  · rw [hSame]
    exact h
  · have hOutcome := platformStep_outcome p s c
    have hAct : c.operation.act = some a := hDid.2
    have hNot : a ≠ .delete ∧ a ≠ .contain ∧ a ≠ .core .quarantine := by
      refine ⟨?_, ?_, ?_⟩
      · rintro rfl
        exact hSpares (Or.inl hDid)
      · rintro rfl
        exact hSpares (Or.inr (Or.inl hDid))
      · rintro rfl
        exact hSpares (Or.inr (Or.inr hDid))
    generalize (platformStep p s c).1.tables = t' at hOutcome ⊢
    generalize c.operation = op at hOutcome hAct
    cases hOutcome with
    | unchanged => exact h
    | command hActor hAuthorized hHandled hJournal hRecorded => exact h.recorded hRecorded
    | further hHandled hRecorded =>
      rcases dispatch_journal hHandled with hDelete | hJournal
      · cases hDelete.symm.trans hAct
        exact absurd rfl hNot.1
      · rw [hJournal] at hRecorded
        exact h.recorded hRecorded
    | contained hContained hOp =>
      rcases hOp with hOp | hOp
      · cases hOp.symm.trans hAct
        exact absurd rfl hNot.2.1
      · cases hOp.symm.trans hAct
        exact absurd rfl hNot.2.2
    | system hCall =>
      obtain ⟨v, row, artifact, hRow, hArtifact, hActive⟩ := h
      refine ⟨v, row, artifact, ?_, ?_, hActive⟩
      · rw [(runSystemCall_moves hCall).1]
        exact hRow
      · rw [runSystemCall_artifacts hCall]
        exact hArtifact
    | checkpoint hRecord =>
      rcases recordRunCheckpoint_ok hRecord with ⟨-, rfl⟩ | ⟨-, row, checkpoints, -, rfl, -⟩
      · exact h
      · exact h

/-- A new effect is displayed by the command that creates it. -/
theorem platformStep_displays {id : Uuid} {e : EffectRow}
    (hNone : s.tables.effects.get? id = none)
    (he : (platformStep p s c).1.tables.effects.get? id = some e) :
    Displayed (platformStep p s c).1.tables.journal "EffectIntent" id.toText := by
  have hOutcome := platformStep_outcome p s c
  generalize (platformStep p s c).1.tables = t' at hOutcome he ⊢
  generalize c.operation = op at hOutcome
  cases hOutcome with
  | unchanged => cases hNone.symm.trans he
  | command hActor hAuthorized hHandled hJournal hRecorded =>
    obtain ⟨label, accepted, rfl⟩ := (dispatchCommand_creations hHandled).effect id e hNone he
    exact recordChanges_displays hRecorded
  | further hHandled hRecorded =>
    dsimp only at he
    rw [(dispatch_creates hHandled).2] at he
    cases hNone.symm.trans he
  | contained hContained hOp => cases hNone.symm.trans he
  | system hCall => cases ((runSystemCall_creates hCall).2 id hNone).symm.trans he
  | checkpoint hRecord =>
    rcases recordRunCheckpoint_ok hRecord with ⟨-, rfl⟩ | ⟨-, row, checkpoints, -, rfl, -⟩
    · cases hNone.symm.trans he
    · cases hNone.symm.trans he

theorem EffectsDisplayed.step (h : EffectsDisplayed s.tables)
    (hSpares : ¬Erases (Machine.eventAt (platformStep p) s c)) :
    EffectsDisplayed (platformStep p s c).1.tables := by
  intro id e he
  cases hBefore : s.tables.effects.get? id with
  | none => exact platformStep_displays hBefore he
  | some e₀ => exact (h id e₀ hBefore).step hSpares

end Displayed

/-- In every reached state, a request to reconcile an ambiguous effect is granted exactly if the
effect is displayed and its version can advance. Effects are displayed as long as nothing is
erased. -/
theorem ambiguous_effect_reconcilable_iff (p : Platform ι) (s : Store)
    (calls : List (PlatformCall ι)) (hStart : EffectFree s.tables)
    (hNames : ∀ c ∈ calls, NamesTenant s.tables.identity.tenantId c) :
    let reached := Machine.run (platformStep p) s calls
    (∀ id e, reached.tables.effects.get? id = some e →
      (e.state = .outcomeUnknown ∨ e.state = .manualReview) →
      ∀ tick c, ReconcileRequest p tick reached c id e →
        (Reconciles p tick reached c id ↔
          Displayed reached.tables.journal "EffectIntent" id.toText ∧ e.version.val < maxI32)) ∧
    ((∀ event ∈ Machine.trace (platformStep p) s calls, ¬Erases event) →
      ∀ id e, reached.tables.effects.get? id = some e →
        Displayed reached.tables.journal "EffectIntent" id.toText) := by
  intro reached
  have hRecords : EffectRecords reached.tables := hStart.records.run hNames
  refine ⟨fun id e he hState tick c h => reconciles_iff hRecords he hState h, ?_⟩
  intro hSpares
  have hEmpty : EffectsDisplayed s.tables := by
    intro id e he
    cases (hStart.effects id).symm.trans he
  exact Machine.run_invariant_of (platformStep p) (I := fun s => EffectsDisplayed s.tables)
    (fun s c hs hEvent => hs.step hEvent) hEmpty hSpares

/-! ## An effect without its content -/

namespace Sample

def reconcileCommand (n : Nat) (effect : Uuid) (version : Int) : Command CommandInput :=
  { actor, input := .effectReconcile effect.toText version, idempotencyKey := (uuid n).toId
    fingerprint := digest "effect.reconcile".toUTF8.data.toList }

/-- An effect is transmitted, and its outcome is unknown. -/
def timedOut : List (PlatformCall Empty) :=
  [coreCall (propose 1), coreCall (dispatch 2 (effectOf 1) 1),
    coreCall (system 3 (.recordEffectUnknown (effectOf 1)))]

/-- The content of the effect is deleted. -/
def forget : PlatformCall Empty :=
  platformCommand 4 (.deletionRequest (resourceRef "Artifact" contentId .one) "no longer needed"
    ("DELETE " ++ contentId.toText))

/-- The size of the document that a reconciliation of the effect writes. -/
def reconciledSize (n : Nat) (t : Tables) (id : Uuid) : Option Nat := do
  let e ← t.effects.get? id
  let version ← e.version.next?
  return (render (effectProjectionValue env t.identity.tenantId id
    (e.reconciled (tick n) version))).toUTF8.data.toList.length

/-- The effect waits for a reconciliation in its third version, and a request of the `n`-th second
can be recorded. -/
def awaitsReconciliation (n : Nat) (s : Store) (id : Uuid) : Bool :=
  decide ((s.tables.effects.get? id).map (fun e => (e.state, e.version.val)) =
    some (.outcomeUnknown, 3)) &&
  decide (s.tables.identity.tenantId = tenantId) &&
  decide (beginActor s.tables actor = .ok ()) &&
  !(s.receipts.any fun k _ => decide (k.idempotencyKey = (uuid n).toText)) &&
  recordUnused (tick n) s.tables.journal &&
  (reconciledSize n s.tables id).all fun size => decide (1 ≤ size ∧ size ≤ 1073741824)

theorem reconcileRequest_of {n : Nat} {s : Store} {id : Uuid}
    (h : awaitsReconciliation n s id = true) :
    ∃ e, s.tables.effects.get? id = some e ∧ e.state = .outcomeUnknown ∧ e.version.val = 3 ∧
      ReconcileRequest platform (tick n) s (reconcileCommand n id 3) id e := by
  simp only [awaitsReconciliation, Bool.and_eq_true, decide_eq_true_eq, Bool.not_eq_true',
    Table.any_eq_false_iff, decide_eq_false_iff_not] at h
  obtain ⟨⟨⟨⟨⟨hRow, hTenant⟩, hActor⟩, hKey⟩, hUnused⟩, hSize⟩ := h
  obtain ⟨e, he, hPair⟩ := Option.map_eq_some_iff.mp hRow
  obtain ⟨hState, hVersion⟩ := Prod.mk.inj hPair
  refine ⟨e, he, hState, hVersion, ?_⟩
  refine
    { input := by rw [hVersion]; rfl
      presented :=
        { valid := rfl
          fingerprint := rfl
          actor := hActor
          tenant := by rw [hTenant]; rfl
          unused := fun principal => ?_ }
      policy := ⟨fun _ _ => rfl, fun _ _ _ _ _ _ _ => rfl⟩
      fresh := freshRecord_of_unused hUnused
      storable := fun version hNext change hMem => ?_
      receipt := fun _ _ => rfl }
  · cases hReceipt : s.receipts.get? (receiptKey (service platform.env platform.catalogue.core)
        (reconcileCommand n id 3) principal) with
    | none => rfl
    | some row =>
      have hUsed := hKey _ row hReceipt
      simp only [receiptKey, reconcileCommand, Uuid.toId_text, not_true_eq_false] at hUsed
  · rw [List.mem_singleton.mp hMem]
    refine ⟨rfl, ⟨_, rfl, ?_⟩, fun _ => rfl⟩
    have hBytes : reconciledSize n s.tables id = some (render (effectProjectionValue env
        s.tables.identity.tenantId id (e.reconciled (tick n) version))).toUTF8.data.toList.length := by
      simp only [reconciledSize, he, hNext, Option.bind_eq_bind, Option.bind_some, Option.pure_def]
    rw [hBytes, Option.all_some] at hSize
    exact of_decide_eq_true hSize

theorem timedOut_awaits :
    awaitsReconciliation 4 (afterPlatform timedOut) (effectOf 1) = true ∧
    (currentProjection (afterPlatform timedOut).tables.journal "EffectIntent"
      (effectOf 1).toText).isSome = true ∧
    awaitsReconciliation 5 (afterPlatform (timedOut ++ [forget])) (effectOf 1) = true ∧
    (currentProjection (afterPlatform (timedOut ++ [forget])).tables.journal "EffectIntent"
      (effectOf 1).toText).isSome = false := by
  delta afterPlatform awaitsReconciliation reconciledSize recordUnused keySlot
  rw [platformStep_bytewise, platform_bytewise, Bytewise.beginActor.2,
    Bytewise.effectProjectionValue.2, render_bytewise, Uuid.toText_bytewise, Ascii.toList_eq]
  decide +kernel

theorem effectFree : EffectFree store.tables := by
  refine ⟨fun _ => rfl, fun id v => ?_, fun i o ho => (by cases ho)⟩
  cases hRow : store.tables.journal.projections.get? ⟨"EffectIntent", id.toText, v⟩ with
  | none => rfl
  | some row =>
    have hEffect : tables.journal.projections.get? ⟨Tracked.effect.kind, id.toText, v⟩ =
      some row := hRow
    obtain ⟨hKind, -⟩ := Sample.projections hEffect
    cases hKind

theorem timedOut_names :
    ∀ c ∈ timedOut ++ [forget], NamesTenant store.tables.identity.tenantId c := by
  intro c hc
  simp only [timedOut, List.cons_append, List.nil_append, List.mem_cons, List.not_mem_nil,
    or_false] at hc
  rcases hc with rfl | rfl | rfl | rfl
  · exact rfl
  · exact rfl
  · exact trivial
  · exact trivial

end Sample

/-- The reconciliation of the effect is granted as long as its content is there. -/
theorem reconcilable_timedOut :
    Reconciles Sample.platform (Sample.tick 4) (Sample.afterPlatform Sample.timedOut)
      (Sample.reconcileCommand 4 (Sample.effectOf 1) 3) (Sample.effectOf 1) := by
  obtain ⟨hAwaits, hShown, -⟩ := Sample.timedOut_awaits
  unfold Sample.afterPlatform at hAwaits hShown ⊢
  obtain ⟨e, he, hState, hVersion, hRequest⟩ := Sample.reconcileRequest_of hAwaits
  have hDisplayed := exists_currentProjection_iff.mp (Option.isSome_iff_exists.mp hShown)
  have hNames : ∀ c ∈ Sample.timedOut, NamesTenant Sample.store.tables.identity.tenantId c :=
    fun c hc => Sample.timedOut_names c (List.mem_append_left _ hc)
  have hRoom : e.version.val < maxI32 := by
    rw [hVersion]
    decide
  exact ((ambiguous_effect_reconcilable_iff Sample.platform Sample.store Sample.timedOut
    Sample.effectFree hNames).1 _ e he (Or.inl hState) _ _ hRequest).mpr ⟨hDisplayed, hRoom⟩

/-- An effect whose outcome is unknown can no longer be reconciled after its content was deleted,
by a current actor under a policy that permits everything. -/
theorem ambiguous_effect_forgotten :
    EffectFree Sample.store.tables ∧
    (∀ c ∈ Sample.timedOut ++ [Sample.forget],
      NamesTenant Sample.store.tables.identity.tenantId c) ∧
    ∃ e, (Sample.afterPlatform (Sample.timedOut ++ [Sample.forget])).tables.effects.get?
        (Sample.effectOf 1) = some e ∧ e.state = .outcomeUnknown ∧
      ReconcileRequest Sample.platform (Sample.tick 5)
        (Sample.afterPlatform (Sample.timedOut ++ [Sample.forget]))
        (Sample.reconcileCommand 5 (Sample.effectOf 1) 3) (Sample.effectOf 1) e ∧
      ¬Reconciles Sample.platform (Sample.tick 5)
        (Sample.afterPlatform (Sample.timedOut ++ [Sample.forget]))
        (Sample.reconcileCommand 5 (Sample.effectOf 1) 3) (Sample.effectOf 1) := by
  obtain ⟨-, -, hAwaits, hHidden⟩ := Sample.timedOut_awaits
  unfold Sample.afterPlatform at hAwaits hHidden ⊢
  obtain ⟨e, he, hState, -, hRequest⟩ := Sample.reconcileRequest_of hAwaits
  refine ⟨Sample.effectFree, Sample.timedOut_names, e, he, hState, hRequest, ?_⟩
  have hRecords := Sample.effectFree.records.run (p := Sample.platform) Sample.timedOut_names
  rw [reconciles_iff hRecords he (Or.inl hState) hRequest]
  rintro ⟨hDisplayed, -⟩
  have hShown := Option.isSome_iff_exists.mpr (exists_currentProjection_iff.mpr hDisplayed)
  rw [hHidden] at hShown
  cases hShown

end Masonwing
