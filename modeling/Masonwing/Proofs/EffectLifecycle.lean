import Masonwing.Proofs.Changes

/-!
# The life of one effect

What a step of the system does to one effect: nothing, its creation, or one of the seven
transitions of `EffectStep`. From this view:

* `transmissions` (history): the transmit count is the number of committed dispatches, and a
  dispatchable effect has had a reauthorization for each of them;
* `evidence_between` (history from a dispatch on): an effect becomes dispatchable again only
  after a reconciliation and then a proof of absence;
* `no_blind_resend`: both together, over every run.
-/

namespace Masonwing

open Outcome

/-! ## One effect in one step -/

/-- The transitions of an existing effect, by the act that makes them. -/
inductive EffectStep (id : Uuid) (e e' : EffectRow) : Act → Prop
  | dispatch (hFrom : e.state.dispatchable = true) (hTo : e'.state = .executing)
      (hCount : e'.transmitCount = e.transmitCount + 1) : EffectStep id e e' (.dispatch id)
  | reconcile (hFrom : e.state = .outcomeUnknown ∨ e.state = .manualReview)
      (hTo : e'.state = .reconciling) (hCount : e'.transmitCount = e.transmitCount) :
      EffectStep id e e' (.reconcile id)
  | unknown (hFrom : e.state = .executing) (hTo : e'.state = .outcomeUnknown)
      (hCount : e'.transmitCount = e.transmitCount) : EffectStep id e e' (.recordUnknown id)
  | succeeded (hFrom : e.state = .executing ∨ e.state = .reconciling) (hTo : e'.state = .succeeded)
      (hCount : e'.transmitCount = e.transmitCount) : EffectStep id e e' (.recordSucceeded id)
  | failed (hFrom : e.state = .executing ∨ e.state = .reconciling)
      (hTo : e'.state = .failedConfirmed) (hCount : e'.transmitCount = e.transmitCount) :
      EffectStep id e e' (.recordFailed id)
  | reauthorize (hFrom : e.state = .reconciling) (hTo : e'.state = .authorized)
      (hCount : e'.transmitCount = e.transmitCount) : EffectStep id e e' (.reauthorize id)
  | review (hFrom : e.state = .reconciling) (hTo : e'.state = .manualReview)
      (hCount : e'.transmitCount = e.transmitCount) : EffectStep id e e' (.review id)

/-- The existing effect that an act is about. -/
def Act.effect : Act → Option Uuid
  | .dispatch id | .reconcile id | .recordUnknown id | .recordSucceeded id | .recordFailed id
  | .reauthorize id | .review id => some id
  | _ => none

theorem EffectStep.effect {id : Uuid} {e e' : EffectRow} {a : Act} (h : EffectStep id e e' a) :
    a.effect = some id := by
  cases h <;> rfl

/-- What a new effect looks like. -/
structure NewEffect (e : EffectRow) : Prop where
  dispatchable : e.state.dispatchable = true
  untransmitted : e.transmitCount = 0
  first : e.version = .one

/-- Where a new effect comes from. -/
inductive Origin (env : Env) (tick : Tick) (t : Tables) (e : EffectRow) : Act → Prop
  | proposal {actor : CommandActor} {p : Proposal} (hAdmitted : Admitted env tick t actor p)
      (hRow : e = p.row tick (tick.draw .reservation)) : Origin env tick t e .propose
  | compensation {original approval : Uuid} {content : ArtifactRef} {o : EffectRow}
      (h : Compensated env tick t original approval content o e) :
      Origin env tick t e (.compensate original approval content)

/-- The creation of an effect: for an active tenant, under a new identifier. -/
structure Born (env : Env) (tick : Tick) (t : Tables) (id : Uuid) (e : EffectRow) (a : Act) :
    Prop where
  tenant : t.identity.tenantActive = true
  id_eq : id = tick.draw .effect
  origin : Origin env tick t e a

/-- How an act changes the row of one effect. -/
inductive EffectView (env : Env) (tick : Tick) (id : Uuid) (a : Act) (t t' : Tables) : Prop
  | same (hRow : t'.effects.get? id = t.effects.get? id) (hAct : a.effect ≠ some id)
  | created {e : EffectRow} (hNone : t.effects.get? id = none) (hRow : t'.effects.get? id = some e)
      (hNew : NewEffect e) (hAct : a.effect = none) (hBorn : Born env tick t id e a)
  | moved {e e' : EffectRow} (hMoved : EffectMoved t id e e')
      (hRow : t'.effects.get? id = some e') (hStep : EffectStep id e e' a)

section View

variable {env : Env} {tick : Tick} {t t' : Tables} {a : Act}

/-- Replacing the row of one effect. -/
theorem EffectView.of_set {i id : Uuid} {e e' : EffectRow} (hMoved : EffectMoved t i e e')
    (hEffects : t'.effects = t.effects.set i e') (hStep : EffectStep i e e' a) :
    EffectView env tick id a t t' := by
  by_cases hId : id = i
  · subst hId
    refine .moved hMoved ?_ hStep
    rw [hEffects, Table.get?_set_self hMoved.found]
  · refine .same ?_ ?_
    · rw [hEffects, Table.get?_set_ne _ hId]
    · rw [hStep.effect]
      exact fun h => hId (Option.some.inj h).symm

theorem EffectView.of_created {id : Uuid} {q : ReserveRequest} {e : EffectRow} {b' : Budget}
    {effects : Table Uuid EffectRow} (hCreated : Created tick t q e b' effects)
    (hEffects : t'.effects = effects) (hState : e.state.dispatchable = true)
    (hAct : a.effect = none) (hTenant : t.identity.tenantActive = true)
    (hOrigin : Origin env tick t e a) : EffectView env tick id a t t' := by
  by_cases hId : id = tick.draw .effect
  · subst hId
    refine .created (Table.insert?_eq_some hCreated.inserted).1 ?_
      ⟨hState, hCreated.untransmitted, hCreated.first⟩ hAct ⟨hTenant, rfl, hOrigin⟩
    rw [hEffects, Table.insert?_get?_self hCreated.inserted]
  · refine .same ?_ (by rw [hAct]; exact fun h => by cases h)
    rw [hEffects, Table.insert?_get? hCreated.inserted, if_neg hId]

theorem Compensated.state {original approval : Uuid} {content : ArtifactRef} {e row : EffectRow}
    (h : Compensated env tick t original approval content e row) : row.state = .authorized := by
  obtain ⟨key, fingerprint, rfl⟩ := h.row_eq
  rfl

/-- Every act, seen from one effect. -/
theorem Change.effect (h : Change env tick t a t') (id : Uuid) : EffectView env tick id a t t' := by
  cases h with
  | proposed j hTenant hAdmitted hCreated => exact .of_created hCreated rfl rfl rfl hTenant (.proposal hAdmitted rfl)
  | compensated j hTenant hCompensated hCreated =>
    exact .of_created hCreated rfl (by rw [hCompensated.state]; rfl) rfl hTenant
      (.compensation hCompensated)
  | dispatched j h =>
    exact .of_set h.toEffectMoved rfl (.dispatch h.dispatchable h.executing h.counted)
  | reconciled j h =>
    exact .of_set h.toEffectMoved rfl (.reconcile h.uncertain h.reconciling h.uncounted)
  | unknown j h hFrom hAdvanced hState =>
    exact .of_set h.toEffectMoved rfl (.unknown hFrom h.state h.uncounted)
  | succeeded j h hFrom hSettled hReceipt hInsert hFree =>
    exact .of_set h.toEffectMoved rfl (.succeeded hFrom h.state h.uncounted)
  | failed j h hFrom hAdvanced hState =>
    exact .of_set h.toEffectMoved rfl (.failed hFrom h.state h.uncounted)
  | reauthorized j h hFrom =>
    exact .of_set h.toEffectMoved rfl (.reauthorize hFrom h.state h.uncounted)
  | reviewed j h hFrom => exact .of_set h.toEffectMoved rfl (.review hFrom h.state h.uncounted)
  | _ => exact .same rfl fun h => by cases h

end View

/-- A step, seen from one effect: nothing was committed, or an act with its view. -/
theorem step_effect (env : Env) (catalogue : Catalogue) (s : Store) (c : Call) (id : Uuid) :
    (commits (step env catalogue s c).2 = false ∧ (step env catalogue s c).1 = s) ∨
      ∃ a, SystemEvent.did (Machine.eventAt (step env catalogue) s c) a ∧
        EffectView env c.tick id a s.tables (step env catalogue s c).1.tables := by
  rcases step_change env catalogue s c with hNone | ⟨a, hDid, hChange⟩
  · exact Or.inl hNone
  · exact Or.inr ⟨a, hDid, hChange.effect id⟩

theorem not_did_of_ne {e : SystemEvent} {a b : Act} (h : e.did a) (hNe : a ≠ b) : ¬e.did b :=
  fun hb => hNe (SystemEvent.did_unique h hb)

/-! ## Counting transmissions -/

/-- How often an act was committed. -/
def performed (a : Act) (events : List SystemEvent) : Nat :=
  events.countP fun e => decide (e.did a)

@[simp] theorem performed_nil (a : Act) : performed a [] = 0 := rfl

theorem performed_concat (a : Act) (events : List SystemEvent) (e : SystemEvent) :
    performed a (events ++ [e]) = performed a events + if e.did a then 1 else 0 := by
  simp [performed, List.countP_append, List.countP_cons]

theorem performed_concat_of_not {a : Act} {e : SystemEvent} (h : ¬e.did a)
    (events : List SystemEvent) : performed a (events ++ [e]) = performed a events := by
  rw [performed_concat, if_neg h, Nat.add_zero]

theorem performed_concat_of {a : Act} {e : SystemEvent} (h : e.did a) (events : List SystemEvent) :
    performed a (events ++ [e]) = performed a events + 1 := by
  rw [performed_concat, if_pos h]

/-- The transmissions of an effect so far: one for each dispatch, and each dispatch but the last
was followed by a reauthorization. -/
def Transmissions (id : Uuid) (past : List SystemEvent) (s : Store) : Prop :=
  match s.tables.effects.get? id with
  | none => performed (.dispatch id) past = 0 ∧ performed (.reauthorize id) past = 0
  | some e => e.transmitCount = performed (.dispatch id) past ∧
    performed (.dispatch id) past =
      performed (.reauthorize id) past + if e.state.dispatchable then 0 else 1

theorem Transmissions.of_some {id : Uuid} {past : List SystemEvent} {s : Store} {e : EffectRow}
    (h : Transmissions id past s) (hRow : s.tables.effects.get? id = some e) :
    e.transmitCount = performed (.dispatch id) past ∧
      performed (.dispatch id) past =
        performed (.reauthorize id) past + if e.state.dispatchable then 0 else 1 := by
  unfold Transmissions at h
  rw [hRow] at h
  exact h

theorem Transmissions.step {env : Env} {catalogue : Catalogue} (id : Uuid)
    (past : List SystemEvent) (s : Store) (c : Call) (h : Transmissions id past s) :
    Transmissions id (past ++ [Machine.eventAt (step env catalogue) s c])
      (step env catalogue s c).1 := by
  rcases step_effect env catalogue s c id with ⟨hNone, hSame⟩ | ⟨a, hDid, hView⟩
  · unfold Transmissions
    rw [performed_concat_of_not (not_did hNone _), performed_concat_of_not (not_did hNone _), hSame]
    exact h
  · cases hView with
    | same hRow hAct =>
      have hDispatch : a ≠ .dispatch id := by rintro rfl; exact hAct rfl
      have hReauthorize : a ≠ .reauthorize id := by rintro rfl; exact hAct rfl
      unfold Transmissions
      rw [performed_concat_of_not (not_did_of_ne hDid hDispatch),
        performed_concat_of_not (not_did_of_ne hDid hReauthorize), hRow]
      exact h
    | created hNone hRow hNew hAct hBorn =>
      have hDispatch : a ≠ .dispatch id := by rintro rfl; cases hAct
      have hReauthorize : a ≠ .reauthorize id := by rintro rfl; cases hAct
      unfold Transmissions at h ⊢
      rw [hNone] at h
      rw [performed_concat_of_not (not_did_of_ne hDid hDispatch),
        performed_concat_of_not (not_did_of_ne hDid hReauthorize), hRow]
      obtain ⟨hDispatched, hReauthorized⟩ := h
      refine ⟨?_, ?_⟩
      · rw [hNew.untransmitted, hDispatched]
        rfl
      · rw [hDispatched, hReauthorized, hNew.dispatchable]
        rfl
    | moved hMoved hRow hStep =>
      obtain ⟨hCount, hBalance⟩ := h.of_some hMoved.found
      unfold Transmissions
      rw [hRow]
      cases hStep with
      | dispatch hFrom hTo hNext =>
        rw [performed_concat_of hDid, performed_concat_of_not (not_did_of_ne hDid (by simp))]
        rw [hFrom, if_pos rfl] at hBalance
        refine ⟨by rw [hNext, hCount]; push_cast; rfl, ?_⟩
        rw [hBalance, hTo]
        rfl
      | reauthorize hFrom hTo hNext =>
        rw [performed_concat_of hDid, performed_concat_of_not (not_did_of_ne hDid (by simp))]
        rw [hFrom] at hBalance
        refine ⟨by rw [hNext, hCount], ?_⟩
        rw [hBalance, hTo]
        rfl
      | reconcile hFrom hTo hNext =>
        rw [performed_concat_of_not (not_did_of_ne hDid (by simp)),
          performed_concat_of_not (not_did_of_ne hDid (by simp))]
        refine ⟨by rw [hNext, hCount], ?_⟩
        rw [hBalance, hTo]
        rcases hFrom with hFrom | hFrom <;> rw [hFrom] <;> rfl
      | unknown hFrom hTo hNext | review hFrom hTo hNext =>
        rw [performed_concat_of_not (not_did_of_ne hDid (by simp)),
          performed_concat_of_not (not_did_of_ne hDid (by simp))]
        refine ⟨by rw [hNext, hCount], ?_⟩
        rw [hBalance, hTo, hFrom]
        rfl
      | succeeded hFrom hTo hNext | failed hFrom hTo hNext =>
        rw [performed_concat_of_not (not_did_of_ne hDid (by simp)),
          performed_concat_of_not (not_did_of_ne hDid (by simp))]
        refine ⟨by rw [hNext, hCount], ?_⟩
        rw [hBalance, hTo]
        rcases hFrom with hFrom | hFrom <;> rw [hFrom] <;> rfl

/-! ## Between two transmissions -/

/-- A reconciliation and, later, a proof of absence. -/
def EvidenceIn (id : Uuid) (events : List SystemEvent) : Prop :=
  ∃ before reconciled between proven after,
    events = before ++ reconciled :: (between ++ proven :: after) ∧
      reconciled.did (.reconcile id) ∧ proven.did (.reauthorize id)

theorem EvidenceIn.concat {id : Uuid} {events : List SystemEvent} (h : EvidenceIn id events)
    (e : SystemEvent) : EvidenceIn id (events ++ [e]) := by
  obtain ⟨before, reconciled, between, proven, after, rfl, hReconciled, hProven⟩ := h
  exact ⟨before, reconciled, between, proven, after ++ [e], by simp, hReconciled, hProven⟩

/-- Since its last dispatch the effect is not dispatchable, and where it is being reconciled
a reconciliation was committed; or the evidence is there. -/
def Withheld (id : Uuid) (since : List SystemEvent) (s : Store) : Prop :=
  EvidenceIn id since ∨ ∃ e, s.tables.effects.get? id = some e ∧ e.state.dispatchable = false ∧
    (e.state = .reconciling → ∃ r ∈ since, SystemEvent.did r (.reconcile id))

theorem Withheld.step {env : Env} {catalogue : Catalogue} (id : Uuid)
    (since : List SystemEvent) (s : Store) (c : Call) (h : Withheld id since s) :
    Withheld id (since ++ [Machine.eventAt (step env catalogue) s c])
      (step env catalogue s c).1 := by
  rcases h with hEvidence | ⟨e, hFound, hState, hReconciling⟩
  · exact Or.inl (hEvidence.concat _)
  · have hKeep : e.state = .reconciling →
        ∃ r ∈ since ++ [Machine.eventAt (Masonwing.step env catalogue) s c],
          SystemEvent.did r (.reconcile id) := by
      intro hs
      obtain ⟨r, hr, hDid⟩ := hReconciling hs
      exact ⟨r, List.mem_append_left _ hr, hDid⟩
    rcases step_effect env catalogue s c id with ⟨-, hSame⟩ | ⟨a, hDid, hView⟩
    · exact Or.inr ⟨e, by rw [hSame]; exact hFound, hState, hKeep⟩
    · cases hView with
      | same hRow hAct => exact Or.inr ⟨e, by rw [hRow]; exact hFound, hState, hKeep⟩
      | created hNone hRow hNew hAct hBorn =>
        rw [hFound] at hNone
        cases hNone
      | @moved f f' hMoved hRow hStep =>
        have hSame : e = f := Option.some.inj (hFound.symm.trans hMoved.found)
        subst hSame
        cases hStep with
        | dispatch hFrom hTo hCount =>
          rw [hState] at hFrom
          cases hFrom
        | reconcile hFrom hTo hCount =>
          refine Or.inr ⟨f', hRow, by rw [hTo]; rfl, fun _ => ⟨_, ?_, hDid⟩⟩
          exact List.mem_append_right _ List.mem_cons_self
        | reauthorize hFrom hTo hCount =>
          -- the proof of absence completes the evidence
          obtain ⟨r, hr, hReconciled⟩ := hReconciling hFrom
          obtain ⟨before, after, rfl⟩ := List.append_of_mem hr
          exact Or.inl ⟨before, r, after, _, [], by simp, hReconciled, hDid⟩
        | unknown hFrom hTo hCount | succeeded hFrom hTo hCount | failed hFrom hTo hCount
        | review hFrom hTo hCount =>
          refine Or.inr ⟨f', hRow, by rw [hTo]; rfl, fun h => ?_⟩
          rw [hTo] at h
          cases h

/-- A committed dispatch finds the effect dispatchable and leaves it executing. -/
theorem dispatch_view {env : Env} {catalogue : Catalogue} {s : Store} {c : Call} {id : Uuid}
    (h : SystemEvent.did (Machine.eventAt (step env catalogue) s c) (.dispatch id)) :
    ∃ e e', Dispatched c.tick s.tables id e e' ∧
      (step env catalogue s c).1.tables.effects.get? id = some e' := by
  obtain ⟨e, e', j, hDispatched, hTables⟩ := (change_of_did h).dispatch_inv
  refine ⟨e, e', hDispatched, ?_⟩
  rw [hTables]
  exact Table.get?_set_self hDispatched.found e'

/-- Between two dispatches of an effect lie a reconciliation and a proof of absence. -/
theorem evidence_between {env : Env} {catalogue : Catalogue} {s : Store} {calls : List Call}
    {id : Uuid} {past between future : List SystemEvent} {first second : SystemEvent}
    (hTrace : Machine.trace (step env catalogue) s calls =
      past ++ first :: (between ++ second :: future))
    (hFirst : first.did (.dispatch id)) (hSecond : second.did (.dispatch id)) :
    EvidenceIn id between := by
  obtain ⟨before, after, -, -, hFirstAt, hAfter⟩ :=
    Machine.trace_eq_append_cons (step env catalogue) hTrace
  obtain ⟨middle, rest, -, hBetween, hSecondAt, -⟩ :=
    Machine.trace_eq_append_cons (step env catalogue) hAfter
  have hStart : Withheld id [] first.after := by
    rw [hFirstAt] at hFirst ⊢
    obtain ⟨e, e', hDispatched, hRow⟩ := dispatch_view hFirst
    have hState := hDispatched.executing
    exact Or.inr ⟨e', hRow, by rw [hState]; rfl, fun h => by rw [hState] at h; cases h⟩
  have hEnd := Machine.history (step env catalogue) (Withheld.step id) hStart middle
  rw [hBetween] at hEnd
  rcases hEnd with hEvidence | ⟨e, hFound, hState, -⟩
  · exact hEvidence
  · -- the second dispatch found the effect dispatchable
    rw [hSecondAt] at hSecond
    obtain ⟨f, f', hDispatched, -⟩ := dispatch_view hSecond
    have hSame : e = f := Option.some.inj (hFound.symm.trans hDispatched.found)
    rw [hSame, hDispatched.dispatchable] at hState
    cases hState

/-- No blind resend. From before the creation of an effect on, whatever operations are called in
whatever order: its transmit count is the number of its committed dispatches, at most one more
than the proofs of absence that were applied; between two of them lie a reconciliation and then a
proof of absence; and no dispatch is committed while the effect is being transmitted, uncertain or
completed. -/
theorem no_blind_resend (env : Env) (catalogue : Catalogue) (s : Store) (calls : List Call)
    (id : Uuid) (hNew : s.tables.effects.get? id = none) :
    (∀ e, (Machine.run (step env catalogue) s calls).tables.effects.get? id = some e →
      e.transmitCount = performed (.dispatch id) (Machine.trace (step env catalogue) s calls) ∧
      e.transmitCount ≤
        1 + performed (.reauthorize id) (Machine.trace (step env catalogue) s calls)) ∧
    (∀ past between future : List SystemEvent, ∀ first second : SystemEvent,
      Machine.trace (step env catalogue) s calls =
        past ++ first :: (between ++ second :: future) →
      first.did (.dispatch id) → second.did (.dispatch id) → EvidenceIn id between) ∧
    ∀ event : SystemEvent, event ∈ Machine.trace (step env catalogue) s calls →
      event.did (.dispatch id) →
      ∃ e, event.before.tables.effects.get? id = some e ∧
        e.state ∉ [EffectState.executing, .outcomeUnknown, .reconciling, .manualReview,
          .succeeded, .failedConfirmed] := by
  refine ⟨fun e hRow => ?_, fun past between future first second hTrace hFirst hSecond =>
    evidence_between hTrace hFirst hSecond, fun event hMem hDid => ?_⟩
  · have hStart : Transmissions id [] s := by
      unfold Transmissions
      rw [hNew]
      exact ⟨rfl, rfl⟩
    have hEnd := Machine.history (step env catalogue) (Transmissions.step id) hStart calls
    obtain ⟨hCount, hBalance⟩ := hEnd.of_some hRow
    refine ⟨hCount, ?_⟩
    rw [hCount, hBalance]
    split <;> omega
  · obtain ⟨before, after, -, hAt⟩ := Machine.mem_trace (step env catalogue) hMem
    rw [hAt] at hDid ⊢
    obtain ⟨e, e', hDispatched, -⟩ := dispatch_view hDid
    have hDispatchable := hDispatched.dispatchable
    refine ⟨e, hDispatched.found, fun hState => ?_⟩
    simp only [List.mem_cons, List.not_mem_nil, or_false] at hState
    rcases hState with hs | hs | hs | hs | hs | hs <;> rw [hs] at hDispatchable <;>
      cases hDispatchable

/-- The rule for an effect that is transmitted twice. -/
theorem no_blind_resend_secondLap :
    Sample.store.tables.effects.get? (Sample.effectOf 1) = none ∧
    ∀ e, (Sample.after Sample.secondLap).tables.effects.get? (Sample.effectOf 1) = some e →
      e.transmitCount ≤
        1 + performed (.reauthorize (Sample.effectOf 1)) (Sample.events Sample.secondLap) := by
  unfold Sample.after Sample.events
  refine ⟨rfl, ?_⟩
  intro e he
  obtain ⟨hCounts, -⟩ := no_blind_resend Sample.env Sample.catalogue Sample.store Sample.secondLap
    (Sample.effectOf 1) rfl
  exact (hCounts e he).2

end Masonwing
