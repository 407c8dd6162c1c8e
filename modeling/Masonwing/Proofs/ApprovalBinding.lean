import Masonwing.Proofs.EffectLifecycle
import Masonwing.Proofs.Evaluation

/-!
# Approvals at dispatch

An effect carries an approval only if a compensation created it, and it keeps both its intent and
the terms of that approval for ever. A dispatch checks that the approval is approved and
unexpired, not what it was given for, so the binding that the kernel's `validate_dispatch` asks
for is decided when the compensation names the approval.

* `Change.intent`, `Change.terms`: what no step changes;
* `ApprovalsFit`: the invariant of runs whose compensations are bound;
* `approval_binding_at_dispatch`: the binding over every run, from the compensations in it.
-/

namespace Masonwing

open Outcome

/-! ## What stays -/

section Stable

variable {env : Env} {tick : Tick} {t t' : Tables} {a : Act}

/-- An effect keeps its intent. -/
theorem Change.intent (h : Change env tick t a t') {id : Uuid} {e : EffectRow}
    (he : t.effects.get? id = some e) :
    ∃ e', t'.effects.get? id = some e' ∧ e'.intent = e.intent := by
  cases h.effect id with
  | same hRow hAct => exact ⟨e, by rw [hRow]; exact he, rfl⟩
  | created hNone hRow hNew hAct hBorn => cases hNone.symm.trans he
  | moved hMoved hRow hStep =>
    cases hMoved.found.symm.trans he
    exact ⟨_, hRow, hMoved.intent⟩

/-- An approval keeps its terms. -/
theorem Change.terms (h : Change env tick t a t') {id : Uuid} {p : ApprovalRow}
    (hp : t.approvals.get? id = some p) :
    ∃ p', t'.approvals.get? id = some p' ∧ p'.terms = p.terms := by
  cases h with
  | @decided i q q' j hFound hTerms =>
    by_cases hId : id = i
    · subst hId
      cases hFound.symm.trans hp
      exact ⟨q', Table.get?_set_self hFound q', hTerms⟩
    · exact ⟨p, by rw [Table.get?_set_ne _ hId]; exact hp, rfl⟩
  | _ => exact ⟨p, hp, rfl⟩

end Stable

/-- An effect and an approval, both as they were at some earlier moment. -/
def Keeps (id approval : Uuid) (intent : EffectIntent) (terms : String × ResourceRef × Digest × Int)
    (s : Store) : Prop :=
  (∃ e, s.tables.effects.get? id = some e ∧ e.intent = intent) ∧
    ∃ p, s.tables.approvals.get? approval = some p ∧ p.terms = terms

theorem Keeps.step {env : Env} {catalogue : Catalogue} {id approval : Uuid} {intent : EffectIntent}
    {terms : String × ResourceRef × Digest × Int} (s : Store) (c : Call)
    (h : Keeps id approval intent terms s) :
    Keeps id approval intent terms (step env catalogue s c).1 := by
  rcases step_change env catalogue s c with ⟨-, hSame⟩ | ⟨a, -, hChange⟩
  · rw [hSame]
    exact h
  · obtain ⟨⟨e, he, hIntent⟩, p, hp, hTerms⟩ := h
    obtain ⟨e', he', hIntent'⟩ := hChange.intent he
    obtain ⟨p', hp', hTerms'⟩ := hChange.terms hp
    exact ⟨⟨e', he', hIntent'.trans hIntent⟩, p', hp', hTerms'.trans hTerms⟩

/-! ## The binding -/

theorem checkApproval_some {tick : Tick} {t : Tables} {approval : Uuid} :
    checkApproval tick t (some approval) = .ok () ↔
      ∃ p, t.approvals.get? approval = some p ∧ p.state = .approved ∧ tick.now < p.expiresAt := by
  simp only [checkApproval, bind_eq_ok, okOr_eq_ok, require_eq_ok, exists_const]

/-- An approval was given for an effect. -/
def ApprovalRow.Fits (p : ApprovalRow) (e : EffectRow) : Prop :=
  p.action = e.action ∧ p.target = e.target ∧ p.contentDigest = e.contentRef.digest

/-- The approval as the kernel binds it. -/
def ApprovalRow.binding (p : ApprovalRow) (tenant : Uuid) : ApprovalBinding :=
  { action := p.action, target := p.target.resourceId, contentDigest := p.contentDigest
    targetRevision := p.target.version, tenantScope := tenant.toId, expiresAt := p.expiresAt }

/-- The effect as the kernel dispatches it. -/
def EffectRow.binding (e : EffectRow) (tenant : Uuid) : DispatchBinding :=
  { action := e.action, target := e.target.resourceId, contentDigest := e.contentRef.digest
    targetRevision := e.target.version, tenantScope := tenant.toId }

theorem ApprovalRow.Fits.validates {p : ApprovalRow} {e : EffectRow} (h : p.Fits e) {now : Int}
    (hTime : now < p.expiresAt) (tenant : Uuid) :
    (p.binding tenant).validateDispatch (e.binding tenant) now = .ok () := by
  obtain ⟨hAction, hTarget, hContent⟩ := h
  refine ApprovalBinding.validateDispatch_eq_ok.mpr ⟨hTime, hAction, ?_, hContent, ?_, rfl⟩
  · exact congrArg ResourceRef.resourceId hTarget
  · exact congrArg ResourceRef.version hTarget

/-- Fitting depends only on the intent and the terms. -/
theorem ApprovalRow.fits_congr {p p' : ApprovalRow} {e e' : EffectRow} (hTerms : p'.terms = p.terms)
    (hIntent : e'.intent = e.intent) : p'.Fits e' ↔ p.Fits e := by
  have hAction : p'.action = p.action := congrArg (fun x => x.1) hTerms
  have hTarget : p'.target = p.target := congrArg (fun x => x.2.1) hTerms
  have hContent : p'.contentDigest = p.contentDigest := congrArg (fun x => x.2.2.1) hTerms
  have hAction' : e'.action = e.action := congrArg EffectIntent.action hIntent
  have hTarget' : e'.target = e.target := congrArg EffectIntent.target hIntent
  have hContent' : e'.contentRef = e.contentRef := congrArg EffectIntent.contentRef hIntent
  unfold Fits
  rw [hAction, hTarget, hContent, hAction', hTarget', hContent']

/-- The dispatch of an effect with an approval happens under that approval: it is approved,
unexpired and was given for this action, target and content, and the kernel accepts it. -/
def DispatchBound (event : SystemEvent) : Prop :=
  ∀ id e approval, event.did (.dispatch id) → event.before.tables.effects.get? id = some e →
    e.approvalId = some approval →
    ∃ p, event.before.tables.approvals.get? approval = some p ∧ p.state = .approved ∧
      event.call.tick.now < p.expiresAt ∧ p.Fits e ∧
      (p.binding event.before.tables.identity.tenantId).validateDispatch
        (e.binding event.before.tables.identity.tenantId) event.call.tick.now = .ok ()

/-- A compensation names an approval that was given for it: for the compensating action on the
original's target, with the content that is sent. -/
def CompensationBound (event : SystemEvent) : Prop :=
  ∀ original approval content e p, event.did (.compensate original approval content) →
    event.before.tables.effects.get? original = some e →
    event.before.tables.approvals.get? approval = some p →
    p.action = e.action ++ ".compensate" ∧ p.target = e.target ∧ p.contentDigest = content.digest

/-- Every effect that carries an approval fits it. -/
def ApprovalsFit (t : Tables) : Prop :=
  ∀ id e approval, t.effects.get? id = some e → e.approvalId = some approval →
    ∃ p, t.approvals.get? approval = some p ∧ p.Fits e

theorem ApprovalsFit.change {env : Env} {tick : Tick} {t t' : Tables} {a : Act}
    (h : ApprovalsFit t) (hChange : Change env tick t a t')
    (hBound : ∀ original approval content e p, a = .compensate original approval content →
      t.effects.get? original = some e → t.approvals.get? approval = some p →
      p.action = e.action ++ ".compensate" ∧ p.target = e.target ∧
        p.contentDigest = content.digest) : ApprovalsFit t' := by
  intro id e approval he hApproval
  -- an old effect fits the approval it had
  have hOld : ∀ f, t.effects.get? id = some f → e.intent = f.intent →
      ∃ p, t'.approvals.get? approval = some p ∧ p.Fits e := by
    intro f hf hIntent
    have hSame : f.approvalId = some approval :=
      (congrArg EffectIntent.approvalId hIntent).symm.trans hApproval
    obtain ⟨p, hp, hFits⟩ := h id f approval hf hSame
    obtain ⟨p', hp', hTerms⟩ := hChange.terms hp
    exact ⟨p', hp', (ApprovalRow.fits_congr hTerms hIntent).mpr hFits⟩
  cases hChange.effect id with
  | same hRow hAct => exact hOld e (hRow ▸ he) rfl
  | moved hMoved hRow hStep =>
    cases hRow.symm.trans he
    exact hOld _ hMoved.found hMoved.intent
  | created hNone hRow hNew hAct hBorn =>
    cases hRow.symm.trans he
    cases hBorn.origin with
    | proposal hAdmitted hRow =>
      rw [hRow] at hApproval
      cases hApproval
    | compensation hCompensated =>
      obtain ⟨p, hp, -⟩ := hCompensated.approved
      have hTerms := hBound _ _ _ _ p rfl hCompensated.found hp
      obtain ⟨key, fingerprint, rfl⟩ := hCompensated.row_eq
      cases hApproval
      obtain ⟨p', hp', hSame⟩ := hChange.terms hp
      exact ⟨p', hp', (ApprovalRow.fits_congr hSame rfl).mpr hTerms⟩

/-- Where the approvals fit, every dispatch is bound. -/
theorem ApprovalsFit.dispatch {env : Env} {catalogue : Catalogue} {s : Store} {c : Call}
    (h : ApprovalsFit s.tables) : DispatchBound (Machine.eventAt (step env catalogue) s c) := by
  intro id e approval hDid he hApproval
  obtain ⟨f, f', hDispatched, -⟩ := dispatch_view hDid
  cases hDispatched.found.symm.trans he
  have hChecked := hDispatched.approval
  rw [hApproval] at hChecked
  obtain ⟨p, hp, hState, hTime⟩ := checkApproval_some.mp hChecked
  obtain ⟨q, hq, hFits⟩ := h id e approval he hApproval
  cases hp.symm.trans hq
  exact ⟨p, hp, hState, hTime, hFits, hFits.validates hTime _⟩

/-! ## Whole runs -/

/-- The compensation of a run decides the binding of every dispatch of the effect it created. -/
theorem dispatch_bound_iff_compensation {env : Env} {catalogue : Catalogue} {s : Store}
    {calls : List Call} {past between future : List SystemEvent} {compensation later : SystemEvent}
    (hTrace : Machine.trace (step env catalogue) s calls =
      past ++ compensation :: (between ++ later :: future))
    {original approval : Uuid} {content : ArtifactRef}
    (hCompensate : compensation.did (.compensate original approval content))
    (hDispatch : later.did (.dispatch (compensation.call.tick.draw .effect))) :
    DispatchBound later ↔ CompensationBound compensation := by
  obtain ⟨before, after, -, -, hAt, hAfter⟩ :=
    Machine.trace_eq_append_cons (step env catalogue) hTrace
  obtain ⟨middle, rest, -, -, hLaterAt, -⟩ :=
    Machine.trace_eq_append_cons (step env catalogue) hAfter
  -- the compensation found an original and an approval and created an effect with this intent
  have hChange : Change env compensation.call.tick compensation.before.tables
      (.compensate original approval content) compensation.after.tables := by
    rw [hAt] at hCompensate ⊢
    exact change_of_did hCompensate
  obtain ⟨e, row, q, b', effects, j, hCompensated, hCreated, hTables⟩ := hChange.compensate_inv
  have he := hCompensated.found
  obtain ⟨p, hp, -⟩ := hCompensated.approved
  have hRow := hCompensated.row_eq
  have hEffect : compensation.after.tables.effects.get? (compensation.call.tick.draw .effect) =
      some row := by rw [hTables]; exact Table.insert?_get?_self hCreated.inserted
  have hApproval : compensation.after.tables.approvals.get? approval = some p := by
    rw [hTables]
    exact hp
  -- both stay as they are until the dispatch
  have hKeeps : Keeps (compensation.call.tick.draw .effect) approval row.intent p.terms
      later.before := by
    rw [hLaterAt]
    exact Machine.run_invariant (step env catalogue) Keeps.step
      ⟨⟨row, hEffect, rfl⟩, p, hApproval, rfl⟩ middle
  obtain ⟨⟨f, hf, hIntent⟩, q, hq, hTerms⟩ := hKeeps
  have hFits : q.Fits f ↔ p.action = e.action ++ ".compensate" ∧ p.target = e.target ∧
      p.contentDigest = content.digest := by
    rw [ApprovalRow.fits_congr hTerms hIntent]
    obtain ⟨key, fingerprint, rfl⟩ := hRow
    exact Iff.rfl
  have hCarried : f.approvalId = some approval := by
    obtain ⟨key, fingerprint, rfl⟩ := hRow
    exact congrArg EffectIntent.approvalId hIntent
  constructor
  · intro hBound original' approval' content' e' p' hDid he' hp'
    cases SystemEvent.did_unique hCompensate hDid
    cases he.symm.trans he'
    cases hp.symm.trans hp'
    obtain ⟨q', hq', -, -, hFit, -⟩ := hBound _ f approval hDispatch hf hCarried
    cases hq.symm.trans hq'
    exact hFits.mp hFit
  · intro hBound id g approval' hDid hg hApproval'
    cases SystemEvent.did_unique hDispatch hDid
    cases hf.symm.trans hg
    cases hCarried.symm.trans hApproval'
    have hFit := hFits.mpr (hBound original approval content e p hCompensate he hp)
    have hStep : Change env later.call.tick later.before.tables
        (.dispatch (compensation.call.tick.draw .effect)) later.after.tables := by
      rw [hLaterAt] at hDispatch ⊢
      exact change_of_did hDispatch
    obtain ⟨g, g', -, hDispatched, -⟩ := hStep.dispatch_inv
    cases hDispatched.found.symm.trans hf
    have hChecked := hDispatched.approval
    rw [hCarried] at hChecked
    obtain ⟨q', hq', hState, hTime⟩ := checkApproval_some.mp hChecked
    cases hq.symm.trans hq'
    exact ⟨q, hq, hState, hTime, hFit, hFit.validates hTime _⟩

/-- When approvals bind at dispatch. In every run from a tenant without effects whose compensations
name approvals that were given for them, every dispatch of an effect with an approval happens under
that approval; and for each compensation the dispatches of its effect are bound if and only if its
approval was given for it. -/
theorem approval_binding_at_dispatch (env : Env) (catalogue : Catalogue) (s : Store)
    (calls : List Call) (hStart : ∀ k, s.tables.effects.get? k = none) :
    ((∀ event ∈ Machine.trace (step env catalogue) s calls, CompensationBound event) →
      ∀ event ∈ Machine.trace (step env catalogue) s calls, DispatchBound event) ∧
    ∀ past between future : List SystemEvent, ∀ compensation later : SystemEvent,
      Machine.trace (step env catalogue) s calls =
        past ++ compensation :: (between ++ later :: future) →
      ∀ original approval content, compensation.did (.compensate original approval content) →
      later.did (.dispatch (compensation.call.tick.draw .effect)) →
      (DispatchBound later ↔ CompensationBound compensation) := by
  refine ⟨fun hBound event hMem => ?_, fun past between future compensation later hTrace original
    approval content hCompensate hDispatch =>
      dispatch_bound_iff_compensation hTrace hCompensate hDispatch⟩
  have hFit : ApprovalsFit event.before.tables := by
    refine (Machine.trace_invariant_of (step env catalogue) (I := fun s => ApprovalsFit s.tables)
      ?_ (fun id e _ he => by rw [hStart id] at he; cases he) hBound event hMem).1
    intro s c h hEvent
    rcases step_change env catalogue s c with ⟨-, hSame⟩ | ⟨a, hDid, hChange⟩
    · rw [hSame]
      exact h
    · refine h.change hChange ?_
      rintro original approval content e p rfl he hp
      exact hEvent original approval content e p hDid he hp
  obtain ⟨before, after, -, hAt⟩ := Machine.mem_trace (step env catalogue) hMem
  rw [hAt] at hFit ⊢
  exact hFit.dispatch

/-- A sent effect is compensated under an approval for other content. -/
def Sample.compensateOther : List Call :=
  [propose 1, dispatch 2 (effectOf 1) 1,
    system 3 (.recordEffectSucceeded (effectOf 1) "message-1" contentRef 12),
    command 4 (.effectCompensate (effectOf 1).toText contentRef approvalId.toText)]

/-- The compensation is dispatched. -/
def Sample.dispatchOther : Call := dispatch 5 (effectOf 4) 1

theorem approval_binding_compensateOther :
    (∀ id, Sample.store.tables.effects.get? id = none) ∧
    ((∀ event ∈ Sample.events (Sample.compensateOther ++ [Sample.dispatchOther]),
      CompensationBound event) →
    ∀ event ∈ Sample.events (Sample.compensateOther ++ [Sample.dispatchOther]),
      DispatchBound event) := by
  unfold Sample.events
  obtain ⟨hBound, -⟩ := approval_binding_at_dispatch Sample.env Sample.catalogue Sample.store
    (Sample.compensateOther ++ [Sample.dispatchOther]) fun _ => rfl
  exact ⟨fun _ => rfl, hBound⟩

/-- A committed dispatch under an approval for other content is not bound. -/
theorem not_dispatchBound {env : Env} {catalogue : Catalogue} {s : Store} {c : Call}
    {id approval : Uuid} {carried content : Digest}
    (hCommits : commits (step env catalogue s c).2 = true)
    (hAct : c.operation.act = some (.dispatch id))
    (hEffect : (s.tables.effects.get? id).map (fun e => (e.approvalId, e.contentRef.digest)) =
      some (some approval, carried))
    (hApproval : (s.tables.approvals.get? approval).map (·.contentDigest) = some content)
    (hOther : content ≠ carried) :
    ¬DispatchBound (Machine.eventAt (step env catalogue) s c) := by
  intro hBound
  obtain ⟨e, he, hPair⟩ := Option.map_eq_some_iff.mp hEffect
  obtain ⟨p, hp, hDigest⟩ := Option.map_eq_some_iff.mp hApproval
  obtain ⟨hCarried, hContent⟩ := Prod.mk.inj hPair
  obtain ⟨q, hq, -, -, hFits, -⟩ := hBound id e approval ⟨hCommits, hAct⟩ he hCarried
  cases hp.symm.trans hq
  exact hOther (hDigest.symm.trans (hFits.2.2.trans hContent))

/-- The dispatch of the compensation is committed although its approval is for other content. -/
theorem approval_unbound_at_dispatch :
    (∀ k, Sample.store.tables.effects.get? k = none) ∧
    ∃ event ∈ Sample.events (Sample.compensateOther ++ [Sample.dispatchOther]),
      ¬DispatchBound event := by
  have hRun : commits (step Sample.env Sample.catalogue (Sample.after Sample.compensateOther)
        Sample.dispatchOther).2 = true ∧
      Sample.dispatchOther.operation.act = some (.dispatch (Sample.effectOf 4)) ∧
      ((Sample.after Sample.compensateOther).tables.effects.get? (Sample.effectOf 4)).map
        (fun e => (e.approvalId, e.contentRef.digest)) =
        some (some Sample.approvalId, Sample.digest [1]) ∧
      ((Sample.after Sample.compensateOther).tables.approvals.get? Sample.approvalId).map
        (·.contentDigest) = some (Sample.digest [3]) ∧
      Sample.digest [3] ≠ Sample.digest [1] := by
    simp only [Sample.after, step_bytewise, Sample.env_bytewise]
    decide +kernel
  obtain ⟨hCommits, hAct, hEffect, hApproval, hOther⟩ := hRun
  refine ⟨fun _ => rfl, _, ?_, not_dispatchBound hCommits hAct hEffect hApproval hOther⟩
  unfold Sample.events
  rw [Machine.trace_concat]
  exact List.mem_append_right _ List.mem_cons_self

end Masonwing
