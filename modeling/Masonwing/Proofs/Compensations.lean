import Masonwing.Proofs.Announcements
import Masonwing.Proofs.ApprovalBinding
import Masonwing.Proofs.Decisions
import Masonwing.Proofs.Evaluation

/-!
# Compensating effects

What `effect.compensate` leaves in the table of the effects. A compensation names an original that
has come to an end and an approval of its own, and an approval serves one compensation of one
original.

* `compensate_unused`: what a committed compensation found, besides the original and the approval;
* `Disciplined.step`: the links of the compensations, kept by every step of the platform;
* `compensations_accounted`: so every effect goes back to one that was proposed, and every
  compensation to one commit.
-/

namespace Masonwing

open Outcome Relation

variable {ι : Type}

/-! ## The links -/

def EffectState.completed : EffectState → Prop
  | .succeeded | .failedConfirmed => True
  | _ => False

/-- Both effects belong to one run, under one grant and connection, with one target. -/
structure EffectRow.SameScope (e f : EffectRow) : Prop where
  run : e.runId = f.runId
  grant : e.grantId = f.grantId
  connection : e.connectionId = f.connectionId
  target : e.target = f.target

theorem EffectRow.SameScope.refl (e : EffectRow) : e.SameScope e := ⟨rfl, rfl, rfl, rfl⟩

theorem EffectRow.SameScope.trans {e f g : EffectRow} (h : e.SameScope f) (h' : f.SameScope g) :
    e.SameScope g :=
  ⟨h.run.trans h'.run, h.grant.trans h'.grant, h.connection.trans h'.connection,
    h.target.trans h'.target⟩

theorem EffectRow.intent_names {e e' : EffectRow} (h : e'.intent = e.intent) :
    e'.originalEffectId = e.originalEffectId ∧ e'.approvalId = e.approvalId ∧
      e'.contentRef = e.contentRef :=
  ⟨congrArg EffectIntent.originalEffectId h, congrArg EffectIntent.approvalId h,
    congrArg EffectIntent.contentRef h⟩

/-- The effect compensates an original that has ended, under an approval of its own. -/
structure Compensates (t : Tables) (e f : EffectRow) : Prop where
  completed : f.state.completed
  scope : e.SameScope f
  action : e.action = f.action ++ ".compensate"
  approved : ∃ approval a, e.approvalId = some approval ∧ f.approvalId ≠ some approval ∧
    t.approvals.get? approval = some a ∧ a.state = .approved

/-- The effect is a compensation of the original. -/
def CompensationOf (effects : Table Uuid EffectRow) (id original : Uuid) : Prop :=
  ∃ e, effects.get? id = some e ∧ e.originalEffectId = some original

/-- What is kept of the effects: the links of the compensations lead to originals that have ended,
an effect without a link has no approval, and no two compensations share original and approval. -/
structure Disciplined (t : Tables) : Prop where
  compensates : ∀ id e original, t.effects.get? id = some e → e.originalEffectId = some original →
    ∃ f, t.effects.get? original = some f ∧ Compensates t e f
  proposed : ∀ id e, t.effects.get? id = some e → e.originalEffectId = none → e.approvalId = none
  once : ∀ id e id' e' original, t.effects.get? id = some e → t.effects.get? id' = some e' →
    e.originalEffectId = some original → e'.originalEffectId = some original →
      e.approvalId = e'.approvalId → id = id'

theorem Disciplined.empty {t : Tables} (h : ∀ id, t.effects.get? id = none) : Disciplined t where
  compensates id e _ he := by cases (h id).symm.trans he
  proposed id e he := by cases (h id).symm.trans he
  once id e _ _ _ he := by cases (h id).symm.trans he

/-- The effect is what `n` compensations in a row make of the proposed one. -/
structure EffectRow.UndoneFrom (e root : EffectRow) (n : Nat) : Prop where
  proposed : root.originalEffectId = none
  unapproved : root.approvalId = none
  scope : e.SameScope root
  action : e.action = root.action ++ String.join (List.replicate n ".compensate")

theorem EffectRow.UndoneFrom.compensate {t : Tables} {e f root : EffectRow} {n : Nat}
    (h : f.UndoneFrom root n) (hLink : Compensates t e f) : e.UndoneFrom root (n + 1) where
  proposed := h.proposed
  unapproved := h.unapproved
  scope := hLink.scope.trans h.scope
  action := by
    rw [hLink.action, h.action, List.replicate_succ', String.append_assoc]
    congr 1
    simp [String.join, List.foldl_append]

theorem Compensates.action_length {t : Tables} {e f : EffectRow} (h : Compensates t e f) :
    f.action.length < e.action.length := by
  have hSuffix : 0 < (".compensate" : String).length := by decide
  rw [h.action, String.length_append]
  omega

/-- Every effect goes back to a proposed one: the action of a compensation is longer than that of
its original. -/
theorem Disciplined.rooted {t : Tables} (h : Disciplined t) {id : Uuid} {e : EffectRow}
    (he : t.effects.get? id = some e) : ∃ root r n,
      ReflTransGen (CompensationOf t.effects) id root ∧ t.effects.get? root = some r ∧
        e.UndoneFrom r n := by
  induction hSize : e.action.length using Nat.strong_induction_on generalizing id e with
  | _ size ih =>
    cases hOriginal : e.originalEffectId with
    | none =>
      refine ⟨id, e, 0, .refl, he, hOriginal, h.proposed id e he hOriginal, .refl e, ?_⟩
      exact String.append_empty.symm
    | some original =>
      obtain ⟨f, hf, hLink⟩ := h.compensates id e original he hOriginal
      have hShorter : f.action.length < size := by
        have := hLink.action_length
        omega
      obtain ⟨root, r, n, hPath, hr, hUndone⟩ := ih f.action.length hShorter hf rfl
      exact ⟨root, r, n + 1, .head ⟨e, he, hOriginal⟩ hPath, hr, hUndone.compensate hLink⟩

/-! ## One step -/

section Step

variable {p : Platform ι} {s : Store} {c : PlatformCall ι}

/-- The original has no compensation under the approval. -/
def Unused (effects : Table Uuid EffectRow) (original approval : Uuid) : Prop :=
  ∀ id e, effects.get? id = some e →
    ¬(e.originalEffectId = some original ∧ e.approvalId = some approval)

theorem compensateEffect_unused {env : Env} {tick : Tick} {t t' : Tables} {m : Mutation}
    {key effectId approvalId : String} {content : ArtifactRef}
    (h : compensateEffect env tick t key effectId content approvalId = .ok (t', m)) :
    ∃ original approval f, Uuid.parse effectId = some original ∧
      Uuid.parse approvalId = some approval ∧ t.effects.get? original = some f ∧
      f.approvalId ≠ some approval ∧ Unused t.effects original approval := by
  simp only [compensateEffect, bind_eq_ok, require_eq_ok, okOr_eq_ok, parseUuid_eq_ok,
    Table.any_eq_false_iff, decide_eq_false_iff_not, exists_const] at h
  obtain ⟨original, hOriginal, approval, hApproval, f, hFound, -, hSeparate, -, -, -, hUnused, -⟩ :=
    h
  exact ⟨original, approval, f, hOriginal, hApproval, hFound, hSeparate, hUnused⟩

/-- A committed compensation found the approval separate from that of the original, and unused. -/
theorem compensate_unused {original approval : Uuid} {content : ArtifactRef}
    (h : PlatformEvent.did (Machine.eventAt (platformStep p) s c)
      (.core (.compensate original approval content))) :
    (∃ f, s.tables.effects.get? original = some f ∧ f.approvalId ≠ some approval) ∧
      Unused s.tables.effects original approval := by
  obtain ⟨command, hCommand, hAct⟩ := PlatformOperation.act_commanded h.2 rfl
  obtain ⟨tick, operation⟩ := c
  cases (show operation = .core (.command command) from hCommand)
  obtain ⟨actor, input, key, fingerprint⟩ := command
  rcases platformStep_command_cases p s tick ⟨actor, input, key, fingerprint⟩ with
    ⟨failure, hStep⟩ | ⟨receipt, hStep⟩ | ⟨s', key, t, m, receipt, hStep, hCommitted⟩
  · have hFailed := congrArg platformCommits (congrArg Prod.snd hStep)
    cases hFailed.symm.trans h.1
  · have hReplayed := congrArg platformCommits (congrArg Prod.snd hStep)
    cases hReplayed.symm.trans h.1
  · have hHandled := hCommitted.handled
    cases input with
    | effectCompensate effectId content' approvalId =>
      obtain ⟨original', approval', f, hOriginal, hApproval, hFound, hSeparate, hUnused⟩ :=
        compensateEffect_unused hHandled
      simp only [CommandInput.act, hOriginal, hApproval] at hAct
      cases hAct
      exact ⟨⟨f, hFound, hSeparate⟩, hUnused⟩
    | _ => simp [CommandInput.act] at hAct

end Step

section Fate

variable {env : Env} {tick : Tick} {t t' : Tables} {a : PlatformAct}

/-- An effect that has ended is never moved again. -/
theorem EffectStep.not_completed {id : Uuid} {e e' : EffectRow} {b : Act}
    (h : EffectStep id e e' b) : ¬e.state.completed := by
  intro hCompleted
  cases h with
  | dispatch hFrom hTo hCount =>
    cases hState : e.state <;> rw [hState] at hFrom hCompleted <;>
      first | exact hCompleted | cases hFrom
  | unknown hFrom hTo hCount | reauthorize hFrom hTo hCount | review hFrom hTo hCount =>
    rw [hFrom] at hCompleted
    exact hCompleted
  | reconcile hFrom hTo hCount | succeeded hFrom hTo hCount | failed hFrom hTo hCount =>
    rcases hFrom with hFrom | hFrom <;> rw [hFrom] at hCompleted <;> exact hCompleted

/-- An effect that has ended keeps its row. -/
theorem PlatformChange.completed_kept (h : PlatformChange env tick t a t') {id : Uuid}
    {e : EffectRow} (he : t.effects.get? id = some e) (hCompleted : e.state.completed) :
    t'.effects.get? id = some e := by
  cases h with
  | core hCore =>
    cases hCore.effect id with
    | same hRow hAct => exact hRow.trans he
    | created hNone hRow hNew hAct hBorn => cases hNone.symm.trans he
    | moved hMoved hRow hStep =>
      cases hMoved.found.symm.trans he
      exact absurd hCompleted hStep.not_completed
  | _ => exact he

/-- Where the row of an effect comes from: the row it had, a proposal or a compensation. -/
inductive EffectSource (env : Env) (tick : Tick) (t : Tables) (id : Uuid) (e' : EffectRow) :
    PlatformAct → Prop
  | stored {a : PlatformAct} {e : EffectRow} (hFound : t.effects.get? id = some e)
      (hIntent : e'.intent = e.intent) : EffectSource env tick t id e' a
  | proposed (hOriginal : e'.originalEffectId = none) (hApproval : e'.approvalId = none) :
      EffectSource env tick t id e' (.core .propose)
  | compensated {original approval : Uuid} {content : ArtifactRef} {f : EffectRow}
      (hId : id = tick.draw .effect)
      (h : Compensated env tick t original approval content f e') :
      EffectSource env tick t id e' (.core (.compensate original approval content))

theorem PlatformChange.effect_source (h : PlatformChange env tick t a t') {id : Uuid}
    {e' : EffectRow} (he : t'.effects.get? id = some e') : EffectSource env tick t id e' a := by
  cases h with
  | core hCore =>
    cases hCore.effect id with
    | same hRow hAct => exact .stored (hRow.symm.trans he) rfl
    | created hNone hRow hNew hAct hBorn =>
      cases hRow.symm.trans he
      cases hBorn.origin with
      | proposal hAdmitted hProposed =>
        subst hProposed
        exact .proposed rfl rfl
      | compensation hCompensated => exact .compensated hBorn.id_eq hCompensated
    | moved hMoved hRow hStep =>
      cases hRow.symm.trans he
      exact .stored hMoved.found hMoved.intent
  | _ => exact .stored he rfl

/-- The new row of a compensation, with its original. -/
theorem Compensated.compensates {original approval : Uuid} {content : ArtifactRef}
    {f e : EffectRow} (h : Compensated env tick t original approval content f e)
    (hSeparate : f.approvalId ≠ some approval) : Compensates t e f := by
  obtain ⟨key, fingerprint, rfl⟩ := h.row_eq
  obtain ⟨row, hRow, hApproved⟩ := h.approved
  refine ⟨?_, ⟨rfl, rfl, rfl, rfl⟩, rfl, approval, row, rfl, hSeparate, hRow, hApproved⟩
  rcases h.completed with hState | hState <;> rw [hState] <;> trivial

theorem Compensated.names {original approval : Uuid} {content : ArtifactRef} {f e : EffectRow}
    (h : Compensated env tick t original approval content f e) :
    e.originalEffectId = some original ∧ e.approvalId = some approval ∧ e.contentRef = content := by
  obtain ⟨key, fingerprint, rfl⟩ := h.row_eq
  exact ⟨rfl, rfl, rfl⟩

end Fate

section Step

variable {p : Platform ι} {s : Store} {c : PlatformCall ι}

/-- A link stays what it is. -/
theorem Compensates.step {e e' f : EffectRow} (h : Compensates s.tables e f)
    (hIntent : e'.intent = e.intent) : Compensates (platformStep p s c).1.tables e' f where
  completed := h.completed
  scope := by
    have hRun : e'.runId = e.runId := congrArg EffectIntent.runId hIntent
    have hGrant : e'.grantId = e.grantId := congrArg EffectIntent.grantId hIntent
    have hConnection : e'.connectionId = e.connectionId :=
      congrArg EffectIntent.connectionId hIntent
    have hTarget : e'.target = e.target := congrArg EffectIntent.target hIntent
    exact EffectRow.SameScope.trans ⟨hRun, hGrant, hConnection, hTarget⟩ h.scope
  action := (congrArg EffectIntent.action hIntent).trans h.action
  approved := by
    obtain ⟨approval, row, hApproval, hSeparate, hRow, hApproved⟩ := h.approved
    have hSame : e'.approvalId = e.approvalId := congrArg EffectIntent.approvalId hIntent
    have hDecided : row.state ≠ .requested := by
      rw [hApproved]
      decide
    exact ⟨approval, row, hSame.trans hApproval, hSeparate, decided_kept hRow hDecided, hApproved⟩

/-- A compensation after a step was there before, or is the one of the step. -/
theorem compensation_source {id original : Uuid} {e : EffectRow}
    (he : (platformStep p s c).1.tables.effects.get? id = some e)
    (hOriginal : e.originalEffectId = some original) :
    (∃ e₀, s.tables.effects.get? id = some e₀ ∧ e.intent = e₀.intent) ∨
      ∃ approval f, PlatformEvent.did (Machine.eventAt (platformStep p) s c)
          (.core (.compensate original approval e.contentRef)) ∧
        id = c.tick.draw .effect ∧ e.approvalId = some approval ∧
        s.tables.effects.get? original = some f ∧ Compensates s.tables e f ∧
        Unused s.tables.effects original approval := by
  rcases platformStep_change p s c with ⟨-, hSame⟩ | ⟨a, hDid, hChange⟩
  · rw [hSame] at he
    exact Or.inl ⟨e, he, rfl⟩
  · cases hChange.effect_source he with
    | stored hFound hIntent => exact Or.inl ⟨_, hFound, hIntent⟩
    | proposed hNone _ => cases hNone.symm.trans hOriginal
    | @compensated original' approval content f hId hCompensated =>
      obtain ⟨hNames, hApproval, hContent⟩ := hCompensated.names
      cases hNames.symm.trans hOriginal
      obtain ⟨⟨f', hf', hSeparate⟩, hUnused⟩ := compensate_unused hDid
      cases hf'.symm.trans hCompensated.found
      refine Or.inr ⟨approval, f, ?_, hId, hApproval, hf', hCompensated.compensates hSeparate,
        hUnused⟩
      rw [hContent]
      exact hDid

theorem completed_kept {id : Uuid} {e : EffectRow} (he : s.tables.effects.get? id = some e)
    (hCompleted : e.state.completed) :
    (platformStep p s c).1.tables.effects.get? id = some e :=
  platformStep_keeps (I := fun t => t.effects.get? id = some e)
    (fun _ _ _ _ hFound hChange => hChange.completed_kept hFound hCompleted) he

/-- Every step keeps the links. -/
theorem Disciplined.step (h : Disciplined s.tables) :
    Disciplined (platformStep p s c).1.tables where
  compensates id e original he hOriginal := by
    rcases compensation_source he hOriginal with ⟨e₀, he₀, hIntent⟩ |
      ⟨approval, f, -, -, -, hf, hLink, -⟩
    · obtain ⟨hLinked, -, -⟩ := EffectRow.intent_names hIntent
      obtain ⟨f, hf, hLink⟩ := h.compensates id e₀ original he₀ (hLinked.symm.trans hOriginal)
      exact ⟨f, completed_kept hf hLink.completed, hLink.step hIntent⟩
    · exact ⟨f, completed_kept hf hLink.completed, hLink.step rfl⟩
  proposed id e he hOriginal := by
    rcases platformStep_change p s c with ⟨-, hSame⟩ | ⟨a, -, hChange⟩
    · rw [hSame] at he
      exact h.proposed id e he hOriginal
    · cases hChange.effect_source he with
      | @stored _ e₀ hFound hIntent =>
        obtain ⟨hLinked, hApproval, -⟩ := EffectRow.intent_names hIntent
        have hUnapproved : e₀.approvalId = none :=
          h.proposed id e₀ hFound (hLinked.symm.trans hOriginal)
        exact hApproval.trans hUnapproved
      | proposed _ hApproval => exact hApproval
      | compensated hId hCompensated => cases hCompensated.names.1.symm.trans hOriginal
  once id e id' e' original he he' hOriginal hOriginal' hApproval := by
    rcases compensation_source he hOriginal with ⟨e₀, he₀, hIntent⟩ |
      ⟨approval, f, -, hId, hNamed, -, -, hUnused⟩ <;>
    rcases compensation_source he' hOriginal' with ⟨e₀', he₀', hIntent'⟩ |
      ⟨approval', f', -, hId', hNamed', -, -, hUnused'⟩
    · obtain ⟨hLinked, hSame, -⟩ := EffectRow.intent_names hIntent
      obtain ⟨hLinked', hSame', -⟩ := EffectRow.intent_names hIntent'
      exact h.once id e₀ id' e₀' original he₀ he₀' (hLinked.symm.trans hOriginal)
        (hLinked'.symm.trans hOriginal') ((hSame.symm.trans hApproval).trans hSame')
    · -- the approval of the new compensation would already be used
      obtain ⟨hLinked, hSame, -⟩ := EffectRow.intent_names hIntent
      exact absurd ⟨hLinked.symm.trans hOriginal, hSame.symm.trans (hApproval.trans hNamed')⟩
        (hUnused' id e₀ he₀)
    · obtain ⟨hLinked', hSame', -⟩ := EffectRow.intent_names hIntent'
      exact absurd ⟨hLinked'.symm.trans hOriginal',
        hSame'.symm.trans (hApproval.symm.trans hNamed)⟩ (hUnused id' e₀' he₀')
    · exact hId.trans hId'.symm

/-- An approval that was used for an original stays used. -/
theorem not_unused_step {original approval : Uuid}
    (h : ¬Unused s.tables.effects original approval) :
    ¬Unused (platformStep p s c).1.tables.effects original approval := by
  refine platformStep_keeps (I := fun t => ¬Unused t.effects original approval) ?_ h
  intro tick t a t' hUsed hChange hUnused
  apply hUsed
  intro id e he hNames
  obtain ⟨e', he', hIntent, -⟩ := hChange.effect_kept he
  obtain ⟨hOriginal, hApproval, -⟩ := EffectRow.intent_names hIntent
  exact hUnused id e' he' ⟨hOriginal.trans hNames.1, hApproval.trans hNames.2⟩

/-- A committed compensation uses the approval. -/
theorem compensate_uses {original approval : Uuid} {content : ArtifactRef}
    (h : PlatformEvent.did (Machine.eventAt (platformStep p) s c)
      (.core (.compensate original approval content))) :
    ¬Unused (platformStep p s c).1.tables.effects original approval := by
  have hChange := platformChange_of_did h
  generalize (platformStep p s c).1.tables = t' at hChange ⊢
  cases hChange with
  | core hCore =>
    obtain ⟨f, row, q, b', effects, j, hCompensated, hCreated, rfl⟩ := hCore.compensate_inv
    intro hUnused
    obtain ⟨hOriginal, hApproval, -⟩ := hCompensated.names
    exact hUnused _ row (Table.insert?_get?_self hCreated.inserted) ⟨hOriginal, hApproval⟩

/-- Every compensation was committed, under its approval and with its content. -/
def CompensationsCommitted (past : List (PlatformEvent ι)) (s : Store) : Prop :=
  ∀ id e original, s.tables.effects.get? id = some e → e.originalEffectId = some original →
    ∃ ev ∈ past, ∃ approval, e.approvalId = some approval ∧ id = ev.call.tick.draw .effect ∧
      ev.did (.core (.compensate original approval e.contentRef))

theorem CompensationsCommitted.step (past : List (PlatformEvent ι)) (s : Store)
    (c : PlatformCall ι) (h : CompensationsCommitted past s) :
    CompensationsCommitted (past ++ [Machine.eventAt (platformStep p) s c])
      (platformStep p s c).1 := by
  intro id e original he hOriginal
  rcases compensation_source he hOriginal with ⟨e₀, he₀, hIntent⟩ |
    ⟨approval, f, hDid, hId, hApproval, -, -, -⟩
  · obtain ⟨hLink, hApproval, hContent⟩ := EffectRow.intent_names hIntent
    have hLinked : e₀.originalEffectId = some original := hLink.symm.trans hOriginal
    obtain ⟨ev, hEv, approval, hNamed, hId, hDid⟩ := h id e₀ original he₀ hLinked
    refine ⟨ev, List.mem_append_left _ hEv, approval, hApproval.trans hNamed, hId, ?_⟩
    rw [hContent]
    exact hDid
  · exact ⟨_, List.mem_append_right _ List.mem_cons_self, approval, hApproval, hId, hDid⟩

end Step

/-- In every run that starts without effects: a compensation undoes an effect that has ended, in
its scope, under an approval of its own, and comes from one commit that names them; the effects it
undoes, one after another, end at a proposed one; and no approval serves two compensations of one
original, in the table or among the commits. -/
theorem compensations_accounted (p : Platform ι) (s : Store) (calls : List (PlatformCall ι))
    (hStart : ∀ id, s.tables.effects.get? id = none) :
    let t := (Machine.run (platformStep p) s calls).tables
    let trace : List (PlatformEvent ι) := Machine.trace (platformStep p) s calls
    (∀ id e original, t.effects.get? id = some e → e.originalEffectId = some original →
      (∃ f, t.effects.get? original = some f ∧ Compensates t e f) ∧
      (∃ ev ∈ trace, ∃ approval, e.approvalId = some approval ∧ id = ev.call.tick.draw .effect ∧
        ev.did (.core (.compensate original approval e.contentRef))) ∧
      ∀ id' e', t.effects.get? id' = some e' → e'.originalEffectId = some original →
        e'.approvalId = e.approvalId → id' = id) ∧
    (∀ id e, t.effects.get? id = some e → ∃ root r n,
      ReflTransGen (CompensationOf t.effects) id root ∧ t.effects.get? root = some r ∧
        e.UndoneFrom r n) ∧
    trace.Pairwise fun ev ev' : PlatformEvent ι => ∀ original approval content content',
      ev.did (.core (.compensate original approval content)) →
        ¬ev'.did (.core (.compensate original approval content')) := by
  intro t trace
  have hDisciplined : Disciplined t :=
    Machine.run_invariant (platformStep p) (I := fun s => Disciplined s.tables)
      (fun _ _ h => h.step) (Disciplined.empty hStart) calls
  have hCommitted : CompensationsCommitted trace (Machine.run (platformStep p) s calls) :=
    Machine.history (platformStep p) CompensationsCommitted.step
      (fun id e _ he => by cases (hStart id).symm.trans he) calls
  refine ⟨fun id e original he hOriginal => ⟨?_, ?_, ?_⟩, fun id e he => hDisciplined.rooted he, ?_⟩
  · exact hDisciplined.compensates id e original he hOriginal
  · exact hCommitted id e original he hOriginal
  · intro id' e' he' hOriginal' hApproval
    exact hDisciplined.once id' e' id e original he' he hOriginal' hOriginal hApproval
  · have hPairs := Machine.trace_pairwise (platformStep p)
      (Q := fun (a : Uuid × Uuid) (ev : PlatformEvent ι) =>
        ∃ content, ev.did (.core (.compensate a.1 a.2 content)))
      (R := fun a (ev : PlatformEvent ι) =>
        ∀ content, ¬ev.did (.core (.compensate a.1 a.2 content)))
      (D := fun a s => ¬Unused s.tables.effects a.1 a.2)
      (fun a s c ⟨content, hDid⟩ => compensate_uses hDid) (fun a s c h => not_unused_step h)
      (fun a s c h content hDid => h (compensate_unused hDid).2) s calls
    refine hPairs.imp fun h original approval content content' hDid => ?_
    exact h (original, approval) ⟨content, hDid⟩ content'

/-- A message is sent and compensated, on the platform. -/
def Sample.compensated : List (PlatformCall Empty) := compensateOther.map coreCall

theorem Sample.compensated_linked : ∃ e,
    (Machine.run (platformStep platform) store compensated).tables.effects.get? (effectOf 4) =
      some e ∧ e.originalEffectId = some (effectOf 1) := by
  have hStored : ((Machine.run (platformStep platform) store compensated).tables.effects.get?
      (effectOf 4)).map (·.originalEffectId) = some (some (effectOf 1)) := by
    rw [platformStep_bytewise, Sample.platform_bytewise]
    decide +kernel
  exact Option.map_eq_some_iff.mp hStored

theorem compensated_accounted : ∃ e f,
    (Machine.run (platformStep Sample.platform) Sample.store Sample.compensated).tables.effects.get?
      (Sample.effectOf 1) = some f ∧
    Compensates (Machine.run (platformStep Sample.platform) Sample.store Sample.compensated).tables
      e f := by
  obtain ⟨e, he, hOriginal⟩ := Sample.compensated_linked
  obtain ⟨⟨f, hf, hLink⟩, -⟩ := (compensations_accounted Sample.platform Sample.store
    Sample.compensated fun _ => rfl).1 _ e _ he hOriginal
  exact ⟨e, f, hf, hLink⟩

end Masonwing
