import Masonwing.Proofs.Evaluation
import Masonwing.Proofs.JournalSteps

/-!
# Deciding an approval

`approval.decide` under racing reviewers: the decision that changes an approval met all of its
conditions, and an approval that was decided keeps its row through every later step.
-/

namespace Masonwing

open Outcome

variable {ι : Type}

/-- A decision: who sent the command, what it named, and the row before and after it. -/
structure Decision (tick : Tick) (c : Command CommandInput) (id : Uuid) (a a' : ApprovalRow) :
    Prop where
  requested : a.state = .requested
  named : ∃ proposalId decision reason, Uuid.parse proposalId = some id ∧
    c.input = .approvalDecide proposalId decision a.version.val a.contentDigest.toText reason ∧
    decisionState decision = .ok a'.state ∧ a'.decisionReason = some reason
  decider : ∃ principal, Uuid.parse c.actor.principalId.text = some principal ∧
    principal ≠ a.createdBy ∧ a'.decidedBy = some principal
  unexpired : tick.now < a.expiresAt
  version : a.version.next? = some a'.version
  terms : a'.terms = a.terms

theorem decisionState_decided {decision : String} {state : ApprovalState}
    (h : decisionState decision = .ok state) : state ≠ .requested := by
  unfold decisionState at h
  split at h <;> cases h <;> decide

theorem Decision.decided {tick : Tick} {c : Command CommandInput} {id : Uuid} {a a' : ApprovalRow}
    (h : Decision tick c id a a') : a'.state ≠ .requested := by
  obtain ⟨_, _, _, -, -, hState, -⟩ := h.named
  exact decisionState_decided hState

theorem nextApprovalState_ok {state next : ApprovalState} {decision : String}
    (h : nextApprovalState state decision = .ok next) :
    state = .requested ∧ decisionState decision = .ok next := by
  cases state with
  | requested => exact ⟨rfl, h⟩
  | approved | rejected | cancelled | expired | invalidated => cases h

theorem decideApproval_decision {env : Env} {tick : Tick} {t t' : Tables} {m : Mutation}
    {c : Command CommandInput} {proposalId decision contentDigest reason : String}
    {expected : Int} (hInput : c.input =
      .approvalDecide proposalId decision expected contentDigest reason)
    (h : decideApproval env tick t c.actor proposalId decision expected contentDigest reason =
      .ok (t', m)) :
    ∃ id a a', Uuid.parse proposalId = some id ∧ t.approvals.get? id = some a ∧
      Decision tick c id a a' ∧ t' = { t with approvals := t.approvals.set id a' } := by
  simp only [decideApproval, bind_eq_ok, require_eq_ok, okOr_eq_ok, parseUuid_eq_ok, pure_eq_ok,
    requireExpectedVersion_eq_ok, requireReason, Prod.mk.injEq, exists_const] at h
  obtain ⟨principal, hPrincipal, id, hId, -, a, hFound, next, hNext, hOther, hNow, hDigest,
    version, ⟨hExpected, hVersion⟩, rfl, -⟩ := h
  obtain ⟨hRequested, hState⟩ := nextApprovalState_ok hNext
  refine ⟨id, a, _, hId, hFound, ?_, rfl⟩
  have hNamed : c.input =
      .approvalDecide proposalId decision a.version.val a.contentDigest.toText reason := by
    rw [hInput, hExpected, hDigest]
  exact {
    requested := hRequested
    named := ⟨proposalId, decision, reason, hId, hNamed, hState, rfl⟩
    decider := ⟨principal, hPrincipal, Ne.symm hOther, rfl⟩
    unexpired := hNow
    version := hVersion
    terms := rfl }

theorem trace_pair {σ κ ρ : Type} (step : σ → κ → σ × ρ) (s : σ) (c d : κ) :
    Machine.trace step s [c, d] =
      [] ++ Machine.eventAt step s c :: [Machine.eventAt step (step s c).1 d] := rfl

theorem trace_pair' {σ κ ρ : Type} (step : σ → κ → σ × ρ) (s : σ) (c d : κ) :
    Machine.trace step s [c, d] =
      [Machine.eventAt step s c] ++ Machine.eventAt step (step s c).1 d :: [] := rfl

section Step

variable {p : Platform ι} {s : Store} {c : PlatformCall ι} {id : Uuid}

/-- Only a decision on an approval writes its row. -/
theorem PlatformChange.approval_kept {env : Env} {tick : Tick} {t t' : Tables} {a : PlatformAct}
    (h : PlatformChange env tick t a t') (hAct : a ≠ .core (.decideApproval id)) :
    t'.approvals.get? id = t.approvals.get? id := by
  cases h with
  | core h =>
    cases h with
    | @decided i r r' j hFound hTerms =>
      have hNe : id ≠ i := by
        rintro rfl
        exact hAct rfl
      exact Table.get?_set_ne _ hNe _
    | _ => rfl
  | _ => rfl

/-- The event changes the row of the approval. -/
def Redecides (id : Uuid) (event : PlatformEvent ι) : Prop :=
  event.after.tables.approvals.get? id ≠ event.before.tables.approvals.get? id

theorem redecides_of_states {state state' : ApprovalState}
    (hBefore : (s.tables.approvals.get? id).map (·.state) = some state)
    (hAfter : ((platformStep p s c).1.tables.approvals.get? id).map (·.state) = some state')
    (hMoved : state ≠ state') : Redecides id (Machine.eventAt (platformStep p) s c) := by
  intro hSame
  have hRows : (platformStep p s c).1.tables.approvals.get? id = s.tables.approvals.get? id := hSame
  rw [hRows, hBefore] at hAfter
  exact hMoved (Option.some.inj hAfter)

/-- The event decides the approval. -/
def Decides (id : Uuid) (event : PlatformEvent ι) : Prop :=
  ∃ c a a', event.call.operation = .core (.command c) ∧
    event.before.tables.approvals.get? id = some a ∧
    event.after.tables.approvals.get? id = some a' ∧ Decision event.call.tick c id a a'

/-- The call asks for a decision on the approval. -/
def AsksDecision (id : Uuid) (event : PlatformEvent ι) : Prop :=
  event.call.operation.act = some (.core (.decideApproval id))

theorem AsksDecision.command {event : PlatformEvent ι} (h : AsksDecision id event) :
    ∃ c proposalId decision expected contentDigest reason,
      event.call.operation = .core (.command c) ∧ Uuid.parse proposalId = some id ∧
      c.input = .approvalDecide proposalId decision expected contentDigest reason := by
  obtain ⟨⟨actor, input, key, fingerprint⟩, hCommand, hAct⟩ := PlatformOperation.act_commanded h rfl
  cases input with
  | approvalDecide proposalId decision expected contentDigest reason =>
    have hId : Uuid.parse proposalId = some id := by simpa [CommandInput.act] using hAct
    exact ⟨_, proposalId, decision, expected, contentDigest, reason, hCommand, hId, rfl⟩
  | effectCompensate effectId content approvalId =>
    simp [CommandInput.act, Option.bind_eq_some_iff] at hAct
  | _ => simp [CommandInput.act] at hAct

/-- The event changes nothing: it failed, or it was answered with the receipt of an earlier
command. -/
def Refused (event : PlatformEvent ι) : Prop :=
  event.after = event.before ∧ ((∃ failure, event.response = .error failure) ∨
    ∃ receipt, event.response = .ok (.core (.answer (.replayed receipt))))

/-- A request to decide an approval is refused, or decides it. -/
theorem AsksDecision.refused_or_decides
    (h : AsksDecision id (Machine.eventAt (platformStep p) s c)) :
    Refused (Machine.eventAt (platformStep p) s c) ∨
      Decides id (Machine.eventAt (platformStep p) s c) := by
  obtain ⟨command, proposalId, decision, expected, contentDigest, reason, hCommand, hId, hInput⟩ :=
    h.command
  obtain ⟨tick, operation⟩ := c
  subst hCommand
  rcases platformStep_command_cases p s tick command with
    ⟨failure, hStep⟩ | ⟨receipt, hStep⟩ | ⟨s', key, t, m, receipt, hStep, hCommitted⟩
  · exact Or.inl ⟨congrArg Prod.fst hStep, Or.inl ⟨failure, congrArg Prod.snd hStep⟩⟩
  · exact Or.inl ⟨congrArg Prod.fst hStep, Or.inr ⟨receipt, congrArg Prod.snd hStep⟩⟩
  · right
    have hHandled : dispatchCommand p.env tick s.tables command = .ok (t, m) := hCommitted.handled
    rw [dispatchCommand, hInput] at hHandled
    obtain ⟨id', a, a', hId', hFound, hDecision, rfl⟩ := decideApproval_decision hInput hHandled
    cases hId'.symm.trans hId
    refine ⟨command, a, a', rfl, hFound, ?_, hDecision⟩
    have hAfter : (platformStep p s ⟨tick, .core (.command command)⟩).1.tables.approvals =
        s.tables.approvals.set id a' := by
      rw [hStep, hCommitted.tables]
    change (platformStep p s ⟨tick, .core (.command command)⟩).1.tables.approvals.get? id = some a'
    rw [hAfter]
    exact Table.get?_set_self hFound a'

/-- What changes an approval decides it. -/
theorem Redecides.decides (h : Redecides id (Machine.eventAt (platformStep p) s c)) :
    Decides id (Machine.eventAt (platformStep p) s c) := by
  have hAsks : AsksDecision id (Machine.eventAt (platformStep p) s c) := by
    rcases platformStep_change p s c with ⟨-, hSame⟩ | ⟨a, hDid, hChange⟩
    · exact absurd (congrArg (fun s : Store => s.tables.approvals.get? id) hSame) h
    · by_cases ha : a = .core (.decideApproval id)
      · subst ha
        exact hDid.2
      · exact absurd (hChange.approval_kept ha) h
  rcases hAsks.refused_or_decides with hRefused | hDecides
  · exact absurd (congrArg (fun s : Store => s.tables.approvals.get? id) hRefused.1) h
  · exact hDecides

/-- A decided approval keeps its row. -/
theorem decided_kept {a : ApprovalRow} (ha : s.tables.approvals.get? id = some a)
    (hDecided : a.state ≠ .requested) :
    (platformStep p s c).1.tables.approvals.get? id = some a := by
  by_contra hChanged
  have hRedecides : Redecides id (Machine.eventAt (platformStep p) s c) := by
    intro hSame
    exact hChanged (hSame.trans ha)
  obtain ⟨_, b, _, -, hb, -, hDecision⟩ := hRedecides.decides
  cases hb.symm.trans ha
  exact hDecided hDecision.requested

end Step

/-- However decisions on an approval race, the one that changes it was sent by another principal
than its creator, in time, for its content and its version; the row stays as it left it, and every
other request is refused. -/
theorem one_decision_per_approval (p : Platform ι) (s : Store) (calls : List (PlatformCall ι))
    (id : Uuid) {past future : List (PlatformEvent ι)} {e : PlatformEvent ι}
    (h : Machine.trace (platformStep p) s calls = past ++ e :: future) :
    (Redecides id e → Decides id e ∧ ∀ f ∈ future,
      f.before.tables.approvals.get? id = e.after.tables.approvals.get? id ∧
      f.after.tables.approvals.get? id = e.after.tables.approvals.get? id) ∧
    (AsksDecision id e → Redecides id e ∨ Refused e) := by
  obtain ⟨before, after, -, -, he, hFuture⟩ := Machine.trace_eq_append_cons (platformStep p) h
  constructor
  · intro hRedecides
    have hDecides : Decides id e := by
      rw [he] at hRedecides ⊢
      exact hRedecides.decides
    refine ⟨hDecides, ?_⟩
    obtain ⟨_, _, a', -, -, ha', hDecision⟩ := hDecides
    rw [ha', ← hFuture]
    exact Machine.trace_invariant_of (platformStep p)
      (I := fun s => s.tables.approvals.get? id = some a') (P := fun _ => True)
      (fun _ _ hRow _ => decided_kept hRow hDecision.decided) ha' fun _ _ => trivial
  · intro hAsks
    rw [he] at hAsks ⊢
    rcases hAsks.refused_or_decides with hRefused | ⟨_, a, a', -, ha, ha', hDecision⟩
    · exact Or.inr hRefused
    · left
      intro hSame
      rw [ha, ha'] at hSame
      have hRows : a' = a := Option.some.inj hSame
      have hVersion := hDecision.version
      rw [hRows] at hVersion
      exact Version.next?_ne_self hVersion rfl

/-! ## Two reviewers -/

namespace Sample

/-- The small tenant with its approval still to be decided. -/
def undecided : Store :=
  { store with tables := { tables with
      journal := { tables.journal with
        projections := ⟨[(projectionOf "Approval" approvalId, projection 11 .null)], by decide⟩ }
      approvals := ⟨[(approvalId, { approval with
        state := .requested, decidedBy := none, decidedIssuer := none, decisionReason := none })],
        by decide⟩ } }

def decideCall (n : Nat) (decision : String) : PlatformCall Empty :=
  coreCommand n (.approvalDecide approvalId.toText decision 1 (digest [3]).toText "reviewed")

/-- Two reviewers answer, one after the other; the second one wants the opposite. -/
abbrev reviews : List (PlatformCall Empty) := [decideCall 1 "APPROVE", decideCall 2 "REJECT"]

abbrev firstReview : PlatformEvent Empty :=
  Machine.eventAt (platformStep platform) undecided (decideCall 1 "APPROVE")

abbrev secondReview : PlatformEvent Empty :=
  Machine.eventAt (platformStep platform)
    (platformStep platform undecided (decideCall 1 "APPROVE")).1 (decideCall 2 "REJECT")

theorem undecided_rows :
    (undecided.tables.approvals.get? approvalId).map (·.state) = some .requested ∧
      ((platformStep platform undecided (decideCall 1 "APPROVE")).1.tables.approvals.get?
        approvalId).map (·.state) = some .approved := by
  rw [platformStep_bytewise, Sample.platform_bytewise]
  decide +kernel

theorem firstReview_redecides : Redecides approvalId firstReview :=
  redecides_of_states undecided_rows.1 undecided_rows.2 (by decide)

theorem decideCall_asks (n : Nat) (decision : String) :
    (decideCall n decision).operation.act = some (.core (.decideApproval approvalId)) := by
  simp [decideCall, coreCommand, command, PlatformOperation.act, Operation.act, CommandInput.act,
    Uuid.parse_toText]

end Sample

theorem one_decision_two_reviewers :
    Decides Sample.approvalId Sample.firstReview ∧ Refused Sample.secondReview := by
  have hFirst := one_decision_per_approval Sample.platform Sample.undecided Sample.reviews
    Sample.approvalId (trace_pair _ _ _ _)
  have hSecond := one_decision_per_approval Sample.platform Sample.undecided Sample.reviews
    Sample.approvalId (trace_pair' _ _ _ _)
  obtain ⟨hDecides, hKept⟩ := hFirst.1 Sample.firstReview_redecides
  refine ⟨hDecides, (hSecond.2 (Sample.decideCall_asks 2 "REJECT")).resolve_left ?_⟩
  intro hAgain
  obtain ⟨hBefore, hAfter⟩ := hKept _ (List.mem_singleton_self _)
  exact hAgain (hAfter.trans hBefore.symm)

end Masonwing
