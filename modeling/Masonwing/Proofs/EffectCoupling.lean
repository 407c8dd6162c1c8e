import Masonwing.Proofs.EffectLifecycle

/-!
# Effects, reservations and receipts move together

An effect owns one reservation, and the state of the one limits the state of the other
(`EffectState.costs`); a receipt exists exactly for a succeeded effect. The two couplings are
kept by every step that leaves the reservations of effects to the effect operations
(`SparesEffects`), so they hold after every run from a tenant without effects.

* `CostCoupling`, `ReceiptCoupling`: the two invariants, with their step lemmas;
* `effect_reservation_receipt_coupled`: what they say about a reached state.
-/

namespace Masonwing

open Outcome

/-! ## Costs -/

/-- The states in which the reservation of an effect can be. -/
def EffectState.costs : EffectState → List CostState
  | .prepared => [.reserved]
  | .authorized | .executing => [.reserved, .unknown]
  | .outcomeUnknown | .reconciling | .manualReview => [.unknown]
  | .succeeded => [.settled]
  | .failedConfirmed => [.released]
  | .waitingApproval | .cancelled => []

theorem EffectState.costs_of_dispatchable (s : EffectState) (h : s.dispatchable = true) :
    ∀ c ∈ s.costs, c ∈ EffectState.executing.costs := by
  cases s <;> revert h <;> decide

/-- How far an effect is. Up to the end of its first transmission both rows have the versions they
were created with or the next one; once it was unknown, the reservation stays so. -/
def Lap (e : EffectRow) (r : Reservation) : Prop :=
  match e.state with
  | .prepared | .authorized =>
    (e.transmitCount = 0 ∧ e.version.val = 1 ∧ r.state = .reserved ∧ r.version.val = 1) ∨
      (1 ≤ e.transmitCount ∧ r.state = .unknown)
  | .executing =>
    (e.transmitCount = 1 ∧ e.version.val = 2 ∧ r.state = .reserved ∧ r.version.val = 1) ∨
      (2 ≤ e.transmitCount ∧ r.state = .unknown)
  | _ => 1 ≤ e.transmitCount

/-- An effect and its reservation fit together. -/
structure Fits (e : EffectRow) (r : Reservation) : Prop where
  cost : r.state ∈ e.state.costs
  lap : Lap e r

namespace Fits

variable {e e' : EffectRow} {r r' : Reservation}

theorem create {row : Reservation} (hState : e.state = .prepared ∨ e.state = .authorized)
    (hCount : e.transmitCount = 0) (hVersion : e.version = .one) (hReserved : row.state = .reserved)
    (hFirst : row.version = .one) : Fits e row := by
  have hLap : e.transmitCount = 0 ∧ e.version.val = 1 ∧ row.state = .reserved ∧
      row.version.val = 1 := ⟨hCount, by rw [hVersion]; rfl, hReserved, by rw [hFirst]; rfl⟩
  constructor
  · rw [hReserved]
    rcases hState with hs | hs <;> rw [hs] <;> decide
  · unfold Lap
    rcases hState with hs | hs <;> rw [hs] <;> exact Or.inl hLap

/-- A dispatch begins the first transmission, or a later one with an unknown cost. -/
theorem dispatch (h : Fits e r) (hFrom : e.state.dispatchable = true)
    (hTo : e'.state = .executing) (hCount : e'.transmitCount = e.transmitCount + 1)
    (hVersion : e.version.next? = some e'.version) : Fits e' r := by
  have hLap : (e.transmitCount = 0 ∧ e.version.val = 1 ∧ r.state = .reserved ∧ r.version.val = 1) ∨
      (1 ≤ e.transmitCount ∧ r.state = .unknown) := by
    have hLap := h.lap
    unfold Lap at hLap
    split at hLap <;> simp_all [EffectState.dispatchable]
  constructor
  · rw [hTo]
    exact EffectState.costs_of_dispatchable _ hFrom _ h.cost
  · unfold Lap
    rw [hTo]
    rcases hLap with ⟨hZero, hFirst, hReserved, hVersionR⟩ | ⟨hMore, hUnknown⟩
    · have hNext := Version.next?_eq_some hVersion
      exact Or.inl ⟨by omega, by omega, hReserved, hVersionR⟩
    · exact Or.inr ⟨by omega, hUnknown⟩

/-- An effect that is executing or uncertain was transmitted. -/
theorem transmitted (h : Fits e r) (hState : e.state.unresolved = true) : 1 ≤ e.transmitCount := by
  have hLap := h.lap
  unfold Lap at hLap
  split at hLap
  · rename_i hs
    rw [hs] at hState
    cases hState
  · rename_i hs
    rw [hs] at hState
    cases hState
  · rcases hLap with ⟨hOne, -⟩ | ⟨hMore, -⟩ <;> omega
  · exact hLap

/-- The later transitions: what has been transmitted stays so. -/
theorem resolve (hCount : 1 ≤ e'.transmitCount) (hCost : r'.state ∈ e'.state.costs)
    (hState : e'.state.dispatchable = true → r'.state = .unknown) (hNot : e'.state ≠ .executing) :
    Fits e' r' := by
  refine ⟨hCost, ?_⟩
  unfold Lap
  split
  · rename_i hs
    exact Or.inr ⟨hCount, hState (by rw [hs]; rfl)⟩
  · rename_i hs
    exact Or.inr ⟨hCount, hState (by rw [hs]; rfl)⟩
  · rename_i hs
    exact absurd hs hNot
  · exact hCount

end Fits

/-- Every effect owns a reservation of its own that fits it. -/
structure CostCoupling (t : Tables) : Prop where
  owns : ∀ id e, t.effects.get? id = some e →
    ∃ r, t.budget.reservations.get? e.reservationId = some r ∧ Fits e r
  apart : ∀ i j e f, t.effects.get? i = some e → t.effects.get? j = some f →
    e.reservationId = f.reservationId → i = j

/-- The reservations in use by effects are left alone by the budget operations of runs. -/
def SparesEffects (event : SystemEvent) : Prop :=
  ∀ r, event.did (.moveReservation r) →
    ∀ id e, event.before.tables.effects.get? id = some e → e.reservationId ≠ r

section Costs

variable {env : Env} {tick : Tick} {t t' : Tables} {a : Act}

/-- A recorded outcome fits the reservation that was moved with it. -/
theorem Resolved.fits {id : Uuid} {e e' : EffectRow} {r r' : Reservation} {next : EffectState}
    (h : Resolved t id e e' next) (hFit : Fits e r) (hFrom : e.state.unresolved = true)
    (hNot : next ≠ .executing) (hCost : r'.state ∈ next.costs)
    (hState : next.dispatchable = true → r'.state = .unknown) : Fits e' r' := by
  have hTransmitted := hFit.transmitted hFrom
  have hCount := h.uncounted
  have hTo := h.state
  subst hTo
  exact .resolve (by omega) hCost hState hNot

namespace CostCoupling

/-- Reservations of effects that stay as they are keep the coupling. -/
theorem frame (h : CostCoupling t) (hEffects : t'.effects = t.effects)
    (hKeep : ∀ id e, t.effects.get? id = some e →
      t'.budget.reservations.get? e.reservationId =
        t.budget.reservations.get? e.reservationId) : CostCoupling t' where
  owns id e he := by
    rw [hEffects] at he
    rw [hKeep id e he]
    exact h.owns id e he
  apart i j e f he hf := by
    rw [hEffects] at he hf
    exact h.apart i j e f he hf

/-- A new effect with a new reservation. -/
theorem create (h : CostCoupling t) {q : ReserveRequest} {e : EffectRow} {b' : Budget}
    {effects : Table Uuid EffectRow} (hCreated : Created tick t q e b' effects)
    (hState : e.state = .prepared ∨ e.state = .authorized) (j : Journal) :
    CostCoupling { t with budget := b', effects, journal := j } := by
  obtain ⟨row, hReserved⟩ := hCreated.reserved
  have hNone := (Table.insert?_eq_some hReserved.inserted).1
  have hSelf := Table.insert?_get?_self hReserved.inserted
  obtain ⟨currency, hRow⟩ := hReserved.request
  have hFits : Fits e row :=
    .create hState hCreated.untransmitted hCreated.first (by rw [hRow]; rfl) (by rw [hRow]; rfl)
  -- an effect that was there before owns another reservation
  have hOther : ∀ id f, t.effects.get? id = some f → f.reservationId ≠ e.reservationId := by
    intro id f hf hSame
    obtain ⟨r, hr, -⟩ := h.owns id f hf
    rw [hSame, hCreated.reservation, hNone] at hr
    cases hr
  constructor
  · intro id f hf
    rcases Table.insert?_get?_cases hCreated.inserted hf with ⟨-, rfl⟩ | ⟨-, hOld⟩
    · exact ⟨row, by rw [hCreated.reservation]; exact hSelf, hFits⟩
    · obtain ⟨r, hr, hFit⟩ := h.owns id f hOld
      exact ⟨r, Table.insert?_get?_of_some hReserved.inserted hr, hFit⟩
  · intro i j f g hf hg hSame
    rcases Table.insert?_get?_cases hCreated.inserted hf with ⟨rfl, rfl⟩ | ⟨-, hOldF⟩
    · rcases Table.insert?_get?_cases hCreated.inserted hg with ⟨rfl, -⟩ | ⟨-, hOldG⟩
      · rfl
      · exact absurd hSame.symm (hOther j g hOldG)
    · rcases Table.insert?_get?_cases hCreated.inserted hg with ⟨-, rfl⟩ | ⟨-, hOldG⟩
      · exact absurd hSame (hOther i f hOldF)
      · exact h.apart i j f g hOldF hOldG hSame

/-- An effect moves, with its reservation or without it. -/
theorem move (h : CostCoupling t) {id : Uuid} {e e' : EffectRow} (hMoved : EffectMoved t id e e')
    (hEffects : t'.effects = t.effects.set id e') {r' : Reservation}
    (hSelf : t'.budget.reservations.get? e.reservationId = some r')
    (hFits : Fits e' r')
    (hKeep : ∀ k, k ≠ e.reservationId →
      t'.budget.reservations.get? k = t.budget.reservations.get? k) : CostCoupling t' := by
  constructor
  · intro j f hf
    rw [hEffects] at hf
    rcases Table.get?_set_cases hf with ⟨-, rfl⟩ | ⟨hNe, hOld⟩
    · exact ⟨r', by rw [hMoved.reservationId]; exact hSelf, hFits⟩
    · have hOther : f.reservationId ≠ e.reservationId :=
        fun hSame => hNe (h.apart j id f e hOld hMoved.found hSame)
      rw [hKeep _ hOther]
      exact h.owns j f hOld
  · intro i j f g hf hg hSame
    rw [hEffects] at hf hg
    rcases Table.get?_set_cases hf with ⟨rfl, rfl⟩ | ⟨hNeF, hOldF⟩
    · rcases Table.get?_set_cases hg with ⟨rfl, -⟩ | ⟨-, hOldG⟩
      · rfl
      · rw [hMoved.reservationId] at hSame
        exact h.apart i j e g hMoved.found hOldG hSame
    · rcases Table.get?_set_cases hg with ⟨rfl, rfl⟩ | ⟨-, hOldG⟩
      · rw [hMoved.reservationId] at hSame
        exact h.apart i j f e hOldF hMoved.found hSame
      · exact h.apart i j f g hOldF hOldG hSame

/-- An effect moves alone, to a state that still fits. -/
theorem move_alone (h : CostCoupling t) {id : Uuid} {e e' : EffectRow}
    (hMoved : EffectMoved t id e e') (hEffects : t'.effects = t.effects.set id e')
    (hBudget : t'.budget = t.budget) (hFits : ∀ r, Fits e r → Fits e' r) : CostCoupling t' := by
  obtain ⟨r, hr, hFit⟩ := h.owns id e hMoved.found
  have hSelf : t'.budget.reservations.get? e.reservationId = some r := by rw [hBudget]; exact hr
  refine h.move hMoved hEffects hSelf (hFits r hFit) fun k _ => ?_
  rw [hBudget]

/-- An effect moves with its reservation. -/
theorem move_both (h : CostCoupling t) {id : Uuid} {e e' : EffectRow} {r r' : Reservation}
    {b' : Budget} (hMoved : EffectMoved t id e e')
    (hAdvanced : Advanced tick t.budget e.reservationId r r' b')
    (hEffects : t'.effects = t.effects.set id e') (hBudget : t'.budget = b')
    (hFits : ∀ r, Fits e r → Fits e' r') : CostCoupling t' := by
  obtain ⟨r₁, -, hFit⟩ := h.owns id e hMoved.found
  have hSelf : t'.budget.reservations.get? e.reservationId = some r' := by
    rw [hBudget, hAdvanced.reservations, Table.get?_set_self hAdvanced.found]
  refine h.move hMoved hEffects hSelf (hFits r₁ hFit) fun k hk => ?_
  rw [hBudget, hAdvanced.reservations, Table.get?_set_ne _ hk]

/-- No open effect has a settled reservation. -/
theorem not_settled (h : CostCoupling t) {id : Uuid} {e : EffectRow} {r : Reservation}
    (hFound : t.effects.get? id = some e) (hState : e.state = .executing ∨ e.state = .reconciling)
    (hr : t.budget.reservations.get? e.reservationId = some r) : r.state ≠ .settled := by
  obtain ⟨r₁, hr₁, hFit⟩ := h.owns id e hFound
  rw [hr] at hr₁
  cases hr₁
  have hCost := hFit.cost
  intro hs
  rw [hs] at hCost
  rcases hState with hState | hState <;> rw [hState] at hCost <;> revert hCost <;> decide

theorem change (h : CostCoupling t) (hChange : Change env tick t a t')
    (hSpares : ∀ r, a = .moveReservation r →
      ∀ id e, t.effects.get? id = some e → e.reservationId ≠ r) : CostCoupling t' := by
  cases hChange with
  | configured j hReservations hLedger =>
    exact h.frame rfl fun id e _ => congrArg (Table.get? · e.reservationId) hReservations
  | reserved j hReserved =>
    refine h.frame rfl fun id e he => ?_
    obtain ⟨r, hr, -⟩ := h.owns id e he
    rw [hr]
    exact Table.insert?_get?_of_some hReserved.inserted hr
  | reservationMoved j hMoved =>
    refine h.frame rfl fun id e he => ?_
    rcases hMoved with rfl | ⟨r, r', hAdvanced⟩
    · rfl
    · rw [hAdvanced.reservations, Table.get?_set_ne _ (hSpares _ rfl id e he)]
  | proposed j hTenant hAdmitted hCreated => exact h.create hCreated (Or.inl rfl) j
  | compensated j hTenant hCompensated hCreated =>
    exact h.create hCreated (Or.inr hCompensated.state) j
  | dispatched j hDispatched =>
    refine h.move_alone hDispatched.toEffectMoved rfl rfl fun r hFit => ?_
    exact hFit.dispatch hDispatched.dispatchable hDispatched.executing hDispatched.counted
      hDispatched.version
  | reconciled j hReconciled =>
    refine h.move_alone hReconciled.toEffectMoved rfl rfl fun r hFit => ?_
    have hCost := hFit.cost
    have hCount := hReconciled.uncounted
    have hTo := hReconciled.reconciling
    have hTransmitted := hFit.transmitted
      (by rcases hReconciled.uncertain with hs | hs <;> rw [hs] <;> rfl)
    refine .resolve (by omega) ?_ (by rw [hTo]; exact fun h => by cases h) (by rw [hTo]; decide)
    rw [hTo]
    rcases hReconciled.uncertain with hs | hs <;> rw [hs] at hCost <;> exact hCost
  | unknown j hResolved hFrom hAdvanced hState =>
    refine h.move_both hResolved.toEffectMoved hAdvanced rfl rfl fun r hFit => ?_
    exact hResolved.fits hFit (by rw [hFrom]; rfl) (by decide) (by rw [hState]; decide)
      fun h => by cases h
  | succeeded j hResolved hFrom hSettled hReceipt hInsert hFree =>
    rcases hSettled with ⟨rfl, r, hr, hs⟩ | ⟨r, r', hAdvanced, hState⟩
    · exact absurd hs (h.not_settled hResolved.found hFrom hr)
    · refine h.move_both hResolved.toEffectMoved hAdvanced rfl rfl fun r hFit => ?_
      exact hResolved.fits hFit (by rcases hFrom with hs | hs <;> rw [hs] <;> rfl) (by decide)
        (by rw [hState]; decide) fun h => by cases h
  | failed j hResolved hFrom hAdvanced hState =>
    refine h.move_both hResolved.toEffectMoved hAdvanced rfl rfl fun r hFit => ?_
    exact hResolved.fits hFit (by rcases hFrom with hs | hs <;> rw [hs] <;> rfl) (by decide)
      (by rw [hState]; decide) fun h => by cases h
  | reauthorized j hResolved hFrom =>
    refine h.move_alone hResolved.toEffectMoved rfl rfl fun r hFit => ?_
    have hCost := hFit.cost
    rw [hFrom] at hCost
    have hUnknown : r.state = .unknown := by simpa [EffectState.costs] using hCost
    exact hResolved.fits hFit (by rw [hFrom]; rfl) (by decide) (by rw [hUnknown]; decide)
      fun _ => hUnknown
  | reviewed j hResolved hFrom =>
    refine h.move_alone hResolved.toEffectMoved rfl rfl fun r hFit => ?_
    have hCost := hFit.cost
    rw [hFrom] at hCost
    exact hResolved.fits hFit (by rw [hFrom]; rfl) (by decide) hCost fun h => by cases h
  | _ => exact h.frame rfl fun _ _ _ => rfl

end CostCoupling

end Costs

/-! ## Receipts -/

def SucceededIn (t : Tables) (id : Uuid) : Prop :=
  ∃ e, t.effects.get? id = some e ∧ e.state = .succeeded

/-- Exactly the succeeded effects have a receipt, and they have one. -/
structure ReceiptCoupling (t : Tables) : Prop where
  given : ∀ id, SucceededIn t id ↔ ∃ k r, t.effectReceipts.get? k = some r ∧ r.effectId = id
  unique : ∀ i j r q, t.effectReceipts.get? i = some r → t.effectReceipts.get? j = some q →
    r.effectId = q.effectId → i = j

section Receipts

variable {env : Env} {tick : Tick} {t t' : Tables} {a : Act}

/-- Only the recording of a success makes an effect succeed, and nothing undoes it. -/
theorem EffectView.succeeded_iff {id : Uuid} (h : EffectView env tick id a t t')
    (hAct : a ≠ .recordSucceeded id) : SucceededIn t' id ↔ SucceededIn t id := by
  cases h with
  | same hRow _ =>
    unfold SucceededIn
    rw [hRow]
  | created hNone hRow hNew _ _ =>
    constructor
    · rintro ⟨f, hf, hs⟩
      cases hRow.symm.trans hf
      have hDispatchable := hNew.dispatchable
      rw [hs] at hDispatchable
      cases hDispatchable
    · rintro ⟨f, hf, -⟩
      cases hNone.symm.trans hf
  | @moved e e' hMoved hRow hStep =>
    have hBefore : e.state ≠ .succeeded := by
      intro hs
      cases hStep with
      | dispatch hFrom _ _ =>
        rw [hs] at hFrom
        cases hFrom
      | reconcile hFrom _ _ | succeeded hFrom _ _ | failed hFrom _ _ =>
        rcases hFrom with hFrom | hFrom <;> cases hs.symm.trans hFrom
      | unknown hFrom _ _ | reauthorize hFrom _ _ | review hFrom _ _ => cases hs.symm.trans hFrom
    have hAfter : e'.state ≠ .succeeded := by
      intro hs
      cases hStep with
      | succeeded _ _ _ => exact hAct rfl
      | dispatch _ hTo _ | reconcile _ hTo _ | unknown _ hTo _ | failed _ hTo _
      | reauthorize _ hTo _ | review _ hTo _ => cases hs.symm.trans hTo
    constructor
    · rintro ⟨f, hf, hs⟩
      cases hRow.symm.trans hf
      exact absurd hs hAfter
    · rintro ⟨f, hf, hs⟩
      cases hMoved.found.symm.trans hf
      exact absurd hs hBefore

namespace ReceiptCoupling

theorem frame (h : ReceiptCoupling t) (hReceipts : t'.effectReceipts = t.effectReceipts)
    (hSame : ∀ id, SucceededIn t' id ↔ SucceededIn t id) : ReceiptCoupling t' where
  given id := by rw [hSame, hReceipts]; exact h.given id
  unique := by rw [hReceipts]; exact h.unique

/-- A success comes with the receipt of its effect. -/
theorem record (h : ReceiptCoupling t) {id k : Uuid} {receipt : EffectReceiptRow}
    {receipts : Table Uuid EffectReceiptRow} (hReceipt : receipt.effectId = id)
    (hInsert : t.effectReceipts.insert? k receipt = some receipts)
    (hFree : ∀ k r, t.effectReceipts.get? k = some r → r.effectId ≠ id)
    (hReceipts : t'.effectReceipts = receipts) (hSelf : SucceededIn t' id)
    (hOther : ∀ i, i ≠ id → (SucceededIn t' i ↔ SucceededIn t i)) : ReceiptCoupling t' := by
  subst hReceipts
  constructor
  · intro i
    by_cases hi : i = id
    · subst hi
      exact ⟨fun _ => ⟨k, receipt, Table.insert?_get?_self hInsert, hReceipt⟩, fun _ => hSelf⟩
    · rw [hOther i hi, h.given i]
      constructor
      · rintro ⟨j, r, hr, hId⟩
        exact ⟨j, r, Table.insert?_get?_of_some hInsert hr, hId⟩
      · rintro ⟨j, r, hr, hId⟩
        rcases Table.insert?_get?_cases hInsert hr with ⟨-, rfl⟩ | ⟨-, hOld⟩
        · exact absurd (hId.symm.trans hReceipt) hi
        · exact ⟨j, r, hOld, hId⟩
  · intro i j r q hr hq hSame
    rcases Table.insert?_get?_cases hInsert hr with ⟨rfl, rfl⟩ | ⟨-, hOldR⟩
    · rcases Table.insert?_get?_cases hInsert hq with ⟨rfl, -⟩ | ⟨-, hOldQ⟩
      · rfl
      · exact absurd (hSame.symm.trans hReceipt) (hFree j q hOldQ)
    · rcases Table.insert?_get?_cases hInsert hq with ⟨-, rfl⟩ | ⟨-, hOldQ⟩
      · exact absurd (hSame.trans hReceipt) (hFree i r hOldR)
      · exact h.unique i j r q hOldR hOldQ hSame

theorem change (h : ReceiptCoupling t) (hChange : Change env tick t a t') : ReceiptCoupling t' := by
  have hViews : ∀ id, a ≠ .recordSucceeded id → (SucceededIn t' id ↔ SucceededIn t id) :=
    fun id hAct => (hChange.effect id).succeeded_iff hAct
  cases hChange with
  | @succeeded id e e' b' receipts receipt j hResolved hFrom hSettled hReceipt hInsert hFree =>
    refine h.record hReceipt hInsert hFree rfl ?_ fun i hi => hViews i ?_
    · exact ⟨e', Table.get?_set_self hResolved.found e', hResolved.state⟩
    · exact fun hAct => hi (Act.recordSucceeded.inj hAct).symm
  | _ => exact h.frame rfl fun id => hViews id (by simp)

end ReceiptCoupling

end Receipts

/-! ## Transmission -/

/-- The effect was executing in some state of the past. -/
def Executed (id : Uuid) (past : List SystemEvent) : Prop :=
  ∃ event ∈ past, ∃ e, event.after.tables.effects.get? id = some e ∧ e.state = .executing

/-- The transmit count says whether the effect was ever executing. -/
def CountsExecution (id : Uuid) (past : List SystemEvent) (s : Store) : Prop :=
  match s.tables.effects.get? id with
  | none => ¬Executed id past
  | some e => 0 ≤ e.transmitCount ∧ (Executed id past ↔ e.transmitCount ≠ 0) ∧
    (e.state = .executing → e.transmitCount ≠ 0)

theorem executed_concat {id : Uuid} {past : List SystemEvent} {event : SystemEvent} :
    Executed id (past ++ [event]) ↔ Executed id past ∨
      ∃ e, event.after.tables.effects.get? id = some e ∧ e.state = .executing := by
  simp [Executed, or_and_right, exists_or]

theorem CountsExecution.of_some {id : Uuid} {past : List SystemEvent} {s : Store} {e : EffectRow}
    (h : CountsExecution id past s) (hRow : s.tables.effects.get? id = some e) :
    0 ≤ e.transmitCount ∧ (Executed id past ↔ e.transmitCount ≠ 0) ∧
      (e.state = .executing → e.transmitCount ≠ 0) := by
  unfold CountsExecution at h
  rw [hRow] at h
  exact h

theorem CountsExecution.step {env : Env} {catalogue : Catalogue} (id : Uuid)
    (past : List SystemEvent) (s : Store) (c : Call) (h : CountsExecution id past s) :
    CountsExecution id (past ++ [Machine.eventAt (step env catalogue) s c])
      (step env catalogue s c).1 := by
  -- a step that leaves the row alone
  have hFrame : (Masonwing.step env catalogue s c).1.tables.effects.get? id =
      s.tables.effects.get? id →
      CountsExecution id (past ++ [Machine.eventAt (Masonwing.step env catalogue) s c])
        (Masonwing.step env catalogue s c).1 := by
    intro hRow
    unfold CountsExecution at h ⊢
    rw [executed_concat]
    change match (Masonwing.step env catalogue s c).1.tables.effects.get? id with
      | none => ¬(_ ∨ ∃ e, (Masonwing.step env catalogue s c).1.tables.effects.get? id = some e ∧ _)
      | some e => _ ∧ (_ ∨ (∃ e, (Masonwing.step env catalogue s c).1.tables.effects.get? id =
          some e ∧ _) ↔ _) ∧ _
    rw [hRow]
    cases hRow' : s.tables.effects.get? id with
    | none =>
      rw [hRow'] at h
      simpa using h
    | some e =>
      rw [hRow'] at h
      obtain ⟨hNonneg, hIff, hExecuting⟩ := h
      refine ⟨hNonneg, ⟨?_, fun hc => Or.inl (hIff.mpr hc)⟩, hExecuting⟩
      rintro (hPast | ⟨f, hf, hs⟩)
      · exact hIff.mp hPast
      · cases hf
        exact hExecuting hs
  rcases step_effect env catalogue s c id with ⟨-, hSame⟩ | ⟨a, hDid, hView⟩
  · exact hFrame (by rw [hSame])
  · cases hView with
    | same hRow hAct => exact hFrame hRow
    | @created e hNone hRow hNew hAct hBorn =>
      unfold CountsExecution at h ⊢
      rw [hNone] at h
      rw [hRow, executed_concat]
      have hNot : e.state ≠ .executing := by
        intro hs
        have hDispatchable := hNew.dispatchable
        rw [hs] at hDispatchable
        cases hDispatchable
      refine ⟨by rw [hNew.untransmitted], ?_, fun hs => absurd hs hNot⟩
      rw [hNew.untransmitted]
      refine ⟨?_, fun hc => absurd rfl hc⟩
      rintro (hPast | ⟨f, hf, hs⟩)
      · exact absurd hPast h
      · cases hRow.symm.trans hf
        exact absurd hs hNot
    | @moved e e' hMoved hRow hStep =>
      obtain ⟨hNonneg, hIff, -⟩ := h.of_some hMoved.found
      unfold CountsExecution
      rw [hRow, executed_concat]
      -- the transitions other than a dispatch do not lead to execution and do not count
      have hOther : e'.state ≠ .executing → e'.transmitCount = e.transmitCount →
          0 ≤ e'.transmitCount ∧ (Executed id past ∨ (∃ f,
            (Machine.eventAt (Masonwing.step env catalogue) s c).after.tables.effects.get? id =
              some f ∧ f.state = .executing) ↔ e'.transmitCount ≠ 0) ∧
          (e'.state = .executing → e'.transmitCount ≠ 0) := by
        intro hNot hCount
        rw [hCount]
        refine ⟨hNonneg, ⟨?_, fun hc => Or.inl (hIff.mpr hc)⟩, fun hs => absurd hs hNot⟩
        rintro (hPast | ⟨f, hf, hs⟩)
        · exact hIff.mp hPast
        · cases hRow.symm.trans hf
          exact absurd hs hNot
      cases hStep with
      | dispatch hFrom hTo hCount =>
        have hPositive : e'.transmitCount ≠ 0 := by omega
        refine ⟨by omega, ⟨fun _ => hPositive, fun _ => Or.inr ⟨e', hRow, hTo⟩⟩, fun _ => hPositive⟩
      | reconcile _ hTo hCount | unknown _ hTo hCount | succeeded _ hTo hCount
      | failed _ hTo hCount | reauthorize _ hTo hCount | review _ hTo hCount =>
        exact hOther (by rw [hTo]; decide) hCount

/-! ## Whole runs -/

/-- A tenant without effects and reservations, and so without entries of the ledger and receipts
of effects, which refer to them. -/
structure Tables.Untouched (t : Tables) : Prop where
  effects : ∀ k, t.effects.get? k = none
  reservations : ∀ k, t.budget.reservations.get? k = none
  ledger : ∀ k, t.budget.ledger.get? k = none
  receipts : ∀ k, t.effectReceipts.get? k = none

namespace Tables.Untouched

variable {t : Tables}

theorem costCoupling (h : t.Untouched) : CostCoupling t where
  owns id e he := by rw [h.effects id] at he; cases he
  apart i j e f he := by rw [h.effects i] at he; cases he

theorem receiptCoupling (h : t.Untouched) : ReceiptCoupling t where
  given id := by
    constructor
    · rintro ⟨e, he, -⟩
      rw [h.effects id] at he
      cases he
    · rintro ⟨k, r, hr, -⟩
      rw [h.receipts k] at hr
      cases hr
  unique i j r q hr := by rw [h.receipts i] at hr; cases hr

end Tables.Untouched

/-- The step lemma of both couplings. -/
theorem step_coupling {env : Env} {catalogue : Catalogue} {s : Store} {c : Call}
    (h : CostCoupling s.tables ∧ ReceiptCoupling s.tables)
    (hSpares : SparesEffects (Machine.eventAt (step env catalogue) s c)) :
    CostCoupling (step env catalogue s c).1.tables ∧
      ReceiptCoupling (step env catalogue s c).1.tables := by
  rcases step_change env catalogue s c with ⟨-, hSame⟩ | ⟨a, hDid, hChange⟩
  · rw [hSame]
    exact h
  · refine ⟨h.1.change hChange ?_, h.2.change hChange⟩
    rintro r rfl
    exact hSpares r hDid

theorem run_coupling {env : Env} {catalogue : Catalogue} {s : Store} {calls : List Call}
    (hStart : s.tables.Untouched)
    (hSpares : ∀ event ∈ Machine.trace (step env catalogue) s calls, SparesEffects event) :
    CostCoupling (Machine.run (step env catalogue) s calls).tables ∧
      ReceiptCoupling (Machine.run (step env catalogue) s calls).tables :=
  Machine.run_invariant_of (step env catalogue)
    (I := fun s => CostCoupling s.tables ∧ ReceiptCoupling s.tables)
    (fun _ _ h hP => step_coupling h hP) ⟨hStart.costCoupling, hStart.receiptCoupling⟩ hSpares

/-- Effect, reservation and receipt stay coupled: after every run from a tenant without effects,
in which the budget operations of runs leave the reservations of effects alone. -/
theorem effect_reservation_receipt_coupled (env : Env) (catalogue : Catalogue) (s : Store)
    (calls : List Call) (hStart : s.tables.Untouched)
    (hSpares : ∀ event ∈ Machine.trace (step env catalogue) s calls, SparesEffects event) :
    let t := (Machine.run (step env catalogue) s calls).tables
    (∀ id e, t.effects.get? id = some e →
      ∃ r, t.budget.reservations.get? e.reservationId = some r ∧
        (e.state = .succeeded ↔ r.state = .settled) ∧
        (e.state = .succeeded ↔
          ∃! k, ∃ receipt, t.effectReceipts.get? k = some receipt ∧ receipt.effectId = id) ∧
        (e.state = .failedConfirmed ↔ r.state = .released) ∧
        (e.state = .outcomeUnknown ∨ e.state = .reconciling ∨ e.state = .manualReview →
          r.state = .unknown) ∧
        (e.state = .prepared → r.state = .reserved) ∧
        (e.state = .authorized ∨ e.state = .executing → r.state = .reserved ∨ r.state = .unknown) ∧
        (e.transmitCount = 0 ↔ ¬Executed id (Machine.trace (step env catalogue) s calls))) ∧
    ∀ i j e f, t.effects.get? i = some e → t.effects.get? j = some f →
      e.reservationId = f.reservationId → i = j := by
  intro t
  obtain ⟨hCosts, hReceipts⟩ := run_coupling hStart hSpares
  refine ⟨fun id e he => ?_, hCosts.apart⟩
  obtain ⟨r, hr, hFit⟩ := hCosts.owns id e he
  have hFits := hFit.cost
  have hExecution : CountsExecution id (Machine.trace (step env catalogue) s calls)
      (Machine.run (step env catalogue) s calls) := by
    refine Machine.history (step env catalogue) (CountsExecution.step id) ?_ calls
    unfold CountsExecution
    rw [hStart.effects id]
    rintro ⟨event, hMem, -⟩
    cases hMem
  obtain ⟨-, hIff, -⟩ := hExecution.of_some he
  refine ⟨r, hr, ?_, ?_, ?_, ?_, ?_, ?_, ?_⟩
  · revert hFits
    cases e.state <;> cases r.state <;> decide
  · have hGiven : e.state = .succeeded ↔ SucceededIn t id := by
      constructor
      · exact fun hs => ⟨e, he, hs⟩
      · rintro ⟨f, hf, hs⟩
        cases he.symm.trans hf
        exact hs
    rw [hGiven, hReceipts.given id]
    constructor
    · rintro ⟨k, receipt, hk, hId⟩
      refine ⟨k, ⟨receipt, hk, hId⟩, ?_⟩
      rintro j ⟨other, hj, hOther⟩
      exact hReceipts.unique j k other receipt hj hk (hOther.trans hId.symm)
    · rintro ⟨k, ⟨receipt, hk, hId⟩, -⟩
      exact ⟨k, receipt, hk, hId⟩
  · revert hFits
    cases e.state <;> cases r.state <;> decide
  · revert hFits
    cases e.state <;> cases r.state <;> decide
  · revert hFits
    cases e.state <;> cases r.state <;> decide
  · revert hFits
    cases e.state <;> cases r.state <;> decide
  · rw [hIff, not_not]

/-- A run without budget operations of its own spares the effects. -/
theorem spares_of_calls {env : Env} {catalogue : Catalogue} {s : Store} {calls : List Call}
    (h : ∀ c ∈ calls, ∀ r, c.operation.act ≠ some (.moveReservation r)) :
    ∀ event ∈ Machine.trace (step env catalogue) s calls, SparesEffects event := by
  intro event hEvent r hDid
  obtain ⟨before, after, hCalls, -⟩ := Machine.mem_trace (step env catalogue) hEvent
  have hMem : event.call ∈ calls := by
    rw [hCalls]
    exact List.mem_append_right _ List.mem_cons_self
  exact absurd hDid.2 (h event.call hMem r)

theorem Sample.secondLap_acts :
    ∀ c ∈ Sample.secondLap, ∀ r, c.operation.act ≠ some (.moveReservation r) := by
  simp [Sample.secondLap, Sample.propose, Sample.dispatch, Sample.reconcile, Sample.command,
    Sample.system, Operation.act, CommandInput.act, SystemCall.act, ReconciliationEvidence.act]

theorem Sample.secondLap_spares :
    ∀ event ∈ Sample.events Sample.secondLap, SparesEffects event := by
  unfold Sample.events
  exact spares_of_calls Sample.secondLap_acts

theorem Sample.untouched : Sample.tables.Untouched :=
  ⟨fun _ => rfl, fun _ => rfl, fun _ => rfl, fun _ => rfl⟩

/-- The coupling for an effect that is transmitted twice. -/
theorem coupled_secondLap :
    Sample.tables.Untouched ∧
    ∀ e, (Sample.after Sample.secondLap).tables.effects.get? (Sample.effectOf 1) = some e →
    ∃ r, (Sample.after Sample.secondLap).tables.budget.reservations.get? e.reservationId = some r ∧
      (e.state = .succeeded ↔ r.state = .settled) := by
  unfold Sample.after
  refine ⟨Sample.untouched, ?_⟩
  intro e he
  obtain ⟨r, hr, hSettled, -⟩ := (effect_reservation_receipt_coupled Sample.env Sample.catalogue
    Sample.store Sample.secondLap Sample.untouched Sample.secondLap_spares).1 _ e he
  exact ⟨r, hr, hSettled⟩

end Masonwing
