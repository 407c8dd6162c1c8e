import Masonwing.Lib.Machine
import Masonwing.Proofs.BudgetSteps

/-!
# Conservation of the budget

The five ledger operations as a machine, in any order and with any arguments, and the
invariant `Conserved` that ties the counters of the accounts and the entries of the
append-only ledger to the reservations. Each operation keeps it (`Conserved.reserve`,
`Conserved.advance`, `Conserved.frame`), so it holds after every run from an empty ledger.
-/

namespace Masonwing

open Outcome

/-! ## The machine -/

/-- One call of the ledger. The runs that the foreign key of a reservation can see belong to
the call. -/
inductive BudgetCall where
  | reserve (tick : Tick) (runExists : Uuid → Bool) (request : ReserveRequest)
  | settle (tick : Tick) (id : Uuid) (used : Int) (usageFingerprint : Option String)
  | markUnknown (tick : Tick) (id : Uuid)
  | release (tick : Tick) (id : Uuid)
  | configure (tick : Tick) (currency period : String) (limit expected : Int)

def runBudgetCall (tenant : Uuid) (b : Budget) : BudgetCall → Result (Budget × Mutation)
  | .reserve tick runExists q => reserveBudget tick tenant runExists b q
  | .settle tick id used fingerprint => settleBudget tick tenant b id used fingerprint
  | .markUnknown tick id => markCostUnknown tick tenant b id
  | .release tick id => releaseBudget tick tenant b id
  | .configure tick currency period limit expected =>
    configureBudget tick tenant b currency period limit expected

def budgetStep (tenant : Uuid) (b : Budget) (c : BudgetCall) : Budget × Result Mutation :=
  transact b (runBudgetCall tenant b c)

/-! ## The invariant -/

/-- What a reservation holds on an account. -/
def holdOn (key : String) (_ : Uuid) (r : Reservation) : Int :=
  if r.state = .reserved ∨ r.state = .unknown then r.upperBound * r.accountKeys.count key else 0

/-- What a reservation has charged to an account. -/
def chargeOn (key : String) (_ : Uuid) (r : Reservation) : Int :=
  if r.state = .settled then r.settled.getD 0 * r.accountKeys.count key else 0

def heldEntry (id : Uuid) (_ : Uuid) (e : CostEvent) : Int :=
  if e.reservationId = id then e.heldDelta else 0

def chargedEntry (id : Uuid) (_ : Uuid) (e : CostEvent) : Int :=
  if e.reservationId = id then e.chargedDelta else 0

structure Conserved (b : Budget) : Prop where
  held : ∀ k, heldOf b.accounts k = b.reservations.sum (holdOn k)
  charged : ∀ k, chargedOf b.accounts k = b.reservations.sum (chargeOn k)
  covered : ∀ id r, b.reservations.get? id = some r →
    ∀ k ∈ r.accountKeys, b.accounts.contains k = true
  entries : ∀ j e, b.ledger.get? j = some e → b.reservations.contains e.reservationId = true
  heldEntries : ∀ id r, b.reservations.get? id = some r →
    b.ledger.sum (heldEntry id) = if r.state.holds then r.upperBound else 0
  chargedEntries : ∀ id r, b.reservations.get? id = some r →
    b.ledger.sum (chargedEntry id) = r.settled.getD 0

theorem CostState.holds_iff (s : CostState) :
    s.holds = true ↔ s = .reserved ∨ s = .unknown := by
  cases s <;> simp [holds]

theorem holdOn_eq (key : String) (id : Uuid) (r : Reservation) :
    holdOn key id r = (if r.state.holds then r.upperBound else 0) * r.accountKeys.count key := by
  unfold holdOn
  by_cases h : r.state.holds = true
  · rw [if_pos ((CostState.holds_iff _).mp h), if_pos h]
  · rw [if_neg (fun h' => h ((CostState.holds_iff _).mpr h')), if_neg h, zero_mul]

theorem chargeOn_eq (key : String) (id : Uuid) (r : Reservation) :
    chargeOn key id r = r.settled.getD 0 * r.accountKeys.count key := by
  unfold chargeOn
  split
  · rfl
  · rename_i h
    rw [Reservation.settled_eq_none h]
    simp

namespace Conserved

theorem empty : Conserved Budget.empty := by
  refine ⟨fun k => rfl, fun k => rfl, ?_, ?_, ?_, ?_⟩ <;>
    · intro _ _ h
      cases h

/-- Changing limits and settings changes nothing of the invariant. -/
theorem frame {b b' : Budget} (hb : Conserved b) (hReservations : b'.reservations = b.reservations)
    (hLedger : b'.ledger = b.ledger) (hMoves : Moves b.accounts b'.accounts 0 0 []) :
    Conserved b' where
  held k := by rw [hMoves.held, hb.held, hReservations]; simp
  charged k := by rw [hMoves.charged, hb.charged, hReservations]; simp
  covered id r hr k hk := hMoves.keeps k (hb.covered id r (hReservations ▸ hr) k hk)
  entries j e he := by rw [hReservations]; exact hb.entries j e (hLedger ▸ he)
  heldEntries id r hr := by rw [hLedger]; exact hb.heldEntries id r (hReservations ▸ hr)
  chargedEntries id r hr := by rw [hLedger]; exact hb.chargedEntries id r (hReservations ▸ hr)

/-- No entry of the ledger belongs to a reservation that is not there yet. -/
theorem sum_entries_absent {b : Budget} (hb : Conserved b) {id : Uuid}
    (hNone : b.reservations.get? id = none) :
    b.ledger.sum (heldEntry id) = 0 ∧ b.ledger.sum (chargedEntry id) = 0 := by
  have hOther : ∀ j e, b.ledger.get? j = some e → e.reservationId ≠ id := by
    rintro j e he rfl
    obtain ⟨r, hr⟩ := Table.contains_iff.mp (hb.entries j e he)
    rw [hNone] at hr
    cases hr
  constructor <;> refine Table.sum_eq_zero fun j e he => ?_
  · rw [heldEntry, if_neg (hOther j e he)]
  · rw [chargedEntry, if_neg (hOther j e he)]

theorem reserve {tick : Tick} {b b' : Budget} {q : ReserveRequest} {row : Reservation}
    (hb : Conserved b) (h : Reserved tick b q row b') : Conserved b' := by
  obtain ⟨currency, hRow⟩ := h.request
  have hHolds : row.state.holds = true := by rw [hRow]; rfl
  have hBound : row.upperBound = q.upperBound := by rw [hRow]; rfl
  have hKeys : row.accountKeys = q.accountKeys := by rw [hRow]; rfl
  have hSettled : row.settled = none := by rw [hRow]; rfl
  have hNone := (Table.insert?_eq_some h.inserted).1
  obtain ⟨hHeld, hCharged⟩ := hb.sum_entries_absent hNone
  refine ⟨fun k => ?_, fun k => ?_, ?_, ?_, ?_, ?_⟩
  · rw [h.moves.held, hb.held, Table.sum_insert? h.inserted, holdOn_eq, if_pos hHolds, hBound,
      hKeys]
  · rw [h.moves.charged, hb.charged, Table.sum_insert? h.inserted, chargeOn_eq, hSettled]
    simp
  · intro id r hr k hk
    rcases Table.insert?_get?_cases h.inserted hr with ⟨-, rfl⟩ | ⟨-, hOld⟩
    · exact h.opened k (hKeys ▸ hk)
    · exact h.moves.keeps k (hb.covered id r hOld k hk)
  · intro j e he
    rcases Table.insert?_get?_cases h.logged he with ⟨-, rfl⟩ | ⟨-, hOld⟩
    · exact Table.contains_iff.mpr ⟨row, Table.insert?_get?_self h.inserted⟩
    · obtain ⟨r, hr⟩ := Table.contains_iff.mp (hb.entries j e hOld)
      exact Table.contains_iff.mpr ⟨r, Table.insert?_get?_of_some h.inserted hr⟩
  · intro id r hr
    rw [Table.sum_insert? h.logged]
    rcases Table.insert?_get?_cases h.inserted hr with ⟨rfl, rfl⟩ | ⟨hne, hOld⟩
    · rw [hHeld, heldEntry, if_pos rfl, if_pos hHolds, hBound]
      ring
    · rw [hb.heldEntries id r hOld, heldEntry, if_neg (Ne.symm hne), add_zero]
  · intro id r hr
    rw [Table.sum_insert? h.logged]
    rcases Table.insert?_get?_cases h.inserted hr with ⟨rfl, rfl⟩ | ⟨hne, hOld⟩
    · rw [hCharged, chargedEntry, if_pos rfl, hSettled]
      rfl
    · rw [hb.chargedEntries id r hOld, chargedEntry, if_neg (Ne.symm hne), add_zero]

theorem advance {tick : Tick} {b b' : Budget} {id : Uuid} {r r' : Reservation}
    (hb : Conserved b) (h : Advanced tick b id r r' b') : Conserved b' := by
  have hHolds : r.state.holds = true := CostState.edge_holds h.edge
  have hOpen : r.settled = none :=
    Reservation.settled_eq_none fun hs => by rw [hs] at hHolds; cases hHolds
  have hMoves := h.moves (hb.covered id r h.found)
  obtain ⟨fingerprint, hLogged⟩ := h.logged
  -- the new hold is the old one plus the delta, in both cases of the next state
  have hDelta : (if r'.state.holds = true then r.upperBound else 0) =
      r.upperBound + if r'.state.holds = true then 0 else -r.upperBound := by
    split <;> omega
  refine ⟨fun k => ?_, fun k => ?_, ?_, ?_, ?_, ?_⟩
  · rw [hMoves.held, hb.held, h.reservations, Table.sum_set h.found, holdOn_eq, holdOn_eq,
      if_pos hHolds, h.bound, h.keys, hDelta]
    ring
  · rw [hMoves.charged, hb.charged, h.reservations, Table.sum_set h.found, chargeOn_eq,
      chargeOn_eq, hOpen, h.keys]
    simp
  · intro j s hs k hk
    rw [h.reservations] at hs
    rcases Table.get?_set_cases hs with ⟨-, rfl⟩ | ⟨-, hOld⟩
    · exact hMoves.keeps k (hb.covered id r h.found k (h.keys ▸ hk))
    · exact hMoves.keeps k (hb.covered j s hOld k hk)
  · intro j e he
    rw [h.reservations, Table.contains_iff]
    rcases Table.insert?_get?_cases hLogged he with ⟨-, rfl⟩ | ⟨-, hOld⟩
    · exact ⟨r', Table.get?_set_self h.found r'⟩
    · obtain ⟨s, hs⟩ := Table.contains_iff.mp (hb.entries j e hOld)
      rw [Table.get?_set, hs]
      split
      · exact ⟨r', rfl⟩
      · exact ⟨s, rfl⟩
  · intro j s hs
    rw [h.reservations] at hs
    rw [Table.sum_insert? hLogged]
    rcases Table.get?_set_cases hs with ⟨rfl, rfl⟩ | ⟨hne, hOld⟩
    · rw [hb.heldEntries j r h.found, if_pos hHolds, heldEntry, if_pos rfl, h.bound, hDelta]
    · rw [hb.heldEntries j s hOld, heldEntry, if_neg (Ne.symm hne), add_zero]
  · intro j s hs
    rw [h.reservations] at hs
    rw [Table.sum_insert? hLogged]
    rcases Table.get?_set_cases hs with ⟨rfl, rfl⟩ | ⟨hne, hOld⟩
    · rw [hb.chargedEntries j r h.found, hOpen, chargedEntry, if_pos rfl]
      simp
    · rw [hb.chargedEntries j s hOld, chargedEntry, if_neg (Ne.symm hne), add_zero]

/-! ## Every call keeps the invariant -/

theorem settleBudget {tick : Tick} {tenant : Uuid} {b b' : Budget} {id : Uuid} {used : Int}
    {fingerprint : Option String} {m : Mutation} (hb : Conserved b)
    (h : settleBudget tick tenant b id used fingerprint = .ok (b', m)) : Conserved b' := by
  rcases settleBudget_ok h with ⟨rfl, -⟩ | ⟨r, r', hAdvanced, -, -⟩
  · exact hb
  · exact hb.advance hAdvanced

theorem runBudgetCall {tenant : Uuid} {b b' : Budget} {c : BudgetCall} {m : Mutation}
    (hb : Conserved b) (h : runBudgetCall tenant b c = .ok (b', m)) : Conserved b' := by
  cases c with
  | reserve tick runExists q =>
    obtain ⟨row, hReserved, -, -⟩ := reserveBudget_ok h
    exact hb.reserve hReserved
  | settle tick id used fingerprint => exact hb.settleBudget h
  | markUnknown tick id =>
    obtain ⟨r, r', hAdvanced, -, -⟩ := markCostUnknown_ok h
    exact hb.advance hAdvanced
  | release tick id =>
    obtain ⟨r, r', hAdvanced, -⟩ := releaseBudget_ok h
    exact hb.advance hAdvanced
  | configure tick currency period limit expected =>
    obtain ⟨hReservations, hLedger, hMoves⟩ := configureBudget_ok h
    exact hb.frame hReservations hLedger hMoves

theorem run (tenant : Uuid) (calls : List BudgetCall) :
    Conserved (Machine.run (budgetStep tenant) Budget.empty calls) :=
  Machine.run_invariant (budgetStep tenant)
    (fun _ _ hb => transact_invariant hb fun _ _ h => hb.runBudgetCall h) empty calls

end Conserved

/-- Budget ledger conservation: whatever calls were made, in whatever order, the hold of an
account is the sum of the bounds of the reservations that are still open on it, its charge is
the sum of the settled amounts, both stay within the limit, and the ledger entries of every
reservation add up to the same hold and charge. -/
theorem budget_ledger_conservation (tenant : Uuid) (calls : List BudgetCall) :
    let b := Machine.run (budgetStep tenant) Budget.empty calls
    (∀ key a, b.accounts.get? key = some a →
      a.held = b.reservations.sum (holdOn key) ∧
      a.charged = b.reservations.sum (chargeOn key) ∧
      0 ≤ a.held ∧ 0 ≤ a.charged ∧ a.held + a.charged ≤ a.limit) ∧
    ∀ id r, b.reservations.get? id = some r →
      b.ledger.sum (heldEntry id) =
        (if r.state = .reserved ∨ r.state = .unknown then r.upperBound else 0) ∧
      b.ledger.sum (chargedEntry id) = r.settled.getD 0 := by
  intro b
  have hb : Conserved b := Conserved.run tenant calls
  constructor
  · intro key a ha
    have hHeld : heldOf b.accounts key = a.held := by rw [heldOf, ha]; rfl
    have hCharged : chargedOf b.accounts key = a.charged := by rw [chargedOf, ha]; rfl
    obtain ⟨-, hHeldNonneg, hChargedNonneg, hWithin⟩ := a.checked
    refine ⟨?_, ?_, hHeldNonneg, hChargedNonneg, by omega⟩
    · rw [← hHeld, hb.held]
    · rw [← hCharged, hb.charged]
  · intro id r hr
    refine ⟨?_, hb.chargedEntries id r hr⟩
    rw [hb.heldEntries id r hr]
    simp only [CostState.holds_iff]

end Masonwing
