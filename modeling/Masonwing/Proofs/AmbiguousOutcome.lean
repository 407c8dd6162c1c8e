import Masonwing.Proofs.EffectCoupling
import Masonwing.Proofs.Evaluation

/-!
# Recording an ambiguous outcome

`record_effect_unknown` moves the effect and its reservation together. The reservation has an
edge to `UNKNOWN` only from `RESERVED`, so the operation works during the first transmission of
an effect and fails during every later one, where the reservation is unknown already.

* `Recordable`: the invariant of the rows that the operation reads;
* `recordEffectUnknown_first`, `recordEffectUnknown_again`: the operation in the two cases;
* `ambiguous_outcome_recordable_iff`: the two cases over every run.
-/

namespace Masonwing

open Outcome

/-! ## The ledger of an open reservation -/

/-- Every entry belongs to a reservation, and one that is still reserved has no other entry than
that of its creation. -/
def LedgerOrder (b : Budget) : Prop :=
  ∀ k entry, b.ledger.get? k = some entry →
    ∃ r, b.reservations.get? entry.reservationId = some r ∧
      (r.state = .reserved → entry.eventType = .reserved)

namespace LedgerOrder

variable {tick : Tick} {b b' : Budget}

theorem frame (h : LedgerOrder b) (hReservations : b'.reservations = b.reservations)
    (hLedger : b'.ledger = b.ledger) : LedgerOrder b' := by
  intro k entry hEntry
  rw [hLedger] at hEntry
  rw [hReservations]
  exact h k entry hEntry

theorem reserve (h : LedgerOrder b) {q : ReserveRequest} {row : Reservation}
    (hReserved : Reserved tick b q row b') : LedgerOrder b' := by
  intro k entry hEntry
  rcases Table.insert?_get?_cases hReserved.logged hEntry with ⟨-, rfl⟩ | ⟨-, hOld⟩
  · exact ⟨row, Table.insert?_get?_self hReserved.inserted, fun _ => rfl⟩
  · obtain ⟨r, hr, hFirst⟩ := h k entry hOld
    exact ⟨r, Table.insert?_get?_of_some hReserved.inserted hr, hFirst⟩

theorem advance (h : LedgerOrder b) {id : Uuid} {r r' : Reservation}
    (hAdvanced : Advanced tick b id r r' b') : LedgerOrder b' := by
  obtain ⟨fingerprint, hLogged⟩ := hAdvanced.logged
  -- no edge leads back to a reservation that is only reserved
  have hMoved : r'.state ≠ .reserved := by
    have hEdge := hAdvanced.edge
    intro hs
    rw [hs] at hEdge
    revert hEdge
    cases r.state <;> decide
  intro k entry hEntry
  rw [hAdvanced.reservations]
  rcases Table.insert?_get?_cases hLogged hEntry with ⟨-, rfl⟩ | ⟨-, hOld⟩
  · exact ⟨r', Table.get?_set_self hAdvanced.found r', fun hs => absurd hs hMoved⟩
  · obtain ⟨q, hq, hFirst⟩ := h k entry hOld
    by_cases hId : entry.reservationId = id
    · rw [hId]
      exact ⟨r', Table.get?_set_self hAdvanced.found r', fun hs => absurd hs hMoved⟩
    · exact ⟨q, by rw [Table.get?_set_ne _ hId]; exact hq, hFirst⟩

end LedgerOrder

/-! ## The invariant -/

/-- What `record_effect_unknown` relies on. -/
structure Recordable (t : Tables) : Prop where
  coupling : CostCoupling t
  ledger : LedgerOrder t.budget
  tenant : ∀ id e, t.effects.get? id = some e → t.identity.tenantActive = true

theorem Tables.Untouched.recordable {t : Tables} (h : t.Untouched) : Recordable t where
  coupling := h.costCoupling
  ledger k entry hEntry := by rw [h.ledger k] at hEntry; cases hEntry
  tenant id e he := by rw [h.effects id] at he; cases he

theorem LedgerOrder.change {env : Env} {tick : Tick} {t t' : Tables} {a : Act}
    (h : LedgerOrder t.budget) (hChange : Change env tick t a t') : LedgerOrder t'.budget := by
  cases hChange with
  | configured j hReservations hLedger => exact h.frame hReservations hLedger
  | reserved j hReserved => exact h.reserve hReserved
  | reservationMoved j hMoved =>
    rcases hMoved with rfl | ⟨r, r', hAdvanced⟩
    · exact h
    · exact h.advance hAdvanced
  | proposed j hTenant hAdmitted hCreated =>
    obtain ⟨row, hReserved⟩ := hCreated.reserved
    exact h.reserve hReserved
  | compensated j hTenant hCompensated hCreated =>
    obtain ⟨row, hReserved⟩ := hCreated.reserved
    exact h.reserve hReserved
  | unknown j hResolved hFrom hAdvanced hState => exact h.advance hAdvanced
  | failed j hResolved hFrom hAdvanced hState => exact h.advance hAdvanced
  | succeeded j hResolved hFrom hSettled hReceipt hInsert hFree =>
    rcases hSettled with ⟨rfl, -⟩ | ⟨r, r', hAdvanced, -⟩
    · exact h
    · exact h.advance hAdvanced
  | _ => exact h

/-- Effects exist only for an active tenant: no operation creates one otherwise. -/
theorem tenant_change {env : Env} {tick : Tick} {t t' : Tables} {a : Act}
    (h : ∀ id e, t.effects.get? id = some e → t.identity.tenantActive = true)
    (hChange : Change env tick t a t') :
    ∀ id e, t'.effects.get? id = some e → t'.identity.tenantActive = true := by
  intro id e he
  have hView := hChange.effect id
  have hIdentity : t'.identity = t.identity := by cases hChange <;> rfl
  rw [hIdentity]
  cases hView with
  | same hRow hAct =>
    rw [hRow] at he
    exact h id e he
  | moved hMoved hRow hStep => exact h id _ hMoved.found
  | created hNone hRow hNew hAct hBorn => exact hBorn.tenant

theorem Recordable.run {env : Env} {catalogue : Catalogue} {s : Store} {calls : List Call}
    (hStart : s.tables.Untouched)
    (hSpares : ∀ event ∈ Machine.trace (step env catalogue) s calls, SparesEffects event) :
    Recordable (Machine.run (step env catalogue) s calls).tables := by
  refine Machine.run_invariant_of (step env catalogue) (I := fun s => Recordable s.tables) ?_
    hStart.recordable hSpares
  intro s c h hSpare
  rcases step_change env catalogue s c with ⟨-, hSame⟩ | ⟨a, hDid, hChange⟩
  · rw [hSame]
    exact h
  · refine ⟨h.coupling.change hChange ?_, h.ledger.change hChange, tenant_change h.tenant hChange⟩
    rintro r rfl
    exact hSpare r hDid

/-! ## The operation -/

section Operation

variable {env : Env} {tick : Tick} {t : Tables} {id : Uuid} {e : EffectRow} {r : Reservation}

/-- A reservation that is still reserved can be marked unknown. -/
theorem markCostUnknown_reserved (tenant : Uuid) {b : Budget} {rid : Uuid}
    (hLedger : LedgerOrder b) (hFound : b.reservations.get? rid = some r)
    (hState : r.state = .reserved) (hVersion : r.version.val = 1)
    (hFresh : b.ledger.get? (tick.draw .costEvent) = none) :
    ∃ b' m, markCostUnknown tick tenant b rid = .ok (b', m) := by
  have hNext : r.version.next? = some ⟨2, by decide, by decide⟩ := by
    have hLt : r.version.val < maxI32 := by rw [hVersion]; decide
    rw [Version.next?, dif_pos hLt]
    simp [hVersion]
  have hSettled : r.settled = none := Reservation.settled_eq_none (by rw [hState]; decide)
  let row : ReservationRow :=
    { r.toReservationRow with state := .unknown, version := ⟨2, by decide, by decide⟩ }
  have hRow : row.WellFormed := by
    refine ⟨r.checked.1, r.checked.2.1, ?_⟩
    simp [row, hSettled]
  obtain ⟨ledger, hInsert⟩ := Table.insert?_isSome_iff.mpr hFresh
  have hEvent : insertCostEvent tick { b with reservations := b.reservations.set rid ⟨row, hRow⟩ }
      rid .unknown 0 0 none =
      .ok { b with reservations := b.reservations.set rid ⟨row, hRow⟩, ledger } := by
    refine insertCostEvent_eq_ok.mpr ⟨?_, ?_, ledger, hInsert, rfl⟩
    · rintro j entry hEntry ⟨hId, hType⟩
      obtain ⟨q, hq, hFirst⟩ := hLedger j entry hEntry
      rw [hId, hFound] at hq
      cases hq
      rw [hType] at hFirst
      cases hFirst hState
    · exact Table.contains_iff.mpr ⟨_, Table.get?_set_self hFound _⟩
  simp only [markCostUnknown, bind_eq_ok, okOr_eq_ok, requireCostTransition, require_eq_ok,
    sql_eq_ok, pure_eq_ok, Version.bump_eq_ok, exists_const, Prod.mk.injEq]
  exact ⟨_, _, r, hFound, by rw [hState]; rfl, _, hNext, _, Reservation.check_of_wellFormed hRow,
    _, hEvent, rfl, rfl⟩

variable (env) in
/-- The first transmission: the operation succeeds. -/
theorem recordEffectUnknown_first (h : Recordable t) (hFound : t.effects.get? id = some e)
    (hState : e.state = .executing) (hCount : e.transmitCount = 1)
    (hFresh : t.budget.ledger.get? (tick.draw .costEvent) = none) :
    ∃ t' m, recordEffectUnknown env tick t id = .ok (t', m) := by
  obtain ⟨r, hr, hFit⟩ := h.coupling.owns id e hFound
  have hLap := hFit.lap
  unfold Lap at hLap
  rw [hState] at hLap
  rcases hLap with ⟨-, hVersion, hReserved, hFirst⟩ | ⟨hMore, -⟩
  · have hNext : e.version.next? = some ⟨3, by decide, by decide⟩ := by
      have hLt : e.version.val < maxI32 := by rw [hVersion]; decide
      rw [Version.next?, dif_pos hLt]
      simp [hVersion]
    obtain ⟨b', m, hMark⟩ := markCostUnknown_reserved t.identity.tenantId h.ledger hr hReserved
      hFirst hFresh
    simp only [recordEffectUnknown, bind_eq_ok, require_eq_ok, okOr_eq_ok, beginSystem_eq_ok,
      Version.bump_eq_ok, pure_eq_ok, exists_const, Prod.exists, Prod.mk.injEq]
    exact ⟨_, _, h.tenant id e hFound, e, hFound, hState, _, hNext, b', m, hMark, rfl, rfl⟩
  · omega

variable (env tick) in
/-- Every later transmission: the reservation is unknown already, and there is no edge. -/
theorem recordEffectUnknown_again (h : Recordable t) (hFound : t.effects.get? id = some e)
    (hState : e.state = .executing) (hCount : e.transmitCount ≠ 1) :
    ∀ t' m, recordEffectUnknown env tick t id ≠ .ok (t', m) := by
  intro t' m hOk
  obtain ⟨f, f', r, r', b', hResolved, -, hAdvanced, hUnknown, -, -⟩ := recordEffectUnknown_ok hOk
  cases hFound.symm.trans hResolved.found
  obtain ⟨q, hq, hFit⟩ := h.coupling.owns id e hFound
  cases hAdvanced.found.symm.trans hq
  have hLap := hFit.lap
  unfold Lap at hLap
  rw [hState] at hLap
  rcases hLap with ⟨hOne, -⟩ | ⟨-, hAlready⟩
  · exact hCount hOne
  · have hEdge := hAdvanced.edge
    rw [hAlready, hUnknown] at hEdge
    cases hEdge

end Operation

/-! ## Whole runs -/

/-- `record_effect_unknown` succeeds: the effect is left `OUTCOME_UNKNOWN`, its reservation
`UNKNOWN`, and its hold is counted as before. -/
def RecordsUnknown (env : Env) (catalogue : Catalogue) (s : Store) (tick : Tick) (id : Uuid) :
    Prop :=
  let next := step env catalogue s { tick, operation := .system (.recordEffectUnknown id) }
  commits next.2 = true ∧
    (∃ e, next.1.tables.effects.get? id = some e ∧ e.state = .outcomeUnknown ∧
      ∃ r, next.1.tables.budget.reservations.get? e.reservationId = some r ∧ r.state = .unknown) ∧
    next.1.tables.budget.accounts = s.tables.budget.accounts

section Runs

variable {env : Env} {catalogue : Catalogue} {s : Store} {tick : Tick} {id : Uuid}

theorem step_recordEffectUnknown {t' : Tables} {m : Mutation}
    (h : recordEffectUnknown env tick s.tables id = .ok (t', m)) :
    step env catalogue s { tick, operation := .system (.recordEffectUnknown id) } =
      ({ s with tables := t' }, .ok (.mutation m)) := by
  simp only [step, runOperation, runSystemCall, withMutation, h]
  rfl

theorem step_recordEffectUnknown_error {failure : CommandFailure}
    (h : recordEffectUnknown env tick s.tables id = .error failure) :
    step env catalogue s { tick, operation := .system (.recordEffectUnknown id) } =
      (s, .error failure) := by
  simp only [step, runOperation, runSystemCall, withMutation, h]
  rfl

theorem recordsUnknown_of_ok {t' : Tables} {m : Mutation}
    (h : recordEffectUnknown env tick s.tables id = .ok (t', m)) :
    RecordsUnknown env catalogue s tick id := by
  obtain ⟨e, e', r, r', b', hResolved, -, hAdvanced, hUnknown, hAccounts, hTables⟩ :=
    recordEffectUnknown_ok h
  unfold RecordsUnknown
  rw [step_recordEffectUnknown h, hTables]
  refine ⟨rfl, ⟨e', Table.get?_set_self hResolved.found e', hResolved.state, r', ?_, hUnknown⟩,
    hAccounts⟩
  rw [hAdvanced.reservations, hResolved.reservationId]
  exact Table.get?_set_self hAdvanced.found r'

/-- In a reached state the operation works exactly for first transmissions. -/
theorem recordsUnknown_iff {e : EffectRow} (h : Recordable s.tables)
    (hFound : s.tables.effects.get? id = some e) (hState : e.state = .executing)
    (hFresh : s.tables.budget.ledger.get? (tick.draw .costEvent) = none) :
    RecordsUnknown env catalogue s tick id ↔ e.transmitCount = 1 := by
  constructor
  · intro hRecords
    by_contra hCount
    have hNot := recordEffectUnknown_again env tick h hFound hState hCount
    cases hResult : recordEffectUnknown env tick s.tables id with
    | ok p => exact hNot p.1 p.2 hResult
    | error failure =>
      unfold RecordsUnknown at hRecords
      rw [step_recordEffectUnknown_error hResult] at hRecords
      cases hRecords.1
  · intro hCount
    obtain ⟨t', m, hOk⟩ := recordEffectUnknown_first env h hFound hState hCount hFresh
    exact recordsUnknown_of_ok hOk

theorem not_recordsUnknown (h : commits (step env catalogue s
    { tick, operation := .system (.recordEffectUnknown id) }).2 = false) :
    ¬RecordsUnknown env catalogue s tick id := by
  intro hRecords
  cases h.symm.trans hRecords.1

/-- The dispatch of an effect that was transmitted before. -/
def Redispatches (event : SystemEvent) : Prop :=
  ∃ id e, event.did (.dispatch id) ∧ event.before.tables.effects.get? id = some e ∧
    e.transmitCount ≠ 0

/-- Without a redispatch no effect is transmitted more than once. -/
theorem transmitted_once {calls : List Call}
    (hStart : ∀ k, s.tables.effects.get? k = none)
    (hFirst : ∀ event ∈ Machine.trace (step env catalogue) s calls, ¬Redispatches event) :
    ∀ id e, (Machine.run (step env catalogue) s calls).tables.effects.get? id = some e →
      e.transmitCount ≤ 1 := by
  refine Machine.run_invariant_of (step env catalogue)
    (I := fun s => ∀ id e, s.tables.effects.get? id = some e → e.transmitCount ≤ 1) ?_
    (fun id e he => by rw [hStart id] at he; cases he) hFirst
  intro s c h hNot id e he
  rcases step_effect env catalogue s c id with ⟨-, hSame⟩ | ⟨a, hDid, hView⟩
  · rw [hSame] at he
    exact h id e he
  · cases hView with
    | same hRow hAct =>
      rw [hRow] at he
      exact h id e he
    | created hNone hRow hNew hAct hBorn =>
      cases hRow.symm.trans he
      rw [hNew.untransmitted]
      decide
    | @moved f f' hMoved hRow hStep =>
      cases hRow.symm.trans he
      have hBefore := h id f hMoved.found
      cases hStep with
      | dispatch hFrom hTo hCount =>
        have hZero : f.transmitCount = 0 := by
          by_contra hMore
          exact hNot ⟨id, f, hDid, hMoved.found, hMore⟩
        omega
      | reconcile _ _ hCount | unknown _ _ hCount | succeeded _ _ hCount | failed _ _ hCount
      | reauthorize _ _ hCount | review _ _ hCount => omega

end Runs

/-- When an ambiguous outcome can be recorded. After every run from a tenant without effects, in
which the budget operations of runs leave the reservations of effects alone, an effect that is
executing can be recorded as unknown if and only if this is its first transmission; so in a run
without a redispatch every executing effect can. The identifier of the new ledger entry has to be
a new one. -/
theorem ambiguous_outcome_recordable_iff (env : Env) (catalogue : Catalogue) (s : Store)
    (calls : List Call) (hStart : s.tables.Untouched)
    (hSpares : ∀ event ∈ Machine.trace (step env catalogue) s calls, SparesEffects event) :
    let reached := Machine.run (step env catalogue) s calls
    (∀ id e, reached.tables.effects.get? id = some e → e.state = .executing →
      ∀ tick : Tick, reached.tables.budget.ledger.get? (tick.draw .costEvent) = none →
      (RecordsUnknown env catalogue reached tick id ↔ e.transmitCount = 1)) ∧
    ((∀ event ∈ Machine.trace (step env catalogue) s calls, ¬Redispatches event) →
      ∀ id e, reached.tables.effects.get? id = some e → e.state = .executing →
      ∀ tick : Tick, reached.tables.budget.ledger.get? (tick.draw .costEvent) = none →
      RecordsUnknown env catalogue reached tick id) := by
  intro reached
  have hReached : Recordable reached.tables := Recordable.run hStart hSpares
  refine ⟨fun id e he hState tick hFresh => recordsUnknown_iff hReached he hState hFresh, ?_⟩
  intro hFirst id e he hState tick hFresh
  rw [recordsUnknown_iff hReached he hState hFresh]
  have hOnce := transmitted_once hStart.effects hFirst id e he
  obtain ⟨r, -, hFit⟩ := hReached.coupling.owns id e he
  have hSome := hFit.transmitted (by rw [hState]; rfl)
  omega

/-- The first transmission of the sample effect. -/
theorem recordable_firstLap :
    Sample.tables.Untouched ∧
    ∀ id e, (Sample.after (Sample.secondLap.take 2)).tables.effects.get? id = some e →
      e.state = .executing →
    ∀ tick : Tick, (Sample.after (Sample.secondLap.take 2)).tables.budget.ledger.get?
      (tick.draw .costEvent) = none →
    (RecordsUnknown Sample.env Sample.catalogue (Sample.after (Sample.secondLap.take 2)) tick id ↔
      e.transmitCount = 1) := by
  unfold Sample.after
  refine ⟨Sample.untouched, (ambiguous_outcome_recordable_iff Sample.env Sample.catalogue
    Sample.store (Sample.secondLap.take 2) Sample.untouched ?_).1⟩
  apply spares_of_calls
  intro c hc
  exact Sample.secondLap_acts c (List.mem_of_mem_take hc)

/-- An effect that is transmitted for the second time, whose timeout cannot be recorded: the
reservation is `UNKNOWN` since the first. -/
theorem ambiguous_outcome_unrecordable :
    Sample.tables.Untouched ∧
    (∀ event ∈ Sample.events Sample.secondLap, SparesEffects event) ∧
    (∃ e, (Sample.after Sample.secondLap).tables.effects.get? (Sample.effectOf 1) = some e ∧
      e.state = .executing) ∧
    (Sample.after Sample.secondLap).tables.budget.ledger.get? ((Sample.tick 7).draw .costEvent) =
      none ∧
    ¬RecordsUnknown Sample.env Sample.catalogue (Sample.after Sample.secondLap) (Sample.tick 7)
      (Sample.effectOf 1) := by
  have hRun : ((Sample.after Sample.secondLap).tables.effects.get? (Sample.effectOf 1)).map
        (·.state) = some .executing ∧
      (Sample.after Sample.secondLap).tables.budget.ledger.contains
        ((Sample.tick 7).draw .costEvent) = false ∧
      commits (step Sample.env Sample.catalogue (Sample.after Sample.secondLap)
        { tick := Sample.tick 7,
          operation := .system (.recordEffectUnknown (Sample.effectOf 1)) }).2 = false := by
    simp only [Sample.after, step_bytewise, Sample.env_bytewise]
    decide +kernel
  obtain ⟨hState, hFresh, hRefused⟩ := hRun
  refine ⟨Sample.untouched, Sample.secondLap_spares, Option.map_eq_some_iff.mp hState, ?_, ?_⟩
  · exact Table.get?_eq_none_of_not_contains hFresh
  · exact not_recordsUnknown hRefused

end Masonwing
