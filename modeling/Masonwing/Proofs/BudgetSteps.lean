import Masonwing.Store.Budget

/-!
# What one budget operation does

Each operation of the ledger, read back from a successful call. An account is seen through
`heldOf` and `chargedOf`, which are `0` for an account that is not there, so opening an
account and adding to one are the same movement. `Moves` is the movement of a list of
accounts, with the multiplicity of each key.

* `reserveBudget_ok`, `settleBudget_ok`, `markCostUnknown_ok`, `releaseBudget_ok` and
  `configureBudget_ok` are the inversions every later proof starts from;
* `Advanced` is what the three operations on an existing reservation have in common.
-/

namespace Masonwing

open Outcome

/-! ## Movements of accounts -/

def heldOf (accounts : Accounts) (key : String) : Int :=
  ((accounts.get? key).map fun a => a.held).getD 0

def chargedOf (accounts : Accounts) (key : String) : Int :=
  ((accounts.get? key).map fun a => a.charged).getD 0

/-- Every account moves by the deltas, once for each occurrence of its key. -/
structure Moves (before after : Accounts) (heldDelta chargedDelta : Int) (keys : List String) :
    Prop where
  held : ∀ k, heldOf after k = heldOf before k + heldDelta * keys.count k
  charged : ∀ k, chargedOf after k = chargedOf before k + chargedDelta * keys.count k
  keeps : ∀ k, before.contains k = true → after.contains k = true

namespace Moves

theorem refl (accounts : Accounts) (heldDelta chargedDelta : Int) :
    Moves accounts accounts heldDelta chargedDelta [] :=
  ⟨fun k => by simp, fun k => by simp, fun _ h => h⟩

theorem trans {a b c : Accounts} {dh dc : Int} {xs ys : List String} (h₁ : Moves a b dh dc xs)
    (h₂ : Moves b c dh dc ys) : Moves a c dh dc (xs ++ ys) where
  held k := by
    rw [h₂.held, h₁.held, List.count_append]
    push_cast
    ring
  charged k := by
    rw [h₂.charged, h₁.charged, List.count_append]
    push_cast
    ring
  keeps k h := h₂.keeps k (h₁.keeps k h)

/-- A fold of single movements is the movement of the whole list. -/
theorem foldlM {f : Accounts → String → Result Accounts} {dh dc : Int} {keys : List String}
    (hStep : ∀ key ∈ keys, ∀ a a', f a key = .ok a' → Moves a a' dh dc [key])
    {a a' : Accounts} (h : keys.foldlM f a = .ok a') : Moves a a' dh dc keys := by
  induction keys generalizing a with
  | nil =>
    cases h
    exact refl _ dh dc
  | cons key keys ih =>
    rw [List.foldlM_cons, bind_eq_ok] at h
    obtain ⟨b, hb, hRest⟩ := h
    have hHead := hStep key List.mem_cons_self a b hb
    have hTail := ih (fun k hk => hStep k (List.mem_cons_of_mem _ hk)) hRest
    exact hHead.trans hTail

/-- Replacing one account by a moved one. -/
theorem of_set {accounts : Accounts} {key : String} {a a' : Account} {dh dc : Int}
    (hGet : accounts.get? key = some a) (hHeld : a'.held = a.held + dh)
    (hCharged : a'.charged = a.charged + dc) :
    Moves accounts (accounts.set key a') dh dc [key] := by
  refine ⟨fun k => ?_, fun k => ?_, fun k h => ?_⟩
  · by_cases hk : k = key
    · subst hk
      simp [heldOf, Table.get?_set_self hGet, hGet, hHeld]
    · have hne : key ≠ k := fun h => hk h.symm
      simp [heldOf, Table.get?_set_ne _ hk, hne]
  · by_cases hk : k = key
    · subst hk
      simp [chargedOf, Table.get?_set_self hGet, hGet, hCharged]
    · have hne : key ≠ k := fun h => hk h.symm
      simp [chargedOf, Table.get?_set_ne _ hk, hne]
  · obtain ⟨r, hr⟩ := Table.contains_iff.mp h
    by_cases hk : k = key
    · subst hk
      exact Table.contains_iff.mpr ⟨a', Table.get?_set_self hGet a'⟩
    · exact Table.contains_iff.mpr ⟨r, by rw [Table.get?_set_ne _ hk, hr]⟩

/-- Opening one account. -/
theorem of_insert {accounts accounts' : Accounts} {key : String} {a : Account}
    (hInsert : accounts.insert? key a = some accounts') (hCharged : a.charged = 0) :
    Moves accounts accounts' a.held 0 [key] := by
  have hNone := (Table.insert?_eq_some hInsert).1
  refine ⟨fun k => ?_, fun k => ?_, fun k h => ?_⟩
  · by_cases hk : k = key
    · subst hk
      simp [heldOf, Table.insert?_get?_self hInsert, hNone]
    · have hne : key ≠ k := fun h => hk h.symm
      simp [heldOf, Table.insert?_get? hInsert, hk, hne]
  · by_cases hk : k = key
    · subst hk
      simp [chargedOf, Table.insert?_get?_self hInsert, hNone, hCharged]
    · simp [chargedOf, Table.insert?_get? hInsert, hk]
  · obtain ⟨r, hr⟩ := Table.contains_iff.mp h
    exact Table.contains_iff.mpr ⟨r, Table.insert?_get?_of_some hInsert hr⟩

end Moves

theorem holdAccount_moves {settings : Table (Currency × Period) Setting} {currency : String}
    {bound : Int} {accounts accounts' : Accounts} {key : String}
    (h : holdAccount settings currency bound accounts key = .ok accounts') :
    Moves accounts accounts' bound 0 [key] ∧ accounts'.contains key = true := by
  unfold holdAccount at h
  split at h
  · rename_i a hGet
    simp only [bind_eq_ok, mapError_eq_ok, pure_eq_ok] at h
    obtain ⟨a', hMove, rfl⟩ := h
    obtain ⟨hHeld, hCharged⟩ := Account.move_eq_ok hMove
    exact ⟨Moves.of_set hGet hHeld hCharged,
      Table.contains_iff.mpr ⟨a', Table.get?_set_self hGet a'⟩⟩
  · simp only [bind_eq_ok, mapError_eq_ok, insertRow_eq_ok] at h
    obtain ⟨seed, -, a, hCheck, hInsert⟩ := h
    have hRow := Account.check_eq_ok hCheck
    have hHeld : a.held = bound := by rw [hRow]
    have hCharged : a.charged = 0 := by rw [hRow]
    refine ⟨?_, Table.contains_iff.mpr ⟨a, Table.insert?_get?_self hInsert⟩⟩
    rw [← hHeld]
    exact Moves.of_insert hInsert hCharged

/-- The hold of a reservation reaches every one of its accounts. -/
theorem holdAccounts_moves {settings : Table (Currency × Period) Setting} {currency : String}
    {bound : Int} {accounts accounts' : Accounts} {keys : List String}
    (h : keys.foldlM (holdAccount settings currency bound) accounts = .ok accounts') :
    Moves accounts accounts' bound 0 keys ∧ ∀ k ∈ keys, accounts'.contains k = true := by
  refine ⟨Moves.foldlM (fun key _ a a' ha => (holdAccount_moves ha).1) h, ?_⟩
  induction keys generalizing accounts with
  | nil => simp
  | cons key keys ih =>
    rw [List.foldlM_cons, bind_eq_ok] at h
    obtain ⟨b, hb, hRest⟩ := h
    have hKeeps := (Moves.foldlM (fun k _ a a' ha => (holdAccount_moves ha).1) hRest).keeps
    intro k hk
    rcases List.mem_cons.mp hk with rfl | hk
    · exact hKeeps _ (holdAccount_moves hb).2
    · exact ih hRest k hk

theorem adjustAccount_moves {heldDelta chargedDelta : Int} {accounts accounts' : Accounts}
    {key : String} (hKey : accounts.contains key = true)
    (h : adjustAccount heldDelta chargedDelta accounts key = .ok accounts') :
    Moves accounts accounts' heldDelta chargedDelta [key] := by
  obtain ⟨a, hGet⟩ := Table.contains_iff.mp hKey
  unfold adjustAccount at h
  rw [hGet] at h
  simp only [bind_eq_ok, sql_eq_ok, pure_eq_ok] at h
  obtain ⟨a', hMove, rfl⟩ := h
  obtain ⟨hHeld, hCharged⟩ := Account.move_eq_ok hMove
  exact Moves.of_set hGet hHeld hCharged

theorem adjustAccounts_moves {heldDelta chargedDelta : Int} {accounts accounts' : Accounts}
    {keys : List String} (hKeys : ∀ k ∈ keys, accounts.contains k = true)
    (h : keys.foldlM (adjustAccount heldDelta chargedDelta) accounts = .ok accounts') :
    Moves accounts accounts' heldDelta chargedDelta keys := by
  induction keys generalizing accounts with
  | nil =>
    cases h
    exact Moves.refl _ heldDelta chargedDelta
  | cons key keys ih =>
    rw [List.foldlM_cons, bind_eq_ok] at h
    obtain ⟨b, hb, hRest⟩ := h
    have hHead := adjustAccount_moves (hKeys key List.mem_cons_self) hb
    have hTail := ih (fun k hk => hHead.keeps k (hKeys k (List.mem_cons_of_mem _ hk))) hRest
    exact hHead.trans hTail

/-! ## The ledger -/

theorem insertCostEvent_eq_ok {tick : Tick} {b b' : Budget} {id : Uuid} {eventType : CostState}
    {heldDelta chargedDelta : Int} {fingerprint : Option String} :
    insertCostEvent tick b id eventType heldDelta chargedDelta fingerprint = .ok b' ↔
      (∀ j e, b.ledger.get? j = some e → ¬(e.reservationId = id ∧ e.eventType = eventType)) ∧
      b.reservations.contains id = true ∧
      ∃ ledger, b.ledger.insert? (tick.draw .costEvent)
          { reservationId := id, eventType, heldDelta, chargedDelta,
            usageFingerprint := fingerprint, createdAt := tick.now } = some ledger ∧
        b' = { b with ledger } := by
  simp only [insertCostEvent, bind_eq_ok, require_eq_ok, sql_eq_ok, insertRow_eq_ok, pure_eq_ok,
    Table.any_eq_false_iff, decide_eq_false_iff_not, exists_const]
  constructor
  · rintro ⟨hUnique, ledger, hInsert, hKey, rfl⟩
    exact ⟨hUnique, hKey, ledger, hInsert, rfl⟩
  · rintro ⟨hUnique, hKey, ledger, hInsert, rfl⟩
    exact ⟨hUnique, ledger, hInsert, hKey, rfl⟩

/-! ## Reserving -/

/-- What a successful reservation leaves behind. -/
structure Reserved (tick : Tick) (b : Budget) (q : ReserveRequest) (row : Reservation)
    (b' : Budget) : Prop where
  positive : 0 < q.upperBound
  moves : Moves b.accounts b'.accounts q.upperBound 0 q.accountKeys
  opened : ∀ k ∈ q.accountKeys, b'.accounts.contains k = true
  settings : b'.settings = b.settings
  request : ∃ currency, row.toReservationRow = q.row tick currency
  unique : ∀ j r, b.reservations.get? j = some r →
    ¬(r.runId = q.runId ∧ r.logicalCallId = q.logicalCallId)
  inserted : b.reservations.insert? (tick.draw .reservation) row = some b'.reservations
  logged : b.ledger.insert? (tick.draw .costEvent)
    { reservationId := tick.draw .reservation, eventType := .reserved, heldDelta := q.upperBound,
      chargedDelta := 0, usageFingerprint := none, createdAt := tick.now } = some b'.ledger

theorem reserveBudget_ok {tick : Tick} {tenant : Uuid} {runExists : Uuid → Bool} {b b' : Budget}
    {q : ReserveRequest} {m : Mutation}
    (h : reserveBudget tick tenant runExists b q = .ok (b', m)) :
    ∃ row, Reserved tick b q row b' ∧ runExists q.runId = true ∧
      m.primary = resourceRef "CostReservation" (tick.draw .reservation) .one := by
  simp only [reserveBudget, bind_eq_ok, require_eq_ok, sql_eq_ok, insertRow_eq_ok, okOr_eq_ok,
    pure_eq_ok, Table.any_eq_false_iff, decide_eq_false_iff_not, exists_const, Prod.mk.injEq] at h
  obtain ⟨hPos, accounts, hHold, currency, -, row, hRow, hUnique, reservations, hInsert, hRun,
    b'', hEvent, rfl, rfl⟩ := h
  obtain ⟨-, -, ledger, hLedger, rfl⟩ := insertCostEvent_eq_ok.mp hEvent
  obtain ⟨hMoves, hOpened⟩ := holdAccounts_moves hHold
  exact ⟨row, ⟨hPos, hMoves, hOpened, rfl, ⟨currency, Reservation.check_eq_ok hRow⟩, hUnique,
    hInsert, hLedger⟩, hRun, rfl⟩

/-! ## Moving an existing reservation -/

/-- What a successful transition of an existing reservation leaves behind: the hold is given
back unless the next state keeps it, and the settled amount is charged. -/
structure Advanced (tick : Tick) (b : Budget) (id : Uuid) (r r' : Reservation) (b' : Budget) :
    Prop where
  found : b.reservations.get? id = some r
  edge : r.state.edge r'.state = true
  bound : r'.upperBound = r.upperBound
  keys : r'.accountKeys = r.accountKeys
  call : r'.runId = r.runId ∧ r'.logicalCallId = r.logicalCallId
  version : r.version.next? = some r'.version
  moves : (∀ k ∈ r.accountKeys, b.accounts.contains k = true) →
    Moves b.accounts b'.accounts (if r'.state.holds then 0 else -r.upperBound)
      (r'.settled.getD 0) r.accountKeys
  settings : b'.settings = b.settings
  reservations : b'.reservations = b.reservations.set id r'
  fresh : ∀ j e, b.ledger.get? j = some e → ¬(e.reservationId = id ∧ e.eventType = r'.state)
  logged : ∃ fingerprint, b.ledger.insert? (tick.draw .costEvent)
    { reservationId := id, eventType := r'.state,
      heldDelta := if r'.state.holds then 0 else -r.upperBound,
      chargedDelta := r'.settled.getD 0, usageFingerprint := fingerprint,
      createdAt := tick.now } = some b'.ledger

theorem Version.bump_eq_ok {v w : Version} : v.bump = .ok w ↔ v.next? = some w := okOr_eq_ok

theorem closeReservation_ok {tick : Tick} {tenant : Uuid} {b b' : Budget} {id : Uuid}
    {r : Reservation} {changed : ReservationRow} {heldDelta chargedDelta : Int}
    {fingerprint : Option String} {label : String} {m : Mutation}
    (h : closeReservation tick tenant b id r changed heldDelta chargedDelta fingerprint label =
      .ok (b', m))
    (hFound : b.reservations.get? id = some r) (hEdge : r.state.edge changed.state = true)
    (hSame : changed.upperBound = r.upperBound ∧ changed.accountKeys = r.accountKeys ∧
      changed.runId = r.runId ∧ changed.logicalCallId = r.logicalCallId)
    (hHeld : heldDelta = if changed.state.holds then 0 else -r.upperBound)
    (hCharged : chargedDelta = changed.settled.getD 0) :
    ∃ r', Advanced tick b id r r' b' ∧ r'.state = changed.state ∧ r'.settled = changed.settled := by
  simp only [closeReservation, bind_eq_ok, sql_eq_ok, pure_eq_ok, Version.bump_eq_ok,
    Prod.mk.injEq] at h
  obtain ⟨accounts, hAccounts, version, hVersion, r', hRow, b'', hEvent, rfl, rfl⟩ := h
  obtain ⟨hFresh, -, ledger, hLedger, rfl⟩ := insertCostEvent_eq_ok.mp hEvent
  have hr' := Reservation.check_eq_ok hRow
  have hState : r'.state = changed.state := by rw [hr']
  have hSettled : r'.settled = changed.settled := by rw [hr']
  subst hHeld hCharged
  refine ⟨r', ⟨hFound, hState ▸ hEdge, ?_, ?_, ?_, ?_, ?_, rfl, rfl, ?_, fingerprint, ?_⟩, hState,
    hSettled⟩
  · rw [hr']; exact hSame.1
  · rw [hr']; exact hSame.2.1
  · rw [hr']; exact hSame.2.2
  · rw [hr']; exact hVersion
  · intro hKeys
    rw [hState, hSettled]
    exact adjustAccounts_moves hKeys hAccounts
  · rw [hState]; exact hFresh
  · rw [hState, hSettled]; exact hLedger

/-- A settlement repeats one that was made, or closes an open hold. -/
theorem settleBudget_ok {tick : Tick} {tenant : Uuid} {b b' : Budget} {id : Uuid} {used : Int}
    {fingerprint : Option String} {m : Mutation}
    (h : settleBudget tick tenant b id used fingerprint = .ok (b', m)) :
    (b' = b ∧ ∃ r, b.reservations.get? id = some r ∧ r.state = .settled) ∨
      ∃ r r', Advanced tick b id r r' b' ∧ r'.state = .settled ∧ r'.settled = some used := by
  simp only [settleBudget, bind_eq_ok, okOr_eq_ok] at h
  obtain ⟨r, hFound, h⟩ := h
  split at h
  · rename_i hState
    simp only [settleAgain, bind_eq_ok, require_eq_ok, pure_eq_ok, Prod.mk.injEq,
      exists_const] at h
    obtain ⟨-, rfl, -⟩ := h
    exact Or.inl ⟨rfl, r, hFound, hState⟩
  · simp only [settleOpen, bind_eq_ok, requireCostTransition, require_eq_ok, exists_const] at h
    obtain ⟨hEdge, -, hClose⟩ := h
    obtain ⟨r', hAdvanced, hState, hSettled⟩ :=
      closeReservation_ok hClose hFound hEdge ⟨rfl, rfl, rfl, rfl⟩ rfl rfl
    exact Or.inr ⟨r, r', hAdvanced, hState, hSettled⟩

theorem Reservation.settled_eq_none {r : Reservation} (h : r.state ≠ .settled) :
    r.settled = none := by
  have hIff := r.checked.2.2
  cases hs : r.settled with
  | none => rfl
  | some used => exact absurd (hIff.mpr (by rw [hs]; rfl)) h

theorem releaseBudget_ok {tick : Tick} {tenant : Uuid} {b b' : Budget} {id : Uuid} {m : Mutation}
    (h : releaseBudget tick tenant b id = .ok (b', m)) :
    ∃ r r', Advanced tick b id r r' b' ∧ r'.state = .released := by
  simp only [releaseBudget, bind_eq_ok, okOr_eq_ok, requireCostTransition, require_eq_ok,
    exists_const] at h
  obtain ⟨r, hFound, hEdge, hClose⟩ := h
  have hOpen : r.state ≠ .settled := by
    intro hs
    rw [hs] at hEdge
    cases hEdge
  have hNone := Reservation.settled_eq_none hOpen
  obtain ⟨r', hAdvanced, hState, -⟩ :=
    closeReservation_ok hClose hFound hEdge ⟨rfl, rfl, rfl, rfl⟩ rfl (by rw [hNone]; rfl)
  exact ⟨r, r', hAdvanced, hState⟩

theorem Moves.of_zero (accounts : Accounts) (keys : List String) :
    Moves accounts accounts 0 0 keys :=
  ⟨fun k => by simp, fun k => by simp, fun _ h => h⟩

theorem markCostUnknown_ok {tick : Tick} {tenant : Uuid} {b b' : Budget} {id : Uuid}
    {m : Mutation} (h : markCostUnknown tick tenant b id = .ok (b', m)) :
    ∃ r r', Advanced tick b id r r' b' ∧ r'.state = .unknown ∧ b'.accounts = b.accounts := by
  simp only [markCostUnknown, bind_eq_ok, okOr_eq_ok, requireCostTransition, require_eq_ok,
    sql_eq_ok, pure_eq_ok, Version.bump_eq_ok, exists_const, Prod.mk.injEq] at h
  obtain ⟨r, hFound, hEdge, version, hVersion, r', hRow, b'', hEvent, rfl, rfl⟩ := h
  obtain ⟨hFresh, -, ledger, hLedger, rfl⟩ := insertCostEvent_eq_ok.mp hEvent
  have hr' := Reservation.check_eq_ok hRow
  have hState : r'.state = .unknown := by rw [hr']
  have hNone : r'.settled = none := Reservation.settled_eq_none (by rw [hState]; decide)
  refine ⟨r, r', ⟨hFound, ?_, ?_, ?_, ?_, ?_, ?_, rfl, rfl, ?_, none, ?_⟩, hState, rfl⟩
  · rw [hState]; exact hEdge
  · rw [hr']
  · rw [hr']
  · rw [hr']; exact ⟨rfl, rfl⟩
  · rw [hr']; exact hVersion
  · intro _
    rw [hState, hNone]
    exact Moves.of_zero _ _
  · rw [hState]; exact hFresh
  · rw [hState, hNone]; exact hLedger

/-! ## Configuring -/

/-- A configuration changes settings and limits only. -/
theorem configureBudget_ok {tick : Tick} {tenant : Uuid} {b b' : Budget}
    {currency period : String} {limit expected : Int} {m : Mutation}
    (h : configureBudget tick tenant b currency period limit expected = .ok (b', m)) :
    b'.reservations = b.reservations ∧ b'.ledger = b.ledger ∧
      Moves b.accounts b'.accounts 0 0 [] := by
  simp only [configureBudget, bind_eq_ok, sql_eq_ok, require_eq_ok, pure_eq_ok, Prod.mk.injEq,
    exists_const] at h
  obtain ⟨c, -, p, -, settings, -, current, -, version, -, -, row, -, accounts, hUpdate, rfl,
    -⟩ := h
  have hKeep : ∀ k, (b.accounts.get? k = none ∧ accounts.get? k = none) ∨
      ∃ a a', b.accounts.get? k = some a ∧ accounts.get? k = some a' ∧ a'.held = a.held ∧
        a'.charged = a.charged := by
    intro k
    rcases Table.updateWhereM_get? hUpdate k with hNone | ⟨a, a', ha, ha', hRow⟩
    · exact Or.inl hNone
    · refine Or.inr ⟨a, a', ha, ha', ?_⟩
      unfold Table.rewriteRow at hRow
      split at hRow
      · rw [Account.check_eq_ok hRow]
        exact ⟨rfl, rfl⟩
      · cases hRow
        exact ⟨rfl, rfl⟩
  refine ⟨rfl, rfl, fun k => ?_, fun k => ?_, fun k hk => ?_⟩
  · rcases hKeep k with ⟨h₁, h₂⟩ | ⟨a, a', h₁, h₂, hHeld, -⟩
    · simp [heldOf, h₁, h₂]
    · simp [heldOf, h₁, h₂, hHeld]
  · rcases hKeep k with ⟨h₁, h₂⟩ | ⟨a, a', h₁, h₂, -, hCharged⟩
    · simp [chargedOf, h₁, h₂]
    · simp [chargedOf, h₁, h₂, hCharged]
  · obtain ⟨r, hr⟩ := Table.contains_iff.mp hk
    rcases hKeep k with ⟨h₁, -⟩ | ⟨a, a', -, h₂, -⟩
    · rw [h₁] at hr
      cases hr
    · exact Table.contains_iff.mpr ⟨a', h₂⟩

end Masonwing
