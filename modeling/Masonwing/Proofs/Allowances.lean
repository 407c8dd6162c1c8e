import Masonwing.Proofs.Acceptance
import Masonwing.Proofs.BudgetConservation
import Masonwing.Proofs.Evaluation
import Masonwing.Proofs.HostShows

/-!
# Allowances of a period

An effect is charged to two accounts, whose keys begin with the periods `RUN` and `DAY` and are
otherwise the same for every run and every day. So the account of a run refuses what the run's own
holds and charges leave room for, where those of the other runs do not, and the account of a day
refuses because of the days before (`allowances_iff`).
-/

namespace Table

/-- A total is the one of the rows with a property and that of the others. -/
theorem sum_split {κ ρ : Type} (t : Table κ ρ) (p : κ → ρ → Bool) (f : κ → ρ → Int) :
    t.sum (fun k r => if p k r = true then f k r else 0) +
      t.sum (fun k r => if (!p k r) = true then f k r else 0) = t.sum f := by
  unfold sum
  induction t.rows with
  | nil => rfl
  | cons row rows ih =>
    dsimp only at ih
    simp only [List.map_cons, List.sum_cons]
    cases p row.1 row.2 with
    | true =>
      simp only [Bool.not_true, Bool.false_eq_true, if_true, if_false]
      omega
    | false =>
      simp only [Bool.not_false, Bool.false_eq_true, if_true, if_false]
      omega

end Table

namespace Outcome

/-- A failure that what follows cannot have comes from the computation itself. -/
theorem bind_eq_error_of_avoids {ε α β : Type} {e : ε} {x : Except ε α} {f : α → Except ε β}
    (hf : ∀ a, x = .ok a → Avoids e (f a)) : x >>= f = .error e ↔ x = .error e := by
  rw [bind_eq_error]
  constructor
  · rintro (h | ⟨a, ha, h⟩)
    · exact h
    · exact absurd h (hf a ha)
  · exact Or.inl

end Outcome

namespace Masonwing

open Outcome

variable {ι ν ε : Type}

/-! ## Shares of an account -/

/-- What the reservations with a property hold on an account, and what they have charged to it. -/
def Budget.heldBy (b : Budget) (key : String) (p : Uuid → Reservation → Bool) : Int :=
  b.reservations.sum fun id r => if p id r = true then holdOn key id r else 0

def Budget.chargedBy (b : Budget) (key : String) (p : Uuid → Reservation → Bool) : Int :=
  b.reservations.sum fun id r => if p id r = true then chargeOn key id r else 0

/-- What belongs to a run on an account. -/
def Budget.ownOf (b : Budget) (key : String) (run : Uuid) : Int :=
  b.heldBy key (fun _ r => decide (r.runId = run)) +
    b.chargedBy key (fun _ r => decide (r.runId = run))

def Budget.othersOf (b : Budget) (key : String) (run : Uuid) : Int :=
  b.heldBy key (fun _ r => !decide (r.runId = run)) +
    b.chargedBy key (fun _ r => !decide (r.runId = run))

/-- The day of an instant. -/
def dayOf (instant : Int) : Int := instant / dayMicroseconds

/-- The reservation was settled on an earlier day. -/
def Budget.settledBefore (b : Budget) (day : Int) (id : Uuid) (_ : Reservation) : Bool :=
  b.ledger.any fun _ e => decide (e.reservationId = id ∧ e.eventType = .settled ∧
    dayOf e.createdAt < day)

/-- What is held on an account, with what was charged to it since the day began. -/
def Budget.sinceOf (b : Budget) (key : String) (day : Int) : Int :=
  b.heldBy key (fun _ _ => true) + b.chargedBy key (fun id r => !b.settledBefore day id r)

/-- What was charged to an account on earlier days. -/
def Budget.earlierOf (b : Budget) (key : String) (day : Int) : Int :=
  b.chargedBy key (b.settledBefore day)

/-- The limit of an account; of one that is not there yet, the configured one. -/
def Budget.allowance (b : Budget) (key : String) : Option Int :=
  match b.accounts.get? key with
  | some a => some a.limit
  | none => (seedLimit b.settings "USD" key).map Prod.snd

/-- The account does not take the hold. -/
def Budget.Refuses (b : Budget) (key : String) (bound : Int) : Prop :=
  holdAccount b.settings "USD" bound b.accounts key = .error (.conflict "BUDGET_EXCEEDED")

instance (b : Budget) (key : String) (bound : Int) : Decidable (b.Refuses key bound) :=
  decidable_of_iff
    (failure? (holdAccount b.settings "USD" bound b.accounts key) =
      some (.conflict "BUDGET_EXCEEDED"))
    ⟨eq_error_of_failure?, fun h => by
      unfold Budget.Refuses at h
      rw [h]
      rfl⟩

def runKey : String := "RUN:USD:default"

def dayKey : String := "DAY:USD:default"

section Shares

variable {b : Budget} {key : String}

/-- What is held and charged on an account is what the run has there and what the others have. -/
theorem Conserved.own_add_others (hb : Conserved b) (run : Uuid) :
    heldOf b.accounts key + chargedOf b.accounts key = b.ownOf key run + b.othersOf key run := by
  have hHeld := b.reservations.sum_split (fun _ r => decide (r.runId = run)) (holdOn key)
  have hCharged := b.reservations.sum_split (fun _ r => decide (r.runId = run)) (chargeOn key)
  rw [hb.held, hb.charged, ← hHeld, ← hCharged]
  unfold Budget.ownOf Budget.othersOf Budget.heldBy Budget.chargedBy
  dsimp only
  ring

theorem Conserved.since_add_earlier (hb : Conserved b) (day : Int) :
    heldOf b.accounts key + chargedOf b.accounts key =
      b.sinceOf key day + b.earlierOf key day := by
  have hHeld : b.heldBy key (fun _ _ => true) = b.reservations.sum (holdOn key) := by
    simp only [Budget.heldBy, if_true]
  have hCharged := b.reservations.sum_split (b.settledBefore day) (chargeOn key)
  rw [hb.held, hb.charged, ← hCharged, ← hHeld]
  unfold Budget.sinceOf Budget.earlierOf Budget.chargedBy
  ring

theorem Account.check_isOk {row : AccountRow} (h : row.WellFormed) :
    Account.check row = .ok ⟨row, h⟩ := dif_pos h

/-- The constraint of the table is the arbiter. -/
theorem Account.check_refused {row : AccountRow} :
    (Account.check row).mapError budgetConstraintFailure = .error (.conflict "BUDGET_EXCEEDED") ↔
      ¬ row.WellFormed := by
  unfold Account.check
  split
  · rename_i hRow
    exact iff_of_false (fun h => by cases h) fun hNot => hNot hRow
  · rename_i hNot
    exact iff_of_true rfl hNot

/-- Adding to a hold within the limits of the columns. -/
theorem Account.move_hold {a : Account} {bound : Int} (hBound : 0 ≤ bound ∧ bound ≤ 20) :
    a.move bound 0 =
      Account.check { a.toAccountRow with held := a.held + bound, charged := a.charged } := by
  obtain ⟨⟨hLow, hHigh⟩, hHeld, hCharged, hWithin⟩ := a.checked
  have hMax : maxMicrounits + 20 ≤ maxI64 := by decide
  have hMin : -maxI64 - 1 ≤ 0 := by decide
  have hHeldInt : bigint (a.held + bound) = .ok (a.held + bound) :=
    bigint_eq_ok.mpr ⟨by omega, rfl⟩
  have hChargedInt : bigint (a.charged + 0) = .ok a.charged :=
    bigint_eq_ok.mpr ⟨by omega, by omega⟩
  unfold Account.move
  rw [hHeldInt, hChargedInt]
  rfl

theorem seedLimit_range {settings : Table (Currency × Period) Setting} {currency key : String}
    {seed : Currency × Int} (h : seedLimit settings currency key = some seed) :
    0 ≤ seed.2 ∧ seed.2 ≤ maxMicrounits := by
  simp only [seedLimit, Option.bind_eq_bind, Option.bind_eq_some_iff] at h
  obtain ⟨c, -, p, -, s, -, hSeed⟩ := h
  split at hSeed
  · cases hSeed
    exact s.checked
  · cases hSeed

/-- An account refuses exactly what does not fit beside all that is held and charged on it. -/
theorem refuses_iff {bound limit : Int} (hBound : 0 ≤ bound ∧ bound ≤ 20)
    (hLimit : b.allowance key = some limit) :
    b.Refuses key bound ↔
      limit < heldOf b.accounts key + chargedOf b.accounts key + bound := by
  unfold Budget.allowance at hLimit
  unfold Budget.Refuses heldOf chargedOf
  cases hAccount : b.accounts.get? key with
  | some a =>
    rw [hAccount] at hLimit
    obtain rfl := Option.some.inj hLimit
    obtain ⟨⟨hLow, hHigh⟩, hHeld, hCharged, hWithin⟩ := a.checked
    have hHold : holdAccount b.settings "USD" bound b.accounts key =
        (Account.check { a.toAccountRow with
          held := a.held + bound, charged := a.charged }).mapError budgetConstraintFailure >>=
          fun a' => .ok (b.accounts.set key a') := by
      unfold holdAccount
      rw [hAccount, ← Account.move_hold hBound]
      rfl
    rw [hHold, bind_eq_error, Account.check_refused]
    dsimp only [Option.map_some, Option.getD_some]
    constructor
    · rintro (hNot | ⟨a', -, hOk⟩)
      · by_contra hFits
        exact hNot ⟨⟨hLow, hHigh⟩, show 0 ≤ a.held + bound by omega, hCharged,
          show a.held + bound ≤ a.limit - a.charged by omega⟩
      · cases hOk
    · intro hOver
      refine Or.inl fun hRow => ?_
      have hFits : a.held + bound ≤ a.limit - a.charged := hRow.2.2.2
      omega
  | none =>
    rw [hAccount] at hLimit
    obtain ⟨seed, hSeed, rfl⟩ := Option.map_eq_some_iff.mp hLimit
    have hRange := seedLimit_range hSeed
    have hHold : holdAccount b.settings "USD" bound b.accounts key =
        (Account.check { currency := seed.1, limit := seed.2, held := bound
                         charged := 0 }).mapError budgetConstraintFailure >>=
          fun a => (insertRow b.accounts key a).mapError budgetConstraintFailure := by
      unfold holdAccount
      rw [hAccount, hSeed]
      rfl
    rw [hHold, bind_eq_error, Account.check_refused]
    dsimp only [Option.map_none, Option.getD_none]
    constructor
    · rintro (hNot | ⟨a, -, hRefused⟩)
      · by_contra hFits
        exact hNot ⟨hRange, hBound.1, Int.le_refl 0, show bound ≤ seed.2 - 0 by omega⟩
      · -- an account that is not there can be inserted
        obtain ⟨accounts, hInsert⟩ :=
          (Table.insert?_isSome_iff (t := b.accounts) (r := a)).mpr hAccount
        have hInserted : insertRow b.accounts key a = .ok accounts := insertRow_eq_ok.mpr hInsert
        rw [hInserted] at hRefused
        cases hRefused
    · intro hOver
      refine Or.inl fun hRow => ?_
      have hFits : bound ≤ seed.2 - 0 := hRow.2.2.2
      omega

/-- An account that is not there and not configured is no matter of the limit. -/
theorem not_refuses {bound : Int} (hNone : b.allowance key = none) : ¬b.Refuses key bound := by
  unfold Budget.allowance at hNone
  unfold Budget.Refuses holdAccount
  cases hAccount : b.accounts.get? key with
  | some a =>
    rw [hAccount] at hNone
    cases hNone
  | none =>
    rw [hAccount] at hNone
    rw [Option.map_eq_none_iff.mp hNone]
    intro hRefused
    have hKind := Except.error.inj hRefused
    revert hKind
    decide

/-- Whether an account refuses depends on its own row only. -/
theorem refuses_congr {b' : Budget} {bound : Int} (hBound : 0 ≤ bound ∧ bound ≤ 20)
    (hSettings : b'.settings = b.settings)
    (hRow : b'.accounts.get? key = b.accounts.get? key) :
    b'.Refuses key bound ↔ b.Refuses key bound := by
  have hAllowance : b'.allowance key = b.allowance key := by
    unfold Budget.allowance
    rw [hSettings, hRow]
  cases hLimit : b.allowance key with
  | none =>
    exact iff_of_false (not_refuses (hAllowance.trans hLimit)) (not_refuses hLimit)
  | some limit =>
    rw [refuses_iff hBound hLimit, refuses_iff hBound (hAllowance.trans hLimit)]
    unfold heldOf chargedOf
    rw [hRow]

theorem holdAccount_other {settings : Table (Currency × Period) Setting} {currency k : String}
    {bound : Int} {accounts accounts' : Accounts}
    (h : holdAccount settings currency bound accounts k = .ok accounts') (hk : key ≠ k) :
    accounts'.get? key = accounts.get? key := by
  unfold holdAccount at h
  split at h
  · simp only [bind_eq_ok, mapError_eq_ok, pure_eq_ok] at h
    obtain ⟨a', -, rfl⟩ := h
    rw [Table.get?_set, if_neg hk]
  · simp only [bind_eq_ok, mapError_eq_ok, insertRow_eq_ok] at h
    obtain ⟨seed, -, a, -, hInsert⟩ := h
    rw [Table.insert?_get? hInsert, if_neg hk]

end Shares

/-! ## The answer to a proposal -/

/-- What the ledger answers where an account is exhausted. -/
abbrev exceeded : CommandFailure := .conflict "BUDGET_EXCEEDED"

theorem sql_avoids_exceeded {α : Type} (x : Except SqlError α) : Avoids exceeded (sql x) :=
  avoids_mapError fun d => by cases d <;> decide

theorem priceBound_range (profile : String) :
    0 ≤ priceBound profile ∧ priceBound profile ≤ 20 := by
  unfold priceBound
  split <;> decide

section Proposal

variable {env : Env} {tick : Tick} {t : Tables}

theorem reserveBudget_exceeded {tenant : Uuid} {runExists : Uuid → Bool} {b : Budget}
    {q : ReserveRequest} (hPositive : 0 < q.upperBound) :
    reserveBudget tick tenant runExists b q = .error exceeded ↔
      q.accountKeys.foldlM (holdAccount b.settings q.currency q.upperBound) b.accounts =
        .error exceeded := by
  unfold reserveBudget
  have hRequire : require (0 < q.upperBound) (CommandFailure.precondition "PRICE_BOUND_UNKNOWN") =
      .ok () := require_eq_ok.mpr hPositive
  rw [hRequire]
  change (q.accountKeys.foldlM (holdAccount b.settings q.currency q.upperBound) b.accounts >>= _) =
    _ ↔ _
  refine bind_eq_error_of_avoids fun accounts _ => ?_
  refine (sql_avoids_exceeded _).bind fun _ _ => (sql_avoids_exceeded _).bind fun _ _ => ?_
  refine (avoids_require (by decide)).bind fun _ _ => (sql_avoids_exceeded _).bind fun _ _ => ?_
  refine (avoids_require (by decide)).bind fun _ _ => Avoids.bind ?_ fun _ _ => avoids_pure _ _
  refine (avoids_require (by decide)).bind fun _ _ => (sql_avoids_exceeded _).bind fun _ _ => ?_
  exact (avoids_require (by decide)).bind fun _ _ => avoids_pure _ _

/-- A new proposal is refused for its budget by one of its two accounts. -/
theorem proposeEffect_exceeded {actor : CommandActor}
    {key action connectionId grantId profile : String} {target : ResourceRef}
    {contentRef : ArtifactRef} {p : Proposal}
    (hAdmit : admitProposal env tick t actor key action connectionId target contentRef grantId
      profile = .ok p)
    (hNew : existingEffect t p.connectionId p.idempotencyKey = none)
    (hPositive : 0 < priceBound profile) :
    proposeEffect env tick t actor key action connectionId target contentRef grantId profile =
        .error exceeded ↔
      t.budget.Refuses runKey (priceBound profile) ∨
        (∃ accounts, holdAccount t.budget.settings "USD" (priceBound profile) t.budget.accounts
          runKey = .ok accounts) ∧ t.budget.Refuses dayKey (priceBound profile) := by
  have hProfile : p.priceProfile = profile := (admitProposal_ok hAdmit).2.2.2.2.2.2.2.1
  have hPropose : proposeEffect env tick t actor key action connectionId target contentRef grantId
      profile = proposeNew env tick t p := by
    unfold proposeEffect
    rw [hAdmit]
    dsimp only [bind, Except.bind]
    rw [hNew]
  rw [hPropose, proposeNew, bind_eq_error_of_avoids]
  · have hBound : 0 < p.reserveRequest.upperBound := by
      change 0 < priceBound p.priceProfile
      rw [hProfile]
      exact hPositive
    rw [reserveBudget_exceeded hBound]
    change [runKey, dayKey].foldlM (holdAccount t.budget.settings "USD" (priceBound p.priceProfile))
      t.budget.accounts = _ ↔ _
    rw [hProfile, List.foldlM_cons, bind_eq_error]
    -- the hold on the account of the run leaves that of the day as it was
    have hDayKept : ∀ accounts, holdAccount t.budget.settings "USD" (priceBound profile)
        t.budget.accounts runKey = .ok accounts →
        (Budget.Refuses { t.budget with accounts } dayKey (priceBound profile) ↔
          t.budget.Refuses dayKey (priceBound profile)) := fun accounts hHold =>
      refuses_congr (priceBound_range profile) rfl (holdAccount_other hHold (by decide))
    refine or_congr_right ⟨?_, ?_⟩
    · rintro ⟨accounts, hHold, hRest⟩
      simp only [List.foldlM_cons, List.foldlM_nil, bind_pure] at hRest
      exact ⟨⟨accounts, hHold⟩, (hDayKept accounts hHold).mp hRest⟩
    · rintro ⟨⟨accounts, hHold⟩, hDay⟩
      refine ⟨accounts, hHold, ?_⟩
      simp only [List.foldlM_cons, List.foldlM_nil, bind_pure]
      exact (hDayKept accounts hHold).mpr hDay
  · rintro ⟨budget, m⟩ -
    refine (avoids_okOr (by decide)).bind fun _ _ => Avoids.bind ?_ fun _ _ => avoids_pure _ _
    refine (avoids_require (by decide)).bind fun _ _ => (sql_avoids_exceeded _).bind fun _ _ => ?_
    exact (avoids_require (by decide)).bind fun _ _ => avoids_pure _ _

end Proposal

/-! ## The budget of a run -/

section Runs

variable {env : Env} {tick : Tick} {t t' : Tables}

theorem Settled.conserved {id : Uuid} {b b' : Budget} (hb : Conserved b)
    (h : Settled tick b id b') : Conserved b' := by
  rcases h with ⟨rfl, -⟩ | ⟨r, r', hAdvanced, -⟩
  · exact hb
  · exact hb.advance hAdvanced

theorem Created.conserved {q : ReserveRequest} {e : EffectRow} {b' : Budget}
    {effects : Table Uuid EffectRow} (hb : Conserved t.budget)
    (h : Created tick t q e b' effects) : Conserved b' := by
  obtain ⟨row, hReserved⟩ := h.reserved
  exact hb.reserve hReserved

/-- Every act but the configuration moves reservations, if it touches the budget. -/
theorem Change.conserved {a : Act} (h : Change env tick t a t') (ha : a ≠ .configureBudget)
    (hb : Conserved t.budget) : Conserved t'.budget := by
  cases h with
  | configured => exact absurd rfl ha
  | reserved j hReserved => exact hb.reserve hReserved
  | reservationMoved j hMoved =>
    rcases hMoved with rfl | ⟨r, r', hAdvanced⟩
    · exact hb
    · exact hb.advance hAdvanced
  | proposed j hTenant hAdmitted hCreated => exact hCreated.conserved hb
  | compensated j hTenant hCompensated hCreated => exact hCreated.conserved hb
  | unknown j h hFrom hAdvanced => exact hb.advance hAdvanced
  | failed j h hFrom hAdvanced => exact hb.advance hAdvanced
  | succeeded j h hFrom hSettled => exact hSettled.conserved hb
  | _ => exact hb

theorem dispatchCommand_conserved {c : Command CommandInput} {m : Mutation}
    (hTenant : t.identity.tenantActive = true)
    (h : dispatchCommand env tick t c = .ok (t', m)) (hb : Conserved t.budget) :
    Conserved t'.budget := by
  obtain ⟨a, hAct, hChange⟩ := dispatchCommand_change t'.journal hTenant h
  by_cases ha : a = .configureBudget
  · -- the limits of the accounts are all that changes
    obtain ⟨actor, input, key, fingerprint⟩ := c
    subst ha
    cases input with
    | budgetConfigure currency period limit expected =>
      have hConfigure : configureBudgetCommand tick t currency period limit expected =
        .ok (t', m) := h
      simp only [configureBudgetCommand, bind_eq_ok, pure_eq_ok, Prod.exists, Prod.mk.injEq]
        at hConfigure
      obtain ⟨b', m', hConfigured, rfl, -⟩ := hConfigure
      obtain ⟨hReservations, hLedger, hMoves⟩ := configureBudget_ok hConfigured
      exact hb.frame hReservations hLedger hMoves
    | _ => simp [CommandInput.act, Option.bind_eq_some_iff] at hAct
  · exact hChange.conserved ha hb

theorem PlatformOutcome.conserved {p : Platform ι} {op : PlatformOperation ι}
    (h : PlatformOutcome p tick t op t') (hb : Conserved t.budget) : Conserved t'.budget := by
  cases h with
  | unchanged => exact hb
  | command hActor hAuthorized hHandled =>
    have hAfter := dispatchCommand_conserved (beginActor_ok hActor).1 hHandled hb
    exact hAfter
  | further hHandled =>
    unfold Platform.dispatch at hHandled
    split at hHandled
    · obtain ⟨digest, registry, runs, -, -, rfl, -⟩ := revokePlugin_ok hHandled
      exact hb
    · obtain ⟨j, id, rights, requests, -, -, rfl, -⟩ := requestDeletion_ok hHandled
      exact hb
    · obtain ⟨registry, rfl, -⟩ := Lifecycle.run_ok hHandled
      exact hb
  | contained => exact hb
  | system hCall =>
    refine (runSystemCall_change hCall).conserved (fun hAct => ?_) hb
    have hNot := SystemCall.act_not_commanded ‹SystemCall›
    rw [hAct] at hNot
    cases hNot
  | checkpoint hRecorded =>
    rcases recordRunCheckpoint_ok hRecorded with ⟨-, rfl⟩ | ⟨-, row, rows, -, rfl, -⟩ <;> exact hb

theorem HostOutcome.conserved {h : Host ι ν ε} {attempts attempts' : List UploadAttempt}
    {op : HostOperation ι ε} (hOutcome : HostOutcome h tick t attempts op t' attempts')
    (hb : Conserved t.budget) : Conserved t'.budget := by
  cases hOutcome with
  | unchanged => exact hb
  | platform hPlatform => exact hPlatform.conserved hb
  | command hActor hAuthorized hHandled =>
    rw [Host.dispatch_frame hHandled]
    exact hb
  | contained => exact hb
  | claimed hClaimed =>
    obtain ⟨u, u', a, -, -, -, -, -, rfl⟩ := claimUpload_ok hClaimed
    exact hb
  | completed hAttempt hCompleted =>
    obtain ⟨u, u', act, j, j', tenant, expires, state, label, version, -, -, -, -, -, rfl⟩ :=
      completeUpload_ok hCompleted
    exact hb

theorem Conserved.hostRun (h : Host ι ν ε) {s : HostState} (hb : Conserved s.store.tables.budget)
    (calls : List (HostCall ι ε)) :
    Conserved (Machine.run (hostStep h) s calls).store.tables.budget :=
  Machine.run_invariant (hostStep h) (I := fun s => Conserved s.store.tables.budget)
    (fun s c hb => (hostStep_outcome h s c).conserved hb) hb calls

end Runs

/-- After every run, a new proposal of an effect is answered that the budget is exceeded where an
account refuses it. What the own run holds and has charged lets the account of the run take the
bound exactly where what the other runs have there leaves it room, and what was held and charged
since the day began lets the account of the day take it exactly where the earlier days do. -/
theorem allowances_iff (h : Host ι ν ε) {s : HostState} (hs : Conserved s.store.tables.budget)
    (calls : List (HostCall ι ε)) (tick : Tick) (actor : CommandActor)
    (key action connectionId grantId profile : String) (target : ResourceRef)
    (contentRef : ArtifactRef) (p : Proposal) :
    let t := (Machine.run (hostStep h) s calls).store.tables
    let b := t.budget
    let bound := priceBound profile
    let today := dayOf tick.now
    admitProposal h.env tick t actor key action connectionId target contentRef grantId profile =
      .ok p →
    existingEffect t p.connectionId p.idempotencyKey = none → 0 < bound →
    (∀ limit, b.allowance runKey = some limit →
      ((b.ownOf runKey p.runId + bound ≤ limit → ¬b.Refuses runKey bound) ↔
        (b.ownOf runKey p.runId + bound ≤ limit →
          b.ownOf runKey p.runId + b.othersOf runKey p.runId + bound ≤ limit))) ∧
    (∀ limit, b.allowance dayKey = some limit →
      ((b.sinceOf dayKey today + bound ≤ limit → ¬b.Refuses dayKey bound) ↔
        (b.sinceOf dayKey today + bound ≤ limit →
          b.sinceOf dayKey today + b.earlierOf dayKey today + bound ≤ limit))) ∧
    (proposeEffect h.env tick t actor key action connectionId target contentRef grantId profile =
        .error exceeded ↔
      b.Refuses runKey bound ∨
        (∃ accounts, holdAccount b.settings "USD" bound b.accounts runKey = .ok accounts) ∧
          b.Refuses dayKey bound) := by
  intro t b bound today hAdmit hNew hPositive
  have hb : Conserved b := hs.hostRun h calls
  refine ⟨fun limit hLimit => ?_, fun limit hLimit => ?_,
    proposeEffect_exceeded hAdmit hNew hPositive⟩
  · rw [refuses_iff (priceBound_range profile) hLimit, hb.own_add_others p.runId, not_lt]
  · rw [refuses_iff (priceBound_range profile) hLimit, hb.since_add_earlier today, not_lt]

/-! ## The small tenant -/

namespace Sample

def configure (n : Nat) (period : String) (limit : Int) : HostCall Empty Empty :=
  onPlatform (coreCall (command n (.budgetConfigure "USD" period limit 1)))

/-- A first run holds a bound and is cancelled, and a second one is started. -/
def secondRun : List (HostCall Empty Empty) :=
  [configure 1 "RUN" 30, onPlatform (start 2 grantId), onPlatform (coreCall (propose 3)),
    onPlatform (cancel 4 (runOf 2) 1), onPlatform (start 5 grantId)]

/-- A bound is charged on the first day. -/
def chargedDay : List (HostCall Empty Empty) :=
  [configure 1 "DAY" 30, onPlatform (start 2 grantId), onPlatform (coreCall (propose 3)),
    onPlatform (coreCall (dispatch 4 (effectOf 3) 1)),
    onPlatform (coreSystem 5 (.recordEffectSucceeded (effectOf 3) "remote" contentRef 20))]

/-- The budget of the office before anything was reserved. -/
theorem office_conserved : Conserved office.store.tables.budget := by
  refine ⟨fun k => rfl, fun k => rfl, ?_, ?_, ?_, ?_⟩ <;>
    · intro _ _ h
      cases h

/-- The proposal of the `n`-th second, admitted. -/
def admittedProposal (n : Nat) (t : Tables) : Result Proposal :=
  admitProposal host.env (tick n) t actor (uuid n).toId.text "mail.send" connectionId.toText target
    contentRef grantId.toText "1.0.0"

/-- A proposal that was not made before, of this run. -/
def newProposal? (n : Nat) (t : Tables) (run : Uuid) : Bool :=
  match admittedProposal n t with
  | .ok p => (existingEffect t p.connectionId p.idempotencyKey).isNone && decide (p.runId = run)
  | .error _ => false

theorem newProposal?_iff {n : Nat} {t : Tables} {run : Uuid} :
    newProposal? n t run = true ↔ ∃ p, admittedProposal n t = .ok p ∧
      existingEffect t p.connectionId p.idempotencyKey = none ∧ p.runId = run := by
  unfold newProposal?
  split
  · rename_i p hAdmitted
    rw [Bool.and_eq_true, Option.isNone_iff_eq_none, decide_eq_true_eq]
    constructor
    · rintro ⟨hNew, hRun⟩
      exact ⟨p, hAdmitted, hNew, hRun⟩
    · rintro ⟨q, hq, hNew, hRun⟩
      cases hAdmitted.symm.trans hq
      exact ⟨hNew, hRun⟩
  · rename_i failure hRefused
    refine iff_of_false (by decide) ?_
    rintro ⟨q, hq, -⟩
    cases hRefused.symm.trans hq

end Sample

/-- The second run holds nothing and has spent nothing, and the second day has not either. -/
theorem shared_allowances_refuse :
    ((∃ p, Sample.admittedProposal 6 (Sample.fromOffice Sample.secondRun).store.tables = .ok p ∧
        p.runId = Sample.runOf 5) ∧
      (Sample.fromOffice Sample.secondRun).store.tables.budget.allowance runKey = some 30 ∧
      (Sample.fromOffice Sample.secondRun).store.tables.budget.ownOf runKey (Sample.runOf 5) = 0 ∧
      (Sample.fromOffice Sample.secondRun).store.tables.budget.Refuses runKey 20 ∧
      (hostStep Sample.host (Sample.fromOffice Sample.secondRun)
        (Sample.onPlatform (Sample.coreCall (Sample.propose 6)))).2 = .error exceeded) ∧
    (Sample.fromOffice Sample.chargedDay).store.tables.budget.allowance dayKey = some 30 ∧
      (Sample.fromOffice Sample.chargedDay).store.tables.budget.sinceOf dayKey
        (dayOf (Sample.tick 90000).now) = 0 ∧
      (Sample.fromOffice Sample.chargedDay).store.tables.budget.Refuses dayKey 20 ∧
      (hostStep Sample.host (Sample.fromOffice Sample.chargedDay)
        (Sample.onPlatform (Sample.coreCall (Sample.propose 90000)))).2 = .error exceeded := by
  have hRun : Sample.newProposal? 6 (Sample.fromOffice Sample.secondRun).store.tables
        (Sample.runOf 5) = true ∧
      (Sample.fromOffice Sample.secondRun).store.tables.budget.allowance runKey = some 30 ∧
      (Sample.fromOffice Sample.secondRun).store.tables.budget.ownOf runKey (Sample.runOf 5) = 0 ∧
      (Sample.fromOffice Sample.secondRun).store.tables.budget.Refuses runKey 20 ∧
      failure? (hostStep Sample.host (Sample.fromOffice Sample.secondRun)
        (Sample.onPlatform (Sample.coreCall (Sample.propose 6)))).2 = some exceeded := by
    simp only [Sample.fromOffice, hostStep_bytewise, Sample.host_bytewise]
    decide +kernel
  have hDay : (Sample.fromOffice Sample.chargedDay).store.tables.budget.allowance dayKey =
        some 30 ∧
      (Sample.fromOffice Sample.chargedDay).store.tables.budget.sinceOf dayKey
        (dayOf (Sample.tick 90000).now) = 0 ∧
      (Sample.fromOffice Sample.chargedDay).store.tables.budget.Refuses dayKey 20 ∧
      failure? (hostStep Sample.host (Sample.fromOffice Sample.chargedDay)
        (Sample.onPlatform (Sample.coreCall (Sample.propose 90000)))).2 = some exceeded := by
    simp only [Sample.fromOffice, hostStep_bytewise, Sample.host_bytewise]
    decide +kernel
  obtain ⟨hNew, hLimit, hOwn, hRefuses, hAnswer⟩ := hRun
  obtain ⟨hDayLimit, hSince, hDayRefuses, hDayAnswer⟩ := hDay
  obtain ⟨p, hAdmitted, -, hRunId⟩ := Sample.newProposal?_iff.mp hNew
  exact ⟨⟨⟨p, hAdmitted, hRunId⟩, hLimit, hOwn, hRefuses, eq_error_of_failure? hAnswer⟩,
    hDayLimit, hSince, hDayRefuses, eq_error_of_failure? hDayAnswer⟩

theorem first_run_allowed :
    ∃ p, Sample.admittedProposal 2 (Sample.fromOffice [Sample.officeStart]).store.tables = .ok p ∧
      ∀ limit,
        (Sample.fromOffice [Sample.officeStart]).store.tables.budget.allowance runKey =
          some limit →
        (((Sample.fromOffice [Sample.officeStart]).store.tables.budget.ownOf runKey p.runId +
              priceBound "1.0.0" ≤ limit →
            ¬(Sample.fromOffice [Sample.officeStart]).store.tables.budget.Refuses runKey
              (priceBound "1.0.0")) ↔
          ((Sample.fromOffice [Sample.officeStart]).store.tables.budget.ownOf runKey p.runId +
              priceBound "1.0.0" ≤ limit →
            (Sample.fromOffice [Sample.officeStart]).store.tables.budget.ownOf runKey p.runId +
              (Sample.fromOffice [Sample.officeStart]).store.tables.budget.othersOf runKey p.runId +
              priceBound "1.0.0" ≤ limit)) := by
  have hRun : Sample.newProposal? 2 (Sample.fromOffice [Sample.officeStart]).store.tables
      (Sample.runOf 1) = true := by
    simp only [Sample.fromOffice, hostStep_bytewise, Sample.host_bytewise]
    decide +kernel
  obtain ⟨p, hAdmitted, hNew, -⟩ := Sample.newProposal?_iff.mp hRun
  unfold Sample.admittedProposal Sample.fromOffice at hAdmitted ⊢
  unfold Sample.fromOffice at hNew
  obtain ⟨hOwn, -⟩ := allowances_iff Sample.host Sample.office_conserved [Sample.officeStart]
    (Sample.tick 2) Sample.actor (Sample.uuid 2).toId.text "mail.send" Sample.connectionId.toText
    Sample.grantId.toText "1.0.0" Sample.target Sample.contentRef p hAdmitted hNew (by decide)
  exact ⟨p, hAdmitted, hOwn⟩

end Masonwing
