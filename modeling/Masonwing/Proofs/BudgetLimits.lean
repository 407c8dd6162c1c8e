import Masonwing.Lib.Text
import Masonwing.Proofs.BudgetConservation
import Masonwing.Store.System

/-!
# Configured limits

A limit is stored in its setting and copied into the accounts of its dimension, when an account is
opened and whenever the limit is configured. `limits_govern`: in every run whose reservations name
accounts by keys `period:currency:suffix` of their own currency the two agree, and a configuration
succeeds exactly where the new limit covers what is held and charged.
-/

namespace Masonwing

open Outcome

/-! ## Keys -/

/-- The key `period:currency:suffix`. -/
def dimensionKey (p : Period) (currency suffix : String) : String :=
  p.toText ++ ":" ++ currency ++ ":" ++ suffix

theorem Period.separator_notMem (p : Period) : ':' ∉ p.toText.toList := by
  cases p <;> decide

theorem Currency.separator_notMem (c : Currency) : ':' ∉ c.text.toList := by
  intro hMem
  have hValid := c.valid
  rw [isCurrency, Bool.and_eq_true, List.all_eq_true] at hValid
  exact absurd (hValid.2 ':' hMem) (by decide)

theorem Period.toText_injective {p q : Period} (h : p.toText = q.toText) : p = q := by
  cases p <;> cases q <;> first | rfl | exact absurd h (by decide)

theorem Period.ofText?_toText (p : Period) : Period.ofText? p.toText = some p := by
  cases p <;> rfl

theorem Period.toText_of_ofText? {text : String} {p : Period} (h : Period.ofText? text = some p) :
    text = p.toText := by
  unfold Period.ofText? at h
  split at h <;> cases h <;> rfl

theorem Currency.ofText?_text (c : Currency) : Currency.ofText? c.text = some c := dif_pos c.valid

theorem Currency.text_of_ofText? {text : String} {c : Currency}
    (h : Currency.ofText? text = some c) : text = c.text := by
  unfold Currency.ofText? at h
  split at h
  · cases h
    rfl
  · cases h

theorem Currency.text_injective {c d : Currency} (h : c.text = d.text) : c = d := by
  obtain ⟨text, hText⟩ := c
  subst h
  rfl

theorem dimensionKey_toList (p : Period) (currency suffix : String) :
    (dimensionKey p currency suffix).toList =
      p.toText.toList ++ ':' :: (currency.toList ++ ':' :: suffix.toList) := by
  simp [dimensionKey]

/-- The pattern of a dimension matches its own keys only. -/
theorem inDimension_iff {p q : Period} {c d : Currency} {suffix : String} :
    inDimension p.toText c.text (dimensionKey q d.text suffix) = true ↔ p = q ∧ c = d := by
  have hText : (p.toText ++ ":" ++ c.text ++ ":").toList =
      p.toText.toList ++ ':' :: (c.text.toList ++ ':' :: []) := by simp
  unfold inDimension
  rw [List.isPrefixOf_iff_prefix, hText, dimensionKey_toList,
    Text.append_cons_prefix_iff p.separator_notMem q.separator_notMem,
    Text.append_cons_prefix_iff c.separator_notMem d.separator_notMem]
  constructor
  · rintro ⟨hPeriod, hCurrency, -⟩
    exact ⟨Period.toText_injective (String.toList_injective hPeriod),
      Currency.text_injective (String.toList_injective hCurrency)⟩
  · rintro ⟨rfl, rfl⟩
    exact ⟨rfl, rfl, List.nil_prefix⟩

theorem keyPeriod_dimensionKey (p : Period) (currency suffix : String) :
    keyPeriod (dimensionKey p currency suffix) = p.toText := by
  have hLetters : ∀ x ∈ p.toText.toList, decide (x ≠ ':') = true := by
    intro x hx
    refine decide_eq_true ?_
    rintro rfl
    exact p.separator_notMem hx
  rw [keyPeriod, dimensionKey_toList, List.takeWhile_append_of_pos hLetters,
    List.takeWhile_cons_of_neg (by decide), List.append_nil, String.ofList_toList]

/-! ## The invariant -/

/-- The account stands under a key of the dimension. -/
structure InPeriod (key : String) (a : Account) (p : Period) : Prop where
  key : ∃ suffix, key = dimensionKey p a.currency.text suffix

/-- Every account has the limit of its dimension. -/
def Governed (settings : Table (Currency × Period) Setting) (accounts : Accounts) : Prop :=
  ∀ key a, accounts.get? key = some a →
    ∃ p s, InPeriod key a p ∧ settings.get? (a.currency, p) = some s ∧ a.limit = s.limit

theorem Governed.empty : Governed .empty .empty := by
  intro key a ha
  cases ha

/-- An account with the terms of one that was there. -/
theorem Governed.set {settings : Table (Currency × Period) Setting} {accounts : Accounts}
    {key : String} {a a' : Account} (h : Governed settings accounts)
    (ha : accounts.get? key = some a) (hTerms : a'.currency = a.currency ∧ a'.limit = a.limit) :
    Governed settings (accounts.set key a') := by
  intro k b hb
  rcases Table.get?_set_cases hb with ⟨rfl, rfl⟩ | ⟨-, hOld⟩
  · obtain ⟨p, s, ⟨suffix, hKey⟩, hSetting, hLimit⟩ := h k a ha
    rw [← hTerms.1] at hKey hSetting
    exact ⟨p, s, ⟨suffix, hKey⟩, hSetting, hTerms.2.trans hLimit⟩
  · exact h k b hOld

theorem Account.move_terms {a b : Account} {heldDelta chargedDelta : Int}
    (h : a.move heldDelta chargedDelta = .ok b) : b.currency = a.currency ∧ b.limit = a.limit := by
  simp only [Account.move, bind_eq_ok, bigint_eq_ok] at h
  obtain ⟨held, -, charged, -, hCheck⟩ := h
  rw [Account.check_eq_ok hCheck]
  exact ⟨rfl, rfl⟩

theorem seedLimit_ok {settings : Table (Currency × Period) Setting} {currency suffix : String}
    {p : Period} {seed : Currency × Int}
    (h : seedLimit settings currency (dimensionKey p currency suffix) = some seed) :
    ∃ s, settings.get? (seed.1, p) = some s ∧ seed.2 = s.limit ∧ currency = seed.1.text := by
  simp only [seedLimit, Option.bind_eq_bind, Option.bind_eq_some_iff, keyPeriod_dimensionKey,
    Period.ofText?_toText, Option.some.injEq, exists_eq_left'] at h
  obtain ⟨c, hCurrency, s, hSetting, hSeed⟩ := h
  split at hSeed
  · cases hSeed
    exact ⟨s, hSetting, rfl, Currency.text_of_ofText? hCurrency⟩
  · cases hSeed

theorem Governed.hold {settings : Table (Currency × Period) Setting} {currency suffix : String}
    {p : Period} {bound : Int} {accounts accounts' : Accounts} (hOld : Governed settings accounts)
    (h : holdAccount settings currency bound accounts (dimensionKey p currency suffix) =
      .ok accounts') : Governed settings accounts' := by
  unfold holdAccount at h
  split at h
  · rename_i a hGet
    simp only [bind_eq_ok, mapError_eq_ok, pure_eq_ok] at h
    obtain ⟨a', hMove, rfl⟩ := h
    exact hOld.set hGet (Account.move_terms hMove)
  · simp only [bind_eq_ok, mapError_eq_ok, insertRow_eq_ok, okOr_eq_ok] at h
    obtain ⟨seed, hSeed, a, hCheck, hInsert⟩ := h
    obtain ⟨s, hSetting, hLimit, hCurrency⟩ := seedLimit_ok hSeed
    intro k b hb
    rcases Table.insert?_get?_cases hInsert hb with ⟨rfl, rfl⟩ | ⟨-, hThere⟩
    · have hRow := Account.check_eq_ok hCheck
      have hSame : b.currency = seed.1 ∧ b.limit = seed.2 := by
        rw [hRow]
        exact ⟨rfl, rfl⟩
      refine ⟨p, s, ⟨suffix, ?_⟩, ?_, hSame.2.trans hLimit⟩
      · rw [hSame.1, ← hCurrency]
      · rw [hSame.1]
        exact hSetting
    · exact hOld k b hThere

theorem Governed.adjust {settings : Table (Currency × Period) Setting} {heldDelta chargedDelta : Int}
    {accounts accounts' : Accounts} {key : String} (hOld : Governed settings accounts)
    (h : adjustAccount heldDelta chargedDelta accounts key = .ok accounts') :
    Governed settings accounts' := by
  unfold adjustAccount at h
  split at h
  · rename_i a hGet
    simp only [bind_eq_ok, sql_eq_ok, pure_eq_ok] at h
    obtain ⟨a', hMove, rfl⟩ := h
    exact hOld.set hGet (Account.move_terms hMove)
  · cases h
    exact hOld

/-! ## The operations -/

/-- A reservation names its accounts by keys of its currency. -/
def BudgetCall.WellKeyed : BudgetCall → Prop
  | .reserve _ _ q => ∀ key ∈ q.accountKeys, ∃ p suffix, key = dimensionKey p q.currency suffix
  | _ => True

def Budget.Governed (b : Budget) : Prop := Masonwing.Governed b.settings b.accounts

namespace Budget.Governed

variable {tick : Tick} {tenant : Uuid} {b b' : Budget} {m : Mutation}

theorem reserve {runExists : Uuid → Bool} {q : ReserveRequest} (hb : b.Governed)
    (hKeys : ∀ key ∈ q.accountKeys, ∃ p suffix, key = dimensionKey p q.currency suffix)
    (h : reserveBudget tick tenant runExists b q = .ok (b', m)) : b'.Governed := by
  simp only [reserveBudget, bind_eq_ok, require_eq_ok, sql_eq_ok, insertRow_eq_ok, okOr_eq_ok,
    pure_eq_ok, exists_const, Prod.mk.injEq] at h
  obtain ⟨-, accounts, hHold, currency, -, row, -, -, reservations, -, -, b'', hEvent, rfl, -⟩ := h
  obtain ⟨-, -, ledger, -, rfl⟩ := insertCostEvent_eq_ok.mp hEvent
  refine foldlM_invariant (I := fun accounts => Masonwing.Governed b.settings accounts) ?_ hb hHold
  intro key hMem c c' hc hStep
  obtain ⟨p, suffix, rfl⟩ := hKeys key hMem
  exact hc.hold hStep

theorem close {id : Uuid} {r : Reservation} {changed : ReservationRow}
    {heldDelta chargedDelta : Int} {fingerprint : Option String} {label : String} (hb : b.Governed)
    (h : closeReservation tick tenant b id r changed heldDelta chargedDelta fingerprint label =
      .ok (b', m)) : b'.Governed := by
  simp only [closeReservation, bind_eq_ok, sql_eq_ok, pure_eq_ok, Prod.mk.injEq] at h
  obtain ⟨accounts, hAccounts, version, -, r', -, b'', hEvent, rfl, -⟩ := h
  obtain ⟨-, -, ledger, -, rfl⟩ := insertCostEvent_eq_ok.mp hEvent
  exact foldlM_invariant (I := fun accounts => Masonwing.Governed b.settings accounts)
    (fun _ _ _ _ hc hStep => hc.adjust hStep) hb hAccounts

theorem settle {id : Uuid} {used : Int} {fingerprint : Option String} (hb : b.Governed)
    (h : settleBudget tick tenant b id used fingerprint = .ok (b', m)) : b'.Governed := by
  simp only [settleBudget, bind_eq_ok, okOr_eq_ok] at h
  obtain ⟨r, -, h⟩ := h
  split at h
  · simp only [settleAgain, bind_eq_ok, require_eq_ok, pure_eq_ok, Prod.mk.injEq,
      exists_const] at h
    obtain ⟨-, rfl, -⟩ := h
    exact hb
  · simp only [settleOpen, bind_eq_ok, requireCostTransition, require_eq_ok, exists_const] at h
    exact hb.close h.2.2

theorem markUnknown {id : Uuid} (hb : b.Governed)
    (h : markCostUnknown tick tenant b id = .ok (b', m)) : b'.Governed := by
  obtain ⟨r, r', hAdvanced, -, hAccounts⟩ := markCostUnknown_ok h
  unfold Budget.Governed
  rw [hAccounts, hAdvanced.settings]
  exact hb

theorem release {id : Uuid} (hb : b.Governed) (h : releaseBudget tick tenant b id = .ok (b', m)) :
    b'.Governed := by
  simp only [releaseBudget, bind_eq_ok, okOr_eq_ok, requireCostTransition, require_eq_ok,
    exists_const] at h
  obtain ⟨r, -, -, hClose⟩ := h
  exact hb.close hClose

end Budget.Governed

/-! ## Configuring -/

/-- What a configuration leaves: the setting has the new limit, and so has every account whose key
the pattern matches. -/
structure Configured (b b' : Budget) (c : Currency) (p : Period) (limit : Int) : Prop where
  settings : ∃ row : Setting, row.limit = limit ∧ ∀ d, b'.settings.get? d =
    if d = (c, p) then some row else b.settings.get? d
  accounts : ∀ key, (b.accounts.get? key = none ∧ b'.accounts.get? key = none) ∨
    ∃ a a', b.accounts.get? key = some a ∧ b'.accounts.get? key = some a' ∧
      if inDimension p.toText c.text key = true then
        a'.toAccountRow = { a.toAccountRow with limit }
      else a' = a

theorem Setting.check_eq_ok {row : SettingRow} {s : Setting} (h : Setting.check row = .ok s) :
    s.toSettingRow = row := by
  unfold Setting.check at h
  split at h
  · cases h
    rfl
  · cases h

theorem seedSetting_ok {settings settings' : Table (Currency × Period) Setting}
    {dimension : Currency × Period} {id : Uuid}
    (h : seedSetting settings dimension id = .ok settings') :
    (∃ s, settings'.get? dimension = some s ∧ ((settings.get? dimension = some s) ∨
      (settings.get? dimension = none ∧ s.version = .one))) ∧
    ∀ d, d ≠ dimension → settings'.get? d = settings.get? d := by
  unfold seedSetting at h
  split at h
  · rename_i hThere
    cases h
    obtain ⟨s, hs⟩ := Table.contains_iff.mp hThere
    exact ⟨⟨s, hs, Or.inl hs⟩, fun _ _ => rfl⟩
  · simp only [bind_eq_ok, require_eq_ok, insertRow_eq_ok, exists_const] at h
    obtain ⟨-, s, hRow, hInsert⟩ := h
    refine ⟨⟨s, Table.insert?_get?_self hInsert, Or.inr ⟨(Table.insert?_eq_some hInsert).1, ?_⟩⟩,
      fun d hd => ?_⟩
    · rw [Setting.check_eq_ok hRow]
    · rw [Table.insert?_get? hInsert, if_neg hd]

section Configure

variable {tick : Tick} {tenant : Uuid} {b b' : Budget} {currency period : String}
  {limit expected : Int} {m : Mutation}

theorem configureBudget_configured
    (h : configureBudget tick tenant b currency period limit expected = .ok (b', m)) :
    ∃ c p, currency = c.text ∧ period = p.toText ∧ Configured b b' c p limit := by
  simp only [configureBudget, bind_eq_ok, sql_eq_ok, okOr_eq_ok, require_eq_ok, pure_eq_ok,
    Prod.mk.injEq, exists_const] at h
  obtain ⟨c, hCurrency, p, hPeriod, settings, hSeed, current, hCurrent, version, -, -, row, hRow,
    accounts, hUpdate, rfl, -⟩ := h
  obtain rfl := Currency.text_of_ofText? hCurrency
  obtain rfl := Period.toText_of_ofText? hPeriod
  refine ⟨c, p, rfl, rfl, ⟨row, ?_, fun d => ?_⟩, fun key => ?_⟩
  · rw [Setting.check_eq_ok hRow]
  · by_cases hd : d = (c, p)
    · rw [if_pos hd, hd, Table.get?_set_self hCurrent]
    · rw [if_neg hd, Table.get?_set_ne _ hd, (seedSetting_ok hSeed).2 d hd]
  · rcases Table.updateWhereM_get? hUpdate key with hNone | ⟨a, a', ha, ha', hStep⟩
    · exact Or.inl hNone
    · refine Or.inr ⟨a, a', ha, ha', ?_⟩
      unfold Table.rewriteRow at hStep
      split at hStep
      · rename_i hKey
        rw [if_pos hKey]
        exact Account.check_eq_ok hStep
      · rename_i hKey
        rw [if_neg hKey]
        exact (Except.ok.inj hStep).symm

/-- The pattern matches the accounts of the dimension. -/
theorem InPeriod.inDimension_iff {key : String} {a : Account} {p q : Period} {c : Currency}
    (h : InPeriod key a q) : inDimension p.toText c.text key = true ↔ p = q ∧ c = a.currency := by
  obtain ⟨suffix, rfl⟩ := h.key
  exact Masonwing.inDimension_iff

theorem Budget.Governed.configure (hb : b.Governed)
    (h : configureBudget tick tenant b currency period limit expected = .ok (b', m)) :
    b'.Governed := by
  obtain ⟨c, p, -, -, ⟨row, hLimit, hSettings⟩, hAccounts⟩ := configureBudget_configured h
  intro key a' ha'
  rcases hAccounts key with ⟨-, hNone⟩ | ⟨a, a'', ha, ha'', hStep⟩
  · rw [hNone] at ha'
    cases ha'
  · rw [ha''] at ha'
    cases ha'
    obtain ⟨q, s, hKey, hSetting, hSame⟩ := hb key a ha
    by_cases hDimension : p = q ∧ c = a.currency
    · rw [if_pos (hKey.inDimension_iff.mpr hDimension)] at hStep
      obtain ⟨rfl, rfl⟩ := hDimension
      have hCurrency : a'.currency = a.currency := by rw [hStep]
      refine ⟨p, row, ⟨?_⟩, ?_, ?_⟩
      · rw [hCurrency]
        exact hKey.key
      · rw [hSettings, hCurrency, if_pos rfl]
      · rw [hLimit, hStep]
    · rw [if_neg fun hMatch => hDimension (hKey.inDimension_iff.mp hMatch)] at hStep
      subst hStep
      refine ⟨q, s, hKey, ?_, hSame⟩
      rw [hSettings, if_neg, hSetting]
      intro hEq
      obtain ⟨rfl, rfl⟩ := Prod.mk.inj hEq
      exact hDimension ⟨rfl, rfl⟩

/-- The version that a configuration of the dimension has to expect; one that was never configured
begins with the first. -/
def Budget.settingVersion (b : Budget) (d : Currency × Period) : Int :=
  ((b.settings.get? d).map fun s => s.version.val).getD 1

/-- A new setting gets an identifier that no other has. -/
def FreshSetting (tick : Tick) (b : Budget) (d : Currency × Period) : Prop :=
  b.settings.get? d = none → ∀ e s, b.settings.get? e = some s → s.id ≠ tick.draw .budgetSetting

theorem seedSetting_succeeds {c : Currency} {p : Period} (hFresh : FreshSetting tick b (c, p)) :
    ∃ settings, seedSetting b.settings (c, p) (tick.draw .budgetSetting) = .ok settings := by
  unfold seedSetting
  split
  · exact ⟨_, rfl⟩
  · rename_i hNew
    have hNone := Table.get?_eq_none_of_not_contains (Bool.not_eq_true _ ▸ hNew)
    have hZero : SettingRow.WellFormed ⟨tick.draw .budgetSetting, 0, .one⟩ :=
      ⟨Int.le_refl 0, show (0 : Int) ≤ maxMicrounits by decide⟩
    obtain ⟨settings, hInsert⟩ :=
      (Table.insert?_isSome_iff (t := b.settings) (r := ⟨_, hZero⟩)).mpr hNone
    refine ⟨settings, ?_⟩
    simp only [bind_eq_ok, require_eq_ok, insertRow_eq_ok, exists_const, Table.any_eq_false_iff,
      decide_eq_false_iff_not]
    exact ⟨hFresh hNone, _, dif_pos hZero, hInsert⟩

/-- With the right version and a limit in range, a configuration succeeds exactly where the limit
covers every account of the dimension. -/
theorem configureBudget_succeeds_iff (hb : b.Governed) {c : Currency} {p : Period}
    (hRange : 0 ≤ limit ∧ limit ≤ maxMicrounits) (hExpected : expected = b.settingVersion (c, p))
    (hRoom : expected < maxI32) (hFresh : FreshSetting tick b (c, p)) :
    (∃ result, configureBudget tick tenant b c.text p.toText limit expected = .ok result) ↔
      ∀ key a, b.accounts.get? key = some a → a.currency = c → InPeriod key a p →
        a.held + a.charged ≤ limit := by
  constructor
  · rintro ⟨⟨b', m⟩, h⟩ key a ha rfl hKey
    simp only [configureBudget, bind_eq_ok, sql_eq_ok, okOr_eq_ok, require_eq_ok, exists_const,
      Table.any_eq_false_iff] at h
    obtain ⟨-, -, -, -, -, -, -, -, -, -, hCovered, -⟩ := h
    have hRow := hCovered key a ha
    rw [hKey.inDimension_iff.mpr ⟨rfl, rfl⟩, Bool.true_and, decide_eq_false_iff_not] at hRow
    exact Int.not_lt.mp hRow
  · intro hCovered
    obtain ⟨settings, hSeed⟩ := seedSetting_succeeds hFresh
    obtain ⟨⟨current, hCurrent, hVersion⟩, -⟩ := seedSetting_ok hSeed
    have hActual : current.version.val = expected := by
      rw [hExpected, Budget.settingVersion]
      rcases hVersion with hOld | ⟨hNone, hOne⟩
      · rw [hOld]
        rfl
      · rw [hNone, hOne]
        rfl
    obtain ⟨version, hNext⟩ := Version.exists_next?_iff.mpr (hActual ▸ hRoom)
    -- an account of the dimension, covered by the new limit
    have hLies : ∀ key a, b.accounts.get? key = some a → inDimension p.toText c.text key = true →
        a.held + a.charged ≤ limit := by
      intro key a ha hMatch
      obtain ⟨q, s, hKey, -, -⟩ := hb key a ha
      obtain ⟨rfl, rfl⟩ := hKey.inDimension_iff.mp hMatch
      exact hCovered key a ha rfl hKey
    have hUpdate : ∃ accounts, b.accounts.updateWhereM
        (fun key _ => inDimension p.toText c.text key)
        (fun a => Account.check { a.toAccountRow with limit }) = .ok accounts := by
      refine Table.updateWhereM_succeeds fun row hRow hMatch => ?_
      have hWithin := hLies row.1 row.2 (Table.get?_eq_some_iff.mpr hRow) hMatch
      have hChecked := row.2.checked
      refine ⟨_, dif_pos ⟨hRange, hChecked.2.1, hChecked.2.2.1, ?_⟩⟩
      show row.2.held ≤ limit - row.2.charged
      omega
    obtain ⟨accounts, hAccounts⟩ := hUpdate
    have hRow : SettingRow.WellFormed { current.toSettingRow with limit, version } := hRange
    apply Exists.intro
    simp only [configureBudget, bind_eq_ok, sql_eq_ok, okOr_eq_ok, require_eq_ok, pure_eq_ok,
      exists_const, Table.any_eq_false_iff]
    refine ⟨c, c.ofText?_text, p, p.ofText?_toText, settings, hSeed, current, hCurrent, version,
      requireExpectedVersion_eq_ok.mpr ⟨hActual, hNext⟩, fun key a ha => ?_, _,
      dif_pos hRow, accounts, hAccounts, rfl⟩
    rw [Bool.and_eq_false_imp]
    exact fun hMatch => decide_eq_false (Int.not_lt.mpr (hLies key a ha hMatch))

end Configure

/-! ## Every run -/

theorem Budget.Governed.runBudgetCall {tenant : Uuid} {b b' : Budget} {c : BudgetCall} {m : Mutation}
    (hb : b.Governed) (hKeyed : c.WellKeyed) (h : runBudgetCall tenant b c = .ok (b', m)) :
    b'.Governed := by
  cases c with
  | reserve tick runExists q => exact hb.reserve hKeyed h
  | settle tick id used fingerprint => exact hb.settle h
  | markUnknown tick id => exact hb.markUnknown h
  | release tick id => exact hb.release h
  | configure tick currency period limit expected => exact hb.configure h

theorem Budget.governed_empty : Budget.empty.Governed := Masonwing.Governed.empty

theorem Budget.Governed.run (tenant : Uuid) {calls : List BudgetCall}
    (hKeyed : ∀ c ∈ calls, c.WellKeyed) :
    (Machine.run (budgetStep tenant) Budget.empty calls).Governed :=
  Machine.run_invariant_of (budgetStep tenant) (I := Budget.Governed)
    (P := fun e => e.call.WellKeyed)
    (fun _ _ hb hCall => transact_invariant hb fun _ _ h => hb.runBudgetCall hCall h)
    Budget.governed_empty fun _ he => hKeyed _ (Machine.call_mem _ he)

/-- Configured limits govern every account: whatever calls were made, in whatever order, each
account has the limit of its currency and period; a configuration succeeds exactly where its limit
covers what is held and charged, and then touches the accounts of its dimension only. -/
theorem limits_govern (tenant : Uuid) (calls : List BudgetCall)
    (hKeyed : ∀ c ∈ calls, c.WellKeyed) :
    let b := Machine.run (budgetStep tenant) Budget.empty calls
    (∀ key a, b.accounts.get? key = some a →
      ∃ p s, InPeriod key a p ∧ b.settings.get? (a.currency, p) = some s ∧ a.limit = s.limit) ∧
    (∀ tick (c : Currency) (p : Period) limit expected, 0 ≤ limit → limit ≤ maxMicrounits →
      expected = b.settingVersion (c, p) → expected < maxI32 → FreshSetting tick b (c, p) →
      ((∃ m, (budgetStep tenant b (.configure tick c.text p.toText limit expected)).2 = .ok m) ↔
        ∀ key a, b.accounts.get? key = some a → a.currency = c → InPeriod key a p →
          a.held + a.charged ≤ limit)) ∧
    (∀ tick currency period limit expected e,
      (budgetStep tenant b (.configure tick currency period limit expected)).2 = .error e →
      (budgetStep tenant b (.configure tick currency period limit expected)).1 = b) ∧
    ∀ tick currency period limit expected key a, b.accounts.get? key = some a →
      ¬ (∃ p : Period, a.currency.text = currency ∧ p.toText = period ∧ InPeriod key a p) →
      (budgetStep tenant b (.configure tick currency period limit expected)).1.accounts.get? key =
        some a := by
  intro b
  have hb : b.Governed := Budget.Governed.run tenant hKeyed
  refine ⟨hb, fun tick c p limit expected hLow hHigh hExpected hRoom hFresh => ?_,
    fun tick currency period limit expected e hRefused => ?_,
    fun tick currency period limit expected key a ha hOther => ?_⟩
  · have hSucceeds : (∃ result, configureBudget tick tenant b c.text p.toText limit expected =
        .ok result) ↔ _ :=
      configureBudget_succeeds_iff hb ⟨hLow, hHigh⟩ hExpected hRoom hFresh
    rw [← hSucceeds]
    rcases transact_cases b (runBudgetCall tenant b (.configure tick c.text p.toText limit expected))
      with ⟨b', m, hRun, hStep⟩ | ⟨e, hRun, hStep⟩
    · rw [budgetStep, hStep]
      exact iff_of_true ⟨m, rfl⟩ ⟨_, hRun⟩
    · rw [budgetStep, hStep]
      refine iff_of_false (fun ⟨m, hm⟩ => by cases hm) fun ⟨result, hOk⟩ => ?_
      rw [runBudgetCall, hOk] at hRun
      cases hRun
  · rcases transact_cases b (runBudgetCall tenant b
      (.configure tick currency period limit expected)) with ⟨b', m, -, hStep⟩ | ⟨e', -, hStep⟩
    · rw [budgetStep, hStep] at hRefused
      cases hRefused
    · rw [budgetStep, hStep]
  · rcases transact_cases b (runBudgetCall tenant b
      (.configure tick currency period limit expected)) with ⟨b', m, hRun, hStep⟩ | ⟨e', -, hStep⟩
    · rw [budgetStep, hStep]
      obtain ⟨c, p, rfl, rfl, hConfigured⟩ := configureBudget_configured hRun
      rcases hConfigured.accounts key with ⟨hNone, -⟩ | ⟨old, new, hOld, hNew, hRow⟩
      · rw [hNone] at ha
        cases ha
      · cases hOld.symm.trans ha
        obtain ⟨q, s, hKey, -, -⟩ := hb key a ha
        rw [if_neg fun hMatch => ?_] at hRow
        · rw [hNew, hRow]
        · obtain ⟨rfl, hCurrency⟩ := hKey.inDimension_iff.mp hMatch
          exact hOther ⟨p, by rw [hCurrency], rfl, hKey⟩
    · rw [budgetStep, hStep]
      exact ha

namespace Sample

/-- A limit is configured, used and configured again. -/
def budgetCalls : List BudgetCall :=
  [.configure (tick 1) "USD" "RUN" 1000 1,
    .reserve (tick 2) (fun _ => true)
      { runId, logicalCallId := "call", currency := "USD", upperBound := 20
        priceProfile := "1.0.0", accountKeys := ["RUN:USD:default"] },
    .configure (tick 3) "USD" "RUN" 500 2]

end Sample

theorem reconfigured_limit_governs :
    ∃ a s, (Machine.run (budgetStep Sample.tenantId) Budget.empty Sample.budgetCalls).accounts.get?
        "RUN:USD:default" = some a ∧
      (Machine.run (budgetStep Sample.tenantId) Budget.empty Sample.budgetCalls).settings.get?
        (Sample.usd, .run) = some s ∧ a.limit = s.limit ∧ a.limit = 500 := by
  have hKeyed : ∀ c ∈ Sample.budgetCalls, c.WellKeyed := by
    intro c hc
    simp only [Sample.budgetCalls, List.mem_cons, List.not_mem_nil, or_false] at hc
    rcases hc with rfl | rfl | rfl
    · trivial
    · intro key hKey
      rw [List.mem_singleton.mp hKey]
      exact ⟨.run, "default", by decide⟩
    · trivial
  have hRun : ((Machine.run (budgetStep Sample.tenantId) Budget.empty
      Sample.budgetCalls).accounts.get? "RUN:USD:default").map
        (fun a => (a.currency, a.limit, keyPeriod "RUN:USD:default")) =
      some (Sample.usd, 500, Period.run.toText) := by decide +kernel
  obtain ⟨a, ha, hTerms⟩ := Option.map_eq_some_iff.mp hRun
  obtain ⟨hCurrency, hRest⟩ := Prod.mk.inj hTerms
  obtain ⟨hLimit, -⟩ := Prod.mk.inj hRest
  obtain ⟨p, s, ⟨suffix, hKey⟩, hSetting, hSame⟩ :=
    (limits_govern Sample.tenantId Sample.budgetCalls hKeyed).1 _ a ha
  have hPeriod : p = .run := by
    apply Period.toText_injective
    rw [← keyPeriod_dimensionKey p a.currency.text suffix, ← hKey]
    decide
  subst hPeriod
  rw [hCurrency] at hSetting
  exact ⟨a, s, ha, hSetting, hSame, hLimit⟩

end Masonwing
