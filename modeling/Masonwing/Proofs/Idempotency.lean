import Masonwing.Proofs.Execution

/-!
# Command idempotency

Commands of one tenant are serialized by its advisory lock, so concurrent calls of `execute`
are some list of transactions: executed commands, commands that crash before their commit, and
transactions of other code paths, which do not touch receipts. Over every such list:

* `keeps_receipt`: a receipt stays as it is until it expires (step), and `keeps_receipt_run`
  along a run;
* `command_idempotency`: inside the window of a committed command its key is answered from the
  receipt, so that no second commit happens, and a commit always comes with its receipt row.

The service is arbitrary; nothing here depends on what a handler does.
-/

namespace Masonwing

open Outcome

variable {ι : Type}

/-! ## The machine -/

inductive StoreAction (ι : Type) where
  | execute (c : Command ι)
  | crash (c : Command ι)
  | other (f : Tables → Tables)

structure StoreCall (ι : Type) where
  tick : Tick
  action : StoreAction ι

def storeStep (env : Env) (svc : Service ι) (s : Store) (call : StoreCall ι) :
    Store × Option (Result Answer) :=
  match call.action with
  | .execute c =>
    let next := transact s (Masonwing.execute env svc call.tick s c)
    (next.1, some next.2)
  | .crash _ => (s, none)
  | .other f => ({ s with tables := f s.tables }, none)

/-- The database clock does not go back from one transaction to the next. -/
def MonotoneClock (calls : List (StoreCall ι)) : Prop :=
  calls.Pairwise fun a b => a.tick.stampedAt ≤ b.tick.now

/-- The receipt key of a command, if its principal is a principal at all. -/
def commandKey (svc : Service ι) (c : Command ι) : Option ReceiptKey :=
  (Uuid.parse c.actor.principalId.text).map (receiptKey svc c)

/-- The input matches its schema and the fingerprint is that of the input. -/
def Service.WellFormed (svc : Service ι) (c : Command ι) : Prop :=
  svc.inputValid c.input = true ∧ svc.fingerprint c.input = some c.fingerprint

/-- The current-authority checks of `execute`. -/
def authorityCheck (svc : Service ι) (s : Store) (c : Command ι) : Result Unit := do
  beginActor s.tables c.actor
  svc.authorize s.tables c

abbrev StoreEvent (ι : Type) := Machine.Event Store (StoreCall ι) (Option (Result Answer))

/-! ## One step -/

section Step

variable {env : Env} {svc : Service ι} {s : Store} {call : StoreCall ι} {c : Command ι}

theorem commandKey_eq {principal : Uuid} (h : admitCommand svc s c = .ok principal) :
    commandKey svc c = some (receiptKey svc c principal) := by
  have hParse := admitCommand_principal h
  rw [parseUuid, okOr_eq_ok] at hParse
  rw [commandKey, hParse]
  rfl

/-- A command is refused for its form or by the current-authority checks. -/
theorem admitCommand_error {e : CommandFailure} {key : ReceiptKey}
    (hKey : commandKey svc c = some key) (h : admitCommand svc s c = .error e) :
    ¬ svc.WellFormed c ∨ authorityCheck svc s c = .error e := by
  by_cases hForm : svc.WellFormed c
  · right
    obtain ⟨hInput, hFingerprint⟩ := hForm
    obtain ⟨principal, hParse, -⟩ := Option.map_eq_some_iff.mp hKey
    simp only [admitCommand, bind_eq_error, require_eq_error, okOr_eq_error, require_eq_ok,
      okOr_eq_ok, hInput, hFingerprint, parseUuid, hParse] at h
    simp only [authorityCheck, bind_eq_error]
    simpa using h
  · exact Or.inl hForm

/-- The event of an executed command. -/
theorem storeStep_execute (hAction : call.action = .execute c) :
    storeStep env svc s call =
      ((transact s (execute env svc call.tick s c)).1,
        some (transact s (execute env svc call.tick s c)).2) := by
  unfold storeStep
  rw [hAction]

variable (env svc s) in
/-- An executed command commits with its one receipt row, or changes nothing. -/
theorem storeStep_commits (hAction : call.action = .execute c) :
    (∃ key t m r, commandKey svc c = some key ∧
      (storeStep env svc s call).2 = some (.ok (.committed r)) ∧
      Committed env svc call.tick s c key t m (storeStep env svc s call).1 r ∧
      (storeStep env svc s call).1.receipts.get? key =
        some { fingerprint := c.fingerprint, commandId := call.tick.draw .command, receipt := r
               expiresAt := call.tick.stampedAt + dayMicroseconds } ∧
      (∀ k, k ≠ key → (storeStep env svc s call).1.receipts.get? k = s.receipts.get? k) ∧
      ∀ row, s.receipts.get? key = some row → row.expiresAt ≤ call.tick.now) ∨
    ((storeStep env svc s call).1 = s ∧
      ∀ r, (storeStep env svc s call).2 ≠ some (.ok (.committed r))) := by
  rw [storeStep_execute hAction]
  rcases transact_cases s (execute env svc call.tick s c) with
    ⟨s', a, hOk, hTransact⟩ | ⟨e, -, hTransact⟩
  · rw [hTransact]
    obtain ⟨principal, hAdmit, hReplay | ⟨hLive, t, m, r, hCommitted, rfl⟩⟩ := execute_ok hOk
    · obtain ⟨row, -, -, rfl, rfl⟩ := hReplay
      exact Or.inr ⟨rfl, fun r h => by cases h⟩
    · have hExpired := liveReceipt_eq_none.mp hLive
      obtain ⟨hSelf, hOther⟩ := storeReceipt_get?
        (fun old hOld => le_trans (hExpired old hOld) call.tick.now_le_stamped) hCommitted.stored
      exact Or.inl ⟨_, t, m, r, commandKey_eq hAdmit, rfl, hCommitted, hSelf, hOther, hExpired⟩
  · rw [hTransact]
    exact Or.inr ⟨rfl, fun r h => by cases h⟩

variable (env svc) in
/-- A receipt stays as it is until it expires. -/
theorem keeps_receipt {key : ReceiptKey} {row : ReceiptRow} (hRow : s.receipts.get? key = some row)
    (hTime : call.tick.now < row.expiresAt) :
    (storeStep env svc s call).1.receipts.get? key = some row := by
  cases hAction : call.action with
  | execute c =>
    rcases storeStep_commits env svc s hAction with
      ⟨k, t, m, r, -, -, -, -, hOther, hExpired⟩ | ⟨hSame, -⟩
    · by_cases hk : key = k
      · subst hk
        have hLate := hExpired row hRow
        omega
      · rw [hOther key hk]
        exact hRow
    · rw [hSame]
      exact hRow
  | crash c =>
    unfold storeStep
    rw [hAction]
    exact hRow
  | other f =>
    unfold storeStep
    rw [hAction]
    exact hRow

theorem keeps_receipt_run {key : ReceiptKey} {row : ReceiptRow} {calls : List (StoreCall ι)}
    (hRow : s.receipts.get? key = some row)
    (hTime : ∀ call ∈ calls, call.tick.now < row.expiresAt) :
    (Machine.run (storeStep env svc) s calls).receipts.get? key = some row := by
  induction calls generalizing s with
  | nil => exact hRow
  | cons call calls ih =>
    have hStep := keeps_receipt env svc hRow (hTime call List.mem_cons_self)
    exact ih hStep fun d hd => hTime d (List.mem_cons_of_mem _ hd)

variable (env) in
/-- Under a live receipt a command is refused, replayed or in conflict, and nothing changes. -/
theorem storeStep_live {key : ReceiptKey} {row : ReceiptRow} (hAction : call.action = .execute c)
    (hKey : commandKey svc c = some key) (hRow : s.receipts.get? key = some row)
    (hTime : call.tick.now < row.expiresAt) (hValid : env.receiptValid row.receipt = true) :
    (storeStep env svc s call).1 = s ∧
      ((∃ e, (¬ svc.WellFormed c ∨ authorityCheck svc s c = .error e) ∧
          (storeStep env svc s call).2 = some (.error e)) ∨
        (c.fingerprint = row.fingerprint ∧
          (storeStep env svc s call).2 = some (.ok (.replayed row.receipt))) ∨
        (c.fingerprint ≠ row.fingerprint ∧
          (storeStep env svc s call).2 = some (.error (.conflict "IDEMPOTENCY_CONFLICT")))) := by
  rw [storeStep_execute hAction]
  cases hAdmit : admitCommand svc s c with
  | error e =>
    rw [execute_refused hAdmit]
    exact ⟨rfl, Or.inl ⟨e, admitCommand_error hKey hAdmit, rfl⟩⟩
  | ok principal =>
    have hKey' := commandKey_eq hAdmit
    rw [hKey] at hKey'
    cases hKey'
    rw [execute_live hAdmit (liveReceipt_eq_some.mpr ⟨hRow, hTime⟩),
      replayReceipt_eq hValid]
    by_cases hSame : row.fingerprint = c.fingerprint
    · rw [if_pos hSame]
      exact ⟨rfl, Or.inr (Or.inl ⟨hSame.symm, rfl⟩)⟩
    · rw [if_neg hSame]
      exact ⟨rfl, Or.inr (Or.inr ⟨fun h => hSame h.symm, rfl⟩)⟩

end Step

/-! ## Whole runs -/

/-- The receipt of a committed command is still there at every later call of its window. -/
theorem receipt_at_later {env : Env} {svc : Service ι} {s : Store} {calls : List (StoreCall ι)}
    (hClock : MonotoneClock calls) {past between future : List (StoreEvent ι)}
    {first later : StoreEvent ι}
    (hTrace : Machine.trace (storeStep env svc) s calls =
      past ++ first :: (between ++ later :: future))
    {c₁ : Command ι} {r : CommandReceipt} {key : ReceiptKey}
    (hFirst : first.call.action = .execute c₁)
    (hCommit : first.response = some (.ok (.committed r)))
    (hKey : commandKey svc c₁ = some key)
    (hWindow : later.call.tick.now < first.call.tick.stampedAt + dayMicroseconds) :
    later.before.receipts.get? key =
        some { fingerprint := c₁.fingerprint, commandId := first.call.tick.draw .command
               receipt := r, expiresAt := first.call.tick.stampedAt + dayMicroseconds } ∧
      env.receiptValid r = true ∧ first.call.tick.stampedAt ≤ later.call.tick.now ∧
      later = Machine.eventAt (storeStep env svc) later.before later.call := by
  obtain ⟨before, after, hCalls, -, hFirstAt, hAfter⟩ :=
    Machine.trace_eq_append_cons (storeStep env svc) hTrace
  obtain ⟨middle, rest, hRest, -, hLaterAt, -⟩ :=
    Machine.trace_eq_append_cons (storeStep env svc) hAfter
  -- the first event wrote the row
  have hRow : first.after.receipts.get? key =
      some { fingerprint := c₁.fingerprint, commandId := first.call.tick.draw .command
             receipt := r, expiresAt := first.call.tick.stampedAt + dayMicroseconds } ∧
      env.receiptValid r = true := by
    rw [hFirstAt] at hCommit ⊢
    rcases storeStep_commits env svc (Machine.run (storeStep env svc) s before) hFirst with
      ⟨k, t, m, r', hk, hResponse, hCommitted, hGet, -, -⟩ | ⟨-, hNone⟩
    · rw [hKey] at hk
      cases hk
      have hr : r' = r := by
        have hBoth := hResponse.symm.trans hCommit
        simpa using hBoth
      subst hr
      exact ⟨hGet, hCommitted.valid⟩
    · exact absurd hCommit (hNone r)
  -- and every call up to the later one comes inside the window
  rw [hRest] at hCalls
  have hOrder : MonotoneClock (before ++ first.call :: (middle ++ later.call :: rest)) :=
    hCalls ▸ hClock
  have hTail := (List.pairwise_append.mp hOrder).2.1
  have hSplit := List.pairwise_cons.mp hTail
  have hFirstLater : first.call.tick.stampedAt ≤ later.call.tick.now :=
    hSplit.1 later.call (by simp)
  have hMiddle : ∀ d ∈ middle, d.tick.now < first.call.tick.stampedAt + dayMicroseconds := by
    intro d hd
    have hBefore : d.tick.stampedAt ≤ later.call.tick.now :=
      (List.pairwise_append.mp hSplit.2).2.2 d hd later.call (by simp)
    have hInner := d.tick.now_le_stamped
    omega
  refine ⟨?_, hRow.2, hFirstLater, ?_⟩
  · rw [hLaterAt]
    exact keeps_receipt_run hRow.1 hMiddle
  · rw [hLaterAt]
    rfl

/-- Command idempotency. Whatever transactions come between, inside the 24 hours after a commit
under a key (i) every command with that key leaves the store as it is and is refused for its form
or by the current-authority checks, gets the stored receipt if its fingerprint is the same, or
`IDEMPOTENCY_CONFLICT` if it differs; (ii) so two commits under one key are a window apart; and
(iii) every executed command either commits together with its one receipt row or changes nothing
at all. -/
theorem command_idempotency (env : Env) (svc : Service ι) (s : Store) (calls : List (StoreCall ι))
    (hClock : MonotoneClock calls) :
    (∀ (past between future : List (StoreEvent ι)) (first later : StoreEvent ι) (c₁ c : Command ι)
        (r : CommandReceipt) (key : ReceiptKey),
      Machine.trace (storeStep env svc) s calls = past ++ first :: (between ++ later :: future) →
      first.call.action = .execute c₁ → first.response = some (.ok (.committed r)) →
      commandKey svc c₁ = some key →
      later.call.action = .execute c → commandKey svc c = some key →
      (later.call.tick.now < first.call.tick.stampedAt + dayMicroseconds →
        later.after = later.before ∧
        ((∃ e, (¬ svc.WellFormed c ∨ authorityCheck svc later.before c = .error e) ∧
            later.response = some (.error e)) ∨
          (c.fingerprint = c₁.fingerprint ∧ later.response = some (.ok (.replayed r))) ∨
          (c.fingerprint ≠ c₁.fingerprint ∧
            later.response = some (.error (.conflict "IDEMPOTENCY_CONFLICT"))))) ∧
      (∀ r', later.response = some (.ok (.committed r')) →
        first.call.tick.stampedAt + dayMicroseconds ≤ later.call.tick.now)) ∧
    ∀ e ∈ Machine.trace (storeStep env svc) s calls, ∀ c, e.call.action = .execute c →
      (∃ key t m r, commandKey svc c = some key ∧ e.response = some (.ok (.committed r)) ∧
        Committed env svc e.call.tick e.before c key t m e.after r ∧
        e.after.receipts.get? key =
          some { fingerprint := c.fingerprint, commandId := e.call.tick.draw .command, receipt := r
                 expiresAt := e.call.tick.stampedAt + dayMicroseconds } ∧
        ∀ k, k ≠ key → e.after.receipts.get? k = e.before.receipts.get? k) ∨
      (e.after = e.before ∧ ∀ r, e.response ≠ some (.ok (.committed r))) := by
  constructor
  · intro past between future first later c₁ c r key hTrace hFirst hCommit hKey hLater hKey'
    -- the answer inside the window decides both parts
    have hInside : later.call.tick.now < first.call.tick.stampedAt + dayMicroseconds →
        later.after = later.before ∧
        ((∃ e, (¬ svc.WellFormed c ∨ authorityCheck svc later.before c = .error e) ∧
            later.response = some (.error e)) ∨
          (c.fingerprint = c₁.fingerprint ∧ later.response = some (.ok (.replayed r))) ∨
          (c.fingerprint ≠ c₁.fingerprint ∧
            later.response = some (.error (.conflict "IDEMPOTENCY_CONFLICT")))) := by
      intro hWindow
      obtain ⟨hRow, hValid, -, hAt⟩ :=
        receipt_at_later hClock hTrace hFirst hCommit hKey hWindow
      have hLive := storeStep_live env hLater hKey' hRow hWindow hValid
      rw [hAt]
      exact hLive
    refine ⟨hInside, fun r' hCommit' => ?_⟩
    by_contra hLt
    obtain ⟨-, ⟨e, -, hErr⟩ | ⟨-, hReplay⟩ | ⟨-, hConflict⟩⟩ := hInside (not_le.mp hLt)
    · rw [hErr] at hCommit'
      cases hCommit'
    · rw [hReplay] at hCommit'
      cases hCommit'
    · rw [hConflict] at hCommit'
      cases hCommit'
  · intro e he c hAction
    obtain ⟨before, after, -, hAt⟩ := Machine.mem_trace (storeStep env svc) he
    rw [hAt]
    rcases storeStep_commits env svc (Machine.run (storeStep env svc) s before) hAction with
      ⟨key, t, m, r, hKey, hResponse, hCommitted, hGet, hOther, -⟩ | hNone
    · exact Or.inl ⟨key, t, m, r, hKey, hResponse, hCommitted, hGet, hOther⟩
    · exact Or.inr hNone

/-- The same proposal, sent twice a second apart. -/
def Sample.proposeTwice : List (StoreCall CommandInput) :=
  [1, 2].map fun n =>
    { tick := tick n
      action := .execute
        { actor, idempotencyKey := (uuid 1).toId
          input := .effectPropose "mail.send" connectionId.toText target contentRef grantId.toText
            "1.0.0"
          fingerprint := digest "effect.propose".toUTF8.data.toList } }

theorem command_idempotency_proposeTwice :
    MonotoneClock Sample.proposeTwice ∧
    ∀ e ∈ Machine.trace (storeStep Sample.env (service Sample.env Sample.catalogue)) Sample.store
      Sample.proposeTwice, ∀ c, e.call.action = .execute c →
      (∃ r, e.response = some (.ok (.committed r))) ∨ e.after = e.before := by
  have hClock : MonotoneClock Sample.proposeTwice := by
    simp [MonotoneClock, Sample.proposeTwice, Sample.tick]
  refine ⟨hClock, fun e he c hAction => ?_⟩
  rcases (command_idempotency Sample.env (service Sample.env Sample.catalogue) Sample.store
    Sample.proposeTwice hClock).2 e he c hAction with ⟨_, _, _, r, -, hResponse, -⟩ | ⟨hSame, -⟩
  · exact Or.inl ⟨r, hResponse⟩
  · exact Or.inr hSame

end Masonwing
