import Masonwing.Store.System

/-!
# What executing a command does

`execute` read back: a command is refused at its admission, answered from a live receipt, or
committed. `Committed` is everything a commit does; the handler and the recording of its
changes stay opaque in it, so these lemmas hold for every service.

* `execute_ok`: the two ways to succeed;
* `execute_live` and `execute_new`: with a live receipt the handler is out of reach, without one
  the command is handled;
* `storeReceipt_get?`: the one receipt row that a commit writes.
-/

namespace Masonwing

open Outcome

variable {ι : Type} {env : Env} {svc : Service ι} {tick : Tick} {s s' : Store} {c : Command ι}

/-! ## Receipts -/

theorem liveReceipt_eq_some {key : ReceiptKey} {row : ReceiptRow} :
    liveReceipt tick s key = some row ↔
      s.receipts.get? key = some row ∧ tick.now < row.expiresAt := by
  simp only [liveReceipt, Option.filter_eq_some_iff, decide_eq_true_eq]

theorem liveReceipt_eq_none {key : ReceiptKey} :
    liveReceipt tick s key = none ↔
      ∀ row, s.receipts.get? key = some row → row.expiresAt ≤ tick.now := by
  simp only [liveReceipt, Option.filter_eq_none_iff, decide_eq_true_eq, not_lt]

/-- Where no receipt is live, the new one is stored, and only under its own key. -/
theorem storeReceipt_get? {receipts receipts' : Table ReceiptKey ReceiptRow} {key : ReceiptKey}
    {row : ReceiptRow}
    (hExpired : ∀ old, receipts.get? key = some old → old.expiresAt ≤ tick.stampedAt)
    (h : storeReceipt tick receipts key row = .ok receipts') :
    receipts'.get? key = some row ∧ ∀ k, k ≠ key → receipts'.get? k = receipts.get? k := by
  simp only [storeReceipt, bind_eq_ok, require_eq_ok, exists_const] at h
  obtain ⟨-, h⟩ := h
  split at h
  · rw [insertRow_eq_ok] at h
    refine ⟨Table.insert?_get?_self h, fun k hk => ?_⟩
    rw [Table.insert?_get? h, if_neg hk]
  · rename_i old hOld
    rw [if_pos (hExpired old hOld)] at h
    cases h
    exact ⟨Table.get?_set_self hOld row, fun k hk => Table.get?_set_ne receipts hk row⟩

/-- Storing a receipt cannot fail. -/
theorem storeReceipt_succeeds {receipts : Table ReceiptKey ReceiptRow} {key : ReceiptKey}
    (hOperation : 1 ≤ key.operation.toList.length ∧ key.operation.toList.length ≤ 128)
    (row : ReceiptRow) : ∃ receipts', storeReceipt tick receipts key row = .ok receipts' := by
  simp only [storeReceipt, bind_eq_ok, require_eq_ok, exists_const]
  cases hOld : receipts.get? key with
  | none =>
    obtain ⟨receipts', hInsert⟩ := Table.insert?_isSome_iff.mpr hOld
    exact ⟨receipts', hOperation, insertRow_eq_ok.mpr hInsert⟩
  | some old => exact ⟨_, hOperation, rfl⟩

/-! ## Commits -/

/-- A commit: what the handler returned, what was recorded about it, and its receipt. -/
structure Committed (env : Env) (svc : Service ι) (tick : Tick) (s : Store) (c : Command ι)
    (key : ReceiptKey) (t : Tables) (m : Mutation) (s' : Store) (receipt : CommandReceipt) :
    Prop where
  handled : svc.handle tick s.tables c = .ok (t, m)
  recorded : recordChanges env tick c.actor (svc.operation c.input) 0 t.journal m.changes =
    .ok s'.tables.journal
  tables : s'.tables = { t with journal := s'.tables.journal }
  receipt_eq : receipt = commandReceipt tick m
  valid : env.receiptValid receipt = true
  stored : storeReceipt tick s.receipts key
    { fingerprint := c.fingerprint, commandId := tick.draw .command, receipt
      expiresAt := tick.stampedAt + dayMicroseconds } = .ok s'.receipts

theorem commitCommand_ok {key : ReceiptKey} {a : Answer}
    (h : commitCommand env svc tick s c key = .ok (s', a)) :
    ∃ t m receipt, Committed env svc tick s c key t m s' receipt ∧ a = .committed receipt := by
  simp only [commitCommand, bind_eq_ok, require_eq_ok, sql_eq_ok, pure_eq_ok, Prod.exists,
    Prod.mk.injEq, exists_const] at h
  obtain ⟨t, m, hHandle, -, journal, hRecord, hValid, receipts, hStore, rfl, rfl⟩ := h
  exact ⟨t, m, _, ⟨hHandle, hRecord, rfl, rfl, hValid, hStore⟩, rfl⟩

/-- A handled command commits if what it did can be recorded. -/
theorem commitCommand_of_recorded {key : ReceiptKey} {t : Tables} {m : Mutation} {j : Journal}
    (hOperation : 1 ≤ key.operation.toList.length ∧ key.operation.toList.length ≤ 128)
    (hHandle : svc.handle tick s.tables c = .ok (t, m))
    (hRun : m.accepted = true → m.runId ≠ none)
    (hRecord : recordChanges env tick c.actor (svc.operation c.input) 0 t.journal m.changes =
      .ok j) (hValid : env.receiptValid (commandReceipt tick m) = true) :
    ∃ s', commitCommand env svc tick s c key = .ok (s', .committed (commandReceipt tick m)) ∧
      s'.tables = { t with journal := j } := by
  have hStores : ∃ receipts, storeReceipt tick s.receipts key
      { fingerprint := c.fingerprint, commandId := tick.draw .command
        receipt := commandReceipt tick m, expiresAt := tick.stampedAt + dayMicroseconds } =
        .ok receipts := storeReceipt_succeeds hOperation _
  obtain ⟨receipts, hStore⟩ := hStores
  refine ⟨{ tables := { t with journal := j }, receipts }, ?_, rfl⟩
  simp only [commitCommand, bind_eq_ok, require_eq_ok, sql_eq_ok, pure_eq_ok, Prod.exists,
    Prod.mk.injEq, exists_const]
  exact ⟨t, m, hHandle, hRun, j, hRecord, hValid, receipts, hStore, rfl, rfl⟩

theorem commitCommand_error {key : ReceiptKey} {failure : CommandFailure}
    (h : svc.handle tick s.tables c = .error failure) :
    commitCommand env svc tick s c key = .error failure := by
  rw [commitCommand, h]
  rfl

/-- A live receipt is repeated, or in conflict with another command. -/
theorem replayReceipt_eq {row : ReceiptRow} (hValid : env.receiptValid row.receipt = true) :
    replayReceipt env s c row =
      if row.fingerprint = c.fingerprint then .ok (s, .replayed row.receipt)
      else .error (.conflict "IDEMPOTENCY_CONFLICT") := by
  unfold replayReceipt
  by_cases hSame : row.fingerprint = c.fingerprint
  · simp only [require, if_pos hSame, if_pos hValid]
    rfl
  · simp only [require, if_neg hSame]
    rfl

theorem replayReceipt_ok {row : ReceiptRow} {a : Answer}
    (h : replayReceipt env s c row = .ok (s', a)) :
    row.fingerprint = c.fingerprint ∧ s' = s ∧ a = .replayed row.receipt := by
  simp only [replayReceipt, bind_eq_ok, require_eq_ok, pure_eq_ok, Prod.mk.injEq,
    exists_const] at h
  obtain ⟨hFingerprint, -, rfl, rfl⟩ := h
  exact ⟨hFingerprint, rfl, rfl⟩

/-- A successful command was answered from a receipt or committed. -/
theorem execute_ok {a : Answer} (h : execute env svc tick s c = .ok (s', a)) :
    ∃ principal, admitCommand svc s c = .ok principal ∧
      ((∃ row, liveReceipt tick s (receiptKey svc c principal) = some row ∧
          row.fingerprint = c.fingerprint ∧ s' = s ∧ a = .replayed row.receipt) ∨
        (liveReceipt tick s (receiptKey svc c principal) = none ∧
          ∃ t m receipt, Committed env svc tick s c (receiptKey svc c principal) t m s' receipt ∧
            a = .committed receipt)) := by
  rw [execute, bind_eq_ok] at h
  obtain ⟨principal, hAdmit, h⟩ := h
  refine ⟨principal, hAdmit, ?_⟩
  split at h
  · rename_i row hLive
    exact Or.inl ⟨row, hLive, replayReceipt_ok h⟩
  · rename_i hLive
    exact Or.inr ⟨hLive, commitCommand_ok h⟩

theorem admitCommand_principal {principal : Uuid} (h : admitCommand svc s c = .ok principal) :
    parseUuid c.actor.principalId.text = .ok principal := by
  simp only [admitCommand, bind_eq_ok] at h
  obtain ⟨-, -, -, -, -, -, -, -, -, -, hParse⟩ := h
  exact hParse

/-- With a live receipt a command is answered without its handler. -/
theorem execute_live {principal : Uuid} {row : ReceiptRow}
    (hAdmit : admitCommand svc s c = .ok principal)
    (hLive : liveReceipt tick s (receiptKey svc c principal) = some row) :
    execute env svc tick s c = replayReceipt env s c row := by
  rw [execute, hAdmit]
  dsimp only [bind, Except.bind]
  rw [hLive]

/-- Without a live receipt a command is handled. -/
theorem execute_new {principal : Uuid} (hAdmit : admitCommand svc s c = .ok principal)
    (hLive : liveReceipt tick s (receiptKey svc c principal) = none) :
    execute env svc tick s c = commitCommand env svc tick s c (receiptKey svc c principal) := by
  rw [execute, hAdmit]
  dsimp only [bind, Except.bind]
  rw [hLive]

theorem execute_refused {e : CommandFailure} (hAdmit : admitCommand svc s c = .error e) :
    execute env svc tick s c = .error e := by
  rw [execute, hAdmit]
  rfl

end Masonwing
