import Masonwing.Kernel.State
import Masonwing.Store.Base

/-!
# The budget ledger

`budget_ledger.rs` and `configure_budget` of `administration.rs` over the tables
`budget_settings`, `budget_accounts`, `cost_reservations` and `cost_ledger`. The `CHECK`
constraints of a row are a field of its type, so an update builds the new row first and
fails if the constraints refuse it; `UNIQUE` and `FOREIGN KEY` constraints are checked
where a row is inserted.
-/

namespace Masonwing

open Outcome

/-! ## Columns -/

def isCurrency (s : String) : Bool :=
  s.toList.length == 3 && s.toList.all fun c => 'A' ≤ c && c ≤ 'Z'

/-- A text that matches `^[A-Z]{3}$`. -/
structure Currency where
  text : String
  valid : isCurrency text = true
  deriving DecidableEq

def Currency.ofText? (s : String) : Option Currency :=
  if h : isCurrency s = true then some ⟨s, h⟩ else none

inductive Period where
  | run
  | day
  | month
  deriving DecidableEq

namespace Period

def toText : Period → String
  | .run => "RUN"
  | .day => "DAY"
  | .month => "MONTH"

def ofText? : String → Option Period
  | "RUN" => some .run
  | "DAY" => some .day
  | "MONTH" => some .month
  | _ => none

end Period

/-! ## Rows -/

structure SettingRow where
  id : Uuid
  limit : Int
  version : Version

def SettingRow.WellFormed (s : SettingRow) : Prop := 0 ≤ s.limit ∧ s.limit ≤ maxMicrounits

instance (s : SettingRow) : Decidable s.WellFormed := inferInstanceAs (Decidable (_ ∧ _))

structure Setting extends SettingRow where
  checked : toSettingRow.WellFormed

def Setting.check (s : SettingRow) : Except SqlError Setting :=
  if h : s.WellFormed then .ok ⟨s, h⟩ else .error .checkViolation

structure AccountRow where
  currency : Currency
  limit : Int
  held : Int
  charged : Int

def AccountRow.WellFormed (a : AccountRow) : Prop :=
  (0 ≤ a.limit ∧ a.limit ≤ maxMicrounits) ∧ 0 ≤ a.held ∧ 0 ≤ a.charged ∧
    a.held ≤ a.limit - a.charged

instance (a : AccountRow) : Decidable a.WellFormed := inferInstanceAs (Decidable (_ ∧ _))

structure Account extends AccountRow where
  checked : toAccountRow.WellFormed

structure ReservationRow where
  runId : Uuid
  logicalCallId : String
  currency : Currency
  upperBound : Int
  settled : Option Int
  state : CostState
  priceProfile : String
  accountKeys : List String
  usageFingerprint : Option String
  version : Version
  createdAt : Int

def ReservationRow.WellFormed (r : ReservationRow) : Prop :=
  (0 ≤ r.upperBound ∧ r.upperBound ≤ maxMicrounits) ∧
    (∀ used ∈ r.settled, 0 ≤ used ∧ used ≤ r.upperBound) ∧
    (r.state = .settled ↔ r.settled.isSome = true)

instance (r : ReservationRow) : Decidable r.WellFormed := inferInstanceAs (Decidable (_ ∧ _))

structure Reservation extends ReservationRow where
  checked : toReservationRow.WellFormed

def Reservation.check (r : ReservationRow) : Except SqlError Reservation :=
  if h : r.WellFormed then .ok ⟨r, h⟩ else .error .checkViolation

theorem Reservation.check_eq_ok {r : ReservationRow} {r' : Reservation}
    (h : Reservation.check r = .ok r') : r'.toReservationRow = r := by
  unfold Reservation.check at h
  split at h
  · cases h
    rfl
  · cases h

theorem Reservation.check_of_wellFormed {r : ReservationRow} (h : r.WellFormed) :
    Reservation.check r = .ok ⟨r, h⟩ := by
  rw [Reservation.check, dif_pos h]

/-- One entry of `cost_ledger`; its event type is the state that the reservation enters. -/
structure CostEvent where
  reservationId : Uuid
  eventType : CostState
  heldDelta : Int
  chargedDelta : Int
  usageFingerprint : Option String
  createdAt : Int

structure Budget where
  settings : Table (Currency × Period) Setting
  accounts : Table String Account
  reservations : Table Uuid Reservation
  ledger : Table Uuid CostEvent

def Budget.empty : Budget := ⟨.empty, .empty, .empty, .empty⟩

/-! ## Accounts -/

namespace Account

def check (a : AccountRow) : Except SqlError Account :=
  if h : a.WellFormed then .ok ⟨a, h⟩ else .error .checkViolation

theorem check_eq_ok {a : AccountRow} {b : Account} (h : check a = .ok b) :
    b.toAccountRow = a := by
  unfold check at h
  split at h
  · cases h
    rfl
  · cases h

/-- `SET held_microunits=held_microunits+$h,charged_microunits=charged_microunits+$c`. -/
def move (heldDelta chargedDelta : Int) (a : Account) : Except SqlError Account := do
  let held ← bigint (a.held + heldDelta)
  let charged ← bigint (a.charged + chargedDelta)
  check { a.toAccountRow with held, charged }

theorem move_eq_ok {a b : Account} {heldDelta chargedDelta : Int}
    (h : a.move heldDelta chargedDelta = .ok b) :
    b.held = a.held + heldDelta ∧ b.charged = a.charged + chargedDelta := by
  simp only [move, bind_eq_ok, bigint_eq_ok] at h
  obtain ⟨held, ⟨-, rfl⟩, charged, ⟨-, rfl⟩, hCheck⟩ := h
  rw [check_eq_ok hCheck]
  exact ⟨rfl, rfl⟩

end Account

abbrev Accounts := Table String Account

/-- `budget_constraint_failure`: the constraint of the ledger is the arbiter of a hold. -/
def budgetConstraintFailure : SqlError → CommandFailure
  | .checkViolation => .conflict "BUDGET_EXCEEDED"
  | e => databaseFailure e

/-- The text before the first colon. -/
def keyPeriod (key : String) : String := String.ofList (key.toList.takeWhile (· ≠ ':'))

/-- The currency and the limit that a new account takes from its configured dimension. -/
def seedLimit (settings : Table (Currency × Period) Setting) (currency : String) (key : String) :
    Option (Currency × Int) := do
  let c ← Currency.ofText? currency
  let p ← Period.ofText? (keyPeriod key)
  let s ← settings.get? (c, p)
  if 0 < s.limit then some (c, s.limit) else none

/-- One account of a reservation: add the bound to its hold, or open it. -/
def holdAccount (settings : Table (Currency × Period) Setting) (currency : String) (bound : Int)
    (accounts : Accounts) (key : String) : Result Accounts :=
  match accounts.get? key with
  | some a => do
    let a' ← (a.move bound 0).mapError budgetConstraintFailure
    return accounts.set key a'
  | none => do
    let seed ← okOr (seedLimit settings currency key) (.precondition "BUDGET_NOT_CONFIGURED")
    let a ← (Account.check { currency := seed.1, limit := seed.2, held := bound, charged := 0 }
      ).mapError budgetConstraintFailure
    (insertRow accounts key a).mapError budgetConstraintFailure

/-- One account of a settlement or a release; an account that is not there is not updated. -/
def adjustAccount (heldDelta chargedDelta : Int) (accounts : Accounts) (key : String) :
    Result Accounts :=
  match accounts.get? key with
  | some a => do
    let a' ← sql (a.move heldDelta chargedDelta)
    return accounts.set key a'
  | none => .ok accounts

/-! ## Reservations -/

/-- `insert_cost_event`. -/
def insertCostEvent (tick : Tick) (b : Budget) (reservationId : Uuid) (eventType : CostState)
    (heldDelta chargedDelta : Int) (usageFingerprint : Option String) : Result Budget := do
  require (b.ledger.any (fun _ e => decide (e.reservationId = reservationId ∧
    e.eventType = eventType)) = false) (databaseFailure .uniqueViolation)
  let ledger ← sql (insertRow b.ledger (tick.draw .costEvent)
    { reservationId, eventType, heldDelta, chargedDelta, usageFingerprint, createdAt := tick.now })
  require (b.reservations.contains reservationId = true) (databaseFailure .foreignKeyViolation)
  return { b with ledger }

/-- `reservation_value`. -/
def reservationValue (tenant id : Uuid) (r : ReservationRow) (settled : Option Int) : Json :=
  .obj [("reservation_id", .str id.toText), ("tenant_id", .str tenant.toText),
    ("run_id", .str r.runId.toText), ("currency", .str r.currency.text),
    ("upper_bound_microunits", .num r.upperBound), ("settled_microunits", .ofOption .num settled),
    ("state", .str r.state.toText), ("price_profile", .str r.priceProfile),
    ("version", .num r.version.val)]

structure ReserveRequest where
  runId : Uuid
  logicalCallId : String
  currency : String
  upperBound : Int
  priceProfile : String
  accountKeys : List String

/-- The row that `reserve_budget` inserts. -/
def ReserveRequest.row (q : ReserveRequest) (tick : Tick) (currency : Currency) :
    ReservationRow :=
  { runId := q.runId, logicalCallId := q.logicalCallId, currency, upperBound := q.upperBound
    settled := none, state := .reserved, priceProfile := q.priceProfile
    accountKeys := q.accountKeys, usageFingerprint := none, version := .one
    createdAt := tick.now }

def reserveBudget (tick : Tick) (tenant : Uuid) (runExists : Uuid → Bool) (b : Budget)
    (q : ReserveRequest) : Result (Budget × Mutation) := do
  require (0 < q.upperBound) (.precondition "PRICE_BOUND_UNKNOWN")
  let id := tick.draw .reservation
  let accounts ← q.accountKeys.foldlM (holdAccount b.settings q.currency q.upperBound) b.accounts
  let currency ← sql (okOr (Currency.ofText? q.currency) .checkViolation)
  let row ← sql (Reservation.check (q.row tick currency))
  require (b.reservations.any (fun _ r => decide (r.runId = q.runId ∧
    r.logicalCallId = q.logicalCallId)) = false) (databaseFailure .uniqueViolation)
  let reservations ← sql (insertRow b.reservations id row)
  require (runExists q.runId = true) (databaseFailure .foreignKeyViolation)
  let b' ← insertCostEvent tick { b with accounts, reservations } id .reserved q.upperBound 0 none
  return (b', .one "CostReservation" id .one
    (reservationValue tenant id row.toReservationRow none) "reserve budget")

/-- `require_cost_transition`. -/
def requireCostTransition (state next : CostState) : Result Unit :=
  require (state.edge next = true) (.conflict "ILLEGAL_TRANSITION")

/-- A settlement of an already settled reservation. -/
def settleAgain (tenant : Uuid) (b : Budget) (id : Uuid) (r : Reservation) (used : Int) :
    Result (Budget × Mutation) := do
  require (r.settled = some used) (.conflict "SETTLEMENT_CONFLICT")
  return (b, .one "CostReservation" id r.version
    (reservationValue tenant id r.toReservationRow (some used)) "settle budget")

/-- Close a hold: adjust the accounts of the reservation, write its changed row under the next
version and append the ledger entry. Settling and releasing are the two instances. -/
def closeReservation (tick : Tick) (tenant : Uuid) (b : Budget) (id : Uuid) (r : Reservation)
    (changed : ReservationRow) (heldDelta chargedDelta : Int) (usageFingerprint : Option String)
    (label : String) : Result (Budget × Mutation) := do
  let accounts ← r.accountKeys.foldlM (adjustAccount heldDelta chargedDelta) b.accounts
  let version ← r.version.bump
  let row ← sql (Reservation.check { changed with version })
  let b' ← insertCostEvent tick { b with accounts, reservations := b.reservations.set id row } id
    changed.state heldDelta chargedDelta usageFingerprint
  return (b', .one "CostReservation" id version
    (reservationValue tenant id row.toReservationRow changed.settled) label)

/-- The first settlement of a reservation. -/
def settleOpen (tick : Tick) (tenant : Uuid) (b : Budget) (id : Uuid) (r : Reservation)
    (used : Int) (usageFingerprint : Option String) : Result (Budget × Mutation) := do
  requireCostTransition r.state .settled
  require (0 ≤ used ∧ used ≤ r.upperBound) (.precondition "USAGE_EXCEEDS_RESERVATION")
  closeReservation tick tenant b id r
    { r.toReservationRow with state := .settled, settled := some used, usageFingerprint }
    (-r.upperBound) used usageFingerprint "settle budget"

def settleBudget (tick : Tick) (tenant : Uuid) (b : Budget) (id : Uuid) (used : Int)
    (usageFingerprint : Option String) : Result (Budget × Mutation) := do
  let r ← okOr (b.reservations.get? id) .notFound
  if r.state = .settled then settleAgain tenant b id r used
  else settleOpen tick tenant b id r used usageFingerprint

def markCostUnknown (tick : Tick) (tenant : Uuid) (b : Budget) (id : Uuid) :
    Result (Budget × Mutation) := do
  let r ← okOr (b.reservations.get? id) .notFound
  requireCostTransition r.state .unknown
  let version ← r.version.bump
  let row ← sql (Reservation.check { r.toReservationRow with state := .unknown, version })
  let b' ← insertCostEvent tick { b with reservations := b.reservations.set id row } id .unknown
    0 0 none
  return (b', .one "CostReservation" id version
    (reservationValue tenant id row.toReservationRow none) "mark budget unknown")

def releaseBudget (tick : Tick) (tenant : Uuid) (b : Budget) (id : Uuid) :
    Result (Budget × Mutation) := do
  let r ← okOr (b.reservations.get? id) .notFound
  requireCostTransition r.state .released
  closeReservation tick tenant b id r { r.toReservationRow with state := .released }
    (-r.upperBound) 0 none "release budget"

/-! ## Configuration -/

/-- The keys of one dimension: `account_key LIKE 'period:currency:%'`. -/
def inDimension (period currency key : String) : Bool :=
  (period ++ ":" ++ currency ++ ":").toList.isPrefixOf key.toList

/-- `INSERT ... ON CONFLICT (currency, period) DO NOTHING` of a zero limit. -/
def seedSetting (settings : Table (Currency × Period) Setting) (dimension : Currency × Period)
    (id : Uuid) : Except SqlError (Table (Currency × Period) Setting) :=
  if settings.contains dimension then .ok settings
  else do
    require (settings.any (fun _ s => decide (s.id = id)) = false) .uniqueViolation
    let row ← Setting.check { id, limit := 0, version := .one }
    insertRow settings dimension row

def configureBudget (tick : Tick) (tenant : Uuid) (b : Budget) (currency period : String)
    (limit expected : Int) : Result (Budget × Mutation) := do
  let c ← sql (okOr (Currency.ofText? currency) .checkViolation)
  let p ← sql (okOr (Period.ofText? period) .checkViolation)
  let settings ← sql (seedSetting b.settings (c, p) (tick.draw .budgetSetting))
  let current ← sql (okOr (settings.get? (c, p)) .rowNotFound)
  let version ← requireExpectedVersion current.version expected
  require (b.accounts.any (fun key a => inDimension period currency key &&
    decide (limit < a.held + a.charged)) = false) (.precondition "BUDGET_BELOW_COMMITMENTS")
  let row ← sql (Setting.check { current.toSettingRow with limit, version })
  let accounts ← sql (b.accounts.updateWhereM (fun key _ => inDimension period currency key)
    fun a => Account.check { a.toAccountRow with limit })
  return ({ b with settings := settings.set (c, p) row, accounts },
    .one "BudgetSettings" current.id version
      (.obj [("budget_id", .str current.id.toText), ("tenant_id", .str tenant.toText),
        ("currency", .str currency), ("period", .str period), ("limit_microunits", .num limit),
        ("version", .num version.val)]) (period ++ " " ++ currency))

end Masonwing
