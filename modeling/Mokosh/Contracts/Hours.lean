import Mokosh.Lib.Decimal
import Mokosh.Lib.Table
import Mokosh.Contracts.Period

/-! # The prepaid hour ledger of a contract

The block-hours part of `contracts/service.rs`: the rows of `contract_hour_balances` and the three
transactions that write them.

* `consumeHoursInTx` draws hours from the row of the period that covers a date.  It is composed of
  `drawTarget` (which row), `findBalance` (the `SELECT … FOR UPDATE`), `seedBalance` (the `INSERT`
  when there is none) and `draw` (the split and the `UPDATE`), so that a transaction that is
  suspended between the read and the insert can be modelled too.
* `releaseHoursInTx` gives hours back to the row they came from.
* `rollToNextPeriod` copies the unused hours of a closed period to the next one.

Hours are exact rationals; the columns are `Numeric 2`, so every write rounds.  A draw is always of
`m / 60` hours for a whole number `m` of minutes, and `m / 60` is never half-way between two
hundredths (`noTie_hoursOf`); from there on the three columns move by whole cents of an hour
(`draw_spec`). -/

namespace Mokosh

/-! ### Rows -/

/-- The `status` column of `contracts`. -/
inductive ContractStatus where
  | draft
  | active
  | expired
  | cancelled
  | renewed
deriving DecidableEq, Repr

/-- The `item_type` column of `contract_items`. -/
inductive ItemType where
  | recurringService
  | blockHours
  | retainer
  | product
  | oneTime
deriving DecidableEq, Repr

/-- The `billing_rule` column of `contract_items`. -/
inductive BillingRule where
  | everyPeriod
  | once
  | manual
deriving DecidableEq, Repr

structure Contract where
  id : Uuid
  companyId : Uuid
  status : ContractStatus
  startDate : NaiveDate
  endDate : Option NaiveDate
  billingCycle : Option BillingCycle
deriving DecidableEq, Repr

structure ContractItem where
  id : Uuid
  contractId : Uuid
  name : String
  itemType : ItemType
  quantity : Option (Numeric 2)
  unitPrice : Numeric 2
  totalPrice : Numeric 2
  includedHours : Option (Numeric 2)
  overageRate : Option (Numeric 2)
  rolloverEnabled : Option Bool
  maxRolloverHours : Option (Numeric 2)
  sortOrder : ℤ
  billingRule : BillingRule
  /-- Whether `billed_at` is set. -/
  billed : Bool
  productId : Option Uuid := none
deriving DecidableEq, Repr

/-- A row of `contract_hour_balances`. -/
structure HourBalance where
  id : Uuid
  contractId : Uuid
  contractItemId : Uuid
  periodStart : NaiveDate
  periodEnd : NaiveDate
  hoursIncluded : Numeric 2
  hoursUsed : Numeric 2
  hoursRemaining : Numeric 2
  rolloverHours : Numeric 2
deriving DecidableEq, Repr

/-- The columns of the constraint `uq_contract_hour_balances_period`. -/
structure BalanceKey where
  contractId : Uuid
  contractItemId : Uuid
  periodStart : NaiveDate
  periodEnd : NaiveDate
deriving DecidableEq, Repr

def HourBalance.periodKey (b : HourBalance) : BalanceKey :=
  ⟨b.contractId, b.contractItemId, b.periodStart, b.periodEnd⟩

/-- The contracts and their items. -/
structure ContractBook where
  contracts : Table Contract.id
  items : Table ContractItem.id

/-- What the ledger reads of a contract and its block-hours item. -/
structure BlockItemRow where
  id : Uuid
  includedHours : Option (Numeric 2)
  overageRate : Option (Numeric 2)
  rolloverEnabled : Option Bool
  maxRolloverHours : Option (Numeric 2)
  billingCycle : Option BillingCycle
  startDate : NaiveDate
  endDate : Option NaiveDate
deriving DecidableEq, Repr

/-- `ConsumeOutcome`. -/
structure ConsumeOutcome where
  hoursApplied : ℚ
  overageHours : ℚ
  overageAmount : ℚ
  overageRate : Option (Numeric 2)
  balanceId : Uuid
deriving DecidableEq

namespace BlockItemRow

def included (item : BlockItemRow) : Numeric 2 := item.includedHours.getD 0

/-- A NULL `billing_cycle` counts as monthly. -/
def cycle (item : BlockItemRow) : BillingCycle := item.billingCycle.getD .monthly

/-- The contract covers `when`. -/
def covers (item : BlockItemRow) (when : NaiveDate) : Prop :=
  item.startDate ≤ when ∧ ∀ stop, item.endDate = some stop → when ≤ stop

instance (item : BlockItemRow) (when : NaiveDate) : Decidable (item.covers when) :=
  inferInstanceAs (Decidable (_ ∧ ∀ stop, item.endDate = some stop → when ≤ stop))

end BlockItemRow

/-! ### The transactions -/

/-- The first `block_hours` item of the contract by `sort_order`, joined with the contract. -/
def fetchBlockItem (book : ContractBook) (contractId : Uuid) : Option BlockItemRow := do
  let contract ← book.contracts.find contractId
  let item ← firstBy (fun i j => decide (i.sortOrder < j.sortOrder))
    (book.items.rows.filter fun i =>
      decide (i.contractId = contractId ∧ i.itemType = .blockHours))
  some
    { id := item.id
      includedHours := item.includedHours
      overageRate := item.overageRate
      rolloverEnabled := item.rolloverEnabled
      maxRolloverHours := item.maxRolloverHours
      billingCycle := contract.billingCycle
      startDate := contract.startDate
      endDate := contract.endDate }

def balanceKey (contractId : Uuid) (item : BlockItemRow) (when : NaiveDate) : BalanceKey :=
  let period := periodFor item.startDate item.cycle when
  ⟨contractId, item.id, period.1, period.2⟩

/-- Which item and which period a draw is taken from. -/
def drawTarget (book : ContractBook) (contractId : Uuid) (when : NaiveDate) :
    AppResult (BlockItemRow × BalanceKey) := do
  let item ← orError (.notFound "Block hours contract item") (fetchBlockItem book contractId)
  if item.covers when then
    .ok (item, balanceKey contractId item when)
  else
    .error (.badRequest
      ("Date " ++ when.format ++ " is outside contract " ++ toString contractId ++ "'s coverage."))

/-- The row of a period. -/
def findBalance (balances : Table HourBalance.id) (k : BalanceKey) : Option HourBalance :=
  balances.rows.find? fun b => decide (b.periodKey = k)

/-- A fresh row, with all of its hours remaining. -/
def newBalance (k : BalanceKey) (included rollover : Numeric 2) (id : Uuid) : HourBalance :=
  { id := id
    contractId := k.contractId
    contractItemId := k.contractItemId
    periodStart := k.periodStart
    periodEnd := k.periodEnd
    hoursIncluded := included
    hoursUsed := 0
    hoursRemaining := included
    rolloverHours := rollover }

def seedBalance (balances : Table HourBalance.id) (k : BalanceKey) (included : Numeric 2) :
    Table HourBalance.id :=
  balances.insert (newBalance k included 0)

/-- The `UPDATE` of a row's hours. -/
def HourBalance.setHours (b : HourBalance) (used remaining : ℚ) : HourBalance :=
  { b with hoursUsed := .ofRat 2 used, hoursRemaining := .ofRat 2 remaining }

/-- The part of a request that the remaining hours of the row cover. -/
def HourBalance.applied (b : HourBalance) (hours : ℚ) : ℚ := min hours (max b.hoursRemaining.toRat 0)

/-- How a request is split against the row `b`. -/
def drawOutcome (item : BlockItemRow) (b : HourBalance) (hours : ℚ) : ConsumeOutcome :=
  let overageHours := hours - b.applied hours
  { hoursApplied := b.applied hours
    overageHours := overageHours
    overageAmount := overageHours * (item.overageRate.getD 0).toRat
    overageRate := item.overageRate
    balanceId := b.id }

/-- Split the request against the row `b` and write the row. -/
def draw (balances : Table HourBalance.id) (item : BlockItemRow) (b : HourBalance) (hours : ℚ) :
    ConsumeOutcome × Table HourBalance.id :=
  let remaining := max b.hoursRemaining.toRat 0
  (drawOutcome item b hours,
    balances.update b.id
      (·.setHours (b.hoursUsed.toRat + b.applied hours) (remaining - b.applied hours)))

/-- The insert of a fresh row and the draw from it.  The unique constraint refuses the insert when
the period has a row. -/
def seedAndDraw (balances : Table HourBalance.id) (item : BlockItemRow) (k : BalanceKey)
    (hours : ℚ) : AppResult (ConsumeOutcome × Table HourBalance.id) :=
  match findBalance balances k with
  | some _ => .error (.database "uq_contract_hour_balances_period")
  | none =>
    .ok (draw (seedBalance balances k item.included) item
      (newBalance k item.included 0 balances.next) hours)

/-- `ContractsService::consume_hours_in_tx`. -/
def consumeHoursInTx (book : ContractBook) (balances : Table HourBalance.id) (contractId : Uuid)
    (hours : ℚ) (when : NaiveDate) : AppResult (ConsumeOutcome × Table HourBalance.id) :=
  if hours < 0 then
    .error (.badRequest "consume_hours: hours must be non-negative")
  else do
    let (item, k) ← drawTarget book contractId when
    match findBalance balances k with
    | some b => .ok (draw balances item b hours)
    | none => seedAndDraw balances item k hours

/-- `ContractsService::release_hours_in_tx`.  It never fails: an amount that is not positive and a
row that is gone leave nothing to do. -/
def releaseHoursInTx (balances : Table HourBalance.id) (balanceId : Uuid) (applied : ℚ) :
    Table HourBalance.id :=
  if applied ≤ 0 then balances
  else match balances.find balanceId with
    | none => balances
    | some row =>
      let used := row.hoursUsed.toRat
      let giveBack := min applied used
      balances.update row.id
        (·.setHours (used - giveBack) (row.hoursRemaining.toRat + giveBack))

/-- The `DO UPDATE` of the roll. -/
def HourBalance.addRollover (b : HourBalance) (rolled : Numeric 2) : HourBalance :=
  { b with
    hoursIncluded := .ofRat 2 (b.hoursIncluded.toRat + rolled.toRat)
    hoursRemaining := .ofRat 2 (b.hoursRemaining.toRat + rolled.toRat)
    rolloverHours := .ofRat 2 (b.rolloverHours.toRat + rolled.toRat) }

/-- The hours a roll takes over from the closing row. -/
def rolledHours (item : BlockItemRow) (closing : HourBalance) : Numeric 2 :=
  let unused := max closing.hoursRemaining 0
  let cap := item.maxRolloverHours.getD unused
  min unused cap

/-- The period that follows the one that ends on `closingEnd`. -/
def nextPeriodKey (contractId : Uuid) (item : BlockItemRow) (closingEnd : NaiveDate) : BalanceKey :=
  balanceKey contractId item (closingEnd.succOpt.getD closingEnd)

/-- The row of the period that ends on `closingEnd`. -/
def findClosing (balances : Table HourBalance.id) (contractId itemId : Uuid)
    (closingEnd : NaiveDate) : Option HourBalance :=
  balances.rows.find? fun b =>
    decide (b.contractId = contractId ∧ b.contractItemId = itemId ∧ b.periodEnd = closingEnd)

/-- `ContractsService::roll_to_next_period`: the hours rolled and the table after it. -/
def rollToNextPeriod (book : ContractBook) (balances : Table HourBalance.id) (contractId : Uuid)
    (closingPeriodEnd : NaiveDate) : AppResult (Numeric 2 × Table HourBalance.id) := do
  let item ← orError (.notFound "Block hours contract item") (fetchBlockItem book contractId)
  if item.rolloverEnabled.getD false then
    let closing ← orError (.notFound "closing-period balance")
      (findClosing balances contractId item.id closingPeriodEnd)
    let rolled := rolledHours item closing
    if rolled ≤ 0 then .ok (0, balances)
    else
      let k := nextPeriodKey contractId item closingPeriodEnd
      match findBalance balances k with
      | none =>
        .ok (rolled, balances.insert
          (newBalance k (.ofRat 2 (item.included.toRat + rolled.toRat)) rolled))
      | some next =>
        -- `DO UPDATE … WHERE rollover_hours = 0`: a second roll into one period is a no-op.
        if next.rolloverHours = 0 then .ok (rolled, balances.update next.id (·.addRollover rolled))
        else .ok (0, balances)
  else .ok (0, balances)

/-! ### What the transactions do, in hundredths of an hour -/

/-- The hours of `m` minutes. -/
def hoursOf (m : ℤ) : ℚ := m / 60

/-- The hundredths of an hour that a column stores for `m` minutes. -/
def centsOf (m : ℤ) : ℤ := (Numeric.ofRat 2 (hoursOf m)).unscaled

/-- `m / 60` hours are `5 m / 3` hundredths, which no half-integer equals. -/
theorem noTie_hoursOf (m : ℤ) : NoTie (hoursOf m * 10 ^ 2) := by
  intro k h
  have h1 : (10 * m : ℚ) = 6 * k + 3 := by
    unfold hoursOf at h
    linarith
  have h2 : 10 * m = 6 * k + 3 := by exact_mod_cast h1
  omega

theorem noTie_toRat (x : Numeric 2) : NoTie (x.toRat * 10 ^ 2) := by
  rw [Numeric.toRat_mul_pow]
  exact noTie_intCast _

theorem hoursOf_nonneg {m : ℤ} (h : 0 ≤ m) : 0 ≤ hoursOf m := by
  unfold hoursOf
  positivity

theorem centsOf_nonneg {m : ℤ} (h : 0 ≤ m) : 0 ≤ centsOf m := by
  apply roundHalfAway_nonneg
  have := hoursOf_nonneg h
  positivity

namespace HourBalance

variable (b : HourBalance)

/-- The hundredths of an hour a draw of `m` minutes takes from the row. -/
def drawnCents (m : ℤ) : ℤ := min (centsOf m) (max b.hoursRemaining.unscaled 0)

theorem max_remaining_toRat :
    max b.hoursRemaining.toRat 0 = (max b.hoursRemaining 0 : Numeric 2).toRat := by
  rw [Numeric.toRat_monotone.map_max, Numeric.toRat_zero]

/-- The request fits into the remaining hours exactly when its minutes do. -/
theorem applied_cases (m : ℤ) :
    (b.applied (hoursOf m) = hoursOf m ∧ hoursOf m ≤ max b.hoursRemaining.toRat 0 ∧
      b.drawnCents m = centsOf m) ∨
    (b.applied (hoursOf m) = (max b.hoursRemaining 0 : Numeric 2).toRat ∧
      max b.hoursRemaining.toRat 0 < hoursOf m ∧
      b.drawnCents m = max b.hoursRemaining.unscaled 0) := by
  have hr : (max b.hoursRemaining 0 : Numeric 2).toRat * 10 ^ 2 =
      ((max b.hoursRemaining.unscaled 0 : ℤ) : ℚ) := by
    rw [Numeric.toRat_mul_pow, Numeric.max_unscaled, Numeric.zero_unscaled]
  unfold applied drawnCents centsOf
  rw [Numeric.ofRat_unscaled, max_remaining_toRat]
  rcases le_or_gt (hoursOf m) (max b.hoursRemaining 0 : Numeric 2).toRat with h | h
  · refine .inl ⟨min_eq_left h, h, min_eq_left ?_⟩
    apply roundHalfAway_le_int
    rw [← hr]
    linarith
  · refine .inr ⟨min_eq_right h.le, h, min_eq_right ?_⟩
    apply int_le_roundHalfAway
    rw [← hr]
    linarith

theorem noTie_applied (m : ℤ) : NoTie (b.applied (hoursOf m) * 10 ^ 2) := by
  rcases b.applied_cases m with ⟨h, -, -⟩ | ⟨h, -, -⟩
  · rw [h]
    exact noTie_hoursOf m
  · rw [h]
    exact noTie_toRat _

/-- The hours applied, as a column stores them. -/
theorem ofRat_applied (m : ℤ) :
    Numeric.ofRat 2 (b.applied (hoursOf m)) = ⟨b.drawnCents m⟩ := by
  rcases b.applied_cases m with ⟨h, -, hc⟩ | ⟨h, -, hc⟩
  · rw [h, hc]
    rfl
  · rw [h, hc, Numeric.ofRat_toRat]
    ext
    simp

/-- The overage, as a column stores it. -/
theorem ofRat_overage (m : ℤ) :
    Numeric.ofRat 2 (hoursOf m - b.applied (hoursOf m)) = ⟨centsOf m - b.drawnCents m⟩ := by
  rcases b.applied_cases m with ⟨h, -, hc⟩ | ⟨h, -, hc⟩
  · rw [h, hc]
    ext
    simp
  · rw [h, hc]
    ext
    have h1 : (hoursOf m - (max b.hoursRemaining 0 : Numeric 2).toRat) * 10 ^ 2 =
        ((-(max b.hoursRemaining 0 : Numeric 2).unscaled : ℤ) : ℚ) + hoursOf m * 10 ^ 2 := by
      rw [sub_mul, Numeric.toRat_mul_pow]
      push_cast
      ring
    rw [Numeric.ofRat_unscaled, h1, roundHalfAway_add_int (noTie_hoursOf m), Numeric.max_unscaled,
      Numeric.zero_unscaled, centsOf, Numeric.ofRat_unscaled]
    ring

theorem drawnCents_nonneg {m : ℤ} (h : 0 ≤ m) : 0 ≤ b.drawnCents m :=
  le_min (centsOf_nonneg h) (le_max_right _ _)

theorem drawnCents_le_remaining (m : ℤ) : b.drawnCents m ≤ max b.hoursRemaining.unscaled 0 :=
  min_le_right _ _

theorem drawnCents_le_cents (m : ℤ) : b.drawnCents m ≤ centsOf m := min_le_left _ _

/-- The row after a draw of `m` minutes: `hours_used` and `hours_remaining` move by the same whole
number of hundredths. -/
def afterDraw (m : ℤ) : HourBalance :=
  { b with
    hoursUsed := ⟨b.hoursUsed.unscaled + b.drawnCents m⟩
    hoursRemaining := ⟨max b.hoursRemaining.unscaled 0 - b.drawnCents m⟩ }

theorem setHours_draw (m : ℤ) :
    b.setHours (b.hoursUsed.toRat + b.applied (hoursOf m))
      (max b.hoursRemaining.toRat 0 - b.applied (hoursOf m)) = b.afterDraw m := by
  have h1 := Numeric.ofRat_toRat_add b.hoursUsed (b.noTie_applied m)
  have h2 := Numeric.ofRat_toRat_sub (max b.hoursRemaining 0) (b.noTie_applied m)
  rw [ofRat_applied] at h1 h2
  rw [Numeric.max_unscaled, Numeric.zero_unscaled] at h2
  rw [max_remaining_toRat, setHours, h1, h2, afterDraw]

/-- The row after `q` hours are given back to it. -/
def afterRelease (q : ℚ) : HourBalance :=
  { b with
    hoursUsed :=
      ⟨b.hoursUsed.unscaled - min (Numeric.ofRat 2 q).unscaled b.hoursUsed.unscaled⟩
    hoursRemaining :=
      ⟨b.hoursRemaining.unscaled + min (Numeric.ofRat 2 q).unscaled b.hoursUsed.unscaled⟩ }

/-- An amount that is not half-way between two hundredths moves both columns by its rounding, or
by all that is used. -/
theorem setHours_release {q : ℚ} (hq : NoTie (q * 10 ^ 2)) :
    b.setHours (b.hoursUsed.toRat - min q b.hoursUsed.toRat)
      (b.hoursRemaining.toRat + min q b.hoursUsed.toRat) = b.afterRelease q := by
  have hu := b.hoursUsed.toRat_mul_pow
  rcases le_or_gt q b.hoursUsed.toRat with h | h
  · have h1 : (Numeric.ofRat 2 q).unscaled ≤ b.hoursUsed.unscaled := by
      apply roundHalfAway_le_int
      rw [← hu]
      linarith
    rw [min_eq_left h, setHours, Numeric.ofRat_toRat_sub _ hq, Numeric.ofRat_toRat_add _ hq,
      afterRelease, min_eq_left h1]
  · have h1 : b.hoursUsed.unscaled ≤ (Numeric.ofRat 2 q).unscaled := by
      apply int_le_roundHalfAway
      rw [← hu]
      linarith
    rw [min_eq_right h.le, setHours, Numeric.ofRat_sub_toRat, Numeric.ofRat_add_toRat,
      afterRelease, min_eq_right h1]

end HourBalance

/-! ### One specification for each transaction -/

section Spec

variable {book : ContractBook} {balances balances' : Table HourBalance.id}

theorem findBalance_eq_some {k : BalanceKey} {b : HourBalance}
    (h : findBalance balances k = some b) : b ∈ balances ∧ b.periodKey = k :=
  ⟨List.mem_of_find?_eq_some h, by simpa using List.find?_some h⟩

theorem findBalance_eq_none {k : BalanceKey} (h : findBalance balances k = none) :
    ∀ b ∈ balances, b.periodKey ≠ k := by
  simpa [findBalance, Table.mem_def] using h

theorem findClosing_eq_some {contractId itemId : Uuid} {closingEnd : NaiveDate} {b : HourBalance}
    (h : findClosing balances contractId itemId closingEnd = some b) :
    b ∈ balances ∧ b.contractId = contractId ∧ b.contractItemId = itemId ∧
      b.periodEnd = closingEnd :=
  ⟨List.mem_of_find?_eq_some h, by simpa using List.find?_some h⟩

theorem exists_fetchBlockItem {contractId : Uuid} {contract : Contract}
    (hc : book.contracts.find contractId = some contract) {i : ContractItem} (hi : i ∈ book.items)
    (hic : i.contractId = contractId ∧ i.itemType = .blockHours) :
    ∃ item, fetchBlockItem book contractId = some item ∧ item.startDate = contract.startDate ∧
      item.endDate = contract.endDate := by
  have hmem : i ∈ book.items.rows.filter fun i =>
      decide (i.contractId = contractId ∧ i.itemType = .blockHours) :=
    List.mem_filter.mpr ⟨hi, decide_eq_true hic⟩
  obtain ⟨first, hf⟩ :=
    exists_firstBy (fun i j : ContractItem => decide (i.sortOrder < j.sortOrder)) hmem
  exact ⟨_, by rw [fetchBlockItem, hc, Option.bind_eq_bind, Option.bind_some, hf]; rfl, rfl, rfl⟩

theorem drawTarget_eq_ok {contractId : Uuid} {when : NaiveDate} {item : BlockItemRow}
    {k : BalanceKey} :
    drawTarget book contractId when = .ok (item, k) ↔
      fetchBlockItem book contractId = some item ∧ item.covers when ∧
        k = balanceKey contractId item when := by
  unfold drawTarget
  rw [bind_eq_ok]
  constructor
  · rintro ⟨i, hi, h⟩
    split at h
    · next hc =>
      simp only [Except.ok.injEq, Prod.mk.injEq] at h
      obtain ⟨rfl, rfl⟩ := h
      exact ⟨orError_eq_ok.mp hi, hc, rfl⟩
    · exact absurd h (by simp)
  · rintro ⟨hi, hc, rfl⟩
    exact ⟨item, orError_eq_ok.mpr hi, by rw [if_pos hc]⟩

/-- A draw moves the row by whole hundredths. -/
theorem draw_snd (item : BlockItemRow) {b : HourBalance} (hb : b ∈ balances) (m : ℤ) :
    (draw balances item b (hoursOf m)).2 = balances.update b.id (·.afterDraw m) :=
  Table.update_congr hb (b.setHours_draw m)

/-- The first draw of a period inserts a row that the draw has already moved. -/
theorem seedAndDraw_eq_ok {item : BlockItemRow} {k : BalanceKey} {m : ℤ} {o : ConsumeOutcome}
    (h : seedAndDraw balances item k (hoursOf m) = .ok (o, balances')) :
    findBalance balances k = none ∧
      balances' = balances.insert (fun i => (newBalance k item.included 0 i).afterDraw m) ∧
      o = drawOutcome item (newBalance k item.included 0 balances.next) (hoursOf m) := by
  unfold seedAndDraw at h
  split at h
  · exact absurd h (by simp)
  · next hk =>
    simp only [Except.ok.injEq, Prod.ext_iff] at h
    have hm : newBalance k item.included 0 balances.next ∈ seedBalance balances k item.included :=
      (Table.mem_insert).mpr (.inr rfl)
    refine ⟨hk, ?_, h.1.symm⟩
    rw [← h.2, draw_snd item hm]
    exact Table.update_insert _ _

/-- Hours are given back to the row that is named, if it is there. -/
theorem releaseHoursInTx_cases (balanceId : Uuid) {q : ℚ} (hq : NoTie (q * 10 ^ 2)) :
    releaseHoursInTx balances balanceId q = balances ∨
      ∃ b ∈ balances, b.id = balanceId ∧ 0 < q ∧
        releaseHoursInTx balances balanceId q = balances.update b.id (·.afterRelease q) := by
  unfold releaseHoursInTx
  split
  · exact .inl rfl
  · next h =>
    split
    · exact .inl rfl
    · next row hrow =>
      have hm := Table.find_mem hrow
      refine .inr ⟨row, hm, Table.key_of_find hrow, by linarith, ?_⟩
      exact Table.update_congr hm (row.setHours_release hq)

@[simp] theorem releaseHoursInTx_next (balanceId : Uuid) (q : ℚ) :
    (releaseHoursInTx balances balanceId q).next = balances.next := by
  unfold releaseHoursInTx
  split
  · rfl
  · split <;> rfl

/-- What a row has used after an amount as a column stores it is given back to the row `balanceId`,
when all rows that amount comes from have used as much. -/
theorem used_of_mem_release {balanceId : Uuid} {x : Numeric 2} (hx : 0 ≤ x)
    (hle : ∀ b ∈ balances, b.id = balanceId → x ≤ b.hoursUsed) {b : HourBalance}
    (hb : b ∈ releaseHoursInTx balances balanceId x.toRat) :
    ∃ b' ∈ balances, b'.id = b.id ∧ b.hoursUsed.unscaled =
      b'.hoursUsed.unscaled - (if b.id = balanceId then x.unscaled else 0) := by
  rw [Numeric.le_iff_unscaled, Numeric.zero_unscaled] at hx
  unfold releaseHoursInTx at hb
  split at hb
  · next h0 =>
    have h1 : x.unscaled = 0 := by
      have h2 := not_lt.mpr h0
      rw [Numeric.toRat_pos_iff] at h2
      omega
    exact ⟨b, hb, rfl, by rw [h1]; simp⟩
  · split at hb
    · next hn =>
      have h1 := Table.find_eq_none_iff.mp hn b hb
      exact ⟨b, hb, rfl, by rw [if_neg h1]; simp⟩
    · next row hrow =>
      have hm := Table.find_mem hrow
      have hk := Table.key_of_find hrow
      rcases (Table.mem_update_of_mem hm).mp hb with rfl | ⟨hb, hne⟩
      · have h1 := hle row hm hk
        rw [Numeric.le_iff_unscaled] at h1
        refine ⟨row, hm, rfl, ?_⟩
        rw [row.setHours_release (noTie_toRat x)]
        simp only [HourBalance.afterRelease, Numeric.ofRat_toRat, hk, if_true, min_eq_left h1]
      · rw [hk] at hne
        exact ⟨b, hb, rfl, by rw [if_neg hne]; simp⟩

/-- A roll leaves the table alone, inserts the row of the next period, or adds to it if nothing
was rolled into it before. -/
theorem rollToNextPeriod_cases {contractId : Uuid} {closingEnd : NaiveDate} {rolled : Numeric 2}
    (h : rollToNextPeriod book balances contractId closingEnd = .ok (rolled, balances')) :
    balances' = balances ∨
      ∃ item closing, fetchBlockItem book contractId = some item ∧
        closing ∈ balances ∧ closing.contractId = contractId ∧ closing.contractItemId = item.id ∧
        closing.periodEnd = closingEnd ∧ 0 < rolledHours item closing ∧
        ((findBalance balances (nextPeriodKey contractId item closingEnd) = none ∧
          balances' = balances.insert (newBalance (nextPeriodKey contractId item closingEnd)
            ⟨item.included.unscaled + (rolledHours item closing).unscaled⟩
            (rolledHours item closing))) ∨
        ∃ next ∈ balances, next.periodKey = nextPeriodKey contractId item closingEnd ∧
          next.rolloverHours = 0 ∧
          balances' = balances.update next.id (·.addRollover (rolledHours item closing))) := by
  unfold rollToNextPeriod at h
  obtain ⟨item, hi, h⟩ := bind_eq_ok.mp h
  rw [orError_eq_ok] at hi
  split at h
  · obtain ⟨closing, hc, h⟩ := bind_eq_ok.mp h
    rw [orError_eq_ok] at hc
    obtain ⟨hc1, hc2, hc3, hc4⟩ := findClosing_eq_some hc
    simp only at h
    split at h
    · simp_all
    · next hr =>
      split at h
      · next hk =>
        simp only [Except.ok.injEq, Prod.mk.injEq] at h
        refine .inr ⟨item, closing, hi, hc1, hc2, hc3, hc4, not_le.mp hr, .inl ⟨hk, ?_⟩⟩
        rw [← h.2, Numeric.ofRat_add_toRat]
      · next next hk =>
        split at h
        · next hz =>
          simp only [Except.ok.injEq, Prod.mk.injEq] at h
          obtain ⟨hn1, hn2⟩ := findBalance_eq_some hk
          exact .inr ⟨item, closing, hi, hc1, hc2, hc3, hc4, not_le.mp hr,
            .inr ⟨next, hn1, hn2, hz, h.2.symm⟩⟩
        · simp_all
  · simp_all

end Spec

end Mokosh
