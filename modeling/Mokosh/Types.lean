import Mathlib.Order.Defs.LinearOrder
import Mathlib.Order.Basic
import Mathlib.Tactic.Ring

/-! # Identifiers, dates and errors

The types every service of the server shares.

* `Uuid`: identifiers are compared and never computed with, so they are natural numbers;
  `Uuid::new_v4` never repeats itself, which the database model renders by a counter.
* `NaiveDate`: a proleptic Gregorian date of the range `chrono::NaiveDate` covers.  The calendar
  is part of the type: a day that its month does not have cannot be built.  Dates are ordered
  through the integer `NaiveDate.ord`, which is monotone in the lexicographic order.
* `AppError`: the errors of the services, with their texts. -/

namespace Mokosh

/-- Identifier of a row. -/
abbrev Uuid := ℕ

/-- The errors a service returns (`src/utils/error.rs`), as far as the modelled operations raise
them.  `database` stands for a statement the database refused, named by the constraint. -/
inductive AppError where
  | unauthorized
  | forbidden (message : String)
  | rateLimited (retryAfter : Option ℕ)
  | notFound (what : String)
  | badRequest (message : String)
  | conflict (message : String)
  | configuration (message : String)
  | validation (field message : String)
  | database (constraint : String)
  | internal (message : String)
deriving DecidableEq, Repr

abbrev AppResult (α : Type) := Except AppError α

/-- `Option::ok_or_else`. -/
def orError {α : Type} (e : AppError) : Option α → AppResult α
  | some a => .ok a
  | none => .error e

@[simp] theorem orError_eq_ok {α : Type} {e : AppError} {o : Option α} {a : α} :
    orError e o = .ok a ↔ o = some a := by
  cases o <;> simp [orError]

/-- Peel a successful computation apart. -/
theorem bind_eq_ok {α β : Type} {x : AppResult α} {f : α → AppResult β} {b : β} :
    (x >>= f) = .ok b ↔ ∃ a, x = .ok a ∧ f a = .ok b := by
  cases x with
  | error e => simp [bind, Except.bind]
  | ok a => simp [bind, Except.bind]

def isLeapYear (y : ℤ) : Bool := (y % 4 = 0 && y % 100 ≠ 0) || y % 400 = 0

/-- Number of days of a month (`0` for a number that names no month). -/
def daysInMonth (y : ℤ) : ℕ → ℕ
  | 1 | 3 | 5 | 7 | 8 | 10 | 12 => 31
  | 4 | 6 | 9 | 11 => 30
  | 2 => if isLeapYear y then 29 else 28
  | _ => 0

theorem daysInMonth_le (y : ℤ) (m : ℕ) : daysInMonth y m ≤ 31 := by
  unfold daysInMonth
  split <;> try omega
  split <;> omega

/-- A calendar date. -/
@[ext] structure NaiveDate where
  year : ℤ
  month : ℕ
  day : ℕ
  year_mem : -262143 ≤ year ∧ year ≤ 262142
  month_mem : 1 ≤ month ∧ month ≤ 12
  day_mem : 1 ≤ day ∧ day ≤ daysInMonth year month
deriving DecidableEq, Repr

namespace NaiveDate

/-- `NaiveDate::from_ymd_opt`. -/
def fromYmdOpt (y : ℤ) (m d : ℕ) : Option NaiveDate :=
  if h : (-262143 ≤ y ∧ y ≤ 262142) ∧ (1 ≤ m ∧ m ≤ 12) ∧ 1 ≤ d ∧ d ≤ daysInMonth y m then
    some ⟨y, m, d, h.1, h.2.1, h.2.2⟩
  else none

/-- Number of the month, counted from January of year `0`. -/
def monthIndex (a : NaiveDate) : ℤ := a.year * 12 + (a.month - 1)

/-- An integer that orders the dates as the calendar does. -/
def ord (a : NaiveDate) : ℤ := a.monthIndex * 31 + (a.day - 1)

theorem day_le (a : NaiveDate) : a.day ≤ 31 := a.day_mem.2.trans (daysInMonth_le _ _)

theorem ord_injective : Function.Injective ord := by
  intro a b h
  have ha := a.day_le
  have hb := b.day_le
  have h1 := a.day_mem.1
  have h2 := b.day_mem.1
  have h3 := a.month_mem
  have h4 := b.month_mem
  simp only [ord, monthIndex] at h
  ext <;> omega

instance : LinearOrder NaiveDate := LinearOrder.lift' ord ord_injective

theorem le_iff_ord {a b : NaiveDate} : a ≤ b ↔ a.ord ≤ b.ord := Iff.rfl

theorem lt_iff_ord {a b : NaiveDate} : a < b ↔ a.ord < b.ord := Iff.rfl

/-- `NaiveDate::succ_opt`: the next day, if it is in range. -/
def succOpt (a : NaiveDate) : Option NaiveDate :=
  if a.day < daysInMonth a.year a.month then fromYmdOpt a.year a.month (a.day + 1)
  else if a.month < 12 then fromYmdOpt a.year (a.month + 1) 1
  else fromYmdOpt (a.year + 1) 1 1

/-- No day comes between a day and the next one. -/
theorem lt_succOpt {a b : NaiveDate} (h : a.succOpt = some b) (x : NaiveDate) : x < b ↔ x ≤ a := by
  have hx := x.day_mem
  have hx' := x.day_le
  have ha := a.day_mem
  have ha' := a.day_le
  have hm := x.month_mem
  have hm' := a.month_mem
  have hlast : x.year = a.year → x.month = a.month → x.day ≤ daysInMonth a.year a.month := by
    intro h1 h2
    rw [← h1, ← h2]
    exact hx.2
  unfold succOpt at h
  rw [lt_iff_ord, le_iff_ord]
  split_ifs at h with h1 h2 <;> unfold fromYmdOpt at h <;> split_ifs at h <;> cases h <;>
    simp only [ord, monthIndex]
  · omega
  · omega
  · omega

/-- `NaiveDate::pred_opt`: the day before, if it is in range. -/
def predOpt (a : NaiveDate) : Option NaiveDate :=
  if 1 < a.day then fromYmdOpt a.year a.month (a.day - 1)
  else if 1 < a.month then fromYmdOpt a.year (a.month - 1) (daysInMonth a.year (a.month - 1))
  else fromYmdOpt (a.year - 1) 12 31

/-- `NaiveDate::checked_add_days`. -/
def checkedAddDays (a : NaiveDate) : ℕ → Option NaiveDate
  | 0 => some a
  | n + 1 => (a.checkedAddDays n).bind succOpt

/-- `NaiveDate::checked_add_months`: the same day of the month `n` months later, or the last day
of that month if it is shorter. -/
def checkedAddMonths (a : NaiveDate) (n : ℕ) : Option NaiveDate :=
  let index := a.monthIndex + n
  let y := index / 12
  let m := (index % 12).toNat + 1
  fromYmdOpt y m (min a.day (daysInMonth y m))

/-- The days of the year before the first of the month `m`. -/
def daysBeforeMonth (y : ℤ) (m : ℕ) : ℕ := ((List.range m).map (daysInMonth y)).sum

/-- `NaiveDate::num_days_from_ce`: the number of the day, counted from January 1 of year `1`. -/
def numDaysFromCe (a : NaiveDate) : ℤ :=
  let y := a.year - 1
  365 * y + y / 4 - y / 100 + y / 400 + daysBeforeMonth a.year a.month + a.day

/-- A date as `Display` prints it, for years of four digits. -/
def format (a : NaiveDate) : String :=
  let two (n : ℕ) : String := if n < 10 then "0" ++ toString n else toString n
  toString a.year ++ "-" ++ two a.month ++ "-" ++ two a.day

end NaiveDate

end Mokosh
