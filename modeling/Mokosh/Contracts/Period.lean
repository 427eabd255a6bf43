import Mokosh.Types

/-! # Billing periods

The windows a contract's hours and invoices are counted in (`contracts/service.rs`,
`billing/service.rs`).  Both calculators walk forward from the contract's `start_date` by one
`CycleStep` at a time:

* `periodFor` (`ContractsService::period_for`) names the hour-balance window of a date; it always
  answers, and a cycle that does not step has one open window;
* `currentBillingPeriod` (`current_billing_period`) names the window the recurring run bills.

The walk is a recursion on a bound for the number of steps: each step that does not stop moves
`NaiveDate.ord` up, so `ord when - ord anchor + 1` steps are enough. -/

namespace Mokosh

/-- The `billing_cycle` column. -/
inductive BillingCycle where
  | weekly
  | biWeekly
  | monthly
  | quarterly
  | annually
  | oneTime
deriving DecidableEq, Repr

/-- One step of a recurring cycle. -/
inductive CycleStep where
  | days (n : ℕ)
  | months (n : ℕ)
deriving DecidableEq, Repr

namespace CycleStep

/-- `CycleStep::from_cycle`: `none` for a cycle that does not recur. -/
def fromCycle : BillingCycle → Option CycleStep
  | .weekly => some (.days 7)
  | .biWeekly => some (.days 14)
  | .monthly => some (.months 1)
  | .quarterly => some (.months 3)
  | .annually => some (.months 12)
  | .oneTime => none

/-- `CycleStep::advance`: `none` on date overflow. -/
def advance : CycleStep → NaiveDate → Option NaiveDate
  | days n, date => date.checkedAddDays n
  | months n, date => date.checkedAddMonths n

end CycleStep

/-- The end of an open window. -/
def openEnd (fallback : NaiveDate) : NaiveDate := (NaiveDate.fromYmdOpt 9999 12 31).getD fallback

/-- The loop of `period_for`. -/
def periodLoop (step : CycleStep) (when : NaiveDate) : ℕ → NaiveDate → NaiveDate × NaiveDate
  | 0, start => (start, openEnd start)
  | fuel + 1, start =>
    let next := (step.advance start).getD start
    -- Overflow guard of the source: stop walking, treat as open window.
    if next ≤ start then (start, openEnd start)
    else if when < next then (start, next.predOpt.getD next)
    else periodLoop step when fuel next

/-- `ContractsService::period_for`: the window, first and last day inclusive, that contains
`when`. -/
def periodFor (anchor : NaiveDate) (billingCycle : BillingCycle) (when : NaiveDate) :
    NaiveDate × NaiveDate :=
  match CycleStep.fromCycle billingCycle with
  | some step => periodLoop step when ((when.ord - anchor.ord).toNat + 1) anchor
  | none => (anchor, openEnd anchor)

/-- The loop of `current_billing_period`. -/
def billingLoop (step : CycleStep) (today : NaiveDate) :
    ℕ → NaiveDate → Option (NaiveDate × NaiveDate)
  | 0, _ => none
  | fuel + 1, periodStart =>
    match step.advance periodStart with
    | none => none
    | some next =>
      if next ≤ periodStart then none
      else if today < next then some (periodStart, next.predOpt.getD next)
      else billingLoop step today fuel next

/-- `current_billing_period`: the period that covers `today`, if the contract has begun and its
cycle recurs. -/
def currentBillingPeriod (billingCycle : BillingCycle) (startDate today : NaiveDate) :
    Option (NaiveDate × NaiveDate) :=
  if today < startDate then none
  else match CycleStep.fromCycle billingCycle with
    | none => none
    | some step => billingLoop step today ((today.ord - startDate.ord).toNat + 1) startDate

theorem periodLoop_step (step : CycleStep) (when : NaiveDate) (fuel : ℕ) (start : NaiveDate) :
    periodLoop step when (fuel + 1) start =
      if (step.advance start).getD start ≤ start then (start, openEnd start)
      else if when < (step.advance start).getD start then
        (start, ((step.advance start).getD start).predOpt.getD ((step.advance start).getD start))
      else periodLoop step when fuel ((step.advance start).getD start) := rfl

end Mokosh
