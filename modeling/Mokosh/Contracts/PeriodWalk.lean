import Mokosh.Contracts.Months
import Mokosh.Contracts.Period

/-! # The walk over the periods of a contract

`current_billing_period` and `period_for` are two loops over the same starts, `walkStart`: the anchor, and from each
start the next by one `CycleStep`.  A window is what lies between two of them, so the windows of both are the same,
follow each other without a gap and never overlap (`period_windows`).

A step in months is taken from the start before, not from the anchor.  Where it clamps a day, the days after it keep
the clamped one: the walk is at the shortest of the months it has been to (`walkStart_months`), and that is the anchor's
own day only as long as no month before was shorter than the month it is at (`period_starts_iff`). -/

namespace Mokosh

/-! ### Steps go forward -/

namespace CycleStep

/-- The step of a cycle. -/
def Positive : CycleStep → Prop
  | days n => 0 < n
  | months n => 0 < n

theorem positive_fromCycle {cycle : BillingCycle} {step : CycleStep} (h : fromCycle cycle = some step) :
    step.Positive := by
  cases cycle <;> cases h <;> exact Nat.succ_pos _

theorem le_of_checkedAddDays {n : ℕ} {a b : NaiveDate} (h : a.checkedAddDays n = some b) : a ≤ b := by
  induction n generalizing b with
  | zero =>
      cases h
      exact le_rfl
  | succ n ih =>
      obtain ⟨c, hc, hb⟩ := Option.bind_eq_some_iff.mp h
      exact (ih hc).trans ((NaiveDate.lt_succOpt hb c).mpr le_rfl).le

theorem lt_advance {step : CycleStep} (hp : step.Positive) {a b : NaiveDate} (h : step.advance a = some b) :
    a < b := by
  cases step with
  | days n =>
      obtain ⟨n, rfl⟩ := Nat.exists_eq_succ_of_ne_zero (Nat.ne_of_gt hp)
      obtain ⟨c, hc, hb⟩ := Option.bind_eq_some_iff.mp h
      exact (le_of_checkedAddDays hc).trans_lt ((NaiveDate.lt_succOpt hb c).mpr le_rfl)
  | months n => exact NaiveDate.lt_of_checkedAddMonths hp h

end CycleStep

/-! ### The starts -/

/-- The start of the `k`-th period, counted from the anchor's. -/
def walkStart (step : CycleStep) (anchor : NaiveDate) : ℕ → Option NaiveDate
  | 0 => some anchor
  | k + 1 => (walkStart step anchor k).bind step.advance

section Starts

variable {step : CycleStep} {anchor : NaiveDate}

/-- The walk from the second start on. -/
theorem walkStart_succ' {next : NaiveDate} (h : step.advance anchor = some next) (k : ℕ) :
    walkStart step anchor (k + 1) = walkStart step next k := by
  induction k with
  | zero => exact h
  | succ k ih => rw [walkStart, ih, walkStart]

theorem walkStart_of_le {k l : ℕ} (hkl : k ≤ l) {b : NaiveDate} (h : walkStart step anchor l = some b) :
    ∃ a, walkStart step anchor k = some a := by
  induction l, hkl using Nat.le_induction generalizing b with
  | base => exact ⟨b, h⟩
  | succ l _ ih =>
      obtain ⟨c, hc, -⟩ := Option.bind_eq_some_iff.mp h
      exact ih hc

theorem walkStart_lt (hp : step.Positive) {k l : ℕ} (hkl : k < l) {a b : NaiveDate}
    (ha : walkStart step anchor k = some a) (hb : walkStart step anchor l = some b) : a < b := by
  induction l, (Nat.succ_le_of_lt hkl) using Nat.le_induction generalizing b with
  | base =>
      rw [walkStart, ha] at hb
      exact CycleStep.lt_advance hp hb
  | succ l hl ih =>
      obtain ⟨c, hc, hcb⟩ := Option.bind_eq_some_iff.mp hb
      exact (ih hl hc).trans (CycleStep.lt_advance hp hcb)

end Starts

/-! ### The windows -/

/-- `p` is the `k`-th period: from its start to the day before the next one. -/
def IsPeriod (step : CycleStep) (anchor : NaiveDate) (k : ℕ) (p : NaiveDate × NaiveDate) : Prop :=
  ∃ next, walkStart step anchor k = some p.1 ∧ step.advance p.1 = some next ∧ next.predOpt = some p.2

section Windows

variable {step : CycleStep} {anchor : NaiveDate} {k l : ℕ} {p q : NaiveDate × NaiveDate}

/-- The day before a start that was walked to. -/
theorem predOpt_advance (hp : step.Positive) {a next : NaiveDate} (h : step.advance a = some next) :
    next.predOpt = some (next.predOpt.getD next) := by
  obtain ⟨c, hc⟩ := NaiveDate.exists_predOpt (CycleStep.lt_advance hp h)
  rw [hc, Option.getD_some]

theorem IsPeriod.eq (h : IsPeriod step anchor k p) (h' : IsPeriod step anchor k q) : p = q := by
  obtain ⟨next, h1, h2, h3⟩ := h
  obtain ⟨next', h1', h2', h3'⟩ := h'
  have e : p.1 = q.1 := Option.some.inj (h1.symm.trans h1')
  rw [e, h2', Option.some.injEq] at h2
  rw [← h2, h3', Option.some.injEq] at h3
  exact Prod.ext e h3.symm

/-- A period ends before any later one begins. -/
theorem IsPeriod.lt (hp : step.Positive) (h : IsPeriod step anchor k p) (h' : IsPeriod step anchor l q)
    (hkl : k < l) : p.2 < q.1 := by
  obtain ⟨next, h1, h2, h3⟩ := h
  obtain ⟨next', h1', h2', h3'⟩ := h'
  have hnext : walkStart step anchor (k + 1) = some next := by rw [walkStart, h1, Option.bind_some, h2]
  have hle : next ≤ q.1 := by
    obtain rfl | hlt := Nat.eq_or_lt_of_le (Nat.succ_le_of_lt hkl)
    · exact (Option.some.inj (hnext.symm.trans h1')).le
    · exact (walkStart_lt hp hlt hnext h1').le
  exact (NaiveDate.predOpt_lt h3).trans_le hle

/-- The day after a period is the start of the next. -/
theorem IsPeriod.succ (h : IsPeriod step anchor k p) {day : NaiveDate} (hday : p.2.succOpt = some day) :
    walkStart step anchor (k + 1) = some day := by
  obtain ⟨next, h1, h2, h3⟩ := h
  rw [walkStart, h1, Option.bind_some, h2, ← hday, NaiveDate.succOpt_predOpt h3]

/-- The periods that hold a start are its own. -/
theorem IsPeriod.eq_start (hp : step.Positive) (h : IsPeriod step anchor k p) {day : NaiveDate}
    (hday : walkStart step anchor l = some day) (h1 : p.1 ≤ day) (h2 : day ≤ p.2) : p.1 = day := by
  obtain ⟨next, hs, hn, hpred⟩ := h
  have hnext : walkStart step anchor (k + 1) = some next := by rw [walkStart, hs, Option.bind_some, hn]
  obtain hlt | rfl | hgt := lt_trichotomy l k
  · exact absurd (walkStart_lt hp hlt hday hs) (not_lt.mpr h1)
  · exact Option.some.inj (hs.symm.trans hday)
  · have hle : next ≤ day := by
      obtain rfl | hlt := Nat.eq_or_lt_of_le (Nat.succ_le_of_lt hgt)
      · exact (Option.some.inj (hnext.symm.trans hday)).le
      · exact (walkStart_lt hp hlt hnext hday).le
    exact absurd ((NaiveDate.predOpt_lt hpred).trans_le hle) (not_lt.mpr h2)

end Windows

/-! ### The loops end -/

/-- The `loop` of `current_billing_period` from a start on, with what it returns. -/
inductive BillingRuns (step : CycleStep) (today : NaiveDate) : NaiveDate → Option (NaiveDate × NaiveDate) → Prop where
  | overflow {start : NaiveDate} (h : step.advance start = none) : BillingRuns step today start none
  | stuck {start next : NaiveDate} (h : step.advance start = some next) (hle : next ≤ start) :
      BillingRuns step today start none
  | found {start next : NaiveDate} (h : step.advance start = some next) (hlt : start < next) (hin : today < next) :
      BillingRuns step today start (some (start, next.predOpt.getD next))
  | next {start next : NaiveDate} {r : Option (NaiveDate × NaiveDate)} (h : step.advance start = some next)
      (hlt : start < next) (hout : next ≤ today) (hr : BillingRuns step today next r) : BillingRuns step today start r

/-- The `loop` of `period_for`. -/
inductive PeriodRuns (step : CycleStep) (when : NaiveDate) : NaiveDate → NaiveDate × NaiveDate → Prop where
  | stuck {start : NaiveDate} (h : (step.advance start).getD start ≤ start) :
      PeriodRuns step when start (start, openEnd start)
  | found {start next : NaiveDate} (h : (step.advance start).getD start = next) (hlt : start < next)
      (hin : when < next) : PeriodRuns step when start (start, next.predOpt.getD next)
  | next {start next : NaiveDate} {r : NaiveDate × NaiveDate} (h : (step.advance start).getD start = next)
      (hlt : start < next) (hout : next ≤ when) (hr : PeriodRuns step when next r) : PeriodRuns step when start r

section Loops

variable {step : CycleStep} {today : NaiveDate}

/-- Every step that does not end the loop comes at least a day nearer. -/
theorem billingLoop_runs {fuel : ℕ} {start : NaiveDate} (h : today.ord - start.ord < fuel) (h0 : 0 < fuel) :
    BillingRuns step today start (billingLoop step today fuel start) := by
  induction fuel generalizing start with
  | zero => exact absurd h0 (lt_irrefl 0)
  | succ fuel ih =>
      simp only [billingLoop]
      cases hadv : step.advance start with
      | none => exact .overflow hadv
      | some next =>
          dsimp only
          split
          · next hle => exact .stuck hadv hle
          · next hlt =>
            rw [not_le] at hlt
            split
            · next hin => exact .found hadv hlt hin
            · next hout =>
              rw [not_lt] at hout
              have h1 := NaiveDate.lt_iff_ord.mp hlt
              have h2 := NaiveDate.le_iff_ord.mp hout
              exact .next hadv hlt hout (ih (by omega) (by omega))

theorem periodLoop_runs {fuel : ℕ} {start : NaiveDate} (h : today.ord - start.ord < fuel) (h0 : 0 < fuel) :
    PeriodRuns step today start (periodLoop step today fuel start) := by
  induction fuel generalizing start with
  | zero => exact absurd h0 (lt_irrefl 0)
  | succ fuel ih =>
      rw [periodLoop_step]
      split
      · next hle => exact .stuck hle
      · next hlt =>
        rw [not_le] at hlt
        split
        · next hin => exact .found rfl hlt hin
        · next hout =>
          rw [not_lt] at hout
          have h1 := NaiveDate.lt_iff_ord.mp hlt
          have h2 := NaiveDate.le_iff_ord.mp hout
          exact .next rfl hlt hout (ih (by omega) (by omega))

/-- What the loop returns is a period of the walk, and the day is one of it. -/
theorem BillingRuns.isPeriod (hp : step.Positive) {start : NaiveDate} {p : NaiveDate × NaiveDate}
    {r : Option (NaiveDate × NaiveDate)} (h : BillingRuns step today start r) (hr : r = some p)
    (hs : start ≤ today) : ∃ k, IsPeriod step start k p ∧ p.1 ≤ today ∧ today ≤ p.2 := by
  induction h with
  | overflow h => cases hr
  | stuck h hle => cases hr
  | @found start next h hlt hin =>
      cases hr
      have hpred := predOpt_advance hp h
      exact ⟨0, ⟨next, rfl, h, hpred⟩, hs, (NaiveDate.lt_iff_le_predOpt hpred today).mp hin⟩
  | @next start next r h hlt hout _ ih =>
      obtain ⟨k, ⟨next', h1, h2, h3⟩, hin⟩ := ih hr hout
      exact ⟨k + 1, ⟨next', (walkStart_succ' h k).trans h1, h2, h3⟩, hin⟩

/-- On a day of a period, both loops return that period. -/
theorem IsPeriod.billingRuns (hp : step.Positive) {start : NaiveDate} {k : ℕ} {p : NaiveDate × NaiveDate}
    (h : IsPeriod step start k p) (h1 : p.1 ≤ today) (h2 : today ≤ p.2) :
    BillingRuns step today start (some p) ∧ PeriodRuns step today start p := by
  induction k generalizing start with
  | zero =>
      obtain ⟨next, hs, hn, hpred⟩ := h
      cases hs
      have hlt := CycleStep.lt_advance hp hn
      have hin := (NaiveDate.lt_iff_le_predOpt hpred today).mpr h2
      have he : (p.1, next.predOpt.getD next) = p := by rw [hpred, Option.getD_some]
      rw [← he]
      exact ⟨.found hn hlt hin, .found (by rw [hn, Option.getD_some]) hlt hin⟩
  | succ k ih =>
      obtain ⟨next', hs, hn, hpred⟩ := h
      obtain ⟨next, hnext⟩ := walkStart_of_le (Nat.succ_le_succ (Nat.zero_le k)) hs
      have hadv : step.advance start = some next := hnext
      have hlt := CycleStep.lt_advance hp hadv
      have hs' : walkStart step next k = some p.1 := (walkStart_succ' hadv k).symm.trans hs
      have hle : next ≤ p.1 := by
        obtain rfl | hk := k.eq_zero_or_pos
        · exact (Option.some.inj hs').le
        · exact (walkStart_lt hp hk rfl hs').le
      obtain ⟨hb, hf⟩ := ih ⟨next', hs', hn, hpred⟩
      exact ⟨.next hadv hlt (hle.trans h1) hb, .next (by rw [hadv, Option.getD_some]) hlt (hle.trans h1) hf⟩

/-- A bound that covers the distance does not change what the loop returns. -/
theorem BillingRuns.eq_billingLoop {start : NaiveDate} {r : Option (NaiveDate × NaiveDate)}
    (h : BillingRuns step today start r) {fuel : ℕ} (hf : today.ord - start.ord < fuel) (h0 : 0 < fuel) :
    billingLoop step today fuel start = r := by
  induction h generalizing fuel with
  | overflow h =>
      obtain ⟨fuel, rfl⟩ := Nat.exists_eq_succ_of_ne_zero h0.ne'
      simp only [billingLoop, h]
  | stuck h hle =>
      obtain ⟨fuel, rfl⟩ := Nat.exists_eq_succ_of_ne_zero h0.ne'
      simp only [billingLoop, h, if_pos hle]
  | found h hlt hin =>
      obtain ⟨fuel, rfl⟩ := Nat.exists_eq_succ_of_ne_zero h0.ne'
      simp only [billingLoop, h, if_neg (not_le.mpr hlt), if_pos hin]
  | next h hlt hout _ ih =>
      obtain ⟨fuel, rfl⟩ := Nat.exists_eq_succ_of_ne_zero h0.ne'
      have h1 := NaiveDate.lt_iff_ord.mp hlt
      have h2 := NaiveDate.le_iff_ord.mp hout
      simp only [billingLoop, h, if_neg (not_le.mpr hlt), if_neg (not_lt.mpr hout)]
      exact ih (by omega) (by omega)

theorem PeriodRuns.eq_periodLoop {start : NaiveDate} {r : NaiveDate × NaiveDate}
    (h : PeriodRuns step today start r) {fuel : ℕ} (hf : today.ord - start.ord < fuel) (h0 : 0 < fuel) :
    periodLoop step today fuel start = r := by
  induction h generalizing fuel with
  | stuck h =>
      obtain ⟨fuel, rfl⟩ := Nat.exists_eq_succ_of_ne_zero h0.ne'
      rw [periodLoop_step, if_pos h]
  | found h hlt hin =>
      obtain ⟨fuel, rfl⟩ := Nat.exists_eq_succ_of_ne_zero h0.ne'
      rw [periodLoop_step, h, if_neg (not_le.mpr hlt), if_pos hin]
  | next h hlt hout _ ih =>
      obtain ⟨fuel, rfl⟩ := Nat.exists_eq_succ_of_ne_zero h0.ne'
      have h1 := NaiveDate.lt_iff_ord.mp hlt
      have h2 := NaiveDate.le_iff_ord.mp hout
      rw [periodLoop_step, h, if_neg (not_le.mpr hlt), if_neg (not_lt.mpr hout)]
      exact ih (by omega) (by omega)

end Loops

/-! ### Two calculators, one walk -/

section Calculators

variable {cycle : BillingCycle} {step : CycleStep} {anchor when : NaiveDate} {p : NaiveDate × NaiveDate}

theorem currentBillingPeriod_eq (hc : CycleStep.fromCycle cycle = some step) (h : anchor ≤ when) :
    currentBillingPeriod cycle anchor when =
      billingLoop step when ((when.ord - anchor.ord).toNat + 1) anchor := by
  unfold currentBillingPeriod
  rw [if_neg (not_lt.mpr h), hc]

theorem periodFor_eq (hc : CycleStep.fromCycle cycle = some step) :
    periodFor anchor cycle when = periodLoop step when ((when.ord - anchor.ord).toNat + 1) anchor := by
  unfold periodFor
  rw [hc]

/-- On every day of a period both calculators return it. -/
theorem IsPeriod.calculated (hc : CycleStep.fromCycle cycle = some step) {k : ℕ} (hk : IsPeriod step anchor k p)
    (h1 : p.1 ≤ when) (h2 : when ≤ p.2) :
    currentBillingPeriod cycle anchor when = some p ∧ periodFor anchor cycle when = p := by
  have hp := CycleStep.positive_fromCycle hc
  have hle : anchor ≤ p.1 := by
    obtain ⟨next, hs, -, -⟩ := hk
    obtain rfl | hk := k.eq_zero_or_pos
    · exact (Option.some.inj hs).le
    · exact (walkStart_lt hp hk rfl hs).le
  obtain ⟨hb, hf⟩ := hk.billingRuns hp h1 h2
  rw [currentBillingPeriod_eq hc (hle.trans h1), periodFor_eq hc]
  exact ⟨hb.eq_billingLoop (by omega) (by omega), hf.eq_periodLoop (by omega) (by omega)⟩

/-- What `current_billing_period` returns is a period of the walk that holds the day. -/
theorem isPeriod_of_currentBillingPeriod (hc : CycleStep.fromCycle cycle = some step)
    (h : currentBillingPeriod cycle anchor when = some p) :
    anchor ≤ when ∧ ∃ k, IsPeriod step anchor k p ∧ p.1 ≤ when ∧ when ≤ p.2 := by
  have hle : anchor ≤ when := by
    by_contra hlt
    rw [currentBillingPeriod, if_pos (not_le.mp hlt)] at h
    cases h
  rw [currentBillingPeriod_eq hc hle] at h
  have hruns : BillingRuns step when anchor (billingLoop step when ((when.ord - anchor.ord).toNat + 1) anchor) :=
    billingLoop_runs (by omega) (by omega)
  exact ⟨hle, hruns.isPeriod (CycleStep.positive_fromCycle hc) h hle⟩

/-- **Two period calculators agree.**  Where `current_billing_period` answers it names the window of `period_for`,
which holds the day; the windows start at the anchor, follow each other day by day and never overlap; and both loops
end. -/
theorem period_windows (hc : CycleStep.fromCycle cycle = some step) (anchor : NaiveDate) :
    (∀ when p, currentBillingPeriod cycle anchor when = some p →
      periodFor anchor cycle when = p ∧ p.1 ≤ when ∧ when ≤ p.2) ∧
    (∀ p, currentBillingPeriod cycle anchor anchor = some p → p.1 = anchor) ∧
    (∀ when p day p', currentBillingPeriod cycle anchor when = some p → p.2.succOpt = some day →
      currentBillingPeriod cycle anchor day = some p' → p'.1 = day) ∧
    (∀ when p when' p', currentBillingPeriod cycle anchor when = some p →
      currentBillingPeriod cycle anchor when' = some p' → p = p' ∨ p.2 < p'.1 ∨ p'.2 < p.1) ∧
    ∀ when, anchor ≤ when → BillingRuns step when anchor (currentBillingPeriod cycle anchor when) ∧
      PeriodRuns step when anchor (periodFor anchor cycle when) := by
  have hp := CycleStep.positive_fromCycle hc
  refine ⟨?_, ?_, ?_, ?_, ?_⟩
  · intro when p h
    obtain ⟨-, k, hk, h1, h2⟩ := isPeriod_of_currentBillingPeriod hc h
    exact ⟨(hk.calculated hc h1 h2).2, h1, h2⟩
  · intro p h
    obtain ⟨-, k, hk, h1, h2⟩ := isPeriod_of_currentBillingPeriod hc h
    exact @IsPeriod.eq_start _ _ _ 0 _ hp hk _ rfl h1 h2
  · intro when p day p' h hday h'
    obtain ⟨-, k, hk, -, -⟩ := isPeriod_of_currentBillingPeriod hc h
    obtain ⟨-, l, hl, h1, h2⟩ := isPeriod_of_currentBillingPeriod hc h'
    exact hl.eq_start hp (hk.succ hday) h1 h2
  · intro when p when' p' h h'
    obtain ⟨-, k, hk, -, -⟩ := isPeriod_of_currentBillingPeriod hc h
    obtain ⟨-, l, hl, -, -⟩ := isPeriod_of_currentBillingPeriod hc h'
    obtain hlt | rfl | hgt := lt_trichotomy k l
    · exact .inr (.inl (hk.lt hp hl hlt))
    · exact .inl (hk.eq hl)
    · exact .inr (.inr (hl.lt hp hk hgt))
  · intro when hle
    rw [currentBillingPeriod_eq hc hle, periodFor_eq hc]
    exact ⟨billingLoop_runs (by omega) (by omega), periodLoop_runs (by omega) (by omega)⟩

end Calculators

/-- The last day of January of a leap year, and two days after it. -/
def januaryEnd : NaiveDate := (NaiveDate.fromYmdOpt 2024 1 31).get (by decide)
def midMarch : NaiveDate := (NaiveDate.fromYmdOpt 2024 3 15).get (by decide)
def marchEnd : NaiveDate := (NaiveDate.fromYmdOpt 2024 3 31).get (by decide)

/-- A contract that begins on the last of January is in its second period in the middle of March. -/
theorem period_windows_midMarch :
    ∃ p, currentBillingPeriod .monthly januaryEnd midMarch = some p ∧ periodFor januaryEnd .monthly midMarch = p ∧
      p.1 ≤ midMarch ∧ midMarch ≤ p.2 := by
  obtain ⟨p, hp⟩ := Option.isSome_iff_exists.mp
    (by decide +kernel : (currentBillingPeriod .monthly januaryEnd midMarch).isSome = true)
  exact ⟨p, hp, (@period_windows .monthly (.months 1) rfl januaryEnd).1 midMarch p hp⟩

/-! ### Where the starts drift -/

section Drift

variable {n : ℕ} {anchor : NaiveDate}

/-- The day the walk is at after `k` steps of `n` months. -/
def walkedDay (n : ℕ) (anchor : NaiveDate) : ℕ → ℕ
  | 0 => anchor.day
  | k + 1 => min (walkedDay n anchor k) (monthLength (anchor.monthIndex + ((k + 1) * n : ℕ)))

theorem le_walkedDay_iff {x k : ℕ} :
    x ≤ walkedDay n anchor k ↔
      x ≤ anchor.day ∧ ∀ i, 0 < i → i ≤ k → x ≤ monthLength (anchor.monthIndex + (i * n : ℕ)) := by
  induction k with
  | zero =>
      constructor
      · intro h
        exact ⟨h, fun i h0 hi => absurd hi (Nat.not_le_of_lt h0)⟩
      · exact fun h => h.1
  | succ k ih =>
      rw [walkedDay, le_min_iff, ih]
      constructor
      · rintro ⟨⟨hday, hbefore⟩, hat⟩
        refine ⟨hday, fun i h0 hi => ?_⟩
        obtain hik | rfl := Nat.le_or_eq_of_le_succ hi
        · exact hbefore i h0 hik
        · exact hat
      · rintro ⟨hday, hall⟩
        exact ⟨⟨hday, fun i h0 hi => hall i h0 (by omega)⟩, hall (k + 1) (by omega) le_rfl⟩

/-- After `k` steps the walk is `k * n` months further, at the least day it has been to. -/
theorem walkStart_months {k : ℕ} {a : NaiveDate} (h : walkStart (.months n) anchor k = some a) :
    a.monthIndex = anchor.monthIndex + (k * n : ℕ) ∧ a.day = walkedDay n anchor k := by
  induction k generalizing a with
  | zero =>
      cases h
      exact ⟨by simp, rfl⟩
  | succ k ih =>
      obtain ⟨b, hb, ha⟩ := Option.bind_eq_some_iff.mp h
      obtain ⟨hm, hd⟩ := ih hb
      obtain ⟨hm', hd'⟩ := NaiveDate.checkedAddMonths_eq_some.mp ha
      have hindex : b.monthIndex + n = anchor.monthIndex + ((k + 1) * n : ℕ) := by
        rw [hm]
        push_cast
        ring
      rw [hindex] at hm' hd'
      exact ⟨hm', by rw [hd', hd, walkedDay]⟩

/-- **Where billing periods do not drift.**  The `k`-th period, which both calculators return on each of its days,
starts `k * n` months after the anchor exactly if no month the walk was at before is shorter than the day it should
be at now. -/
theorem period_starts_iff {cycle : BillingCycle} (hc : CycleStep.fromCycle cycle = some (.months n)) {k : ℕ}
    {p : NaiveDate × NaiveDate} (hk : IsPeriod (.months n) anchor k p) :
    (∀ when, p.1 ≤ when → when ≤ p.2 →
      currentBillingPeriod cycle anchor when = some p ∧ periodFor anchor cycle when = p) ∧
    (anchor.checkedAddMonths (k * n) = some p.1 ↔ ∀ i, 0 < i → i < k →
      min anchor.day (monthLength (anchor.monthIndex + (k * n : ℕ))) ≤
        monthLength (anchor.monthIndex + (i * n : ℕ))) := by
  refine ⟨fun when h1 h2 => hk.calculated hc h1 h2, ?_⟩
  obtain ⟨next, hs, -, -⟩ := hk
  obtain ⟨hm, hd⟩ := walkStart_months hs
  have hanchor := anchor.day_mem'
  have hle : walkedDay n anchor k ≤ min anchor.day (monthLength (anchor.monthIndex + (k * n : ℕ))) := by
    have hself := (@le_walkedDay_iff n anchor _ k).mp le_rfl
    obtain rfl | h0 := k.eq_zero_or_pos
    · simp only [zero_mul, Nat.cast_zero, add_zero] at hself ⊢
      omega
    · exact le_min hself.1 (hself.2 k h0 le_rfl)
  rw [NaiveDate.checkedAddMonths_eq_some, hd]
  constructor
  · rintro ⟨-, heq⟩ i h0 hi
    exact (le_walkedDay_iff.mp heq.ge).2 i h0 hi.le
  · intro hall
    refine ⟨hm, le_antisymm hle (le_walkedDay_iff.mpr ⟨min_le_left _ _, fun i h0 hi => ?_⟩)⟩
    obtain rfl | hlt := Nat.eq_or_lt_of_le hi
    · exact min_le_right _ _
    · exact hall i h0 hlt

end Drift

/-- The second period of a contract of the fifteenth, from March to April. -/
def midMarchPeriod : NaiveDate × NaiveDate := (midMarch, (NaiveDate.fromYmdOpt 2024 4 14).get (by decide))
def midJanuary : NaiveDate := (NaiveDate.fromYmdOpt 2024 1 15).get (by decide)

theorem isPeriod_midMarch : IsPeriod (.months 1) midJanuary 2 midMarchPeriod :=
  ⟨⟨2024, 4, 15, by decide, by decide, by decide⟩, by decide +kernel, by decide +kernel, by decide +kernel⟩

theorem period_starts_midMarch : midJanuary.checkedAddMonths 2 = some midMarch := by
  have h := (@period_starts_iff 1 midJanuary .monthly rfl 2 midMarchPeriod isPeriod_midMarch).2
  refine h.mpr fun i h0 hi => ?_
  have h28 := monthLength_mem (midJanuary.monthIndex + (i * 1 : ℕ))
  exact (min_le_left _ _).trans (Nat.le_trans (by decide) h28.1)

/-- A monthly contract of the last of January is at the end of February after one step, and stays on the 29th. -/
theorem period_starts_drift :
    ∃ p, IsPeriod (.months 1) januaryEnd 2 p ∧ currentBillingPeriod .monthly januaryEnd marchEnd = some p ∧
      januaryEnd.checkedAddMonths (2 * 1) = some marchEnd ∧ p.1 ≠ marchEnd := by
  refine ⟨(⟨2024, 3, 29, by decide, by decide, by decide⟩, ⟨2024, 4, 28, by decide, by decide, by decide⟩),
    ⟨⟨2024, 4, 29, by decide, by decide, by decide⟩, ?_, ?_, ?_⟩, ?_, ?_, ?_⟩ <;> decide +kernel

end Mokosh
