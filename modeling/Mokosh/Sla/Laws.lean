import Mathlib.Data.List.Find
import Mokosh.Sla.Due

/-! # The laws of what is due

What is due comes no earlier for a later start or for a larger budget, and one budget after another is as good as their
sum (`DueLaws`).  A walk from a start that is not fair spends time from before the start, and this is the one way in
which a schedule breaks the laws whose windows are resolved within their days (**`due_laws`**).

`evaluate_for_ticket` (`sla/service.rs`) computes two instants from one start.  The response is never due after the
resolution if its hours are not more, and here the start may be any (`first_response_le_resolution`). -/

namespace Mokosh.Sla

open OpenTime (IsDue)

section Laws

variable (schedule : Schedule) (holidays : Finset NaiveDate) (operational : OperationalHours)

/-- The hours make a budget of at least a second. -/
def Budget (hours : ℚ) : Prop := 0 < hours ∧ 0 < budgetSeconds hours

/-- If there is a walk to take it ends before its cap. -/
def Finishes (start : ℤ) (hours : ℚ) : Prop :=
  operational = .businessHours → schedule.hasAnyWindow = true →
    (businessWalk schedule holidays start (budgetSeconds hours)).remaining ≤ 0

structure DueLaws : Prop where
  mono_start : ∀ s s' hours, Budget hours → Finishes schedule holidays operational s hours →
    Finishes schedule holidays operational s' hours → s ≤ s' →
      dueAt schedule holidays s hours operational ≤ dueAt schedule holidays s' hours operational
  mono_budget : ∀ s hours hours', Budget hours → Budget hours' → Finishes schedule holidays operational s hours →
    Finishes schedule holidays operational s hours' → budgetSeconds hours ≤ budgetSeconds hours' →
      dueAt schedule holidays s hours operational ≤ dueAt schedule holidays s hours' operational
  add : ∀ s hours hours' sum, Budget hours → Budget hours' → Budget sum →
    budgetSeconds sum = budgetSeconds hours + budgetSeconds hours' →
      Finishes schedule holidays operational s hours →
        Finishes schedule holidays operational (dueAt schedule holidays s hours operational) hours' →
          Finishes schedule holidays operational s sum →
            dueAt schedule holidays (dueAt schedule holidays s hours operational) hours' operational =
              dueAt schedule holidays s sum operational

/-- Where the walk spends time from. -/
def departure (s : ℤ) : ℤ := min s (schedule.tz.nextDayStart (schedule.tz.dateNaive s))

end Laws

section Due

variable {schedule : Schedule} {holidays : Finset NaiveDate} {operational : OperationalHours}

theorem departure_le (s : ℤ) : departure schedule s ≤ s := min_le_left _ _

/-- Either there is a walk to take, or the budget is added to the start. -/
theorem dueAt_cases (schedule : Schedule) (holidays : Finset NaiveDate) (operational : OperationalHours) :
    (operational = .businessHours ∧ schedule.hasAnyWindow = true) ∨ ∀ s hours, 0 < hours →
      dueAt schedule holidays s hours operational = s + budgetSeconds hours * nanos := by
  cases operational with
  | always =>
      refine .inr fun s hours hhours => ?_
      unfold dueAt
      rw [if_neg (not_le.mpr hhours)]
  | businessHours =>
      cases hany : schedule.hasAnyWindow with
      | true => exact .inl ⟨rfl, rfl⟩
      | false =>
          refine .inr fun s hours hhours => ?_
          unfold dueAt
          rw [if_neg (not_le.mpr hhours), hany]
          rfl

theorem Budget.nanos_pos {hours : ℚ} (h : Budget hours) : 0 < budgetSeconds hours * nanos :=
  Int.mul_pos h.2 (by decide)

theorem hasAnyWindow_of_mem {d : Weekday} {w : Window NaiveTime} (h : w ∈ schedule.windows d) :
    schedule.hasAnyWindow = true := by
  refine List.any_eq_true.mpr ⟨d, by cases d <;> decide, ?_⟩
  rw [Bool.not_eq_true', List.isEmpty_eq_false_iff]
  exact List.ne_nil_of_mem h

theorem hasAnyWindow_of_spends {t : ℤ} (h : Spends schedule holidays t) : schedule.hasAnyWindow = true := by
  obtain ⟨date, -, w, hw, -⟩ := h
  exact hasAnyWindow_of_mem (List.mem_of_find?_eq_some hw)

variable (hz : schedule.tz.WholeMinuteGaps) (hdays : InDays schedule holidays)
include hz hdays

/-- What is due, in terms of the time spent from the departure on. -/
theorem isDue_departure (hany : schedule.hasAnyWindow = true) {s : ℤ} {hours : ℚ} (hbudget : Budget hours)
    (hfinish : Finishes schedule holidays .businessHours s hours) :
    IsDue (Spends schedule holidays) (departure schedule s) (budgetSeconds hours * nanos)
      (dueAt schedule holidays s hours .businessHours) := by
  have hend := hfinish rfl hany
  rw [dueAt_of_businessWalk hbudget.1 hany rfl]
  unfold departure
  obtain hpassed | hnot := le_or_gt (schedule.tz.nextDayStart (schedule.tz.dateNaive s)) s
  · rw [min_eq_right hpassed]
    exact @walk_isDue_of_passed schedule holidays hz hdays maxIterations ⟨s, _⟩ hbudget.nanos_pos hend hpassed
  · rw [min_eq_left hnot.le]
    have hfair : Fair schedule holidays s := fun t ht hnext => by omega
    exact @walk_isDue schedule holidays hz hdays maxIterations ⟨s, _⟩ hbudget.nanos_pos hfair hend

theorem isDue_of_fair (hany : schedule.hasAnyWindow = true) {s : ℤ} {hours : ℚ} (hbudget : Budget hours)
    (hfinish : Finishes schedule holidays .businessHours s hours) (hfair : Fair schedule holidays s) :
    IsDue (Spends schedule holidays) s (budgetSeconds hours * nanos)
      (dueAt schedule holidays s hours .businessHours) := by
  refine (OpenTime.isDue_skip_iff (departure_le s) fun t ht hts => ?_).mp
    (isDue_departure hz hdays hany hbudget hfinish)
  unfold departure at ht
  exact hfair t hts (by omega)

/-- A larger budget from the same start, whether this is fair or not. -/
theorem dueAt_mono_budget {s : ℤ} {hours hours' : ℚ} (hbudget : Budget hours) (hbudget' : Budget hours')
    (hfinish : Finishes schedule holidays operational s hours)
    (hfinish' : Finishes schedule holidays operational s hours')
    (hle : budgetSeconds hours ≤ budgetSeconds hours') :
    dueAt schedule holidays s hours operational ≤ dueAt schedule holidays s hours' operational := by
  have hnanos : budgetSeconds hours * nanos ≤ budgetSeconds hours' * nanos :=
    Int.mul_le_mul_of_nonneg_right hle (by decide)
  obtain ⟨rfl, hany⟩ | hplain := dueAt_cases schedule holidays operational
  · exact (isDue_departure hz hdays hany hbudget hfinish).mono_budget
      (isDue_departure hz hdays hany hbudget' hfinish') hnanos
  · rw [hplain s hours hbudget.1, hplain s hours' hbudget'.1]
    omega

theorem dueLaws_of_fair (hfair : ∀ s, Fair schedule holidays s) : DueLaws schedule holidays operational where
  mono_start s s' hours hbudget hfinish hfinish' hle := by
    obtain ⟨rfl, hany⟩ | hplain := dueAt_cases schedule holidays operational
    · exact (isDue_of_fair hz hdays hany hbudget hfinish (hfair s)).mono_start
        (isDue_of_fair hz hdays hany hbudget hfinish' (hfair s')) hle
    · rw [hplain s hours hbudget.1, hplain s' hours hbudget.1]
      omega
  mono_budget s hours hours' := dueAt_mono_budget hz hdays
  add s hours hours' sum hbudget hbudget' hbudgets hsum hfinish hfinish' hfinishes := by
    have hnanos : budgetSeconds sum * nanos = budgetSeconds hours * nanos + budgetSeconds hours' * nanos := by
      rw [hsum, add_mul]
    obtain ⟨rfl, hany⟩ | hplain := dueAt_cases schedule holidays operational
    · have hfirst := isDue_of_fair hz hdays hany hbudget hfinish (hfair s)
      have hsecond := isDue_of_fair hz hdays hany hbudget' hfinish' (hfair _)
      have hboth := isDue_of_fair hz hdays hany hbudgets hfinishes (hfair s)
      rw [hnanos] at hboth
      exact (hfirst.trans hsecond hbudget.nanos_pos hbudget'.nanos_pos).unique hboth
    · rw [hplain s hours hbudget.1, hplain _ hours' hbudget'.1, hplain s sum hbudgets.1, hnanos, add_assoc]

end Due

/-! ### A start that is not fair -/

section NotFair

variable {schedule : Schedule} {holidays : Finset NaiveDate}

/-- Time begins to be spent where some local time is resolved. -/
theorem eq_localDt_of_first_spends {t : ℤ} (h : Spends schedule holidays t)
    (hbefore : ¬ Spends schedule holidays (t - 1)) : ∃ date time, t = schedule.tz.localDt date time := by
  obtain ⟨date, hholiday, w, hw, hstart⟩ := h
  by_contra hno
  have hne : ∀ time, t ≠ schedule.tz.localDt date time := fun time heq => hno ⟨date, time, heq⟩
  -- The same windows are over an instant earlier.
  have hsame : ((schedule.windows (weekday date)).find? fun w => t - 1 < schedule.tz.localDt date w.finish) =
      (schedule.windows (weekday date)).find? fun w => t < schedule.tz.localDt date w.finish := by
    refine List.find?_congr fun w' _ => ?_
    have hfinish := hne w'.finish
    rw [decide_eq_decide]
    omega
  have hlt := hne w.start
  exact hbefore ⟨date, hholiday, w, hsame.trans hw, by omega⟩

/-- Within the second that a local time is resolved to, every instant is fair. -/
theorem fair_add_one (hz : schedule.tz.WholeMinuteGaps) (date : ℤ) (time : NaiveTime) :
    Fair schedule holidays (schedule.tz.localDt date time + 1) := by
  obtain ⟨y, u, heq, hfirst, -, -⟩ := Zone.localDt_first hz date time
  have hdiv : (schedule.tz.localDt date time + 1) / nanos = u := by
    unfold nanos at heq ⊢
    omega
  exact fair_of_first hz (hdiv ▸ hfirst)

/-- From a start that is not fair the budget is used up before it is from some earlier start. -/
theorem exists_earlier_start (hz : schedule.tz.WholeMinuteGaps) (hdays : InDays schedule holidays) {s : ℤ}
    (hunfair : ¬ Fair schedule holidays s) : ∃ s' ≤ s, ∀ hours, Budget hours →
      Finishes schedule holidays .businessHours s hours → Finishes schedule holidays .businessHours s' hours →
        dueAt schedule holidays s hours .businessHours < dueAt schedule holidays s' hours .businessHours := by
  unfold Fair at hunfair
  push Not at hunfair
  obtain ⟨t, hts, hnext, hspends⟩ := hunfair
  have hany := hasAnyWindow_of_spends hspends
  -- The first time that is spent since the next day began.
  obtain ⟨t₁, ⟨hnext₁, hspends₁⟩, hleast⟩ := Int.exists_least_of_bdd
    (P := fun t => schedule.tz.nextDayStart (schedule.tz.dateNaive s) ≤ t ∧ Spends schedule holidays t)
    ⟨_, fun t h => h.1⟩ ⟨t, hnext, hspends⟩
  have hle : t₁ ≤ t := hleast t ⟨hnext, hspends⟩
  have hfair : Fair schedule holidays (t₁ + 1) := by
    have hresolved : ∃ date time, t₁ = schedule.tz.localDt date time := by
      obtain heq | hne := eq_or_ne t₁ (schedule.tz.nextDayStart (schedule.tz.dateNaive s))
      · exact ⟨_, midnight, heq⟩
      · refine eq_localDt_of_first_spends hspends₁ fun hearlier => ?_
        have hge := hleast (t₁ - 1) ⟨by omega, hearlier⟩
        omega
    obtain ⟨date, time, rfl⟩ := hresolved
    exact fair_add_one hz date time
  refine ⟨t₁ + 1, by omega, fun hours hbudget hfinish hfinish' => ?_⟩
  have hdeparture : departure schedule s = schedule.tz.nextDayStart (schedule.tz.dateNaive s) :=
    min_eq_right (hnext.trans hts.le)
  have hdue := isDue_departure hz hdays hany hbudget hfinish
  have hdue' := isDue_of_fair hz hdays hany hbudget hfinish' hfair
  rw [hdeparture] at hdue
  refine lt_of_le_of_ne (hdue.mono_start hdue' (by omega)) fun heq => ?_
  rw [← heq] at hdue'
  -- Between the two departures an instant is spent.
  exact (OpenTime.isDue_iff_of_isDue hdue (by omega) hbudget.nanos_pos).mp hdue' t₁ hnext₁ (by omega) hspends₁

end NotFair

/-- For gaps of whole minutes and windows that are resolved within their days: the laws hold if every start is fair, and
a start that is not fair breaks the first of them with any budget for which the walks finish. -/
theorem due_laws {schedule : Schedule} {holidays : Finset NaiveDate} (hz : schedule.tz.WholeMinuteGaps)
    (hdays : InDays schedule holidays) :
    ((∀ s, Fair schedule holidays s) → ∀ operational, DueLaws schedule holidays operational) ∧
      ∀ s, ¬ Fair schedule holidays s → ∃ s' ≤ s, ∀ hours, Budget hours →
        Finishes schedule holidays .businessHours s hours → Finishes schedule holidays .businessHours s' hours →
          dueAt schedule holidays s hours .businessHours < dueAt schedule holidays s' hours .businessHours :=
  ⟨fun hfair _ => dueLaws_of_fair hz hdays hfair, fun _ => exists_earlier_start hz hdays⟩

/-- A day shift. -/
def dayWindow : Window NaiveTime := ⟨⟨32400, by decide⟩, ⟨61200, by decide⟩, by decide⟩

/-- The day shift on Sundays, in a time zone that is only set forward. -/
def springSchedule : Schedule := ⟨springZone, fun d => if d = .sun then [dayWindow] else []⟩

theorem springSchedule_wholeMinutes : WholeMinutes springSchedule where
  gaps := by
    have hshows (u : ℤ) := springZone_shows u
    refine ⟨fun u hu => ?_, fun u hu => ?_, fun u => ?_, fun u x hu hx u' => ?_⟩ <;>
      unfold springSchedule at * <;> dsimp only at * <;> simp only [hshows] at * <;> split_ifs at * <;> omega
  sorted d := by
    cases d with
    | sun => exact List.pairwise_singleton _ _
    | _ => exact .nil
  minutes d w hw := by
    cases d with
    | sun =>
        rw [List.mem_singleton.mp hw]
        decide
    | _ => exact absurd hw List.not_mem_nil

/-- No time is shown twice. -/
theorem springSchedule_fair (t : ℤ) : Fair springSchedule ∅ t := by
  refine @fair_of_first _ _ springSchedule_wholeMinutes.gaps (springZone.shows (t / nanos)) t ⟨le_rfl, fun u hu => ?_⟩
  have htz : springSchedule.tz = springZone := rfl
  rw [htz, springZone_shows, springZone_shows]
  split <;> split <;> omega

theorem due_laws_spring : DueLaws springSchedule ∅ .businessHours :=
  (due_laws springSchedule_wholeMinutes.gaps springSchedule_wholeMinutes.inDays).1 springSchedule_fair .businessHours

/-- Half an hour from just after midnight is due later than half an hour from the second half past eleven. -/
theorem earlier_start_due_later : WholeMinutes foldSchedule ∧ ¬ DueLaws foldSchedule ∅ .businessHours := by
  refine ⟨foldSchedule_wholeMinutes, fun hlaws => ?_⟩
  obtain ⟨hwalk', hdue'⟩ := foldSchedule_due (show foldZone.dateNaive (356460 * nanos) = 3 by decide)
  have hwalk : businessWalk foldSchedule ∅ (354630 * nanos) (budgetSeconds ((1800 : ℕ) / 3600)) =
      ⟨354630 * nanos + 1800 * nanos, 0⟩ := by
    have hmax : maxIterations = 10979 + 1 := rfl
    have hbudget : 0 < 1800 * nanos := by decide
    unfold businessWalk
    rw [budgetSeconds_halfHour, hmax, walk_of_pos (by exact hbudget),
      foldSchedule_monday (by decide) (by decide) (by decide), walk_of_done le_rfl]
  have hdue := dueAt_of_businessWalk (by norm_num) foldSchedule_hasAnyWindow hwalk
  have hbudget : Budget ((1800 : ℕ) / 3600) := ⟨by norm_num, by rw [budgetSeconds_halfHour]; decide⟩
  have hle := hlaws.mono_start (354630 * nanos) (356460 * nanos) ((1800 : ℕ) / 3600) hbudget
    (fun _ _ => by rw [hwalk]) (fun _ _ => by rw [hwalk']) (by decide)
  rw [hdue, hdue'] at hle
  exact absurd hle (by decide)

/-! ### The two instants of a ticket -/

/-- What the evaluation reads of a row of `sla_targets`. -/
structure SlaTarget where
  firstResponseHours : Option ℚ
  resolutionHours : Option ℚ
  operationalHours : Option String

structure Dues where
  firstResponseDue : Option ℤ
  resolutionDue : Option ℤ

/-- `decimal_to_hours`: the text of a decimal, read as a binary number. -/
def decimalToHours (hours : ℚ) : ℚ := Binary64.round hours

/-- What `evaluate_for_ticket` writes to the ticket. -/
def evaluateDues (schedule : Schedule) (holidays : Finset NaiveDate) (createdAt : ℤ) (target : SlaTarget) : Dues :=
  let operational := OperationalHours.fromDb (target.operationalHours.getD "business_hours")
  { firstResponseDue := target.firstResponseHours.map fun h =>
      dueAt schedule holidays createdAt (decimalToHours h) operational
    resolutionDue := target.resolutionHours.map fun h =>
      dueAt schedule holidays createdAt (decimalToHours h) operational }

theorem decimalToHours_pos {h : ℚ} (hpos : 0 < h) : 0 < decimalToHours h :=
  (zpow_pos two_pos _).trans_le (Binary64.zpow_le_round hpos)

theorem budgetSeconds_mono {h h' : ℚ} (hpos : 0 < h) (hle : h ≤ h') :
    budgetSeconds (decimalToHours h) ≤ budgetSeconds (decimalToHours h') := by
  have hround := Binary64.round_mono hpos hle
  have hhours : 0 < decimalToHours h * 3600 := by
    have := decimalToHours_pos hpos
    positivity
  exact roundHalfAway_mono (Binary64.round_mono hhours (mul_le_mul_of_nonneg_right hround (by norm_num)))

/-- The first response is not due after the resolution. -/
theorem first_response_le_resolution {schedule : Schedule} {holidays : Finset NaiveDate}
    (hz : schedule.tz.WholeMinuteGaps) (hdays : InDays schedule holidays) {createdAt : ℤ} {target : SlaTarget}
    {response resolution : ℚ} (hresponse : target.firstResponseHours = some response)
    (hresolution : target.resolutionHours = some resolution) (hpos : 0 < response) (hle : response ≤ resolution)
    (hbudget : 0 < budgetSeconds (decimalToHours response))
    (hfinish : ∀ h ∈ [response, resolution], Finishes schedule holidays
      (OperationalHours.fromDb (target.operationalHours.getD "business_hours")) createdAt (decimalToHours h)) :
    ∃ due due', evaluateDues schedule holidays createdAt target = ⟨some due, some due'⟩ ∧ due ≤ due' := by
  have hmono := budgetSeconds_mono hpos hle
  have hlarger : Budget (decimalToHours resolution) :=
    ⟨decimalToHours_pos (hpos.trans_le hle), hbudget.trans_le hmono⟩
  refine ⟨_, _, by rw [evaluateDues, hresponse, hresolution, Option.map_some, Option.map_some], ?_⟩
  exact dueAt_mono_budget hz hdays ⟨decimalToHours_pos hpos, hbudget⟩ hlarger (hfinish _ (by simp))
    (hfinish _ (by simp)) hmono

end Mokosh.Sla
