import Mokosh.Lib.OpenTime
import Mokosh.Sla.Hits

/-! # What is due when

The walk against the measure of the time that is open (`OpenTime.IsDue`).

* An instant is spent by a working day if the first window of the day that is not over has begun (`Spends`).  For
  windows of whole minutes, sorted by their start, these are the instants at which some window is open
  (`spends_iff_open`).
* Each iteration follows one of the rules of `OpenTime`, so long as no time before the cursor is spent by a day after
  the cursor's own (`Fair`).  An iteration leaves the cursor at the first second that reaches some local time, and such
  a cursor is fair; only the start may not be (`step_spec`, `walk_isDue`).
* **`due_exact_iff`**: what is due is exact if and only if the start is fair. -/

namespace Mokosh.Sla

open OpenTime (IsDue)

section Open

variable (schedule : Schedule) (holidays : Finset NaiveDate)

/-- The day spends the instant: its first window that is not over has begun. -/
def SpendsOn (date t : ℤ) : Prop :=
  ¬ isHoliday holidays date ∧ ∃ w, ((schedule.windows (weekday date)).find? fun w =>
    t < schedule.tz.localDt date w.finish) = some w ∧ schedule.tz.localDt date w.start ≤ t

def Spends (t : ℤ) : Prop := ∃ date, SpendsOn schedule holidays date t

/-- A window of a working day is open from the first instant at which the local clock has reached its start until it has
reached its end.  A schedule with no window at all is always open. -/
def Open (t : ℤ) : Prop :=
  schedule.hasAnyWindow = false ∨ ∃ date, ¬ isHoliday holidays date ∧ ∃ w ∈ schedule.windows (weekday date),
    schedule.tz.Reached (date * 86400 + (w.start : ℕ)) t ∧ ¬ schedule.tz.Reached (date * 86400 + (w.finish : ℕ)) t

/-- Before the instant no time is spent on a day after the one the instant is in. -/
def Fair (t : ℤ) : Prop :=
  ∀ t' < t, schedule.tz.nextDayStart (schedule.tz.dateNaive t) ≤ t' → ¬ Spends schedule holidays t'

/-- The windows of the working days are resolved in order and within the day, each that is at some instant the first of
its day that is not over. -/
def InDays : Prop :=
  ∀ date, ¬ isHoliday holidays date → ∀ t w, ((schedule.windows (weekday date)).find? fun w =>
    t < schedule.tz.localDt date w.finish) = some w →
      schedule.tz.localDt date w.start ≤ schedule.tz.localDt date w.finish ∧
        schedule.tz.localDt date w.finish ≤ schedule.tz.nextDayStart date

end Open

section Walk

variable {schedule : Schedule} {holidays : Finset NaiveDate} (hz : schedule.tz.WholeMinuteGaps)
include hz

theorem fair_of_first {y t : ℤ} (h : schedule.tz.First y (t / nanos)) : Fair schedule holidays t := by
  intro t' ht hnext
  rw [Zone.nextDayStart_eq, Zone.dayStart_le_iff hz] at hnext
  exact absurd hnext (h.not_reached_of_lt ht.le)

/-- What a time is resolved to is fair. -/
theorem fair_localDt (date : ℤ) (time : NaiveTime) : Fair schedule holidays (schedule.tz.localDt date time) := by
  obtain ⟨y, u, heq, hfirst, -, -⟩ := Zone.localDt_first hz date time
  have hdiv : schedule.tz.localDt date time / nanos = u := by
    rw [heq]
    exact Int.mul_ediv_cancel u (by decide)
  exact fair_of_first hz (hdiv ▸ hfirst)

/-- The time of a day is spent between its start and the start of the next day. -/
theorem SpendsOn.within {date t : ℤ} (hdays : InDays schedule holidays) (h : SpendsOn schedule holidays date t) :
    schedule.tz.dayStart date ≤ t ∧ t < schedule.tz.nextDayStart date := by
  obtain ⟨hholiday, w, hw, hstart⟩ := h
  have hfinish := List.find?_some hw
  rw [decide_eq_true_eq] at hfinish
  exact ⟨(Zone.dayStart_le_localDt hz date w.start).trans hstart, hfinish.trans_le (hdays date hholiday t w hw).2⟩

/-- From a cursor on, and before the next day, only the day of the cursor spends time. -/
theorem spendsOn_of_spends {s t : ℤ} (hdays : InDays schedule holidays) (hst : s ≤ t)
    (ht : t < schedule.tz.nextDayStart (schedule.tz.dateNaive s)) (h : Spends schedule holidays t) :
    SpendsOn schedule holidays (schedule.tz.dateNaive s) t := by
  obtain ⟨date, hdate⟩ := h
  obtain ⟨hbegun, hnot⟩ := hdate.within hz hdays
  obtain hlt | heq | hgt := lt_trichotomy date (schedule.tz.dateNaive s)
  · -- An earlier day is over.
    have hover := Zone.dayStart_mono hz (show date + 1 ≤ schedule.tz.dateNaive s by omega)
    have hcursor := Zone.dayStart_dateNaive_le hz s
    rw [Zone.nextDayStart_eq] at hnot
    omega
  · rwa [heq] at hdate
  · -- A later day has not begun.
    have hlater := Zone.dayStart_mono hz (show schedule.tz.dateNaive s + 1 ≤ date by omega)
    rw [Zone.nextDayStart_eq] at ht
    omega

/-- No time is spent between a cursor and the next day if the day of the cursor has no window left. -/
theorem not_spends_of_none {s : Walk} (hdays : InDays schedule holidays) (hnone : s.window schedule holidays = none)
    {t : ℤ} (hst : s.cursor ≤ t) (ht : t < schedule.tz.nextDayStart (schedule.tz.dateNaive s.cursor)) :
    ¬ Spends schedule holidays t := by
  intro hspends
  obtain ⟨hholiday, w, hw, -⟩ := spendsOn_of_spends hz hdays hst ht hspends
  unfold Walk.window at hnone
  dsimp only at hnone
  rw [if_neg hholiday] at hnone
  have hfinish := List.find?_some hw
  rw [decide_eq_true_eq] at hfinish
  have hover := List.find?_eq_none.mp hnone w (List.mem_of_find?_eq_some hw)
  rw [decide_eq_true_eq] at hover
  omega

omit hz in
theorem window_eq_some {s : Walk} {w : Window NaiveTime} (h : s.window schedule holidays = some w) :
    ¬ isHoliday holidays (schedule.tz.dateNaive s.cursor) ∧
      ((schedule.windows (weekday (schedule.tz.dateNaive s.cursor))).find? fun w =>
        s.cursor < schedule.tz.localDt (schedule.tz.dateNaive s.cursor) w.finish) = some w := by
  unfold Walk.window at h
  dsimp only at h
  split at h
  · cases h
  · next hholiday => exact ⟨hholiday, h⟩

omit hz in
/-- Until the window is over it stays the first that is not. -/
theorem find?_of_le {α : Type} {finish : α → ℤ} {l : List α} {w : α} {s t : ℤ}
    (h : (l.find? fun w => s < finish w) = some w) (hst : s ≤ t) (ht : t < finish w) :
    (l.find? fun w => t < finish w) = some w := by
  obtain ⟨-, before, after, rfl, hbefore⟩ := List.find?_eq_some_iff_append.mp h
  refine List.find?_eq_some_iff_append.mpr ⟨decide_eq_true ht, before, after, rfl, fun x hx => ?_⟩
  have hover := hbefore x hx
  rw [Bool.not_eq_true', decide_eq_false_iff_not] at hover ⊢
  omega

/-- The next iteration ends the walk where the budget is used up, or it leaves a fair cursor from which what is due is
what is due from here. -/
theorem step_spec (hdays : InDays schedule holidays) {s : Walk} (hremaining : 0 < s.remaining)
    (hfair : Fair schedule holidays s.cursor) :
    ((s.step schedule holidays).remaining ≤ 0 ∧
      IsDue (Spends schedule holidays) s.cursor s.remaining (s.step schedule holidays).cursor) ∨
    (0 < (s.step schedule holidays).remaining ∧ Fair schedule holidays (s.step schedule holidays).cursor ∧
      ∀ d, IsDue (Spends schedule holidays) (s.step schedule holidays).cursor (s.step schedule holidays).remaining d →
        IsDue (Spends schedule holidays) s.cursor s.remaining d) := by
  cases hw : s.window schedule holidays with
  | none =>
      rw [Walk.step_of_none hw]
      refine .inr ⟨hremaining, fair_localDt hz _ _, fun d hd => ?_⟩
      obtain hle | hlt := le_or_gt s.cursor (schedule.tz.nextDayStart (schedule.tz.dateNaive s.cursor))
      · exact (OpenTime.isDue_skip_iff hle fun t hst ht => not_spends_of_none hz hdays hw hst ht).mpr hd
      · -- The day was over before the cursor.
        exact (OpenTime.isDue_skip_iff hlt.le fun t hnext ht => hfair t ht hnext).mp hd
  | some w =>
      obtain ⟨hholiday, hfind⟩ := window_eq_some hw
      have hend := s.cursor_lt_winEnd hw
      obtain ⟨horder, hnext⟩ := hdays _ hholiday _ w hfind
      have hcursor : s.cursor ≤ max s.cursor (s.winStart schedule w) := le_max_left _ _
      have hskip : ∀ t, s.cursor ≤ t → t < max s.cursor (s.winStart schedule w) → ¬ Spends schedule holidays t := by
        intro t hst ht hspends
        have hbefore : t < s.winStart schedule w := by omega
        obtain ⟨-, w', hw', hstart⟩ :=
          spendsOn_of_spends hz hdays hst ((hbefore.trans_le horder).trans_le hnext) hspends
        rw [find?_of_le hfind hst (hbefore.trans_le horder), Option.some.injEq] at hw'
        rw [← hw'] at hstart
        exact absurd hbefore (not_lt.mpr hstart)
      have hspend : ∀ t, max s.cursor (s.winStart schedule w) ≤ t → t < s.winEnd schedule w →
          Spends schedule holidays t := by
        intro t hst ht
        exact ⟨_, hholiday, w, find?_of_le hfind (hcursor.trans hst) ht, (le_max_right _ _).trans hst⟩
      rw [Walk.step_of_some hw]
      split
      · next hle =>
        refine .inl ⟨le_rfl, (OpenTime.isDue_skip_iff hcursor hskip).mpr ?_⟩
        unfold Walk.avail at hle
        exact OpenTime.isDue_of_counts hremaining fun t hst ht => hspend t hst (by omega)
      · next hlt =>
        rw [not_le] at hlt
        have havail : 0 ≤ s.avail schedule w := by
          have horder' : s.winStart schedule w ≤ s.winEnd schedule w := horder
          unfold Walk.avail
          omega
        refine .inr ⟨by dsimp only; omega, fair_localDt hz _ _, fun d hd => ?_⟩
        apply (OpenTime.isDue_skip_iff hcursor hskip).mpr
        unfold Walk.avail at hlt havail hd
        have hle : max s.cursor (s.winStart schedule w) ≤ s.winEnd schedule w := by omega
        exact hd.consume hle hspend hlt

/-- From a fair cursor a walk that finishes finds what is due. -/
theorem walk_isDue (hdays : InDays schedule holidays) {n : ℕ} {s : Walk} (hremaining : 0 < s.remaining)
    (hfair : Fair schedule holidays s.cursor) (hfinish : (walk schedule holidays n s).remaining ≤ 0) :
    IsDue (Spends schedule holidays) s.cursor s.remaining (walk schedule holidays n s).cursor := by
  induction n generalizing s with
  | zero => exact absurd hfinish (not_le.mpr hremaining)
  | succ n ih =>
      rw [walk_of_pos hremaining] at hfinish ⊢
      obtain ⟨hdone, hdue⟩ | ⟨hmore, hfair', hdue⟩ := step_spec hz hdays hremaining hfair
      · rwa [walk_of_done hdone]
      · exact hdue _ (ih hmore hfair' hfinish)

omit hz in
/-- From a cursor that is not fair the walk goes back to the start of the next day. -/
theorem step_of_passed (hdays : InDays schedule holidays) {s : Walk}
    (hpassed : schedule.tz.nextDayStart (schedule.tz.dateNaive s.cursor) ≤ s.cursor) : s.step schedule holidays =
      ⟨schedule.tz.nextDayStart (schedule.tz.dateNaive s.cursor), s.remaining⟩ := by
  apply Walk.step_of_none
  cases hw : s.window schedule holidays with
  | none => rfl
  | some w =>
      obtain ⟨hholiday, hfind⟩ := window_eq_some hw
      have hend := s.cursor_lt_winEnd hw
      have hover : s.winEnd schedule w ≤ s.cursor := (hdays _ hholiday _ w hfind).2.trans hpassed
      omega

/-- A walk that finishes finds what is due from its cursor, or from the start of the next day if that has passed. -/
theorem walk_isDue_of_passed (hdays : InDays schedule holidays) {n : ℕ} {s : Walk} (hremaining : 0 < s.remaining)
    (hfinish : (walk schedule holidays n s).remaining ≤ 0)
    (hpassed : schedule.tz.nextDayStart (schedule.tz.dateNaive s.cursor) ≤ s.cursor) :
    IsDue (Spends schedule holidays) (schedule.tz.nextDayStart (schedule.tz.dateNaive s.cursor)) s.remaining
      (walk schedule holidays n s).cursor := by
  cases n with
  | zero => exact absurd hfinish (not_le.mpr hremaining)
  | succ n =>
      rw [walk_of_pos hremaining, step_of_passed hdays hpassed] at hfinish ⊢
      have hfair : Fair schedule holidays (schedule.tz.nextDayStart (schedule.tz.dateNaive s.cursor)) :=
        fair_localDt hz _ midnight
      exact @walk_isDue schedule holidays hz hdays n ⟨_, s.remaining⟩ hremaining hfair hfinish

/-- What a walk that finishes finds is due from its cursor if and only if the cursor is fair. -/
theorem walk_isDue_iff (hdays : InDays schedule holidays) {n : ℕ} {s : Walk} (hremaining : 0 < s.remaining)
    (hfinish : (walk schedule holidays n s).remaining ≤ 0) :
    IsDue (Spends schedule holidays) s.cursor s.remaining (walk schedule holidays n s).cursor ↔
      Fair schedule holidays s.cursor := by
  refine ⟨fun hdue => ?_, fun hfair => walk_isDue hz hdays hremaining hfair hfinish⟩
  obtain hpassed | hnot := le_or_gt (schedule.tz.nextDayStart (schedule.tz.dateNaive s.cursor)) s.cursor
  · have hdue' := walk_isDue_of_passed hz hdays hremaining hfinish hpassed
    have hnone := (OpenTime.isDue_iff_of_isDue hdue' hpassed hremaining).mp hdue
    exact fun t ht hnext => hnone t hnext ht
  · intro t ht hnext
    omega

end Walk

/-! ### Whole minutes -/

/-- Windows of whole minutes, sorted by their start, in a time zone whose gaps are whole minutes. -/
structure WholeMinutes (schedule : Schedule) : Prop where
  gaps : schedule.tz.WholeMinuteGaps
  sorted : ∀ d, (schedule.windows d).Pairwise fun w w' => w.start ≤ w'.start
  minutes : ∀ d, ∀ w ∈ schedule.windows d, 60 ∣ (w.start : ℕ) ∧ 60 ∣ (w.finish : ℕ)

section WholeMinutes

variable {schedule : Schedule} {holidays : Finset NaiveDate} (h : WholeMinutes schedule)
include h

theorem WholeMinutes.inDays : InDays schedule holidays := by
  intro date _ t w hw
  obtain ⟨hstart, hfinish⟩ := h.minutes _ w (List.mem_of_find?_eq_some hw)
  exact ⟨Zone.localDt_mono h.gaps hstart w.start_lt.le, Zone.localDt_le_nextDayStart h.gaps hfinish⟩

omit h in
/-- What is found comes first of all that could be. -/
theorem find?_before {α : Type} {p : α → Bool} {l : List α} {w w' : α} (R : α → α → Prop) (hrefl : ∀ w, R w w)
    (hl : l.Pairwise R) (hw : l.find? p = some w) (hmem : w' ∈ l) (hw' : p w' = true) : R w w' := by
  obtain ⟨-, before, after, rfl, hbefore⟩ := List.find?_eq_some_iff_append.mp hw
  rw [List.mem_append, List.mem_cons] at hmem
  obtain hmem | rfl | hmem := hmem
  · have hno := hbefore w' hmem
    rw [hw'] at hno
    cases hno
  · exact hrefl w'
  · exact (List.pairwise_cons.mp (List.pairwise_append.mp hl).2.1).1 w' hmem

theorem WholeMinutes.spends_iff_open (hany : schedule.hasAnyWindow = true) {t : ℤ} :
    Spends schedule holidays t ↔ Open schedule holidays t := by
  unfold Open
  rw [hany, or_iff_right (by decide)]
  refine exists_congr fun date => and_congr_right fun _ => ?_
  have hreached : ∀ w ∈ schedule.windows (weekday date),
      (schedule.tz.localDt date w.start ≤ t ↔ schedule.tz.Reached (date * 86400 + (w.start : ℕ)) t) ∧
        (t < schedule.tz.localDt date w.finish ↔ ¬ schedule.tz.Reached (date * 86400 + (w.finish : ℕ)) t) := by
    intro w hw
    obtain ⟨hstart, hfinish⟩ := h.minutes _ w hw
    exact ⟨Zone.localDt_le_iff h.gaps hstart, by rw [← Zone.localDt_le_iff h.gaps hfinish, not_le]⟩
  constructor
  · rintro ⟨w, hw, hstart⟩
    have hmem := List.mem_of_find?_eq_some hw
    have hfinish := List.find?_some hw
    rw [decide_eq_true_eq] at hfinish
    exact ⟨w, hmem, (hreached w hmem).1.mp hstart, (hreached w hmem).2.mp hfinish⟩
  · rintro ⟨w', hmem', hstart', hfinish'⟩
    have hopen := (hreached w' hmem').2.mpr hfinish'
    have hsome : ((schedule.windows (weekday date)).find? fun w =>
        t < schedule.tz.localDt date w.finish).isSome := by
      rw [List.find?_isSome]
      exact ⟨w', hmem', decide_eq_true hopen⟩
    obtain ⟨w, hw⟩ := Option.isSome_iff_exists.mp hsome
    -- The first window that is not over starts no later than the one that is open.
    have hle := find?_before (fun w w' => w.start ≤ w'.start) (fun w => le_rfl) (h.sorted (weekday date)) hw hmem'
      (decide_eq_true hopen)
    have hmem := List.mem_of_find?_eq_some hw
    have hlocal := @Zone.localDt_mono _ h.gaps date _ _ (h.minutes _ w hmem).1 hle
    exact ⟨w, hw, hlocal.trans ((hreached w' hmem').1.mpr hstart')⟩

/-- When the start is fair, in terms of the local clock. -/
theorem WholeMinutes.fair_iff (hany : schedule.hasAnyWindow = true) {start : ℤ} :
    Fair schedule holidays start ↔ ∀ t < start,
      schedule.tz.Reached ((schedule.tz.dateNaive start + 1) * 86400) t → ¬ Open schedule holidays t := by
  refine forall_congr' fun t => imp_congr_right fun _ => ?_
  rw [Zone.nextDayStart_eq, Zone.dayStart_le_iff h.gaps, h.spends_iff_open hany]

end WholeMinutes

/-- For a budget of whole seconds and a walk that finishes before its cap, what is due is the least instant such that
the time that is open from the start on is the budget, if and only if no time was open between the start of the next
local day and the start. -/
theorem due_exact_iff {schedule : Schedule} {holidays : Finset NaiveDate} (h : WholeMinutes schedule) {start : ℤ}
    {hours : ℚ} (hhours : 0 < hours) (hbudget : 0 < budgetSeconds hours)
    (hfinish : schedule.hasAnyWindow = true →
      (businessWalk schedule holidays start (budgetSeconds hours)).remaining ≤ 0) :
    IsDue (Open schedule holidays) start (budgetSeconds hours * nanos)
        (dueAt schedule holidays start hours .businessHours) ↔
      (schedule.hasAnyWindow = true → ∀ t < start,
        schedule.tz.Reached ((schedule.tz.dateNaive start + 1) * 86400) t → ¬ Open schedule holidays t) := by
  have hnanos : 0 < budgetSeconds hours * nanos := Int.mul_pos hbudget (by decide)
  unfold dueAt
  rw [if_neg (not_le.mpr hhours)]
  dsimp only
  cases hany : schedule.hasAnyWindow with
  | false =>
      have hopen : ∀ t, Open schedule holidays t := fun t => .inl hany
      refine iff_of_true ?_ fun hno => by cases hno
      exact OpenTime.isDue_of_counts hnanos fun t _ _ => hopen t
  | true =>
      have hsame : Spends schedule holidays = Open schedule holidays :=
        funext fun t => propext (h.spends_iff_open hany)
      have hiff := @walk_isDue_iff schedule holidays h.gaps h.inDays maxIterations ⟨start, _⟩ hnanos (hfinish hany)
      rw [hsame, h.fair_iff hany] at hiff
      exact ⟨fun hdue _ => hiff.mp hdue, fun hno => hiff.mpr (hno rfl)⟩

theorem dueAt_of_businessWalk {schedule : Schedule} {holidays : Finset NaiveDate} {start : ℤ} {hours : ℚ} {s : Walk}
    (hhours : 0 < hours) (hany : schedule.hasAnyWindow = true)
    (h : businessWalk schedule holidays start (budgetSeconds hours) = s) :
    dueAt schedule holidays start hours .businessHours = s.cursor := by
  unfold dueAt dueAtBusinessHours
  dsimp only
  rw [if_neg (not_le.mpr hhours), if_pos hany, h]

theorem budgetSeconds_div {n : ℕ} (h : n < 2 ^ 53) : budgetSeconds (n / 3600) = n := by
  unfold budgetSeconds
  rw [div_mul_cancel₀ _ (by norm_num), Binary64.round_natCast h]
  apply roundHalfAway_eq
  rw [Int.cast_natCast, sub_self, abs_zero]
  norm_num

/-! ### A night that is set back -/

/-- Two hours and a half behind UTC, and an hour more from one minute after the midnight on that ends the first Sunday
of the count. -/
def foldZone : Zone where
  offset u := if u < 354660 then -9000 else -12600
  abs_offset_lt u := by
    split <;> decide

theorem foldZone_shows (u : ℤ) : foldZone.shows u = if u < 354660 then u - 9000 else u - 12600 := by
  unfold Zone.shows foldZone
  dsimp only
  split <;> omega

/-- The night shift of a Monday. -/
def nightWindow : Window NaiveTime := ⟨midnight, ⟨28800, by decide⟩, by decide⟩

def foldSchedule : Schedule := ⟨foldZone, fun d => if d = .mon then [nightWindow] else []⟩

theorem foldSchedule_wholeMinutes : WholeMinutes foldSchedule where
  gaps := by
    -- The clock is never set forward.
    have hshows : ∀ u, foldZone.shows (u + 1) ≤ foldZone.shows u + 1 := by
      intro u
      rw [foldZone_shows, foldZone_shows]
      split <;> split <;> omega
    refine ⟨fun u hu => ?_, fun u hu => ?_, fun u => ?_, fun u x hu hx => ?_⟩
    · exact absurd hu (not_lt.mpr (hshows u))
    · exact absurd hu (not_lt.mpr (hshows u))
    · have hle : foldSchedule.tz.shows (u + 1) ≤ foldSchedule.tz.shows u + 1 := hshows u
      omega
    · have hle : foldSchedule.tz.shows (u + 1) ≤ foldSchedule.tz.shows u + 1 := hshows u
      omega
  sorted d := by
    cases d with
    | mon => exact List.pairwise_singleton _ _
    | _ => exact .nil
  minutes d w hw := by
    cases d with
    | mon =>
        rw [List.mem_singleton.mp hw]
        decide
    | _ => exact absurd hw List.not_mem_nil

/-- Midnight is reached a minute before the clock is set back. -/
theorem foldZone_monday :
    foldZone.localDt 4 midnight = 354600 * nanos ∧ foldZone.localDt 4 nightWindow.finish = 387000 * nanos := by
  have hmidnight : ((midnight : ℕ) : ℤ) = 0 := rfl
  have hfinish : ((nightWindow.finish : ℕ) : ℤ) = 28800 := rfl
  constructor
  · refine @Zone.localDt_eq _ _ _ _ 0 (by omega) (fun j hj => by omega) ?_ fun u' hu' => ?_ <;>
      rw [foldZone_shows, hmidnight] <;> split <;> omega
  · refine @Zone.localDt_eq _ _ _ _ 0 (by omega) (fun j hj => by omega) ?_ fun u' hu' => ?_ <;>
      rw [foldZone_shows, hfinish] <;> split <;> omega

/-- Half an hour from within the night shift. -/
theorem foldSchedule_monday {c : ℤ} (hdate : foldZone.dateNaive c = 4) (hstart : 354600 * nanos ≤ c)
    (hfinish : c + 1800 * nanos ≤ 387000 * nanos) :
    Walk.step foldSchedule ∅ ⟨c, 1800 * nanos⟩ = ⟨c + 1800 * nanos, 0⟩ := by
  obtain ⟨hmidnight, hend⟩ := foldZone_monday
  have htz : foldSchedule.tz = foldZone := rfl
  have hnanos : 0 < 1800 * nanos := by decide
  have hwindow : Walk.window foldSchedule ∅ ⟨c, 1800 * nanos⟩ = some nightWindow := by
    have hwindows : foldSchedule.windows (weekday 4) = [nightWindow] := rfl
    unfold Walk.window
    dsimp only
    rw [htz, hdate, hwindows, if_neg (by decide)]
    refine List.find?_cons_of_pos (decide_eq_true ?_)
    rw [hend]
    omega
  have hwinStart : Walk.winStart foldSchedule ⟨c, 1800 * nanos⟩ nightWindow = 354600 * nanos := by
    unfold Walk.winStart
    dsimp only
    rw [htz, hdate]
    exact hmidnight
  have havail : Walk.avail foldSchedule ⟨c, 1800 * nanos⟩ nightWindow = 387000 * nanos - c := by
    unfold Walk.avail Walk.winEnd
    dsimp only
    rw [hwinStart, htz, hdate, hend, max_eq_left hstart]
  rw [Walk.step_of_some hwindow, havail, hwinStart]
  dsimp only
  rw [if_pos (by omega), max_eq_left hstart]

/-- Half an hour from any time of that Sunday, which may be before midnight or after. -/
theorem foldSchedule_sunday {start : ℤ} (hdate : foldZone.dateNaive start = 3) :
    businessWalk foldSchedule ∅ start 1800 = ⟨356400 * nanos, 0⟩ := by
  have htz : foldSchedule.tz = foldZone := rfl
  have hwindow : Walk.window foldSchedule ∅ ⟨start, 1800 * nanos⟩ = none := by
    have hwindows : foldSchedule.windows (weekday 3) = [] := rfl
    unfold Walk.window
    dsimp only
    rw [htz, hdate, hwindows, if_neg (by decide), List.find?_nil]
  have hfirst : Walk.step foldSchedule ∅ ⟨start, 1800 * nanos⟩ = ⟨354600 * nanos, 1800 * nanos⟩ := by
    rw [Walk.step_of_none hwindow, htz]
    dsimp only
    rw [hdate, ← foldZone_monday.1]
    rfl
  have hsecond : Walk.step foldSchedule ∅ ⟨354600 * nanos, 1800 * nanos⟩ = ⟨356400 * nanos, 0⟩ :=
    foldSchedule_monday (by decide) le_rfl (by decide)
  have hmax : maxIterations = 10978 + 1 + 1 := rfl
  have hbudget : 0 < 1800 * nanos := by decide
  unfold businessWalk
  rw [hmax, walk_of_pos (by exact hbudget), hfirst, walk_of_pos (by exact hbudget), hsecond, walk_of_done le_rfl]

theorem foldSchedule_hasAnyWindow : foldSchedule.hasAnyWindow = true := rfl

theorem budgetSeconds_halfHour : budgetSeconds ((1800 : ℕ) / 3600) = 1800 := budgetSeconds_div (by norm_num)

theorem foldSchedule_due {start : ℤ} (hdate : foldZone.dateNaive start = 3) :
    businessWalk foldSchedule ∅ start (budgetSeconds ((1800 : ℕ) / 3600)) = ⟨356400 * nanos, 0⟩ ∧
      dueAt foldSchedule ∅ start ((1800 : ℕ) / 3600) .businessHours = 356400 * nanos := by
  have hwalk := foldSchedule_sunday hdate
  rw [← budgetSeconds_halfHour] at hwalk
  exact ⟨hwalk, dueAt_of_businessWalk (by norm_num) foldSchedule_hasAnyWindow hwalk⟩

/-- From the Sunday evening the half an hour is what is open after midnight. -/
theorem due_exact_evening :
    IsDue (Open foldSchedule ∅) (351000 * nanos) (1800 * nanos) (356400 * nanos) := by
  have hdate : foldZone.dateNaive (351000 * nanos) = 3 := by decide
  obtain ⟨hwalk, hdue⟩ := foldSchedule_due hdate
  have hiff := @due_exact_iff foldSchedule ∅ foldSchedule_wholeMinutes (351000 * nanos) ((1800 : ℕ) / 3600)
    (by norm_num) (by rw [budgetSeconds_halfHour]; decide) (fun _ => by rw [hwalk])
  rw [hdue, budgetSeconds_halfHour] at hiff
  refine hiff.mpr fun _ t ht hreached => absurd hreached ?_
  rintro ⟨u, hu, hx⟩
  -- The evening is before the clock is set back.
  have htz : foldSchedule.tz = foldZone := rfl
  have hle : u < 354600 := by
    unfold nanos at ht hu
    omega
  rw [htz, hdate, foldZone_shows, if_pos (by omega)] at hx
  omega

/-- From the second half past eleven, which is after midnight, the half an hour is over before it begins. -/
theorem due_before_start : WholeMinutes foldSchedule ∧ 0 < budgetSeconds ((1800 : ℕ) / 3600) ∧
    (businessWalk foldSchedule ∅ (356460 * nanos) (budgetSeconds ((1800 : ℕ) / 3600))).remaining ≤ 0 ∧
      dueAt foldSchedule ∅ (356460 * nanos) ((1800 : ℕ) / 3600) .businessHours < 356460 * nanos ∧
        ¬ IsDue (Open foldSchedule ∅) (356460 * nanos) (budgetSeconds ((1800 : ℕ) / 3600) * nanos)
          (dueAt foldSchedule ∅ (356460 * nanos) ((1800 : ℕ) / 3600) .businessHours) := by
  have hdate : foldZone.dateNaive (356460 * nanos) = 3 := by decide
  obtain ⟨hwalk, hdue⟩ := foldSchedule_due hdate
  rw [hwalk, hdue, budgetSeconds_halfHour]
  refine ⟨foldSchedule_wholeMinutes, by decide, le_rfl, by decide, fun hexact => ?_⟩
  have hlt := hexact.lt (by decide)
  exact absurd hlt (by decide)

end Mokosh.Sla
