import Mokosh.Lib.Binary64
import Mokosh.Lib.Decimal
import Mokosh.Sla.Schedule

/-! # The clock of a service level

`due_at` of `sla/clock.rs`: when a budget of hours is used up.  Within business hours the budget is spent by a walk over
the windows of the schedule.  The walk has a cursor, which is an instant, and each iteration looks at the local day the
cursor is in: it spends the rest of the first window that is not over, or it goes to the midnight that starts the next
day.

A time zone is the function from the seconds of UTC to the offset of local time.  The way back goes through `localDt`:
the earliest second that shows a local time, and for a time that is never shown the first that is a number of minutes
later.

* Instants are nanoseconds and dates are days, both counted from 1970 on.  The range of `chrono` is not modelled, nor is
  the sixty-first second of a minute.
* **`walk_forward_iff`**: the walk moves on, with windows of no negative length, a cursor that does not go back and
  a budget that does not grow, if and only if each window it spends starts no later than it ends, as they are resolved,
  and no day it leaves has ended before the cursor. -/

namespace Mokosh.Sla

open Workflows (Json)

def nanos : ℤ := 1000000000

def midnight : NaiveTime := ⟨0, by decide⟩

/-- The offset of local time from UTC, in seconds, during each second of UTC. -/
structure Zone where
  offset : ℤ → ℤ
  abs_offset_lt : ∀ u, |offset u| < 86400

namespace Zone

variable (z : Zone)

/-- The second of local time that is shown during a second of UTC. -/
def shows (u : ℤ) : ℤ := u + z.offset u

/-- `from_local_datetime(..).earliest()`, in seconds: no offset is as long as a day. -/
def earliest (x : ℤ) : Option ℤ :=
  ((List.range 172801).map fun k : ℕ => x - 86400 + k).find? fun u => z.shows u = x

/-- `date_naive`. -/
def dateNaive (t : ℤ) : ℤ := z.shows (t / nanos) / 86400

/-- The local time itself, if there is such a time, or else the first of the 180 minutes after it. -/
@[irreducible] def localDt (date : ℤ) (time : NaiveTime) : ℤ :=
  let naive := date * 86400 + (time : ℕ)
  ((List.range 181).findSome? fun k : ℕ => z.earliest (naive + 60 * k)).elim (naive * nanos) (· * nanos)

def nextDayStart (date : ℤ) : ℤ := z.localDt (date + 1) midnight

end Zone

/-- 1970 began on a Thursday. -/
def weekday (date : ℤ) : Weekday :=
  match ((date + 4) % 7).toNat with
  | 0 => .sun
  | 1 => .mon
  | 2 => .tue
  | 3 => .wed
  | 4 => .thu
  | 5 => .fri
  | _ => .sat

/-- `holidays.contains(&date)`. -/
def isHoliday (holidays : Finset NaiveDate) (date : ℤ) : Prop := ∃ d ∈ holidays, d.numDaysFromCe - 719163 = date

instance (holidays : Finset NaiveDate) (date : ℤ) : Decidable (isHoliday holidays date) :=
  inferInstanceAs (Decidable (∃ d ∈ holidays, d.numDaysFromCe - 719163 = date))

abbrev Schedule := BusinessSchedule NaiveTime Zone

def Schedule.hasAnyWindow (schedule : Schedule) : Bool :=
  [.sun, .mon, .tue, .wed, .thu, .fri, .sat].any fun d => !(schedule.windows d).isEmpty

/-! ### The walk -/

/-- The variables of the walk, in nanoseconds. -/
structure Walk where
  cursor : ℤ
  remaining : ℤ

section Walk

variable (schedule : Schedule) (holidays : Finset NaiveDate)

/-- The window of the day of the cursor that the loop over the windows stops at: the first that is not over. -/
def Walk.window (s : Walk) : Option (Window NaiveTime) :=
  let date := schedule.tz.dateNaive s.cursor
  if isHoliday holidays date then none
  else (schedule.windows (weekday date)).find? fun w => s.cursor < schedule.tz.localDt date w.finish

/-- The instants that are resolved for a window of the day of the cursor. -/
def Walk.winStart (s : Walk) (w : Window NaiveTime) : ℤ := schedule.tz.localDt (schedule.tz.dateNaive s.cursor) w.start

def Walk.winEnd (s : Walk) (w : Window NaiveTime) : ℤ := schedule.tz.localDt (schedule.tz.dateNaive s.cursor) w.finish

/-- The time there is to spend in the window, from its start or from the cursor on. -/
def Walk.avail (s : Walk) (w : Window NaiveTime) : ℤ := s.winEnd schedule w - max s.cursor (s.winStart schedule w)

/-- The body of the loop. -/
def Walk.step (s : Walk) : Walk :=
  match s.window schedule holidays with
  | none => { s with cursor := schedule.tz.nextDayStart (schedule.tz.dateNaive s.cursor) }
  | some w =>
      if s.remaining ≤ s.avail schedule w then ⟨max s.cursor (s.winStart schedule w) + s.remaining, 0⟩
      else ⟨s.winEnd schedule w, s.remaining - s.avail schedule w⟩

/-- At most so many iterations. -/
def walk : ℕ → Walk → Walk
  | 0, s => s
  | n + 1, s => if s.remaining ≤ 0 then s else walk n (s.step schedule holidays)

def maxIterations : ℕ := 366 * 30

/-- The walk that `due_at_business_hours` takes for a budget in seconds. -/
def businessWalk (start budget : ℤ) : Walk := walk schedule holidays maxIterations ⟨start, budget * nanos⟩

def dueAtBusinessHours (start budget : ℤ) : ℤ := (businessWalk schedule holidays start budget).cursor

inductive OperationalHours where
  | always
  | businessHours
deriving DecidableEq, Repr

def OperationalHours.fromDb (s : String) : OperationalHours :=
  if s.toList.map Char.toLower = ['2', '4', 'x', '7'] then .always else .businessHours

/-- `(hours * 3600.0).round() as i64`. -/
def budgetSeconds (hours : ℚ) : ℤ := roundHalfAway (Binary64.round (hours * 3600))

def dueAt (start : ℤ) (hours : ℚ) (operational : OperationalHours) : ℤ :=
  if hours ≤ 0 then start
  else
    match operational with
    | .always => start + budgetSeconds hours * nanos
    | .businessHours =>
        if schedule.hasAnyWindow then dueAtBusinessHours schedule holidays start (budgetSeconds hours)
        else start + budgetSeconds hours * nanos

end Walk

/-! ### From local time to instants -/

namespace Zone

variable {z : Zone} {x u : ℤ}

theorem shows_lt (z : Zone) (u : ℤ) : u - 86400 < z.shows u ∧ z.shows u < u + 86400 := by
  have h := abs_lt.mp (z.abs_offset_lt u)
  unfold shows
  omega

theorem earliest_eq_some_iff : z.earliest x = some u ↔ z.shows u = x ∧ ∀ u' < u, z.shows u' ≠ x := by
  unfold earliest
  rw [List.find?_map, Option.map_eq_some_iff]
  simp only [List.find?_range_eq_some, Function.comp, decide_eq_true_eq, List.mem_range]
  constructor
  · rintro ⟨k, ⟨hk, -, hbefore⟩, rfl⟩
    refine ⟨hk, fun u' hu' hx => ?_⟩
    have hbounds := z.shows_lt u'
    -- The seconds before the first candidate show earlier times.
    have hj : x - 86400 + ((u' - (x - 86400)).toNat : ℤ) = u' := by omega
    have hno := hbefore (u' - (x - 86400)).toNat (by omega)
    simp only [hj, hx, decide_true, Bool.not_true, Bool.false_eq_true] at hno
  · rintro ⟨hx, hbefore⟩
    have hbounds := z.shows_lt u
    have hk : x - 86400 + ((u - (x - 86400)).toNat : ℤ) = u := by omega
    refine ⟨(u - (x - 86400)).toNat, ⟨by rw [hk, hx], by omega, fun j hj => ?_⟩, hk⟩
    have hno := hbefore (x - 86400 + j) (by omega)
    simpa using hno

theorem earliest_eq_none_iff : z.earliest x = none ↔ ∀ u, z.shows u ≠ x := by
  constructor
  · intro hnone u hu
    have hbounds := z.shows_lt u
    unfold earliest at hnone
    have hno := List.find?_eq_none.mp hnone u (List.mem_map.mpr ⟨(u - (x - 86400)).toNat, ?_, ?_⟩)
    · simp [hu] at hno
    · rw [List.mem_range]
      omega
    · omega
  · intro hnone
    cases h : z.earliest x with
    | none => rfl
    | some u => exact absurd (earliest_eq_some_iff.mp h).1 (hnone u)

theorem findSome?_range {α : Type} {f : ℕ → Option α} {n k : ℕ} {a : α} (hk : k < n) (hnone : ∀ j < k, f j = none)
    (hsome : f k = some a) : (List.range n).findSome? f = some a := by
  obtain ⟨m, rfl⟩ : ∃ m, n = k + (m + 1) := ⟨n - k - 1, by omega⟩
  have hbefore : (List.range k).findSome? f = none :=
    List.findSome?_eq_none_iff.mpr fun j hj => hnone j (List.mem_range.mp hj)
  rw [List.range_add, List.findSome?_append, hbefore, Option.none_or, List.range_succ_eq_map, List.map_cons]
  exact List.findSome?_cons_of_isSome (by rw [Nat.add_zero, hsome]; rfl) |>.trans (by rw [Nat.add_zero, hsome])

/-- The first of the minutes after a local time that is shown is what the time is resolved to. -/
theorem localDt_eq {date : ℤ} {time : NaiveTime} {k : ℕ} (hk : k ≤ 180)
    (hnone : ∀ j < k, ∀ u, z.shows u ≠ date * 86400 + (time : ℕ) + 60 * (j : ℕ))
    (hshows : z.shows u = date * 86400 + (time : ℕ) + 60 * (k : ℕ))
    (hbefore : ∀ u' < u, z.shows u' ≠ date * 86400 + (time : ℕ) + 60 * (k : ℕ)) :
    z.localDt date time = u * nanos := by
  have hfind : ((List.range 181).findSome? fun k : ℕ => z.earliest (date * 86400 + (time : ℕ) + 60 * k)) = some u :=
    findSome?_range (by omega) (fun j hj => earliest_eq_none_iff.mpr (hnone j hj))
      (earliest_eq_some_iff.mpr ⟨hshows, hbefore⟩)
  unfold localDt
  dsimp only
  rw [hfind, Option.elim_some]

end Zone

/-! ### An iteration moves on -/

section Forward

variable {schedule : Schedule} {holidays : Finset NaiveDate}

/-- What an iteration is to keep. -/
structure Walk.Forward (schedule : Schedule) (holidays : Finset NaiveDate) (s : Walk) : Prop where
  avail_nonneg : ∀ w, s.window schedule holidays = some w → 0 ≤ s.avail schedule w
  cursor_le : s.cursor ≤ (s.step schedule holidays).cursor
  remaining_le : (s.step schedule holidays).remaining ≤ s.remaining

/-- The window that is spent starts no later than it ends, as they are resolved, and if there is none the cursor is not
past the start of the next day. -/
def Walk.Resolved (schedule : Schedule) (holidays : Finset NaiveDate) (s : Walk) : Prop :=
  match s.window schedule holidays with
  | none => s.cursor ≤ schedule.tz.nextDayStart (schedule.tz.dateNaive s.cursor)
  | some w => s.winStart schedule w ≤ s.winEnd schedule w

theorem Walk.cursor_lt_winEnd {s : Walk} {w : Window NaiveTime} (h : s.window schedule holidays = some w) :
    s.cursor < s.winEnd schedule w := by
  unfold Walk.window at h
  dsimp only at h
  split at h
  · cases h
  · have hsome := List.find?_some h
    exact of_decide_eq_true hsome

theorem Walk.step_of_none {s : Walk} (h : s.window schedule holidays = none) : s.step schedule holidays =
    ⟨schedule.tz.nextDayStart (schedule.tz.dateNaive s.cursor), s.remaining⟩ := by
  unfold Walk.step
  rw [h]

theorem Walk.step_of_some {s : Walk} {w : Window NaiveTime} (h : s.window schedule holidays = some w) :
    s.step schedule holidays =
      if s.remaining ≤ s.avail schedule w then ⟨max s.cursor (s.winStart schedule w) + s.remaining, 0⟩
      else ⟨s.winEnd schedule w, s.remaining - s.avail schedule w⟩ := by
  unfold Walk.step
  rw [h]

theorem Walk.forward_iff {s : Walk} (h : 0 < s.remaining) :
    s.Forward schedule holidays ↔ s.Resolved schedule holidays := by
  unfold Walk.Resolved
  cases hw : s.window schedule holidays with
  | none =>
      have hstep := Walk.step_of_none hw
      dsimp only
      constructor
      · intro hforward
        have hle := hforward.cursor_le
        rw [hstep] at hle
        exact hle
      · intro hle
        refine ⟨fun w hw' => ?_, ?_, ?_⟩
        · rw [hw] at hw'
          cases hw'
        · rw [hstep]
          exact hle
        · rw [hstep]
  | some w =>
      have hend := s.cursor_lt_winEnd hw
      have hstep := Walk.step_of_some hw
      dsimp only
      constructor
      · intro hforward
        have havail := hforward.avail_nonneg w hw
        unfold Walk.avail at havail
        omega
      · intro hle
        have havail : 0 ≤ s.avail schedule w := by
          unfold Walk.avail
          omega
        refine ⟨fun w' hw' => ?_, ?_, ?_⟩
        · rw [hw] at hw'
          cases hw'
          exact havail
        · rw [hstep]
          split
          · have hmax : s.cursor ≤ max s.cursor (s.winStart schedule w) := le_max_left _ _
            dsimp only
            omega
          · exact hend.le
        · rw [hstep]
          split
          · exact h.le
          · dsimp only
            omega

theorem walk_of_pos {n : ℕ} {s : Walk} (h : 0 < s.remaining) :
    walk schedule holidays (n + 1) s = walk schedule holidays n (s.step schedule holidays) := by
  rw [walk, if_neg (not_le.mpr h)]

theorem walk_of_done {n : ℕ} {s : Walk} (h : s.remaining ≤ 0) : walk schedule holidays n s = s := by
  cases n with
  | zero => rfl
  | succ n => rw [walk, if_pos h]

/-- The walk after one more iteration. -/
theorem walk_succ (n : ℕ) (s : Walk) : walk schedule holidays (n + 1) s =
    if (walk schedule holidays n s).remaining ≤ 0 then walk schedule holidays n s
    else (walk schedule holidays n s).step schedule holidays := by
  induction n generalizing s with
  | zero => rfl
  | succ n ih =>
      rw [walk]
      split
      · next h => rw [walk, if_pos h, if_pos h]
      · next h => rw [ih, walk, if_neg h]

/-- The walk begins an iteration in the state. -/
def Iterates (schedule : Schedule) (holidays : Finset NaiveDate) (start budget : ℤ) (s : Walk) : Prop :=
  ∃ n < maxIterations, s = walk schedule holidays n ⟨start, budget * nanos⟩ ∧ 0 < s.remaining

end Forward

/-! ### A window in a gap -/

/-- Five hours behind UTC, and an hour less from the first Sunday of the count on, at two o'clock. -/
def springZone : Zone where
  offset u := if u < 284400 then -18000 else -14400
  abs_offset_lt u := by
    split <;> decide

def utcZone : Zone := ⟨fun _ => 0, fun _ => by decide⟩

def springReaders : Readers NaiveTime Zone := twoDigitReaders "America/New_York" springZone utcZone

def sundayNight : Json := .object [("0", windowJson "02:30:30" "02:45:00")]

/-- A quarter of an hour that does not exist. -/
def gapWindow : Window NaiveTime := ⟨⟨9030, by decide⟩, ⟨9900, by decide⟩, by decide⟩

def sundaySchedule : Schedule := .parse springReaders "America/New_York" sundayNight

theorem springZone_shows (u : ℤ) : springZone.shows u = if u < 284400 then u - 18000 else u - 14400 := by
  unfold Zone.shows springZone
  dsimp only
  split <;> omega

/-- The start of the window is resolved to half a minute after the gap and its end to the end of the gap. -/
theorem gapWindow_resolved :
    springZone.localDt 3 gapWindow.start = 284430 * nanos ∧ springZone.localDt 3 gapWindow.finish = 284400 * nanos := by
  have hstart : ((gapWindow.start : ℕ) : ℤ) = 9030 := rfl
  have hfinish : ((gapWindow.finish : ℕ) : ℤ) = 9900 := rfl
  constructor
  · refine @Zone.localDt_eq _ _ _ _ 30 (by omega) (fun j hj u => ?_) ?_ fun u' hu' => ?_ <;>
      rw [springZone_shows, hstart] <;> split <;> omega
  · refine @Zone.localDt_eq _ _ _ _ 15 (by omega) (fun j hj u => ?_) ?_ fun u' hu' => ?_ <;>
      rw [springZone_shows, hfinish] <;> split <;> omega

end Mokosh.Sla
