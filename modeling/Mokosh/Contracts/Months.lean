import Mathlib.Tactic.IntervalCases
import Mokosh.Types

/-! # Dates by month and day

A date is the index of its month, counted from January of year `0`, and a day of it.  In these terms
`checked_add_months` adds to the index and shortens the day to the month it lands in
(`checkedAddMonths_eq_some`), and what a chain of such additions does is a minimum of month lengths. -/

namespace Mokosh

/-- The number of days of the month with the index. -/
def monthLength (i : ℤ) : ℕ := daysInMonth (i / 12) ((i % 12).toNat + 1)

theorem le_daysInMonth (y : ℤ) {m : ℕ} (hm : m < 12) : 28 ≤ daysInMonth y (m + 1) := by
  interval_cases m <;> simp only [daysInMonth] <;> try omega
  split <;> omega

theorem monthLength_mem (i : ℤ) : 28 ≤ monthLength i ∧ monthLength i ≤ 31 :=
  ⟨le_daysInMonth _ (by omega), daysInMonth_le _ _⟩

/-- The index of the last month of the calendar. -/
def lastMonth : ℤ := 262142 * 12 + 11

namespace NaiveDate

variable {a b c : NaiveDate}

theorem monthIndex_eq (a : NaiveDate) : a.monthIndex / 12 = a.year ∧ (a.monthIndex % 12).toNat + 1 = a.month := by
  have hm := a.month_mem
  unfold monthIndex
  constructor <;> omega

theorem monthIndex_mem (a : NaiveDate) : -262143 * 12 ≤ a.monthIndex ∧ a.monthIndex ≤ lastMonth := by
  have hy := a.year_mem
  have hm := a.month_mem
  unfold monthIndex lastMonth
  constructor <;> omega

theorem day_mem' (a : NaiveDate) : 1 ≤ a.day ∧ a.day ≤ monthLength a.monthIndex := by
  unfold monthLength
  rw [a.monthIndex_eq.1, a.monthIndex_eq.2]
  exact a.day_mem

theorem eq_of_monthIndex (hm : a.monthIndex = b.monthIndex) (hd : a.day = b.day) : a = b := by
  have ha := a.monthIndex_eq
  have hb := b.monthIndex_eq
  rw [hm] at ha
  ext
  · exact ha.1.symm.trans hb.1
  · exact ha.2.symm.trans hb.2
  · exact hd

theorem lt_iff_monthIndex : a < b ↔ a.monthIndex < b.monthIndex ∨ a.monthIndex = b.monthIndex ∧ a.day < b.day := by
  have ha := a.day_mem'
  have hb := b.day_mem'
  have hla := monthLength_mem a.monthIndex
  have hlb := monthLength_mem b.monthIndex
  rw [lt_iff_ord]
  unfold ord
  omega

/-- The date with the month and day. -/
theorem fromYmdOpt_eq_some {i : ℤ} {d : ℕ} (hi : -262143 * 12 ≤ i ∧ i ≤ lastMonth)
    (hd : 1 ≤ d ∧ d ≤ monthLength i) :
    ∃ a, fromYmdOpt (i / 12) ((i % 12).toNat + 1) d = some a ∧ a.monthIndex = i ∧ a.day = d := by
  unfold lastMonth at hi
  have hcond : (-262143 ≤ i / 12 ∧ i / 12 ≤ 262142) ∧ (1 ≤ (i % 12).toNat + 1 ∧ (i % 12).toNat + 1 ≤ 12) ∧
      1 ≤ d ∧ d ≤ daysInMonth (i / 12) ((i % 12).toNat + 1) := by
    refine ⟨by omega, by omega, hd⟩
  refine ⟨_, dif_pos hcond, ?_, rfl⟩
  simp only [monthIndex]
  omega

/-- What `checked_add_months` returns. -/
theorem checkedAddMonths_eq_some {n : ℕ} :
    a.checkedAddMonths n = some b ↔
      b.monthIndex = a.monthIndex + n ∧ b.day = min a.day (monthLength (a.monthIndex + n)) := by
  have ha := a.monthIndex_mem
  have hday := a.day_mem'
  have hlen := monthLength_mem (a.monthIndex + n)
  have hunfold : a.checkedAddMonths n = fromYmdOpt ((a.monthIndex + n) / 12) (((a.monthIndex + n) % 12).toNat + 1)
      (min a.day (monthLength (a.monthIndex + n))) := rfl
  rw [hunfold]
  constructor
  · intro h
    have hin : a.monthIndex + n ≤ lastMonth := by
      unfold fromYmdOpt at h
      split at h
      · next hc =>
        have := hc.1.2
        unfold lastMonth
        omega
      · cases h
    obtain ⟨c, hc, hcm, hcd⟩ := fromYmdOpt_eq_some (i := a.monthIndex + n)
      (d := min a.day (monthLength (a.monthIndex + n))) ⟨by omega, hin⟩ (by omega)
    rw [hc, Option.some.injEq] at h
    subst h
    exact ⟨hcm, hcd⟩
  · rintro ⟨hm, hd⟩
    have hb := b.monthIndex_mem
    obtain ⟨c, hc, hcm, hcd⟩ := fromYmdOpt_eq_some (i := a.monthIndex + n)
      (d := min a.day (monthLength (a.monthIndex + n))) ⟨by omega, by omega⟩ (by omega)
    rw [hc, Option.some.injEq]
    exact eq_of_monthIndex (hcm.trans hm.symm) (hcd.trans hd.symm)

/-- The addition stays in the calendar exactly as long as the month does. -/
theorem exists_checkedAddMonths {n : ℕ} (h : a.monthIndex + n ≤ lastMonth) :
    ∃ b, a.checkedAddMonths n = some b := by
  have ha := a.monthIndex_mem
  have hday := a.day_mem'
  have hlen := monthLength_mem (a.monthIndex + n)
  obtain ⟨b, hb, -, -⟩ := fromYmdOpt_eq_some (i := a.monthIndex + n)
    (d := min a.day (monthLength (a.monthIndex + n))) ⟨by omega, h⟩ (by omega)
  exact ⟨b, hb⟩

theorem lt_of_checkedAddMonths {n : ℕ} (hn : 0 < n) (h : a.checkedAddMonths n = some b) : a < b := by
  rw [checkedAddMonths_eq_some] at h
  rw [lt_iff_monthIndex]
  omega

/-! ### The days beside a day -/

theorem fromYmdOpt_month {y : ℤ} {m d : ℕ} (h : fromYmdOpt y m d = some a) :
    a.monthIndex = y * 12 + (m - 1) ∧ a.day = d := by
  unfold fromYmdOpt at h
  split at h
  · cases h
    exact ⟨rfl, rfl⟩
  · cases h

theorem monthLength_eq {y : ℤ} {m : ℕ} (hm : 1 ≤ m ∧ m ≤ 12) : monthLength (y * 12 + (m - 1)) = daysInMonth y m := by
  unfold monthLength
  congr 1 <;> omega

/-- The day before: within the month, or the last of the month before. -/
theorem predOpt_spec (h : b.predOpt = some a) :
    a.monthIndex = b.monthIndex ∧ a.day + 1 = b.day ∨
      b.day = 1 ∧ a.monthIndex + 1 = b.monthIndex ∧ a.day = monthLength a.monthIndex := by
  have hm := b.month_mem
  have hd := b.day_mem
  have hb : b.monthIndex = b.year * 12 + (b.month - 1) := rfl
  unfold predOpt at h
  split at h
  · obtain ⟨h1, h2⟩ := fromYmdOpt_month h
    left
    omega
  · split at h
    · obtain ⟨h1, h2⟩ := fromYmdOpt_month h
      have hlen := monthLength_eq (y := b.year) (m := b.month - 1) (by omega)
      rw [← h1] at hlen
      right
      omega
    · obtain ⟨h1, h2⟩ := fromYmdOpt_month h
      have hlen := monthLength_eq (y := b.year - 1) (m := 12) (by omega)
      have h31 : daysInMonth (b.year - 1) 12 = 31 := rfl
      rw [← h1] at hlen
      right
      omega

/-- A day that is not the first of the calendar has a day before it. -/
theorem exists_predOpt (h : a < b) : ∃ c, b.predOpt = some c := by
  have hy := b.year_mem
  have hm := b.month_mem
  have hd := b.day_mem
  rw [lt_iff_monthIndex] at h
  have ha := a.monthIndex_mem
  have had := a.day_mem'
  have hb : b.monthIndex = b.year * 12 + (b.month - 1) := rfl
  unfold predOpt fromYmdOpt
  split
  · exact ⟨_, dif_pos ⟨hy, hm, by omega⟩⟩
  · split
    · have hlen := le_daysInMonth b.year (m := b.month - 1 - 1) (by omega)
      rw [show b.month - 1 - 1 + 1 = b.month - 1 by omega] at hlen
      exact ⟨_, dif_pos ⟨hy, by omega, by omega⟩⟩
    · have h31 : daysInMonth (b.year - 1) 12 = 31 := rfl
      exact ⟨_, dif_pos ⟨by omega, by omega, by omega⟩⟩

/-- No day comes between a day and the day before it. -/
theorem lt_iff_le_predOpt (h : b.predOpt = some a) (x : NaiveDate) : x < b ↔ x ≤ a := by
  have hx := x.day_mem'
  have ha := a.day_mem'
  have hb := b.day_mem'
  rw [← not_lt, lt_iff_monthIndex, lt_iff_monthIndex]
  obtain ⟨h1, h2⟩ | ⟨h1, h2, h3⟩ := predOpt_spec h
  · rw [h1] at ha ⊢
    omega
  · by_cases hxa : x.monthIndex = a.monthIndex
    · rw [hxa] at hx ⊢
      omega
    · omega

theorem predOpt_lt (h : b.predOpt = some a) : a < b := (lt_iff_le_predOpt h a).mpr le_rfl

/-- A day that is not the last of the calendar has a day after it. -/
theorem exists_succOpt (h : a < b) : ∃ c, a.succOpt = some c := by
  have hy := a.year_mem
  have hm := a.month_mem
  have hd := a.day_mem
  have hb := b.monthIndex_mem
  have hbd := b.day_mem'
  have ha : a.monthIndex = a.year * 12 + (a.month - 1) := rfl
  have hlen : monthLength a.monthIndex = daysInMonth a.year a.month := monthLength_eq hm
  -- The last of a month is followed by another month.
  have hmonth : ¬ a.day < daysInMonth a.year a.month → a.monthIndex < b.monthIndex := by
    intro hlast
    obtain hlt | ⟨heq, hlt⟩ := lt_iff_monthIndex.mp h
    · exact hlt
    · rw [← heq] at hbd
      omega
  unfold lastMonth at hb
  unfold succOpt fromYmdOpt
  split
  · exact ⟨_, dif_pos ⟨hy, hm, by omega⟩⟩
  · next hlast =>
    have hlt := hmonth hlast
    split
    · have h28 := le_daysInMonth a.year (m := a.month) (by omega)
      exact ⟨_, dif_pos ⟨hy, by omega, by omega⟩⟩
    · have h31 : daysInMonth (a.year + 1) 1 = 31 := rfl
      exact ⟨_, dif_pos ⟨by omega, by omega, by omega⟩⟩

/-- The day after the day before. -/
theorem succOpt_predOpt (h : b.predOpt = some a) : a.succOpt = some b := by
  have hab := predOpt_lt h
  obtain ⟨c, hc⟩ := exists_succOpt hab
  have hac := (lt_succOpt hc a).mpr le_rfl
  have hle : c ≤ b := not_lt.mp fun hlt => absurd ((lt_succOpt hc b).mp hlt) (not_le.mpr hab)
  have hge : b ≤ c := not_lt.mp fun hlt => absurd hac (not_lt.mpr ((lt_iff_le_predOpt h c).mp hlt))
  rw [hc, le_antisymm hle hge]

end NaiveDate

end Mokosh
