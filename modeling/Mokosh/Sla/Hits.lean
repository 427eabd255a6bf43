import Mokosh.Sla.Clock

/-! # The local clock

A time zone shows a second of local time during each second of UTC.  Now and then it is set back or forward, and so a
time may be shown twice or never.  What does not come back is that the local clock has reached a time (`Zone.Reached`),
and the first second it has is where the walk resolves a time (`Zone.First`).

For gaps of whole minutes, at most 180 of them, `localDt` finds that second for every whole minute (`localDt_le_iff`).
For any other time it finds the first second that reaches some later time (`localDt_first`). -/

namespace Mokosh.Sla.Zone

variable {z : Zone} {x y u v t : ℤ}

/-- The local clock has come to the time, and perhaps past it, by the instant. -/
def Reached (z : Zone) (x t : ℤ) : Prop := ∃ u ≤ t / nanos, x ≤ z.shows u

/-- The second is the first in which the local clock has come to the time. -/
def First (z : Zone) (x u : ℤ) : Prop := x ≤ z.shows u ∧ ∀ u' < u, z.shows u' < x

/-- Where the local clock goes forward it leaves out whole minutes, at most 180, and it never shows these. -/
structure WholeMinuteGaps (z : Zone) : Prop where
  after_minute : ∀ u, z.shows u + 1 < z.shows (u + 1) → 60 ∣ z.shows u + 1
  to_minute : ∀ u, z.shows u + 1 < z.shows (u + 1) → 60 ∣ z.shows (u + 1)
  length_le : ∀ u, z.shows (u + 1) - (z.shows u + 1) ≤ 180 * 60
  skipped : ∀ u x, z.shows u < x → x < z.shows (u + 1) → ∀ u', z.shows u' ≠ x

/-- The start of a day. -/
def dayStart (z : Zone) (date : ℤ) : ℤ := z.localDt date midnight

theorem nextDayStart_eq (z : Zone) (date : ℤ) : z.nextDayStart date = z.dayStart (date + 1) := rfl

/-! ### Reaching a time -/

theorem Reached.of_le (h : z.Reached y t) (hxy : x ≤ y) : z.Reached x t := by
  obtain ⟨u, hu, hy⟩ := h
  exact ⟨u, hu, hxy.trans hy⟩

theorem reached_dateNaive (z : Zone) (t : ℤ) : z.Reached (z.dateNaive t * 86400) t := by
  refine ⟨t / nanos, le_rfl, ?_⟩
  unfold dateNaive
  omega

theorem exists_first (z : Zone) (x : ℤ) : ∃ u, z.First x u := by
  have hbelow : ∀ u, x ≤ z.shows u → x - 86400 ≤ u := by
    intro u hu
    have hbounds := z.shows_lt u
    omega
  have hsome : x ≤ z.shows (x + 86400) := by
    have hbounds := z.shows_lt (x + 86400)
    omega
  obtain ⟨u, hu, hleast⟩ := Int.exists_least_of_bdd ⟨_, hbelow⟩ ⟨_, hsome⟩
  refine ⟨u, hu, fun u' hu' => ?_⟩
  by_contra hle
  have hge := hleast u' (not_lt.mp hle)
  omega

theorem First.reached_iff (h : z.First x u) : z.Reached x t ↔ u * nanos ≤ t := by
  have hdiv : u ≤ t / nanos ↔ u * nanos ≤ t := Int.le_ediv_iff_mul_le (by decide)
  rw [← hdiv]
  constructor
  · rintro ⟨u', hu', hx⟩
    by_contra hlt
    have hbefore := h.2 u' (by omega)
    omega
  · exact fun hu => ⟨u, hu, h.1⟩

theorem First.unique (h : z.First x u) (h' : z.First x v) : u = v := by
  have huv : ¬ u < v := fun hlt => absurd (h'.2 u hlt) (not_lt.mpr h.1)
  have hvu : ¬ v < u := fun hlt => absurd (h.2 v hlt) (not_lt.mpr h'.1)
  omega

/-- Within the first second that has reached a time, no later day has begun. -/
theorem First.not_reached_of_lt (h : z.First y (t / nanos)) {t' : ℤ} (ht : t' ≤ t) :
    ¬ z.Reached ((z.dateNaive t + 1) * 86400) t' := by
  rintro ⟨u, hu, hx⟩
  have hle : t' / nanos ≤ t / nanos := Int.ediv_le_ediv (by decide) ht
  have hshows := h.1
  unfold dateNaive at hx
  obtain hlt | heq : u < t / nanos ∨ u = t / nanos := by omega
  · have hbefore := h.2 u hlt
    omega
  · rw [heq] at hx
    omega

/-! ### What a local time is resolved to -/

/-- The clock shows the time when it first reaches it, or it goes past the time in that second. -/
theorem First.shows_or_gap (h : z.First x u) : z.shows u = x ∨ z.shows (u - 1) < x ∧ x < z.shows (u - 1 + 1) := by
  have hbefore := h.2 (u - 1) (by omega)
  have hshows := h.1
  rw [show u - 1 + 1 = u by omega]
  omega

/-- A time that is shown is resolved to the first second that has reached it. -/
theorem localDt_of_shows {date : ℤ} {time : NaiveTime} {k : ℕ} (hk : k ≤ 180)
    (hnone : ∀ j < k, ∀ u, z.shows u ≠ date * 86400 + (time : ℕ) + 60 * (j : ℕ))
    (h : z.First (date * 86400 + (time : ℕ) + 60 * (k : ℕ)) u)
    (hshows : z.shows u = date * 86400 + (time : ℕ) + 60 * (k : ℕ)) : z.localDt date time = u * nanos :=
  localDt_eq hk hnone hshows fun u' hu' => (h.2 u' hu').ne

theorem localDt_first (hz : z.WholeMinuteGaps) (date : ℤ) (time : NaiveTime) :
    ∃ y u, z.localDt date time = u * nanos ∧ z.First y u ∧ date * 86400 + (time : ℕ) ≤ y ∧
      (60 ∣ (time : ℕ) → z.First (date * 86400 + (time : ℕ)) u) := by
  obtain ⟨u, hu⟩ := z.exists_first (date * 86400 + (time : ℕ))
  obtain hshows | ⟨hbefore, hafter⟩ := hu.shows_or_gap
  · refine ⟨_, u, @localDt_of_shows _ u _ _ 0 (by omega) (fun j hj => by omega) ?_ ?_, hu, le_rfl, fun _ => hu⟩
    · rwa [Nat.cast_zero, mul_zero, add_zero]
    · rwa [Nat.cast_zero, mul_zero, add_zero]
  · have hgap : z.shows (u - 1) + 1 < z.shows (u - 1 + 1) := by omega
    have hafter_minute := hz.after_minute (u - 1) hgap
    have hto_minute := hz.to_minute (u - 1) hgap
    have hlength := hz.length_le (u - 1)
    have hskipped := hz.skipped (u - 1)
    rw [show u - 1 + 1 = u by omega] at hafter hto_minute hlength hskipped
    generalize hx : date * 86400 + ((time : ℕ) : ℤ) = x at hu hbefore hafter ⊢
    -- The first of the minutes after the time that is past the gap.
    obtain ⟨k, hk⟩ : ∃ k : ℕ, (k : ℤ) = (z.shows u - x + 59) / 60 := ⟨((z.shows u - x + 59) / 60).toNat, by omega⟩
    obtain ⟨v, hv⟩ := z.exists_first (x + 60 * k)
    have hshows : z.shows v = x + 60 * k := by
      obtain hshows | ⟨hbefore', hafter'⟩ := hv.shows_or_gap
      · exact hshows
      · -- The end of the gap is shown, so another gap begins at least a minute later.
        have hgap' : z.shows (v - 1) + 1 < z.shows (v - 1 + 1) := by omega
        have hminute := hz.after_minute (v - 1) hgap'
        have hout : ¬ (z.shows (v - 1) < z.shows u ∧ z.shows u < z.shows (v - 1 + 1)) :=
          fun h => hz.skipped (v - 1) (z.shows u) h.1 h.2 u rfl
        omega
    refine ⟨x + 60 * k, v, @localDt_of_shows _ v _ _ k (by omega) (fun j hj u' => ?_) ?_ ?_, hv, by omega,
      fun hminute => ?_⟩
    · rw [hx]
      exact hskipped _ (by omega) (by omega) u'
    · rwa [hx]
    · rwa [hx]
    · have hend : x + 60 * k = z.shows u := by omega
      have hfirst : z.First (z.shows u) u := ⟨le_rfl, fun u' hu' => (hu.2 u' hu').trans hafter⟩
      rw [hend] at hv
      rwa [hv.unique hfirst]

/-- The instant of a whole minute is the first at which the local clock has reached it. -/
theorem localDt_le_iff (hz : z.WholeMinuteGaps) {date : ℤ} {time : NaiveTime} (hminute : 60 ∣ (time : ℕ)) :
    z.localDt date time ≤ t ↔ z.Reached (date * 86400 + (time : ℕ)) t := by
  obtain ⟨y, u, heq, -, -, hfirst⟩ := localDt_first hz date time
  rw [heq, (hfirst hminute).reached_iff]

theorem dayStart_le_iff (hz : z.WholeMinuteGaps) {date : ℤ} : z.dayStart date ≤ t ↔ z.Reached (date * 86400) t := by
  have h := @localDt_le_iff z t hz date midnight (by decide)
  have hmidnight : (midnight : ℕ) = 0 := rfl
  rwa [hmidnight, Nat.cast_zero, add_zero] at h

theorem dayStart_le_localDt (hz : z.WholeMinuteGaps) (date : ℤ) (time : NaiveTime) :
    z.dayStart date ≤ z.localDt date time := by
  obtain ⟨y, u, heq, hfirst, hle, -⟩ := localDt_first hz date time
  rw [dayStart_le_iff hz, heq]
  exact (hfirst.reached_iff.mpr le_rfl).of_le (by omega)

theorem dayStart_mono (hz : z.WholeMinuteGaps) {date date' : ℤ} (h : date ≤ date') :
    z.dayStart date ≤ z.dayStart date' := by
  rw [dayStart_le_iff hz]
  exact ((dayStart_le_iff hz).mp le_rfl).of_le (by omega)

theorem dayStart_dateNaive_le (hz : z.WholeMinuteGaps) (t : ℤ) : z.dayStart (z.dateNaive t) ≤ t :=
  (dayStart_le_iff hz).mpr (z.reached_dateNaive t)

/-- A whole minute is not resolved before an earlier one. -/
theorem localDt_mono (hz : z.WholeMinuteGaps) {date : ℤ} {time time' : NaiveTime} (hminute : 60 ∣ (time : ℕ))
    (h : time ≤ time') : z.localDt date time ≤ z.localDt date time' := by
  obtain ⟨y, u, heq, hfirst, hle, -⟩ := localDt_first hz date time'
  rw [localDt_le_iff hz hminute, heq]
  have htime : ((time : ℕ) : ℤ) ≤ (time' : ℕ) := Int.ofNat_le.mpr h
  exact (hfirst.reached_iff.mpr le_rfl).of_le (by omega)

theorem localDt_le_nextDayStart (hz : z.WholeMinuteGaps) {date : ℤ} {time : NaiveTime} (hminute : 60 ∣ (time : ℕ)) :
    z.localDt date time ≤ z.nextDayStart date := by
  have htime := time.isLt
  rw [localDt_le_iff hz hminute, nextDayStart_eq]
  exact ((dayStart_le_iff hz).mp le_rfl).of_le (by omega)

end Mokosh.Sla.Zone
