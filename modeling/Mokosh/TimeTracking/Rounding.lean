import Mokosh.TimeTracking.Entry
import Mathlib.Algebra.Order.Group.Int
import Mathlib.Tactic.Linarith

/-! # Rounded minutes

`apply_rounding` of `time_tracking/service.rs` lifts the minutes to the minimum of the rule and rounds what it has then.
Whatever the method, what it has is moved by a bias below the increment and cut to the increment
(`applyRounding_eq`), and all that follows is about that one quotient.

A minimum that the increment does not divide is rounded like everything else, so a rule that rounds down bills
less than its minimum (`billed_below_minimum`). -/

namespace Mokosh

namespace RoundingParams

/-- What `UpsertTimeRoundingRuleRequest` admits; the columns are `INTEGER`. -/
structure Admitted (rule : RoundingParams) : Prop where
  increment_mem : 1 ≤ rule.incrementMinutes ∧ rule.incrementMinutes ≤ 240
  minimum_mem : 0 ≤ rule.minimumMinutes ∧ rule.minimumMinutes < 2 ^ 31

/-- What is added before the cut. -/
def bias (rule : RoundingParams) : ℤ :=
  match rule.method with
  | .up => rule.incrementMinutes - 1
  | .down => 0
  | .nearest => rule.incrementMinutes / 2

/-- The minutes cut to the increment. -/
def cut (rule : RoundingParams) (x : ℤ) : ℤ := rule.incrementMinutes * ((x + rule.bias) / rule.incrementMinutes)

variable {rule : RoundingParams}

theorem bias_mem (h : 1 ≤ rule.incrementMinutes) : 0 ≤ rule.bias ∧ rule.bias < rule.incrementMinutes := by
  unfold bias
  split <;> omega

/-! ### The cut -/

section Cut

variable (h : 1 ≤ rule.incrementMinutes) (x : ℤ)
include h

theorem cut_le : rule.cut x ≤ x + rule.bias := Int.mul_ediv_self_le (by omega)

theorem lt_cut : x + rule.bias < rule.cut x + rule.incrementMinutes := by
  have hlt := Int.lt_mul_ediv_self_add (x := x + rule.bias) (show 0 < rule.incrementMinutes by omega)
  exact hlt

/-- The cut is the only multiple of the increment this close to the minutes. -/
theorem cut_eq_of_mem {q : ℤ} (hle : rule.incrementMinutes * q ≤ x + rule.bias)
    (hlt : x + rule.bias < rule.incrementMinutes * q + rule.incrementMinutes) :
    rule.cut x = rule.incrementMinutes * q := by
  have hq : (x + rule.bias) / rule.incrementMinutes = q := by
    rw [Int.ediv_eq_iff_of_pos (by omega), mul_comm]
    exact ⟨hle, hlt⟩
  unfold cut
  rw [hq]

omit x in
theorem cut_mono {x y : ℤ} (hxy : x ≤ y) : rule.cut x ≤ rule.cut y := by
  have hdiv : (x + rule.bias) / rule.incrementMinutes ≤ (y + rule.bias) / rule.incrementMinutes :=
    Int.ediv_le_ediv (by omega) (by omega)
  exact Int.mul_le_mul_of_nonneg_left hdiv (by omega)

/-- A multiple of the increment is its own cut. -/
theorem cut_cut : rule.cut (rule.cut x) = rule.cut x := by
  have hbias := bias_mem h
  unfold cut
  apply cut_eq_of_mem h <;> omega

end Cut

/-! ### The rule -/

/-- The source looks at the remainder to decide which way to go; that is one cut of the lifted minutes. -/
theorem applyRounding_eq (h : 1 ≤ rule.incrementMinutes) {m : ℤ} (hx : 0 ≤ max m rule.minimumMinutes) :
    applyRounding m rule = rule.cut (max m rule.minimumMinutes) := by
  generalize hX : max m rule.minimumMinutes = X at hx
  have hr0 := Int.emod_nonneg X (show rule.incrementMinutes ≠ 0 by omega)
  have hr1 := Int.emod_lt_of_pos X (show 0 < rule.incrementMinutes by omega)
  have hdm := Int.mul_ediv_add_emod X rule.incrementMinutes
  have hbias := bias_mem h
  have hdown : rule.incrementMinutes * (X / rule.incrementMinutes) = X - X % rule.incrementMinutes := by omega
  have hup : rule.incrementMinutes * (X / rule.incrementMinutes + 1) =
      X - X % rule.incrementMinutes + rule.incrementMinutes := by
    rw [mul_add, hdown, mul_one]
  unfold applyRounding
  simp only [hX, Int.tmod_eq_emod_of_nonneg hx]
  rw [if_neg (by omega)]
  split
  · next hr =>
    rw [cut_eq_of_mem h X (q := X / rule.incrementMinutes)] <;> omega
  · next hr =>
    cases hm : rule.method with
    | down =>
        have hb : rule.bias = 0 := by simp [bias, hm]
        dsimp only
        rw [cut_eq_of_mem h X (q := X / rule.incrementMinutes)] <;> omega
    | up =>
        have hb : rule.bias = rule.incrementMinutes - 1 := by simp [bias, hm]
        dsimp only
        rw [cut_eq_of_mem h X (q := X / rule.incrementMinutes + 1)] <;> omega
    | nearest =>
        have hb : rule.bias = rule.incrementMinutes / 2 := by simp [bias, hm]
        dsimp only
        split
        · rw [cut_eq_of_mem h X (q := X / rule.incrementMinutes + 1)] <;> omega
        · rw [cut_eq_of_mem h X (q := X / rule.incrementMinutes)] <;> omega

theorem Admitted.lifted_nonneg (h : rule.Admitted) (m : ℤ) : 0 ≤ max m rule.minimumMinutes :=
  h.minimum_mem.1.trans (le_max_right _ _)

theorem Admitted.applyRounding_eq (h : rule.Admitted) (m : ℤ) :
    applyRounding m rule = rule.cut (max m rule.minimumMinutes) :=
  RoundingParams.applyRounding_eq h.increment_mem.1 (h.lifted_nonneg m)

/-- Where the minimum cuts to itself, nothing is billed below it. -/
theorem cut_minimum (h : 1 ≤ rule.incrementMinutes)
    (hm : rule.method = .up ∨ rule.incrementMinutes ∣ rule.minimumMinutes) :
    rule.minimumMinutes ≤ rule.cut rule.minimumMinutes := by
  have hlt := lt_cut h rule.minimumMinutes
  obtain hup | ⟨q, hq⟩ := hm
  · have hb : rule.bias = rule.incrementMinutes - 1 := by simp [bias, hup]
    omega
  · have hbias := bias_mem h
    rw [cut_eq_of_mem h rule.minimumMinutes (q := q)] <;> omega

/-- Minutes that were cut once, lifted and cut again. -/
theorem cut_lifted (h : 1 ≤ rule.incrementMinutes) {X : ℤ} (hX : rule.minimumMinutes ≤ X) :
    rule.cut (max (rule.cut X) rule.minimumMinutes) = rule.cut X := by
  obtain hle | hlt := le_or_gt rule.minimumMinutes (rule.cut X)
  · rw [max_eq_left hle, cut_cut h]
  · -- The minimum lies between the cut and the minutes, so it has the same cut.
    have hbias := bias_mem h
    have hcut := lt_cut h X
    have hmin := cut_eq_of_mem h rule.minimumMinutes (q := (X + rule.bias) / rule.incrementMinutes)
    unfold cut at hlt hcut hmin ⊢
    rw [max_eq_right hlt.le, hmin] <;> omega

end RoundingParams

/-! ### In `i32` -/

/-- A value of type `i32`. -/
def toI32 (x : ℤ) : Option ℤ := if -2 ^ 31 ≤ x ∧ x < 2 ^ 31 then some x else none

theorem toI32_eq_some {x : ℤ} (h0 : 0 ≤ x) (h : x < 2 ^ 31) : toI32 x = some x := by
  rw [toI32, if_pos (by omega)]

/-- `apply_rounding` with every intermediate value in `i32`; `none` where one overflows. -/
def applyRoundingI32 (rawMinutes : ℤ) (rule : RoundingParams) : Option ℤ :=
  let floored := max rawMinutes rule.minimumMinutes
  let inc := rule.incrementMinutes
  if inc ≤ 0 then some floored
  else do
    let r ← toI32 (floored.tmod inc)
    if r = 0 then some floored
    else do
      let down ← toI32 (floored - r)
      match rule.method with
      | .down => some down
      | .up => toI32 (down + inc)
      | .nearest => do
        let twice ← toI32 (r * 2)
        if inc ≤ twice then toI32 (down + inc) else some down

/-- Where the lifted minutes leave room for one increment, nothing overflows. -/
theorem applyRoundingI32_eq {rule : RoundingParams} (h : rule.Admitted) {m : ℤ}
    (hroom : max m rule.minimumMinutes + rule.incrementMinutes < 2 ^ 31) :
    applyRoundingI32 m rule = some (applyRounding m rule) := by
  have hX := h.lifted_nonneg m
  have hinc := h.increment_mem
  unfold applyRoundingI32 applyRounding
  generalize max m rule.minimumMinutes = X at hX hroom
  simp only [Int.tmod_eq_emod_of_nonneg hX]
  have hr0 := Int.emod_nonneg X (show rule.incrementMinutes ≠ 0 by omega)
  have hr1 := Int.emod_lt_of_pos X (show 0 < rule.incrementMinutes by omega)
  have hr2 : X % rule.incrementMinutes ≤ X := by
    have hq := Int.ediv_nonneg hX (show 0 ≤ rule.incrementMinutes by omega)
    have hdm := Int.mul_ediv_add_emod X rule.incrementMinutes
    have hm := Int.mul_nonneg (show 0 ≤ rule.incrementMinutes by omega) hq
    omega
  generalize X % rule.incrementMinutes = r at hr0 hr1 hr2
  have hup := toI32_eq_some (x := X - r + rule.incrementMinutes) (by omega) (by omega)
  rw [if_neg (by omega), if_neg (by omega), toI32_eq_some hr0 (by omega)]
  simp only [Option.bind_eq_bind, Option.bind_some, toI32_eq_some (x := X - r) (by omega) (by omega),
    toI32_eq_some (x := r * 2) (by omega) (by omega)]
  split
  · rfl
  · cases rule.method with
    | down => rfl
    | up => exact hup
    | nearest =>
        dsimp only
        split
        · exact hup
        · rfl

/-! ### What is billed -/

/-- **Billable rounding.**  What a rule bills is a multiple of its increment, at least what it makes of its own minimum,
within one increment of the lifted minutes, monotone and stable, and computed without overflow where an increment
still fits. -/
theorem billable_rounding {rule : RoundingParams} (h : rule.Admitted) (worked : ℤ) :
    rule.incrementMinutes ∣ deriveBillableMinutes worked true (some rule) ∧
      applyRounding rule.minimumMinutes rule ≤ deriveBillableMinutes worked true (some rule) ∧
      (rule.method = .up ∨ rule.incrementMinutes ∣ rule.minimumMinutes →
        rule.minimumMinutes ≤ deriveBillableMinutes worked true (some rule)) ∧
      |deriveBillableMinutes worked true (some rule) - max worked rule.minimumMinutes| < rule.incrementMinutes ∧
      (∀ more, worked ≤ more →
        deriveBillableMinutes worked true (some rule) ≤ deriveBillableMinutes more true (some rule)) ∧
      deriveBillableMinutes (deriveBillableMinutes worked true (some rule)) true (some rule) =
        deriveBillableMinutes worked true (some rule) ∧
      (max worked rule.minimumMinutes + rule.incrementMinutes < 2 ^ 31 →
        applyRoundingI32 worked rule = some (deriveBillableMinutes worked true (some rule))) := by
  have hinc := h.increment_mem.1
  have hderive : ∀ m, deriveBillableMinutes m true (some rule) = applyRounding m rule := fun _ => rfl
  have hmin : rule.cut rule.minimumMinutes ≤ rule.cut (max worked rule.minimumMinutes) :=
    RoundingParams.cut_mono hinc (le_max_right _ _)
  have hle := RoundingParams.cut_le hinc (max worked rule.minimumMinutes)
  have hlt := RoundingParams.lt_cut hinc (max worked rule.minimumMinutes)
  have hbias := RoundingParams.bias_mem hinc
  simp only [hderive]
  refine ⟨?_, ?_, ?_, ?_, ?_, ?_, applyRoundingI32_eq h⟩
  · rw [h.applyRounding_eq]
    exact Dvd.intro _ rfl
  · rw [h.applyRounding_eq, h.applyRounding_eq, max_self]
    exact hmin
  · intro hm
    rw [h.applyRounding_eq]
    exact (RoundingParams.cut_minimum hinc hm).trans hmin
  · rw [h.applyRounding_eq, abs_lt]
    omega
  · intro more hmore
    rw [h.applyRounding_eq, h.applyRounding_eq]
    apply RoundingParams.cut_mono hinc
    omega
  · rw [h.applyRounding_eq, h.applyRounding_eq]
    exact RoundingParams.cut_lifted hinc (le_max_right _ _)

/-- Rounding down to quarters of an hour with a minimum of twenty minutes. -/
def quarterDown : RoundingParams := { incrementMinutes := 15, minimumMinutes := 20, method := .down }

theorem admitted_quarterDown : quarterDown.Admitted := ⟨by decide, by decide⟩

/-- A call of 47 minutes: 45 are billed, which is above the minimum and not more than what was worked. -/
theorem billable_rounding_quarterDown :
    (15 : ℤ) ∣ deriveBillableMinutes 47 true (some quarterDown) ∧
      deriveBillableMinutes 45 true (some quarterDown) = deriveBillableMinutes 47 true (some quarterDown) :=
  have h := billable_rounding admitted_quarterDown 47
  ⟨h.1, h.2.2.2.2.2.1⟩

/-- A call of three minutes is lifted to the twenty of the minimum and cut to fifteen. -/
theorem billed_below_minimum :
    quarterDown.Admitted ∧ ¬ ∀ worked, 0 < worked →
      quarterDown.minimumMinutes ≤ deriveBillableMinutes worked true (some quarterDown) := by
  refine ⟨admitted_quarterDown, ?_⟩
  intro hall
  exact absurd (hall 3 (by decide)) (by decide)

end Mokosh
