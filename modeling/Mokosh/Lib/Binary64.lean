import Mathlib.Algebra.Order.Floor.Ring
import Mathlib.Data.Int.Log
import Mathlib.Data.Rat.Floor
import Mathlib.Tactic.Linarith
import Mathlib.Tactic.FieldSimp
import Mathlib.Tactic.Ring
import Mathlib.Tactic.Positivity
import Mathlib.Tactic.NormNum

/-! # Binary floating point

The values of `binary64` that are not negative and neither subnormal nor too large are rationals here, and
`Binary64.round` is the rounding of IEEE 754 among them: to 53 binary digits, to the nearest, a tie to
the even mantissa.

A natural number below `2 ^ 53` is exact (`round_natCast`).  The rounding of a number may only move it by half
a unit in its last place, so that it passes no integer (`ceil_round`). -/

namespace Mokosh.Binary64

/-- The nearest integer, and of two the even one. -/
def nearestEven (x : ℚ) : ℤ :=
  if Int.fract x < 1 / 2 then ⌊x⌋
  else if 1 / 2 < Int.fract x then ⌊x⌋ + 1
  else if Even ⌊x⌋ then ⌊x⌋
  else ⌊x⌋ + 1

theorem nearestEven_cases (x : ℚ) :
    nearestEven x = ⌊x⌋ ∧ Int.fract x ≤ 1 / 2 ∨ nearestEven x = ⌊x⌋ + 1 ∧ 1 / 2 ≤ Int.fract x := by
  unfold nearestEven
  split
  · next h => exact .inl ⟨rfl, h.le⟩
  · next h =>
      split
      · next h' => exact .inr ⟨rfl, h'.le⟩
      · next h' =>
          split
          · exact .inl ⟨rfl, not_lt.mp h'⟩
          · exact .inr ⟨rfl, not_lt.mp h⟩

@[simp] theorem nearestEven_intCast (n : ℤ) : nearestEven n = n := by
  obtain ⟨h, -⟩ | ⟨-, h⟩ := nearestEven_cases n
  · rw [h, Int.floor_intCast]
  · rw [Int.fract_intCast] at h
    norm_num at h

theorem nearestEven_le_ceil (x : ℚ) : nearestEven x ≤ ⌈x⌉ := by
  obtain ⟨h, -⟩ | ⟨h, hf⟩ := nearestEven_cases x
  · rw [h]
    exact Int.floor_le_ceil x
  · have hlt : ⌊x⌋ < ⌈x⌉ := by
      rw [Int.lt_ceil]
      have := Int.self_sub_floor x
      linarith
    rw [h]
    omega

theorem sub_half_le_nearestEven (x : ℚ) : x - 1 / 2 ≤ nearestEven x := by
  have hx := Int.self_sub_floor x
  obtain ⟨h, hf⟩ | ⟨h, hf⟩ := nearestEven_cases x
  · rw [h]
    linarith
  · have := Int.fract_lt_one x
    rw [h]
    push_cast
    linarith

theorem floor_le_nearestEven (x : ℚ) : ⌊x⌋ ≤ nearestEven x := by
  obtain ⟨h, -⟩ | ⟨h, -⟩ := nearestEven_cases x <;> omega

theorem nearestEven_mono {x y : ℚ} (h : x ≤ y) : nearestEven x ≤ nearestEven y := by
  have hfloor := Int.floor_mono h
  have hy := floor_le_nearestEven y
  have hx : nearestEven x ≤ ⌊x⌋ + 1 := by
    obtain ⟨h, -⟩ | ⟨h, -⟩ := nearestEven_cases x <;> omega
  obtain hlt | heq := hfloor.lt_or_eq
  · exact hx.trans (Int.add_one_le_of_lt hlt |>.trans hy)
  · -- Between two integers the fractions decide.
    have hfract : Int.fract x ≤ Int.fract y := by
      unfold Int.fract
      rw [heq]
      linarith
    unfold nearestEven
    rw [heq]
    split_ifs <;> first | omega | linarith

/-- The exponent of the last place of a mantissa of 53 digits. -/
def lastPlace (x : ℚ) : ℤ := Int.log 2 x - 52

/-- The nearest value. -/
def round (x : ℚ) : ℚ := nearestEven (x / 2 ^ lastPlace x) * 2 ^ lastPlace x

/-- Rounding leaves the integers alone that are no finer than the last place. -/
theorem round_eq_self {x : ℚ} {n : ℤ} (h : x / 2 ^ lastPlace x = n) : round x = x := by
  unfold round
  rw [h, nearestEven_intCast, ← h, div_mul_cancel₀ _ (zpow_ne_zero _ two_ne_zero)]

theorem exists_natCast_eq_zpow {k : ℤ} (hk : 0 ≤ k) : ∃ m : ℕ, (2 : ℚ) ^ k = m := by
  obtain ⟨j, rfl⟩ := Int.eq_ofNat_of_zero_le hk
  refine ⟨2 ^ j, ?_⟩
  push_cast
  rfl

/-- An integer is a whole number of last places where the last place is no integer itself. -/
theorem exists_intCast_eq_div {e : ℤ} (he : e ≤ 0) (n : ℤ) : ∃ m : ℤ, (n : ℚ) / 2 ^ e = m := by
  obtain ⟨k, hk⟩ := exists_natCast_eq_zpow (k := -e) (by omega)
  refine ⟨n * k, ?_⟩
  rw [div_eq_mul_inv, ← zpow_neg, hk]
  push_cast
  rfl

theorem lastPlace_le {x : ℚ} {k : ℕ} (h0 : 0 < x) (h : x < 2 ^ k) : lastPlace x ≤ k - 53 := by
  have hlog : Int.log 2 x < k := by
    rw [← Int.lt_zpow_iff_log_lt one_lt_two h0]
    exact_mod_cast h
  unfold lastPlace
  omega

theorem round_natCast {n : ℕ} (h : n < 2 ^ 53) : round n = n := by
  obtain rfl | h0 := n.eq_zero_or_pos
  · exact round_eq_self (n := 0) (by simp)
  · have he : lastPlace (n : ℚ) ≤ 0 := lastPlace_le (k := 53) (by exact_mod_cast h0) (by exact_mod_cast h)
    obtain ⟨m, hm⟩ := exists_intCast_eq_div he n
    exact round_eq_self (n := m) (by exact_mod_cast hm)

theorem zpow_log_eq (x : ℚ) (j : ℕ) :
    (2 : ℚ) ^ (Int.log 2 x + j) = ((2 ^ (52 + j) : ℤ) : ℚ) * 2 ^ lastPlace x := by
  rw [Int.cast_pow, Int.cast_ofNat, ← zpow_natCast, ← zpow_add₀ two_ne_zero, lastPlace]
  congr 1
  push_cast
  ring

theorem round_le_zpow (x : ℚ) : round x ≤ 2 ^ (Int.log 2 x + 1) := by
  have hu : (0 : ℚ) < 2 ^ lastPlace x := zpow_pos two_pos _
  have heq : (2 : ℚ) ^ (Int.log 2 x + 1) = ((2 ^ 53 : ℤ) : ℚ) * 2 ^ lastPlace x := zpow_log_eq x 1
  have hle : x / 2 ^ lastPlace x ≤ ((2 ^ 53 : ℤ) : ℚ) := by
    rw [div_le_iff₀ hu, ← heq]
    exact (Int.lt_zpow_succ_log_self one_lt_two x).le
  have hnearest : nearestEven (x / 2 ^ lastPlace x) ≤ 2 ^ 53 := (nearestEven_le_ceil _).trans (Int.ceil_le.mpr hle)
  rw [heq]
  exact mul_le_mul_of_nonneg_right (Int.cast_le.mpr hnearest) hu.le

theorem zpow_le_round {x : ℚ} (hx : 0 < x) : 2 ^ Int.log 2 x ≤ round x := by
  have hu : (0 : ℚ) < 2 ^ lastPlace x := zpow_pos two_pos _
  have heq : (2 : ℚ) ^ Int.log 2 x = ((2 ^ 52 : ℤ) : ℚ) * 2 ^ lastPlace x := by
    have h := zpow_log_eq x 0
    rwa [Nat.cast_zero, add_zero] at h
  have hle : ((2 ^ 52 : ℤ) : ℚ) ≤ x / 2 ^ lastPlace x := by
    rw [le_div_iff₀ hu, ← heq]
    exact Int.zpow_log_le_self one_lt_two hx
  have hnearest : 2 ^ 52 ≤ nearestEven (x / 2 ^ lastPlace x) := (Int.le_floor.mpr hle).trans (floor_le_nearestEven _)
  rw [heq]
  exact mul_le_mul_of_nonneg_right (Int.cast_le.mpr hnearest) hu.le

/-- Rounding keeps the order, also from one exponent to the next. -/
theorem round_mono {x y : ℚ} (hx : 0 < x) (h : x ≤ y) : round x ≤ round y := by
  have hlog : Int.log 2 x ≤ Int.log 2 y := Int.log_mono_right hx h
  obtain hlt | heq := hlog.lt_or_eq
  · calc round x ≤ 2 ^ (Int.log 2 x + 1) := round_le_zpow x
      _ ≤ 2 ^ Int.log 2 y := zpow_le_zpow_right₀ one_le_two (Int.add_one_le_of_lt hlt)
      _ ≤ round y := zpow_le_round (hx.trans_le h)
  · have hu : (0 : ℚ) < 2 ^ lastPlace y := zpow_pos two_pos _
    have hsame : lastPlace x = lastPlace y := by
      unfold lastPlace
      rw [heq]
    have hnearest := nearestEven_mono (div_le_div_of_nonneg_right h hu.le)
    unfold round
    rw [hsame]
    exact mul_le_mul_of_nonneg_right (Int.cast_le.mpr hnearest) hu.le

/-- A number that is further above its floor than half its last place keeps its ceiling. -/
theorem ceil_round {x : ℚ} (he : lastPlace x ≤ 0) (hx : 2 ^ lastPlace x / 2 < Int.fract x) :
    ⌈round x⌉ = ⌊x⌋ + 1 := by
  have hu : (0 : ℚ) < 2 ^ lastPlace x := zpow_pos two_pos _
  have hlow : (⌊x⌋ : ℚ) < round x := by
    have h := mul_le_mul_of_nonneg_right (sub_half_le_nearestEven (x / 2 ^ lastPlace x)) hu.le
    rw [sub_mul, div_mul_cancel₀ _ hu.ne'] at h
    have := Int.self_sub_floor x
    unfold round
    linarith
  have hhigh : round x ≤ ⌊x⌋ + 1 := by
    obtain ⟨m, hm⟩ := exists_intCast_eq_div he (⌊x⌋ + 1)
    have hle : x / 2 ^ lastPlace x ≤ m := by
      rw [← hm]
      push_cast
      exact div_le_div_of_nonneg_right (Int.lt_floor_add_one x).le hu.le
    have hn : nearestEven (x / 2 ^ lastPlace x) ≤ m :=
      (nearestEven_le_ceil _).trans (Int.ceil_le.mpr hle)
    calc round x ≤ m * 2 ^ lastPlace x := mul_le_mul_of_nonneg_right (by exact_mod_cast hn) hu.le
      _ = ⌊x⌋ + 1 := by rw [← hm, div_mul_cancel₀ _ hu.ne']; push_cast; rfl
  rw [Int.ceil_eq_iff]
  constructor
  · push_cast
    linarith
  · exact_mod_cast hhigh

/-- `n as f64`. -/
def ofNat (n : ℕ) : ℚ := round n

/-- The division of two values. -/
def div (x y : ℚ) : ℚ := round (x / y)

theorem ceilDiv_of_not_dvd {n p : ℕ} (hp : 0 < p) (h : n % p ≠ 0) : (n + p - 1) / p = n / p + 1 := by
  have hm := Nat.mod_lt n hp
  have hn := Nat.div_add_mod n p
  refine Nat.div_eq_of_lt_le ?_ ?_
  · rw [Nat.add_mul, Nat.mul_comm]
    omega
  · rw [Nat.add_mul, Nat.add_mul, Nat.mul_comm]
    omega

/-- The quotient of two natural numbers keeps its ceiling, where half a last place is less than the
smallest distance of such a quotient to an integer. -/
theorem ceil_div_ofNat {n p k : ℕ} (hp : 0 < p) (hp53 : p < 2 ^ 53) (hk : k ≤ 53) (hn : n < 2 ^ k)
    (hpk : p * 2 ^ k < 2 ^ 54) : ⌈div (ofNat n) (ofNat p)⌉ = (((n + p - 1) / p : ℕ) : ℤ) := by
  have hn53 : n < 2 ^ 53 := hn.trans_le (Nat.pow_le_pow_right two_pos hk)
  have hp0 : (0 : ℚ) < p := by exact_mod_cast hp
  unfold div ofNat
  rw [round_natCast hn53, round_natCast hp53]
  by_cases hd : n % p = 0
  · obtain ⟨m, rfl⟩ := Nat.dvd_of_mod_eq_zero hd
    have hm : m < 2 ^ 53 := (Nat.le_mul_of_pos_left m hp).trans_lt hn53
    have hdiv : (p * m + p - 1) / p = m := by
      rw [Nat.add_sub_assoc hp, Nat.mul_add_div hp, Nat.div_eq_of_lt (by omega), add_zero]
    have hx : ((p * m : ℕ) : ℚ) / p = m := by
      push_cast
      field_simp
    rw [hx, round_natCast hm, hdiv, Int.ceil_natCast]
  · have hn0 : 0 < n := Nat.pos_of_ne_zero fun h => hd (by rw [h, Nat.zero_mod])
    have hx0 : (0 : ℚ) < n / p := div_pos (by exact_mod_cast hn0) hp0
    have hxk : (n : ℚ) / p < 2 ^ k := by
      rw [div_lt_iff₀ hp0]
      have : n < 2 ^ k * p := hn.trans_le (Nat.le_mul_of_pos_right _ hp)
      exact_mod_cast this
    have he := lastPlace_le hx0 hxk
    have hfract : (1 : ℚ) / p ≤ Int.fract ((n : ℚ) / p) := by
      rw [Int.fract_div_natCast_eq_div_natCast_mod]
      refine div_le_div_of_nonneg_right ?_ hp0.le
      exact_mod_cast Nat.one_le_iff_ne_zero.mpr hd
    have hulp : (2 : ℚ) ^ lastPlace ((n : ℚ) / p) / 2 < 1 / p := by
      have hle : (2 : ℚ) ^ lastPlace ((n : ℚ) / p) ≤ 2 ^ ((k : ℤ) - 53) := zpow_le_zpow_right₀ one_le_two he
      have hpk' : (p : ℚ) * 2 ^ k < 2 ^ 54 := by exact_mod_cast hpk
      rw [zpow_sub₀ two_ne_zero, zpow_natCast] at hle
      rw [lt_div_iff₀ hp0]
      calc (2 : ℚ) ^ lastPlace ((n : ℚ) / p) / 2 * p ≤ 2 ^ k / 2 ^ (53 : ℤ) / 2 * p := by gcongr
        _ = p * 2 ^ k / 2 ^ 54 := by
          norm_num
          ring
        _ < 1 := (div_lt_one (by positivity)).mpr hpk'
    rw [ceil_round (by omega) (hulp.trans_le hfract), Rat.floor_natCast_div_natCast, ceilDiv_of_not_dvd hp hd]
    push_cast
    rfl

end Mokosh.Binary64
