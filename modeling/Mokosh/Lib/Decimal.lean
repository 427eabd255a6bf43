import Mathlib.Algebra.Order.Floor.Ring
import Mathlib.Algebra.Order.Round
import Mathlib.Data.Rat.Floor
import Mathlib.Tactic.Linarith
import Mathlib.Tactic.FieldSimp
import Mathlib.Tactic.Ring
import Mathlib.Tactic.Positivity
import Mathlib.Tactic.NormNum

/-! # Fixed-scale decimal columns

A `DECIMAL(p, s)` column holds an integer number of units of `10 ^ (-s)`; a value written to
it is first rounded to that scale, **half away from zero**.  Arithmetic between two writes is
exact, so it is done in `ℚ`, and only a write rounds.

* `roundHalfAway` is the rounding rule.  It is characterised by its distance to the argument
  (`abs_sub_roundHalfAway_le`, `roundHalfAway_eq`), and away from the half-way points
  (`NoTie`) it commutes with adding an integer (`roundHalfAway_add_int`,
  `roundHalfAway_int_sub`).
* `Numeric s` is the type of the stored values.  The scale is part of the type, so that a value
  with more than `s` decimals cannot be stored.  `Numeric.toRat` reads a column and
  `Numeric.ofRat` writes one. -/

namespace Mokosh

/-- Rounding to the nearest integer, half away from zero. -/
def roundHalfAway (q : ℚ) : ℤ :=
  if 0 ≤ q then ⌊q + 1 / 2⌋ else -⌊-q + 1 / 2⌋

theorem abs_sub_roundHalfAway_le (q : ℚ) : |q - roundHalfAway q| ≤ 1 / 2 := by
  unfold roundHalfAway
  split
  · have h1 := Int.floor_le (q + 1 / 2)
    have h2 := Int.lt_floor_add_one (q + 1 / 2)
    rw [abs_le]
    constructor <;> linarith
  · have h1 := Int.floor_le (-q + 1 / 2)
    have h2 := Int.lt_floor_add_one (-q + 1 / 2)
    push_cast
    rw [abs_le]
    constructor <;> linarith

/-- An integer closer than one half to `q` is its rounding. -/
theorem roundHalfAway_eq {q : ℚ} {n : ℤ} (h : |q - n| < 1 / 2) : roundHalfAway q = n := by
  have h1 := abs_sub_roundHalfAway_le q
  rw [abs_lt] at h
  rw [abs_le] at h1
  have h2 : ((roundHalfAway q - n : ℤ) : ℚ) < 1 := by
    push_cast
    linarith
  have h3 : (-1 : ℚ) < ((roundHalfAway q - n : ℤ) : ℚ) := by
    push_cast
    linarith
  have h4 : roundHalfAway q - n < 1 := by exact_mod_cast h2
  have h5 : -1 < roundHalfAway q - n := by exact_mod_cast h3
  omega

/-- An integer is the rounding of `q` if and only if it is closer than one half, or one half away and further from zero
than `q`. -/
theorem roundHalfAway_eq_iff {q : ℚ} {n : ℤ} :
    roundHalfAway q = n ↔ |q - n| < 1 / 2 ∨ |q - n| = 1 / 2 ∧ (q - n) * n < 0 := by
  constructor
  · rintro rfl
    refine (abs_sub_roundHalfAway_le q).lt_or_eq.imp_right fun he => ⟨he, ?_⟩
    unfold roundHalfAway at he ⊢
    split at he
    · next hq =>
        rw [if_pos hq]
        have hle := Int.floor_le (q + 1 / 2)
        have hlt := Int.lt_floor_add_one (q + 1 / 2)
        rcases (abs_eq (by norm_num)).mp he with he | he
        · linarith
        · rw [he]
          linarith
    · next hq =>
        rw [if_neg hq]
        have hle := Int.floor_le (-q + 1 / 2)
        have hlt := Int.lt_floor_add_one (-q + 1 / 2)
        push_cast at he ⊢
        rcases (abs_eq (by norm_num)).mp he with he | he
        · rw [he]
          linarith
        · linarith
  · rintro (h | ⟨he, hs⟩)
    · exact roundHalfAway_eq h
    · unfold roundHalfAway
      rcases (abs_eq (by norm_num)).mp he with he | he
      · rw [he] at hs
        have hn : n ≤ -1 := by
          have : (n : ℚ) < 0 := by linarith
          have : n < 0 := by exact_mod_cast this
          omega
        have hn' : (n : ℚ) ≤ -1 := by exact_mod_cast hn
        rw [if_neg (by linarith), neg_eq_iff_eq_neg, Int.floor_eq_iff]
        push_cast
        constructor <;> linarith
      · rw [he] at hs
        have hn : 1 ≤ n := by
          have : (0 : ℚ) < n := by linarith
          have : 0 < n := by exact_mod_cast this
          omega
        have hn' : (1 : ℚ) ≤ n := by exact_mod_cast hn
        rw [if_pos (by linarith), Int.floor_eq_iff]
        constructor <;> linarith

@[simp] theorem roundHalfAway_intCast (n : ℤ) : roundHalfAway (n : ℚ) = n :=
  roundHalfAway_eq (by simp)

@[simp] theorem roundHalfAway_zero : roundHalfAway 0 = 0 := by
  exact_mod_cast roundHalfAway_intCast 0

/-- `q` lies half-way between two integers for no pair of integers. -/
def NoTie (q : ℚ) : Prop := ∀ k : ℤ, 2 * q ≠ 2 * k + 1

theorem noTie_intCast (n : ℤ) : NoTie (n : ℚ) := by
  intro k h
  have h' : 2 * n = 2 * k + 1 := by exact_mod_cast h
  omega

theorem abs_sub_roundHalfAway_lt {q : ℚ} (h : NoTie q) : |q - roundHalfAway q| < 1 / 2 := by
  refine lt_of_le_of_ne (abs_sub_roundHalfAway_le q) ?_
  intro he
  rcases abs_cases (q - roundHalfAway q) with ⟨ha, -⟩ | ⟨ha, -⟩
  · apply h (roundHalfAway q)
    linarith
  · apply h (roundHalfAway q - 1)
    push_cast
    linarith

/-- Away from ties, rounding commutes with adding an integer. -/
theorem roundHalfAway_add_int {q : ℚ} (h : NoTie q) (n : ℤ) :
    roundHalfAway (n + q) = n + roundHalfAway q := by
  apply roundHalfAway_eq
  have h1 := abs_sub_roundHalfAway_lt h
  push_cast
  rwa [add_sub_add_left_eq_sub]

/-- Away from ties, rounding commutes with subtraction from an integer. -/
theorem roundHalfAway_int_sub {q : ℚ} (h : NoTie q) (n : ℤ) :
    roundHalfAway (n - q) = n - roundHalfAway q := by
  apply roundHalfAway_eq
  have h1 := abs_sub_roundHalfAway_lt h
  push_cast
  rwa [sub_sub_sub_cancel_left, abs_sub_comm]

theorem roundHalfAway_mono {p q : ℚ} (h : p ≤ q) : roundHalfAway p ≤ roundHalfAway q := by
  unfold roundHalfAway
  split <;> split
  · exact Int.floor_mono (by linarith)
  · linarith
  · have h1 : 0 ≤ ⌊-p + 1 / 2⌋ := Int.floor_nonneg.mpr (by linarith)
    have h2 : 0 ≤ ⌊q + 1 / 2⌋ := Int.floor_nonneg.mpr (by linarith)
    omega
  · have h1 : ⌊-q + 1 / 2⌋ ≤ ⌊-p + 1 / 2⌋ := Int.floor_mono (by linarith)
    omega

theorem roundHalfAway_le_int {q : ℚ} {n : ℤ} (h : q ≤ n) : roundHalfAway q ≤ n := by
  have h1 := roundHalfAway_mono h
  rwa [roundHalfAway_intCast] at h1

theorem int_le_roundHalfAway {q : ℚ} {n : ℤ} (h : (n : ℚ) ≤ q) : n ≤ roundHalfAway q := by
  have h1 := roundHalfAway_mono h
  rwa [roundHalfAway_intCast] at h1

theorem roundHalfAway_nonneg {q : ℚ} (h : 0 ≤ q) : 0 ≤ roundHalfAway q :=
  int_le_roundHalfAway (by simpa using h)

/-- A value of a decimal column of scale `s`: an integer number of units of `10 ^ (-s)`. -/
structure Numeric (s : ℕ) where
  /-- The number of units in the last place. -/
  unscaled : ℤ
deriving DecidableEq, Repr

namespace Numeric

variable {s : ℕ}

/-- The number a column holds. -/
def toRat (x : Numeric s) : ℚ := x.unscaled / 10 ^ s

/-- What writing `q` to a column of scale `s` stores. -/
def ofRat (s : ℕ) (q : ℚ) : Numeric s := ⟨roundHalfAway (q * 10 ^ s)⟩

instance : Zero (Numeric s) := ⟨⟨0⟩⟩

instance : Inhabited (Numeric s) := ⟨0⟩

@[simp] theorem zero_unscaled : (0 : Numeric s).unscaled = 0 := rfl

@[simp] theorem ofRat_unscaled (q : ℚ) : (ofRat s q).unscaled = roundHalfAway (q * 10 ^ s) := rfl

@[ext] theorem ext {x y : Numeric s} (h : x.unscaled = y.unscaled) : x = y := by
  cases x
  cases y
  simp_all

theorem unscaled_injective : Function.Injective (unscaled : Numeric s → ℤ) := fun _ _ h => ext h

instance : LinearOrder (Numeric s) := LinearOrder.lift' unscaled unscaled_injective

theorem le_iff_unscaled {x y : Numeric s} : x ≤ y ↔ x.unscaled ≤ y.unscaled := Iff.rfl

theorem lt_iff_unscaled {x y : Numeric s} : x < y ↔ x.unscaled < y.unscaled := Iff.rfl

@[simp] theorem max_unscaled (x y : Numeric s) :
    (max x y).unscaled = max x.unscaled y.unscaled := by
  rcases le_total x y with h | h
  · rw [max_eq_right h, max_eq_right (le_iff_unscaled.mp h)]
  · rw [max_eq_left h, max_eq_left (le_iff_unscaled.mp h)]

/-! Sums and differences of stored values need no rounding. -/

instance : Add (Numeric s) := ⟨fun x y => ⟨x.unscaled + y.unscaled⟩⟩

instance : Neg (Numeric s) := ⟨fun x => ⟨-x.unscaled⟩⟩

instance : Sub (Numeric s) := ⟨fun x y => ⟨x.unscaled - y.unscaled⟩⟩

instance : SMul ℕ (Numeric s) := ⟨fun n x => ⟨n * x.unscaled⟩⟩

instance : SMul ℤ (Numeric s) := ⟨fun n x => ⟨n * x.unscaled⟩⟩

instance : AddCommGroup (Numeric s) :=
  unscaled_injective.addCommGroup unscaled rfl (fun _ _ => rfl) (fun _ => rfl) (fun _ _ => rfl)
    (fun _ _ => rfl) (fun _ _ => rfl)

@[simp] theorem add_unscaled (x y : Numeric s) : (x + y).unscaled = x.unscaled + y.unscaled := rfl

@[simp] theorem sub_unscaled (x y : Numeric s) : (x - y).unscaled = x.unscaled - y.unscaled := rfl

@[simp] theorem neg_unscaled (x : Numeric s) : (-x).unscaled = -x.unscaled := rfl

instance : IsOrderedAddMonoid (Numeric s) where
  add_le_add_left x y h z := by
    rw [le_iff_unscaled] at *
    simpa using h

theorem toRat_mul_pow (x : Numeric s) : x.toRat * 10 ^ s = x.unscaled := by
  unfold toRat
  field_simp

@[simp] theorem toRat_zero : (0 : Numeric s).toRat = 0 := by
  simp [toRat]

theorem toRat_inj {x y : Numeric s} : x.toRat = y.toRat ↔ x = y := by
  constructor
  · intro h
    have h1 := toRat_mul_pow x
    rw [h, toRat_mul_pow] at h1
    exact ext (by exact_mod_cast h1.symm)
  · intro h
    rw [h]

theorem toRat_le_iff {x y : Numeric s} : x.toRat ≤ y.toRat ↔ x ≤ y := by
  have h : (0 : ℚ) < 10 ^ s := by positivity
  rw [← mul_le_mul_iff_left₀ h, toRat_mul_pow, toRat_mul_pow, le_iff_unscaled]
  exact_mod_cast Iff.rfl

theorem toRat_monotone : Monotone (toRat : Numeric s → ℚ) := fun _ _ h => toRat_le_iff.mpr h

theorem toRat_nonneg_iff {x : Numeric s} : 0 ≤ x.toRat ↔ 0 ≤ x.unscaled := by
  rw [← toRat_zero (s := s), toRat_le_iff, le_iff_unscaled, zero_unscaled]

theorem toRat_pos_iff {x : Numeric s} : 0 < x.toRat ↔ 0 < x.unscaled := by
  rw [← not_le, ← not_le, ← toRat_zero (s := s), toRat_le_iff, le_iff_unscaled, zero_unscaled]

/-- A stored value is written back unchanged. -/
@[simp] theorem ofRat_toRat (x : Numeric s) : ofRat s x.toRat = x := by
  ext
  rw [ofRat_unscaled, toRat_mul_pow, roundHalfAway_intCast]

/-- Sums of stored values are stored exactly. -/
theorem ofRat_mono {p q : ℚ} (h : p ≤ q) : ofRat s p ≤ ofRat s q :=
  roundHalfAway_mono (mul_le_mul_of_nonneg_right h (by positivity))

theorem ofRat_le_of_le_toRat {q : ℚ} {x : Numeric s} (h : q ≤ x.toRat) : ofRat s q ≤ x := by
  have h1 := ofRat_mono (s := s) h
  rwa [ofRat_toRat] at h1

@[simp] theorem ofRat_add_toRat (x y : Numeric s) :
    ofRat s (x.toRat + y.toRat) = ⟨x.unscaled + y.unscaled⟩ := by
  ext
  rw [ofRat_unscaled, add_mul, toRat_mul_pow, toRat_mul_pow]
  exact_mod_cast roundHalfAway_intCast _

/-- Differences of stored values are stored exactly. -/
@[simp] theorem ofRat_sub_toRat (x y : Numeric s) :
    ofRat s (x.toRat - y.toRat) = ⟨x.unscaled - y.unscaled⟩ := by
  ext
  rw [ofRat_unscaled, sub_mul, toRat_mul_pow, toRat_mul_pow]
  exact_mod_cast roundHalfAway_intCast _

/-- Adding a value that is not half-way between two stored ones rounds only that value. -/
theorem ofRat_toRat_add (x : Numeric s) {q : ℚ} (h : NoTie (q * 10 ^ s)) :
    ofRat s (x.toRat + q) = ⟨x.unscaled + (ofRat s q).unscaled⟩ := by
  ext
  rw [ofRat_unscaled, add_mul, toRat_mul_pow, roundHalfAway_add_int h, ofRat_unscaled]

theorem ofRat_toRat_sub (x : Numeric s) {q : ℚ} (h : NoTie (q * 10 ^ s)) :
    ofRat s (x.toRat - q) = ⟨x.unscaled - (ofRat s q).unscaled⟩ := by
  ext
  rw [ofRat_unscaled, sub_mul, toRat_mul_pow, roundHalfAway_int_sub h, ofRat_unscaled]

theorem toRat_add (x y : Numeric s) : (x + y).toRat = x.toRat + y.toRat := by
  simp only [toRat, add_unscaled]
  push_cast
  ring

theorem toRat_sub (x y : Numeric s) : (x - y).toRat = x.toRat - y.toRat := by
  simp only [toRat, sub_unscaled]
  push_cast
  ring

end Numeric

end Mokosh
