import Mathlib.Data.List.TakeWhile
import Mathlib.Tactic.Common

/-! # Placeholders

The `$n` of a statement's text, in the order in which they stand there.  A dollar sign without digits counts as `$0`,
so a text whose placeholders are known has no other. -/

namespace Mokosh.Placeholders

/-- `$` and the digits behind it. -/
def indices : List Char → List ℕ
  | [] => []
  | c :: s => if c = '$' then Nat.ofDigitChars 10 (s.takeWhile Char.isDigit) 0 :: indices s else indices s

/-- `${n}`. -/
def placeholder (n : ℕ) : List Char := '$' :: Nat.toDigits 10 n

theorem indices_of_notMem {s : List Char} (h : '$' ∉ s) : indices s = [] := by
  induction s with
  | nil => rfl
  | cons c s ih =>
      rw [List.mem_cons, not_or] at h
      rw [indices, if_neg (Ne.symm h.1), ih h.2]

theorem takeWhile_append_of_head {b : List Char} (h : ∀ c, b.head? = some c → c.isDigit = false) (a : List Char) :
    (a ++ b).takeWhile Char.isDigit = a.takeWhile Char.isDigit := by
  induction a with
  | nil =>
      cases b with
      | nil => rfl
      | cons c b => exact List.takeWhile_cons_of_neg (by simp [h c rfl])
  | cons c a ih => rw [List.cons_append, List.takeWhile_cons, List.takeWhile_cons, ih]

/-- Texts are read one after the other, if the second one does not go on with digits. -/
theorem indices_append {b : List Char} (h : ∀ c, b.head? = some c → c.isDigit = false) (a : List Char) :
    indices (a ++ b) = indices a ++ indices b := by
  induction a with
  | nil => rfl
  | cons c a ih =>
      rw [List.cons_append, indices, indices, ih, takeWhile_append_of_head h]
      split
      · rfl
      · rfl

theorem indices_append_of_notMem {a : List Char} (h : '$' ∉ a) (b : List Char) : indices (a ++ b) = indices b := by
  induction a with
  | nil => rfl
  | cons c a ih =>
      rw [List.mem_cons, not_or] at h
      rw [List.cons_append, indices, if_neg (Ne.symm h.1), ih h.2]

theorem isDigit_of_mem_toDigits {n : ℕ} {c : Char} (h : c ∈ Nat.toDigits 10 n) : c.isDigit = true :=
  Nat.isDigit_of_mem_toDigits (by decide) (by decide) h

theorem indices_placeholder (n : ℕ) : indices (placeholder n) = [n] := by
  have hdollar : '$' ∉ Nat.toDigits 10 n := fun h => absurd (isDigit_of_mem_toDigits h) (by decide)
  rw [placeholder, indices, if_pos rfl, List.takeWhile_eq_self_iff.mpr fun c => isDigit_of_mem_toDigits,
    Nat.ofDigitChars_ten_toDigits, indices_of_notMem hdollar]

/-- Texts with a separator that has no placeholder and does not begin with a digit. -/
theorem indices_intercalate {c : Char} {sep : List Char} (hdigit : c.isDigit = false) (hsep : '$' ∉ c :: sep)
    (texts : List (List Char)) : indices ((c :: sep).intercalate texts) = texts.flatMap indices := by
  induction texts with
  | nil => rfl
  | cons a texts ih =>
      cases texts with
      | nil => simp
      | cons b texts =>
          have hrest : ∀ d, (c :: sep ++ (c :: sep).intercalate (b :: texts)).head? = some d → d.isDigit = false :=
            fun d hd => Option.some.inj hd ▸ hdigit
          rw [List.intercalate_cons_cons, List.append_assoc, indices_append hrest, indices_append_of_notMem hsep, ih]
          rfl

end Mokosh.Placeholders
