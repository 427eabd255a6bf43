import Mathlib.Data.List.DropRight
import Mathlib.Tactic.Common

/-! # Text as a list of characters

`str::trim`, which removes the white space of Unicode at both ends. -/

namespace Mokosh.Text

def isWhiteSpace (c : Char) : Bool :=
  let n := c.toNat
  9 ≤ n ∧ n ≤ 13 ∨ n = 32 ∨ n = 0x85 ∨ n = 0xA0 ∨ n = 0x1680 ∨ 0x2000 ≤ n ∧ n ≤ 0x200A ∨ n = 0x2028 ∨
    n = 0x2029 ∨ n = 0x202F ∨ n = 0x205F ∨ n = 0x3000

def trim (s : List Char) : List Char := (s.dropWhile isWhiteSpace).rdropWhile isWhiteSpace

theorem trim_eq_self {s : List Char} (h : ∀ c ∈ s, isWhiteSpace c = false) : trim s = s := by
  have hdrop : s.dropWhile isWhiteSpace = s := by
    cases s with
    | nil => rfl
    | cons c s => exact List.dropWhile_cons_of_neg (by simp [h c List.mem_cons_self])
  unfold trim
  rw [hdrop, List.rdropWhile_eq_self_iff]
  intro hne
  rw [h _ (List.getLast_mem hne)]
  exact Bool.false_ne_true

end Mokosh.Text
