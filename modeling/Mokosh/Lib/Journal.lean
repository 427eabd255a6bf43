import Mathlib.Algebra.BigOperators.Group.List.Basic
import Mathlib.Data.List.Sort
import Mathlib.Order.Defs.LinearOrder

/-! # Journals

A journal is a list of postings, each an amount on a day.  A balance is what is posted on the days
that a predicate selects (`posted`), and three kinds of days matter to an account: those before a
period, those within it and those up to its end.  What was posted up to the end of a period is what
was posted before it and what is posted within it (`through_eq`), and the balance before a period is
the one through the day that precedes it (`before_eq_through`).

A query that filters rows by a day and adds up a column reads such a balance
(`posted_map`, `posted_select`). -/

namespace Mokosh

/-- Amounts, each on a day. -/
abbrev Journal (D M : Type) := List (D × M)

namespace Journal

section Posted

variable {D M : Type} [AddCommGroup M] {p q : D → Bool} {J K : Journal D M}

/-- What is posted on the days that `p` selects. -/
def posted (p : D → Bool) (J : Journal D M) : M := ((J.filter fun x => p x.1).map Prod.snd).sum

/-- The postings with the other sign. -/
def negated (J : Journal D M) : Journal D M := J.map fun x => (x.1, -x.2)

theorem posted_append : posted p (J ++ K) = posted p J + posted p K := by
  rw [posted, List.filter_append, List.map_append, List.sum_append]
  rfl

theorem posted_cons (x : D × M) :
    posted p (x :: J) = (if p x.1 then x.2 else 0) + posted p J := by
  rw [posted, List.filter_cons]
  split
  · rfl
  · rw [zero_add]
    rfl

theorem posted_congr (h : ∀ x ∈ J, p x.1 = q x.1) : posted p J = posted q J := by
  rw [posted, List.filter_congr h]
  rfl

theorem posted_negated : posted p (negated J) = -posted p J := by
  induction J with
  | nil => simp [posted, negated]
  | cons x J ih =>
      have h := posted_cons (p := p) (J := negated J) (x.1, -x.2)
      rw [ih] at h
      rw [posted_cons, neg_add]
      refine h.trans ?_
      split <;> simp

/-- Days of two kinds that have no day in common. -/
theorem posted_or (h : ∀ d, p d = true → q d = false) :
    posted (fun d => p d || q d) J = posted p J + posted q J := by
  induction J with
  | nil => simp [posted]
  | cons x J ih =>
      rw [posted_cons, posted_cons, posted_cons, ih]
      cases hp : p x.1 with
      | true =>
          rw [h _ hp]
          simp [add_assoc]
      | false =>
          cases q x.1 <;> simp [add_left_comm]

/-- The total of a column over the rows of some days. -/
theorem posted_map {α : Type} (rows : List α) (date : α → D) (amount : α → M) :
    posted p (rows.map fun r => (date r, amount r)) =
      ((rows.filter fun r => p (date r)).map amount).sum := by
  rw [posted, List.filter_map, List.map_map]
  rfl

/-- The same under a condition of the query. -/
theorem posted_select {α : Type} (rows : List α) (cond : α → Bool) (date : α → D) (amount : α → M) :
    posted p ((rows.filter cond).map fun r => (date r, amount r)) =
      ((rows.filter fun r => cond r && p (date r)).map amount).sum := by
  rw [posted_map, List.filter_filter]
  refine congrArg (fun l => (l.map amount).sum) (List.filter_congr fun r _ => ?_)
  exact Bool.and_comm _ _

end Posted

/-- Sorting the rows does not change their total. -/
theorem sum_insertionSort {α M : Type} [AddCommMonoid M] (r : α → α → Prop) [DecidableRel r]
    (l : List α) (f : α → M) : ((l.insertionSort r).map f).sum = (l.map f).sum :=
  ((List.perm_insertionSort r l).map f).sum_eq

section Periods

variable {D M : Type} [LinearOrder D] [AddCommGroup M] {J : Journal D M} {s e : D}

/-- The balance before the day `s`. -/
def before (s : D) (J : Journal D M) : M := posted (fun d => decide (d < s)) J

/-- What is posted from the day `s` to the day `e`. -/
def within (s e : D) (J : Journal D M) : M := posted (fun d => decide (s ≤ d ∧ d ≤ e)) J

/-- The balance after the day `e`. -/
def through (e : D) (J : Journal D M) : M := posted (fun d => decide (d ≤ e)) J

/-- The balance is carried over a period. -/
theorem through_eq (h : s ≤ e) (J : Journal D M) : through e J = before s J + within s e J := by
  unfold before within
  rw [← posted_or]
  · refine posted_congr fun x _ => ?_
    rw [← Bool.decide_or, decide_eq_decide]
    constructor
    · intro hx
      exact (lt_or_ge x.1 s).imp_right fun h1 => ⟨h1, hx⟩
    · rintro (hx | hx)
      · exact (hx.trans_le h).le
      · exact hx.2
  · intro d hd
    rw [decide_eq_true_eq] at hd
    rw [decide_eq_false_iff_not]
    exact fun h1 => absurd hd (not_lt.mpr h1.1)

/-- The balance before a day is the one after the day that precedes it. -/
theorem before_eq_through (h : ∀ d, d < s ↔ d ≤ e) (J : Journal D M) : before s J = through e J :=
  posted_congr fun x _ => decide_eq_decide.mpr (h x.1)

end Periods

end Journal

end Mokosh
