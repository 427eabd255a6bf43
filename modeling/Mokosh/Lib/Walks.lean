import Mathlib.Algebra.BigOperators.Group.List.Basic
import Mathlib.Algebra.Ring.Nat
import Mathlib.Data.List.Flatten

/-! # Walks of a graph, counted

A graph is the list of its edges, of any type `ε` with a `source` and a `target`; a walk may use an edge more than once.

* `count` is how many walks of a given length lead from one vertex to another; they can be counted from either end
  (`count_succ_last`), and backwards they are those of the graph turned round (`count_swap`).
* `level` joins the edges round by round, as a recursive `UNION ALL` query does; `countP_level` says how often it
  comes upon an edge.
* `unionAll` is such a query, for any step. -/

namespace Mokosh.Walks

variable {ε α ρ : Type}

/-! ### Recursive queries -/

/-- The rows of `rounds` rounds, the first of which is `rows`. -/
def unionAll (step : List ρ → List ρ) : ℕ → List ρ → List ρ
  | 0, _ => []
  | rounds + 1, rows => rows ++ unionAll step rounds (step rows)

/-- What the rounds hold together. -/
theorem countP_unionAll (step : List ρ → List ρ) (p : ρ → Bool) (rounds : ℕ) (rows : List ρ) :
    (unionAll step rounds rows).countP p = ((List.range rounds).map fun k => (step^[k] rows).countP p).sum := by
  induction rounds generalizing rows with
  | zero => rfl
  | succ rounds ih =>
      unfold unionAll
      rw [List.countP_append, ih, List.range_succ_eq_map, List.map_cons, List.map_map, List.sum_cons]
      rfl

/-! ### Counting -/

variable [DecidableEq α] (source target : ε → α) (g : List ε)

/-- How many walks of `n` edges lead from `a` to `b`. -/
def count : ℕ → α → α → ℕ
  | 0, a, b => if a = b then 1 else 0
  | n + 1, a, b => (g.map fun e => if source e = a then count n (target e) b else 0).sum

/-- The last edges of the walks of `n + 1` edges from `root`. -/
def level (root : α) : ℕ → List ε
  | 0 => g.filter fun e => source e = root
  | n + 1 => g.flatMap fun e => ((level root n).filter fun d => source e = target d).map fun _ => e

variable {source target g}

omit [DecidableEq α] in
theorem sum_comm {β γ : Type} (l : List β) (l' : List γ) (f : β → γ → ℕ) :
    (l.map fun b => (l'.map fun c => f b c).sum).sum = (l'.map fun c => (l.map fun b => f b c).sum).sum := by
  induction l with
  | nil => simp
  | cons b l ih => rw [List.map_cons, List.sum_cons, ih, ← List.sum_map_add]; rfl

omit [DecidableEq α] in
theorem ite_sum {β : Type} (c : Prop) [Decidable c] (l : List β) (f : β → ℕ) :
    (if c then (l.map f).sum else 0) = (l.map fun b => if c then f b else 0).sum := by
  split
  · rfl
  · simp

omit [DecidableEq α] in
theorem countP_eq_sum {β : Type} (p : β → Bool) (l : List β) :
    l.countP p = (l.map fun b => if p b then 1 else 0).sum := by
  induction l with
  | nil => rfl
  | cons b l ih => rw [List.countP_cons, ih, List.map_cons, List.sum_cons, Nat.add_comm]

theorem count_succ (n : ℕ) (a b : α) : count source target g (n + 1) a b =
    (g.map fun e => if source e = a then count source target g n (target e) b else 0).sum := rfl

/-- A walk, with its last edge taken off. -/
theorem count_succ_last (n : ℕ) (a b : α) : count source target g (n + 1) a b =
    (g.map fun e => if target e = b then count source target g n a (source e) else 0).sum := by
  induction n generalizing a with
  | zero =>
      refine congrArg List.sum (List.map_congr_left fun e _ => ?_)
      unfold count
      by_cases ha : source e = a
      · rw [if_pos ha, if_pos ha.symm]
      · rw [if_neg ha, if_neg (Ne.symm ha), ite_self]
  | succ n ih =>
      -- Of a walk with both ends taken off it does not matter which end comes first.
      calc count source target g (n + 2) a b
          = (g.map fun e => (g.map fun f => if source e = a then if target f = b then
              count source target g n (target e) (source f) else 0 else 0).sum).sum := by
            refine congrArg List.sum (List.map_congr_left fun e _ => ?_)
            rw [ih, ite_sum]
        _ = (g.map fun f => (g.map fun e => if source e = a then if target f = b then
              count source target g n (target e) (source f) else 0 else 0).sum).sum := sum_comm ..
        _ = (g.map fun f => if target f = b then count source target g (n + 1) a (source f) else 0).sum := by
            refine congrArg List.sum (List.map_congr_left fun f _ => ?_)
            rw [count_succ, ite_sum]
            refine congrArg List.sum (List.map_congr_left fun e _ => ?_)
            by_cases ha : source e = a
            · rw [if_pos ha, if_pos ha]
            · rw [if_neg ha, if_neg ha, ite_self]

/-- Turned round, the walks lead back. -/
theorem count_swap (n : ℕ) (a b : α) : count target source g n b a = count source target g n a b := by
  induction n generalizing a b with
  | zero => exact if_congr eq_comm rfl rfl
  | succ n ih =>
      rw [count_succ_last, count_succ]
      refine congrArg List.sum (List.map_congr_left fun e _ => ?_)
      rw [ih]

theorem level_succ (root : α) (n : ℕ) : level source target g root (n + 1) =
    g.flatMap fun e => ((level source target g root n).filter fun d => source e = target d).map fun _ => e := rfl

/-- How often the `n`-th round comes upon edges of a kind: as often as walks lead to where they start. -/
theorem countP_level (root : α) (n : ℕ) (p : ε → Bool) : (level source target g root n).countP p =
    (g.map fun e => if p e then count source target g n root (source e) else 0).sum := by
  induction n generalizing p with
  | zero =>
      unfold level
      rw [List.countP_filter, countP_eq_sum]
      refine congrArg List.sum (List.map_congr_left fun e _ => ?_)
      unfold count
      cases p e with
      | false => rfl
      | true =>
          rw [Bool.true_and, if_pos rfl]
          exact if_congr (decide_eq_true_iff.trans eq_comm) rfl rfl
  | succ n ih =>
      rw [level_succ, List.countP_flatMap]
      refine congrArg List.sum (List.map_congr_left fun e _ => ?_)
      have hround : ((level source target g root n).filter fun d => source e = target d).length =
          count source target g (n + 1) root (source e) := by
        rw [← List.countP_eq_length_filter, ih, count_succ_last]
        refine congrArg List.sum (List.map_congr_left fun d _ => ?_)
        exact if_congr (decide_eq_true_iff.trans eq_comm) rfl rfl
      rw [Function.comp_apply, List.countP_map, ← hround]
      cases hp : p e with
      | false =>
          rw [if_neg Bool.false_ne_true]
          exact List.countP_eq_zero.mpr fun d _ => by simp [hp]
      | true =>
          rw [if_pos rfl]
          exact List.countP_eq_length.mpr fun d _ => hp

/-- A walk of `n + 1` edges from `root` to `b` is one that a round comes upon. -/
theorem countP_level_target (root : α) (n : ℕ) (b : α) :
    (level source target g root n).countP (fun e => target e = b) = count source target g (n + 1) root b := by
  rw [countP_level, count_succ_last]
  refine congrArg List.sum (List.map_congr_left fun e _ => ?_)
  exact if_congr decide_eq_true_iff rfl rfl

end Mokosh.Walks
