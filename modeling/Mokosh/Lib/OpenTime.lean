import Mathlib.Data.Int.Interval
import Mathlib.Data.Set.Card
import Mathlib.Order.Interval.Finset.Basic
import Mathlib.Tactic.Common

/-! # Counted time

Some of the instants count and the others do not.  `measure Counts a b` is how many count between `a` and `b`.  A budget
that is spent one instant at a time, from a start on and only in instants that count, is used up at an instant that
`IsDue` describes: the first at which the measure is the budget.

A clock that walks from one boundary to the next finds it by three rules: time that does not count may be skipped
(`isDue_skip_iff`), time that counts is paid for (`IsDue.consume`), and the rest of the budget ends within such time
(`isDue_of_counts`).  What is due comes no earlier for a later start (`IsDue.mono_start`) or a larger budget
(`IsDue.mono_budget`), and two budgets one after the other are their sum (`IsDue.trans`). -/

namespace Mokosh.OpenTime

variable {Counts : ℤ → Prop}

/-- How many of the instants from `a` on and before `b` count. -/
noncomputable def measure (Counts : ℤ → Prop) (a b : ℤ) : ℤ := {t : ℤ | a ≤ t ∧ t < b ∧ Counts t}.ncard

/-- The budget is used up at `due`, and not before. -/
structure IsDue (Counts : ℤ → Prop) (start budget due : ℤ) : Prop where
  measured : measure Counts start due = budget
  least : ∀ t, measure Counts start t = budget → due ≤ t

/-! ### The measure -/

section Measure

variable {a b c : ℤ}

theorem finite_counted (Counts : ℤ → Prop) (a b : ℤ) : {t : ℤ | a ≤ t ∧ t < b ∧ Counts t}.Finite :=
  (Set.finite_Ico a b).subset fun _ h => ⟨h.1, h.2.1⟩

theorem measure_add (hab : a ≤ b) (hbc : b ≤ c) :
    measure Counts a c = measure Counts a b + measure Counts b c := by
  have hunion : {t : ℤ | a ≤ t ∧ t < c ∧ Counts t} =
      {t : ℤ | a ≤ t ∧ t < b ∧ Counts t} ∪ {t : ℤ | b ≤ t ∧ t < c ∧ Counts t} := by
    ext t
    have hcut : a ≤ t ∧ t < c ↔ (a ≤ t ∧ t < b) ∨ (b ≤ t ∧ t < c) := by omega
    simp only [Set.mem_union, Set.mem_ofPred_eq, ← and_assoc, ← or_and_right, hcut]
  have hdisjoint : Disjoint {t : ℤ | a ≤ t ∧ t < b ∧ Counts t} {t : ℤ | b ≤ t ∧ t < c ∧ Counts t} :=
    Set.disjoint_left.mpr fun t h h' => absurd h.2.1 (not_lt.mpr h'.1)
  unfold measure
  rw [hunion, Set.ncard_union_eq hdisjoint (finite_counted Counts a b) (finite_counted Counts b c), Nat.cast_add]

theorem measure_nonneg : 0 ≤ measure Counts a b := Int.natCast_nonneg _

/-- Where no instant counts the measure is zero. -/
theorem measure_of_none (h : ∀ t, a ≤ t → t < b → ¬ Counts t) : measure Counts a b = 0 := by
  have hempty : {t : ℤ | a ≤ t ∧ t < b ∧ Counts t} = ∅ :=
    Set.eq_empty_of_forall_notMem fun t ht => h t ht.1 ht.2.1 ht.2.2
  unfold measure
  rw [hempty, Set.ncard_empty, Nat.cast_zero]

theorem measure_of_le (h : b ≤ a) : measure Counts a b = 0 :=
  measure_of_none fun _ hat htb => absurd (hat.trans_lt htb) (not_lt.mpr h)

theorem ncard_interval (h : a ≤ b) : ({t : ℤ | a ≤ t ∧ t < b}.ncard : ℤ) = b - a := by
  have hico : {t : ℤ | a ≤ t ∧ t < b} = ↑(Finset.Ico a b) := (Finset.coe_Ico a b).symm
  rw [hico, Set.ncard_coe_finset, Int.card_Ico, Int.toNat_of_nonneg (by omega)]

theorem measure_le (h : a ≤ b) : measure Counts a b ≤ b - a := by
  have hsubset : {t : ℤ | a ≤ t ∧ t < b ∧ Counts t} ⊆ {t : ℤ | a ≤ t ∧ t < b} := fun t ht => ⟨ht.1, ht.2.1⟩
  rw [← ncard_interval h]
  exact Int.ofNat_le.mpr (Set.ncard_le_ncard hsubset (Set.finite_Ico a b))

/-- Where every instant counts the measure is the length. -/
theorem measure_of_all (hab : a ≤ b) (h : ∀ t, a ≤ t → t < b → Counts t) : measure Counts a b = b - a := by
  have hall : {t : ℤ | a ≤ t ∧ t < b ∧ Counts t} = {t : ℤ | a ≤ t ∧ t < b} := by
    ext t
    exact ⟨fun ht => ⟨ht.1, ht.2.1⟩, fun ht => ⟨ht.1, ht.2, h t ht.1 ht.2⟩⟩
  unfold measure
  rw [hall, ncard_interval hab]

theorem measure_pos_iff : 0 < measure Counts a b ↔ ∃ t, a ≤ t ∧ t < b ∧ Counts t := by
  unfold measure
  rw [Int.natCast_pos, Set.ncard_pos (finite_counted Counts a b)]
  rfl

theorem measure_mono_right (h : b ≤ c) : measure Counts a b ≤ measure Counts a c := by
  obtain hab | hba := le_total a b
  · have hadd := @measure_add Counts a b c hab h
    have hpos := @measure_nonneg Counts b c
    omega
  · rw [measure_of_le hba]
    exact measure_nonneg

theorem measure_mono_left (h : a ≤ b) : measure Counts b c ≤ measure Counts a c := by
  obtain hbc | hcb := le_total b c
  · have hadd := @measure_add Counts a b c h hbc
    have hpos := @measure_nonneg Counts a b
    omega
  · rw [measure_of_le hcb]
    exact measure_nonneg

/-- Time that does not count is not in the measure. -/
theorem measure_skip (hab : a ≤ b) (h : ∀ t, a ≤ t → t < b → ¬ Counts t) (c : ℤ) :
    measure Counts a c = measure Counts b c := by
  obtain hbc | hcb := le_total b c
  · rw [measure_add hab hbc, measure_of_none h, zero_add]
  · rw [measure_of_le hcb]
    exact measure_of_none fun t hat htc => h t hat (htc.trans_le hcb)

end Measure

/-! ### What is due -/

section Due

variable {s s' b b' d d' : ℤ}

theorem IsDue.unique (h : IsDue Counts s b d) (h' : IsDue Counts s b d') : d = d' :=
  le_antisymm (h.least d' h'.measured) (h'.least d h.measured)

theorem IsDue.lt (h : IsDue Counts s b d) (hb : 0 < b) : s < d := by
  by_contra hle
  have hzero := @measure_of_le Counts s d (not_lt.mp hle)
  have hmeasured := h.measured
  omega

theorem isDue_skip_iff (hle : s ≤ s') (h : ∀ t, s ≤ t → t < s' → ¬ Counts t) :
    IsDue Counts s b d ↔ IsDue Counts s' b d := by
  have hskip := measure_skip hle h
  constructor
  · intro hdue
    exact ⟨(hskip d).symm.trans hdue.measured, fun t ht => hdue.least t ((hskip t).trans ht)⟩
  · intro hdue
    exact ⟨(hskip d).trans hdue.measured, fun t ht => hdue.least t ((hskip t).symm.trans ht)⟩

theorem IsDue.consume (hdue : IsDue Counts s' (b - (s' - s)) d) (hle : s ≤ s')
    (hall : ∀ t, s ≤ t → t < s' → Counts t) (hb : s' - s < b) : IsDue Counts s b d := by
  have hlen := measure_of_all hle hall
  have hlt : s' < d := hdue.lt (by omega)
  refine ⟨?_, fun t ht => ?_⟩
  · have hsum := @measure_add Counts s s' d hle hlt.le
    have hmeasured := hdue.measured
    omega
  · -- The budget is not used up before `s'`.
    have hst : s' ≤ t := by
      by_contra hlt'
      have hmono := @measure_mono_right Counts s t s' (by omega)
      omega
    apply hdue.least
    have hsum := @measure_add Counts s s' t hle hst
    omega

theorem isDue_of_counts (hb : 0 < b) (hall : ∀ t, s ≤ t → t < s + b → Counts t) : IsDue Counts s b (s + b) := by
  refine ⟨?_, fun t ht => ?_⟩
  · have hlen := measure_of_all (by omega) hall
    omega
  · have hst : s ≤ t := by
      by_contra hlt
      have hzero := @measure_of_le Counts s t (by omega)
      omega
    have hle := @measure_le Counts s t hst
    omega

theorem IsDue.mono_start (h : IsDue Counts s b d) (h' : IsDue Counts s' b d') (hs : s ≤ s') : d ≤ d' := by
  by_contra hlt
  have hleft := @measure_mono_left Counts s s' d' hs
  have hright := @measure_mono_right Counts s d' d (by omega)
  have hmeasured := h.measured
  have hmeasured' := h'.measured
  exact hlt (h.least d' (by omega))

theorem IsDue.mono_budget (h : IsDue Counts s b d) (h' : IsDue Counts s b' d') (hb : b ≤ b') : d ≤ d' := by
  by_contra hlt
  have hright := @measure_mono_right Counts s d' d (by omega)
  have hmeasured := h.measured
  have hmeasured' := h'.measured
  exact hlt (h.least d' (by omega))

theorem IsDue.trans (h : IsDue Counts s b s') (h' : IsDue Counts s' b' d) (hb : 0 < b) (hb' : 0 < b') :
    IsDue Counts s (b + b') d := by
  have hs := (h.lt hb).le
  have hd := (h'.lt hb').le
  refine ⟨?_, fun t ht => ?_⟩
  · rw [measure_add hs hd, h.measured, h'.measured]
  · have hst : s' ≤ t := by
      by_contra hlt
      have hmono := @measure_mono_right Counts s t s' (by omega)
      have hmeasured := h.measured
      omega
    apply h'.least
    have hsum := @measure_add Counts s s' t hs hst
    have hmeasured := h.measured
    omega

/-- Of two starts the budget is used up at the same time if and only if no instant between them counts. -/
theorem isDue_iff_of_isDue (h : IsDue Counts s b d) (hs : s ≤ s') (hb : 0 < b) :
    IsDue Counts s' b d ↔ ∀ t, s ≤ t → t < s' → ¬ Counts t := by
  constructor
  · intro h' t hst hts hcounts
    have hpos := measure_pos_iff.mpr ⟨t, hst, hts, hcounts⟩
    have hsum := @measure_add Counts s s' d hs (h'.lt hb).le
    have hmeasured := h.measured
    have hmeasured' := h'.measured
    omega
  · exact fun hnone => (isDue_skip_iff hs hnone).mp h

end Due

end Mokosh.OpenTime
