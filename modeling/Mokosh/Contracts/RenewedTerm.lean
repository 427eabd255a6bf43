import Mokosh.Contracts.Months
import Mokosh.Contracts.Renewal

/-! # The length of a renewed term

`expire_due_contracts` keeps no term length.  For a contract without renewal terms it takes the difference of the
months of the first and the last day, so a term that fills whole calendar months counts one month less than it has
(`monthsBetween_term`).  A single month is rescued by the `max(1)`; any longer term that begins on the first of a month
loses a month with each renewal (**`renewal_keeps_term_iff`**). -/

namespace Mokosh

/-- The term of the contract is exactly `n` months: it ends the day before the date `n` months after its start. -/
def HasTerm (n : ℕ) (c : Contract) : Prop :=
  ∃ next stop, c.startDate.checkedAddMonths n = some next ∧ next.predOpt = some stop ∧ c.endDate = some stop

theorem monthsBetween_eq (start stop : NaiveDate) :
    monthsBetween start stop = (stop.monthIndex - start.monthIndex).toNat := by
  unfold monthsBetween NaiveDate.monthIndex
  congr 1
  ring

section Term

variable {n : ℕ} {start next stop : NaiveDate}

/-- The months the sweep derives: one too few for a term that begins on the first of a month. -/
theorem monthsBetween_term (hnext : start.checkedAddMonths n = some next) (hstop : next.predOpt = some stop) :
    monthsBetween start stop = if start.day = 1 then n - 1 else n := by
  obtain ⟨hm, hd⟩ := NaiveDate.checkedAddMonths_eq_some.mp hnext
  have hday := start.day_mem'
  have hlen := monthLength_mem (start.monthIndex + n)
  rw [monthsBetween_eq]
  obtain ⟨h1, h2⟩ | ⟨h1, h2, h3⟩ := NaiveDate.predOpt_spec hstop
  · have hs := stop.day_mem'
    rw [if_neg (by omega)]
    omega
  · rw [if_pos (by omega)]
    omega

/-- A term that fits into the calendar is what the sweep writes for its length. -/
theorem renewedEnd_eq (hnext : start.checkedAddMonths n = some next) (hstop : next.predOpt = some stop) :
    renewedEnd start n = stop := by
  unfold renewedEnd
  rw [hnext, Option.bind_some, hstop, Option.getD_some]

theorem exists_term (start : NaiveDate) (hn : 0 < n) (h : start.monthIndex + n ≤ lastMonth) :
    ∃ next stop, start.checkedAddMonths n = some next ∧ next.predOpt = some stop := by
  obtain ⟨next, hnext⟩ := NaiveDate.exists_checkedAddMonths h
  obtain ⟨stop, hstop⟩ := NaiveDate.exists_predOpt (NaiveDate.lt_of_checkedAddMonths hn hnext)
  exact ⟨next, stop, hnext, hstop⟩

end Term

/-! ### One renewal -/

variable {terms : Uuid → RenewalTerms} {c : Contract} {n : ℕ}

/-- A contract that renews for as long as the term that ends. -/
structure RenewsAlike (terms : Uuid → RenewalTerms) (c : Contract) : Prop where
  autoRenew : (terms c.id).autoRenew = some true
  noTerms : (terms c.id).termMonths = none

theorem closeTerm_startDate (h : RenewsAlike terms c) {next stop : NaiveDate} (hstop : next.predOpt = some stop)
    (hend : c.endDate = some stop) :
    (closeTerm terms c).startDate = next ∧
      (closeTerm terms c).endDate = some (renewedEnd next (max (monthsBetween c.startDate stop) 1)) := by
  have hstart : renewedStart stop = next := by rw [renewedStart, NaiveDate.succOpt_predOpt hstop, Option.getD_some]
  simp only [closeTerm, hend, h.autoRenew, Option.getD_some, if_true, Contract.renew, hstart, RenewalTerms.months,
    h.noTerms, and_self]

/-- A renewal keeps a term of whole months exactly if it is a single month or does not begin on the first. -/
theorem hasTerm_closeTerm_iff (h : RenewsAlike terms c) (hn : 0 < n) (hterm : HasTerm n c)
    (hfit : c.startDate.monthIndex + (2 * n : ℕ) ≤ lastMonth) :
    HasTerm n (closeTerm terms c) ↔ n = 1 ∨ c.startDate.day ≠ 1 := by
  obtain ⟨next, stop, hnext, hstop, hend⟩ := hterm
  obtain ⟨hs, he⟩ := closeTerm_startDate h hstop hend
  obtain ⟨hm, hd⟩ := NaiveDate.checkedAddMonths_eq_some.mp hnext
  have hlen := monthLength_mem (c.startDate.monthIndex + n)
  have hday := c.startDate.day_mem'
  rw [monthsBetween_term hnext hstop] at he
  by_cases hfirst : n = 1 ∨ c.startDate.day ≠ 1
  · obtain ⟨next', stop', hnext', hstop'⟩ := exists_term next hn (by omega)
    have hmonths : max (if c.startDate.day = 1 then n - 1 else n) 1 = n := by
      split <;> omega
    rw [hmonths, renewedEnd_eq hnext' hstop'] at he
    exact iff_of_true ⟨next', stop', hs ▸ hnext', hstop', he⟩ hfirst
  · push Not at hfirst
    -- The month that is missing: the new term ends in the month before the one it should end in.
    obtain ⟨next', stop', hnext', hstop'⟩ := exists_term (n := n - 1) next (by omega) (by omega)
    have hmonths : max (if c.startDate.day = 1 then n - 1 else n) 1 = n - 1 := by
      rw [if_pos hfirst.2]
      omega
    rw [hmonths, renewedEnd_eq hnext' hstop'] at he
    refine iff_of_false ?_ (by omega)
    rintro ⟨next'', stop'', hnext'', hstop'', he'⟩
    rw [he, Option.some.injEq] at he'
    subst he'
    rw [hs] at hnext''
    have hsame := NaiveDate.succOpt_predOpt hstop'
    rw [NaiveDate.succOpt_predOpt hstop'', Option.some.injEq] at hsame
    subst hsame
    have h1 := (NaiveDate.checkedAddMonths_eq_some.mp hnext').1
    have h2 := (NaiveDate.checkedAddMonths_eq_some.mp hnext'').1
    omega

/-! ### One renewal after another -/

/-- The contract after a renewal, set back to `active` by `update_contract` so that the sweep takes it up again. -/
def nextTerm (terms : Uuid → RenewalTerms) (c : Contract) : Contract := { closeTerm terms c with status := .active }

/-- The contract after so many renewals. -/
def termAt (terms : Uuid → RenewalTerms) (c : Contract) : ℕ → Contract
  | 0 => c
  | k + 1 => nextTerm terms (termAt terms c k)

/-- Wherever the contract is when its term is over, the sweep gives it a term of `n` months that begins the day
after. -/
def RenewsFor (terms : Uuid → RenewalTerms) (n : ℕ) (c : Contract) : Prop :=
  ∀ (t : Table Contract.id) (today stop : NaiveDate), c ∈ t → c.endDate = some stop → stop < today →
    ∃ c', (expireDueContracts terms t today).contracts.find c.id = some c' ∧
      stop.succOpt = some c'.startDate ∧ HasTerm n c'

/-- A contract that renews alike, is active and has a term of `n` months. -/
structure TermContract (terms : Uuid → RenewalTerms) (n : ℕ) (c : Contract) : Prop extends RenewsAlike terms c where
  active : c.status = .active
  term : HasTerm n c
  pos : 0 < n

/-- The sweep renews the contract for its term exactly if closing the term does. -/
theorem renewsFor_iff (h : TermContract terms n c) : RenewsFor terms n c ↔ HasTerm n (closeTerm terms c) := by
  obtain ⟨next, stop, hnext, hstop, hend⟩ := h.term
  have hlt := NaiveDate.predOpt_lt hstop
  obtain ⟨hs, -⟩ := closeTerm_startDate h.toRenewsAlike hstop hend
  -- What the sweep makes of the row.
  have hsweep : ∀ (t : Table Contract.id) (today : NaiveDate), c ∈ t → stop < today →
      (expireDueContracts terms t today).contracts.find c.id = some (closeTerm terms c) := by
    intro t today hc htoday
    have hdue : sweepDue today c = true := sweepDue_iff.mpr ⟨h.active, stop, hend, htoday⟩
    have hm : sweepRow terms today c ∈ t.map (sweepRow terms today) (sweepRow_id terms today) :=
      Table.mem_map.mpr ⟨c, hc, rfl⟩
    have hfind := Table.find_key hm
    rwa [sweepRow_id, sweepRow, if_pos hdue, ← expireDueContracts_contracts] at hfind
  constructor
  · intro hall
    -- The table of this contract alone.
    have hmem : c ∈ (⟨[c], c.id + 1, by simp, by simp⟩ : Table Contract.id) := List.mem_singleton_self c
    obtain ⟨c', hc', -, hterm⟩ := hall _ next stop hmem hend hlt
    rw [hsweep _ next hmem hlt, Option.some.injEq] at hc'
    exact hc' ▸ hterm
  · intro hterm t today stop' hc hend' htoday
    rw [hend, Option.some.injEq] at hend'
    subst hend'
    exact ⟨_, hsweep t today hc htoday, by rw [hs, NaiveDate.succOpt_predOpt hstop], hterm⟩

/-- After a renewal that keeps the term the contract can be renewed again, `n` months further. -/
theorem TermContract.nextTerm (h : TermContract terms n c) (hterm : HasTerm n (closeTerm terms c)) :
    TermContract terms n (nextTerm terms c) ∧
      (nextTerm terms c).startDate.monthIndex = c.startDate.monthIndex + n ∧
      ((nextTerm terms c).startDate.day = 1 ↔ c.startDate.day = 1) := by
  obtain ⟨next, stop, hnext, hstop, hend⟩ := h.term
  obtain ⟨hs, -⟩ := closeTerm_startDate h.toRenewsAlike hstop hend
  obtain ⟨hm, hd⟩ := NaiveDate.checkedAddMonths_eq_some.mp hnext
  have hlen := monthLength_mem (c.startDate.monthIndex + n)
  have hid : (Mokosh.nextTerm terms c).id = c.id := closeTerm_id terms c
  have hs' : (Mokosh.nextTerm terms c).startDate = next := hs
  refine ⟨⟨⟨?_, ?_⟩, rfl, hterm, h.pos⟩, ?_, ?_⟩
  · rw [hid]
    exact h.autoRenew
  · rw [hid]
    exact h.noTerms
  · rw [hs', hm]
  · rw [hs', hd]
    have hday := c.startDate.day_mem'
    omega

/-- A term that renewals keep stays one, renewal after renewal. -/
theorem TermContract.termAt (h : TermContract terms n c) (hkeep : n = 1 ∨ c.startDate.day ≠ 1) {k : ℕ}
    (hfit : c.startDate.monthIndex + ((k + 1) * n : ℕ) ≤ lastMonth) :
    TermContract terms n (termAt terms c k) ∧
      (Mokosh.termAt terms c k).startDate.monthIndex = c.startDate.monthIndex + (k * n : ℕ) ∧
      (n = 1 ∨ (Mokosh.termAt terms c k).startDate.day ≠ 1) := by
  induction k with
  | zero => exact ⟨h, by simp [Mokosh.termAt], hkeep⟩
  | succ k ih =>
      have hsplit : (k + 1 + 1) * n = (k + 1) * n + n := Nat.succ_mul _ _
      have hsplit' : (k + 1) * n = k * n + n := Nat.succ_mul _ _
      obtain ⟨hk, hm, hfirst⟩ := ih (by omega)
      obtain ⟨hnext, hm', hfirst'⟩ :=
        hk.nextTerm ((hasTerm_closeTerm_iff hk.toRenewsAlike hk.pos hk.term (by omega)).mpr hfirst)
      refine ⟨hnext, ?_, ?_⟩
      · rw [Mokosh.termAt, hm', hm]
        omega
      · rw [Mokosh.termAt]
        omega

/-- **Renewals that keep the term.**  Every renewal of a contract whose term is `n` months gives it `n` months again,
from the day after the old end, as far as the calendar goes, exactly if the term is a single month or does not begin
on the first of a month. -/
theorem renewal_keeps_term_iff (h : TermContract terms n c)
    (hfit : c.startDate.monthIndex + (2 * n : ℕ) ≤ lastMonth) :
    (∀ k, c.startDate.monthIndex + ((k + 2) * n : ℕ) ≤ lastMonth → RenewsFor terms n (termAt terms c k)) ↔
      n = 1 ∨ c.startDate.day ≠ 1 := by
  have hone := hasTerm_closeTerm_iff h.toRenewsAlike h.pos h.term hfit
  constructor
  · intro hall
    rw [← hone, ← renewsFor_iff h]
    apply hall 0
    rwa [zero_add]
  · intro hkeep k hk
    have hsplit : (k + 2) * n = (k + 1) * n + n := Nat.succ_mul _ _
    have hsplit' : (k + 1) * n = k * n + n := Nat.succ_mul _ _
    obtain ⟨hterm, hm, hfirst⟩ := h.termAt hkeep (k := k) (by omega)
    rw [renewsFor_iff hterm]
    exact (hasTerm_closeTerm_iff hterm.toRenewsAlike hterm.pos hterm.term (by omega)).mpr hfirst

/-! ### A year from January to December -/

def yearStart : NaiveDate := (NaiveDate.fromYmdOpt 2024 1 1).get (by decide)
def yearEnd : NaiveDate := (NaiveDate.fromYmdOpt 2024 12 31).get (by decide)

/-- Twelve months from a day. -/
def yearContract (start stop : NaiveDate) : Contract :=
  { id := 0, companyId := 7, status := .active, startDate := start, endDate := some stop, billingCycle := none }

def renewsAlike : Uuid → RenewalTerms := fun _ => { autoRenew := some true, termMonths := none }

theorem termContract_year {start stop : NaiveDate} (next : NaiveDate) (hnext : start.checkedAddMonths 12 = some next)
    (hstop : next.predOpt = some stop) : TermContract renewsAlike 12 (yearContract start stop) :=
  ⟨⟨rfl, rfl⟩, rfl, ⟨next, stop, hnext, hstop, rfl⟩, by decide⟩

/-- A year that ends with December is renewed for eleven months. -/
theorem calendar_year_shrinks :
    TermContract renewsAlike 12 (yearContract yearStart yearEnd) ∧
      ¬ RenewsFor renewsAlike 12 (yearContract yearStart yearEnd) ∧
      (closeTerm renewsAlike (yearContract yearStart yearEnd)).endDate =
        some ⟨2025, 11, 30, by decide, by decide, by decide⟩ := by
  have h : TermContract renewsAlike 12 (yearContract yearStart yearEnd) :=
    termContract_year ⟨2025, 1, 1, by decide, by decide, by decide⟩ (by decide +kernel) (by decide +kernel)
  refine ⟨h, ?_, by decide +kernel⟩
  rw [renewsFor_iff h, hasTerm_closeTerm_iff h.toRenewsAlike h.pos h.term (by decide +kernel)]
  decide

/-- A year from the middle of January is renewed for a year, a thousand times. -/
theorem renewal_keeps_term_january :
    RenewsFor renewsAlike 12 (termAt renewsAlike
      (yearContract ⟨2024, 1, 15, by decide, by decide, by decide⟩ ⟨2025, 1, 14, by decide, by decide, by decide⟩)
      1000) :=
  (renewal_keeps_term_iff (termContract_year ⟨2025, 1, 15, by decide, by decide, by decide⟩
    (by decide +kernel) (by decide +kernel)) (by decide +kernel)).mpr (.inr (by decide)) 1000 (by decide +kernel)

end Mokosh
