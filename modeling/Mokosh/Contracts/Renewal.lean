import Mokosh.Contracts.Ledger
import Mokosh.TimeTracking.Entry
import Mathlib.Data.Finset.Order
import Mathlib.Data.List.Sort

/-! # Contracts that come to their end

`expire_due_contracts` of `contracts/service.rs`: the daily sweep over the contracts whose term is
over.  It drains a tenant batch by batch; each batch locks up to `expireBatch` due rows, writes
them and commits, until no row is due.

* A contract with `auto_renew` begins a new term the day after the old one ended, of
  `term_months` months or as long as the closing term.  The sweep stamps it `renewed`.
* Every other contract is stamped `expired`.

A row that is written is no longer `active`, so it is not due again and the loop ends: a sweep
closes the term of each due contract once (`expireDueContracts_contracts`).

Recurring invoices (`recurringDue`), the draw of prepaid hours (`coversWork`) and the sweep itself
(`sweepDue`) all read the rows that are `active`, and nothing makes a renewed contract active
again.  **`served_iff_not_renewed`**: a contract that is served on some day stays served, term after
term, exactly as long as no sweep runs after its end. -/

namespace Mokosh

/-- The columns of a contract that only the sweep reads. -/
structure RenewalTerms where
  autoRenew : Option Bool
  /-- `renewal_terms->>'term_months'`, when it is a number. -/
  termMonths : Option ℕ

/-- `months_between`. -/
def monthsBetween (start stop : NaiveDate) : ℕ :=
  ((stop.year - start.year) * 12 + ((stop.month : ℤ) - start.month)).toNat

namespace RenewalTerms

/-- The length of the new term: as agreed, else that of the closing term, at least a month. -/
def months (terms : RenewalTerms) (start stop : NaiveDate) : ℕ :=
  match terms.termMonths with
  | some m => m % 2 ^ 32
  | none => max (monthsBetween start stop) 1

end RenewalTerms

/-- The first day of the term after the one that ends at `stop`. -/
def renewedStart (stop : NaiveDate) : NaiveDate := stop.succOpt.getD stop

/-- The last day of a term of so many months. -/
def renewedEnd (start : NaiveDate) (months : ℕ) : NaiveDate :=
  ((start.checkedAddMonths months).bind NaiveDate.predOpt).getD start

/-- The `UPDATE` of a contract that renews. -/
def Contract.renew (terms : RenewalTerms) (startDate endDate : NaiveDate) (c : Contract) :
    Contract :=
  { c with
    status := .renewed
    startDate := renewedStart endDate
    endDate := some (renewedEnd (renewedStart endDate) (terms.months startDate endDate)) }

/-- The `UPDATE` of a contract that does not. -/
def Contract.expire (c : Contract) : Contract := { c with status := .expired }

/-- The contract's term is over. -/
def sweepDue (today : NaiveDate) (c : Contract) : Bool :=
  decide (c.status = .active) && c.endDate.any fun stop => decide (stop < today)

/-! ### The loop -/

def expireBatch : ℕ := 200

/-- The tables and the counters of a sweep. -/
structure Sweep where
  contracts : Table Contract.id
  renewed : ℕ
  expired : ℕ

variable (terms : Uuid → RenewalTerms)

/-- One row of a batch, as it was read. -/
def Sweep.close (r : Sweep) (c : Contract) : Sweep :=
  match c.endDate with
  | none => r
  | some endDate =>
    if (terms c.id).autoRenew.getD false then
      { contracts := r.contracts.update c.id (·.renew (terms c.id) c.startDate endDate)
        renewed := r.renewed + 1
        expired := r.expired }
    else
      { contracts := r.contracts.update c.id (·.expire)
        renewed := r.renewed
        expired := r.expired + 1 }

/-- The rows a batch locks. -/
def dueBatch (today : NaiveDate) (contracts : Table Contract.id) : List Contract :=
  ((contracts.rows.filter (sweepDue today)).insertionSort fun c d => c.id ≤ d.id).take expireBatch

/-- The loop over the batches. -/
def drain (today : NaiveDate) : ℕ → Sweep → Sweep
  | 0, r => r
  | fuel + 1, r =>
    let due := dueBatch today r.contracts
    if due.isEmpty then r else drain today fuel (due.foldl (Sweep.close terms) r)

/-- `ContractsService::expire_due_contracts` for one tenant, on its day. -/
def expireDueContracts (contracts : Table Contract.id) (today : NaiveDate) : Sweep :=
  drain terms today (contracts.rows.length + 1) ⟨contracts, 0, 0⟩

/-! ### A sweep closes every due contract once -/

/-- A contract after its term is closed. -/
def closeTerm (c : Contract) : Contract :=
  match c.endDate with
  | none => c
  | some endDate =>
    if (terms c.id).autoRenew.getD false then c.renew (terms c.id) c.startDate endDate
    else c.expire

@[simp] theorem closeTerm_id (c : Contract) : (closeTerm terms c).id = c.id := by
  unfold closeTerm
  split
  · rfl
  · split <;> rfl

/-- What a sweep does to a row. -/
def sweepRow (today : NaiveDate) (c : Contract) : Contract :=
  if sweepDue today c then closeTerm terms c else c

@[simp] theorem sweepRow_id (today : NaiveDate) (c : Contract) :
    (sweepRow terms today c).id = c.id := by
  unfold sweepRow
  split
  · exact closeTerm_id terms c
  · rfl

variable {terms} {today : NaiveDate}

theorem sweepDue_iff {c : Contract} :
    sweepDue today c = true ↔ c.status = .active ∧ ∃ stop, c.endDate = some stop ∧ stop < today := by
  unfold sweepDue
  cases c.endDate <;> simp

/-- A contract whose term was closed is not active. -/
theorem closeTerm_status {c : Contract} (h : sweepDue today c = true) :
    (closeTerm terms c).status ≠ .active := by
  obtain ⟨-, stop, hstop, -⟩ := sweepDue_iff.mp h
  simp only [closeTerm, hstop]
  split <;> simp [Contract.renew, Contract.expire]

theorem sweepDue_eq_false {c : Contract} (h : c.status ≠ .active) : sweepDue today c = false := by
  simp [sweepDue, h]

theorem sweepRow_of_not_active {c : Contract} (h : c.status ≠ .active) :
    sweepRow terms today c = c := by
  rw [sweepRow, sweepDue_eq_false h, if_neg (by simp)]

theorem close_contracts {r : Sweep} {c : Contract} (hc : c ∈ r.contracts)
    (hd : sweepDue today c = true) :
    (Sweep.close terms r c).contracts =
      r.contracts.update c.id (closeTerm terms) (closeTerm_id terms) := by
  obtain ⟨-, stop, hstop, -⟩ := sweepDue_iff.mp hd
  unfold Sweep.close
  simp only [hstop]
  split
  · next hr =>
    have h1 : c.renew (terms c.id) c.startDate stop = closeTerm terms c := by
      simp [closeTerm, hstop, hr]
    exact Table.update_congr hc h1 (fun _ => rfl) (closeTerm_id terms)
  · next hr =>
    have h1 : c.expire = closeTerm terms c := by simp [closeTerm, hstop, hr]
    exact Table.update_congr hc h1 (fun _ => rfl) (closeTerm_id terms)

/-- A batch closes the terms of its rows. -/
theorem foldl_close_contracts {due : List Contract} {r : Sweep} (hn : (due.map Contract.id).Nodup)
    (hmem : ∀ c ∈ due, c ∈ r.contracts) (hdue : ∀ c ∈ due, sweepDue today c = true) :
    (due.foldl (Sweep.close terms) r).contracts =
      r.contracts.map (fun c => if c ∈ due then closeTerm terms c else c)
        (by intro c; split <;> simp) := by
  induction due generalizing r with
  | nil =>
      refine Table.ext ?_ rfl
      simp [Table.map]
  | cons c due ih =>
      rw [List.map_cons, List.nodup_cons] at hn
      have hc := hmem c List.mem_cons_self
      have hstep : (Sweep.close terms r c).contracts =
          r.contracts.update c.id (closeTerm terms) (closeTerm_id terms) :=
        close_contracts hc (hdue c List.mem_cons_self)
      have hne : ∀ d ∈ due, d.id ≠ c.id := fun d hd he => hn.1 (he ▸ List.mem_map_of_mem hd)
      have hmem' : ∀ d ∈ due, d ∈ (Sweep.close terms r c).contracts := by
        intro d hd
        rw [hstep]
        exact (Table.mem_update_of_mem hc (closeTerm_id terms)).mpr
          (.inr ⟨hmem d (List.mem_cons_of_mem _ hd), hne d hd⟩)
      rw [List.foldl_cons, ih hn.2 hmem' fun d hd => hdue d (List.mem_cons_of_mem _ hd), hstep]
      refine Table.ext ?_ rfl
      simp only [Table.update, Table.map, List.map_map]
      apply List.map_congr_left
      intro x hx
      simp only [Function.comp_apply, List.mem_cons]
      by_cases hxc : x = c
      · -- The row that was just written is not one of those to come.
        subst hxc
        have h1 : closeTerm terms x ∉ due := fun h => hne _ h (closeTerm_id terms x)
        simp [h1]
      · have h1 : x.id ≠ c.id := fun h => hxc (Table.eq_of_key_eq hx hc h)
        simp [h1, hxc]

section Drain

variable (contracts : Table Contract.id)

theorem dueBatch_subset {c : Contract} (h : c ∈ dueBatch today contracts) :
    c ∈ contracts ∧ sweepDue today c = true := by
  have h1 := (List.perm_insertionSort _ _).mem_iff.mp (List.mem_of_mem_take h)
  exact List.mem_filter.mp h1

theorem dueBatch_nodup : ((dueBatch today contracts).map Contract.id).Nodup := by
  have h1 : ((contracts.rows.filter (sweepDue today)).map Contract.id).Nodup :=
    contracts.nodup.sublist (List.filter_sublist.map _)
  have h2 := ((List.perm_insertionSort (fun c d : Contract => c.id ≤ d.id)
    (contracts.rows.filter (sweepDue today))).map Contract.id).nodup_iff.mpr h1
  exact h2.sublist ((List.take_sublist _ _).map _)

/-- The loop stops only when nothing is due. -/
theorem dueBatch_eq_nil (h : dueBatch today contracts = []) {c : Contract} (hc : c ∈ contracts) :
    sweepDue today c = false := by
  by_contra hd
  have hm : c ∈ (contracts.rows.filter (sweepDue today)).insertionSort fun c d => c.id ≤ d.id :=
    (List.perm_insertionSort _ _).mem_iff.mpr (List.mem_filter.mpr ⟨hc, by simpa using hd⟩)
  cases hl : (contracts.rows.filter (sweepDue today)).insertionSort fun c d => c.id ≤ d.id with
  | nil =>
      rw [hl] at hm
      exact absurd hm List.not_mem_nil
  | cons d l =>
      rw [dueBatch, hl, expireBatch, List.take_succ_cons] at h
      exact absurd h (by simp)

end Drain

theorem countP_lt_countP {α : Type} {p q : α → Bool} {l : List α} {a : α}
    (h : ∀ x ∈ l, q x = true → p x = true) (ha : a ∈ l) (hp : p a = true) (hq : q a = false) :
    l.countP q < l.countP p := by
  induction l with
  | nil => exact absurd ha List.not_mem_nil
  | cons x l ih =>
      have hl : ∀ y ∈ l, q y = true → p y = true := fun y hy => h y (List.mem_cons_of_mem _ hy)
      rcases List.mem_cons.mp ha with rfl | ha
      · have h1 := List.countP_mono_left hl
        rw [List.countP_cons_of_pos hp, List.countP_cons_of_neg (by simp [hq])]
        omega
      · have h1 := ih hl ha
        have h2 := h x List.mem_cons_self
        simp only [List.countP_cons]
        cases hqx : q x with
        | false =>
            simp only [Bool.false_eq_true, if_false]
            split <;> omega
        | true =>
            simp only [h2 hqx, if_true]
            omega

/-- With a step for every row that is due, the loop closes the terms of all of them. -/
theorem drain_contracts {fuel : ℕ} {r : Sweep}
    (h : r.contracts.rows.countP (sweepDue today) < fuel) :
    (drain terms today fuel r).contracts =
      r.contracts.map (sweepRow terms today) (sweepRow_id terms today) := by
  induction fuel generalizing r with
  | zero => exact absurd h (Nat.not_lt_zero _)
  | succ fuel ih =>
      simp only [drain]
      split
      · next hnil =>
        have hnone := fun c hc => dueBatch_eq_nil r.contracts (List.isEmpty_iff.mp hnil) (c := c) hc
        refine Table.ext ?_ rfl
        show r.contracts.rows = r.contracts.rows.map (sweepRow terms today)
        rw [List.map_congr_left (g := id), List.map_id]
        intro c hc
        simp [sweepRow, hnone c hc]
      · next hne =>
        have hbatch : ((dueBatch today r.contracts).foldl (Sweep.close terms) r).contracts =
            r.contracts.map
              (fun c => if c ∈ dueBatch today r.contracts then closeTerm terms c else c) _ :=
          foldl_close_contracts (dueBatch_nodup r.contracts)
            (fun c hc => (dueBatch_subset r.contracts hc).1)
            (fun c hc => (dueBatch_subset r.contracts hc).2)
        obtain ⟨c, hc⟩ := List.exists_mem_of_ne_nil _ (mt List.isEmpty_iff.mpr hne)
        rw [ih, hbatch]
        · refine Table.ext ?_ rfl
          simp only [Table.map, List.map_map]
          apply List.map_congr_left
          intro x _
          simp only [Function.comp_apply]
          split
          · next hx =>
            -- A term that is closed is not closed again.
            have hd := (dueBatch_subset r.contracts hx).2
            rw [sweepRow_of_not_active (closeTerm_status hd), sweepRow, if_pos hd]
          · rfl
        · refine lt_of_lt_of_le ?_ (Nat.lt_succ_iff.mp h)
          rw [hbatch]
          show (r.contracts.rows.map _).countP _ < _
          rw [List.countP_map]
          refine countP_lt_countP (fun x _ hx => ?_) (dueBatch_subset r.contracts hc).1
            (dueBatch_subset r.contracts hc).2 ?_
          · simp only [Function.comp_apply] at hx
            split at hx
            · next hx' => exact (dueBatch_subset r.contracts hx').2
            · exact hx
          · have hd := (dueBatch_subset r.contracts hc).2
            simp [hc, sweepDue_eq_false (closeTerm_status hd)]

theorem expireDueContracts_contracts (contracts : Table Contract.id) :
    (expireDueContracts terms contracts today).contracts =
      contracts.map (sweepRow terms today) (sweepRow_id terms today) :=
  drain_contracts (Nat.lt_succ_of_le List.countP_le_length)

/-! ### Day after day -/

/-- The contracts after a sweep on each of the days. -/
def sweeps (terms : Uuid → RenewalTerms) (book : ContractBook) (days : List NaiveDate) :
    ContractBook :=
  { book with
    contracts := days.foldl (fun t today => (expireDueContracts terms t today).contracts)
      book.contracts }

/-- The candidates of `generate_due_recurring_invoices`. -/
def recurringDue (today : NaiveDate) (c : Contract) : Bool :=
  decide (c.status = .active ∧ c.billingCycle ≠ some .oneTime ∧ c.startDate ≤ today)

theorem dueRolls_eq (book : ContractBook) (today : NaiveDate) :
    dueRolls book today =
      ((book.contracts.rows.filter (recurringDue today)).mergeSort fun c d =>
        decide (c.id ≤ d.id)).filterMap (dueRoll today) := rfl

/-- A row of the table after the sweeps is the row before them, swept on each day. -/
theorem find_sweeps {book : ContractBook} {c : Contract} (hc : c ∈ book.contracts)
    (days : List NaiveDate) :
    (sweeps terms book days).contracts.find c.id =
      some (days.foldl (fun c today => sweepRow terms today c) c) := by
  have h : ∀ (t : Table Contract.id) (c : Contract), c ∈ t →
      (days.foldl (fun t today => (expireDueContracts terms t today).contracts) t).find c.id =
        some (days.foldl (fun c today => sweepRow terms today c) c) := by
    induction days with
    | nil => exact fun t c hc => Table.find_key hc
    | cons today days ih =>
        intro t c hc
        rw [List.foldl_cons, List.foldl_cons, expireDueContracts_contracts]
        have hm : sweepRow terms today c ∈
            t.map (sweepRow terms today) (sweepRow_id terms today) :=
          Table.mem_map.mpr ⟨c, hc, rfl⟩
        have h1 := ih _ _ hm
        rwa [sweepRow_id] at h1
  exact h _ c hc

/-- A contract that is not active is never swept again. -/
theorem foldl_sweepRow_of_not_active {c : Contract} (h : c.status ≠ .active)
    (days : List NaiveDate) : days.foldl (fun c today => sweepRow terms today c) c = c := by
  induction days with
  | nil => rfl
  | cons today days ih => rw [List.foldl_cons, sweepRow_of_not_active h, ih]

/-- As long as no sweep runs after its end, a contract stays as it is. -/
theorem foldl_sweepRow_of_covered {c : Contract} {days : List NaiveDate}
    (h : ∀ today ∈ days, ∀ stop, c.endDate = some stop → today ≤ stop) :
    days.foldl (fun c today => sweepRow terms today c) c = c := by
  induction days with
  | nil => rfl
  | cons today days ih =>
      rw [List.forall_mem_cons] at h
      have h1 : sweepDue today c = false := by
        rw [← Bool.not_eq_true, sweepDue_iff]
        rintro ⟨-, stop, hstop, hlt⟩
        exact absurd (h.1 stop hstop) (not_le.mpr hlt)
      rw [List.foldl_cons, sweepRow, h1, if_neg (by simp), ih h.2]

/-- One sweep after its end, and a contract is not active any more. -/
theorem foldl_sweepRow_status {c : Contract} {days : List NaiveDate} {today stop : NaiveDate}
    (hm : today ∈ days) (hstop : c.endDate = some stop) (hlt : stop < today) :
    (days.foldl (fun c today => sweepRow terms today c) c).status ≠ .active := by
  by_cases hact : c.status = .active
  · induction days generalizing c stop with
    | nil => exact absurd hm List.not_mem_nil
    | cons day days ih =>
        rw [List.foldl_cons]
        by_cases hd : sweepDue day c = true
        · have h1 : (sweepRow terms day c).status ≠ .active := by
            rw [sweepRow, if_pos hd]
            exact closeTerm_status hd
          rw [foldl_sweepRow_of_not_active h1]
          exact h1
        · have h1 : sweepRow terms day c = c := by rw [sweepRow, if_neg hd]
          rw [h1]
          rcases List.mem_cons.mp hm with rfl | hm
          · exact absurd (sweepDue_iff.mpr ⟨hact, stop, hstop, hlt⟩) hd
          · exact ih hm hstop hlt hact
  · rw [foldl_sweepRow_of_not_active hact]
    exact hact

/-- What a contract that is served from the day `since` on is owed on the day `t`, when it has
become `c'` of `book'`: up to its current end it is billed if it was and drawn on if it was, and
past its end the sweep takes it up. -/
def Served (book book' : ContractBook) (since t : NaiveDate) (c c' : Contract) : Prop :=
  ((∀ stop, c'.endDate = some stop → t ≤ stop) →
    (recurringDue since c = true → recurringDue t c' = true) ∧
      (coversWork book c.companyId since c = true →
        coversWork book' c'.companyId t c' = true)) ∧
    ∀ stop, c'.endDate = some stop → stop < t → sweepDue t c' = true

/-- A contract that renews and is billed or drawn on, or both, on the day `since`. -/
structure Renewing (terms : Uuid → RenewalTerms) (book : ContractBook) (since : NaiveDate)
    (c : Contract) : Prop where
  mem : c ∈ book.contracts
  autoRenew : (terms c.id).autoRenew = some true
  served : recurringDue since c = true ∨ coversWork book c.companyId since c = true

theorem Renewing.active {book : ContractBook} {since : NaiveDate} {c : Contract}
    (h : Renewing terms book since c) : c.status = .active ∧ c.startDate ≤ since := by
  rcases h.served with hs | hs
  · simp only [recurringDue, decide_eq_true_eq] at hs
    exact ⟨hs.1, hs.2.2⟩
  · simp only [coversWork, Bool.and_eq_true, decide_eq_true_eq] at hs
    exact ⟨hs.1.1.2.1, hs.1.1.2.2⟩

/-- A contract that is still what it was on `since` is served on every later day. -/
theorem served_self {book book' : ContractBook} {since t : NaiveDate} {c : Contract}
    (hact : c.status = .active) (hle : since ≤ t) (hitems : book'.items = book.items) :
    Served book book' since t c c := by
  refine ⟨fun hcov => ⟨?_, ?_⟩, fun stop hstop hlt => sweepDue_iff.mpr ⟨hact, stop, hstop, hlt⟩⟩
  · simp only [recurringDue, decide_eq_true_eq]
    rintro ⟨h1, h2, h3⟩
    exact ⟨h1, h2, h3.trans hle⟩
  · simp only [coversWork, hitems, Bool.and_eq_true, decide_eq_true_eq]
    rintro ⟨⟨⟨h1, h2, h3⟩, -⟩, h4⟩
    refine ⟨⟨⟨h1, h2, h3.trans hle⟩, ?_⟩, h4⟩
    cases hend : c.endDate with
    | none => rfl
    | some stop => simpa using hcov stop hend

/-- A contract that is not active is not served on any day. -/
theorem not_served {book book' : ContractBook} {since t : NaiveDate} {c c' : Contract}
    (hact : c'.status ≠ .active)
    (hs : recurringDue since c = true ∨ coversWork book c.companyId since c = true) :
    ¬ Served book book' since t c c' := by
  rintro ⟨h1, h2⟩
  by_cases hcov : ∀ stop, c'.endDate = some stop → t ≤ stop
  · rcases hs with hs | hs
    · have h3 := (h1 hcov).1 hs
      simp [recurringDue, hact] at h3
    · have h3 := (h1 hcov).2 hs
      simp [coversWork, hact] at h3
  · push Not at hcov
    obtain ⟨stop, hstop, hlt⟩ := hcov
    have h3 := h2 stop hstop hlt
    rw [sweepDue_eq_false hact] at h3
    exact absurd h3 (by simp)

/-- A contract that renews stays served on every later day, whatever sweeps there are, exactly if no
sweep runs after the end of the term it was in. -/
theorem served_iff_not_renewed {book : ContractBook} {since : NaiveDate} {c : Contract}
    {days : List NaiveDate} (h : Renewing terms book since c) :
    (∀ t, since ≤ t → (∀ day ∈ days, day ≤ t) →
      ∃ c', (sweeps terms book days).contracts.find c.id = some c' ∧
        Served book (sweeps terms book days) since t c c') ↔
      ∀ day ∈ days, ∀ stop, c.endDate = some stop → day ≤ stop := by
  constructor
  · intro hall
    by_contra hsw
    push Not at hsw
    obtain ⟨day, hday, stop, hstop, hlt⟩ := hsw
    have hst : (days.foldl (fun c today => sweepRow terms today c) c).status ≠ .active :=
      foldl_sweepRow_status hday hstop hlt
    -- The latest of the days in question.
    have : Nonempty NaiveDate := ⟨since⟩
    obtain ⟨t, ht⟩ := (since :: days).toFinset.exists_le
    simp only [List.mem_toFinset, List.forall_mem_cons] at ht
    obtain ⟨ht1, ht2⟩ := ht
    obtain ⟨c', hc', hserved⟩ := hall t ht1 ht2
    rw [find_sweeps h.mem, Option.some.injEq] at hc'
    subst hc'
    exact not_served hst h.served hserved
  · intro hcov t ht _
    refine ⟨c, ?_, served_self h.active.1 ht rfl⟩
    rw [find_sweeps h.mem, foldl_sweepRow_of_covered hcov]

/-! ### A monthly contract with a block of hours -/

/-- The contract of `sampleBook`, for January. -/
def januaryBook : ContractBook :=
  { sampleBook ⟨100⟩ none with
    contracts := (sampleBook ⟨100⟩ none).contracts.update 0 fun c =>
      { c with endDate := some (sampleDay 1 31) } }

/-- It renews. -/
def januaryTerms : Uuid → RenewalTerms := fun _ => { autoRenew := some true, termMonths := none }

theorem renewing_january {c : Contract} (h : januaryBook.contracts.find 0 = some c) :
    Renewing januaryTerms januaryBook (sampleDay 1 15) c where
  mem := Table.find_mem h
  autoRenew := rfl
  served := by
    left
    have h1 : (januaryBook.contracts.find 0).all (recurringDue (sampleDay 1 15)) = true := by
      decide +kernel
    rw [h] at h1
    exact h1

/-- The sweep of the first of February renews it for February, and on the second it is neither
billed nor drawn on. -/
theorem january_not_served :
    ∃ c, januaryBook.contracts.find 0 = some c ∧
      Renewing januaryTerms januaryBook (sampleDay 1 15) c ∧
      ∃ c', (sweeps januaryTerms januaryBook [sampleDay 2 1]).contracts.find 0 = some c' ∧
        c'.startDate = sampleDay 2 1 ∧ c'.endDate = some (sampleDay 2 29) ∧
        recurringDue (sampleDay 2 2) c' = false ∧
        coversWork (sweeps januaryTerms januaryBook [sampleDay 2 1]) 7 (sampleDay 2 2) c' = false ∧
        ¬ Served januaryBook (sweeps januaryTerms januaryBook [sampleDay 2 1]) (sampleDay 1 15)
          (sampleDay 2 2) c c' := by
  obtain ⟨c, hc⟩ := Option.isSome_iff_exists.mp
    (by decide +kernel : (januaryBook.contracts.find 0).isSome = true)
  have hren := renewing_january hc
  have hfind : ((sweeps januaryTerms januaryBook [sampleDay 2 1]).contracts.find 0).any (fun c' =>
      decide (c'.startDate = sampleDay 2 1 ∧ c'.endDate = some (sampleDay 2 29) ∧
        c'.status = .renewed)) = true := by
    decide +kernel
  rw [Option.any_eq_true] at hfind
  obtain ⟨c', hc', hp⟩ := hfind
  obtain ⟨h1, h2, h3⟩ := of_decide_eq_true hp
  have hact : c'.status ≠ .active := by simp [h3]
  refine ⟨c, hc, hren, c', hc', h1, h2, ?_, ?_, not_served hact hren.served⟩
  · simp [recurringDue, hact]
  · simp [coversWork, hact]

/-- While January lasts it is served. -/
theorem january_served :
    ∃ c, januaryBook.contracts.find 0 = some c ∧
      ∀ t, sampleDay 1 15 ≤ t → (∀ day ∈ [sampleDay 1 30, sampleDay 1 31], day ≤ t) →
        ∃ c', (sweeps januaryTerms januaryBook
            [sampleDay 1 30, sampleDay 1 31]).contracts.find c.id = some c' ∧
          Served januaryBook (sweeps januaryTerms januaryBook [sampleDay 1 30, sampleDay 1 31])
            (sampleDay 1 15) t c c' := by
  obtain ⟨c, hc⟩ := Option.isSome_iff_exists.mp
    (by decide +kernel : (januaryBook.contracts.find 0).isSome = true)
  have hend : (januaryBook.contracts.find 0).all (fun c =>
      decide (c.endDate = some (sampleDay 1 31))) = true := by
    decide +kernel
  rw [hc] at hend
  refine ⟨c, hc, (served_iff_not_renewed (renewing_january hc)).mpr ?_⟩
  intro day hday stop hstop
  have h1 : c.endDate = some (sampleDay 1 31) := of_decide_eq_true hend
  rw [h1, Option.some.injEq] at hstop
  subst hstop
  revert day
  decide +kernel

end Mokosh
