import Mokosh.Contracts.PeriodWalk
import Mokosh.Contracts.Renewal

/-! # What a generation run rolls

`generate_due_recurring_invoices` rolls once for each contract that is due, before it bills the period that opens.  A
roll for one contract leaves the rows of the others alone (`contractRows_roll`), so what the run does to the opening
period of a contract is one call of `roll_to_next_period` on what the run began with (`rolloverOf_runRolls`).

The balance row of a period is made by its first draw, and the roll reads the hours that were left from that row.  A
period in which nothing was drawn has no row, the roll returns `NotFound`, and the run takes that for nothing to roll:
the whole allotment is lost (**`rollover_complete_iff`**). -/

namespace Mokosh

/-- A roll of a generation run: the contract and the end of the period that closes.  The run ignores `NotFound`, and
the roll has no other error. -/
def rollOnce (book : ContractBook) (balances : Table HourBalance.id) (roll : Uuid × NaiveDate) :
    Table HourBalance.id :=
  match rollToNextPeriod book balances roll.1 roll.2 with
  | .ok (_, balances') => balances'
  | .error _ => balances

/-- The rolls of a run, in order. -/
def runRolls (book : ContractBook) (rolls : List (Uuid × NaiveDate)) (balances : Table HourBalance.id) :
    Table HourBalance.id :=
  rolls.foldl (rollOnce book) balances

/-- The rows of a contract. -/
def contractRows (contractId : Uuid) (balances : Table HourBalance.id) : List HourBalance :=
  balances.rows.filter fun b => decide (b.contractId = contractId)

/-- The `rollover_hours` of a period; a period without a row has none. -/
def rolloverOf (balances : Table HourBalance.id) (k : BalanceKey) : Numeric 2 :=
  ((findBalance balances k).map HourBalance.rolloverHours).getD 0

/-! ### A roll is about one contract -/

section Frame

variable {book : ContractBook} {balances : Table HourBalance.id} {contractId other : Uuid} {closingEnd : NaiveDate}

theorem find?_contractRows (p : HourBalance → Bool) (h : ∀ b, p b = true → b.contractId = contractId) :
    (contractRows contractId balances).find? p = balances.rows.find? p := by
  unfold contractRows
  rw [List.find?_filter]
  congr 1
  funext b
  cases hp : p b with
  | false => simp
  | true => simp [h b hp]

theorem findBalance_eq_find? (k : BalanceKey) :
    findBalance balances k = (contractRows k.contractId balances).find? fun b => decide (b.periodKey = k) := by
  rw [find?_contractRows]
  · rfl
  · intro b hb
    exact congrArg BalanceKey.contractId (of_decide_eq_true hb)

theorem findClosing_eq_find? (itemId : Uuid) :
    findClosing balances contractId itemId closingEnd = (contractRows contractId balances).find? fun b =>
      decide (b.contractId = contractId ∧ b.contractItemId = itemId ∧ b.periodEnd = closingEnd) := by
  rw [find?_contractRows]
  · rfl
  · intro b hb
    exact (of_decide_eq_true hb).1

/-- A roll writes one row, and it is of its own contract. -/
theorem contractRows_roll {rolled : Numeric 2} {balances' : Table HourBalance.id} (hne : other ≠ contractId)
    (h : rollToNextPeriod book balances other closingEnd = .ok (rolled, balances')) :
    contractRows contractId balances' = contractRows contractId balances := by
  obtain rfl | ⟨item, closing, -, -, -, -, -, -, ⟨-, rfl⟩ | ⟨next, hnext, hk, -, rfl⟩⟩ := rollToNextPeriod_cases h
  · rfl
  · show (balances.rows ++ [_]).filter _ = _
    rw [List.filter_append]
    have hnew : ¬ (nextPeriodKey other item closingEnd).contractId = contractId := hne
    simp [newBalance, hnew, contractRows]
  · have hid : next.contractId = other := congrArg BalanceKey.contractId hk
    show (balances.rows.map _).filter _ = _
    rw [List.filter_map]
    have hcomp : ((fun b : HourBalance => decide (b.contractId = contractId)) ∘ fun r : HourBalance =>
        if r.id = next.id then r.addRollover (rolledHours item closing) else r) =
          fun b : HourBalance => decide (b.contractId = contractId) := by
      funext b
      simp only [Function.comp_apply]
      split <;> rfl
    rw [hcomp]
    unfold contractRows
    conv_rhs => rw [← List.map_id (balances.rows.filter _)]
    apply List.map_congr_left
    intro b hb
    obtain ⟨hmem, hb⟩ := List.mem_filter.mp hb
    have hcontract : b.contractId = contractId := of_decide_eq_true hb
    rw [if_neg, id]
    intro he
    rw [Table.eq_of_key_eq hmem hnext he] at hcontract
    exact hne (hid.symm.trans hcontract)

theorem contractRows_runRolls {rolls : List (Uuid × NaiveDate)} (h : ∀ roll ∈ rolls, roll.1 ≠ contractId) :
    contractRows contractId (runRolls book rolls balances) = contractRows contractId balances := by
  induction rolls generalizing balances with
  | nil => rfl
  | cons roll rolls ih =>
      rw [List.forall_mem_cons] at h
      rw [runRolls, List.foldl_cons]
      refine (ih h.2).trans ?_
      unfold rollOnce
      split
      · next hr => exact contractRows_roll h.1 hr
      · rfl

end Frame

/-! ### What one roll leaves in the opening period -/

/-- The hours of a period that were not drawn: what its row has left, and the whole allotment if it has no row. -/
def undrawnHours (item : BlockItemRow) : Option HourBalance → Numeric 2
  | some b => max b.hoursRemaining 0
  | none => max item.included 0

/-- The undrawn hours, capped. -/
def carriedHours (item : BlockItemRow) (closing : Option HourBalance) : Numeric 2 :=
  min (undrawnHours item closing) (item.maxRolloverHours.getD (undrawnHours item closing))

section Roll

variable {book : ContractBook} {balances : Table HourBalance.id} {contractId : Uuid} {closingEnd : NaiveDate}
  {item : BlockItemRow}

theorem findBalance_insert {mk : ℕ → HourBalance} {hk : ∀ i, (mk i).id = i} {k : BalanceKey}
    (hnone : findBalance balances k = none) (hkey : (mk balances.next).periodKey = k) :
    findBalance (balances.insert mk hk) k = some (mk balances.next) := by
  unfold findBalance at hnone ⊢
  show (balances.rows ++ [mk balances.next]).find? _ = _
  rw [List.find?_append, hnone]
  simp [hkey]

theorem findBalance_update {next : HourBalance} {f : HourBalance → HourBalance} {hf : ∀ r, (f r).id = r.id}
    {k : BalanceKey} (hnext : findBalance balances k = some next) (hkey : ∀ r, (f r).periodKey = r.periodKey) :
    findBalance (balances.update next.id f hf) k = some (f next) := by
  have hcomp : ((fun b : HourBalance => decide (b.periodKey = k)) ∘
      fun r : HourBalance => if r.id = next.id then f r else r) = fun b => decide (b.periodKey = k) := by
    funext b
    simp only [Function.comp_apply]
    split
    · rw [hkey]
    · rfl
  unfold findBalance at hnext ⊢
  show (balances.rows.map _).find? _ = _
  rw [List.find?_map, hcomp, hnext, Option.map_some, if_pos rfl]

/-- Into a period without rollover a roll brings the carried hours of the row that closes, if there is one and they
are positive. -/
theorem rolloverOf_rollOnce (hi : fetchBlockItem book contractId = some item) (hen : item.rolloverEnabled = some true)
    (hfresh : rolloverOf balances (nextPeriodKey contractId item closingEnd) = 0) :
    rolloverOf (rollOnce book balances (contractId, closingEnd)) (nextPeriodKey contractId item closingEnd) =
      ((findClosing balances contractId item.id closingEnd).map fun closing =>
        max (carriedHours item (some closing)) 0).getD 0 := by
  have hrolled : ∀ closing, rolledHours item closing = carriedHours item (some closing) := fun _ => rfl
  unfold rollOnce rollToNextPeriod
  simp only [hi, orError, bind, Except.bind, hen, Option.getD_some, if_true]
  cases hc : findClosing balances contractId item.id closingEnd with
  | none =>
      simp only [Option.map_none, Option.getD_none]
      exact hfresh
  | some closing =>
      simp only [Option.map_some, Option.getD_some, ← hrolled]
      obtain hle | hpos := le_or_gt (rolledHours item closing) 0
      · rw [if_pos hle, max_eq_right hle]
        exact hfresh
      · rw [if_neg (not_le.mpr hpos), max_eq_left hpos.le]
        cases hk : findBalance balances (nextPeriodKey contractId item closingEnd) with
        | none =>
            simp only [rolloverOf]
            rw [findBalance_insert hk rfl]
            rfl
        | some next =>
            have hz : next.rolloverHours = 0 := by
              rw [rolloverOf, hk] at hfresh
              exact hfresh
            have hkey : ∀ r : HourBalance, (r.addRollover (rolledHours item closing)).periodKey = r.periodKey :=
              fun _ => rfl
            simp only [hz, if_true, rolloverOf]
            rw [findBalance_update hk hkey, Option.map_some, Option.getD_some, HourBalance.addRollover_eq]
            ext
            simp [hz]

end Roll

/-! ### The run -/

/-- What `dueRoll` names is a contract's own roll. -/
theorem fst_dueRoll {today : NaiveDate} {c : Contract} {roll : Uuid × NaiveDate} (h : dueRoll today c = some roll) :
    roll.1 = c.id := by
  unfold dueRoll at h
  obtain ⟨period, -, h⟩ := Option.bind_eq_some_iff.mp h
  split at h
  · cases h
  · obtain ⟨closingEnd, -, h⟩ := Option.bind_eq_some_iff.mp h
    cases h
    rfl

/-- A run rolls once for each contract. -/
theorem dueRolls_pairwise (book : ContractBook) (today : NaiveDate) :
    (dueRolls book today).Pairwise fun roll roll' => roll.1 ≠ roll'.1 := by
  rw [dueRolls_eq]
  have hids : (book.contracts.rows.filter (recurringDue today)).Pairwise fun c d : Contract => c.id ≠ d.id :=
    (List.pairwise_map.mp book.contracts.nodup).sublist List.filter_sublist
  have hsorted := (List.mergeSort_perm (book.contracts.rows.filter (recurringDue today)) fun c d =>
    decide (c.id ≤ d.id)).symm.pairwise hids (fun h => Ne.symm h)
  rw [List.pairwise_filterMap]
  refine hsorted.imp fun {c d} hne roll hroll roll' hroll' => ?_
  rw [fst_dueRoll hroll, fst_dueRoll hroll']
  exact hne

/-- The contract `c` with block hours that roll over enters, on the day `today`, a period that is not its first and into
which nothing was rolled yet; `closingEnd` is the last day of the one before. -/
structure Opens (book : ContractBook) (balances : Table HourBalance.id) (today : NaiveDate) (c : Contract)
    (item : BlockItemRow) (period : NaiveDate × NaiveDate) (closingEnd : NaiveDate) : Prop where
  mem : c ∈ book.contracts
  due : recurringDue today c = true
  fetched : fetchBlockItem book c.id = some item
  enabled : item.rolloverEnabled = some true
  current : currentBillingPeriod (c.billingCycle.getD .monthly) c.startDate today = some period
  within : ∀ stop, c.endDate = some stop → period.1 ≤ stop
  closing : period.1.predOpt = some closingEnd
  follows : c.startDate ≤ closingEnd
  fresh : rolloverOf balances ⟨c.id, item.id, period.1, period.2⟩ = 0

namespace Opens

variable {book : ContractBook} {balances : Table HourBalance.id} {today closingEnd : NaiveDate} {c : Contract}
  {item : BlockItemRow} {period : NaiveDate × NaiveDate}

theorem dueRoll_eq (h : Opens book balances today c item period closingEnd) :
    dueRoll today c = some (c.id, closingEnd) := by
  have hend : ¬ (c.endDate.any fun stop => decide (stop < period.1)) = true := by
    rw [Option.any_eq_true]
    rintro ⟨stop, hstop, hlt⟩
    exact absurd (h.within stop hstop) (not_le.mpr (of_decide_eq_true hlt))
  unfold dueRoll
  rw [Option.bind_eq_bind, h.current, Option.bind_some, if_neg hend, Option.bind_eq_bind, h.closing, Option.bind_some]

theorem mem_dueRolls (h : Opens book balances today c item period closingEnd) :
    (c.id, closingEnd) ∈ dueRolls book today := by
  rw [dueRolls_eq, List.mem_filterMap]
  exact ⟨c, List.mem_mergeSort.mpr (List.mem_filter.mpr ⟨h.mem, h.due⟩), h.dueRoll_eq⟩

/-- The roll goes into the period the run bills. -/
theorem nextPeriodKey_eq (h : Opens book balances today c item period closingEnd) :
    nextPeriodKey c.id item closingEnd = ⟨c.id, item.id, period.1, period.2⟩ := by
  have hfetch := h.fetched
  unfold fetchBlockItem at hfetch
  rw [Table.find_key h.mem, Option.bind_eq_bind, Option.bind_some] at hfetch
  obtain ⟨i, -, hitem⟩ := Option.bind_eq_some_iff.mp hfetch
  cases hitem
  have hsucc : closingEnd.succOpt.getD closingEnd = period.1 := by
    rw [NaiveDate.succOpt_predOpt h.closing, Option.getD_some]
  -- The cycle recurs, or there would be no period to open.
  obtain ⟨step, hstep⟩ : ∃ step, CycleStep.fromCycle (c.billingCycle.getD .monthly) = some step := by
    have hperiod := h.current
    unfold currentBillingPeriod at hperiod
    split at hperiod
    · cases hperiod
    · split at hperiod
      · cases hperiod
      · next step hstep => exact ⟨step, hstep⟩
  obtain ⟨-, k, hk, h1, h2⟩ := isPeriod_of_currentBillingPeriod hstep h.current
  have hfor : periodFor c.startDate (c.billingCycle.getD .monthly) period.1 = period :=
    (hk.calculated hstep le_rfl (h1.trans h2)).2
  simp only [nextPeriodKey, balanceKey, hsucc, BlockItemRow.cycle, hfor]

/-- What a whole run leaves in the opening period of the contract. -/
theorem rolloverOf_runRolls (h : Opens book balances today c item period closingEnd) :
    rolloverOf (runRolls book (dueRolls book today) balances) ⟨c.id, item.id, period.1, period.2⟩ =
      ((findClosing balances c.id item.id closingEnd).map fun closing =>
        max (carriedHours item (some closing)) 0).getD 0 := by
  obtain ⟨before, after, hsplit⟩ := List.append_of_mem h.mem_dueRolls
  have hpw := dueRolls_pairwise book today
  rw [hsplit, List.pairwise_append, List.pairwise_cons] at hpw
  obtain ⟨-, ⟨hafter, -⟩, hbefore⟩ := hpw
  have hrows : contractRows c.id (runRolls book before balances) = contractRows c.id balances :=
    contractRows_runRolls fun roll hroll => hbefore roll hroll _ List.mem_cons_self
  have hroll : ∀ t, rolloverOf (runRolls book after t) ⟨c.id, item.id, period.1, period.2⟩ =
      rolloverOf t ⟨c.id, item.id, period.1, period.2⟩ := by
    intro t
    have hrest : contractRows c.id (runRolls book after t) = contractRows c.id t :=
      contractRows_runRolls fun roll hroll => (hafter roll hroll).symm
    simp only [rolloverOf, findBalance_eq_find?, hrest]
  have hrun : runRolls book (dueRolls book today) balances =
      runRolls book after (rollOnce book (runRolls book before balances) (c.id, closingEnd)) := by
    rw [hsplit, runRolls, List.foldl_append, List.foldl_cons]
    rfl
  have hkey := h.nextPeriodKey_eq
  have hclosing : findClosing (runRolls book before balances) c.id item.id closingEnd =
      findClosing balances c.id item.id closingEnd := by
    rw [findClosing_eq_find?, findClosing_eq_find?, hrows]
  have hfind : findBalance (runRolls book before balances) ⟨c.id, item.id, period.1, period.2⟩ =
      findBalance balances ⟨c.id, item.id, period.1, period.2⟩ := by
    rw [findBalance_eq_find?, findBalance_eq_find?, hrows]
  have hfresh : rolloverOf (runRolls book before balances) (nextPeriodKey c.id item closingEnd) = 0 := by
    rw [hkey, rolloverOf, hfind]
    exact h.fresh
  rw [hrun, hroll, ← hkey, rolloverOf_rollOnce h.fetched h.enabled hfresh, hclosing]

end Opens

/-- **Where rollover is complete.**  After a generation run the period that a contract enters carries the undrawn hours
of the period before, capped, exactly if that is nothing at all, or the period before has a balance row. -/
theorem rollover_complete_iff {book : ContractBook} {balances : Table HourBalance.id} {today closingEnd : NaiveDate}
    {c : Contract} {item : BlockItemRow} {period : NaiveDate × NaiveDate}
    (h : Opens book balances today c item period closingEnd) :
    rolloverOf (runRolls book (dueRolls book today) balances) ⟨c.id, item.id, period.1, period.2⟩ =
        carriedHours item (findClosing balances c.id item.id closingEnd) ↔
      carriedHours item (findClosing balances c.id item.id closingEnd) = 0 ∨
        0 < carriedHours item (findClosing balances c.id item.id closingEnd) ∧
          (findClosing balances c.id item.id closingEnd).isSome = true := by
  rw [h.rolloverOf_runRolls]
  cases findClosing balances c.id item.id closingEnd with
  | none =>
      simp only [Option.map_none, Option.getD_none, Option.isSome_none, Bool.false_eq_true, and_false, or_false]
      exact eq_comm
  | some closing =>
      simp only [Option.map_some, Option.getD_some, Option.isSome_some, and_true]
      rw [max_eq_left_iff, le_iff_eq_or_lt, eq_comm]

/-! ### January and February of a monthly block -/

/-- The contract of `sampleBook`. -/
def monthlyContract : Contract :=
  { id := 0, companyId := 7, status := .active, startDate := sampleDay 1 1, endDate := none,
    billingCycle := some .monthly }

/-- Its block of ten hours, of which five may roll over. -/
def monthlyBlock : BlockItemRow :=
  { id := 0, includedHours := some ⟨1000⟩, overageRate := some ⟨15000⟩, rolloverEnabled := some true,
    maxRolloverHours := some ⟨500⟩, billingCycle := some .monthly, startDate := sampleDay 1 1, endDate := none }

def february : NaiveDate × NaiveDate := (sampleDay 2 1, sampleDay 2 29)

/-- On the first of February the contract enters its second period, whatever happened in January. -/
theorem opens_february {balances : Table HourBalance.id}
    (hfresh : rolloverOf balances ⟨0, 0, february.1, february.2⟩ = 0) :
    Opens (sampleBook ⟨1000⟩ (some ⟨500⟩)) balances (sampleDay 2 1) monthlyContract monthlyBlock february
      (sampleDay 1 31) where
  mem := show monthlyContract ∈ (sampleBook ⟨1000⟩ (some ⟨500⟩)).contracts.rows by decide +kernel
  due := by decide +kernel
  fetched := by decide +kernel
  enabled := rfl
  current := by decide +kernel
  within := fun stop hstop => absurd hstop (Option.some_ne_none stop).symm
  closing := by decide +kernel
  follows := by decide +kernel
  fresh := hfresh

/-- One hour is drawn in January: February carries five of the nine that are left. -/
theorem rollover_complete_february :
    ∃ s, run (Ledger.step (sampleBook ⟨1000⟩ (some ⟨500⟩))) Ledger.empty
        [.draw 0 60 (sampleDay 1 10), .seed 0] = some s ∧
      rolloverOf (runRolls (sampleBook ⟨1000⟩ (some ⟨500⟩)) (dueRolls (sampleBook ⟨1000⟩ (some ⟨500⟩)) (sampleDay 2 1))
          s.balances) ⟨0, 0, february.1, february.2⟩ =
        carriedHours monthlyBlock (findClosing s.balances 0 0 (sampleDay 1 31)) := by
  have h : (run (Ledger.step (sampleBook ⟨1000⟩ (some ⟨500⟩))) Ledger.empty
      [.draw 0 60 (sampleDay 1 10), .seed 0]).any (fun s =>
        decide (rolloverOf s.balances ⟨0, 0, february.1, february.2⟩ = 0 ∧
          0 < carriedHours monthlyBlock (findClosing s.balances 0 0 (sampleDay 1 31)) ∧
          (findClosing s.balances 0 0 (sampleDay 1 31)).isSome = true)) = true := by
    decide +kernel
  obtain ⟨s, hs, hp⟩ := exists_run_of_any h
  obtain ⟨hfresh, hrow⟩ := of_decide_eq_true hp
  exact ⟨s, hs, (rollover_complete_iff (opens_february hfresh)).mpr (.inr hrow)⟩

/-- Nothing is drawn in January, and February carries nothing of its ten hours. -/
theorem undrawn_month_lost :
    Opens (sampleBook ⟨1000⟩ (some ⟨500⟩)) Ledger.empty.balances (sampleDay 2 1) monthlyContract monthlyBlock february
        (sampleDay 1 31) ∧
      rolloverOf (runRolls (sampleBook ⟨1000⟩ (some ⟨500⟩)) (dueRolls (sampleBook ⟨1000⟩ (some ⟨500⟩)) (sampleDay 2 1))
          Ledger.empty.balances) ⟨0, 0, february.1, february.2⟩ = 0 ∧
      carriedHours monthlyBlock (findClosing Ledger.empty.balances 0 0 (sampleDay 1 31)) = ⟨500⟩ :=
  ⟨opens_february (by decide +kernel), by decide +kernel, by decide +kernel⟩

end Mokosh
