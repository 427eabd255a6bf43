import Mokosh.Contracts.Hours
import Mokosh.Lib.Transition

/-! # Runs of the prepaid hour ledger

Transactions of `consume_hours_in_tx`, `release_hours_in_tx` and `roll_to_next_period` in any order,
by any number of sessions, over a fixed set of contracts.

* A draw that finds the row of its period locks it and commits in one step.  A draw that finds no
  row is suspended (`Ledger.pending`) before its `INSERT`, since a `SELECT … FOR UPDATE` of a row
  that does not exist locks nothing; it resumes at any later point (`LedgerEvent.seed`), and the
  unique constraint then refuses it if the period got a row in between.
* The caller of a draw keeps its outcome (`Ledger.drawn`); a release gives back one such amount,
  as the caller computed it or as the `hours_consumed` column stored it.
* A roll is a call of `roll_to_next_period` for any closing date, or the one that a run of
  `generate_due_recurring_invoices` makes for a contract that is due (`dueRolls`).

`step_change` says what one step can do to the table.  From it follow

* **`balance_identity_iff`**: in every reachable state every row has `hours_used ≥ 0`,
  `hours_remaining ≥ 0` and `hours_used + hours_remaining = hours_included`, if and only if no
  contract that can be drawn on includes a negative number of hours;
* **`rollover_at_most_once`**: a row gets rollover at most once, and never more than the cap. -/

namespace Mokosh

/-- A draw that found no row for its period and has not inserted one yet. -/
structure PendingDraw where
  contractId : Uuid
  minutes : ℕ
  when : NaiveDate
deriving DecidableEq

structure Ledger where
  balances : Table HourBalance.id
  pending : List PendingDraw
  drawn : List ConsumeOutcome
deriving DecidableEq

inductive LedgerEvent where
  /-- A transaction begins to draw `minutes` for the date `when`. -/
  | draw (contractId : Uuid) (minutes : ℕ) (when : NaiveDate)
  /-- The `i`-th suspended draw goes on with its insert. -/
  | seed (i : ℕ)
  /-- The `i`-th amount drawn is given back, as stored or as computed. -/
  | release (i : ℕ) (stored : Bool)
  | roll (contractId : Uuid) (closingEnd : NaiveDate)
  /-- The `i`-th roll of a generation run of that day. -/
  | dueRoll (today : NaiveDate) (i : ℕ)
deriving DecidableEq

/-- The roll a generation run makes for one candidate contract, if it is due. -/
def dueRoll (today : NaiveDate) (contract : Contract) : Option (Uuid × NaiveDate) := do
  let period ← currentBillingPeriod (contract.billingCycle.getD .monthly) contract.startDate today
  -- A period that begins after the contract's end is skipped.
  if contract.endDate.any (fun stop => decide (stop < period.1)) then none
  else
    let closingEnd ← period.1.predOpt
    some (contract.id, closingEnd)

/-- The rolls of one run of `generate_due_recurring_invoices`, in the order of the contracts' ids:
one for each active, recurring contract that has started and is due. -/
def dueRolls (book : ContractBook) (today : NaiveDate) : List (Uuid × NaiveDate) :=
  let contractsDue := book.contracts.rows.filter fun c =>
    decide (c.status = .active ∧ c.billingCycle ≠ some .oneTime ∧ c.startDate ≤ today)
  (contractsDue.mergeSort fun c d => decide (c.id ≤ d.id)).filterMap (dueRoll today)

/-- What the caller of a draw keeps of it: the hours applied, or their column value. -/
def ConsumeOutcome.amount (o : ConsumeOutcome) (stored : Bool) : ℚ :=
  if stored then (Numeric.ofRat 2 o.hoursApplied).toRat else o.hoursApplied

namespace Ledger

def empty : Ledger := ⟨∅, [], []⟩

variable (book : ContractBook)

/-- The end of a transaction that drew: a refused one leaves nothing behind. -/
def commitDraw (s : Ledger) : AppResult (ConsumeOutcome × Table HourBalance.id) → Ledger
  | .ok (outcome, balances) => { s with balances := balances, drawn := s.drawn ++ [outcome] }
  | .error _ => s

def commitRoll (s : Ledger) : AppResult (Numeric 2 × Table HourBalance.id) → Ledger
  | .ok (_, balances) => { s with balances := balances }
  | .error _ => s

/-- One step of the ledger. -/
def step (s : Ledger) : LedgerEvent → Option Ledger
  | .draw contractId minutes when =>
    match drawTarget book contractId when with
    | .error _ => some s
    | .ok (item, k) =>
      match findBalance s.balances k with
      | some b => some (s.commitDraw (.ok (Mokosh.draw s.balances item b (hoursOf minutes))))
      | none => some { s with pending := s.pending ++ [⟨contractId, minutes, when⟩] }
  | .seed i =>
    match s.pending[i]? with
    | none => none
    | some p =>
      let s' := { s with pending := s.pending.eraseIdx i }
      match drawTarget book p.contractId p.when with
      | .error _ => some s'
      | .ok (item, k) => some (s'.commitDraw (seedAndDraw s.balances item k (hoursOf p.minutes)))
  | .release i stored =>
    match s.drawn[i]? with
    | none => none
    | some o =>
      some { s with
        balances := releaseHoursInTx s.balances o.balanceId (o.amount stored)
        drawn := s.drawn.eraseIdx i }
  | .roll contractId closingEnd =>
    some (s.commitRoll (rollToNextPeriod book s.balances contractId closingEnd))
  | .dueRoll today i =>
    match (dueRolls book today)[i]? with
    | none => none
    | some (contractId, closingEnd) =>
      some (s.commitRoll (rollToNextPeriod book s.balances contractId closingEnd))

end Ledger

/-- What one transaction can do to the table of balances, when it draws from a row that exists only
as `G` allows. -/
inductive BalanceChange (book : ContractBook) (G : HourBalance → ℕ → Prop)
    (t : Table HourBalance.id) : Table HourBalance.id → Prop where
  | none : BalanceChange book G t t
  | seed {contractId : Uuid} {item : BlockItemRow} {when : NaiveDate} (m : ℕ)
      (hi : fetchBlockItem book contractId = some item) (hc : item.covers when)
      (hk : findBalance t (balanceKey contractId item when) = Option.none) :
      BalanceChange book G t (t.insert fun i =>
        (newBalance (balanceKey contractId item when) item.included 0 i).afterDraw m)
  | draw {b : HourBalance} (m : ℕ) (hb : b ∈ t) (hg : G b m) :
      BalanceChange book G t (t.update b.id (·.afterDraw m))
  | release {b : HourBalance} {q : ℚ} (hb : b ∈ t) (hq : 0 < q) :
      BalanceChange book G t (t.update b.id (·.afterRelease q))
  | rollInsert {item : BlockItemRow} {closing : HourBalance}
      (hi : fetchBlockItem book closing.contractId = some item) (hc : closing ∈ t)
      (hci : closing.contractItemId = item.id) (hpos : 0 < rolledHours item closing)
      (hk : findBalance t (nextPeriodKey closing.contractId item closing.periodEnd) = Option.none) :
      BalanceChange book G t (t.insert
        (newBalance (nextPeriodKey closing.contractId item closing.periodEnd)
          ⟨item.included.unscaled + (rolledHours item closing).unscaled⟩ (rolledHours item closing)))
  | rollUpdate {item : BlockItemRow} {closing next : HourBalance}
      (hi : fetchBlockItem book closing.contractId = some item) (hc : closing ∈ t)
      (hci : closing.contractItemId = item.id) (hpos : 0 < rolledHours item closing)
      (hn : next ∈ t) (hz : next.rolloverHours = 0)
      (hk : next.periodKey = nextPeriodKey closing.contractId item closing.periodEnd) :
      BalanceChange book G t (t.update next.id (·.addRollover (rolledHours item closing)))

variable {book : ContractBook} {G : HourBalance → ℕ → Prop} {t t' : Table HourBalance.id}

namespace Ledger

theorem roll_change {contractId : Uuid} {closingEnd : NaiveDate}
    {rolled : Numeric 2}
    (h : rollToNextPeriod book t contractId closingEnd = .ok (rolled, t')) :
    BalanceChange book G t t' := by
  rcases rollToNextPeriod_cases h with
    rfl | ⟨item, closing, hi, hc, rfl, hci, rfl, hpos, ⟨hk, rfl⟩ | ⟨next, hn, hk, hz, rfl⟩⟩
  · exact .none
  · exact .rollInsert hi hc hci hpos hk
  · exact .rollUpdate hi hc hci hpos hn hz hk

theorem commitRoll_change (s : Ledger) (contractId : Uuid) (closingEnd : NaiveDate) :
    BalanceChange book G s.balances
      (s.commitRoll (rollToNextPeriod book s.balances contractId closingEnd)).balances := by
  cases h : rollToNextPeriod book s.balances contractId closingEnd with
  | error e => exact .none
  | ok r => exact roll_change h

/-- The amounts that callers keep are those of draws of whole minutes. -/
def DrawnOk (s : Ledger) : Prop := ∀ o ∈ s.drawn, NoTie (o.hoursApplied * 10 ^ 2)

theorem DrawnOk.append {s s' : Ledger} (h : s.DrawnOk) {o : ConsumeOutcome}
    (ho : NoTie (o.hoursApplied * 10 ^ 2)) (hs : s'.drawn = s.drawn ++ [o]) : s'.DrawnOk := by
  intro x hx
  rw [hs, List.mem_append, List.mem_singleton] at hx
  rcases hx with hx | rfl
  · exact h x hx
  · exact ho

theorem draw_change {s : Ledger} (hd : s.DrawnOk) {item : BlockItemRow} {b : HourBalance}
    (hb : b ∈ s.balances) (m : ℕ) (hg : G b m) :
    BalanceChange book G s.balances
        (s.commitDraw (.ok (Mokosh.draw s.balances item b (hoursOf m)))).balances ∧
      (s.commitDraw (.ok (Mokosh.draw s.balances item b (hoursOf m)))).DrawnOk := by
  refine ⟨?_, hd.append (b.noTie_applied m) rfl⟩
  have h := draw_snd item hb (m : ℤ)
  simp only [commitDraw, h]
  exact .draw m hb hg

theorem seed_change {s : Ledger} (hd : s.DrawnOk) {contractId : Uuid} {item : BlockItemRow}
    {when : NaiveDate} (hi : fetchBlockItem book contractId = some item) (hc : item.covers when)
    (m : ℕ) :
    BalanceChange book G s.balances (s.commitDraw
        (seedAndDraw s.balances item (balanceKey contractId item when) (hoursOf m))).balances ∧
      (s.commitDraw
        (seedAndDraw s.balances item (balanceKey contractId item when) (hoursOf m))).DrawnOk := by
  cases h : seedAndDraw s.balances item (balanceKey contractId item when) (hoursOf m) with
  | error e => exact ⟨.none, hd⟩
  | ok r =>
      obtain ⟨hk, h1, h2⟩ := seedAndDraw_eq_ok (m := m) h
      refine ⟨?_, hd.append (o := r.1) ?_ rfl⟩
      · rw [commitDraw, h1]
        exact .seed m hi hc hk
      · rw [h2]
        exact HourBalance.noTie_applied _ _

/-- One step changes the table as one of the three transactions does. -/
theorem step_change_of {s s' : Ledger} {e : LedgerEvent} (hd : s.DrawnOk)
    (hG : ∀ contractId m when item k b, e = .draw contractId m when →
      drawTarget book contractId when = .ok (item, k) → findBalance s.balances k = some b → G b m)
    (h : step book s e = some s') : BalanceChange book G s.balances s'.balances ∧ s'.DrawnOk := by
  cases e with
  | draw contractId m when =>
      simp only [step] at h
      split at h
      · cases h
        exact ⟨.none, hd⟩
      · next item k ht =>
        split at h
        · next b hb =>
          cases h
          exact draw_change hd (findBalance_eq_some hb).1 m (hG _ _ _ _ _ _ rfl ht hb)
        · cases h
          exact ⟨.none, hd⟩
  | seed i =>
      simp only [step] at h
      split at h
      · cases h
      · next p hp =>
        have hd' : ({ s with pending := s.pending.eraseIdx i } : Ledger).DrawnOk := hd
        split at h
        · cases h
          exact ⟨.none, hd⟩
        · next item k ht =>
          obtain ⟨hi, hc, rfl⟩ := drawTarget_eq_ok.mp ht
          cases h
          exact seed_change hd' hi hc p.minutes
  | release i stored =>
      simp only [step] at h
      split at h
      · cases h
      · next o ho =>
        cases h
        refine ⟨?_, fun x hx => hd x (List.mem_of_mem_eraseIdx hx)⟩
        have hq : NoTie (o.amount stored * 10 ^ 2) := by
          unfold ConsumeOutcome.amount
          split
          · exact noTie_toRat _
          · exact hd o (List.mem_of_getElem? ho)
        rcases releaseHoursInTx_cases o.balanceId hq with h1 | ⟨b, hb, -, hpos, h1⟩
        · rw [h1]
          exact .none
        · rw [h1]
          exact .release hb hpos
  | roll contractId closingEnd =>
      cases h
      refine ⟨commitRoll_change s contractId closingEnd, ?_⟩
      unfold commitRoll
      split <;> exact hd
  | dueRoll today i =>
      simp only [step] at h
      split at h
      · cases h
      · next contractId closingEnd hr =>
        cases h
        refine ⟨commitRoll_change s contractId closingEnd, ?_⟩
        unfold commitRoll
        split <;> exact hd

theorem step_change {s s' : Ledger} {e : LedgerEvent} (hd : s.DrawnOk)
    (h : step book s e = some s') :
    BalanceChange book (fun _ _ => True) s.balances s'.balances ∧ s'.DrawnOk :=
  step_change_of hd (fun _ _ _ _ _ _ _ _ _ => trivial) h

/-- What every change preserves holds of the table in every reachable state. -/
theorem balances_invariant {P : Table HourBalance.id → Prop} (h0 : P ∅)
    (hP : ∀ t t', P t → BalanceChange book (fun _ _ => True) t t' → P t') {es : List LedgerEvent} {s : Ledger}
    (hr : run (step book) empty es = some s) : P s.balances := by
  have h := run_invariant (fun s => P s.balances ∧ s.DrawnOk)
    (fun s e s' hs he => ⟨hP _ _ hs.1 (step_change hs.2 he).1, (step_change hs.2 he).2⟩)
    ⟨h0, fun o ho => absurd ho List.not_mem_nil⟩ hr
  exact h.1

end Ledger

/-! ### The identity of a balance row -/

namespace HourBalance

/-- The two halves of a row's hours are not negative and add up to the whole. -/
def Identity (b : HourBalance) : Prop :=
  0 ≤ b.hoursUsed.toRat ∧ 0 ≤ b.hoursRemaining.toRat ∧
    b.hoursUsed.toRat + b.hoursRemaining.toRat = b.hoursIncluded.toRat

theorem identity_iff {b : HourBalance} :
    b.Identity ↔ 0 ≤ b.hoursUsed.unscaled ∧ 0 ≤ b.hoursRemaining.unscaled ∧
      b.hoursUsed.unscaled + b.hoursRemaining.unscaled = b.hoursIncluded.unscaled := by
  unfold Identity
  rw [Numeric.toRat_nonneg_iff, Numeric.toRat_nonneg_iff, ← Numeric.toRat_add,
    Numeric.toRat_inj, Numeric.ext_iff, Numeric.add_unscaled]

theorem Identity.afterDraw {b : HourBalance} (h : b.Identity) (m : ℕ) :
    (b.afterDraw m).Identity := by
  rw [identity_iff] at h ⊢
  have h1 := b.drawnCents_nonneg (m := m) (by omega)
  have h2 := b.drawnCents_le_remaining m
  simp only [HourBalance.afterDraw]
  omega

theorem Identity.afterRelease {b : HourBalance} (h : b.Identity) {q : ℚ} (hq : 0 < q) :
    (b.afterRelease q).Identity := by
  rw [identity_iff] at h ⊢
  have h1 : 0 ≤ (Numeric.ofRat 2 q).unscaled := roundHalfAway_nonneg (by positivity)
  simp only [HourBalance.afterRelease]
  omega

theorem addRollover_eq (b : HourBalance) (r : Numeric 2) :
    b.addRollover r =
      { b with
        hoursIncluded := ⟨b.hoursIncluded.unscaled + r.unscaled⟩
        hoursRemaining := ⟨b.hoursRemaining.unscaled + r.unscaled⟩
        rolloverHours := ⟨b.rolloverHours.unscaled + r.unscaled⟩ } := by
  simp only [addRollover, Numeric.ofRat_add_toRat]

theorem Identity.addRollover {b : HourBalance} (h : b.Identity) {r : Numeric 2} (hr : 0 < r) :
    (b.addRollover r).Identity := by
  rw [identity_iff] at h ⊢
  rw [Numeric.lt_iff_unscaled, Numeric.zero_unscaled] at hr
  simp only [addRollover_eq]
  omega

theorem identity_newBalance {k : BalanceKey} {included rollover : Numeric 2} {i : Uuid}
    (h : 0 ≤ included.unscaled) : (newBalance k included rollover i).Identity := by
  rw [identity_iff]
  simp only [newBalance, Numeric.zero_unscaled]
  omega

/-- The row belongs to the block-hours item of a contract that covers some day. -/
def Origin (book : ContractBook) (b : HourBalance) : Prop :=
  ∃ item, fetchBlockItem book b.contractId = some item ∧ b.contractItemId = item.id ∧
    ∃ when, item.covers when

end HourBalance

/-- A property of single rows that every transaction gives to the row it writes. -/
theorem BalanceChange.forall_rows {P : HourBalance → Prop} (h : BalanceChange book G t t') (ht : ∀ b ∈ t, P b)
    (seed : ∀ contractId item when (m : ℕ) i, fetchBlockItem book contractId = some item →
      item.covers when →
      P ((newBalance (balanceKey contractId item when) item.included 0 i).afterDraw m))
    (draw : ∀ b (m : ℕ), P b → P (b.afterDraw m))
    (release : ∀ b q, 0 < q → P b → P (b.afterRelease q))
    (rollInsert : ∀ item closing i, fetchBlockItem book closing.contractId = some item →
      P closing → 0 < rolledHours item closing →
      P (newBalance (nextPeriodKey closing.contractId item closing.periodEnd)
        ⟨item.included.unscaled + (rolledHours item closing).unscaled⟩ (rolledHours item closing) i))
    (rollUpdate : ∀ item closing next, fetchBlockItem book next.contractId = some item →
      0 < rolledHours item closing → next.rolloverHours = 0 → P next →
      P (next.addRollover (rolledHours item closing))) : ∀ b ∈ t', P b := by
  intro x hx
  cases h with
  | none => exact ht x hx
  | seed m hi hc hk =>
      rcases (Table.mem_insert).mp hx with hx | rfl
      · exact ht x hx
      · exact seed _ _ _ m _ hi hc
  | draw m hb hg =>
      rcases (Table.mem_update_of_mem hb).mp hx with rfl | ⟨hx, -⟩
      · exact draw _ m (ht _ hb)
      · exact ht x hx
  | release hb hq =>
      rcases (Table.mem_update_of_mem hb).mp hx with rfl | ⟨hx, -⟩
      · exact release _ _ hq (ht _ hb)
      · exact ht x hx
  | rollInsert hi hc hci hpos hk =>
      rcases (Table.mem_insert).mp hx with hx | rfl
      · exact ht x hx
      · exact rollInsert _ _ _ hi (ht _ hc) hpos
  | rollUpdate hi hc hci hpos hn hz hk =>
      rcases (Table.mem_update_of_mem hn).mp hx with rfl | ⟨hx, -⟩
      · refine rollUpdate _ _ _ ?_ hpos hz (ht _ hn)
        rw [← hi]
        exact congrArg (fun k => fetchBlockItem book k.contractId) hk
      · exact ht x hx

theorem BalanceChange.origin (h : BalanceChange book G t t') (ht : ∀ b ∈ t, b.Origin book) : ∀ b ∈ t', b.Origin book := by
  refine h.forall_rows ht ?_ (fun _ _ hb => hb) (fun _ _ _ hb => hb) ?_ (fun _ _ _ _ _ _ hb => hb)
  · intro contractId item when m i hi hc
    exact ⟨item, hi, rfl, when, hc⟩
  · rintro item closing i hi ⟨item', hi', -, hcov⟩ -
    rw [hi, Option.some.injEq] at hi'
    subst hi'
    exact ⟨item, hi, rfl, hcov⟩

/-- No contract that can be drawn on includes a negative number of hours. -/
def IncludedNonneg (book : ContractBook) : Prop :=
  ∀ contractId item when, fetchBlockItem book contractId = some item → item.covers when →
    0 ≤ item.included.toRat

theorem IncludedNonneg.of_origin (hI : IncludedNonneg book)
    {b : HourBalance} (ho : b.Origin book) {item : BlockItemRow}
    (hi : fetchBlockItem book b.contractId = some item) : 0 ≤ item.included.unscaled := by
  obtain ⟨item', hi', -, when, hcov⟩ := ho
  rw [hi, Option.some.injEq] at hi'
  subst hi'
  exact Numeric.toRat_nonneg_iff.mp (hI _ _ _ hi hcov)

theorem BalanceChange.identity (h : BalanceChange book G t t') (hI : IncludedNonneg book)
    (ht : ∀ b ∈ t, b.Origin book ∧ b.Identity) : ∀ b ∈ t', b.Origin book ∧ b.Identity := by
  have ho := h.origin (fun b hb => (ht b hb).1)
  intro x hx
  refine ⟨ho x hx, And.right (h.forall_rows ht ?_ ?_ ?_ ?_ ?_ x hx)⟩
  · intro contractId item when m i hi hc
    have h1 := Numeric.toRat_nonneg_iff.mp (hI _ _ _ hi hc)
    exact ⟨⟨item, hi, rfl, when, hc⟩, (HourBalance.identity_newBalance h1).afterDraw m⟩
  · exact fun b m hb => ⟨hb.1, hb.2.afterDraw m⟩
  · exact fun b q hq hb => ⟨hb.1, hb.2.afterRelease hq⟩
  · intro item closing i hi hc hpos
    have h1 := hI.of_origin hc.1 hi
    rw [Numeric.lt_iff_unscaled, Numeric.zero_unscaled] at hpos
    obtain ⟨item', hi', -, hcov⟩ := hc.1
    rw [hi, Option.some.injEq] at hi'
    subst hi'
    exact ⟨⟨item, hi, rfl, hcov⟩, HourBalance.identity_newBalance (by simp only; omega)⟩
  · exact fun item closing next hi hpos hz hn => ⟨hn.1, hn.2.addRollover hpos⟩

namespace Ledger

theorem reachable_identity (hI : IncludedNonneg book) {es : List LedgerEvent} {s : Ledger}
    (hr : run (step book) empty es = some s) : ∀ b ∈ s.balances, b.Origin book ∧ b.Identity :=
  balances_invariant (fun b hb => absurd hb (Table.not_mem_empty b))
    (fun _ _ ht hc => hc.identity hI ht) hr

/-- The first draw of a contract that includes a negative number of hours breaks the identity: it
clamps the remaining hours at zero and leaves the included ones negative. -/
theorem first_draw_of_negative {contractId : Uuid} {item : BlockItemRow} {when : NaiveDate}
    (hi : fetchBlockItem book contractId = some item) (hc : item.covers when)
    (hneg : item.included.unscaled < 0) :
    ∃ s, run (step book) empty [.draw contractId 1 when, .seed 0] = some s ∧
      ∃ b ∈ s.balances, ¬ b.Identity := by
  have ht : drawTarget book contractId when = .ok (item, balanceKey contractId item when) :=
    drawTarget_eq_ok.mpr ⟨hi, hc, rfl⟩
  have hk : findBalance (∅ : Table HourBalance.id) (balanceKey contractId item when) = none := rfl
  have hs : ∃ o t, seedAndDraw ∅ item (balanceKey contractId item when) (hoursOf 1) =
      .ok (o, t) := ⟨_, _, by rw [seedAndDraw, hk]⟩
  obtain ⟨o, t, hs⟩ := hs
  have h1 : run (step book) empty [.draw contractId 1 when, .seed 0] =
      some { balances := t, pending := [], drawn := [o] } := by
    simp [run, step, empty, ht, hk, hs, commitDraw]
  obtain ⟨-, rfl, -⟩ := seedAndDraw_eq_ok hs
  refine ⟨_, h1, _, (Table.mem_insert).mpr (.inr rfl), ?_⟩
  rw [HourBalance.identity_iff]
  simp only [HourBalance.afterDraw, HourBalance.drawnCents, newBalance, Numeric.zero_unscaled]
  omega

/-- **The balance identity.**  It holds of every row in every reachable state exactly when no
contract that can be drawn on includes a negative number of hours. -/
theorem balance_identity_iff (book : ContractBook) :
    (∀ es s, run (step book) empty es = some s → ∀ b ∈ s.balances, b.Identity) ↔
      IncludedNonneg book := by
  constructor
  · intro h contractId item when hi hc
    by_contra hneg
    rw [Numeric.toRat_nonneg_iff, not_le] at hneg
    obtain ⟨s, hs, b, hb, hn⟩ := first_draw_of_negative hi hc hneg
    exact hn (h _ s hs b hb)
  · intro hI es s hr
    exact fun b hb => (reachable_identity hI hr b hb).2

end Ledger

instance (b : HourBalance) : Decidable b.Identity :=
  inferInstanceAs (Decidable (_ ∧ _ ∧ _))

/-- One active monthly contract from 1 January 2024 whose block-hours item includes `included`
hours and rolls over up to `cap`. -/
def sampleBook (included : Numeric 2) (cap : Option (Numeric 2)) : ContractBook where
  contracts := (∅ : Table Contract.id).insert fun i =>
    { id := i
      companyId := 7
      status := .active
      startDate := ⟨2024, 1, 1, by decide, by decide, by decide⟩
      endDate := none
      billingCycle := some .monthly }
  items := (∅ : Table ContractItem.id).insert fun i =>
    { id := i
      contractId := 0
      name := "Prepaid support"
      itemType := .blockHours
      quantity := some ⟨100⟩
      unitPrice := ⟨100000⟩
      totalPrice := ⟨100000⟩
      includedHours := some included
      overageRate := some ⟨15000⟩
      rolloverEnabled := some true
      maxRolloverHours := cap
      sortOrder := 0
      billingRule := .manual
      billed := false }

/-- A day of the year in which that contract starts. -/
def sampleDay (m d : ℕ) : NaiveDate :=
  (NaiveDate.fromYmdOpt 2024 m d).getD ⟨2024, 1, 1, by decide, by decide, by decide⟩

namespace Ledger

/-- A contract that includes `-5` hours, which no validation refuses: after the first draw its row
has used and remaining hours `0`, and included hours `-5`. -/
theorem negative_included_breaks_identity :
    ∃ s, run (step (sampleBook ⟨-500⟩ none)) empty [.draw 0 60 (sampleDay 1 10), .seed 0] = some s ∧
      ∃ b ∈ s.balances, ¬ b.Identity := by
  have h : (run (step (sampleBook ⟨-500⟩ none)) empty [.draw 0 60 (sampleDay 1 10), .seed 0]).any
      (fun s => s.balances.rows.any fun b => decide (¬ b.Identity)) = true := by decide +kernel
  obtain ⟨s, hs, hp⟩ := exists_run_of_any h
  obtain ⟨b, hb, hn⟩ := List.any_eq_true.mp hp
  exact ⟨s, hs, b, hb, by simpa using hn⟩

end Ledger

/-! ### Rollover -/

namespace HourBalance

/-- The row's rollover is that of at most one roll of its item: not negative, within the cap, and
the only difference between the hours included now and the allotment the row began with. -/
def RolloverOk (book : ContractBook) (b : HourBalance) : Prop :=
  ∃ item, fetchBlockItem book b.contractId = some item ∧ b.contractItemId = item.id ∧
    0 ≤ b.rolloverHours ∧
    (∀ cap, item.maxRolloverHours = some cap → 0 < b.rolloverHours → b.rolloverHours ≤ cap) ∧
    b.hoursIncluded.toRat = item.included.toRat + b.rolloverHours.toRat

theorem rolledHours_le_cap {item : BlockItemRow} {closing : HourBalance} {cap : Numeric 2}
    (h : item.maxRolloverHours = some cap) : rolledHours item closing ≤ cap := by
  simp only [rolledHours, h, Option.getD_some]
  exact min_le_right _ _

theorem rolledHours_le_remaining (item : BlockItemRow) (closing : HourBalance) :
    rolledHours item closing ≤ max closing.hoursRemaining 0 := min_le_left _ _

end HourBalance

theorem BalanceChange.rolloverOk (h : BalanceChange book G t t') (ht : ∀ b ∈ t, b.RolloverOk book) :
    ∀ b ∈ t', b.RolloverOk book := by
  refine h.forall_rows ht ?_ (fun _ _ hb => hb) (fun _ _ _ hb => hb) ?_ ?_
  · intro contractId item when m i hi hc
    refine ⟨item, hi, rfl, le_refl _, fun cap _ h0 => absurd h0 (lt_irrefl _), ?_⟩
    simp [newBalance, HourBalance.afterDraw]
  · intro item closing i hi hc hpos
    refine ⟨item, hi, rfl, hpos.le, fun cap hcap _ => HourBalance.rolledHours_le_cap hcap, ?_⟩
    rw [← Numeric.toRat_add]
    rfl
  · rintro item closing next hi hpos hz ⟨item', hi', hid, -, -, hinc⟩
    rw [hi, Option.some.injEq] at hi'
    subst hi'
    have hr : (next.addRollover (rolledHours item closing)).rolloverHours =
        rolledHours item closing := by
      rw [HourBalance.addRollover_eq, hz]
      ext
      simp
    refine ⟨item, hi, hid, ?_, ?_, ?_⟩
    · rw [hr]
      exact hpos.le
    · intro cap hcap _
      rw [hr]
      exact HourBalance.rolledHours_le_cap hcap
    · rw [hr]
      simp only [HourBalance.addRollover_eq]
      rw [hz, Numeric.toRat_zero, add_zero] at hinc
      rw [← hinc, ← Numeric.toRat_add]
      rfl

/-- A row stays in the table, and its rollover stays what it is once there is some. -/
def RolloverFixed (t t' : Table HourBalance.id) : Prop :=
  ∀ b ∈ t, ∃ b', t'.find b.id = some b' ∧ (b.rolloverHours ≠ 0 → b'.rolloverHours = b.rolloverHours)

theorem RolloverFixed.refl (t : Table HourBalance.id) : RolloverFixed t t :=
  fun b hb => ⟨b, Table.find_key hb, fun _ => rfl⟩

theorem RolloverFixed.trans {t u v : Table HourBalance.id} (h : RolloverFixed t u)
    (h' : RolloverFixed u v) : RolloverFixed t v := by
  intro b hb
  obtain ⟨c, hc, h1⟩ := h b hb
  obtain ⟨d, hd, h2⟩ := h' c (Table.find_mem hc)
  rw [Table.key_of_find hc] at hd
  refine ⟨d, hd, fun h0 => ?_⟩
  have h3 := h1 h0
  rw [h2 (by rwa [h3]), h3]

theorem RolloverFixed.insert {t : Table HourBalance.id} {mk : ℕ → HourBalance}
    {hk : ∀ i, (mk i).id = i} : RolloverFixed t (t.insert mk hk) := by
  intro b hb
  refine ⟨b, ?_, fun _ => rfl⟩
  rw [Table.find_insert, if_neg (Table.key_lt_next hb).ne, Table.find_key hb]

theorem RolloverFixed.update {t : Table HourBalance.id} {r : HourBalance}
    {f : HourBalance → HourBalance} {hf : ∀ r, (f r).id = r.id} (hr : r ∈ t)
    (h : r.rolloverHours ≠ 0 → (f r).rolloverHours = r.rolloverHours) :
    RolloverFixed t (t.update r.id f hf) := by
  intro b hb
  by_cases hbr : b.id = r.id
  · have e : b = r := Table.eq_of_key_eq hb hr hbr
    subst e
    exact ⟨f b, by rw [Table.find_update_self, Table.find_key hb, Option.map_some], h⟩
  · exact ⟨b, by rw [Table.find_update_ne hbr, Table.find_key hb], fun _ => rfl⟩

theorem BalanceChange.rolloverFixed (h : BalanceChange book G t t') : RolloverFixed t t' := by
  cases h with
  | none => exact .refl t
  | seed m hi hc hk => exact .insert
  | draw m hb hg => exact .update hb fun _ => rfl
  | release hb hq => exact .update hb fun _ => rfl
  | rollInsert hi hc hci hpos hk => exact .insert
  | rollUpdate hi hc hci hpos hn hz hk => exact .update hn fun h0 => absurd hz h0

namespace Ledger

theorem reachable_rolloverOk {es : List LedgerEvent} {s : Ledger}
    (hr : run (step book) empty es = some s) : ∀ b ∈ s.balances, b.RolloverOk book :=
  balances_invariant (fun b hb => absurd hb (Table.not_mem_empty b))
    (fun _ _ ht hc => hc.rolloverOk ht) hr

theorem reachable_drawnOk {es : List LedgerEvent} {s : Ledger}
    (hr : run (step book) empty es = some s) : s.DrawnOk :=
  run_invariant DrawnOk (fun _ _ _ hs he => (step_change hs he).2)
    (fun _ ho => absurd ho List.not_mem_nil) hr

/-- **Rollover happens at most once.**  In every reachable state a row's rollover is not negative,
is at most the configured cap, and is the difference between its included hours and the item's
allotment; and once it is positive no later event changes it. -/
theorem rollover_at_most_once {es es' : List LedgerEvent} {s s' : Ledger}
    (hs : run (step book) empty es = some s) (hs' : run (step book) s es' = some s')
    {b : HourBalance} (hb : b ∈ s.balances) :
    b.RolloverOk book ∧
      ∃ b', s'.balances.find b.id = some b' ∧
        (b.rolloverHours ≠ 0 → b'.rolloverHours = b.rolloverHours) := by
  refine ⟨reachable_rolloverOk hs b hb, ?_⟩
  have h := run_relation DrawnOk (fun s s' => RolloverFixed s.balances s'.balances)
    (fun s => .refl s.balances) (fun _ _ _ h1 h2 => h1.trans h2)
    (fun _ _ _ hd he => ⟨(step_change hd he).2, (step_change hd he).1.rolloverFixed⟩)
    (reachable_drawnOk hs) hs'
  exact h b hb

/-- One of the ten included hours is drawn in January, the run of 1 February rolls five of the nine
that are left, and a second run and a draw leave the five as they are. -/
theorem rollover_at_most_once_sample :
    ∃ s s' b, run (step (sampleBook ⟨1000⟩ (some ⟨500⟩))) empty
        [.draw 0 60 (sampleDay 1 10), .seed 0, .dueRoll (sampleDay 2 1) 0] = some s ∧
      run (step (sampleBook ⟨1000⟩ (some ⟨500⟩))) s
        [.dueRoll (sampleDay 2 1) 0, .draw 0 30 (sampleDay 2 5)] = some s' ∧
      b ∈ s.balances ∧ b.rolloverHours = ⟨500⟩ ∧ b.RolloverOk (sampleBook ⟨1000⟩ (some ⟨500⟩)) ∧
      ∃ b', s'.balances.find b.id = some b' ∧
        (b.rolloverHours ≠ 0 → b'.rolloverHours = b.rolloverHours) := by
  have h : (run (step (sampleBook ⟨1000⟩ (some ⟨500⟩))) empty
      [.draw 0 60 (sampleDay 1 10), .seed 0, .dueRoll (sampleDay 2 1) 0]).any (fun s =>
        (s.balances.rows.any fun b => decide (b.rolloverHours = ⟨500⟩)) &&
        (run (step (sampleBook ⟨1000⟩ (some ⟨500⟩))) s
          [.dueRoll (sampleDay 2 1) 0, .draw 0 30 (sampleDay 2 5)]).isSome) = true := by
    decide +kernel
  obtain ⟨s, hs, hp⟩ := exists_run_of_any h
  rw [Bool.and_eq_true, List.any_eq_true, Option.isSome_iff_exists] at hp
  obtain ⟨⟨b, hb, hr⟩, s', hs'⟩ := hp
  exact ⟨s, s', b, hs, hs', hb, by simpa using hr, rollover_at_most_once hs hs' hb⟩

end Ledger

end Mokosh
