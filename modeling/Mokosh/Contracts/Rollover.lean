import Mokosh.Contracts.Ledger

/-! # Conservation of hours across rollover

A roll copies the unused hours of the closing row into the next one and leaves the closing row
as it was, so both rows offer the same hours.  As long as no later draw takes rolled hours from
the closing row (`LateDrawFits`), every rolled hour stays unused where it came from
(`RolledCovered`), and the hours applied over all periods of a contract are at most what its item
allots for these periods (**`applied_le_allotted`**).  Without the condition a late entry draws
an hour a second time (`late_draw_exceeds_allotment`).

No calendar arithmetic is needed: the row a roll writes to is a function of the closing row, so
two rows with rollover have different origins. -/

namespace Mokosh

/-- The hours applied to a contract's periods together. -/
def appliedHours (balances : Table HourBalance.id) (contractId : Uuid) : ℚ :=
  balances.sum fun b => if b.contractId = contractId then b.hoursUsed.toRat else 0

/-- The hours a contract's item allots per period. -/
def allotment (book : ContractBook) (contractId : Uuid) : ℚ :=
  ((fetchBlockItem book contractId).map fun item => item.included.toRat).getD 0

/-- The hours allotted for a contract's periods together. -/
def allottedHours (book : ContractBook) (balances : Table HourBalance.id) (contractId : Uuid) : ℚ :=
  balances.sum fun b => if b.contractId = contractId then allotment book contractId else 0

/-- A draw from a row whose next period carries rollover leaves at least that much of it.  The hours
of the draw count as the column rounds them. -/
def LateDrawFits (book : ContractBook) (s : Ledger) : LedgerEvent → Prop
  | .draw contractId minutes when =>
    ∀ target ∈ (drawTarget book contractId when).toOption,
      ∀ b ∈ findBalance s.balances target.2, ∀ next ∈ s.balances.rows,
        next.periodKey = nextPeriodKey contractId target.1 b.periodEnd → 0 < next.rolloverHours →
        Numeric.ofRat 2 (hoursOf minutes) ≤ b.hoursRemaining - next.rolloverHours
  | .seed _ | .release _ _ | .roll _ _ | .dueRoll _ _ => True

instance (book : ContractBook) (s : Ledger) : ∀ e, Decidable (LateDrawFits book s e)
  | .draw contractId minutes when => inferInstanceAs (Decidable
      (∀ target ∈ (drawTarget book contractId when).toOption,
        ∀ b ∈ findBalance s.balances target.2, ∀ next ∈ s.balances.rows,
          next.periodKey = nextPeriodKey contractId target.1 b.periodEnd → 0 < next.rolloverHours →
          Numeric.ofRat 2 (hoursOf minutes) ≤ b.hoursRemaining - next.rolloverHours))
  | .seed _ | .release _ _ | .roll _ _ | .dueRoll _ _ => isTrue trivial

/-- What `LateDrawFits` says of the row that is drawn on. -/
def KeepsRolled (book : ContractBook) (t : Table HourBalance.id) (b : HourBalance) (m : ℕ) : Prop :=
  ∀ item next, fetchBlockItem book b.contractId = some item → next ∈ t →
    next.periodKey = nextPeriodKey b.contractId item b.periodEnd → 0 < next.rolloverHours →
    Numeric.ofRat 2 (hoursOf m) ≤ b.hoursRemaining - next.rolloverHours

/-- No two rows have the same contract, item and period. -/
def KeysUnique (t : Table HourBalance.id) : Prop :=
  ∀ b ∈ t, ∀ b' ∈ t, b.periodKey = b'.periodKey → b = b'

/-- `next` is the row that a roll of `closing` writes to. -/
def RollsInto (book : ContractBook) (next closing : HourBalance) : Prop :=
  ∃ item, fetchBlockItem book next.contractId = some item ∧
    next.periodKey = nextPeriodKey closing.contractId item closing.periodEnd

/-- Every rolled hour is unused in a row it was rolled from. -/
def RolledCovered (book : ContractBook) (t : Table HourBalance.id) : Prop :=
  ∀ next ∈ t, 0 < next.rolloverHours →
    ∃ closing ∈ t, RollsInto book next closing ∧ next.rolloverHours ≤ closing.hoursRemaining

theorem RollsInto.contractId_eq {book : ContractBook} {next closing : HourBalance}
    (h : RollsInto book next closing) : next.contractId = closing.contractId := by
  obtain ⟨item, -, hk⟩ := h
  exact congrArg BalanceKey.contractId hk

theorem RollsInto.congr {book : ContractBook} {next closing next' closing' : HourBalance}
    (h : RollsInto book next closing) (hn : next'.periodKey = next.periodKey)
    (hc : closing'.periodKey = closing.periodKey) : RollsInto book next' closing' := by
  obtain ⟨item, hi, hk⟩ := h
  simp only [HourBalance.periodKey, BalanceKey.mk.injEq] at hn hc
  refine ⟨item, by rw [hn.1, hi], ?_⟩
  rw [hc.1, hc.2.2.2, ← hk]
  simp only [HourBalance.periodKey, BalanceKey.mk.injEq]
  exact hn

theorem RollsInto.inj {book : ContractBook} {t : Table HourBalance.id} (hu : KeysUnique t)
    {b b' p : HourBalance} (hb : b ∈ t) (hb' : b' ∈ t) (h : RollsInto book b p)
    (h' : RollsInto book b' p) : b = b' := by
  have e : b.contractId = b'.contractId := by rw [h.contractId_eq, h'.contractId_eq]
  obtain ⟨item, hi, hk⟩ := h
  obtain ⟨item', hi', hk'⟩ := h'
  rw [e, hi', Option.some.injEq] at hi
  subst hi
  exact hu b hb b' hb' (hk.trans hk'.symm)

/-- A draw that fits beside the rolled hours leaves them in the row. -/
theorem next_le_afterDraw {b next : HourBalance} {m : ℕ}
    (h : Numeric.ofRat 2 (hoursOf m) ≤ b.hoursRemaining - next.rolloverHours) :
    next.rolloverHours ≤ (b.afterDraw m).hoursRemaining := by
  have h1 : centsOf m ≤ b.hoursRemaining.unscaled - next.rolloverHours.unscaled := h
  have h2 := b.drawnCents_le_cents m
  rw [Numeric.le_iff_unscaled]
  simp only [HourBalance.afterDraw]
  omega

/-! ### The two invariants -/

section Change

variable {book : ContractBook} {G : HourBalance → ℕ → Prop} {t t' : Table HourBalance.id}

theorem KeysUnique.insert (h : KeysUnique t) {mk : ℕ → HourBalance} {hk : ∀ i, (mk i).id = i}
    (hn : findBalance t (mk t.next).periodKey = none) : KeysUnique (t.insert mk hk) := by
  have h1 := findBalance_eq_none hn
  intro b hb b' hb' e
  rcases (Table.mem_insert).mp hb with hb | rfl <;> rcases (Table.mem_insert).mp hb' with hb' | rfl
  · exact h b hb b' hb' e
  · exact absurd e (h1 b hb)
  · exact absurd e.symm (h1 b' hb')
  · rfl

theorem KeysUnique.update (h : KeysUnique t) {r : HourBalance} (hr : r ∈ t)
    {f : HourBalance → HourBalance} {hf : ∀ r, (f r).id = r.id}
    (hk : (f r).periodKey = r.periodKey) : KeysUnique (t.update r.id f hf) := by
  intro b hb b' hb' e
  rcases (Table.mem_update_of_mem hr).mp hb with rfl | ⟨hb, hne⟩ <;>
    rcases (Table.mem_update_of_mem hr).mp hb' with rfl | ⟨hb', hne'⟩
  · rfl
  · rw [hk] at e
    exact absurd (congrArg HourBalance.id (h r hr b' hb' e)).symm hne'
  · rw [hk] at e
    exact absurd (congrArg HourBalance.id (h b hb r hr e)) hne
  · exact h b hb b' hb' e

theorem BalanceChange.keysUnique (h : BalanceChange book G t t') (ht : KeysUnique t) :
    KeysUnique t' := by
  cases h with
  | none => exact ht
  | seed m hi hc hk => exact ht.insert hk
  | draw m hb hg => exact ht.update hb rfl
  | release hb hq => exact ht.update hb rfl
  | rollInsert hi hc hci hpos hk => exact ht.insert hk
  | rollUpdate hi hc hci hpos hn hz hk => exact ht.update hn rfl

/-- A new row that keeps the invariant, with or without rollover. -/
theorem RolledCovered.insert (h : RolledCovered book t) {mk : ℕ → HourBalance}
    {hk : ∀ i, (mk i).id = i}
    (hn : 0 < (mk t.next).rolloverHours → ∃ closing ∈ t, RollsInto book (mk t.next) closing ∧
      (mk t.next).rolloverHours ≤ closing.hoursRemaining) :
    RolledCovered book (t.insert mk hk) := by
  intro b hb hpos
  rcases (Table.mem_insert).mp hb with hb | rfl
  · obtain ⟨p, hp, h1, h2⟩ := h b hb hpos
    exact ⟨p, (Table.mem_insert).mpr (.inl hp), h1, h2⟩
  · obtain ⟨p, hp, h1, h2⟩ := hn hpos
    exact ⟨p, (Table.mem_insert).mpr (.inl hp), h1, h2⟩

/-- A changed row keeps the invariant if what was rolled from it is still unused and what it
carries itself is still covered. -/
theorem RolledCovered.update (h : RolledCovered book t) {r : HourBalance} (hr : r ∈ t)
    {f : HourBalance → HourBalance} {hf : ∀ r, (f r).id = r.id}
    (hk : (f r).periodKey = r.periodKey)
    (hrem : ∀ next ∈ t, 0 < next.rolloverHours → RollsInto book next r →
      next.rolloverHours ≤ r.hoursRemaining → next.rolloverHours ≤ (f r).hoursRemaining)
    (hroll : 0 < (f r).rolloverHours → ∃ closing ∈ t, RollsInto book r closing ∧
      (f r).rolloverHours ≤ closing.hoursRemaining ∧
      (closing = r → (f r).rolloverHours ≤ (f r).hoursRemaining)) :
    RolledCovered book (t.update r.id f hf) := by
  intro b hb hpos
  rcases (Table.mem_update_of_mem hr).mp hb with rfl | ⟨hbt, -⟩
  · obtain ⟨p, hp, h1, h2, h3⟩ := hroll hpos
    by_cases e : p.id = r.id
    · have e' := Table.eq_of_key_eq hp hr e
      subst e'
      exact ⟨f p, (Table.mem_update_of_mem hr).mpr (.inl rfl), h1.congr hk hk, h3 rfl⟩
    · exact ⟨p, (Table.mem_update_of_mem hr).mpr (.inr ⟨hp, e⟩), h1.congr hk rfl, h2⟩
  · obtain ⟨p, hp, h1, h2⟩ := h b hbt hpos
    by_cases e : p.id = r.id
    · have e' := Table.eq_of_key_eq hp hr e
      subst e'
      exact ⟨f p, (Table.mem_update_of_mem hr).mpr (.inl rfl), h1.congr rfl hk,
        hrem b hbt hpos h1 h2⟩
    · exact ⟨p, (Table.mem_update_of_mem hr).mpr (.inr ⟨hp, e⟩), h1, h2⟩

/-- A change of a row that leaves its rollover alone. -/
theorem RolledCovered.update_hours (h : RolledCovered book t) {r : HourBalance} (hr : r ∈ t)
    {f : HourBalance → HourBalance} {hf : ∀ r, (f r).id = r.id}
    (hk : (f r).periodKey = r.periodKey) (hroll : (f r).rolloverHours = r.rolloverHours)
    (hrem : ∀ next ∈ t, 0 < next.rolloverHours → RollsInto book next r →
      next.rolloverHours ≤ r.hoursRemaining → next.rolloverHours ≤ (f r).hoursRemaining) :
    RolledCovered book (t.update r.id f hf) := by
  refine h.update hr hk hrem ?_
  intro hpos
  rw [hroll] at hpos ⊢
  obtain ⟨p, hp, h1, h2⟩ := h r hr hpos
  refine ⟨p, hp, h1, h2, ?_⟩
  rintro rfl
  exact hrem p hp hpos h1 h2

theorem rolledHours_le {item : BlockItemRow} {closing : HourBalance}
    (hpos : 0 < rolledHours item closing) : rolledHours item closing ≤ closing.hoursRemaining := by
  have h := HourBalance.rolledHours_le_remaining item closing
  rcases le_max_iff.mp h with h | h
  · exact h
  · exact absurd hpos (not_lt.mpr h)

theorem BalanceChange.rolledCovered (h : BalanceChange book (KeepsRolled book t) t t')
    (hid : ∀ b ∈ t, b.Identity) (ht : RolledCovered book t) : RolledCovered book t' := by
  cases h with
  | none => exact ht
  | seed m hi hc hk => exact ht.insert fun hpos => absurd hpos (lt_irrefl _)
  | @draw b m hb hg =>
      refine ht.update_hours hb rfl rfl ?_
      intro next hn hpos hroll hle
      obtain ⟨item, hi, hkey⟩ := id hroll
      rw [hroll.contractId_eq] at hi
      exact next_le_afterDraw (hg item next hi hn hkey hpos)
  | @release b q hb hq =>
      refine ht.update_hours hb rfl rfl ?_
      intro next hn hpos hroll hle
      have h1 := (HourBalance.identity_iff.mp (hid b hb)).1
      have h2 : 0 ≤ (Numeric.ofRat 2 q).unscaled := roundHalfAway_nonneg (by positivity)
      rw [Numeric.le_iff_unscaled] at hle ⊢
      simp only [HourBalance.afterRelease]
      omega
  | rollInsert hi hc hci hpos hk =>
      refine ht.insert fun _ => ⟨_, hc, ⟨_, hi, rfl⟩, rolledHours_le hpos⟩
  | @rollUpdate item closing next hi hc hci hpos hn hz hk =>
      have hroll : (next.addRollover (rolledHours item closing)).rolloverHours =
          rolledHours item closing := by
        rw [HourBalance.addRollover_eq, hz]
        ext
        simp
      have hinto : RollsInto book next closing := by
        refine ⟨item, ?_, hk⟩
        rw [← hi]
        exact congrArg (fun k => fetchBlockItem book k.contractId) hk
      have hmono : next.hoursRemaining ≤
          (next.addRollover (rolledHours item closing)).hoursRemaining := by
        rw [Numeric.lt_iff_unscaled, Numeric.zero_unscaled] at hpos
        rw [HourBalance.addRollover_eq, Numeric.le_iff_unscaled]
        simp only
        omega
      refine ht.update hn rfl (fun _ _ _ _ hle => hle.trans hmono) ?_
      rw [hroll]
      refine fun _ => ⟨closing, hc, hinto, rolledHours_le hpos, ?_⟩
      rintro rfl
      exact (rolledHours_le hpos).trans hmono

end Change

/-! ### The totals -/

/-- The hours of one row: used is allotted plus rolled in, less what remains. -/
theorem HourBalance.used_eq {book : ContractBook} {b : HourBalance} (hid : b.Identity)
    (hr : b.RolloverOk book) :
    b.hoursUsed.toRat + b.hoursRemaining.toRat =
      allotment book b.contractId + b.rolloverHours.toRat := by
  obtain ⟨item, hi, -, -, -, hinc⟩ := hr
  rw [hid.2.2, hinc, allotment, hi, Option.map_some, Option.getD_some]

theorem appliedHours_le {book : ContractBook} {t : Table HourBalance.id}
    (hid : ∀ b ∈ t, b.Identity) (hr : ∀ b ∈ t, b.RolloverOk book) (hu : KeysUnique t)
    (hc : RolledCovered book t) (contractId : Uuid) :
    appliedHours t contractId ≤ allottedHours book t contractId := by
  let part (g : HourBalance → ℚ) : ℚ := t.sum fun b => if b.contractId = contractId then g b else 0
  have h1 : part (fun b => b.rolloverHours.toRat) ≤ part (fun b => b.hoursRemaining.toRat) := by
    apply Table.sum_le_sum_of_match (RollsInto book)
    · exact fun b b' p hb hb' h h' => h.inj hu hb hb' h'
    · intro p hp
      split
      · exact (hid p hp).2.1
      · exact le_refl _
    · intro b hb
      by_cases hb0 : 0 < b.rolloverHours
      · obtain ⟨p, hp, hroll, hle⟩ := hc b hb hb0
        refine .inr ⟨p, hp, hroll, ?_⟩
        rw [hroll.contractId_eq]
        split
        · exact Numeric.toRat_le_iff.mpr hle
        · exact le_refl _
      · left
        split
        · rw [← Numeric.toRat_zero (s := 2)]
          exact Numeric.toRat_le_iff.mpr (not_lt.mp hb0)
        · exact le_refl _
  have h2 : part (fun b => b.hoursUsed.toRat) + part (fun b => b.hoursRemaining.toRat) =
      part (fun _ => allotment book contractId) + part (fun b => b.rolloverHours.toRat) := by
    simp only [part, ← Table.sum_add]
    apply Table.sum_congr
    intro b hb
    split
    · next e =>
      rw [← e]
      exact (HourBalance.used_eq (hid b hb) (hr b hb))
    · rfl
  change part (fun b => b.hoursUsed.toRat) ≤ part (fun _ => allotment book contractId)
  linarith

namespace Ledger

variable {book : ContractBook}

/-- Everything a step must find and leave for the totals to hold. -/
structure Conserving (book : ContractBook) (s : Ledger) : Prop where
  rows : ∀ b ∈ s.balances, b.Origin book ∧ b.Identity
  rollover : ∀ b ∈ s.balances, b.RolloverOk book
  unique : KeysUnique s.balances
  covered : RolledCovered book s.balances
  drawn : s.DrawnOk

theorem conserving_empty : Conserving book empty where
  rows := fun b hb => absurd hb (Table.not_mem_empty b)
  rollover := fun b hb => absurd hb (Table.not_mem_empty b)
  unique := fun b hb => absurd hb (Table.not_mem_empty b)
  covered := fun b hb => absurd hb (Table.not_mem_empty b)
  drawn := fun _ ho => absurd ho List.not_mem_nil

theorem step_conserving (hI : IncludedNonneg book) {s s' : Ledger} {e : LedgerEvent}
    (h : s.Conserving book) (hfit : LateDrawFits book s e) (hs : step book s e = some s') :
    s'.Conserving book := by
  have hG : ∀ contractId m when item k b, e = .draw contractId m when →
      drawTarget book contractId when = .ok (item, k) → findBalance s.balances k = some b →
      KeepsRolled book s.balances b m := by
    rintro contractId m when item k b rfl ht hb item' next hi' hn hkey hpos
    obtain ⟨hi, -, rfl⟩ := drawTarget_eq_ok.mp ht
    have e : b.contractId = contractId :=
      congrArg BalanceKey.contractId (findBalance_eq_some hb).2
    rw [e, hi, Option.some.injEq] at hi'
    subst hi'
    rw [e] at hkey
    exact hfit (item, _) (by rw [ht]; rfl) b hb next hn hkey hpos
  obtain ⟨hc, hd⟩ := step_change_of h.drawn hG hs
  exact ⟨hc.identity hI h.rows, hc.rolloverOk h.rollover, hc.keysUnique h.unique,
    hc.rolledCovered (fun b hb => (h.rows b hb).2) h.covered, hd⟩

/-- **Conservation across rollover.**  In every run in which no draw takes hours that were already
rolled into the next period, the hours applied to a contract's periods are at most those its item
allots for them. -/
theorem applied_le_allotted (hI : IncludedNonneg book) {es : List LedgerEvent} {s : Ledger}
    (hfit : StepsMeet (step book) (LateDrawFits book) empty es)
    (hs : run (step book) empty es = some s) (contractId : Uuid) :
    appliedHours s.balances contractId ≤ allottedHours book s.balances contractId := by
  have h := run_invariant_of_stepsMeet (Conserving book)
    (fun _ _ _ h hf hs => step_conserving hI h hf hs) conserving_empty hfit hs
  exact appliedHours_le (fun b hb => (h.rows b hb).2) h.rollover h.unique h.covered contractId

/-- Ten hours per month.  One is drawn in January and the other nine roll into February; a late
entry then draws the nine in January, and February draws its nineteen: twenty-nine hours are
applied to two periods that allot twenty. -/
theorem late_draw_exceeds_allotment :
    ∃ s, run (step (sampleBook ⟨1000⟩ none)) empty
        [.draw 0 60 (sampleDay 1 10), .seed 0, .roll 0 (sampleDay 1 31),
          .draw 0 540 (sampleDay 1 20), .draw 0 1140 (sampleDay 2 5)] = some s ∧
      appliedHours s.balances 0 = 29 ∧ allottedHours (sampleBook ⟨1000⟩ none) s.balances 0 = 20 := by
  have h : (run (step (sampleBook ⟨1000⟩ none)) empty
      [.draw 0 60 (sampleDay 1 10), .seed 0, .roll 0 (sampleDay 1 31),
        .draw 0 540 (sampleDay 1 20), .draw 0 1140 (sampleDay 2 5)]).any (fun s =>
        decide (appliedHours s.balances 0 = 29 ∧
          allottedHours (sampleBook ⟨1000⟩ none) s.balances 0 = 20)) = true := by
    decide +kernel
  obtain ⟨s, hs, hp⟩ := exists_run_of_any h
  exact ⟨s, hs, by simpa using hp⟩

end Ledger

theorem includedNonneg_sampleBook {included : Numeric 2} {cap : Option (Numeric 2)}
    (h : 0 ≤ included.toRat) : IncludedNonneg (sampleBook included cap) := by
  intro contractId item when hi _
  simp only [fetchBlockItem, Option.bind_eq_bind, Option.bind_eq_some_iff] at hi
  obtain ⟨contract, -, i, hi, hitem⟩ := hi
  have h1 := List.mem_of_mem_filter (firstBy_mem hi)
  have h2 : i.includedHours = some included := by
    rw [← Table.mem_def, sampleBook, Table.mem_insert] at h1
    rcases h1 with h1 | rfl
    · exact absurd h1 (Table.not_mem_empty i)
    · rfl
  cases hitem
  simpa [BlockItemRow.included, h2] using h

namespace Ledger

/-- The same contract with a late draw that leaves the rolled hours alone: an hour of the January
draw is given back after the roll, and half of it is drawn again. -/
theorem applied_le_allotted_sample :
    ∃ s, run (step (sampleBook ⟨1000⟩ none)) empty
        [.draw 0 60 (sampleDay 1 10), .seed 0, .roll 0 (sampleDay 1 31), .release 0 true,
          .draw 0 30 (sampleDay 1 20), .draw 0 1140 (sampleDay 2 5)] = some s ∧
      appliedHours s.balances 0 ≤ allottedHours (sampleBook ⟨1000⟩ none) s.balances 0 := by
  have h : (run (step (sampleBook ⟨1000⟩ none)) empty
      [.draw 0 60 (sampleDay 1 10), .seed 0, .roll 0 (sampleDay 1 31), .release 0 true,
        .draw 0 30 (sampleDay 1 20), .draw 0 1140 (sampleDay 2 5)]).any (fun _ => true) = true := by
    decide +kernel
  obtain ⟨s, hs, -⟩ := exists_run_of_any h
  have hI : IncludedNonneg (sampleBook ⟨1000⟩ none) := includedNonneg_sampleBook (by decide +kernel)
  exact ⟨s, hs, applied_le_allotted hI (by decide +kernel) hs 0⟩

end Ledger

end Mokosh
