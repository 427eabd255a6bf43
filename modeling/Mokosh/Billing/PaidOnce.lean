import Mokosh.Billing.Machine
import Mokosh.Contracts.Ledger

/-! # Hours are paid once

An hour of a time entry is paid for by a block of prepaid hours (`hours_consumed`) or on an invoice
line, which bills the overage of an entry that ran past its block and else the whole entry.

**`paid_once`**: in runs of the time operations and the invoice builder, what is invoiced for an
entry and what it has drawn is together at most what was worked, up to a hundredth of an hour, as
long as

* the builder finds no entry that has drawn hours and whose overage is stored as `0.00`, and
* an edit of an entry that is on a line finds no more hours to draw than the line leaves.

`overage_rounded_away` is a run without the first: an overage of twelve seconds is rounded to
nothing, so the entry is neither prepaid nor billed for its overage, and all of it is invoiced. -/

namespace Mokosh

/-- The hours invoiced for an entry. -/
def BillingDb.invoicedHours (db : BillingDb) (entryId : Uuid) : Numeric 2 :=
  db.lines.sum fun l => if entryId ∈ l.timeEntryIds then l.quantity else 0

/-- The entry is on an invoice line. -/
def OnLine (db : BillingDb) (entryId : Uuid) : Prop := ∃ l ∈ db.lines.rows, entryId ∈ l.timeEntryIds

/-- What is invoiced for the entry and what it has drawn is what was worked, up to a hundredth of an
hour. -/
def PaidWithin (db : BillingDb) (e : TimeEntry) : Prop :=
  (db.invoicedHours e.id).toRat + (e.hoursConsumed.getD 0).toRat ≤ hoursOf e.durationMinutes + 1 / 100

/-- The invariant.  An entry on a line is billed, so that no second line can name it. -/
structure PaidOnce (db : BillingDb) : Prop where
  known : ∀ l ∈ db.lines, ∀ t ∈ l.timeEntryIds, t < db.time.entries.next
  billed : ∀ e ∈ db.time.entries, OnLine db e.id → e.billingStatus = .billed
  settled : ∀ e ∈ db.time.entries, e.Settled
  paid : ∀ e ∈ db.time.entries, OnLine db e.id → PaidWithin db e

/-- Rounded hours are within half a hundredth. -/
theorem centsOf_le (m : ℤ) : (⟨centsOf m⟩ : Numeric 2).toRat ≤ hoursOf m + 1 / 200 := by
  have h := (abs_le.mp (abs_sub_roundHalfAway_le (hoursOf m * 10 ^ 2))).1
  show ((centsOf m : ℤ) : ℚ) / 10 ^ 2 ≤ _
  rw [centsOf, Numeric.ofRat_unscaled, div_le_iff₀ (by norm_num)]
  linarith

section Invoiced

variable {db db' : BillingDb} {t : Uuid}

theorem invoicedHours_of_not_onLine (h : ¬ OnLine db t) : db.invoicedHours t = 0 := by
  apply Table.sum_eq_zero
  intro l hl
  rw [if_neg]
  exact fun ht => h ⟨l, hl, ht⟩

/-- The hours that the builder's lines add for one entry. -/
theorem builtHours (db : BillingDb) (request : CreateInvoiceFromTimeEntriesRequest) (t : Uuid) :
    ((builtLines db request).map fun l =>
      if t ∈ l.timeEntryIds then Numeric.ofRat 2 l.quantity else 0).sum =
      db.time.entries.sum fun e =>
        if request.selects e then
          if e.id = t then Numeric.ofRat 2 (timeEntryLine e).quantity else 0
        else 0 := by
  have hm : (((db.mileage.rows.filter request.selectsMileage).map mileageLine).map fun l =>
      if t ∈ l.timeEntryIds then Numeric.ofRat 2 l.quantity else 0).sum = 0 := by
    apply List.sum_eq_zero
    intro x hx
    obtain ⟨l, hl, rfl⟩ := List.mem_map.mp hx
    obtain ⟨m, -, rfl⟩ := List.mem_map.mp hl
    simp [mileageLine]
  unfold builtLines
  rw [List.map_append, List.sum_append, hm, add_zero, List.map_map, ← Table.sum_filter]
  unfold Table.sum
  congr 1
  apply List.map_congr_left
  intro e _
  simp [timeEntryLine_ids, eq_comm]

/-- What the line of an entry bills, if an overage that was drawn past is not rounded away. -/
theorem timeEntryLine_paid {e : TimeEntry} (hs : e.Settled)
    (hc : e.hoursConsumed = none ∨ 0 < e.overageHours.getD 0) :
    (Numeric.ofRat 2 (timeEntryLine e).quantity).toRat + (e.hoursConsumed.getD 0).toRat ≤
      hoursOf e.durationMinutes + 1 / 100 := by
  have hcents := centsOf_le e.durationMinutes
  unfold timeEntryLine
  split
  · next hover =>
    show (Numeric.ofRat 2 (e.overageHours.getD 0).toRat).toRat + _ ≤ _
    rcases hs.2 with hnone | ⟨applied, ha, hsum⟩
    · rw [hs.1 hnone] at hover
      exact absurd hover (lt_irrefl _)
    · have h1 : e.overageHours.getD 0 + applied = ⟨centsOf e.durationMinutes⟩ := by
        ext
        rw [Numeric.add_unscaled, add_comm]
        exact hsum
      rw [Numeric.ofRat_toRat, ha, Option.getD_some, ← Numeric.toRat_add, h1]
      linarith
  · next hover =>
    rw [hc.resolve_right hover]
    show (⟨centsOf e.durationMinutes⟩ : Numeric 2).toRat + (0 : Numeric 2).toRat ≤ _
    rw [Numeric.toRat_zero]
    linarith

end Invoiced

/-! ### The builder -/

section Builder

variable {db db' : BillingDb} {outside : AppResult Unit} {number : String}
  {request : CreateInvoiceFromTimeEntriesRequest}

/-- Every entry that the builder selects has drawn nothing, or has an overage to bill. -/
def BuildsClean (db : BillingDb) (request : CreateInvoiceFromTimeEntriesRequest) : Prop :=
  ∀ e ∈ db.time.entries.rows, request.selects e = true →
    e.hoursConsumed = none ∨ 0 < e.overageHours.getD 0

theorem selects_ready {e : TimeEntry} (h : request.selects e = true) :
    e.billingStatus = .readyToBill := by
  rw [CreateInvoiceFromTimeEntriesRequest.selects, Bool.and_eq_true, decide_eq_true_iff] at h
  exact h.1.2.2.2.2

/-- The lines after the builder ran. -/
theorem built_eq (hok : createInvoiceFromTimeEntries db request number outside = .ok db') :
    db'.lines = db.lines.insertEach (NewLine.row db.invoices.next) (builtLines db request) ∧
      db'.time.entries.next = db.time.entries.next ∧
      ∀ e' ∈ db'.time.entries, ∃ e ∈ db.time.entries,
        (if request.selects e then e.billOn db.invoices.next else e) = e' := by
  obtain ⟨rate, -, rfl⟩ := createInvoiceFromTimeEntries_eq_ok hok
  exact ⟨rfl, rfl, fun e' he' => mem_markBilled he'⟩

/-- The new lines name the selected entries. -/
theorem onLine_built
    (hl : db'.lines = db.lines.insertEach (NewLine.row db.invoices.next) (builtLines db request))
    {t : Uuid} (h : OnLine db' t) :
    OnLine db t ∨ ∃ e ∈ db.time.entries, request.selects e = true ∧ e.id = t := by
  obtain ⟨l, hm, ht⟩ := h
  have hm' : l ∈ db'.lines := hm
  rw [hl] at hm'
  rcases Table.mem_insertEach hm' with hm | ⟨b, hb, i, -, rfl⟩
  · exact .inl ⟨l, hm, ht⟩
  · rcases List.mem_append.mp hb with hb | hb
    · obtain ⟨e, he, rfl⟩ := List.mem_map.mp hb
      obtain ⟨he, hsel⟩ := List.mem_filter.mp he
      have ht' : t ∈ (timeEntryLine e).timeEntryIds := ht
      rw [timeEntryLine_ids, List.mem_singleton] at ht'
      exact .inr ⟨e, he, hsel, ht'.symm⟩
    · obtain ⟨m, -, rfl⟩ := List.mem_map.mp hb
      exact absurd ht List.not_mem_nil

/-- A selected entry gets its line and another one gets none. -/
theorem invoicedHours_built
    (hl : db'.lines = db.lines.insertEach (NewLine.row db.invoices.next) (builtLines db request))
    {e : TimeEntry} (he : e ∈ db.time.entries) :
    db'.invoicedHours e.id = db.invoicedHours e.id +
      if request.selects e then Numeric.ofRat 2 (timeEntryLine e).quantity else 0 := by
  unfold BillingDb.invoicedHours
  rw [hl, Table.sum_insertEach (fun l : NewLine =>
    if e.id ∈ l.timeEntryIds then Numeric.ofRat 2 l.quantity else 0) (fun _ _ => rfl), builtHours]
  congr 1
  rw [Table.sum_eq_single he, if_pos rfl]
  intro x _ hne
  rw [if_neg hne, ite_self]

theorem PaidOnce.built (h : PaidOnce db) (hc : BuildsClean db request)
    (hok : createInvoiceFromTimeEntries db request number outside = .ok db') : PaidOnce db' := by
  obtain ⟨hl, hnext, hmem⟩ := built_eq hok
  -- An entry that is not selected is on a line only if it was before.
  have hold : ∀ e ∈ db.time.entries, ¬ request.selects e = true → OnLine db' e.id →
      OnLine db e.id := by
    intro e he hsel hon
    rcases onLine_built hl hon with hon | ⟨x, hx, hselx, hid⟩
    · exact hon
    · rw [Table.eq_of_key_eq hx he hid] at hselx
      exact absurd hselx hsel
  refine ⟨?_, ?_, ?_, ?_⟩
  · intro l hm t ht
    rw [hnext]
    rcases onLine_built hl ⟨l, hm, ht⟩ with ⟨l', hm', ht'⟩ | ⟨e, he, -, rfl⟩
    · exact h.known l' hm' t ht'
    · exact Table.key_lt_next he
  · intro e' he' hon
    obtain ⟨e, he, rfl⟩ := hmem e' he'
    split
    · rfl
    · next hsel =>
      rw [if_neg hsel] at hon
      exact h.billed e he (hold e he hsel hon)
  · intro e' he'
    obtain ⟨e, he, rfl⟩ := hmem e' he'
    have hs := h.settled e he
    split <;> exact hs
  · intro e' he' hon
    obtain ⟨e, he, rfl⟩ := hmem e' he'
    have hq := invoicedHours_built hl he
    split
    · next hsel =>
      rw [if_pos hsel] at hq
      -- The entry was ready to bill, so nothing was invoiced for it before.
      have hnot : ¬ OnLine db e.id := by
        intro hon
        have h1 := h.billed e he hon
        rw [selects_ready hsel] at h1
        exact absurd h1 (by simp)
      rw [invoicedHours_of_not_onLine hnot, zero_add] at hq
      have h1 := timeEntryLine_paid (h.settled e he) (hc e he hsel)
      rw [← hq] at h1
      exact h1
    · next hsel =>
      rw [if_neg hsel] at hq hon
      rw [add_zero] at hq
      unfold PaidWithin
      rw [hq]
      exact h.paid e he (hold e he hsel hon)

end Builder

/-! ### Time tracking -/

/-- The hours on the lines of an entry, with those that an edit finds for it to draw once its own
are given back, are within its edited duration. -/
def EditFits (db : BillingDb) (id : Uuid) (request : UpdateTimeEntryRequest) : Prop :=
  OnLine db id → ∀ current ∈ db.time.entries.find id,
    ∀ time ∈ (db.time.writeTimeEntry current request).toOption,
      ∀ e ∈ (time.releaseForEntry id).entries.find id,
        (db.invoicedHours id).toRat + ((time.releaseForEntry id).drawable id).toRat ≤
          hoursOf e.durationMinutes + 1 / 100

theorem PaidOnce.performed {db : BillingDb} (h : PaidOnce db) {op : TimeOp}
    (hop : ∀ id request, op = .updateTimeEntry id request → EditFits db id request) :
    PaidOnce { db with time := db.time.perform op } := by
  have hfresh : ∀ e, db.time.Fresh e → ¬ OnLine db e.id := by
    rintro e ⟨hid, -, -⟩ ⟨l, hl, ht⟩
    exact absurd (h.known l hl e.id ht) (by rw [hid]; exact lt_irrefl _)
  refine ⟨?_, ?_, ?_, ?_⟩
  · intro l hl t ht
    exact (h.known l hl t ht).trans_le (TimeDb.perform_next op)
  · intro e' he' hon
    rcases TimeDb.perform_mem he' with he | ⟨hf, -⟩ | ⟨e, he, hf, -⟩
    · exact h.billed e' he hon
    · exact absurd hon (hfresh e' hf)
    · rw [hf.id] at hon
      exact hf.billed.mpr (h.billed e he hon)
  · intro e' he'
    rcases TimeDb.perform_mem he' with he | ⟨-, hs⟩ | ⟨e, he, -, hs, -⟩
    · exact h.settled e' he
    · exact hs
    · exact hs (h.settled e he)
  · intro e' he' hon
    rcases TimeDb.perform_mem he' with he | ⟨hf, -⟩ | ⟨e, he, hf, -, request, rfl⟩
    · exact h.paid e' he hon
    · exact absurd hon (hfresh e' hf)
    · rcases TimeDb.updated_le_drawable he' hf.id with
        he1 | ⟨current, time, e1, hc, hw, hfind, hd, hle⟩
      · exact h.paid e' he1 hon
      · have hon' : OnLine db e.id := by
          rw [← hf.id]
          exact hon
        have hfit := hop e.id request rfl hon' current hc time
          (by rw [hw]; exact Option.mem_some_self time) e1 hfind
        have hle' := Numeric.toRat_le_iff.mpr hle
        show (db.invoicedHours e'.id).toRat + _ ≤ hoursOf e'.durationMinutes + _
        rw [hf.id, hd]
        linarith

/-! ### Runs -/

/-- The operations of time tracking and the invoice builder. -/
def BillingEvent.logsOrBuilds : BillingEvent → Bool
  | .time _ | .createInvoiceFromTimeEntries _ _ _ => true
  | _ => false

namespace Billing

/-- The condition on one operation. -/
def PaysOnce (s : Billing) : BillingEvent → Prop
  | .createInvoiceFromTimeEntries request _ _ => BuildsClean s.db request
  | .time (.updateTimeEntry id request) => EditFits s.db id request
  | _ => True

instance (db : BillingDb) (entryId : Uuid) : Decidable (OnLine db entryId) :=
  inferInstanceAs (Decidable (∃ l ∈ db.lines.rows, entryId ∈ l.timeEntryIds))

instance (db : BillingDb) (id : Uuid) (request : UpdateTimeEntryRequest) :
    Decidable (EditFits db id request) :=
  inferInstanceAs (Decidable (OnLine db id → ∀ current ∈ _, ∀ time ∈ Except.toOption _, ∀ e ∈ _, _))

instance (db : BillingDb) (request : CreateInvoiceFromTimeEntriesRequest) :
    Decidable (BuildsClean db request) :=
  inferInstanceAs (Decidable (∀ e ∈ db.time.entries.rows, _ → _))

instance (s : Billing) (e : BillingEvent) : Decidable (PaysOnce s e) :=
  match e with
  | .createInvoiceFromTimeEntries request _ _ =>
    inferInstanceAs (Decidable (BuildsClean s.db request))
  | .time (.updateTimeEntry id request) => inferInstanceAs (Decidable (EditFits s.db id request))
  | .time (.createTimeEntry _) | .time (.stopTimer _ _ _ _) | .time (.deleteTimeEntry _)
  | .createInvoice _ _ _ _ | .generateOneRecurringInvoice _ _ _ _ _ _ | .amendInvoice _ _ _
  | .voidInvoice _ | .voidDelegatedInvoice _ _ | .writeOffInvoice _ | .createPayment _
  | .recordGatewayPayment _ _ _ | .createCreditNote _ _ | .startUpdate _ _ | .startDeletePayment _
  | .startGatewayRefunds _ _ | .startVoidCreditNote _ | .commit _ _ =>
    inferInstanceAs (Decidable True)

theorem step_paidOnce {s s' : Billing} {e : BillingEvent} (h : PaidOnce s.db)
    (he : e.logsOrBuilds = true) (hp : s.PaysOnce e) (hs : step s e = some s') :
    PaidOnce s'.db := by
  cases e with
  | time op =>
      cases hs
      refine h.performed ?_
      rintro id request rfl
      exact hp
  | createInvoiceFromTimeEntries request number outside =>
      exact write_holds h (fun db' hok => h.built hp hok) hs
  | _ => exact absurd he (by simp [BillingEvent.logsOrBuilds])

variable {time : TimeDb} {mileage : Table MileageEntry.id} {taxRates : List TaxRate}
  {products : List Product}

theorem init_paidOnce :
    PaidOnce (init { time with entries := ∅ } mileage taxRates products).db := by
  constructor <;> simp [init]

/-- **No hour is paid for twice** in a run from a tenant without entries whose builder finds no
overage that was rounded away, and whose edits of invoiced entries find no more to draw than their
lines leave. -/
theorem paid_once {es : List BillingEvent} {s : Billing} (he : ∀ e ∈ es, e.logsOrBuilds = true)
    (hp : StepsMeet step PaysOnce (init { time with entries := ∅ } mileage taxRates products) es)
    (hr : run step (init { time with entries := ∅ } mileage taxRates products) es = some s) :
    ∀ e ∈ s.db.time.entries, (∃ l ∈ s.db.lines, e.id ∈ l.timeEntryIds) →
      (s.db.invoicedHours e.id).toRat + (e.hoursConsumed.getD 0).toRat ≤
        hoursOf e.durationMinutes + 1 / 100 :=
  (run_invariant_of_stepsMeet (fun s => PaidOnce s.db)
    (fun _ _ _ h hc hs => step_paidOnce h hc.1 hc.2 hs) init_paidOnce (hp.and_events he) hr).paid

/-- Forty minutes and then twenty are logged in a block of one hour, and the builder runs.  The
first entry takes 0.67 hours; the second finds 0.33 of its third of an hour, and an overage of
twelve seconds that is stored as 0.00, so it is invoiced whole. -/
theorem overage_rounded_away :
    ∃ s, run step (init { sampleTimeDb (sampleBook ⟨100⟩ none) with entries := ∅ } ∅ [] [])
        [.time (.createTimeEntry (sampleRequest 40 (sampleDay 1 10))),
          .time (.createTimeEntry (sampleRequest 20 (sampleDay 1 11))),
          .createInvoiceFromTimeEntries ⟨7, none, none, none⟩ "INV-1" (.ok ())] = some s ∧
      ∃ e ∈ s.db.time.entries, (∃ l ∈ s.db.lines, e.id ∈ l.timeEntryIds) ∧
        e.durationMinutes = 20 ∧ s.db.invoicedHours e.id = ⟨33⟩ ∧ e.hoursConsumed = some ⟨33⟩ ∧
        ¬ (s.db.invoicedHours e.id).toRat + (e.hoursConsumed.getD 0).toRat ≤
          hoursOf e.durationMinutes + 1 / 100 := by
  have h : (run step (init { sampleTimeDb (sampleBook ⟨100⟩ none) with entries := ∅ } ∅ [] [])
      [.time (.createTimeEntry (sampleRequest 40 (sampleDay 1 10))),
        .time (.createTimeEntry (sampleRequest 20 (sampleDay 1 11))),
        .createInvoiceFromTimeEntries ⟨7, none, none, none⟩ "INV-1" (.ok ())]).any (fun s =>
      s.db.time.entries.rows.any fun e =>
        s.db.lines.rows.any (fun l => decide (e.id ∈ l.timeEntryIds)) &&
        decide (e.durationMinutes = 20 ∧ s.db.invoicedHours e.id = ⟨33⟩ ∧
          e.hoursConsumed = some ⟨33⟩ ∧
          ¬ (s.db.invoicedHours e.id).toRat + (e.hoursConsumed.getD 0).toRat ≤
            hoursOf e.durationMinutes + 1 / 100)) = true := by decide +kernel
  obtain ⟨s, hs, hp⟩ := exists_run_of_any h
  obtain ⟨e, he, hb⟩ := List.any_eq_true.mp hp
  rw [Bool.and_eq_true, List.any_eq_true, decide_eq_true_iff] at hb
  obtain ⟨⟨l, hl, ht⟩, hd⟩ := hb
  exact ⟨s, hs, e, he, ⟨l, hl, by simpa using ht⟩, hd⟩

/-- An hour and a half is logged in that block, its half hour of overage is invoiced, and then the
entry is saved again, which gives its hour back and draws it once more. -/
theorem paid_once_sample :
    ∃ s, run step (init { sampleTimeDb (sampleBook ⟨100⟩ none) with entries := ∅ } ∅ [] [])
        [.time (.createTimeEntry (sampleRequest 90 (sampleDay 1 10))),
          .createInvoiceFromTimeEntries ⟨7, none, none, none⟩ "INV-1" (.ok ()),
          .time (.updateTimeEntry 0 sampleEdit)] = some s ∧
      ∀ e ∈ s.db.time.entries, (∃ l ∈ s.db.lines, e.id ∈ l.timeEntryIds) →
        (s.db.invoicedHours e.id).toRat + (e.hoursConsumed.getD 0).toRat ≤
          hoursOf e.durationMinutes + 1 / 100 := by
  have h : (run step (init { sampleTimeDb (sampleBook ⟨100⟩ none) with entries := ∅ } ∅ [] [])
      [.time (.createTimeEntry (sampleRequest 90 (sampleDay 1 10))),
        .createInvoiceFromTimeEntries ⟨7, none, none, none⟩ "INV-1" (.ok ()),
        .time (.updateTimeEntry 0 sampleEdit)]).any (fun s =>
      s.db.time.entries.rows.any fun e =>
        decide (s.db.invoicedHours e.id = ⟨50⟩ ∧ e.hoursConsumed = some ⟨100⟩)) = true := by
    decide +kernel
  obtain ⟨s, hs, -⟩ := exists_run_of_any h
  exact ⟨s, hs, paid_once (by decide) (by decide +kernel) hs⟩

end Billing

end Mokosh
