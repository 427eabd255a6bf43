import Mokosh.Billing.Totals

/-! # Totals after three roundings

`create_invoice`, `create_invoice_from_time_entries` and `update_invoice`, run one at a time, with any amounts.  The
subtotal is the sum of the stored lines; the tax, the discount and the total are rounded to the cent each on its own.

**`totals_iff`**: the columns of every invoice add up in every state of a run, if and only if each of its requests has
a tax and a discount of which rounding takes off as much, to less than half a cent (`Amounts.AddUp`). -/

namespace Mokosh

/-- What rounding to the cent takes off an amount, in cents. -/
def offCents (x : ℚ) : ℚ := x * 100 - roundHalfAway (x * 100)

/-- What an invoice's total is made of. -/
structure Amounts where
  subtotal : Numeric 2
  tax : ℚ
  discount : ℚ

namespace Amounts

/-- The total that the stored columns come to. -/
def columns (a : Amounts) : Numeric 2 := a.subtotal + .ofRat 2 a.tax - .ofRat 2 a.discount

/-- Rounding takes off the tax what it takes off the discount, to less than half a cent; or half a cent more of one of
them, where this brings the total that the columns come to further from zero. -/
def AddUp (a : Amounts) : Prop :=
  |offCents a.tax - offCents a.discount| < 1 / 2 ∨
    |offCents a.tax - offCents a.discount| = 1 / 2 ∧
      (offCents a.tax - offCents a.discount) * a.columns.unscaled < 0

/-- One rounding does what two do. -/
theorem ofRat_eq_columns_iff (a : Amounts) :
    Numeric.ofRat 2 (a.subtotal.toRat + a.tax - a.discount) = a.columns ↔ a.AddUp := by
  have hoff : (a.subtotal.toRat + a.tax - a.discount) * 10 ^ 2 - (a.columns.unscaled : ℚ) =
      offCents a.tax - offCents a.discount := by
    have hsub := Numeric.toRat_mul_pow a.subtotal
    simp only [columns, Numeric.sub_unscaled, Numeric.add_unscaled, Numeric.ofRat_unscaled, offCents]
    push_cast
    rw [← hsub]
    norm_num
    ring
  rw [Numeric.ext_iff, Numeric.ofRat_unscaled, roundHalfAway_eq_iff, hoff, AddUp]

theorem offCents_eq_zero {x : ℚ} (h : WholeCents x) : offCents x = 0 := by
  have hx := Numeric.toRat_mul_pow (.ofRat 2 x)
  rw [h] at hx
  norm_num at hx
  rw [offCents, hx, roundHalfAway_intCast, sub_self]

/-- Whole cents add up. -/
theorem addUp_of_wholeCents {a : Amounts} (ht : WholeCents a.tax) (hd : WholeCents a.discount) : a.AddUp := by
  refine .inl ?_
  rw [offCents_eq_zero ht, offCents_eq_zero hd]
  norm_num

end Amounts

/-! ### The amounts of a request -/

def linesTotal (ls : List NewLine) : Numeric 2 := (ls.map fun l => Numeric.ofRat 2 l.total).sum

def taxableTotal (ls : List NewLine) : Numeric 2 :=
  (ls.map fun l => if l.isTaxable then Numeric.ofRat 2 l.total else 0).sum

/-- The rate that a request is taxed at, if it is not refused. -/
def chosenTaxRate (rates : List TaxRate) (requestedRate : Option Uuid) : Option TaxRate :=
  (requestedTaxRate rates requestedRate).toOption.join

def CreateInvoiceRequest.amounts (db : BillingDb) (request : CreateInvoiceRequest) : Amounts :=
  let ls := request.lines.map (·.line db.products)
  { subtotal := linesTotal ls
    tax := (taxOn (taxableTotal ls) request.taxAmount (chosenTaxRate db.taxRates request.taxRateId)).amount
    discount := request.discountAmount.getD 0 }

/-- The total of the lines that an update leaves on the invoice, and that of the taxable ones. -/
def UpdateInvoiceRequest.left (db : BillingDb) (current : Invoice) (request : UpdateInvoiceRequest) :
    Numeric 2 × Numeric 2 :=
  match request.lines with
  | some ls =>
    let ls' : List NewLine := ls.map (·.line db.products)
    (linesTotal ls', taxableTotal ls')
  | none => (db.linesOf current.id, db.taxableOf current.id)

def UpdateInvoiceRequest.amounts (db : BillingDb) (current : Invoice) (request : UpdateInvoiceRequest) : Amounts :=
  if request.retaxes then
    { subtotal := (request.left db current).1
      tax := (taxOn (request.left db current).2 request.taxAmount
        (chosenTaxRate db.taxRates (request.taxRateId.or current.taxRateId))).amount
      discount := updateDiscount current request }
  else
    { subtotal := current.subtotal
      tax := current.taxAmount.toRat
      discount := updateDiscount current request }

/-! ### The requests -/

/-- What the other operations do in between: they may write every table, but leave the lines and the four columns of an
invoice alone. -/
structure Elsewhere where
  write : BillingDb → BillingDb
  next : ∀ db, (write db).invoices.next = db.invoices.next
  lines : ∀ db, (write db).lines = db.lines
  columns : ∀ db, ∀ i' ∈ (write db).invoices, ∃ i ∈ db.invoices, i'.id = i.id ∧ i'.subtotal = i.subtotal ∧
    i'.total = i.total ∧ i'.taxAmount = i.taxAmount ∧ i'.discountAmount = i.discountAmount

inductive InvoiceRequest where
  | create (request : CreateInvoiceRequest) (number : String) (externalProvider : Option String)
      (outside : AppResult Unit)
  | createFromTimeEntries (request : CreateInvoiceFromTimeEntriesRequest) (number : String) (outside : AppResult Unit)
  | update (invoiceId : Uuid) (request : UpdateInvoiceRequest) (outside : AppResult Unit)
  | elsewhere (e : Elsewhere)

namespace InvoiceRequest

def perform (db : BillingDb) : InvoiceRequest → AppResult BillingDb
  | .create request number externalProvider outside => createInvoice db request number externalProvider outside
  | .createFromTimeEntries request number outside => createInvoiceFromTimeEntries db request number outside
  | .update invoiceId request outside => do
    let current ← readForUpdate db invoiceId request
    commitUpdateInvoice db current request outside
  | .elsewhere e => .ok (e.write db)

/-- A request that is refused writes nothing, and is no step. -/
def step (db : BillingDb) (r : InvoiceRequest) : Option BillingDb := (r.perform db).toOption

/-- The condition on a request and the tables it finds. -/
def Meets (db : BillingDb) : InvoiceRequest → Prop
  | .create request _ _ _ => (request.amounts db).AddUp
  | .update invoiceId request _ => ∀ current ∈ db.invoices.find invoiceId, (request.amounts db current).AddUp
  | .createFromTimeEntries _ _ _ | .elsewhere _ => True

end InvoiceRequest

/-- In every invoice, the subtotal is the sum of the stored lines, and the total is made of the other columns. -/
def BillingDb.AddsUp (db : BillingDb) : Prop :=
  ∀ i ∈ db.invoices, i.subtotal = db.linesOf i.id ∧ i.total = i.subtotal + i.taxAmount - i.discountAmount

/-- The lines are on invoices that are there. -/
def BillingDb.Placed (db : BillingDb) : Prop := ∀ l ∈ db.lines, l.invoiceId < db.invoices.next

/-! ### What is written -/

section Written

variable {db db' : BillingDb}

/-- Lines inserted for an invoice that has none. -/
theorem sum_insertEach_row {t : Table InvoiceLine.id} {k : Uuid} (hfree : ∀ l ∈ t, l.invoiceId ≠ k)
    (ls : List NewLine) :
    ((t.insertEach (NewLine.row k) ls).sum fun l => if l.invoiceId = k then l.total else 0) = linesTotal ls := by
  have hnone : (t.sum fun l => if l.invoiceId = k then l.total else 0) = 0 :=
    Table.sum_eq_zero fun l hl => if_neg (hfree l hl)
  rw [Table.sum_insertEach (fun l : NewLine => Numeric.ofRat 2 l.total) fun l i => if_pos rfl, hnone, zero_add]
  rfl

theorem sum_insertEach_row_taxable {t : Table InvoiceLine.id} {k : Uuid} (hfree : ∀ l ∈ t, l.invoiceId ≠ k)
    (ls : List NewLine) :
    ((t.insertEach (NewLine.row k) ls).sum fun l =>
      if l.invoiceId = k ∧ l.isTaxable = true then l.total else 0) = taxableTotal ls := by
  have hnone : (t.sum fun l => if l.invoiceId = k ∧ l.isTaxable = true then l.total else 0) = 0 :=
    Table.sum_eq_zero fun l hl => if_neg fun h => hfree l hl h.1
  rw [Table.sum_insertEach (fun l : NewLine => if l.isTaxable then Numeric.ofRat 2 l.total else 0), hnone, zero_add]
  · rfl
  · intro l i
    by_cases hl : l.isTaxable = true
    · rw [if_pos hl, if_pos ⟨rfl, hl⟩]
      rfl
    · rw [if_neg hl, if_neg fun h => hl h.2]

theorem chosenTaxRate_eq {rates : List TaxRate} {requestedRate : Option Uuid} {rate : Option TaxRate}
    (h : requestedTaxRate rates requestedRate = .ok rate) : chosenTaxRate rates requestedRate = rate := by
  rw [chosenTaxRate, h]
  rfl

/-- The total of a row whose tax is applied is made of its columns if and only if the amounts add up. -/
theorem Invoice.taxed_total_iff {i : Invoice} {subtotal : Numeric 2} {tax : AppliedTax} {discount : ℚ}
    (hi : i.discountAmount = .ofRat 2 discount) :
    (i.taxed subtotal tax discount).total =
        subtotal + (i.taxed subtotal tax discount).taxAmount - (i.taxed subtotal tax discount).discountAmount ↔
      Amounts.AddUp ⟨subtotal, tax.amount, discount⟩ := by
  rw [← Amounts.ofRat_eq_columns_iff]
  show _ = subtotal + Numeric.ofRat 2 tax.amount - i.discountAmount ↔ _
  rw [hi]
  rfl

/-- So is that of a header which keeps its lines and its tax. -/
theorem Invoice.edited_total_iff {i current : Invoice} {request : UpdateInvoiceRequest}
    (hr : request.retaxes = false) :
    ((i.edited current request).total = (i.edited current request).subtotal +
        (i.edited current request).taxAmount - (i.edited current request).discountAmount ↔
      Amounts.AddUp ⟨current.subtotal, current.taxAmount.toRat, updateDiscount current request⟩) ∧
      (i.edited current request).subtotal = current.subtotal := by
  have hr' : (request.lines = none ∧ request.taxRateId = none) ∧ request.taxAmount = none := by
    simpa [UpdateInvoiceRequest.retaxes] using hr
  obtain ⟨⟨hl, -⟩, ht⟩ := hr'
  have hsubtotal : updateSubtotal current request = current.subtotal.toRat := by
    unfold updateSubtotal
    rw [hl]
  have htax : updateTax current request = current.taxAmount.toRat := by
    unfold updateTax
    rw [ht]
    rfl
  rw [← Amounts.ofRat_eq_columns_iff]
  unfold Invoice.edited Amounts.columns
  simp only [hsubtotal, htax, Numeric.ofRat_toRat]
  exact ⟨trivial, trivial⟩

theorem created_addsUp_iff (h : Totalled db) {header : Uuid → Invoice} (discount : ℚ)
    (hid : ∀ i, (header i).id = i) (hdiscount : (header db.invoices.next).discountAmount = .ofRat 2 discount)
    (ls : List NewLine) (explicitAmount : Option ℚ) (rate : Option TaxRate) :
    (created db header ls explicitAmount rate discount hid).Placed ∧
      ((created db header ls explicitAmount rate discount hid).AddsUp ↔
        Amounts.AddUp ⟨linesTotal ls, (taxOn (taxableTotal ls) explicitAmount rate).amount, discount⟩) := by
  have hfree : ∀ l ∈ db.lines, l.invoiceId ≠ db.invoices.next := fun l hl => (h.lines l hl).ne
  have hlines : (insertInvoice db header ls hid).linesOf db.invoices.next = linesTotal ls :=
    sum_insertEach_row hfree ls
  have htaxable : (insertInvoice db header ls hid).taxableOf db.invoices.next = taxableTotal ls :=
    sum_insertEach_row_taxable hfree ls
  let row : Uuid → Invoice := fun i =>
    (header i).taxed (linesTotal ls) (taxOn (taxableTotal ls) explicitAmount rate) discount
  have hid' : ∀ i, (row i).id = i := hid
  have hins : (created db header ls explicitAmount rate discount hid).invoices = db.invoices.insert row hid' := by
    rw [created_invoices]
    simp only [hlines, htaxable]
    rfl
  have htotal := @Invoice.taxed_total_iff (header db.invoices.next) (linesTotal ls)
    (taxOn (taxableTotal ls) explicitAmount rate) discount hdiscount
  refine ⟨fun l hl => ?_, fun hadds => ?_, fun hadd => ?_⟩
  · rw [hins, Table.insert_next]
    rcases Table.mem_insertEach hl with hl | ⟨b, -, i, -, rfl⟩
    · exact (h.lines l hl).trans (Nat.lt_succ_self _)
    · exact Nat.lt_succ_self _
  · have hmem : row db.invoices.next ∈ (created db header ls explicitAmount rate discount hid).invoices := by
      rw [hins]
      exact (Table.mem_insert hid').mpr (.inr rfl)
    exact htotal.mp (hadds _ hmem).2
  · refine (h.insert hid' (fun _ _ => rfl) hins rfl ⟨?_, htotal.mpr hadd⟩).totals
    rw [hid']
    exact hlines.symm

/-- The lines an update leaves are those of its amounts. -/
theorem replaceLines_left (current : Invoice) (request : UpdateInvoiceRequest) :
    (replaceLines db current.id request.lines).linesOf current.id = (request.left db current).1 ∧
      (replaceLines db current.id request.lines).taxableOf current.id = (request.left db current).2 := by
  unfold UpdateInvoiceRequest.left replaceLines
  split
  · next hl =>
      rw [hl]
      exact ⟨rfl, rfl⟩
  · next ls hl =>
      rw [hl]
      have hfree : ∀ l ∈ db.lines.filter fun l => decide (l.invoiceId ≠ current.id), l.invoiceId ≠ current.id :=
        fun l hl => of_decide_eq_true (Table.mem_filter.mp hl).2
      exact ⟨sum_insertEach_row hfree _, sum_insertEach_row_taxable hfree _⟩

/-- The row that an update writes has the totals it should, if and only if its amounts add up. -/
theorem Invoice.rewritten_totalled_iff {current : Invoice} {request : UpdateInvoiceRequest} {rate : Option TaxRate}
    (h : current.Totalled db)
    (hrate : request.retaxes = true → chosenTaxRate db.taxRates (request.taxRateId.or current.taxRateId) = rate) :
    (current.rewritten current request ((replaceLines db current.id request.lines).linesOf current.id)
        (taxOn ((replaceLines db current.id request.lines).taxableOf current.id) request.taxAmount rate)).Totalled
        (replaceLines db current.id request.lines) ↔
      (request.amounts db current).AddUp := by
  obtain ⟨hleft, htaxable⟩ := @replaceLines_left db current request
  unfold Invoice.rewritten UpdateInvoiceRequest.amounts
  split
  · next hr =>
      rw [hrate hr, htaxable, hleft]
      refine ⟨fun htotalled => (Invoice.taxed_total_iff rfl).mp htotalled.2, fun hadd => ⟨hleft.symm, ?_⟩⟩
      exact (Invoice.taxed_total_iff rfl).mpr hadd
  · next hr =>
      obtain ⟨htotal, hsubtotal⟩ := @Invoice.edited_total_iff current current request
        (Bool.eq_false_of_not_eq_true hr)
      have hl : request.lines = none := by
        have hr' : (request.lines = none ∧ request.taxRateId = none) ∧ request.taxAmount = none := by
          simpa [UpdateInvoiceRequest.retaxes] using hr
        exact hr'.1.1
      refine ⟨fun htotalled => htotal.mp htotalled.2, fun hadd => ⟨?_, htotal.mpr hadd⟩⟩
      rw [hsubtotal, hl]
      exact h.1

/-- Writes that leave the four columns of every invoice alone. -/
theorem addsUp_update_iff {k : Uuid} {f : Invoice → Invoice} (hf : ∀ r, (f r).id = r.id)
    (hsame : ∀ r, (f r).subtotal = r.subtotal ∧ (f r).total = r.total ∧ (f r).taxAmount = r.taxAmount ∧
      (f r).discountAmount = r.discountAmount) :
    BillingDb.AddsUp { db with invoices := db.invoices.update k f hf } ↔ db.AddsUp := by
  have hrow (r : Invoice) : (if r.id = k then f r else r).Totalled db ↔ r.Totalled db := by
    split
    · obtain ⟨h1, h2, h3, h4⟩ := hsame r
      rw [Invoice.Totalled, h1, h2, h3, h4, hf, Invoice.Totalled]
    · exact Iff.rfl
  constructor
  · intro h r hr
    exact (hrow r).mp (h _ ((Table.mem_update hf).mpr ⟨r, hr, rfl⟩))
  · intro h i hi
    obtain ⟨r, hr, rfl⟩ := (Table.mem_update hf).mp hi
    exact (hrow r).mpr (h r hr)

theorem voidAmended_addsUp_iff (o : Option Uuid) : (voidAmended db o).AddsUp ↔ db.AddsUp := by
  cases o with
  | none => exact Iff.rfl
  | some k => exact addsUp_update_iff (by intro _; rfl) fun _ => ⟨rfl, rfl, rfl, rfl⟩

theorem placed_replaceLines (h : db.Placed) {k : Uuid} (hk : k < db.invoices.next)
    (ls : Option (List CreateInvoiceLineRequest)) :
    ∀ l ∈ (replaceLines db k ls).lines, l.invoiceId < db.invoices.next := by
  intro l hl
  cases ls with
  | none => exact h l hl
  | some ls =>
      rcases Table.mem_insertEach hl with hl | ⟨b, -, i, -, rfl⟩
      · exact h l (Table.mem_filter.mp hl).1
      · exact hk

theorem updated_addsUp_iff (h : Totalled db) {current : Invoice} {request : UpdateInvoiceRequest}
    {rate : Option TaxRate} (hrow : db.invoices.find current.id = some current)
    (hrate : request.retaxes = true → chosenTaxRate db.taxRates (request.taxRateId.or current.taxRateId) = rate) :
    (rewriteInvoice db current request rate).Placed ∧
      ((rewriteInvoice db current request rate).AddsUp ↔ (request.amounts db current).AddUp) := by
  have hid (i : Invoice) := (i.rewritten_same current request
    ((replaceLines db current.id request.lines).linesOf current.id)
    (taxOn ((replaceLines db current.id request.lines).taxableOf current.id) request.taxAmount rate)).1
  have hmem := Table.find_mem hrow
  have hiff := Invoice.rewritten_totalled_iff (h.totals current hmem) hrate
  refine ⟨fun l hl => ?_, fun hadds => hiff.mp (hadds _ ((Table.mem_update_of_mem hmem hid).mpr (.inl rfl))), ?_⟩
  · exact placed_replaceLines h.lines (Table.find_lt_next hrow) request.lines l hl
  · intro hadd i hi
    rcases (Table.mem_update_of_mem hmem hid).mp hi with rfl | ⟨hi, hne⟩
    · exact hiff.mpr hadd
    · have hlines : (replaceLines db current.id request.lines).linesOf i.id = db.linesOf i.id :=
        linesOf_replaceLines hne request.lines
      obtain ⟨hsubtotal, htotal⟩ := h.totals i hi
      exact ⟨hsubtotal.trans hlines.symm, htotal⟩

end Written

/-! ### Runs -/

namespace InvoiceRequest

variable {db db' : BillingDb}

theorem perform_of_step {r : InvoiceRequest} (h : step db r = some db') : r.perform db = .ok db' := by
  unfold step at h
  cases hp : r.perform db with
  | error e =>
      rw [hp] at h
      cases h
  | ok db'' =>
      rw [hp] at h
      cases h
      rfl

/-- One request keeps the lines in place, and the totals if and only if it meets the condition. -/
theorem step_addsUp_iff (h : Totalled db) {r : InvoiceRequest} (hs : step db r = some db') :
    db'.Placed ∧ (db'.AddsUp ↔ r.Meets db) := by
  have hok := perform_of_step hs
  cases r with
  | create request number externalProvider outside =>
      obtain ⟨rate, hrate, rfl⟩ := createInvoice_eq_ok hok
      have hamounts : request.amounts db = ⟨linesTotal (request.lines.map (·.line db.products)),
          (taxOn (taxableTotal (request.lines.map (·.line db.products))) request.taxAmount rate).amount,
          request.discountAmount.getD 0⟩ := by
        rw [CreateInvoiceRequest.amounts, chosenTaxRate_eq hrate]
      rw [Meets, hamounts]
      exact created_addsUp_iff h _ (fun _ => rfl) rfl _ _ rate
  | createFromTimeEntries request number outside =>
      obtain ⟨rate, -, rfl⟩ := createInvoiceFromTimeEntries_eq_ok hok
      have hid (i : Uuid) : (newInvoice number request.companyId request.contractId none
          ((builtLines db request).map NewLine.total).sum 0 0 i).id = i := rfl
      have hcreated := created_addsUp_iff h 0 hid rfl (builtLines db request) none rate
      -- There is no discount, and the tax of a rate is rounded.
      have hadd : Amounts.AddUp ⟨linesTotal (builtLines db request),
          (taxOn (taxableTotal (builtLines db request)) none rate).amount, 0⟩ :=
        Amounts.addUp_of_wholeCents (@taxOn_wholeCents (taxableTotal (builtLines db request)) none rate wholeCents_zero)
          wholeCents_zero
      exact ⟨hcreated.1, hcreated.2.trans (iff_true_intro hadd)⟩
  | update invoiceId request outside =>
      obtain ⟨current, hread, hcommit⟩ := bind_eq_ok.mp hok
      obtain ⟨hfind, -⟩ := readForUpdate_eq_ok hread
      obtain rfl := Table.key_of_find hfind
      obtain ⟨row, rate, -, -, -, hrate, rfl⟩ := commitUpdateInvoice_eq_ok hcommit
      obtain ⟨hplaced, hiff⟩ := updated_addsUp_iff h hfind fun hr => chosenTaxRate_eq (hrate hr)
      refine ⟨?_, (voidAmended_addsUp_iff _).trans (hiff.trans ⟨fun hadd c hc => ?_, fun hmeets => hmeets _ hfind⟩)⟩
      · cases replacedBy row current request with
        | none => exact hplaced
        | some k => exact hplaced
      · obtain rfl := Option.some.inj (hc.symm.trans hfind)
        exact hadd
  | elsewhere e =>
      obtain rfl := Except.ok.inj hok
      refine ⟨fun l hl => ?_, iff_true_intro fun i' hi' => ?_⟩
      · rw [e.next]
        exact h.lines l (e.lines db ▸ hl)
      · obtain ⟨i, hi, hid, hsubtotal, htotal, htax, hdiscount⟩ := e.columns db i' hi'
        rw [hid, hsubtotal, htotal, htax, hdiscount, BillingDb.linesOf, e.lines]
        exact h.totals i hi

variable {time : TimeDb} {mileage : Table MileageEntry.id} {taxRates : List TaxRate} {products : List Product}

/-- A tenant that has billed nothing yet. -/
def init (time : TimeDb) (mileage : Table MileageEntry.id) (taxRates : List TaxRate) (products : List Product) :
    BillingDb :=
  (Billing.init time mileage taxRates products).db

/-- The columns add up all along a run, if and only if the amounts of each request do. -/
theorem totals_iff {rs : List InvoiceRequest} {db : BillingDb}
    (hr : run step (init time mileage taxRates products) rs = some db) :
    (∀ before, before <+: rs → ∀ db', run step (init time mileage taxRates products) before = some db' →
        db'.AddsUp) ↔
      StepsMeet step Meets (init time mileage taxRates products) rs :=
  run_invariant_iff (fun _ _ _ hplaced hadds hs => step_addsUp_iff ⟨hplaced, hadds⟩ hs) Billing.init_totalled.lines
    Billing.init_totalled.totals hr

/-- An hour at 10, with a discount. -/
def discounted (discount : ℚ) : List InvoiceRequest :=
  [.create ⟨7, none, none, none, some discount, [⟨.service, none, true, 1, 10, none, none⟩], by simp⟩ "INV-1" none
    (.ok ())]

theorem totals_iff_discounted : ∃ db, run step (init (sampleTimeDb ⟨∅, ∅⟩) ∅ [] []) (discounted 2) = some db ∧
    ((∀ before, before <+: discounted 2 → ∀ db',
        run step (init (sampleTimeDb ⟨∅, ∅⟩) ∅ [] []) before = some db' → db'.AddsUp) ↔
      StepsMeet step Meets (init (sampleTimeDb ⟨∅, ∅⟩) ∅ [] []) (discounted 2)) := by
  have h : (run step (init (sampleTimeDb ⟨∅, ∅⟩) ∅ [] []) (discounted 2)).any (fun _ => true) = true := by
    decide +kernel
  obtain ⟨db, hr, -⟩ := exists_run_of_any h
  exact ⟨db, hr, totals_iff hr⟩

/-- Half a cent is rounded up twice: in the discount, and in what it leaves of the total. -/
theorem not_totals : ∃ db, run step (init (sampleTimeDb ⟨∅, ∅⟩) ∅ [] []) (discounted (1 / 200)) = some db ∧
    ¬ db.AddsUp := by
  have h : (run step (init (sampleTimeDb ⟨∅, ∅⟩) ∅ [] []) (discounted (1 / 200))).any (fun db =>
      db.invoices.rows.any fun i => decide (i.total ≠ i.subtotal + i.taxAmount - i.discountAmount)) = true := by
    decide +kernel
  obtain ⟨db, hr, hp⟩ := exists_run_of_any h
  obtain ⟨i, hi, hne⟩ := List.any_eq_true.mp hp
  exact ⟨db, hr, fun hadds => of_decide_eq_true hne (hadds i hi).2⟩

end InvoiceRequest

end Mokosh
