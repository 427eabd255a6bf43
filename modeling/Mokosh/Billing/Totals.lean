import Mokosh.Billing.Balance

/-! # The totals of an invoice

`update_invoice` reads the invoice, later locks its row, and writes the header.  Under the lock it
re-reads `amount_paid` and `status` only: an update that leaves the lines and the tax alone writes
back the subtotal it read before the lock (`Invoice.edited`).

**`totals_of_reachable`**: as long as no such update commits after another one has changed the
subtotal, and tax and discount are given in whole cents, `subtotal` is the sum of the lines, `total`
is subtotal plus tax less discount, and `balance_due` is total less what is paid and credited, in
every state of every interleaving.  `stale_subtotal_written_back` is a run of two updates that ends
with the lines of one and the subtotal from before it. -/

namespace Mokosh

/-- An amount that a column of two decimals holds exactly. -/
def WholeCents (x : ℚ) : Prop := (Numeric.ofRat 2 x).toRat = x

instance (x : ℚ) : Decidable (WholeCents x) := inferInstanceAs (Decidable (_ = _))

/-- The subtotal of an invoice is the sum of its lines, and its total is made of its columns. -/
def Invoice.Totalled (db : BillingDb) (i : Invoice) : Prop :=
  i.subtotal = db.linesOf i.id ∧ i.total = i.subtotal + i.taxAmount - i.discountAmount

/-- The invariant of the lines: they are on invoices that are there, and add up. -/
structure Totalled (db : BillingDb) : Prop where
  lines : ∀ l ∈ db.lines, l.invoiceId < db.invoices.next
  totals : ∀ i ∈ db.invoices, i.Totalled db

section Amounts

theorem wholeCents_toRat (x : Numeric 2) : WholeCents x.toRat := by
  unfold WholeCents
  rw [Numeric.ofRat_toRat]

theorem wholeCents_zero : WholeCents 0 := by
  have h := wholeCents_toRat 0
  rwa [Numeric.toRat_zero] at h

/-- Rounding a total of whole cents is adding up the columns. -/
theorem ofRat_total (subtotal : Numeric 2) {tax discount : ℚ} (ht : WholeCents tax)
    (hd : WholeCents discount) :
    Numeric.ofRat 2 (subtotal.toRat + tax - discount) =
      subtotal + .ofRat 2 tax - .ofRat 2 discount := by
  have h : subtotal.toRat + tax - discount =
      (subtotal + .ofRat 2 tax - .ofRat 2 discount : Numeric 2).toRat := by
    rw [Numeric.toRat_sub, Numeric.toRat_add, ht, hd]
  rw [h, Numeric.ofRat_toRat]

theorem taxOn_wholeCents (taxable : Numeric 2) {explicitAmount : Option ℚ} (rate : Option TaxRate)
    (h : WholeCents (explicitAmount.getD 0)) :
    WholeCents (taxOn taxable explicitAmount rate).amount := by
  cases explicitAmount with
  | some amount => exact h
  | none =>
      cases rate with
      | some r => exact wholeCents_toRat _
      | none => exact wholeCents_zero

end Amounts

section Lines

variable {db db' : BillingDb} {j : Uuid}

/-- Lines added to one invoice do not count for another. -/
theorem linesOf_insertEach {β : Type} {mk : β → ℕ → InvoiceLine} {hk : ∀ b i, (mk b i).id = i}
    {k : Uuid} {t : Table InvoiceLine.id} (hmk : ∀ b i, (mk b i).invoiceId = k) (hj : j ≠ k)
    (ls : List β) :
    ((t.insertEach mk ls hk).sum fun l => if l.invoiceId = j then l.total else 0) =
      t.sum fun l => if l.invoiceId = j then l.total else 0 := by
  rw [Table.sum_insertEach fun _ => 0]
  · simp
  · intro b i
    rw [hmk, if_neg (Ne.symm hj)]

/-- Replaced lines do not count for another invoice. -/
theorem linesOf_replaceLines {k : Uuid} (hj : j ≠ k) (ls : Option (List CreateInvoiceLineRequest)) :
    (replaceLines db k ls).linesOf j = db.linesOf j := by
  cases ls with
  | none => rfl
  | some ls =>
      refine (linesOf_insertEach (k := k) (fun _ _ => rfl) hj _).trans ?_
      rw [Table.sum_filter]
      apply Table.sum_congr
      intro l _
      by_cases h : l.invoiceId = k
      · rw [h, if_neg (Ne.symm hj), ite_self]
      · rw [if_pos (decide_eq_true h)]

/-- The copied lines add up to what the originals do. -/
theorem linesOf_copies (h : Totalled db) (k : Uuid) :
    ((db.lines.insertEach (InvoiceLine.copyTo db.invoices.next)
      (db.lines.rows.filter fun l => decide (l.invoiceId = k))).sum fun l =>
        if l.invoiceId = db.invoices.next then l.total else 0) = db.linesOf k := by
  rw [Table.sum_insertEach InvoiceLine.total fun l i => if_pos rfl]
  have h1 : (db.lines.sum fun l => if l.invoiceId = db.invoices.next then l.total else 0) = 0 := by
    apply Table.sum_eq_zero
    intro l hl
    rw [if_neg (h.lines l hl).ne]
  have h2 := Table.sum_filter db.lines (fun l => decide (l.invoiceId = k)) InvoiceLine.total
  rw [h1, zero_add]
  refine Eq.trans h2 ?_
  apply Table.sum_congr
  intro l _
  simp

/-- Only the totals of the invoice `k` may change. -/
theorem Totalled.update (h : Totalled db) {k : Uuid} {f : Invoice → Invoice}
    (hf : ∀ r, (f r).id = r.id) (hi : db'.invoices = db.invoices.update k f hf)
    (hl : ∀ l ∈ db'.lines, l.invoiceId < db.invoices.next)
    (hj : ∀ j, j ≠ k → db'.linesOf j = db.linesOf j)
    (hk : ∀ r, db.invoices.find k = some r → r.Totalled db → (f r).Totalled db') :
    Totalled db' := by
  refine ⟨fun l hl1 => ?_, fun x hx => ?_⟩
  · rw [hi]
    exact hl l hl1
  · rw [hi] at hx
    obtain ⟨r, hr, rfl⟩ := (Table.mem_update).mp hx
    split
    · next hrk =>
      subst hrk
      exact hk r (Table.find_key hr) (h.totals r hr)
    · next hrk =>
      unfold Invoice.Totalled
      rw [hj _ hrk]
      exact h.totals r hr

/-- An operation that leaves the lines and the totals of every invoice alone. -/
theorem Totalled.header (h : Totalled db) {k : Uuid} {f : Invoice → Invoice}
    (hf : ∀ r, (f r).id = r.id) (hi : db'.invoices = db.invoices.update k f hf)
    (hl : db'.lines = db.lines)
    (hk : ∀ r, (f r).subtotal = r.subtotal ∧ (f r).total = r.total ∧
      (f r).taxAmount = r.taxAmount ∧ (f r).discountAmount = r.discountAmount) : Totalled db' := by
  refine h.update hf hi (by rw [hl]; exact h.lines) (fun j _ => ?_) fun r _ hr => ?_
  · unfold BillingDb.linesOf
    rw [hl]
  · obtain ⟨h1, h2, h3, h4⟩ := hk r
    unfold Invoice.Totalled BillingDb.linesOf
    rw [h1, h2, h3, h4, hf, hl]
    exact hr

/-- A new invoice with its lines. -/
theorem Totalled.insert (h : Totalled db) {β : Type} {mk : ℕ → Invoice} (hk : ∀ i, (mk i).id = i)
    {line : β → ℕ → InvoiceLine} {hl : ∀ b i, (line b i).id = i} {ls : List β}
    (hline : ∀ b i, (line b i).invoiceId = db.invoices.next)
    (hi : db'.invoices = db.invoices.insert mk hk)
    (hlines : db'.lines = db.lines.insertEach line ls hl)
    (hnew : (mk db.invoices.next).Totalled db') : Totalled db' := by
  refine ⟨fun l hl1 => ?_, fun x hx => ?_⟩
  · rw [hlines] at hl1
    rw [hi, Table.insert_next]
    rcases Table.mem_insertEach hl1 with hl1 | ⟨b, -, i, -, rfl⟩
    · exact (h.lines l hl1).trans (Nat.lt_succ_self _)
    · rw [hline]
      exact Nat.lt_succ_self _
  · rw [hi] at hx
    rcases (Table.mem_insert).mp hx with hx | rfl
    · have h1 : db'.linesOf x.id = db.linesOf x.id := by
        unfold BillingDb.linesOf
        rw [hlines]
        exact linesOf_insertEach hline (Table.key_lt_next hx).ne ls
      unfold Invoice.Totalled
      rw [h1]
      exact h.totals x hx
    · exact hnew

end Lines

/-! ### One operation -/

section Operations

variable {db db' : BillingDb} {outside : AppResult Unit} {number : String}

/-- An invoice whose tax is applied in whole cents. -/
theorem Invoice.taxed_total {i : Invoice} {subtotal : Numeric 2} {tax : AppliedTax} {discount : ℚ}
    (ht : WholeCents tax.amount) (hd : WholeCents discount)
    (hi : i.discountAmount = .ofRat 2 discount) :
    (i.taxed subtotal tax discount).total =
      subtotal + (i.taxed subtotal tax discount).taxAmount -
        (i.taxed subtotal tax discount).discountAmount := by
  show Numeric.ofRat 2 _ = subtotal + Numeric.ofRat 2 _ - i.discountAmount
  rw [hi]
  exact ofRat_total subtotal ht hd

theorem Totalled.created (h : Totalled db) {companyId : Uuid} {contractId : Option Uuid}
    {externalProvider : Option String} {s t discount : ℚ} {ls : List NewLine}
    {explicitAmount : Option ℚ} {rate : Option TaxRate}
    (ht : WholeCents (explicitAmount.getD 0)) (hd : WholeCents discount)
    (hi : db'.invoices = (Mokosh.created db
      (newInvoice number companyId contractId externalProvider s t discount) ls explicitAmount rate
      discount (fun _ => rfl)).invoices)
    (hl : db'.lines = db.lines.insertEach (NewLine.row db.invoices.next) ls) : Totalled db' := by
  refine h.insert (by intro _; rfl) (fun _ _ => rfl) (hi.trans (created_invoices ..)) hl ⟨?_, ?_⟩
  · unfold BillingDb.linesOf
    rw [hl]
    rfl
  · exact Invoice.taxed_total (taxOn_wholeCents _ rate ht) hd rfl

theorem Totalled.createInvoice (h : Totalled db) {request : CreateInvoiceRequest}
    {externalProvider : Option String} (ht : WholeCents (request.taxAmount.getD 0))
    (hd : WholeCents (request.discountAmount.getD 0))
    (hok : Mokosh.createInvoice db request number externalProvider outside = .ok db') :
    Totalled db' := by
  obtain ⟨rate, -, rfl⟩ := createInvoice_eq_ok hok
  exact h.created ht hd rfl rfl

theorem Totalled.createInvoiceFromTimeEntries (h : Totalled db)
    {request : CreateInvoiceFromTimeEntriesRequest}
    (hok : Mokosh.createInvoiceFromTimeEntries db request number outside = .ok db') :
    Totalled db' := by
  obtain ⟨rate, -, rfl⟩ := createInvoiceFromTimeEntries_eq_ok hok
  exact h.created (by exact wholeCents_zero) wholeCents_zero rfl rfl

theorem Totalled.generateOneRecurringInvoice (h : Totalled db) {contractId companyId : Uuid}
    {periodStart periodEnd : NaiveDate}
    (hok : Mokosh.generateOneRecurringInvoice db contractId companyId periodStart periodEnd number
      outside = .ok db') : Totalled db' := by
  rcases generateOneRecurringInvoice_eq_ok hok with rfl | ⟨-, ls, rate, -, rfl⟩
  · exact h
  · exact h.created (by exact wholeCents_zero) wholeCents_zero rfl rfl

theorem Totalled.amendInvoice (h : Totalled db) {invoiceId : Uuid}
    (hok : Mokosh.amendInvoice db invoiceId number outside = .ok db') : Totalled db' := by
  obtain ⟨original, ho, -, -, rfl⟩ := amendInvoice_eq_ok hok
  obtain ⟨h1, h2⟩ := h.totals original (Table.find_mem ho)
  refine h.insert (by intro _; rfl) (fun _ _ => rfl) rfl rfl ⟨?_, h2⟩
  rw [Table.key_of_find ho] at h1
  exact h1.trans (linesOf_copies h invoiceId).symm

theorem Totalled.voidInvoice (h : Totalled db) {invoiceId : Uuid}
    (hok : Mokosh.voidInvoice db invoiceId = .ok db') : Totalled db' := by
  obtain ⟨row, -, -, rfl⟩ := voidInvoice_eq_ok hok
  exact h.header (by intro _; rfl) rfl rfl fun _ => ⟨rfl, rfl, rfl, rfl⟩

theorem Totalled.voidDelegatedInvoice (h : Totalled db) (invoiceId : Uuid) (provider : String) :
    Totalled (Mokosh.voidDelegatedInvoice db invoiceId provider) := by
  rcases voidDelegatedInvoice_cases db invoiceId provider with h1 | ⟨row, -, -, -, h1⟩ <;> rw [h1]
  · exact h
  · exact h.header (by intro _; rfl) rfl rfl fun _ => ⟨rfl, rfl, rfl, rfl⟩

theorem Totalled.voidAmended (h : Totalled db) (o : Option Uuid) :
    Totalled (Mokosh.voidAmended db o) := by
  cases o with
  | none => exact h
  | some k => exact h.header (by intro _; rfl) rfl rfl fun _ => ⟨rfl, rfl, rfl, rfl⟩

theorem Totalled.writeOffInvoice (h : Totalled db) {invoiceId : Uuid}
    (hok : Mokosh.writeOffInvoice db invoiceId = .ok db') : Totalled db' := by
  obtain ⟨row, -, -, -, rfl⟩ := writeOffInvoice_eq_ok hok
  exact h.header (by intro _; rfl) rfl rfl fun _ => ⟨rfl, rfl, rfl, rfl⟩

/-- Money moves on child rows, and a recompute leaves the totals alone. -/
theorem Totalled.recomputeOf (h : Totalled db) {db1 : BillingDb} (hi : db1.invoices = db.invoices)
    (hl : db1.lines = db.lines) (o : Option Uuid) : Totalled (Mokosh.recomputeOf db1 o) := by
  have h1 : Totalled db1 := by
    refine ⟨by rw [hl, hi]; exact h.lines, ?_⟩
    unfold Invoice.Totalled BillingDb.linesOf
    rw [hl, hi]
    exact h.totals
  cases o with
  | none => exact h1
  | some k => exact h1.header (by intro _; rfl) rfl rfl fun _ => ⟨rfl, rfl, rfl, rfl⟩

/-- A header that is written in whole cents has the total of its columns. -/
theorem Invoice.edited_total {i current : Invoice} {request : UpdateInvoiceRequest}
    (hl : request.lines = none) (ht : request.taxAmount = none)
    (hd : WholeCents (updateDiscount current request)) :
    (i.edited current request).subtotal = current.subtotal ∧
      (i.edited current request).total = (i.edited current request).subtotal +
        (i.edited current request).taxAmount - (i.edited current request).discountAmount := by
  have h1 : updateSubtotal current request = current.subtotal.toRat := by
    unfold updateSubtotal
    rw [hl]
  have h2 : updateTax current request = current.taxAmount.toRat := by
    unfold updateTax
    rw [ht]
    rfl
  unfold Invoice.edited
  simp only [h1, h2, Numeric.ofRat_toRat]
  refine ⟨trivial, ?_⟩
  rw [ofRat_total _ (wholeCents_toRat _) hd, Numeric.ofRat_toRat]

/-- The amounts of an update are whole cents, and if it writes back the subtotal it has read, this
is still the stored one. -/
def UpdateFresh (db : BillingDb) (current : Invoice) (request : UpdateInvoiceRequest) : Prop :=
  WholeCents (request.taxAmount.getD 0) ∧ WholeCents (request.discountAmount.getD 0) ∧
    (request.retaxes = false →
      ∀ row ∈ db.invoices.find current.id, row.subtotal = current.subtotal)

theorem UpdateFresh.discount {current : Invoice} {request : UpdateInvoiceRequest}
    (h : UpdateFresh db current request) : WholeCents (updateDiscount current request) := by
  have hd := h.2.1
  unfold updateDiscount
  cases hr : request.discountAmount with
  | none => exact wholeCents_toRat _
  | some d =>
      rw [hr] at hd
      exact hd

/-- What an update writes on the row it locked. -/
theorem Invoice.rewritten_totalled {row current : Invoice} {request : UpdateInvoiceRequest}
    {rate : Option TaxRate} (h : row.Totalled db) (hrow : db.invoices.find current.id = some row)
    (hu : UpdateFresh db current request) :
    (row.rewritten current request ((replaceLines db current.id request.lines).linesOf current.id)
      (taxOn ((replaceLines db current.id request.lines).taxableOf current.id) request.taxAmount
        rate)).Totalled (replaceLines db current.id request.lines) := by
  have hk := Table.key_of_find hrow
  unfold Invoice.rewritten
  split
  · refine ⟨?_, Invoice.taxed_total (taxOn_wholeCents _ rate hu.1) hu.discount rfl⟩
    show _ = BillingDb.linesOf _ row.id
    rw [hk]
    rfl
  · next hr =>
    have hr' : (request.lines = none ∧ request.taxRateId = none) ∧ request.taxAmount = none := by
      simpa [UpdateInvoiceRequest.retaxes] using hr
    obtain ⟨⟨hl, -⟩, ht⟩ := hr'
    obtain ⟨h1, h2⟩ := Invoice.edited_total (i := row) hl ht hu.discount
    refine ⟨?_, h2⟩
    -- The lines are those of the row, whose subtotal is the one that was read.
    rw [h1, ← hu.2.2 (by simpa using hr) row hrow, hl]
    exact h.1

theorem Totalled.updateInvoice (h : Totalled db) {current : Invoice}
    {request : UpdateInvoiceRequest} (hu : UpdateFresh db current request)
    (hok : commitUpdateInvoice db current request outside = .ok db') : Totalled db' := by
  obtain ⟨row, rate, hrow, -, -, -, rfl⟩ := commitUpdateInvoice_eq_ok hok
  apply Totalled.voidAmended
  refine h.update (fun i => (i.rewritten_same current request _ _).1) rfl ?_ ?_ ?_
  · intro l hl
    have hl' : l ∈ (replaceLines db current.id request.lines).lines := hl
    unfold replaceLines at hl'
    split at hl'
    · exact h.lines l hl'
    · rcases Table.mem_insertEach hl' with hl' | ⟨b, -, i, -, rfl⟩
      · exact h.lines l (Table.mem_filter.mp hl').1
      · exact Table.find_lt_next hrow
  · intro j hj
    exact linesOf_replaceLines hj request.lines
  · intro r hr ht
    exact Invoice.rewritten_totalled ht hr hu

end Operations

/-! ### Runs -/

namespace Billing

/-- The condition on the rest of a call. -/
def CallFresh (db : BillingDb) : BillingCall → Prop
  | .update current request => UpdateFresh db current request
  | .deletePayment _ _ | .gatewayRefunds _ _ _ | .voidCreditNote _ _ => True

/-- The condition on one transaction: an invoice is created with amounts of whole cents, and an
update writes back no subtotal that has changed since it read. -/
def WritesFresh (s : Billing) : BillingEvent → Prop
  | .createInvoice request _ _ _ =>
    WholeCents (request.taxAmount.getD 0) ∧ WholeCents (request.discountAmount.getD 0)
  | .commit i _ => ∀ c ∈ s.calls[i]?, CallFresh s.db c
  | _ => True

instance (db : BillingDb) (c : BillingCall) : Decidable (CallFresh db c) :=
  match c with
  | .update _ _ => inferInstanceAs (Decidable (_ ∧ _ ∧ (_ → ∀ row ∈ _, _)))
  | .deletePayment _ _ | .gatewayRefunds _ _ _ | .voidCreditNote _ _ =>
    inferInstanceAs (Decidable True)

instance (s : Billing) (e : BillingEvent) : Decidable (WritesFresh s e) :=
  match e with
  | .createInvoice _ _ _ _ => inferInstanceAs (Decidable (_ ∧ _))
  | .commit i _ => inferInstanceAs (Decidable (∀ c ∈ s.calls[i]?, CallFresh s.db c))
  | .time _ | .createInvoiceFromTimeEntries _ _ _ | .generateOneRecurringInvoice _ _ _ _ _ _
  | .amendInvoice _ _ _ | .voidInvoice _ | .voidDelegatedInvoice _ _ | .writeOffInvoice _
  | .createPayment _ | .recordGatewayPayment _ _ _ | .createCreditNote _ _ | .startUpdate _ _
  | .startDeletePayment _ | .startGatewayRefunds _ _ | .startVoidCreditNote _ =>
    inferInstanceAs (Decidable True)

theorem finish_totalled {db db' : BillingDb} {outside : AppResult Unit} {c : BillingCall}
    (h : Totalled db) (hc : CallFresh db c) (hok : finish db outside c = .ok db') :
    Totalled db' := by
  cases c with
  | update current request => exact h.updateInvoice hc hok
  | deletePayment paymentId o =>
      cases hok
      exact h.recomputeOf (by rfl) (by rfl) o
  | gatewayRefunds paymentId o rs =>
      obtain ⟨db1, h1, rfl⟩ := commitGatewayRefunds_eq_ok hok
      obtain ⟨hi, hl, -, -⟩ := insertRefunds_frame h1
      exact h.recomputeOf hi hl o
  | voidCreditNote creditNoteId i =>
      rw [commitVoidCreditNote_eq_ok hok]
      exact h.recomputeOf (by rfl) (by rfl) (some i)

/-- One transaction keeps the totals. -/
theorem step_totalled {s s' : Billing} {e : BillingEvent} (h : Totalled s.db)
    (hw : s.WritesFresh e) (hs : step s e = some s') : Totalled s'.db := by
  cases e with
  | time op =>
      cases hs
      exact ⟨h.lines, h.totals⟩
  | createInvoice request number externalProvider outside =>
      exact write_holds h (fun db' hok => h.createInvoice hw.1 hw.2 hok) hs
  | createInvoiceFromTimeEntries request number outside =>
      exact write_holds h (fun db' hok => h.createInvoiceFromTimeEntries hok) hs
  | generateOneRecurringInvoice contractId companyId periodStart periodEnd number outside =>
      exact write_holds h (fun db' hok => h.generateOneRecurringInvoice hok) hs
  | amendInvoice invoiceId number outside =>
      exact write_holds h (fun db' hok => h.amendInvoice hok) hs
  | voidInvoice invoiceId => exact write_holds h (fun db' hok => h.voidInvoice hok) hs
  | voidDelegatedInvoice invoiceId provider =>
      refine write_holds h (fun db' hok => ?_) hs
      cases hok
      exact h.voidDelegatedInvoice invoiceId provider
  | writeOffInvoice invoiceId => exact write_holds h (fun db' hok => h.writeOffInvoice hok) hs
  | createPayment request =>
      refine write_holds h (fun db' hok => ?_) hs
      obtain ⟨-, rfl⟩ := createPayment_eq_ok hok
      exact h.recomputeOf (by rfl) (by rfl) _
  | recordGatewayPayment invoiceId providerReference amount =>
      refine write_holds h (fun db' hok => ?_) hs
      rcases recordGatewayPayment_eq_ok hok with rfl | ⟨-, row, -, -, -, rfl⟩
      · exact h
      · exact h.recomputeOf (by rfl) (by rfl) _
  | createCreditNote request outside =>
      refine write_holds h (fun db' hok => ?_) hs
      obtain ⟨-, -, -, -, -, -, mk, hk, -, rfl⟩ := createCreditNote_eq_ok hok
      exact h.recomputeOf (by rfl) (by rfl) (some request.invoiceId)
  | startUpdate _ _ | startDeletePayment _ | startGatewayRefunds _ _ | startVoidCreditNote _ =>
      cases hs
      exact h
  | commit i outside =>
      obtain ⟨c, hc, rfl⟩ := step_commit hs
      exact committed_holds h fun db' hok => finish_totalled h (hw c hc) hok

variable {time : TimeDb} {mileage : Table MileageEntry.id} {taxRates : List TaxRate}
  {products : List Product}

theorem init_totalled : Totalled (init time mileage taxRates products).db := by
  constructor <;> simp [init]

/-- In every state of every interleaving whose transactions write whole cents and no stale subtotal,
the columns of every invoice agree with its lines and with each other.  An update neither finds a
void invoice nor leaves one. -/
theorem totals_of_reachable {es : List BillingEvent} {s : Billing}
    (hw : StepsMeet step WritesFresh (init time mileage taxRates products) es)
    (hr : run step (init time mileage taxRates products) es = some s) :
    ∀ i ∈ s.db.invoices, i.subtotal = s.db.linesOf i.id ∧
      i.total = i.subtotal + i.taxAmount - i.discountAmount ∧
      (i.status ≠ .void → i.balanceDue = i.total - i.amountPaid - i.amountCredited) := by
  intro i hi
  have h := run_invariant_of_stepsMeet (fun s => Totalled s.db)
    (fun _ _ _ h hw hs => step_totalled h hw hs) init_totalled hw hr
  obtain ⟨h1, h2⟩ := h.totals i hi
  obtain ⟨-, -, h3⟩ := (reachable_sound hr).balanced.squared i hi
  exact ⟨h1, h2, h3⟩

/-- Two hours at 50 are invoiced.  One update gives a discount of 10, another replaces the line by
an hour at 30; both have read before either writes. -/
def twoUpdates (i j : ℕ) : List BillingEvent :=
  [.createInvoice ⟨7, none, none, none, none, [⟨.service, none, true, 2, 50, none, none⟩],
      by simp⟩ "INV-1" none (.ok ()),
    .startUpdate 0 { discountAmount := some 10 },
    .startUpdate 0 { lines := some [⟨.service, none, true, 1, 30, none, none⟩] },
    .commit i (.ok ()), .commit j (.ok ())]

/-- If the discount commits last, it writes back the subtotal of the line that is gone. -/
theorem stale_subtotal_written_back :
    ∃ s, run step (init (sampleTimeDb ⟨∅, ∅⟩) ∅ [] []) (twoUpdates 1 0) = some s ∧
      ∃ i ∈ s.db.invoices, i.status = .draft ∧ i.subtotal = ⟨10000⟩ ∧
        s.db.linesOf i.id = ⟨3000⟩ ∧ i.subtotal ≠ s.db.linesOf i.id := by
  have h : (run step (init (sampleTimeDb ⟨∅, ∅⟩) ∅ [] []) (twoUpdates 1 0)).any (fun s =>
      s.db.invoices.rows.any fun i => decide (i.status = .draft ∧ i.subtotal = ⟨10000⟩ ∧
        s.db.linesOf i.id = ⟨3000⟩ ∧ i.subtotal ≠ s.db.linesOf i.id)) = true := by
    decide +kernel
  obtain ⟨s, hs, hp⟩ := exists_run_of_any h
  obtain ⟨i, hi, hd⟩ := List.any_eq_true.mp hp
  exact ⟨s, hs, i, hi, by simpa using hd⟩

/-- If the lines are replaced last, the columns agree. -/
theorem totals_of_reachable_sample :
    ∃ s, run step (init (sampleTimeDb ⟨∅, ∅⟩) ∅ [] []) (twoUpdates 0 0) = some s ∧
      ∀ i ∈ s.db.invoices, i.subtotal = s.db.linesOf i.id ∧
        i.total = i.subtotal + i.taxAmount - i.discountAmount ∧
        (i.status ≠ .void → i.balanceDue = i.total - i.amountPaid - i.amountCredited) := by
  have h : (run step (init (sampleTimeDb ⟨∅, ∅⟩) ∅ [] []) (twoUpdates 0 0)).any (fun s =>
      s.db.invoices.rows.map (·.subtotal) == [⟨3000⟩]) = true := by decide +kernel
  obtain ⟨s, hs, -⟩ := exists_run_of_any h
  exact ⟨s, hs, totals_of_reachable (by decide +kernel) hs⟩

end Billing

end Mokosh
