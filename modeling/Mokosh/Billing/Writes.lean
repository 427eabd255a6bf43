import Mokosh.Billing.Work

/-! # What one transaction writes

`step_wrote` sums up the machine for the properties of invoices and of the money on them: whatever
the event, the transaction leaves invoices, payments, refunds and credit notes alone, or does one
of twelve things, of which `Wrote` states the checks that were passed and the rows that are
written.  The invariants of the following modules split on these cases and never unfold an
operation.

The last section is such an invariant, of the runs without refunds: every payment and every credit
note is positive, so that an invoice has one exactly if its amounts say so (`Refundless`). -/

namespace Mokosh

/-- A row as the creating operations leave it. -/
structure Invoice.New (i : Invoice) : Prop where
  status : i.status = .draft ∧ i.sentAt = false ∨ i.status = .sent ∧ i.sentAt = true
  issuer : i.sentAt = i.externalProvider.isSome ∧ i.issuerSnapshot = false
  amountPaid : i.amountPaid = 0
  amountCredited : i.amountCredited = 0
  balanceDue : i.balanceDue = i.total
  writtenOffAt : i.writtenOffAt = false
  voidedAt : i.voidedAt = false
  writeOffAmount : i.writeOffAmount = none
  amends : i.amendsInvoiceId = none

theorem newInvoice_new (number : String) (companyId : Uuid) (contractId : Option Uuid)
    (externalProvider : Option String) (s t d : ℚ) (subtotal : Numeric 2) (tax : AppliedTax)
    (discount : ℚ) (i : Uuid) :
    ((newInvoice number companyId contractId externalProvider s t d i).taxed subtotal tax
      discount).New := by
  obtain ⟨h1, h2, h3⟩ := @newInvoice_taxed number companyId contractId externalProvider s t d
    subtotal tax discount i
  refine ⟨?_, ⟨rfl, rfl⟩, h1, h2, h3, rfl, rfl, rfl, rfl⟩
  cases externalProvider with
  | none => exact .inl ⟨rfl, rfl⟩
  | some p => exact .inr ⟨rfl, rfl⟩

section Spec

variable {db db' : BillingDb}

/-- What a recompute does to the invoices, from the child rows `db1`. -/
theorem recomputeOf_invoices {db1 : BillingDb} (hi : db1.invoices = db.invoices) (k : Uuid) :
    (recomputeOf db1 (some k)).invoices =
      db.invoices.update k (·.recomputed (db1.paidOn k) (db1.creditsOf k)) := by
  rw [← hi]
  rfl

end Spec

namespace Billing

/-- What one transaction does to the invoices and to the money on them. -/
inductive Wrote (s : Billing) : BillingEvent → BillingDb → Prop
  | idle {e : BillingEvent} {db' : BillingDb} (hi : db'.invoices = s.db.invoices)
      (hm : SameMoney s.db db') : Wrote s e db'
  | create {e : BillingEvent} {db' : BillingDb} {mk : ℕ → Invoice} (hk : ∀ i, (mk i).id = i)
      (hnew : ∀ i, (mk i).New) (hi : db'.invoices = s.db.invoices.insert mk hk)
      (hm : SameMoney s.db db') : Wrote s e db'
  | amend {invoiceId : Uuid} {number : String} {outside : AppResult Unit} {db' : BillingDb}
      {original : Invoice} (hrow : s.db.invoices.find invoiceId = some original)
      (hs : original.status = .sent) (hp : ¬ 0 < original.amountPaid)
      (hc : ¬ 0 < original.amountCredited)
      (hno : ∀ i ∈ s.db.invoices, i.amendsInvoiceId = some invoiceId → i.status.isFrozen = true)
      (hi : db'.invoices = s.db.invoices.insert (original.amendment number))
      (hm : SameMoney s.db db') : Wrote s (.amendInvoice invoiceId number outside) db'
  | void {invoiceId : Uuid} {row : Invoice} (hrow : s.db.invoices.find invoiceId = some row)
      (hf : row.status.isFrozen = false) :
      Wrote s (.voidInvoice invoiceId)
        { s.db with invoices := s.db.invoices.update invoiceId (·.voided) }
  | voidDelegated {invoiceId : Uuid} {provider : String} {row : Invoice}
      (hrow : s.db.invoices.find invoiceId = some row)
      (hp : row.externalProvider = some provider) (hv : row.status ≠ .void) :
      Wrote s (.voidDelegatedInvoice invoiceId provider)
        { s.db with invoices := s.db.invoices.update invoiceId (·.voided) }
  | writeOff {invoiceId : Uuid} {row : Invoice} (hrow : s.db.invoices.find invoiceId = some row)
      (hs : row.status = .sent ∨ row.status = .partiallyPaid) (hd : 0 < row.balanceDue) :
      Wrote s (.writeOffInvoice invoiceId)
        { s.db with invoices := s.db.invoices.update invoiceId (·.writtenOffNow) }
  | payment {request : CreatePaymentRequest}
      (hp : ∀ i, request.invoiceId = some i →
        Payable s.db.invoices i request.companyId request.amount) :
      Wrote s (.createPayment request)
        (recomputeOf (insertPayment s.db request.invoiceId request.companyId request.amount
          request.gatewayTransactionId) request.invoiceId)
  | gatewayPayment {invoiceId : Uuid} {reference : String} {amount : ℚ} {row : Invoice}
      (ha : 0 < Numeric.ofRat 2 amount) (hrow : s.db.invoices.find invoiceId = some row)
      (hf : row.status.isFrozen = true)
      (hle : amount ≤ (row.total - row.amountPaid - row.amountCredited).toRat) :
      Wrote s (.recordGatewayPayment invoiceId reference amount)
        (recomputeOf (insertPayment s.db (some invoiceId) row.companyId (.ofRat 2 amount)
          (some reference)) (some invoiceId))
  | creditNote {request : CreateCreditNoteRequest} {outside : AppResult Unit} {row : Invoice}
      {total : ℚ} {mk : ℕ → CreditNote} {hk : ∀ j, (mk j).id = j}
      (hrow : s.db.invoices.find request.invoiceId = some row)
      (ht : creditNoteTotal request = .ok total) (hc : Creditable row total)
      (ha : 0 < Numeric.ofRat 2 total)
      (hmk : ∀ j, (mk j).invoiceId = request.invoiceId ∧ (mk j).companyId = row.companyId ∧
        (mk j).status = .issued ∧ (mk j).total = .ofRat 2 total) :
      Wrote s (.createCreditNote request outside)
        (recomputeInvoiceBalance { s.db with creditNotes := s.db.creditNotes.insert mk hk }
          request.invoiceId)
  | update {i : ℕ} {outside : AppResult Unit} {current row : Invoice}
      {request : UpdateInvoiceRequest} {rate : Option TaxRate}
      (hcall : s.calls[i]? = some (.update current request))
      (hrow : s.db.invoices.find current.id = some row) (hf : row.status.isFrozen = false)
      (hamend : checkAmended s.db (replacedBy row current request) = .ok ()) :
      Wrote s (.commit i outside)
        (voidAmended (rewriteInvoice s.db current request rate) (replacedBy row current request))
  | deletePayment {i : ℕ} {outside : AppResult Unit} {paymentId : Uuid} {o : Option Uuid}
      (hcall : s.calls[i]? = some (.deletePayment paymentId o)) :
      Wrote s (.commit i outside) (commitDeletePayment s.db paymentId o)
  | refunds {i : ℕ} {outside : AppResult Unit} {paymentId : Uuid} {o : Option Uuid}
      {rs : List RefundLine} {db1 : BillingDb}
      (hcall : s.calls[i]? = some (.gatewayRefunds paymentId o rs))
      (hins : insertRefunds s.db paymentId o rs = .ok db1) :
      Wrote s (.commit i outside) (recomputeOf db1 o)
  | voidCreditNote {i : ℕ} {outside : AppResult Unit} {creditNoteId invoiceId : Uuid}
      (hcall : s.calls[i]? = some (.voidCreditNote creditNoteId invoiceId)) :
      Wrote s (.commit i outside) (recomputeInvoiceBalance (voidNote s.db creditNoteId) invoiceId)

section Step

variable {s s' : Billing} {e : BillingEvent}

theorem Wrote.refl (s : Billing) (e : BillingEvent) : Wrote s e s.db := .idle rfl ⟨rfl, rfl, rfl⟩

theorem Wrote.created {db' : BillingDb} {number : String} {companyId : Uuid}
    {contractId : Option Uuid} {externalProvider : Option String} {x t d discount : ℚ}
    {ls : List NewLine} {explicitAmount : Option ℚ} {rate : Option TaxRate}
    (hi : db'.invoices = (Mokosh.created s.db
      (newInvoice number companyId contractId externalProvider x t d) ls explicitAmount rate
      discount (fun _ => rfl)).invoices) (hm : SameMoney s.db db') : Wrote s e db' :=
  .create (by intro _; rfl)
    (newInvoice_new number companyId contractId externalProvider x t d _ _ discount)
    (hi.trans (created_invoices ..)) hm

theorem wrote_finish {i : ℕ} {outside : AppResult Unit} {c : BillingCall} {db' : BillingDb}
    (hc : s.calls[i]? = some c) (hok : finish s.db outside c = .ok db') :
    Wrote s (.commit i outside) db' := by
  cases c with
  | update current request =>
      obtain ⟨row, rate, hrow, hf, hamend, -, rfl⟩ := commitUpdateInvoice_eq_ok hok
      exact .update hc hrow hf hamend
  | deletePayment paymentId o =>
      cases hok
      exact .deletePayment hc
  | gatewayRefunds paymentId o rs =>
      obtain ⟨db1, hins, rfl⟩ := commitGatewayRefunds_eq_ok hok
      exact .refunds hc hins
  | voidCreditNote creditNoteId invoiceId =>
      rw [commitVoidCreditNote_eq_ok hok]
      exact .voidCreditNote hc

/-- Every transaction does one of the things that `Wrote` lists. -/
theorem step_wrote (hs : step s e = some s') : Wrote s e s'.db := by
  have hrefl := Wrote.refl s e
  cases e with
  | time op =>
      cases hs
      exact .idle rfl ⟨rfl, rfl, rfl⟩
  | createInvoice request number externalProvider outside =>
      refine write_holds hrefl (fun db' hok => ?_) hs
      obtain ⟨rate, -, rfl⟩ := createInvoice_eq_ok hok
      exact .created rfl ⟨rfl, rfl, rfl⟩
  | createInvoiceFromTimeEntries request number outside =>
      refine write_holds hrefl (fun db' hok => ?_) hs
      obtain ⟨rate, -, rfl⟩ := createInvoiceFromTimeEntries_eq_ok hok
      exact .created rfl ⟨rfl, rfl, rfl⟩
  | generateOneRecurringInvoice contractId companyId periodStart periodEnd number outside =>
      refine write_holds hrefl (fun db' hok => ?_) hs
      rcases generateOneRecurringInvoice_eq_ok hok with rfl | ⟨-, ls, rate, -, rfl⟩
      · exact hrefl
      · exact .created rfl ⟨rfl, rfl, rfl⟩
  | amendInvoice invoiceId number outside =>
      refine write_holds hrefl (fun db' hok => ?_) hs
      obtain ⟨original, ho, hst, ⟨hp, hc, hno⟩, rfl⟩ := amendInvoice_eq_ok hok
      exact .amend ho hst hp hc hno rfl ⟨rfl, rfl, rfl⟩
  | voidInvoice invoiceId =>
      refine write_holds hrefl (fun db' hok => ?_) hs
      obtain ⟨row, hrow, hf, rfl⟩ := voidInvoice_eq_ok hok
      exact .void hrow hf
  | voidDelegatedInvoice invoiceId provider =>
      cases hs
      rcases voidDelegatedInvoice_cases s.db invoiceId provider with h | ⟨row, hrow, hp, hv, h⟩
      · rw [committed, h]
        exact hrefl
      · rw [committed, h]
        exact .voidDelegated hrow hp hv
  | writeOffInvoice invoiceId =>
      refine write_holds hrefl (fun db' hok => ?_) hs
      obtain ⟨row, hrow, hst, hd, rfl⟩ := writeOffInvoice_eq_ok hok
      exact .writeOff hrow hst hd
  | createPayment request =>
      refine write_holds hrefl (fun db' hok => ?_) hs
      obtain ⟨hp, rfl⟩ := createPayment_eq_ok hok
      exact .payment hp
  | recordGatewayPayment invoiceId reference amount =>
      refine write_holds hrefl (fun db' hok => ?_) hs
      rcases recordGatewayPayment_eq_ok hok with rfl | ⟨ha, row, hrow, hf, hle, rfl⟩
      · exact hrefl
      · exact .gatewayPayment ha hrow hf hle
  | createCreditNote request outside =>
      refine write_holds hrefl (fun db' hok => ?_) hs
      obtain ⟨row, total, hrow, ht, hc, ha, mk, hk, hmk, rfl⟩ := createCreditNote_eq_ok hok
      exact .creditNote hrow ht hc ha hmk
  | startUpdate _ _ | startDeletePayment _ | startGatewayRefunds _ _ | startVoidCreditNote _ =>
      cases hs
      exact hrefl
  | commit i outside =>
      obtain ⟨c, hc, rfl⟩ := step_commit hs
      exact committed_holds hrefl fun db' hok => wrote_finish hc hok

/-- No transaction removes an invoice, or makes one forget what it amends. -/
theorem step_invoicesStay (hs : step s e = some s') : InvoicesStay s.db s'.db := by
  have hw := step_wrote hs
  generalize s'.db = db' at hw ⊢
  cases hw with
  | idle hi hm =>
      intro i h
      exact ⟨i, by rwa [hi], rfl, rfl⟩
  | create hk hnew hi hm => exact .insert hk hi
  | amend hrow hst hp hcr hno hi hm => exact .insert (by intro _; rfl) hi
  | void hrow hf => exact .update (by intro _; rfl) rfl fun _ => rfl
  | voidDelegated hrow hp hne => exact .update (by intro _; rfl) rfl fun _ => rfl
  | writeOff hrow hst hd => exact .update (by intro _; rfl) rfl fun _ => rfl
  | payment hp => exact .recomputeOf (by rfl) _
  | gatewayPayment ha hrow hf hle => exact .recomputeOf (by rfl) _
  | creditNote hrow ht hcr ha hmk => exact .recomputeOf (by rfl) (some _)
  | @update i outside current row request rate hcall hrow hf hamend =>
      have h1 : InvoicesStay s.db (rewriteInvoice s.db current request rate) :=
        .update (fun i => (i.rewritten_same current request _ _).1) rfl
          fun i => (i.rewritten_marks current request _ _).2.2.2
      cases replacedBy row current request with
      | none => exact h1
      | some o => exact h1.trans (.update (by intro _; rfl) rfl fun _ => rfl)
  | deletePayment hcall => exact .recomputeOf (by rfl) _
  | refunds hcall hins => exact .recomputeOf (insertRefunds_frame hins).1 _
  | voidCreditNote hcall => exact .recomputeOf (by rfl) (some _)

end Step

/-! ### Runs without refunds -/

end Billing

/-- Everything but refunds. -/
def BillingEvent.refundless : BillingEvent → Bool
  | .startGatewayRefunds _ _ => false
  | _ => true

/-- There are no refunds, and payments and credit notes are positive. -/
structure Plain (db : BillingDb) : Prop where
  refunds : ∀ r, r ∉ db.refunds
  payments : ∀ p ∈ db.payments, 0 < p.amount
  credits : ∀ n ∈ db.creditNotes, 0 < n.total

namespace Plain

variable {db db' : BillingDb}

theorem same (h : Plain db) (hm : SameMoney db db') : Plain db' := by
  obtain ⟨h1, h2, h3⟩ := hm
  constructor
  · rw [h2]
    exact h.refunds
  · rw [h1]
    exact h.payments
  · rw [h3]
    exact h.credits

theorem recomputeOf (h : Plain db) (o : Option Uuid) : Plain (Mokosh.recomputeOf db o) := by
  cases o with
  | none => exact h
  | some k => exact ⟨h.refunds, h.payments, h.credits⟩

theorem insertPayment (h : Plain db) {o : Option Uuid} {companyId : Uuid} {amount : Numeric 2}
    {reference : Option String} (ha : 0 < amount) :
    Plain (Mokosh.insertPayment db o companyId amount reference) := by
  refine ⟨h.refunds, ?_, h.credits⟩
  intro p hp
  rcases (Table.mem_insert).mp hp with hp | rfl
  · exact h.payments p hp
  · exact ha

theorem insertCreditNote (h : Plain db) {mk : ℕ → CreditNote} {hk : ∀ j, (mk j).id = j}
    (ha : ∀ j, 0 < (mk j).total) :
    Plain { db with creditNotes := db.creditNotes.insert mk hk } := by
  refine ⟨h.refunds, h.payments, ?_⟩
  intro n hn
  rcases (Table.mem_insert).mp hn with hn | rfl
  · exact h.credits n hn
  · exact ha _

theorem erasePayment (h : Plain db) (paymentId : Uuid) :
    Plain { db with
      payments := db.payments.erase paymentId
      refunds := db.refunds.filter fun r => decide (r.paymentId ≠ paymentId) } := by
  refine ⟨?_, ?_, h.credits⟩
  · intro r hr
    exact h.refunds r (Table.mem_filter.mp hr).1
  · intro p hp
    exact h.payments p (Table.mem_erase.mp hp).1

theorem voidNote (h : Plain db) (creditNoteId : Uuid) : Plain (Mokosh.voidNote db creditNoteId) := by
  refine ⟨h.refunds, h.payments, ?_⟩
  intro n hn
  obtain ⟨m, hm, rfl⟩ := (Table.mem_update).mp hn
  have h1 := h.credits m hm
  split <;> exact h1

/-- What is paid on an invoice is the sum of its payments. -/
theorem paidOn_eq (h : Plain db) (k : Uuid) : db.paidOn k = db.paymentsOf k := by
  have h1 : db.refundsOf k = 0 := Table.sum_eq_zero fun r hr => absurd hr (h.refunds r)
  rw [BillingDb.paidOn, h1, sub_zero]

theorem payment_le (h : Plain db) {p : Payment} (hp : p ∈ db.payments) {k : Uuid}
    (hk : p.invoiceId = some k) : p.amount ≤ db.paidOn k := by
  rw [h.paidOn_eq]
  have h1 := Table.le_sum (g := fun p => if p.invoiceId = some k then p.amount else 0) hp (by
    intro q hq
    split
    · exact (h.payments q hq).le
    · exact le_rfl)
  rwa [if_pos hk] at h1

theorem credit_le (h : Plain db) {n : CreditNote} (hn : n ∈ db.creditNotes)
    (hs : n.status = .issued) : n.total ≤ db.creditsOf n.invoiceId := by
  have h1 := Table.le_sum
    (g := fun m => if m.invoiceId = n.invoiceId ∧ m.status = .issued then m.total else 0) hn (by
    intro m hm
    split
    · exact (h.credits m hm).le
    · exact le_rfl)
  rwa [if_pos ⟨rfl, hs⟩] at h1

theorem paid_nonneg (h : Plain db) (k : Uuid) : 0 ≤ db.paidOn k := by
  rw [h.paidOn_eq]
  apply Table.sum_nonneg
  intro p hp
  split
  · exact (h.payments p hp).le
  · exact le_rfl

theorem credits_nonneg (h : Plain db) (k : Uuid) : 0 ≤ db.creditsOf k := by
  apply Table.sum_nonneg
  intro n hn
  split
  · exact (h.credits n hn).le
  · exact le_rfl

end Plain

namespace Billing

/-- The invariant of the runs without refunds. -/
structure Refundless (s : Billing) : Prop extends Sound s where
  plain : Plain s.db
  waiting : ∀ paymentId o rs, .gatewayRefunds paymentId o rs ∉ s.calls

section Refundless

variable {s s' : Billing} {e : BillingEvent}

theorem step_plain (h : s.Refundless) (hs : step s e = some s') : Plain s'.db := by
  have hp := h.plain
  have hw := step_wrote hs
  generalize s'.db = db' at hw ⊢
  cases hw with
  | idle hi hm => exact hp.same hm
  | create hk hnew hi hm => exact hp.same hm
  | amend hrow hst hpaid hcr hno hi hm => exact hp.same hm
  | void hrow hf => exact hp.same ⟨rfl, rfl, rfl⟩
  | voidDelegated hrow hpr hne => exact hp.same ⟨rfl, rfl, rfl⟩
  | writeOff hrow hst hd => exact hp.same ⟨rfl, rfl, rfl⟩
  | @payment request hpay => exact (hp.insertPayment request.amount_pos).recomputeOf _
  | gatewayPayment ha hrow hf hle => exact (hp.insertPayment ha).recomputeOf _
  | creditNote hrow ht hcr ha hmk =>
      exact (hp.insertCreditNote fun j => by rw [(hmk j).2.2.2]; exact ha).recomputeOf (some _)
  | @update i outside current row request rate hcall hrow hf hamend =>
      have h1 := hp.same (rewriteInvoice_sameMoney s.db current request rate)
      cases replacedBy row current request with
      | none => exact h1
      | some o => exact h1.same ⟨rfl, rfl, rfl⟩
  | deletePayment hcall => exact (hp.erasePayment _).recomputeOf _
  | refunds hcall hins => exact absurd (List.mem_of_getElem? hcall) (h.waiting _ _ _)
  | voidCreditNote hcall => exact (hp.voidNote _).recomputeOf (some _)

theorem step_refundless (h : s.Refundless) (he : e.refundless = true) (hs : step s e = some s') :
    s'.Refundless := by
  refine ⟨step_sound h.toSound hs, step_plain h hs, ?_⟩
  intro paymentId o rs hm
  rcases step_began hs _ hm with hm | hb
  · exact h.waiting paymentId o rs hm
  · cases hb
    exact absurd he (by simp [BillingEvent.refundless])

theorem init_refundless {time : TimeDb} {mileage : Table MileageEntry.id} {taxRates : List TaxRate}
    {products : List Product} : (init time mileage taxRates products).Refundless := by
  refine ⟨init_sound, ?_, by simp [init]⟩
  constructor <;> simp [init]

end Refundless

/-! ### Sample events -/

def sampleLines : List CreateInvoiceLineRequest := [⟨.service, none, true, 2, 50, none, none⟩]

theorem sampleLines_ne : sampleLines ≠ [] := by simp [sampleLines]

/-- An invoice of 100 for the company `7`. -/
def sampleInvoice : List BillingEvent :=
  [.createInvoice ⟨7, none, none, none, none, sampleLines, sampleLines_ne⟩ "INV-1" none (.ok ())]

theorem noLines_ne : (none : Option (List CreateInvoiceLineRequest)) ≠ some [] := by simp

/-- A request to send an invoice. -/
def sampleSend : UpdateInvoiceRequest := { status := some .sent, lines_ne := noLines_ne }

/-- The invoice is sent and amended, and the amendment is sent. -/
def sampleReplace : List BillingEvent :=
  [.startUpdate 0 sampleSend, .commit 0 (.ok ()), .amendInvoice 0 "INV-2" (.ok ()),
    .startUpdate 1 sampleSend, .commit 0 (.ok ())]

end Billing

end Mokosh
