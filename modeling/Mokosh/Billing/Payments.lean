import Mokosh.Billing.Service

/-! # Payments, refunds, credit notes and write-offs

The operations of `billing/service.rs` that move money on an issued invoice.  Each locks the row of
the invoice, writes a child row and recomputes the balance (`recomputeInvoiceBalance`); none of them
patches `amount_paid`, `amount_credited` or `balance_due` itself. -/

namespace Mokosh

/-- The row that `lock_invoice_totals` locks. -/
def lockInvoiceTotals (db : BillingDb) (invoiceId : Uuid) : Option Invoice :=
  db.invoices.find invoiceId

/-- Recompute the balance of the invoice of a payment, if it has one. -/
def recomputeOf (db : BillingDb) : Option Uuid → BillingDb
  | none => db
  | some invoiceId => recomputeInvoiceBalance db invoiceId

/-! ### Payments -/

/-- The checks of `create_payment` on the invoice that is paid, under its lock. -/
def checkPaidInvoice (db : BillingDb) (request : CreatePaymentRequest) : AppResult Unit :=
  match request.invoiceId with
  | none => assertCompany db.time.dir request.companyId
  | some invoiceId => do
    let row ← orError (.notFound "Invoice") (lockInvoiceTotals db invoiceId)
    let remaining := row.total - row.amountPaid - row.amountCredited
    if row.status = .draft ∨ row.status = .pending then
      .error (.conflict ("Invoice in status '" ++ row.status.asStr ++ "' has not been sent, so a payment cannot be recorded against it. Send it first."))
    else if remaining < request.amount then
      .error (.badRequest ("Payment amount " ++ request.amount.format ++
        " exceeds invoice balance due " ++ remaining.format))
    else if row.companyId ≠ request.companyId then
      .error (.badRequest "Payment company_id does not match the invoice's company")
    else .ok ()

/-- The unique index on the gateway's transaction ids. -/
def gatewayTaken (db : BillingDb) (reference : Option String) : Bool :=
  reference.any fun r => db.payments.rows.any fun p => decide (p.gatewayTransactionId = some r)

def insertPayment (db : BillingDb) (invoiceId : Option Uuid) (companyId : Uuid)
    (amount : Numeric 2) (reference : Option String) : BillingDb :=
  { db with payments := db.payments.insert fun id => ⟨id, invoiceId, companyId, amount, reference⟩ }

/-- `BillingService::create_payment`. -/
def createPayment (db : BillingDb) (request : CreatePaymentRequest) : AppResult BillingDb := do
  checkPaidInvoice db request
  if gatewayTaken db request.gatewayTransactionId then
    .error (.database "payments_tenant_gateway_txn_uq")
  else
    .ok (recomputeOf (insertPayment db request.invoiceId request.companyId request.amount
      request.gatewayTransactionId) request.invoiceId)

/-- The read of `delete_payment` before its lock: the invoice of the payment. -/
def readForDeletePayment (db : BillingDb) (paymentId : Uuid) : AppResult (Option Uuid) := do
  let p ← orError (.notFound "Payment") (db.payments.find paymentId)
  .ok p.invoiceId

/-- The rest of `delete_payment`.  The delete cascades to the payment's refunds. -/
def commitDeletePayment (db : BillingDb) (paymentId : Uuid) (invoiceId : Option Uuid) : BillingDb :=
  recomputeOf
    { db with
      payments := db.payments.erase paymentId
      refunds := db.refunds.filter fun r => decide (r.paymentId ≠ paymentId) }
    invoiceId

/-- `BillingService::record_gateway_payment`: what is committed, if the payment is recorded. -/
def recordGatewayPayment (db : BillingDb) (invoiceId : Uuid) (providerReference : String)
    (amount : ℚ) : AppResult BillingDb :=
  match lockInvoiceTotals db invoiceId with
  | none => .ok db
  | some row =>
    if row.status = .draft ∨ row.status = .pending then .ok db
    else if (row.total - row.amountPaid - row.amountCredited).toRat < amount then .ok db
    else if (Numeric.ofRat 2 amount) ≤ 0 then .error (.database "payments_amount_positive")
    -- `ON CONFLICT … DO NOTHING`: an earlier delivery recorded it.
    else if gatewayTaken db (some providerReference) then .ok db
    else
      .ok (recomputeInvoiceBalance (insertPayment db (some invoiceId) row.companyId
        (.ofRat 2 amount) (some providerReference)) invoiceId)

/-- The read of `record_gateway_refunds` before its lock: the payment and its invoice. -/
def readForGatewayRefunds (db : BillingDb) (providerReference : String) :
    Option (Uuid × Option Uuid) := do
  let p ← db.payments.rows.find? fun p => decide (p.gatewayTransactionId = some providerReference)
  some (p.id, p.invoiceId)

/-- The insert of one refund, which a row with the same reference turns into nothing. -/
def insertRefund (db : BillingDb) (paymentId : Uuid) (invoiceId : Option Uuid) (r : RefundLine) :
    AppResult BillingDb :=
  if (Numeric.ofRat 2 r.amount) ≤ 0 then .error (.database "payment_refunds_amount_check")
  else if db.refunds.rows.any fun x => decide (x.providerReference = r.providerReference) then .ok db
  else if (db.payments.find paymentId).isNone then
    .error (.database "payment_refunds_payment_id_fkey")
  else
    .ok { db with
      refunds := db.refunds.insert fun id =>
        ⟨id, paymentId, invoiceId, .ofRat 2 r.amount, r.providerReference⟩ }

def insertRefunds (db : BillingDb) (paymentId : Uuid) (invoiceId : Option Uuid) :
    List RefundLine → AppResult BillingDb
  | [] => .ok db
  | r :: rs => do
    let db' ← insertRefund db paymentId invoiceId r
    insertRefunds db' paymentId invoiceId rs

/-- The rest of `record_gateway_refunds`. -/
def commitGatewayRefunds (db : BillingDb) (paymentId : Uuid) (invoiceId : Option Uuid)
    (refunds : List RefundLine) : AppResult BillingDb := do
  let db' ← insertRefunds db paymentId invoiceId refunds
  .ok (recomputeOf db' invoiceId)

/-! ### Credit notes and write-offs -/

def creditLinesTotal : List CreateCreditNoteLineRequest → AppResult ℚ
  | [] => .ok 0
  | l :: ls =>
    if l.quantity ≤ 0 ∨ l.unitPrice ≤ 0 then
      .error (.badRequest "A credit note line must have a positive quantity and unit price; the document as a whole is the credit")
    else do
      let rest ← creditLinesTotal ls
      .ok (l.quantity * l.unitPrice + rest)

/-- `lock_and_check_credit_note_invoice`. -/
def lockAndCheckCreditNoteInvoice (db : BillingDb) (invoiceId : Uuid) (total : ℚ) :
    AppResult Invoice := do
  let row ← orError (.notFound "Invoice") (db.invoices.find invoiceId)
  if row.status.isFrozen = false then
    .error (.badRequest ("Invoice in status '" ++ row.status.asStr ++
      "' can still be edited, so it does not need a credit note"))
  else if row.status = .writtenOff then
    .error (.badRequest "This invoice has been written off; issuing a credit note against it would remove the same debt twice")
  else if row.status = .void then
    .error (.badRequest "This invoice was voided, so it charges nothing to credit")
  else if (row.total - row.amountCredited).toRat < total then
    .error (.badRequest ("A credit note for " ++ (Numeric.ofRat 2 total).format ++
      " exceeds what is left to credit on this invoice (" ++
      (row.total - row.amountCredited).format ++ " of " ++ row.total.format ++ ")"))
  else .ok row

/-- `BillingService::create_credit_note`.  Its first, short transaction only makes the checks that
the main one makes again. -/
def createCreditNote (db : BillingDb) (request : CreateCreditNoteRequest)
    (outside : AppResult Unit) : AppResult BillingDb := do
  let subtotal ← creditLinesTotal request.lines
  let tax := request.taxAmount.getD 0
  let total := subtotal + tax
  if tax < 0 then .error (.badRequest "A credit note's tax amount cannot be negative")
  else if total ≤ 0 then .error (.badRequest "A credit note must credit something")
  else do
    outside
    let row ← lockAndCheckCreditNoteInvoice db request.invoiceId total
    if (Numeric.ofRat 2 total) ≤ 0 then .error (.database "credit_notes_total_positive")
    else
      .ok (recomputeInvoiceBalance { db with
        creditNotes := db.creditNotes.insert fun id =>
          ⟨id, row.companyId, request.invoiceId, .issued, .ofRat 2 subtotal, .ofRat 2 tax,
            .ofRat 2 total⟩ } request.invoiceId)

/-- The read of `void_credit_note` before its lock. -/
def readForVoidCreditNote (db : BillingDb) (creditNoteId : Uuid) : AppResult Uuid := do
  let n ← orError (.notFound "Credit note") (db.creditNotes.find creditNoteId)
  if n.status = .void then .error (.conflict "This credit note is already void")
  else .ok n.invoiceId

/-- The rest of `void_credit_note`. -/
def commitVoidCreditNote (db : BillingDb) (creditNoteId invoiceId : Uuid)
    (outside : AppResult Unit) : AppResult BillingDb := do
  outside
  .ok (recomputeInvoiceBalance { db with
    creditNotes := db.creditNotes.update creditNoteId fun n => { n with status := .void } } invoiceId)

/-- `BillingService::write_off_invoice`. -/
def writeOffInvoice (db : BillingDb) (invoiceId : Uuid) : AppResult BillingDb := do
  let row ← orError (.notFound "Invoice") (db.invoices.find invoiceId)
  if row.status ≠ .sent ∧ row.status ≠ .partiallyPaid then
    .error (.conflict ("Invoice " ++ row.invoiceNumber ++
      " cannot be written off in status '" ++ row.status.asStr ++ "'"))
  else if row.balanceDue ≤ 0 then
    .error (.conflict ("Invoice " ++ row.invoiceNumber ++ " has nothing outstanding to write off"))
  else
    .ok { db with
      invoices := db.invoices.update invoiceId fun i =>
        { i with
          status := .writtenOff
          writtenOffAt := true
          writeOffAmount := some i.balanceDue } }

/-! ### What an operation writes

One lemma for each operation that may fail: the checks that were passed, and the tables it leaves. -/

section Spec

variable {db db' : BillingDb}


/-- Refunds are written to their own table. -/
theorem insertRefunds_frame {paymentId : Uuid} {o : Option Uuid}
    {rs : List RefundLine} (hok : insertRefunds db paymentId o rs = .ok db') :
    db'.invoices = db.invoices ∧ db'.lines = db.lines ∧ db'.time = db.time ∧
      db'.runs = db.runs ∧ db'.payments = db.payments ∧ db'.creditNotes = db.creditNotes := by
  induction rs generalizing db with
  | nil =>
      cases hok
      exact ⟨rfl, rfl, rfl, rfl, rfl, rfl⟩
  | cons r rs ih =>
      obtain ⟨db1, h1, h2⟩ := bind_eq_ok.mp hok
      unfold insertRefund at h1
      split_ifs at h1
      · cases h1
        exact ih h2
      · cases h1
        have h3 := ih h2
        exact h3

theorem voidDelegatedInvoice_cases (db : BillingDb) (invoiceId : Uuid) (provider : String) :
    voidDelegatedInvoice db invoiceId provider = db ∨
      ∃ row, db.invoices.find invoiceId = some row ∧ row.externalProvider = some provider ∧
        row.status ≠ .void ∧ voidDelegatedInvoice db invoiceId provider =
          { db with invoices := db.invoices.update invoiceId (·.voided) } := by
  unfold voidDelegatedInvoice
  cases hrow : db.invoices.find invoiceId with
  | none => exact .inl rfl
  | some row =>
      by_cases h : row.externalProvider = some provider ∧ row.status ≠ .void
      · exact .inr ⟨row, rfl, h.1, h.2, if_pos h⟩
      · exact .inl (if_neg h)

/-- The row after a write-off. -/
def Invoice.writtenOffNow (i : Invoice) : Invoice :=
  { i with status := .writtenOff, writtenOffAt := true, writeOffAmount := some i.balanceDue }

theorem writeOffInvoice_eq_ok {invoiceId : Uuid} (h : writeOffInvoice db invoiceId = .ok db') :
    ∃ row, db.invoices.find invoiceId = some row ∧
      (row.status = .sent ∨ row.status = .partiallyPaid) ∧ 0 < row.balanceDue ∧
      db' = { db with invoices := db.invoices.update invoiceId (·.writtenOffNow) } := by
  unfold writeOffInvoice at h
  obtain ⟨row, hrow, h⟩ := bind_eq_ok.mp h
  rw [orError_eq_ok] at hrow
  split_ifs at h with h1 h2
  cases h
  refine ⟨row, hrow, ?_, not_le.mp h2, rfl⟩
  by_contra hn
  exact h1 (not_or.mp hn)

theorem commitGatewayRefunds_eq_ok {paymentId : Uuid} {o : Option Uuid} {rs : List RefundLine}
    (h : commitGatewayRefunds db paymentId o rs = .ok db') :
    ∃ db1, insertRefunds db paymentId o rs = .ok db1 ∧ db' = recomputeOf db1 o := by
  obtain ⟨db1, h1, h2⟩ := bind_eq_ok.mp h
  cases h2
  exact ⟨db1, h1, rfl⟩

def CreditNote.voided (n : CreditNote) : CreditNote := { n with status := .void }

theorem CreditNote.voided_id (n : CreditNote) : n.voided.id = n.id := rfl

/-- The tables after a credit note is voided. -/
def voidNote (db : BillingDb) (creditNoteId : Uuid) : BillingDb :=
  { db with
    creditNotes := db.creditNotes.update creditNoteId CreditNote.voided CreditNote.voided_id }

theorem commitVoidCreditNote_eq_ok {creditNoteId i : Uuid} {outside : AppResult Unit}
    (h : commitVoidCreditNote db creditNoteId i outside = .ok db') :
    db' = recomputeInvoiceBalance (voidNote db creditNoteId) i := by
  obtain ⟨-, -, h⟩ := bind_eq_ok.mp h
  cases h
  rfl

end Spec

end Mokosh
