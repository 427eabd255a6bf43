import Mokosh.TimeTracking.Service

/-! # Invoices and what is paid on them

The rows of billing (`crates/mokosh-types/src/billing.rs` and the migrations) and the two statements
that derive an invoice's money columns:

* `recomputeInvoiceBalance` takes what is paid and credited from the child rows;
* `applyTax` takes the subtotal from the lines and the tax from a rate or from a given amount.

Amounts in a request are exact rationals; the columns are `Numeric 2`, so a write rounds.  A
timestamp of which only the presence is ever read is a `Bool`. -/

namespace Mokosh

inductive InvoiceStatus where
  | draft
  | pending
  | sent
  | paid
  | partiallyPaid
  | void
  | writtenOff
deriving DecidableEq, Repr

namespace InvoiceStatus

def asStr : InvoiceStatus → String
  | draft => "draft"
  | pending => "pending"
  | sent => "sent"
  | paid => "paid"
  | partiallyPaid => "partially_paid"
  | void => "void"
  | writtenOff => "written_off"

/-- The statuses that disallow header and line edits: the customer holds the document. -/
def isFrozen : InvoiceStatus → Bool
  | sent | paid | partiallyPaid | void | writtenOff => true
  | draft | pending => false

theorem isFrozen_of_not {st : InvoiceStatus} (h : ¬ (st = .draft ∨ st = .pending)) :
    st.isFrozen = true := by
  cases st <;> simp_all [isFrozen]

/-- An invoice that can still be edited has none of the frozen statuses. -/
theorem ne_of_unfrozen {st st' : InvoiceStatus} (h : st.isFrozen = false)
    (h' : st'.isFrozen = true) : st ≠ st' := by
  rintro rfl
  exact absurd (h.symm.trans h') (by simp)

end InvoiceStatus

inductive InvoiceLineType where
  | service
  | product
  | timeEntry
  | mileage
  | adjustment
  | tax
  | discount
deriving DecidableEq, Repr

inductive CreditNoteStatus where
  | issued
  | void
deriving DecidableEq, Repr

/-- An amount as it is printed, with two decimals. -/
def Numeric.format (x : Numeric 2) : String :=
  let n := x.unscaled.natAbs
  let cents := toString (n % 100)
  (if x.unscaled < 0 then "-" else "") ++ toString (n / 100) ++ "." ++
    (if n % 100 < 10 then "0" ++ cents else cents)

/-- A number as it is printed without trailing zeros. -/
def Numeric.normalized (x : Numeric 2) : String :=
  if x.unscaled % 100 = 0 then toString (x.unscaled / 100)
  else if x.unscaled % 10 = 0 then String.ofList (x.format.toList.dropLast)
  else x.format

/-! ### Rows -/

structure Invoice where
  id : Uuid
  invoiceNumber : String
  companyId : Uuid
  contractId : Option Uuid
  status : InvoiceStatus
  subtotal : Numeric 2
  taxAmount : Numeric 2
  discountAmount : Numeric 2
  total : Numeric 2
  amountPaid : Numeric 2
  amountCredited : Numeric 2
  balanceDue : Numeric 2
  taxRateId : Option Uuid
  taxRate : Option (Numeric 4)
  sentAt : Bool
  /-- The identity of the issuer, frozen when the invoice is sent. -/
  issuerSnapshot : Bool
  paidAt : Bool
  writtenOffAt : Bool
  voidedAt : Bool
  writeOffAmount : Option (Numeric 2)
  amendsInvoiceId : Option Uuid
  externalProvider : Option String
deriving DecidableEq, Repr

structure InvoiceLine where
  id : Uuid
  invoiceId : Uuid
  lineType : InvoiceLineType
  quantity : Numeric 2
  unitPrice : Numeric 2
  total : Numeric 2
  /-- Empty for NULL. -/
  timeEntryIds : List Uuid
  ticketId : Option Uuid
  projectId : Option Uuid
  productId : Option Uuid
  isTaxable : Bool
deriving DecidableEq, Repr

structure Payment where
  id : Uuid
  /-- NULL for a payment that is not applied to an invoice. -/
  invoiceId : Option Uuid
  companyId : Uuid
  amount : Numeric 2
  gatewayTransactionId : Option String
deriving DecidableEq, Repr

structure PaymentRefund where
  id : Uuid
  paymentId : Uuid
  /-- Copied from the payment. -/
  invoiceId : Option Uuid
  amount : Numeric 2
  providerReference : String
deriving DecidableEq, Repr

structure CreditNote where
  id : Uuid
  companyId : Uuid
  invoiceId : Uuid
  status : CreditNoteStatus
  subtotal : Numeric 2
  taxAmount : Numeric 2
  total : Numeric 2
deriving DecidableEq, Repr

/-- A row of `contract_invoice_runs`: the period of the contract is billed by the invoice. -/
structure ContractInvoiceRun where
  id : Uuid
  contractId : Uuid
  invoiceId : Uuid
  periodStart : NaiveDate
  periodEnd : NaiveDate
deriving DecidableEq, Repr

structure MileageEntry where
  id : Uuid
  companyId : Uuid
  distanceMiles : Numeric 2
  ratePerMile : Option (Numeric 4)
  totalAmount : Option (Numeric 2)
  ticketId : Option Uuid
  isBillable : Bool
  billingStatus : BillingStatus
  invoiceId : Option Uuid
deriving DecidableEq, Repr

structure TaxRate where
  id : Uuid
  rate : Numeric 4
  isDefault : Bool
  isActive : Bool
deriving DecidableEq, Repr

structure Product where
  id : Uuid
  isTaxable : Bool
  isActive : Bool
deriving DecidableEq, Repr

/-- The tables that billing reads and writes.  The tax rates stand in the order of their
creation. -/
structure BillingDb where
  time : TimeDb
  mileage : Table MileageEntry.id
  taxRates : List TaxRate
  products : List Product
  invoices : Table Invoice.id
  lines : Table InvoiceLine.id
  payments : Table Payment.id
  refunds : Table PaymentRefund.id
  creditNotes : Table CreditNote.id
  runs : Table ContractInvoiceRun.id

/-- A line before it is written, with its exact amounts. -/
structure NewLine where
  lineType : InvoiceLineType
  quantity : ℚ
  unitPrice : ℚ
  total : ℚ
  timeEntryIds : List Uuid := []
  ticketId : Option Uuid := none
  projectId : Option Uuid := none
  productId : Option Uuid := none
  isTaxable : Bool := true

/-- The row of a line. -/
def NewLine.row (invoiceId : Uuid) (l : NewLine) (id : Uuid) : InvoiceLine :=
  { id := id
    invoiceId := invoiceId
    lineType := l.lineType
    quantity := .ofRat 2 l.quantity
    unitPrice := .ofRat 2 l.unitPrice
    total := .ofRat 2 l.total
    timeEntryIds := l.timeEntryIds
    ticketId := l.ticketId
    projectId := l.projectId
    productId := l.productId
    isTaxable := l.isTaxable }

/-- A copy of a line on another invoice. -/
def InvoiceLine.copyTo (invoiceId : Uuid) (l : InvoiceLine) (id : Uuid) : InvoiceLine :=
  { l with id := id, invoiceId := invoiceId }

/-! ### Sums over the child rows -/

namespace BillingDb

variable (db : BillingDb) (invoiceId : Uuid)

def paymentsOf : Numeric 2 :=
  db.payments.sum fun p => if p.invoiceId = some invoiceId then p.amount else 0

def refundsOf : Numeric 2 :=
  db.refunds.sum fun r => if r.invoiceId = some invoiceId then r.amount else 0

/-- The total of the issued credit notes. -/
def creditsOf : Numeric 2 :=
  db.creditNotes.sum fun n => if n.invoiceId = invoiceId ∧ n.status = .issued then n.total else 0

def linesOf : Numeric 2 :=
  db.lines.sum fun l => if l.invoiceId = invoiceId then l.total else 0

def taxableOf : Numeric 2 :=
  db.lines.sum fun l => if l.invoiceId = invoiceId ∧ l.isTaxable = true then l.total else 0

end BillingDb

/-! ### The two derivations -/

/-- The row after its balance is recomputed. -/
def Invoice.recomputed (i : Invoice) (paid credited : Numeric 2) : Invoice :=
  { i with
    amountPaid := paid
    amountCredited := credited
    balanceDue := i.total - paid - credited
    status :=
      -- Neither is a document issued by money moving, nor is a write-off or a void undone by it.
      if i.status = .draft ∨ i.status = .pending then i.status
      else if i.writtenOffAt then .writtenOff
      else if i.voidedAt then .void
      else if i.total - paid - credited ≤ 0 then .paid
      else if 0 < paid then .partiallyPaid
      else .sent
    paidAt := decide (i.total - paid ≤ 0) }

/-- `BillingService::recompute_invoice_balance`. -/
def recomputeInvoiceBalance (db : BillingDb) (invoiceId : Uuid) : BillingDb :=
  { db with
    invoices := db.invoices.update invoiceId
      (·.recomputed (db.paymentsOf invoiceId - db.refundsOf invoiceId) (db.creditsOf invoiceId)) }

def defaultTaxRate (rates : List TaxRate) : Option TaxRate :=
  rates.find? fun r => r.isDefault && r.isActive

def assertTaxRateInTenant (rates : List TaxRate) (taxRateId : Uuid) : AppResult TaxRate :=
  orError (.badRequest "tax_rate_id does not name an active tax rate in this tenant")
    (rates.find? fun r => decide (r.id = taxRateId) && r.isActive)

/-- A tax amount with the rate that is frozen on the invoice beside it. -/
structure AppliedTax where
  amount : ℚ
  rateId : Option Uuid
  rate : Option (Numeric 4)

/-- The tax on a taxable total: as given, or the rate's, rounded to the cent. -/
def taxOn (taxable : Numeric 2) : Option ℚ → Option TaxRate → AppliedTax
  | some amount, _ => ⟨amount, none, none⟩
  | none, some r =>
    ⟨(Numeric.ofRat 2 (taxable.toRat * r.rate.toRat / 100)).toRat, some r.id, some r.rate⟩
  | none, none => ⟨0, none, none⟩

/-- The row after its tax is applied. -/
def Invoice.taxed (i : Invoice) (subtotal : Numeric 2) (tax : AppliedTax) (discount : ℚ) : Invoice :=
  { i with
    subtotal := subtotal
    taxAmount := .ofRat 2 tax.amount
    taxRateId := tax.rateId
    taxRate := tax.rate
    total := .ofRat 2 (subtotal.toRat + tax.amount - discount)
    balanceDue := .ofRat 2
      (subtotal.toRat + tax.amount - discount - i.amountPaid.toRat - i.amountCredited.toRat) }

def requestedTaxRate (rates : List TaxRate) : Option Uuid → AppResult (Option TaxRate)
  | some id => do
    let r ← assertTaxRateInTenant rates id
    .ok (some r)
  | none => .ok (defaultTaxRate rates)

/-- The `UPDATE` of `apply_tax`. -/
def taxInvoice (db : BillingDb) (invoiceId : Uuid) (explicitAmount : Option ℚ)
    (rate : Option TaxRate) (discount : ℚ) : BillingDb :=
  { db with
    invoices := db.invoices.update invoiceId
      (·.taxed (db.linesOf invoiceId) (taxOn (db.taxableOf invoiceId) explicitAmount rate)
        discount) }

/-- `BillingService::apply_tax`. -/
def applyTax (db : BillingDb) (invoiceId : Uuid) (requestedRate : Option Uuid)
    (explicitAmount : Option ℚ) (discount : ℚ) : AppResult BillingDb := do
  let rate ← requestedTaxRate db.taxRates requestedRate
  .ok (taxInvoice db invoiceId explicitAmount rate discount)

theorem applyTax_eq_ok {db db' : BillingDb} {invoiceId : Uuid} {requestedRate : Option Uuid}
    {explicitAmount : Option ℚ} {discount : ℚ}
    (h : applyTax db invoiceId requestedRate explicitAmount discount = .ok db') :
    ∃ rate, requestedTaxRate db.taxRates requestedRate = .ok rate ∧
      db' = taxInvoice db invoiceId explicitAmount rate discount := by
  obtain ⟨rate, hrate, h⟩ := bind_eq_ok.mp h
  cases h
  exact ⟨rate, hrate, rfl⟩

end Mokosh
