import Mokosh.Billing.Invoice

/-! # The operations of billing

The operations of `billing/service.rs` that create invoices, edit, void and amend them.  Each takes
the tables and gives the tables its transaction commits, or the error after which nothing is
committed.

Four operations read a row before they take the lock of the invoice: `update_invoice`,
`delete_payment`, `record_gateway_refunds` and `void_credit_note`.  They are split at the lock into
a read and a commit (`commitUpdateInvoice`, `commitDeletePayment`, …), so that other transactions
may run in between.

What an operation checks in tables outside the model (payment terms, contacts, the mail relay, a
provider's answer) is an argument, `outside`: it may refuse the operation and does nothing else.
So is the number that the invoice sequence hands out. -/

namespace Mokosh

/-! ### Requests -/

structure CreateInvoiceLineRequest where
  lineType : InvoiceLineType
  productId : Option Uuid := none
  isTaxable : Bool := true
  quantity : ℚ
  unitPrice : ℚ
  ticketId : Option Uuid := none
  projectId : Option Uuid := none

structure CreateInvoiceRequest where
  companyId : Uuid
  contractId : Option Uuid := none
  taxAmount : Option ℚ := none
  taxRateId : Option Uuid := none
  discountAmount : Option ℚ := none
  lines : List CreateInvoiceLineRequest
  lines_ne : lines ≠ []

structure CreateInvoiceFromTimeEntriesRequest where
  companyId : Uuid
  contractId : Option Uuid := none
  timeEntryIds : Option (List Uuid) := none
  taxRateId : Option Uuid := none

inductive DeliveryMethod where
  | email
  | postal
  | other
deriving DecidableEq, Repr

structure DeliveryRequest where
  method : DeliveryMethod
  note : Option String

structure UpdateInvoiceRequest where
  companyId : Option Uuid := none
  contractId : Option Uuid := none
  taxAmount : Option ℚ := none
  taxRateId : Option Uuid := none
  discountAmount : Option ℚ := none
  lines : Option (List CreateInvoiceLineRequest) := none
  status : Option InvoiceStatus := none
  delivery : Option DeliveryRequest := none
  skipEmail : Option Bool := none
  lines_ne : lines ≠ some [] := by simp

/-- The amount is positive and has two decimals, by its validator. -/
structure CreatePaymentRequest where
  invoiceId : Option Uuid
  companyId : Uuid
  amount : Numeric 2
  gatewayTransactionId : Option String := none
  amount_pos : 0 < amount

structure CreateCreditNoteLineRequest where
  quantity : ℚ
  unitPrice : ℚ

structure CreateCreditNoteRequest where
  invoiceId : Uuid
  taxAmount : Option ℚ := none
  lines : List CreateCreditNoteLineRequest
  lines_ne : lines ≠ []

structure RefundLine where
  providerReference : String
  amount : ℚ

/-! ### Creating invoices -/

/-- A row as the creating operations insert it: nothing paid, all of it due. -/
def newInvoice (number : String) (companyId : Uuid) (contractId : Option Uuid)
    (externalProvider : Option String) (subtotal tax discount : ℚ) (id : Uuid) : Invoice :=
  { id := id
    invoiceNumber := number
    companyId := companyId
    contractId := contractId
    -- An invoice that a provider issues was sent by it.
    status := if externalProvider.isSome then .sent else .draft
    subtotal := .ofRat 2 subtotal
    taxAmount := .ofRat 2 tax
    discountAmount := .ofRat 2 discount
    total := .ofRat 2 (subtotal + tax - discount)
    amountPaid := 0
    amountCredited := 0
    balanceDue := .ofRat 2 (subtotal + tax - discount)
    taxRateId := none
    taxRate := none
    sentAt := externalProvider.isSome
    -- NULL also for an invoice that a provider issues: it froze the issuer, not this server.
    issuerSnapshot := false
    paidAt := false
    writtenOffAt := false
    voidedAt := false
    writeOffAmount := none
    amendsInvoiceId := none
    externalProvider := externalProvider }

/-- Insert a header and its lines. -/
def insertInvoice (db : BillingDb) (header : Uuid → Invoice) (ls : List NewLine)
    (hid : ∀ i, (header i).id = i) : BillingDb :=
  { db with
    invoices := db.invoices.insert header hid
    lines := db.lines.insertEach (NewLine.row db.invoices.next) ls }

def assertCompany (dir : Directory) (companyId : Uuid) : AppResult Unit :=
  if companyId ∈ dir.companies then .ok ()
  else .error (.validation "company_id" "must be a company of this organization")

def assertProductSellable (products : List Product) (productId : Uuid) : AppResult Unit :=
  match products.find? fun p => decide (p.id = productId) with
  | none => .error (.badRequest "product_id does not name a product in this tenant")
  | some p =>
    if p.isActive then .ok ()
    else .error (.badRequest "That product has been retired and cannot be put on a new document")

def assertLinesSellable (products : List Product) : List CreateInvoiceLineRequest → AppResult Unit
  | [] => .ok ()
  | l :: ls =>
    match l.productId with
    | none => assertLinesSellable products ls
    | some id => do
      assertProductSellable products id
      assertLinesSellable products ls

/-- Whether the product of a line is taxable, if there is one. -/
def productTaxable (products : List Product) (productId : Option Uuid) : Option Bool := do
  let id ← productId
  let p ← products.find? fun p => decide (p.id = id)
  some p.isTaxable

/-- A line of a request; a product's own taxability wins. -/
def CreateInvoiceLineRequest.line (products : List Product) (l : CreateInvoiceLineRequest) :
    NewLine :=
  { lineType := l.lineType
    quantity := l.quantity
    unitPrice := l.unitPrice
    total := l.quantity * l.unitPrice
    ticketId := l.ticketId
    projectId := l.projectId
    productId := l.productId
    isTaxable := (productTaxable products l.productId).getD l.isTaxable }

/-- The exact sum of the lines of a request. -/
def requestSubtotal (ls : List CreateInvoiceLineRequest) : ℚ :=
  (ls.map fun l => l.quantity * l.unitPrice).sum

/-- `BillingService::create_invoice`. -/
def createInvoice (db : BillingDb) (request : CreateInvoiceRequest) (number : String)
    (externalProvider : Option String) (outside : AppResult Unit) : AppResult BillingDb := do
  assertCompany db.time.dir request.companyId
  outside
  assertLinesSellable db.products request.lines
  let discount := request.discountAmount.getD 0
  let db' := insertInvoice db
    (newInvoice number request.companyId request.contractId externalProvider
      (requestSubtotal request.lines) (request.taxAmount.getD 0) discount)
    (request.lines.map (·.line db.products)) (fun _ => rfl)
  applyTax db' db.invoices.next request.taxRateId request.taxAmount discount

/-- The entries that the builder selects, `FOR UPDATE`. -/
def CreateInvoiceFromTimeEntriesRequest.selects (request : CreateInvoiceFromTimeEntriesRequest)
    (e : TimeEntry) : Bool :=
  decide (e.companyId = some request.companyId ∧ e.entryKind = .client ∧
    e.isBillable = some true ∧ e.invoiceId = none ∧ e.billingStatus = .readyToBill) &&
  request.timeEntryIds.all fun ids => decide (e.id ∈ ids)

def CreateInvoiceFromTimeEntriesRequest.selectsMileage
    (request : CreateInvoiceFromTimeEntriesRequest) (m : MileageEntry) : Bool :=
  decide (m.companyId = request.companyId ∧ m.isBillable = true ∧ m.invoiceId = none ∧
    m.billingStatus = .readyToBill)

/-- The line of an entry: its overage hours alone if it ran past its block, else all of it. -/
def timeEntryLine (e : TimeEntry) : NewLine :=
  if 0 < e.overageHours.getD 0 then
    let quantity := (e.overageHours.getD 0).toRat
    let unitPrice := ((e.overageRate.or e.hourlyRate).getD 0).toRat
    { lineType := .timeEntry
      quantity := quantity
      unitPrice := unitPrice
      total := quantity * unitPrice
      timeEntryIds := [e.id]
      ticketId := e.ticketId }
  else
    let quantity := hoursOf e.durationMinutes
    let unitPrice := (e.hourlyRate.getD 0).toRat
    { lineType := .timeEntry
      quantity := quantity
      unitPrice := unitPrice
      total := (e.totalAmount.map Numeric.toRat).getD (quantity * unitPrice)
      timeEntryIds := [e.id]
      ticketId := e.ticketId }

def mileageLine (m : MileageEntry) : NewLine :=
  let quantity := m.distanceMiles.toRat
  let unitPrice := (m.ratePerMile.getD 0).toRat
  { lineType := .mileage
    quantity := quantity
    unitPrice := unitPrice
    total := (m.totalAmount.map Numeric.toRat).getD (quantity * unitPrice)
    ticketId := m.ticketId }

/-- The entry is on the invoice. -/
def TimeEntry.billOn (e : TimeEntry) (invoiceId : Uuid) : TimeEntry :=
  { e with billingStatus := .billed, invoiceId := some invoiceId }

/-- The lines the builder writes. -/
def builtLines (db : BillingDb) (request : CreateInvoiceFromTimeEntriesRequest) : List NewLine :=
  (db.time.entries.rows.filter request.selects).map timeEntryLine ++
    (db.mileage.rows.filter request.selectsMileage).map mileageLine

/-- The flip of the selected entries to `billed`, in the same transaction. -/
def markBilled (db : BillingDb) (request : CreateInvoiceFromTimeEntriesRequest)
    (invoiceId : Uuid) : BillingDb :=
  { db with
    time := { db.time with
      entries := db.time.entries.map (fun e => if request.selects e then e.billOn invoiceId else e)
        (by intro e; split <;> rfl) }
    mileage := db.mileage.map
      (fun m => if request.selectsMileage m then
        { m with billingStatus := .billed, invoiceId := some invoiceId } else m)
      (by intro m; split <;> rfl) }

/-! ### Why there is nothing to invoice -/

/-- The client time of a company that the builder passed over, by reason. -/
structure UninvoiceableTime where
  notReady : ℤ
  notReadyMinutes : ℤ
  nonBillable : ℤ
  nonBillableMinutes : ℤ
  alreadyInvoiced : ℤ
  prepaid : ℤ
  prepaidMinutes : ℤ

/-- The condition of the builder without its `is_billable`, `invoice_id` and `billing_status`. -/
def TimeEntry.clientOf (companyId : Uuid) (e : TimeEntry) : Bool :=
  decide (e.companyId = some companyId ∧ e.entryKind = .client)

/-- `BillingService::uninvoiceable_time_for_company`. -/
def uninvoiceableTimeForCompany (entries : Table TimeEntry.id) (companyId : Uuid) :
    UninvoiceableTime :=
  let rows := entries.rows.filter (TimeEntry.clientOf companyId)
  let notReady := rows.filter fun e => decide (e.isBillable = some true ∧ e.invoiceId = none ∧
    e.billingStatus ≠ .readyToBill ∧ e.billingStatus ≠ .prepaid)
  let nonBillable := rows.filter fun e => decide (e.isBillable ≠ some true)
  let prepaid := rows.filter fun e => decide (e.billingStatus = .prepaid)
  let minutes := fun es : List TimeEntry => (es.map TimeEntry.durationMinutes).sum
  { notReady := notReady.length
    notReadyMinutes := minutes notReady
    nonBillable := nonBillable.length
    nonBillableMinutes := minutes nonBillable
    alreadyInvoiced :=
      (rows.filter fun e => decide (e.isBillable = some true ∧ e.invoiceId ≠ none)).length
    prepaid := prepaid.length
    prepaidMinutes := minutes prepaid }

namespace UninvoiceableTime

def hours (minutes : ℤ) : String :=
  let hours := Numeric.ofRat 2 (hoursOf minutes)
  if hours.toRat = 1 then "1 hour" else hours.normalized ++ " hours"

def countOf (n : ℤ) (singular plural : String) : String :=
  if n = 1 then "1 " ++ singular else toString n ++ " " ++ plural

def nextStep (why : UninvoiceableTime) : Option String :=
  if 0 < why.notReady then some "Re-save them and they become invoiceable."
  else if 0 < why.nonBillable then
    some "Mark them billable if they should be charged, then generate the invoice again."
  else if 0 < why.alreadyInvoiced then some "There is nothing new to bill for this company."
  else if 0 < why.prepaid then
    some "Those hours were prepaid, so there is nothing to charge for them."
  else none

/-- What is there, by reason, in the order in which the reader needs it. -/
def parts (why : UninvoiceableTime) : List String :=
  (if 0 < why.notReady then
    [countOf why.notReady "billable time entry" "billable time entries" ++ " (" ++
      hours why.notReadyMinutes ++ ") that " ++ (if why.notReady = 1 then "is" else "are") ++
      " not marked ready to bill"] else []) ++
  (if 0 < why.nonBillable then
    [countOf why.nonBillable "time entry" "time entries" ++ " (" ++ hours why.nonBillableMinutes ++
      ") logged as non-billable"] else []) ++
  (if 0 < why.alreadyInvoiced then
    [countOf why.alreadyInvoiced "billable time entry" "billable time entries" ++
      " already on an invoice"] else []) ++
  (if 0 < why.prepaid then
    [countOf why.prepaid "time entry" "time entries" ++ " (" ++ hours why.prepaidMinutes ++
      ") covered by the block-hours contract"] else [])

def intoMessage (why : UninvoiceableTime) : String :=
  match why.nextStep with
  | none => "No billable time or mileage entries found for this company"
  | some next =>
    let what := match why.parts with
      | [part] => part
      | ps => ", ".intercalate ps.dropLast ++ " and " ++ ps.getLastD ""
    "This company has no time to invoice right now. It has " ++ what ++ ". " ++ next

end UninvoiceableTime

/-- `BillingService::create_invoice_from_time_entries`. -/
def createInvoiceFromTimeEntries (db : BillingDb) (request : CreateInvoiceFromTimeEntriesRequest)
    (number : String) (outside : AppResult Unit) : AppResult BillingDb := do
  assertCompany db.time.dir request.companyId
  let ls := builtLines db request
  if ls.isEmpty then
    .error (.badRequest
      (uninvoiceableTimeForCompany db.time.entries request.companyId).intoMessage)
  else do
    outside
    let subtotal := (ls.map NewLine.total).sum
    let db' := insertInvoice db
      (newInvoice number request.companyId request.contractId none subtotal 0 0) ls (fun _ => rfl)
    let db'' ← applyTax db' db.invoices.next request.taxRateId none 0
    .ok (markBilled db'' request db.invoices.next)

/-- The items a period bills. -/
def ContractItem.bills (contractId : Uuid) (i : ContractItem) : Bool :=
  decide (i.contractId = contractId ∧
    (i.billingRule = .everyPeriod ∨ i.billingRule = .once ∧ i.billed = false))

def recurringLine (products : List Product) (i : ContractItem) : NewLine :=
  let quantity := (i.quantity.getD 0).toRat
  { lineType := .service
    quantity := quantity
    unitPrice := i.unitPrice.toRat
    total := quantity * i.unitPrice.toRat
    productId := i.productId
    isTaxable := (productTaxable products i.productId).getD true }

/-- The one-time items that the period bills are claimed. -/
def claimItems (book : ContractBook) (contractId : Uuid) : ContractBook :=
  { book with
    items := book.items.map
      (fun i => if i.bills contractId && decide (i.billingRule = .once) then
        { i with billed := true } else i)
      (by intro i; split <;> rfl) }

/-- `BillingService::generate_one_recurring_invoice`.  Nothing is committed when there is nothing to
bill, and nothing when the period is already claimed. -/
def generateOneRecurringInvoice (db : BillingDb) (contractId companyId : Uuid)
    (periodStart periodEnd : NaiveDate) (number : String) (outside : AppResult Unit) :
    AppResult BillingDb := do
  let items := db.time.book.items.rows.filter (·.bills contractId)
  if items.isEmpty then .ok db
  -- A NULL quantity does not decode.
  else if items.any (·.quantity.isNone) then .error (.database "contract_items.quantity")
  else do
    outside
    if db.runs.rows.any fun r =>
        decide (r.contractId = contractId ∧ r.periodStart = periodStart) then .ok db
    else do
      let ls := items.map (recurringLine db.products)
      let db' := insertInvoice db
        (newInvoice number companyId (some contractId) none (ls.map NewLine.total).sum 0 0) ls
        (fun _ => rfl)
      let db'' := { db' with
        runs := db'.runs.insert fun id => ⟨id, contractId, db.invoices.next, periodStart, periodEnd⟩
        time := { db'.time with book := claimItems db'.time.book contractId } }
      applyTax db'' db.invoices.next none none 0

/-! ### Editing an invoice -/

/-- The refusals of `update_invoice` before it reads anything. -/
def checkUpdateRequest (request : UpdateInvoiceRequest) : AppResult Unit :=
  if request.skipEmail.isSome then
    .error (.validation "skip_email"
      "`skip_email` was removed in PMS-1462; send `delivery: \x7b method: \"postal\" | \"other\", note: \"...\" \x7d` instead")
  else if request.delivery.any fun d =>
      decide (d.method = .other) && d.note.all (fun note => decide (trim note = "")) then
    .error (.validation "delivery.note"
      "a note describing the delivery is required when `method` is `other`")
  else if request.status = some .void ∨ request.status = some .writtenOff then
    .error (.validation "status"
      "void and written_off are set through their own endpoints (void_invoice, write_off_invoice), not through this update")
  else .ok ()

/-- The company an update moves the invoice to, if it is another one. -/
def companyChange (current : Invoice) (request : UpdateInvoiceRequest) : Option Uuid :=
  request.companyId.filter fun c => decide (c ≠ current.companyId)

def frozenError (status : InvoiceStatus) : AppError :=
  .conflict ("Invoice in status '" ++ status.asStr ++ "' cannot be edited")

/-- What `update_invoice` does before it opens its transaction: read the invoice, and refuse one the
customer holds. -/
def readForUpdate (db : BillingDb) (invoiceId : Uuid) (request : UpdateInvoiceRequest) :
    AppResult Invoice := do
  checkUpdateRequest request
  let current ← orError (.notFound "Invoice") (db.invoices.find invoiceId)
  if current.status.isFrozen then
    if (companyChange current request).isSome then
      .error (.conflict ("The company of a " ++ current.status.asStr ++
        " invoice cannot be changed: the customer already holds it. Issue a credit note against it and invoice the right company instead."))
    else .error (frozenError current.status)
  else .ok current

/-- A ticket or a project on a line belongs to another company than `target`. -/
def InvoiceLine.foreignTo (l : InvoiceLine) (dir : Directory) (target : Uuid) : Bool :=
  (l.ticketId.any fun t =>
    decide ((dir.tickets.find? fun x => decide (x.id = t)).map Ticket.companyId ≠ some target)) ||
  (l.projectId.any fun p =>
    decide ((dir.projects.find? fun x => decide (x.id = p)).map Project.companyId ≠ some target))

/-- `assert_draft_can_move_company`: the contents of the invoice hold it where it is.  Companies
are named by their ids. -/
def assertDraftCanMoveCompany (db : BillingDb) (invoiceId source target : Uuid)
    (requestedContract : Option Uuid) : AppResult Unit := do
  assertCompany db.time.dir target
  let refuse := fun why : String => (.error (.conflict ("This invoice cannot move from " ++
    toString source ++ " to " ++ toString target ++ ": " ++ why)) : AppResult Unit)
  let holds := (db.payments.filter fun p => decide (p.invoiceId = some invoiceId)).rows.length
  let entries := (db.time.entries.filter fun e => decide (e.invoiceId = some invoiceId)).rows.length
  let mileage := (db.mileage.filter fun m => decide (m.invoiceId = some invoiceId)).rows.length
  let contract := ((db.invoices.find invoiceId).any fun i => i.contractId.isSome) ||
    db.runs.rows.any fun r => decide (r.invoiceId = invoiceId)
  let foreign := (db.lines.filter fun l => decide (l.invoiceId = invoiceId) &&
    l.foreignTo db.time.dir target).rows.length
  if 0 < holds then
    refuse (toString holds ++ " payment(s) from " ++ toString source ++
      " are recorded against it.")
  else if 0 < entries + mileage then
    refuse ("it bills " ++ toString entries ++ " time entr(ies) and " ++ toString mileage ++
      " mileage entr(ies) logged for " ++ toString source ++ ", which are " ++ toString source ++
      "'s work. Bill " ++ toString target ++ "'s time on a new invoice.")
  else if contract || requestedContract.isSome then
    refuse ("it was generated from, or names, a contract with " ++ toString source ++
      ". Change the contract's company, or invoice " ++ toString target ++ " separately.")
  else if 0 < foreign then
    refuse (toString foreign ++ " line(s) name a ticket or project that does not belong to " ++
      toString target ++ ". Edit those lines first.")
  else .ok ()

/-- Replace the lines of an invoice, if the request has any.  The new lines name no time entry. -/
def replaceLines (db : BillingDb) (invoiceId : Uuid) :
    Option (List CreateInvoiceLineRequest) → BillingDb
  | none => db
  | some ls =>
    { db with
      lines := (db.lines.filter fun l => decide (l.invoiceId ≠ invoiceId)).insertEach
        (NewLine.row invoiceId) (ls.map (·.line db.products)) }

/-- The invoice that sending an amendment replaces must still be sent, unpaid and uncredited. -/
def checkAmended (db : BillingDb) : Option Uuid → AppResult Unit
  | none => .ok ()
  | some originalId =>
    match db.invoices.find originalId with
    | none => .error (.conflict "The invoice this one amends no longer exists, so sending it would replace nothing. Raise it as an ordinary invoice instead.")
    | some original =>
      if original.status ≠ .sent ∨ 0 < original.amountPaid ∨ 0 < original.amountCredited then
        .error (.conflict ("Invoice " ++ original.invoiceNumber ++
          " is no longer in a state this amendment can replace (status '" ++
          original.status.asStr ++ "', " ++ original.amountPaid.format ++ " paid, " ++
          original.amountCredited.format ++
          " credited). Issue a credit note against it instead, and invoice the difference."))
      else .ok ()

def Invoice.voidAsAmended (i : Invoice) : Invoice :=
  { i with status := .void, voidedAt := true, balanceDue := 0 }

def voidAmended (db : BillingDb) : Option Uuid → BillingDb
  | none => db
  | some originalId =>
    { db with invoices := db.invoices.update originalId (·.voidAsAmended) }

/-- The subtotal of an update: of the new lines, or the one that was read. -/
def updateSubtotal (current : Invoice) (request : UpdateInvoiceRequest) : ℚ :=
  match request.lines with
  | some ls => requestSubtotal ls
  | none => current.subtotal.toRat

def updateTax (current : Invoice) (request : UpdateInvoiceRequest) : ℚ :=
  request.taxAmount.getD current.taxAmount.toRat

def updateDiscount (current : Invoice) (request : UpdateInvoiceRequest) : ℚ :=
  request.discountAmount.getD current.discountAmount.toRat

/-- The header after an update.  `status` and `amountPaid` are those of the locked row `i`; the
subtotal, the tax and the discount may be those of `current`, which was read before the lock. -/
def Invoice.edited (i current : Invoice) (request : UpdateInvoiceRequest) : Invoice :=
  let subtotal := updateSubtotal current request
  let tax := updateTax current request
  let discount := updateDiscount current request
  { i with
    companyId := (companyChange current request).getD i.companyId
    contractId := request.contractId.or i.contractId
    status := request.status.getD i.status
    subtotal := .ofRat 2 subtotal
    taxAmount := .ofRat 2 tax
    discountAmount := .ofRat 2 discount
    total := .ofRat 2 (subtotal + tax - discount)
    balanceDue := .ofRat 2 (subtotal + tax - discount - i.amountPaid.toRat)
    sentAt := current.sentAt || decide (request.status.getD i.status = .sent)
    -- Written once, on the update that sends the invoice.
    issuerSnapshot := i.issuerSnapshot ||
      decide (request.status.getD i.status = .sent ∧ current.sentAt = false) }

/-- An update re-derives the tax if it touches the lines, the rate or the amount. -/
def UpdateInvoiceRequest.retaxes (request : UpdateInvoiceRequest) : Bool :=
  request.lines.isSome || request.taxRateId.isSome || request.taxAmount.isSome

/-- The invoice that an update replaces: it is the first to send an amendment. -/
def replacedBy (row current : Invoice) (request : UpdateInvoiceRequest) : Option Uuid :=
  if request.status.getD row.status = .sent ∧ current.sentAt = false then current.amendsInvoiceId
  else none

def checkCompanyMove (db : BillingDb) (current : Invoice) (request : UpdateInvoiceRequest) :
    AppResult Unit :=
  match companyChange current request with
  | none => .ok ()
  | some target =>
    assertDraftCanMoveCompany db current.id current.companyId target request.contractId

def retax (db : BillingDb) (current : Invoice) (request : UpdateInvoiceRequest) :
    AppResult BillingDb :=
  if request.retaxes then
    applyTax db current.id (request.taxRateId.or current.taxRateId) request.taxAmount
      (updateDiscount current request)
  else .ok db

/-- The transaction of `update_invoice`, from the invoice as it was read before the lock. -/
def commitUpdateInvoice (db : BillingDb) (current : Invoice) (request : UpdateInvoiceRequest)
    (outside : AppResult Unit) : AppResult BillingDb := do
  let row ← orError (.notFound "Invoice") (db.invoices.find current.id)
  if row.status.isFrozen then .error (frozenError row.status)
  else do
    assertLinesSellable db.products (request.lines.getD [])
    let db1 := replaceLines db current.id request.lines
    checkCompanyMove db1 current request
    checkAmended db1 (replacedBy row current request)
    outside
    let db2 := { db1 with invoices := db1.invoices.update current.id (·.edited current request) }
    let db3 ← retax db2 current request
    .ok (voidAmended db3 (replacedBy row current request))

def Invoice.voided (i : Invoice) : Invoice := { i with status := .void, voidedAt := true }

/-- `BillingService::void_invoice`. -/
def voidInvoice (db : BillingDb) (invoiceId : Uuid) : AppResult BillingDb := do
  let row ← orError (.notFound "Invoice") (db.invoices.find invoiceId)
  if row.status.isFrozen then
    .error (.conflict ("Invoice " ++ row.invoiceNumber ++ " cannot be voided in status '" ++
      row.status.asStr ++ "': the customer already holds it. Issue a credit note against it instead."))
  else .ok { db with invoices := db.invoices.update invoiceId (·.voided) }

/-- `BillingService::void_delegated_invoice`: the provider that issued it voided it. -/
def voidDelegatedInvoice (db : BillingDb) (invoiceId : Uuid) (provider : String) : BillingDb :=
  match db.invoices.find invoiceId with
  | none => db
  | some i =>
    if i.externalProvider = some provider ∧ i.status ≠ .void then
      { db with invoices := db.invoices.update invoiceId (·.voided) }
    else db

/-- The draft that amends an invoice, with none of what belongs to the document that was sent. -/
def Invoice.amendment (original : Invoice) (number : String) (id : Uuid) : Invoice :=
  { original with
    id := id
    invoiceNumber := number
    status := .draft
    amountPaid := 0
    amountCredited := 0
    balanceDue := original.total
    sentAt := false
    issuerSnapshot := false
    paidAt := false
    writtenOffAt := false
    voidedAt := false
    writeOffAmount := none
    amendsInvoiceId := some original.id
    externalProvider := none }

/-- `BillingService::amend_invoice`. -/
def amendInvoice (db : BillingDb) (invoiceId : Uuid) (number : String) (outside : AppResult Unit) :
    AppResult BillingDb := do
  let original ← orError (.notFound "Invoice") (db.invoices.find invoiceId)
  if original.status ≠ .sent then
    .error (.conflict (match original.status with
      | .draft | .pending => "Invoice " ++ original.invoiceNumber ++
        " has not been sent yet, so it can be edited directly rather than amended."
      | .void => "Invoice " ++ original.invoiceNumber ++
        " is void, so there is nothing to replace. Amend the invoice that replaced it, or raise a new one."
      | status => "Invoice " ++ original.invoiceNumber ++ " cannot be amended in status '" ++
        status.asStr ++ "': money or a decision has already moved against it. Issue a credit note instead."))
  else if 0 < original.amountPaid then
    .error (.conflict ("Invoice " ++ original.invoiceNumber ++ " has a payment recorded against it, so replacing it would leave that payment on a voided document. Issue a credit note instead."))
  else if 0 < original.amountCredited then
    .error (.conflict ("Invoice " ++ original.invoiceNumber ++ " already has a credit note against it, so the correction is already under way. Credit the rest of it, or invoice the difference."))
  else
    match db.invoices.rows.find? fun i =>
      decide (i.amendsInvoiceId = some invoiceId ∧ (i.status = .draft ∨ i.status = .pending)) with
    | some draft =>
      .error (.conflict ("Invoice " ++ original.invoiceNumber ++ " already has a draft amendment, " ++
        draft.invoiceNumber ++ ". Finish or delete that one before starting another."))
    | none => do
      outside
      .ok { db with
        invoices := db.invoices.insert (original.amendment number)
        lines := db.lines.insertEach (InvoiceLine.copyTo db.invoices.next)
          (db.lines.rows.filter fun l => decide (l.invoiceId = invoiceId)) }

/-! ### What the operations write -/

/-- The tables after an invoice is created: a header, its lines, and the tax on them. -/
def created (db : BillingDb) (header : Uuid → Invoice) (ls : List NewLine)
    (explicitAmount : Option ℚ) (rate : Option TaxRate) (discount : ℚ)
    (hid : ∀ i, (header i).id = i) : BillingDb :=
  taxInvoice (insertInvoice db header ls hid) db.invoices.next explicitAmount rate discount

/-- The row after an update, with its tax re-derived or not. -/
def Invoice.rewritten (i current : Invoice) (request : UpdateInvoiceRequest) (lines : Numeric 2)
    (tax : AppliedTax) : Invoice :=
  if request.retaxes then
    (i.edited current request).taxed lines tax (updateDiscount current request)
  else i.edited current request

/-- The tables after an update, without what it does to the invoice it replaces. -/
def rewriteInvoice (db : BillingDb) (current : Invoice) (request : UpdateInvoiceRequest)
    (rate : Option TaxRate) : BillingDb :=
  let db' := replaceLines db current.id request.lines
  { db' with
    invoices := db.invoices.update current.id
      (·.rewritten current request (db'.linesOf current.id)
        (taxOn (db'.taxableOf current.id) request.taxAmount rate))
      (by intro i; unfold Invoice.rewritten; split <;> rfl) }

section Spec

variable {db db' : BillingDb} {outside : AppResult Unit} {number : String}

theorem createInvoice_eq_ok {request : CreateInvoiceRequest} {externalProvider : Option String}
    (h : createInvoice db request number externalProvider outside = .ok db') :
    ∃ rate, requestedTaxRate db.taxRates request.taxRateId = .ok rate ∧ db' = created db
      (newInvoice number request.companyId request.contractId externalProvider
        (requestSubtotal request.lines) (request.taxAmount.getD 0) (request.discountAmount.getD 0))
      (request.lines.map (·.line db.products)) request.taxAmount rate
      (request.discountAmount.getD 0) (fun _ => rfl) := by
  obtain ⟨-, -, h⟩ := bind_eq_ok.mp h
  obtain ⟨-, -, h⟩ := bind_eq_ok.mp h
  obtain ⟨-, -, h⟩ := bind_eq_ok.mp h
  obtain ⟨rate, hrate, rfl⟩ := applyTax_eq_ok h
  exact ⟨rate, hrate, rfl⟩

theorem createInvoiceFromTimeEntries_eq_ok {request : CreateInvoiceFromTimeEntriesRequest}
    (h : createInvoiceFromTimeEntries db request number outside = .ok db') :
    ∃ rate, requestedTaxRate db.taxRates request.taxRateId = .ok rate ∧ db' = markBilled (created db
      (newInvoice number request.companyId request.contractId none
        ((builtLines db request).map NewLine.total).sum 0 0)
      (builtLines db request) none rate 0 (fun _ => rfl)) request db.invoices.next := by
  obtain ⟨-, -, h⟩ := bind_eq_ok.mp h
  simp only at h
  split at h
  · exact absurd h (by simp)
  · obtain ⟨-, -, h⟩ := bind_eq_ok.mp h
    obtain ⟨db'', h1, h⟩ := bind_eq_ok.mp h
    cases h
    obtain ⟨rate, hrate, rfl⟩ := applyTax_eq_ok h1
    exact ⟨rate, hrate, rfl⟩

theorem mem_markBilled {request : CreateInvoiceFromTimeEntriesRequest} {invoiceId : Uuid}
    {e' : TimeEntry} (h : e' ∈ (markBilled db request invoiceId).time.entries) :
    ∃ e ∈ db.time.entries, (if request.selects e then e.billOn invoiceId else e) = e' :=
  List.mem_map.mp h

theorem timeEntryLine_ids (e : TimeEntry) : (timeEntryLine e).timeEntryIds = [e.id] := by
  unfold timeEntryLine
  split <;> rfl

/-- A recurring run leaves the tables alone, or claims a period that was free for a new invoice. -/
theorem generateOneRecurringInvoice_eq_ok {contractId companyId : Uuid}
    {periodStart periodEnd : NaiveDate}
    (h : generateOneRecurringInvoice db contractId companyId periodStart periodEnd number outside =
      .ok db') :
    db' = db ∨
      (∀ r ∈ db.runs, ¬ (r.contractId = contractId ∧ r.periodStart = periodStart)) ∧
      ∃ ls rate, (∀ l ∈ ls, l.timeEntryIds = []) ∧
        db' = { created db
            (newInvoice number companyId (some contractId) none (ls.map NewLine.total).sum 0 0) ls
            none rate 0 (fun _ => rfl) with
          runs := db.runs.insert fun id =>
            ⟨id, contractId, db.invoices.next, periodStart, periodEnd⟩
          time := { db.time with book := claimItems db.time.book contractId } } := by
  unfold generateOneRecurringInvoice at h
  simp only at h
  split at h
  · cases h
    exact .inl rfl
  · split at h
    · exact absurd h (by simp)
    · obtain ⟨-, -, h⟩ := bind_eq_ok.mp h
      split at h
      · cases h
        exact .inl rfl
      · next hfree =>
        obtain ⟨rate, -, rfl⟩ := applyTax_eq_ok h
        refine .inr ⟨?_, _, rate, ?_, rfl⟩
        · intro r hr hc
          exact hfree (List.any_eq_true.mpr ⟨r, hr, decide_eq_true hc⟩)
        · intro l hl
          obtain ⟨i, -, rfl⟩ := List.mem_map.mp hl
          rfl

theorem readForUpdate_eq_ok {invoiceId : Uuid} {request : UpdateInvoiceRequest} {current : Invoice}
    (h : readForUpdate db invoiceId request = .ok current) :
    db.invoices.find invoiceId = some current ∧ current.status.isFrozen = false ∧
      request.status ≠ some .void ∧ request.status ≠ some .writtenOff := by
  unfold readForUpdate at h
  obtain ⟨_, hreq, h⟩ := bind_eq_ok.mp h
  obtain ⟨c, hc, h⟩ := bind_eq_ok.mp h
  rw [orError_eq_ok] at hc
  split at h
  · split at h <;> exact absurd h (by simp)
  · next hf =>
    cases h
    refine ⟨hc, by simpa using hf, ?_⟩
    unfold checkUpdateRequest at hreq
    split_ifs at hreq with h1 h2 h3
    exact not_or.mp h3

theorem checkAmended_eq_ok {o : Uuid} {u : Unit} (h : checkAmended db (some o) = .ok u) :
    ∃ original, db.invoices.find o = some original ∧ original.status = .sent ∧
      ¬ 0 < original.amountPaid ∧ ¬ 0 < original.amountCredited := by
  unfold checkAmended at h
  simp only at h
  split at h
  · exact absurd h (by simp)
  · next original ho =>
    split_ifs at h with h1
    simp only [not_or, not_not] at h1
    exact ⟨original, ho, h1⟩

/-- What an invoice that can still be edited replaces is another one. -/
theorem ne_of_checkAmended {o k : Uuid} {u : Unit} {row : Invoice}
    (h : checkAmended db (some o) = .ok u) (hrow : db.invoices.find k = some row)
    (hf : row.status.isFrozen = false) : o ≠ k := by
  rintro rfl
  obtain ⟨original, ho, hs, -, -⟩ := checkAmended_eq_ok h
  rw [hrow, Option.some.injEq] at ho
  rw [ho] at hf
  exact InvoiceStatus.ne_of_unfrozen hf rfl hs

/-- An update writes one invoice. -/
theorem rewriteInvoice_find_ne {current : Invoice} {request : UpdateInvoiceRequest}
    {rate : Option TaxRate} {k : Uuid} (hk : k ≠ current.id) :
    (rewriteInvoice db current request rate).invoices.find k = db.invoices.find k := by
  unfold rewriteInvoice
  rw [Table.find_update_ne hk]

/-- A status that the invoice does not have and that nobody asks for is not the one it gets. -/
theorem UpdateInvoiceRequest.status_ne {request : UpdateInvoiceRequest} {old st : InvoiceStatus}
    (h : request.status ≠ some st) (ho : old ≠ st) : request.status.getD old ≠ st := by
  cases hq : request.status with
  | none => exact ho
  | some new =>
      rw [hq] at h
      exact fun hn => h (congrArg some hn)

theorem commitUpdateInvoice_eq_ok {current : Invoice} {request : UpdateInvoiceRequest}
    (h : commitUpdateInvoice db current request outside = .ok db') :
    ∃ row rate, db.invoices.find current.id = some row ∧ row.status.isFrozen = false ∧
      checkAmended db (replacedBy row current request) = .ok () ∧
      (request.retaxes = true →
        requestedTaxRate db.taxRates (request.taxRateId.or current.taxRateId) = .ok rate) ∧
      db' = voidAmended (rewriteInvoice db current request rate)
        (replacedBy row current request) := by
  unfold commitUpdateInvoice at h
  obtain ⟨row, hrow, h⟩ := bind_eq_ok.mp h
  rw [orError_eq_ok] at hrow
  split at h
  · exact absurd h (by simp)
  · next hf =>
    obtain ⟨-, -, h⟩ := bind_eq_ok.mp h
    obtain ⟨-, -, h⟩ := bind_eq_ok.mp h
    obtain ⟨_, ha, h⟩ := bind_eq_ok.mp h
    obtain ⟨-, -, h⟩ := bind_eq_ok.mp h
    obtain ⟨db3, h3, h⟩ := bind_eq_ok.mp h
    cases h
    have hinv : (replaceLines db current.id request.lines).invoices = db.invoices := by
      cases request.lines <;> rfl
    have hamend : checkAmended db (replacedBy row current request) = .ok () := by
      unfold checkAmended at ha ⊢
      rwa [hinv] at ha
    unfold retax at h3
    split at h3
    · next hr =>
      obtain ⟨rate, hrate, rfl⟩ := applyTax_eq_ok h3
      have hsame : (replaceLines db current.id request.lines).taxRates = db.taxRates := by
        cases request.lines <;> rfl
      rw [hsame] at hrate
      refine ⟨row, rate, hrow, by simpa using hf, hamend, fun _ => hrate, ?_⟩
      congr 1
      simp only [taxInvoice, rewriteInvoice, Table.update_update, hinv, Invoice.rewritten, hr,
        if_true]
      rfl
    · next hr =>
      cases h3
      refine ⟨row, none, hrow, by simpa using hf, hamend, fun hret => absurd hret hr, ?_⟩
      congr 1
      simp only [rewriteInvoice, hinv, Invoice.rewritten, hr]
      rfl

/-- An amendment copies an unpaid, sent invoice with its lines. -/
theorem amendInvoice_eq_ok {invoiceId : Uuid}
    (h : amendInvoice db invoiceId number outside = .ok db') :
    ∃ original, db.invoices.find invoiceId = some original ∧ original.status = .sent ∧
      (¬ 0 < original.amountPaid ∧ ¬ 0 < original.amountCredited ∧
        ∀ i ∈ db.invoices, i.amendsInvoiceId = some invoiceId → i.status.isFrozen = true) ∧
      db' = { db with
        invoices := db.invoices.insert (original.amendment number)
        lines := db.lines.insertEach (InvoiceLine.copyTo db.invoices.next)
          (db.lines.rows.filter fun l => decide (l.invoiceId = invoiceId)) } := by
  unfold amendInvoice at h
  obtain ⟨original, ho, h⟩ := bind_eq_ok.mp h
  rw [orError_eq_ok] at ho
  split_ifs at h with h1 h2 h3
  split at h
  · exact absurd h (by simp)
  · next hnone =>
    obtain ⟨-, -, h⟩ := bind_eq_ok.mp h
    cases h
    refine ⟨original, ho, not_not.mp h1, ⟨h2, h3, fun i hi ha => ?_⟩, rfl⟩
    have hni := List.find?_eq_none.mp hnone i hi
    cases hst : i.status <;> simp_all [InvoiceStatus.isFrozen]

theorem voidInvoice_eq_ok {invoiceId : Uuid} (h : voidInvoice db invoiceId = .ok db') :
    ∃ row, db.invoices.find invoiceId = some row ∧ row.status.isFrozen = false ∧
      db' = { db with invoices := db.invoices.update invoiceId (·.voided) } := by
  unfold voidInvoice at h
  obtain ⟨row, hrow, h⟩ := bind_eq_ok.mp h
  rw [orError_eq_ok] at hrow
  split at h
  · exact absurd h (by simp)
  · next hf =>
    cases h
    exact ⟨row, hrow, by simpa using hf, rfl⟩

end Spec

end Mokosh
