import Mokosh.Lib.ReadCommitted
import Mokosh.Quotes.Quote

/-! # The operations on a quote

`quotes/service.rs` and `quotes/approval_sync.rs`, each operation as the statements of its transaction on
one quote and its lines.

* What an operation looks up in other tables is part of the `Operation`: the tables may answer
  anything.
* An operation that fails on the way (a refused mail, a full column, a lost connection) is an event of
  the database, not a branch of the program.
* `createQuote` is what a quote is when its other operations find it for the first time. -/

namespace Mokosh.Quotes

open ReadCommitted

/-- A transaction on a quote. -/
abbrev Txn := Program Quote QuoteLine (AppResult Unit)

namespace Txn

/-- Go on if the check passes. -/
def check (result : AppResult Unit) (k : Txn) : Txn :=
  match result with
  | .ok () => k
  | .error e => .rollback (.error e)

def fail (e : AppError) : Txn := .rollback (.error e)

end Txn

/-! ### Parts of the operations -/

/-- `status_of`. -/
def statusOf (k : QuoteStatus → Txn) : Txn := .select fun q => k q.status

def assertContentEditable (status : QuoteStatus) : AppResult Unit :=
  if status.allowsContentEdit then .ok ()
  else .error (.conflict ("Quote in status '" ++ status.asStr ++ "' cannot be edited"))

/-- `recompute_totals`.  The second reading of the lines is part of the first `UPDATE`, which may have to
wait for the header after it. -/
def recomputeTotals (k : Txn) : Txn :=
  .selectRows fun summed =>
  .selectRows fun lines =>
  .update (fun q => q.withSubtotal (subtotalOf summed) (taxableOf lines)) <|
  .update Quote.withTotal k

/-- `insert_line` for each line. -/
def insertLines (lines : List QuoteLineRequest) (k : Txn) : Txn :=
  lines.foldr (fun line k => .insertRow line.row k) k

/-- `DELETE FROM quote_lines WHERE quote_id = …`. -/
def deleteLines (k : Txn) : Txn :=
  .findRows fun ids => ids.foldr (fun id k => .deleteRow id fun _ => k) k

/-- The rate that `settle_tax_rate` writes, if it writes one: `rate` is the active rate of the requested
id, and `default` the tenant's, if it is to be used. -/
def settledRate (requested : Option Uuid) (rate : Option (Numeric 4))
    (default : Option (Option (Uuid × Numeric 4))) (amountGiven : Bool) :
    AppResult (Option (Option (Uuid × Numeric 4))) :=
  if amountGiven then .ok (some none)
  else
    match requested, rate with
    | some id, some pct => .ok (some (some (id, pct)))
    | some _, none =>
      .error (.badRequest "tax_rate_id does not name an active tax rate in this tenant")
    | none, _ => .ok default

/-- `settle_tax_rate` of an update. -/
def settleTaxRate (requested : Option Uuid) (rate : Option (Numeric 4)) (amountGiven : Bool) (k : Txn) :
    Txn :=
  match settledRate requested rate none amountGiven with
  | .ok (some settled) => .update (fun q => q.withRate settled) k
  | .ok none => k
  | .error e => Txn.fail e

/-! ### create_quote -/

/-- The header that `create_quote` inserts. -/
def CreateQuoteRequest.header (request : CreateQuoteRequest) (billingContactId : Option Uuid) : Quote :=
  let subtotal := (request.lines.map fun line => line.quantity * line.unitPrice).sum
  let tax := request.taxAmount.getD 0
  { companyId := request.companyId
    billingContactId := billingContactId
    title := request.title
    summary := request.summary
    description := request.description
    status := .draft
    validUntil := request.validUntil
    subtotal := .ofRat 2 subtotal
    taxAmount := .ofRat 2 tax
    taxRateId := none
    taxRate := none
    total := .ofRat 2 (subtotal + tax)
    currency := request.currency.getD "USD"
    sentAt := none
    deliveryMethod := none
    deliveryNote := none
    deliveredById := none
    emailedAt := none
    emailedTo := none
    decision := none
    convertedProjectId := none }

/-- `create_quote`: the header and the lines that it leaves. -/
def createQuote (request : CreateQuoteRequest) (billingContactId : Option Uuid)
    (rate : Option (Numeric 4)) (default : Option (Uuid × Numeric 4)) :
    AppResult (Quote × List (ℕ × QuoteLine)) := do
  let rows := (request.lines.map QuoteLineRequest.row).zipIdx.map Prod.swap
  let lines := rows.map Prod.snd
  let settled ← settledRate request.taxRateId rate (some default) request.taxAmount.isSome
  let q := (request.header billingContactId).withRate (settled.getD none)
  pure ((q.withSubtotal (subtotalOf lines) (taxableOf lines)).withTotal, rows)

/-! ### update_quote, cancel_quote -/

def assertNotFrozen (status : QuoteStatus) : AppResult Unit :=
  if status.isFrozen then
    .error (.conflict ("Quote in status '" ++ status.asStr ++ "' cannot be edited"))
  else .ok ()

/-- The check on the status that staff asks for; `pending` says whether an approval is outstanding. -/
def assertSettable (status : Option QuoteStatus) (pending : Bool) : AppResult Unit :=
  match status with
  | none => .ok ()
  | some next =>
    if next.isStaffSettable = false then
      .error (.conflict ("Status '" ++ next.asStr ++
        "' is not settable here; it is written by the send, portal, or convert route"))
    else if next = .approved ∧ pending then
      .error (.conflict ("This quote is waiting on an approval; approve it from the approvals " ++
        "queue, or cancel the approval to decide it here"))
    else .ok ()

def UpdateQuoteRequest.assertContent (request : UpdateQuoteRequest) (current : QuoteStatus) :
    AppResult Unit :=
  if request.changesContent then assertContentEditable current else .ok ()

/-- The checks of `update_quote` on the status it read. -/
def UpdateQuoteRequest.check (request : UpdateQuoteRequest) (pending : Bool) (current : QuoteStatus) :
    AppResult Unit := do
  assertNotFrozen current
  request.assertContent current
  assertSettable request.status pending

def replaceLines (lines : Option (List QuoteLineRequest)) (k : Txn) : Txn :=
  match lines with
  | some lines => deleteLines (insertLines lines k)
  | none => k

/-- `assert_for_company`, given whether the contact is one of the company. -/
def assertForCompany (contact : Option Uuid) (ofCompany : Bool) : AppResult Unit :=
  if contact.isSome && !ofCompany then
    .error (.badRequest "billing_contact_id does not reference a contact of this company")
  else .ok ()

/-- `update_quote`. -/
def updateQuote (request : UpdateQuoteRequest) (pending ofCompany : Bool) (rate : Option (Numeric 4)) :
    Txn :=
  statusOf fun current =>
  Txn.check (request.check pending current) <|
  Txn.check (assertForCompany request.billingContactId ofCompany) <|
  .update request.edit <|
  replaceLines request.lines <|
  settleTaxRate request.taxRateId rate request.taxAmount.isSome <|
  recomputeTotals .commit

/-- `cancel_quote`. -/
def cancelQuote : Txn :=
  statusOf fun current =>
  if current.isFrozen then
    Txn.fail (.conflict ("Quote in status '" ++ current.asStr ++ "' cannot be cancelled"))
  else .update (fun q => q.withStatus .cancelled) .commit

/-! ### send_quote -/

/-- What `send_quote` looks up in the tables of companies and contacts. -/
structure Recipients where
  ofCompany : Bool
  defaultContact : Option Uuid
  email : Option String
  companyName : String

/-- `billing_contact::resolve`. -/
def Recipients.resolve (r : Recipients) (requested : Option Uuid) : AppResult (Option Uuid) :=
  match requested with
  | some contact =>
    if r.ofCompany then .ok (some contact)
    else .error (.badRequest "billing_contact_id does not reference a contact of this company")
  | none => .ok r.defaultContact

def Recipients.unreachable (r : Recipients) : String :=
  "This quote has nobody to send to: " ++ r.companyName ++
    "'s billing contact has no email address. Add one, choose another billing contact, or choose " ++
    "postal mail or other delivery."

/-- The recipient of an email, and the address. -/
def Recipients.address (r : Recipients) (requested : Option Uuid) : AppResult (Uuid × String) :=
  match r.resolve requested with
  | .error e => .error e
  | .ok none => .error (.conflict ("This quote has nobody to send to: " ++ r.companyName ++
      " has no billing contact. Set one on the company, or name a billing contact on the quote, " ++
      "then send it."))
  | .ok (some recipient) =>
    match r.email.map trim with
    | some address =>
      if address = "" then .error (.conflict r.unreachable) else .ok (recipient, address)
    | none => .error (.conflict r.unreachable)

/-- The delivery of a `send_quote`, by email if none is given. -/
def deliveryChoice (delivery : Option DeliveryRequest) : DeliveryMethod × Option String :=
  match delivery with
  | some d => (d.method, (d.note.map trim).filter fun note => decide (note ≠ ""))
  | none => (.email, none)

/-- The status and the columns of the delivery that `send_quote` writes. -/
def Quote.delivered (q : Quote) (now : ℕ) (method : DeliveryMethod) (note : Option String)
    (user : Option Uuid) (recipient : Option Uuid) : Quote :=
  { q with
    status := .sent
    sentAt := some now
    billingContactId := recipient <|> q.billingContactId
    deliveryMethod := some method
    deliveryNote := note
    deliveredById := q.deliveredById <|> user }

def Quote.emailed (q : Quote) (now : ℕ) (address : String) : Quote :=
  { q with emailedAt := some now, emailedTo := some address }

/-- `send_quote`.  The mail goes out between the last reading and the last `UPDATE`. -/
def sendQuote (delivery : Option DeliveryRequest) (recipients : Recipients) (now : ℕ)
    (user : Option Uuid) : Txn :=
  let (method, note) := deliveryChoice delivery
  if method = .other ∧ note = none then
    Txn.fail (.validation "delivery.note"
      "a note describing the delivery is required when `method` is `other`")
  else
    statusOf fun current =>
    if current ≠ .approved then
      Txn.fail (.conflict ("Quote in status '" ++ current.asStr ++
        "' cannot be sent; it must be internally approved first"))
    else
      .select fun requested =>
      if method = .email then
        match recipients.address requested.billingContactId with
        | .error e => Txn.fail e
        | .ok (recipient, address) =>
          .update (fun q => q.delivered now method none user (some recipient)) <|
          .select fun _ =>
          .update (fun q => q.emailed now address) .commit
      else .update (fun q => q.delivered now method note user none) .commit

/-! ### decide_quote, convert_quote, apply_decision -/

/-- The columns that `decide_quote` writes. -/
def Quote.decided (q : Quote) (now : ℕ) (decision : ClientDecision) : Quote :=
  { q with
    status := if decision.accept then .accepted else .declined
    decision := some
      { decidedAt := now
        decidedByContactId := decision.contactId
        decisionNotes := decision.notes } }

/-- `decide_quote`. -/
def decideQuote (decision : ClientDecision) (today : NaiveDate) (now : ℕ) : Txn :=
  .select fun row =>
  if row.companyId ≠ decision.companyId ∨ row.status.isClientVisible = false then
    Txn.fail (.notFound "Quote")
  else
    let effective := effectiveStatus row.status row.validUntil today
    if effective ≠ .sent then
      Txn.fail (.conflict ("Quote in status '" ++ effective.asStr ++ "' can no longer be decided"))
    else .update (fun q => q.decided now decision) .commit

/-- The columns that `convert_quote` writes. -/
def Quote.convertedTo (q : Quote) (projectId : Uuid) : Quote :=
  { q with status := .converted, convertedProjectId := some projectId }

/-- `convert_quote`, as far as the quote goes; `projectId` is the id of the new project. -/
def convertQuote (projectId : Uuid) : Txn :=
  .selectForUpdate fun row =>
  if row.status = .converted ∧ row.convertedProjectId.isSome then .rollback (.ok ())
  else if row.status ≠ .accepted then
    Txn.fail (.conflict ("Quote in status '" ++ row.status.asStr ++
      "' cannot be converted; the client must accept it first"))
  else .update (fun q => q.convertedTo projectId) .commit

/-- `apply_decision`, at the end of a decision on an approval; `pending` and `rejected` are the counts
of the staff approvals. -/
def applyDecision (pending rejected : ℕ) : Txn :=
  .selectForUpdate fun row =>
  match outcome row.status pending rejected with
  | none => .commit
  | some next => .update (fun q => q.withStatus next) .commit

/-! ### add_line, update_line, delete_line -/

/-- `add_line`. -/
def addLine (line : QuoteLineRequest) : Txn :=
  statusOf fun current =>
  Txn.check (assertContentEditable current) <|
  .insertRow line.row <|
  recomputeTotals .commit

/-- The lines of other quotes are not among the rows, so that the id of one finds none. -/
def affected (rows : Bool) (k : Txn) : Txn := if rows then k else Txn.fail (.notFound "Quote line")

/-- `update_line`. -/
def updateLine (lineId : Uuid) (line : QuoteLineRequest) : Txn :=
  statusOf fun current =>
  Txn.check (assertContentEditable current) <|
  .updateRow lineId line.overwrite fun rows =>
  affected rows <|
  recomputeTotals .commit

/-- `delete_line`. -/
def deleteLine (lineId : Uuid) : Txn :=
  statusOf fun current =>
  Txn.check (assertContentEditable current) <|
  .deleteRow lineId fun rows =>
  affected rows <|
  recomputeTotals .commit

/-! ### The system -/

/-- An operation with what it looks up. -/
inductive Operation where
  | updateQuote (request : UpdateQuoteRequest) (pending ofCompany : Bool) (rate : Option (Numeric 4))
  | cancelQuote
  | sendQuote (delivery : Option DeliveryRequest) (recipients : Recipients) (now : ℕ)
      (user : Option Uuid)
  | decideQuote (decision : ClientDecision) (today : NaiveDate) (now : ℕ)
  | convertQuote (projectId : Uuid)
  | applyDecision (pending rejected : ℕ)
  | addLine (line : QuoteLineRequest)
  | updateLine (lineId : Uuid) (line : QuoteLineRequest)
  | deleteLine (lineId : Uuid)

def Operation.program : Operation → Txn
  | updateQuote request pending ofCompany rate => Quotes.updateQuote request pending ofCompany rate
  | cancelQuote => Quotes.cancelQuote
  | sendQuote delivery recipients now user => Quotes.sendQuote delivery recipients now user
  | decideQuote decision today now => Quotes.decideQuote decision today now
  | convertQuote projectId => Quotes.convertQuote projectId
  | applyDecision pending rejected => Quotes.applyDecision pending rejected
  | addLine line => Quotes.addLine line
  | updateLine lineId line => Quotes.updateLine lineId line
  | deleteLine lineId => Quotes.deleteLine lineId

/-- One quote, and the calls on it. -/
abbrev QuoteWorld := World Quote QuoteLine (AppResult Unit) Operation

abbrev QuoteEvent := Event Operation

/-- The system of all interleavings. -/
abbrev quoteStep : QuoteWorld → QuoteEvent → Option QuoteWorld := step Operation.program

/-- A quote that was just created, of `rows.length` lines. -/
def QuoteWorld.start (created : Quote × List (ℕ × QuoteLine)) : QuoteWorld :=
  World.start created.1 created.2 created.2.length

def QuoteWorld.lines (w : QuoteWorld) : List QuoteLine := w.rows.map Prod.snd

end Mokosh.Quotes
