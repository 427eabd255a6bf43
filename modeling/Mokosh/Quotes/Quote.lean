import Mokosh.Billing.Service

/-! # Quotes

The sales document of `quotes/models.rs`: its header, its lines and what the requests on it carry.

* Money is in columns of two decimals.  A line's total is its quantity times its price.
* `Quote.Agrees`: the figures of the header are those of the lines.  The tax is derived from a rate, or
  it is an amount that was given and there is no rate. -/

namespace Mokosh.Quotes

/-! ### Status -/

inductive QuoteStatus where
  | draft
  | submitted
  | approved
  | rejected
  | sent
  | accepted
  | declined
  | expired
  | converted
  | cancelled
deriving DecidableEq, Repr

namespace QuoteStatus

def asStr : QuoteStatus → String
  | draft => "draft"
  | submitted => "submitted"
  | approved => "approved"
  | rejected => "rejected"
  | sent => "sent"
  | accepted => "accepted"
  | declined => "declined"
  | expired => "expired"
  | converted => "converted"
  | cancelled => "cancelled"

def isFrozen : QuoteStatus → Bool
  | sent | accepted | declined | expired | converted | cancelled => true
  | _ => false

def allowsContentEdit : QuoteStatus → Bool
  | draft | rejected => true
  | _ => false

def isClientVisible : QuoteStatus → Bool
  | sent | accepted | declined | expired | converted => true
  | _ => false

def isStaffSettable : QuoteStatus → Bool
  | draft | submitted | approved | rejected | cancelled => true
  | _ => false

/-- What can be edited is not frozen. -/
theorem isFrozen_of_allowsContentEdit {s : QuoteStatus} (h : s.allowsContentEdit = true) :
    s.isFrozen = false := by
  cases s <;> first | rfl | cases h

end QuoteStatus

/-- `effective_status`: a quote that was sent expires after the last day it is valid. -/
def effectiveStatus (stored : QuoteStatus) (validUntil : Option NaiveDate) (today : NaiveDate) :
    QuoteStatus :=
  match stored, validUntil with
  | .sent, some u => if u < today then .expired else .sent
  | _, _ => stored

/-- `approval_sync::outcome`. -/
def outcome (current : QuoteStatus) (pending rejected : ℕ) : Option QuoteStatus :=
  if current ≠ .submitted then none
  else if 0 < rejected then some .rejected
  else if pending = 0 then some .approved
  else none

theorem outcome_eq_some {current next : QuoteStatus} {pending rejected : ℕ}
    (h : outcome current pending rejected = some next) :
    current = .submitted ∧ (next = .rejected ∨ next = .approved) := by
  unfold outcome at h
  split at h
  · cases h
  · next hc =>
      refine ⟨not_not.mp hc, ?_⟩
      split at h
      · exact .inl (Option.some.inj h).symm
      · exact .inr (Option.some.inj (Option.ite_none_right_eq_some.mp h).2).symm

/-! ### Lines -/

inductive QuoteLineType where
  | service
  | product
  | labour
  | expense
  | adjustment
  | discount
deriving DecidableEq, Repr

structure QuoteLine where
  lineType : QuoteLineType
  description : String
  quantity : Numeric 2
  unitPrice : Numeric 2
  total : Numeric 2
  sortOrder : ℤ
  isTaxable : Bool
deriving DecidableEq

structure QuoteLineRequest where
  lineType : QuoteLineType
  description : String
  quantity : ℚ
  unitPrice : ℚ
  sortOrder : ℤ := 0
  isTaxable : Bool := true

/-- The row that `insert_line` inserts. -/
def QuoteLineRequest.row (line : QuoteLineRequest) : QuoteLine :=
  { lineType := line.lineType
    description := line.description
    quantity := .ofRat 2 line.quantity
    unitPrice := .ofRat 2 line.unitPrice
    total := .ofRat 2 (line.quantity * line.unitPrice)
    sortOrder := line.sortOrder
    isTaxable := line.isTaxable }

/-- What `update_line` makes of a row: all but whether it is taxable. -/
def QuoteLineRequest.overwrite (line : QuoteLineRequest) (row : QuoteLine) : QuoteLine :=
  { line.row with isTaxable := row.isTaxable }

/-- `SUM(total)`. -/
def subtotalOf (lines : List QuoteLine) : Numeric 2 := (lines.map (·.total)).sum

/-- `SUM(total) FILTER (WHERE is_taxable)`. -/
def taxableOf (lines : List QuoteLine) : Numeric 2 := subtotalOf (lines.filter (·.isTaxable))

/-! ### The header -/

/-- The client's sign-off: three columns that are written together. -/
structure Decision where
  decidedAt : ℕ
  decidedByContactId : Uuid
  decisionNotes : Option String
deriving DecidableEq

structure Quote where
  companyId : Uuid
  billingContactId : Option Uuid
  title : String
  summary : Option String
  description : Option String
  status : QuoteStatus
  validUntil : Option NaiveDate
  subtotal : Numeric 2
  taxAmount : Numeric 2
  taxRateId : Option Uuid
  taxRate : Option (Numeric 4)
  total : Numeric 2
  currency : String
  sentAt : Option ℕ
  deliveryMethod : Option DeliveryMethod
  deliveryNote : Option String
  deliveredById : Option Uuid
  emailedAt : Option ℕ
  emailedTo : Option String
  decision : Option Decision
  convertedProjectId : Option Uuid
deriving DecidableEq

/-- `ROUND(taxable * tax_rate / 100, 2)`. -/
def taxAt (taxable : Numeric 2) (rate : Numeric 4) : Numeric 2 :=
  .ofRat 2 (taxable.toRat * rate.toRat / 100)

namespace Quote

/-- The columns that `settle_tax_rate` writes. -/
def withRate (q : Quote) (rate : Option (Uuid × Numeric 4)) : Quote :=
  { q with taxRateId := rate.map Prod.fst, taxRate := rate.map Prod.snd }

/-- The first `UPDATE` of `recompute_totals`. -/
def withSubtotal (q : Quote) (subtotal taxable : Numeric 2) : Quote :=
  { q with
    subtotal := subtotal
    taxAmount := match q.taxRate with
      | some rate => taxAt taxable rate
      | none => q.taxAmount }

/-- The second one. -/
def withTotal (q : Quote) : Quote := { q with total := q.subtotal + q.taxAmount }

def withStatus (q : Quote) (status : QuoteStatus) : Quote := { q with status := status }

/-- The figures of the header are those of the lines. -/
structure Agrees (q : Quote) (lines : List QuoteLine) : Prop where
  subtotal : q.subtotal = subtotalOf lines
  taxAmount : ∀ rate, q.taxRate = some rate → q.taxAmount = taxAt (taxableOf lines) rate
  total : q.total = q.subtotal + q.taxAmount

/-- The two updates of `recompute_totals` leave figures that agree with the lines they summed. -/
theorem agrees_recomputed (q : Quote) (lines : List QuoteLine) :
    (q.withSubtotal (subtotalOf lines) (taxableOf lines)).withTotal.Agrees lines where
  subtotal := rfl
  taxAmount rate h := by
    replace h : q.taxRate = some rate := h
    simp [withTotal, withSubtotal, h]
  total := rfl

end Quote

/-! ### Requests -/

structure CreateQuoteRequest where
  companyId : Uuid
  billingContactId : Option Uuid := none
  title : String
  summary : Option String := none
  description : Option String := none
  validUntil : Option NaiveDate := none
  currency : Option String := none
  taxAmount : Option ℚ := none
  taxRateId : Option Uuid := none
  lines : List QuoteLineRequest := []

structure UpdateQuoteRequest where
  billingContactId : Option Uuid := none
  title : Option String := none
  summary : Option String := none
  description : Option String := none
  validUntil : Option NaiveDate := none
  currency : Option String := none
  taxAmount : Option ℚ := none
  taxRateId : Option Uuid := none
  status : Option QuoteStatus := none
  lines : Option (List QuoteLineRequest) := none

namespace UpdateQuoteRequest

def changesContent (request : UpdateQuoteRequest) : Bool :=
  request.billingContactId.isSome || request.title.isSome || request.summary.isSome ||
    request.description.isSome || request.validUntil.isSome || request.currency.isSome ||
    request.taxAmount.isSome || request.taxRateId.isSome || request.lines.isSome

/-- The columns that `update_quote` writes, each as it is where the request leaves it out. -/
def edit (request : UpdateQuoteRequest) (q : Quote) : Quote :=
  { q with
    billingContactId := request.billingContactId <|> q.billingContactId
    title := request.title.getD q.title
    summary := request.summary <|> q.summary
    description := request.description <|> q.description
    validUntil := request.validUntil <|> q.validUntil
    currency := request.currency.getD q.currency
    taxAmount := (request.taxAmount.map (Numeric.ofRat 2)).getD q.taxAmount
    status := request.status.getD q.status }

end UpdateQuoteRequest

structure ClientDecision where
  companyId : Uuid
  contactId : Uuid
  accept : Bool
  notes : Option String

end Mokosh.Quotes
