import Mathlib.Algebra.BigOperators.Group.List.Basic
import Mathlib.Algebra.Order.BigOperators.Group.List
import Mokosh.Lib.Transition
import Mokosh.TimeTracking.Entry

/-! # Vendor bills

`expenses/service.rs`, the half about bills: what an MSP owes a vendor, and what it has paid of it.  A
bill goes `draft → approved → paid`, or is voided on the way.

* The bill row and its payments are one `BillLedger`.  `transition_bill` and `record_bill_payment`
  lock the row and commit at the end, so that each of them is one step.
* `reconcile_external_bill_payment` and `pay_bill` read without the lock, and the second talks to the
  provider, before they come to `record_bill_payment`: a call of theirs is in flight in between.

`World` is one bill with the calls in flight and what its provider has been paid. -/

namespace Mokosh.Expenses

/-! ### Bills and payments -/

/-- The nearest `i64`, as the saturating operations have it. -/
def saturate (x : ℤ) : ℤ := max (-2 ^ 63) (min x (2 ^ 63 - 1))

theorem saturate_eq {x : ℤ} (h : -2 ^ 63 ≤ x) (h' : x < 2 ^ 63) : saturate x = x := by
  unfold saturate
  omega

theorem saturate_nonneg {x : ℤ} (h : 0 ≤ x) : 0 ≤ saturate x := by
  unfold saturate
  omega

theorem saturate_lt (x : ℤ) : saturate x < 2 ^ 63 := by
  unfold saturate
  omega

inductive BillStatus where
  | draft
  | approved
  | paid
  | void
deriving DecidableEq, Repr

def BillStatus.asStr : BillStatus → String
  | draft => "draft"
  | approved => "approved"
  | paid => "paid"
  | void => "void"

/-- `BillLineInput`, as far as the totals read it. -/
structure BillLineInput where
  quantityHundredths : ℤ
  unitPriceMinor : ℤ
  taxMinor : ℤ

/-- The ranges of the request: a quantity from 1, a price and a tax from 0. -/
def BillLineInput.Valid (line : BillLineInput) : Prop :=
  1 ≤ line.quantityHundredths ∧ 0 ≤ line.unitPriceMinor ∧ 0 ≤ line.taxMinor

structure BillTotals where
  subtotalMinor : ℤ
  taxMinor : ℤ
  totalMinor : ℤ

def BillTotals.fromLines (lines : List BillLineInput) : BillTotals :=
  let sums := lines.foldl
    (fun (s : ℤ × ℤ) line =>
      (saturate (s.1 + (saturate (line.unitPriceMinor * line.quantityHundredths)).tdiv 100),
        saturate (s.2 + line.taxMinor)))
    (0, 0)
  { subtotalMinor := sums.1, taxMinor := sums.2, totalMinor := saturate (sums.1 + sums.2) }

structure Bill where
  subtotalMinor : ℤ
  taxMinor : ℤ
  totalMinor : ℤ
  paidMinor : ℤ
  status : BillStatus
  externalProvider : Option String
  externalBillId : Option String
deriving DecidableEq, Repr

structure BillPayment where
  paidOn : NaiveDate
  amountMinor : ℤ
  paymentMethod : String
  reference : Option String
  notes : Option String
deriving DecidableEq

structure RecordBillPaymentRequest where
  paidOn : NaiveDate
  amountMinor : ℤ
  paymentMethod : String
  reference : Option String
  notes : Option String
deriving DecidableEq

/-- A bill and its payments, in the order of their insertion. -/
structure BillLedger where
  bill : Bill
  payments : List BillPayment
deriving DecidableEq

/-- The row that `create_bill` inserts, held by a provider or not. -/
def createBill (lines : List BillLineInput) (external : Option (String × String)) : BillLedger :=
  let totals := BillTotals.fromLines lines
  { bill :=
      { subtotalMinor := totals.subtotalMinor
        taxMinor := totals.taxMinor
        totalMinor := totals.totalMinor
        paidMinor := 0
        status := .draft
        externalProvider := external.map Prod.fst
        externalBillId := external.map Prod.snd }
    payments := [] }

/-! ### Transitions -/

/-- `bill_transition_refusal`. -/
def billTransitionRefusal (current target : BillStatus) : String :=
  match current with
  | .paid => "This bill has already been paid, so moving it would misstate what was settled. " ++
      "Issue a credit or adjustment instead."
  | .void => "This bill is void, so there is nothing left to move. Raise a new bill instead."
  | status =>
    if status = target then "This bill is already '" ++ target.asStr ++ "'."
    else if status = .draft ∧ target = .paid then
      "This bill has not been approved yet, so paying it would skip the check that it matches " ++
        "what was ordered. Approve it first."
    else "This bill is '" ++ status.asStr ++ "', so it cannot move to '" ++ target.asStr ++
      "'. No remedy is defined yet for this transition."

/-- `transition_bill`. -/
def transitionBill (allowedFrom : List BillStatus) (target : BillStatus) (l : BillLedger) :
    AppResult BillLedger :=
  if l.bill.status ∈ allowedFrom then .ok { l with bill := { l.bill with status := target } }
  else .error (.conflict (billTransitionRefusal l.bill.status target))

def approveBill : BillLedger → AppResult BillLedger := transitionBill [.draft] .approved

def voidBill : BillLedger → AppResult BillLedger := transitionBill [.draft, .approved] .void

/-! ### Payments -/

def BillLedger.paidSum (l : BillLedger) : ℤ := (l.payments.map (·.amountMinor)).sum

/-- `recompute_bill_payment_state`: the sum of the payments, and `paid` once it covers the total. -/
def recomputeBillPaymentState (l : BillLedger) : BillLedger :=
  { l with
    bill :=
      { l.bill with
        paidMinor := l.paidSum
        status := if l.bill.totalMinor ≤ l.paidSum then .paid else l.bill.status } }

def billPaymentMethods : List String := ["check", "credit_card", "ach", "wire", "cash", "other"]

/-- `to_ascii_lowercase`. -/
def toAsciiLowercase (s : String) : String := String.ofList (s.toList.map Char.toLower)

def RecordBillPaymentRequest.method (request : RecordBillPaymentRequest) : String :=
  toAsciiLowercase (trim request.paymentMethod)

/-- The row that `record_bill_payment` inserts. -/
def RecordBillPaymentRequest.payment (request : RecordBillPaymentRequest) : BillPayment :=
  { paidOn := request.paidOn
    amountMinor := request.amountMinor
    paymentMethod := request.method
    reference := request.reference.map trim
    notes := request.notes.map trim }

def Bill.remaining (b : Bill) : ℤ := saturate (b.totalMinor - b.paidMinor)

/-- `record_bill_payment`. -/
def recordBillPayment (request : RecordBillPaymentRequest) (l : BillLedger) :
    AppResult BillLedger := do
  if request.amountMinor ≤ 0 then
    throw (.validation "amount_minor"
      "a payment is an amount above zero; a vendor refund is a credit, not a negative payment")
  if request.method ∉ billPaymentMethods then
    throw (.validation "payment_method"
      "payment_method is one of check, credit_card, ach, wire, cash, other")
  match l.bill.status with
  | .approved | .paid => pure ()
  | .void => throw (.conflict "This bill was voided, so there is nothing to pay.")
  | .draft => throw (.conflict
      "A bill is paid after it is approved, and this one is draft. Approve it first.")
  if l.bill.remaining < request.amountMinor then
    throw (.conflict ("That is more than this bill has left to pay (" ++ toString l.bill.remaining ++
      " remaining of " ++ toString l.bill.totalMinor ++
      "). A duplicate payment is settled with the vendor, not recorded here."))
  pure (recomputeBillPaymentState { l with payments := l.payments ++ [request.payment] })

theorem recordBillPayment_eq_ok {request : RecordBillPaymentRequest} {l l' : BillLedger} :
    recordBillPayment request l = .ok l' ↔ 0 < request.amountMinor ∧
      request.method ∈ billPaymentMethods ∧ (l.bill.status = .approved ∨ l.bill.status = .paid) ∧
      request.amountMinor ≤ l.bill.remaining ∧
      l' = recomputeBillPaymentState { l with payments := l.payments ++ [request.payment] } := by
  unfold recordBillPayment
  by_cases h₁ : request.amountMinor ≤ 0
  · simp [h₁, not_lt.mpr h₁, throw, throwThe, MonadExceptOf.throw, bind, Except.bind]
  by_cases h₂ : request.method ∈ billPaymentMethods
  · by_cases h₃ : l.bill.remaining < request.amountMinor
    · cases hs : l.bill.status <;>
        simp [h₁, h₂, h₃, not_le.mpr h₃, throw, throwThe, MonadExceptOf.throw, bind, Except.bind]
    · cases hs : l.bill.status <;>
        simp [h₁, h₂, h₃, not_le.mp h₁, not_lt.mp h₃, throw, throwThe, MonadExceptOf.throw, bind,
          Except.bind, pure, Except.pure, eq_comm]
  · simp [h₁, h₂, throw, throwThe, MonadExceptOf.throw, bind, Except.bind]

/-! ### The provider -/

/-- `InvoiceProviderKind`. -/
inductive InvoiceProviderKind where
  | xero
  | quickbooks
deriving DecidableEq, Repr

namespace InvoiceProviderKind

def asStr : InvoiceProviderKind → String
  | xero => "xero"
  | quickbooks => "quickbooks"

def parse : String → Option InvoiceProviderKind
  | "xero" => some xero
  | "quickbooks" => some quickbooks
  | _ => none

end InvoiceProviderKind

structure ExternalBillPaymentReport where
  provider : String
  externalBillId : String
  providerPaidMinor : ℤ
  paidOn : NaiveDate
deriving DecidableEq

/-- `delegated_bill`: the bill, if the provider's id names it. -/
def delegatedBill (provider externalBillId : String) (b : Bill) : Option Bill :=
  if b.externalProvider = some provider ∧ b.externalBillId = some externalBillId then some b
  else none

/-- The half of `reconcile_external_bill_payment` before `record_bill_payment`: what is to be
recorded, out of the row that was read. -/
def reconcileExternalBillPayment (report : ExternalBillPaymentReport) (b : Bill) :
    Option RecordBillPaymentRequest :=
  match delegatedBill report.provider report.externalBillId b with
  | none => none
  | some bill =>
    let unrecorded := saturate (report.providerPaidMinor - bill.paidMinor)
    if bill.status ≠ .approved ∧ bill.status ≠ .paid then none
    else if unrecorded ≤ 0 then none
    else if bill.remaining ≤ 0 then none
    else some
      { paidOn := report.paidOn
        amountMinor := min unrecorded bill.remaining
        paymentMethod := "other"
        reference := some (report.provider ++ ":" ++ report.externalBillId)
        notes := some ("Recorded from " ++ report.provider ++ ", which reports " ++
          toString report.providerPaidMinor ++ " paid against this bill.") }

/-- The provider to which `pay_bill` pushes: none if the delegation is switched off or nobody holds
the bill. -/
def pushesTo (enabled : Bool) (b : Bill) : Option InvoiceProviderKind :=
  match enabled, b.externalProvider, b.externalBillId with
  | true, some provider, some _ => InvoiceProviderKind.parse provider
  | _, _, _ => none

/-- The request that `pay_bill` records, with the provider's payment id in its notes. -/
def RecordBillPaymentRequest.annotated (request : RecordBillPaymentRequest)
    (kind : InvoiceProviderKind) (id : String) : RecordBillPaymentRequest :=
  let recorded := "Recorded in " ++ kind.asStr ++ " as payment " ++ id ++ "."
  { request with
    notes := some (match request.notes.filter fun note => decide (trim note ≠ "") with
      | some note => note ++ "\n\n" ++ recorded
      | none => recorded) }

/-! ### One bill and the calls on it -/

/-- Where the amount of a call comes from: a push, before which the provider had been paid
`paidBefore`; a report of `total`, read when `paid_minor` was `read`; or a request that was pushed to
nobody. -/
inductive Source where
  | pushed (paidBefore : ℤ)
  | reported (total read : ℤ)
  | local
deriving DecidableEq

/-- A call in flight: `pay_bill` before its push, or a call before its `record_bill_payment`. -/
inductive BillCall where
  | paying (kind : InvoiceProviderKind) (request : RecordBillPaymentRequest)
  | recording (source : Source) (request : RecordBillPaymentRequest)
deriving DecidableEq

/-- What a push to the provider meets: the payment is made and the answer has its id, it is made and
the answer is lost, or it is refused. -/
inductive PushAnswer where
  | accepted (id : String)
  | lost
  | refused
deriving DecidableEq

/-- One bill: its rows, the calls in flight, what the provider has been paid by now and was paid by
the time of the last push to it, and the reports that were answered. -/
structure World where
  ledger : BillLedger
  calls : List BillCall
  provider : ℤ
  pushed : ℤ
  answered : List ℤ

inductive BillEvent where
  | approveBill
  | voidBill
  | recordBillPayment (request : RecordBillPaymentRequest)
  /-- `pay_bill` reads the bill. -/
  | payBill (request : RecordBillPaymentRequest) (enabled : Bool)
  /-- Call `i` pushes. -/
  | push (i : ℕ) (answer : PushAnswer)
  /-- `reconcile_external_bill_payment` reads the bill. -/
  | report (report : ExternalBillPaymentReport)
  /-- Call `i` records. -/
  | record (i : ℕ)
  /-- Somebody pays the provider's bill in the provider. -/
  | paidInProvider (amount : ℤ)
deriving DecidableEq

namespace World

/-- The rows after a call that may be refused. -/
def settle (w : World) (result : AppResult BillLedger) : World :=
  match result with
  | .ok l => { w with ledger := l }
  | .error _ => w

/-- A payment of the amount is made in the provider. -/
def pay (w : World) (amount : ℤ) : World :=
  { w with provider := w.provider + amount, pushed := w.provider + amount }

/-- The reports that are answered without an error, if the call of the source ends well. -/
def answer (w : World) : Source → World
  | .reported total _ => { w with answered := total :: w.answered }
  | _ => w

/-- `pay_bill` up to its push. -/
def payBill (w : World) (request : RecordBillPaymentRequest) (enabled : Bool) : World :=
  match pushesTo enabled w.ledger.bill with
  | some kind => { w with calls := w.calls ++ [.paying kind request] }
  | none => { w with calls := w.calls ++ [.recording .local request] }

/-- The push of call `i`.  A provider takes only amounts above zero. -/
def push (w : World) (i : ℕ) (answer : PushAnswer) : Option World :=
  match w.calls[i]? with
  | some (.paying kind request) =>
    match answer with
    | .refused => some { w with calls := w.calls.eraseIdx i }
    | .lost =>
      if 0 < request.amountMinor then
        some { w.pay request.amountMinor with calls := w.calls.eraseIdx i }
      else none
    | .accepted id =>
      if 0 < request.amountMinor then
        some { w.pay request.amountMinor with
          calls := w.calls.set i (.recording (.pushed w.provider) (request.annotated kind id)) }
      else none
  | _ => none

/-- `reconcile_external_bill_payment` up to `record_bill_payment`, for what the provider has been paid
by now or earlier. -/
def report (w : World) (report : ExternalBillPaymentReport) : Option World :=
  if 0 ≤ report.providerPaidMinor ∧ report.providerPaidMinor ≤ w.provider ∧
      report.providerPaidMinor < 2 ^ 63 then
    match delegatedBill report.provider report.externalBillId w.ledger.bill with
    | none => some w
    | some bill =>
      match reconcileExternalBillPayment report w.ledger.bill with
      | none => some (w.answer (.reported report.providerPaidMinor bill.paidMinor))
      | some request =>
        some { w with
          calls := w.calls ++
            [.recording (.reported report.providerPaidMinor bill.paidMinor) request] }
  else none

/-- The `record_bill_payment` of call `i`. -/
def record (w : World) (i : ℕ) : Option World :=
  match w.calls[i]? with
  | some (.recording source request) =>
    match recordBillPayment request w.ledger with
    | .ok l => some ({ w with ledger := l, calls := w.calls.eraseIdx i }.answer source)
    | .error _ => some { w with calls := w.calls.eraseIdx i }
  | _ => none

def step (w : World) : BillEvent → Option World
  | .approveBill => some (w.settle (approveBill w.ledger))
  | .voidBill => some (w.settle (voidBill w.ledger))
  | .recordBillPayment request => some (w.settle (recordBillPayment request w.ledger))
  | .payBill request enabled => some (w.payBill request enabled)
  | .push i answer => w.push i answer
  | .report report => w.report report
  | .record i => w.record i
  | .paidInProvider amount =>
    if 0 < amount then some { w with provider := w.provider + amount } else none

/-- A bill that was just created, of which the provider has been paid the amount. -/
def start (lines : List BillLineInput) (external : Option (String × String)) (provider : ℤ) : World :=
  { ledger := createBill lines external
    calls := []
    provider := provider
    pushed := 0
    answered := [] }

end World

/-- What a step can do. -/
inductive Stepped (w : World) : BillEvent → World → Prop
  | settled {e : BillEvent} {l : BillLedger} (h : e = .approveBill ∧ approveBill w.ledger = .ok l ∨
      e = .voidBill ∧ voidBill w.ledger = .ok l ∨
      ∃ request, e = .recordBillPayment request ∧ recordBillPayment request w.ledger = .ok l) :
      Stepped w e { w with ledger := l }
  | idle {e : BillEvent} : Stepped w e w
  | paying {request : RecordBillPaymentRequest} {enabled : Bool} {kind : InvoiceProviderKind}
      (h : pushesTo enabled w.ledger.bill = some kind) :
      Stepped w (.payBill request enabled) { w with calls := w.calls ++ [.paying kind request] }
  | unpushed {request : RecordBillPaymentRequest} {enabled : Bool}
      (h : pushesTo enabled w.ledger.bill = none) :
      Stepped w (.payBill request enabled) { w with calls := w.calls ++ [.recording .local request] }
  | accepted {i : ℕ} {id : String} {kind : InvoiceProviderKind} {request : RecordBillPaymentRequest}
      (hi : w.calls[i]? = some (.paying kind request)) (ha : 0 < request.amountMinor) :
      Stepped w (.push i (.accepted id)) { w.pay request.amountMinor with
        calls := w.calls.set i (.recording (.pushed w.provider) (request.annotated kind id)) }
  | lost {i : ℕ} {kind : InvoiceProviderKind} {request : RecordBillPaymentRequest}
      (hi : w.calls[i]? = some (.paying kind request)) (ha : 0 < request.amountMinor) :
      Stepped w (.push i .lost) { w.pay request.amountMinor with calls := w.calls.eraseIdx i }
  | refused {i : ℕ} {kind : InvoiceProviderKind} {request : RecordBillPaymentRequest}
      (hi : w.calls[i]? = some (.paying kind request)) :
      Stepped w (.push i .refused) { w with calls := w.calls.eraseIdx i }
  | answered {report : ExternalBillPaymentReport} {bill : Bill}
      (hle : report.providerPaidMinor ≤ w.provider)
      (hb : delegatedBill report.provider report.externalBillId w.ledger.bill = some bill)
      (hr : reconcileExternalBillPayment report w.ledger.bill = none) :
      Stepped w (.report report) (w.answer (.reported report.providerPaidMinor bill.paidMinor))
  | read {report : ExternalBillPaymentReport} {bill : Bill} {request : RecordBillPaymentRequest}
      (hle : report.providerPaidMinor ≤ w.provider) (hlt : report.providerPaidMinor < 2 ^ 63)
      (hb : delegatedBill report.provider report.externalBillId w.ledger.bill = some bill)
      (hr : reconcileExternalBillPayment report w.ledger.bill = some request) :
      Stepped w (.report report) { w with
        calls := w.calls ++ [.recording (.reported report.providerPaidMinor bill.paidMinor) request] }
  | recorded {i : ℕ} {source : Source} {request : RecordBillPaymentRequest} {l : BillLedger}
      (hi : w.calls[i]? = some (.recording source request))
      (hr : recordBillPayment request w.ledger = .ok l) :
      Stepped w (.record i) ({ w with ledger := l, calls := w.calls.eraseIdx i }.answer source)
  | notRecorded {i : ℕ} {source : Source} {request : RecordBillPaymentRequest} {e : AppError}
      (hi : w.calls[i]? = some (.recording source request))
      (hr : recordBillPayment request w.ledger = .error e) :
      Stepped w (.record i) { w with calls := w.calls.eraseIdx i }
  | paidInProvider {amount : ℤ} (ha : 0 < amount) :
      Stepped w (.paidInProvider amount) { w with provider := w.provider + amount }

namespace World

theorem settle_stepped {w : World} {e : BillEvent} {result : AppResult BillLedger}
    (h : ∀ l, result = .ok l → Stepped w e { w with ledger := l }) : Stepped w e (w.settle result) := by
  cases result with
  | ok l => exact h l rfl
  | error e => exact .idle

theorem step_cases {w w' : World} {e : BillEvent} (h : w.step e = some w') : Stepped w e w' := by
  cases e with
  | approveBill =>
      cases h
      exact settle_stepped fun l hl => .settled (.inl ⟨rfl, hl⟩)
  | voidBill =>
      cases h
      exact settle_stepped fun l hl => .settled (.inr (.inl ⟨rfl, hl⟩))
  | recordBillPayment request =>
      cases h
      exact settle_stepped fun l hl => .settled (.inr (.inr ⟨request, rfl, hl⟩))
  | payBill request enabled =>
      cases h
      unfold payBill
      split
      · next hp => exact .paying hp
      · next hp => exact .unpushed hp
  | push i answer =>
      replace h : w.push i answer = some w' := h
      unfold push at h
      split at h
      · next kind request hi =>
          cases answer with
          | refused =>
              cases h
              exact .refused hi
          | lost =>
              obtain ⟨ha, h⟩ := Option.ite_none_right_eq_some.mp h
              cases h
              exact .lost hi ha
          | accepted id =>
              obtain ⟨ha, h⟩ := Option.ite_none_right_eq_some.mp h
              cases h
              exact .accepted hi ha
      · cases h
  | report report =>
      replace h : w.report report = some w' := h
      unfold World.report at h
      obtain ⟨⟨-, hle, hlt⟩, h⟩ := Option.ite_none_right_eq_some.mp h
      split at h
      · cases h
        exact .idle
      · next bill hb =>
          split at h
          · next hr =>
              cases h
              exact .answered hle hb hr
          · next request hr =>
              cases h
              exact .read hle hlt hb hr
  | record i =>
      replace h : w.record i = some w' := h
      unfold record at h
      split at h
      · next source request hi =>
          split at h
          · next l hr =>
              cases h
              exact .recorded hi hr
          · next e hr =>
              cases h
              exact .notRecorded hi hr
      · cases h
  | paidInProvider amount =>
      obtain ⟨ha, h⟩ := Option.ite_none_right_eq_some.mp h
      cases h
      exact .paidInProvider ha

theorem answer_ledger (w : World) (source : Source) : (w.answer source).ledger = w.ledger := by
  cases source <;> rfl

end World

end Mokosh.Expenses
