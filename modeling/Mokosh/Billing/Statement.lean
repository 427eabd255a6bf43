import Mathlib.Data.String.Basic
import Mokosh.Billing.Writes
import Mokosh.Lib.Journal

/-! # Statements

`build_statement` of `billing/service.rs`: a company's account over a period, derived from the dated
rows and stored nowhere.  What happened before the period is netted into the opening balance; what
happened within it is listed.

The account is a journal (`accountOf`): an invoice charges its total, a payment and a credit note
take off their amounts, a refund adds one back, and a write-off takes off what was given up on.  A
payment that recovers a debt which was written off is posted twice, as a payment and with the
opposite sign as a recovery, because the write-off has deducted the same debt.  The opening balance
of a statement is the balance of this journal before the period, and the closing balance is the one
through its last day (`buildStatement_eq_ok`).

**`statement_continuity`**: a statement opens with what the one before it closed with, whatever the
periods are.  The rows that are shown account for the whole change but for the recoveries, which
have a figure of their own and no rows (`recovery_has_no_row`). -/

namespace Mokosh

/-- A point in time, as the day it falls on and the microseconds since the day began. -/
structure Timestamp where
  date : NaiveDate
  micros : ℕ
deriving DecidableEq, Repr

inductive PaymentMethod where
  | check
  | creditCard
  | ach
  | wire
  | cash
  | paypal
  | other
deriving DecidableEq, Repr

/-- The columns of the rows that date them, by the id of the row.  `writtenOffAt` is read of the
invoices that have one. -/
structure StatementDates where
  invoiceDate : Uuid → NaiveDate
  writtenOffAt : Uuid → Timestamp
  paymentDate : Uuid → NaiveDate
  refundedAt : Uuid → Timestamp
  issueDate : Uuid → NaiveDate

/-- The columns that a statement shows and never computes with. -/
structure StatementTexts where
  companyName : Uuid → String
  dueDate : Uuid → NaiveDate
  writeOffReason : Uuid → Option String
  paymentMethod : Uuid → PaymentMethod
  referenceNumber : Uuid → Option String
  creditNoteNumber : Uuid → String
  creditReason : Uuid → String

structure StatementQuery where
  companyId : Uuid
  /-- Inclusive. -/
  periodStart : NaiveDate
  /-- Inclusive. -/
  periodEnd : NaiveDate

structure StatementInvoiceLine where
  invoiceId : Uuid
  invoiceNumber : String
  invoiceDate : NaiveDate
  dueDate : NaiveDate
  status : InvoiceStatus
  total : Numeric 2

structure StatementPaymentLine where
  paymentId : Uuid
  paymentDate : NaiveDate
  amount : Numeric 2
  paymentMethod : PaymentMethod
  referenceNumber : Option String
  invoiceNumber : Option String

structure StatementRefundLine where
  refundId : Uuid
  refundDate : NaiveDate
  amount : Numeric 2
  invoiceNumber : Option String

structure StatementCreditLine where
  creditNoteId : Uuid
  creditNoteNumber : String
  issueDate : NaiveDate
  total : Numeric 2
  reason : String
  invoiceNumber : Option String

structure StatementWriteOffLine where
  invoiceId : Uuid
  invoiceNumber : String
  writeOffDate : NaiveDate
  amount : Numeric 2
  reason : String

structure StatementResponse where
  companyId : Uuid
  companyName : Option String
  periodStart : NaiveDate
  periodEnd : NaiveDate
  openingBalance : Numeric 2
  invoices : List StatementInvoiceLine
  payments : List StatementPaymentLine
  refunds : List StatementRefundLine
  creditNotes : List StatementCreditLine
  writeOffs : List StatementWriteOffLine
  totalInvoiced : Numeric 2
  totalPaid : Numeric 2
  totalRefunded : Numeric 2
  totalCredited : Numeric 2
  totalWrittenOff : Numeric 2
  totalRecovered : Numeric 2
  closingBalance : Numeric 2

/-! ### The queries -/

/-- `STATEMENT_ISSUED_INVOICE`. -/
def statementIssuedInvoice (i : Invoice) : Bool :=
  decide (i.status ≠ .draft ∧ i.status ≠ .pending ∧ i.status ≠ .void)

section Queries

variable (db : BillingDb) (dates : StatementDates) (companyId : Uuid)

/-- The day of a write-off, `written_off_at::date`. -/
def StatementDates.writeOffDate (i : Invoice) : NaiveDate := (dates.writtenOffAt i.id).date

def Invoice.chargedTo (i : Invoice) : Bool :=
  decide (i.companyId = companyId) && statementIssuedInvoice i

def Invoice.writtenOffFor (i : Invoice) : Bool := decide (i.companyId = companyId) && i.writtenOffAt

def Payment.paidBy (p : Payment) : Bool := decide (p.companyId = companyId)

/-- Joined through the payment: a refund of an unapplied payment has a company too. -/
def PaymentRefund.refundedTo (r : PaymentRefund) : Bool :=
  (db.payments.find r.paymentId).any (Payment.paidBy companyId)

def CreditNote.creditedTo (n : CreditNote) : Bool :=
  decide (n.companyId = companyId ∧ n.status = .issued)

/-- The payment is dated on or after the write-off of its invoice. -/
def Payment.recovers (p : Payment) : Bool :=
  (p.invoiceId.bind db.invoices.find).any fun i =>
    i.writtenOffAt && decide (dates.writeOffDate i ≤ dates.paymentDate p.id)

/-- `SUM` of a column over the rows that a query selects, `0` if there are none. -/
def sumOf {α : Type} (column : α → Numeric 2) (rows : List α) : Numeric 2 := (rows.map column).sum

/-- The number of the invoice of a row, by a left join. -/
def invoiceNumberOf (o : Option Uuid) : Option String :=
  (o.bind db.invoices.find).map Invoice.invoiceNumber

/-- Rows in the order of a date and of a second column. -/
def orderBy {α β γ : Type} [LinearOrder β] [LinearOrder γ] (first : α → β) (second : α → γ)
    (rows : List α) : List α :=
  rows.insertionSort fun x y => first x < first y ∨ (first x = first y ∧ second x ≤ second y)

/-- Rows in the order of a timestamp and of a second column. -/
def orderByTime {α γ : Type} [LinearOrder γ] (first : α → Timestamp) (second : α → γ)
    (rows : List α) : List α :=
  rows.insertionSort fun x y => (first x).date < (first y).date ∨
    ((first x).date = (first y).date ∧ ((first x).micros < (first y).micros ∨
      ((first x).micros = (first y).micros ∧ second x ≤ second y)))

end Queries

/-- `BillingService::build_statement`. -/
def buildStatement (db : BillingDb) (dates : StatementDates) (texts : StatementTexts)
    (query : StatementQuery) : AppResult StatementResponse :=
  if query.periodEnd < query.periodStart then
    .error (.badRequest "A statement's period cannot end before it starts")
  else if query.companyId ∉ db.time.dir.companies then .error (.notFound "Company")
  else
    let before (d : NaiveDate) : Bool := decide (d < query.periodStart)
    let between (d : NaiveDate) : Bool := decide (query.periodStart ≤ d ∧ d ≤ query.periodEnd)
    let openInvoiced := sumOf Invoice.total (db.invoices.rows.filter fun i =>
      i.chargedTo query.companyId && before (dates.invoiceDate i.id))
    let openPaid := sumOf Payment.amount (db.payments.rows.filter fun p =>
      p.paidBy query.companyId && before (dates.paymentDate p.id))
    let openRefunded := sumOf PaymentRefund.amount (db.refunds.rows.filter fun r =>
      r.refundedTo db query.companyId && before (dates.refundedAt r.id).date)
    let openCredited := sumOf CreditNote.total (db.creditNotes.rows.filter fun n =>
      n.creditedTo query.companyId && before (dates.issueDate n.id))
    let openWrittenOff := sumOf (fun i => i.writeOffAmount.getD 0) (db.invoices.rows.filter fun i =>
      i.writtenOffFor query.companyId && before (dates.writeOffDate i))
    let openRecovered := sumOf Payment.amount (db.payments.rows.filter fun p =>
      p.paidBy query.companyId && p.recovers db dates && before (dates.paymentDate p.id))
    let openingBalance := openInvoiced + openRefunded + openRecovered - openPaid - openCredited -
      openWrittenOff
    let invoices := orderBy (fun i => dates.invoiceDate i.id) Invoice.invoiceNumber
      (db.invoices.rows.filter fun i =>
        i.chargedTo query.companyId && between (dates.invoiceDate i.id))
    let payments := orderBy (fun p => dates.paymentDate p.id) Payment.id
      (db.payments.rows.filter fun p =>
        p.paidBy query.companyId && between (dates.paymentDate p.id))
    let refundRows := orderByTime (fun r => dates.refundedAt r.id) PaymentRefund.id
      (db.refunds.rows.filter fun r =>
        r.refundedTo db query.companyId && between (dates.refundedAt r.id).date)
    let creditNotes := orderBy (fun n => dates.issueDate n.id) (fun n => texts.creditNoteNumber n.id)
      (db.creditNotes.rows.filter fun n =>
        n.creditedTo query.companyId && between (dates.issueDate n.id))
    let writeOffs := orderByTime (fun i => dates.writtenOffAt i.id) Invoice.invoiceNumber
      (db.invoices.rows.filter fun i =>
        i.writtenOffFor query.companyId && between (dates.writeOffDate i))
    let totalRecovered := sumOf Payment.amount (db.payments.rows.filter fun p =>
      p.paidBy query.companyId && p.recovers db dates && between (dates.paymentDate p.id))
    let totalInvoiced := sumOf Invoice.total invoices
    let totalPaid := sumOf Payment.amount payments
    let totalRefunded := sumOf PaymentRefund.amount refundRows
    let totalCredited := sumOf CreditNote.total creditNotes
    let totalWrittenOff := sumOf (fun i => i.writeOffAmount.getD 0) writeOffs
    .ok
      { companyId := query.companyId
        companyName := some (texts.companyName query.companyId)
        periodStart := query.periodStart
        periodEnd := query.periodEnd
        openingBalance := openingBalance
        invoices := invoices.map fun i =>
          ⟨i.id, i.invoiceNumber, dates.invoiceDate i.id, texts.dueDate i.id, i.status, i.total⟩
        payments := payments.map fun p =>
          ⟨p.id, dates.paymentDate p.id, p.amount, texts.paymentMethod p.id,
            texts.referenceNumber p.id, invoiceNumberOf db p.invoiceId⟩
        refunds := refundRows.map fun r =>
          ⟨r.id, (dates.refundedAt r.id).date, r.amount, invoiceNumberOf db r.invoiceId⟩
        creditNotes := creditNotes.map fun n =>
          ⟨n.id, texts.creditNoteNumber n.id, dates.issueDate n.id, n.total, texts.creditReason n.id,
            invoiceNumberOf db (some n.invoiceId)⟩
        writeOffs := writeOffs.map fun i =>
          ⟨i.id, i.invoiceNumber, dates.writeOffDate i, i.writeOffAmount.getD 0,
            (texts.writeOffReason i.id).getD ""⟩
        totalInvoiced := totalInvoiced
        totalPaid := totalPaid
        totalRefunded := totalRefunded
        totalCredited := totalCredited
        totalWrittenOff := totalWrittenOff
        totalRecovered := totalRecovered
        closingBalance := openingBalance + totalInvoiced + totalRefunded + totalRecovered -
          totalPaid - totalCredited - totalWrittenOff }

/-- What the rows of the statement add to the account. -/
def StatementResponse.signedRows (st : StatementResponse) : Numeric 2 :=
  (st.invoices.map (·.total)).sum + (st.refunds.map (·.amount)).sum -
    (st.payments.map (·.amount)).sum - (st.creditNotes.map (·.total)).sum -
    (st.writeOffs.map (·.amount)).sum

/-! ### The account -/

section Account

variable (db : BillingDb) (dates : StatementDates) (companyId : Uuid)

/-- The payments that recover a debt which was written off. -/
def recoveriesOf : Journal NaiveDate (Numeric 2) :=
  (db.payments.rows.filter fun p => p.paidBy companyId && p.recovers db dates).map fun p =>
    (dates.paymentDate p.id, p.amount)

/-- What a company owes, as it came about. -/
def accountOf : Journal NaiveDate (Numeric 2) :=
  (db.invoices.rows.filter (·.chargedTo companyId)).map (fun i =>
      (dates.invoiceDate i.id, i.total)) ++
    (db.refunds.rows.filter (·.refundedTo db companyId)).map (fun r =>
      ((dates.refundedAt r.id).date, r.amount)) ++
    recoveriesOf db dates companyId ++
    Journal.negated ((db.payments.rows.filter (·.paidBy companyId)).map fun p =>
      (dates.paymentDate p.id, p.amount)) ++
    Journal.negated ((db.creditNotes.rows.filter (·.creditedTo companyId)).map fun n =>
      (dates.issueDate n.id, n.total)) ++
    Journal.negated ((db.invoices.rows.filter (·.writtenOffFor companyId)).map fun i =>
      (dates.writeOffDate i, i.writeOffAmount.getD 0))

/-- The six sums of `build_statement` over the days that `p` selects. -/
theorem posted_accountOf (p : NaiveDate → Bool) :
    Journal.posted p (accountOf db dates companyId) =
      sumOf Invoice.total (db.invoices.rows.filter fun i =>
          i.chargedTo companyId && p (dates.invoiceDate i.id)) +
        sumOf PaymentRefund.amount (db.refunds.rows.filter fun r =>
          r.refundedTo db companyId && p (dates.refundedAt r.id).date) +
        sumOf Payment.amount (db.payments.rows.filter fun q =>
          q.paidBy companyId && q.recovers db dates && p (dates.paymentDate q.id)) -
        sumOf Payment.amount (db.payments.rows.filter fun q =>
          q.paidBy companyId && p (dates.paymentDate q.id)) -
        sumOf CreditNote.total (db.creditNotes.rows.filter fun n =>
          n.creditedTo companyId && p (dates.issueDate n.id)) -
        sumOf (fun i => i.writeOffAmount.getD 0) (db.invoices.rows.filter fun i =>
          i.writtenOffFor companyId && p (dates.writeOffDate i)) := by
  simp only [accountOf, recoveriesOf, Journal.posted_append, Journal.posted_negated,
    Journal.posted_select, sumOf, sub_eq_add_neg]

end Account

theorem sumOf_orderBy {α β γ : Type} [LinearOrder β] [LinearOrder γ] (column : α → Numeric 2)
    (first : α → β) (second : α → γ) (rows : List α) :
    sumOf column (orderBy first second rows) = sumOf column rows :=
  Journal.sum_insertionSort _ rows column

theorem sumOf_orderByTime {α γ : Type} [LinearOrder γ] (column : α → Numeric 2)
    (first : α → Timestamp) (second : α → γ) (rows : List α) :
    sumOf column (orderByTime first second rows) = sumOf column rows :=
  Journal.sum_insertionSort _ rows column

section Spec

variable {db : BillingDb} {dates : StatementDates} {texts : StatementTexts} {query : StatementQuery}
  {st : StatementResponse}

theorem buildStatement_ok (hp : query.periodStart ≤ query.periodEnd)
    (hc : query.companyId ∈ db.time.dir.companies) :
    ∃ st, buildStatement db dates texts query = .ok st := by
  unfold buildStatement
  rw [if_neg (not_lt.mpr hp), if_neg (not_not.mpr hc)]
  exact ⟨_, rfl⟩

/-- The figures of a statement, by the account. -/
structure StatesAccount (db : BillingDb) (dates : StatementDates) (query : StatementQuery)
    (st : StatementResponse) : Prop where
  opening : st.openingBalance = (accountOf db dates query.companyId).before query.periodStart
  closing : st.closingBalance = (accountOf db dates query.companyId).through query.periodEnd
  rows : st.closingBalance = st.openingBalance + st.signedRows + st.totalRecovered
  recovered : st.totalRecovered =
    (recoveriesOf db dates query.companyId).within query.periodStart query.periodEnd

theorem buildStatement_eq_ok (h : buildStatement db dates texts query = .ok st) :
    StatesAccount db dates query st := by
  unfold buildStatement at h
  split_ifs at h with hp hc
  cases h
  have hopen := posted_accountOf db dates query.companyId fun d => decide (d < query.periodStart)
  have hwithin := posted_accountOf db dates query.companyId fun d =>
    decide (query.periodStart ≤ d ∧ d ≤ query.periodEnd)
  refine ⟨?_, ?_, ?_, ?_⟩
  · rw [Journal.before, hopen]
  · rw [Journal.through_eq (not_lt.mp hp), Journal.before, Journal.within, hopen, hwithin]
    simp only [sumOf_orderBy, sumOf_orderByTime]
    abel
  · simp only [StatementResponse.signedRows, List.map_map, Function.comp_def, sumOf]
    abel
  · rw [Journal.within, recoveriesOf, Journal.posted_select]
    rfl

/-- No payment of the period is a recovery. -/
theorem StatesAccount.unrecovered (h : StatesAccount db dates query st)
    (hno : ∀ p ∈ db.payments, p.companyId = query.companyId → p.recovers db dates = true →
      ¬ (query.periodStart ≤ dates.paymentDate p.id ∧ dates.paymentDate p.id ≤ query.periodEnd)) :
    st.totalRecovered = 0 := by
  rw [h.recovered, Journal.within, recoveriesOf, Journal.posted_select, List.filter_eq_nil_iff.mpr]
  · rfl
  · intro p hp hsel
    rw [Bool.and_eq_true, Bool.and_eq_true, Payment.paidBy, decide_eq_true_eq,
      decide_eq_true_eq] at hsel
    exact hno p hp hsel.1.1 hsel.1.2 hsel.2

end Spec

/-- A statement opens with what the one before it closed with, and the one over both periods closes
with what the second closes with.  Within any statement the rows account for the whole change, but
for the payments of the period that are recoveries. -/
theorem statement_continuity (db : BillingDb) (dates : StatementDates) (texts : StatementTexts)
    (companyId : Uuid) (hc : companyId ∈ db.time.dir.companies) {a b b' c : NaiveDate} (hab : a ≤ b)
    (hbc : b < c) (hb : b.succOpt = some b') :
    (∃ s1 s2 s3, buildStatement db dates texts ⟨companyId, a, b⟩ = .ok s1 ∧
      buildStatement db dates texts ⟨companyId, b', c⟩ = .ok s2 ∧
      buildStatement db dates texts ⟨companyId, a, c⟩ = .ok s3 ∧
      s1.closingBalance = s2.openingBalance ∧ s3.closingBalance = s2.closingBalance) ∧
    ∀ query s, buildStatement db dates texts query = .ok s →
      s.closingBalance = s.openingBalance + s.signedRows + s.totalRecovered ∧
      ((∀ p ∈ db.payments, p.companyId = query.companyId → p.recovers db dates = true →
          ¬ (query.periodStart ≤ dates.paymentDate p.id ∧
            dates.paymentDate p.id ≤ query.periodEnd)) →
        s.closingBalance = s.openingBalance + s.signedRows) := by
  have hlt := NaiveDate.lt_succOpt hb
  have hb'c : b' ≤ c := by
    by_contra h
    exact absurd ((hlt c).mp (not_le.mp h)) (not_le.mpr hbc)
  obtain ⟨s1, h1⟩ : ∃ st, buildStatement db dates texts ⟨companyId, a, b⟩ = .ok st :=
    buildStatement_ok hab hc
  obtain ⟨s2, h2⟩ : ∃ st, buildStatement db dates texts ⟨companyId, b', c⟩ = .ok st :=
    buildStatement_ok hb'c hc
  obtain ⟨s3, h3⟩ : ∃ st, buildStatement db dates texts ⟨companyId, a, c⟩ = .ok st :=
    buildStatement_ok (hab.trans hbc.le) hc
  have k1 := buildStatement_eq_ok h1
  have k2 := buildStatement_eq_ok h2
  have k3 := buildStatement_eq_ok h3
  refine ⟨⟨s1, s2, s3, h1, h2, h3, ?_, ?_⟩, ?_⟩
  · rw [k1.closing, k2.opening, Journal.before_eq_through hlt]
  · rw [k3.closing, k2.closing]
  · intro query s hs
    have k := buildStatement_eq_ok hs
    refine ⟨k.rows, fun hno => ?_⟩
    rw [k.rows, k.unrecovered hno, add_zero]

/-- Every row was dated on one day, but for a payment and a refund of the next. -/
def sampleDates (day next : NaiveDate) : StatementDates :=
  ⟨fun _ => day, fun _ => ⟨day, 0⟩, fun _ => next, fun _ => ⟨next, 0⟩, fun _ => day⟩

def sampleTexts : StatementTexts :=
  ⟨fun _ => "", fun _ => sampleDay 2 1, fun _ => none, fun _ => .other, fun _ => none, fun _ => "",
    fun _ => ""⟩

namespace Billing

/-- An invoice of 100 is sent and written off on one day, and 60 are recovered on the next: the rows
are 100, -60 and -100, and the account goes from 0 to 0. -/
theorem recovery_has_no_row :
    ∃ s, run step (init (sampleTimeDb ⟨∅, ∅⟩) ∅ [] []) (sampleInvoice ++
        [.startUpdate 0 { status := some .sent }, .commit 0 (.ok ()), .writeOffInvoice 0,
          .createPayment ⟨some 0, 7, ⟨6000⟩, none, by decide⟩]) = some s ∧
      ∃ st, buildStatement s.db (sampleDates (sampleDay 1 5) (sampleDay 1 6)) sampleTexts
          ⟨7, sampleDay 1 1, sampleDay 1 31⟩ = .ok st ∧
        st.closingBalance ≠ st.openingBalance + st.signedRows := by
  have h : (run step (init (sampleTimeDb ⟨∅, ∅⟩) ∅ [] []) (sampleInvoice ++
      [.startUpdate 0 { status := some .sent }, .commit 0 (.ok ()), .writeOffInvoice 0,
        .createPayment ⟨some 0, 7, ⟨6000⟩, none, by decide⟩])).any (fun s =>
      (buildStatement s.db (sampleDates (sampleDay 1 5) (sampleDay 1 6)) sampleTexts
        ⟨7, sampleDay 1 1, sampleDay 1 31⟩).toOption.any fun st =>
          decide (st.closingBalance ≠ st.openingBalance + st.signedRows)) = true := by
    decide +kernel
  obtain ⟨s, hs, hp⟩ := exists_run_of_any h
  cases hb : buildStatement s.db (sampleDates (sampleDay 1 5) (sampleDay 1 6)) sampleTexts
      ⟨7, sampleDay 1 1, sampleDay 1 31⟩ with
  | error e =>
      rw [hb] at hp
      cases hp
  | ok st =>
      rw [hb] at hp
      exact ⟨s, hs, st, hb, of_decide_eq_true hp⟩

/-- The periods to the day of the write-off and from the day of the payment on. -/
theorem statement_continuity_sample :
    ∃ s, run step (init (sampleTimeDb ⟨∅, ∅⟩) ∅ [] []) (sampleInvoice ++
        [.startUpdate 0 { status := some .sent }, .commit 0 (.ok ()), .writeOffInvoice 0,
          .createPayment ⟨some 0, 7, ⟨6000⟩, none, by decide⟩]) = some s ∧
      ∃ s1 s2, buildStatement s.db (sampleDates (sampleDay 1 5) (sampleDay 1 6)) sampleTexts
          ⟨7, sampleDay 1 1, sampleDay 1 5⟩ = .ok s1 ∧
        buildStatement s.db (sampleDates (sampleDay 1 5) (sampleDay 1 6)) sampleTexts
          ⟨7, sampleDay 1 6, sampleDay 1 31⟩ = .ok s2 ∧
        s1.closingBalance = s2.openingBalance ∧
        s2.closingBalance = s2.openingBalance + s2.signedRows + s2.totalRecovered := by
  have h : (run step (init (sampleTimeDb ⟨∅, ∅⟩) ∅ [] []) (sampleInvoice ++
      [.startUpdate 0 { status := some .sent }, .commit 0 (.ok ()), .writeOffInvoice 0,
        .createPayment ⟨some 0, 7, ⟨6000⟩, none, by decide⟩])).any (fun s =>
      decide (7 ∈ s.db.time.dir.companies)) = true := by decide +kernel
  obtain ⟨s, hs, hp⟩ := exists_run_of_any h
  obtain ⟨⟨s1, s2, s3, h1, h2, -, h3, -⟩, h4⟩ := statement_continuity s.db
    (sampleDates (sampleDay 1 5) (sampleDay 1 6)) sampleTexts 7 (of_decide_eq_true hp)
    (a := sampleDay 1 1) (b := sampleDay 1 5) (c := sampleDay 1 31) (by decide +kernel)
    (by decide +kernel) (by decide +kernel : (sampleDay 1 5).succOpt = some (sampleDay 1 6))
  exact ⟨s, hs, s1, s2, h1, h2, h3, (h4 _ s2 h2).1⟩

end Billing

end Mokosh
