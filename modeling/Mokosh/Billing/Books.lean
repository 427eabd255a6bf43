import Mokosh.Billing.Account

/-! # The statement and the ledger

The machine of billing with the dates that its transactions write (`Books`), in any order of dates
and of recording.

**`statement_agrees_with_ledger`**: in a run whose steps meet `KeepsAccount`, a statement that ends
when everything has happened closes with what is due on the company's invoices, with `0` for those
that are written off.  A payment that is applied to no invoice is on the account and on none of
them.

The condition is needed because `build_statement` tells a recovery from its date alone, and because
a write-off is deducted as the amount that was due on that day (`payment_on_day_of_write_off`):

* what is written off has no payment of that day or of a later one;
* what is paid on a written-off invoice is dated on the day of the write-off or after it, and only
  such a payment is deleted again;
* nothing is refunded on it, and no credit note on it is voided;
* nothing is paid on a void invoice or taken off it, and what is voided has nothing paid or credited
  and was not written off.

Each row is then written so that its write-off stays what is due and what was recovered
(`Reckoned.recomputed`). -/

namespace Mokosh

/-! ### One row is written -/

section Rows

variable {db db' : BillingDb} {dates : StatementDates} {k : Uuid}

theorem recoveredOn_congr (h : db'.payments = db.payments) (dates : StatementDates) (j : Uuid) :
    recoveredOn db' dates j = recoveredOn db dates j := by
  rw [recoveredOn, h]
  rfl

theorem Reckoned.congr {i : Invoice} (h : Reckoned db dates i)
    (hr : recoveredOn db' dates i.id = recoveredOn db dates i.id) : Reckoned db' dates i := by
  refine ⟨h.1, fun hw => ?_⟩
  rw [hr]
  exact h.2 hw

theorem Reconciled.idle (h : Reconciled db dates) (hi : db'.invoices = db.invoices)
    (hp : db'.payments = db.payments) : Reconciled db' dates := by
  intro i hm
  rw [hi] at hm
  exact (h i hm).congr (recoveredOn_congr hp dates i.id)

theorem Reconciled.insert (h : Reconciled db dates) {mk : ℕ → Invoice} {hk : ∀ i, (mk i).id = i}
    (hi : db'.invoices = db.invoices.insert mk hk) (hp : db'.payments = db.payments)
    (hnew : ∀ i, MarksShow (mk i) ∧ (mk i).writtenOffAt = false) : Reconciled db' dates := by
  intro i hm
  rw [hi] at hm
  rcases (Table.mem_insert).mp hm with hm | rfl
  · exact (h i hm).congr (recoveredOn_congr hp dates i.id)
  · refine ⟨(hnew _).1, fun hw => ?_⟩
    rw [(hnew _).2] at hw
    exact absurd hw (by simp)

theorem Reconciled.update (h : Reconciled db dates) {f : Invoice → Invoice}
    (hf : ∀ r, (f r).id = r.id) (hi : db'.invoices = db.invoices.update k f hf)
    (hr : ∀ j, j ≠ k → recoveredOn db' dates j = recoveredOn db dates j)
    (hrow : ∀ row, db.invoices.find k = some row → Reckoned db' dates (f row)) :
    Reconciled db' dates := by
  intro i hm
  rw [hi] at hm
  obtain ⟨r, hmem, rfl⟩ := (Table.mem_update).mp hm
  split
  · next hk =>
    subst hk
    exact hrow r (Table.find_key hmem)
  · next hk => exact (h r hmem).congr (hr r.id hk)

theorem MarksShow.of_unmarked {i : Invoice} (hw : i.writtenOffAt = false) (hv : i.voidedAt = false)
    (h1 : i.status ≠ .writtenOff) (h2 : i.status ≠ .void) : MarksShow i := by
  constructor <;> simp [hw, hv, h1, h2]

theorem MarksShow.unmarked {i : Invoice} (h : MarksShow i) (h1 : i.status ≠ .writtenOff)
    (h2 : i.status ≠ .void) : i.writtenOffAt = false ∧ i.voidedAt = false := by
  constructor
  · simpa using fun hw => h1 (h.writtenOff.mp hw)
  · simpa using fun hv => h2 (h.void.mp hv)

/-- Recomputing a balance does not undo a mark. -/
theorem MarksShow.recomputed {i : Invoice} (h : MarksShow i) {paid credited : Numeric 2}
    (hv : i.status = .void → paid + credited = 0) : MarksShow (i.recomputed paid credited) := by
  by_cases hw : i.writtenOffAt = true
  · have hs := h.writtenOff.mp hw
    have hnv : i.voidedAt = false := by
      simpa [hs] using h.void
    constructor <;> simp [Invoice.recomputed, hs, hw, hnv]
  · have hw' : i.writtenOffAt = false := by simpa using hw
    by_cases hx : i.voidedAt = true
    · have hs := h.void.mp hx
      constructor <;> simp [Invoice.recomputed, hs, hw', hx, hv hs]
    · have hx' : i.voidedAt = false := by simpa using hx
      have h1 : (i.recomputed paid credited).status ≠ .writtenOff ∧
          (i.recomputed paid credited).status ≠ .void := by
        unfold Invoice.recomputed
        simp only [hw', hx', Bool.false_eq_true, if_false]
        split_ifs with hd
        · rcases hd with hd | hd <;> simp [hd]
        all_goals simp
      have h2 : (i.recomputed paid credited).writtenOffAt = false := hw'
      have h3 : (i.recomputed paid credited).voidedAt = false := hx'
      constructor <;> simp [h1, h2, h3]

/-- What was written off still agrees with the recoveries after a recompute, if what was paid and not
recovered is the same. -/
theorem Reckoned.recomputed {i : Invoice} (h : Reckoned db dates i) (hs : Squared db i)
    {paid credited : Numeric 2} (hv : i.status = .void → paid + credited = 0)
    (hw : i.status = .writtenOff → paid + credited - recoveredOn db' dates i.id =
      i.amountPaid + i.amountCredited - recoveredOn db dates i.id) :
    Reckoned db' dates (i.recomputed paid credited) := by
  refine ⟨h.1.recomputed hv, fun hm => ?_⟩
  have hst : i.status = .writtenOff := h.1.writtenOff.mp hm
  have h1 : i.writeOffAmount.getD 0 = i.balanceDue + recoveredOn db dates i.id := h.2 hm
  rw [hs.2.2 (by simp [hst])] at h1
  show i.writeOffAmount.getD 0 = i.total - paid - credited + recoveredOn db' dates i.id
  calc i.writeOffAmount.getD 0
      = i.total - (i.amountPaid + i.amountCredited - recoveredOn db dates i.id) := by
        rw [h1]
        abel
    _ = i.total - (paid + credited - recoveredOn db' dates i.id) := by rw [hw hst]
    _ = i.total - paid - credited + recoveredOn db' dates i.id := by abel

theorem Reconciled.recomputeOf (h : Reconciled db dates) (hb : Balanced db) {db1 : BillingDb}
    (hi : db1.invoices = db.invoices) {o : Option Uuid}
    (hr : ∀ j, o ≠ some j → recoveredOn db1 dates j = recoveredOn db dates j)
    (hrow : ∀ k, o = some k → ∀ row, db.invoices.find k = some row →
      (row.status = .void → db1.paidOn k + db1.creditsOf k = 0) ∧
      (row.status = .writtenOff → db1.paidOn k + db1.creditsOf k - recoveredOn db1 dates k =
        row.amountPaid + row.amountCredited - recoveredOn db dates k)) :
    Reconciled (Mokosh.recomputeOf db1 o) dates := by
  cases o with
  | none =>
      intro i hm
      have hm' : i ∈ db1.invoices := hm
      rw [hi] at hm'
      exact (h i hm').congr (hr i.id (by simp))
  | some k =>
      refine h.update (by intro _; rfl) (recomputeOf_invoices hi k) (fun j hj => ?_) ?_
      · exact hr j (by simpa using hj.symm)
      · intro row hrow'
        obtain ⟨h1, h2⟩ := hrow k rfl row hrow'
        have hk := Table.key_of_find hrow'
        refine (h row (Table.find_mem hrow')).recomputed (hb.squared row (Table.find_mem hrow')) h1 ?_
        rw [hk]
        exact h2

/-- An invoice that has nothing paid or credited, and was not written off, is voided. -/
theorem Reconciled.void (h : Reconciled db dates) {f : Invoice → Invoice}
    (hf : ∀ r, (f r).id = r.id)
    (hi : db'.invoices = db.invoices.update k f hf) (hp : db'.payments = db.payments) {row : Invoice}
    (hrow : db.invoices.find k = some row) (hz : row.amountPaid + row.amountCredited = 0)
    (hw : row.status ≠ .writtenOff)
    (hvoid : (f row).status = .void ∧ (f row).voidedAt = true ∧
      (f row).writtenOffAt = row.writtenOffAt ∧ (f row).amountPaid = row.amountPaid ∧
      (f row).amountCredited = row.amountCredited) : Reconciled db' dates := by
  obtain ⟨h1, h2, h3, h4, h5⟩ := hvoid
  have hno : (f row).writtenOffAt = false := by
    rw [h3]
    simpa using fun hm => hw ((h row (Table.find_mem hrow)).1.writtenOff.mp hm)
  refine h.update hf hi (fun j _ => recoveredOn_congr hp dates j) fun r hr => ?_
  rw [hrow, Option.some.injEq] at hr
  subst hr
  refine ⟨⟨?_, ?_, fun _ => ?_⟩, fun hm => ?_⟩
  · simp [h1, hno]
  · simp [h1, h2]
  · rw [h4, h5, hz]
  · rw [hno] at hm
    exact absurd hm (by simp)

/-- The invoice of a call, if it has one, is neither void nor written off. -/
def Collectible (db : BillingDb) (o : Option Uuid) : Prop :=
  ∀ k ∈ o, ∀ row ∈ db.invoices.find k, row.status ≠ .void ∧ row.status ≠ .writtenOff

/-- An invoice that is collected on is recomputed. -/
theorem Reconciled.collect (h : Reconciled db dates) (hb : Balanced db) {db1 : BillingDb}
    (hi : db1.invoices = db.invoices) (hp : db1.payments = db.payments)
    {o : Option Uuid} (hc : Collectible db o) : Reconciled (Mokosh.recomputeOf db1 o) dates := by
  refine h.recomputeOf hb hi (fun j _ => recoveredOn_congr hp dates j) fun k hk row hrow => ?_
  obtain ⟨h1, h2⟩ := hc k hk row hrow
  exact ⟨fun hv => absurd hv h1, fun hw => absurd hw h2⟩

/-- An invoice is recomputed from the rows that it was computed from. -/
theorem Reconciled.recompute_self (h : Reconciled db dates) (hb : Balanced db) (o : Option Uuid) :
    Reconciled (Mokosh.recomputeOf db o) dates := by
  refine h.recomputeOf hb rfl (fun _ _ => rfl) fun k _ row hrow => ?_
  obtain ⟨h1, h2, -⟩ := hb.squared row (Table.find_mem hrow)
  rw [Table.key_of_find hrow] at h1 h2
  rw [← h1, ← h2]
  exact ⟨(h row (Table.find_mem hrow)).1.settled, fun _ => rfl⟩

/-- An invoice that can still be edited is updated, and the one that it replaces is voided. -/
theorem Reconciled.rewrite (h : Reconciled db dates) {current row : Invoice}
    {request : UpdateInvoiceRequest} {rate : Option TaxRate}
    (hrow : db.invoices.find current.id = some row) (hf : row.status.isFrozen = false)
    (hv : request.status ≠ some .void) (hw : request.status ≠ some .writtenOff)
    (hamend : checkAmended db (replacedBy row current request) = .ok ())
    (hz : ∀ k ∈ replacedBy row current request, ∀ original ∈ db.invoices.find k,
      original.amountPaid + original.amountCredited = 0) :
    Reconciled (voidAmended (rewriteInvoice db current request rate)
      (replacedBy row current request)) dates := by
  have hst : row.status ≠ .writtenOff ∧ row.status ≠ .void :=
    ⟨InvoiceStatus.ne_of_unfrozen hf rfl, InvoiceStatus.ne_of_unfrozen hf rfl⟩
  have hpay := (rewriteInvoice_sameMoney db current request rate).1
  have h1 : Reconciled (rewriteInvoice db current request rate) dates := by
    refine h.update (fun i => (i.rewritten_same current request _ _).1) rfl
      (fun j _ => recoveredOn_congr hpay dates j) fun r hr => ?_
    rw [hrow, Option.some.injEq] at hr
    subst hr
    obtain ⟨h2, h3⟩ := (h row (Table.find_mem hrow)).1.unmarked hst.1 hst.2
    obtain ⟨h4, h5, h6, -⟩ := row.rewritten_marks current request
      ((replaceLines db current.id request.lines).linesOf current.id)
      (taxOn ((replaceLines db current.id request.lines).taxableOf current.id) request.taxAmount
        rate)
    refine ⟨.of_unmarked (h6.trans h2) (h5.trans h3) ?_ ?_, fun hm => ?_⟩
    · rw [h4]
      exact UpdateInvoiceRequest.status_ne hw hst.1
    · rw [h4]
      exact UpdateInvoiceRequest.status_ne hv hst.2
    · rw [h6, h2] at hm
      exact absurd hm (by simp)
  cases hrep : replacedBy row current request with
  | none => exact h1
  | some o =>
      rw [hrep] at hamend
      obtain ⟨original, ho, hsent, -, -⟩ := checkAmended_eq_ok hamend
      have ho' : (rewriteInvoice db current request rate).invoices.find o = some original :=
        (rewriteInvoice_find_ne (ne_of_checkAmended hamend hrow hf)).trans ho
      exact h1.void (by intro _; rfl) rfl rfl ho' (hz o hrep original ho) (by simp [hsent])
        ⟨rfl, rfl, rfl, rfl, rfl⟩

/-- A payment comes in for an invoice that takes it. -/
theorem Reconciled.insertPayment (h : Reconciled db dates) (hb : Balanced db) {o : Option Uuid}
    {companyId : Uuid} {amount : Numeric 2} {reference : Option String}
    (ht : ∀ k, o = some k → ∀ row, db.invoices.find k = some row → row.status ≠ .void ∧
      (row.status = .writtenOff →
        (dates.writtenOffAt k).date ≤ dates.paymentDate db.payments.next)) :
    Reconciled (Mokosh.recomputeOf (Mokosh.insertPayment db o companyId amount reference) o)
      dates := by
  have hrec (j : Uuid) : recoveredOn (Mokosh.insertPayment db o companyId amount reference) dates j =
      recoveredOn db dates j + if o = some j ∧
        (dates.writtenOffAt j).date ≤ dates.paymentDate db.payments.next then amount else 0 :=
    Table.sum_insert ..
  refine h.recomputeOf hb (by rfl) (fun j hj => ?_) ?_
  · rw [hrec, if_neg fun h1 => hj h1.1, add_zero]
  · intro k hk row hrow
    obtain ⟨hv, hw⟩ := ht k hk row hrow
    refine ⟨fun h1 => absurd h1 hv, fun h1 => ?_⟩
    have hpaid : (Mokosh.insertPayment db o companyId amount reference).paidOn k =
        db.paidOn k + amount := by
      have h2 : (Mokosh.insertPayment db o companyId amount reference).paymentsOf k =
          db.paymentsOf k + if o = some k then amount else 0 := Table.sum_insert ..
      rw [BillingDb.paidOn, h2, if_pos hk, BillingDb.paidOn]
      exact add_sub_right_comm ..
    obtain ⟨h3, h4, -⟩ := hb.squared row (Table.find_mem hrow)
    rw [Table.key_of_find hrow] at h3 h4
    rw [hrec, if_pos ⟨hk, hw h1⟩, hpaid, h3, h4]
    show db.paidOn k + amount + db.creditsOf k - (recoveredOn db dates k + amount) = _
    abel

/-- A payment is deleted: a recovery, if its invoice is written off. -/
theorem Reconciled.deletePayment (h : Reconciled db dates) (hb : Balanced db) {paymentId : Uuid}
    {o : Option Uuid} (ho : PaymentOn db paymentId o)
    (hc : ∀ p, db.payments.find paymentId = some p → ∀ k, o = some k → ∀ row,
      db.invoices.find k = some row → row.status ≠ .void ∧ (row.status = .writtenOff →
        (dates.writtenOffAt k).date ≤ dates.paymentDate p.id ∧
          ∀ r ∈ db.refunds, r.paymentId ≠ paymentId)) :
    Reconciled (commitDeletePayment db paymentId o) dates := by
  refine h.recomputeOf hb (by rfl) ?_ ?_
  · intro j hj
    refine (Table.sum_filter ..).trans (Table.sum_congr fun p hp => ?_)
    by_cases hk : p.id = paymentId
    · rw [if_neg (by simpa using hk), ho.2 p hp hk, if_neg fun h1 => hj h1.1]
    · rw [if_pos (by simpa using hk)]
  · intro k hk row hrow
    obtain ⟨h3, h4, -⟩ := hb.squared row (Table.find_mem hrow)
    rw [Table.key_of_find hrow] at h3 h4
    cases hp : db.payments.find paymentId with
    | none =>
        -- The payment is gone, and with it its refunds.
        have hpay : db.payments.erase paymentId = db.payments := Table.erase_eq_self hp
        have href : (db.refunds.filter fun r => decide (r.paymentId ≠ paymentId)) = db.refunds := by
          refine Table.filter_eq_self fun r hr => ?_
          obtain ⟨p, hpm, hpr, -⟩ := hb.refund r hr
          rw [decide_eq_true_eq, ← hpr]
          exact Table.find_eq_none_iff.mp hp p hpm
        have hpaid : BillingDb.paidOn { db with
            payments := db.payments.erase paymentId
            refunds := db.refunds.filter fun r => decide (r.paymentId ≠ paymentId) } k =
            row.amountPaid := by
          rw [hpay, href, h3]
        rw [hpaid]
        refine ⟨fun hv => ?_, fun _ => ?_⟩
        · rw [← (h row (Table.find_mem hrow)).1.settled hv, h4]
          rfl
        · rw [recoveredOn_congr hpay, h4]
          rfl
    | some p =>
        obtain ⟨hv, hw⟩ := hc p hp k hk row hrow
        refine ⟨fun h1 => absurd h1 hv, fun h1 => ?_⟩
        obtain ⟨hdate, href⟩ := hw h1
        have hpm := Table.find_mem hp
        have hpk := Table.key_of_find hp
        have hpi : p.invoiceId = some k := (ho.2 p hpm hpk).trans hk
        have href' : (db.refunds.filter fun r => decide (r.paymentId ≠ paymentId)) = db.refunds :=
          Table.filter_eq_self fun r hr => decide_eq_true (href r hr)
        have hpaid : db.paymentsOf k = p.amount + (db.payments.erase paymentId).sum
            (fun q => if q.invoiceId = some k then q.amount else 0) := by
          rw [← hpk, BillingDb.paymentsOf, Table.sum_erase hpm, if_pos hpi]
        have hrec : recoveredOn db dates k = p.amount + (db.payments.erase paymentId).sum
            (fun q => if q.invoiceId = some k ∧
              (dates.writtenOffAt k).date ≤ dates.paymentDate q.id then q.amount else 0) := by
          rw [← hpk, recoveredOn, Table.sum_erase hpm, if_pos ⟨hpi, hdate⟩]
        rw [h3, h4, BillingDb.paidOn, BillingDb.paidOn, hpaid, hrec]
        unfold BillingDb.refundsOf BillingDb.paymentsOf BillingDb.creditsOf recoveredOn
        simp only [href']
        abel

/-- Refunds that are all recorded already change nothing. -/
theorem insertRefunds_taken {db db1 : BillingDb} {paymentId : Uuid} {o : Option Uuid}
    {rs : List RefundLine} (h : ∀ l ∈ rs, db.refunds.rows.any fun r =>
      decide (r.providerReference = l.providerReference))
    (hins : insertRefunds db paymentId o rs = .ok db1) : db1 = db := by
  induction rs with
  | nil =>
      cases hins
      rfl
  | cons l ls ih =>
      obtain ⟨db2, h1, h2⟩ := bind_eq_ok.mp hins
      unfold insertRefund at h1
      rw [if_pos (h l List.mem_cons_self)] at h1
      split_ifs at h1
      cases h1
      exact ih (fun x hx => h x (List.mem_cons_of_mem _ hx)) h2

end Rows

/-! ### Billing with dates -/

/-- A transaction and the time at which it runs.  `date` is the date of the invoice, the payment or
the credit note that it writes, as the caller gives it, and `redate` the new date of an invoice that
it updates. -/
structure DatedEvent where
  event : BillingEvent
  now : Timestamp
  date : NaiveDate
  redate : Option NaiveDate := none

/-- The date of a payment; one of the gateway is dated by the day it is recorded on. -/
def DatedEvent.paymentDate (e : DatedEvent) : NaiveDate :=
  match e.event with
  | .recordGatewayPayment _ _ _ => e.now.date
  | _ => e.date

/-- The machine of billing with the dates of its rows. -/
structure Books where
  billing : Billing
  dates : StatementDates

namespace Books

/-- The new date of an invoice, if the transaction updates it. -/
def redated (b : Books) (e : DatedEvent) (invoiceId : Uuid) : Option NaiveDate :=
  match e.event with
  | .commit i outside =>
    match b.billing.calls[i]? with
    | some (.update current request) =>
      if current.id = invoiceId ∧
          (commitUpdateInvoice b.billing.db current request outside).toOption.isSome then e.redate
      else none
    | _ => none
  | _ => none

/-- The dates after a transaction: a new row gets the one of the transaction, and an invoice that had
no write-off gets the time as the one of its write-off, should it be written off. -/
def stamp (b : Books) (e : DatedEvent) : StatementDates where
  invoiceDate id :=
    if id < b.billing.db.invoices.next then (b.redated e id).getD (b.dates.invoiceDate id)
    else e.date
  writtenOffAt id :=
    if (b.billing.db.invoices.find id).any (·.writtenOffAt) then b.dates.writtenOffAt id else e.now
  paymentDate id :=
    if id < b.billing.db.payments.next then b.dates.paymentDate id else e.paymentDate
  refundedAt id :=
    if id < b.billing.db.refunds.next then b.dates.refundedAt id else e.now
  issueDate id :=
    if id < b.billing.db.creditNotes.next then b.dates.issueDate id else e.date

/-- One transaction. -/
def step (b : Books) (e : DatedEvent) : Option Books :=
  (b.billing.step e.event).map fun s => ⟨s, b.stamp e⟩

section Stamp

variable {b : Books} {e : DatedEvent}

theorem stamp_paymentDate {p : Payment} (hp : p ∈ b.billing.db.payments) :
    (b.stamp e).paymentDate p.id = b.dates.paymentDate p.id :=
  if_pos (Table.key_lt_next hp)

theorem stamp_paymentDate_next :
    (b.stamp e).paymentDate b.billing.db.payments.next = e.paymentDate :=
  if_neg (lt_irrefl _)

theorem stamp_writtenOffAt {k : Uuid} {i : Invoice} (hi : b.billing.db.invoices.find k = some i) :
    (b.stamp e).writtenOffAt k = if i.writtenOffAt then b.dates.writtenOffAt k else e.now := by
  unfold stamp
  simp only [hi, Option.any_some]

/-- A transaction changes no date that the recoveries depend on. -/
theorem reconciled_stamp (h : Reconciled b.billing.db b.dates) (e : DatedEvent) :
    Reconciled b.billing.db (b.stamp e) := by
  intro i hi
  refine ⟨(h i hi).1, fun hw => ?_⟩
  rw [(h i hi).2 hw]
  have hdate : (b.stamp e).writtenOffAt i.id = b.dates.writtenOffAt i.id := by
    rw [stamp_writtenOffAt (Table.find_key hi), if_pos hw]
  refine congrArg _ (Table.sum_congr fun p hp => ?_)
  rw [hdate, stamp_paymentDate hp]

end Stamp

/-! ### The condition on a transaction -/

/-- The invoice takes a payment of the day: it is not void, and was not written off after it. -/
def Takes (b : Books) (row : Invoice) (day : NaiveDate) : Prop :=
  row.status ≠ .void ∧ (row.status = .writtenOff → b.dates.writeOffDate row ≤ day)

/-- The condition on the rest of a call. -/
def CallKeepsAccount (b : Books) : BillingCall → Prop
  | .update current request =>
    ∀ row ∈ b.billing.db.invoices.find current.id, ∀ k ∈ replacedBy row current request,
      ∀ original ∈ b.billing.db.invoices.find k,
        original.amountPaid + original.amountCredited = 0
  | .deletePayment paymentId o =>
    ∀ p ∈ b.billing.db.payments.find paymentId, ∀ k ∈ o, ∀ row ∈ b.billing.db.invoices.find k,
      b.Takes row (b.dates.paymentDate p.id) ∧
        (row.status = .writtenOff → ∀ r ∈ b.billing.db.refunds.rows, r.paymentId ≠ paymentId)
  | .gatewayRefunds _ o rs =>
    Collectible b.billing.db o ∨ ∀ l ∈ rs, b.billing.db.refunds.rows.any fun r =>
      decide (r.providerReference = l.providerReference)
  | .voidCreditNote _ k => Collectible b.billing.db (some k)

/-- The condition on one transaction, which runs at `now` and writes rows of the day `date`. -/
def EventKeepsAccount (b : Books) (now : Timestamp) (date : NaiveDate) : BillingEvent → Prop
  | .voidDelegatedInvoice k provider =>
    ∀ row ∈ b.billing.db.invoices.find k, row.externalProvider = some provider →
      row.status ≠ .void →
        row.amountPaid + row.amountCredited = 0 ∧ row.status ≠ .writtenOff
  | .writeOffInvoice k =>
    ∀ row ∈ b.billing.db.invoices.find k, row.status = .sent ∨ row.status = .partiallyPaid →
      0 < row.balanceDue → ∀ p ∈ b.billing.db.payments.rows, p.invoiceId = some k →
        b.dates.paymentDate p.id < now.date
  | .createPayment request =>
    ∀ k ∈ request.invoiceId, ∀ row ∈ b.billing.db.invoices.find k,
      b.Takes row date ∨ row.total - row.amountPaid - row.amountCredited < request.amount
  | .recordGatewayPayment k _ amount =>
    ∀ row ∈ b.billing.db.invoices.find k, b.Takes row now.date ∨
      (row.total - row.amountPaid - row.amountCredited).toRat < amount
  | .commit i _ => ∀ c ∈ b.billing.calls[i]?, CallKeepsAccount b c
  | _ => True

def KeepsAccount (b : Books) (e : DatedEvent) : Prop := b.EventKeepsAccount e.now e.date e.event

instance (b : Books) (row : Invoice) (day : NaiveDate) : Decidable (b.Takes row day) :=
  inferInstanceAs (Decidable (_ ∧ (_ → _)))

instance (db : BillingDb) (o : Option Uuid) : Decidable (Collectible db o) :=
  inferInstanceAs (Decidable (∀ k ∈ o, ∀ row ∈ db.invoices.find k, _))

instance (b : Books) (c : BillingCall) : Decidable (CallKeepsAccount b c) :=
  match c with
  | .update current request =>
    inferInstanceAs (Decidable (∀ row ∈ b.billing.db.invoices.find current.id,
      ∀ k ∈ replacedBy row current request, ∀ original ∈ b.billing.db.invoices.find k, _))
  | .deletePayment paymentId o =>
    inferInstanceAs (Decidable (∀ p ∈ b.billing.db.payments.find paymentId, ∀ k ∈ o,
      ∀ row ∈ b.billing.db.invoices.find k, b.Takes row (b.dates.paymentDate p.id) ∧
        (_ → ∀ r ∈ b.billing.db.refunds.rows, _)))
  | .gatewayRefunds _ o rs =>
    inferInstanceAs (Decidable (Collectible b.billing.db o ∨ ∀ l ∈ rs, _))
  | .voidCreditNote _ k => inferInstanceAs (Decidable (Collectible b.billing.db (some k)))

instance (b : Books) (e : DatedEvent) : Decidable (KeepsAccount b e) :=
  match e with
  | ⟨.voidDelegatedInvoice k _, _, _, _⟩ =>
    inferInstanceAs (Decidable (∀ row ∈ b.billing.db.invoices.find k, _ → _ → _ ∧ _))
  | ⟨.writeOffInvoice k, _, _, _⟩ =>
    inferInstanceAs (Decidable (∀ row ∈ b.billing.db.invoices.find k, _ → _ →
      ∀ p ∈ b.billing.db.payments.rows, _ → _))
  | ⟨.createPayment request, _, _, _⟩ =>
    inferInstanceAs (Decidable (∀ k ∈ request.invoiceId, ∀ row ∈ b.billing.db.invoices.find k, _ ∨ _))
  | ⟨.recordGatewayPayment k _ _, _, _, _⟩ =>
    inferInstanceAs (Decidable (∀ row ∈ b.billing.db.invoices.find k, _ ∨ _))
  | ⟨.commit i _, _, _, _⟩ =>
    inferInstanceAs (Decidable (∀ c ∈ b.billing.calls[i]?, CallKeepsAccount b c))
  | ⟨.time _, _, _, _⟩ | ⟨.createInvoice _ _ _ _, _, _, _⟩
  | ⟨.createInvoiceFromTimeEntries _ _ _, _, _, _⟩
  | ⟨.generateOneRecurringInvoice _ _ _ _ _ _, _, _, _⟩ | ⟨.amendInvoice _ _ _, _, _, _⟩
  | ⟨.voidInvoice _, _, _, _⟩ | ⟨.createCreditNote _ _, _, _, _⟩ | ⟨.startUpdate _ _, _, _, _⟩
  | ⟨.startDeletePayment _, _, _, _⟩ | ⟨.startGatewayRefunds _ _, _, _, _⟩
  | ⟨.startVoidCreditNote _, _, _, _⟩ => inferInstanceAs (Decidable True)

/-- No waiting update asks for a void or for a write-off. -/
def AsksNeither : BillingCall → Prop
  | .update _ request => request.status ≠ some .void ∧ request.status ≠ some .writtenOff
  | .deletePayment _ _ | .gatewayRefunds _ _ _ | .voidCreditNote _ _ => True

/-- The invariant of the runs that keep the account. -/
structure Agrees (b : Books) : Prop where
  sound : b.billing.Sound
  company : SameCompany b.billing.db
  reconciled : Reconciled b.billing.db b.dates
  asks : ∀ c ∈ b.billing.calls, AsksNeither c

section Step

variable {b b' : Books} {e : DatedEvent}

theorem step_asks {s s' : Billing} {ev : BillingEvent} (h : ∀ c ∈ s.calls, AsksNeither c)
    (hs : s.step ev = some s') : ∀ c ∈ s'.calls, AsksNeither c := by
  intro c hc
  rcases Billing.step_began hs c hc with hc | hb
  · exact h c hc
  · cases hb with
    | update hread =>
        obtain ⟨-, -, hv, hw⟩ := readForUpdate_eq_ok hread
        exact ⟨hv, hw⟩
    | deletePayment hread => trivial
    | gatewayRefunds hread => trivial
    | voidCreditNote hread => trivial

/-- One transaction that meets the condition. -/
theorem step_reconciled (h : Agrees b) (hc : KeepsAccount b e) {s : Billing}
    (hs : b.billing.step e.event = some s) : Reconciled s.db (b.stamp e) := by
  have hr := reconciled_stamp h.reconciled e
  have hb := h.sound.balanced
  have hw := Billing.step_wrote hs
  unfold KeepsAccount at hc
  generalize s.db = db' at hw ⊢
  generalize hev : e.event = ev at hw hc
  have hpaid : ∀ (day : NaiveDate) (k : Uuid) (row : Invoice),
      b.billing.db.invoices.find k = some row → b.Takes row day → row.status ≠ .void ∧
        (row.status = .writtenOff → ((b.stamp e).writtenOffAt k).date ≤ day) := by
    intro day k row hrow ht
    refine ⟨ht.1, fun hst => ?_⟩
    have hm := (h.reconciled row (Table.find_mem hrow)).1.writtenOff.mpr hst
    rw [stamp_writtenOffAt hrow, if_pos hm, ← Table.key_of_find hrow]
    exact ht.2 hst
  cases hw with
  | idle hi hm => exact hr.idle hi hm.1
  | create hk hnew hi hm =>
      refine hr.insert hi hm.1 fun i => ⟨?_, (hnew i).writtenOffAt⟩
      refine .of_unmarked (hnew i).writtenOffAt (hnew i).voidedAt ?_ ?_
      · rcases (hnew i).status with ⟨h1, -⟩ | ⟨h1, -⟩ <;> simp [h1]
      · rcases (hnew i).status with ⟨h1, -⟩ | ⟨h1, -⟩ <;> simp [h1]
  | amend hrow hst hp hcr hno hi hm =>
      exact hr.insert hi hm.1 fun i => ⟨.of_unmarked rfl rfl (by simp [Invoice.amendment])
        (by simp [Invoice.amendment]), rfl⟩
  | @void k row hrow hf =>
      obtain ⟨h1, h2, -⟩ := hb.unissued hrow hf
      refine hr.void (by intro _; rfl) rfl rfl hrow ?_ ?_ ⟨rfl, rfl, rfl, rfl, rfl⟩
      · rw [h1, h2, add_zero]
      · exact InvoiceStatus.ne_of_unfrozen hf rfl
  | voidDelegated hrow hp hne =>
      obtain ⟨h1, h2⟩ := hc _ hrow hp hne
      exact hr.void (by intro _; rfl) rfl rfl hrow h1 h2 ⟨rfl, rfl, rfl, rfl, rfl⟩
  | @writeOff k row hrow hst hd =>
      refine hr.update (by intro _; rfl) rfl (fun j _ => rfl) fun r hr' => ?_
      rw [hrow, Option.some.injEq] at hr'
      subst hr'
      have h1 : row.status ≠ .writtenOff ∧ row.status ≠ .void := by
        rcases hst with h1 | h1 <;> simp [h1]
      obtain ⟨h2, h3⟩ := (h.reconciled row (Table.find_mem hrow)).1.unmarked h1.1 h1.2
      refine ⟨⟨?_, ?_, fun hv => ?_⟩, fun _ => ?_⟩
      · simp [Invoice.writtenOffNow]
      · simp [Invoice.writtenOffNow, h3]
      · exact absurd hv (by simp [Invoice.writtenOffNow])
      · -- No payment on it is dated on the day of the write-off or after it.
        have hzero : recoveredOn b.billing.db (b.stamp e) k = 0 := by
          refine Table.sum_eq_zero fun p hp => ?_
          rw [if_neg]
          rintro ⟨hpk, hle⟩
          rw [stamp_writtenOffAt hrow, if_neg (by simp [h2]), stamp_paymentDate hp] at hle
          exact absurd hle (not_le.mpr (hc row hrow hst hd p hp hpk))
        rw [← Table.key_of_find hrow] at hzero
        exact (add_zero _).symm.trans (congrArg _ hzero.symm)
  | payment hp =>
      refine hr.insertPayment hb fun k hk row hrow => ?_
      rw [stamp_paymentDate_next, DatedEvent.paymentDate, hev]
      refine hpaid e.date k row hrow ((hc k hk row hrow).resolve_right ?_)
      obtain ⟨row', hrow', -, hle, -⟩ := hp k hk
      rw [hrow, Option.some.injEq] at hrow'
      rw [hrow']
      exact not_lt.mpr hle
  | gatewayPayment ha hrow hf hle =>
      refine hr.insertPayment hb fun k hk row' hrow' => ?_
      rw [stamp_paymentDate_next, DatedEvent.paymentDate, hev]
      rw [← Option.some.inj hk, hrow, Option.some.injEq] at hrow'
      subst hrow'
      rw [← Option.some.inj hk]
      exact hpaid e.now.date _ _ hrow ((hc _ hrow).resolve_right (not_lt.mpr hle))
  | creditNote hrow ht hcr ha hmk =>
      refine hr.collect (o := some _) hb (by rfl) (by rfl) fun k hk row' hrow' => ?_
      rw [Option.mem_some_iff] at hk
      rw [← hk, Option.mem_def, hrow, Option.some.injEq] at hrow'
      rw [← hrow']
      exact ⟨hcr.2.2.1, hcr.2.1⟩
  | @update i outside current row request rate hcall hrow hf hamend =>
      obtain ⟨hv, hw⟩ := h.asks _ (List.mem_of_getElem? hcall)
      exact hr.rewrite hrow hf hv hw hamend (hc _ hcall row hrow)
  | deletePayment hcall =>
      refine hr.deletePayment hb (h.sound.calls _ (List.mem_of_getElem? hcall)) ?_
      intro p hp k hk row hrow
      obtain ⟨h1, h2⟩ := hc _ hcall p hp k hk row hrow
      obtain ⟨h3, h4⟩ := hpaid _ k row hrow h1
      refine ⟨h3, fun hst => ⟨?_, h2 hst⟩⟩
      rw [stamp_paymentDate (Table.find_mem hp)]
      exact h4 hst
  | refunds hcall hins =>
      obtain ⟨hi, -, -, -, hpay, -⟩ := insertRefunds_frame hins
      rcases hc _ hcall with h1 | h1
      · exact hr.collect hb hi hpay h1
      · rw [insertRefunds_taken h1 hins]
        exact hr.recompute_self hb _
  | voidCreditNote hcall =>
      exact hr.collect (o := some _) hb (by rfl) (by rfl) (hc _ hcall)

theorem step_agrees (h : Agrees b) (hc : KeepsAccount b e) (hs : step b e = some b') : Agrees b' := by
  obtain ⟨s, hs', rfl⟩ := Option.map_eq_some_iff.mp hs
  exact ⟨Billing.step_sound h.sound hs', Billing.step_sameCompany h.company h.sound hs',
    step_reconciled h hc hs', step_asks h.asks hs'⟩

end Step

/-! ### Runs -/

section Runs

variable {time : TimeDb} {mileage : Table MileageEntry.id} {taxRates : List TaxRate}
  {products : List Product} {dates : StatementDates}

/-- A tenant that has billed nothing yet. -/
def init (time : TimeDb) (mileage : Table MileageEntry.id) (taxRates : List TaxRate)
    (products : List Product) (dates : StatementDates) : Books :=
  ⟨Billing.init time mileage taxRates products, dates⟩

theorem init_agrees : Agrees (init time mileage taxRates products dates) := by
  refine ⟨Billing.init_sound, ⟨?_, ?_⟩, ?_, ?_⟩
  · intro p hp
    exact absurd hp (Table.not_mem_empty p)
  · intro n hn
    exact absurd hn (Table.not_mem_empty n)
  · intro i hi
    exact absurd hi (Table.not_mem_empty i)
  · intro c hc
    exact absurd hc List.not_mem_nil

/-- Nothing of a company is unapplied if every payment of it is on an invoice. -/
theorem unappliedBy_eq_zero {db : BillingDb} (hl : Linked db) {companyId : Uuid}
    (h : ∀ p ∈ db.payments, p.companyId = companyId → p.invoiceId ≠ none) :
    unappliedBy db companyId = 0 := by
  have h1 : (db.payments.sum fun p =>
      if p.invoiceId = none ∧ p.companyId = companyId then p.amount else 0) = 0 := by
    refine Table.sum_eq_zero fun p hp => ?_
    rw [if_neg]
    exact fun h1 => h p hp h1.2 h1.1
  have h2 : (db.refunds.sum fun r =>
      if r.invoiceId = none ∧ r.refundedTo db companyId = true then r.amount else 0) = 0 := by
    refine Table.sum_eq_zero fun r hr => ?_
    rw [if_neg]
    rintro ⟨hn, hc⟩
    obtain ⟨p, hp, hpk, hpi⟩ := hl.refund r hr
    rw [PaymentRefund.refundedTo, ← hpk, Table.find_key hp, Option.any_some, Payment.paidBy,
      decide_eq_true_eq] at hc
    exact h p hp hc (hpi.trans hn)
  rw [unappliedBy, h1, h2, sub_zero]

/-- In a run whose steps meet the condition, a statement that ends when everything has happened
closes with what is due on the company's invoices, less what it has paid and not applied. -/
theorem statement_agrees_with_ledger {es : List DatedEvent} {b : Books}
    (hc : StepsMeet step KeepsAccount (init time mileage taxRates products dates) es)
    (hrun : run step (init time mileage taxRates products dates) es = some b)
    {texts : StatementTexts} {query : StatementQuery} {st : StatementResponse}
    (hst : buildStatement b.billing.db b.dates texts query = .ok st)
    (hd : ∀ x ∈ accountOf b.billing.db b.dates query.companyId, x.1 ≤ query.periodEnd) :
    st.closingBalance =
        owedBy b.billing.db query.companyId - unappliedBy b.billing.db query.companyId ∧
      ((∀ p ∈ b.billing.db.payments, p.companyId = query.companyId → p.invoiceId ≠ none) →
        st.closingBalance = owedBy b.billing.db query.companyId) := by
  have h : Agrees b := run_invariant_of_stepsMeet Agrees
    (fun _ _ _ h hc hs => step_agrees h hc hs) init_agrees hc hrun
  have hclose : st.closingBalance =
      owedBy b.billing.db query.companyId - unappliedBy b.billing.db query.companyId := by
    rw [(buildStatement_eq_ok hst).closing,
      through_accountOf h.sound.balanced h.company h.reconciled hd]
  refine ⟨hclose, fun hp => ?_⟩
  rw [hclose, unappliedBy_eq_zero h.sound.balanced.toLinked hp, sub_zero]

/-- Transactions of one day. -/
def onDay (day : NaiveDate) (es : List BillingEvent) : List DatedEvent :=
  es.map fun e => ⟨e, ⟨day, 0⟩, day, none⟩

/-- An invoice of 100 is sent, 40 are paid on it, and later on the day of the payment the other 60
are written off.  The statement takes the payment for a recovery and asks for 40. -/
theorem payment_on_day_of_write_off :
    ∃ b, run step (init (sampleTimeDb ⟨∅, ∅⟩) ∅ [] [] (sampleDates (sampleDay 1 1) (sampleDay 1 1)))
        (onDay (sampleDay 1 5) (Billing.sampleInvoice ++
          [.startUpdate 0 { status := some .sent }, .commit 0 (.ok ()),
            .createPayment ⟨some 0, 7, ⟨4000⟩, none, by decide⟩, .writeOffInvoice 0])) = some b ∧
      (∀ x ∈ accountOf b.billing.db b.dates 7, x.1 ≤ sampleDay 1 31) ∧
      (∀ p ∈ b.billing.db.payments, p.companyId = 7 → p.invoiceId ≠ none) ∧
      ∃ st, buildStatement b.billing.db b.dates sampleTexts
          ⟨7, sampleDay 1 1, sampleDay 1 31⟩ = .ok st ∧
        st.closingBalance = ⟨4000⟩ ∧ owedBy b.billing.db 7 = 0 := by
  have h : (run step
      (init (sampleTimeDb ⟨∅, ∅⟩) ∅ [] [] (sampleDates (sampleDay 1 1) (sampleDay 1 1)))
      (onDay (sampleDay 1 5) (Billing.sampleInvoice ++
        [.startUpdate 0 { status := some .sent }, .commit 0 (.ok ()),
          .createPayment ⟨some 0, 7, ⟨4000⟩, none, by decide⟩, .writeOffInvoice 0]))).any
      (fun b : Books =>
        decide (∀ x ∈ accountOf b.billing.db b.dates 7, x.1 ≤ sampleDay 1 31) &&
          decide (∀ p ∈ b.billing.db.payments.rows, p.companyId = 7 → p.invoiceId ≠ none) &&
          decide (owedBy b.billing.db 7 = 0) &&
          (buildStatement b.billing.db b.dates sampleTexts
            ⟨7, sampleDay 1 1, sampleDay 1 31⟩).toOption.any fun st =>
              decide (st.closingBalance = ⟨4000⟩)) = true := by
    decide +kernel
  obtain ⟨b, hb, hp⟩ := exists_run_of_any h
  rw [Bool.and_eq_true, Bool.and_eq_true, Bool.and_eq_true, decide_eq_true_eq, decide_eq_true_eq,
    decide_eq_true_eq] at hp
  obtain ⟨⟨⟨h1, h2⟩, h3⟩, h4⟩ := hp
  cases hst : buildStatement b.billing.db b.dates sampleTexts
      ⟨7, sampleDay 1 1, sampleDay 1 31⟩ with
  | error err =>
      rw [hst] at h4
      cases h4
  | ok st =>
      rw [hst] at h4
      exact ⟨b, hb, h1, h2, st, hst, of_decide_eq_true h4, h3⟩

/-- The same invoice, written off on the day after the payment; then 10 are recovered. -/
theorem statement_agrees_with_ledger_sample :
    ∃ b, run step (init (sampleTimeDb ⟨∅, ∅⟩) ∅ [] [] (sampleDates (sampleDay 1 1) (sampleDay 1 1)))
        (onDay (sampleDay 1 5) (Billing.sampleInvoice ++
          [.startUpdate 0 { status := some .sent }, .commit 0 (.ok ()),
            .createPayment ⟨some 0, 7, ⟨4000⟩, none, by decide⟩]) ++
        onDay (sampleDay 1 6) [.writeOffInvoice 0,
          .createPayment ⟨some 0, 7, ⟨1000⟩, none, by decide⟩]) = some b ∧
      ∃ st, buildStatement b.billing.db b.dates sampleTexts
          ⟨7, sampleDay 1 1, sampleDay 1 31⟩ = .ok st ∧
        st.closingBalance = owedBy b.billing.db 7 := by
  have h : (run step
      (init (sampleTimeDb ⟨∅, ∅⟩) ∅ [] [] (sampleDates (sampleDay 1 1) (sampleDay 1 1)))
      (onDay (sampleDay 1 5) (Billing.sampleInvoice ++
        [.startUpdate 0 { status := some .sent }, .commit 0 (.ok ()),
          .createPayment ⟨some 0, 7, ⟨4000⟩, none, by decide⟩]) ++
      onDay (sampleDay 1 6) [.writeOffInvoice 0,
        .createPayment ⟨some 0, 7, ⟨1000⟩, none, by decide⟩])).any (fun b : Books =>
      decide (∀ x ∈ accountOf b.billing.db b.dates 7, x.1 ≤ sampleDay 1 31) &&
        decide (∀ p ∈ b.billing.db.payments.rows, p.companyId = 7 → p.invoiceId ≠ none) &&
        decide (7 ∈ b.billing.db.time.dir.companies)) = true := by
    decide +kernel
  obtain ⟨b, hb, hp⟩ := exists_run_of_any h
  rw [Bool.and_eq_true, Bool.and_eq_true, decide_eq_true_eq, decide_eq_true_eq,
    decide_eq_true_eq] at hp
  obtain ⟨⟨h1, h2⟩, h3⟩ := hp
  obtain ⟨st, hst⟩ : ∃ st, buildStatement b.billing.db b.dates sampleTexts
      ⟨7, sampleDay 1 1, sampleDay 1 31⟩ = .ok st := buildStatement_ok (by decide +kernel) h3
  exact ⟨b, hb, st, hst, (statement_agrees_with_ledger (by decide +kernel) hb hst h1).2 h2⟩

end Runs

end Books

end Mokosh
