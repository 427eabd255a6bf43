import Mathlib.Data.List.Perm.Basic
import Mokosh.Billing.Writes

/-! # Deliveries of the gateway

The gateway reports payments and refunds of an invoice by webhooks, each delivered at least once and
in any order.  A payment is known by its reference and a refund by its own, so that a second
delivery does nothing.

Two deliveries do not commute when one of them makes room for the other: a refund that arrives
before its payment is ignored, and a payment above what is left to pay is refused
(`deliveries_depend_on_order`).  **`deliveries_commute`**: two lists of deliveries of the same events
record the same payments and the same refunds, and leave the invoice the same row, if in each of
them every event is delivered at least once when it can be recorded (`Lands`).

The rows that a list adds are explained by its events (`Delivered`), and every event that lands has
its rows (`EachLands.payment`, `EachLands.refund`).  Which rows are new, and whether the invoice is
recomputed, then depends on the events alone. -/

namespace Mokosh

deriving instance DecidableEq for RefundLine

/-- A webhook about one invoice. -/
inductive GatewayEvent where
  | payment (reference : String) (amount : ℚ)
  | refunds (reference : String) (lines : List RefundLine)
deriving DecidableEq

/-- The tables after a delivery. -/
def deliver (invoiceId : Uuid) (db : BillingDb) : GatewayEvent → BillingDb
  | .payment reference amount =>
    Billing.committed db (recordGatewayPayment db invoiceId reference amount)
  | .refunds reference lines =>
    match readForGatewayRefunds db reference with
    | none => db
    | some p => Billing.committed db (commitGatewayRefunds db p.1 p.2 lines)

def deliverAll (invoiceId : Uuid) (db : BillingDb) (es : List GatewayEvent) : BillingDb :=
  es.foldl (deliver invoiceId) db

/-! ### What one delivery does -/

/-- The payment with a reference. -/
def paymentOf (db : BillingDb) (reference : String) : Option Payment :=
  db.payments.rows.find? fun p => decide (p.gatewayTransactionId = some reference)

/-- A refund with the reference is recorded. -/
def refundTaken (db : BillingDb) (reference : String) : Bool :=
  db.refunds.rows.any fun r => decide (r.providerReference = reference)

/-- The invoice is issued, and the amount is a payment. -/
def Recordable (row : Invoice) (amount : ℚ) : Prop :=
  row.status.isFrozen = true ∧ 0 < Numeric.ofRat 2 amount

/-- Every line is a refund. -/
def AllPositive (lines : List RefundLine) : Prop := ∀ l ∈ lines, 0 < Numeric.ofRat 2 l.amount

section Delivery

variable {db db' : BillingDb} {invoiceId : Uuid} {reference : String} {amount : ℚ} {row : Invoice}

theorem gatewayTaken_eq (db : BillingDb) (reference : String) :
    gatewayTaken db (some reference) = (paymentOf db reference).isSome := by
  rw [paymentOf, List.isSome_find?]
  rfl

theorem paymentOf_eq_some {p : Payment} (h : paymentOf db reference = some p) :
    p ∈ db.payments ∧ p.gatewayTransactionId = some reference :=
  ⟨List.mem_of_find?_eq_some h, by simpa using List.find?_some h⟩

theorem readForGatewayRefunds_eq (db : BillingDb) (reference : String) :
    readForGatewayRefunds db reference =
      (paymentOf db reference).map fun p => (p.id, p.invoiceId) := by
  unfold readForGatewayRefunds paymentOf
  cases db.payments.rows.find? fun p => decide (p.gatewayTransactionId = some reference) <;> rfl

/-- The tables with one more payment of the gateway. -/
def withPayment (db : BillingDb) (invoiceId : Uuid) (row : Invoice) (reference : String)
    (amount : ℚ) : BillingDb :=
  recomputeInvoiceBalance (insertPayment db (some invoiceId) row.companyId (.ofRat 2 amount)
    (some reference)) invoiceId

theorem withPayment_rows (db : BillingDb) (invoiceId : Uuid) (row : Invoice) (reference : String)
    (amount : ℚ) :
    (withPayment db invoiceId row reference amount).payments.rows =
      db.payments.rows ++ [⟨db.payments.next, some invoiceId, row.companyId, .ofRat 2 amount,
        some reference⟩] := rfl

/-- A payment that is new and fits is recorded. -/
theorem deliver_payment (hrow : db.invoices.find invoiceId = some row)
    (hr : Recordable row amount)
    (hle : amount ≤ (row.total - row.amountPaid - row.amountCredited).toRat)
    (hnew : paymentOf db reference = none) :
    deliver invoiceId db (.payment reference amount) =
      withPayment db invoiceId row reference amount := by
  have hd : ¬ (row.status = .draft ∨ row.status = .pending) := by
    rintro (h | h) <;> exact absurd hr.1 (by simp [h, InvoiceStatus.isFrozen])
  have ht : gatewayTaken db (some reference) = false := by
    rw [gatewayTaken_eq, hnew]
    rfl
  simp only [deliver, recordGatewayPayment, lockInvoiceTotals, hrow, if_neg hd,
    if_neg (not_lt.mpr hle), if_neg (not_le.mpr hr.2), ht]
  rfl

/-- Any other payment is not. -/
theorem deliver_payment_cases (db : BillingDb) (invoiceId : Uuid) (reference : String)
    (amount : ℚ) :
    deliver invoiceId db (.payment reference amount) = db ∨
      ∃ row, db.invoices.find invoiceId = some row ∧ Recordable row amount ∧
        paymentOf db reference = none ∧
        deliver invoiceId db (.payment reference amount) =
          withPayment db invoiceId row reference amount := by
  cases hrow : db.invoices.find invoiceId with
  | none =>
      left
      simp [deliver, recordGatewayPayment, lockInvoiceTotals, hrow, Billing.committed]
  | some row =>
      by_cases h : Recordable row amount ∧
          amount ≤ (row.total - row.amountPaid - row.amountCredited).toRat ∧
          paymentOf db reference = none
      · exact .inr ⟨row, rfl, h.1, h.2.2, deliver_payment hrow h.1 h.2.1 h.2.2⟩
      · left
        unfold deliver recordGatewayPayment lockInvoiceTotals
        rw [hrow]
        simp only
        split_ifs with h1 h2 h3 h4
        · rfl
        · rfl
        · rfl
        · rfl
        · refine absurd ⟨⟨InvoiceStatus.isFrozen_of_not h1, not_le.mp h3⟩, not_lt.mp h2, ?_⟩ h
          rw [gatewayTaken_eq] at h4
          simpa using h4

end Delivery

/-! ### Refunds -/

section Refunds

variable {db db' : BillingDb} {paymentId : Uuid} {o : Option Uuid} {lines : List RefundLine}

/-- The rows of a refund call: those that are new, one for each reference. -/
structure Refunded (db db' : BillingDb) (paymentId : Uuid) (o : Option Uuid)
    (lines : List RefundLine) : Prop where
  frame : db' = { db with refunds := db'.refunds }
  rows : ∃ m, db'.refunds.rows = db.refunds.rows ++ m ∧
    (m.map PaymentRefund.providerReference).Nodup ∧
    ∀ r ∈ m, refundTaken db r.providerReference = false ∧
      ∃ l ∈ lines, r = ⟨r.id, paymentId, o, .ofRat 2 l.amount, l.providerReference⟩
  taken : ∀ l ∈ lines, refundTaken db' l.providerReference = true

theorem refundTaken_append {m : List PaymentRefund} (h : db'.refunds.rows = db.refunds.rows ++ m)
    (reference : String) :
    refundTaken db' reference = (refundTaken db reference ||
      m.any fun r => decide (r.providerReference = reference)) := by
  rw [refundTaken, h, List.any_append]
  rfl

theorem insertRefunds_ok (hp : AllPositive lines) (hf : (db.payments.find paymentId).isSome = true) :
    ∃ db', insertRefunds db paymentId o lines = .ok db' := by
  induction lines generalizing db with
  | nil => exact ⟨db, rfl⟩
  | cons l ls ih =>
      have hl := hp l List.mem_cons_self
      have hls : AllPositive ls := fun x hx => hp x (List.mem_cons_of_mem _ hx)
      have hsome : ¬ (db.payments.find paymentId).isNone = true := by
        rw [Option.isNone_iff_eq_none]
        exact Option.isSome_iff_ne_none.mp hf
      simp only [insertRefunds, insertRefund, if_neg (not_le.mpr hl), if_neg hsome]
      split
      · exact ih hls hf
      · exact ih hls hf

theorem insertRefunds_refunded (h : insertRefunds db paymentId o lines = .ok db') :
    AllPositive lines ∧ Refunded db db' paymentId o lines := by
  induction lines generalizing db with
  | nil =>
      cases h
      refine ⟨fun l hl => absurd hl List.not_mem_nil, rfl, ⟨[], by simp, by simp, ?_⟩, ?_⟩ <;> simp
  | cons l ls ih =>
      obtain ⟨db1, h1, h2⟩ := bind_eq_ok.mp h
      obtain ⟨hpos, hframe, ⟨m, hm, hnd, hrows⟩, htaken⟩ := ih h2
      unfold insertRefund at h1
      split_ifs at h1 with h3 h4 h5
      · -- The reference is taken.
        cases h1
        refine ⟨?_, hframe, ⟨m, hm, hnd, fun r hr => ?_⟩, ?_⟩
        · intro x hx
          rcases List.mem_cons.mp hx with rfl | hx
          · exact not_le.mp h3
          · exact hpos x hx
        · obtain ⟨hr1, x, hx, hr2⟩ := hrows r hr
          exact ⟨hr1, x, List.mem_cons_of_mem _ hx, hr2⟩
        · intro x hx
          rcases List.mem_cons.mp hx with rfl | hx
          · rw [refundTaken_append hm]
            have h6 : refundTaken db x.providerReference = true := h4
            rw [h6, Bool.true_or]
          · exact htaken x hx
      · cases h1
        refine ⟨?_, hframe, ⟨⟨db.refunds.next, paymentId, o, .ofRat 2 l.amount,
          l.providerReference⟩ :: m, ?_, ?_, ?_⟩, ?_⟩
        · intro x hx
          rcases List.mem_cons.mp hx with rfl | hx
          · exact not_le.mp h3
          · exact hpos x hx
        · rw [hm]
          exact List.append_assoc _ _ _
        · rw [List.map_cons, List.nodup_cons]
          refine ⟨fun hmem => ?_, hnd⟩
          obtain ⟨r, hr, hrl⟩ := List.mem_map.mp hmem
          have h6 := (hrows r hr).1
          rw [hrl] at h6
          simp [refundTaken, Table.insert] at h6
        · intro r hr
          rcases List.mem_cons.mp hr with rfl | hr
          · refine ⟨?_, l, List.mem_cons_self, rfl⟩
            simpa [refundTaken] using h4
          · obtain ⟨hr1, x, hx, hr2⟩ := hrows r hr
            refine ⟨?_, x, List.mem_cons_of_mem _ hx, hr2⟩
            rw [refundTaken] at hr1 ⊢
            simp only [Table.insert, List.any_append, Bool.or_eq_false_iff] at hr1
            exact hr1.1
        · intro x hx
          rcases List.mem_cons.mp hx with rfl | hx
          · rw [refundTaken_append hm]
            simp [refundTaken, Table.insert]
          · exact htaken x hx

/-- The refunds of a payment that is recorded. -/
theorem deliver_refunds (invoiceId : Uuid) {reference : String} {p : Payment}
    (hp : paymentOf db reference = some p) (hl : AllPositive lines) :
    ∃ db1, Refunded db db1 p.id p.invoiceId lines ∧
      deliver invoiceId db (.refunds reference lines) = recomputeOf db1 p.invoiceId := by
  have hfind : db.payments.find p.id = some p := Table.find_key (paymentOf_eq_some hp).1
  obtain ⟨db1, h1⟩ : ∃ db1, insertRefunds db p.id p.invoiceId lines = .ok db1 :=
    insertRefunds_ok hl (by rw [hfind]; rfl)
  refine ⟨db1, (insertRefunds_refunded h1).2, ?_⟩
  have h2 : commitGatewayRefunds db p.id p.invoiceId lines = .ok (recomputeOf db1 p.invoiceId) :=
    bind_eq_ok.mpr ⟨db1, h1, rfl⟩
  rw [deliver, readForGatewayRefunds_eq, hp]
  simp only [Option.map_some, h2, Billing.committed]

/-- Any others do nothing. -/
theorem deliver_refunds_cases (db : BillingDb) (invoiceId : Uuid) (reference : String)
    (lines : List RefundLine) :
    (deliver invoiceId db (.refunds reference lines) = db ∧
        (paymentOf db reference = none ∨ ¬ AllPositive lines)) ∨
      ∃ p db1, paymentOf db reference = some p ∧ AllPositive lines ∧
        Refunded db db1 p.id p.invoiceId lines ∧
        deliver invoiceId db (.refunds reference lines) = recomputeOf db1 p.invoiceId := by
  cases hp : paymentOf db reference with
  | none =>
      left
      rw [deliver, readForGatewayRefunds_eq, hp]
      exact ⟨rfl, .inl rfl⟩
  | some p =>
      by_cases hl : AllPositive lines
      · obtain ⟨db1, h1, h2⟩ := deliver_refunds invoiceId hp hl
        exact .inr ⟨p, db1, rfl, hl, h1, h2⟩
      · left
        refine ⟨?_, .inr hl⟩
        rw [deliver, readForGatewayRefunds_eq, hp]
        simp only [Option.map_some]
        cases h : commitGatewayRefunds db p.id p.invoiceId lines with
        | error err => rfl
        | ok db' =>
            obtain ⟨db1, h1, rfl⟩ := commitGatewayRefunds_eq_ok h
            exact absurd (insertRefunds_refunded h1).1 hl

end Refunds

/-! ### What the deliveries record -/

/-- A payment row that one of the events explains. -/
def IsNewPayment (invoiceId : Uuid) (db0 : BillingDb) (es : List GatewayEvent) (p : Payment) :
    Prop :=
  ∃ row reference amount, db0.invoices.find invoiceId = some row ∧ Recordable row amount ∧
    .payment reference amount ∈ es ∧ paymentOf db0 reference = none ∧
    p = ⟨p.id, some invoiceId, row.companyId, .ofRat 2 amount, some reference⟩

/-- A refund row that one of the events explains. -/
def IsNewRefund (db0 db : BillingDb) (es : List GatewayEvent) (r : PaymentRefund) : Prop :=
  refundTaken db0 r.providerReference = false ∧
    ∃ reference lines l p, .refunds reference lines ∈ es ∧ l ∈ lines ∧
      paymentOf db reference = some p ∧ AllPositive lines ∧
      r = ⟨r.id, p.id, p.invoiceId, .ofRat 2 l.amount, l.providerReference⟩

/-- The row of the invoice is recomputed from the tables as they are. -/
def RowRecomputed (invoiceId : Uuid) (db0 db : BillingDb) : Prop :=
  db.invoices.find invoiceId = (db0.invoices.find invoiceId).map
    (·.recomputed (db.paidOn invoiceId) (db.creditsOf invoiceId))

/-- A payment is recorded, or refunds of one that was there. -/
def Touched (invoiceId : Uuid) (db0 : BillingDb) (es : List GatewayEvent) (db : BillingDb) : Prop :=
  db.payments.rows ≠ db0.payments.rows ∨
    ∃ reference lines p, .refunds reference lines ∈ es ∧ AllPositive lines ∧
      paymentOf db0 reference = some p ∧ p.invoiceId = some invoiceId

/-- What the deliveries of the events have added to the tables `db0`. -/
structure Delivered (invoiceId : Uuid) (db0 : BillingDb) (es : List GatewayEvent) (db : BillingDb) :
    Prop where
  payments : ∃ n, db.payments.rows = db0.payments.rows ++ n ∧
    (n.map Payment.gatewayTransactionId).Nodup ∧ ∀ p ∈ n, IsNewPayment invoiceId db0 es p
  refunds : ∃ m, db.refunds.rows = db0.refunds.rows ++ m ∧
    (m.map PaymentRefund.providerReference).Nodup ∧ ∀ r ∈ m, IsNewRefund db0 db es r
  credits : db.creditNotes = db0.creditNotes
  row : (¬ Touched invoiceId db0 es db ∧
      db.invoices.find invoiceId = db0.invoices.find invoiceId) ∨
    Touched invoiceId db0 es db ∧ RowRecomputed invoiceId db0 db

/-- A recompute forgets the one before it. -/
theorem Invoice.recomputed_recomputed (i : Invoice) (p c p' c' : Numeric 2) :
    (i.recomputed p c).recomputed p' c' = i.recomputed p' c' := by
  by_cases hd : i.status = .draft ∨ i.status = .pending
  · simp [Invoice.recomputed, hd]
  · have hd' : ¬ ((i.recomputed p c).status = .draft ∨ (i.recomputed p c).status = .pending) := by
      intro h
      have h1 := i.recomputed_isFrozen p c
      rw [InvoiceStatus.isFrozen_of_not hd] at h1
      rcases h with h | h <;> rw [h] at h1 <;> exact absurd h1 (by simp [InvoiceStatus.isFrozen])
    rw [Invoice.recomputed]
    simp only [if_neg hd']
    simp [Invoice.recomputed, hd]

section Frames

variable {db db' : BillingDb} {paymentId : Uuid} {o : Option Uuid} {lines : List RefundLine}

theorem recomputeOf_payments (db : BillingDb) (o : Option Uuid) :
    (recomputeOf db o).payments = db.payments ∧ (recomputeOf db o).refunds = db.refunds ∧
      (recomputeOf db o).creditNotes = db.creditNotes := by
  cases o <;> exact ⟨rfl, rfl, rfl⟩

theorem Refunded.payments (h : Refunded db db' paymentId o lines) : db'.payments = db.payments := by
  rw [h.frame]

theorem Refunded.invoices (h : Refunded db db' paymentId o lines) : db'.invoices = db.invoices := by
  rw [h.frame]

theorem Refunded.creditNotes (h : Refunded db db' paymentId o lines) :
    db'.creditNotes = db.creditNotes := by
  rw [h.frame]

/-- Refunds of another invoice, or of none. -/
theorem Refunded.paidOn_ne {invoiceId : Uuid} (h : Refunded db db' paymentId o lines)
    (ho : o ≠ some invoiceId) : db'.paidOn invoiceId = db.paidOn invoiceId := by
  obtain ⟨m, hm, -, hrows⟩ := h.rows
  have h1 : (m.map fun r => if r.invoiceId = some invoiceId then r.amount else 0).sum = 0 := by
    refine List.sum_eq_zero fun x hx => ?_
    obtain ⟨r, hr, rfl⟩ := List.mem_map.mp hx
    obtain ⟨-, l, -, hrl⟩ := hrows r hr
    rw [hrl, if_neg ho]
  have h2 : db'.refundsOf invoiceId = db.refundsOf invoiceId := by
    unfold BillingDb.refundsOf Table.sum
    rw [hm, List.map_append, List.sum_append, h1, add_zero]
  have h3 : db'.paymentsOf invoiceId = db.paymentsOf invoiceId := by
    rw [BillingDb.paymentsOf, h.payments]
    rfl
  rw [BillingDb.paidOn, BillingDb.paidOn, h2, h3]

theorem paymentOf_append {n : List Payment} (h : db'.payments.rows = db.payments.rows ++ n)
    (reference : String) :
    paymentOf db' reference = (paymentOf db reference).or
      (n.find? fun p => decide (p.gatewayTransactionId = some reference)) := by
  rw [paymentOf, h, List.find?_append]
  rfl

theorem paymentOf_congr (h : db'.payments = db.payments) (reference : String) :
    paymentOf db' reference = paymentOf db reference := by
  rw [paymentOf, h]
  rfl

end Frames

section Delivered

variable {db0 db : BillingDb} {invoiceId : Uuid} {es : List GatewayEvent} {e : GatewayEvent}

/-- A delivery only adds rows. -/
theorem deliver_grows (invoiceId : Uuid) (db : BillingDb) (e : GatewayEvent) :
    (∃ n, (deliver invoiceId db e).payments.rows = db.payments.rows ++ n) ∧
      ∃ m, (deliver invoiceId db e).refunds.rows = db.refunds.rows ++ m := by
  cases e with
  | payment reference amount =>
      rcases deliver_payment_cases db invoiceId reference amount with h | ⟨row, -, -, -, h⟩
      · rw [h]
        exact ⟨⟨[], by simp⟩, [], by simp⟩
      · rw [h]
        exact ⟨⟨_, rfl⟩, [], (List.append_nil _).symm⟩
  | refunds reference lines =>
      rcases deliver_refunds_cases db invoiceId reference lines with ⟨h, -⟩ | ⟨p, db1, -, -, hr, h⟩
      · rw [h]
        exact ⟨⟨[], by simp⟩, [], by simp⟩
      · obtain ⟨m, hm, -⟩ := hr.rows
        obtain ⟨h1, h2, -⟩ := recomputeOf_payments db1 p.invoiceId
        rw [h, h1, h2, hr.payments]
        exact ⟨⟨[], by simp⟩, m, hm⟩

theorem paymentOf_deliverAll {reference : String} {p : Payment}
    (h : paymentOf db reference = some p) (es : List GatewayEvent) :
    paymentOf (deliverAll invoiceId db es) reference = some p := by
  induction es generalizing db with
  | nil => exact h
  | cons e es ih =>
      obtain ⟨⟨n, hn⟩, -⟩ := deliver_grows invoiceId db e
      refine ih ?_
      rw [paymentOf_append hn, h]
      rfl

theorem refundTaken_deliverAll {reference : String} (h : refundTaken db reference = true)
    (es : List GatewayEvent) : refundTaken (deliverAll invoiceId db es) reference = true := by
  induction es generalizing db with
  | nil => exact h
  | cons e es ih =>
      obtain ⟨-, m, hm⟩ := deliver_grows invoiceId db e
      refine ih ?_
      rw [refundTaken_append hm, h, Bool.true_or]

theorem IsNewPayment.snoc {p : Payment} (h : IsNewPayment invoiceId db0 es p) (e : GatewayEvent) :
    IsNewPayment invoiceId db0 (es ++ [e]) p := by
  obtain ⟨row, reference, amount, h1, h2, h3, h4⟩ := h
  exact ⟨row, reference, amount, h1, h2, List.mem_append_left _ h3, h4⟩

/-- The payments only grow, so that a refund stays explained. -/
theorem IsNewRefund.snoc {db' : BillingDb} {r : PaymentRefund} (h : IsNewRefund db0 db es r)
    (e : GatewayEvent) {n : List Payment} (hn : db'.payments.rows = db.payments.rows ++ n) :
    IsNewRefund db0 db' (es ++ [e]) r := by
  obtain ⟨h1, reference, lines, l, p, h2, h3, h4, h5⟩ := h
  refine ⟨h1, reference, lines, l, p, List.mem_append_left _ h2, h3, ?_, h5⟩
  rw [paymentOf_append hn, h4]
  rfl

theorem Touched.snoc (h : Touched invoiceId db0 es db) (e : GatewayEvent) :
    Touched invoiceId db0 (es ++ [e]) db := by
  rcases h with h | ⟨reference, lines, p, h1, h2⟩
  · exact .inl h
  · exact .inr ⟨reference, lines, p, List.mem_append_left _ h1, h2⟩

theorem delivered_nil (invoiceId : Uuid) (db : BillingDb) : Delivered invoiceId db [] db := by
  refine ⟨⟨[], by simp, by simp, by simp⟩, ⟨[], by simp, by simp, by simp⟩, rfl, .inl ⟨?_, rfl⟩⟩
  rintro (h | ⟨_, _, _, h, -⟩)
  · exact h rfl
  · exact List.not_mem_nil h

/-- A delivery that does nothing. -/
theorem Delivered.idle (h : Delivered invoiceId db0 es db)
    (ht : Touched invoiceId db0 (es ++ [e]) db → Touched invoiceId db0 es db) :
    Delivered invoiceId db0 (es ++ [e]) db := by
  obtain ⟨n, hn, hnd, hrows⟩ := h.payments
  obtain ⟨m, hm, hmd, hmrows⟩ := h.refunds
  refine ⟨⟨n, hn, hnd, fun p hp => (hrows p hp).snoc e⟩,
    ⟨m, hm, hmd, fun r hr => (hmrows r hr).snoc e (List.append_nil _).symm⟩, h.credits, ?_⟩
  rcases h.row with ⟨h1, h2⟩ | ⟨h1, h2⟩
  · exact .inl ⟨fun h3 => h1 (ht h3), h2⟩
  · exact .inr ⟨h1.snoc e, h2⟩

/-- The row of the invoice, as it was or recomputed. -/
theorem Delivered.exists_row (h : Delivered invoiceId db0 es db) {row : Invoice}
    (hrow : db.invoices.find invoiceId = some row) :
    ∃ row0, db0.invoices.find invoiceId = some row0 ∧
      (row = row0 ∨ ∃ x y, row = row0.recomputed x y) := by
  rcases h.row with ⟨-, h1⟩ | ⟨-, h1⟩
  · exact ⟨row, h1.symm.trans hrow, .inl rfl⟩
  · rw [RowRecomputed, hrow] at h1
    obtain ⟨row0, h2, h3⟩ := Option.map_eq_some_iff.mp h1.symm
    exact ⟨row0, h2, .inr ⟨_, _, h3.symm⟩⟩

theorem Delivered.no_row (h : Delivered invoiceId db0 es db)
    (hrow : db.invoices.find invoiceId = none) : db0.invoices.find invoiceId = none := by
  rcases h.row with ⟨-, h1⟩ | ⟨-, h1⟩
  · exact h1.symm.trans hrow
  · rw [RowRecomputed, hrow] at h1
    exact Option.map_eq_none_iff.mp h1.symm

/-- The row that is locked is recordable if it was at first, and of the same company. -/
theorem Delivered.recordable (h : Delivered invoiceId db0 es db) {row row0 : Invoice}
    (hrow : db.invoices.find invoiceId = some row)
    (hrow0 : db0.invoices.find invoiceId = some row0) (amount : ℚ) :
    (Recordable row amount ↔ Recordable row0 amount) ∧ row.companyId = row0.companyId := by
  obtain ⟨r, hr, h1⟩ := h.exists_row hrow
  rw [hrow0, Option.some.injEq] at hr
  subst hr
  rcases h1 with rfl | ⟨x, y, rfl⟩
  · exact ⟨Iff.rfl, rfl⟩
  · rw [Recordable, Invoice.recomputed_isFrozen]
    exact ⟨Iff.rfl, rfl⟩

/-- The invoice is recomputed. -/
theorem Delivered.recompute (h : Delivered invoiceId db0 es db) {db1 : BillingDb}
    (hi : db1.invoices = db.invoices) :
    RowRecomputed invoiceId db0 (recomputeOf db1 (some invoiceId)) := by
  rw [RowRecomputed, recomputeOf_invoices hi, Table.find_update_self]
  cases hrow : db.invoices.find invoiceId with
  | none =>
      rw [h.no_row hrow]
      rfl
  | some row =>
      obtain ⟨row0, h1, h2⟩ := h.exists_row hrow
      rw [h1]
      rcases h2 with rfl | ⟨x, y, rfl⟩
      · rfl
      · rw [Option.map_some, Option.map_some, Invoice.recomputed_recomputed]
        rfl

theorem Delivered.payment (h : Delivered invoiceId db0 es db) {reference : String} {amount : ℚ}
    {row : Invoice} (hrow : db.invoices.find invoiceId = some row) (hr : Recordable row amount)
    (hnew : paymentOf db reference = none) :
    Delivered invoiceId db0 (es ++ [.payment reference amount])
      (withPayment db invoiceId row reference amount) := by
  obtain ⟨n, hn, hnd, hrows⟩ := h.payments
  obtain ⟨m, hm, hmd, hmrows⟩ := h.refunds
  obtain ⟨row0, hrow0, -⟩ := h.exists_row hrow
  obtain ⟨hrec, hcompany⟩ := h.recordable hrow hrow0 amount
  have hnone := hnew
  rw [paymentOf_append hn, Option.or_eq_none_iff] at hnone
  have hpay := withPayment_rows db invoiceId row reference amount
  refine ⟨⟨n ++ [⟨db.payments.next, some invoiceId, row.companyId, .ofRat 2 amount,
    some reference⟩], ?_, ?_, ?_⟩, ⟨m, hm, hmd, fun r hr1 => (hmrows r hr1).snoc _ hpay⟩,
    h.credits, .inr ⟨.inl ?_, h.recompute (by rfl)⟩⟩
  · rw [hpay, hn, List.append_assoc]
  · rw [List.map_append, List.nodup_append]
    refine ⟨hnd, by simp, ?_⟩
    intro a ha b hb hab
    obtain ⟨p, hp, rfl⟩ := List.mem_map.mp ha
    rw [List.map_singleton, List.mem_singleton] at hb
    have h1 := List.find?_eq_none.mp hnone.2 p hp
    rw [hab, hb] at h1
    simp at h1
  · intro p hp
    rcases List.mem_append.mp hp with hp | hp
    · exact (hrows p hp).snoc _
    · rw [List.mem_singleton] at hp
      subst hp
      exact ⟨row0, reference, amount, hrow0, hrec.mp hr, by simp, hnone.1, by rw [← hcompany]⟩
  · rw [hpay, hn, List.append_assoc]
    simp

/-- The row of the invoice after refunds. -/
theorem Delivered.row_refund (h : Delivered invoiceId db0 es db) {reference : String}
    {lines : List RefundLine} {p : Payment} (hp : paymentOf db reference = some p)
    (hl : AllPositive lines) {db1 : BillingDb} (hr : Refunded db db1 p.id p.invoiceId lines) :
    (¬ Touched invoiceId db0 (es ++ [.refunds reference lines]) (recomputeOf db1 p.invoiceId) ∧
        (recomputeOf db1 p.invoiceId).invoices.find invoiceId = db0.invoices.find invoiceId) ∨
      Touched invoiceId db0 (es ++ [.refunds reference lines]) (recomputeOf db1 p.invoiceId) ∧
        RowRecomputed invoiceId db0 (recomputeOf db1 p.invoiceId) := by
  obtain ⟨n, hn, -⟩ := h.payments
  obtain ⟨hpay, href, hcred⟩ := recomputeOf_payments db1 p.invoiceId
  rw [hr.payments] at hpay
  rw [hr.creditNotes] at hcred
  by_cases hk : p.invoiceId = some invoiceId
  · -- The payment was there, or it is one that the deliveries recorded.
    right
    refine ⟨?_, by rw [hk]; exact h.recompute hr.invoices⟩
    by_cases hrows : db.payments.rows = db0.payments.rows
    · refine .inr ⟨reference, lines, p, by simp, hl, ?_, hk⟩
      rw [← hp, paymentOf, paymentOf, hrows]
    · exact .inl (by rw [hpay]; exact hrows)
  · have hfind : (recomputeOf db1 p.invoiceId).invoices.find invoiceId =
        db.invoices.find invoiceId := by
      cases ho : p.invoiceId with
      | none =>
          show db1.invoices.find invoiceId = _
          rw [hr.invoices]
      | some k =>
          rw [recomputeOf_invoices hr.invoices, Table.find_update_ne]
          rintro rfl
          exact hk ho
    have hpaid : (recomputeOf db1 p.invoiceId).paidOn invoiceId = db.paidOn invoiceId := by
      rw [← hr.paidOn_ne hk]
      cases p.invoiceId <;> rfl
    have hcr : (recomputeOf db1 p.invoiceId).creditsOf invoiceId = db.creditsOf invoiceId := by
      rw [BillingDb.creditsOf, hcred]
      rfl
    rcases h.row with ⟨h1, h2⟩ | ⟨h1, h2⟩
    · refine .inl ⟨?_, hfind.trans h2⟩
      rintro (h3 | ⟨ref, ls, q, h3, h4, h5, h6⟩)
      · exact h1 (.inl (by rwa [hpay] at h3))
      · rcases List.mem_append.mp h3 with h3 | h3
        · exact h1 (.inr ⟨ref, ls, q, h3, h4, h5, h6⟩)
        · obtain ⟨rfl, -⟩ : ref = reference ∧ ls = lines := by simpa using h3
          rw [paymentOf_append hn, h5] at hp
          cases hp
          exact hk h6
    · refine .inr ⟨?_, ?_⟩
      · rcases h1.snoc (.refunds reference lines) with h3 | h3
        · exact .inl (by rw [hpay]; exact h3)
        · exact .inr h3
      · rw [RowRecomputed, hfind, hpaid, hcr]
        exact h2

theorem Delivered.refund (h : Delivered invoiceId db0 es db) {reference : String}
    {lines : List RefundLine} {p : Payment} (hp : paymentOf db reference = some p)
    (hl : AllPositive lines) {db1 : BillingDb} (hr : Refunded db db1 p.id p.invoiceId lines) :
    Delivered invoiceId db0 (es ++ [.refunds reference lines]) (recomputeOf db1 p.invoiceId) := by
  obtain ⟨n, hn, hnd, hrows⟩ := h.payments
  obtain ⟨m, hm, hmd, hmrows⟩ := h.refunds
  obtain ⟨m1, hm1, hmd1, hmrows1⟩ := hr.rows
  obtain ⟨hpay, href, hcred⟩ := recomputeOf_payments db1 p.invoiceId
  rw [hr.payments] at hpay
  rw [hr.creditNotes] at hcred
  refine ⟨⟨n, by rw [hpay, hn], hnd, fun q hq => (hrows q hq).snoc _⟩, ⟨m ++ m1, ?_, ?_, ?_⟩,
    hcred.trans h.credits, h.row_refund hp hl hr⟩
  · rw [href, hm1, hm, List.append_assoc]
  · rw [List.map_append, List.nodup_append]
    refine ⟨hmd, hmd1, ?_⟩
    intro a ha b hb hab
    obtain ⟨r, hr1, rfl⟩ := List.mem_map.mp ha
    obtain ⟨q, hq, rfl⟩ := List.mem_map.mp hb
    have h1 := (hmrows1 q hq).1
    rw [← hab, refundTaken_append hm, Bool.or_eq_false_iff] at h1
    have h2 := List.any_eq_false.mp h1.2 r hr1
    simp at h2
  · intro r hr1
    rcases List.mem_append.mp hr1 with hr1 | hr1
    · exact (hmrows r hr1).snoc _ (by rw [hpay, List.append_nil])
    · obtain ⟨h1, l, h2, h3⟩ := hmrows1 r hr1
      rw [refundTaken_append hm, Bool.or_eq_false_iff] at h1
      exact ⟨h1.1, reference, lines, l, p, by simp, h2, (paymentOf_congr hpay _).trans hp, hl, h3⟩

theorem Delivered.step (h : Delivered invoiceId db0 es db) (e : GatewayEvent) :
    Delivered invoiceId db0 (es ++ [e]) (deliver invoiceId db e) := by
  cases e with
  | payment reference amount =>
      rcases deliver_payment_cases db invoiceId reference amount with
        h1 | ⟨row, hrow, hr, hnew, h1⟩
      · rw [h1]
        refine h.idle ?_
        rintro (h2 | ⟨ref, ls, q, h2, h3⟩)
        · exact .inl h2
        · exact .inr ⟨ref, ls, q, by simpa using h2, h3⟩
      · rw [h1]
        exact h.payment hrow hr hnew
  | refunds reference lines =>
      rcases deliver_refunds_cases db invoiceId reference lines with
        ⟨h1, hno⟩ | ⟨p, db1, hp, hl, hr, h1⟩
      · rw [h1]
        refine h.idle ?_
        rintro (h2 | ⟨ref, ls, q, h2, h3, h4, h5⟩)
        · exact .inl h2
        · rcases List.mem_append.mp h2 with h2 | h2
          · exact .inr ⟨ref, ls, q, h2, h3, h4, h5⟩
          · obtain ⟨rfl, rfl⟩ : ref = reference ∧ ls = lines := by simpa using h2
            obtain ⟨n, hn, -⟩ := h.payments
            rw [paymentOf_append hn, h4] at hno
            rcases hno with hno | hno
            · cases hno
            · exact absurd h3 hno
      · rw [h1]
        exact h.refund hp hl hr

/-- Whatever is delivered, and however often. -/
theorem deliverAll_delivered (invoiceId : Uuid) (db : BillingDb) (es : List GatewayEvent) :
    Delivered invoiceId db es (deliverAll invoiceId db es) := by
  induction es using List.reverseRecOn with
  | nil => exact delivered_nil invoiceId db
  | append_singleton es e ih =>
      rw [deliverAll, List.foldl_append]
      exact ih.step e

end Delivered

/-! ### The order of the deliveries -/

/-- Some delivery of the list is made when it is a `P`. -/
def SomeDelivery (P : BillingDb → GatewayEvent → Prop) (invoiceId : Uuid) :
    BillingDb → List GatewayEvent → Prop
  | _, [] => False
  | db, e :: es => P db e ∨ SomeDelivery P invoiceId (deliver invoiceId db e) es

/-- The payment is delivered when it is recorded already, or fits what is left to pay. -/
def PaysNow (invoiceId : Uuid) (reference : String) (amount : ℚ) (db : BillingDb)
    (e : GatewayEvent) : Prop :=
  e = .payment reference amount ∧ ∀ row ∈ db.invoices.find invoiceId, Recordable row amount →
    (paymentOf db reference).isSome ∨
      amount ≤ (row.total - row.amountPaid - row.amountCredited).toRat

/-- The refund is delivered when its payment is recorded. -/
def RefundsNow (reference : String) (l : RefundLine) (db : BillingDb) : GatewayEvent → Prop
  | .payment _ _ => False
  | .refunds ref lines =>
    ref = reference ∧ l ∈ lines ∧ AllPositive lines ∧ (paymentOf db reference).isSome

/-- The event has a delivery when it can be recorded.  A refund needs one only if its payment is
recorded in the end. -/
def Lands (invoiceId : Uuid) (db : BillingDb) (es : List GatewayEvent) : GatewayEvent → Prop
  | .payment reference amount => SomeDelivery (PaysNow invoiceId reference amount) invoiceId db es
  | .refunds reference lines => ∀ l ∈ lines, AllPositive lines →
      (paymentOf (deliverAll invoiceId db es) reference).isSome →
      SomeDelivery (RefundsNow reference l) invoiceId db es

def EachLands (invoiceId : Uuid) (db : BillingDb) (es : List GatewayEvent) : Prop :=
  ∀ e ∈ es, Lands invoiceId db es e

/-- A reference names one payment, and that of a refund one refund of one payment. -/
def GatewayEvent.Agrees : GatewayEvent → GatewayEvent → Prop
  | .payment r a, .payment r' a' => r = r' → a = a'
  | .refunds r ls, .refunds r' ls' =>
    ∀ l ∈ ls, ∀ l' ∈ ls', l.providerReference = l'.providerReference → r = r' ∧ l.amount = l'.amount
  | _, _ => True

instance (P : BillingDb → GatewayEvent → Prop) [∀ db e, Decidable (P db e)] (invoiceId : Uuid) :
    ∀ db es, Decidable (SomeDelivery P invoiceId db es)
  | _, [] => inferInstanceAs (Decidable False)
  | db, e :: es =>
    have := instDecidableSomeDelivery P invoiceId (deliver invoiceId db e) es
    inferInstanceAs (Decidable (_ ∨ _))

instance (row : Invoice) (amount : ℚ) : Decidable (Recordable row amount) :=
  inferInstanceAs (Decidable (_ ∧ _))

instance (lines : List RefundLine) : Decidable (AllPositive lines) :=
  inferInstanceAs (Decidable (∀ l ∈ lines, _))

instance (invoiceId : Uuid) (reference : String) (amount : ℚ) (db : BillingDb) (e : GatewayEvent) :
    Decidable (PaysNow invoiceId reference amount db e) :=
  inferInstanceAs (Decidable (_ ∧ ∀ row ∈ db.invoices.find invoiceId, _))

instance (reference : String) (l : RefundLine) (db : BillingDb) :
    ∀ e, Decidable (RefundsNow reference l db e)
  | .payment _ _ => inferInstanceAs (Decidable False)
  | .refunds _ _ => inferInstanceAs (Decidable (_ ∧ _))

instance (invoiceId : Uuid) (db : BillingDb) (es : List GatewayEvent) :
    ∀ e, Decidable (Lands invoiceId db es e)
  | .payment _ _ => inferInstanceAs (Decidable (SomeDelivery _ _ _ _))
  | .refunds _ lines => inferInstanceAs (Decidable (∀ l ∈ lines, _))

instance (invoiceId : Uuid) (db : BillingDb) (es : List GatewayEvent) :
    Decidable (EachLands invoiceId db es) :=
  inferInstanceAs (Decidable (∀ e ∈ es, _))

instance : ∀ e e', Decidable (GatewayEvent.Agrees e e')
  | .payment _ _, .payment _ _ => inferInstanceAs (Decidable (_ → _))
  | .refunds _ ls, .refunds _ _ => inferInstanceAs (Decidable (∀ l ∈ ls, _))
  | .payment _ _, .refunds _ _ => inferInstanceAs (Decidable True)
  | .refunds _ _, .payment _ _ => inferInstanceAs (Decidable True)

/-- The row without its id. -/
def Payment.unnumbered (p : Payment) : Payment := { p with id := 0 }

/-- The row without its id, with the payment it refunds. -/
def PaymentRefund.unnumbered (db : BillingDb) (r : PaymentRefund) :
    Option Payment × PaymentRefund :=
  ((db.payments.find r.paymentId).map Payment.unnumbered, { r with id := 0, paymentId := 0 })

/-- The same payments and refunds are recorded in `db` as in `db'`, and the invoice has the same
row: its `amount_paid` and `balance_due` among the columns. -/
structure SameRecords (invoiceId : Uuid) (db0 db db' : BillingDb) : Prop where
  payments : (db.payments.rows.map Payment.unnumbered).Perm
    (db'.payments.rows.map Payment.unnumbered)
  refunds : ∃ m m', db.refunds.rows = db0.refunds.rows ++ m ∧
    db'.refunds.rows = db0.refunds.rows ++ m' ∧
    (m.map (PaymentRefund.unnumbered db)).Perm (m'.map (PaymentRefund.unnumbered db'))
  row : db.invoices.find invoiceId = db'.invoices.find invoiceId

section Landing

variable {db0 : BillingDb} {invoiceId : Uuid} {es es' : List GatewayEvent}

theorem SomeDelivery.exists_split {P : BillingDb → GatewayEvent → Prop} {db : BillingDb}
    (h : SomeDelivery P invoiceId db es) :
    ∃ es1 e es2, es = es1 ++ e :: es2 ∧ P (deliverAll invoiceId db es1) e := by
  induction es generalizing db with
  | nil => exact h.elim
  | cons e es ih =>
      rcases h with h | h
      · exact ⟨[], e, es, rfl, h⟩
      · obtain ⟨es1, e', es2, rfl, h1⟩ := ih h
        exact ⟨e :: es1, e', es2, rfl, h1⟩

theorem deliverAll_split (invoiceId : Uuid) (db : BillingDb) (es1 : List GatewayEvent)
    (e : GatewayEvent) (es2 : List GatewayEvent) :
    deliverAll invoiceId db (es1 ++ e :: es2) =
      deliverAll invoiceId (deliver invoiceId (deliverAll invoiceId db es1) e) es2 := by
  rw [deliverAll, List.foldl_append]
  rfl

/-- A payment that lands is recorded in the end. -/
theorem EachLands.payment (h : EachLands invoiceId db0 es) {reference : String} {amount : ℚ}
    (he : .payment reference amount ∈ es) {row0 : Invoice}
    (hrow0 : db0.invoices.find invoiceId = some row0) (hr : Recordable row0 amount) :
    ∃ p, paymentOf (deliverAll invoiceId db0 es) reference = some p := by
  obtain ⟨es1, e, es2, rfl, rfl, h1⟩ := SomeDelivery.exists_split (h _ he)
  have hd := deliverAll_delivered invoiceId db0 es1
  rw [deliverAll_split]
  generalize deliverAll invoiceId db0 es1 = db at h1 hd ⊢
  cases hp : paymentOf db reference with
  | some p => exact ⟨p, paymentOf_deliverAll hp (.payment reference amount :: es2)⟩
  | none =>
      cases hrow : db.invoices.find invoiceId with
      | none =>
          rw [hd.no_row hrow] at hrow0
          cases hrow0
      | some row =>
          have hr' := (hd.recordable hrow hrow0 amount).1.mpr hr
          have hle := (h1 row hrow hr').resolve_left (by simp [hp])
          rw [deliver_payment hrow hr' hle hp]
          obtain ⟨p, hp'⟩ : ∃ p, paymentOf (withPayment db invoiceId row reference amount)
              reference = some p := by
            rw [paymentOf_append (withPayment_rows db invoiceId row reference amount), hp]
            simp
          exact ⟨p, paymentOf_deliverAll hp' es2⟩

/-- A refund that lands is recorded in the end. -/
theorem EachLands.refund (h : EachLands invoiceId db0 es) {reference : String}
    {lines : List RefundLine} (he : .refunds reference lines ∈ es) {l : RefundLine} (hl : l ∈ lines)
    (hpos : AllPositive lines) {p : Payment}
    (hp : paymentOf (deliverAll invoiceId db0 es) reference = some p) :
    refundTaken (deliverAll invoiceId db0 es) l.providerReference = true := by
  have h0 := h _ he l hl hpos (by rw [hp]; rfl)
  obtain ⟨es1, e, es2, rfl, h1⟩ := h0.exists_split
  rw [deliverAll_split]
  cases e with
  | payment _ _ => exact h1.elim
  | refunds ref ls =>
      obtain ⟨rfl, h2, h3, h4⟩ := h1
      obtain ⟨q, hq⟩ := Option.isSome_iff_exists.mp h4
      obtain ⟨db1, h5, h6⟩ := deliver_refunds invoiceId hq h3
      refine refundTaken_deliverAll ?_ es2
      rw [h6, refundTaken, (recomputeOf_payments db1 q.invoiceId).2.1]
      exact h5.taken l h2

/-- The rows of two payments with one reference. -/
theorem IsNewPayment.unnumbered_eq (hagree : ∀ e ∈ es', ∀ e' ∈ es', e.Agrees e')
    (hsub : ∀ e ∈ es, e ∈ es') {p p' : Payment} (h : IsNewPayment invoiceId db0 es p)
    (h' : IsNewPayment invoiceId db0 es' p')
    (hp : p.gatewayTransactionId = p'.gatewayTransactionId) : p.unnumbered = p'.unnumbered := by
  obtain ⟨row, ref, a, h1, -, h2, -, h3⟩ := h
  obtain ⟨row', ref', a', h1', -, h2', -, h3'⟩ := h'
  rw [h1, Option.some.injEq] at h1'
  subst h1'
  rw [h3, h3'] at hp
  obtain rfl : ref = ref' := by simpa using hp
  have ha : a = a' := hagree _ (hsub _ h2) _ h2' rfl
  subst ha
  rw [Payment.unnumbered, Payment.unnumbered, h3, h3']

/-- The payment of a reference is the same in both. -/
theorem paymentOf_same (hsub : ∀ e ∈ es, e ∈ es')
    (hagree : ∀ e ∈ es', ∀ e' ∈ es', e.Agrees e') (hl : EachLands invoiceId db0 es')
    {reference : String} {p : Payment}
    (hp : paymentOf (deliverAll invoiceId db0 es) reference = some p) :
    ∃ p', paymentOf (deliverAll invoiceId db0 es') reference = some p' ∧
      p.unnumbered = p'.unnumbered := by
  cases h0 : paymentOf db0 reference with
  | some q =>
      rw [paymentOf_deliverAll h0, Option.some.injEq] at hp
      subst hp
      exact ⟨q, paymentOf_deliverAll h0 es', rfl⟩
  | none =>
      obtain ⟨n, hn, -, hrows⟩ := (deliverAll_delivered invoiceId db0 es).payments
      obtain ⟨n', hn', -, hrows'⟩ := (deliverAll_delivered invoiceId db0 es').payments
      rw [paymentOf_append hn, h0, Option.none_or] at hp
      have hpn := hrows p (List.mem_of_find?_eq_some hp)
      have href : p.gatewayTransactionId = some reference := by simpa using List.find?_some hp
      obtain ⟨row, ref, a, h1, h2, h3, -, h4⟩ := id hpn
      obtain rfl : ref = reference := by
        rw [h4] at href
        simpa using href
      obtain ⟨p', hp'⟩ := hl.payment (hsub _ h3) h1 h2
      refine ⟨p', hp', ?_⟩
      have href' := (paymentOf_eq_some hp').2
      rw [paymentOf_append hn', h0, Option.none_or] at hp'
      exact hpn.unnumbered_eq hagree hsub (hrows' p' (List.mem_of_find?_eq_some hp'))
        (href.trans href'.symm)

/-- A payment that one list records, the other records. -/
theorem payment_mem (hsub : ∀ e ∈ es, e ∈ es')
    (hagree : ∀ e ∈ es', ∀ e' ∈ es', e.Agrees e') (hl : EachLands invoiceId db0 es')
    {n' : List Payment}
    (hn' : (deliverAll invoiceId db0 es').payments.rows = db0.payments.rows ++ n')
    (hrows' : ∀ p ∈ n', IsNewPayment invoiceId db0 es' p) {p : Payment}
    (hp : IsNewPayment invoiceId db0 es p) : p.unnumbered ∈ n'.map Payment.unnumbered := by
  obtain ⟨row, ref, a, h1, h2, h3, h4, h5⟩ := id hp
  obtain ⟨p', hp'⟩ := hl.payment (hsub _ h3) h1 h2
  have href' := (paymentOf_eq_some hp').2
  rw [paymentOf_append hn', h4, Option.none_or] at hp'
  have hmem := List.mem_of_find?_eq_some hp'
  have heq := hp.unnumbered_eq hagree hsub (hrows' p' hmem) (by rw [h5, href'])
  rw [heq]
  exact List.mem_map_of_mem hmem

/-- A refund that one list records, the other records. -/
theorem refund_mem (hsub : ∀ e ∈ es, e ∈ es')
    (hagree : ∀ e ∈ es', ∀ e' ∈ es', e.Agrees e') (hl : EachLands invoiceId db0 es')
    {m' : List PaymentRefund}
    (hm' : (deliverAll invoiceId db0 es').refunds.rows = db0.refunds.rows ++ m')
    (hrows' : ∀ r ∈ m', IsNewRefund db0 (deliverAll invoiceId db0 es') es' r) {r : PaymentRefund}
    (hr : IsNewRefund db0 (deliverAll invoiceId db0 es) es r) :
    r.unnumbered (deliverAll invoiceId db0 es) ∈
      m'.map (PaymentRefund.unnumbered (deliverAll invoiceId db0 es')) := by
  obtain ⟨hnew, ref, lines, l, p, h1, h2, h3, h4, h5⟩ := hr
  obtain ⟨p', hp', hpp⟩ := paymentOf_same hsub hagree hl h3
  -- The other list takes the reference, and what took it is the same refund.
  have htaken := hl.refund (hsub _ h1) h2 h4 hp'
  rw [refundTaken_append hm', show refundTaken db0 l.providerReference = false by
    rw [h5] at hnew; exact hnew, Bool.false_or, List.any_eq_true] at htaken
  obtain ⟨r', hr', href⟩ := htaken
  rw [decide_eq_true_eq] at href
  refine List.mem_map.mpr ⟨r', hr', ?_⟩
  obtain ⟨-, ref', lines', l', q, k1, k2, k3, -, k5⟩ := hrows' r' hr'
  have hll : l.providerReference = l'.providerReference := by
    rw [k5] at href
    exact href.symm
  obtain ⟨rfl, ha⟩ := hagree _ (hsub _ h1) _ k1 l h2 l' k2 hll
  rw [hp', Option.some.injEq] at k3
  subst k3
  have hinv : p.invoiceId = p'.invoiceId := by
    have h6 := congrArg Payment.invoiceId hpp
    exact h6
  have hf : (deliverAll invoiceId db0 es).payments.find p.id = some p :=
    Table.find_key (paymentOf_eq_some h3).1
  have hf' : (deliverAll invoiceId db0 es').payments.find p'.id = some p' :=
    Table.find_key (paymentOf_eq_some hp').1
  rw [PaymentRefund.unnumbered, PaymentRefund.unnumbered, h5, k5, hf, hf', Option.map_some,
    Option.map_some, hpp, hinv, ha, hll]

theorem nodup_unnumbered {n : List Payment} (h : (n.map Payment.gatewayTransactionId).Nodup) :
    (n.map Payment.unnumbered).Nodup := by
  refine List.Nodup.of_map Payment.gatewayTransactionId ?_
  rw [List.map_map]
  exact h

theorem nodup_unnumberedRefund {m : List PaymentRefund} (db : BillingDb)
    (h : (m.map PaymentRefund.providerReference).Nodup) :
    (m.map (PaymentRefund.unnumbered db)).Nodup := by
  refine List.Nodup.of_map (fun x => x.2.providerReference) ?_
  rw [List.map_map]
  exact h

/-- The same payments and refunds pay the same of an invoice. -/
theorem paidOn_eq_of_perm {db db' : BillingDb} {n n' : List Payment} {m m' : List PaymentRefund}
    (hn : db.payments.rows = db0.payments.rows ++ n)
    (hn' : db'.payments.rows = db0.payments.rows ++ n')
    (hm : db.refunds.rows = db0.refunds.rows ++ m)
    (hm' : db'.refunds.rows = db0.refunds.rows ++ m')
    (hp : (n.map Payment.unnumbered).Perm (n'.map Payment.unnumbered))
    (hr : (m.map (PaymentRefund.unnumbered db)).Perm (m'.map (PaymentRefund.unnumbered db')))
    (k : Uuid) : db.paidOn k = db'.paidOn k := by
  have h1 : db.paymentsOf k = db'.paymentsOf k := by
    have h := (hp.map fun p => if p.invoiceId = some k then p.amount else 0).sum_eq
    rw [List.map_map, List.map_map] at h
    unfold BillingDb.paymentsOf Table.sum
    rw [hn, hn', List.map_append, List.map_append, List.sum_append, List.sum_append]
    exact congrArg _ h
  have h2 : db.refundsOf k = db'.refundsOf k := by
    have h := (hr.map fun x => if x.2.invoiceId = some k then x.2.amount else 0).sum_eq
    rw [List.map_map, List.map_map] at h
    unfold BillingDb.refundsOf Table.sum
    rw [hm, hm', List.map_append, List.map_append, List.sum_append, List.sum_append]
    exact congrArg _ h
  rw [BillingDb.paidOn, BillingDb.paidOn, h1, h2]

theorem touched_congr {db db' : BillingDb} {n n' : List Payment}
    (hn : db.payments.rows = db0.payments.rows ++ n)
    (hn' : db'.payments.rows = db0.payments.rows ++ n')
    (hp : (n.map Payment.unnumbered).Perm (n'.map Payment.unnumbered))
    (hsame : ∀ e, e ∈ es ↔ e ∈ es') :
    Touched invoiceId db0 es db ↔ Touched invoiceId db0 es' db' := by
  have hlen : n = [] ↔ n' = [] := by
    have h := hp.length_eq
    rw [List.length_map, List.length_map] at h
    rw [← List.length_eq_zero_iff, ← List.length_eq_zero_iff, h]
  simp only [Touched, hn, hn', hsame, ne_eq, List.append_right_eq_self, hlen]

end Landing

/-- Two lists of deliveries of the same events, each of which delivers every event at least once when
it can be recorded, end with the same records. -/
theorem deliveries_commute (invoiceId : Uuid) (db : BillingDb) {es es' : List GatewayEvent}
    (hsame : ∀ e, e ∈ es ↔ e ∈ es') (hagree : ∀ e ∈ es, ∀ e' ∈ es, e.Agrees e')
    (hl : EachLands invoiceId db es) (hl' : EachLands invoiceId db es') :
    SameRecords invoiceId db (deliverAll invoiceId db es) (deliverAll invoiceId db es') := by
  have hagree' : ∀ e ∈ es', ∀ e' ∈ es', e.Agrees e' := fun e he e' he' =>
    hagree e ((hsame e).mpr he) e' ((hsame e').mpr he')
  have hd := deliverAll_delivered invoiceId db es
  have hd' := deliverAll_delivered invoiceId db es'
  obtain ⟨n, hn, hnd, hrows⟩ := hd.payments
  obtain ⟨n', hn', hnd', hrows'⟩ := hd'.payments
  obtain ⟨m, hm, hmd, hmrows⟩ := hd.refunds
  obtain ⟨m', hm', hmd', hmrows'⟩ := hd'.refunds
  have hpay : (n.map Payment.unnumbered).Perm (n'.map Payment.unnumbered) := by
    rw [List.perm_ext_iff_of_nodup (nodup_unnumbered hnd) (nodup_unnumbered hnd')]
    refine fun x => ⟨fun hx => ?_, fun hx => ?_⟩
    · obtain ⟨p, hp, rfl⟩ := List.mem_map.mp hx
      exact payment_mem (fun e => (hsame e).mp) hagree' hl' hn' hrows' (hrows p hp)
    · obtain ⟨p, hp, rfl⟩ := List.mem_map.mp hx
      exact payment_mem (fun e => (hsame e).mpr) hagree hl hn hrows (hrows' p hp)
  have href : (m.map (PaymentRefund.unnumbered (deliverAll invoiceId db es))).Perm
      (m'.map (PaymentRefund.unnumbered (deliverAll invoiceId db es'))) := by
    rw [List.perm_ext_iff_of_nodup (nodup_unnumberedRefund _ hmd) (nodup_unnumberedRefund _ hmd')]
    refine fun x => ⟨fun hx => ?_, fun hx => ?_⟩
    · obtain ⟨r, hr, rfl⟩ := List.mem_map.mp hx
      exact refund_mem (fun e => (hsame e).mp) hagree' hl' hm' hmrows' (hmrows r hr)
    · obtain ⟨r, hr, rfl⟩ := List.mem_map.mp hx
      exact refund_mem (fun e => (hsame e).mpr) hagree hl hm hmrows (hmrows' r hr)
  refine ⟨?_, ⟨m, m', hm, hm', href⟩, ?_⟩
  · rw [hn, hn', List.map_append, List.map_append]
    exact hpay.append_left _
  · -- The row is recomputed by both or by neither, and from the same sums.
    have htouched : Touched invoiceId db es (deliverAll invoiceId db es) ↔
        Touched invoiceId db es' (deliverAll invoiceId db es') := touched_congr hn hn' hpay hsame
    have hcr : (deliverAll invoiceId db es).creditsOf invoiceId =
        (deliverAll invoiceId db es').creditsOf invoiceId := by
      rw [BillingDb.creditsOf, BillingDb.creditsOf, hd.credits, hd'.credits]
    rcases hd.row with ⟨h1, h2⟩ | ⟨h1, h2⟩ <;> rcases hd'.row with ⟨h3, h4⟩ | ⟨h3, h4⟩
    · exact h2.trans h4.symm
    · exact absurd (htouched.mpr h3) h1
    · exact absurd (htouched.mp h1) h3
    · rw [h2, h4, paidOn_eq_of_perm hn hn' hm hm' hpay href, hcr]

namespace Billing

/-- 40 are paid on an invoice of 100 and 10 of them refunded.  The refund is lost if it arrives
first. -/
theorem deliveries_depend_on_order :
    ∃ s, run step (init (sampleTimeDb ⟨∅, ∅⟩) ∅ [] []) (sampleInvoice ++
        [.startUpdate 0 { status := some .sent }, .commit 0 (.ok ())]) = some s ∧
      ∃ es es' : List GatewayEvent, es.Perm es' ∧ (∀ e ∈ es, ∀ e' ∈ es, e.Agrees e') ∧
        ¬ SameRecords 0 s.db (deliverAll 0 s.db es) (deliverAll 0 s.db es') ∧
        ((deliverAll 0 s.db es).invoices.find 0).map Invoice.amountPaid = some ⟨3000⟩ ∧
        ((deliverAll 0 s.db es').invoices.find 0).map Invoice.amountPaid = some ⟨4000⟩ := by
  have h : (run step (init (sampleTimeDb ⟨∅, ∅⟩) ∅ [] []) (sampleInvoice ++
      [.startUpdate 0 { status := some .sent }, .commit 0 (.ok ())])).any (fun s =>
      decide (((deliverAll 0 s.db [.payment "pi_1" 40, .refunds "pi_1" [⟨"re_1", 10⟩]]).invoices.find
          0).map Invoice.amountPaid = some ⟨3000⟩) &&
        decide (((deliverAll 0 s.db [.refunds "pi_1" [⟨"re_1", 10⟩], .payment "pi_1" 40]).invoices.find
          0).map Invoice.amountPaid = some ⟨4000⟩)) = true := by decide +kernel
  obtain ⟨s, hs, hp⟩ := exists_run_of_any h
  rw [Bool.and_eq_true, decide_eq_true_iff, decide_eq_true_iff] at hp
  refine ⟨s, hs, _, _, List.Perm.swap _ _ _, by decide +kernel, fun hsame => ?_, hp.1, hp.2⟩
  have h1 := congrArg (Option.map Invoice.amountPaid) hsame.row
  rw [hp.1, hp.2] at h1
  exact absurd h1 (by decide)

/-- The same events, with the payment delivered twice and the refund both before it and after. -/
theorem deliveries_commute_sample :
    ∃ s, run step (init (sampleTimeDb ⟨∅, ∅⟩) ∅ [] []) (sampleInvoice ++
        [.startUpdate 0 { status := some .sent }, .commit 0 (.ok ())]) = some s ∧
      SameRecords 0 s.db (deliverAll 0 s.db [.payment "pi_1" 40, .refunds "pi_1" [⟨"re_1", 10⟩]])
        (deliverAll 0 s.db [.refunds "pi_1" [⟨"re_1", 10⟩], .payment "pi_1" 40,
          .payment "pi_1" 40, .refunds "pi_1" [⟨"re_1", 10⟩]]) := by
  have h : (run step (init (sampleTimeDb ⟨∅, ∅⟩) ∅ [] []) (sampleInvoice ++
      [.startUpdate 0 { status := some .sent }, .commit 0 (.ok ())])).any (fun s =>
      decide (EachLands 0 s.db [.payment "pi_1" 40, .refunds "pi_1" [⟨"re_1", 10⟩]]) &&
        decide (EachLands 0 s.db [.refunds "pi_1" [⟨"re_1", 10⟩], .payment "pi_1" 40,
          .payment "pi_1" 40, .refunds "pi_1" [⟨"re_1", 10⟩]])) = true := by decide +kernel
  obtain ⟨s, hs, hp⟩ := exists_run_of_any h
  rw [Bool.and_eq_true, decide_eq_true_iff, decide_eq_true_iff] at hp
  refine ⟨s, hs, deliveries_commute 0 s.db ?_ ?_ hp.1 hp.2⟩
  · intro e
    simp only [List.mem_cons, List.not_mem_nil, or_false]
    tauto
  · decide +kernel

end Billing

end Mokosh
