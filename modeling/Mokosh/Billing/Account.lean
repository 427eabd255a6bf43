import Mokosh.Billing.Statement

/-! # What an account comes to

A statement adds up dated rows and reads no balance; the invoices keep balances and no dates.  The
two agree when every posting of an account is counted, invoice by invoice (`through_accountOf`):

* the rows of a company are those on its invoices, because no payment and no credit note is on an
  invoice of another company (`SameCompany`), and the payments that are applied to none;
* an invoice with the rows on it comes to what is due on it (`Reckoned.net_eq`), if its write-off,
  should there be one, is what is due and what was recovered (`Reckoned`).

The first holds in every state of the machine of billing (`Billing.step_sameCompany`).  The second
does not, and `Books` is about the runs in which it does. -/

namespace Mokosh

/-! ### What is due, by the invoices -/

section Owed

variable (db : BillingDb) (companyId : Uuid)

/-- What is due on an invoice that is issued, `0` on one that is written off. -/
def Invoice.owed (i : Invoice) : Numeric 2 :=
  if statementIssuedInvoice i = true ∧ i.status ≠ .writtenOff then i.balanceDue else 0

/-- What a company owes by its invoices. -/
def owedBy : Numeric 2 := db.invoices.sum fun i => if i.companyId = companyId then i.owed else 0

/-- What a company has paid and not applied to an invoice, less what was refunded of it. -/
def unappliedBy : Numeric 2 :=
  db.payments.sum (fun p => if p.invoiceId = none ∧ p.companyId = companyId then p.amount else 0) -
    db.refunds.sum fun r =>
      if r.invoiceId = none ∧ r.refundedTo db companyId = true then r.amount else 0

/-- The payments on an invoice that are dated on or after the day of its write-off. -/
def recoveredOn (dates : StatementDates) (invoiceId : Uuid) : Numeric 2 :=
  db.payments.sum fun p => if p.invoiceId = some invoiceId ∧
    (dates.writtenOffAt invoiceId).date ≤ dates.paymentDate p.id then p.amount else 0

end Owed

/-- A payment and a credit note are of the company of their invoice. -/
structure SameCompany (db : BillingDb) : Prop where
  payment : ∀ p ∈ db.payments, ∀ i ∈ db.invoices, p.invoiceId = some i.id →
    p.companyId = i.companyId
  credit : ∀ n ∈ db.creditNotes, ∀ i ∈ db.invoices, n.invoiceId = i.id → n.companyId = i.companyId

/-- The marks of an invoice show in its status, and what is void has nothing paid or credited. -/
structure MarksShow (i : Invoice) : Prop where
  writtenOff : i.writtenOffAt = true ↔ i.status = .writtenOff
  void : i.voidedAt = true ↔ i.status = .void
  settled : i.status = .void → i.amountPaid + i.amountCredited = 0

/-- The row of an invoice whose write-off agrees with what is recovered of it. -/
def Reckoned (db : BillingDb) (dates : StatementDates) (i : Invoice) : Prop :=
  MarksShow i ∧ (i.writtenOffAt = true →
    i.writeOffAmount.getD 0 = i.balanceDue + recoveredOn db dates i.id)

def Reconciled (db : BillingDb) (dates : StatementDates) : Prop :=
  ∀ i ∈ db.invoices, Reckoned db dates i

section Regroup

variable {db : BillingDb} {dates : StatementDates} {companyId : Uuid}

theorem sumOf_filter {α : Type} {key : α → ℕ} (t : Table key) (cond : α → Bool)
    (column : α → Numeric 2) :
    sumOf column (t.rows.filter cond) = t.sum fun r => if cond r then column r else 0 :=
  t.sum_filter cond column

theorem Linked.payment_mem (h : Linked db) : ∀ p ∈ db.payments, ∀ k, p.invoiceId = some k →
    ∃ i ∈ db.invoices, i.id = k := by
  intro p hp k hk
  obtain ⟨i, hi, -⟩ := h.payment p hp k hk
  exact ⟨i, Table.find_mem hi, Table.key_of_find hi⟩

theorem Linked.refund_mem (h : Linked db) : ∀ r ∈ db.refunds, ∀ k, r.invoiceId = some k →
    ∃ i ∈ db.invoices, i.id = k := by
  intro r hr k hk
  obtain ⟨p, hp, -, hpr⟩ := h.refund r hr
  exact h.payment_mem p hp k (hpr.trans hk)

theorem Linked.credit_mem (h : Linked db) : ∀ n ∈ db.creditNotes, ∀ k, some n.invoiceId = some k →
    ∃ i ∈ db.invoices, i.id = k := by
  intro n hn k hk
  cases hk
  obtain ⟨i, hi, -⟩ := h.credit n hn
  exact ⟨i, Table.find_mem hi, Table.key_of_find hi⟩

/-- The child rows of a company, by the invoice they are on.  Which of them count for the company
depends on the company of the invoice, and on `own`. -/
theorem sum_by_invoice {β : Type} {key : β → ℕ} (companyId : Uuid) (u : Table key) (ref : β → Option Uuid)
    (amount : β → Numeric 2) (cond : β → Bool) (own : Invoice → β → Prop)
    [∀ i c, Decidable (own i c)]
    (hmem : ∀ c ∈ u, ∀ k, ref c = some k → ∃ i ∈ db.invoices, i.id = k)
    (hcond : ∀ c ∈ u, ∀ i ∈ db.invoices, ref c = some i.id →
      (cond c = true ↔ i.companyId = companyId ∧ own i c)) :
    (u.sum fun c => if cond c then amount c else 0) =
      db.invoices.sum (fun i => if i.companyId = companyId then
        u.sum fun c => if ref c = some i.id ∧ own i c then amount c else 0 else 0) +
      u.sum fun c => if ref c = none ∧ cond c = true then amount c else 0 := by
  rw [db.invoices.sum_by u ref hmem]
  refine congrArg₂ (· + ·) (Table.sum_congr fun i hi => ?_) (Table.sum_congr fun c _ => ?_)
  · by_cases hi' : i.companyId = companyId
    · rw [if_pos hi']
      refine Table.sum_congr fun c hc => ?_
      by_cases hr : ref c = some i.id
      · simp only [hr, true_and, if_true, hcond c hc i hi hr, hi']
      · simp [hr]
    · rw [if_neg hi']
      refine Table.sum_eq_zero fun c hc => ?_
      by_cases hr : ref c = some i.id
      · simp only [hr, if_true, hcond c hc i hi hr, hi', false_and, if_false]
      · simp [hr]
  · by_cases hr : ref c = none <;> simp [hr]

/-- What an invoice adds to the account of its company, with the rows that are on it. -/
def Invoice.net (db : BillingDb) (dates : StatementDates) (i : Invoice) : Numeric 2 :=
  (if statementIssuedInvoice i then i.total else 0) + db.refundsOf i.id +
    (if i.writtenOffAt then recoveredOn db dates i.id else 0) - db.paymentsOf i.id -
    db.creditsOf i.id - if i.writtenOffAt then i.writeOffAmount.getD 0 else 0

/-- An invoice adds to the account what is due on it. -/
theorem Reckoned.net_eq {i : Invoice} (h : Reckoned db dates i) (hs : Squared db i)
    (hu : i.status.isFrozen = false → db.paidOn i.id = 0 ∧ db.creditsOf i.id = 0) :
    i.net db dates = i.owed := by
  obtain ⟨hpaid, hcredited, hdue⟩ := hs
  have hnet : i.net db dates = (if statementIssuedInvoice i then i.total else 0) -
      db.paidOn i.id - db.creditsOf i.id + (if i.writtenOffAt then recoveredOn db dates i.id else 0) -
      if i.writtenOffAt then i.writeOffAmount.getD 0 else 0 := by
    unfold Invoice.net BillingDb.paidOn
    abel
  rw [hnet]
  by_cases hw : i.status = .writtenOff
  · -- The write-off takes off what was due, and the recoveries are added back.
    have hw' := h.1.writtenOff.mpr hw
    have h1 := h.2 hw'
    rw [hdue (by simp [hw])] at h1
    simp only [Invoice.owed, statementIssuedInvoice, hw, hw', h1, ← hpaid, ← hcredited]
    simp
  · have hw' : i.writtenOffAt = false := by simpa using fun h1 => hw (h.1.writtenOff.mp h1)
    cases hst : i.status with
    | draft | pending =>
        obtain ⟨h1, h2⟩ := hu (by rw [hst]; rfl)
        simp [Invoice.owed, statementIssuedInvoice, hst, hw', h1, h2]
    | void =>
        have h1 := h.1.settled hst
        rw [hpaid, hcredited] at h1
        have h2 : 0 - db.paidOn i.id - db.creditsOf i.id = 0 := by rw [sub_sub, h1, sub_zero]
        simpa [Invoice.owed, statementIssuedInvoice, hst, hw'] using h2
    | writtenOff => exact absurd hst hw
    | sent | paid | partiallyPaid =>
        have h1 := hdue (by simp [hst])
        rw [hpaid, hcredited] at h1
        simp [Invoice.owed, statementIssuedInvoice, hst, hw', h1]

theorem payments_by_invoice (hl : Linked db) (hc : SameCompany db) :
    (db.payments.sum fun p => if p.paidBy companyId then p.amount else 0) =
      db.invoices.sum (fun i => if i.companyId = companyId then db.paymentsOf i.id else 0) +
        db.payments.sum fun p =>
          if p.invoiceId = none ∧ p.companyId = companyId then p.amount else 0 := by
  have h := sum_by_invoice companyId db.payments Payment.invoiceId Payment.amount
    (Payment.paidBy companyId) (fun _ _ => True) hl.payment_mem (fun p hp i hi hpi => by
      rw [Payment.paidBy, decide_eq_true_eq, hc.payment p hp i hi hpi, and_true])
  simpa [Payment.paidBy, BillingDb.paymentsOf] using h

/-- A refund counts for the company of its payment, which is the one of its invoice. -/
theorem refunds_by_invoice (hl : Linked db) (hc : SameCompany db) :
    (db.refunds.sum fun r => if r.refundedTo db companyId then r.amount else 0) =
      db.invoices.sum (fun i => if i.companyId = companyId then db.refundsOf i.id else 0) +
        db.refunds.sum fun r =>
          if r.invoiceId = none ∧ r.refundedTo db companyId = true then r.amount else 0 := by
  have h := sum_by_invoice companyId db.refunds PaymentRefund.invoiceId PaymentRefund.amount
    (PaymentRefund.refundedTo db companyId) (fun _ _ => True) hl.refund_mem
    (fun r hr i hi hri => by
      obtain ⟨p, hp, hpk, hpi⟩ := hl.refund r hr
      have hf : db.payments.find r.paymentId = some p := by
        rw [← hpk]
        exact Table.find_key hp
      rw [PaymentRefund.refundedTo, hf, Option.any_some, Payment.paidBy, decide_eq_true_eq,
        hc.payment p hp i hi (hpi.trans hri), and_true])
  simpa [BillingDb.refundsOf] using h

theorem credits_by_invoice (hl : Linked db) (hc : SameCompany db) :
    (db.creditNotes.sum fun n => if n.creditedTo companyId then n.total else 0) =
      db.invoices.sum fun i => if i.companyId = companyId then db.creditsOf i.id else 0 := by
  have h := sum_by_invoice companyId db.creditNotes (fun n => some n.invoiceId) CreditNote.total
    (CreditNote.creditedTo companyId) (fun _ n => n.status = .issued) hl.credit_mem
    (fun n hn i hi hni => by
      rw [CreditNote.creditedTo, decide_eq_true_eq, hc.credit n hn i hi (by simpa using hni)])
  simpa [BillingDb.creditsOf, Table.sum_eq_zero] using h

theorem recoveries_by_invoice (hl : Linked db) (hc : SameCompany db) :
    (db.payments.sum fun p => if p.paidBy companyId && p.recovers db dates then p.amount else 0) =
      db.invoices.sum fun i => if i.companyId = companyId then
        if i.writtenOffAt then recoveredOn db dates i.id else 0 else 0 := by
  have h := sum_by_invoice companyId db.payments Payment.invoiceId Payment.amount
    (fun p => p.paidBy companyId && p.recovers db dates)
    (fun i p => i.writtenOffAt = true ∧ dates.writeOffDate i ≤ dates.paymentDate p.id)
    hl.payment_mem (fun p hp i hi hpi => by
      rw [Bool.and_eq_true, Payment.paidBy, decide_eq_true_eq, hc.payment p hp i hi hpi,
        Payment.recovers, hpi, Option.bind_some, Table.find_key hi, Option.any_some,
        Bool.and_eq_true, decide_eq_true_eq])
  rw [h, Table.sum_eq_zero (t := db.payments), add_zero]
  · refine Table.sum_congr fun i _ => ?_
    by_cases hw : i.writtenOffAt = true
    · simp only [hw, true_and, if_true]
      rfl
    · simp [hw, Table.sum_eq_zero]
  · rintro p -
    rw [if_neg]
    rintro ⟨hp, h1⟩
    simp [Payment.recovers, hp] at h1

/-- The parts of what the invoices add up to. -/
theorem sum_net (db : BillingDb) (dates : StatementDates) (companyId : Uuid) :
    (db.invoices.sum fun i => if i.companyId = companyId then i.net db dates else 0) =
      (db.invoices.sum fun i => if i.chargedTo companyId then i.total else 0) +
        (db.invoices.sum fun i => if i.companyId = companyId then db.refundsOf i.id else 0) +
        (db.invoices.sum fun i => if i.companyId = companyId then
          if i.writtenOffAt then recoveredOn db dates i.id else 0 else 0) -
        (db.invoices.sum fun i => if i.companyId = companyId then db.paymentsOf i.id else 0) -
        (db.invoices.sum fun i => if i.companyId = companyId then db.creditsOf i.id else 0) -
        db.invoices.sum fun i => if i.writtenOffFor companyId then i.writeOffAmount.getD 0 else 0
        := by
  rw [eq_sub_iff_add_eq, eq_sub_iff_add_eq, eq_sub_iff_add_eq, ← Table.sum_add, ← Table.sum_add,
    ← Table.sum_add, ← Table.sum_add, ← Table.sum_add]
  refine Table.sum_congr fun i _ => ?_
  by_cases hi : i.companyId = companyId
  · simp only [Invoice.chargedTo, Invoice.writtenOffFor, hi, decide_true, Bool.true_and, if_true,
      Invoice.net]
    abel
  · simp [Invoice.chargedTo, Invoice.writtenOffFor, hi]

/-- What an account comes to, by the invoices: what is due on them, less the payments that are not
applied to one. -/
theorem through_accountOf (hb : Balanced db) (hc : SameCompany db) (hr : Reconciled db dates)
    {d : NaiveDate} (hd : ∀ x ∈ accountOf db dates companyId, x.1 ≤ d) :
    (accountOf db dates companyId).through d = owedBy db companyId - unappliedBy db companyId := by
  have hall : (accountOf db dates companyId).through d =
      Journal.posted (fun _ => true) (accountOf db dates companyId) :=
    Journal.posted_congr fun x hx => decide_eq_true (hd x hx)
  have hnet : owedBy db companyId =
      db.invoices.sum fun i => if i.companyId = companyId then i.net db dates else 0 := by
    refine Table.sum_congr fun i hi => ?_
    rw [(hr i hi).net_eq (hb.squared i hi)]
    exact fun hf => (hb.unissued (Table.find_key hi) hf).2.2
  rw [hall, posted_accountOf]
  simp only [Bool.and_true, sumOf_filter]
  rw [payments_by_invoice hb.toLinked hc, refunds_by_invoice hb.toLinked hc,
    credits_by_invoice hb.toLinked hc, recoveries_by_invoice hb.toLinked hc, hnet,
    sum_net, unappliedBy]
  abel

end Regroup

/-! ### The company of the rows -/

section Company

variable {db db' : BillingDb}

/-- No payment and no credit note is on the invoice. -/
def Unreferenced (db : BillingDb) (invoiceId : Uuid) : Prop :=
  (∀ p ∈ db.payments, p.invoiceId ≠ some invoiceId) ∧
    ∀ n ∈ db.creditNotes, n.invoiceId ≠ invoiceId

theorem Linked.unreferenced (hl : Linked db) {k : Uuid} (h : ¬ Issued db.invoices k) :
    Unreferenced db k := by
  refine ⟨fun p hp hk => h (hl.payment p hp k hk), fun n hn hk => h ?_⟩
  rw [← hk]
  exact hl.credit n hn

theorem Linked.unreferenced_of_find (hl : Linked db) {k : Uuid} {row : Invoice}
    (hrow : db.invoices.find k = some row) (hf : row.status.isFrozen = false) :
    Unreferenced db k := by
  refine hl.unreferenced ?_
  rintro ⟨r, hr, hz⟩
  rw [hrow, Option.some.injEq] at hr
  rw [← hr, hf] at hz
  exact absurd hz (by simp)

/-- A header keeps its company, or nothing is on the invoice. -/
theorem SameCompany.header (h : SameCompany db) (hm : SameMoney db db')
    (hi : ∀ i ∈ db'.invoices, Unreferenced db i.id ∨
      ∃ j ∈ db.invoices, j.id = i.id ∧ j.companyId = i.companyId) : SameCompany db' := by
  constructor
  · intro p hp i hi' hpi
    rw [hm.1] at hp
    rcases hi i hi' with hn | ⟨j, hj, hji, hjc⟩
    · exact absurd hpi (hn.1 p hp)
    · rw [← hjc]
      exact h.payment p hp j hj (hpi.trans (congrArg some hji.symm))
  · intro n hn i hi' hni
    rw [hm.2.2] at hn
    rcases hi i hi' with hu | ⟨j, hj, hji, hjc⟩
    · exact absurd hni (hu.2 n hn)
    · rw [← hjc]
      exact h.credit n hn j hj (hni.trans hji.symm)

theorem SameCompany.insert (h : SameCompany db) (hl : Linked db) {mk : ℕ → Invoice}
    {hk : ∀ i, (mk i).id = i} (hi : db'.invoices = db.invoices.insert mk hk)
    (hm : SameMoney db db') : SameCompany db' := by
  refine h.header hm fun i him => ?_
  rw [hi] at him
  rcases (Table.mem_insert).mp him with him | rfl
  · exact .inr ⟨i, him, rfl, rfl⟩
  · refine .inl (hl.unreferenced fun hiss => ?_)
    have hlt := hiss.lt_next
    rw [hk] at hlt
    exact absurd hlt (lt_irrefl _)

theorem SameCompany.update (h : SameCompany db) {k : Uuid} {f : Invoice → Invoice}
    (hf : ∀ r, (f r).id = r.id) (hi : db'.invoices = db.invoices.update k f hf)
    (hm : SameMoney db db')
    (hc : Unreferenced db k ∨ ∀ r, (f r).companyId = r.companyId) : SameCompany db' := by
  refine h.header hm fun i him => ?_
  rw [hi] at him
  obtain ⟨j, hj, rfl⟩ := (Table.mem_update).mp him
  split
  · next hk =>
    rw [hf, hk]
    exact hc.imp_right fun hz => ⟨j, hj, hk, (hz j).symm⟩
  · exact .inr ⟨j, hj, rfl, rfl⟩

/-- Money moves on the invoice of a company. -/
theorem SameCompany.recomputeOf (h : SameCompany db) {db1 : BillingDb}
    (hi : db1.invoices = db.invoices) (o : Option Uuid)
    (hp : ∀ p ∈ db1.payments, p ∈ db.payments ∨
      ∀ i ∈ db.invoices, p.invoiceId = some i.id → p.companyId = i.companyId)
    (hn : ∀ n ∈ db1.creditNotes,
      (∃ m ∈ db.creditNotes, m.invoiceId = n.invoiceId ∧ m.companyId = n.companyId) ∨
      ∀ i ∈ db.invoices, n.invoiceId = i.id → n.companyId = i.companyId) :
    SameCompany (Mokosh.recomputeOf db1 o) := by
  have hold : ∀ i ∈ (Mokosh.recomputeOf db1 o).invoices,
      ∃ j ∈ db.invoices, j.id = i.id ∧ j.companyId = i.companyId := by
    intro i hm
    cases o with
    | none =>
        have hm' : i ∈ db1.invoices := hm
        rw [hi] at hm'
        exact ⟨i, hm', rfl, rfl⟩
    | some k =>
        rw [recomputeOf_invoices hi] at hm
        obtain ⟨j, hj, rfl⟩ := (Table.mem_update).mp hm
        refine ⟨j, hj, ?_⟩
        split <;> exact ⟨rfl, rfl⟩
  have hpay : (Mokosh.recomputeOf db1 o).payments = db1.payments := by cases o <;> rfl
  have hcred : (Mokosh.recomputeOf db1 o).creditNotes = db1.creditNotes := by cases o <;> rfl
  constructor
  · intro p hpm i him hpi
    obtain ⟨j, hj, hji, hjc⟩ := hold i him
    rw [hpay] at hpm
    rw [← hji] at hpi
    rw [← hjc]
    exact (hp p hpm).elim (fun h1 => h.payment p h1 j hj hpi) fun h1 => h1 j hj hpi
  · intro n hnm i him hni
    obtain ⟨j, hj, hji, hjc⟩ := hold i him
    rw [hcred] at hnm
    rw [← hji] at hni
    rw [← hjc]
    rcases hn n hnm with ⟨m, hm, hmi, hmc⟩ | h1
    · rw [← hmc]
      exact h.credit m hm j hj (hmi.trans hni)
    · exact h1 j hj hni

end Company

namespace Billing

/-- No transaction takes money to an invoice of another company, or an invoice with money on it to
another company. -/
theorem step_sameCompany {s s' : Billing} {e : BillingEvent} (h : SameCompany s.db) (hs : s.Sound)
    (hstep : step s e = some s') : SameCompany s'.db := by
  have hl := hs.balanced.toLinked
  have hw := step_wrote hstep
  generalize s'.db = db' at hw ⊢
  cases hw with
  | idle hi hm =>
      refine h.header hm fun i him => .inr ⟨i, ?_, rfl, rfl⟩
      rwa [← hi]
  | create hk hn hi hm => exact h.insert hl hi hm
  | amend hrow hst hp hcr hno hi hm => exact h.insert hl hi hm
  | void hrow hf =>
      exact h.update (by intro _; rfl) rfl ⟨rfl, rfl, rfl⟩ (.inr fun _ => rfl)
  | voidDelegated hrow hp hne =>
      exact h.update (by intro _; rfl) rfl ⟨rfl, rfl, rfl⟩ (.inr fun _ => rfl)
  | writeOff hrow hst hd =>
      exact h.update (by intro _; rfl) rfl ⟨rfl, rfl, rfl⟩ (.inr fun _ => rfl)
  | @payment request hp =>
      refine h.recomputeOf (by rfl) _ (fun p hpm => ?_) fun n hn => .inl ⟨n, hn, rfl, rfl⟩
      rcases (Table.mem_insert).mp hpm with hpm | rfl
      · exact .inl hpm
      · right
        intro i hi hpi
        obtain ⟨row, hrow, -, -, hc⟩ := hp i.id hpi
        rw [Table.find_key hi, Option.some.injEq] at hrow
        rw [hrow]
        exact hc.symm
  | gatewayPayment ha hrow hf hle =>
      refine h.recomputeOf (by rfl) _ (fun p hpm => ?_) fun n hn => .inl ⟨n, hn, rfl, rfl⟩
      rcases (Table.mem_insert).mp hpm with hpm | rfl
      · exact .inl hpm
      · right
        intro i hi hpi
        have hpi' := Option.some.inj hpi
        rw [hpi', Table.find_key hi, Option.some.injEq] at hrow
        rw [hrow]
  | creditNote hrow ht hcr ha hmk =>
      refine h.recomputeOf (by rfl) (some _) (fun p hp => .inl hp) fun n hn => ?_
      rcases (Table.mem_insert).mp hn with hn | rfl
      · exact .inl ⟨n, hn, rfl, rfl⟩
      · right
        intro i hi hni
        rw [(hmk _).1] at hni
        rw [hni, Table.find_key hi, Option.some.injEq] at hrow
        rw [(hmk _).2.1, hrow]
  | @update k outside current row request rate hcall hrow hf hamend =>
      have h1 : SameCompany (rewriteInvoice s.db current request rate) :=
        h.update (fun i => (i.rewritten_same current request _ _).1) rfl
          (rewriteInvoice_sameMoney s.db current request rate)
          (.inl (hl.unreferenced_of_find hrow hf))
      cases replacedBy row current request with
      | none => exact h1
      | some o => exact h1.update (by intro _; rfl) rfl ⟨rfl, rfl, rfl⟩ (.inr fun _ => rfl)
  | deletePayment hcall =>
      exact h.recomputeOf (by rfl) _ (fun p hp => .inl (Table.mem_erase.mp hp).1)
        fun n hn => .inl ⟨n, hn, rfl, rfl⟩
  | refunds hcall hins =>
      obtain ⟨hi, -, -, -, hpay, hcred⟩ := insertRefunds_frame hins
      refine h.recomputeOf hi _ (fun p hp => .inl ?_) fun n hn => .inl ⟨n, ?_, rfl, rfl⟩
      · rwa [hpay] at hp
      · rwa [hcred] at hn
  | voidCreditNote hcall =>
      refine h.recomputeOf (by rfl) (some _) (fun p hp => .inl hp) fun n hn => .inl ?_
      obtain ⟨m, hm, rfl⟩ := (Table.mem_update).mp hn
      refine ⟨m, hm, ?_⟩
      split <;> exact ⟨rfl, rfl⟩

end Billing

end Mokosh
