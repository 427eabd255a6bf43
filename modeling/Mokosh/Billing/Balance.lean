import Mokosh.Billing.Machine

/-! # The balance of an invoice

**`balance_of_reachable`**: however the transactions of billing are interleaved, the `amount_paid` of
every invoice is the sum of its payments less its refunds, its `amount_credited` the sum of its
issued credit notes, and, unless it is void, its `balance_due` its total less both.

The operations come in two kinds.  Those that move money change a child row and recompute the
invoice, so it is enough that they change the sums of no other invoice (`recomputeOf_balanced`).
Those that write the header compute `balance_due` from the total alone or leave it; they do so only
on an invoice that nothing can be paid on or credited to yet (`Linked`), or they leave the amounts
alone (`Balanced.update_invoice`).

A call that read before its lock knows the invoice of its payment or of its credit note, and these
never change (`CallOk`, `Grows`). -/

namespace Mokosh

/-- What is paid on an invoice: its payments less its refunds. -/
def BillingDb.paidOn (db : BillingDb) (invoiceId : Uuid) : Numeric 2 :=
  db.paymentsOf invoiceId - db.refundsOf invoiceId

/-- The money columns of an invoice agree with its payments, refunds and credit notes. -/
def Squared (db : BillingDb) (i : Invoice) : Prop :=
  i.amountPaid = db.paidOn i.id ∧ i.amountCredited = db.creditsOf i.id ∧
    (i.status ≠ .void → i.balanceDue = i.total - i.amountPaid - i.amountCredited)

/-- The invoice is there and the customer holds it. -/
def Issued (t : Table Invoice.id) (invoiceId : Uuid) : Prop :=
  ∃ i, t.find invoiceId = some i ∧ i.status.isFrozen = true

/-- Money moves on issued invoices only, and a refund is on the invoice of its payment. -/
structure Linked (db : BillingDb) : Prop where
  payment : ∀ p ∈ db.payments, ∀ i, p.invoiceId = some i → Issued db.invoices i
  refund : ∀ r ∈ db.refunds, ∃ p ∈ db.payments, p.id = r.paymentId ∧ p.invoiceId = r.invoiceId
  credit : ∀ n ∈ db.creditNotes, Issued db.invoices n.invoiceId

structure Balanced (db : BillingDb) : Prop extends Linked db where
  squared : ∀ i ∈ db.invoices, Squared db i

/-- The same payments, refunds and credit notes. -/
def SameMoney (db db' : BillingDb) : Prop :=
  db'.payments = db.payments ∧ db'.refunds = db.refunds ∧ db'.creditNotes = db.creditNotes

section Header

variable {db db' : BillingDb} {t : Table Invoice.id} {k i : Uuid}

theorem Issued.update {f : Invoice → Invoice} (h : Issued t i)
    (hfr : ∀ r, t.find k = some r → r.status.isFrozen = true → (f r).status.isFrozen = true)
    (hf : ∀ r, (f r).id = r.id := by first | assumption | (intro _; exact Eq.trans rfl rfl)) :
    Issued (t.update k f hf) i := by
  obtain ⟨inv, hi, hz⟩ := h
  rcases eq_or_ne i k with rfl | hne
  · exact ⟨f inv, by rw [Table.find_update_self, hi]; rfl, hfr inv hi hz⟩
  · exact ⟨inv, by rw [Table.find_update_ne hne, hi], hz⟩

theorem Issued.lt_next (h : Issued t i) : i < t.next := by
  obtain ⟨inv, hi, -⟩ := h
  exact Table.find_lt_next hi

theorem Issued.insert (h : Issued t i) {mk : ℕ → Invoice} {hk : ∀ i, (mk i).id = i} :
    Issued (t.insert mk hk) i := by
  have hlt := h.lt_next
  obtain ⟨inv, hi, hz⟩ := h
  exact ⟨inv, by rw [Table.find_insert, if_neg hlt.ne, hi], hz⟩

theorem SameMoney.squared (hm : SameMoney db db') {inv : Invoice} :
    Squared db' inv ↔ Squared db inv := by
  obtain ⟨h1, h2, h3⟩ := hm
  unfold Squared BillingDb.paidOn BillingDb.paymentsOf BillingDb.refundsOf BillingDb.creditsOf
  rw [h1, h2, h3]

/-- The header of one invoice is written. -/
theorem Balanced.update_invoice (h : Balanced db) {f : Invoice → Invoice}
    (hf : ∀ r, (f r).id = r.id) (hi : db'.invoices = db.invoices.update k f hf)
    (hm : SameMoney db db') (hs : ∀ r, db.invoices.find k = some r → Squared db (f r))
    (hfr : ∀ r, db.invoices.find k = some r → r.status.isFrozen = true →
      (f r).status.isFrozen = true) : Balanced db' := by
  refine ⟨⟨?_, ?_, ?_⟩, ?_⟩
  · intro p hp i hpi
    rw [hm.1] at hp
    rw [hi]
    exact (h.payment p hp i hpi).update hfr
  · intro r hr
    rw [hm.2.1] at hr
    rw [hm.1]
    exact h.refund r hr
  · intro n hn
    rw [hm.2.2] at hn
    rw [hi]
    exact (h.credit n hn).update hfr
  · intro x hx
    rw [hi] at hx
    rw [hm.squared]
    obtain ⟨r, hr, rfl⟩ := (Table.mem_update).mp hx
    split
    · next hk =>
      subst hk
      exact hs r (Table.find_key hr)
    · exact h.squared r hr

/-- Nothing is paid on an invoice that is not issued, and nothing is credited to it. -/
theorem Linked.zero (h : Linked db) (hn : ¬ Issued db.invoices i) :
    db.paidOn i = 0 ∧ db.creditsOf i = 0 := by
  have hp : db.paymentsOf i = 0 := by
    apply Table.sum_eq_zero
    intro p hp
    rw [if_neg]
    intro hpi
    exact hn (h.payment p hp i hpi)
  have hr : db.refundsOf i = 0 := by
    apply Table.sum_eq_zero
    intro r hr
    rw [if_neg]
    intro hri
    obtain ⟨p, hp, -, hpr⟩ := h.refund r hr
    exact hn (h.payment p hp i (hpr.trans hri))
  refine ⟨by rw [BillingDb.paidOn, hp, hr, sub_zero], ?_⟩
  apply Table.sum_eq_zero
  intro n hnn
  rw [if_neg]
  rintro ⟨rfl, -⟩
  exact hn (h.credit n hnn)

/-- An invoice that can still be edited has no money on it. -/
theorem Balanced.unissued (h : Balanced db) {row : Invoice} (hrow : db.invoices.find k = some row)
    (hf : row.status.isFrozen = false) :
    row.amountPaid = 0 ∧ row.amountCredited = 0 ∧ db.paidOn k = 0 ∧ db.creditsOf k = 0 := by
  have hk := Table.key_of_find hrow
  have hn : ¬ Issued db.invoices k := by
    rintro ⟨inv, hi, hz⟩
    rw [hrow, Option.some.injEq] at hi
    rw [← hi, hf] at hz
    exact absurd hz (by simp)
  obtain ⟨h1, h2, -⟩ := h.squared row (Table.find_mem hrow)
  obtain ⟨h3, h4⟩ := h.toLinked.zero hn
  rw [hk] at h1 h2
  exact ⟨h1.trans h3, h2.trans h4, h3, h4⟩

/-- A new invoice, with nothing paid and all of it due. -/
theorem Balanced.insert_invoice (h : Balanced db) {mk : ℕ → Invoice} (hk : ∀ i, (mk i).id = i)
    (hi : db'.invoices = db.invoices.insert mk hk) (hm : SameMoney db db')
    (hz : ∀ i, (mk i).amountPaid = 0 ∧ (mk i).amountCredited = 0 ∧
      (mk i).balanceDue = (mk i).total) : Balanced db' := by
  refine ⟨⟨?_, ?_, ?_⟩, ?_⟩
  · intro p hp i hpi
    rw [hm.1] at hp
    rw [hi]
    exact (h.payment p hp i hpi).insert
  · intro r hr
    rw [hm.2.1] at hr
    rw [hm.1]
    exact h.refund r hr
  · intro n hn
    rw [hm.2.2] at hn
    rw [hi]
    exact (h.credit n hn).insert
  · intro x hx
    rw [hi] at hx
    rw [hm.squared]
    rcases (Table.mem_insert).mp hx with hx | rfl
    · exact h.squared x hx
    · obtain ⟨h1, h2, h3⟩ := hz db.invoices.next
      have hn : ¬ Issued db.invoices db.invoices.next := fun hn => lt_irrefl _ hn.lt_next
      obtain ⟨h4, h5⟩ := h.toLinked.zero hn
      refine ⟨?_, ?_, fun _ => ?_⟩
      · rw [h1, hk, h4]
      · rw [h2, hk, h5]
      · rw [h1, h2, h3, sub_zero, sub_zero]

end Header

/-! ### Moving money -/

section Money

variable {db db' : BillingDb} {o : Option Uuid}

theorem Invoice.recomputed_isFrozen (i : Invoice) (paid credited : Numeric 2) :
    (i.recomputed paid credited).status.isFrozen = i.status.isFrozen := by
  unfold recomputed
  cases h : i.status <;> simp only [InvoiceStatus.isFrozen] <;> simp <;> split_ifs <;> rfl

/-- A recompute makes the columns of its invoice agree with the child rows, whatever they were. -/
theorem recomputeInvoiceBalance_balanced {i : Uuid} (h : Linked db)
    (hs : ∀ x ∈ db.invoices, x.id ≠ i → Squared db x) :
    Balanced (recomputeInvoiceBalance db i) := by
  have hiss : ∀ j, Issued db.invoices j → Issued (recomputeInvoiceBalance db i).invoices j := by
    intro j hj
    refine hj.update fun r _ => ?_
    rw [Invoice.recomputed_isFrozen]
    exact id
  refine ⟨⟨fun p hp j hpj => hiss j (h.payment p hp j hpj), h.refund,
    fun n hn => hiss _ (h.credit n hn)⟩, ?_⟩
  intro x hx
  obtain ⟨r, hr, rfl⟩ := (Table.mem_update).mp hx
  split
  · next hri =>
    subst hri
    exact ⟨rfl, rfl, fun _ => rfl⟩
  · next hri => exact hs r hr hri

theorem recomputeOf_balanced (h : Linked db)
    (hs : ∀ x ∈ db.invoices, o ≠ some x.id → Squared db x) : Balanced (recomputeOf db o) := by
  cases o with
  | none => exact ⟨h, fun x hx => hs x hx (by simp)⟩
  | some i =>
      refine recomputeInvoiceBalance_balanced h fun x hx hne => hs x hx ?_
      rw [ne_eq, Option.some.injEq]
      exact Ne.symm hne

/-- The child rows changed, and the sums of no invoice but `o`. -/
theorem Balanced.recomputeOf (h : Balanced db) (hl : Linked db') (hi : db'.invoices = db.invoices)
    (hp : ∀ j, o ≠ some j → db'.paidOn j = db.paidOn j)
    (hc : ∀ j, o ≠ some j → db'.creditsOf j = db.creditsOf j) : Balanced (recomputeOf db' o) := by
  refine recomputeOf_balanced hl ?_
  intro x hx hne
  rw [hi] at hx
  unfold Squared
  rw [hp x.id hne, hc x.id hne]
  exact h.squared x hx

theorem Balanced.insertPayment (h : Balanced db) {companyId : Uuid} {amount : Numeric 2}
    {reference : Option String} (ho : ∀ i, o = some i → Issued db.invoices i) :
    Balanced (Mokosh.recomputeOf (Mokosh.insertPayment db o companyId amount reference) o) := by
  refine h.recomputeOf ⟨?_, ?_, h.credit⟩ rfl ?_ fun _ _ => rfl
  · intro p hp i hpi
    rcases (Table.mem_insert).mp hp with hp | rfl
    · exact h.payment p hp i hpi
    · exact ho i hpi
  · intro r hr
    obtain ⟨p, hp, h1⟩ := h.refund r hr
    exact ⟨p, (Table.mem_insert).mpr (.inl hp), h1⟩
  · intro j hj
    have h1 : (Mokosh.insertPayment db o companyId amount reference).paymentsOf j =
        db.paymentsOf j := by
      refine (Table.sum_insert _ _ _ _).trans ?_
      rw [if_neg hj, add_zero]
      rfl
    unfold BillingDb.paidOn
    rw [h1]
    rfl

/-- The payment that a call has read is still on the invoice it read. -/
def PaymentOn (db : BillingDb) (paymentId : Uuid) (o : Option Uuid) : Prop :=
  paymentId < db.payments.next ∧ ∀ p ∈ db.payments, p.id = paymentId → p.invoiceId = o

theorem Balanced.deletePayment (h : Balanced db) {paymentId : Uuid} (ho : PaymentOn db paymentId o) :
    Balanced (commitDeletePayment db paymentId o) := by
  refine h.recomputeOf ⟨?_, ?_, h.credit⟩ rfl ?_ fun _ _ => rfl
  · intro p hp i hpi
    exact h.payment p (Table.mem_erase.mp hp).1 i hpi
  · intro r hr
    obtain ⟨hr, hne⟩ := Table.mem_filter.mp hr
    obtain ⟨p, hp, h1, h2⟩ := h.refund r hr
    refine ⟨p, Table.mem_erase.mpr ⟨hp, ?_⟩, h1, h2⟩
    rw [h1]
    simpa using hne
  · intro j hj
    unfold BillingDb.paidOn BillingDb.paymentsOf BillingDb.refundsOf
    -- Neither the payment nor its refunds counted for the invoice `j`.
    have h1 : (db.payments.erase paymentId).sum
        (fun p => if p.invoiceId = some j then p.amount else 0) = db.paymentsOf j := by
      rw [Table.erase, Table.sum_filter]
      apply Table.sum_congr
      intro p hp
      by_cases hk : p.id = paymentId
      · rw [ho.2 p hp hk, if_neg hj, ite_self]
      · rw [if_pos (decide_eq_true hk)]
    have h2 : (db.refunds.filter fun r => decide (r.paymentId ≠ paymentId)).sum
        (fun r => if r.invoiceId = some j then r.amount else 0) = db.refundsOf j := by
      rw [Table.sum_filter]
      apply Table.sum_congr
      intro r hr
      by_cases hk : r.paymentId = paymentId
      · obtain ⟨p, hp, hp1, hp2⟩ := h.refund r hr
        rw [← hp2, ho.2 p hp (hp1.trans hk), if_neg hj, ite_self]
      · rw [if_pos (decide_eq_true hk)]
    rw [h1, h2]
    rfl

theorem insertRefunds_linked {paymentId : Uuid} {rs : List RefundLine} (h : Linked db)
    (ho : PaymentOn db paymentId o) (hok : insertRefunds db paymentId o rs = .ok db') :
    Linked db' ∧ db'.payments = db.payments ∧ db'.creditNotes = db.creditNotes ∧
      db'.invoices = db.invoices ∧ ∀ j, o ≠ some j → db'.refundsOf j = db.refundsOf j := by
  induction rs generalizing db with
  | nil =>
      cases hok
      exact ⟨h, rfl, rfl, rfl, fun _ _ => rfl⟩
  | cons r rs ih =>
      obtain ⟨db1, h1, h2⟩ := bind_eq_ok.mp hok
      unfold insertRefund at h1
      split_ifs at h1 with h3 h4 h5
      · cases h1
        exact ih h ho h2
      · cases h1
        obtain ⟨p, hp⟩ := Option.ne_none_iff_exists'.mp (by simpa using h5)
        have hmem := Table.find_mem hp
        have hid := Table.key_of_find hp
        have hl1 : Linked { db with
            refunds := db.refunds.insert fun id =>
              ⟨id, paymentId, o, .ofRat 2 r.amount, r.providerReference⟩ } := by
          refine ⟨h.payment, ?_, h.credit⟩
          intro x hx
          rcases (Table.mem_insert).mp hx with hx | rfl
          · exact h.refund x hx
          · exact ⟨p, hmem, hid, ho.2 p hmem hid⟩
        obtain ⟨hl, hpay, hcn, hinv, hsum⟩ := ih hl1 ho h2
        refine ⟨hl, hpay, hcn, hinv, fun j hj => ?_⟩
        rw [hsum j hj]
        refine (Table.sum_insert _ _ _ _).trans ?_
        rw [if_neg hj, add_zero]
        rfl

theorem Balanced.gatewayRefunds (h : Balanced db) {paymentId : Uuid} {rs : List RefundLine}
    (ho : PaymentOn db paymentId o) (hok : commitGatewayRefunds db paymentId o rs = .ok db') :
    Balanced db' := by
  obtain ⟨db1, h1, rfl⟩ := commitGatewayRefunds_eq_ok hok
  obtain ⟨hl, hpay, hcn, hinv, hsum⟩ := insertRefunds_linked h.toLinked ho h1
  refine h.recomputeOf hl hinv ?_ ?_
  · intro j hj
    unfold BillingDb.paidOn BillingDb.paymentsOf
    rw [hsum j hj, hpay]
  · intro j hj
    unfold BillingDb.creditsOf
    rw [hcn]

theorem Balanced.insertCreditNote (h : Balanced db) {i : Uuid} (hi : Issued db.invoices i)
    {mk : ℕ → CreditNote} {hk : ∀ j, (mk j).id = j} (hmk : ∀ j, (mk j).invoiceId = i) :
    Balanced (recomputeInvoiceBalance { db with creditNotes := db.creditNotes.insert mk hk } i) := by
  refine h.recomputeOf (o := some i) ⟨h.payment, h.refund, ?_⟩ rfl (fun _ _ => rfl) ?_
  · intro n hn
    rcases (Table.mem_insert).mp hn with hn | rfl
    · exact h.credit n hn
    · rw [hmk]
      exact hi
  · intro j hj
    refine (Table.sum_insert _ _ hk _).trans ?_
    rw [if_neg, add_zero]
    · rfl
    · rw [hmk]
      rintro ⟨rfl, -⟩
      exact hj rfl

/-- The credit note that a call has read is on the invoice it read. -/
def CreditOn (db : BillingDb) (creditNoteId i : Uuid) : Prop :=
  creditNoteId < db.creditNotes.next ∧
    ∀ n ∈ db.creditNotes, n.id = creditNoteId → n.invoiceId = i

theorem Balanced.voidCreditNote (h : Balanced db) {creditNoteId i : Uuid}
    (ho : CreditOn db creditNoteId i) {outside : AppResult Unit}
    (hok : commitVoidCreditNote db creditNoteId i outside = .ok db') : Balanced db' := by
  rw [commitVoidCreditNote_eq_ok hok]
  refine h.recomputeOf (o := some i) ⟨h.payment, h.refund, ?_⟩ rfl (fun _ _ => rfl) ?_
  · intro n hn
    obtain ⟨m, hm, rfl⟩ := (Table.mem_update).mp hn
    have h1 := h.credit m hm
    split <;> exact h1
  · intro j hj
    apply Table.sum_update_congr
    · intro n hn hnk
      have h1 : ¬ n.invoiceId = j := by
        rw [ho.2 n hn hnk]
        rintro rfl
        exact hj rfl
      rw [if_neg (fun h2 => h1 h2.1), if_neg (fun h2 => h1 h2.1)]
    · intro n
      rfl

end Money

/-! ### Writing headers -/

section Operations

variable {db db' : BillingDb} {outside : AppResult Unit} {number : String}

theorem created_invoices (db : BillingDb) (header : Uuid → Invoice) (ls : List NewLine)
    (explicitAmount : Option ℚ) (rate : Option TaxRate) (discount : ℚ)
    (hid : ∀ i, (header i).id = i) :
    (created db header ls explicitAmount rate discount hid).invoices =
      db.invoices.insert (fun i => (header i).taxed
        ((insertInvoice db header ls hid).linesOf db.invoices.next)
        (taxOn ((insertInvoice db header ls hid).taxableOf db.invoices.next) explicitAmount rate)
        discount) hid :=
  Table.update_insert hid (by intro _; rfl)

theorem newInvoice_taxed (companyId : Uuid) (contractId : Option Uuid)
    (externalProvider : Option String) (s t d : ℚ) (subtotal : Numeric 2) (tax : AppliedTax)
    (discount : ℚ) (i : Uuid) :
    let inv := (newInvoice number companyId contractId externalProvider s t d i).taxed subtotal tax
      discount
    inv.amountPaid = 0 ∧ inv.amountCredited = 0 ∧ inv.balanceDue = inv.total := by
  simp [newInvoice, Invoice.taxed]

theorem Balanced.created (h : Balanced db) {companyId : Uuid} {contractId : Option Uuid}
    {externalProvider : Option String} {s t d : ℚ} {ls : List NewLine} {explicitAmount : Option ℚ}
    {rate : Option TaxRate} {discount : ℚ}
    (hi : db'.invoices = (Mokosh.created db
      (newInvoice number companyId contractId externalProvider s t d) ls explicitAmount rate
      discount (fun _ => rfl)).invoices) (hm : SameMoney db db') : Balanced db' := by
  exact h.insert_invoice (by intro _; rfl) (hi.trans (created_invoices ..)) hm
    (newInvoice_taxed companyId contractId externalProvider s t d _ _ discount)

theorem Balanced.createInvoice (h : Balanced db) {request : CreateInvoiceRequest}
    {externalProvider : Option String}
    (hok : Mokosh.createInvoice db request number externalProvider outside = .ok db') :
    Balanced db' := by
  obtain ⟨rate, -, rfl⟩ := createInvoice_eq_ok hok
  exact h.created rfl ⟨rfl, rfl, rfl⟩

theorem Balanced.createInvoiceFromTimeEntries (h : Balanced db)
    {request : CreateInvoiceFromTimeEntriesRequest}
    (hok : Mokosh.createInvoiceFromTimeEntries db request number outside = .ok db') :
    Balanced db' := by
  obtain ⟨rate, -, rfl⟩ := createInvoiceFromTimeEntries_eq_ok hok
  exact h.created rfl ⟨rfl, rfl, rfl⟩

theorem Balanced.generateOneRecurringInvoice (h : Balanced db) {contractId companyId : Uuid}
    {periodStart periodEnd : NaiveDate}
    (hok : Mokosh.generateOneRecurringInvoice db contractId companyId periodStart periodEnd number
      outside = .ok db') : Balanced db' := by
  rcases generateOneRecurringInvoice_eq_ok hok with rfl | ⟨-, ls, rate, -, rfl⟩
  · exact h
  · exact h.created rfl ⟨rfl, rfl, rfl⟩

theorem Balanced.amendInvoice (h : Balanced db) {invoiceId : Uuid}
    (hok : Mokosh.amendInvoice db invoiceId number outside = .ok db') : Balanced db' := by
  obtain ⟨original, -, -, -, rfl⟩ := amendInvoice_eq_ok hok
  exact h.insert_invoice (by intro _; rfl) rfl ⟨rfl, rfl, rfl⟩ fun i => ⟨rfl, rfl, rfl⟩

/-- A void takes an invoice out of the books and leaves its amounts. -/
theorem Balanced.void (h : Balanced db) {k : Uuid} {f : Invoice → Invoice}
    (hf : ∀ r, (f r).id = r.id) (hstatus : ∀ r, (f r).status = .void)
    (hpaid : ∀ r, (f r).amountPaid = r.amountPaid)
    (hcredited : ∀ r, (f r).amountCredited = r.amountCredited) :
    Balanced { db with invoices := db.invoices.update k f hf } := by
  refine h.update_invoice hf rfl ⟨rfl, rfl, rfl⟩ ?_ ?_
  · intro r hr
    obtain ⟨h1, h2, -⟩ := h.squared r (Table.find_mem hr)
    refine ⟨?_, ?_, fun hne => absurd (hstatus r) hne⟩
    · rw [hpaid, hf, h1]
    · rw [hcredited, hf, h2]
  · intro r _ _
    rw [hstatus]
    rfl

theorem Balanced.voidInvoice (h : Balanced db) {invoiceId : Uuid}
    (hok : Mokosh.voidInvoice db invoiceId = .ok db') : Balanced db' := by
  obtain ⟨row, -, -, rfl⟩ := voidInvoice_eq_ok hok
  exact h.void (by intro _; rfl) (fun _ => rfl) (fun _ => rfl) fun _ => rfl

theorem Balanced.voidDelegatedInvoice (h : Balanced db) (invoiceId : Uuid) (provider : String) :
    Balanced (Mokosh.voidDelegatedInvoice db invoiceId provider) := by
  rcases voidDelegatedInvoice_cases db invoiceId provider with h1 | ⟨row, -, -, -, h1⟩ <;> rw [h1]
  · exact h
  · exact h.void (by intro _; rfl) (fun _ => rfl) (fun _ => rfl) fun _ => rfl

theorem Balanced.voidAmended (h : Balanced db) (o : Option Uuid) :
    Balanced (Mokosh.voidAmended db o) := by
  cases o with
  | none => exact h
  | some k => exact h.void (by intro _; rfl) (fun _ => rfl) (fun _ => rfl) fun _ => rfl

theorem Balanced.writeOffInvoice (h : Balanced db) {invoiceId : Uuid}
    (hok : Mokosh.writeOffInvoice db invoiceId = .ok db') : Balanced db' := by
  obtain ⟨row, hrow, hst, -, rfl⟩ := writeOffInvoice_eq_ok hok
  refine h.update_invoice (by intro _; rfl) rfl ⟨rfl, rfl, rfl⟩ ?_ fun _ _ _ => rfl
  intro r hr
  rw [hrow, Option.some.injEq] at hr
  subst hr
  obtain ⟨h3, h4, h5⟩ := h.squared row (Table.find_mem hrow)
  refine ⟨h3, h4, fun _ => h5 ?_⟩
  intro hv
  rw [hv] at hst
  exact absurd hst (by simp)

/-- What is left to pay of a row that nothing is paid on. -/
theorem Invoice.rewritten_balance {i current : Invoice} {request : UpdateInvoiceRequest}
    {lines : Numeric 2} {tax : AppliedTax} (hp : i.amountPaid = 0) (hc : i.amountCredited = 0) :
    (i.rewritten current request lines tax).balanceDue =
      (i.rewritten current request lines tax).total := by
  unfold rewritten
  split <;> simp [taxed, edited, hp, hc]

theorem Invoice.rewritten_same (i current : Invoice) (request : UpdateInvoiceRequest)
    (lines : Numeric 2) (tax : AppliedTax) :
    (i.rewritten current request lines tax).id = i.id ∧
      (i.rewritten current request lines tax).amountPaid = i.amountPaid ∧
      (i.rewritten current request lines tax).amountCredited = i.amountCredited := by
  unfold rewritten
  split <;> exact ⟨rfl, rfl, rfl⟩

theorem rewriteInvoice_sameMoney (db : BillingDb) (current : Invoice)
    (request : UpdateInvoiceRequest) (rate : Option TaxRate) :
    SameMoney db (rewriteInvoice db current request rate) := by
  have h : SameMoney db (replaceLines db current.id request.lines) := by
    unfold replaceLines
    cases request.lines <;> exact ⟨rfl, rfl, rfl⟩
  exact h

theorem Balanced.updateInvoice (h : Balanced db) {current : Invoice}
    {request : UpdateInvoiceRequest}
    (hok : commitUpdateInvoice db current request outside = .ok db') : Balanced db' := by
  obtain ⟨row, rate, hrow, hf, -, -, rfl⟩ := commitUpdateInvoice_eq_ok hok
  obtain ⟨hp, hc, hpk, hck⟩ := h.unissued hrow hf
  have hk := Table.key_of_find hrow
  apply Balanced.voidAmended
  refine h.update_invoice (fun i => (i.rewritten_same current request _ _).1) rfl
    (rewriteInvoice_sameMoney db current request rate) ?_ ?_
  · intro r hr
    rw [hrow, Option.some.injEq] at hr
    subst hr
    obtain ⟨h1, h2, h3⟩ := row.rewritten_same current request
      ((replaceLines db current.id request.lines).linesOf current.id)
      (taxOn ((replaceLines db current.id request.lines).taxableOf current.id) request.taxAmount
        rate)
    refine ⟨?_, ?_, fun _ => ?_⟩
    · rw [h1, h2, hk, hp, hpk]
    · rw [h1, h3, hk, hc, hck]
    · rw [Invoice.rewritten_balance hp hc, h2, h3, hp, hc, sub_zero, sub_zero]
  · intro r hr hz
    rw [hrow, Option.some.injEq] at hr
    rw [← hr, hf] at hz
    exact absurd hz (by simp)

/-- The invoice is issued to the company, and the amount is within what is left to pay of it. -/
def Payable (t : Table Invoice.id) (invoiceId companyId : Uuid) (amount : Numeric 2) : Prop :=
  ∃ row, t.find invoiceId = some row ∧ row.status.isFrozen = true ∧
    amount ≤ row.total - row.amountPaid - row.amountCredited ∧ row.companyId = companyId

theorem Payable.issued {t : Table Invoice.id} {i companyId : Uuid} {amount : Numeric 2}
    (h : Payable t i companyId amount) : Issued t i := by
  obtain ⟨row, hrow, hf, -⟩ := h
  exact ⟨row, hrow, hf⟩

theorem checkPaidInvoice_payable {request : CreatePaymentRequest} {u : Unit}
    (h : checkPaidInvoice db request = .ok u) {i : Uuid} (hi : request.invoiceId = some i) :
    Payable db.invoices i request.companyId request.amount := by
  unfold checkPaidInvoice at h
  rw [hi] at h
  obtain ⟨row, hrow, h⟩ := bind_eq_ok.mp h
  rw [orError_eq_ok] at hrow
  simp only at h
  split_ifs at h with h1 h2 h3
  exact ⟨row, hrow, InvoiceStatus.isFrozen_of_not h1, not_lt.mp h2, not_not.mp h3⟩

theorem createPayment_eq_ok {request : CreatePaymentRequest}
    (h : createPayment db request = .ok db') :
    (∀ i, request.invoiceId = some i →
        Payable db.invoices i request.companyId request.amount) ∧
      db' = recomputeOf (insertPayment db request.invoiceId request.companyId request.amount
        request.gatewayTransactionId) request.invoiceId := by
  obtain ⟨_, h1, h⟩ := bind_eq_ok.mp h
  split_ifs at h
  cases h
  exact ⟨fun i => checkPaidInvoice_payable h1, rfl⟩

theorem recordGatewayPayment_eq_ok {invoiceId : Uuid} {reference : String} {amount : ℚ}
    (h : recordGatewayPayment db invoiceId reference amount = .ok db') :
    db' = db ∨ 0 < Numeric.ofRat 2 amount ∧ ∃ row, db.invoices.find invoiceId = some row ∧
      row.status.isFrozen = true ∧
      amount ≤ (row.total - row.amountPaid - row.amountCredited).toRat ∧
      db' = recomputeOf (insertPayment db (some invoiceId) row.companyId (.ofRat 2 amount)
        (some reference)) (some invoiceId) := by
  unfold recordGatewayPayment at h
  split at h
  · cases h
    exact .inl rfl
  · next row hrow =>
    split_ifs at h with h1 h2 h3 h4
    · cases h
      exact .inl rfl
    · cases h
      exact .inl rfl
    · cases h
      exact .inl rfl
    · cases h
      exact .inr ⟨not_le.mp h3, row, hrow, InvoiceStatus.isFrozen_of_not h1, not_lt.mp h2, rfl⟩

/-- The invoice can be credited by the amount. -/
def Creditable (row : Invoice) (amount : ℚ) : Prop :=
  row.status.isFrozen = true ∧ row.status ≠ .writtenOff ∧ row.status ≠ .void ∧
    amount ≤ (row.total - row.amountCredited).toRat

theorem lockAndCheckCreditNoteInvoice_eq_ok {invoiceId : Uuid} {total : ℚ} {row : Invoice}
    (h : lockAndCheckCreditNoteInvoice db invoiceId total = .ok row) :
    db.invoices.find invoiceId = some row ∧ Creditable row total := by
  unfold lockAndCheckCreditNoteInvoice at h
  obtain ⟨r, hr, h⟩ := bind_eq_ok.mp h
  rw [orError_eq_ok] at hr
  split_ifs at h with h1 h2 h3 h4
  cases h
  exact ⟨hr, by simpa using h1, h2, h3, not_lt.mp h4⟩

/-- The total of a credit note: its lines and its tax. -/
def creditNoteTotal (request : CreateCreditNoteRequest) : AppResult ℚ := do
  let subtotal ← creditLinesTotal request.lines
  .ok (subtotal + request.taxAmount.getD 0)

/-- A credit note is a new row on an invoice that can be credited by its total. -/
theorem createCreditNote_eq_ok {request : CreateCreditNoteRequest}
    (h : createCreditNote db request outside = .ok db') :
    ∃ row total, db.invoices.find request.invoiceId = some row ∧
      creditNoteTotal request = .ok total ∧ Creditable row total ∧
      0 < Numeric.ofRat 2 total ∧ ∃ (mk : ℕ → CreditNote) (hk : ∀ j, (mk j).id = j),
      (∀ j, (mk j).invoiceId = request.invoiceId ∧ (mk j).companyId = row.companyId ∧
        (mk j).status = .issued ∧ (mk j).total = .ofRat 2 total) ∧
      db' = recomputeInvoiceBalance { db with creditNotes := db.creditNotes.insert mk hk }
        request.invoiceId := by
  obtain ⟨subtotal, hsub, h⟩ := bind_eq_ok.mp h
  simp only at h
  split at h
  · exact absurd h (by simp)
  split at h
  · exact absurd h (by simp)
  obtain ⟨-, -, h⟩ := bind_eq_ok.mp h
  obtain ⟨row, hrow, h⟩ := bind_eq_ok.mp h
  split at h
  · exact absurd h (by simp)
  · next hpos =>
    cases h
    obtain ⟨hfind, hc⟩ := lockAndCheckCreditNoteInvoice_eq_ok hrow
    have htotal : creditNoteTotal request = .ok (subtotal + request.taxAmount.getD 0) :=
      bind_eq_ok.mpr ⟨subtotal, hsub, rfl⟩
    exact ⟨row, _, hfind, htotal, hc, not_le.mp hpos, _, by intro _; rfl,
      fun _ => ⟨rfl, rfl, rfl, rfl⟩, rfl⟩

end Operations

/-! ### Calls between their read and their lock -/

/-- Payments keep their invoice and so do credit notes; a new one has a new identifier. -/
structure Grows (db db' : BillingDb) : Prop where
  payments_next : db.payments.next ≤ db'.payments.next
  payments : ∀ p ∈ db'.payments, p ∈ db.payments ∨ db.payments.next ≤ p.id
  credits_next : db.creditNotes.next ≤ db'.creditNotes.next
  credits : ∀ n ∈ db'.creditNotes,
    (∃ m ∈ db.creditNotes, m.id = n.id ∧ m.invoiceId = n.invoiceId) ∨ db.creditNotes.next ≤ n.id

/-- What a call has read is still true of the tables. -/
def CallOk (db : BillingDb) : BillingCall → Prop
  | .update _ _ => True
  | .deletePayment paymentId o => PaymentOn db paymentId o
  | .gatewayRefunds paymentId o _ => PaymentOn db paymentId o
  | .voidCreditNote creditNoteId i => CreditOn db creditNoteId i

section Calls

variable {db db' : BillingDb}

theorem SameMoney.grows (h : SameMoney db db') : Grows db db' := by
  obtain ⟨h1, -, h3⟩ := h
  refine ⟨by rw [h1], ?_, by rw [h3], ?_⟩
  · intro p hp
    rw [h1] at hp
    exact .inl hp
  · intro n hn
    rw [h3] at hn
    exact .inl ⟨n, hn, rfl, rfl⟩

theorem PaymentOn.grows {paymentId : Uuid} {o : Option Uuid} (h : PaymentOn db paymentId o)
    (hg : Grows db db') : PaymentOn db' paymentId o := by
  refine ⟨h.1.trans_le hg.payments_next, ?_⟩
  intro p hp hid
  rcases hg.payments p hp with hp | hp
  · exact h.2 p hp hid
  · rw [hid] at hp
    exact absurd h.1 (Nat.not_lt.mpr hp)

theorem CreditOn.grows {creditNoteId i : Uuid} (h : CreditOn db creditNoteId i)
    (hg : Grows db db') : CreditOn db' creditNoteId i := by
  refine ⟨h.1.trans_le hg.credits_next, ?_⟩
  intro n hn hid
  rcases hg.credits n hn with ⟨m, hm, hmid, hmi⟩ | hn
  · rw [← hmi]
    exact h.2 m hm (hmid.trans hid)
  · rw [hid] at hn
    exact absurd h.1 (Nat.not_lt.mpr hn)

theorem CallOk.grows {c : BillingCall} (h : CallOk db c) (hg : Grows db db') : CallOk db' c := by
  cases c with
  | update current request => trivial
  | deletePayment paymentId o => exact PaymentOn.grows h hg
  | gatewayRefunds paymentId o rs => exact PaymentOn.grows h hg
  | voidCreditNote creditNoteId i => exact CreditOn.grows h hg

theorem paymentOn_of_mem {p : Payment} (hp : p ∈ db.payments) : PaymentOn db p.id p.invoiceId := by
  refine ⟨Table.key_lt_next hp, ?_⟩
  intro q hq hid
  rw [Table.eq_of_key_eq hq hp hid]

theorem readForDeletePayment_on {paymentId : Uuid} {o : Option Uuid}
    (h : readForDeletePayment db paymentId = .ok o) : PaymentOn db paymentId o := by
  obtain ⟨p, hp, h⟩ := bind_eq_ok.mp h
  rw [orError_eq_ok] at hp
  cases h
  rw [← Table.key_of_find hp]
  exact paymentOn_of_mem (Table.find_mem hp)

theorem readForGatewayRefunds_on {reference : String} {p : Uuid × Option Uuid}
    (h : readForGatewayRefunds db reference = some p) : PaymentOn db p.1 p.2 := by
  obtain ⟨q, hq, h⟩ := Option.bind_eq_some_iff.mp h
  cases h
  exact paymentOn_of_mem (List.mem_of_find?_eq_some hq)

theorem readForVoidCreditNote_on {creditNoteId i : Uuid}
    (h : readForVoidCreditNote db creditNoteId = .ok i) : CreditOn db creditNoteId i := by
  obtain ⟨n, hn, h⟩ := bind_eq_ok.mp h
  rw [orError_eq_ok] at hn
  split_ifs at h
  cases h
  refine ⟨Table.find_lt_next hn, ?_⟩
  intro m hm hid
  rw [Table.eq_of_find hn hm hid]

/-- What a transaction does to balanced tables. -/
def Settles (db db' : BillingDb) : Prop := Balanced db' ∧ Grows db db'

theorem Settles.refl (h : Balanced db) : Settles db db := ⟨h, SameMoney.grows ⟨rfl, rfl, rfl⟩⟩

theorem Grows.recomputeOf (h : Grows db db') (o : Option Uuid) :
    Grows db (Mokosh.recomputeOf db' o) := by
  cases o <;> exact ⟨h.payments_next, h.payments, h.credits_next, h.credits⟩

theorem settles_insertPayment (h : Balanced db) {o : Option Uuid} {companyId : Uuid}
    {amount : Numeric 2} {reference : Option String} (ho : ∀ i, o = some i → Issued db.invoices i) :
    Settles db (recomputeOf (insertPayment db o companyId amount reference) o) := by
  refine ⟨h.insertPayment ho, ?_⟩
  apply Grows.recomputeOf
  refine ⟨Nat.le_succ _, ?_, le_refl _, ?_⟩
  · intro p hp
    rcases (Table.mem_insert).mp hp with hp | rfl
    · exact .inl hp
    · exact .inr (le_refl _)
  · intro n hn
    exact .inl ⟨n, hn, rfl, rfl⟩

theorem settles_createCreditNote (h : Balanced db) {request : CreateCreditNoteRequest}
    {outside : AppResult Unit} (hok : createCreditNote db request outside = .ok db') :
    Settles db db' := by
  obtain ⟨row, total, hrow, -, hc, -, mk, hk, hmk, rfl⟩ := createCreditNote_eq_ok hok
  refine ⟨h.insertCreditNote ⟨row, hrow, hc.1⟩ fun j => (hmk j).1, le_refl _, fun p hp => .inl hp, Nat.le_succ _, ?_⟩
  intro n hn
  rcases (Table.mem_insert).mp hn with hn | rfl
  · exact .inl ⟨n, hn, rfl, rfl⟩
  · exact .inr (hk _).ge

theorem settles_finish (h : Balanced db) {c : BillingCall} (hc : CallOk db c)
    {outside : AppResult Unit} (hok : Billing.finish db outside c = .ok db') : Settles db db' := by
  cases c with
  | update current request =>
      refine ⟨h.updateInvoice hok, SameMoney.grows ?_⟩
      obtain ⟨row, rate, -, -, -, -, rfl⟩ := commitUpdateInvoice_eq_ok hok
      have hm := rewriteInvoice_sameMoney db current request rate
      cases replacedBy row current request <;> exact hm
  | deletePayment paymentId o =>
      cases hok
      refine ⟨h.deletePayment hc, ?_⟩
      apply Grows.recomputeOf
      refine ⟨le_refl _, ?_, le_refl _, ?_⟩
      · intro p hp
        exact .inl (Table.mem_erase.mp hp).1
      · intro n hn
        exact .inl ⟨n, hn, rfl, rfl⟩
  | gatewayRefunds paymentId o rs =>
      refine ⟨h.gatewayRefunds hc hok, ?_⟩
      obtain ⟨db1, h1, rfl⟩ := commitGatewayRefunds_eq_ok hok
      obtain ⟨-, hp, hn, -, -⟩ := insertRefunds_linked h.toLinked hc h1
      apply Grows.recomputeOf
      refine ⟨by rw [hp], ?_, by rw [hn], ?_⟩
      · intro p hp1
        rw [hp] at hp1
        exact .inl hp1
      · intro n hn1
        rw [hn] at hn1
        exact .inl ⟨n, hn1, rfl, rfl⟩
  | voidCreditNote creditNoteId i =>
      refine ⟨h.voidCreditNote hc hok, ?_⟩
      rw [commitVoidCreditNote_eq_ok hok]
      refine ⟨le_refl _, fun p hp => .inl hp, le_refl _, ?_⟩
      intro n hn
      obtain ⟨m, hm, rfl⟩ := (Table.mem_update).mp hn
      refine .inl ⟨m, hm, ?_⟩
      split <;> exact ⟨rfl, rfl⟩

end Calls

/-! ### Runs -/

namespace Billing

/-- The invariant: the tables are balanced, and what the waiting calls have read holds. -/
structure Sound (s : Billing) : Prop where
  balanced : Balanced s.db
  calls : ∀ c ∈ s.calls, CallOk s.db c

section Step

variable {s s' : Billing}

theorem Began.ok {db : BillingDb} {e : BillingEvent} {c : BillingCall} (h : Began db e c) :
    CallOk db c := by
  cases h with
  | update hread => trivial
  | deletePayment hread => exact readForDeletePayment_on hread
  | gatewayRefunds hread => exact readForGatewayRefunds_on hread
  | voidCreditNote hread => exact readForVoidCreditNote_on hread

/-- One transaction keeps the balances, and the rows that the waiting calls have read. -/
theorem step_settles {e : BillingEvent} (h : s.Sound) (hs : step s e = some s') :
    Settles s.db s'.db := by
  have hb := h.balanced
  have hrefl : Settles s.db s.db := .refl hb
  cases e with
  | time op =>
      cases hs
      exact ⟨⟨⟨hb.payment, hb.refund, hb.credit⟩, hb.squared⟩, SameMoney.grows ⟨rfl, rfl, rfl⟩⟩
  | createInvoice request number externalProvider outside =>
      refine write_holds hrefl (fun db' hok => ⟨hb.createInvoice hok, ?_⟩) hs
      obtain ⟨rate, -, rfl⟩ := createInvoice_eq_ok hok
      exact SameMoney.grows ⟨rfl, rfl, rfl⟩
  | createInvoiceFromTimeEntries request number outside =>
      refine write_holds hrefl (fun db' hok => ⟨hb.createInvoiceFromTimeEntries hok, ?_⟩) hs
      obtain ⟨rate, -, rfl⟩ := createInvoiceFromTimeEntries_eq_ok hok
      exact SameMoney.grows ⟨rfl, rfl, rfl⟩
  | generateOneRecurringInvoice contractId companyId periodStart periodEnd number outside =>
      refine write_holds hrefl (fun db' hok => ⟨hb.generateOneRecurringInvoice hok, ?_⟩) hs
      apply SameMoney.grows
      rcases generateOneRecurringInvoice_eq_ok hok with rfl | ⟨-, ls, rate, -, rfl⟩ <;>
        exact ⟨rfl, rfl, rfl⟩
  | amendInvoice invoiceId number outside =>
      refine write_holds hrefl (fun db' hok => ⟨hb.amendInvoice hok, ?_⟩) hs
      obtain ⟨original, -, -, -, rfl⟩ := amendInvoice_eq_ok hok
      exact SameMoney.grows ⟨rfl, rfl, rfl⟩
  | voidInvoice invoiceId =>
      refine write_holds hrefl (fun db' hok => ⟨hb.voidInvoice hok, ?_⟩) hs
      obtain ⟨row, -, -, rfl⟩ := voidInvoice_eq_ok hok
      exact SameMoney.grows ⟨rfl, rfl, rfl⟩
  | voidDelegatedInvoice invoiceId provider =>
      cases hs
      refine ⟨hb.voidDelegatedInvoice invoiceId provider, SameMoney.grows ?_⟩
      rw [committed]
      rcases voidDelegatedInvoice_cases s.db invoiceId provider with h1 | ⟨row, -, -, -, h1⟩ <;>
        rw [h1] <;> exact ⟨rfl, rfl, rfl⟩
  | writeOffInvoice invoiceId =>
      refine write_holds hrefl (fun db' hok => ⟨hb.writeOffInvoice hok, ?_⟩) hs
      obtain ⟨row, -, -, -, rfl⟩ := writeOffInvoice_eq_ok hok
      exact SameMoney.grows ⟨rfl, rfl, rfl⟩
  | createPayment request =>
      refine write_holds hrefl (fun db' hok => ?_) hs
      obtain ⟨hi, rfl⟩ := createPayment_eq_ok hok
      exact settles_insertPayment hb fun i h1 => (hi i h1).issued
  | recordGatewayPayment invoiceId providerReference amount =>
      refine write_holds hrefl (fun db' hok => ?_) hs
      rcases recordGatewayPayment_eq_ok hok with rfl | ⟨-, row, hrow, hf, -, rfl⟩
      · exact hrefl
      · refine settles_insertPayment hb ?_
        rintro i hi'
        cases hi'
        exact ⟨row, hrow, hf⟩
  | createCreditNote request outside =>
      exact write_holds hrefl (fun db' hok => settles_createCreditNote hb hok) hs
  | startUpdate _ _ | startDeletePayment _ | startGatewayRefunds _ _ | startVoidCreditNote _ =>
      cases hs
      exact hrefl
  | commit i outside =>
      obtain ⟨c, hc, rfl⟩ := step_commit hs
      have hok := h.calls c (List.mem_of_getElem? hc)
      exact committed_holds hrefl fun db' hfin => settles_finish hb hok hfin

/-- One transaction keeps the invariant. -/
theorem step_sound {e : BillingEvent} (h : s.Sound) (hs : step s e = some s') : s'.Sound := by
  obtain ⟨hb, hg⟩ := step_settles h hs
  refine ⟨hb, fun c hc => ?_⟩
  rcases step_began hs c hc with hc | hbegan
  · exact (h.calls c hc).grows hg
  · exact hbegan.ok.grows hg

end Step

variable {time : TimeDb} {mileage : Table MileageEntry.id} {taxRates : List TaxRate}
  {products : List Product}

theorem init_sound : (init time mileage taxRates products).Sound := by
  constructor
  · refine ⟨⟨?_, ?_, ?_⟩, ?_⟩ <;> simp [init]
  · simp [init]

theorem reachable_sound {es : List BillingEvent} {s : Billing}
    (hr : run step (init time mileage taxRates products) es = some s) : s.Sound :=
  run_invariant Sound (fun _ _ _ h => step_sound h) init_sound hr

/-- In every state that any interleaving reaches, the money columns of every invoice that is not
void are what its payments, refunds and issued credit notes say. -/
theorem balance_of_reachable {es : List BillingEvent} {s : Billing}
    (hr : run step (init time mileage taxRates products) es = some s) :
    ∀ i ∈ s.db.invoices, i.status ≠ .void →
      i.amountPaid = s.db.paymentsOf i.id - s.db.refundsOf i.id ∧
      i.amountCredited = s.db.creditsOf i.id ∧
      i.balanceDue = i.total - i.amountPaid - i.amountCredited := by
  intro i hi hv
  obtain ⟨h1, h2, h3⟩ := (reachable_sound hr).balanced.squared i hi
  exact ⟨h1, h2, h3 hv⟩

/-- Two hours at 50 are invoiced and sent, and partly paid; while a refund waits for its lock, a
credit note and a second payment are committed. -/
theorem balance_of_reachable_sample :
    ∃ s, run step (init (sampleTimeDb ⟨∅, ∅⟩) ∅ [] [])
        [.createInvoice ⟨7, none, none, none, none, [⟨.service, none, true, 2, 50, none, none⟩],
            by simp⟩ "INV-1" none (.ok ()),
          .startUpdate 0 { status := some .sent }, .commit 0 (.ok ()),
          .createPayment ⟨some 0, 7, ⟨4000⟩, some "pi_1", by decide⟩,
          .startGatewayRefunds "pi_1" [⟨"re_1", 10⟩],
          .createCreditNote ⟨0, none, [⟨1, 20⟩], by simp⟩ (.ok ()),
          .recordGatewayPayment 0 "pi_2" 25, .commit 0 (.ok ())] = some s ∧
      ∀ i ∈ s.db.invoices, i.status ≠ .void →
        i.amountPaid = s.db.paymentsOf i.id - s.db.refundsOf i.id ∧
        i.amountCredited = s.db.creditsOf i.id ∧
        i.balanceDue = i.total - i.amountPaid - i.amountCredited := by
  have h : (run step (init (sampleTimeDb ⟨∅, ∅⟩) ∅ [] [])
        [.createInvoice ⟨7, none, none, none, none, [⟨.service, none, true, 2, 50, none, none⟩],
            by simp⟩ "INV-1" none (.ok ()),
          .startUpdate 0 { status := some .sent }, .commit 0 (.ok ()),
          .createPayment ⟨some 0, 7, ⟨4000⟩, some "pi_1", by decide⟩,
          .startGatewayRefunds "pi_1" [⟨"re_1", 10⟩],
          .createCreditNote ⟨0, none, [⟨1, 20⟩], by simp⟩ (.ok ()),
          .recordGatewayPayment 0 "pi_2" 25, .commit 0 (.ok ())]).any (fun s =>
        s.db.invoices.rows.map (·.balanceDue) == [⟨2500⟩]) = true := by decide +kernel
  obtain ⟨s, hs, -⟩ := exists_run_of_any h
  exact ⟨s, hs, balance_of_reachable hs⟩

end Billing

end Mokosh
