import Mokosh.Billing.Writes

/-! # What is collected on an invoice

**`no_overcollection`**: without refunds, the payments on an invoice never exceed its total and
neither do its issued credit notes, so that `balance_due` is at least minus what was paid.  It is
not negative as long as every credit note fits the balance due when it is issued; an invoice that
was paid may be credited in full, which is how the customer gets the money back
(`credit_after_payment`).

Both bounds are instances of one argument: a relation between the total of an invoice, what is paid
and what is credited that nothing paid and nothing credited satisfies, that survives taking money
away, and that a payment within the balance keeps (`Bound`). -/

namespace Mokosh

/-- A relation of the total, the amount paid and the amount credited that the operations keep. -/
structure Bound (W : Numeric 2 → Numeric 2 → Numeric 2 → Prop) : Prop where
  zero : ∀ t, W t 0 0
  less : ∀ {t p c p' c'}, W t p c → 0 ≤ p' → p' ≤ p → 0 ≤ c' → c' ≤ c → W t p' c'
  pay : ∀ {t p c a}, W t p c → 0 ≤ p → 0 ≤ c → 0 < a → a ≤ t - p - c → W t (p + a) c

/-- Neither what is paid nor what is credited exceeds the total. -/
def EachWithin (t p c : Numeric 2) : Prop := p ≤ max t 0 ∧ c ≤ max t 0

/-- What is paid and what is credited are together within the total. -/
def TogetherWithin (t p c : Numeric 2) : Prop := 0 ≤ t → p + c ≤ t

theorem eachWithin_bound : Bound EachWithin := by
  refine ⟨?_, ?_, ?_⟩
  · intro t
    exact ⟨le_max_right _ _, le_max_right _ _⟩
  · intro t p c p' c' h _ hp _ hc
    exact ⟨hp.trans h.1, hc.trans h.2⟩
  · intro t p c a h _ hc _ ha
    refine ⟨le_trans ?_ (le_max_left t 0), h.2⟩
    simp only [Numeric.le_iff_unscaled, Numeric.add_unscaled, Numeric.sub_unscaled,
      Numeric.zero_unscaled] at *
    omega

theorem togetherWithin_bound : Bound TogetherWithin := by
  refine ⟨?_, ?_, ?_⟩
  · intro t ht
    simpa using ht
  · intro t p c p' c' h _ hp _ hc ht
    exact (add_le_add hp hc).trans (h ht)
  · intro t p c a _ _ _ _ ha _
    simp only [Numeric.le_iff_unscaled, Numeric.add_unscaled, Numeric.sub_unscaled] at *
    omega

/-- Nothing is due on the invoice, or what is neither paid nor credited. -/
def Invoice.Due (i : Invoice) : Prop :=
  i.balanceDue = 0 ∨ i.balanceDue = i.total - i.amountPaid - i.amountCredited

/-- The invariant, for a relation `W`. -/
def Collected (W : Numeric 2 → Numeric 2 → Numeric 2 → Prop) (t : Table Invoice.id) : Prop :=
  ∀ i ∈ t, W i.total i.amountPaid i.amountCredited ∧ i.Due

section Tables

variable {W : Numeric 2 → Numeric 2 → Numeric 2 → Prop} {db db1 : BillingDb}
  {t : Table Invoice.id} {k : Uuid}

/-- A new invoice. -/
theorem Collected.insert (h : Collected W t) (hW : Bound W) {mk : ℕ → Invoice}
    {hk : ∀ i, (mk i).id = i} (hz : ∀ i, (mk i).amountPaid = 0 ∧ (mk i).amountCredited = 0 ∧
      (mk i).balanceDue = (mk i).total) : Collected W (t.insert mk hk) := by
  intro x hx
  rcases (Table.mem_insert).mp hx with hx | rfl
  · exact h x hx
  · obtain ⟨h1, h2, h3⟩ := hz t.next
    rw [Invoice.Due, h1, h2, h3]
    exact ⟨hW.zero _, .inr (by simp)⟩

/-- One header is written. -/
theorem Collected.update (h : Collected W t) {f : Invoice → Invoice} (hf : ∀ r, (f r).id = r.id)
    (hw : ∀ r, t.find k = some r → W (f r).total (f r).amountPaid (f r).amountCredited ∧ (f r).Due) :
    Collected W (t.update k f hf) := by
  intro x hx
  obtain ⟨r, hr, rfl⟩ := (Table.mem_update).mp hx
  split
  · next hk => exact hw r (by rw [← hk]; exact Table.find_key hr)
  · exact h r hr

/-- A status or a mark is written and the amounts are left. -/
theorem Collected.mark (h : Collected W t) {f : Invoice → Invoice} (hf : ∀ r, (f r).id = r.id)
    (ha : ∀ r, (f r).total = r.total ∧ (f r).amountPaid = r.amountPaid ∧
      (f r).amountCredited = r.amountCredited ∧
      ((f r).balanceDue = r.balanceDue ∨ (f r).balanceDue = 0)) :
    Collected W (t.update k f hf) := by
  refine h.update hf fun r hr => ?_
  obtain ⟨h1, h2, h3, h4⟩ := ha r
  obtain ⟨h5, h6⟩ := h r (Table.find_mem hr)
  rw [Invoice.Due, h1, h2, h3]
  refine ⟨h5, ?_⟩
  rcases h4 with h4 | h4
  · rw [h4]
    exact h6
  · exact .inl h4

/-- The child rows of one invoice changed, and its balance is recomputed. -/
theorem Collected.recomputeOf (h : Collected W db.invoices) (hi : db1.invoices = db.invoices)
    {o : Option Uuid} (hw : ∀ k row, o = some k → db.invoices.find k = some row →
      W row.total (db1.paidOn k) (db1.creditsOf k)) :
    Collected W (Mokosh.recomputeOf db1 o).invoices := by
  cases o with
  | none =>
      show Collected W db1.invoices
      rw [hi]
      exact h
  | some k =>
      rw [recomputeOf_invoices hi]
      exact h.update (by intro _; rfl) fun r hr => ⟨hw k r rfl hr, .inr rfl⟩

/-- The amounts of an invoice are what is paid on it and credited to it. -/
theorem Balanced.amounts (hb : Balanced db) {row : Invoice} (hrow : db.invoices.find k = some row) :
    row.amountPaid = db.paidOn k ∧ row.amountCredited = db.creditsOf k := by
  obtain ⟨h1, h2, -⟩ := hb.squared row (Table.find_mem hrow)
  rw [Table.key_of_find hrow] at h1 h2
  exact ⟨h1, h2⟩

/-- A payment that the balance covers. -/
theorem Collected.payment (h : Collected W db.invoices) (hb : Balanced db) (hp : Plain db)
    (hW : Bound W) {o : Option Uuid} {companyId : Uuid} {amount : Numeric 2}
    {reference : Option String} (ha : 0 < amount)
    (hpay : ∀ k, o = some k → Payable db.invoices k companyId amount) :
    Collected W
      (Mokosh.recomputeOf (insertPayment db o companyId amount reference) o).invoices := by
  refine h.recomputeOf (by rfl) ?_
  rintro k row rfl hrow
  obtain ⟨row', hrow', -, hle, -⟩ := hpay k rfl
  rw [hrow, Option.some.injEq] at hrow'
  subst hrow'
  obtain ⟨h1, h2⟩ := hb.amounts hrow
  have h3 : (insertPayment db (some k) companyId amount reference).paidOn k =
      row.amountPaid + amount := by
    have h4 : (insertPayment db (some k) companyId amount reference).paymentsOf k =
        db.paymentsOf k + amount := by
      refine (Table.sum_insert _ _ _ _).trans ?_
      rw [if_pos rfl]
      rfl
    rw [h1, BillingDb.paidOn, h4, BillingDb.paidOn]
    exact add_sub_right_comm _ _ _
  have h5 : (insertPayment db (some k) companyId amount reference).creditsOf k =
      row.amountCredited := h2.symm
  rw [h3, h5]
  refine hW.pay (h row (Table.find_mem hrow)).1 ?_ ?_ ha hle
  · rw [h1]
    exact hp.paid_nonneg k
  · rw [h2]
    exact hp.credits_nonneg k

/-- A credit note after which the relation still holds. -/
theorem Collected.creditNote (h : Collected W db.invoices) (hb : Balanced db) {row : Invoice}
    {amount : Numeric 2} (hrow : db.invoices.find k = some row) {mk : ℕ → CreditNote}
    {hk : ∀ j, (mk j).id = j}
    (hmk : ∀ j, (mk j).invoiceId = k ∧ (mk j).status = .issued ∧ (mk j).total = amount)
    (hw : W row.total row.amountPaid (row.amountCredited + amount)) :
    Collected W (recomputeInvoiceBalance
      { db with creditNotes := db.creditNotes.insert mk hk } k).invoices := by
  refine h.recomputeOf (o := some k) (by rfl) ?_
  intro k' row' hk' hrow'
  cases hk'
  rw [hrow, Option.some.injEq] at hrow'
  subst hrow'
  obtain ⟨h1, h2⟩ := hb.amounts hrow
  have h3 : BillingDb.creditsOf { db with creditNotes := db.creditNotes.insert mk hk } k =
      row.amountCredited + amount := by
    refine (Table.sum_insert _ _ hk _).trans ?_
    obtain ⟨h4, h5, h6⟩ := hmk db.creditNotes.next
    rw [if_pos ⟨h4, h5⟩, h6, h2]
    rfl
  have h4 : BillingDb.paidOn { db with creditNotes := db.creditNotes.insert mk hk } k =
      row.amountPaid := h1.symm
  rw [h3, h4]
  exact hw

/-- Money is taken off an invoice. -/
theorem Collected.lessen (h : Collected W db.invoices) (hb : Balanced db) (hp : Plain db)
    (hW : Bound W) (hp1 : Plain db1) (hi : db1.invoices = db.invoices)
    (hlep : ∀ k, db1.paymentsOf k ≤ db.paymentsOf k)
    (hlec : ∀ k, db1.creditsOf k ≤ db.creditsOf k) (o : Option Uuid) :
    Collected W (Mokosh.recomputeOf db1 o).invoices := by
  refine h.recomputeOf hi ?_
  intro k row _ hrow
  obtain ⟨h1, h2⟩ := hb.amounts hrow
  refine hW.less (h row (Table.find_mem hrow)).1 (hp1.paid_nonneg k) ?_ (hp1.credits_nonneg k) ?_
  · rw [h1, hp1.paidOn_eq, hp.paidOn_eq]
    exact hlep k
  · rw [h2]
    exact hlec k

theorem Collected.deletePayment (h : Collected W db.invoices) (hb : Balanced db) (hp : Plain db)
    (hW : Bound W) (paymentId : Uuid) (o : Option Uuid) :
    Collected W (commitDeletePayment db paymentId o).invoices := by
  refine h.lessen hb hp hW (hp.erasePayment paymentId) rfl ?_ (fun _ => le_rfl) o
  intro k
  unfold BillingDb.paymentsOf
  rw [Table.erase, Table.sum_filter]
  apply Table.sum_le_sum
  intro p hpm
  have h1 := (hp.payments p hpm).le
  split_ifs <;> first | exact le_rfl | exact h1

theorem Collected.voidNote (h : Collected W db.invoices) (hb : Balanced db) (hp : Plain db)
    (hW : Bound W) (creditNoteId k : Uuid) :
    Collected W (recomputeInvoiceBalance (Mokosh.voidNote db creditNoteId) k).invoices := by
  refine h.lessen hb hp hW (hp.voidNote creditNoteId) rfl (fun _ => le_rfl) ?_ (some k)
  intro j
  apply Table.sum_update_le
  · intro n hn _
    have h1 := (hp.credits n hn).le
    rw [if_neg (by simp [CreditNote.voided])]
    split
    · exact h1
    · exact le_rfl
  · exact CreditNote.voided_id

/-- An update is of an invoice that nothing is paid on or credited to. -/
theorem Collected.updateInvoice (h : Collected W db.invoices) (hb : Balanced db) (hW : Bound W)
    {current row : Invoice} {request : UpdateInvoiceRequest} {rate : Option TaxRate}
    (hrow : db.invoices.find current.id = some row) (hf : row.status.isFrozen = false)
    (o : Option Uuid) :
    Collected W (voidAmended (rewriteInvoice db current request rate) o).invoices := by
  obtain ⟨hp, hc, -, -⟩ := hb.unissued hrow hf
  have h1 : Collected W (rewriteInvoice db current request rate).invoices := by
    refine h.update (fun i => (i.rewritten_same current request _ _).1) fun r hr => ?_
    rw [hrow, Option.some.injEq] at hr
    subst hr
    obtain ⟨-, h2, h3⟩ := row.rewritten_same current request
      ((replaceLines db current.id request.lines).linesOf current.id)
      (taxOn ((replaceLines db current.id request.lines).taxableOf current.id) request.taxAmount
        rate)
    rw [Invoice.Due, h2, h3, hp, hc, Invoice.rewritten_balance hp hc]
    exact ⟨hW.zero _, .inr (by simp)⟩
  cases o with
  | none => exact h1
  | some k => exact h1.mark (by intro _; rfl) fun r => ⟨rfl, rfl, rfl, .inr rfl⟩

end Tables

/-! ### One transaction -/

/-- The credit note fits what is due of its invoice. -/
def CreditFits (db : BillingDb) (request : CreateCreditNoteRequest) : Prop :=
  ∀ row ∈ db.invoices.find request.invoiceId, ∀ total ∈ (creditNoteTotal request).toOption,
    Numeric.ofRat 2 total ≤ row.total - row.amountPaid - row.amountCredited

namespace Billing

/-- The condition on one transaction under which no balance gets negative. -/
def CreditsFit (s : Billing) : BillingEvent → Prop
  | .createCreditNote request _ => CreditFits s.db request
  | _ => True

instance (db : BillingDb) (request : CreateCreditNoteRequest) : Decidable (CreditFits db request) :=
  inferInstanceAs (Decidable (∀ row ∈ db.invoices.find request.invoiceId,
    ∀ total ∈ (creditNoteTotal request).toOption, _))

instance (s : Billing) (e : BillingEvent) : Decidable (CreditsFit s e) :=
  match e with
  | .createCreditNote request _ => inferInstanceAs (Decidable (CreditFits s.db request))
  | .time _ | .createInvoice _ _ _ _ | .createInvoiceFromTimeEntries _ _ _
  | .generateOneRecurringInvoice _ _ _ _ _ _ | .amendInvoice _ _ _ | .voidInvoice _
  | .voidDelegatedInvoice _ _ | .writeOffInvoice _ | .createPayment _
  | .recordGatewayPayment _ _ _ | .startUpdate _ _ | .startDeletePayment _
  | .startGatewayRefunds _ _ | .startVoidCreditNote _ | .commit _ _ =>
    inferInstanceAs (Decidable True)

/-- The relation survives the credit note of the event, if it is one. -/
def CreditKeeps (W : Numeric 2 → Numeric 2 → Numeric 2 → Prop) (s : Billing) (e : BillingEvent) :
    Prop :=
  ∀ request outside, e = .createCreditNote request outside → ∀ row total,
    s.db.invoices.find request.invoiceId = some row → creditNoteTotal request = .ok total →
    Creditable row total → W row.total row.amountPaid row.amountCredited →
    W row.total row.amountPaid (row.amountCredited + .ofRat 2 total)

section Step

variable {W : Numeric 2 → Numeric 2 → Numeric 2 → Prop} {s s' : Billing} {e : BillingEvent}

theorem eachWithin_creditKeeps (s : Billing) (e : BillingEvent) : CreditKeeps EachWithin s e := by
  rintro request outside - row total - - ⟨-, -, -, hle⟩ ⟨h1, -⟩
  refine ⟨h1, le_trans ?_ (le_max_left row.total 0)⟩
  rw [add_comm]
  exact le_sub_iff_add_le.mp (Numeric.ofRat_le_of_le_toRat hle)

theorem togetherWithin_creditKeeps (hc : s.CreditsFit e) : CreditKeeps TogetherWithin s e := by
  rintro request outside rfl row total hrow ht - - -
  have h1 := hc row hrow total (by rw [ht]; rfl)
  simp only [Numeric.le_iff_unscaled, Numeric.add_unscaled, Numeric.sub_unscaled] at *
  omega

theorem step_collected (h : s.Refundless) (hc : Collected W s.db.invoices) (hW : Bound W)
    (hk : CreditKeeps W s e) (hs : step s e = some s') : Collected W s'.db.invoices := by
  have hb := h.balanced
  have hp := h.plain
  have hw := step_wrote hs
  generalize s'.db = db' at hw ⊢
  cases hw with
  | idle hi hm =>
      rw [hi]
      exact hc
  | create hid hnew hi hm =>
      rw [hi]
      exact hc.insert hW fun i =>
        ⟨(hnew i).amountPaid, (hnew i).amountCredited, (hnew i).balanceDue⟩
  | amend hrow hst hpaid hcr hno hi hm =>
      rw [hi]
      exact hc.insert hW fun i => ⟨rfl, rfl, rfl⟩
  | void hrow hf => exact hc.mark (by intro _; rfl) fun r => ⟨rfl, rfl, rfl, .inl rfl⟩
  | voidDelegated hrow hpr hne => exact hc.mark (by intro _; rfl) fun r => ⟨rfl, rfl, rfl, .inl rfl⟩
  | writeOff hrow hst hd => exact hc.mark (by intro _; rfl) fun r => ⟨rfl, rfl, rfl, .inl rfl⟩
  | @payment request hpay => exact hc.payment hb hp hW request.amount_pos hpay
  | @gatewayPayment k reference amount row ha hrow hf hle =>
      refine hc.payment hb hp hW ha fun k' hk' => ?_
      cases hk'
      exact ⟨row, hrow, hf, Numeric.ofRat_le_of_le_toRat hle, rfl⟩
  | creditNote hrow ht hcr ha hmk =>
      refine hc.creditNote hb hrow (fun j => ⟨(hmk j).1, (hmk j).2.2⟩) ?_
      exact hk _ _ rfl _ _ hrow ht hcr (hc _ (Table.find_mem hrow)).1
  | update hcall hrow hf hamend => exact hc.updateInvoice hb hW hrow hf _
  | deletePayment hcall => exact hc.deletePayment hb hp hW _ _
  | refunds hcall hins => exact absurd (List.mem_of_getElem? hcall) (h.waiting _ _ _)
  | voidCreditNote hcall => exact hc.voidNote hb hp hW _ _

end Step

/-! ### Refusals -/

section Refusals

variable {s : Billing}

/-- An operation that fails changes nothing. -/
theorem write_error {r : AppResult BillingDb} (h : ∃ err, r = .error err) : s.write r = some s := by
  obtain ⟨err, rfl⟩ := h
  rfl

/-- A payment of more than what is left to pay is refused. -/
theorem createPayment_refused {db : BillingDb} {request : CreatePaymentRequest} {k : Uuid}
    {row : Invoice} (hk : request.invoiceId = some k) (hrow : db.invoices.find k = some row)
    (hlt : row.total - row.amountPaid - row.amountCredited < request.amount) :
    ∃ err, createPayment db request = .error err := by
  cases h : createPayment db request with
  | error err => exact ⟨err, rfl⟩
  | ok db' =>
      obtain ⟨row', hrow', -, hle, -⟩ := (createPayment_eq_ok h).1 k hk
      rw [hrow, Option.some.injEq] at hrow'
      subst hrow'
      exact absurd hle (not_le.mpr hlt)

/-- A credit note of more than what is left to credit is refused. -/
theorem createCreditNote_refused {db : BillingDb} {request : CreateCreditNoteRequest}
    {outside : AppResult Unit} {row : Invoice} {total : ℚ}
    (hrow : db.invoices.find request.invoiceId = some row)
    (ht : creditNoteTotal request = .ok total)
    (hlt : (row.total - row.amountCredited).toRat < total) :
    ∃ err, createCreditNote db request outside = .error err := by
  cases h : createCreditNote db request outside with
  | error err => exact ⟨err, rfl⟩
  | ok db' =>
      obtain ⟨row', total', hrow', ht', ⟨-, -, -, hle⟩, -⟩ := createCreditNote_eq_ok h
      rw [hrow, Option.some.injEq] at hrow'
      rw [ht, Except.ok.injEq] at ht'
      subst hrow' ht'
      exact absurd hle (not_le.mpr hlt)

end Refusals

/-! ### Runs -/

variable {time : TimeDb} {mileage : Table MileageEntry.id} {taxRates : List TaxRate}
  {products : List Product}

/-- A run without refunds keeps the relation, if its credit notes do. -/
theorem run_collected {W : Numeric 2 → Numeric 2 → Numeric 2 → Prop} (hW : Bound W)
    {C : Billing → BillingEvent → Prop} (hk : ∀ s e, C s e → CreditKeeps W s e)
    {es : List BillingEvent} {s : Billing} (he : ∀ e ∈ es, e.refundless = true)
    (hc : StepsMeet step C (init time mileage taxRates products) es)
    (hr : run step (init time mileage taxRates products) es = some s) :
    s.Refundless ∧ Collected W s.db.invoices := by
  refine run_invariant_of_stepsMeet (fun s => s.Refundless ∧ Collected W s.db.invoices) ?_
    ⟨init_refundless, by simp [Collected, init]⟩ (hc.and_events he) hr
  rintro s e s' ⟨h1, h2⟩ ⟨h3, h4⟩ hs
  exact ⟨step_refundless h1 h3 hs, step_collected h1 h2 hW (hk s e h4) hs⟩

/-- Without refunds, payments and issued credit notes are each within the total of their invoice,
what is due is at least minus what was paid, and not negative if every credit note fitted what was
due.  A call that would exceed the balance is refused and changes nothing. -/
theorem no_overcollection {es : List BillingEvent} {s : Billing}
    (he : ∀ e ∈ es, e.refundless = true)
    (hr : run step (init time mileage taxRates products) es = some s) :
    (∀ i ∈ s.db.invoices, 0 ≤ i.total →
      s.db.paymentsOf i.id ≤ i.total ∧ s.db.creditsOf i.id ≤ i.total ∧
      -i.amountPaid ≤ i.balanceDue ∧
      (StepsMeet step CreditsFit (init time mileage taxRates products) es → 0 ≤ i.balanceDue)) ∧
    (∀ request k row, request.invoiceId = some k → s.db.invoices.find k = some row →
      row.total - row.amountPaid - row.amountCredited < request.amount →
      (∃ err, createPayment s.db request = .error err) ∧
        step s (.createPayment request) = some s) ∧
    ∀ request outside row total, s.db.invoices.find request.invoiceId = some row →
      creditNoteTotal request = .ok total → (row.total - row.amountCredited).toRat < total →
      (∃ err, createCreditNote s.db request outside = .error err) ∧
        step s (.createCreditNote request outside) = some s := by
  obtain ⟨h1, hw⟩ := run_collected eachWithin_bound (C := fun _ _ => True)
    (fun s e _ => eachWithin_creditKeeps s e) he (stepsMeet_true _ _) hr
  refine ⟨?_, ?_, ?_⟩
  · intro i hi ht
    obtain ⟨hp, hc⟩ := h1.balanced.amounts (Table.find_key hi)
    obtain ⟨⟨hpw, hcw⟩, hdue⟩ := hw i hi
    rw [max_eq_left ht] at hpw hcw
    have hp0 := h1.plain.paid_nonneg i.id
    rw [← hp] at hp0
    refine ⟨?_, hc ▸ hcw, ?_, fun hfit => ?_⟩
    · rw [← h1.plain.paidOn_eq, ← hp]
      exact hpw
    · simp only [Numeric.le_iff_unscaled, Numeric.neg_unscaled, Numeric.zero_unscaled] at *
      rcases hdue with hdue | hdue <;> rw [hdue] <;>
        simp only [Numeric.sub_unscaled, Numeric.zero_unscaled] <;> omega
    · obtain ⟨-, h2⟩ := run_collected togetherWithin_bound
        (fun s e => togetherWithin_creditKeeps) he hfit hr
      have h3 := (h2 i hi).1 ht
      rcases hdue with hdue | hdue <;> rw [hdue]
      rw [sub_sub]
      exact sub_nonneg.mpr h3
  · intro request k row hk hrow hlt
    have h2 := createPayment_refused hk hrow hlt
    exact ⟨h2, write_error h2⟩
  · intro request outside row total hrow ht hlt
    have h2 : ∃ err, createCreditNote s.db request outside = .error err :=
      createCreditNote_refused hrow ht hlt
    exact ⟨h2, write_error h2⟩

/-- An invoice of 100 is sent and paid, and then 100 are credited: 100 are due to the customer. -/
theorem credit_after_payment :
    ∃ s, run step (init (sampleTimeDb ⟨∅, ∅⟩) ∅ [] []) (sampleInvoice ++
        [.startUpdate 0 { status := some .sent }, .commit 0 (.ok ()),
          .createPayment ⟨some 0, 7, ⟨10000⟩, none, by decide⟩,
          .createCreditNote ⟨0, none, [⟨1, 100⟩], by simp⟩ (.ok ())]) = some s ∧
      ∃ i ∈ s.db.invoices, i.balanceDue < 0 := by
  have h : (run step (init (sampleTimeDb ⟨∅, ∅⟩) ∅ [] []) (sampleInvoice ++
      [.startUpdate 0 { status := some .sent }, .commit 0 (.ok ()),
        .createPayment ⟨some 0, 7, ⟨10000⟩, none, by decide⟩,
        .createCreditNote ⟨0, none, [⟨1, 100⟩], by simp⟩ (.ok ())])).any (fun s =>
      s.db.invoices.rows.any fun i => decide (i.balanceDue < 0)) = true := by decide +kernel
  obtain ⟨s, hs, hp⟩ := exists_run_of_any h
  obtain ⟨i, hi, hlt⟩ := List.any_eq_true.mp hp
  exact ⟨s, hs, i, hi, by simpa using hlt⟩

/-- Of an invoice of 100, 40 are paid; while the deletion of that payment waits for its lock, 60 are
credited; then it is deleted, and 10 are paid. -/
theorem no_overcollection_sample :
    ∃ s, run step (init (sampleTimeDb ⟨∅, ∅⟩) ∅ [] []) (sampleInvoice ++
        [.startUpdate 0 { status := some .sent }, .commit 0 (.ok ()),
          .createPayment ⟨some 0, 7, ⟨4000⟩, none, by decide⟩, .startDeletePayment 0,
          .createCreditNote ⟨0, none, [⟨1, 60⟩], by simp⟩ (.ok ()),
          .commit 0 (.ok ()), .createPayment ⟨some 0, 7, ⟨1000⟩, none, by decide⟩]) = some s ∧
      ∀ i ∈ s.db.invoices, 0 ≤ i.total →
        s.db.paymentsOf i.id ≤ i.total ∧ s.db.creditsOf i.id ≤ i.total ∧ 0 ≤ i.balanceDue := by
  have h : (run step (init (sampleTimeDb ⟨∅, ∅⟩) ∅ [] []) (sampleInvoice ++
      [.startUpdate 0 { status := some .sent }, .commit 0 (.ok ()),
        .createPayment ⟨some 0, 7, ⟨4000⟩, none, by decide⟩, .startDeletePayment 0,
        .createCreditNote ⟨0, none, [⟨1, 60⟩], by simp⟩ (.ok ()),
        .commit 0 (.ok ()), .createPayment ⟨some 0, 7, ⟨1000⟩, none, by decide⟩])).any (fun s =>
      s.db.invoices.rows.map (·.balanceDue) == [⟨3000⟩]) = true := by decide +kernel
  obtain ⟨s, hs, -⟩ := exists_run_of_any h
  refine ⟨s, hs, fun i hi ht => ?_⟩
  obtain ⟨h1, h2, -, h3⟩ := (no_overcollection (by decide) hs).1 i hi ht
  exact ⟨h1, h2, h3 (by decide +kernel)⟩

end Billing

end Mokosh
