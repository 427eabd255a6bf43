import Mokosh.Billing.Writes

/-! # Void invoices

**`void_carries_no_money`**: in a run whose steps meet `LeavesVoidEmpty`, nothing is due on a void
invoice and no payment is on it, and its row never changes again.

The condition is needed because neither void takes the balance off the invoice, as the one that
replaces an amended invoice does, and because every path that recomputes a balance takes a void
invoice for one that can be paid (`void_keeps_its_balance`):

* what is voided has nothing due and no payment row, which one that was refunded in full has;
* no payment that fits arrives for a void invoice;
* no call that waited for its lock finds its invoice void.

A void invoice that meets it is left alone by every transaction (`VoidEmpty.update`). -/

namespace Mokosh

/-- No payment is recorded on the invoice. -/
def Unpaid (db : BillingDb) (invoiceId : Uuid) : Prop :=
  ∀ p ∈ db.payments.rows, p.invoiceId ≠ some invoiceId

/-- The invoice of a call, if it has one, is not void. -/
def Standing (db : BillingDb) (o : Option Uuid) : Prop :=
  ∀ k ∈ o, ∀ row ∈ db.invoices.find k, row.status ≠ .void

/-- The invariant: there is no money on a void invoice, and the mark of a void shows. -/
structure VoidEmpty (db : BillingDb) : Prop where
  due : ∀ i ∈ db.invoices, i.status = .void → i.balanceDue = 0
  unpaid : ∀ i ∈ db.invoices, i.status = .void → Unpaid db i.id
  marked : ∀ i ∈ db.invoices, i.voidedAt = true → i.status = .void

/-- What is void stays as it is. -/
def VoidStays (db db' : BillingDb) : Prop :=
  ∀ i ∈ db.invoices, i.status = .void → i ∈ db'.invoices

/-- The row can take the place of one that is not void. -/
def EmptyIfVoid (db : BillingDb) (i : Invoice) : Prop :=
  (i.status = .void → i.balanceDue = 0 ∧ Unpaid db i.id) ∧ (i.voidedAt = true → i.status = .void)

section Tables

variable {db db' : BillingDb} {k : Uuid} {o : Option Uuid}

theorem standing_of_find {row : Invoice} (hrow : db.invoices.find k = some row)
    (hs : row.status ≠ .void) : Standing db (some k) := by
  intro k' hk' r hr
  rw [Option.mem_some_iff] at hk'
  rw [← hk', Option.mem_def, hrow, Option.some.injEq] at hr
  rwa [← hr]

theorem VoidStays.trans {db'' : BillingDb} (h : VoidStays db db') (h' : VoidStays db' db'') :
    VoidStays db db'' := fun i hi hv => h' i (h i hi hv) hv

theorem VoidEmpty.idle (h : VoidEmpty db) (hi : db'.invoices = db.invoices)
    (hp : db'.payments = db.payments) : VoidEmpty db' ∧ VoidStays db db' := by
  refine ⟨⟨?_, ?_, ?_⟩, ?_⟩
  · rw [hi]
    exact h.due
  · unfold Unpaid
    rw [hi, hp]
    exact h.unpaid
  · rw [hi]
    exact h.marked
  · intro i hm _
    rwa [hi]

/-- A new invoice is not void. -/
theorem VoidEmpty.insert (h : VoidEmpty db) {mk : ℕ → Invoice} {hk : ∀ i, (mk i).id = i}
    (hi : db'.invoices = db.invoices.insert mk hk) (hp : db'.payments = db.payments)
    (hs : ∀ i, (mk i).status ≠ .void) (hv : ∀ i, (mk i).voidedAt = false) :
    VoidEmpty db' ∧ VoidStays db db' := by
  have hold : ∀ x ∈ db'.invoices, x.status = .void ∨ x.voidedAt = true → x ∈ db.invoices := by
    intro x hx hxv
    rw [hi] at hx
    rcases (Table.mem_insert).mp hx with hx | rfl
    · exact hx
    · rcases hxv with hxv | hxv
      · exact absurd hxv (hs _)
      · rw [hv] at hxv
        exact absurd hxv (by simp)
  refine ⟨⟨?_, ?_, ?_⟩, ?_⟩
  · intro x hx hxv
    exact h.due x (hold x hx (.inl hxv)) hxv
  · intro x hx hxv p hpm
    rw [hp] at hpm
    exact h.unpaid x (hold x hx (.inl hxv)) hxv p hpm
  · intro x hx hxv
    exact h.marked x (hold x hx (.inr hxv)) hxv
  · intro x hx _
    rw [hi]
    exact (Table.mem_insert).mpr (.inl hx)

/-- One invoice that is not void is written, and payments come in for it alone. -/
theorem VoidEmpty.update (h : VoidEmpty db) {f : Invoice → Invoice} (hf : ∀ r, (f r).id = r.id)
    (hi : db'.invoices = db.invoices.update k f hf)
    (hp : ∀ p ∈ db'.payments, p ∈ db.payments ∨ p.invoiceId = some k)
    (hst : Standing db (some k))
    (hrow : ∀ row, db.invoices.find k = some row → row.status ≠ .void →
      EmptyIfVoid db' (f row)) :
    VoidEmpty db' ∧ VoidStays db db' := by
  have hne : ∀ x ∈ db.invoices, x.id = k → x.status ≠ .void := by
    rintro x hx rfl
    exact hst x.id rfl x (Table.find_key hx)
  -- A row of the new table is the one that is written, or an old one of another invoice.
  have hmem : ∀ x ∈ db'.invoices, EmptyIfVoid db' x ∨ x ∈ db.invoices ∧ x.id ≠ k := by
    intro x hx
    rw [hi] at hx
    obtain ⟨r, hr, rfl⟩ := (Table.mem_update).mp hx
    split
    · next hk =>
      refine .inl (hrow r ?_ (hne r hr hk))
      rw [← hk]
      exact Table.find_key hr
    · next hk => exact .inr ⟨hr, hk⟩
  refine ⟨⟨?_, ?_, ?_⟩, ?_⟩
  · intro x hx hv
    rcases hmem x hx with h1 | ⟨hx1, -⟩
    · exact (h1.1 hv).1
    · exact h.due x hx1 hv
  · intro x hx hv
    rcases hmem x hx with h1 | ⟨hx1, hk⟩
    · exact (h1.1 hv).2
    · intro p hpm hpi
      rcases hp p hpm with hpm | hpk
      · exact h.unpaid x hx1 hv p hpm hpi
      · rw [hpk, Option.some.injEq] at hpi
        exact hk hpi.symm
  · intro x hx hv
    rcases hmem x hx with h1 | ⟨hx1, -⟩
    · exact h1.2 hv
    · exact h.marked x hx1 hv
  · intro x hx hv
    rw [hi]
    exact (Table.mem_update).mpr ⟨x, hx, if_neg fun hk => hne x hx hk hv⟩

theorem Invoice.recomputed_emptyIfVoid {i : Invoice} (hs : i.status ≠ .void)
    (hv : i.voidedAt = false) (paid credited : Numeric 2) :
    EmptyIfVoid db (i.recomputed paid credited) := by
  have hne : (i.recomputed paid credited).status ≠ .void := by
    unfold recomputed
    simp only [hv]
    split_ifs <;> simp_all
  refine ⟨fun h => absurd h hne, fun h => ?_⟩
  have h1 : i.voidedAt = true := h
  rw [hv] at h1
  exact absurd h1 (by simp)

theorem VoidEmpty.not_voidedAt (h : VoidEmpty db) {row : Invoice}
    (hrow : db.invoices.find k = some row) (hs : row.status ≠ .void) : row.voidedAt = false := by
  by_contra hv
  exact hs (h.marked row (Table.find_mem hrow) (by simpa using hv))

/-- The balance of an invoice that is not void is recomputed. -/
theorem VoidEmpty.recomputeOf (h : VoidEmpty db) {db1 : BillingDb}
    (hi : db1.invoices = db.invoices)
    (hp : ∀ p ∈ db1.payments, p ∈ db.payments ∨ p.invoiceId = o) (hst : Standing db o) :
    VoidEmpty (Mokosh.recomputeOf db1 o) ∧ VoidStays db (Mokosh.recomputeOf db1 o) := by
  cases o with
  | none =>
      have hup : ∀ x ∈ db.invoices, x.status = .void → Unpaid db1 x.id := by
        intro x hx hv p hpm hpi
        rcases hp p hpm with hpm | hpn
        · exact h.unpaid x hx hv p hpm hpi
        · rw [hpn] at hpi
          exact absurd hpi (by simp)
      rw [← hi] at hup
      have hdue := h.due
      have hmarked := h.marked
      rw [← hi] at hdue hmarked
      refine ⟨⟨hdue, hup, hmarked⟩, fun i hm _ => ?_⟩
      show i ∈ db1.invoices
      rwa [hi]
  | some k =>
      refine h.update (by intro _; rfl) (recomputeOf_invoices hi k) hp hst ?_
      intro row hrow hs
      exact Invoice.recomputed_emptyIfVoid hs (h.not_voidedAt hrow hs) _ _

/-- An invoice without money is voided. -/
theorem VoidEmpty.void (h : VoidEmpty db) {row : Invoice} (hrow : db.invoices.find k = some row)
    (hs : row.status ≠ .void) (hd : row.balanceDue = 0) (hu : Unpaid db k) :
    VoidEmpty { db with invoices := db.invoices.update k (·.voided) } ∧
      VoidStays db { db with invoices := db.invoices.update k (·.voided) } := by
  refine h.update (by intro _; rfl) rfl (fun p hp => .inl hp) (standing_of_find hrow hs) ?_
  intro r hr _
  rw [hrow, Option.some.injEq] at hr
  subst hr
  refine ⟨fun _ => ⟨hd, ?_⟩, fun _ => rfl⟩
  show Unpaid db row.id
  rw [Table.key_of_find hrow]
  exact hu

end Tables

/-! ### One transaction -/

namespace Billing

/-- The condition on the rest of a call. -/
def CallLeavesVoidEmpty (db : BillingDb) : BillingCall → Prop
  | .update current request =>
    ∀ row ∈ db.invoices.find current.id, ∀ k ∈ replacedBy row current request, Unpaid db k
  | .deletePayment _ o => Standing db o
  | .gatewayRefunds _ o _ => Standing db o
  | .voidCreditNote _ k => Standing db (some k)

/-- The condition on one transaction. -/
def LeavesVoidEmpty (s : Billing) : BillingEvent → Prop
  | .voidInvoice k =>
    ∀ row ∈ s.db.invoices.find k, row.status.isFrozen = false → row.balanceDue = 0
  | .voidDelegatedInvoice k provider =>
    ∀ row ∈ s.db.invoices.find k, row.externalProvider = some provider → row.status ≠ .void →
      row.balanceDue = 0 ∧ Unpaid s.db k
  | .createPayment request =>
    ∀ k ∈ request.invoiceId, ∀ row ∈ s.db.invoices.find k, row.status = .void →
      row.total - row.amountPaid - row.amountCredited < request.amount
  | .recordGatewayPayment k _ amount =>
    ∀ row ∈ s.db.invoices.find k, row.status = .void →
      (row.total - row.amountPaid - row.amountCredited).toRat < amount
  | .commit i _ => ∀ c ∈ s.calls[i]?, CallLeavesVoidEmpty s.db c
  | _ => True

instance (db : BillingDb) (k : Uuid) : Decidable (Unpaid db k) :=
  inferInstanceAs (Decidable (∀ p ∈ db.payments.rows, _))

instance (db : BillingDb) (o : Option Uuid) : Decidable (Standing db o) :=
  inferInstanceAs (Decidable (∀ k ∈ o, ∀ row ∈ db.invoices.find k, _))

instance (db : BillingDb) (c : BillingCall) : Decidable (CallLeavesVoidEmpty db c) :=
  match c with
  | .update current request => inferInstanceAs (Decidable (∀ row ∈ db.invoices.find current.id,
      ∀ k ∈ replacedBy row current request, Unpaid db k))
  | .deletePayment _ o | .gatewayRefunds _ o _ => inferInstanceAs (Decidable (Standing db o))
  | .voidCreditNote _ k => inferInstanceAs (Decidable (Standing db (some k)))

instance (s : Billing) (e : BillingEvent) : Decidable (LeavesVoidEmpty s e) :=
  match e with
  | .voidInvoice k =>
    inferInstanceAs (Decidable (∀ row ∈ s.db.invoices.find k, _ → _))
  | .voidDelegatedInvoice k _ =>
    inferInstanceAs (Decidable (∀ row ∈ s.db.invoices.find k, _ → _ → _ ∧ Unpaid s.db k))
  | .createPayment request =>
    inferInstanceAs (Decidable (∀ k ∈ request.invoiceId, ∀ row ∈ s.db.invoices.find k, _ → _))
  | .recordGatewayPayment k _ _ =>
    inferInstanceAs (Decidable (∀ row ∈ s.db.invoices.find k, _ → _))
  | .commit i _ => inferInstanceAs (Decidable (∀ c ∈ s.calls[i]?, CallLeavesVoidEmpty s.db c))
  | .time _ | .createInvoice _ _ _ _ | .createInvoiceFromTimeEntries _ _ _
  | .generateOneRecurringInvoice _ _ _ _ _ _ | .amendInvoice _ _ _ | .writeOffInvoice _
  | .createCreditNote _ _ | .startUpdate _ _ | .startDeletePayment _ | .startGatewayRefunds _ _
  | .startVoidCreditNote _ => inferInstanceAs (Decidable True)

/-- No waiting update asks for a void. -/
def AsksNoVoid : BillingCall → Prop
  | .update _ request => request.status ≠ some .void
  | .deletePayment _ _ | .gatewayRefunds _ _ _ | .voidCreditNote _ _ => True

/-- The invariant of the runs that leave void invoices empty. -/
structure Cleared (s : Billing) : Prop extends Sound s where
  void : VoidEmpty s.db
  asks : ∀ c ∈ s.calls, AsksNoVoid c

section Step

variable {s s' : Billing} {e : BillingEvent}

/-- No payment is on an invoice that is not issued. -/
theorem Sound.unpaid (h : s.Sound) {k : Uuid} {row : Invoice}
    (hrow : s.db.invoices.find k = some row) (hf : row.status.isFrozen = false) :
    Unpaid s.db k := by
  intro p hp hpk
  obtain ⟨i, hi, hz⟩ := h.balanced.payment p hp k hpk
  rw [hrow, Option.some.injEq] at hi
  rw [← hi, hf] at hz
  exact absurd hz (by simp)

/-- An update leaves void invoices alone, and the invoice it replaces has no payments. -/
theorem Cleared.update (h : s.Cleared) {current row : Invoice} {request : UpdateInvoiceRequest}
    {rate : Option TaxRate} (hrow : s.db.invoices.find current.id = some row)
    (hf : row.status.isFrozen = false) (hv : request.status ≠ some .void)
    (hamend : checkAmended s.db (replacedBy row current request) = .ok ())
    (hu : ∀ k ∈ replacedBy row current request, Unpaid s.db k) :
    let db' := voidAmended (rewriteInvoice s.db current request rate)
      (replacedBy row current request)
    VoidEmpty db' ∧ VoidStays s.db db' := by
  have hs : row.status ≠ .void := InvoiceStatus.ne_of_unfrozen hf rfl
  have hpay := (rewriteInvoice_sameMoney s.db current request rate).1
  have h1 : VoidEmpty (rewriteInvoice s.db current request rate) ∧
      VoidStays s.db (rewriteInvoice s.db current request rate) := by
    refine h.void.update (fun i => (i.rewritten_same current request _ _).1) rfl
      (fun p hp => .inl (by rwa [hpay] at hp)) (standing_of_find hrow hs) ?_
    intro r hr _
    rw [hrow, Option.some.injEq] at hr
    subst hr
    obtain ⟨h2, h3, -, -⟩ := row.rewritten_marks current request
      ((replaceLines s.db current.id request.lines).linesOf current.id)
      (taxOn ((replaceLines s.db current.id request.lines).taxableOf current.id)
        request.taxAmount rate)
    refine ⟨fun h4 => ?_, fun h4 => ?_⟩
    · rw [h2] at h4
      exact absurd h4 (UpdateInvoiceRequest.status_ne hv hs)
    · rw [h3, h.void.not_voidedAt hrow hs] at h4
      exact absurd h4 (by simp)
  cases hrep : replacedBy row current request with
  | none => exact h1
  | some o =>
      rw [hrep] at hamend
      obtain ⟨original, ho, hst, -, -⟩ := checkAmended_eq_ok hamend
      have ho' : (rewriteInvoice s.db current request rate).invoices.find o = some original :=
        (rewriteInvoice_find_ne (ne_of_checkAmended hamend hrow hf)).trans ho
      have hu' : Unpaid (rewriteInvoice s.db current request rate) o := by
        unfold Unpaid
        rw [hpay]
        exact hu o hrep
      have h2 : VoidEmpty (voidAmended (rewriteInvoice s.db current request rate) (some o)) ∧
          VoidStays (rewriteInvoice s.db current request rate)
            (voidAmended (rewriteInvoice s.db current request rate) (some o)) := by
        refine h1.1.update (by intro _; rfl) rfl (fun p hp => .inl hp)
          (standing_of_find ho' (by rw [hst]; simp)) ?_
        intro r hr _
        refine ⟨fun _ => ⟨rfl, ?_⟩, fun _ => rfl⟩
        show Unpaid (rewriteInvoice s.db current request rate) r.id
        rw [Table.key_of_find hr]
        exact hu'
      exact ⟨h2.1, h1.2.trans h2.2⟩

/-- A payment row that is inserted is on the invoice that is paid. -/
theorem mem_insertPayment {db : BillingDb} {o : Option Uuid} {companyId : Uuid}
    {amount : Numeric 2} {reference : Option String} {p : Payment}
    (hp : p ∈ (insertPayment db o companyId amount reference).payments) :
    p ∈ db.payments ∨ p.invoiceId = o := by
  rcases (Table.mem_insert).mp hp with hp | rfl
  · exact .inl hp
  · exact .inr rfl

/-- One transaction that meets the condition leaves the void invoices empty and as they are. -/
theorem step_void (h : s.Cleared) (hc : s.LeavesVoidEmpty e) (hs : step s e = some s') :
    VoidEmpty s'.db ∧ VoidStays s.db s'.db := by
  have hv := h.void
  have hw := step_wrote hs
  generalize s'.db = db' at hw ⊢
  cases hw with
  | idle hi hm => exact hv.idle hi hm.1
  | create hk hnew hi hm =>
      refine hv.insert hi hm.1 (fun i => ?_) fun i => (hnew i).voidedAt
      rcases (hnew i).status with ⟨h1, -⟩ | ⟨h1, -⟩ <;> simp [h1]
  | amend hrow hst hp hcr hno hi hm =>
      exact hv.insert hi hm.1 (fun i => by simp [Invoice.amendment]) fun _ => rfl
  | void hrow hf =>
      exact hv.void hrow (InvoiceStatus.ne_of_unfrozen hf rfl) (hc _ hrow hf)
        (h.toSound.unpaid hrow hf)
  | voidDelegated hrow hp hne =>
      obtain ⟨h1, h2⟩ := hc _ hrow hp hne
      exact hv.void hrow hne h1 h2
  | @writeOff k row hrow hst hd =>
      have hne : row.status ≠ .void := by
        rcases hst with h1 | h1 <;> simp [h1]
      refine hv.update (by intro _; rfl) rfl (fun p hp => .inl hp) (standing_of_find hrow hne) ?_
      intro r hr hrv
      refine ⟨fun h1 => absurd h1 (by simp [Invoice.writtenOffNow]), fun h1 => ?_⟩
      have h2 : r.voidedAt = true := h1
      rw [hv.not_voidedAt hr hrv] at h2
      exact absurd h2 (by simp)
  | payment hp =>
      refine hv.recomputeOf rfl (fun p => mem_insertPayment) ?_
      intro k hk row hrow hvoid
      obtain ⟨row', hrow', -, hle, -⟩ := hp k hk
      rw [Option.mem_def, hrow', Option.some.injEq] at hrow
      subst hrow
      exact absurd hle (not_le.mpr (hc k hk row' hrow' hvoid))
  | gatewayPayment ha hrow hf hle =>
      refine hv.recomputeOf rfl (fun p => mem_insertPayment) (standing_of_find hrow ?_)
      intro hvoid
      exact absurd hle (not_le.mpr (hc _ hrow hvoid))
  | creditNote hrow ht hcr ha hmk =>
      exact hv.recomputeOf (o := some _) rfl (fun p hp => .inl hp)
        (standing_of_find hrow hcr.2.2.1)
  | update hcall hrow hf hamend =>
      exact h.update hrow hf (h.asks _ (List.mem_of_getElem? hcall)) hamend (hc _ hcall _ hrow)
  | deletePayment hcall =>
      exact hv.recomputeOf rfl (fun p hp => .inl (Table.mem_erase.mp hp).1) (hc _ hcall)
  | refunds hcall hins =>
      obtain ⟨hi, -, -, -, hpay, -⟩ := insertRefunds_frame hins
      exact hv.recomputeOf hi (fun p hp => .inl (by rwa [hpay] at hp)) (hc _ hcall)
  | voidCreditNote hcall =>
      exact hv.recomputeOf (o := some _) rfl (fun p hp => .inl hp) (hc _ hcall)

theorem step_cleared (h : s.Cleared) (hc : s.LeavesVoidEmpty e) (hs : step s e = some s') :
    s'.Cleared := by
  refine ⟨step_sound h.toSound hs, (step_void h hc hs).1, ?_⟩
  intro c hm
  rcases step_callRead hs c hm with hm | hread
  · exact h.asks c hm
  · cases c with
    | update current request => exact hread.1
    | deletePayment paymentId o => trivial
    | gatewayRefunds paymentId o rs => trivial
    | voidCreditNote creditNoteId i => trivial

end Step

/-! ### Runs -/

variable {time : TimeDb} {mileage : Table MileageEntry.id} {taxRates : List TaxRate}
  {products : List Product}

theorem init_cleared : (init time mileage taxRates products).Cleared := by
  refine ⟨init_sound, ?_, by simp [init]⟩
  constructor <;> simp [init]

/-- A run that meets the condition keeps the invariant and the invoices that were void. -/
theorem run_void {s t : Billing} {es : List BillingEvent} (h : s.Cleared)
    (hc : StepsMeet step LeavesVoidEmpty s es) (hr : run step s es = some t) :
    t.Cleared ∧ VoidStays s.db t.db := by
  refine run_invariant_of_stepsMeet (fun u => u.Cleared ∧ VoidStays s.db u.db) ?_
    ⟨h, fun i hi _ => hi⟩ hc hr
  rintro u e u' ⟨h1, h2⟩ h3 hs
  exact ⟨step_cleared h1 h3 hs, h2.trans (step_void h1 h3 hs).2⟩

/-- In every state of a run whose steps meet the condition, a void invoice has nothing due and no
payment on it, and whatever runs later leaves its row as it is. -/
theorem void_carries_no_money {es es' : List BillingEvent} {s t : Billing}
    (hc : StepsMeet step LeavesVoidEmpty (init time mileage taxRates products) (es ++ es'))
    (hs : run step (init time mileage taxRates products) es = some s)
    (ht : run step s es' = some t) :
    (∀ i ∈ s.db.invoices, i.status = .void →
      i.balanceDue = 0 ∧ (∀ p ∈ s.db.payments, p.invoiceId ≠ some i.id) ∧ i ∈ t.db.invoices) ∧
    ∀ i ∈ t.db.invoices, i.status = .void →
      i.balanceDue = 0 ∧ ∀ p ∈ t.db.payments, p.invoiceId ≠ some i.id := by
  obtain ⟨hc1, hc2⟩ := stepsMeet_append.mp hc
  obtain ⟨h1, -⟩ := run_void init_cleared hc1 hs
  obtain ⟨h2, h3⟩ := run_void h1 (hc2 s hs) ht
  refine ⟨fun i hi hv => ⟨h1.void.due i hi hv, h1.void.unpaid i hi hv, h3 i hi hv⟩, ?_⟩
  intro i hi hv
  exact ⟨h2.void.due i hi hv, h2.void.unpaid i hi hv⟩

/-- A draft of 100 is voided and 100 stay due on it.  An invoice of 100 is sent, amended and
replaced, which leaves nothing due on it; then 40 are paid on it, which makes 60 due. -/
theorem void_keeps_its_balance :
    (∃ s, run step (init (sampleTimeDb ⟨∅, ∅⟩) ∅ [] []) (sampleInvoice ++ [.voidInvoice 0]) =
        some s ∧ ∃ i ∈ s.db.invoices, i.status = .void ∧ i.balanceDue ≠ 0) ∧
    ∃ s t, run step (init (sampleTimeDb ⟨∅, ∅⟩) ∅ [] []) (sampleInvoice ++ sampleReplace) = some s ∧
      run step s [.createPayment ⟨some 0, 7, ⟨4000⟩, none, by decide⟩] = some t ∧
      ∃ i ∈ s.db.invoices, i.status = .void ∧ i.balanceDue = 0 ∧
        ∃ j ∈ t.db.invoices, j.id = i.id ∧ j.status = .void ∧ j.balanceDue ≠ 0 ∧
          ∃ p ∈ t.db.payments, p.invoiceId = some j.id := by
  constructor
  · have h : (run step (init (sampleTimeDb ⟨∅, ∅⟩) ∅ [] []) (sampleInvoice ++ [.voidInvoice 0])).any
        (fun s => s.db.invoices.rows.any fun i => decide (i.status = .void ∧ i.balanceDue ≠ 0)) =
        true := by decide +kernel
    obtain ⟨s, hs, hp⟩ := exists_run_of_any h
    obtain ⟨i, hi, hv⟩ := List.any_eq_true.mp hp
    exact ⟨s, hs, i, hi, by simpa using hv⟩
  · have h : (run step (init (sampleTimeDb ⟨∅, ∅⟩) ∅ [] []) (sampleInvoice ++ sampleReplace)).any
        (fun s => (run step s [.createPayment ⟨some 0, 7, ⟨4000⟩, none, by decide⟩]).any fun t =>
          s.db.invoices.rows.any fun i => decide (i.status = .void ∧ i.balanceDue = 0) &&
            t.db.invoices.rows.any fun j => decide (j.id = i.id ∧ j.status = .void ∧
              j.balanceDue ≠ 0) && t.db.payments.rows.any fun p => decide (p.invoiceId = some j.id)) =
        true := by decide +kernel
    obtain ⟨s, hs, hp⟩ := exists_run_of_any h
    obtain ⟨t, ht, hp⟩ := exists_run_of_any hp
    obtain ⟨i, hi, hv⟩ := List.any_eq_true.mp hp
    rw [Bool.and_eq_true, decide_eq_true_iff] at hv
    obtain ⟨j, hj, hw⟩ := List.any_eq_true.mp hv.2
    rw [Bool.and_eq_true, decide_eq_true_iff] at hw
    obtain ⟨p, hpm, hpj⟩ := List.any_eq_true.mp hw.2
    exact ⟨s, t, hs, ht, i, hi, hv.1.1, hv.1.2, j, hj, hw.1.1, hw.1.2.1, hw.1.2.2, p, hpm,
      by simpa using hpj⟩

/-- The same invoice is replaced, and a payment of more than it charged is refused. -/
theorem void_carries_no_money_sample :
    ∃ s t, run step (init (sampleTimeDb ⟨∅, ∅⟩) ∅ [] []) (sampleInvoice ++ sampleReplace) = some s ∧
      run step s [.createPayment ⟨some 0, 7, ⟨15000⟩, none, by decide⟩, .voidInvoice 0] = some t ∧
      (∃ i ∈ s.db.invoices, i.status = .void) ∧
      (∀ i ∈ s.db.invoices, i.status = .void →
        i.balanceDue = 0 ∧ (∀ p ∈ s.db.payments, p.invoiceId ≠ some i.id) ∧ i ∈ t.db.invoices) ∧
      ∀ i ∈ t.db.invoices, i.status = .void →
        i.balanceDue = 0 ∧ ∀ p ∈ t.db.payments, p.invoiceId ≠ some i.id := by
  have h : (run step (init (sampleTimeDb ⟨∅, ∅⟩) ∅ [] []) (sampleInvoice ++ sampleReplace)).any
      (fun s => (run step s [.createPayment ⟨some 0, 7, ⟨15000⟩, none, by decide⟩,
          .voidInvoice 0]).isSome &&
        s.db.invoices.rows.any fun i => decide (i.status = .void)) = true := by decide +kernel
  obtain ⟨s, hs, hp⟩ := exists_run_of_any h
  rw [Bool.and_eq_true] at hp
  obtain ⟨t, ht⟩ := Option.isSome_iff_exists.mp hp.1
  obtain ⟨i, hi, hv⟩ := List.any_eq_true.mp hp.2
  refine ⟨s, t, hs, ht, ⟨i, hi, by simpa using hv⟩, void_carries_no_money ?_ hs ht⟩
  decide +kernel

end Billing

end Mokosh
