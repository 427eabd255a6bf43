import Mokosh.Billing.Amendments

/-! # The status of an invoice, its money and its sending

A recompute derives the status from the money, and an update writes it with the marks of the
sending: the time, and the identity of the issuer as it stands then.

**`status_agrees`**: in runs whose updates name no status of payment, `paid` and `partially_paid`
say what the columns of the money say, and an invoice that was sent has its time and, unless a
provider issued it, its issuer.

`delegated_has_no_issuer` is the other case: the provider froze its own. -/

namespace Mokosh

/-- The status agrees with the money on the invoice and with the marks of its sending. -/
structure Invoice.Agrees (i : Invoice) : Prop extends Invoice.Marked i where
  paid : i.status = .paid → i.total - i.amountPaid - i.amountCredited ≤ 0
  partiallyPaid : i.status = .partiallyPaid →
    0 < i.amountPaid ∧ 0 < i.total - i.amountPaid - i.amountCredited
  unsent : i.sentAt = false → i.externalProvider = none
  issuer : i.sentAt = true → i.issuerSnapshot = i.externalProvider.isNone

/-! ### One row -/

/-- A recompute answers `paid` when nothing is due. -/
theorem Invoice.recomputed_paid {i : Invoice} {paid credited : Numeric 2}
    (h : (i.recomputed paid credited).status = .paid) : i.total - paid - credited ≤ 0 := by
  simp only [recomputed] at h
  split_ifs at h with hd hw hv hdue hp
  · rw [h] at hd
    exact absurd hd (by simp)
  · exact hdue

/-- A recompute answers `partially_paid` when something is paid and something is due. -/
theorem Invoice.recomputed_partiallyPaid {i : Invoice} {paid credited : Numeric 2}
    (h : (i.recomputed paid credited).status = .partiallyPaid) :
    0 < paid ∧ 0 < i.total - paid - credited := by
  simp only [recomputed] at h
  split_ifs at h with hd hw hv hdue hp
  · rw [h] at hd
    exact absurd hd (by simp)
  · exact ⟨hp, not_le.mp hdue⟩

namespace Invoice.Agrees

variable {i j : Invoice}

theorem recomputed (h : i.Agrees) (paid credited : Numeric 2) :
    (i.recomputed paid credited).Agrees where
  toMarked := h.toMarked.recomputed paid credited
  paid := recomputed_paid
  partiallyPaid := recomputed_partiallyPaid
  unsent := h.unsent
  issuer := h.issuer

/-- A status that says nothing of money is written, and the sending is left alone. -/
theorem restated (h : i.Agrees) (hm : j.Marked) (hp : j.status ≠ .paid)
    (hpp : j.status ≠ .partiallyPaid) (hs : j.sentAt = i.sentAt)
    (hi : j.issuerSnapshot = i.issuerSnapshot) (hx : j.externalProvider = i.externalProvider) :
    j.Agrees where
  toMarked := hm
  paid h := absurd h hp
  partiallyPaid h := absurd h hpp
  unsent := by
    rw [hs, hx]
    exact h.unsent
  issuer := by
    rw [hs, hi, hx]
    exact h.issuer

/-- The row of a void. -/
theorem afterVoid (h : i.Agrees) (hv : j.status = .void ∧ j.voidedAt = true)
    (hs : j.sentAt = i.sentAt) (hw : j.writtenOffAt = i.writtenOffAt)
    (hi : j.issuerSnapshot = i.issuerSnapshot) (hx : j.externalProvider = i.externalProvider) :
    j.Agrees := by
  apply h.restated (h.toMarked.afterVoid hv.1 hv.2 hs hw) _ _ hs hi hx
  · rw [hv.1]
    simp
  · rw [hv.1]
    simp

theorem afterWriteOff (h : i.Agrees) (hs : i.status = .sent ∨ i.status = .partiallyPaid) :
    i.writtenOffNow.Agrees := by
  apply h.restated (h.toMarked.afterWriteOff hs) _ _ rfl rfl rfl
  · simp [Invoice.writtenOffNow]
  · simp [Invoice.writtenOffNow]

theorem of_new (h : i.New) : i.Agrees where
  toMarked := h.marked
  paid hp := by
    obtain ⟨hs, -⟩ | ⟨hs, -⟩ := h.status <;> simp [hs] at hp
  partiallyPaid hp := by
    obtain ⟨hs, -⟩ | ⟨hs, -⟩ := h.status <;> simp [hs] at hp
  unsent hs := by
    rw [h.issuer.1] at hs
    simpa using hs
  issuer hs := by
    have hsnap := h.issuer.2
    rw [h.issuer.1] at hs
    rw [hsnap, Option.isNone_eq_false_iff.mpr hs]

theorem amendment (i : Invoice) (number : String) (id : Uuid) : (i.amendment number id).Agrees where
  toMarked := i.amendment_marked number id
  paid h := absurd h (by simp [Invoice.amendment])
  partiallyPaid h := absurd h (by simp [Invoice.amendment])
  unsent _ := rfl
  issuer h := absurd h (by simp [Invoice.amendment])

end Invoice.Agrees

/-- What an update does to the issuer, with the tax re-derived or not. -/
theorem Invoice.rewritten_issuer (i current : Invoice) (request : UpdateInvoiceRequest)
    (lines : Numeric 2) (tax : AppliedTax) :
    (i.rewritten current request lines tax).externalProvider = i.externalProvider ∧
      (i.rewritten current request lines tax).issuerSnapshot = (i.issuerSnapshot ||
        decide (request.status.getD i.status = .sent ∧ current.sentAt = false)) := by
  unfold rewritten
  split <;> exact ⟨rfl, rfl⟩

/-- A draft after an update that sends it, with all the marks, or leaves it a draft. -/
theorem Invoice.Agrees.rewritten {i current : Invoice} {request : UpdateInvoiceRequest}
    (h : i.Agrees) (hf : i.status.isFrozen = false) (hsent : current.sentAt = false)
    (hst : request.status.getD i.status = .sent ∨ request.status.getD i.status ≠ .sent ∧
      (request.status.getD i.status).isFrozen = false) (lines : Numeric 2) (tax : AppliedTax) :
    (i.rewritten current request lines tax).Agrees := by
  obtain ⟨hstatus, -⟩ := i.rewritten_marks current request lines tax
  obtain ⟨hprovider, hissuer⟩ := i.rewritten_issuer current request lines tax
  have hmark := i.rewritten_sentAt current request lines tax
  have hown : i.externalProvider = none := h.unsent (h.draft hf)
  have hne {st : InvoiceStatus} (hst' : st.isFrozen = true) (hs : st ≠ .sent) :
      (i.rewritten current request lines tax).status ≠ st := by
    rw [hstatus]
    obtain hz | ⟨-, hz⟩ := hst
    · rw [hz]
      exact hs.symm
    · exact InvoiceStatus.ne_of_unfrozen hz hst'
  constructor
  · exact h.toMarked.rewritten hf hsent hst lines tax
  · exact fun hp => absurd hp (hne rfl (by simp))
  · exact fun hp => absurd hp (hne rfl (by simp))
  · exact fun _ => hprovider.trans hown
  · intro hz
    rw [hmark, hsent, Bool.false_or, decide_eq_true_iff] at hz
    rw [hissuer, hprovider, hown, decide_eq_true ⟨hz, hsent⟩, Bool.or_true]
    rfl

/-! ### The table -/

/-- Every invoice agrees. -/
def Agreement (t : Table Invoice.id) : Prop := ∀ i ∈ t, i.Agrees

namespace Agreement

variable {t : Table Invoice.id} {k : Uuid}

theorem insert (h : Agreement t) {mk : ℕ → Invoice} {hk : ∀ i, (mk i).id = i}
    (hm : (mk t.next).Agrees) : Agreement (t.insert mk hk) := by
  intro x hx
  obtain hx | rfl := (Table.mem_insert).mp hx
  · exact h x hx
  · exact hm

theorem update (h : Agreement t) {f : Invoice → Invoice} (hf : ∀ r, (f r).id = r.id)
    (hm : ∀ r ∈ t, r.id = k → (f r).Agrees) : Agreement (t.update k f hf) := by
  intro x hx
  obtain ⟨r, hr, -, ⟨hk, rfl⟩ | ⟨-, rfl⟩⟩ := exists_of_mem_update hx
  · exact hm r hr hk
  · exact h x hr

theorem recomputeOf {db db1 : BillingDb} (h : Agreement db.invoices)
    (hi : db1.invoices = db.invoices) (o : Option Uuid) :
    Agreement (Mokosh.recomputeOf db1 o).invoices := by
  cases o with
  | none =>
      show Agreement db1.invoices
      rw [hi]
      exact h
  | some k =>
      rw [recomputeOf_invoices hi]
      exact h.update _ fun r hr _ => (h r hr).recomputed _ _

/-- The commit of an update that sends a draft or leaves it one. -/
theorem commitUpdate {db : BillingDb} (h : Agreement db.invoices) {current row : Invoice}
    {request : UpdateInvoiceRequest} {rate : Option TaxRate}
    (hsends : Billing.CallSends (.update current request))
    (hrow : db.invoices.find current.id = some row) (hf : row.status.isFrozen = false) :
    Agreement (rewriteInvoice db current request rate).invoices := by
  obtain ⟨hsent, hv, hw, hp, hpp⟩ := hsends
  refine h.update (fun r => (r.rewritten_same current request _ _).1) fun r hr hk => ?_
  obtain rfl := Table.eq_of_find hrow hr hk
  exact (h r hr).rewritten hf hsent (Billing.updated_status hf hv hw hp hpp) _ _

end Agreement

/-! ### Runs -/

/-- No update names a status of payment. -/
def BillingEvent.namesNoPayment : BillingEvent → Bool
  | .startUpdate _ request =>
    decide (request.status ≠ some .paid ∧ request.status ≠ some .partiallyPaid)
  | _ => true

namespace Billing

/-- The invariant of the runs whose updates name no status of payment. -/
structure Agreeing (s : Billing) : Prop where
  rows : Agreement s.db.invoices
  sends : ∀ c ∈ s.calls, CallSends c

section Step

variable {s s' : Billing} {e : BillingEvent}

/-- One transaction keeps the agreement. -/
theorem step_agreement (h : s.Agreeing) (hs : step s e = some s') : Agreement s'.db.invoices := by
  have hr := h.rows
  have hw := step_wrote hs
  generalize s'.db = db' at hw ⊢
  cases hw with
  | idle hi hm =>
      rw [hi]
      exact hr
  | create hk hnew hi hm =>
      rw [hi]
      exact hr.insert (.of_new (hnew _))
  | @amend k number outside db' original hrow hst hp hcr hno hi hm =>
      rw [hi]
      exact hr.insert (.amendment original number _)
  | void hrow hf =>
      refine hr.update (by intro _; rfl) fun r hr' _ => ?_
      exact (hr r hr').afterVoid ⟨rfl, rfl⟩ rfl rfl rfl rfl
  | voidDelegated hrow hp hne =>
      refine hr.update (by intro _; rfl) fun r hr' _ => ?_
      exact (hr r hr').afterVoid ⟨rfl, rfl⟩ rfl rfl rfl rfl
  | @writeOff k row hrow hst hd =>
      refine hr.update (by intro _; rfl) fun r hr' hk => ?_
      rw [← Table.eq_of_find hrow hr' hk] at hst
      exact (hr r hr').afterWriteOff hst
  | payment hp => exact hr.recomputeOf (by rfl) _
  | gatewayPayment ha hrow hf hle => exact hr.recomputeOf (by rfl) _
  | creditNote hrow ht hcr ha hmk => exact hr.recomputeOf (by rfl) (some _)
  | @update i outside current row request rate hcall hrow hf hamend =>
      have hupdated : Agreement (rewriteInvoice s.db current request rate).invoices :=
        hr.commitUpdate (h.sends _ (List.mem_of_getElem? hcall)) hrow hf
      cases replacedBy row current request with
      | none => exact hupdated
      | some o =>
          refine hupdated.update (by intro _; rfl) fun r hr' _ => ?_
          exact (hupdated r hr').afterVoid ⟨rfl, rfl⟩ rfl rfl rfl rfl
  | deletePayment hcall => exact hr.recomputeOf (by rfl) _
  | refunds hcall hins => exact hr.recomputeOf (insertRefunds_frame hins).1 _
  | voidCreditNote hcall => exact hr.recomputeOf (by rfl) (some _)

theorem step_agreeing (h : s.Agreeing) (he : e.namesNoPayment = true) (hs : step s e = some s') :
    s'.Agreeing := by
  refine ⟨step_agreement h hs, fun c hc => ?_⟩
  obtain hc | hb := step_began hs c hc
  · exact h.sends c hc
  cases hb with
  | update hread =>
      obtain ⟨hfind, hf, hv, hw⟩ := readForUpdate_eq_ok hread
      have hdraft := (h.rows _ (Table.find_mem hfind)).draft hf
      rw [BillingEvent.namesNoPayment, decide_eq_true_iff] at he
      exact ⟨hdraft, hv, hw, he.1, he.2⟩
  | deletePayment | gatewayRefunds | voidCreditNote => trivial

end Step

variable {time : TimeDb} {mileage : Table MileageEntry.id} {taxRates : List TaxRate}
  {products : List Product}

theorem init_agreeing : (init time mileage taxRates products).Agreeing := by
  constructor <;> simp [init, Agreement]

theorem reachable_agreeing {es : List BillingEvent} {s : Billing}
    (he : ∀ e ∈ es, e.namesNoPayment = true)
    (hr : run step (init time mileage taxRates products) es = some s) : s.Agreeing :=
  run_invariant_of_stepsMeet Agreeing (fun _ _ _ h hc hs => step_agreeing h hc.1 hs) init_agreeing
    ((stepsMeet_true _ es).and_events he) hr

/-- In every run whose updates name no status of payment: an invoice is `paid` only if nothing is
due, and `partially_paid` only if something is paid and something is due; and an invoice in `sent`,
`paid` or `partially_paid` has the time of its sending, and its issuer unless a provider issued
it. -/
theorem status_agrees {es : List BillingEvent} {s : Billing}
    (he : ∀ e ∈ es, e.namesNoPayment = true)
    (hr : run step (init time mileage taxRates products) es = some s) :
    ∀ i ∈ s.db.invoices,
      (i.status = .paid → i.total - i.amountPaid - i.amountCredited ≤ 0) ∧
      (i.status = .partiallyPaid →
        0 < i.amountPaid ∧ 0 < i.total - i.amountPaid - i.amountCredited) ∧
      (i.status = .sent ∨ i.status = .paid ∨ i.status = .partiallyPaid →
        i.sentAt = true ∧ i.issuerSnapshot = i.externalProvider.isNone) := by
  intro i hi
  have h := (reachable_agreeing he hr).rows i hi
  refine ⟨h.paid, h.partiallyPaid, fun hst => ?_⟩
  have hsent : i.sentAt = true := by
    apply h.issued
    · obtain hst | hst | hst := hst <;> rw [hst] <;> rfl
    · obtain hst | hst | hst := hst <;> rw [hst] <;> simp
  exact ⟨hsent, h.issuer hsent⟩

/-- An invoice of 100 is sent, 30 are paid on it, 70 are credited, and the payment is deleted. -/
def paidAndReturned : List BillingEvent :=
  sampleInvoice ++ [.startUpdate 0 sampleSend, .commit 0 (.ok ()),
    .createPayment ⟨some 0, 7, ⟨3000⟩, none, by decide⟩,
    .createCreditNote ⟨0, none, [⟨1, 70⟩], by simp⟩ (.ok ()),
    .startDeletePayment 0, .commit 0 (.ok ())]

theorem status_agrees_paidAndReturned :
    ∃ s, run step (init (sampleTimeDb ⟨∅, ∅⟩) ∅ [] []) paidAndReturned = some s ∧
      ∃ i ∈ s.db.invoices, i.status = .sent ∧ i.sentAt = true ∧ i.issuerSnapshot = true := by
  have h : (run step (init (sampleTimeDb ⟨∅, ∅⟩) ∅ [] []) paidAndReturned).any (fun s =>
      s.db.invoices.rows.any fun i => decide (i.status = .sent ∧ i.externalProvider = none)) =
        true := by
    decide +kernel
  obtain ⟨s, hs, hp⟩ := exists_run_of_any h
  obtain ⟨i, hi, hv⟩ := List.any_eq_true.mp hp
  rw [decide_eq_true_iff] at hv
  obtain ⟨-, -, hmarks⟩ := status_agrees (by decide) hs i hi
  obtain ⟨hsent, hissuer⟩ := hmarks (.inl hv.1)
  rw [hv.2] at hissuer
  exact ⟨s, hs, i, hi, hv.1, hsent, hissuer⟩

/-- An invoice that a provider issues is sent as soon as it is created, and has no issuer here. -/
theorem delegated_has_no_issuer :
    ∃ s, run step (init (sampleTimeDb ⟨∅, ∅⟩) ∅ [] [])
        [.createInvoice ⟨7, none, none, none, none, sampleLines, sampleLines_ne⟩ "INV-1"
          (some "xero") (.ok ())] = some s ∧
      ¬ ∀ i ∈ s.db.invoices, i.status = .sent ∨ i.status = .paid ∨ i.status = .partiallyPaid →
        i.sentAt = true ∧ i.issuerSnapshot = true := by
  have h : (run step (init (sampleTimeDb ⟨∅, ∅⟩) ∅ [] [])
      [.createInvoice ⟨7, none, none, none, none, sampleLines, sampleLines_ne⟩ "INV-1"
        (some "xero") (.ok ())]).any (fun s =>
      s.db.invoices.rows.any fun i => decide (i.status = .sent ∧ i.issuerSnapshot = false)) =
        true := by
    decide +kernel
  obtain ⟨s, hs, hp⟩ := exists_run_of_any h
  obtain ⟨i, hi, hv⟩ := List.any_eq_true.mp hp
  rw [decide_eq_true_iff] at hv
  refine ⟨s, hs, fun hall => ?_⟩
  obtain ⟨-, hissuer⟩ := hall i hi (.inl hv.1)
  rw [hv.2] at hissuer
  cases hissuer

end Billing

end Mokosh
