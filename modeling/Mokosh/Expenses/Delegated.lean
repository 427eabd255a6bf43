import Mokosh.Expenses.Ledger

/-! # A bill that a provider holds

A report says what the provider has been paid in all, and the difference to `paid_minor` is recorded.
The difference is taken from a read outside the lock, and `pay_bill` records its own payment after it
has pushed it.

**`recorded_within_provider`**: what is recorded is never more than the provider has been paid, and
once nothing is in flight and the last push was reported it is the largest total that was reported, up
to the total of the bill, in the runs in which

* a report is recorded only while `paid_minor` is what it read, and while no push waits to be recorded
  that the report counts, and
* every payment is pushed, and no report comes before the bill takes payments. -/

namespace Mokosh.Expenses

/-! ### What waits to be recorded -/

/-- A payment that the provider has and the bill has not yet. -/
def BillCall.waiting : BillCall → ℤ
  | .recording (.pushed _) request => request.amountMinor
  | _ => 0

/-- The same, if the provider had been paid `x` by then. -/
def BillCall.waitingAbove (x : ℤ) : BillCall → ℤ
  | .recording (.pushed paidBefore) request => if x ≤ paidBefore then request.amountMinor else 0
  | _ => 0

namespace World

def waiting (w : World) : ℤ := (w.calls.map BillCall.waiting).sum

def waitingAbove (w : World) (x : ℤ) : ℤ := (w.calls.map (BillCall.waitingAbove x)).sum

/-- The largest total that was reported and answered. -/
def reported (w : World) : ℤ := w.answered.foldr max 0

end World

/-- A report of the total counts the payment of a call that waits to be recorded. -/
def BillCall.Counted (total : ℤ) : BillCall → Prop
  | .recording (.pushed paidBefore) _ => paidBefore < total
  | _ => False

instance (total : ℤ) : DecidablePred (BillCall.Counted total)
  | .recording (.pushed paidBefore) _ => inferInstanceAs (Decidable (paidBefore < total))
  | .recording (.reported _ _) _ | .recording .local _ | .paying _ _ => isFalse id

def BillStatus.takesPayments (s : BillStatus) : Prop := s = .approved ∨ s = .paid

instance (s : BillStatus) : Decidable s.takesPayments :=
  inferInstanceAs (Decidable (s = .approved ∨ s = .paid))

/-- What a call that is about to record has to find: a report that the bill would take has read its
`paid_minor` as it is, and counts no payment that waits. -/
def FreshCall (w : World) : Option BillCall → Prop
  | some (.recording (.reported total read) request) =>
    w.ledger.bill.status.takesPayments → request.amountMinor ≤ w.ledger.bill.remaining →
      w.ledger.bill.paidMinor = read ∧ ∀ c ∈ w.calls, ¬ c.Counted total
  | _ => True

instance : ∀ w c, Decidable (FreshCall w c)
  | w, some (.recording (.reported total read) request) =>
    inferInstanceAs (Decidable (w.ledger.bill.status.takesPayments →
      request.amountMinor ≤ w.ledger.bill.remaining →
        w.ledger.bill.paidMinor = read ∧ ∀ c ∈ w.calls, ¬ c.Counted total))
  | _, none | _, some (.paying _ _) | _, some (.recording (.pushed _) _)
  | _, some (.recording .local _) => isTrue trivial

/-- What a step has to find. -/
def Fresh (w : World) : BillEvent → Prop
  | .recordBillPayment _ => False
  | .payBill _ enabled => pushesTo enabled w.ledger.bill ≠ none
  | .report report =>
    delegatedBill report.provider report.externalBillId w.ledger.bill ≠ none →
      w.ledger.bill.status.takesPayments
  | .record i => FreshCall w w.calls[i]?
  | _ => True

instance : ∀ w e, Decidable (Fresh w e)
  | _, .recordBillPayment _ => isFalse id
  | w, .payBill _ enabled => inferInstanceAs (Decidable (pushesTo enabled w.ledger.bill ≠ none))
  | w, .report report => inferInstanceAs (Decidable
      (delegatedBill report.provider report.externalBillId w.ledger.bill ≠ none →
        w.ledger.bill.status.takesPayments))
  | w, .record i => inferInstanceAs (Decidable (FreshCall w w.calls[i]?))
  | _, .approveBill | _, .voidBill | _, .push _ _ | _, .paidInProvider _ => isTrue trivial

/-! ### The invariant -/

/-- What a call in flight is known to carry, for a bill of `billTotal` whose provider was paid
`provider`. -/
def BillCall.Ok (billTotal provider : ℤ) : BillCall → Prop
  | .paying _ _ => True
  | .recording (.pushed _) request => 0 < request.amountMinor
  | .recording (.reported total read) request =>
    request.amountMinor = min (total - read) (billTotal - read) ∧ total ≤ provider
  | .recording .local _ => False

/-- The recorded and the waiting payments are covered by the largest report or by what the provider
had been paid after the last push; the reports that were answered are covered by what is recorded. -/
structure Level (w : World) : Prop where
  kept : Kept w.ledger
  pushed_le : w.pushed ≤ w.provider
  reported_le : w.reported ≤ w.provider
  lower : min w.reported w.ledger.bill.totalMinor ≤ w.ledger.bill.paidMinor
  upper : w.ledger.bill.paidMinor + w.waiting ≤ max w.reported w.pushed
  spread : ∀ x, x + w.waitingAbove x ≤ max x w.pushed
  calls : ∀ c ∈ w.calls, c.Ok w.ledger.bill.totalMinor w.provider

theorem BillCall.Ok.mono {t p p' : ℤ} {c : BillCall} (h : c.Ok t p) (hp : p ≤ p') : c.Ok t p' := by
  cases c with
  | paying => trivial
  | recording source request =>
      cases source with
      | reported => exact ⟨h.1, h.2.trans hp⟩
      | _ => exact h

theorem BillCall.Ok.waiting_nonneg {t p : ℤ} {c : BillCall} (h : c.Ok t p) : 0 ≤ c.waiting := by
  cases c with
  | paying => exact le_rfl
  | recording source request =>
      cases source with
      | pushed => exact le_of_lt h
      | _ => exact le_rfl

theorem BillCall.Ok.waitingAbove_nonneg {t p : ℤ} {c : BillCall} (h : c.Ok t p) (x : ℤ) :
    0 ≤ c.waitingAbove x := by
  cases c with
  | paying => exact le_rfl
  | recording source request =>
      cases source with
      | pushed before =>
          show 0 ≤ if x ≤ before then request.amountMinor else 0
          split
          · exact le_of_lt h
          · exact le_rfl
      | _ => exact le_rfl

/-- A report that counts no waiting payment has them all above it. -/
theorem waitingAbove_eq {w : World} {total : ℤ} (h : ∀ c ∈ w.calls, ¬ c.Counted total) :
    w.waitingAbove total = w.waiting := by
  unfold World.waitingAbove World.waiting
  congr 1
  refine List.map_congr_left fun c hc => ?_
  have hn := h c hc
  cases c with
  | paying => rfl
  | recording source request =>
      cases source with
      | pushed before => exact if_pos (not_lt.mp hn)
      | _ => rfl

theorem reconcile_none {report : ExternalBillPaymentReport} {b bill : Bill}
    (hb : delegatedBill report.provider report.externalBillId b = some bill)
    (hs : b.status.takesPayments) (h : reconcileExternalBillPayment report b = none) :
    bill = b ∧ (saturate (report.providerPaidMinor - b.paidMinor) ≤ 0 ∨ b.remaining ≤ 0) := by
  obtain ⟨-, hb'⟩ := Option.ite_none_right_eq_some.mp hb
  cases hb'
  refine ⟨rfl, ?_⟩
  unfold reconcileExternalBillPayment at h
  rw [hb] at h
  dsimp only at h
  rw [if_neg (by rcases hs with hs | hs <;> simp [hs])] at h
  split at h
  · exact .inl ‹_›
  · split at h
    · exact .inr ‹_›
    · cases h

theorem reconcile_some {report : ExternalBillPaymentReport} {b bill : Bill}
    {request : RecordBillPaymentRequest}
    (hb : delegatedBill report.provider report.externalBillId b = some bill)
    (h : reconcileExternalBillPayment report b = some request) :
    bill = b ∧ 0 < saturate (report.providerPaidMinor - b.paidMinor) ∧
      request.amountMinor = min (saturate (report.providerPaidMinor - b.paidMinor)) b.remaining := by
  obtain ⟨-, hb'⟩ := Option.ite_none_right_eq_some.mp hb
  cases hb'
  refine ⟨rfl, ?_⟩
  unfold reconcileExternalBillPayment at h
  rw [hb] at h
  dsimp only at h
  split at h
  · cases h
  · split at h
    · cases h
    · split at h
      · cases h
      · cases h
        exact ⟨by omega, rfl⟩

/-! ### What a step preserves -/

namespace Level

variable {w : World} {i : ℕ} {c : BillCall}

/-- A call that comes in. -/
theorem push_call (h : Level w) {d : BillCall} (hd : d.Ok w.ledger.bill.totalMinor w.provider)
    (hw : d.waiting = 0) (ha : ∀ x, d.waitingAbove x = 0) :
    Level { w with calls := w.calls ++ [d] } := by
  have hwait : World.waiting { w with calls := w.calls ++ [d] } = w.waiting := by
    simp [World.waiting, hw]
  have habove : ∀ x, World.waitingAbove { w with calls := w.calls ++ [d] } x = w.waitingAbove x := by
    simp [World.waitingAbove, ha]
  refine { h with upper := ?_, spread := ?_, calls := ?_ }
  · rw [hwait]
    exact h.upper
  · intro x
    rw [habove]
    exact h.spread x
  · intro c hc
    rcases List.mem_append.mp hc with hc | hc
    · exact h.calls c hc
    · exact List.mem_singleton.mp hc ▸ hd

/-- A call that goes. -/
theorem erase (h : Level w) (hi : w.calls[i]? = some c) :
    Level { w with calls := w.calls.eraseIdx i } := by
  have hc := h.calls c (List.mem_of_getElem? hi)
  have hwait : w.waiting = c.waiting + _ := sum_calls hi BillCall.waiting
  have habove : ∀ x, w.waitingAbove x = c.waitingAbove x + _ :=
    fun x => sum_calls hi (BillCall.waitingAbove x)
  refine { h with upper := ?_, spread := ?_, calls := ?_ }
  · have h₁ := h.upper
    have h₂ := hc.waiting_nonneg
    rw [hwait] at h₁
    show w.ledger.bill.paidMinor + ((w.calls.eraseIdx i).map BillCall.waiting).sum ≤
      max w.reported w.pushed
    omega
  · intro x
    have h₁ := h.spread x
    have h₂ := hc.waitingAbove_nonneg x
    rw [habove] at h₁
    show x + ((w.calls.eraseIdx i).map (BillCall.waitingAbove x)).sum ≤ max x w.pushed
    omega
  · exact fun d hd => h.calls d (List.mem_of_mem_eraseIdx hd)

/-- A report that is answered. -/
theorem answered (h : Level w) {total : ℤ} (hp : total ≤ w.provider)
    (hl : min total w.ledger.bill.totalMinor ≤ w.ledger.bill.paidMinor) :
    Level { w with answered := total :: w.answered } := by
  have hrep : World.reported { w with answered := total :: w.answered } = max total w.reported := rfl
  have h₁ := h.lower
  have h₂ := h.upper
  have h₃ := h.reported_le
  refine { h with reported_le := ?_, lower := ?_, upper := ?_ }
  · rw [hrep]
    exact max_le hp h₃
  · rw [hrep]
    show min (max total w.reported) w.ledger.bill.totalMinor ≤ w.ledger.bill.paidMinor
    omega
  · rw [hrep]
    show w.ledger.bill.paidMinor + w.waiting ≤ max (max total w.reported) w.pushed
    omega

/-- A payment that the provider takes. -/
theorem pay (h : Level w) {amount : ℤ} (ha : 0 < amount) : Level (w.pay amount) := by
  have h₁ := h.upper
  have h₂ := h.pushed_le
  have h₃ := h.reported_le
  refine ⟨h.kept, le_rfl, ?_, h.lower, ?_, ?_, ?_⟩
  · show w.reported ≤ w.provider + amount
    omega
  · show w.ledger.bill.paidMinor + w.waiting ≤ max w.reported (w.provider + amount)
    omega
  · intro x
    have hx := h.spread x
    show x + w.waitingAbove x ≤ max x (w.provider + amount)
    omega
  · exact fun c hc => (h.calls c hc).mono (by show w.provider ≤ w.provider + amount; omega)

/-- A push that is accepted: its payment waits from now on. -/
theorem accepted (h : Level w) {kind : InvoiceProviderKind}
    {request request' : RecordBillPaymentRequest} (hi : w.calls[i]? = some (.paying kind request))
    (ha : 0 < request.amountMinor) (hsame : request'.amountMinor = request.amountMinor) :
    Level { w.pay request.amountMinor with
      calls := w.calls.set i (.recording (.pushed w.provider) request') } := by
  rw [← hsame] at ha ⊢
  have hpay := h.pay ha
  have hwait : w.waiting = 0 + _ := sum_calls hi BillCall.waiting
  have habove : ∀ x, w.waitingAbove x = 0 + _ := fun x => sum_calls hi (BillCall.waitingAbove x)
  have h₁ := h.upper
  have h₂ := h.pushed_le
  have h₃ := h.reported_le
  refine { hpay with upper := ?_, spread := ?_, calls := ?_ }
  · show w.ledger.bill.paidMinor + ((w.calls.set i _).map BillCall.waiting).sum ≤
      max w.reported (w.provider + request'.amountMinor)
    rw [sum_calls_set hi]
    show _ + (request'.amountMinor + _) ≤ _
    omega
  · intro x
    have hx := h.spread x
    have hxa := habove x
    show x + ((w.calls.set i _).map (BillCall.waitingAbove x)).sum ≤
      max x (w.provider + request'.amountMinor)
    rw [sum_calls_set hi]
    show x + ((if x ≤ w.provider then request'.amountMinor else 0) + _) ≤ _
    split <;> omega
  · intro d hd
    rcases (mem_calls_set hi).mp hd with rfl | hd
    · exact ha
    · exact hpay.calls d (List.mem_of_mem_eraseIdx hd)

/-- A payment that the provider takes from somebody else. -/
theorem paidInProvider (h : Level w) {amount : ℤ} (ha : 0 < amount) :
    Level { w with provider := w.provider + amount } := by
  have h₂ := h.pushed_le
  have h₃ := h.reported_le
  refine { h with pushed_le := ?_, reported_le := ?_, calls := ?_ }
  · show w.pushed ≤ w.provider + amount
    omega
  · show w.reported ≤ w.provider + amount
    omega
  · exact fun c hc => (h.calls c hc).mono (by show w.provider ≤ w.provider + amount; omega)

/-- A bill that changes its status. -/
theorem transition (h : Level w) (status : BillStatus) :
    Level { w with ledger := { w.ledger with bill := { w.ledger.bill with status := status } } } :=
  { h with
    kept := ⟨h.kept.paid, h.kept.positive, h.kept.within, h.kept.total_lt⟩ }

/-- A push is recorded: what waited for it is paid now. -/
theorem recordPushed (h : Level w) {before : ℤ} {request : RecordBillPaymentRequest} {l : BillLedger}
    (hi : w.calls[i]? = some (.recording (.pushed before) request))
    (hr : recordBillPayment request w.ledger = .ok l) :
    Level { w with ledger := l, calls := w.calls.eraseIdx i } := by
  obtain ⟨ha, -, htotal, hpaid, -⟩ := h.kept.record_eq hr
  have hwait : w.waiting = request.amountMinor + _ := sum_calls hi BillCall.waiting
  have he := h.erase hi
  have h₁ := h.upper
  have h₂ := h.lower
  refine { he with kept := h.kept.written (.recorded hr), lower := ?_, upper := ?_, calls := ?_ }
  · show min w.reported l.bill.totalMinor ≤ l.bill.paidMinor
    omega
  · show l.bill.paidMinor + ((w.calls.eraseIdx i).map BillCall.waiting).sum ≤
      max w.reported w.pushed
    omega
  · show ∀ c ∈ w.calls.eraseIdx i, c.Ok l.bill.totalMinor w.provider
    rw [htotal]
    exact he.calls

/-- A report is recorded that is still fresh. -/
theorem recordReported (h : Level w) {total : ℤ} {request : RecordBillPaymentRequest} {l : BillLedger}
    (hi : w.calls[i]? = some (.recording (.reported total w.ledger.bill.paidMinor) request))
    (hn : ∀ c ∈ w.calls, ¬ c.Counted total) (hr : recordBillPayment request w.ledger = .ok l) :
    Level { w with
      ledger := l, calls := w.calls.eraseIdx i, answered := total :: w.answered } := by
  obtain ⟨ha, -, htotal, hpaid, -⟩ := h.kept.record_eq hr
  obtain ⟨hamount, hle⟩ := h.calls _ (List.mem_of_getElem? hi)
  have hwait : w.waiting = 0 + _ := sum_calls hi BillCall.waiting
  have habove := h.spread total
  rw [waitingAbove_eq hn] at habove
  have he := h.erase hi
  have h₁ := h.upper
  have h₂ := h.lower
  have h₃ := h.reported_le
  -- The payment brings the bill to what was reported, or to its total.
  have hnew : l.bill.paidMinor = min total l.bill.totalMinor := by
    omega
  refine { he with
    kept := h.kept.written (.recorded hr), reported_le := ?_, lower := ?_, upper := ?_, calls := ?_ }
  · show max total w.reported ≤ w.provider
    exact max_le hle h₃
  · show min (max total w.reported) l.bill.totalMinor ≤ l.bill.paidMinor
    omega
  · show l.bill.paidMinor + ((w.calls.eraseIdx i).map BillCall.waiting).sum ≤
      max (max total w.reported) w.pushed
    omega
  · show ∀ c ∈ w.calls.eraseIdx i, c.Ok l.bill.totalMinor w.provider
    rw [htotal]
    exact he.calls

/-- A report that brings nothing is answered. -/
theorem reportNothing (h : Level w) {report : ExternalBillPaymentReport} {bill : Bill}
    (hp : report.providerPaidMinor ≤ w.provider) (hs : w.ledger.bill.status.takesPayments)
    (hb : delegatedBill report.provider report.externalBillId w.ledger.bill = some bill)
    (hr : reconcileExternalBillPayment report w.ledger.bill = none) :
    Level { w with answered := report.providerPaidMinor :: w.answered } := by
  obtain ⟨-, hnone⟩ := reconcile_none hb hs hr
  refine h.answered hp ?_
  have h₁ := h.kept.paid_nonneg
  have h₂ := h.kept.remaining_eq
  unfold saturate at hnone
  omega

/-- A report that brings something is about to be recorded. -/
theorem reportRead (h : Level w) {report : ExternalBillPaymentReport} {bill : Bill}
    {request : RecordBillPaymentRequest} (hp : report.providerPaidMinor ≤ w.provider)
    (hlt : report.providerPaidMinor < 2 ^ 63)
    (hb : delegatedBill report.provider report.externalBillId w.ledger.bill = some bill)
    (hr : reconcileExternalBillPayment report w.ledger.bill = some request) :
    Level { w with
      calls := w.calls ++
        [.recording (.reported report.providerPaidMinor bill.paidMinor) request] } := by
  obtain ⟨rfl, hpos, hamount⟩ := reconcile_some hb hr
  refine h.push_call ⟨?_, hp⟩ rfl fun _ => rfl
  have h₁ := h.kept.paid_nonneg
  rw [hamount, h.kept.remaining_eq]
  unfold saturate at hpos ⊢
  omega

end Level

theorem World.step_level {w w' : World} {e : BillEvent} (h : Level w) (hf : Fresh w e)
    (hs : w.step e = some w') : Level w' := by
  replace hs := step_cases hs
  cases hs with
  | settled hl =>
      rcases hl with ⟨rfl, hl⟩ | ⟨rfl, hl⟩ | ⟨request, rfl, -⟩
      · obtain ⟨-, rfl⟩ := approveBill_eq_ok hl
        exact h.transition _
      · obtain ⟨-, rfl⟩ := voidBill_eq_ok hl
        exact h.transition _
      · exact absurd hf id
  | idle => exact h
  | paying => exact h.push_call trivial rfl fun _ => rfl
  | unpushed hp => exact absurd hp hf
  | accepted hi ha => exact h.accepted hi ha rfl
  | lost hi ha => exact (h.pay ha).erase hi
  | refused hi => exact h.erase hi
  | answered hp hb hr => exact h.reportNothing hp (hf (hb ▸ Option.some_ne_none _)) hb hr
  | read hp hlt hb hr => exact h.reportRead hp hlt hb hr
  | @recorded i source request l hi hr =>
      cases source with
      | pushed before => exact h.recordPushed hi hr
      | reported total read =>
          obtain ⟨-, -, hs, hle, -⟩ := recordBillPayment_eq_ok.mp hr
          replace hf : FreshCall w w.calls[i]? := hf
          rw [hi] at hf
          obtain ⟨rfl, hn⟩ := hf hs hle
          exact h.recordReported hi hn hr
      | «local» => exact absurd (h.calls _ (List.mem_of_getElem? hi)) id
  | notRecorded hi => exact h.erase hi
  | paidInProvider ha => exact h.paidInProvider ha

/-- In every run that is fresh, what is recorded of a bill is at most what its provider has been paid,
and once no call is in flight and a report counts the last push it is the largest total that was
reported, or the total of the bill if that is less. -/
theorem recorded_within_provider {lines : List BillLineInput} (hlines : ∀ line ∈ lines, line.Valid)
    (external : Option (String × String)) {provider : ℤ} (hp : 0 ≤ provider) {es : List BillEvent}
    {w : World} (hF : StepsMeet World.step Fresh (World.start lines external provider) es)
    (hr : run World.step (World.start lines external provider) es = some w) :
    w.ledger.bill.paidMinor ≤ w.provider ∧
      (w.calls = [] → w.pushed ≤ w.reported →
        w.ledger.bill.paidMinor = min w.reported w.ledger.bill.totalMinor) := by
  have hstart : Level (World.start lines external provider) := by
    have hkept := createBill_kept hlines external
    refine ⟨hkept, hp, hp, min_le_left _ _, le_rfl, fun x => ?_, by simp [World.start]⟩
    show x + 0 ≤ max x 0
    omega
  have h := run_invariant_of_stepsMeet Level (fun _ _ _ h hf hs => World.step_level h hf hs) hstart
    hF hr
  have hwait : 0 ≤ w.waiting := by
    refine List.sum_nonneg fun a ha => ?_
    obtain ⟨c, hc, rfl⟩ := List.mem_map.mp ha
    exact (h.calls c hc).waiting_nonneg
  have h₁ := h.upper
  have h₂ := h.pushed_le
  have h₃ := h.reported_le
  have h₄ := h.lower
  have h₅ := h.kept.within
  refine ⟨by omega, fun hnil hlast => ?_⟩
  omega

/-! ### Reports and pushes that cross -/

namespace Xero

def start : World := World.start (PartPaid.lines 500) (some ("xero", "b-1")) 0

def report (total : ℤ) : BillEvent :=
  .report
    { provider := "xero"
      externalBillId := "b-1"
      providerPaidMinor := total
      paidOn := (NaiveDate.fromYmdOpt 2026 3 2).get PartPaid.day_exists }

/-- A payment of 200 is pushed and recorded, the rest is paid in the provider, and both are
reported. -/
def orderly : List BillEvent :=
  [.approveBill, .payBill (PartPaid.payment 200) true, .push 0 (.accepted "p-1"), .record 0,
    report 200, .paidInProvider 300, report 500, .record 0]

theorem recorded_within_provider_orderly : ∃ w, run World.step start orderly = some w ∧
    w.ledger.bill.paidMinor = min w.reported w.ledger.bill.totalMinor := by
  have h : (run World.step start orderly).any
      (fun w => decide (w.calls = [] ∧ w.pushed ≤ w.reported)) = true := by
    decide +kernel
  obtain ⟨w, hr, hw⟩ := exists_run_of_any h
  obtain ⟨hnil, hlast⟩ := of_decide_eq_true hw
  exact ⟨w, hr, (recorded_within_provider (PartPaid.lines_valid (by norm_num)) (some ("xero", "b-1"))
    le_rfl (by decide +kernel) hr).2 hnil hlast⟩

/-- The provider's report of a payment is recorded before `pay_bill` records it; and two deliveries of
a report read the bill before one of them is recorded.  Either way 400 are recorded of 200. -/
theorem recorded_twice :
    (∃ w, run World.step start
        [.approveBill, .payBill (PartPaid.payment 200) true, .push 0 (.accepted "p-1"),
          report 200, .record 1, .record 0] = some w ∧
      w.provider = 200 ∧ w.ledger.bill.paidMinor = 400 ∧ w.calls = []) ∧
    ∃ w, run World.step start
        [.approveBill, .paidInProvider 200, report 200, report 200, .record 0, .record 0] = some w ∧
      w.provider = 200 ∧ w.ledger.bill.paidMinor = 400 ∧ w.calls = [] := by
  have h₁ : (run World.step start
      [.approveBill, .payBill (PartPaid.payment 200) true, .push 0 (.accepted "p-1"),
        report 200, .record 1, .record 0]).any
      (fun w => decide (w.provider = 200 ∧ w.ledger.bill.paidMinor = 400 ∧ w.calls = [])) = true := by
    decide +kernel
  have h₂ : (run World.step start
      [.approveBill, .paidInProvider 200, report 200, report 200, .record 0, .record 0]).any
      (fun w => decide (w.provider = 200 ∧ w.ledger.bill.paidMinor = 400 ∧ w.calls = [])) = true := by
    decide +kernel
  obtain ⟨w₁, hr₁, hw₁⟩ := exists_run_of_any h₁
  obtain ⟨w₂, hr₂, hw₂⟩ := exists_run_of_any h₂
  exact ⟨⟨w₁, hr₁, of_decide_eq_true hw₁⟩, w₂, hr₂, of_decide_eq_true hw₂⟩

end Xero

end Mokosh.Expenses
