import Mokosh.Expenses.Bill

/-! # The ledger of a bill

What is recorded as paid of a bill is the sum of its payments and never more than its total, in every
run (`run_kept`).  The status says the same (`ledger_agrees`) in the runs in which

* no bill without anything to pay is approved, for `paid` is only ever set by a payment, and
* no bill is voided that has payments. -/

namespace Mokosh.Expenses

/-! ### What a step writes -/

/-- Nothing, or what one call writes that ends well. -/
inductive Written (l : BillLedger) : BillLedger → Prop
  | none : Written l l
  | approved (h : l.bill.status = .draft) :
      Written l { l with bill := { l.bill with status := .approved } }
  | voided (h : l.bill.status = .draft ∨ l.bill.status = .approved) :
      Written l { l with bill := { l.bill with status := .void } }
  | recorded {request : RecordBillPaymentRequest} {l' : BillLedger}
      (h : recordBillPayment request l = .ok l') : Written l l'

theorem approveBill_eq_ok {l l' : BillLedger} (h : approveBill l = .ok l') :
    l.bill.status = .draft ∧ l' = { l with bill := { l.bill with status := .approved } } := by
  unfold approveBill transitionBill at h
  split at h
  · next hs =>
      cases h
      exact ⟨List.mem_singleton.mp hs, rfl⟩
  · cases h

theorem voidBill_eq_ok {l l' : BillLedger} (h : voidBill l = .ok l') :
    (l.bill.status = .draft ∨ l.bill.status = .approved) ∧
      l' = { l with bill := { l.bill with status := .void } } := by
  unfold voidBill transitionBill at h
  split at h
  · next hs =>
      cases h
      exact ⟨by simpa using hs, rfl⟩
  · cases h

theorem World.step_written {w w' : World} {e : BillEvent} (h : w.step e = some w') :
    Written w.ledger w'.ledger := by
  replace h := step_cases h
  cases h with
  | settled h =>
      rcases h with ⟨-, h⟩ | ⟨-, h⟩ | ⟨request, -, h⟩
      · obtain ⟨hs, rfl⟩ := approveBill_eq_ok h
        exact .approved hs
      · obtain ⟨hs, rfl⟩ := voidBill_eq_ok h
        exact .voided hs
      · exact .recorded h
  | recorded _ hr =>
      rw [answer_ledger]
      exact .recorded hr
  | answered =>
      rw [answer_ledger]
      exact .none
  | _ => exact .none

/-! ### The sum -/

/-- What is recorded as paid is the sum of the payments, each above zero, and at most the total. -/
structure Kept (l : BillLedger) : Prop where
  paid : l.bill.paidMinor = l.paidSum
  positive : ∀ p ∈ l.payments, 0 < p.amountMinor
  within : l.bill.paidMinor ≤ l.bill.totalMinor
  total_lt : l.bill.totalMinor < 2 ^ 63

namespace Kept

variable {l l' : BillLedger} {request : RecordBillPaymentRequest}

theorem paid_nonneg (h : Kept l) : 0 ≤ l.bill.paidMinor := by
  rw [h.paid]
  refine List.sum_nonneg fun a ha => ?_
  obtain ⟨p, hp, rfl⟩ := List.mem_map.mp ha
  exact (h.positive p hp).le

/-- What a bill has left to pay does not saturate. -/
theorem remaining_eq (h : Kept l) : l.bill.remaining = l.bill.totalMinor - l.bill.paidMinor := by
  have h₁ := h.paid_nonneg
  have h₂ := h.within
  have h₃ := h.total_lt
  exact saturate_eq (by omega) (by omega)

/-- What `record_bill_payment` does to a bill whose figures are kept. -/
theorem record_eq (h : Kept l) (hr : recordBillPayment request l = .ok l') :
    0 < request.amountMinor ∧ (l.bill.status = .approved ∨ l.bill.status = .paid) ∧
      l'.bill.totalMinor = l.bill.totalMinor ∧
      l'.bill.paidMinor = l.bill.paidMinor + request.amountMinor ∧
      l'.bill.paidMinor ≤ l'.bill.totalMinor ∧
      l'.bill.status = (if l.bill.totalMinor ≤ l'.bill.paidMinor then .paid else l.bill.status) ∧
      l'.payments = l.payments ++ [request.payment] := by
  obtain ⟨ha, -, hs, hle, rfl⟩ := recordBillPayment_eq_ok.mp hr
  have hsum : BillLedger.paidSum { l with payments := l.payments ++ [request.payment] } =
      l.bill.paidMinor + request.amountMinor := by
    rw [h.paid]
    simp [BillLedger.paidSum, RecordBillPaymentRequest.payment]
  rw [h.remaining_eq] at hle
  refine ⟨ha, hs, rfl, hsum, ?_, rfl, rfl⟩
  show BillLedger.paidSum { l with payments := l.payments ++ [request.payment] } ≤ l.bill.totalMinor
  omega

theorem written (h : Kept l) (hw : Written l l') : Kept l' := by
  cases hw with
  | none => exact h
  | approved => exact ⟨h.paid, h.positive, h.within, h.total_lt⟩
  | voided => exact ⟨h.paid, h.positive, h.within, h.total_lt⟩
  | @recorded request _ hr =>
      obtain ⟨ha, -, htotal, hpaid, hle, -, hpayments⟩ := h.record_eq hr
      refine ⟨?_, ?_, hle, htotal ▸ h.total_lt⟩
      · rw [hpaid, h.paid]
        simp [BillLedger.paidSum, hpayments, RecordBillPaymentRequest.payment]
      · rw [hpayments, List.forall_mem_append]
        exact ⟨h.positive, by simpa [RecordBillPaymentRequest.payment] using ha⟩

end Kept

/-- The totals of valid lines are no debt of the vendor. -/
theorem BillTotals.fromLines_nonneg {lines : List BillLineInput} (h : ∀ line ∈ lines, line.Valid) :
    0 ≤ (BillTotals.fromLines lines).totalMinor := by
  have hsums : ∀ s : ℤ × ℤ, 0 ≤ s.1 ∧ 0 ≤ s.2 →
      let sums := lines.foldl
        (fun (s : ℤ × ℤ) line =>
          (saturate (s.1 + (saturate (line.unitPriceMinor * line.quantityHundredths)).tdiv 100),
            saturate (s.2 + line.taxMinor))) s
      0 ≤ sums.1 ∧ 0 ≤ sums.2 := by
    induction lines with
    | nil => exact fun s hs => hs
    | cons line lines ih =>
        intro s hs
        obtain ⟨hq, hu, ht⟩ := h line List.mem_cons_self
        have hline := saturate_nonneg (mul_nonneg hu (by omega : 0 ≤ line.quantityHundredths))
        refine ih (fun l hl => h l (List.mem_cons_of_mem _ hl)) _ ⟨saturate_nonneg ?_, saturate_nonneg ?_⟩
        · exact add_nonneg hs.1 (Int.tdiv_nonneg hline (by norm_num))
        · exact add_nonneg hs.2 ht
  obtain ⟨h₁, h₂⟩ := hsums (0, 0) ⟨le_rfl, le_rfl⟩
  exact saturate_nonneg (add_nonneg h₁ h₂)

theorem createBill_kept {lines : List BillLineInput} (h : ∀ line ∈ lines, line.Valid)
    (external : Option (String × String)) : Kept (createBill lines external) :=
  ⟨rfl, by simp [createBill], BillTotals.fromLines_nonneg h, saturate_lt _⟩

/-- The figures are kept in every run. -/
theorem World.run_kept {w w' : World} {es : List BillEvent} (h : Kept w.ledger)
    (hr : run World.step w es = some w') : Kept w'.ledger :=
  run_invariant (fun w => Kept w.ledger) (fun _ _ _ hk hs => hk.written (step_written hs)) h hr

/-! ### The status -/

/-- The figures and the status of a bill agree with its payments. -/
structure Agrees (l : BillLedger) : Prop where
  paid : l.bill.paidMinor = l.paidSum
  within : l.bill.paidMinor ≤ l.bill.totalMinor
  covered : l.bill.status = .approved → l.bill.paidMinor < l.bill.totalMinor
  uncovered : l.bill.status = .paid → l.bill.totalMinor ≤ l.bill.paidMinor
  void : l.bill.status = .void → l.payments = []

instance (l : BillLedger) : Decidable (Agrees l) :=
  decidable_of_iff (l.bill.paidMinor = l.paidSum ∧ l.bill.paidMinor ≤ l.bill.totalMinor ∧
    (l.bill.status = .approved → l.bill.paidMinor < l.bill.totalMinor) ∧
    (l.bill.status = .paid → l.bill.totalMinor ≤ l.bill.paidMinor) ∧
    (l.bill.status = .void → l.payments = []))
    ⟨fun ⟨h₁, h₂, h₃, h₄, h₅⟩ => ⟨h₁, h₂, h₃, h₄, h₅⟩,
      fun h => ⟨h.paid, h.within, h.covered, h.uncovered, h.void⟩⟩

/-- A draft is approved only if there is something to pay, and an approved bill voided only if
nothing was paid. -/
def Careful (w : World) : BillEvent → Prop
  | .approveBill => w.ledger.bill.status = .draft → 0 < w.ledger.bill.totalMinor
  | .voidBill => w.ledger.bill.status = .approved → w.ledger.payments = []
  | _ => True

instance : ∀ w e, Decidable (Careful w e)
  | w, .approveBill => inferInstanceAs (Decidable (w.ledger.bill.status = .draft → _))
  | w, .voidBill => inferInstanceAs (Decidable (w.ledger.bill.status = .approved → _))
  | _, .recordBillPayment _ | _, .payBill _ _ | _, .push _ _ | _, .report _ | _, .record _
  | _, .paidInProvider _ => isTrue trivial

/-- The invariant: a draft has no payments yet. -/
structure Standing (l : BillLedger) : Prop extends Kept l where
  draft : l.bill.status = .draft → l.payments = []
  covered : l.bill.status = .approved → l.bill.paidMinor < l.bill.totalMinor
  uncovered : l.bill.status = .paid → l.bill.totalMinor ≤ l.bill.paidMinor
  void : l.bill.status = .void → l.payments = []

namespace Standing

variable {l l' : BillLedger}

theorem approve (h : Standing l) (ht : 0 < l.bill.totalMinor) (hs : l.bill.status = .draft) :
    Standing { l with bill := { l.bill with status := .approved } } := by
  have hpaid : l.bill.paidMinor = 0 := by
    rw [h.paid]
    simp [BillLedger.paidSum, h.draft hs]
  refine ⟨⟨h.paid, h.positive, h.within, h.total_lt⟩, nofun, fun _ => ?_, nofun, nofun⟩
  show l.bill.paidMinor < l.bill.totalMinor
  omega

theorem voided (h : Standing l) (hp : l.payments = []) :
    Standing { l with bill := { l.bill with status := .void } } :=
  ⟨⟨h.paid, h.positive, h.within, h.total_lt⟩, nofun, nofun, nofun, fun _ => hp⟩

theorem record (h : Standing l) {request : RecordBillPaymentRequest}
    (hr : recordBillPayment request l = .ok l') : Standing l' := by
  obtain ⟨-, hs, htotal, -, -, hstatus, -⟩ := h.toKept.record_eq hr
  have hne : l'.bill.status = .approved ∨ l'.bill.status = .paid := by
    rw [hstatus]
    split
    · exact .inr rfl
    · exact hs
  refine ⟨h.toKept.written (.recorded hr), fun hd => ?_, fun ha => ?_, fun hp => ?_, fun hv => ?_⟩
  · rw [hd] at hne
    simp at hne
  · rw [hstatus] at ha
    split at ha
    · cases ha
    · omega
  · rw [hstatus] at hp
    split at hp
    · omega
    · next hlt =>
        have hcov := h.uncovered hp
        have hle := h.toKept.record_eq hr
        omega
  · rw [hv] at hne
    simp at hne

end Standing

theorem World.step_standing {w w' : World} {e : BillEvent} (h : Standing w.ledger)
    (hc : Careful w e) (hs : w.step e = some w') : Standing w'.ledger := by
  replace hs := step_cases hs
  cases hs with
  | settled hl =>
      rcases hl with ⟨rfl, hl⟩ | ⟨rfl, hl⟩ | ⟨request, -, hl⟩
      · obtain ⟨hd, rfl⟩ := approveBill_eq_ok hl
        exact h.approve (hc hd) hd
      · obtain ⟨hd | ha, rfl⟩ := voidBill_eq_ok hl
        · exact h.voided (h.draft hd)
        · exact h.voided (hc ha)
      · exact h.record hl
  | recorded _ hr =>
      rw [answer_ledger]
      exact h.record hr
  | answered =>
      rw [answer_ledger]
      exact h
  | _ => exact h

/-- In every run whose approvals and voids are careful, the rows of the bill agree. -/
theorem ledger_agrees {lines : List BillLineInput} (hlines : ∀ line ∈ lines, line.Valid)
    (external : Option (String × String)) (provider : ℤ) {es : List BillEvent} {w : World}
    (hC : StepsMeet World.step Careful (World.start lines external provider) es)
    (hr : run World.step (World.start lines external provider) es = some w) : Agrees w.ledger := by
  have h : Standing w.ledger := by
    refine run_invariant_of_stepsMeet (fun w => Standing w.ledger)
      (fun _ _ _ h hc hs => World.step_standing h hc hs) ?_ hC hr
    exact ⟨createBill_kept hlines external, fun _ => rfl, nofun, nofun, nofun⟩
  exact ⟨h.paid, h.within, h.covered, h.uncovered, h.void⟩

/-! ### A bill that is voided after a payment, and a bill for nothing -/

namespace PartPaid

def lines (unitPriceMinor : ℤ) : List BillLineInput := [⟨100, unitPriceMinor, 0⟩]

theorem lines_valid {price : ℤ} (h : 0 ≤ price) : ∀ line ∈ lines price, line.Valid := by
  intro line hl
  obtain rfl := List.mem_singleton.mp hl
  exact ⟨by norm_num, h, le_rfl⟩

theorem day_exists : (NaiveDate.fromYmdOpt 2026 3 2).isSome = true := by decide

def payment (amountMinor : ℤ) : RecordBillPaymentRequest where
  paidOn := (NaiveDate.fromYmdOpt 2026 3 2).get day_exists
  amountMinor := amountMinor
  paymentMethod := "check"
  reference := none
  notes := none

/-- A bill for 500 that is approved and paid in two parts. -/
theorem ledger_agrees_paid : ∃ w,
    run World.step (World.start (lines 500) none 0)
      [.approveBill, .recordBillPayment (payment 200), .recordBillPayment (payment 300)] = some w ∧
    w.ledger.bill.status = .paid ∧ Agrees w.ledger := by
  have h : (run World.step (World.start (lines 500) none 0)
      [.approveBill, .recordBillPayment (payment 200), .recordBillPayment (payment 300)]).any
      (fun w => decide (w.ledger.bill.status = .paid)) = true := by
    decide +kernel
  obtain ⟨w, hr, hw⟩ := exists_run_of_any h
  exact ⟨w, hr, of_decide_eq_true hw,
    ledger_agrees (lines_valid (by norm_num)) none 0 (by decide +kernel) hr⟩

/-- A bill for 500 is voided after a payment of 200, and a bill for nothing stays approved. -/
theorem ledger_disagrees :
    (∃ w, run World.step (World.start (lines 500) none 0)
        [.approveBill, .recordBillPayment (payment 200), .voidBill] = some w ∧
      w.ledger.bill.status = .void ∧ w.ledger.bill.paidMinor = 200 ∧ ¬ Agrees w.ledger) ∧
    ∃ w, run World.step (World.start (lines 0) none 0) [.approveBill] = some w ∧
      w.ledger.bill.status = .approved ∧ ¬ Agrees w.ledger := by
  have h₁ : (run World.step (World.start (lines 500) none 0)
      [.approveBill, .recordBillPayment (payment 200), .voidBill]).any
      (fun w => decide (w.ledger.bill.status = .void ∧ w.ledger.bill.paidMinor = 200 ∧
        ¬ Agrees w.ledger)) = true := by
    decide +kernel
  have h₂ : (run World.step (World.start (lines 0) none 0) [.approveBill]).any
      (fun w => decide (w.ledger.bill.status = .approved ∧ ¬ Agrees w.ledger)) = true := by
    decide +kernel
  obtain ⟨w₁, hr₁, hw₁⟩ := exists_run_of_any h₁
  obtain ⟨w₂, hr₂, hw₂⟩ := exists_run_of_any h₂
  exact ⟨⟨w₁, hr₁, of_decide_eq_true hw₁⟩, w₂, hr₂, of_decide_eq_true hw₂⟩

end PartPaid

end Mokosh.Expenses
