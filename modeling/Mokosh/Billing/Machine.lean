import Mokosh.TimeTracking.Operations
import Mokosh.Billing.Payments
import Mokosh.Lib.Transition

/-! # Interleaved transactions of billing

The state is the tables and the calls that have read and wait for their lock.  An event runs one
transaction: a whole operation, the read of one that reads first (`startUpdate`, …), or the rest of
such a call (`commit`).  An operation that fails leaves the tables alone.  The operations of time
tracking run as a whole (`time`).

The row locks make each transaction atomic; transactions of different calls run in any order. -/

namespace Mokosh

/-- A call that has read and waits for the lock of its invoice. -/
inductive BillingCall where
  | update (current : Invoice) (request : UpdateInvoiceRequest)
  | deletePayment (paymentId : Uuid) (invoiceId : Option Uuid)
  | gatewayRefunds (paymentId : Uuid) (invoiceId : Option Uuid) (refunds : List RefundLine)
  | voidCreditNote (creditNoteId invoiceId : Uuid)

inductive BillingEvent where
  | time (op : TimeOp)
  | createInvoice (request : CreateInvoiceRequest) (number : String)
      (externalProvider : Option String) (outside : AppResult Unit)
  | createInvoiceFromTimeEntries (request : CreateInvoiceFromTimeEntriesRequest) (number : String)
      (outside : AppResult Unit)
  | generateOneRecurringInvoice (contractId companyId : Uuid) (periodStart periodEnd : NaiveDate)
      (number : String) (outside : AppResult Unit)
  | amendInvoice (invoiceId : Uuid) (number : String) (outside : AppResult Unit)
  | voidInvoice (invoiceId : Uuid)
  | voidDelegatedInvoice (invoiceId : Uuid) (provider : String)
  | writeOffInvoice (invoiceId : Uuid)
  | createPayment (request : CreatePaymentRequest)
  | recordGatewayPayment (invoiceId : Uuid) (providerReference : String) (amount : ℚ)
  | createCreditNote (request : CreateCreditNoteRequest) (outside : AppResult Unit)
  | startUpdate (invoiceId : Uuid) (request : UpdateInvoiceRequest)
  | startDeletePayment (paymentId : Uuid)
  | startGatewayRefunds (providerReference : String) (refunds : List RefundLine)
  | startVoidCreditNote (creditNoteId : Uuid)
  | commit (i : ℕ) (outside : AppResult Unit)

structure Billing where
  db : BillingDb
  calls : List BillingCall

namespace Billing

/-- The tables that an operation commits. -/
def committed (db : BillingDb) : AppResult BillingDb → BillingDb
  | .ok db' => db'
  | .error _ => db

/-- The rest of a call. -/
def finish (db : BillingDb) (outside : AppResult Unit) : BillingCall → AppResult BillingDb
  | .update current request => commitUpdateInvoice db current request outside
  | .deletePayment paymentId invoiceId => .ok (commitDeletePayment db paymentId invoiceId)
  | .gatewayRefunds paymentId invoiceId refunds =>
    commitGatewayRefunds db paymentId invoiceId refunds
  | .voidCreditNote creditNoteId invoiceId => commitVoidCreditNote db creditNoteId invoiceId outside

/-- A transaction that leaves no call waiting. -/
def write (s : Billing) (r : AppResult BillingDb) : Option Billing :=
  some { s with db := committed s.db r }

/-- A read, after which the call waits for its lock. -/
def wait (s : Billing) (r : Option BillingCall) : Option Billing :=
  some { s with calls := s.calls ++ r.toList }

/-- One transaction. -/
def step (s : Billing) : BillingEvent → Option Billing
  | .time op => some { s with db := { s.db with time := s.db.time.perform op } }
  | .createInvoice request number externalProvider outside =>
    s.write (createInvoice s.db request number externalProvider outside)
  | .createInvoiceFromTimeEntries request number outside =>
    s.write (createInvoiceFromTimeEntries s.db request number outside)
  | .generateOneRecurringInvoice contractId companyId periodStart periodEnd number outside =>
    s.write (generateOneRecurringInvoice s.db contractId companyId periodStart periodEnd number
      outside)
  | .amendInvoice invoiceId number outside => s.write (amendInvoice s.db invoiceId number outside)
  | .voidInvoice invoiceId => s.write (voidInvoice s.db invoiceId)
  | .voidDelegatedInvoice invoiceId provider =>
    s.write (.ok (voidDelegatedInvoice s.db invoiceId provider))
  | .writeOffInvoice invoiceId => s.write (writeOffInvoice s.db invoiceId)
  | .createPayment request => s.write (createPayment s.db request)
  | .recordGatewayPayment invoiceId providerReference amount =>
    s.write (recordGatewayPayment s.db invoiceId providerReference amount)
  | .createCreditNote request outside => s.write (createCreditNote s.db request outside)
  | .startUpdate invoiceId request =>
    s.wait ((readForUpdate s.db invoiceId request).toOption.map (.update · request))
  | .startDeletePayment paymentId =>
    s.wait ((readForDeletePayment s.db paymentId).toOption.map (.deletePayment paymentId))
  | .startGatewayRefunds providerReference refunds =>
    s.wait ((readForGatewayRefunds s.db providerReference).map fun p =>
      .gatewayRefunds p.1 p.2 refunds)
  | .startVoidCreditNote creditNoteId =>
    s.wait ((readForVoidCreditNote s.db creditNoteId).toOption.map (.voidCreditNote creditNoteId))
  | .commit i outside =>
    match s.calls[i]? with
    | none => none
    | some c => some ⟨committed s.db (finish s.db outside c), s.calls.eraseIdx i⟩

/-- What an operation commits has every property of what it found and of what it returns. -/
theorem committed_holds {P : BillingDb → Prop} {db : BillingDb} {r : AppResult BillingDb} (h : P db)
    (hr : ∀ db', r = .ok db' → P db') : P (committed db r) := by
  cases r with
  | error e => exact h
  | ok db' => exact hr db' rfl

theorem write_holds {P : BillingDb → Prop} {s s' : Billing} {r : AppResult BillingDb} (h : P s.db)
    (hr : ∀ db', r = .ok db' → P db') (hs : s.write r = some s') : P s'.db := by
  cases hs
  exact committed_holds h hr

theorem step_commit {s s' : Billing} {i : ℕ} {outside : AppResult Unit}
    (hs : step s (.commit i outside) = some s') :
    ∃ c, s.calls[i]? = some c ∧
      s' = ⟨committed s.db (finish s.db outside c), s.calls.eraseIdx i⟩ := by
  simp only [step] at hs
  split at hs
  · exact absurd hs (by simp)
  · next c hc =>
    cases hs
    exact ⟨c, hc, rfl⟩

/-- A read that fails leaves no call. -/
theorem eq_ok_of_toOption_map {α : Type} {r : AppResult α} {f : α → BillingCall} {c : BillingCall}
    (h : r.toOption.map f = some c) : ∃ a, r = .ok a ∧ f a = c := by
  cases r with
  | error e => exact absurd h (by simp [Except.toOption])
  | ok a => exact ⟨a, rfl, by simpa [Except.toOption] using h⟩

/-- The call that an event leaves waiting, with what it has read. -/
inductive Began (db : BillingDb) : BillingEvent → BillingCall → Prop
  | update {invoiceId : Uuid} {request : UpdateInvoiceRequest} {current : Invoice}
      (h : readForUpdate db invoiceId request = .ok current) :
      Began db (.startUpdate invoiceId request) (.update current request)
  | deletePayment {paymentId : Uuid} {o : Option Uuid}
      (h : readForDeletePayment db paymentId = .ok o) :
      Began db (.startDeletePayment paymentId) (.deletePayment paymentId o)
  | gatewayRefunds {reference : String} {refunds : List RefundLine} {p : Uuid × Option Uuid}
      (h : readForGatewayRefunds db reference = some p) :
      Began db (.startGatewayRefunds reference refunds) (.gatewayRefunds p.1 p.2 refunds)
  | voidCreditNote {creditNoteId invoiceId : Uuid}
      (h : readForVoidCreditNote db creditNoteId = .ok invoiceId) :
      Began db (.startVoidCreditNote creditNoteId) (.voidCreditNote creditNoteId invoiceId)

theorem mem_wait {s s' : Billing} {r : Option BillingCall} (hs : s.wait r = some s') {c : BillingCall}
    (hc : c ∈ s'.calls) : c ∈ s.calls ∨ r = some c := by
  cases hs
  rcases List.mem_append.mp hc with hc | hc
  · exact .inl hc
  · exact .inr (Option.mem_toList.mp hc)

/-- A call that waits after a step waited before it, or has just read. -/
theorem step_began {s s' : Billing} {e : BillingEvent} (hs : step s e = some s') :
    ∀ c ∈ s'.calls, c ∈ s.calls ∨ Began s.db e c := by
  intro c hc
  cases e with
  | startUpdate invoiceId request =>
      refine (mem_wait hs hc).imp_right fun h => ?_
      obtain ⟨current, hread, rfl⟩ := eq_ok_of_toOption_map h
      exact .update hread
  | startDeletePayment paymentId =>
      refine (mem_wait hs hc).imp_right fun h => ?_
      obtain ⟨o, hread, rfl⟩ := eq_ok_of_toOption_map h
      exact .deletePayment hread
  | startGatewayRefunds reference refunds =>
      refine (mem_wait hs hc).imp_right fun h => ?_
      obtain ⟨p, hread, rfl⟩ := Option.map_eq_some_iff.mp h
      exact .gatewayRefunds hread
  | startVoidCreditNote creditNoteId =>
      refine (mem_wait hs hc).imp_right fun h => ?_
      obtain ⟨i, hread, rfl⟩ := eq_ok_of_toOption_map h
      exact .voidCreditNote hread
  | commit i outside =>
      obtain ⟨d, -, rfl⟩ := step_commit hs
      exact .inl (List.mem_of_mem_eraseIdx hc)
  | _ =>
      cases hs
      exact .inl hc

/-- A tenant that has billed nothing yet. -/
def init (time : TimeDb) (mileage : Table MileageEntry.id) (taxRates : List TaxRate)
    (products : List Product) : Billing :=
  { db :=
      { time := time
        mileage := mileage
        taxRates := taxRates
        products := products
        invoices := ∅
        lines := ∅
        payments := ∅
        refunds := ∅
        creditNotes := ∅
        runs := ∅ }
    calls := [] }

end Billing

end Mokosh
