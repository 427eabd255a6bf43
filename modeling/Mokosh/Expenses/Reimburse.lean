import Mokosh.Expenses.Bill

/-! # Paying back an expense

`expenses/service.rs`, the half about the expense claims of an MSP's own people.  A claim goes
`draft → submitted → approved → reimbursed`, or is rejected.

`reimburse_expense` checks the status under the row lock, lets go of the lock, tells the provider to
pay, and takes the lock again to write the status.  Nothing that it checks is still held when the
money is sent: **`reimbursed_once`** says that the provider accepts at most one reimbursement, and
exactly one of a claim that is reimbursed, in the runs in which

* a call passes its check only while no other call is between its check and its write, and no accepted
  reimbursement was reported as failed, and
* the claims are delegated. -/

namespace Mokosh.Expenses

/-! ### Expenses -/

inductive ExpenseStatus where
  | draft
  | submitted
  | approved
  | reimbursed
  | rejected
deriving DecidableEq, Repr

def ExpenseStatus.asStr : ExpenseStatus → String
  | draft => "draft"
  | submitted => "submitted"
  | approved => "approved"
  | reimbursed => "reimbursed"
  | rejected => "rejected"

/-- What a provider gave back for a reimbursement. -/
structure ExternalExpenseRef where
  provider : InvoiceProviderKind
  externalExpenseId : String
deriving DecidableEq

/-- The columns of an expense that its transitions read or write.  Times are counted. -/
structure Expense where
  status : ExpenseStatus
  approverId : Option Uuid
  approvedAt : Option ℕ
  reimbursedAt : Option ℕ
  externalProvider : Option String
  externalExpenseId : Option String
deriving DecidableEq

/-- The row that `create_expense` inserts. -/
def createExpense : Expense :=
  { status := .draft
    approverId := none
    approvedAt := none
    reimbursedAt := none
    externalProvider := none
    externalExpenseId := none }

/-- `expense_transition_refusal`. -/
def expenseTransitionRefusal (current target : ExpenseStatus) : String :=
  match current with
  | .rejected => "This expense was rejected, which is terminal. File a new expense instead."
  | .reimbursed => "A reimbursed expense is immutable. File a reversing expense instead."
  | status =>
    if status = target then "This expense is already '" ++ target.asStr ++ "'."
    else if status = .draft then
      "This expense has not been submitted yet, so it cannot move to '" ++ target.asStr ++
        "'. Submit it first."
    else if status = .submitted ∧ target = .reimbursed then
      "This expense has not been approved yet, so there is nothing to pay back. Approve it first."
    else if status = .approved ∧ target = .submitted then
      "This expense is already approved, which is past submission. There is nothing to submit."
    else "This expense is '" ++ status.asStr ++ "', so it cannot move to '" ++ target.asStr ++
      "'. No remedy is defined yet for this transition."

/-- `lock_and_assert_status`. -/
def lockAndAssertStatus (allowedFrom : List ExpenseStatus) (target : ExpenseStatus) (e : Expense) :
    AppResult Expense :=
  if e.status = .reimbursed then .error (.conflict (expenseTransitionRefusal e.status target))
  else if e.status ∈ allowedFrom then .ok e
  else .error (.conflict (expenseTransitionRefusal e.status target))

/-- `transition_expense`. -/
def transitionExpense (allowedFrom : List ExpenseStatus) (target : ExpenseStatus)
    (setApprover : Option Uuid) (reimbursing : Bool) (external : Option ExternalExpenseRef) (now : ℕ)
    (e : Expense) : AppResult Expense := do
  let before ← lockAndAssertStatus allowedFrom target e
  pure
    { status := target
      approverId := setApprover.or before.approverId
      approvedAt := if target = .approved then some now else before.approvedAt
      reimbursedAt := if reimbursing then some now else before.reimbursedAt
      externalProvider := (external.map fun r => r.provider.asStr).or before.externalProvider
      externalExpenseId := (external.map (·.externalExpenseId)).or before.externalExpenseId }

def submitExpense (now : ℕ) : Expense → AppResult Expense :=
  transitionExpense [.draft] .submitted none false none now

def approveExpense (approverId : Uuid) (now : ℕ) : Expense → AppResult Expense :=
  transitionExpense [.submitted] .approved (some approverId) false none now

def rejectExpense (now : ℕ) : Expense → AppResult Expense :=
  transitionExpense [.submitted] .rejected none false none now

/-- The end of `reimburse_expense`. -/
def writeReimbursed (external : Option ExternalExpenseRef) (now : ℕ) : Expense → AppResult Expense :=
  transitionExpense [.approved] .reimbursed none true external now

/-! ### One claim and the calls on it -/

/-- A call of `reimburse_expense` in flight: past its check, or before its write. -/
inductive ReimburseCall where
  | checked
  | writing (external : Option ExternalExpenseRef)
deriving DecidableEq

/-- What `plan_expense` comes back with: the tenant has not delegated; the provider accepts; it
accepts and the answer is lost; it refuses, or something before it does. -/
inductive PlanAnswer where
  | here
  | accepted (external : ExternalExpenseRef)
  | lost
  | refused
deriving DecidableEq

/-- One claim, the calls in flight, how many reimbursements the provider has accepted, and whether the
answer to one of them was lost. -/
structure Claim where
  expense : Expense
  calls : List ReimburseCall
  accepted : ℕ
  lost : Bool

inductive ClaimEvent where
  | submitExpense (now : ℕ)
  | approveExpense (approverId : Uuid) (now : ℕ)
  | rejectExpense (now : ℕ)
  /-- `reimburse_expense` up to its check, with the delegation switched on or off. -/
  | reimburseExpense (enabled : Bool)
  /-- Call `i` plans, which tells the provider. -/
  | plan (i : ℕ) (answer : PlanAnswer)
  /-- Call `i` writes. -/
  | write (i : ℕ) (now : ℕ)

namespace Claim

def settle (c : Claim) (result : AppResult Expense) : Claim :=
  match result with
  | .ok e => { c with expense := e }
  | .error _ => c

def reimburse (c : Claim) (enabled : Bool) : Claim :=
  if enabled then
    match lockAndAssertStatus [.approved] .reimbursed c.expense with
    | .ok _ => { c with calls := c.calls ++ [.checked] }
    | .error _ => c
  else { c with calls := c.calls ++ [.writing none] }

def plan (c : Claim) (i : ℕ) (answer : PlanAnswer) : Option Claim :=
  match c.calls[i]? with
  | some .checked =>
    match answer with
    | .here => some { c with calls := c.calls.set i (.writing none) }
    | .accepted external =>
      some { c with accepted := c.accepted + 1, calls := c.calls.set i (.writing (some external)) }
    | .lost => some { c with accepted := c.accepted + 1, lost := true, calls := c.calls.eraseIdx i }
    | .refused => some { c with calls := c.calls.eraseIdx i }
  | _ => none

def write (c : Claim) (i now : ℕ) : Option Claim :=
  match c.calls[i]? with
  | some (.writing external) =>
    some ({ c with calls := c.calls.eraseIdx i }.settle (writeReimbursed external now c.expense))
  | _ => none

def step (c : Claim) : ClaimEvent → Option Claim
  | .submitExpense now => some (c.settle (submitExpense now c.expense))
  | .approveExpense approverId now => some (c.settle (approveExpense approverId now c.expense))
  | .rejectExpense now => some (c.settle (rejectExpense now c.expense))
  | .reimburseExpense enabled => some (c.reimburse enabled)
  | .plan i answer => c.plan i answer
  | .write i now => c.write i now

def start : Claim := { expense := createExpense, calls := [], accepted := 0, lost := false }

end Claim

/-! ### The invariant -/

/-- What a step has to find: a call that passes its check is alone, and no accepted reimbursement was
reported as failed; and the claim is delegated. -/
def Solitary (c : Claim) : ClaimEvent → Prop
  | .reimburseExpense enabled =>
    enabled = true ∧ (c.expense.status = .approved → c.calls = [] ∧ c.lost = false)
  | .plan _ answer => answer ≠ .here
  | _ => True

instance : ∀ c e, Decidable (Solitary c e)
  | c, .reimburseExpense enabled => inferInstanceAs (Decidable (enabled = true ∧
      (c.expense.status = .approved → c.calls = [] ∧ c.lost = false)))
  | _, .plan _ answer => inferInstanceAs (Decidable (answer ≠ .here))
  | _, .submitExpense _ | _, .approveExpense _ _ | _, .rejectExpense _ | _, .write _ _ =>
    isTrue trivial

/-- How far the one reimbursement of a claim has come. -/
inductive Stage (c : Claim) : Prop
  | before (hs : c.expense.status ≠ .reimbursed) (hc : c.calls = []) (ha : c.accepted = 0)
      (hl : c.lost = false)
  | checked (hs : c.expense.status = .approved) (hc : c.calls = [.checked]) (ha : c.accepted = 0)
      (hl : c.lost = false)
  | accepted (external : ExternalExpenseRef) (hs : c.expense.status = .approved)
      (hc : c.calls = [.writing (some external)]) (ha : c.accepted = 1) (hl : c.lost = false)
  | lost (hs : c.expense.status = .approved) (hc : c.calls = []) (ha : c.accepted = 1)
      (hl : c.lost = true)
  | done (hs : c.expense.status = .reimbursed) (hc : c.calls = []) (ha : c.accepted = 1)

theorem transitionExpense_eq_ok {allowedFrom : List ExpenseStatus} {target : ExpenseStatus}
    {setApprover : Option Uuid} {reimbursing : Bool} {external : Option ExternalExpenseRef} {now : ℕ}
    {e e' : Expense}
    (h : transitionExpense allowedFrom target setApprover reimbursing external now e = .ok e') :
    e.status ≠ .reimbursed ∧ e.status ∈ allowedFrom ∧ e'.status = target := by
  obtain ⟨before, h₁, h₂⟩ := bind_eq_ok.mp h
  unfold lockAndAssertStatus at h₁
  split at h₁
  · cases h₁
  · next hne =>
      split at h₁
      · next hs =>
          cases h₁
          cases h₂
          exact ⟨hne, hs, rfl⟩
      · cases h₁

namespace Stage

variable {c : Claim}

/-- A transition to a status other than `reimbursed`, out of one other than `approved`. -/
theorem settle (h : Stage c) {result : AppResult Expense}
    (hr : ∀ e, result = .ok e → c.expense.status ≠ .reimbursed ∧ c.expense.status ≠ .approved ∧
      e.status ≠ .reimbursed) : Stage (c.settle result) := by
  cases result with
  | error e => exact h
  | ok e =>
      obtain ⟨h₁, h₂, h₃⟩ := hr e rfl
      cases h with
      | before _ hc ha hl => exact .before h₃ hc ha hl
      | checked hs => exact absurd hs h₂
      | accepted _ hs => exact absurd hs h₂
      | lost hs => exact absurd hs h₂
      | done hs => exact absurd hs h₁

theorem reimburse (h : Stage c) (hc : c.expense.status = .approved → c.calls = [] ∧ c.lost = false) :
    Stage (c.reimburse true) := by
  unfold Claim.reimburse lockAndAssertStatus
  by_cases hs : c.expense.status = .approved
  · obtain ⟨hnil, hl⟩ := hc hs
    have ha : c.accepted = 0 := by
      cases h with
      | before _ _ ha => exact ha
      | checked _ _ ha => exact ha
      | accepted _ _ hc => exact absurd (hnil.symm.trans hc) (by simp)
      | lost _ _ _ hl' => exact absurd (hl.symm.trans hl') (by simp)
      | done hs' => exact absurd (hs.symm.trans hs') (by simp)
    simp only [hs, if_true, reduceCtorEq, if_false, List.mem_singleton]
    exact .checked hs (by simp [hnil]) ha hl
  · rw [if_pos rfl]
    split
    · next hok =>
        split at hok
        · cases hok
        · split at hok
          · next hm => exact absurd (List.mem_singleton.mp hm) hs
          · cases hok
    · exact h

/-- The one call that has passed its check tells the provider. -/
theorem plan (h : Stage c) {i : ℕ} {answer : PlanAnswer} (ha : answer ≠ .here) {c' : Claim}
    (hp : c.plan i answer = some c') : Stage c' := by
  unfold Claim.plan at hp
  split at hp
  · next hi =>
      have hmem := List.mem_of_getElem? hi
      cases h with
      | checked hs hc hz hl =>
          obtain rfl : i = 0 := by
            rw [hc] at hi
            have := (List.getElem?_eq_some_iff.mp hi).1
            simpa using this
          cases answer with
          | here => exact absurd rfl ha
          | accepted external =>
              cases hp
              exact .accepted external hs (by simp [hc]) (by simp [hz]) hl
          | lost =>
              cases hp
              exact .lost hs (by simp [hc]) (by simp [hz]) rfl
          | refused =>
              cases hp
              refine .before ?_ (by simp [hc]) hz hl
              show c.expense.status ≠ .reimbursed
              rw [hs]
              decide
      | accepted external _ hc =>
          rw [hc] at hmem
          cases List.mem_singleton.mp hmem
      | before _ hc | lost _ hc | done _ hc =>
          rw [hc] at hmem
          cases hmem
  · cases hp

/-- The one call that was accepted writes, and nobody has moved the claim. -/
theorem write (h : Stage c) {i now : ℕ} {c' : Claim} (hw : c.write i now = some c') : Stage c' := by
  unfold Claim.write at hw
  split at hw
  · next external hi =>
      have hmem := List.mem_of_getElem? hi
      cases h with
      | accepted external' hs hc ha =>
          obtain rfl : i = 0 := by
            rw [hc] at hi
            have := (List.getElem?_eq_some_iff.mp hi).1
            simpa using this
          have hok : ∃ e, writeReimbursed external now c.expense = .ok e := by
            unfold writeReimbursed transitionExpense lockAndAssertStatus
            simp [hs, bind, Except.bind, pure, Except.pure]
          obtain ⟨e, he⟩ := hok
          rw [he] at hw
          cases hw
          exact .done (transitionExpense_eq_ok he).2.2 (by simp [Claim.settle, hc]) ha
      | checked _ hc =>
          rw [hc] at hmem
          cases List.mem_singleton.mp hmem
      | before _ hc | lost _ hc | done _ hc =>
          rw [hc] at hmem
          cases hmem
  · cases hw

end Stage

theorem Claim.step_stage {c c' : Claim} {e : ClaimEvent} (h : Stage c) (hs : Solitary c e)
    (hstep : c.step e = some c') : Stage c' := by
  cases e with
  | submitExpense now =>
      cases hstep
      refine h.settle fun e he => ?_
      obtain ⟨h₁, h₂, h₃⟩ := transitionExpense_eq_ok he
      rw [List.mem_singleton.mp h₂, h₃]
      decide
  | approveExpense approverId now =>
      cases hstep
      refine h.settle fun e he => ?_
      obtain ⟨h₁, h₂, h₃⟩ := transitionExpense_eq_ok he
      rw [List.mem_singleton.mp h₂, h₃]
      decide
  | rejectExpense now =>
      cases hstep
      refine h.settle fun e he => ?_
      obtain ⟨h₁, h₂, h₃⟩ := transitionExpense_eq_ok he
      rw [List.mem_singleton.mp h₂, h₃]
      decide
  | reimburseExpense enabled =>
      obtain ⟨rfl, hc⟩ := hs
      cases hstep
      exact h.reimburse hc
  | plan i answer => exact h.plan hs hstep
  | write i now => exact h.write hstep

/-- In every run whose steps are solitary the provider accepts at most one reimbursement of the claim,
and has accepted exactly one if the claim is reimbursed. -/
theorem reimbursed_once {es : List ClaimEvent} {c : Claim}
    (hS : StepsMeet Claim.step Solitary Claim.start es) (hr : run Claim.step Claim.start es = some c) :
    c.accepted ≤ 1 ∧ (c.expense.status = .reimbursed → c.accepted = 1) := by
  have h : Stage c := run_invariant_of_stepsMeet Stage (fun _ _ _ h hs => Claim.step_stage h hs)
    (.before (by decide) rfl rfl rfl) hS hr
  cases h with
  | before hs _ ha => exact ⟨by omega, fun h => absurd h hs⟩
  | checked hs _ ha => exact ⟨by omega, fun h => absurd (hs.symm.trans h) (by decide)⟩
  | accepted _ _ _ ha | lost _ _ ha | done _ _ ha => exact ⟨by omega, fun _ => ha⟩

/-! ### Two calls past the check -/

namespace DoubleClick

def approved : List ClaimEvent := [.submitExpense 1, .approveExpense 7 2]

def paid : PlanAnswer := .accepted ⟨.xero, "e-1"⟩

theorem reimbursed_once_alone : ∃ c, run Claim.step Claim.start
      (approved ++ [.reimburseExpense true, .plan 0 .refused, .reimburseExpense true, .plan 0 paid,
        .write 0 3]) = some c ∧
    c.expense.status = .reimbursed ∧ c.accepted = 1 := by
  have h : (run Claim.step Claim.start
      (approved ++ [.reimburseExpense true, .plan 0 .refused, .reimburseExpense true, .plan 0 paid,
        .write 0 3])).any (fun c => decide (c.expense.status = .reimbursed)) = true := by
    decide +kernel
  obtain ⟨c, hr, hc⟩ := exists_run_of_any h
  have hs := of_decide_eq_true hc
  exact ⟨c, hr, hs, (reimbursed_once (by decide +kernel) hr).2 hs⟩

/-- Two calls pass the check before either has told the provider; and a call is repeated after the
answer to an accepted one was lost.  The provider pays twice. -/
theorem reimbursed_twice :
    (∃ c, run Claim.step Claim.start (approved ++ [.reimburseExpense true, .reimburseExpense true,
        .plan 0 paid, .plan 1 paid, .write 0 3, .write 0 4]) = some c ∧
      c.expense.status = .reimbursed ∧ c.accepted = 2) ∧
    ∃ c, run Claim.step Claim.start (approved ++ [.reimburseExpense true, .plan 0 .lost,
        .reimburseExpense true, .plan 0 paid, .write 0 3]) = some c ∧
      c.expense.status = .reimbursed ∧ c.accepted = 2 := by
  have h₁ : (run Claim.step Claim.start (approved ++ [.reimburseExpense true,
      .reimburseExpense true, .plan 0 paid, .plan 1 paid, .write 0 3, .write 0 4])).any
      (fun c => decide (c.expense.status = .reimbursed ∧ c.accepted = 2)) = true := by
    decide +kernel
  have h₂ : (run Claim.step Claim.start (approved ++ [.reimburseExpense true, .plan 0 .lost,
      .reimburseExpense true, .plan 0 paid, .write 0 3])).any
      (fun c => decide (c.expense.status = .reimbursed ∧ c.accepted = 2)) = true := by
    decide +kernel
  obtain ⟨c₁, hr₁, hc₁⟩ := exists_run_of_any h₁
  obtain ⟨c₂, hr₂, hc₂⟩ := exists_run_of_any h₂
  exact ⟨⟨c₁, hr₁, of_decide_eq_true hc₁⟩, c₂, hr₂, of_decide_eq_true hc₂⟩

end DoubleClick

end Mokosh.Expenses
