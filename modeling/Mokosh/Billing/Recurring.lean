import Mokosh.Billing.Machine
import Mokosh.Contracts.Ledger
import Mokosh.Lib.Transition

/-! # Recurring invoices, statement by statement

Any number of `generate_one_recurring_invoice` transactions in flight at once, over any contracts
and periods.  A transaction (`RecurringTx`) reads the items that a period bills, takes a number from
the tenant's or the company's counter, inserts the invoice, claims the period, claims its one-time
items one by one, writes the lines and commits.  The database works under read committed:

* What a transaction writes is seen by the others once it has committed.
* A row that a transaction has written is locked until it ends, and so is the unique key of a row
  that it has inserted (`RecurringTx.holds`); a statement that needs it waits (`Recurring.blocked`).
* A transaction that finds its period claimed, or one of its one-time items billed, is dropped, and
  it may fail at any statement (`RecurringEvent.abort`).

**`recurring_once`**: no two invoices are generated for a contract and a period, no one-time item is
on two of them, the numbers of each counter follow one another, and every step but a commit leaves
the counters, the claims, the flags and the invoices as they are.
`generateOneRecurringInvoice_eq_publish` ties the commit to the transaction as a whole. -/

namespace Mokosh

/-! ### Numbers -/

inductive NumberScheme where
  | tenantSequence
  | companyPrefix
deriving DecidableEq, Repr

/-- The rows of `invoice_sequences` and `invoice_company_sequences`, which hold the last number. -/
inductive CounterKey where
  | tenant
  | company (companyId : Uuid)
deriving DecidableEq, Repr

/-- `{:06}`. -/
def padded (n : ℕ) : String :=
  String.ofList (List.replicate (6 - (toString n).length) '0') ++ toString n

/-- Where a transaction takes its number from. -/
inductive NumberSource where
  | tenant
  /-- The company's prefix, and whether the transaction itself has drawn it. -/
  | company (companyId : Uuid) (text : String) (drawn : Bool)

namespace NumberSource

def key : NumberSource → CounterKey
  | tenant => .tenant
  | company companyId _ _ => .company companyId

/-- The text of a number; the tenant's prefix is a column of its counter. -/
def format (tenantPrefix : Option String) (n : ℕ) : NumberSource → String
  | tenant => tenantPrefix.getD "INV-" ++ padded n
  | company _ text _ => text ++ "-" ++ padded n

end NumberSource

/-! ### Transactions -/

/-- What a transaction is asked to bill. -/
structure RecurringJob where
  contractId : Uuid
  companyId : Uuid
  periodStart : NaiveDate
  periodEnd : NaiveDate

/-- An invoice that has its items and its number. -/
structure RecurringDraft where
  job : RecurringJob
  items : List ContractItem
  source : NumberSource
  n : ℕ
  number : String

/-- The one-time items on the invoice. -/
def RecurringDraft.onceItems (d : RecurringDraft) : List Uuid :=
  (d.items.filter fun i => decide (i.billingRule = .once)).map ContractItem.id

/-- Where a transaction stands: its next statement, with what it has read and written. -/
inductive RecurringTx where
  | reading (job : RecurringJob)
  | numbering (job : RecurringJob) (items : List ContractItem)
  | prefixing (job : RecurringJob) (items : List ContractItem)
  | counting (job : RecurringJob) (items : List ContractItem) (source : NumberSource)
  /-- The counter has no row yet, and is to be inserted. -/
  | seeding (job : RecurringJob) (items : List ContractItem) (source : NumberSource)
  /-- Another transaction has inserted the company's counter first. -/
  | recounting (job : RecurringJob) (items : List ContractItem) (source : NumberSource)
  | inserting (draft : RecurringDraft)
  | claiming (draft : RecurringDraft)
  | claimingItems (draft : RecurringDraft) (todo : List ContractItem) (claimed : List Uuid)
  | committing (draft : RecurringDraft) (claimed : List Uuid)

/-- What a transaction locks. -/
inductive LockKey where
  | companyPrefix (companyId : Uuid)
  | counter (key : CounterKey)
  | period (contractId : Uuid) (periodStart : NaiveDate)
  | item (id : Uuid)
deriving DecidableEq

/-- A prefix that the transaction has drawn is a row of `companies` that it has written. -/
def NumberSource.holds : NumberSource → List LockKey
  | company companyId _ true => [.companyPrefix companyId]
  | company _ _ false | tenant => []

namespace RecurringDraft

def holds (d : RecurringDraft) : List LockKey := .counter d.source.key :: d.source.holds

def periodKey (d : RecurringDraft) : LockKey := .period d.job.contractId d.job.periodStart

end RecurringDraft

/-- The locks of a transaction. -/
def RecurringTx.holds : RecurringTx → List LockKey
  | reading _ | numbering _ _ | prefixing _ _ => []
  | counting _ _ source | seeding _ _ source | recounting _ _ source => source.holds
  | inserting d | claiming d => d.holds
  | claimingItems d _ claimed | committing d claimed =>
    claimed.map .item ++ (d.periodKey :: d.holds)

/-- An invoice that was generated. -/
structure Generated where
  invoiceId : Uuid
  contractId : Uuid
  periodStart : NaiveDate
  onceItems : List Uuid
  counter : CounterKey
  n : ℕ

structure Recurring where
  db : BillingDb
  scheme : NumberScheme
  /-- `companies.invoice_prefix`. -/
  prefixes : List (Uuid × String)
  /-- `invoice_sequences.prefix`. -/
  tenantPrefix : Option String
  /-- The last number of each counter that has a row. -/
  counters : CounterKey → Option ℕ
  txs : List RecurringTx
  /-- The invoices that were committed, in their order. -/
  log : List Generated

inductive RecurringEvent where
  | setScheme (scheme : NumberScheme)
  | start (job : RecurringJob)
  /-- Transaction `i` runs its next statement; `draw` is the random prefix if it needs one. -/
  | advance (i : ℕ) (draw : String)
  /-- Transaction `i` fails. -/
  | abort (i : ℕ)

/-! ### The statements -/

/-- An item that the transaction has claimed is billed. -/
def ContractItem.claim (ids : List Uuid) (i : ContractItem) : ContractItem :=
  if i.id ∈ ids then { i with billed := true } else i

@[simp] theorem ContractItem.claim_id (ids : List Uuid) (i : ContractItem) :
    (i.claim ids).id = i.id := by
  unfold claim
  split <;> rfl

def claimIds (book : ContractBook) (ids : List Uuid) : ContractBook :=
  { book with items := book.items.map (·.claim ids) (ContractItem.claim_id ids) }

/-- What a transaction has written when it commits. -/
def publish (db : BillingDb) (d : RecurringDraft) (claimed : List Uuid) : BillingDb :=
  let ls := d.items.map (recurringLine db.products)
  let db' := insertInvoice db
    (newInvoice d.number d.job.companyId (some d.job.contractId) none (ls.map NewLine.total).sum 0 0)
    ls (fun _ => rfl)
  let db'' := { db' with
    runs := db'.runs.insert fun id =>
      ⟨id, d.job.contractId, db.invoices.next, d.job.periodStart, d.job.periodEnd⟩
    time := { db'.time with book := claimIds db'.time.book claimed } }
  taxInvoice db'' db.invoices.next none (defaultTaxRate db.taxRates) 0

namespace Recurring

def prefixOf (s : Recurring) (companyId : Uuid) : Option String :=
  (s.prefixes.find? fun p => decide (p.1 = companyId)).map Prod.snd

/-- The number after `n`, in a column of 32 bits. -/
def takeNumber (s : Recurring) (job : RecurringJob) (items : List ContractItem)
    (source : NumberSource) (n : ℕ) : Option RecurringTx :=
  if n + 1 < 2 ^ 31 then
    some (.inserting ⟨job, items, source, n + 1, source.format s.tenantPrefix (n + 1)⟩)
  else none

/-- The period is claimed by a committed invoice. -/
def periodClaimed (s : Recurring) (job : RecurringJob) : Bool :=
  s.db.runs.rows.any fun r =>
    decide (r.contractId = job.contractId ∧ r.periodStart = job.periodStart)

/-- The item is there and not billed. -/
def unbilled (s : Recurring) (id : Uuid) : Bool :=
  (s.db.time.book.items.find id).any fun i => !i.billed

/-- The next statement of a transaction; `none` when it is dropped. -/
def next (s : Recurring) (draw : String) : RecurringTx → Option RecurringTx
  | .reading job =>
    let items := s.db.time.book.items.rows.filter (·.bills job.contractId)
    if items.isEmpty || items.any (·.quantity.isNone) then none else some (.numbering job items)
  | .numbering job items =>
    match s.scheme with
    | .tenantSequence => some (.counting job items .tenant)
    | .companyPrefix => some (.prefixing job items)
  | .prefixing job items =>
    if job.companyId ∈ s.db.time.dir.companies then
      match s.prefixOf job.companyId with
      | some text => some (.counting job items (.company job.companyId text false))
      | none =>
        -- A draw that another company has is a unique violation, and ends the transaction.
        if s.prefixes.any fun p => decide (p.2 = draw) then none
        else some (.counting job items (.company job.companyId draw true))
    else none
  | .counting job items source =>
    match s.counters source.key with
    | some n => s.takeNumber job items source n
    | none => some (.seeding job items source)
  | .seeding job items source =>
    match s.counters source.key with
    | none => some (.inserting ⟨job, items, source, 1, source.format none 1⟩)
    | some _ =>
      -- The tenant's counter is inserted outright, the company's `ON CONFLICT DO NOTHING`.
      match source with
      | .tenant => none
      | .company _ _ _ => some (.recounting job items source)
  | .recounting job items source =>
    match s.counters source.key with
    | some n => s.takeNumber job items source n
    | none => none
  | .inserting d => some (.claiming d)
  | .claiming d =>
    if s.periodClaimed d.job then none
    else some (.claimingItems d (d.items.filter fun i => decide (i.billingRule = .once)) [])
  | .claimingItems d [] claimed => some (.committing d claimed)
  | .claimingItems d (i :: todo) claimed =>
    if s.unbilled i.id && decide (i.id ∉ claimed) then
      some (.claimingItems d todo (claimed ++ [i.id]))
    else none
  | .committing _ _ => none

/-- The lock that the next statement needs. -/
def wants (s : Recurring) : RecurringTx → Option LockKey
  | .prefixing job _ =>
    if (s.prefixOf job.companyId).isNone then some (.companyPrefix job.companyId) else none
  | .counting _ _ source =>
    -- An `UPDATE` does not see a row that is not committed.
    if (s.counters source.key).isSome then some (.counter source.key) else none
  | .seeding _ _ source | .recounting _ _ source => some (.counter source.key)
  | .claiming d => some d.periodKey
  | .claimingItems _ (i :: _) _ => some (.item i.id)
  | .claimingItems _ [] _ | .reading _ | .numbering _ _ | .inserting _ | .committing _ _ => none

/-- Another transaction has the lock that transaction `i` needs. -/
def blocked (s : Recurring) (i : ℕ) (tx : RecurringTx) : Bool :=
  match s.wants tx with
  | none => false
  | some key => (s.txs.eraseIdx i).any fun other => decide (key ∈ other.holds)

def goto (s : Recurring) (i : ℕ) (tx : RecurringTx) : Recurring := { s with txs := s.txs.set i tx }

def finish (s : Recurring) (i : ℕ) : Recurring := { s with txs := s.txs.eraseIdx i }

/-- What a commit adds to the log. -/
def generated (s : Recurring) (d : RecurringDraft) : Generated where
  invoiceId := s.db.invoices.next
  contractId := d.job.contractId
  periodStart := d.job.periodStart
  onceItems := d.onceItems
  counter := d.source.key
  n := d.n

/-- The prefixes after a commit. -/
def storePrefix (prefixes : List (Uuid × String)) : NumberSource → List (Uuid × String)
  | .company companyId text true => prefixes ++ [(companyId, text)]
  | .company _ _ false | .tenant => prefixes

def commit (s : Recurring) (i : ℕ) (d : RecurringDraft) (claimed : List Uuid) : Recurring :=
  { s with
    db := publish s.db d claimed
    prefixes := storePrefix s.prefixes d.source
    counters := Function.update s.counters d.source.key (some d.n)
    txs := s.txs.eraseIdx i
    log := s.log ++ [s.generated d] }

def step (s : Recurring) : RecurringEvent → Option Recurring
  | .setScheme scheme => some { s with scheme := scheme }
  | .start job => some { s with txs := s.txs ++ [.reading job] }
  | .advance i draw =>
    match s.txs[i]? with
    | none => none
    | some tx =>
      if s.blocked i tx then none
      else match tx with
        | .committing d claimed => some (s.commit i d claimed)
        | tx =>
          match s.next draw tx with
          | none => some (s.finish i)
          | some tx' => some (s.goto i tx')
  | .abort i => if i < s.txs.length then some (s.finish i) else none

/-- No transaction has started. -/
def init (db : BillingDb) (scheme : NumberScheme) (prefixes : List (Uuid × String))
    (tenantPrefix : Option String) (counters : CounterKey → Option ℕ) : Recurring where
  db := db
  scheme := scheme
  prefixes := prefixes
  tenantPrefix := tenantPrefix
  counters := counters
  txs := []
  log := []

/-! ### What a step can do -/

/-- Everything a step can do, and to which transaction. -/
inductive Change (s : Recurring) : RecurringEvent → Recurring → Prop where
  | scheme (scheme : NumberScheme) : Change s (.setScheme scheme) { s with scheme := scheme }
  | start (job : RecurringJob) : Change s (.start job) { s with txs := s.txs ++ [.reading job] }
  | ended (e : RecurringEvent) (i : ℕ) : Change s e (s.finish i)
  | goto {i : ℕ} {draw : String} {tx tx' : RecurringTx} (ht : s.txs[i]? = some tx)
      (hn : s.next draw tx = some tx')
      (hb : ∀ key, s.wants tx = some key → ∀ other ∈ s.txs.eraseIdx i, key ∉ other.holds) :
      Change s (.advance i draw) (s.goto i tx')
  | commit {i : ℕ} {draw : String} {d : RecurringDraft} {claimed : List Uuid}
      (ht : s.txs[i]? = some (.committing d claimed)) :
      Change s (.advance i draw) (s.commit i d claimed)

theorem step_change {s s' : Recurring} {e : RecurringEvent} (h : step s e = some s') :
    Change s e s' := by
  cases e with
  | setScheme scheme =>
      cases h
      exact .scheme scheme
  | start job =>
      cases h
      exact .start job
  | advance i draw =>
      simp only [step] at h
      split at h
      · exact absurd h (by simp)
      · next tx ht =>
        split at h
        · exact absurd h (by simp)
        · next hb =>
          have hfree : ∀ key, s.wants tx = some key →
              ∀ other ∈ s.txs.eraseIdx i, key ∉ other.holds := by
            intro key hk
            simpa [blocked, hk] using hb
          split at h
          · cases h
            exact .commit ht
          · split at h
            · cases h
              exact .ended _ i
            · next tx' hn =>
              cases h
              exact .goto ht hn hfree
  | abort i =>
      simp only [step] at h
      split at h
      · cases h
        exact .ended _ i
      · exact absurd h (by simp)

/-! ### Locks -/

theorem counter_not_mem_source (source : NumberSource) (key : CounterKey) :
    LockKey.counter key ∉ source.holds := by
  unfold NumberSource.holds
  split <;> simp

theorem periodKey_not_mem (d : RecurringDraft) : d.periodKey ∉ d.holds := by
  unfold RecurringDraft.holds RecurringDraft.periodKey NumberSource.holds
  split <;> simp

theorem item_not_mem (d : RecurringDraft) (id : Uuid) :
    LockKey.item id ∉ d.periodKey :: d.holds := by
  unfold RecurringDraft.holds RecurringDraft.periodKey NumberSource.holds
  split <;> simp

/-- A transaction that took a number holds its counter. -/
theorem takeNumber_eq_some {s : Recurring} {job : RecurringJob} {items : List ContractItem}
    {source : NumberSource} {n : ℕ} {tx : RecurringTx}
    (h : s.takeNumber job items source n = some tx) :
    ∃ number, tx = .inserting ⟨job, items, source, n + 1, number⟩ := by
  unfold takeNumber at h
  split at h
  · cases h
    exact ⟨_, rfl⟩
  · exact absurd h (by simp)

/-- A statement keeps the locks of its transaction and takes at most the one it needs. -/
theorem next_holds {s : Recurring} {draw : String} {tx tx' : RecurringTx}
    (h : s.next draw tx = some tx') :
    tx'.holds = tx.holds ∨
      ∃ key, s.wants tx = some key ∧ key ∉ tx.holds ∧ tx'.holds.Perm (key :: tx.holds) := by
  cases tx with
  | reading job =>
      simp only [next] at h
      split at h
      · exact absurd h (by simp)
      · cases h
        exact .inl rfl
  | numbering job items =>
      simp only [next] at h
      split at h <;> (cases h; exact .inl rfl)
  | prefixing job items =>
      simp only [next] at h
      split at h
      · split at h
        · cases h
          exact .inl rfl
        · next hnone =>
          split at h
          · exact absurd h (by simp)
          · cases h
            refine .inr ⟨.companyPrefix job.companyId, ?_, by simp [RecurringTx.holds], ?_⟩
            · simp [wants, hnone]
            · simp [RecurringTx.holds, NumberSource.holds]
      · exact absurd h (by simp)
  | counting job items source =>
      simp only [next] at h
      split at h
      · next n hn =>
        obtain ⟨number, rfl⟩ := takeNumber_eq_some h
        refine .inr ⟨.counter source.key, by simp [wants, hn], counter_not_mem_source _ _, ?_⟩
        exact List.Perm.refl _
      · cases h
        exact .inl rfl
  | seeding job items source =>
      simp only [next] at h
      split at h
      · cases h
        exact .inr ⟨.counter source.key, rfl, counter_not_mem_source _ _, List.Perm.refl _⟩
      · split at h
        · exact absurd h (by simp)
        · cases h
          exact .inl rfl
  | recounting job items source =>
      simp only [next] at h
      split at h
      · obtain ⟨number, rfl⟩ := takeNumber_eq_some h
        exact .inr ⟨.counter source.key, rfl, counter_not_mem_source _ _, List.Perm.refl _⟩
      · exact absurd h (by simp)
  | inserting d =>
      cases h
      exact .inl rfl
  | claiming d =>
      simp only [next] at h
      split at h
      · exact absurd h (by simp)
      · cases h
        exact .inr ⟨d.periodKey, rfl, periodKey_not_mem d, List.Perm.refl _⟩
  | claimingItems d todo claimed =>
      cases todo with
      | nil =>
          cases h
          exact .inl rfl
      | cons i todo =>
          simp only [next] at h
          split at h
          · next hc =>
            cases h
            rw [Bool.and_eq_true, decide_eq_true_eq] at hc
            refine .inr ⟨.item i.id, rfl, ?_, ?_⟩
            · simp only [RecurringTx.holds, List.mem_append, not_or]
              exact ⟨by simpa using hc.2, item_not_mem d i.id⟩
            · simp only [RecurringTx.holds, List.map_append, List.map_cons, List.map_nil,
                List.append_assoc]
              exact List.perm_middle
          · exact absurd h (by simp)
  | committing d claimed => exact absurd h (by simp [next])

/-! ### What a transaction knows -/

/-- The number is the next one of its counter. -/
def NumberNext (counters : CounterKey → Option ℕ) (d : RecurringDraft) : Prop :=
  d.n = (counters d.source.key).getD 0 + 1

/-- The period is free and the claimed items are not billed. -/
def ClaimsFree (db : BillingDb) (d : RecurringDraft) (claimed : List Uuid) : Prop :=
  (∀ r ∈ db.runs, ¬ (r.contractId = d.job.contractId ∧ r.periodStart = d.job.periodStart)) ∧
    ∀ id ∈ claimed, ∃ i, db.time.book.items.find id = some i ∧ i.billed = false

/-- What a transaction knows of the committed rows, as long as it holds its locks. -/
def TxOk (db : BillingDb) (counters : CounterKey → Option ℕ) : RecurringTx → Prop
  | .inserting d | .claiming d => NumberNext counters d
  | .claimingItems d todo claimed =>
    NumberNext counters d ∧ ClaimsFree db d claimed ∧
      d.onceItems = claimed ++ todo.map ContractItem.id
  | .committing d claimed =>
    NumberNext counters d ∧ ClaimsFree db d claimed ∧ d.onceItems = claimed
  | .reading _ | .numbering _ _ | .prefixing _ _ | .counting _ _ _ | .seeding _ _ _
  | .recounting _ _ _ => True

theorem unbilled_iff {s : Recurring} {id : Uuid} :
    s.unbilled id = true ↔ ∃ i, s.db.time.book.items.find id = some i ∧ i.billed = false := by
  simp [unbilled, Option.any_eq_true]

theorem next_ok {s : Recurring} {draw : String} {tx tx' : RecurringTx}
    (hok : TxOk s.db s.counters tx) (h : s.next draw tx = some tx') :
    TxOk s.db s.counters tx' := by
  cases tx with
  | reading job =>
      simp only [next] at h
      split at h
      · exact absurd h (by simp)
      · cases h
        trivial
  | numbering job items =>
      simp only [next] at h
      split at h <;> (cases h; trivial)
  | prefixing job items =>
      simp only [next] at h
      split at h
      · split at h
        · cases h
          trivial
        · split at h
          · exact absurd h (by simp)
          · cases h
            trivial
      · exact absurd h (by simp)
  | counting job items source =>
      simp only [next] at h
      split at h
      · next n hn =>
        obtain ⟨number, rfl⟩ := takeNumber_eq_some h
        simp [TxOk, NumberNext, hn]
      · cases h
        trivial
  | seeding job items source =>
      simp only [next] at h
      split at h
      · next hn =>
        cases h
        simp [TxOk, NumberNext, hn]
      · split at h
        · exact absurd h (by simp)
        · cases h
          trivial
  | recounting job items source =>
      simp only [next] at h
      split at h
      · next n hn =>
        obtain ⟨number, rfl⟩ := takeNumber_eq_some h
        simp [TxOk, NumberNext, hn]
      · exact absurd h (by simp)
  | inserting d =>
      cases h
      exact hok
  | claiming d =>
      simp only [next] at h
      split at h
      · exact absurd h (by simp)
      · next hfree =>
        cases h
        refine ⟨hok, ⟨fun r hr hk => hfree ?_, by simp⟩, rfl⟩
        exact List.any_eq_true.mpr ⟨r, hr, by simpa using hk⟩
  | claimingItems d todo claimed =>
      obtain ⟨h1, h2, h3⟩ := hok
      cases todo with
      | nil =>
          cases h
          exact ⟨h1, h2, by simpa using h3⟩
      | cons i todo =>
          simp only [next] at h
          split at h
          · next hc =>
            cases h
            rw [Bool.and_eq_true, unbilled_iff] at hc
            refine ⟨h1, ⟨h2.1, ?_⟩, by simpa using h3⟩
            intro id hid
            rcases List.mem_append.mp hid with hid | hid
            · exact h2.2 id hid
            · rw [List.mem_singleton] at hid
              exact hid ▸ hc.1
          · exact absurd h (by simp)
  | committing d claimed => exact absurd h (by simp [next])

/-! ### What a commit writes -/

section Publish

variable (db : BillingDb) (d : RecurringDraft) (claimed : List Uuid)

theorem publish_runs : (publish db d claimed).runs = db.runs.insert fun id =>
    ⟨id, d.job.contractId, db.invoices.next, d.job.periodStart, d.job.periodEnd⟩ := rfl

theorem publish_invoices :
    (publish db d claimed).invoices.rows.map Invoice.id =
      db.invoices.rows.map Invoice.id ++ [db.invoices.next] := by
  rw [publish, taxInvoice, Table.update_keys]
  exact Table.insert_keys _ _ fun _ => rfl

theorem find_publish_items (id : Uuid) :
    (publish db d claimed).time.book.items.find id =
      (db.time.book.items.find id).map (·.claim claimed) := by
  show (db.time.book.items.map (·.claim claimed) (ContractItem.claim_id claimed)).find id = _
  exact Table.find_map id

/-- An item that was not claimed is as it was. -/
theorem find_publish_items_ne {id : Uuid} (h : id ∉ claimed) :
    (publish db d claimed).time.book.items.find id = db.time.book.items.find id := by
  rw [find_publish_items]
  cases hf : db.time.book.items.find id with
  | none => rfl
  | some i =>
      have hid : i.id = id := Table.key_of_find hf
      simp [ContractItem.claim, hid, h]

end Publish

variable {s s' : Recurring} {e : RecurringEvent}

/-- What another transaction knows outlives a commit: the locks it holds are not those of the
transaction that commits. -/
theorem TxOk.commit {db : BillingDb} {counters : CounterKey → Option ℕ} {tx : RecurringTx}
    {d : RecurringDraft} {claimed : List Uuid} (h : TxOk db counters tx)
    (hc : LockKey.counter d.source.key ∉ tx.holds) (hp : d.periodKey ∉ tx.holds)
    (hi : ∀ id ∈ claimed, LockKey.item id ∉ tx.holds) :
    TxOk (publish db d claimed) (Function.update counters d.source.key (some d.n)) tx := by
  have hnum : ∀ d' : RecurringDraft, LockKey.counter d'.source.key ∈ tx.holds →
      NumberNext counters d' →
      NumberNext (Function.update counters d.source.key (some d.n)) d' := by
    intro d' hm hn
    have hne : d'.source.key ≠ d.source.key := fun he => hc (he ▸ hm)
    rwa [NumberNext, Function.update_of_ne hne]
  have hfree : ∀ (d' : RecurringDraft) (claimed' : List Uuid), d'.periodKey ∈ tx.holds →
      (∀ id ∈ claimed', LockKey.item id ∈ tx.holds) → ClaimsFree db d' claimed' →
      ClaimsFree (publish db d claimed) d' claimed' := by
    rintro d' claimed' hm hm' ⟨h1, h2⟩
    refine ⟨?_, ?_⟩
    · intro r hr hk
      rw [publish_runs] at hr
      rcases (Table.mem_insert).mp hr with hr | rfl
      · exact h1 r hr hk
      · refine hp ?_
        have hkey : d.periodKey = d'.periodKey := by
          simp only [RecurringDraft.periodKey, LockKey.period.injEq]
          exact hk
        rwa [hkey]
    · intro id hid
      have hne : id ∉ claimed := fun hcl => hi id hcl (hm' id hid)
      rw [find_publish_items_ne db d claimed hne]
      exact h2 id hid
  cases tx with
  | reading | numbering | prefixing | counting | seeding | recounting => trivial
  | inserting d' => exact hnum d' (by simp [RecurringTx.holds, RecurringDraft.holds]) h
  | claiming d' => exact hnum d' (by simp [RecurringTx.holds, RecurringDraft.holds]) h
  | claimingItems d' todo claimed' =>
      obtain ⟨h1, h2, h3⟩ := h
      refine ⟨hnum d' (by simp [RecurringTx.holds, RecurringDraft.holds]) h1,
        hfree d' claimed' (by simp [RecurringTx.holds]) (fun id hid => ?_) h2, h3⟩
      exact List.mem_append_left _ (List.mem_map_of_mem hid)
  | committing d' claimed' =>
      obtain ⟨h1, h2, h3⟩ := h
      refine ⟨hnum d' (by simp [RecurringTx.holds, RecurringDraft.holds]) h1,
        hfree d' claimed' (by simp [RecurringTx.holds]) (fun id hid => ?_) h2, h3⟩
      exact List.mem_append_left _ (List.mem_map_of_mem hid)

end Recurring

/-! ### Once for each period, once for each item, and no gap -/

def ContractInvoiceRun.periodKey (r : ContractInvoiceRun) : Uuid × NaiveDate :=
  (r.contractId, r.periodStart)

def Generated.periodKey (g : Generated) : Uuid × NaiveDate := (g.contractId, g.periodStart)

namespace Recurring

variable {s s' : Recurring} {e : RecurringEvent}

/-- The invoices that took their number from a counter. -/
def numbered (s : Recurring) (k : CounterKey) : List Generated :=
  s.log.filter fun g => decide (g.counter = k)

/-- What holds from the first transaction on, when the counters stood at `counters`. -/
structure Consistent (counters : CounterKey → Option ℕ) (s : Recurring) : Prop where
  locks : (s.txs.flatMap RecurringTx.holds).Nodup
  ok : ∀ tx ∈ s.txs, TxOk s.db s.counters tx
  runs : (s.db.runs.rows.map ContractInvoiceRun.periodKey).Nodup
  claimed : ∀ g ∈ s.log, g.periodKey ∈ s.db.runs.rows.map ContractInvoiceRun.periodKey
  periods : (s.log.map Generated.periodKey).Nodup
  billed : ∀ id ∈ s.log.flatMap Generated.onceItems,
    ∃ i, s.db.time.book.items.find id = some i ∧ i.billed = true
  once : (s.log.flatMap Generated.onceItems).Nodup
  numbers : ∀ k, (s.numbered k).map Generated.n =
    List.range' ((counters k).getD 0 + 1) (s.numbered k).length
  last : ∀ k, (s.counters k).getD 0 = (counters k).getD 0 + (s.numbered k).length

namespace Consistent

variable {counters : CounterKey → Option ℕ}

/-- Only the transactions have changed. -/
theorem txs (h : Consistent counters s) (hdb : s'.db = s.db) (hcounters : s'.counters = s.counters)
    (hlog : s'.log = s.log) (hlocks : (s'.txs.flatMap RecurringTx.holds).Nodup)
    (hok : ∀ tx ∈ s'.txs, TxOk s.db s.counters tx) : Consistent counters s' where
  locks := hlocks
  ok := by rwa [hdb, hcounters]
  runs := by rw [hdb]; exact h.runs
  claimed := by rw [hdb, hlog]; exact h.claimed
  periods := by rw [hlog]; exact h.periods
  billed := by rw [hdb, hlog]; exact h.billed
  once := by rw [hlog]; exact h.once
  numbers := by
    unfold numbered
    rw [hlog]
    exact h.numbers
  last := by
    unfold numbered
    rw [hcounters, hlog]
    exact h.last

theorem goto (h : Consistent counters s) {i : ℕ} {draw : String} {tx tx' : RecurringTx}
    (ht : s.txs[i]? = some tx) (hn : s.next draw tx = some tx')
    (hb : ∀ key, s.wants tx = some key → ∀ other ∈ s.txs.eraseIdx i, key ∉ other.holds) :
    Consistent counters (s.goto i tx') := by
  refine h.txs rfl rfl rfl ?_ ?_
  · have hown := (List.nodup_append.mp ((holds_perm ht RecurringTx.holds).nodup_iff.mp h.locks)).1
    have hother : ∀ key ∈ tx.holds, ∀ other ∈ s.txs.eraseIdx i, key ∉ other.holds :=
      fun key hk other ho => not_mem_holds ht h.locks hk ho
    rcases next_holds hn with heq | ⟨key, hw, hnew, hp⟩
    · exact nodup_holds_set ht h.locks (heq ▸ hown) (heq ▸ hother)
    · refine nodup_holds_set ht h.locks (hp.nodup_iff.mpr (List.nodup_cons.mpr ⟨hnew, hown⟩)) ?_
      intro k hk
      rcases List.mem_cons.mp (hp.mem_iff.mp hk) with rfl | hk
      · exact hb k hw
      · exact hother k hk
  · intro x hx
    rcases (mem_calls_set ht).mp hx with rfl | hx
    · exact next_ok (h.ok tx (List.mem_of_getElem? ht)) hn
    · exact h.ok x (List.mem_of_mem_eraseIdx hx)

/-- What transaction `i` knows when it commits: its locks are its own, and so are the rows under
them. -/
theorem committing (h : Consistent counters s) {i : ℕ} {d : RecurringDraft} {claimed : List Uuid}
    (ht : s.txs[i]? = some (.committing d claimed)) :
    NumberNext s.counters d ∧ ClaimsFree s.db d claimed ∧ d.onceItems = claimed ∧
      claimed.Nodup := by
  obtain ⟨h1, h2, h3⟩ := h.ok _ (List.mem_of_getElem? ht)
  have hown := (List.nodup_append.mp ((holds_perm ht RecurringTx.holds).nodup_iff.mp h.locks)).1
  exact ⟨h1, h2, h3, List.Nodup.of_map _ (List.nodup_append.mp hown).1⟩

theorem commit (h : Consistent counters s) {i : ℕ} {d : RecurringDraft} {claimed : List Uuid}
    (ht : s.txs[i]? = some (.committing d claimed)) : Consistent counters (s.commit i d claimed) := by
  obtain ⟨hnum, ⟨hperiod, hitems⟩, hall, hnd⟩ := h.committing ht
  have hnew : (d.job.contractId, d.job.periodStart) ∉
      s.db.runs.rows.map ContractInvoiceRun.periodKey := by
    intro hm
    obtain ⟨r, hr, hk⟩ := List.mem_map.mp hm
    exact hperiod r hr (Prod.mk.injEq _ _ _ _ ▸ hk)
  have hruns : (publish s.db d claimed).runs.rows.map ContractInvoiceRun.periodKey =
      s.db.runs.rows.map ContractInvoiceRun.periodKey ++ [(d.job.contractId, d.job.periodStart)] := by
    rw [publish_runs]
    simp [Table.insert, ContractInvoiceRun.periodKey]
  refine ⟨nodup_holds_erase h.locks i, ?_, ?_, ?_, ?_, ?_, ?_, ?_, ?_⟩
  · intro tx htx
    refine (h.ok tx (List.mem_of_mem_eraseIdx htx)).commit ?_ ?_ ?_
    · exact not_mem_holds ht h.locks (by simp [RecurringTx.holds, RecurringDraft.holds]) htx
    · exact not_mem_holds ht h.locks (by simp [RecurringTx.holds]) htx
    · intro id hid
      exact not_mem_holds ht h.locks (List.mem_append_left _ (List.mem_map_of_mem hid)) htx
  · show ((publish s.db d claimed).runs.rows.map ContractInvoiceRun.periodKey).Nodup
    rw [hruns, List.nodup_append]
    refine ⟨h.runs, by simp, ?_⟩
    rintro a ha b hb rfl
    exact hnew (List.mem_singleton.mp hb ▸ ha)
  · intro g hg
    show g.periodKey ∈ (publish s.db d claimed).runs.rows.map ContractInvoiceRun.periodKey
    rw [hruns, List.mem_append]
    rcases List.mem_append.mp hg with hg | hg
    · exact .inl (h.claimed g hg)
    · rw [List.mem_singleton] at hg
      exact .inr (by simp [hg, generated, Generated.periodKey])
  · show ((s.log ++ [s.generated d]).map Generated.periodKey).Nodup
    rw [List.map_append, List.nodup_append]
    refine ⟨h.periods, by simp, ?_⟩
    rintro a ha b hb rfl
    obtain ⟨g, hg, rfl⟩ := List.mem_map.mp ha
    simp only [List.map_cons, List.map_nil, List.mem_singleton, generated] at hb
    have hc := h.claimed g hg
    rw [hb] at hc
    exact hnew hc
  · intro id hid
    show ∃ x, (publish s.db d claimed).time.book.items.find id = some x ∧ x.billed = true
    rw [find_publish_items]
    change id ∈ (s.log ++ [s.generated d]).flatMap Generated.onceItems at hid
    rw [List.flatMap_append, List.mem_append] at hid
    rcases hid with hid | hid
    · obtain ⟨x, hx, hb⟩ := h.billed id hid
      refine ⟨_, by rw [hx, Option.map_some], ?_⟩
      unfold ContractItem.claim
      split <;> simp [hb]
    · have hcl : id ∈ claimed := by
        rw [← hall]
        simpa [generated] using hid
      obtain ⟨x, hx, -⟩ := hitems id hcl
      have hxid : x.id = id := Table.key_of_find hx
      exact ⟨_, by rw [hx, Option.map_some], by rw [ContractItem.claim, if_pos (hxid ▸ hcl)]⟩
  · show ((s.log ++ [s.generated d]).flatMap Generated.onceItems).Nodup
    rw [List.flatMap_append, List.nodup_append]
    have hone : [s.generated d].flatMap Generated.onceItems = claimed := by simp [generated, hall]
    rw [hone]
    refine ⟨h.once, hnd, ?_⟩
    rintro id ha _ hb rfl
    obtain ⟨x, hx, hbilled⟩ := h.billed id ha
    obtain ⟨y, hy, hun⟩ := hitems id hb
    rw [hx, Option.some.injEq] at hy
    rw [hy, hun] at hbilled
    exact absurd hbilled (by simp)
  · intro k
    by_cases hk : d.source.key = k
    · have hnb : (s.commit i d claimed).numbered k = s.numbered k ++ [s.generated d] := by
        simp [numbered, Recurring.commit, generated, hk]
      have hlast := h.last k
      rw [NumberNext, hk] at hnum
      rw [hnb, List.map_append, h.numbers k, List.length_append, List.length_singleton,
        List.range'_concat]
      simp only [List.map_cons, List.map_nil, generated]
      congr 2
      omega
    · have hnb : (s.commit i d claimed).numbered k = s.numbered k := by
        simp [numbered, Recurring.commit, generated, hk]
      rw [hnb]
      exact h.numbers k
  · intro k
    show (Function.update s.counters d.source.key (some d.n) k).getD 0 = _
    have hlast := h.last k
    by_cases hk : d.source.key = k
    · have hnb : (s.commit i d claimed).numbered k = s.numbered k ++ [s.generated d] := by
        simp [numbered, Recurring.commit, generated, hk]
      rw [NumberNext, hk] at hnum
      rw [hnb, hk, Function.update_self, List.length_append, List.length_singleton]
      simp only [Option.getD_some]
      omega
    · have hnb : (s.commit i d claimed).numbered k = s.numbered k := by
        simp [numbered, Recurring.commit, generated, hk]
      rw [hnb, Function.update_of_ne (Ne.symm hk)]
      exact hlast

theorem step (h : Consistent counters s) (hs : Recurring.step s e = some s') :
    Consistent counters s' := by
  cases step_change hs with
  | scheme scheme => exact h.txs rfl rfl rfl h.locks h.ok
  | start job =>
      refine h.txs rfl rfl rfl ?_ ?_
      · simpa [RecurringTx.holds] using h.locks
      · intro tx htx
        rcases List.mem_append.mp htx with htx | htx
        · exact h.ok tx htx
        · rw [List.mem_singleton] at htx
          subst htx
          trivial
  | ended =>
      exact h.txs rfl rfl rfl (nodup_holds_erase h.locks _) fun tx htx =>
        h.ok tx (List.mem_of_mem_eraseIdx htx)
  | goto ht hn hb => exact h.goto ht hn hb
  | commit ht => exact h.commit ht

theorem init {db : BillingDb} (scheme : NumberScheme) (prefixes : List (Uuid × String))
    (tenantPrefix : Option String) (counters : CounterKey → Option ℕ)
    (h : (db.runs.rows.map ContractInvoiceRun.periodKey).Nodup) :
    Consistent counters (init db scheme prefixes tenantPrefix counters) where
  locks := List.nodup_nil
  ok := by simp [Recurring.init]
  runs := h
  claimed := by simp [Recurring.init]
  periods := List.nodup_nil
  billed := by simp [Recurring.init]
  once := List.nodup_nil
  numbers := fun k => rfl
  last := fun k => rfl

end Consistent

/-- Only a commit writes what others see. -/
theorem step_committed (h : step s e = some s') :
    (s'.db = s.db ∧ s'.counters = s.counters ∧ s'.prefixes = s.prefixes ∧ s'.log = s.log) ∨
      ∃ i draw d claimed, e = .advance i draw ∧ s.txs[i]? = some (.committing d claimed) ∧
        s' = s.commit i d claimed := by
  cases step_change h with
  | scheme | start | ended | goto => exact .inl ⟨rfl, rfl, rfl, rfl⟩
  | @commit i draw d claimed ht => exact .inr ⟨i, draw, d, claimed, rfl, ht, rfl⟩

/-- The invoices that were not there in the beginning are those of the log. -/
theorem invoices_logged {db : BillingDb} {scheme : NumberScheme} {prefixes : List (Uuid × String)}
    {tenantPrefix : Option String} {counters : CounterKey → Option ℕ} {es : List RecurringEvent}
    (hr : run step (init db scheme prefixes tenantPrefix counters) es = some s) :
    s.db.invoices.rows.map Invoice.id =
      db.invoices.rows.map Invoice.id ++ s.log.map Generated.invoiceId := by
  refine run_invariant (fun s => s.db.invoices.rows.map Invoice.id =
    db.invoices.rows.map Invoice.id ++ s.log.map Generated.invoiceId) ?_ (by simp [init]) hr
  intro s e s' hs h
  rcases step_committed h with ⟨hdb, -, -, hlog⟩ | ⟨i, draw, d, claimed, -, -, rfl⟩
  · rw [hdb, hlog]
    exact hs
  · show (publish s.db d claimed).invoices.rows.map Invoice.id = _
    rw [publish_invoices, hs]
    simp [commit, generated]

/-- Whatever transactions there are, and wherever they fail: a period is billed once, a one-time item
is billed once, the numbers of a counter have no gap, and a transaction that does not commit leaves
everything as it was. -/
theorem recurring_once {db : BillingDb} {scheme : NumberScheme} {prefixes : List (Uuid × String)}
    {tenantPrefix : Option String} {counters : CounterKey → Option ℕ} {es : List RecurringEvent}
    (hdb : (db.runs.rows.map ContractInvoiceRun.periodKey).Nodup)
    (hr : run step (init db scheme prefixes tenantPrefix counters) es = some s) :
    s.db.invoices.rows.map Invoice.id =
        db.invoices.rows.map Invoice.id ++ s.log.map Generated.invoiceId ∧
      (s.db.runs.rows.map ContractInvoiceRun.periodKey).Nodup ∧
      (s.log.map Generated.periodKey).Nodup ∧
      (s.log.flatMap Generated.onceItems).Nodup ∧
      (∀ k, (s.numbered k).map Generated.n =
        List.range' ((counters k).getD 0 + 1) (s.numbered k).length) ∧
      ∀ e s', step s e = some s' →
        (s'.db = s.db ∧ s'.counters = s.counters ∧ s'.prefixes = s.prefixes ∧ s'.log = s.log) ∨
          ∃ i draw d claimed, e = .advance i draw ∧ s.txs[i]? = some (.committing d claimed) ∧
            s' = s.commit i d claimed := by
  have h : Consistent counters s := run_invariant (Consistent counters)
    (fun _ _ _ h hs => h.step hs) (.init scheme prefixes tenantPrefix counters hdb) hr
  exact ⟨invoices_logged hr, h.runs, h.periods, h.once, h.numbers, fun _ _ hs => step_committed hs⟩

/-! ### One transaction alone -/

/-- The items a transaction claims one by one are those that a whole transaction claims. -/
theorem claimIds_eq {book : ContractBook} {d : RecurringDraft}
    (hd : d.items = book.items.rows.filter (·.bills d.job.contractId)) :
    claimIds book d.onceItems = claimItems book d.job.contractId := by
  unfold claimIds claimItems
  congr 1
  refine Table.ext (List.map_congr_left ?_) rfl
  intro i hi
  have hiff : i.id ∈ d.onceItems ↔
      (i.bills d.job.contractId && decide (i.billingRule = .once)) = true := by
    rw [RecurringDraft.onceItems, hd, List.filter_filter, List.mem_map]
    constructor
    · rintro ⟨j, hj, hid⟩
      obtain ⟨hj1, hj2⟩ := List.mem_filter.mp hj
      have hji : j = i := Table.eq_of_key_eq hj1 hi hid
      rw [hji] at hj2
      rwa [Bool.and_comm]
    · intro h
      exact ⟨i, List.mem_filter.mpr ⟨hi, by rwa [Bool.and_comm]⟩, rfl⟩
  simp only [ContractItem.claim, hiff]

/-- What a transaction commits is what the whole of it writes, if nothing has come in between. -/
theorem generateOneRecurringInvoice_eq_publish {db : BillingDb} {d : RecurringDraft}
    (hd : d.items = db.time.book.items.rows.filter (·.bills d.job.contractId))
    (hne : d.items.isEmpty = false) (hq : d.items.any (·.quantity.isNone) = false)
    (hfree : db.runs.rows.any (fun r => decide (r.contractId = d.job.contractId ∧
      r.periodStart = d.job.periodStart)) = false) :
    generateOneRecurringInvoice db d.job.contractId d.job.companyId d.job.periodStart
      d.job.periodEnd d.number (.ok ()) = .ok (publish db d d.onceItems) := by
  unfold generateOneRecurringInvoice publish
  simp only [← hd, hne, hq, hfree, Bool.false_eq_true, if_false, claimIds_eq, insertInvoice]
  rfl

/-- A transaction that is alone is not held up. -/
theorem step_alone {draw : String} {tx tx' : RecurringTx} (hs : s.txs = [tx])
    (hn : s.next draw tx = some tx') :
    step s (.advance 0 draw) = some { s with txs := [tx'] } := by
  have hb : s.blocked 0 tx = false := by
    unfold blocked
    split <;> simp [hs]
  cases tx with
  | committing d claimed => exact absurd hn (by simp [next])
  | reading | numbering | prefixing | counting | seeding | recounting | inserting | claiming
  | claimingItems => simp [step, hs, hb, hn, goto]

/-- A transaction that is alone claims its items one after the other. -/
theorem run_claims {d : RecurringDraft} (draw : String) {todo : List ContractItem}
    {claimed : List Uuid} (hs : s.txs = [.claimingItems d todo claimed])
    (hun : ∀ i ∈ todo, s.unbilled i.id = true)
    (hnd : (claimed ++ todo.map ContractItem.id).Nodup) :
    run step s (List.replicate todo.length (.advance 0 draw)) =
      some { s with txs := [.claimingItems d [] (claimed ++ todo.map ContractItem.id)] } := by
  induction todo generalizing s claimed with
  | nil =>
      simp only [List.length_nil, List.replicate_zero, run_nil, List.map_nil, List.append_nil, ← hs]
  | cons i todo ih =>
      have hnew : i.id ∉ claimed := by
        intro hm
        exact (List.nodup_append.mp hnd).2.2 _ hm _ (by simp) rfl
      have h1 : step s (.advance 0 draw) =
          some { s with txs := [.claimingItems d todo (claimed ++ [i.id])] } :=
        step_alone hs (by simp [next, hun i List.mem_cons_self, hnew])
      have hnd' : ((claimed ++ [i.id]) ++ todo.map ContractItem.id).Nodup := by simpa using hnd
      have h2 := ih (s := { s with txs := [.claimingItems d todo (claimed ++ [i.id])] }) rfl
        (fun j hj => hun j (List.mem_cons_of_mem _ hj)) hnd'
      rw [List.length_cons, List.replicate_succ, run, h1, Option.bind_some, h2]
      simp

/-- A transaction that is alone, under the tenant's sequence, does what
`generateOneRecurringInvoice` does. -/
theorem run_recurring {job : RecurringJob} {n : ℕ} {d : RecurringDraft}
    (hs : s.txs = []) (hscheme : s.scheme = .tenantSequence) (hn : s.counters .tenant = some n)
    (hlt : n + 1 < 2 ^ 31)
    (hd : d = ⟨job, s.db.time.book.items.rows.filter (·.bills job.contractId), .tenant, n + 1,
      NumberSource.format s.tenantPrefix (n + 1) .tenant⟩)
    (hne : d.items.isEmpty = false) (hq : d.items.any (·.quantity.isNone) = false)
    (hfree : s.periodClaimed job = false) :
    ∃ es s', run step s (.start job :: es) = some s' ∧
      generateOneRecurringInvoice s.db job.contractId job.companyId job.periodStart job.periodEnd
        d.number (.ok ()) = .ok s'.db := by
  have hitems : d.items = s.db.time.book.items.rows.filter (·.bills job.contractId) := by rw [hd]
  have hjob : d.job = job := by rw [hd]
  let todo := d.items.filter fun i => decide (i.billingRule = .once)
  -- Up to the claim of the period.
  have h1 : run step s (.start job :: List.replicate 5 (.advance 0 "")) =
      some { s with txs := [.claimingItems d todo []] } := by
    have h0 : step s (.start job) = some { s with txs := [.reading job] } := by simp [step, hs]
    have hread : step { s with txs := [.reading job] } (.advance 0 "") =
        some { s with txs := [.numbering job d.items] } :=
      step_alone rfl (by simp only [next, ← hitems, hne, hq]; rfl)
    have hnumber : step { s with txs := [.numbering job d.items] } (.advance 0 "") =
        some { s with txs := [.counting job d.items .tenant] } :=
      step_alone rfl (by simp only [next, hscheme])
    have hcount : step { s with txs := [.counting job d.items .tenant] } (.advance 0 "") =
        some { s with txs := [.inserting d] } :=
      step_alone rfl
        (by simp only [next, NumberSource.key, hn, takeNumber, if_pos hlt, hitems, ← hd])
    have hinsert : step { s with txs := [.inserting d] } (.advance 0 "") =
        some { s with txs := [.claiming d] } := step_alone rfl rfl
    have hclaim : step { s with txs := [.claiming d] } (.advance 0 "") =
        some { s with txs := [.claimingItems d todo []] } :=
      step_alone rfl (if_neg (by rw [hjob, Bool.not_eq_true]; exact hfree))
    simp only [List.replicate, run, h0, hread, hnumber, hcount, hinsert, hclaim, Option.bind_some]
  have hun : ∀ i ∈ todo, ({ s with txs := [.claimingItems d todo []] } : Recurring).unbilled i.id =
      true := by
    intro i hi
    obtain ⟨hi1, hi2⟩ := List.mem_filter.mp hi
    rw [hitems] at hi1
    obtain ⟨hi3, hi4⟩ := List.mem_filter.mp hi1
    refine unbilled_iff.mpr ⟨i, Table.find_key hi3, ?_⟩
    rw [decide_eq_true_eq] at hi2
    have hi5 : i.contractId = job.contractId ∧ i.billed = false := by
      simpa [ContractItem.bills, hi2] using hi4
    exact hi5.2
  have hnd : (todo.map ContractItem.id).Nodup := by
    refine s.db.time.book.items.nodup.sublist (List.Sublist.map _ ?_)
    refine List.filter_sublist.trans ?_
    rw [hitems]
    exact List.filter_sublist
  have h2 := run_claims (s := { s with txs := [.claimingItems d todo []] }) "" rfl hun
    (by simpa using hnd)
  refine ⟨List.replicate 5 (.advance 0 "") ++ (List.replicate todo.length (.advance 0 "") ++
    List.replicate 2 (.advance 0 "")), { s with txs := [.committing d d.onceItems] }.commit 0 d
      d.onceItems, ?_, ?_⟩
  · rw [← List.cons_append, run_append, h1, Option.bind_some, run_append, h2, Option.bind_some]
    rfl
  · rw [← hjob]
    exact generateOneRecurringInvoice_eq_publish (hjob ▸ hitems) hne hq (by rw [hjob]; exact hfree)

/-! ### Two runs over one contract -/

/-- A contract with an onboarding fee. -/
def onboardingDb : BillingDb :=
  (Billing.init (sampleTimeDb
    { contracts := ∅
      items := (∅ : Table ContractItem.id).insert fun i =>
        { id := i
          contractId := 0
          name := "Onboarding"
          itemType := .oneTime
          quantity := some ⟨100⟩
          unitPrice := ⟨50000⟩
          totalPrice := ⟨50000⟩
          includedHours := none
          overageRate := none
          rolloverEnabled := none
          maxRolloverHours := none
          sortOrder := 0
          billingRule := .once
          billed := false } }) ∅ [] []).db

def januaryJob : RecurringJob := ⟨0, 7, sampleDay 1 1, sampleDay 1 31⟩

/-- Both read the item before either has taken a number; the second gets its number when the first
has committed, and finds the period claimed. -/
def twoRuns : List RecurringEvent :=
  [.start januaryJob, .start januaryJob, .advance 0 "", .advance 1 "", .advance 0 "",
    .advance 1 "", .advance 0 "", .advance 0 "", .advance 0 "", .advance 0 "", .advance 0 "",
    .advance 0 "", .advance 0 "", .advance 0 "", .advance 0 ""]

theorem recurring_once_twoRuns :
    ∃ s, run step (init onboardingDb .tenantSequence [] none fun _ => some 6) twoRuns = some s ∧
      s.txs.length = 0 ∧ (s.log.map fun g => (g.n, g.onceItems)) = [(7, [0])] ∧
      (s.log.map Generated.periodKey).Nodup := by
  have h : (run step (init onboardingDb .tenantSequence [] none fun _ => some 6) twoRuns).any
      (fun s => decide (s.txs.length = 0 ∧
        (s.log.map fun g => (g.n, g.onceItems)) = [(7, [0])])) = true := by
    decide +kernel
  obtain ⟨s, hs, hp⟩ := exists_run_of_any h
  obtain ⟨h1, h2⟩ := of_decide_eq_true hp
  exact ⟨s, hs, h1, h2, (recurring_once (by decide +kernel) hs).2.2.1⟩

end Recurring

end Mokosh
