import Mokosh.Billing.Invoice
import Mokosh.Contracts.Ledger
import Mokosh.Lib.Transition
import Mathlib.Data.List.Sort

/-! # Reminders of overdue invoices

`send_due_reminders` of `billing/service.rs`, run by any number of workers at any time of any day.
A run claims first and sends then:

* One transaction (`claim_due_reminders`) reads the settings and the overdue invoices, and inserts
  a row into `invoice_reminders` for each invoice that is due a reminder.  The row is unique for
  the invoice and the offset, and `ON CONFLICT DO NOTHING` passes over one that is already there.
  An insert waits while another run's transaction holds an uncommitted row of the same key
  (`Reminders.blocked`).
* With no transaction open, the claimed reminders are handed to the relay one by one.  A reminder
  that the relay refuses is given up again by a `DELETE` of the claim's own row, in a transaction of
  its own; one that it takes is delivered.
* A run may stop anywhere (`ReminderEvent.abort`): an open transaction is undone, and claims that
  were committed stay.  Everything else in the database may change at any time
  (`ReminderEvent.change`).

**`reminded_at_most_once`**: no two deliveries are of one invoice and one offset, and a release
deletes the row of its own claim and no other. -/

namespace Mokosh

/-! ### The settings -/

/-- A JSON value, as far as a setting is read from one. -/
inductive SettingValue where
  | bool (b : Bool)
  | number (n : ℤ)
  | array (l : List SettingValue)
  | other

namespace SettingValue

def asBool : SettingValue → Option Bool
  | bool b => some b
  | number _ | array _ | other => none

def asI64 : SettingValue → Option ℤ
  | number n => if -2 ^ 63 ≤ n ∧ n < 2 ^ 63 then some n else none
  | bool _ | array _ | other => none

def asU64 : SettingValue → Option ℕ
  | number n => if 0 ≤ n ∧ n < 2 ^ 64 then some n.toNat else none
  | bool _ | array _ | other => none

def asArray : SettingValue → Option (List SettingValue)
  | array l => some l
  | bool _ | number _ | other => none

end SettingValue

structure InvoiceReminderSettings where
  enabled : Bool
  /-- Days past due a reminder goes out on. -/
  schedule : List ℤ
  /-- The tenant's local hour the sweep sends at. -/
  sendHour : ℕ

/-- One row of the settings; a key that is not known, and an hour that is none, are passed over. -/
def InvoiceReminderSettings.set (settings : InvoiceReminderSettings) :
    String × SettingValue → InvoiceReminderSettings
  | ("enabled", value) => { settings with enabled := value.asBool.getD false }
  | ("schedule", value) =>
    { settings with schedule := (value.asArray.map fun days => days.filterMap (·.asI64)).getD [] }
  | ("send_hour", value) =>
    match value.asU64.filter fun h => decide (h ≤ 23) with
    | some hour => { settings with sendHour := hour }
    | none => settings
  | _ => settings

/-- `read_invoice_reminder_settings`: unset is off. -/
def readInvoiceReminderSettings (rows : List (String × SettingValue)) : InvoiceReminderSettings :=
  rows.foldl InvoiceReminderSettings.set { enabled := false, schedule := [], sendHour := 8 }

/-! ### What is due a reminder -/

/-- The columns of an invoice that a reminder reads. -/
structure ReminderCandidate where
  id : Uuid
  invoiceNumber : String
  companyId : Uuid
  billingContactId : Option Uuid
  status : InvoiceStatus
  dueDate : NaiveDate
  balanceDue : Numeric 2
  currency : Option String
  emailedTo : Option String
  externalProvider : Option String

structure BillingCompany where
  id : Uuid
  name : String
  defaultBillingContactId : Option Uuid

structure BillingContact where
  id : Uuid
  email : Option String
  firstName : String
  lastName : String

/-- What a reminder run reads. -/
structure ReminderTenant where
  settings : List (String × SettingValue)
  invoices : List ReminderCandidate
  companies : List BillingCompany
  contacts : List BillingContact

namespace ReminderTenant

/-- The candidates of a day: overdue, with something left to pay, and ours to chase. -/
def candidates (t : ReminderTenant) (today : NaiveDate) : List ReminderCandidate :=
  (t.invoices.filter fun i =>
    (decide (i.status = .sent) || decide (i.status = .partiallyPaid)) &&
      decide (0 < i.balanceDue) && decide (i.dueDate < today) && i.externalProvider.isNone)
    |>.insertionSort fun i j =>
      i.dueDate < j.dueDate ∨ (i.dueDate = j.dueDate ∧ i.invoiceNumber ≤ j.invoiceNumber)

/-- `BillingService::resolve_invoice_recipient`: the contact and its address, or why there is
none. -/
def resolveInvoiceRecipient (t : ReminderTenant) (companyId : Uuid)
    (invoiceContact : Option Uuid) : Except String (Uuid × String) :=
  match t.companies.find? fun c => decide (c.id = companyId) with
  | none => .error "The invoice's company no longer exists, so it has no recipient."
  | some company =>
    match invoiceContact.or company.defaultBillingContactId with
    | none => .error (company.name ++ " has no billing contact, so this invoice cannot be sent. " ++
        "Set a billing contact on the invoice or on the company, or choose postal " ++
        "mail or other delivery.")
    | some contactId =>
      match t.contacts.find? fun c => decide (c.id = contactId) with
      | none => .error (company.name ++ "'s billing contact no longer exists, so this invoice " ++
          "cannot be sent. Set a billing contact on the invoice or on the company.")
      | some contact =>
        match contact.email.filter fun email => decide (trim email ≠ "") with
        | some email => .ok (contactId, trim email)
        | none => .error (company.name ++ "'s billing contact " ++ contact.firstName ++ " " ++
            contact.lastName ++ " has no email address, so this invoice cannot be sent. " ++
            "Add an address to the contact, choose another billing contact, or choose postal " ++
            "mail or other delivery.")

/-- Whom a reminder goes to: who the invoice was emailed to, else the billing contact. -/
def recipient (t : ReminderTenant) (i : ReminderCandidate) : Option String :=
  match i.emailedTo.filter fun address => decide (trim address ≠ "") with
  | some address => some address
  | none =>
    match t.resolveInvoiceRecipient i.companyId i.billingContactId with
    | .ok (_, email) => some email
    | .error _ => none

end ReminderTenant

/-! ### Claims -/

/-- A row of `invoice_reminders`. -/
structure Reminder where
  id : Uuid
  invoiceId : Uuid
  offsetDays : ℤ
  sentTo : String
deriving DecidableEq, Repr

/-- What is unique in `invoice_reminders`. -/
def Reminder.key (r : Reminder) : Uuid × ℤ := (r.invoiceId, r.offsetDays)

/-- A claim whose row is inserted and not committed. -/
structure ReminderClaim where
  invoice : ReminderCandidate
  days : ℤ
  recipient : String

def ReminderClaim.key (c : ReminderClaim) : Uuid × ℤ := (c.invoice.id, c.days)

def ReminderClaim.row (c : ReminderClaim) (id : Uuid) : Reminder :=
  { id := id
    invoiceId := c.invoice.id
    offsetDays := c.days
    sentTo := c.recipient }

/-- A claim that is committed, with the id of its row. -/
structure ClaimedReminder where
  claim : ReminderClaim
  claimId : Uuid

def ClaimedReminder.key (c : ClaimedReminder) : Uuid × ℤ := c.claim.key

def ClaimedReminder.row (c : ClaimedReminder) : Reminder := c.claim.row c.claimId

/-- The claim an invoice is due on a day: its days past due are a step of the schedule, and there is
somebody to remind. -/
def ReminderTenant.claimOf (t : ReminderTenant) (schedule : List ℤ) (today : NaiveDate)
    (i : ReminderCandidate) : Option ReminderClaim :=
  let days := today.numDaysFromCe - i.dueDate.numDaysFromCe
  if days ∈ schedule then
    (t.recipient i).map fun address => { invoice := i, days := days, recipient := address }
  else none

/-- The claims of a transaction are committed: their rows have ids now. -/
def storeClaims : Table Reminder.id → List ReminderClaim → List ClaimedReminder × Table Reminder.id
  | t, [] => ([], t)
  | t, c :: cs =>
    let r := storeClaims (t.insert c.row) cs
    (⟨c, t.next⟩ :: r.1, r.2)

/-! ### The runs -/

/-- Where a run stands. -/
inductive ReminderRun where
  /-- The claiming transaction is open, with the rows it has inserted. -/
  | claiming (schedule : List ℤ) (today : NaiveDate) (todo : List ReminderCandidate)
      (claims : List ReminderClaim)
  | sending (claims : List ClaimedReminder)
  /-- The relay has refused the first; its release is to come. -/
  | releasing (refused : ClaimedReminder) (claims : List ClaimedReminder)

namespace ReminderRun

/-- The keys of the rows that are inserted and not committed. -/
def holds : ReminderRun → List (Uuid × ℤ)
  | claiming _ _ _ claims => claims.map (·.key)
  | sending _ | releasing _ _ => []

/-- The claims that are neither delivered nor released. -/
def pending : ReminderRun → List ClaimedReminder
  | sending claims => claims
  | releasing refused claims => refused :: claims
  | claiming _ _ _ _ => []

end ReminderRun

structure Reminders where
  tenant : ReminderTenant
  rows : Table Reminder.id
  runs : List ReminderRun
  /-- The claims whose reminder the relay has taken. -/
  delivered : List ClaimedReminder

inductive ReminderEvent where
  /-- The rest of the program writes. -/
  | change (tenant : ReminderTenant)
  /-- A worker starts, at a day and an hour of the tenant's zone. -/
  | start (today : NaiveDate) (hour : ℕ)
  /-- Run `i` runs its next statement. -/
  | advance (i : ℕ)
  /-- The relay takes or refuses the next reminder of run `i`. -/
  | send (i : ℕ) (accepted : Bool)
  /-- Run `i` stops. -/
  | abort (i : ℕ)

namespace Reminders

def goto (s : Reminders) (i : ℕ) (r : ReminderRun) : Reminders := { s with runs := s.runs.set i r }

def finish (s : Reminders) (i : ℕ) : Reminders := { s with runs := s.runs.eraseIdx i }

/-- The row that the next statement of a run inserts. -/
def inserts (s : Reminders) : ReminderRun → Option ReminderClaim
  | .claiming schedule today (i :: _) _ => s.tenant.claimOf schedule today i
  | .claiming _ _ [] _ | .sending _ | .releasing _ _ => none

/-- Another run has inserted a row of the same key and has not committed. -/
def blocked (s : Reminders) (i : ℕ) (r : ReminderRun) : Bool :=
  match s.inserts r with
  | none => false
  | some c => (s.runs.eraseIdx i).any fun r' => decide (c.key ∈ r'.holds)

/-- `ON CONFLICT (tenant_id, invoice_id, offset_days) DO NOTHING`. -/
def insertClaim (rows : Table Reminder.id) (claims : List ReminderClaim) (c : ReminderClaim) :
    List ReminderClaim :=
  if (∃ r ∈ rows.rows, r.key = c.key) ∨ c.key ∈ claims.map (·.key) then claims else claims ++ [c]

/-- The next statement of run `i`. -/
def exec (s : Reminders) (i : ℕ) : ReminderRun → Reminders
  | .claiming schedule today (invoice :: todo) claims =>
    match s.tenant.claimOf schedule today invoice with
    | none => s.goto i (.claiming schedule today todo claims)
    | some c => s.goto i (.claiming schedule today todo (insertClaim s.rows claims c))
  | .claiming _ _ [] claims =>
    let r := storeClaims s.rows claims
    { s with
      rows := r.2
      runs := s.runs.set i (.sending r.1) }
  | .releasing refused claims =>
    { s with
      rows := s.rows.erase refused.claimId
      runs := s.runs.set i (.sending claims) }
  | .sending _ => s.finish i

/-- A run that has reminders left does not move on before the relay has answered. -/
def waits : ReminderRun → Bool
  | .sending (_ :: _) => true
  | .sending [] | .claiming _ _ _ _ | .releasing _ _ => false

def step (s : Reminders) : ReminderEvent → Option Reminders
  | .change tenant => some { s with tenant := tenant }
  | .start today hour =>
    let settings := readInvoiceReminderSettings s.tenant.settings
    if settings.enabled = false ∨ settings.schedule = [] ∨ hour ≠ settings.sendHour ∨
        s.tenant.candidates today = [] then some s
    else
      some { s with
        runs := s.runs ++ [.claiming settings.schedule today (s.tenant.candidates today) []] }
  | .advance i =>
    match s.runs[i]? with
    | none => none
    | some r => if s.blocked i r || waits r then none else some (s.exec i r)
  | .send i accepted =>
    match s.runs[i]? with
    | some (.sending (c :: claims)) =>
      if accepted then some { s.goto i (.sending claims) with delivered := s.delivered ++ [c] }
      else some (s.goto i (.releasing c claims))
    | _ => none
  | .abort i => if i < s.runs.length then some (s.finish i) else none

/-- No reminder has been claimed yet. -/
def init (tenant : ReminderTenant) : Reminders := ⟨tenant, ∅, [], []⟩

/-! ### What a step can do -/

/-- Everything a step can do, and to which run. -/
inductive Change (s : Reminders) : ReminderEvent → Reminders → Prop where
  | tenant (e : ReminderEvent) (tenant : ReminderTenant) : Change s e { s with tenant := tenant }
  | start (e : ReminderEvent) (schedule : List ℤ) (today : NaiveDate)
      (todo : List ReminderCandidate) :
      Change s e { s with runs := s.runs ++ [.claiming schedule today todo []] }
  | ended (e : ReminderEvent) (i : ℕ) : Change s e (s.finish i)
  | skip {i : ℕ} {schedule : List ℤ} {today : NaiveDate} {todo todo' : List ReminderCandidate}
      {claims : List ReminderClaim} (hr : s.runs[i]? = some (.claiming schedule today todo claims)) :
      Change s (.advance i) (s.goto i (.claiming schedule today todo' claims))
  | claim {i : ℕ} {schedule : List ℤ} {today : NaiveDate} {todo todo' : List ReminderCandidate}
      {claims : List ReminderClaim} {c : ReminderClaim}
      (hr : s.runs[i]? = some (.claiming schedule today todo claims))
      (hrow : ∀ r ∈ s.rows, r.key ≠ c.key) (hown : c.key ∉ claims.map (·.key))
      (hother : ∀ r ∈ s.runs.eraseIdx i, c.key ∉ r.holds) :
      Change s (.advance i) (s.goto i (.claiming schedule today todo' (claims ++ [c])))
  | commit {i : ℕ} {schedule : List ℤ} {today : NaiveDate} {todo : List ReminderCandidate}
      {claims : List ReminderClaim} (hr : s.runs[i]? = some (.claiming schedule today todo claims)) :
      Change s (.advance i) { s with
        rows := (storeClaims s.rows claims).2
        runs := s.runs.set i (.sending (storeClaims s.rows claims).1) }
  | deliver {i : ℕ} {c : ClaimedReminder} {claims : List ClaimedReminder}
      (hr : s.runs[i]? = some (.sending (c :: claims))) :
      Change s (.send i true) { s.goto i (.sending claims) with delivered := s.delivered ++ [c] }
  | refuse {i : ℕ} {c : ClaimedReminder} {claims : List ClaimedReminder}
      (hr : s.runs[i]? = some (.sending (c :: claims))) :
      Change s (.send i false) (s.goto i (.releasing c claims))
  | release {i : ℕ} {c : ClaimedReminder} {claims : List ClaimedReminder}
      (hr : s.runs[i]? = some (.releasing c claims)) :
      Change s (.advance i) { s with
        rows := s.rows.erase c.claimId
        runs := s.runs.set i (.sending claims) }

theorem exec_change {s : Reminders} {i : ℕ} {r : ReminderRun} (hr : s.runs[i]? = some r)
    (hb : s.blocked i r = false) : Change s (.advance i) (s.exec i r) := by
  cases r with
  | claiming schedule today todo claims =>
      cases todo with
      | nil => exact .commit hr
      | cons invoice todo =>
          simp only [exec]
          split
          · exact .skip hr
          · next c hc =>
            unfold insertClaim
            split
            · exact .skip hr
            · next hnew =>
              rw [not_or] at hnew
              refine .claim hr (fun r hrow hk => hnew.1 ⟨r, hrow, hk⟩) hnew.2 ?_
              simpa [blocked, inserts, hc] using hb
  | sending claims => exact .ended _ i
  | releasing refused claims => exact .release hr

theorem step_change {s s' : Reminders} {e : ReminderEvent} (h : step s e = some s') :
    Change s e s' := by
  cases e with
  | change tenant =>
      cases h
      exact .tenant _ tenant
  | start today hour =>
      simp only [step] at h
      split at h
      · cases h
        exact .tenant _ s.tenant
      · cases h
        exact .start _ _ _ _
  | advance i =>
      simp only [step] at h
      split at h
      · exact absurd h (by simp)
      · next r hr =>
        split at h
        · exact absurd h (by simp)
        · next hb =>
          cases h
          rw [Bool.not_eq_true, Bool.or_eq_false_iff] at hb
          exact exec_change hr hb.1
  | send i accepted =>
      simp only [step] at h
      split at h
      · next c claims hr =>
        cases accepted with
        | true =>
            cases h
            exact .deliver hr
        | false =>
            cases h
            exact .refuse hr
      · exact absurd h (by simp)
  | abort i =>
      simp only [step] at h
      split at h
      · cases h
        exact .ended _ i
      · exact absurd h (by simp)

end Reminders

/-! ### The rows of a claim -/

theorem storeClaims_keys (t : Table Reminder.id) (cs : List ReminderClaim) :
    (storeClaims t cs).2.rows.map Reminder.key =
      t.rows.map Reminder.key ++ cs.map ReminderClaim.key := by
  induction cs generalizing t with
  | nil => simp [storeClaims]
  | cons c cs ih =>
      simp only [storeClaims]
      rw [ih]
      simp [Table.insert, ReminderClaim.row, Reminder.key, ReminderClaim.key]

theorem mem_storeClaims_of_mem {t : Table Reminder.id} {r : Reminder} (h : r ∈ t)
    (cs : List ReminderClaim) : r ∈ (storeClaims t cs).2 := by
  induction cs generalizing t with
  | nil => exact h
  | cons c cs ih => exact ih ((Table.mem_insert).mpr (.inl h))

/-- A committed claim has a new id and its row. -/
theorem storeClaims_row {t : Table Reminder.id} {cs : List ReminderClaim} {c : ClaimedReminder}
    (h : c ∈ (storeClaims t cs).1) : t.next ≤ c.claimId ∧ c.row ∈ (storeClaims t cs).2 := by
  induction cs generalizing t with
  | nil => exact absurd h List.not_mem_nil
  | cons d cs ih =>
      rcases List.mem_cons.mp h with rfl | h
      · exact ⟨le_refl _, mem_storeClaims_of_mem ((Table.mem_insert).mpr (.inr rfl)) cs⟩
      · obtain ⟨h1, h2⟩ := ih h
        exact ⟨(Nat.le_succ _).trans h1, h2⟩

theorem storeClaims_ids_nodup (t : Table Reminder.id) (cs : List ReminderClaim) :
    ((storeClaims t cs).1.map ClaimedReminder.claimId).Nodup := by
  induction cs generalizing t with
  | nil => exact List.nodup_nil
  | cons c cs ih =>
      simp only [storeClaims, List.map_cons, List.nodup_cons]
      refine ⟨fun hm => ?_, ih _⟩
      obtain ⟨d, hd, hid⟩ := List.mem_map.mp hm
      have h1 := (storeClaims_row hd).1
      rw [Table.insert_next, hid] at h1
      exact Nat.not_succ_le_self _ h1

namespace Reminders

variable {s s' : Reminders} {e : ReminderEvent}

/-- The claims that the relay has taken or that a run still has. -/
def live (s : Reminders) : List ClaimedReminder :=
  s.delivered ++ s.runs.flatMap ReminderRun.pending

/-- Committed and uncommitted rows have different keys, and every claim that was delivered, or has
neither been delivered nor released, has a row of its own. -/
structure Exclusive (s : Reminders) : Prop where
  keys : (s.rows.rows.map Reminder.key ++ s.runs.flatMap ReminderRun.holds).Nodup
  ids : (s.live.map ClaimedReminder.claimId).Nodup
  row : ∀ c ∈ s.live, c.row ∈ s.rows

namespace Exclusive

theorem init (tenant : ReminderTenant) : Exclusive (init tenant) where
  keys := List.nodup_nil
  ids := List.nodup_nil
  row := by simp [live, Reminders.init]

/-- What a state knows is kept when runs let go of keys and claims. -/
theorem mono (h : Exclusive s) (hrows : s'.rows = s.rows)
    (hkeys : (s'.runs.flatMap ReminderRun.holds).Subperm (s.runs.flatMap ReminderRun.holds))
    (hlive : s'.live.Subperm s.live) : Exclusive s' where
  keys := by
    rw [hrows]
    have h1 := (List.subperm_append_left (s.rows.rows.map Reminder.key)).mpr hkeys
    simpa using nodup_map_of_subperm (f := id) (by simpa using h.keys) h1
  ids := nodup_map_of_subperm h.ids hlive
  row := by
    intro c hc
    rw [hrows]
    exact h.row c (hlive.subset hc)

/-- Run `i` goes on at `r'` with the same keys and the same claims. -/
theorem goto (h : Exclusive s) {i : ℕ} {r r' : ReminderRun} (hr : s.runs[i]? = some r)
    (hholds : r'.holds = r.holds) (hpending : r'.pending = r.pending) : Exclusive (s.goto i r') := by
  refine h.mono rfl (holds_set_perm_self hr r' hholds).subperm ?_
  exact ((holds_set_perm_self hr r' hpending).append_left s.delivered).subperm

theorem finish (h : Exclusive s) (i : ℕ) : Exclusive (s.finish i) :=
  h.mono rfl (holds_erase_sublist s.runs i _).subperm
    ((holds_erase_sublist s.runs i _).append_left s.delivered).subperm

theorem claim (h : Exclusive s) {i : ℕ} {schedule : List ℤ} {today : NaiveDate}
    {todo todo' : List ReminderCandidate} {claims : List ReminderClaim} {c : ReminderClaim}
    (hr : s.runs[i]? = some (.claiming schedule today todo claims))
    (hrow : ∀ r ∈ s.rows, r.key ≠ c.key) (hown : c.key ∉ claims.map (·.key))
    (hother : ∀ r ∈ s.runs.eraseIdx i, c.key ∉ r.holds) :
    Exclusive (s.goto i (.claiming schedule today todo' (claims ++ [c]))) := by
  have hlive : (s.goto i (.claiming schedule today todo' (claims ++ [c]))).live.Perm s.live :=
    (holds_set_perm_self hr (.claiming schedule today todo' (claims ++ [c])) rfl).append_left
      s.delivered
  refine ⟨?_, (hlive.map _).nodup_iff.mpr h.ids, fun d hd => h.row d (hlive.mem_iff.mp hd)⟩
  have hk : c.key ∉ s.rows.rows.map Reminder.key ++ s.runs.flatMap ReminderRun.holds := by
    rw [List.mem_append, List.mem_map, (holds_perm hr _).mem_iff, List.mem_append,
      List.mem_flatMap]
    rintro (⟨r, hr1, hr2⟩ | hm | ⟨r, hr1, hr2⟩)
    · exact hrow r hr1 hr2
    · exact hown hm
    · exact hother r hr1 hr2
  -- The keys after the step are the new one and those before.
  have hp : (s.rows.rows.map Reminder.key ++
      (s.runs.set i (.claiming schedule today todo' (claims ++ [c]))).flatMap
        ReminderRun.holds).Perm
      (c.key :: (s.rows.rows.map Reminder.key ++ s.runs.flatMap ReminderRun.holds)) := by
    refine ((holds_set_perm hr _ _).append_left _).trans ?_
    refine List.Perm.trans ?_ (((holds_perm hr _).symm.append_left _).cons c.key)
    have hmid : ((s.rows.rows.map Reminder.key ++ claims.map ReminderClaim.key) ++
        c.key :: (s.runs.eraseIdx i).flatMap ReminderRun.holds).Perm
        (c.key :: ((s.rows.rows.map Reminder.key ++ claims.map ReminderClaim.key) ++
          (s.runs.eraseIdx i).flatMap ReminderRun.holds)) := List.perm_middle
    simpa [ReminderRun.holds] using hmid
  exact hp.nodup_iff.mpr (List.nodup_cons.mpr ⟨hk, h.keys⟩)

theorem commit (h : Exclusive s) {i : ℕ} {schedule : List ℤ} {today : NaiveDate}
    {todo : List ReminderCandidate} {claims : List ReminderClaim}
    (hr : s.runs[i]? = some (.claiming schedule today todo claims)) :
    Exclusive { s with
      rows := (storeClaims s.rows claims).2
      runs := s.runs.set i (.sending (storeClaims s.rows claims).1) } := by
  have hlive : ({ s with
      rows := (storeClaims s.rows claims).2
      runs := s.runs.set i (.sending (storeClaims s.rows claims).1) } : Reminders).live.Perm
      ((storeClaims s.rows claims).1 ++ s.live) := by
    have h1 := (holds_set_perm hr (.sending (storeClaims s.rows claims).1)
      ReminderRun.pending).append_left s.delivered
    have h2 := (holds_perm hr ReminderRun.pending).append_left s.delivered
    refine h1.trans (List.Perm.trans ?_ (h2.symm.append_left (storeClaims s.rows claims).1))
    simp only [ReminderRun.pending, List.nil_append, ← List.append_assoc]
    exact List.perm_append_comm.append_right _
  refine ⟨?_, ?_, ?_⟩
  · -- The keys change hands.
    refine (List.Perm.nodup_iff ?_).mpr h.keys
    have h1 := holds_set_perm hr (.sending (storeClaims s.rows claims).1) ReminderRun.holds
    refine (h1.append_left _).trans ?_
    refine List.Perm.trans ?_ ((holds_perm hr ReminderRun.holds).symm.append_left _)
    simp [storeClaims_keys, ReminderRun.holds]
  · rw [(hlive.map _).nodup_iff, List.map_append, List.nodup_append]
    refine ⟨storeClaims_ids_nodup s.rows claims, h.ids, ?_⟩
    rintro _ h1 _ h2 rfl
    obtain ⟨c, hc, rfl⟩ := List.mem_map.mp h1
    obtain ⟨d, hd, hid⟩ := List.mem_map.mp h2
    have hle := (storeClaims_row hc).1
    have hlt : d.claimId < s.rows.next := Table.key_lt_next (h.row d hd)
    exact absurd hle (not_le.mpr (hid ▸ hlt))
  · intro c hc
    rcases List.mem_append.mp (hlive.mem_iff.mp hc) with hc | hc
    · exact (storeClaims_row hc).2
    · exact mem_storeClaims_of_mem (h.row c hc) claims

theorem deliver (h : Exclusive s) {i : ℕ} {c : ClaimedReminder} {claims : List ClaimedReminder}
    (hr : s.runs[i]? = some (.sending (c :: claims))) :
    Exclusive { s.goto i (.sending claims) with delivered := s.delivered ++ [c] } := by
  refine h.mono rfl (holds_set_perm_self hr (.sending claims) rfl).subperm ?_
  have h1 := (holds_set_perm hr (.sending claims) ReminderRun.pending).append_left
    (s.delivered ++ [c])
  have h2 := (holds_perm hr ReminderRun.pending).append_left s.delivered
  refine (h1.trans (List.Perm.trans ?_ h2.symm)).subperm
  simp [ReminderRun.pending]

/-- A run that releases a claim has its row, and no other live claim has it. -/
theorem release_live (h : Exclusive s) {i : ℕ} {c : ClaimedReminder}
    {claims : List ClaimedReminder} (hr : s.runs[i]? = some (.releasing c claims)) :
    c.row ∈ s.rows ∧ ∀ d ∈ s.delivered ++ (claims ++ (s.runs.eraseIdx i).flatMap
      ReminderRun.pending), d ∈ s.live ∧ d.claimId ≠ c.claimId := by
  have hp : s.live.Perm (c :: (s.delivered ++ (claims ++ (s.runs.eraseIdx i).flatMap
      ReminderRun.pending))) :=
    ((holds_perm hr ReminderRun.pending).append_left s.delivered).trans List.perm_middle
  refine ⟨h.row c (hp.mem_iff.mpr List.mem_cons_self), fun d hd => ⟨?_, ?_⟩⟩
  · exact hp.mem_iff.mpr (List.mem_cons_of_mem _ hd)
  · have hn := (hp.map ClaimedReminder.claimId).nodup_iff.mp h.ids
    rw [List.map_cons, List.nodup_cons] at hn
    exact fun he => hn.1 (he ▸ List.mem_map_of_mem hd)

theorem release (h : Exclusive s) {i : ℕ} {c : ClaimedReminder} {claims : List ClaimedReminder}
    (hr : s.runs[i]? = some (.releasing c claims)) :
    Exclusive { s with
      rows := s.rows.erase c.claimId
      runs := s.runs.set i (.sending claims) } := by
  obtain ⟨-, hrest⟩ := h.release_live hr
  have hlive := (holds_set_perm hr (.sending claims) ReminderRun.pending).append_left s.delivered
  refine ⟨?_, ?_, ?_⟩
  · have h1 : ((s.runs.set i (.sending claims)).flatMap ReminderRun.holds).Perm
        (s.runs.flatMap ReminderRun.holds) := holds_set_perm_self hr (.sending claims) rfl
    have h2 : (s.rows.erase c.claimId).rows.Sublist s.rows.rows := List.filter_sublist
    exact (h1.append_left _).nodup_iff.mpr (h.keys.sublist ((h2.map _).append_right _))
  · refine nodup_map_of_subperm h.ids (hlive.subperm.trans ?_)
    have h1 := (holds_perm hr ReminderRun.pending).append_left s.delivered
    refine List.Subperm.trans ?_ h1.symm.subperm
    exact (((List.sublist_cons_self c claims).append_right _).append_left _).subperm
  · intro d hd
    obtain ⟨h1, h2⟩ := hrest d (hlive.mem_iff.mp hd)
    exact Table.mem_erase.mpr ⟨h.row d h1, h2⟩

theorem step (h : Exclusive s) (hs : Reminders.step s e = some s') : Exclusive s' := by
  cases step_change hs with
  | tenant tenant => exact ⟨h.keys, h.ids, h.row⟩
  | start schedule today todo =>
      refine h.mono rfl (List.Perm.subperm ?_) (List.Perm.subperm ?_)
      · simp [ReminderRun.holds]
      · simp [live, ReminderRun.pending]
  | ended => exact h.finish _
  | skip hr => exact h.goto hr rfl rfl
  | claim hr hrow hown hother => exact h.claim hr hrow hown hother
  | commit hr => exact h.commit hr
  | deliver hr => exact h.deliver hr
  | refuse hr => exact h.goto hr rfl rfl
  | release hr => exact h.release hr

theorem of_run {tenant : ReminderTenant} {es : List ReminderEvent}
    (hr : run Reminders.step (Reminders.init tenant) es = some s) : Exclusive s :=
  run_invariant Exclusive (fun _ _ _ h hs => h.step hs) (Exclusive.init tenant) hr

end Exclusive

/-- Two live claims of one invoice and one offset are the same claim. -/
theorem Exclusive.eq_of_key (h : Exclusive s) {c d : ClaimedReminder} (hc : c ∈ s.live)
    (hd : d ∈ s.live) (hk : c.key = d.key) : c = d := by
  have hkeys : (s.rows.rows.map Reminder.key).Nodup := (List.nodup_append.mp h.keys).1
  have hrow : c.row = d.row := List.inj_on_of_nodup_map hkeys (h.row c hc) (h.row d hd) hk
  exact List.inj_on_of_nodup_map h.ids hc hd (congrArg Reminder.id hrow)

theorem Exclusive.delivered_nodup (h : Exclusive s) :
    (s.delivered.map ClaimedReminder.key).Nodup := by
  have hn : (s.delivered.map ClaimedReminder.claimId).Nodup :=
    h.ids.sublist ((List.sublist_append_left _ _).map _)
  refine List.Nodup.map_on ?_ (List.Nodup.of_map _ hn)
  intro c hc d hd hk
  exact h.eq_of_key (List.mem_append_left _ hc) (List.mem_append_left _ hd) hk

/-- A release deletes the row of its claim, and leaves the rows of the other runs, of its own run's
other claims and of what was delivered. -/
theorem Exclusive.release_own (h : Exclusive s) {i : ℕ} {c : ClaimedReminder}
    {claims : List ClaimedReminder} (hi : s.runs[i]? = some (.releasing c claims)) :
    ∃ s', Reminders.step s (.advance i) = some s' ∧ c.row ∈ s.rows ∧
      (∀ r, r ∈ s'.rows ↔ r ∈ s.rows ∧ r ≠ c.row) ∧
      (∀ d ∈ s.delivered ++ claims, d.row ∈ s'.rows) ∧
      ∀ j r, j ≠ i → s.runs[j]? = some r →
        s'.runs[j]? = some r ∧ ∀ d ∈ r.pending, d.row ∈ s'.rows := by
  obtain ⟨hrow, hrest⟩ := h.release_live hi
  have hkeep : ∀ d ∈ s.delivered ++ (claims ++ (s.runs.eraseIdx i).flatMap ReminderRun.pending),
      d.row ∈ s.rows.erase c.claimId := fun d hd =>
    Table.mem_erase.mpr ⟨h.row d (hrest d hd).1, (hrest d hd).2⟩
  refine ⟨_, by simp only [Reminders.step, hi, blocked, inserts, waits]; rfl, hrow, ?_, ?_, ?_⟩
  · intro r
    show r ∈ s.rows.erase c.claimId ↔ _
    rw [Table.mem_erase]
    constructor
    · rintro ⟨hr, hne⟩
      exact ⟨hr, fun he => hne (he ▸ rfl)⟩
    · rintro ⟨hr, hne⟩
      exact ⟨hr, fun hid => hne (Table.eq_of_key_eq hr hrow hid)⟩
  · intro d hd
    apply hkeep d
    rcases List.mem_append.mp hd with hd | hd
    · exact List.mem_append_left _ hd
    · exact List.mem_append_right _ (List.mem_append_left _ hd)
  · intro j r hj hr
    refine ⟨?_, fun d hd => hkeep d ?_⟩
    · show (s.runs.set i _)[j]? = some r
      rw [List.getElem?_set_ne hj.symm, hr]
    · have hm : r ∈ s.runs.eraseIdx i := List.mem_eraseIdx_iff_getElem?.mpr ⟨j, hj, hr⟩
      exact List.mem_append_right _ (List.mem_append_right _ (List.mem_flatMap.mpr ⟨r, hm, hd⟩))

/-- At most one reminder is delivered for an invoice and an offset, and a refused reminder gives up
its own claim and nobody else's. -/
theorem reminded_at_most_once {tenant : ReminderTenant} {es : List ReminderEvent}
    (hr : run step (init tenant) es = some s) :
    (s.delivered.map ClaimedReminder.key).Nodup ∧
      ∀ i c claims, s.runs[i]? = some (.releasing c claims) →
        ∃ s', step s (.advance i) = some s' ∧ c.row ∈ s.rows ∧
          (∀ r, r ∈ s'.rows ↔ r ∈ s.rows ∧ r ≠ c.row) ∧
          (∀ d ∈ s.delivered ++ claims, d.row ∈ s'.rows) ∧
          ∀ j r, j ≠ i → s.runs[j]? = some r →
            s'.runs[j]? = some r ∧ ∀ d ∈ r.pending, d.row ∈ s'.rows :=
  ⟨(Exclusive.of_run hr).delivered_nodup, fun _ _ _ hi => (Exclusive.of_run hr).release_own hi⟩

/-- Two workers in the same hour: the relay refuses the first, the second claims again and
delivers, and the first finds nothing to claim any more. -/
def twoWorkers : List ReminderEvent :=
  [.start (sampleDay 1 4) 8, .start (sampleDay 1 4) 8, .advance 0, .advance 0, .send 0 false,
    .advance 0, .advance 1, .advance 1, .send 1 true, .start (sampleDay 1 4) 8, .advance 2,
    .advance 2]

/-- One invoice that was due on the first of January. -/
def sampleReminderTenant : ReminderTenant where
  settings := [("enabled", .bool true), ("schedule", .array [.number 3, .number 7])]
  invoices :=
    [{ id := 5
       invoiceNumber := "INV-00001"
       companyId := 7
       billingContactId := none
       status := .sent
       dueDate := sampleDay 1 1
       balanceDue := ⟨10000⟩
       currency := none
       emailedTo := some "ap@example.com"
       externalProvider := none }]
  companies := []
  contacts := []

theorem reminded_at_most_once_twoWorkers :
    ∃ s, run step (init sampleReminderTenant) twoWorkers = some s ∧
      s.delivered.map ClaimedReminder.key = [(5, 3)] ∧
      (s.delivered.map ClaimedReminder.key).Nodup := by
  have h : (run step (init sampleReminderTenant) twoWorkers).any
      (fun s => decide (s.delivered.map ClaimedReminder.key = [(5, 3)])) = true := by
    decide +kernel
  obtain ⟨s, hs, hp⟩ := exists_run_of_any h
  exact ⟨s, hs, of_decide_eq_true hp, (reminded_at_most_once hs).1⟩

end Reminders

end Mokosh
