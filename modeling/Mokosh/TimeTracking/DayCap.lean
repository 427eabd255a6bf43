import Mokosh.TimeTracking.TwoWays

/-! # The cap on a day's minutes

Any number of `create_time_entry`, `update_time_entry`, `stop_timer` and `delete_time_entry` calls
in flight at once.  The transaction that writes a row is taken apart into what it reads, with the
sum of the day under it (`draftTimeEntry`, `draftEdit`, `draftTimerEntry`), and the write that
becomes visible when it commits: the sum is read without a lock, so the other calls may commit in
between.

* `create_time_entry` and `update_time_entry` check the cap while they draft; `update_time_entry`
  checks the day of the row as it was read by `get_time_entry`, in a transaction of its own.
* `stop_timer` never checks it.
* Giving hours back and drawing them writes neither the minutes nor the day of an entry.

**`worked_le_cap`**: as long as each write still passes the check on the tables it commits to
(`Fits`), no user has more worked minutes on a day than the cap.  Two requests that are checked
before either commits both pass (`two_creates_exceed`), and so does a timer that runs on
(`stop_exceeds`). -/

namespace Mokosh

/-! ### A write and what is worked out before it -/

/-- The row a create request is going to insert. -/
structure EntryDraft where
  request : CreateTimeEntryRequest
  kind : ResolvedKind
  category : WorkCategory
  worked : ℤ
  billable : ℤ
  billing : Option ℚ × Option ℚ
  contractId : Option Uuid

def EntryDraft.entry (d : EntryDraft) (id : Uuid) : TimeEntry :=
  TimeDb.newEntry d.request d.kind d.category d.worked d.billable d.billing d.contractId id

/-- The columns an update request is going to write, from the entry as it was read. -/
structure EditDraft where
  current : TimeEntry
  request : UpdateTimeEntryRequest
  kind : ResolvedKind
  category : WorkCategory
  worked : ℤ
  billable : ℤ
  contractId : Option Uuid

def EditDraft.edit (d : EditDraft) (e : TimeEntry) : TimeEntry :=
  TimeDb.editEntry d.current d.request d.kind d.category d.worked d.billable d.contractId e

namespace TimeDb

/-- What `create_time_entry` works out before its `INSERT`, with the check of the cap. -/
def draftTimeEntry (db : TimeDb) (request : CreateTimeEntryRequest) : AppResult EntryDraft := do
  let defaults ← fetchWorkTypeDefaults db.dir request.workTypeId
  assertCompanyInTenant db.dir request.companyId
  assertTicketInTenant db.dir request.ticketId
  let kind ← resolveEntryKind
    { requested := request.entryKind
      companyId := request.companyId
      ownCompanyId := db.dir.ownCompanyId
      ticketId := request.ticketId
      projectId := request.projectId
      taskId := request.taskId
      contractId := none
      isBillable := request.isBillable }
  let category ← deriveWorkCategory request.workCategory request.ticketId request.projectId
  let worked ← computeMinutes request
  let billable :=
    if kind.billable then
      request.billableMinutes.getD (deriveBillableMinutes worked true db.dir.roundingRule)
    else 0
  enforceDayCap (dayMinutesExcluding db.entries request.userId request.date none) worked
    db.dir.maxMinutesPerDay
  .ok
    { request := request
      kind := kind
      category := category
      worked := worked
      billable := billable
      billing := resolveBilling request.hourlyRate kind.billable defaults billable
      contractId :=
        blockHoursContractFor db.book request.companyId request.date kind.kind kind.billable }

def commitTimeEntry (db : TimeDb) (d : EntryDraft) : TimeDb :=
  { db with entries := db.entries.insert d.entry }

/-- What `update_time_entry` works out before its `UPDATE`, with the check of the cap. -/
def draftEdit (db : TimeDb) (current : TimeEntry) (request : UpdateTimeEntryRequest) :
    AppResult EditDraft := do
  let worked ← updatedMinutes current request
  assertTicketInTenant db.dir request.ticketId
  let category ← deriveWorkCategory request.workCategory request.ticketId request.projectId
  let kind ← resolveEntryKind
    { requested := some (match current.entryKind with
        | .client => "client"
        | .employee => "employee")
      companyId := current.companyId
      ownCompanyId := none
      ticketId := request.ticketId
      projectId := request.projectId
      taskId := request.taskId
      contractId := none
      isBillable := request.isBillable.getD (current.isBillable.getD true) }
  let billable :=
    if kind.billable then
      (request.billableMinutes.or current.billableMinutes).getD
        (deriveBillableMinutes worked true db.dir.roundingRule)
    else 0
  let targetDate := request.date.getD current.date
  enforceDayCap (dayMinutesExcluding db.entries current.userId targetDate (some current.id)) worked
    db.dir.maxMinutesPerDay
  .ok
    { current := current
      request := request
      kind := kind
      category := category
      worked := worked
      billable := billable
      contractId :=
        blockHoursContractFor db.book current.companyId targetDate kind.kind kind.billable }

def commitEdit (db : TimeDb) (d : EditDraft) : AppResult TimeDb :=
  match db.entries.find d.current.id with
  | none => .error (.notFound "Time entry")
  | some _ => .ok { db with entries := db.entries.update d.current.id d.edit }

/-- The first transaction of `create_time_entry` is its reads and then its write. -/
theorem insertTimeEntry_eq (db : TimeDb) (request : CreateTimeEntryRequest) :
    db.insertTimeEntry request = (do
      let d ← db.draftTimeEntry request
      .ok (db.entries.next, db.commitTimeEntry d)) := by
  unfold insertTimeEntry draftTimeEntry
  simp only [bind_assoc]
  rfl

/-- So is the `UPDATE` transaction of `update_time_entry`. -/
theorem writeTimeEntry_eq (db : TimeDb) (current : TimeEntry) (request : UpdateTimeEntryRequest) :
    db.writeTimeEntry current request = (do
      let d ← db.draftEdit current request
      db.commitEdit d) := by
  unfold writeTimeEntry draftEdit
  simp only [bind_assoc]
  rfl

end TimeDb

/-! ### The calls in flight -/

/-- Where a call stands: what it does next, with what it has read. -/
inductive CapCall where
  | create (request : CreateTimeEntryRequest)
  /-- A create that has been checked and not committed. -/
  | inserting (draft : EntryDraft)
  | update (id : Uuid) (request : UpdateTimeEntryRequest)
  /-- An update that has read the entry. -/
  | checking (current : TimeEntry) (request : UpdateTimeEntryRequest)
  /-- An update that has been checked and not committed. -/
  | writing (draft : EditDraft)
  | stop (timerId userId : Uuid) (now : ℤ) (today : NaiveDate)
  | stopping (draft : TimerDraft)
  | release (id : Uuid)
  | consume (id : Uuid)
  | deleteRelease (id : Uuid)
  | delete (id : Uuid)

namespace CapCall

/-- The beginning of an operation. -/
def initial : CapCall → Bool
  | create _ | update _ _ | stop _ _ _ _ | deleteRelease _ => true
  | inserting _ | checking _ _ | writing _ | stopping _ | release _ | consume _ | delete _ => false

/-- The row that the next commit of the call leaves in the table. -/
def pending (db : TimeDb) : CapCall → Option TimeEntry
  | inserting d => some (d.entry db.entries.next)
  | writing d => (db.entries.find d.current.id).map d.edit
  | stopping d => some (d.entry db.entries.next)
  | create _ | update _ _ | checking _ _ | stop _ _ _ _ | release _ | consume _ | deleteRelease _
  | delete _ => none

end CapCall

structure CapSched where
  db : TimeDb
  calls : List CapCall

inductive CapEvent where
  | start (call : CapCall)
  /-- Call `i` goes on to its next read or its next commit. -/
  | advance (i : ℕ)
  /-- Call `i` fails, and what is open of it is rolled back. -/
  | abort (i : ℕ)

namespace CapSched

/-- Call `i` is over. -/
def finish (s : CapSched) (i : ℕ) (db : TimeDb) : CapSched := ⟨db, s.calls.eraseIdx i⟩

/-- Call `i` goes on at `c`. -/
def goto (s : CapSched) (i : ℕ) (db : TimeDb) (c : CapCall) : CapSched := ⟨db, s.calls.set i c⟩

def exec (s : CapSched) (i : ℕ) : CapCall → CapSched
  | .create request =>
    match s.db.draftTimeEntry request with
    | .error _ => s.finish i s.db
    | .ok d => s.goto i s.db (.inserting d)
  | .inserting d => s.goto i (s.db.commitTimeEntry d) (.consume s.db.entries.next)
  | .update id request =>
    match s.db.getTimeEntry id with
    | .error _ => s.finish i s.db
    | .ok current => s.goto i s.db (.checking current request)
  | .checking current request =>
    match s.db.draftEdit current request with
    | .error _ => s.finish i s.db
    | .ok d => s.goto i s.db (.writing d)
  | .writing d =>
    match s.db.commitEdit d with
    | .error _ => s.finish i s.db
    | .ok db' => s.goto i db' (.release d.current.id)
  | .stop timerId userId now today =>
    match s.db.readTimer timerId userId with
    | .error _ => s.finish i s.db
    | .ok timer =>
      match s.db.draftTimerEntry timer now today with
      | .error _ => s.finish i s.db
      | .ok d => s.goto i s.db (.stopping d)
  | .stopping d => s.goto i (s.db.commitStop d) (.consume s.db.entries.next)
  | .release id => s.goto i (s.db.releaseForEntry id) (.consume id)
  | .consume id =>
    match s.db.consumeForEntry id with
    | .error _ => s.finish i s.db
    | .ok db' => s.finish i db'
  | .deleteRelease id => s.goto i (s.db.releaseForEntry id) (.delete id)
  | .delete id =>
    match s.db.eraseTimeEntry id with
    | .error _ => s.finish i s.db
    | .ok db' => s.finish i db'

def step (s : CapSched) : CapEvent → Option CapSched
  | .start c => if c.initial then some { s with calls := s.calls ++ [c] } else none
  | .advance i => (s.calls[i]?).map (s.exec i)
  | .abort i => if i < s.calls.length then some (s.finish i s.db) else none

/-- No entries and no calls, and whatever timers are running. -/
def init (book : ContractBook) (dir : Directory) (timers : Table ActiveTimer.id) : CapSched :=
  ⟨{ book := book, dir := dir, balances := ∅, entries := ∅, timers := timers }, []⟩

/-- The row passes the check of the cap, made on the tables it is committed to. -/
def Admits (db : TimeDb) (e : TimeEntry) : Prop :=
  enforceDayCap (dayMinutesExcluding db.entries e.userId e.date (some e.id)) e.durationMinutes
    db.dir.maxMinutesPerDay = .ok ()

instance (db : TimeDb) (e : TimeEntry) : Decidable (Admits db e) :=
  inferInstanceAs (Decidable (_ = _))

/-- What a step writes passes the check on the tables it is committed to. -/
def Fits (s : CapSched) : CapEvent → Prop
  | .start _ | .abort _ => True
  | .advance i => ∀ c ∈ s.calls[i]?, ∀ e ∈ c.pending s.db, Admits s.db e

instance (s : CapSched) : ∀ e, Decidable (s.Fits e)
  | .start _ | .abort _ => isTrue trivial
  | .advance i => inferInstanceAs (Decidable (∀ c ∈ s.calls[i]?, ∀ e ∈ c.pending s.db, Admits s.db e))

end CapSched

/-! ### The minutes of a day -/

/-- The minutes of an entry that count for a day of a user. -/
def TimeEntry.minutesOn (userId : Uuid) (date : NaiveDate) (e : TimeEntry) : ℤ :=
  if e.userId = userId ∧ e.date = date then e.durationMinutes else 0

/-- The worked minutes of a user on a day. -/
def workedOn (entries : Table TimeEntry.id) (userId : Uuid) (date : NaiveDate) : ℤ :=
  entries.sum fun e => if e.userId = userId ∧ e.date = date then e.worked else 0

/-- The minutes that the check counts are those of the other rows. -/
theorem dayMinutesExcluding_eq (entries : Table TimeEntry.id) (userId : Uuid) (date : NaiveDate)
    (id : Uuid) : dayMinutesExcluding entries userId date (some id) =
      (entries.erase id).sum (TimeEntry.minutesOn userId date) := by
  rw [Table.erase, Table.sum_filter]
  apply Table.sum_congr
  intro e _
  unfold TimeEntry.minutesOn
  by_cases h : e.id = id
  · simp [h]
  · simp [h, Ne.symm h]

theorem enforceDayCap_eq_ok {existing newMinutes cap : ℤ} :
    enforceDayCap existing newMinutes cap = .ok () ↔ existing + newMinutes ≤ cap := by
  unfold enforceDayCap
  split
  · next h => simp [not_le.mpr h]
  · next h => simpa using h

/-- Every entry shows the minutes it was stored with, and no day holds more than the cap. -/
structure WithinCap (cap : ℤ) (entries : Table TimeEntry.id) : Prop where
  worked : ∀ e ∈ entries, e.worked = e.durationMinutes ∧ 0 ≤ e.durationMinutes
  day : ∀ userId date, entries.sum (TimeEntry.minutesOn userId date) ≤ cap

namespace WithinCap

variable {cap : ℤ} {entries : Table TimeEntry.id}

theorem workedOn_le (h : WithinCap cap entries) (userId : Uuid) (date : NaiveDate) :
    workedOn entries userId date ≤ cap := by
  have hsum : workedOn entries userId date = entries.sum (TimeEntry.minutesOn userId date) := by
    apply Table.sum_congr
    intro e he
    unfold TimeEntry.minutesOn
    rw [(h.worked e he).1]
  rw [hsum]
  exact h.day userId date

theorem minutesOn_nonneg {e : TimeEntry} (h : 0 ≤ e.durationMinutes) (userId : Uuid)
    (date : NaiveDate) : 0 ≤ e.minutesOn userId date := by
  unfold TimeEntry.minutesOn
  split
  · exact h
  · exact le_rfl

/-- A day without one entry holds no more than the day. -/
theorem erase_le (h : WithinCap cap entries) (id userId : Uuid) (date : NaiveDate) :
    (entries.erase id).sum (TimeEntry.minutesOn userId date) ≤
      entries.sum (TimeEntry.minutesOn userId date) := by
  rw [Table.erase, Table.sum_filter]
  apply Table.sum_le_sum
  intro e he
  split
  · exact le_rfl
  · exact minutesOn_nonneg (h.worked e he).2 userId date

theorem erase (h : WithinCap cap entries) (id : Uuid) : WithinCap cap (entries.erase id) where
  worked := fun e he => h.worked e (Table.mem_erase.mp he).1
  day := fun userId date => (h.erase_le id userId date).trans (h.day userId date)

/-- A row that passes the check fills its own day at most up to the cap. -/
theorem erase_add_le (h : WithinCap cap entries) {e : TimeEntry}
    (hc : enforceDayCap (dayMinutesExcluding entries e.userId e.date (some e.id))
      e.durationMinutes cap = .ok ()) (userId : Uuid) (date : NaiveDate) :
    (entries.erase e.id).sum (TimeEntry.minutesOn userId date) + e.minutesOn userId date ≤ cap := by
  rw [enforceDayCap_eq_ok, dayMinutesExcluding_eq] at hc
  unfold TimeEntry.minutesOn at hc ⊢
  split
  · next hd =>
    obtain ⟨rfl, rfl⟩ := hd
    exact hc
  · rw [add_zero]
    exact (h.erase_le e.id userId date).trans (h.day userId date)

theorem insert (h : WithinCap cap entries) {mk : Uuid → TimeEntry} (hk : ∀ i, (mk i).id = i)
    (hw : (mk entries.next).worked = (mk entries.next).durationMinutes ∧
      0 ≤ (mk entries.next).durationMinutes)
    (hc : enforceDayCap (dayMinutesExcluding entries (mk entries.next).userId
      (mk entries.next).date (some (mk entries.next).id)) (mk entries.next).durationMinutes cap =
        .ok ()) : WithinCap cap (entries.insert mk hk) where
  worked := by
    intro e he
    rcases (Table.mem_insert).mp he with he | rfl
    · exact h.worked e he
    · exact hw
  day := by
    intro userId date
    have hfresh : entries.find entries.next = none := by
      rw [Table.find_eq_none_iff]
      exact fun e he => (Table.key_lt_next he).ne
    have hle := h.erase_add_le hc userId date
    rw [hk, Table.erase_eq_self hfresh] at hle
    rw [Table.sum_insert]
    exact hle

theorem update (h : WithinCap cap entries) {e : TimeEntry} (he : e ∈ entries)
    {f : TimeEntry → TimeEntry} (hf : ∀ r, (f r).id = r.id)
    (hw : (f e).worked = (f e).durationMinutes ∧ 0 ≤ (f e).durationMinutes)
    (hc : enforceDayCap (dayMinutesExcluding entries (f e).userId (f e).date (some (f e).id))
      (f e).durationMinutes cap = .ok ()) : WithinCap cap (entries.update e.id f hf) where
  worked := by
    intro x hx
    rcases (Table.mem_update_of_mem he).mp hx with rfl | ⟨hx, -⟩
    · exact hw
    · exact h.worked x hx
  day := by
    intro userId date
    have hle := h.erase_add_le hc userId date
    have hsum := Table.sum_update (f := f) he (TimeEntry.minutesOn userId date)
    have hsplit := Table.sum_erase he (TimeEntry.minutesOn userId date)
    rw [hf] at hle
    omega

/-- A write that leaves the minutes and the day of the entry alone. -/
theorem restamp (h : WithinCap cap entries) {id : Uuid} {f : TimeEntry → TimeEntry}
    (hf : ∀ r, (f r).id = r.id)
    (hs : ∀ e, (f e).worked = e.worked ∧ (f e).durationMinutes = e.durationMinutes ∧
      (f e).userId = e.userId ∧ (f e).date = e.date) :
    WithinCap cap (entries.update id f hf) where
  worked := by
    intro x hx
    obtain ⟨e, he, rfl⟩ := (Table.mem_update).mp hx
    split
    · rw [(hs e).1, (hs e).2.1]
      exact h.worked e he
    · exact h.worked e he
  day := by
    intro userId date
    rw [Table.sum_update_congr]
    · exact h.day userId date
    · intro e _ _
      obtain ⟨-, h2, h3, h4⟩ := hs e
      simp only [TimeEntry.minutesOn, h2, h3, h4]

end WithinCap

/-! ### What the drafts know -/

theorem computeMinutes_nonneg {request : CreateTimeEntryRequest} {m : ℤ}
    (h : computeMinutes request = .ok m) : 0 ≤ m := by
  unfold computeMinutes at h
  split at h
  · next hm =>
    cases h
    exact zero_le_one.trans (request.worked_mem m hm).1
  · next hm =>
    cases h
    exact zero_le_one.trans (request.duration_mem m hm).1
  · split at h
    · exact absurd h (by simp)
    · next hneg =>
      cases h
      exact not_lt.mp hneg
  · exact absurd h (by simp)

theorem TimeDb.updatedMinutes_nonneg {current : TimeEntry} {request : UpdateTimeEntryRequest}
    {m : ℤ} (hc : 0 ≤ current.worked) (h : updatedMinutes current request = .ok m) : 0 ≤ m := by
  unfold updatedMinutes at h
  split at h
  · next hm =>
    cases h
    exact zero_le_one.trans (request.worked_mem m hm).1
  · next hm =>
    cases h
    exact zero_le_one.trans (request.duration_mem m hm).1
  · split at h
    · exact absurd h (by simp)
    · next hneg =>
      cases h
      exact not_lt.mp hneg
  · cases h
    exact hc

theorem TimeDb.draftTimeEntry_nonneg {db : TimeDb} {request : CreateTimeEntryRequest}
    {d : EntryDraft} (h : db.draftTimeEntry request = .ok d) : 0 ≤ d.worked := by
  unfold draftTimeEntry at h
  obtain ⟨_, -, h⟩ := bind_eq_ok.mp h
  obtain ⟨_, -, h⟩ := bind_eq_ok.mp h
  obtain ⟨_, -, h⟩ := bind_eq_ok.mp h
  obtain ⟨kind, -, h⟩ := bind_eq_ok.mp h
  obtain ⟨category, -, h⟩ := bind_eq_ok.mp h
  obtain ⟨worked, hw, h⟩ := bind_eq_ok.mp h
  obtain ⟨_, -, h⟩ := bind_eq_ok.mp h
  cases h
  exact computeMinutes_nonneg hw

theorem TimeDb.draftEdit_nonneg {db : TimeDb} {current : TimeEntry}
    {request : UpdateTimeEntryRequest} {d : EditDraft} (hc : 0 ≤ current.worked)
    (h : db.draftEdit current request = .ok d) : 0 ≤ d.worked := by
  unfold draftEdit at h
  obtain ⟨worked, hw, h⟩ := bind_eq_ok.mp h
  obtain ⟨_, -, h⟩ := bind_eq_ok.mp h
  obtain ⟨category, -, h⟩ := bind_eq_ok.mp h
  obtain ⟨kind, -, h⟩ := bind_eq_ok.mp h
  obtain ⟨_, -, h⟩ := bind_eq_ok.mp h
  cases h
  exact updatedMinutes_nonneg hc hw

/-- What an increment leaves over is at most the minutes. -/
theorem tmod_le_self {m inc : ℤ} (hm : 0 ≤ m) (hi : 0 < inc) : m.tmod inc ≤ m := by
  have hq : 0 ≤ inc * (m / inc) := mul_nonneg hi.le (Int.ediv_nonneg hm hi.le)
  rw [Int.tmod_eq_emod_of_nonneg hm]
  have := Int.mul_ediv_add_emod m inc
  omega

/-- Rounding never makes the minutes of a timer negative. -/
theorem applyRounding_nonneg {m : ℤ} (hm : 0 ≤ m) (rule : RoundingParams) :
    0 ≤ applyRounding m rule := by
  have hfloor : 0 ≤ max m rule.minimumMinutes := le_max_of_le_left hm
  unfold applyRounding
  simp only
  split
  · exact hfloor
  · next hinc =>
    have hi : 0 < rule.incrementMinutes := not_le.mp hinc
    have hdown := tmod_le_self hfloor hi
    split
    · exact hfloor
    · cases rule.method with
      | down => exact sub_nonneg.mpr hdown
      | up =>
          simp only
          omega
      | nearest =>
          simp only
          split <;> omega

theorem TimerDraft.Drafts.duration_nonneg {d : TimerDraft} {db : TimeDb} {timer : ActiveTimer}
    {now : ℤ} {today : NaiveDate} {defaults : WorkTypeDefaults}
    (h : d.Drafts db timer now today defaults) : 0 ≤ d.duration := by
  have hm : 0 ≤ timer.elapsed now := zero_le_one.trans (le_max_right _ _)
  rw [h.duration_eq]
  unfold Directory.round
  split
  · exact applyRounding_nonneg hm _
  · exact hm

/-! ### What a step preserves -/

/-- The minutes a call has read or worked out are not negative. -/
def CapCall.Sane : CapCall → Prop
  | inserting d => 0 ≤ d.worked
  | checking current _ => 0 ≤ current.worked
  | writing d => 0 ≤ d.worked
  | stopping d => 0 ≤ d.duration
  | create _ | update _ _ | stop _ _ _ _ | release _ | consume _ | deleteRelease _ | delete _ => True

theorem CapCall.sane_of_initial {c : CapCall} (h : c.initial = true) : c.Sane := by
  cases c <;> trivial

namespace CapSched

/-- The tables keep to the cap, and so does what the calls know. -/
structure Kept (book : ContractBook) (dir : Directory) (s : CapSched) : Prop where
  book_eq : s.db.book = book
  dir_eq : s.db.dir = dir
  within : WithinCap dir.maxMinutesPerDay s.db.entries
  sane : ∀ c ∈ s.calls, c.Sane

variable {book : ContractBook} {dir : Directory} {s s' : CapSched}

namespace Kept

theorem finish (h : Kept book dir s) (i : ℕ) {db : TimeDb} (hb : db.book = book)
    (hd : db.dir = dir) (hw : WithinCap dir.maxMinutesPerDay db.entries) :
    Kept book dir (s.finish i db) :=
  ⟨hb, hd, hw, fun c hc => h.sane c (List.mem_of_mem_eraseIdx hc)⟩

theorem goto (h : Kept book dir s) {i : ℕ} {c : CapCall} (hc : s.calls[i]? = some c) {db : TimeDb}
    {c' : CapCall} (hb : db.book = book) (hd : db.dir = dir)
    (hw : WithinCap dir.maxMinutesPerDay db.entries) (hs : c'.Sane) :
    Kept book dir (s.goto i db c') := by
  refine ⟨hb, hd, hw, fun x hx => ?_⟩
  rcases (mem_calls_set hc).mp hx with rfl | hx
  · exact hs
  · exact h.sane x (List.mem_of_mem_eraseIdx hx)

/-- A call that ends without a write. -/
theorem ended (h : Kept book dir s) (i : ℕ) : Kept book dir (s.finish i s.db) :=
  h.finish i h.book_eq h.dir_eq h.within

end Kept

theorem within_release {cap : ℤ} {db : TimeDb} (h : WithinCap cap db.entries) (id : Uuid) :
    WithinCap cap (db.releaseForEntry id).entries := by
  unfold TimeDb.releaseForEntry
  split
  · exact h
  · split
    · exact h
    · exact h.restamp (f := TimeEntry.unstamp) (fun _ => rfl) fun _ => ⟨rfl, rfl, rfl, rfl⟩

theorem frame_release (db : TimeDb) (id : Uuid) :
    (db.releaseForEntry id).book = db.book ∧ (db.releaseForEntry id).dir = db.dir := by
  unfold TimeDb.releaseForEntry
  split
  · exact ⟨rfl, rfl⟩
  · split <;> exact ⟨rfl, rfl⟩

theorem within_draw {cap : ℤ} {db db' : TimeDb} {id : Uuid} (h : WithinCap cap db.entries)
    (hd : db.Draws id db') : WithinCap cap db'.entries := by
  obtain ⟨-, e, item, b, -, hu⟩ := hd.entries
  rw [hu]
  exact h.restamp (f := fun e => e.stamp _) (fun _ => rfl) fun _ => ⟨rfl, rfl, rfl, rfl⟩

theorem frame_draw {db db' : TimeDb} {id : Uuid} (hd : db.Draws id db') :
    db'.book = db.book ∧ db'.dir = db.dir := by
  cases hd <;> exact ⟨rfl, rfl⟩

theorem exec_kept {i : ℕ} {c : CapCall} (h : Kept book dir s) (hc : s.calls[i]? = some c)
    (hf : ∀ e ∈ c.pending s.db, Admits s.db e) : Kept book dir (s.exec i c) := by
  have hsane := h.sane c (List.mem_of_getElem? hc)
  unfold Admits at hf
  rw [h.dir_eq] at hf
  cases c with
  | create request =>
      simp only [exec]
      split
      · exact h.ended i
      · next d hd =>
        exact h.goto hc h.book_eq h.dir_eq h.within (TimeDb.draftTimeEntry_nonneg hd)
  | inserting d =>
      exact h.goto hc h.book_eq h.dir_eq
        (h.within.insert (fun _ => rfl) ⟨rfl, hsane⟩ (hf _ rfl)) trivial
  | update id request =>
      simp only [exec]
      split
      · exact h.ended i
      · next current hr =>
        refine h.goto hc h.book_eq h.dir_eq h.within ?_
        obtain ⟨h1, h2⟩ := h.within.worked current (Table.find_mem (orError_eq_ok.mp hr))
        show 0 ≤ current.worked
        rw [h1]
        exact h2
  | checking current request =>
      simp only [exec]
      split
      · exact h.ended i
      · next d hd =>
        exact h.goto hc h.book_eq h.dir_eq h.within (TimeDb.draftEdit_nonneg hsane hd)
  | writing d =>
      simp only [exec, TimeDb.commitEdit]
      cases he : s.db.entries.find d.current.id with
      | none => exact h.ended i
      | some e =>
          have hfit := hf (d.edit e) (by simp [CapCall.pending, he])
          have hkey : e.id = d.current.id := Table.key_of_find he
          refine h.goto hc h.book_eq h.dir_eq ?_ trivial
          rw [← hkey]
          exact h.within.update (f := d.edit) (Table.find_mem he) (fun _ => rfl) ⟨rfl, hsane⟩ hfit
  | stop timerId userId now today =>
      simp only [exec]
      split
      · exact h.ended i
      · split
        · exact h.ended i
        · next d hd =>
          obtain ⟨defaults, hdraft⟩ := TimeDb.drafts_of_draftTimerEntry hd
          exact h.goto hc h.book_eq h.dir_eq h.within hdraft.duration_nonneg
  | stopping d =>
      exact h.goto hc h.book_eq h.dir_eq
        (h.within.insert (fun _ => rfl) ⟨rfl, hsane⟩ (hf _ rfl)) trivial
  | release id =>
      obtain ⟨h1, h2⟩ := frame_release s.db id
      exact h.goto hc (h1.trans h.book_eq) (h2.trans h.dir_eq) (within_release h.within id) trivial
  | consume id =>
      simp only [exec]
      split
      · exact h.ended i
      · next db' hr =>
        rcases TimeDb.consumeForEntry_eq_ok hr with ⟨rfl, -⟩ | hd
        · exact h.ended i
        · obtain ⟨h1, h2⟩ := frame_draw hd
          exact h.finish i (h1.trans h.book_eq) (h2.trans h.dir_eq) (within_draw h.within hd)
  | deleteRelease id =>
      obtain ⟨h1, h2⟩ := frame_release s.db id
      exact h.goto hc (h1.trans h.book_eq) (h2.trans h.dir_eq) (within_release h.within id) trivial
  | delete id =>
      simp only [exec, TimeDb.eraseTimeEntry]
      cases s.db.entries.find id with
      | none => exact h.ended i
      | some e => exact h.finish i h.book_eq h.dir_eq (h.within.erase id)

theorem step_kept {e : CapEvent} (h : Kept book dir s) (hf : s.Fits e) (hs : step s e = some s') :
    Kept book dir s' := by
  cases e with
  | start c =>
      simp only [step] at hs
      split at hs
      · next hi =>
        cases hs
        refine ⟨h.book_eq, h.dir_eq, h.within, fun x hx => ?_⟩
        rcases List.mem_append.mp hx with hx | hx
        · exact h.sane x hx
        · rw [List.mem_singleton.mp hx]
          exact CapCall.sane_of_initial hi
      · exact absurd hs (by simp)
  | advance i =>
      obtain ⟨c, hc, rfl⟩ := Option.map_eq_some_iff.mp hs
      exact exec_kept h hc (hf c hc)
  | abort i =>
      simp only [step] at hs
      split at hs
      · cases hs
        exact h.ended i
      · exact absurd hs (by simp)

theorem kept_init (book : ContractBook) (dir : Directory) (timers : Table ActiveTimer.id)
    (hcap : 0 ≤ dir.maxMinutesPerDay) : Kept book dir (init book dir timers) where
  book_eq := rfl
  dir_eq := rfl
  within := ⟨fun e he => absurd he (Table.not_mem_empty e), fun _ _ => hcap⟩
  sane := fun _ hc => absurd hc List.not_mem_nil

/-- The least cap there is: an hour a day. -/
def hourDir : Directory := { sampleDir with maxMinutesPerDay := 60 }

/-- Two requests for the same day, both checked before either is committed. -/
def twoCreates : List CapEvent :=
  [.start (.create (sampleRequest 40 (sampleDay 1 10))),
    .start (.create (sampleRequest 40 (sampleDay 1 10))),
    .advance 0, .advance 1, .advance 0, .advance 1]

/-- A timer that has run for two hours is stopped, with no other call in flight. -/
theorem stop_exceeds :
    ∃ s, run step (init ⟨∅, ∅⟩ hourDir sampleTimerDb.timers)
        [.start (.stop 0 1 7200 (sampleDay 1 10)), .advance 0, .advance 0] = some s ∧
      hourDir.maxMinutesPerDay < workedOn s.db.entries 1 (sampleDay 1 10) := by
  have h : (run step (init ⟨∅, ∅⟩ hourDir sampleTimerDb.timers)
      [.start (.stop 0 1 7200 (sampleDay 1 10)), .advance 0, .advance 0]).any (fun s =>
        decide (hourDir.maxMinutesPerDay < workedOn s.db.entries 1 (sampleDay 1 10))) = true := by
    decide +kernel
  obtain ⟨s, hs, hp⟩ := exists_run_of_any h
  exact ⟨s, hs, of_decide_eq_true hp⟩

/-- Forty minutes are typed in, a timer of twenty is stopped, and the first entry is saved again. -/
def fullHour : List CapEvent :=
  [.start (.create (sampleRequest 40 (sampleDay 1 10))), .advance 0, .advance 0, .advance 0,
    .start (.stop 0 1 1200 (sampleDay 1 10)), .advance 0, .advance 0, .advance 0,
    .start (.update 0 sampleEdit), .advance 0, .advance 0, .advance 0]

end CapSched

end Mokosh
