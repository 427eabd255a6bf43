import Mokosh.TimeTracking.Entry

/-! # Logging time

The operations of `time_tracking/service.rs` that write time entries.  Each is a sequence of
transactions with nothing held between them:

* `createTimeEntry`: insert the entry; draw its hours.
* `updateTimeEntry`: read the entry; write it; give back what it drew; draw again.
* `deleteTimeEntry`: give back what the entry drew; delete it.
* `stopTimer`: turn a running timer into an entry; draw its hours.

The transactions are functions of the tables (`insertTimeEntry`, `writeTimeEntry`,
`consumeForEntry`, `releaseForEntry`, `eraseTimeEntry`, `insertTimerEntry`), so that a schedule may
interleave them; an operation runs its own one after the other and keeps what it committed when a
later one fails. -/

namespace Mokosh

/-- The tables that logging time reads and writes. -/
structure TimeDb where
  book : ContractBook
  dir : Directory
  balances : Table HourBalance.id
  entries : Table TimeEntry.id
  timers : Table ActiveTimer.id

/-! ### Drawing and giving back -/

namespace TimeEntry

/-- The contract an entry draws on: nothing is drawn twice, nor for time that is not billable client
work, nor for no time at all. -/
def drawsOn (e : TimeEntry) : Option Uuid :=
  if e.hoursConsumed.isNone ∧ e.isBillable.getD false = true ∧ e.entryKind = .client ∧
      0 < hoursOf e.durationMinutes then e.contractId
  else none

/-- The stamp of a draw. -/
def stamp (e : TimeEntry) (o : ConsumeOutcome) : TimeEntry :=
  { e with
    hoursConsumed := some (.ofRat 2 o.hoursApplied)
    hoursBalanceId := some o.balanceId
    overageHours := if o.overageHours = 0 then none else some (.ofRat 2 o.overageHours)
    overageRate := if 0 < o.overageHours then o.overageRate else none
    billingStatus :=
      if 0 < o.overageHours ∨ e.billingStatus ≠ .readyToBill then e.billingStatus else .prepaid }

/-- The entry forgets what it drew. -/
def unstamp (e : TimeEntry) : TimeEntry :=
  { e with
    hoursConsumed := none
    hoursBalanceId := none
    overageHours := none
    overageRate := none
    billingStatus := if e.billingStatus = .prepaid then .readyToBill else e.billingStatus }

end TimeEntry

namespace TimeDb

/-- The end of a draw: the row of the period and the entry's stamp are written together. -/
def commitStamp (db : TimeDb) (id : Uuid) (r : ConsumeOutcome × Table HourBalance.id) : TimeDb :=
  { db with
    balances := r.2
    entries := db.entries.update id (·.stamp r.1) }

/-- `TimeTrackingService::consume_for_entry`. -/
def consumeForEntry (db : TimeDb) (id : Uuid) : AppResult TimeDb :=
  match db.entries.find id with
  | none => .ok db
  | some e =>
    match e.drawsOn with
    | none => .ok db
    | some contractId => do
      let r ← consumeHoursInTx db.book db.balances contractId (hoursOf e.durationMinutes) e.date
      .ok (db.commitStamp id r)

/-- The first half of `consume_for_entry`, up to the `SELECT … FOR UPDATE` of the balance row:
finished, or `none` when the period has no row yet and one has to be inserted. -/
def consumeBegin (db : TimeDb) (id : Uuid) : AppResult (Option TimeDb) :=
  match db.entries.find id with
  | none => .ok (some db)
  | some e =>
    match e.drawsOn with
    | none => .ok (some db)
    | some contractId => do
      let (item, k) ← drawTarget db.book contractId e.date
      match findBalance db.balances k with
      | some b => .ok (some (db.commitStamp id (draw db.balances item b (hoursOf e.durationMinutes))))
      | none => .ok none

/-- The second half of `consume_for_entry` when the period had no row. -/
def consumeSeed (db : TimeDb) (id : Uuid) : AppResult TimeDb :=
  match db.entries.find id with
  | none => .ok db
  | some e =>
    match e.drawsOn with
    | none => .ok db
    | some contractId => do
      let (item, k) ← drawTarget db.book contractId e.date
      let r ← seedAndDraw db.balances item k (hoursOf e.durationMinutes)
      .ok (db.commitStamp id r)

/-- A draw goes on with its second half if the first did not finish it. -/
def consumeResume (db : TimeDb) (id : Uuid) : Option TimeDb → AppResult TimeDb
  | some db' => .ok db'
  | none => db.consumeSeed id

/-- A draw that is not interrupted is its two halves one after the other. -/
theorem consumeForEntry_eq (db : TimeDb) (id : Uuid) :
    db.consumeForEntry id = db.consumeBegin id >>= db.consumeResume id := by
  unfold consumeForEntry consumeBegin consumeResume consumeSeed
  cases db.entries.find id with
  | none => rfl
  | some e =>
      simp only
      cases h : e.drawsOn with
      | none => rfl
      | some contractId =>
          have hpos : ¬ hoursOf e.durationMinutes < 0 := by
            unfold TimeEntry.drawsOn at h
            split at h
            · next hd => exact not_lt.mpr hd.2.2.2.le
            · exact absurd h (by simp)
          simp only [consumeHoursInTx, if_neg hpos]
          cases ht : drawTarget db.book contractId e.date with
          | error err => rfl
          | ok target =>
              cases hb : findBalance db.balances target.2 with
              | none => simp [bind, Except.bind, hb]
              | some b => simp [bind, Except.bind, hb]

/-- `TimeTrackingService::release_for_entry`. -/
def releaseForEntry (db : TimeDb) (id : Uuid) : TimeDb :=
  match db.entries.find id with
  | none => db
  | some e =>
    match e.hoursConsumed with
    | none => db
    | some applied =>
      { db with
        entries := db.entries.update id (·.unstamp)
        balances :=
          match e.hoursBalanceId with
          | none => db.balances
          | some balanceId => releaseHoursInTx db.balances balanceId applied.toRat }

/-! ### Writing the entry -/

/-- The row a create request inserts. -/
def newEntry (request : CreateTimeEntryRequest) (kind : ResolvedKind) (category : WorkCategory)
    (worked billable : ℤ) (billing : Option ℚ × Option ℚ) (contractId : Option Uuid) (id : Uuid) :
    TimeEntry :=
  { id := id
    userId := request.userId
    date := request.date
    startTime := request.startTime
    endTime := request.endTime
    durationMinutes := worked
    workedMinutes := some worked
    billableMinutes := some billable
    workTypeId := request.workTypeId
    ticketId := request.ticketId
    projectId := request.projectId
    taskId := request.taskId
    companyId := request.companyId
    contractId := contractId
    isBillable := some kind.billable
    hourlyRate := billing.1.map (.ofRat 2)
    totalAmount := billing.2.map (.ofRat 2)
    entryKind := kind.kind
    workCategory := some category
    billingStatus := resolveBillingStatus kind.billable none
    invoiceId := none
    hoursConsumed := none
    hoursBalanceId := none
    overageHours := none
    overageRate := none }

/-- The first transaction of `create_time_entry`: the new id and the tables after it. -/
def insertTimeEntry (db : TimeDb) (request : CreateTimeEntryRequest) :
    AppResult (Uuid × TimeDb) := do
  let defaults ← fetchWorkTypeDefaults db.dir request.workTypeId
  assertCompanyInTenant db.dir request.companyId
  assertTicketInTenant db.dir request.ticketId
  let kind ← resolveEntryKind
    { requested := request.entryKind
      companyId := request.companyId
      ownCompanyId := db.dir.ownCompanyId
      ticketId := request.ticketId
      projectId := request.projectId
      taskId := request.taskId
      contractId := none
      isBillable := request.isBillable }
  let category ← deriveWorkCategory request.workCategory request.ticketId request.projectId
  let worked ← computeMinutes request
  let billable :=
    if kind.billable then
      request.billableMinutes.getD (deriveBillableMinutes worked true db.dir.roundingRule)
    else 0
  enforceDayCap (dayMinutesExcluding db.entries request.userId request.date none) worked
    db.dir.maxMinutesPerDay
  let billing := resolveBilling request.hourlyRate kind.billable defaults billable
  let contractId :=
    blockHoursContractFor db.book request.companyId request.date kind.kind kind.billable
  .ok (db.entries.next,
    { db with
      entries := db.entries.insert (newEntry request kind category worked billable billing contractId) })

/-- `get_time_entry`, as far as an update uses it. -/
def getTimeEntry (db : TimeDb) (id : Uuid) : AppResult TimeEntry :=
  orError (.notFound "Time entry") (db.entries.find id)

/-- The worked minutes after an update: explicit, then the duration, then start and end, then what
the entry had. -/
def updatedMinutes (current : TimeEntry) (request : UpdateTimeEntryRequest) : AppResult ℤ :=
  match request.workedMinutes, request.durationMinutes, request.startTime.or current.startTime,
      request.endTime.or current.endTime with
  | some w, _, _, _ => .ok w
  | none, some d, _, _ => .ok d
  | none, none, some s, some e =>
    if numMinutes (e - s) < 0 then .error (.badRequest "end_time must be after start_time")
    else .ok (numMinutes (e - s))
  | none, none, _, _ => .ok (current.workedMinutes.getD current.durationMinutes)

/-- The row after the `UPDATE` of `update_time_entry`. -/
def editEntry (current : TimeEntry) (request : UpdateTimeEntryRequest) (kind : ResolvedKind)
    (category : WorkCategory) (worked billable : ℤ) (contractId : Option Uuid) (e : TimeEntry) :
    TimeEntry :=
  let hourlyRate := request.hourlyRate.or (current.hourlyRate.map Numeric.toRat)
  { e with
    date := request.date.getD e.date
    startTime := request.startTime.or current.startTime
    endTime := request.endTime.or current.endTime
    durationMinutes := worked
    workedMinutes := some worked
    billableMinutes := some billable
    workTypeId := request.workTypeId.getD e.workTypeId
    ticketId := request.ticketId
    projectId := request.projectId
    isBillable := some kind.billable
    hourlyRate := hourlyRate.map (.ofRat 2)
    totalAmount :=
      if kind.billable then hourlyRate.map fun r => .ofRat 2 (amountOf r billable) else none
    taskId := request.taskId.or e.taskId
    workCategory := some category
    billingStatus := resolveBillingStatus kind.billable (some current.billingStatus)
    contractId := contractId }

/-- The `UPDATE` transaction of `update_time_entry`, from the entry as it was read before. -/
def writeTimeEntry (db : TimeDb) (current : TimeEntry) (request : UpdateTimeEntryRequest) :
    AppResult TimeDb := do
  let worked ← updatedMinutes current request
  assertTicketInTenant db.dir request.ticketId
  let category ← deriveWorkCategory request.workCategory request.ticketId request.projectId
  let kind ← resolveEntryKind
    { requested := some (match current.entryKind with
        | .client => "client"
        | .employee => "employee")
      companyId := current.companyId
      ownCompanyId := none
      ticketId := request.ticketId
      projectId := request.projectId
      taskId := request.taskId
      contractId := none
      isBillable := request.isBillable.getD (current.isBillable.getD true) }
  let billable :=
    if kind.billable then
      (request.billableMinutes.or current.billableMinutes).getD
        (deriveBillableMinutes worked true db.dir.roundingRule)
    else 0
  let targetDate := request.date.getD current.date
  enforceDayCap (dayMinutesExcluding db.entries current.userId targetDate (some current.id)) worked
    db.dir.maxMinutesPerDay
  let contractId :=
    blockHoursContractFor db.book current.companyId targetDate kind.kind kind.billable
  match db.entries.find current.id with
  | none => .error (.notFound "Time entry")
  | some _ =>
    .ok { db with
      entries := db.entries.update current.id
        (editEntry current request kind category worked billable contractId) }

/-- The `DELETE` transaction of `delete_time_entry`. -/
def eraseTimeEntry (db : TimeDb) (id : Uuid) : AppResult TimeDb :=
  match db.entries.find id with
  | none => .error (.notFound "Time entry")
  | some _ => .ok { db with entries := db.entries.erase id }

/-- The row a stopped timer inserts: its duration is rounded, and worked and billable minutes are
left NULL. -/
def timerEntry (timer : ActiveTimer) (now : ℤ) (today : NaiveDate) (workTypeId : Uuid)
    (companyId : Option Uuid) (kind : ResolvedKind) (duration : ℤ)
    (billing : Option ℚ × Option ℚ) (contractId : Option Uuid) (id : Uuid) : TimeEntry :=
  { id := id
    userId := timer.userId
    date := today
    startTime := some (timer.startedAt % 86400)
    endTime := some (now % 86400)
    durationMinutes := duration
    workedMinutes := none
    billableMinutes := none
    workTypeId := workTypeId
    ticketId := timer.ticketId
    projectId := timer.projectId
    taskId := none
    companyId := companyId
    contractId := contractId
    isBillable := some kind.billable
    hourlyRate := billing.1.map (.ofRat 2)
    totalAmount := billing.2.map (.ofRat 2)
    entryKind := kind.kind
    workCategory := some .ticketed
    billingStatus := resolveBillingStatus kind.billable none
    invoiceId := none
    hoursConsumed := none
    hoursBalanceId := none
    overageHours := none
    overageRate := none }

/-- The work type of a timer, or the first active one. -/
def timerWorkType (dir : Directory) (timer : ActiveTimer) : AppResult Uuid :=
  match timer.workTypeId with
  | some id => .ok id
  | none =>
    match firstBy (fun w v => decide (w.sortOrder < v.sortOrder))
      (dir.workTypes.filter (·.isActive)) with
    | some w => .ok w.id
    | none => .error (.configuration
        "Cannot stop timer: tenant has no active work_types and timer set none")

/-- The company of a timer, or that of its ticket. -/
def timerCompany (dir : Directory) (timer : ActiveTimer) : Option Uuid :=
  timer.companyId.or (timer.ticketId.bind fun id =>
    (dir.tickets.find? fun t => decide (t.id = id)).map Ticket.companyId)

/-- The first transaction of `stop_timer`.  `now` is the clock in seconds and `today` the day it is
where the timer's owner is. -/
def insertTimerEntry (db : TimeDb) (timerId userId : Uuid) (now : ℤ) (today : NaiveDate) :
    AppResult (Uuid × TimeDb) := do
  let timer ← orError (.notFound "Active timer")
    ((db.timers.find timerId).filter fun t => decide (t.userId = userId))
  let raw := max (numMinutes (now - timer.startedAt)) 1
  let workTypeId ← timerWorkType db.dir timer
  let companyId := timerCompany db.dir timer
  let defaults ← fetchWorkTypeDefaults db.dir workTypeId
  let kind ← resolveEntryKind
    { requested := none
      companyId := companyId
      ownCompanyId := db.dir.ownCompanyId
      ticketId := timer.ticketId
      projectId := timer.projectId
      taskId := none
      contractId := none
      isBillable := defaults.defaultBillable }
  let duration := match db.dir.roundingRule with
    | some rule => applyRounding raw rule
    | none => raw
  let billing := resolveBilling none kind.billable defaults duration
  let contractId := blockHoursContractFor db.book companyId today kind.kind kind.billable
  .ok (db.entries.next,
    { db with
      entries := db.entries.insert
        (timerEntry timer now today workTypeId companyId kind duration billing contractId)
      timers := db.timers.erase timerId })

/-! ### The operations -/

/-- Go on from a committed state with a transaction that may fail; what was committed stays. -/
def andThen {α : Type} (db : TimeDb) (a : α) : AppResult TimeDb → TimeDb × AppResult α
  | .ok db' => (db', .ok a)
  | .error e => (db, .error e)

/-- `TimeTrackingService::create_time_entry`. -/
def createTimeEntry (db : TimeDb) (request : CreateTimeEntryRequest) : TimeDb × AppResult Uuid :=
  match db.insertTimeEntry request with
  | .error e => (db, .error e)
  | .ok (id, db') => db'.andThen id (db'.consumeForEntry id)

/-- `TimeTrackingService::update_time_entry`. -/
def updateTimeEntry (db : TimeDb) (id : Uuid) (request : UpdateTimeEntryRequest) :
    TimeDb × AppResult Uuid :=
  match db.getTimeEntry id with
  | .error e => (db, .error e)
  | .ok current =>
    match db.writeTimeEntry current request with
    | .error e => (db, .error e)
    | .ok db' =>
      let db'' := db'.releaseForEntry id
      db''.andThen id (db''.consumeForEntry id)

/-- `TimeTrackingService::delete_time_entry`. -/
def deleteTimeEntry (db : TimeDb) (id : Uuid) : TimeDb × AppResult Unit :=
  let db' := db.releaseForEntry id
  db'.andThen () (db'.eraseTimeEntry id)

/-- `TimeTrackingService::stop_timer`. -/
def stopTimer (db : TimeDb) (timerId userId : Uuid) (now : ℤ) (today : NaiveDate) :
    TimeDb × AppResult Uuid :=
  match db.insertTimerEntry timerId userId now today with
  | .error e => (db, .error e)
  | .ok (id, db') => db'.andThen id (db'.consumeForEntry id)

end TimeDb

/-! ### What an insert and an edit write -/

/-- The contract an entry is attributed to has a block of hours and covers the entry's day. -/
theorem blockHoursContractFor_eq_some {book : ContractBook} {companyId : Option Uuid}
    {date : NaiveDate} {kind : EntryKind} {billable : Bool} {contractId : Uuid}
    (h : blockHoursContractFor book companyId date kind billable = some contractId) :
    kind = .client ∧ billable = true ∧
      ∃ item, fetchBlockItem book contractId = some item ∧ item.covers date := by
  unfold blockHoursContractFor at h
  split at h
  · exact absurd h (by simp)
  · next hk =>
    obtain ⟨company, -, h⟩ := Option.bind_eq_some_iff.mp h
    obtain ⟨c, hc, h⟩ := Option.bind_eq_some_iff.mp h
    cases h
    obtain ⟨hm, hw⟩ := List.mem_filter.mp (firstBy_mem hc)
    simp only [coversWork, Bool.and_eq_true, decide_eq_true_eq, List.any_eq_true] at hw
    obtain ⟨⟨⟨-, -, hstart⟩, hstop⟩, i, hi, hic⟩ := hw
    obtain ⟨item, hf, h1, h2⟩ := exists_fetchBlockItem (Table.find_key hm) hi hic
    simp only [not_or, Bool.not_eq_false, not_not] at hk
    refine ⟨hk.1, hk.2, item, hf, h1 ▸ hstart, ?_⟩
    intro stop he
    rw [h2] at he
    simpa [he] using hstop

theorem TimeDb.insertTimeEntry_eq_ok {db db' : TimeDb} {request : CreateTimeEntryRequest}
    {id : Uuid} (h : db.insertTimeEntry request = .ok (id, db')) :
    ∃ kind category worked billable billing, computeMinutes request = .ok worked ∧
      id = db.entries.next ∧
      db' = { db with
        entries := db.entries.insert (newEntry request kind category worked billable billing
          (blockHoursContractFor db.book request.companyId request.date kind.kind
            kind.billable)) } := by
  unfold insertTimeEntry at h
  obtain ⟨_, -, h⟩ := bind_eq_ok.mp h
  obtain ⟨_, -, h⟩ := bind_eq_ok.mp h
  obtain ⟨_, -, h⟩ := bind_eq_ok.mp h
  obtain ⟨kind, -, h⟩ := bind_eq_ok.mp h
  obtain ⟨category, -, h⟩ := bind_eq_ok.mp h
  obtain ⟨worked, hw, h⟩ := bind_eq_ok.mp h
  obtain ⟨_, -, h⟩ := bind_eq_ok.mp h
  cases h
  exact ⟨kind, category, worked, _, _, hw, rfl, rfl⟩

theorem TimeDb.writeTimeEntry_eq_ok {db db' : TimeDb} {current : TimeEntry}
    {request : UpdateTimeEntryRequest} (h : db.writeTimeEntry current request = .ok db') :
    ∃ kind category worked billable contractId, db' = { db with
      entries := db.entries.update current.id
        (editEntry current request kind category worked billable contractId) } := by
  unfold writeTimeEntry at h
  obtain ⟨worked, -, h⟩ := bind_eq_ok.mp h
  obtain ⟨_, -, h⟩ := bind_eq_ok.mp h
  obtain ⟨category, -, h⟩ := bind_eq_ok.mp h
  obtain ⟨kind, -, h⟩ := bind_eq_ok.mp h
  obtain ⟨_, -, h⟩ := bind_eq_ok.mp h
  split at h
  · exact absurd h (by simp)
  · cases h
    exact ⟨kind, category, worked, _, _, rfl⟩

theorem TimeDb.insertTimerEntry_eq_ok {db db' : TimeDb} {timerId userId id : Uuid} {now : ℤ}
    {today : NaiveDate} (h : db.insertTimerEntry timerId userId now today = .ok (id, db')) :
    ∃ timer workTypeId companyId kind duration billing contractId, id = db.entries.next ∧
      db' = { db with
        entries := db.entries.insert
          (timerEntry timer now today workTypeId companyId kind duration billing contractId)
        timers := db.timers.erase timerId } := by
  unfold insertTimerEntry at h
  obtain ⟨timer, -, h⟩ := bind_eq_ok.mp h
  obtain ⟨workTypeId, -, h⟩ := bind_eq_ok.mp h
  obtain ⟨_, -, h⟩ := bind_eq_ok.mp h
  obtain ⟨kind, -, h⟩ := bind_eq_ok.mp h
  cases h
  exact ⟨timer, workTypeId, _, kind, _, _, _, rfl, rfl⟩

/-! ### What a draw writes -/

namespace TimeEntry

theorem drawsOn_eq_some {e : TimeEntry} {contractId : Uuid} :
    e.drawsOn = some contractId ↔
      e.hoursConsumed = none ∧ e.isBillable = some true ∧ e.entryKind = .client ∧
        0 < e.durationMinutes ∧ e.contractId = some contractId := by
  have h : 0 < hoursOf e.durationMinutes ↔ 0 < e.durationMinutes := by
    unfold hoursOf
    constructor
    · intro h
      have h1 : (0 : ℚ) < e.durationMinutes := by linarith
      exact_mod_cast h1
    · intro h
      positivity
  unfold drawsOn
  constructor
  · intro hd
    split at hd
    · next hc =>
      refine ⟨Option.isNone_iff_eq_none.mp hc.1, ?_, hc.2.2.1, h.mp hc.2.2.2, hd⟩
      cases hb : e.isBillable with
      | none => simp [hb] at hc
      | some b => simpa [hb] using hc.2.1
    · exact absurd hd (by simp)
  · rintro ⟨h1, h2, h3, h4, h5⟩
    rw [if_pos ⟨by simp [h1], by simp [h2], h3, h.mpr h4⟩, h5]

section Stamp

variable (e : TimeEntry) (item : BlockItemRow) (b : HourBalance)

/-- The entry after a draw from the row `b`. -/
def drawn : TimeEntry := e.stamp (drawOutcome item b (hoursOf e.durationMinutes))

theorem drawn_hoursConsumed :
    (e.drawn item b).hoursConsumed = some ⟨b.drawnCents e.durationMinutes⟩ := by
  rw [← b.ofRat_applied]
  rfl

theorem drawn_overageHours :
    (e.drawn item b).overageHours =
      if hoursOf e.durationMinutes - b.applied (hoursOf e.durationMinutes) = 0 then none
      else some ⟨centsOf e.durationMinutes - b.drawnCents e.durationMinutes⟩ := by
  rw [← b.ofRat_overage]
  rfl

/-- A draw records a positive overage exactly when the rounded minutes exceed what remains. -/
theorem drawn_overage_pos_iff :
    (∃ o, (e.drawn item b).overageHours = some o ∧ 0 < o) ↔
      b.drawnCents e.durationMinutes < centsOf e.durationMinutes := by
  rw [drawn_overageHours]
  constructor
  · rintro ⟨o, ho, hpos⟩
    split at ho
    · exact absurd ho (by simp)
    · rw [Option.some.injEq] at ho
      subst ho
      rw [Numeric.lt_iff_unscaled] at hpos
      simp only [Numeric.zero_unscaled] at hpos
      omega
  · intro h
    have h1 : ¬ hoursOf e.durationMinutes - b.applied (hoursOf e.durationMinutes) = 0 := by
      intro h0
      rcases b.applied_cases e.durationMinutes with ⟨-, -, hc⟩ | ⟨ha, hlt, -⟩
      · omega
      · rw [ha, ← b.max_remaining_toRat] at h0
        linarith
    refine ⟨_, if_neg h1, ?_⟩
    rw [Numeric.lt_iff_unscaled]
    simp only [Numeric.zero_unscaled]
    omega

end Stamp

/-- The hours of the entry are drawn, or recorded as overage, to the last hundredth. -/
def Accounted (e : TimeEntry) : Prop :=
  ∃ applied, e.hoursConsumed = some applied ∧
    applied.unscaled + (e.overageHours.getD 0).unscaled = centsOf e.durationMinutes

theorem drawn_accounted (e : TimeEntry) (item : BlockItemRow) (b : HourBalance) :
    (e.drawn item b).Accounted := by
  refine ⟨_, e.drawn_hoursConsumed item b, ?_⟩
  rw [drawn_overageHours]
  show _ = centsOf e.durationMinutes
  split
  · next h0 =>
    -- Nothing is left over, so the row covered all of it.
    rcases b.applied_cases e.durationMinutes with ⟨-, -, hc⟩ | ⟨ha, hlt, -⟩
    · simp [hc]
    · rw [ha, ← b.max_remaining_toRat] at h0
      linarith
  · simp

end TimeEntry

namespace TimeDb

/-- The entry `id` of `db` draws its hours, from the row of its period or from a new one. -/
inductive Draws (db : TimeDb) (id : Uuid) : TimeDb → Prop where
  | existing {e : TimeEntry} {contractId : Uuid} {item : BlockItemRow} {b : HourBalance}
      (he : db.entries.find id = some e) (hd : e.drawsOn = some contractId)
      (hi : fetchBlockItem db.book contractId = some item) (hc : item.covers e.date)
      (hb : findBalance db.balances (balanceKey contractId item e.date) = some b) :
      Draws db id (db.commitStamp id (drawOutcome item b (hoursOf e.durationMinutes),
        db.balances.update b.id (·.afterDraw e.durationMinutes)))
  | fresh {e : TimeEntry} {contractId : Uuid} {item : BlockItemRow}
      (he : db.entries.find id = some e) (hd : e.drawsOn = some contractId)
      (hi : fetchBlockItem db.book contractId = some item) (hc : item.covers e.date)
      (hb : findBalance db.balances (balanceKey contractId item e.date) = none) :
      Draws db id (db.commitStamp id
        (drawOutcome item (newBalance (balanceKey contractId item e.date) item.included 0
            db.balances.next) (hoursOf e.durationMinutes),
          db.balances.insert fun i =>
            (newBalance (balanceKey contractId item e.date) item.included 0 i).afterDraw
              e.durationMinutes))

/-- A draw stamps the entry with what the row of its period gave, and writes no other entry. -/
theorem Draws.entries {db db' : TimeDb} {id : Uuid} (h : db.Draws id db') :
    db'.book = db.book ∧ ∃ e item b, db.entries.find id = some e ∧
      db'.entries = db.entries.update id
        (·.stamp (drawOutcome item b (hoursOf e.durationMinutes))) := by
  cases h with
  | existing he => exact ⟨rfl, _, _, _, he, rfl⟩
  | fresh he => exact ⟨rfl, _, _, _, he, rfl⟩

/-- The entry `id` of `db` has nothing to draw. -/
def NothingToDraw (db : TimeDb) (id : Uuid) : Prop :=
  ∀ e, db.entries.find id = some e → e.drawsOn = none

variable {db db' : TimeDb} {id : Uuid}

theorem nothingToDraw_or (db : TimeDb) (id : Uuid) :
    db.NothingToDraw id ∨
      ∃ e contractId, db.entries.find id = some e ∧ e.drawsOn = some contractId := by
  cases he : db.entries.find id with
  | none => exact .inl fun e h => absurd h (by simp [he])
  | some e =>
      cases hd : e.drawsOn with
      | none =>
          refine .inl fun e' h => ?_
          rw [he, Option.some.injEq] at h
          rwa [← h]
      | some contractId => exact .inr ⟨e, contractId, rfl, hd⟩

theorem NothingToDraw.consume (h : db.NothingToDraw id) :
    db.consumeBegin id = .ok (some db) ∧ db.consumeSeed id = .ok db := by
  unfold consumeBegin consumeSeed
  cases he : db.entries.find id with
  | none => exact ⟨rfl, rfl⟩
  | some e => simp [h e he]

theorem consumeBegin_eq_some (h : db.consumeBegin id = .ok (some db')) :
    db' = db ∧ db.NothingToDraw id ∨ db.Draws id db' := by
  rcases db.nothingToDraw_or id with hn | ⟨e, contractId, he, hd⟩
  · rw [hn.consume.1] at h
    cases h
    exact .inl ⟨rfl, hn⟩
  · simp only [consumeBegin, he, hd] at h
    obtain ⟨⟨item, k⟩, ht, h⟩ := bind_eq_ok.mp h
    obtain ⟨hi, hc, rfl⟩ := drawTarget_eq_ok.mp ht
    simp only at h
    split at h
    · next b hb =>
      cases h
      have h1 := draw_snd item (findBalance_eq_some hb).1 e.durationMinutes
      have h2 := Draws.existing he hd hi hc hb
      rw [← h1] at h2
      exact .inr h2
    · exact absurd h (by simp)

theorem consumeSeed_eq_ok (h : db.consumeSeed id = .ok db') :
    db' = db ∧ db.NothingToDraw id ∨ db.Draws id db' := by
  rcases db.nothingToDraw_or id with hn | ⟨e, contractId, he, hd⟩
  · rw [hn.consume.2] at h
    cases h
    exact .inl ⟨rfl, hn⟩
  · simp only [consumeSeed, he, hd] at h
    obtain ⟨⟨item, k⟩, ht, h⟩ := bind_eq_ok.mp h
    obtain ⟨hi, hc, rfl⟩ := drawTarget_eq_ok.mp ht
    obtain ⟨⟨o, t⟩, hs, h⟩ := bind_eq_ok.mp h
    obtain ⟨hb, rfl, rfl⟩ := seedAndDraw_eq_ok hs
    cases h
    exact .inr (.fresh he hd hi hc hb)

/-- The insert of a period's row goes through if the period still has none. -/
theorem exists_consumeSeed {e : TimeEntry} {contractId : Uuid} {item : BlockItemRow}
    (he : db.entries.find id = some e) (hd : e.drawsOn = some contractId)
    (hi : fetchBlockItem db.book contractId = some item) (hc : item.covers e.date)
    (hb : findBalance db.balances (balanceKey contractId item e.date) = none) :
    ∃ db', db.consumeSeed id = .ok db' := by
  have ht : drawTarget db.book contractId e.date =
      .ok (item, balanceKey contractId item e.date) := drawTarget_eq_ok.mpr ⟨hi, hc, rfl⟩
  exact ⟨_, by simp [consumeSeed, seedAndDraw, he, hd, ht, hb, bind, Except.bind]; rfl⟩

/-- A draw that is not interrupted goes through for every date its contract covers. -/
theorem exists_consumeForEntry {e : TimeEntry} {contractId : Uuid} {item : BlockItemRow}
    (he : db.entries.find id = some e) (hd : e.drawsOn = some contractId)
    (hi : fetchBlockItem db.book contractId = some item) (hc : item.covers e.date) :
    ∃ db', db.consumeForEntry id = .ok db' := by
  have ht : drawTarget db.book contractId e.date =
      .ok (item, balanceKey contractId item e.date) := drawTarget_eq_ok.mpr ⟨hi, hc, rfl⟩
  rw [consumeForEntry_eq]
  cases hb : findBalance db.balances (balanceKey contractId item e.date) with
  | some b =>
      exact ⟨_, by simp [consumeBegin, consumeResume, he, hd, ht, hb, bind, Except.bind]; rfl⟩
  | none =>
      obtain ⟨db', h⟩ := exists_consumeSeed he hd hi hc hb
      exact ⟨db', by simp [consumeBegin, consumeResume, he, hd, ht, hb, h, bind, Except.bind]⟩

theorem consumeForEntry_eq_ok (h : db.consumeForEntry id = .ok db') :
    db' = db ∧ db.NothingToDraw id ∨ db.Draws id db' := by
  rw [consumeForEntry_eq] at h
  obtain ⟨r, hr, h⟩ := bind_eq_ok.mp h
  cases r with
  | some db1 =>
      cases h
      exact consumeBegin_eq_some hr
  | none => exact consumeSeed_eq_ok h

end TimeDb

/-! ### A small tenant -/

/-- One company with one rate and no rounding. -/
def sampleDir : Directory where
  workTypes := [⟨1, some true, some ⟨10000⟩, true, 0⟩]
  tickets := []
  projects := []
  companies := [7]
  ownCompanyId := none
  roundingRule := none
  maxMinutesPerDay := 1440

def sampleTimeDb (book : ContractBook) : TimeDb where
  book := book
  dir := sampleDir
  balances := ∅
  entries := ∅
  timers := ∅

/-- A request to log `m` minutes of client work on a day, within the bounds of the validator. -/
def sampleRequest (m : ℤ) (day : NaiveDate) : CreateTimeEntryRequest where
  userId := 1
  date := day
  workedMinutes := some (max 1 (min m 1440))
  workTypeId := 1
  companyId := some 7
  worked_mem := by
    intro x hx
    cases hx
    omega

/-- A request to save an entry as it is. -/
def sampleEdit : UpdateTimeEntryRequest := {}

end Mokosh
