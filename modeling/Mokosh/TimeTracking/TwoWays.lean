import Mokosh.TimeTracking.Timers

/-! # Two ways to log the same time

`stop_timer` and `create_time_entry` both turn `m` minutes of work into a row of `time_entries` and
draw its hours.  `typeIn` is what `create_time_entry` does with the data of a running timer and the
minutes the timer has run; the two are compared by the row they leave behind (`Figures`).

The figures are taken as every reader of the table takes them: `worked_minutes` falls back to
`duration_minutes`, and `billable_minutes` to the worked minutes of a billable entry.

* A manual entry stores the minutes as they were worked, and rounding derives only the billable
  figure.  `stop_timer` rounds the duration itself, stores it and draws the rounded hours.
* A manual entry is held against the day's cap, a stopped timer is not.

**`stop_agrees_iff`**: the two leave the same figures exactly when rounding does not change `m` and
the day still has room for `m` minutes.  The columns themselves are never the same: a stopped timer
leaves `worked_minutes` and `billable_minutes` empty. -/

namespace Mokosh

/-! ### What is read of an entry -/

namespace TimeEntry

/-- The worked minutes, as `get_time_entry` and the reports read them. -/
def worked (e : TimeEntry) : ℤ := e.workedMinutes.getD e.durationMinutes

/-- The billable minutes, as the timesheets sum them. -/
def billed (e : TimeEntry) : ℤ :=
  e.billableMinutes.getD (if e.isBillable.getD false then e.worked else 0)

/-- What the two ways are compared by. -/
structure Figures where
  worked : ℤ
  billed : ℤ
  total : Option (Numeric 2)
  drawn : Option (Numeric 2)
  overage : Option (Numeric 2)
  drawnFrom : Option Uuid
deriving DecidableEq, Repr

def figures (e : TimeEntry) : Figures :=
  { worked := e.worked
    billed := e.billed
    total := e.totalAmount
    drawn := e.hoursConsumed
    overage := e.overageHours
    drawnFrom := e.hoursBalanceId }

/-- The entry after its draw has been tried; a draw that fails leaves it as it was. -/
def settle (e : TimeEntry) (book : ContractBook) (balances : Table HourBalance.id) : TimeEntry :=
  match e.drawsOn with
  | none => e
  | some contractId =>
    match consumeHoursInTx book balances contractId (hoursOf e.durationMinutes) e.date with
    | .error _ => e
    | .ok r => e.stamp r.1

/-- A draw writes neither column. -/
theorem columns_settle (e : TimeEntry) (book : ContractBook) (balances : Table HourBalance.id) :
    (e.settle book balances).workedMinutes = e.workedMinutes ∧
      (e.settle book balances).billableMinutes = e.billableMinutes := by
  unfold settle
  split
  · exact ⟨rfl, rfl⟩
  · split <;> exact ⟨rfl, rfl⟩

theorem worked_settle (e : TimeEntry) (book : ContractBook) (balances : Table HourBalance.id) :
    (e.settle book balances).worked = e.worked := by
  unfold settle
  split
  · rfl
  · split <;> rfl

end TimeEntry

namespace TimeDb

/-- What is stored of the entry `id`. -/
def storedFigures (db : TimeDb) (id : Uuid) : Option TimeEntry.Figures :=
  (db.entries.find id).map TimeEntry.figures

/-- An entry that was inserted last, after its draw. -/
theorem find_settle (db : TimeDb) {id : Uuid} {e : TimeEntry}
    (he : db.entries.find id = some e) :
    (db.andThen id (db.consumeForEntry id)).1.entries.find id =
      some (e.settle db.book db.balances) := by
  unfold consumeForEntry TimeEntry.settle
  rw [he]
  simp only
  cases hd : e.drawsOn with
  | none => exact he
  | some contractId =>
      simp only
      cases hr : consumeHoursInTx db.book db.balances contractId (hoursOf e.durationMinutes)
          e.date with
      | error err => exact he
      | ok r =>
          show (db.entries.update id (·.stamp r.1)).find id = _
          rw [Table.find_update_self, he]
          rfl

end TimeDb

/-! ### The same time, typed in -/

/-- The minutes a timer has run, and at least one. -/
def ActiveTimer.elapsed (timer : ActiveTimer) (now : ℤ) : ℤ :=
  max (numMinutes (now - timer.startedAt)) 1

/-- The ticket and the company of a timer are there: `start_timer` checks both, and the foreign
keys of `active_timers` and `tickets` keep them. -/
def Directory.Knows (dir : Directory) (timer : ActiveTimer) : Prop :=
  assertTicketInTenant dir timer.ticketId = .ok () ∧
    assertCompanyInTenant dir (TimeDb.timerCompany dir timer) = .ok ()

/-- Minutes the validator lets through. -/
theorem minutes_mem {m : ℤ} (hm : 1 ≤ m ∧ m ≤ 1440) : ∀ x ∈ some m, 1 ≤ x ∧ x ≤ 1440 := by
  intro x hx
  cases hx
  exact hm

theorem no_minutes_mem : ∀ x ∈ (none : Option ℤ), 1 ≤ x ∧ x ≤ 1440 := by
  intro x hx
  cases hx

/-- The request that logs `m` minutes with the data of a stopped timer. -/
def TimerDraft.typedIn (d : TimerDraft) (m : ℤ) (hm : 1 ≤ m ∧ m ≤ 1440) :
    CreateTimeEntryRequest where
  userId := d.timer.userId
  date := d.today
  startTime := some (d.timer.startedAt % 86400)
  endTime := some (d.now % 86400)
  workedMinutes := some m
  workTypeId := d.workTypeId
  ticketId := d.timer.ticketId
  projectId := d.timer.projectId
  companyId := d.companyId
  isBillable := d.kind.billable
  duration_mem := no_minutes_mem
  worked_mem := minutes_mem hm

/-- The tables after the minutes of a timer were typed in.  The validator refuses more than a day. -/
def TimeDb.typeIn (db : TimeDb) (d : TimerDraft) : TimeDb :=
  if h : 1 ≤ d.timer.elapsed d.now ∧ d.timer.elapsed d.now ≤ 1440 then
    (db.createTimeEntry (d.typedIn (d.timer.elapsed d.now) h)).1
  else db

/-- The rounding rule of the tenant, or none. -/
def Directory.round (dir : Directory) (m : ℤ) : ℤ :=
  match dir.roundingRule with
  | some rule => applyRounding m rule
  | none => m

theorem deriveBillableMinutes_eq (dir : Directory) (m : ℤ) :
    deriveBillableMinutes m true dir.roundingRule = dir.round m := by
  unfold deriveBillableMinutes Directory.round
  cases dir.roundingRule <;> rfl

/-- A kind that was decided is decided the same way from its own billable flag. -/
theorem resolveEntryKind_idem {input : EntryKindInput} {kind : ResolvedKind}
    (h : resolveEntryKind input = .ok kind) :
    resolveEntryKind { input with isBillable := kind.billable } = .ok kind := by
  unfold resolveEntryKind at h ⊢
  obtain ⟨k, hk, h⟩ := bind_eq_ok.mp h
  simp only at hk h ⊢
  rw [hk]
  simp only [bind, Except.bind]
  split at h
  · exact absurd h (by simp)
  · next h1 =>
    split at h
    · exact absurd h (by simp)
    · next h2 =>
      cases h
      rw [if_neg h1, if_neg h2]
      cases k == EntryKind.client <;> rfl

/-- What the draft of a stop is made of. -/
structure TimerDraft.Drafts (d : TimerDraft) (db : TimeDb) (timer : ActiveTimer) (now : ℤ)
    (today : NaiveDate) (defaults : WorkTypeDefaults) : Prop where
  timer_eq : d.timer = timer
  now_eq : d.now = now
  today_eq : d.today = today
  defaults_eq : fetchWorkTypeDefaults db.dir d.workTypeId = .ok defaults
  company_eq : d.companyId = TimeDb.timerCompany db.dir timer
  kind_eq : resolveEntryKind
    { requested := none
      companyId := d.companyId
      ownCompanyId := db.dir.ownCompanyId
      ticketId := timer.ticketId
      projectId := timer.projectId
      taskId := none
      contractId := none
      isBillable := defaults.defaultBillable } = .ok d.kind
  duration_eq : d.duration = db.dir.round (timer.elapsed now)
  billing_eq : d.billing = resolveBilling none d.kind.billable defaults d.duration
  contract_eq : d.contractId =
    blockHoursContractFor db.book d.companyId today d.kind.kind d.kind.billable

theorem TimeDb.drafts_of_draftTimerEntry {db : TimeDb} {timer : ActiveTimer} {now : ℤ}
    {today : NaiveDate} {d : TimerDraft} (h : db.draftTimerEntry timer now today = .ok d) :
    ∃ defaults, d.Drafts db timer now today defaults := by
  unfold draftTimerEntry at h
  obtain ⟨workTypeId, -, h⟩ := bind_eq_ok.mp h
  obtain ⟨defaults, hd, h⟩ := bind_eq_ok.mp h
  obtain ⟨kind, hk, h⟩ := bind_eq_ok.mp h
  cases h
  exact ⟨defaults, rfl, rfl, rfl, hd, rfl, hk, rfl, rfl, rfl⟩

section Compare

variable {db : TimeDb} {timer : ActiveTimer} {now : ℤ} {today : NaiveDate} {d : TimerDraft}
  {defaults : WorkTypeDefaults}

/-- The category of work that names no category. -/
def derivedCategory (ticketId projectId : Option Uuid) : WorkCategory :=
  if ticketId.isSome then .ticketed else if projectId.isSome then .project else .general

/-- The row that `create_time_entry` inserts for the minutes of a timer. -/
def TimerDraft.typedEntry (d : TimerDraft) (db : TimeDb) (defaults : WorkTypeDefaults) (m : ℤ)
    (hm : 1 ≤ m ∧ m ≤ 1440) : Uuid → TimeEntry :=
  let billable := if d.kind.billable then db.dir.round m else 0
  TimeDb.newEntry (d.typedIn m hm) d.kind (derivedCategory d.timer.ticketId d.timer.projectId) m
    billable (resolveBilling none d.kind.billable defaults billable) d.contractId

/-- Typed in, the same data pass every check but the cap. -/
theorem insertTimeEntry_typedIn (h : d.Drafts db timer now today defaults)
    (hk : db.dir.Knows timer) {m : ℤ} (hm : 1 ≤ m ∧ m ≤ 1440) :
    db.insertTimeEntry (d.typedIn m hm) = (do
      enforceDayCap (dayMinutesExcluding db.entries timer.userId today none) m
        db.dir.maxMinutesPerDay
      .ok (db.entries.next,
        { db with entries := db.entries.insert (d.typedEntry db defaults m hm) })) := by
  obtain ⟨rfl, rfl, rfl, h4, h5, h6, -, -, h9⟩ := h
  have hkind := resolveEntryKind_idem h6
  have hcompany : assertCompanyInTenant db.dir d.companyId = .ok () := h5 ▸ hk.2
  unfold TimeDb.insertTimeEntry
  simp only at hkind
  simp only [TimerDraft.typedIn, h4, hcompany, hk.1, hkind, ← h9, bind, Except.bind,
    deriveWorkCategory, Option.map_none, computeMinutes, Option.getD_none,
    deriveBillableMinutes_eq]
  rfl

/-- A figure of an entry after its draw depends on what the draw looks at. -/
theorem figures_settle_congr {e e' : TimeEntry} (hd : e.drawsOn = e'.drawsOn)
    (hm : e.durationMinutes = e'.durationMinutes) (ht : e.date = e'.date)
    (hf : e.figures = e'.figures) (book : ContractBook) (balances : Table HourBalance.id) :
    (e.settle book balances).figures = (e'.settle book balances).figures := by
  unfold TimeEntry.settle
  rw [← hd, ← hm, ← ht]
  split
  · exact hf
  · split
    · exact hf
    · next r _ =>
      simp only [TimeEntry.figures, TimeEntry.Figures.mk.injEq] at hf
      obtain ⟨h1, h2, h3, -, -, -⟩ := hf
      show TimeEntry.Figures.mk e.worked e.billed e.totalAmount _ _ _ =
        TimeEntry.Figures.mk e'.worked e'.billed e'.totalAmount _ _ _
      rw [h1, h2, h3]
      rfl

/-- Rounding apart, the two rows are the same to those who read them. -/
theorem figures_entry_eq (h : d.Drafts db timer now today defaults) {m : ℤ}
    (hm : 1 ≤ m ∧ m ≤ 1440) (he : timer.elapsed now = m) (hr : db.dir.round m = m) (i : Uuid) :
    (d.entry i).figures = (d.typedEntry db defaults m hm i).figures := by
  have hdur : d.duration = m := by rw [h.duration_eq, he, hr]
  have hbill : d.billing = resolveBilling none d.kind.billable defaults m := by
    rw [h.billing_eq, hdur]
  cases hb : d.kind.billable with
  | true =>
      simp [TimeEntry.figures, TimeEntry.worked, TimeEntry.billed, TimerDraft.entry,
        TimeDb.timerEntry, TimerDraft.typedEntry, TimeDb.newEntry, hdur, hbill, hb, hr]
  | false =>
      simp [TimeEntry.figures, TimeEntry.worked, TimeEntry.billed, TimerDraft.entry,
        TimeDb.timerEntry, TimerDraft.typedEntry, TimeDb.newEntry, hdur, hbill, hb, resolveBilling]

theorem drawsOn_entry_eq (h : d.Drafts db timer now today defaults) {m : ℤ}
    (hm : 1 ≤ m ∧ m ≤ 1440) (he : timer.elapsed now = m) (hr : db.dir.round m = m) (i : Uuid) :
    (d.entry i).drawsOn = (d.typedEntry db defaults m hm i).drawsOn := by
  have hdur : d.duration = m := by rw [h.duration_eq, he, hr]
  simp [TimeEntry.drawsOn, TimerDraft.entry, TimeDb.timerEntry, TimerDraft.typedEntry,
    TimeDb.newEntry, hdur]

/-- The row of a stopped timer. -/
theorem find_stopTimer {timerId userId : Uuid} (hr : db.readTimer timerId userId = .ok timer)
    (hd : db.draftTimerEntry timer now today = .ok d) :
    (db.stopTimer timerId userId now today).1.entries.find db.entries.next =
      some ((d.entry db.entries.next).settle db.book db.balances) := by
  have hi : db.insertTimerEntry timerId userId now today =
      .ok (db.entries.next, db.commitStop d) := by
    rw [TimeDb.insertTimerEntry_eq, hr]
    simp only [bind, Except.bind, hd]
  have hf : (db.commitStop d).entries.find db.entries.next = some (d.entry db.entries.next) := by
    show (db.entries.insert d.entry).find _ = _
    rw [Table.find_insert, if_pos rfl]
  unfold TimeDb.stopTimer
  rw [hi]
  exact (db.commitStop d).find_settle hf

/-- The row of the same minutes typed in, if the day has room for them. -/
theorem find_typeIn (h : d.Drafts db timer now today defaults) (hk : db.dir.Knows timer)
    (hm : 1 ≤ timer.elapsed now ∧ timer.elapsed now ≤ 1440)
    (hc : enforceDayCap (dayMinutesExcluding db.entries timer.userId today none)
      (timer.elapsed now) db.dir.maxMinutesPerDay = .ok ()) :
    (db.typeIn d).entries.find db.entries.next =
      some ((d.typedEntry db defaults _ hm db.entries.next).settle db.book db.balances) := by
  have hi := insertTimeEntry_typedIn h hk hm
  rw [hc] at hi
  have hf : (db.entries.insert (d.typedEntry db defaults _ hm)).find db.entries.next =
      some (d.typedEntry db defaults _ hm db.entries.next) := by
    rw [Table.find_insert, if_pos rfl]
  obtain ⟨rfl, rfl, -⟩ := h
  unfold TimeDb.typeIn
  rw [dif_pos hm]
  unfold TimeDb.createTimeEntry
  rw [hi]
  exact TimeDb.find_settle
    { db with entries := db.entries.insert (d.typedEntry db defaults _ hm) } hf

/-- Minutes the validator or the cap refuses leave nothing behind. -/
theorem find_typeIn_refused (h : d.Drafts db timer now today defaults) (hk : db.dir.Knows timer)
    (hc : timer.elapsed now ≤ 1440 →
      enforceDayCap (dayMinutesExcluding db.entries timer.userId today none) (timer.elapsed now)
        db.dir.maxMinutesPerDay ≠ .ok ()) :
    (db.typeIn d).entries.find db.entries.next = none := by
  have hnone : db.entries.find db.entries.next = none := by
    by_contra hne
    obtain ⟨e, he⟩ := Option.ne_none_iff_exists'.mp hne
    exact absurd (Table.find_lt_next he) (lt_irrefl _)
  have hi := fun hm => insertTimeEntry_typedIn h hk (m := timer.elapsed now) hm
  obtain ⟨rfl, rfl, -⟩ := h
  unfold TimeDb.typeIn
  split
  · next hm =>
    cases hcap : enforceDayCap (dayMinutesExcluding db.entries d.timer.userId today none)
        (d.timer.elapsed d.now) db.dir.maxMinutesPerDay with
    | ok u => exact absurd hcap (hc hm.2)
    | error err =>
        have hi := hi hm
        rw [hcap] at hi
        unfold TimeDb.createTimeEntry
        rw [hi]
        exact hnone
  · exact hnone

/-- A timer that is stopped and the same minutes typed in leave the same figures exactly when
rounding does not change the minutes and the day has room for them.  The `worked_minutes` and
`billable_minutes` columns are never the same. -/
theorem stop_agrees_iff {timerId userId : Uuid} (hr : db.readTimer timerId userId = .ok timer)
    (hk : db.dir.Knows timer) (hd : db.draftTimerEntry timer now today = .ok d) :
    ((db.stopTimer timerId userId now today).1.storedFigures db.entries.next =
        (db.typeIn d).storedFigures db.entries.next ↔
      db.dir.round (timer.elapsed now) = timer.elapsed now ∧ timer.elapsed now ≤ 1440 ∧
        enforceDayCap (dayMinutesExcluding db.entries timer.userId today none)
          (timer.elapsed now) db.dir.maxMinutesPerDay = .ok ()) ∧
      ∀ e e', (db.stopTimer timerId userId now today).1.entries.find db.entries.next = some e →
        (db.typeIn d).entries.find db.entries.next = some e' →
        e.workedMinutes ≠ e'.workedMinutes ∧ e.billableMinutes ≠ e'.billableMinutes := by
  obtain ⟨defaults, h⟩ := TimeDb.drafts_of_draftTimerEntry hd
  have hstop := find_stopTimer hr hd
  have hpos : 1 ≤ timer.elapsed now := le_max_right _ _
  -- The row that is typed in, as soon as there is one.
  have htyped := fun hm hc => find_typeIn h hk ⟨hpos, hm⟩ hc
  refine ⟨⟨fun heq => ?_, ?_⟩, ?_⟩
  · by_cases hroom : timer.elapsed now ≤ 1440 ∧
        enforceDayCap (dayMinutesExcluding db.entries timer.userId today none)
          (timer.elapsed now) db.dir.maxMinutesPerDay = .ok ()
    · obtain ⟨hm, hc⟩ := hroom
      refine ⟨?_, hm, hc⟩
      simp only [TimeDb.storedFigures, hstop, htyped hm hc, Option.map_some,
        Option.some.injEq] at heq
      have hworked := congrArg TimeEntry.Figures.worked heq
      simp only [TimeEntry.figures, TimeEntry.worked_settle] at hworked
      rw [← h.duration_eq]
      exact hworked
    · -- Nothing was typed in, and the stop has left a row.
      have hnone := find_typeIn_refused h hk fun hm hc => hroom ⟨hm, hc⟩
      simp [TimeDb.storedFigures, hstop, hnone] at heq
  · rintro ⟨hround, hm, hc⟩
    simp only [TimeDb.storedFigures, hstop, htyped hm hc, Option.map_some, Option.some.injEq]
    refine figures_settle_congr (drawsOn_entry_eq h _ rfl hround _) ?_ ?_
      (figures_entry_eq h _ rfl hround _) _ _
    · show d.duration = timer.elapsed now
      rw [h.duration_eq, hround]
    · rfl
  · intro e e' he he'
    rw [hstop, Option.some.injEq] at he
    subst he
    by_cases hroom : timer.elapsed now ≤ 1440 ∧
        enforceDayCap (dayMinutesExcluding db.entries timer.userId today none)
          (timer.elapsed now) db.dir.maxMinutesPerDay = .ok ()
    · rw [htyped hroom.1 hroom.2, Option.some.injEq] at he'
      subst he'
      obtain ⟨h1, h2⟩ := TimeEntry.columns_settle (d.entry db.entries.next) db.book db.balances
      obtain ⟨h3, h4⟩ := TimeEntry.columns_settle
        (d.typedEntry db defaults _ ⟨hpos, hroom.1⟩ db.entries.next) db.book db.balances
      rw [h1, h2, h3, h4]
      exact ⟨Option.some_ne_none _ |>.symm, Option.some_ne_none _ |>.symm⟩
    · rw [find_typeIn_refused h hk fun hm hc => hroom ⟨hm, hc⟩] at he'
      exact absurd he' (by simp)

end Compare

/-! ### A quarter of an hour -/

/-- A tenant that rounds up to quarters of an hour, with a block of hours and a running timer. -/
def quarterDb : TimeDb :=
  { sampleTimerDb with
    book := sampleBook ⟨1000⟩ none
    dir := { sampleDir with roundingRule := some ⟨15, 0, .up⟩ } }

def quarterTimer : ActiveTimer where
  id := 0
  userId := 1
  ticketId := none
  projectId := none
  companyId := some 7
  workTypeId := some 1
  startedAt := 0

/-- The draft of its stop, at a clock and with the rounded minutes. -/
def quarterDraft (now duration : ℤ) : TimerDraft where
  timer := quarterTimer
  now := now
  today := sampleDay 1 10
  workTypeId := 1
  companyId := some 7
  kind := ⟨.client, true⟩
  duration := duration
  billing := resolveBilling none true ⟨some ⟨10000⟩, true⟩ duration
  contractId := some 0

/-- Twenty minutes: the stopped timer has thirty worked minutes and draws thirty, the manual entry
has twenty and draws twenty. -/
theorem stop_rounds_worked :
    quarterDb.readTimer 0 1 = .ok quarterTimer ∧ quarterDb.dir.Knows quarterTimer ∧
      quarterDb.draftTimerEntry quarterTimer 1200 (sampleDay 1 10) = .ok (quarterDraft 1200 30) ∧
      quarterTimer.elapsed 1200 = 20 ∧
      (quarterDb.stopTimer 0 1 1200 (sampleDay 1 10)).1.storedFigures 0 =
        some ⟨30, 30, some ⟨5000⟩, some ⟨50⟩, none, some 0⟩ ∧
      (quarterDb.typeIn (quarterDraft 1200 30)).storedFigures 0 =
        some ⟨20, 30, some ⟨5000⟩, some ⟨33⟩, none, some 0⟩ :=
  ⟨rfl, ⟨rfl, rfl⟩, rfl, by decide +kernel, by decide +kernel, by decide +kernel⟩

/-- Thirty minutes are not rounded. -/
theorem stop_agrees_half_hour :
    (quarterDb.stopTimer 0 1 1800 (sampleDay 1 10)).1.storedFigures quarterDb.entries.next =
      (quarterDb.typeIn (quarterDraft 1800 30)).storedFigures quarterDb.entries.next :=
  (stop_agrees_iff rfl ⟨rfl, rfl⟩ rfl).1.mpr
    ⟨by decide +kernel, by decide +kernel, by decide +kernel⟩

end Mokosh
