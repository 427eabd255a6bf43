import Mathlib.Data.List.MinMax
import Mokosh.Lib.Keyed
import Mokosh.Lib.Requests
import Mokosh.Calendar.Recurrence

/-! # Appointment reminders

`calendar/worker.rs`, `due_reminders` and `claim_reminder`: any number of ticks of any number of workers, statement by
statement.  A tick reads the largest offset and then the appointments, and for each reminder that is due it claims the
row of the ledger and, if the row was not there, dispatches.

**`reminders_once_and_in_time`**: a reminder is dispatched at most once, between its time and the start of the
appointment, and a tick that has come to its end leaves none behind that was due. -/

namespace Mokosh.Calendar

open Requests (Handlers World Event Keeps Rule)

/-- A row of `appointments`, as the scan reads it. -/
structure ReminderRow extends Appointment where
  reminderMinutes : Option (List ℤ)
deriving DecidableEq

structure ReminderCandidate where
  tenantId : Uuid
  appointmentId : Uuid
  assignedToId : Uuid
  occurrenceStart : ℤ
  reminderMinutes : ℤ
deriving DecidableEq

/-- The unique key of `appointment_reminders`. -/
def ReminderCandidate.key (c : ReminderCandidate) : Uuid × ℤ × ℤ :=
  (c.appointmentId, c.occurrenceStart, c.reminderMinutes)

abbrev ReminderRows := Keyed fun row : ReminderRow => row.id

/-- `appointment_reminders`. -/
abbrev Ledger := Keyed ReminderCandidate.key

def minutes (m : ℤ) : ℤ := m * (60 * second)

/-! ### The scan -/

/-- The `MAX` over all offsets. -/
def maxOffset (rows : ReminderRows) : Option ℤ := (rows.rows.flatMap fun row => row.reminderMinutes.getD []).max?

def windowEnd (now maxOffset : ℤ) : ℤ := now + minutes (max maxOffset 0)

namespace ReminderRow

variable (x : Expander) (row : ReminderRow) (now to' : ℤ)

/-- The `WHERE` of the scan. -/
def scanned : Bool :=
  row.reminderMinutes.any (0 < ·.length) && (row.recurrenceRule.isSome || (now < row.startTime && row.startTime ≤ to'))

def occStarts : List ℤ :=
  if row.recurrenceRule.isSome then (expandRecurrence x row.toAppointment now to').map (·.startTime)
  else [row.startTime]

def candidate (start offset : ℤ) : ReminderCandidate where
  tenantId := row.tenantId
  appointmentId := row.id
  assignedToId := row.assignedToId
  occurrenceStart := start
  reminderMinutes := offset

/-- What of the row is due. -/
def due : List ReminderCandidate := (row.occStarts x now to').flatMap fun start =>
  if start ≤ now then []
  else ((row.reminderMinutes.getD []).filter fun offset => ¬offset < 0 ∧ start - minutes offset ≤ now).map
    (row.candidate start)

end ReminderRow

def dueReminders (x : Expander) (rows : ReminderRows) (maxOffset now : ℤ) : List ReminderCandidate :=
  (rows.rows.filter fun row => row.scanned now (windowEnd now maxOffset)).flatMap fun row =>
    row.due x now (windowEnd now maxOffset)

/-! ### Ticks -/

/-- A tick at `now`, of a worker that has a `NotificationsService` or not. -/
structure Tick where
  now : ℤ
  notifications : Bool
deriving DecidableEq

/-- The appointments and the ledger.  The history: what each tick has dispatched, and the ticks that have come to
their end without an error. -/
structure RemindersDb where
  appointments : ReminderRows
  ledger : Ledger
  dispatched : List (Tick × ReminderCandidate)
  completed : List Tick

inductive TickPoint where
  | starting (t : Tick)
  | scanning (t : Tick) (maxOffset : ℤ)
  | claiming (t : Tick) (c : ReminderCandidate) (rest : List ReminderCandidate)
  | dispatching (t : Tick) (c : ReminderCandidate) (rest : List ReminderCandidate)
deriving DecidableEq

namespace RemindersDb

variable (db : RemindersDb) (t : Tick)

/-- To the next candidate, or to the end. -/
def next : List ReminderCandidate → RemindersDb × Option TickPoint
  | [] => ({ db with completed := t :: db.completed }, none)
  | c :: rest => (db, some (.claiming t c rest))

end RemindersDb

/-- The next statement of a tick.  A failed dispatch is logged, any other failure ends the tick. -/
def tickAdvance (x : Expander) (_ : ℕ) (ok : Bool) (db : RemindersDb) : TickPoint → Option (RemindersDb × Option TickPoint)
  | .starting t =>
    if t.notifications then
      if ok then
        match maxOffset db.appointments with
        | some m => some (db, some (.scanning t m))
        | none => some (db.next t [])
      else some (db, none)
    else some (db.next t [])
  | .scanning t m => if ok then some (db.next t (dueReminders x db.appointments m t.now)) else some (db, none)
  | .claiming t c rest =>
    if ok then
      if c.key ∈ db.ledger.rows.map ReminderCandidate.key then some (db.next t rest)
      else some ({ db with ledger := db.ledger.insert c }, some (.dispatching t c rest))
    else some (db, none)
  | .dispatching t c rest => some ({ db with dispatched := (t, c) :: db.dispatched }.next t rest)

def tickHandlers (x : Expander) : Handlers Tick Bool RemindersDb TickPoint Empty :=
  .lockless TickPoint.starting (tickAdvance x)

abbrev tickStep (x : Expander) := Requests.step (tickHandlers x)

/-! ### What is due -/

/-- `now` is between the time of the reminder and the start. -/
def InTime (now start offset : ℤ) : Prop := start - minutes offset ≤ now ∧ now < start

namespace ReminderRow

/-- The row's own start, or the starts of its series. -/
def Starts {x : Expander} (occurs : x.RuleSet → ℤ → Prop) (row : ReminderRow) (s : ℤ) : Prop :=
  row.recurrenceRule = none ∧ s = row.startTime ∨ row.toAppointment.Occurs occurs s

variable {x : Expander} {occurs : x.RuleSet → ℤ → Prop} {row : ReminderRow} {now to' s o : ℤ} {c : ReminderCandidate}

theorem mem_due : c ∈ row.due x now to' ↔ ∃ s ∈ row.occStarts x now to', ∃ o ∈ row.reminderMinutes.getD [],
    0 ≤ o ∧ InTime now s o ∧ c = row.candidate s o := by
  unfold due
  simp only [List.mem_flatMap]
  refine exists_congr fun s => and_congr_right fun _ => ?_
  split
  · next hpast =>
      refine iff_of_false List.not_mem_nil ?_
      rintro ⟨o, -, -, hin, -⟩
      exact not_lt_of_ge hpast hin.2
  · next hfuture =>
      simp only [List.mem_map, List.mem_filter, decide_eq_true_eq, not_lt]
      constructor
      · rintro ⟨o, ⟨ho, hpos, hfire⟩, rfl⟩
        exact ⟨o, ho, hpos, ⟨hfire, lt_of_not_ge hfuture⟩, rfl⟩
      · rintro ⟨o, ho, hpos, hin, rfl⟩
        exact ⟨o, ⟨ho, hpos, hin.1⟩, rfl⟩

theorem mem_occStarts (hx : x.Expands occurs) (hcap : row.BelowCap x now to') (hs : row.Starts occurs s)
    (hlo : now ≤ s) (hhi : s ≤ to') : s ∈ row.occStarts x now to' := by
  unfold occStarts
  obtain ⟨hnone, rfl⟩ | hs := hs
  · rw [hnone]
    exact List.mem_singleton_self _
  · obtain ⟨set, hset, hocc⟩ := hs
    obtain ⟨raw, hraw, -⟩ := Option.bind_eq_some_iff.mp hset
    rw [if_pos (Option.isSome_iff_exists.mpr ⟨raw, hraw⟩)]
    exact List.mem_map.mpr ⟨_, (mem_expandRecurrence hx hcap).mpr ⟨s, ⟨set, hset, hocc⟩, hlo, hhi, rfl⟩, rfl⟩

end ReminderRow

variable {x : Expander} {occurs : x.RuleSet → ℤ → Prop} {rows : ReminderRows} {row : ReminderRow} {now m s o : ℤ}
  {c : ReminderCandidate} {t : Tick} {db : RemindersDb}

theorem le_maxOffset (hm : maxOffset rows = some m) (hrow : row ∈ rows.rows) (ho : o ∈ row.reminderMinutes.getD []) :
    o ≤ m :=
  (List.max?_eq_some_iff.mp hm).2 o (List.mem_flatMap.mpr ⟨row, hrow, ho⟩)

theorem inTime_of_mem_dueReminders (h : c ∈ dueReminders x rows m now) :
    InTime now c.occurrenceStart c.reminderMinutes := by
  obtain ⟨row, -, hc⟩ := List.mem_flatMap.mp h
  obtain ⟨s, -, o, -, -, hin, rfl⟩ := ReminderRow.mem_due.mp hc
  exact hin

/-- No start that is due lies outside of the window. -/
theorem le_windowEnd (hom : o ≤ m) (h : InTime now s o) : s ≤ windowEnd now m := by
  have hfire := h.1
  unfold windowEnd
  unfold minutes second at *
  omega

theorem mem_dueReminders (hx : x.Expands occurs) (hm : maxOffset rows = some m)
    (hcap : row.BelowCap x now (windowEnd now m)) (hrow : row ∈ rows.rows) (hs : row.Starts occurs s)
    (ho : o ∈ row.reminderMinutes.getD []) (hpos : 0 < o) (hin : InTime now s o) :
    row.candidate s o ∈ dueReminders x rows m now := by
  have hhi := le_windowEnd (le_maxOffset hm hrow ho) hin
  refine List.mem_flatMap.mpr ⟨row, List.mem_filter.mpr ⟨hrow, ?_⟩, ?_⟩
  · have hoffsets : row.reminderMinutes.any (0 < ·.length) = true := by
      cases h : row.reminderMinutes with
      | none =>
          rw [h] at ho
          exact absurd ho List.not_mem_nil
      | some l =>
          rw [h] at ho
          exact decide_eq_true (List.length_pos_of_mem ho)
    unfold ReminderRow.scanned
    rw [hoffsets, Bool.true_and]
    obtain ⟨-, rfl⟩ | hs := hs
    · rw [decide_eq_true hin.2, decide_eq_true hhi]
      exact Bool.or_true _
    · rw [Appointment.Occurs.isSome hs]
      exact Bool.true_or _
  · exact ReminderRow.mem_due.mpr ⟨s, ReminderRow.mem_occStarts hx hcap hs hin.2.le hhi, o, ho, hpos.le, hin, rfl⟩

/-! ### Whole runs -/

/-- The reminder has its row in the ledger. -/
def Ledger.Claims (l : Ledger) (k : Uuid × ℤ × ℤ) : Prop := k ∈ l.rows.map ReminderCandidate.key

/-- Every reminder that is due at the time of the tick has its row in the ledger, or is among `cs`. -/
def Served {x : Expander} (occurs : x.RuleSet → ℤ → Prop) (rows : ReminderRows) (t : Tick) (l : Ledger)
    (cs : List ReminderCandidate) : Prop :=
  ∀ row ∈ rows.rows, ∀ s o, row.Starts occurs s → o ∈ row.reminderMinutes.getD [] → 0 < o → InTime t.now s o →
    l.Claims (row.id, s, o) ∨ row.candidate s o ∈ cs

/-- The window of the tick has fewer occurrences of each series than the cap. -/
def Capped (x : Expander) (rows : ReminderRows) (t : Tick) : Prop :=
  ∀ m, maxOffset rows = some m → ∀ row ∈ rows.rows, row.BelowCap x t.now (windowEnd t.now m)

/-- What every statement relies on. -/
structure RemindersKept {x : Expander} (occurs : x.RuleSet → ℤ → Prop) (rows : ReminderRows) (db : RemindersDb) :
    Prop where
  appointments : db.appointments = rows
  inTime : ∀ d ∈ db.dispatched, InTime d.1.now d.2.occurrenceStart d.2.reminderMinutes
  served : ∀ t ∈ db.completed, t.notifications = true → Served occurs rows t db.ledger []

def Due (t : Tick) (cs : List ReminderCandidate) : Prop :=
  ∀ c ∈ cs, InTime t.now c.occurrenceStart c.reminderMinutes

def TickStands {x : Expander} (occurs : x.RuleSet → ℤ → Prop) (rows : ReminderRows) (db : RemindersDb) :
    TickPoint → Prop
  | .starting t => Capped x rows t
  | .scanning t m => Capped x rows t ∧ maxOffset rows = some m
  | .claiming t c rest => Due t (c :: rest) ∧ Served occurs rows t db.ledger (c :: rest)
  | .dispatching t c rest => Due t (c :: rest) ∧ Served occurs rows t db.ledger rest

/-- The windows of all ticks are capped. -/
def TicksCapped (x : Expander) (rows : ReminderRows) (_ : World RemindersDb TickPoint) : Event Tick Bool → Prop
  | .arrive t => Capped x rows t
  | _ => True

theorem Ledger.Claims.insert {l : Ledger} {k : Uuid × ℤ × ℤ} (h : l.Claims k) (c : ReminderCandidate) :
    Ledger.Claims (l.insert c) k :=
  Keyed.mem_keys_insert.mpr (.inr h)

theorem Served.insert {l : Ledger} {cs : List ReminderCandidate} (h : Served occurs rows t l cs)
    (c : ReminderCandidate) : Served occurs rows t (l.insert c) cs :=
  fun row hrow s o hs ho hpos hin => (h row hrow s o hs ho hpos hin).imp (·.insert c) id

/-- The candidate has its row now. -/
theorem Served.drop {l : Ledger} {cs : List ReminderCandidate} (h : Served occurs rows t l (c :: cs))
    (hc : l.Claims c.key) : Served occurs rows t l cs := by
  intro row hrow s o hs ho hpos hin
  obtain hclaimed | hmem := h row hrow s o hs ho hpos hin
  · exact .inl hclaimed
  · obtain rfl | hmem := List.mem_cons.mp hmem
    · exact .inl hc
    · exact .inr hmem

theorem complete_kept (h : RemindersKept occurs rows db)
    (hserved : t.notifications = true → Served occurs rows t db.ledger []) :
    RemindersKept occurs rows (db.next t []).1 :=
  ⟨h.appointments, h.inTime, List.forall_mem_cons.mpr ⟨hserved, h.served⟩⟩

theorem next_kept (h : RemindersKept occurs rows db) {cs : List ReminderCandidate} (hdue : Due t cs)
    (hserved : Served occurs rows t db.ledger cs) {s : RemindersDb} {q : Option TickPoint}
    (hn : db.next t cs = (s, q)) : RemindersKept occurs rows s ∧ (∀ p ∈ q, TickStands occurs rows s p) ∧
      ∀ k, db.ledger.Claims k → s.ledger.Claims k := by
  cases cs with
  | nil =>
      cases hn
      exact ⟨complete_kept h fun _ => hserved, fun p hp => (nomatch hp), fun _ hk => hk⟩
  | cons c rest =>
      cases hn
      refine ⟨h, fun p hp => ?_, fun _ hk => hk⟩
      obtain rfl := Option.some.inj hp
      exact ⟨hdue, hserved⟩

theorem TickStands.mono {s : RemindersDb} (hle : ∀ k, db.ledger.Claims k → s.ledger.Claims k) {p : TickPoint}
    (hp : TickStands occurs rows db p) : TickStands occurs rows s p := by
  have hserved : ∀ {t cs}, Served occurs rows t db.ledger cs → Served occurs rows t s.ledger cs :=
    fun h row hrow s o hs ho hpos hin => (h row hrow s o hs ho hpos hin).imp (hle _) id
  cases p with
  | starting t => exact hp
  | scanning t m => exact hp
  | claiming t c rest => exact ⟨hp.1, hserved hp.2⟩
  | dispatching t c rest => exact ⟨hp.1, hserved hp.2⟩

/-- With no offset in the table there is nothing to be claimed. -/
theorem served_of_maxOffset (hm : maxOffset rows = none) (t : Tick) (l : Ledger) : Served occurs rows t l [] := by
  intro row hrow s o _ ho _ _
  have hnil := List.max?_eq_none_iff.mp hm
  exact absurd (hnil ▸ List.mem_flatMap.mpr ⟨row, hrow, ho⟩) List.not_mem_nil

theorem tickAdvance_kept (hx : x.Expands occurs) {n : ℕ} {ok : Bool} {p : TickPoint} {s : RemindersDb}
    {q : Option TickPoint} (h : RemindersKept occurs rows db) (hp : TickStands occurs rows db p)
    (ha : tickAdvance x n ok db p = some (s, q)) : RemindersKept occurs rows s ∧
      (∀ p' ∈ q, TickStands occurs rows s p') ∧ ∀ k, db.ledger.Claims k → s.ledger.Claims k := by
  have hsame : RemindersKept occurs rows db ∧ (∀ p' ∈ (none : Option TickPoint), TickStands occurs rows db p') ∧
      ∀ k, db.ledger.Claims k → db.ledger.Claims k :=
    ⟨h, fun _ hp => (nomatch hp), fun _ hk => hk⟩
  cases p with
  | starting t =>
      simp only [tickAdvance] at ha
      split at ha
      · split at ha
        · split at ha
          · next m hm =>
              cases ha
              refine ⟨h, fun p' hp' => ?_, hsame.2.2⟩
              obtain rfl := Option.some.inj hp'
              exact ⟨hp, h.appointments ▸ hm⟩
          · next hm =>
              cases ha
              exact ⟨complete_kept h fun _ => served_of_maxOffset (h.appointments ▸ hm) t _, hsame.2⟩
        · cases ha
          exact hsame
      · next hn =>
          cases ha
          exact ⟨complete_kept h fun hn' => absurd hn' hn, hsame.2⟩
  | scanning t m =>
      simp only [tickAdvance] at ha
      split at ha
      · have hserved : Served occurs rows t db.ledger (dueReminders x rows m t.now) :=
          fun row hrow s o hs ho hpos hin =>
            .inr (mem_dueReminders hx hp.2 (hp.1 m hp.2 row hrow) hrow hs ho hpos hin)
        rw [h.appointments, Option.some.injEq] at ha
        exact next_kept h (fun c hc => inTime_of_mem_dueReminders hc) hserved ha
      · cases ha
        exact hsame
  | claiming t c rest =>
      simp only [tickAdvance] at ha
      split at ha
      · split at ha
        · next hclaimed =>
            rw [Option.some.injEq] at ha
            exact next_kept h (fun c' hc' => hp.1 c' (List.mem_cons_of_mem c hc')) (hp.2.drop hclaimed) ha
        · cases ha
          refine ⟨⟨h.appointments, h.inTime, fun t' ht' hn => (h.served t' ht' hn).insert c⟩, fun p' hp' => ?_,
            fun k hk => hk.insert c⟩
          obtain rfl := Option.some.inj hp'
          exact ⟨hp.1, (hp.2.insert c).drop (Keyed.mem_keys_insert.mpr (.inl rfl))⟩
      · cases ha
        exact hsame
  | dispatching t c rest =>
      have hdispatched : RemindersKept occurs rows { db with dispatched := (t, c) :: db.dispatched } :=
        ⟨h.appointments, List.forall_mem_cons.mpr ⟨hp.1 c List.mem_cons_self, h.inTime⟩, h.served⟩
      rw [tickAdvance, Option.some.injEq] at ha
      exact next_kept hdispatched (fun c' hc' => hp.1 c' (List.mem_cons_of_mem c hc')) hp.2 ha

theorem tick_rule (hx : x.Expands occurs) : Rule (tickHandlers x) (fun _ db => RemindersKept occurs rows db)
    (fun _ db p => TickStands occurs rows db p) (TicksCapped x rows) where
  locks _ _ _ _ hb := absurd hb List.not_mem_nil
  unlocked _ := rfl
  wait h _ := ⟨h, fun _ hp => hp⟩
  start _ hC := hC
  step hw _ hi ha := by
    obtain ⟨hkept, hstands, hle⟩ := tickAdvance_kept hx (n := 0) hw.store (hw.requests _ (List.mem_of_getElem? hi)) ha
    exact ⟨hkept, hstands, fun _ _ _ hp' => hp'.mono hle⟩

/-- The reminder that a tick has claimed and not dispatched yet. -/
def TickPoint.ticket : TickPoint → List (Uuid × ℤ × ℤ)
  | .dispatching _ c _ => [c.key]
  | _ => []

theorem next_tickets {cs : List ReminderCandidate} {s : RemindersDb} {q : Option TickPoint}
    (hn : db.next t cs = (s, q)) : s.ledger = db.ledger ∧ s.dispatched = db.dispatched ∧
      q.toList.flatMap TickPoint.ticket = [] := by
  cases cs <;> cases hn <;> exact ⟨rfl, rfl, rfl⟩

/-- A tick dispatches what it has claimed itself. -/
theorem tickAdvance_tickets {n : ℕ} {ok : Bool} {p : TickPoint} {s : RemindersDb} {q : Option TickPoint}
    (ha : tickAdvance x n ok db p = some (s, q)) : (∀ k, db.ledger.Claims k → s.ledger.Claims k) ∧
      ∃ fresh : List (Uuid × ℤ × ℤ), fresh.Nodup ∧ (∀ k ∈ fresh, ¬db.ledger.Claims k ∧ s.ledger.Claims k) ∧
        (q.toList.flatMap TickPoint.ticket ++ s.dispatched.map (·.2.key)).Subperm
          (fresh ++ (p.ticket ++ db.dispatched.map (·.2.key))) := by
  -- Where the ledger and what was dispatched stay, and the tick goes on without a ticket.
  have hnext : ∀ {s : RemindersDb} {q : Option TickPoint},
      s.ledger = db.ledger ∧ s.dispatched = db.dispatched ∧ q.toList.flatMap TickPoint.ticket = [] → (∀ k, db.ledger.Claims k → s.ledger.Claims k) ∧
      ∃ fresh : List (Uuid × ℤ × ℤ), fresh.Nodup ∧ (∀ k ∈ fresh, ¬db.ledger.Claims k ∧ s.ledger.Claims k) ∧
        (q.toList.flatMap TickPoint.ticket ++ s.dispatched.map (·.2.key)).Subperm
          (fresh ++ (p.ticket ++ db.dispatched.map (·.2.key))) := by
    rintro s q ⟨hl, hd, hq⟩
    refine ⟨fun k hk => by rwa [hl], [], List.nodup_nil, fun _ hk => absurd hk List.not_mem_nil, ?_⟩
    rw [hq, hd]
    exact (List.sublist_append_right _ _).subperm
  cases p with
  | starting t =>
      simp only [tickAdvance] at ha
      split at ha
      · split at ha
        · split at ha <;> cases ha <;> exact hnext ⟨rfl, rfl, rfl⟩
        · cases ha
          exact hnext ⟨rfl, rfl, rfl⟩
      · cases ha
        exact hnext ⟨rfl, rfl, rfl⟩
  | scanning t m =>
      simp only [tickAdvance] at ha
      split at ha
      · rw [Option.some.injEq] at ha
        exact hnext (next_tickets ha)
      · cases ha
        exact hnext ⟨rfl, rfl, rfl⟩
  | claiming t c rest =>
      simp only [tickAdvance] at ha
      split at ha
      · split at ha
        · rw [Option.some.injEq] at ha
          exact hnext (next_tickets ha)
        · next hnew =>
            cases ha
            refine ⟨fun k hk => hk.insert c, [c.key], List.nodup_singleton _, fun k hk => ?_, List.Subperm.refl _⟩
            rw [List.mem_singleton.mp hk]
            exact ⟨hnew, Keyed.mem_keys_insert.mpr (.inl rfl)⟩
      · cases ha
        exact hnext ⟨rfl, rfl, rfl⟩
  | dispatching t c rest =>
      rw [tickAdvance, Option.some.injEq] at ha
      obtain ⟨hl, hd, hq⟩ := next_tickets ha
      refine ⟨fun k hk => by rwa [hl], [], List.nodup_nil, fun _ hk => absurd hk List.not_mem_nil, ?_⟩
      rw [hd, hq]
      exact List.Subperm.refl _

/-- The appointments and what the ledger has of them before the first tick. -/
def RemindersDb.start (rows : ReminderRows) (ledger : Ledger) : RemindersDb :=
  { appointments := rows, ledger := ledger, dispatched := [], completed := [] }

/-- In any run of ticks, no reminder is dispatched twice, and each is dispatched between its time and the start of the
appointment.  Whatever was due at the time of a tick that has come to its end is claimed. -/
theorem reminders_once_and_in_time (hx : x.Expands occurs) {ledger : Ledger} {n : ℕ} {es : List (Event Tick Bool)}
    {w : World RemindersDb TickPoint} (hcap : ∀ t, .arrive t ∈ es → Capped x rows t)
    (hr : run (tickStep x) (World.start n (RemindersDb.start rows ledger)) es = some w) :
    (w.store.dispatched.map (·.2.key)).Nodup ∧
      (∀ d ∈ w.store.dispatched, InTime d.1.now d.2.occurrenceStart d.2.reminderMinutes) ∧
      ∀ t ∈ w.store.completed, t.notifications = true → ∀ row ∈ rows.rows, ∀ s o, row.Starts occurs s →
        o ∈ row.reminderMinutes.getD [] → 0 < o → InTime t.now s o → w.store.ledger.Claims (row.id, s, o) := by
  have hC : StepsMeet (tickStep x) (TicksCapped x rows) (World.start n (RemindersDb.start rows ledger)) es :=
    stepsMeet_of_forall fun es₁ e es₂ w hes _ => by
      cases e with
      | arrive t => exact hcap t (hes ▸ List.mem_append_right es₁ List.mem_cons_self)
      | _ => trivial
  have hinit : RemindersKept occurs rows (RemindersDb.start rows ledger) :=
    ⟨rfl, fun _ hd => absurd hd List.not_mem_nil, fun _ ht => absurd ht List.not_mem_nil⟩
  have hkept := ((tick_rule hx).run (Requests.keeps_start hinit) hC hr).store
  have htickets := (tick_rule hx).tickets (f := TickPoint.ticket) (g := fun db => db.dispatched.map (·.2.key))
    (P := fun db k => db.ledger.Claims k) (fun _ => rfl) (fun _ _ _ ha => tickAdvance_tickets (n := 0) ha)
    (Requests.keeps_start hinit) hC hr ⟨List.nodup_nil, fun _ hk => absurd hk List.not_mem_nil⟩
  refine ⟨htickets.1.sublist (List.sublist_append_right _ _), hkept.inTime, ?_⟩
  intro t ht hn row hrow s o hs ho hpos hin
  exact (hkept.served t ht hn row hrow s o hs ho hpos hin).resolve_right List.not_mem_nil

/-- A reminder a quarter of an hour before the hour, looked for ten minutes before it. -/
def hourRows : ReminderRows where
  rows := [{ hourOnce with reminderMinutes := some [15] }]
  nodup := List.nodup_singleton _

def tenBefore : Tick := { now := -600 * second, notifications := true }

/-- Two workers, of which the second finds the reminder claimed. -/
def twoTicks : List (Event Tick Bool) :=
  [.arrive tenBefore, .arrive tenBefore, .step 0 true, .step 0 true, .step 1 true, .step 1 true, .step 0 true,
    .step 1 true, .step 0 true]

theorem hourRows_capped (t : Tick) : Capped onceExpander hourRows t := by
  intro m _ row hrow
  rw [List.mem_singleton.mp hrow]
  exact hourOnce_occursOnce.belowCap onceExpander_expands _ _

theorem reminders_once_and_in_time_hourRows :
    ∃ w, run (tickStep onceExpander) (World.start 0 (RemindersDb.start hourRows Keyed.empty)) twoTicks = some w ∧
      (w.store.dispatched.length = 1 ∧ w.store.completed.length = 2) ∧
      (w.store.dispatched.map (·.2.key)).Nodup := by
  have h : (run (tickStep onceExpander) (World.start 0 (RemindersDb.start hourRows Keyed.empty)) twoTicks).any
      (fun w => w.store.dispatched.length = 1 ∧ w.store.completed.length = 2) = true := by
    decide
  obtain ⟨w, hr, hw⟩ := exists_run_of_any h
  exact ⟨w, hr, of_decide_eq_true hw,
    (reminders_once_and_in_time onceExpander_expands (fun t _ => hourRows_capped t) hr).1⟩

end Mokosh.Calendar
