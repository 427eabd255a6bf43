import Mokosh.TimeTracking.Service
import Mokosh.Contracts.Ledger
import Mokosh.Lib.Transition

/-! # Stopping a timer twice

Any number of `stop_timer` calls in flight at once, statement by statement.  The transaction of a
call reads the timer's row without locking it, inserts the entry, deletes the timer's row and
commits; the draw of the entry's hours follows in a transaction of its own.  The database works
under read committed:

* What a transaction writes is seen by the others once it has committed.
* A `DELETE` of a row that another transaction has deleted and not yet committed waits
  (`Stops.blocked`).  When that transaction commits the `DELETE` matches no row, and
  `stop_timer` does not look at the number of rows.
* A statement may fail at any time (`StopEvent.abort`); what its transaction wrote is undone.

**`one_entry_of_deletes_find`**: as long as every `DELETE` finds its timer, a timer becomes at most
one entry.  Two calls that have both read the timer make two entries of it (`two_stops_two_entries`),
and so does every call that commits a `DELETE` of nothing (`missed_delete_duplicates`).
`created_iff` ties the log of the machine to the table of entries, and `run_stop` a call that is
not interrupted to `TimeDb.stopTimer`. -/

namespace Mokosh

/-! ### The statements of `stop_timer` -/

/-- The entry a stop is going to insert: everything but its id. -/
structure TimerDraft where
  timer : ActiveTimer
  now : ℤ
  today : NaiveDate
  workTypeId : Uuid
  companyId : Option Uuid
  kind : ResolvedKind
  duration : ℤ
  billing : Option ℚ × Option ℚ
  contractId : Option Uuid

def TimerDraft.entry (d : TimerDraft) (id : Uuid) : TimeEntry :=
  TimeDb.timerEntry d.timer d.now d.today d.workTypeId d.companyId d.kind d.duration d.billing
    d.contractId id

namespace TimeDb

/-- The `SELECT` of the timer. -/
def readTimer (db : TimeDb) (timerId userId : Uuid) : AppResult ActiveTimer :=
  orError (.notFound "Active timer")
    ((db.timers.find timerId).filter fun t => decide (t.userId = userId))

/-- What a stop works out between the `SELECT` of the timer and the `INSERT` of the entry. -/
def draftTimerEntry (db : TimeDb) (timer : ActiveTimer) (now : ℤ) (today : NaiveDate) :
    AppResult TimerDraft := do
  let raw := max (numMinutes (now - timer.startedAt)) 1
  let workTypeId ← timerWorkType db.dir timer
  let companyId := timerCompany db.dir timer
  let defaults ← fetchWorkTypeDefaults db.dir workTypeId
  let kind ← resolveEntryKind
    { requested := none
      companyId := companyId
      ownCompanyId := db.dir.ownCompanyId
      ticketId := timer.ticketId
      projectId := timer.projectId
      taskId := none
      contractId := none
      isBillable := defaults.defaultBillable }
  let duration := match db.dir.roundingRule with
    | some rule => applyRounding raw rule
    | none => raw
  .ok
    { timer := timer
      now := now
      today := today
      workTypeId := workTypeId
      companyId := companyId
      kind := kind
      duration := duration
      billing := resolveBilling none kind.billable defaults duration
      contractId := blockHoursContractFor db.book companyId today kind.kind kind.billable }

/-- What the transaction of a stop writes. -/
def commitStop (db : TimeDb) (d : TimerDraft) : TimeDb :=
  { db with
    entries := db.entries.insert d.entry
    timers := db.timers.erase d.timer.id }

theorem readTimer_eq_ok {db : TimeDb} {timerId userId : Uuid} {timer : ActiveTimer}
    (h : db.readTimer timerId userId = .ok timer) :
    db.timers.find timerId = some timer ∧ timer.id = timerId := by
  obtain ⟨hf, -⟩ := Option.filter_eq_some_iff.mp (orError_eq_ok.mp h)
  exact ⟨hf, Table.key_of_find hf⟩

theorem draftTimerEntry_timer {db : TimeDb} {timer : ActiveTimer} {now : ℤ} {today : NaiveDate}
    {d : TimerDraft} (h : db.draftTimerEntry timer now today = .ok d) : d.timer = timer := by
  unfold draftTimerEntry at h
  obtain ⟨workTypeId, -, h⟩ := bind_eq_ok.mp h
  obtain ⟨defaults, -, h⟩ := bind_eq_ok.mp h
  obtain ⟨kind, -, h⟩ := bind_eq_ok.mp h
  cases h
  rfl

/-- The first transaction of `stop_timer` is its statements one after the other. -/
theorem insertTimerEntry_eq (db : TimeDb) (timerId userId : Uuid) (now : ℤ) (today : NaiveDate) :
    db.insertTimerEntry timerId userId now today = (do
      let timer ← db.readTimer timerId userId
      let d ← db.draftTimerEntry timer now today
      .ok (db.entries.next, db.commitStop d)) := by
  show (db.readTimer timerId userId >>= _) = _
  cases hr : db.readTimer timerId userId with
  | error e => rfl
  | ok timer =>
      obtain ⟨-, rfl⟩ := readTimer_eq_ok hr
      unfold draftTimerEntry
      simp only [bind, Except.bind]
      cases timerWorkType db.dir timer with
      | error e => rfl
      | ok workTypeId =>
          simp only
          cases fetchWorkTypeDefaults db.dir workTypeId with
          | error e => rfl
          | ok defaults =>
              simp only
              cases resolveEntryKind _ with
              | error e => rfl
              | ok kind => rfl

end TimeDb

/-! ### The calls in flight -/

/-- Where a call stands: its next statement, with what it has read and written. -/
inductive StopCall where
  | reading (timerId userId : Uuid) (now : ℤ) (today : NaiveDate)
  | inserting (timer : ActiveTimer) (now : ℤ) (today : NaiveDate)
  | deleting (draft : TimerDraft)
  /-- Both writes are made and not committed; `found` says whether the `DELETE` matched the row. -/
  | committing (draft : TimerDraft) (found : Bool)
  /-- The transaction has committed the entry; its draw comes next. -/
  | drawing (entryId : Uuid)

/-- The timer whose row the call has deleted and not committed. -/
def StopCall.holds : StopCall → List Uuid
  | committing d true => [d.timer.id]
  | committing _ false | reading _ _ _ _ | inserting _ _ _ | deleting _ | drawing _ => []

/-- The timer whose row the next statement deletes. -/
def StopCall.deletes : StopCall → Option Uuid
  | deleting d => some d.timer.id
  | committing _ _ | reading _ _ _ _ | inserting _ _ _ | drawing _ => none

structure Stops where
  db : TimeDb
  calls : List StopCall
  /-- The entries the calls have committed, each after the timer it was made of. -/
  created : List (Uuid × Uuid)

inductive StopEvent where
  | start (timerId userId : Uuid) (now : ℤ) (today : NaiveDate)
  /-- Call `i` runs its next statement. -/
  | advance (i : ℕ)
  /-- Call `i` fails, and what is open of it is rolled back. -/
  | abort (i : ℕ)

namespace Stops

/-- Another call has deleted the row that call `i` is about to delete, and has not committed. -/
def blocked (s : Stops) (i : ℕ) (c : StopCall) : Bool :=
  match c.deletes with
  | none => false
  | some timerId => (s.calls.eraseIdx i).any fun d => decide (timerId ∈ d.holds)

def finish (s : Stops) (i : ℕ) (db : TimeDb) : Stops := ⟨db, s.calls.eraseIdx i, s.created⟩

def goto (s : Stops) (i : ℕ) (c : StopCall) : Stops := ⟨s.db, s.calls.set i c, s.created⟩

/-- The next statement of call `i`, which stands at the given program counter. -/
def exec (s : Stops) (i : ℕ) : StopCall → Stops
  | .reading timerId userId now today =>
    match s.db.readTimer timerId userId with
    | .error _ => s.finish i s.db
    | .ok timer => s.goto i (.inserting timer now today)
  | .inserting timer now today =>
    match s.db.draftTimerEntry timer now today with
    | .error _ => s.finish i s.db
    | .ok d => s.goto i (.deleting d)
  | .deleting d => s.goto i (.committing d (s.db.timers.find d.timer.id).isSome)
  | .committing d _ =>
    ⟨s.db.commitStop d, s.calls.set i (.drawing s.db.entries.next),
      s.created ++ [(d.timer.id, s.db.entries.next)]⟩
  | .drawing entryId =>
    match s.db.consumeForEntry entryId with
    | .error _ => s.finish i s.db
    | .ok db' => s.finish i db'

def step (s : Stops) : StopEvent → Option Stops
  | .start timerId userId now today =>
    some { s with calls := s.calls ++ [.reading timerId userId now today] }
  | .advance i =>
    match s.calls[i]? with
    | none => none
    | some c => if s.blocked i c then none else some (s.exec i c)
  | .abort i => if i < s.calls.length then some (s.finish i s.db) else none

/-- No call has started. -/
def init (db : TimeDb) : Stops := ⟨db, [], []⟩

/-- The rows of the entries that were made of a timer. -/
def entriesOf (s : Stops) (timerId : Uuid) : List TimeEntry :=
  s.db.entries.rows.filter fun e => decide ((timerId, e.id) ∈ s.created)

/-- A `DELETE` finds the row of its timer. -/
def deleteFinds (s : Stops) : StopEvent → Bool
  | .advance i =>
    ((s.calls[i]?).bind StopCall.deletes).all fun timerId => (s.db.timers.find timerId).isSome
  | .start _ _ _ _ | .abort _ => true

/-! ### What a step can do -/

/-- Everything a step can do, and to which call. -/
inductive Change (s : Stops) : StopEvent → Stops → Prop where
  | start (timerId userId : Uuid) (now : ℤ) (today : NaiveDate) :
      Change s (.start timerId userId now today)
        { s with calls := s.calls ++ [.reading timerId userId now today] }
  | ended {e : StopEvent} (i : ℕ) : Change s e (s.finish i s.db)
  | read {i : ℕ} {timerId userId : Uuid} {now : ℤ} {today : NaiveDate} {timer : ActiveTimer}
      (hc : s.calls[i]? = some (.reading timerId userId now today))
      (hr : s.db.readTimer timerId userId = .ok timer) :
      Change s (.advance i) (s.goto i (.inserting timer now today))
  | insert {i : ℕ} {timer : ActiveTimer} {now : ℤ} {today : NaiveDate} {d : TimerDraft}
      (hc : s.calls[i]? = some (.inserting timer now today)) (hd : d.timer = timer) :
      Change s (.advance i) (s.goto i (.deleting d))
  | delete {i : ℕ} {d : TimerDraft} (hc : s.calls[i]? = some (.deleting d))
      (hb : ∀ c ∈ s.calls.eraseIdx i, d.timer.id ∉ c.holds) :
      Change s (.advance i)
        (s.goto i (.committing d (s.db.timers.find d.timer.id).isSome))
  | commit {i : ℕ} {d : TimerDraft} {found : Bool}
      (hc : s.calls[i]? = some (.committing d found)) :
      Change s (.advance i) ⟨s.db.commitStop d, s.calls.set i (.drawing s.db.entries.next),
        s.created ++ [(d.timer.id, s.db.entries.next)]⟩
  | draw {i : ℕ} {entryId : Uuid} {db' : TimeDb} (h : s.db.Draws entryId db') :
      Change s (.advance i) (s.finish i db')

theorem exec_change {s : Stops} {i : ℕ} {c : StopCall} (hc : s.calls[i]? = some c)
    (hb : s.blocked i c = false) : Change s (.advance i) (s.exec i c) := by
  cases c with
  | reading timerId userId now today =>
      simp only [exec]
      split
      · exact .ended i
      · next timer hr => exact .read hc hr
  | inserting timer now today =>
      simp only [exec]
      split
      · exact .ended i
      · next d hd => exact .insert hc (TimeDb.draftTimerEntry_timer hd)
  | deleting d =>
      refine .delete hc fun c' hc' => ?_
      simp only [blocked, StopCall.deletes, List.any_eq_false, decide_eq_true_eq] at hb
      exact hb c' hc'
  | committing d found => exact .commit hc
  | drawing entryId =>
      simp only [exec]
      split
      · exact .ended i
      · next db' h =>
        rcases TimeDb.consumeForEntry_eq_ok h with ⟨rfl, -⟩ | hd
        · exact .ended i
        · exact .draw hd

theorem step_change {s s' : Stops} {e : StopEvent} (h : step s e = some s') : Change s e s' := by
  cases e with
  | start timerId userId now today =>
      cases h
      exact .start timerId userId now today
  | advance i =>
      simp only [step] at h
      split at h
      · exact absurd h (by simp)
      · next c hc =>
        split at h
        · exact absurd h (by simp)
        · next hb =>
          cases h
          exact exec_change hc (by simpa using hb)
  | abort i =>
      simp only [step] at h
      split at h
      · cases h
        exact .ended i
      · exact absurd h (by simp)

/-! ### The log of the machine -/

variable {s s' : Stops} {e : StopEvent}

theorem ids_insert (db : TimeDb) (d : TimerDraft) :
    (db.commitStop d).entries.rows.map TimeEntry.id =
      db.entries.rows.map TimeEntry.id ++ [db.entries.next] :=
  Table.insert_keys _ _ fun _ => rfl

theorem ids_draw {db db' : TimeDb} {id : Uuid} (h : db.Draws id db') :
    db'.entries.rows.map TimeEntry.id = db.entries.rows.map TimeEntry.id := by
  obtain ⟨-, e, item, b, -, hu⟩ := h.entries
  rw [hu, Table.update_keys]

theorem timers_draw {db db' : TimeDb} {id : Uuid} (h : db.Draws id db') :
    db'.timers = db.timers := by
  cases h <;> rfl

/-- The entries that were not there in the beginning are those of the log, in its order. -/
theorem created_iff {db : TimeDb} {es : List StopEvent} (hr : run step (init db) es = some s) :
    s.db.entries.rows.map TimeEntry.id =
      db.entries.rows.map TimeEntry.id ++ s.created.map Prod.snd := by
  refine run_invariant (fun s => s.db.entries.rows.map TimeEntry.id =
    db.entries.rows.map TimeEntry.id ++ s.created.map Prod.snd) ?_ (by simp [init]) hr
  intro s e s' hs h
  cases step_change h with
  | start | ended | read | insert | delete => exact hs
  | commit hc =>
      rw [ids_insert, hs]
      simp
  | draw hd => exact (ids_draw hd).trans hs

/-- A timer of which the log knows only one entry has at most one row. -/
theorem length_entriesOf_le (h : (s.created.map Prod.fst).Nodup) (timerId : Uuid) :
    (s.entriesOf timerId).length ≤ 1 := by
  have hn : (s.entriesOf timerId).Nodup :=
    (List.Nodup.of_map TimeEntry.id s.db.entries.nodup).filter _
  have hmem : ∀ e ∈ s.entriesOf timerId, e ∈ s.db.entries ∧ (timerId, e.id) ∈ s.created := by
    intro e he
    obtain ⟨h1, h2⟩ := List.mem_filter.mp he
    exact ⟨h1, by simpa using h2⟩
  by_contra hlen
  match hl : s.entriesOf timerId with
  | [] => simp [hl] at hlen
  | [_] => simp [hl] at hlen
  | e :: e' :: l =>
      rw [hl] at hn hmem
      obtain ⟨h1, h2⟩ := hmem e (by simp)
      obtain ⟨h3, h4⟩ := hmem e' (by simp)
      have hid := List.inj_on_of_nodup_map h h2 h4 rfl
      rw [Prod.mk.injEq] at hid
      have heq : e = e' := Table.eq_of_key_eq h1 h3 hid.2
      simp [heq] at hn

/-! ### One entry for each timer -/

/-- No two calls have deleted the same timer, what a call has deleted is still there for the others,
and a timer that has become an entry is gone. -/
structure Safe (s : Stops) : Prop where
  held : (s.calls.flatMap StopCall.holds).Nodup
  found : ∀ d b, StopCall.committing d b ∈ s.calls → b = true
  present : ∀ c ∈ s.calls, ∀ t ∈ c.holds, ∃ timer, s.db.timers.find t = some timer
  gone : ∀ p ∈ s.created, s.db.timers.find p.1 = none
  once : (s.created.map Prod.fst).Nodup

namespace Safe

theorem init (db : TimeDb) : Safe (init db) where
  held := List.nodup_nil
  found := by simp [Stops.init]
  present := by simp [Stops.init]
  gone := by simp [Stops.init]
  once := List.nodup_nil

/-- A call goes away, and no timer with it. -/
theorem finish (h : Safe s) (i : ℕ) {db' : TimeDb} (ht : db'.timers = s.db.timers) :
    Safe (s.finish i db') where
  held := nodup_holds_erase h.held i
  found := fun d b hm => h.found d b (List.mem_of_mem_eraseIdx hm)
  present := by
    intro c hc
    show ∀ t ∈ c.holds, ∃ timer, db'.timers.find t = some timer
    rw [ht]
    exact h.present c (List.mem_of_mem_eraseIdx hc)
  gone := by
    show ∀ p ∈ s.created, db'.timers.find p.1 = none
    rw [ht]
    exact h.gone
  once := h.once

/-- A call goes on at `c'`; if that means it has deleted a timer, the timer is there and nobody else
has deleted it. -/
theorem goto (h : Safe s) {i : ℕ} {c c' : StopCall} (hc : s.calls[i]? = some c)
    (hfound : ∀ d b, c' = .committing d b → b = true)
    (hn : c'.holds.Nodup) (hd : ∀ t ∈ c'.holds, (∃ timer, s.db.timers.find t = some timer) ∧
      ∀ x ∈ s.calls.eraseIdx i, t ∉ x.holds) : Safe (s.goto i c') where
  held := nodup_holds_set hc h.held hn fun t ht => (hd t ht).2
  found := by
    intro d b hm
    rcases (mem_calls_set hc).mp hm with he | hm
    · exact hfound d b he.symm
    · exact h.found d b (List.mem_of_mem_eraseIdx hm)
  present := by
    intro x hx t ht
    rcases (mem_calls_set hc).mp hx with rfl | hx
    · exact (hd t ht).1
    · exact h.present x (List.mem_of_mem_eraseIdx hx) t ht
  gone := h.gone
  once := h.once

theorem commit (h : Safe s) {i : ℕ} {d : TimerDraft} {found : Bool}
    (hc : s.calls[i]? = some (.committing d found)) :
    Safe ⟨s.db.commitStop d, s.calls.set i (.drawing s.db.entries.next),
      s.created ++ [(d.timer.id, s.db.entries.next)]⟩ := by
  have hm := List.mem_of_getElem? hc
  obtain rfl := h.found d found hm
  obtain ⟨timer, ht⟩ := h.present _ hm d.timer.id (by simp [StopCall.holds])
  -- The timer was there, so it is not one of those that have become entries.
  have hnew : d.timer.id ∉ s.created.map Prod.fst := by
    intro hcr
    obtain ⟨p, hp, hpt⟩ := List.mem_map.mp hcr
    have h1 := h.gone p hp
    rw [hpt, ht] at h1
    exact absurd h1 (by simp)
  refine ⟨?_, ?_, ?_, ?_, ?_⟩
  · exact nodup_holds_set hc h.held List.nodup_nil (by simp [StopCall.holds])
  · intro d' b hm'
    rcases (mem_calls_set hc).mp hm' with he | hm'
    · exact absurd he (by simp)
    · exact h.found d' b (List.mem_of_mem_eraseIdx hm')
  · intro x hx t hxt
    rcases (mem_calls_set hc).mp hx with rfl | hx
    · exact absurd hxt (by simp [StopCall.holds])
    · have hne : t ≠ d.timer.id := by
        rintro rfl
        exact not_mem_holds hc h.held (by simp [StopCall.holds]) hx hxt
      obtain ⟨timer', ht'⟩ := h.present x (List.mem_of_mem_eraseIdx hx) t hxt
      exact ⟨timer', (Table.find_erase_ne hne).trans ht'⟩
  · intro p hp
    rcases List.mem_append.mp hp with hp | hp
    · by_cases hpt : p.1 = d.timer.id
      · rw [hpt]
        exact Table.find_erase_self
      · exact (Table.find_erase_ne hpt).trans (h.gone p hp)
    · rw [List.mem_singleton] at hp
      subst hp
      exact Table.find_erase_self
  · rw [List.map_append, List.nodup_append]
    refine ⟨h.once, by simp, ?_⟩
    intro a ha b hb
    simp only [List.map_cons, List.map_nil, List.mem_singleton] at hb
    subst hb
    exact fun hab => hnew (hab ▸ ha)

theorem step (h : Safe s) (hf : s.deleteFinds e = true) (hs : Stops.step s e = some s') :
    Safe s' := by
  cases step_change hs with
  | start timerId userId now today =>
      refine ⟨?_, ?_, ?_, h.gone, h.once⟩
      · simpa [List.flatMap_append, StopCall.holds] using h.held
      · simpa using h.found
      · simpa [StopCall.holds, or_imp, forall_and] using h.present
  | ended i => exact h.finish i rfl
  | read hc hr => exact h.goto hc (by simp) List.nodup_nil (by simp [StopCall.holds])
  | insert hc hd => exact h.goto hc (by simp) List.nodup_nil (by simp [StopCall.holds])
  | @delete i d hc hb =>
      simp only [deleteFinds, hc, Option.bind_some, StopCall.deletes, Option.all_some] at hf
      rw [hf]
      refine h.goto hc (by simp) (by simp [StopCall.holds]) ?_
      intro t ht
      rw [StopCall.holds, List.mem_singleton] at ht
      subst ht
      exact ⟨Option.isSome_iff_exists.mp hf, hb⟩
  | commit hc => exact h.commit hc
  | draw hd => exact h.finish _ (timers_draw hd)

end Safe

/-- In every run in which each `DELETE` finds its timer's row, a timer becomes at most one entry. -/
theorem one_entry_of_deletes_find {db : TimeDb} {es : List StopEvent}
    (hC : StepsMeet step (fun s e => s.deleteFinds e = true) (init db) es)
    (hr : run step (init db) es = some s) (timerId : Uuid) :
    (s.entriesOf timerId).length ≤ 1 := by
  have hs : Safe s := run_invariant_of_stepsMeet Safe (fun s e s' h hf hst => h.step hf hst)
    (Safe.init db) hC hr
  exact length_entriesOf_le hs.once timerId

/-! ### A `DELETE` of nothing -/

/-- The timer of which a call has read the row. -/
def timerOf : StopCall → Option Uuid
  | .inserting timer _ _ => some timer.id
  | .deleting d | .committing d _ => some d.timer.id
  | .reading _ _ _ _ | .drawing _ => none

/-- A timer that a call has read is still there or has become an entry, and it has become one if the
call's `DELETE` found nothing. -/
structure Traced (s : Stops) : Prop where
  seen : ∀ c ∈ s.calls, ∀ t, timerOf c = some t →
    (∃ timer, s.db.timers.find t = some timer) ∨ t ∈ s.created.map Prod.fst
  missed : ∀ d, StopCall.committing d false ∈ s.calls → d.timer.id ∈ s.created.map Prod.fst

namespace Traced

theorem finish (h : Traced s) (i : ℕ) {db' : TimeDb} (ht : db'.timers = s.db.timers) :
    Traced (s.finish i db') where
  seen := by
    intro c hc
    show ∀ t, timerOf c = some t → (∃ timer, db'.timers.find t = some timer) ∨ _
    rw [ht]
    exact h.seen c (List.mem_of_mem_eraseIdx hc)
  missed := fun d hm => h.missed d (List.mem_of_mem_eraseIdx hm)

theorem goto (h : Traced s) {i : ℕ} {c c' : StopCall} (hc : s.calls[i]? = some c)
    (hseen : ∀ t, timerOf c' = some t →
      (∃ timer, s.db.timers.find t = some timer) ∨ t ∈ s.created.map Prod.fst)
    (hmissed : ∀ d, c' = .committing d false → d.timer.id ∈ s.created.map Prod.fst) :
    Traced (s.goto i c') where
  seen := by
    intro x hx
    rcases (mem_calls_set hc).mp hx with rfl | hx
    · exact hseen
    · exact h.seen x (List.mem_of_mem_eraseIdx hx)
  missed := by
    intro d hm
    rcases (mem_calls_set hc).mp hm with he | hm
    · exact hmissed d he.symm
    · exact h.missed d (List.mem_of_mem_eraseIdx hm)

theorem commit (h : Traced s) {i : ℕ} {d : TimerDraft} {found : Bool}
    (hc : s.calls[i]? = some (.committing d found)) :
    Traced ⟨s.db.commitStop d, s.calls.set i (.drawing s.db.entries.next),
      s.created ++ [(d.timer.id, s.db.entries.next)]⟩ where
  seen := by
    intro x hx t ht
    rw [List.map_append, List.mem_append]
    rcases (mem_calls_set hc).mp hx with rfl | hx
    · exact absurd ht (by simp [timerOf])
    · by_cases htd : t = d.timer.id
      · exact .inr (.inr (by simp [htd]))
      · rcases h.seen x (List.mem_of_mem_eraseIdx hx) t ht with ⟨timer, hf⟩ | hm
        · exact .inl ⟨timer, (Table.find_erase_ne htd).trans hf⟩
        · exact .inr (.inl hm)
  missed := by
    intro d' hm
    rw [List.map_append, List.mem_append]
    rcases (mem_calls_set hc).mp hm with he | hm
    · exact absurd he (by simp)
    · exact .inl (h.missed d' (List.mem_of_mem_eraseIdx hm))

theorem step (h : Traced s) (hs : Stops.step s e = some s') : Traced s' := by
  cases step_change hs with
  | start timerId userId now today =>
      refine ⟨?_, ?_⟩
      · intro c hc
        rcases List.mem_append.mp hc with hc | hc
        · exact h.seen c hc
        · rw [List.mem_singleton] at hc
          subst hc
          exact fun t ht => absurd ht (by simp [timerOf])
      · simpa using h.missed
  | ended i => exact h.finish i rfl
  | @read i timerId userId now today timer hc hr =>
      refine h.goto hc ?_ (by simp)
      intro t ht
      obtain ⟨hf, rfl⟩ := TimeDb.readTimer_eq_ok hr
      simp only [timerOf, Option.some.injEq] at ht
      exact .inl ⟨timer, ht ▸ hf⟩
  | insert hc hd =>
      subst hd
      refine h.goto hc (fun t ht => ?_) (by simp)
      exact h.seen _ (List.mem_of_getElem? hc) t ht
  | @delete i d hc hb =>
      have hseen := h.seen _ (List.mem_of_getElem? hc) d.timer.id rfl
      refine h.goto hc (fun t ht => ?_) ?_
      · simp only [timerOf, Option.some.injEq] at ht
        exact ht ▸ hseen
      · intro d' he
        rw [StopCall.committing.injEq] at he
        obtain ⟨rfl, hnone⟩ := he
        rw [Option.isSome_eq_false_iff, Option.isNone_iff_eq_none] at hnone
        rcases hseen with ⟨timer, hf⟩ | hm
        · rw [hnone] at hf
          exact absurd hf (by simp)
        · exact hm
  | commit hc => exact h.commit hc
  | draw hd => exact h.finish _ (timers_draw hd)

end Traced

theorem missed_delete_created {db : TimeDb} {es : List StopEvent} {i : ℕ} {d : TimerDraft}
    (hr : run step (init db) es = some s) (hc : s.calls[i]? = some (.committing d false)) :
    ∃ entryId, (d.timer.id, entryId) ∈ s.created := by
  have hs : Traced s := run_invariant Traced (fun s e s' h hst => h.step hst)
    ⟨by simp [init], by simp [init]⟩ hr
  obtain ⟨p, hp, hpt⟩ := List.mem_map.mp (hs.missed d (List.mem_of_getElem? hc))
  exact ⟨p.2, hpt ▸ hp⟩

/-- When the `DELETE` of a call has found nothing, another call has made an entry of the timer, and
the commit makes one more. -/
theorem missed_delete_duplicates {db : TimeDb} {es : List StopEvent} {i : ℕ} {d : TimerDraft}
    (hr : run step (init db) es = some s) (hc : s.calls[i]? = some (.committing d false)) :
    ∃ s', step s (.advance i) = some s' ∧ 1 < (s'.entriesOf d.timer.id).length := by
  obtain ⟨entryId, hm⟩ := missed_delete_created hr hc
  have hst : step s (.advance i) = some (s.exec i (.committing d false)) := by
    simp [step, hc, blocked, StopCall.deletes]
  refine ⟨_, hst, ?_⟩
  -- The entry of the other call has a row, below the id of the new one.
  have hid : entryId ∈ s.db.entries.rows.map TimeEntry.id := by
    rw [created_iff hr]
    exact List.mem_append_right _ (List.mem_map.mpr ⟨_, hm, rfl⟩)
  obtain ⟨x, hx, rfl⟩ := List.mem_map.mp hid
  have hlt : x.id < s.db.entries.next := s.db.entries.lt_next x hx
  have h1 : x ∈ (s.exec i (.committing d false)).entriesOf d.timer.id :=
    List.mem_filter.mpr ⟨(Table.mem_insert).mpr (.inl hx), by simp [exec, hm]⟩
  have h2 : d.entry s.db.entries.next ∈ (s.exec i (.committing d false)).entriesOf d.timer.id :=
    List.mem_filter.mpr ⟨(Table.mem_insert).mpr (.inr rfl),
      by simp [exec, TimerDraft.entry, TimeDb.timerEntry]⟩
  have hne : x ≠ d.entry s.db.entries.next := fun h => hlt.ne (congrArg TimeEntry.id h)
  have hsub : [x, d.entry s.db.entries.next].Subperm
      ((s.exec i (.committing d false)).entriesOf d.timer.id) :=
    List.Nodup.subperm (by simpa using hne) (by simp [h1, h2])
  exact hsub.length_le

/-! ### One call alone -/

/-- A call that is not interrupted does what `TimeDb.stopTimer` does. -/
theorem run_stop {db db' : TimeDb} {timerId userId id : Uuid} {now : ℤ} {today : NaiveDate}
    (h : db.insertTimerEntry timerId userId now today = .ok (id, db')) :
    run step (init db) (.start timerId userId now today :: List.replicate 5 (.advance 0)) =
      some ⟨(db.stopTimer timerId userId now today).1, [], [(timerId, id)]⟩ := by
  have hstop : (db.stopTimer timerId userId now today).1 =
      (db'.andThen id (db'.consumeForEntry id)).1 := by
    simp only [TimeDb.stopTimer, h]
  rw [TimeDb.insertTimerEntry_eq] at h
  obtain ⟨timer, hread, h⟩ := bind_eq_ok.mp h
  obtain ⟨d, hd, h⟩ := bind_eq_ok.mp h
  cases h
  obtain ⟨hf, rfl⟩ := TimeDb.readTimer_eq_ok hread
  obtain rfl := TimeDb.draftTimerEntry_timer hd
  rw [hstop]
  cases hcons : (db.commitStop d).consumeForEntry db.entries.next with
  | error e =>
      simp [run, step, init, exec, blocked, goto, finish, StopCall.deletes, hread, hd, hf, hcons,
        TimeDb.andThen, List.replicate]
  | ok db' =>
      simp [run, step, init, exec, blocked, goto, finish, StopCall.deletes, hread, hd, hf, hcons,
        TimeDb.andThen, List.replicate]

end Stops

/-! ### Two stops of one timer -/

/-- A tenant with one running timer. -/
def sampleTimerDb : TimeDb :=
  { sampleTimeDb ⟨∅, ∅⟩ with
    timers := (∅ : Table ActiveTimer.id).insert fun id =>
      { id := id
        userId := 1
        ticketId := none
        projectId := none
        companyId := some 7
        workTypeId := some 1
        startedAt := 0 } }

namespace Stops

/-- Two requests that both read the timer before either deletes it. -/
def twoStops : List StopEvent :=
  [.start 0 1 3600 (sampleDay 1 1), .start 0 1 3600 (sampleDay 1 1), .advance 0, .advance 1,
    .advance 0, .advance 1, .advance 0, .advance 0, .advance 1, .advance 1]

/-- The second `DELETE` finds nothing, and the timer becomes two entries. -/
theorem two_stops_two_entries :
    ∃ s, run step (init sampleTimerDb) twoStops = some s ∧ (s.entriesOf 0).length = 2 := by
  have h : (run step (init sampleTimerDb) twoStops).any
      (fun s => decide ((s.entriesOf 0).length = 2)) = true := by decide +kernel
  obtain ⟨s, hs, hp⟩ := exists_run_of_any h
  exact ⟨s, hs, of_decide_eq_true hp⟩

/-- The second request comes when the first is through with the timer. -/
def stopThenStop : List StopEvent :=
  [.start 0 1 3600 (sampleDay 1 1), .advance 0, .advance 0, .advance 0, .advance 0, .advance 0,
    .start 0 1 3600 (sampleDay 1 1), .advance 0]

theorem one_entry_stopThenStop :
    ∃ s, run step (init sampleTimerDb) stopThenStop = some s ∧
      (s.entriesOf 0).length ≤ 1 ∧ s.created = [(0, 0)] := by
  have h : (run step (init sampleTimerDb) stopThenStop).any
      (fun s => decide (s.created = [(0, 0)])) = true := by decide +kernel
  obtain ⟨s, hs, hp⟩ := exists_run_of_any h
  exact ⟨s, hs, one_entry_of_deletes_find (by decide +kernel) hs 0, of_decide_eq_true hp⟩

end Stops

end Mokosh
