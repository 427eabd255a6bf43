import Mokosh.TimeTracking.Service
import Mokosh.Contracts.Ledger
import Mokosh.Lib.Transition

/-! # Interleaved calls

Any number of `create_time_entry`, `update_time_entry` and `delete_time_entry` calls in flight at
once.  A call is a program counter (`Call`) that says which of its transactions comes next; a step
(`SchedEvent.advance`) runs one transaction of one call.

* Transactions of different calls commit in any order; within one, the row locks make it atomic.
* The exception is the draw: when the period has no balance row yet there is nothing to lock, and
  the call is suspended between its read and its insert (`Call.seeding`).  It holds the lock of its
  entry meanwhile, so no other call's transaction on that entry runs (`Sched.blocked`).
* A transaction that fails ends its call; what the call committed before stays.

**`used_eq_consumed`**: the `hours_used` of every balance row is the sum of the `hours_consumed` of
the entries that name it, as long as no `DELETE` finds hours drawn on its row (`DeletesUndrawn`).
The draw of an edit may fall between the release and the delete of another call, and then its hours
are lost (`edit_between_release_and_delete`). -/

namespace Mokosh

/-- Where a call stands: its next transaction, with what it read before. -/
inductive Call where
  | create (request : CreateTimeEntryRequest)
  | update (id : Uuid) (request : UpdateTimeEntryRequest)
  /-- An update that has read `current`. -/
  | write (current : TimeEntry) (request : UpdateTimeEntryRequest)
  | release (id : Uuid)
  | consume (id : Uuid)
  /-- A draw that found no balance row and has its insert before it. -/
  | seeding (id : Uuid)
  | deleteRelease (id : Uuid)
  | delete (id : Uuid)

namespace Call

/-- The first transaction of an operation. -/
def initial : Call → Bool
  | create _ | update _ _ | deleteRelease _ => true
  | write _ _ | release _ | consume _ | seeding _ | delete _ => false

/-- The entry whose row the next transaction locks. -/
def needs : Call → Option Uuid
  | write current _ => some current.id
  | release id | consume id | deleteRelease id | delete id => some id
  | create _ | update _ _ | seeding _ => none

/-- The entry whose row a suspended transaction holds. -/
def holds : Call → Option Uuid
  | seeding id => some id
  | create _ | update _ _ | write _ _ | release _ | consume _ | deleteRelease _ | delete _ => none

/-- The entry that the next transaction deletes. -/
def deletes : Call → Option Uuid
  | delete id => some id
  | create _ | update _ _ | write _ _ | release _ | consume _ | seeding _ | deleteRelease _ => none

end Call

structure Sched where
  db : TimeDb
  calls : List Call

inductive SchedEvent where
  | start (call : Call)
  | advance (i : ℕ)

namespace Sched

/-- Another call holds the row that call `i` needs. -/
def blocked (s : Sched) (i : ℕ) (c : Call) : Bool :=
  match c.needs with
  | none => false
  | some id => (s.calls.eraseIdx i).any fun d => decide (d.holds = some id)

/-- Call `i` is over. -/
def finish (s : Sched) (i : ℕ) (db : TimeDb) : Sched := ⟨db, s.calls.eraseIdx i⟩

/-- Call `i` goes on at `c`. -/
def goto (s : Sched) (i : ℕ) (db : TimeDb) (c : Call) : Sched := ⟨db, s.calls.set i c⟩

/-- Run the next transaction of call `i`, which stands at the given program counter. -/
def exec (s : Sched) (i : ℕ) : Call → Sched
  | .create request =>
    match s.db.insertTimeEntry request with
    | .error _ => s.finish i s.db
    | .ok (id, db') => s.goto i db' (.consume id)
  | .update id request =>
    match s.db.getTimeEntry id with
    | .error _ => s.finish i s.db
    | .ok current => s.goto i s.db (.write current request)
  | .write current request =>
    match s.db.writeTimeEntry current request with
    | .error _ => s.finish i s.db
    | .ok db' => s.goto i db' (.release current.id)
  | .release id => s.goto i (s.db.releaseForEntry id) (.consume id)
  | .consume id =>
    match s.db.consumeBegin id with
    | .error _ => s.finish i s.db
    | .ok (some db') => s.finish i db'
    | .ok none => s.goto i s.db (.seeding id)
  | .seeding id =>
    match s.db.consumeSeed id with
    | .error _ => s.finish i s.db
    | .ok db' => s.finish i db'
  | .deleteRelease id => s.goto i (s.db.releaseForEntry id) (.delete id)
  | .delete id =>
    match s.db.eraseTimeEntry id with
    | .error _ => s.finish i s.db
    | .ok db' => s.finish i db'

/-- One step of the schedule. -/
def step (s : Sched) : SchedEvent → Option Sched
  | .start c => if c.initial then some { s with calls := s.calls ++ [c] } else none
  | .advance i =>
    match s.calls[i]? with
    | none => none
    | some c => if s.blocked i c then none else some (s.exec i c)

/-- No entries, no balance rows and no calls. -/
def init (book : ContractBook) (dir : Directory) : Sched :=
  ⟨{ book := book, dir := dir, balances := ∅, entries := ∅, timers := ∅ }, []⟩

end Sched

/-! ### What one transaction does to the tables -/

/-- What the transactions of the calls can do, when only rows that satisfy `G` are deleted. -/
inductive TimeChange (G : TimeEntry → Prop) (db : TimeDb) : TimeDb → Prop where
  | none : TimeChange G db db
  | insert {request : CreateTimeEntryRequest} {kind : ResolvedKind} {category : WorkCategory}
      {worked billable : ℤ} {billing : Option ℚ × Option ℚ} {contractId : Option Uuid} :
      TimeChange G db { db with
        entries := db.entries.insert
          (TimeDb.newEntry request kind category worked billable billing contractId) }
  | write {current : TimeEntry} {request : UpdateTimeEntryRequest} {kind : ResolvedKind}
      {category : WorkCategory} {worked billable : ℤ} {contractId : Option Uuid} :
      TimeChange G db { db with
        entries := db.entries.update current.id
          (TimeDb.editEntry current request kind category worked billable contractId) }
  | release (id : Uuid) : TimeChange G db (db.releaseForEntry id)
  | draw {id : Uuid} {db' : TimeDb} (h : db.Draws id db') : TimeChange G db db'
  | erase {id : Uuid} {e : TimeEntry} (he : db.entries.find id = some e) (hg : G e) :
      TimeChange G db { db with entries := db.entries.erase id }

namespace TimeDb

variable {G : TimeEntry → Prop} {db db' : TimeDb}

theorem insertTimeEntry_change {request : CreateTimeEntryRequest} {id : Uuid}
    (h : db.insertTimeEntry request = .ok (id, db')) : TimeChange G db db' := by
  obtain ⟨_, _, _, _, _, -, -, rfl⟩ := insertTimeEntry_eq_ok h
  exact .insert

theorem writeTimeEntry_change {current : TimeEntry} {request : UpdateTimeEntryRequest}
    (h : db.writeTimeEntry current request = .ok db') : TimeChange G db db' := by
  obtain ⟨_, _, _, _, _, rfl⟩ := writeTimeEntry_eq_ok h
  exact .write

theorem consumeBegin_change {id : Uuid} (h : db.consumeBegin id = .ok (some db')) :
    TimeChange G db db' := by
  rcases consumeBegin_eq_some h with ⟨rfl, -⟩ | h
  · exact .none
  · exact .draw h

theorem consumeSeed_change {id : Uuid} (h : db.consumeSeed id = .ok db') : TimeChange G db db' := by
  rcases consumeSeed_eq_ok h with ⟨rfl, -⟩ | h
  · exact .none
  · exact .draw h

end TimeDb

namespace Sched

variable {G : TimeEntry → Prop} {s s' : Sched}

theorem exec_change {i : ℕ} {c : Call}
    (hG : ∀ id e, c = .delete id → s.db.entries.find id = some e → G e) :
    TimeChange G s.db (s.exec i c).db := by
  cases c with
  | create request =>
      simp only [exec]
      split
      · exact .none
      · next id db' h => exact TimeDb.insertTimeEntry_change h
  | update id request =>
      simp only [exec]
      split <;> exact .none
  | write current request =>
      simp only [exec]
      split
      · exact .none
      · next db' h => exact TimeDb.writeTimeEntry_change h
  | release id => exact .release id
  | consume id =>
      simp only [exec]
      split
      · exact .none
      · next db' h => exact TimeDb.consumeBegin_change h
      · exact .none
  | seeding id =>
      simp only [exec]
      split
      · exact .none
      · next db' h => exact TimeDb.consumeSeed_change h
  | deleteRelease id => exact .release id
  | delete id =>
      simp only [exec]
      split
      · exact .none
      · next db' h =>
        unfold TimeDb.eraseTimeEntry at h
        split at h
        · exact absurd h (by simp)
        · next e he =>
          cases h
          exact .erase he (hG id e rfl he)

theorem step_change {e : SchedEvent} (h : step s e = some s')
    (hG : ∀ i id x, e = .advance i → s.calls[i]? = some (.delete id) →
      s.db.entries.find id = some x → G x) : TimeChange G s.db s'.db := by
  cases e with
  | start c =>
      simp only [step] at h
      split at h
      · cases h
        exact .none
      · exact absurd h (by simp)
  | advance i =>
      simp only [step] at h
      split at h
      · exact absurd h (by simp)
      · next c hc =>
        split at h
        · exact absurd h (by simp)
        · cases h
          refine exec_change fun id x hd hx => hG i id x rfl ?_ hx
          rw [hc, hd]

end Sched

/-! ### Attribution -/

/-- The hundredths of an hour that an entry has drawn from the row `balanceId`. -/
def TimeEntry.drawnFrom (e : TimeEntry) (balanceId : Uuid) : ℤ :=
  if e.hoursBalanceId = some balanceId then (e.hoursConsumed.getD 0).unscaled else 0

/-- Every hour that a balance row counts as used is consumed by an entry that names the row. -/
structure Attributed (db : TimeDb) : Prop where
  known : ∀ e ∈ db.entries, ∀ i, e.hoursBalanceId = some i → i < db.balances.next
  nonneg : ∀ e ∈ db.entries, ∀ i, 0 ≤ e.drawnFrom i
  used : ∀ b ∈ db.balances, b.hoursUsed.unscaled = db.entries.sum (·.drawnFrom b.id)

namespace Attributed

variable {db db' : TimeDb}

theorem drawnFrom_of_none {e : TimeEntry} (h : e.hoursConsumed.getD 0 = 0) (i : Uuid) :
    e.drawnFrom i = 0 := by
  unfold TimeEntry.drawnFrom
  split
  · rw [h]
    rfl
  · rfl

/-- One entry changes what it has drawn, and the balance rows change to match. -/
theorem update_entry (h : Attributed db) {e : TimeEntry} (he : e ∈ db.entries)
    {f : TimeEntry → TimeEntry} {hf : ∀ r, (f r).id = r.id} {t : Table HourBalance.id}
    (hnext : db.balances.next ≤ t.next) (hknown : ∀ i, (f e).hoursBalanceId = some i → i < t.next)
    (hnonneg : ∀ i, 0 ≤ (f e).drawnFrom i)
    (hused : ∀ b ∈ t, b.hoursUsed.unscaled + e.drawnFrom b.id =
      db.entries.sum (·.drawnFrom b.id) + (f e).drawnFrom b.id) :
    Attributed { db with balances := t, entries := db.entries.update e.id f hf } where
  known := by
    intro x hx i hi
    rcases (Table.mem_update_of_mem he).mp hx with rfl | ⟨hx, -⟩
    · exact hknown i hi
    · exact (h.known x hx i hi).trans_le hnext
  nonneg := by
    intro x hx i
    rcases (Table.mem_update_of_mem he).mp hx with rfl | ⟨hx, -⟩
    · exact hnonneg i
    · exact h.nonneg x hx i
  used := by
    intro b hb
    have h1 := hused b hb
    have h2 := Table.sum_update (f := f) he (·.drawnFrom b.id)
    simp only at h2 ⊢
    omega

theorem release (h : Attributed db) (id : Uuid) : Attributed (db.releaseForEntry id) := by
  unfold TimeDb.releaseForEntry
  split
  · exact h
  · next e he =>
    have hm := Table.find_mem he
    have hid := Table.key_of_find he
    subst hid
    split
    · exact h
    · next applied happ =>
      have hzero : ∀ i, e.unstamp.drawnFrom i = 0 := drawnFrom_of_none rfl
      refine h.update_entry hm ?_ (fun i hi => absurd hi (by simp [TimeEntry.unstamp]))
        (fun i => (hzero i).ge) ?_
      · split
        · exact le_refl _
        · rw [releaseHoursInTx_next]
      · intro b hb
        rw [hzero, add_zero]
        split at hb
        · next hnone =>
          rw [TimeEntry.drawnFrom, hnone, if_neg (by simp), add_zero]
          exact h.used b hb
        · next j hj =>
          -- What the entry drew from row `j` is part of what the row has used.
          have hdrawn : ∀ i, e.drawnFrom i = if i = j then applied.unscaled else 0 := by
            intro i
            simp only [TimeEntry.drawnFrom, hj, happ, Option.getD_some, Option.some.injEq,
              eq_comm (a := j)]
          have happ0 : 0 ≤ applied := by
            have h1 := h.nonneg e hm j
            rw [hdrawn, if_pos rfl] at h1
            exact h1
          have hle : ∀ b ∈ db.balances, b.id = j → applied ≤ b.hoursUsed := by
            intro b hb hbj
            have h1 := Table.le_sum (g := (·.drawnFrom b.id)) hm fun x hx => h.nonneg x hx b.id
            rw [← h.used b hb, hdrawn, if_pos hbj] at h1
            exact h1
          obtain ⟨b', hb', hid, hu⟩ := used_of_mem_release happ0 hle hb
          rw [hu, hdrawn, ← hid, h.used b' hb']
          omega

/-- An entry that has drawn nothing is stamped with a draw from the row `b`. -/
theorem drawnFrom_stamp {e : TimeEntry} (item : BlockItemRow) (b : HourBalance) (i : Uuid) :
    (e.stamp (drawOutcome item b (hoursOf e.durationMinutes))).drawnFrom i =
      if b.id = i then b.drawnCents e.durationMinutes else 0 := by
  have h := e.drawn_hoursConsumed item b
  rw [TimeEntry.drawn] at h
  simp only [TimeEntry.drawnFrom, h, Option.getD_some]
  simp only [TimeEntry.stamp, drawOutcome, Option.some.injEq]

theorem draw (h : Attributed db) {id : Uuid} (hd : db.Draws id db') : Attributed db' := by
  cases hd with
  | @existing e contractId item b he hd hi hc hb =>
      obtain ⟨hnone, -, -, hpos, -⟩ := TimeEntry.drawsOn_eq_some.mp hd
      have hm := Table.find_mem he
      have hid := Table.key_of_find he
      subst hid
      have hbm := (findBalance_eq_some hb).1
      have h0 : ∀ i, e.drawnFrom i = 0 := drawnFrom_of_none (by rw [hnone]; rfl)
      refine h.update_entry hm (le_refl _) ?_ ?_ ?_
      · intro i hi
        cases hi
        exact Table.key_lt_next hbm
      · intro i
        rw [drawnFrom_stamp]
        split
        · exact b.drawnCents_nonneg hpos.le
        · exact le_refl _
      · intro x hx
        rw [h0, drawnFrom_stamp]
        rcases (Table.mem_update_of_mem hbm).mp hx with rfl | ⟨hx, hne⟩
        · have h1 := h.used b hbm
          simp only [HourBalance.afterDraw, if_true]
          omega
        · rw [if_neg (Ne.symm hne), h.used x hx]
  | @fresh e contractId item he hd hi hc hb =>
      obtain ⟨hnone, -, -, hpos, -⟩ := TimeEntry.drawsOn_eq_some.mp hd
      have hm := Table.find_mem he
      have hid := Table.key_of_find he
      subst hid
      have h0 : ∀ i, e.drawnFrom i = 0 := drawnFrom_of_none (by rw [hnone]; rfl)
      -- No entry names a row that does not exist yet.
      have hfresh : db.entries.sum (·.drawnFrom db.balances.next) = 0 := by
        apply Table.sum_eq_zero
        intro x hx
        rw [TimeEntry.drawnFrom, if_neg]
        intro hx'
        exact absurd (h.known x hx _ hx') (lt_irrefl _)
      refine h.update_entry hm (Nat.le_succ _) ?_ ?_ ?_
      · intro i hi
        cases hi
        exact Nat.lt_succ_self _
      · intro i
        rw [drawnFrom_stamp]
        split
        · exact HourBalance.drawnCents_nonneg _ hpos.le
        · exact le_refl _
      · intro x hx
        rw [h0, drawnFrom_stamp]
        rcases (Table.mem_insert).mp hx with hx | rfl
        · have h1 : (newBalance (balanceKey contractId item e.date) item.included 0
              db.balances.next).id ≠ x.id := (Table.key_lt_next hx).ne'
          rw [if_neg h1, h.used x hx]
        · simp only [HourBalance.afterDraw, newBalance, hfresh, if_true, Numeric.zero_unscaled]
          omega

/-- **One transaction keeps the hours attributed**, if a deleted row has drawn nothing. -/
theorem change (h : Attributed db) (hc : TimeChange (fun e => e.hoursConsumed.getD 0 = 0) db db') :
    Attributed db' := by
  cases hc with
  | none => exact h
  | insert =>
      refine ⟨?_, ?_, ?_⟩
      · intro x hx i hi
        rcases (Table.mem_insert).mp hx with hx | rfl
        · exact h.known x hx i hi
        · exact absurd hi (by simp [TimeDb.newEntry])
      · intro x hx i
        rcases (Table.mem_insert).mp hx with hx | rfl
        · exact h.nonneg x hx i
        · exact le_refl _
      · intro b hb
        rw [Table.sum_insert, ← h.used b hb]
        exact (add_zero _).symm
  | write =>
      refine ⟨?_, ?_, ?_⟩
      · intro x hx i hi
        obtain ⟨r, hr, rfl⟩ := (Table.mem_update).mp hx
        refine h.known r hr i ?_
        split at hi <;> exact hi
      · intro x hx i
        obtain ⟨r, hr, rfl⟩ := (Table.mem_update).mp hx
        have h1 := h.nonneg r hr i
        split <;> exact h1
      · intro b hb
        rw [h.used b hb, eq_comm]
        apply Table.sum_update_congr
        · intro r _ _
          rfl
        · intro r
          rfl
  | release id => exact h.release id
  | draw hd => exact h.draw hd
  | @erase id e he hg =>
      have hm := Table.find_mem he
      have hid := Table.key_of_find he
      subst hid
      refine ⟨?_, ?_, ?_⟩
      · intro x hx i hi
        exact h.known x (Table.mem_erase.mp hx).1 i hi
      · intro x hx i
        exact h.nonneg x (Table.mem_erase.mp hx).1 i
      · intro b hb
        have h1 := Table.sum_erase hm (·.drawnFrom b.id)
        rw [drawnFrom_of_none hg, zero_add] at h1
        rw [h.used b hb, h1]

end Attributed

namespace Sched

/-- A `DELETE` finds a row that has no hours drawn. -/
def DeletesUndrawn (s : Sched) : SchedEvent → Prop
  | .start _ => True
  | .advance i => ∀ c ∈ s.calls[i]?, ∀ id ∈ c.deletes, ∀ e ∈ s.db.entries.find id,
      e.hoursConsumed.getD 0 = 0

instance (s : Sched) : ∀ e, Decidable (s.DeletesUndrawn e)
  | .start _ => isTrue trivial
  | .advance i => inferInstanceAs (Decidable (∀ c ∈ s.calls[i]?, ∀ id ∈ c.deletes,
      ∀ e ∈ s.db.entries.find id, e.hoursConsumed.getD 0 = 0))

theorem attributed_init (book : ContractBook) (dir : Directory) :
    Attributed (init book dir).db where
  known := fun e he => absurd he (Table.not_mem_empty e)
  nonneg := fun e he => absurd he (Table.not_mem_empty e)
  used := fun b hb => absurd hb (Table.not_mem_empty b)

theorem step_attributed {s s' : Sched} {e : SchedEvent} (h : Attributed s.db)
    (hd : s.DeletesUndrawn e) (hs : step s e = some s') : Attributed s'.db := by
  refine h.change (step_change hs ?_)
  rintro i id x rfl hc hx
  exact hd _ hc id rfl x hx

/-- The hours consumed by the entries that name a balance row. -/
def consumedFrom (db : TimeDb) (balanceId : Uuid) : ℚ :=
  db.entries.sum fun e =>
    if e.hoursBalanceId = some balanceId then (e.hoursConsumed.getD 0).toRat else 0

theorem consumedFrom_eq (db : TimeDb) (i : Uuid) :
    consumedFrom db i = (⟨db.entries.sum (·.drawnFrom i)⟩ : Numeric 2).toRat := by
  have h : ∀ l : List TimeEntry,
      (l.map fun e => if e.hoursBalanceId = some i then (e.hoursConsumed.getD 0).toRat else 0).sum =
        (⟨(l.map (·.drawnFrom i)).sum⟩ : Numeric 2).toRat := by
    intro l
    induction l with
    | nil => simp [Numeric.toRat]
    | cons e l ih =>
        rw [List.map_cons, List.sum_cons, ih, List.map_cons, List.sum_cons]
        have h1 : (if e.hoursBalanceId = some i then (e.hoursConsumed.getD 0).toRat else 0) =
            (⟨e.drawnFrom i⟩ : Numeric 2).toRat := by
          unfold TimeEntry.drawnFrom
          split
          · rfl
          · exact Numeric.toRat_zero.symm
        rw [h1, ← Numeric.toRat_add]
        rfl
  exact h db.entries.rows

/-- **Attribution.**  In every interleaving in which no `DELETE` finds hours drawn on its row, the
`hours_used` of every balance row is the sum of the `hours_consumed` of the live entries that name
it, in every state reached, in particular in those with no call in flight. -/
theorem used_eq_consumed {book : ContractBook} {dir : Directory} {es : List SchedEvent} {s : Sched}
    (hd : StepsMeet step DeletesUndrawn (init book dir) es)
    (hs : run step (init book dir) es = some s) :
    ∀ b ∈ s.db.balances, b.hoursUsed.toRat = consumedFrom s.db b.id := by
  intro b hb
  have h := run_invariant_of_stepsMeet (fun s => Attributed s.db)
    (fun _ _ _ h hd hs => step_attributed h hd hs) (attributed_init book dir) hd hs
  rw [consumedFrom_eq, ← h.used b hb]

/-- One entry of an hour is logged and drawn.  One call edits it and another deletes it: the edit
gives the hour back, the delete finds nothing to give back, the edit draws again, and the delete
removes the row. -/
def editAndDelete : List SchedEvent :=
  [.start (.create (sampleRequest 60 (sampleDay 1 10))), .advance 0, .advance 0, .advance 0,
    .start (.update 0 sampleEdit), .start (.deleteRelease 0),
    .advance 0, .advance 0, .advance 0, .advance 1, .advance 0, .advance 0]

/-- After it no call is in flight and no entry is left, and the balance row still counts an hour as
used. -/
theorem edit_between_release_and_delete :
    ∃ s, run step (init (sampleBook ⟨1000⟩ none) sampleDir) editAndDelete = some s ∧
      s.calls.length = 0 ∧
      ∃ b ∈ s.db.balances, b.hoursUsed.toRat = 1 ∧ consumedFrom s.db b.id = 0 := by
  have h : (run step (init (sampleBook ⟨1000⟩ none) sampleDir) editAndDelete).any (fun s =>
      decide (s.calls.length = 0) && s.db.balances.rows.any (fun b =>
        decide (b.hoursUsed.toRat = 1 ∧ consumedFrom s.db b.id = 0))) = true := by
    decide +kernel
  obtain ⟨s, hs, hp⟩ := exists_run_of_any h
  rw [Bool.and_eq_true, decide_eq_true_iff, List.any_eq_true] at hp
  obtain ⟨hc, b, hb, hu⟩ := hp
  exact ⟨s, hs, hc, b, hb, by simpa using hu⟩

/-- The same calls one after the other. -/
theorem used_eq_consumed_sample :
    ∃ s, run step (init (sampleBook ⟨1000⟩ none) sampleDir)
        [.start (.create (sampleRequest 60 (sampleDay 1 10))), .advance 0, .advance 0, .advance 0,
          .start (.update 0 sampleEdit), .advance 0, .advance 0, .advance 0, .advance 0,
          .start (.deleteRelease 0), .advance 0, .advance 0] = some s ∧
      ∀ b ∈ s.db.balances, b.hoursUsed.toRat = consumedFrom s.db b.id := by
  have h : (run step (init (sampleBook ⟨1000⟩ none) sampleDir)
      [.start (.create (sampleRequest 60 (sampleDay 1 10))), .advance 0, .advance 0, .advance 0,
        .start (.update 0 sampleEdit), .advance 0, .advance 0, .advance 0, .advance 0,
        .start (.deleteRelease 0), .advance 0, .advance 0]).any (fun _ => true) = true := by
    decide +kernel
  obtain ⟨s, hs, -⟩ := exists_run_of_any h
  exact ⟨s, hs, used_eq_consumed (by decide +kernel) hs⟩

end Sched

end Mokosh
