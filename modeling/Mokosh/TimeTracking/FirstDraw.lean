import Mokosh.TimeTracking.Schedule

/-! # The first draws of a period

Interleaved `create_time_entry` calls of which none finds a balance row.  Each call commits its
entry and draws in a second transaction.  While the period has no row there is nothing to lock, so
two calls may both reach the insert; the unique constraint refuses the second, after its entry is
committed (`loser_stays_undrawn`).

**`covered_accounted`**: if every insert finds its period without a row, then once no call is in
flight the hours of every covered entry are drawn or recorded as overage.  What carries it is that
an entry not drawn yet has a call in flight that will draw it (`FirstDraws`). -/

namespace Mokosh

/-- The request logs at least a minute, if it is for a number of minutes at all. -/
def CreateTimeEntryRequest.logsTime (request : CreateTimeEntryRequest) : Prop :=
  ∀ m ∈ (computeMinutes request).toOption, 0 < m

instance (request : CreateTimeEntryRequest) : Decidable request.logsTime :=
  inferInstanceAs (Decidable (∀ m ∈ (computeMinutes request).toOption, 0 < m))

theorem CreateTimeEntryRequest.logsTime.pos {request : CreateTimeEntryRequest} {m : ℤ}
    (h : request.logsTime) (hm : computeMinutes request = .ok m) : 0 < m :=
  h m (by rw [hm]; rfl)

namespace Call

/-- The entry whose hours the call is about to draw. -/
def draws : Call → Option Uuid
  | consume id | seeding id => some id
  | create _ | update _ _ | write _ _ | release _ | deleteRelease _ | delete _ => none

/-- A call of `create_time_entry` that logs time. -/
def logsTime : Call → Prop
  | create request => request.logsTime
  | consume _ | seeding _ => True
  | update _ _ | write _ _ | release _ | deleteRelease _ | delete _ => False

end Call

/-- The event belongs to a run of `create_time_entry` calls. -/
def SchedEvent.creates : SchedEvent → Prop
  | .start (.create _) | .advance _ => True
  | .start _ => False

/-- A billable client entry of some minutes, on a day that its contract covers. -/
structure TimeEntry.Covered (book : ContractBook) (e : TimeEntry) (contractId : Uuid) : Prop where
  contract : e.contractId = some contractId
  billable : e.isBillable = some true
  client : e.entryKind = .client
  positive : 0 < e.durationMinutes
  item : ∃ item, fetchBlockItem book contractId = some item ∧ item.covers e.date

theorem TimeEntry.Covered.drawsOn {book : ContractBook} {e : TimeEntry} {contractId : Uuid}
    (h : e.Covered book contractId) (hnone : e.hoursConsumed = none) :
    e.drawsOn = some contractId :=
  drawsOn_eq_some.mpr ⟨hnone, h.billable, h.client, h.positive, h.contract⟩

namespace Sched

/-- The condition on a step: a call that starts logs at least a minute, and a call that inserts the
row of a period finds the period without one. -/
def SeedsUnopposed (s : Sched) : SchedEvent → Prop
  | .start (.create request) => request.logsTime
  | .start _ => True
  | .advance i => ∀ c ∈ s.calls[i]?, ∀ id ∈ c.holds, ∀ e ∈ s.db.entries.find id,
      ∀ contractId ∈ e.contractId, ∀ item ∈ fetchBlockItem s.db.book contractId,
        findBalance s.db.balances (balanceKey contractId item e.date) = none

instance (s : Sched) : ∀ e, Decidable (s.SeedsUnopposed e)
  | .start (.create request) => inferInstanceAs (Decidable request.logsTime)
  | .start (.update _ _) | .start (.write _ _) | .start (.release _) | .start (.consume _)
  | .start (.seeding _) | .start (.deleteRelease _) | .start (.delete _) => isTrue trivial
  | .advance i => inferInstanceAs (Decidable (∀ c ∈ s.calls[i]?, ∀ id ∈ c.holds,
      ∀ e ∈ s.db.entries.find id, ∀ contractId ∈ e.contractId,
        ∀ item ∈ fetchBlockItem s.db.book contractId,
          findBalance s.db.balances (balanceKey contractId item e.date) = none))

/-- The entries from `n` on are covered by the contract they name, and each is accounted for or has
a call in flight that will draw it. -/
structure FirstDraws (n : ℕ) (s : Sched) : Prop where
  calls : ∀ c ∈ s.calls, c.logsTime
  covered : ∀ e ∈ s.db.entries, n ≤ e.id → ∀ contractId, e.contractId = some contractId →
    e.Covered s.db.book contractId
  accounted : ∀ e ∈ s.db.entries, n ≤ e.id → e.hoursConsumed ≠ none → e.Accounted
  pending : ∀ e ∈ s.db.entries, n ≤ e.id → e.contractId ≠ none → e.hoursConsumed = none →
    ∃ c ∈ s.calls, c.draws = some e.id
  fresh : n ≤ s.db.entries.next

variable {n : ℕ} {s s' : Sched} {i : ℕ} {c d : Call}

/-! ### The calls in flight -/

theorem mem_finish {db : TimeDb} (hc : s.calls[i]? = some c) (hd : d ∈ s.calls) (hne : d ≠ c) :
    d ∈ (s.finish i db).calls := by
  obtain ⟨j, hj⟩ := List.mem_iff_getElem?.mp hd
  refine List.mem_eraseIdx_iff_getElem?.mpr ⟨j, ?_, hj⟩
  rintro rfl
  rw [hc, Option.some.injEq] at hj
  exact hne hj.symm

theorem mem_goto {db : TimeDb} {c' : Call} (hc : s.calls[i]? = some c) (hd : d ∈ s.calls)
    (hne : d ≠ c) : d ∈ (s.goto i db c').calls := by
  obtain ⟨j, hj⟩ := List.mem_iff_getElem?.mp hd
  refine List.mem_iff_getElem?.mpr ⟨j, ?_⟩
  have hij : i ≠ j := by
    rintro rfl
    rw [hc, Option.some.injEq] at hj
    exact hne hj.symm
  simp only [goto, List.getElem?_set_ne hij, hj]

theorem goto_mem_self {db : TimeDb} {c' : Call} (hc : s.calls[i]? = some c) :
    c' ∈ (s.goto i db c').calls := by
  obtain ⟨hi, -⟩ := List.getElem?_eq_some_iff.mp hc
  exact List.mem_set hi c'

/-! ### One step -/

namespace FirstDraws

/-- A call is over that no entry waits for. -/
theorem finish (h : FirstDraws n s) (hc : s.calls[i]? = some c)
    (hn : ∀ e ∈ s.db.entries, n ≤ e.id → e.contractId ≠ none → e.hoursConsumed = none →
      c.draws ≠ some e.id) : FirstDraws n (s.finish i s.db) where
  calls := fun c' hc' => h.calls c' (List.mem_of_mem_eraseIdx hc')
  covered := h.covered
  accounted := h.accounted
  pending := by
    intro e he hid hcon hnone
    obtain ⟨c', hc', hd⟩ := h.pending e he hid hcon hnone
    refine ⟨c', mem_finish hc hc' ?_, hd⟩
    rintro rfl
    exact hn e he hid hcon hnone hd
  fresh := h.fresh

/-- A call goes on and still draws for the entry it drew for. -/
theorem goto (h : FirstDraws n s) (hc : s.calls[i]? = some c) {c' : Call} (hl : c'.logsTime)
    (hd : c.draws = c'.draws) : FirstDraws n (s.goto i s.db c') where
  calls := by
    intro x hx
    rcases List.mem_or_eq_of_mem_set hx with hx | rfl
    · exact h.calls x hx
    · exact hl
  covered := h.covered
  accounted := h.accounted
  pending := by
    intro e he hid hcon hnone
    obtain ⟨x, hx, hxd⟩ := h.pending e he hid hcon hnone
    rcases eq_or_ne x c with rfl | hne
    · exact ⟨c', goto_mem_self hc, hd ▸ hxd⟩
    · exact ⟨x, mem_goto hc hx hne, hxd⟩
  fresh := h.fresh

/-- An entry is drawn, and the call that drew it is over. -/
theorem finish_draw (h : FirstDraws n s) (hc : s.calls[i]? = some c) {id : Uuid}
    (hd : c.draws = some id) {db' : TimeDb} (hD : s.db.Draws id db') :
    FirstDraws n (s.finish i db') := by
  obtain ⟨hbook, e, item, b, he, hent⟩ := hD.entries
  have hm := Table.find_mem he
  have hid := Table.key_of_find he
  subst hid
  have hx : ∀ x, x ∈ (s.finish i db').db.entries ↔
      x = e.drawn item b ∨ x ∈ s.db.entries ∧ x.id ≠ e.id := by
    intro x
    show x ∈ db'.entries ↔ _
    rw [hent]
    exact Table.mem_update_of_mem hm
  refine ⟨fun c' hc' => h.calls c' (List.mem_of_mem_eraseIdx hc'), ?_, ?_, ?_, ?_⟩
  · intro x hxm hn contractId hcon
    show x.Covered db'.book contractId
    rw [hbook]
    rcases (hx x).mp hxm with rfl | ⟨hxm, -⟩
    · have h1 := h.covered e hm hn contractId hcon
      exact ⟨h1.contract, h1.billable, h1.client, h1.positive, h1.item⟩
    · exact h.covered x hxm hn contractId hcon
  · intro x hxm hn hnone
    rcases (hx x).mp hxm with rfl | ⟨hxm, -⟩
    · exact e.drawn_accounted item b
    · exact h.accounted x hxm hn hnone
  · intro x hxm hn hcon hnone
    rcases (hx x).mp hxm with rfl | ⟨hxm, hne⟩
    · exact absurd hnone (by rw [TimeEntry.drawn_hoursConsumed]; simp)
    · obtain ⟨c', hc', hd'⟩ := h.pending x hxm hn hcon hnone
      refine ⟨c', mem_finish hc hc' ?_, hd'⟩
      rintro rfl
      rw [hd, Option.some.injEq] at hd'
      exact hne hd'.symm
  · show n ≤ db'.entries.next
    rw [hent]
    exact h.fresh

/-- An entry is inserted, and the call goes on to draw its hours. -/
theorem insert (h : FirstDraws n s) {request : CreateTimeEntryRequest}
    (hc : s.calls[i]? = some (.create request)) {id : Uuid} {db' : TimeDb}
    (hi : s.db.insertTimeEntry request = .ok (id, db')) :
    FirstDraws n (s.goto i db' (.consume id)) := by
  obtain ⟨kind, category, worked, billable, billing, hw, rfl, rfl⟩ :=
    TimeDb.insertTimeEntry_eq_ok hi
  refine ⟨?_, ?_, ?_, ?_, h.fresh.trans (Nat.le_succ _)⟩
  · intro x hx
    rcases List.mem_or_eq_of_mem_set hx with hx | rfl
    · exact h.calls x hx
    · trivial
  · intro x hx hn contractId hcon
    rcases (Table.mem_insert).mp hx with hx | rfl
    · exact h.covered x hx hn contractId hcon
    · obtain ⟨hk, hb, hitem⟩ := blockHoursContractFor_eq_some hcon
      exact ⟨hcon, by rw [← hb]; rfl, hk, (h.calls _ (List.mem_of_getElem? hc)).pos hw,
        hitem⟩
  · intro x hx hn hnone
    rcases (Table.mem_insert).mp hx with hx | rfl
    · exact h.accounted x hx hn hnone
    · exact absurd rfl hnone
  · intro x hx hn hcon hnone
    rcases (Table.mem_insert).mp hx with hx | rfl
    · obtain ⟨c', hc', hd⟩ := h.pending x hx hn hcon hnone
      refine ⟨c', mem_goto hc hc' ?_, hd⟩
      rintro rfl
      exact absurd hd (by simp [Call.draws])
    · exact ⟨_, goto_mem_self hc, rfl⟩

/-- The draw of an entry that waits for it finds the contract and the day covered. -/
theorem target (h : FirstDraws n s) {e : TimeEntry} (he : e ∈ s.db.entries) (hn : n ≤ e.id)
    (hcon : e.contractId ≠ none) (hnone : e.hoursConsumed = none) :
    ∃ contractId item, s.db.entries.find e.id = some e ∧ e.contractId = some contractId ∧
      e.drawsOn = some contractId ∧ fetchBlockItem s.db.book contractId = some item ∧
      item.covers e.date := by
  obtain ⟨contractId, hc⟩ := Option.ne_none_iff_exists'.mp hcon
  have h1 := h.covered e he hn contractId hc
  obtain ⟨item, hi, hcov⟩ := h1.item
  exact ⟨contractId, item, Table.find_key he, hc, h1.drawsOn hnone, hi, hcov⟩

/-- The call of an entry with nothing to draw is over. -/
theorem finish_idle (h : FirstDraws n s) (hc : s.calls[i]? = some c) {id : Uuid}
    (hd : c.draws = some id) (hidle : s.db.NothingToDraw id) : FirstDraws n (s.finish i s.db) := by
  refine h.finish hc ?_
  intro e he hn hcon hnone heq
  obtain ⟨contractId, item, hf, -, hon, -, -⟩ := h.target he hn hcon hnone
  rw [hd, Option.some.injEq] at heq
  subst heq
  rw [hidle e hf] at hon
  exact absurd hon (by simp)

theorem consume (h : FirstDraws n s) {id : Uuid} (hc : s.calls[i]? = some (.consume id)) :
    FirstDraws n (s.exec i (.consume id)) := by
  simp only [exec]
  split
  · next err herr =>
    -- The first half of a draw fails for no entry that waits for it.
    refine h.finish hc ?_
    intro e he hn hcon hnone heq
    cases heq
    obtain ⟨contractId, item, hf, -, hon, hi, hcov⟩ := h.target he hn hcon hnone
    obtain ⟨db', hok⟩ := TimeDb.exists_consumeForEntry hf hon hi hcov
    rw [TimeDb.consumeForEntry_eq, herr] at hok
    exact absurd hok (by simp [bind, Except.bind])
  · next db' hok =>
    rcases TimeDb.consumeBegin_eq_some hok with ⟨rfl, hidle⟩ | hD
    · exact h.finish_idle hc rfl hidle
    · exact h.finish_draw hc rfl hD
  · exact h.goto hc trivial rfl

theorem seeding (h : FirstDraws n s) {id : Uuid} (hc : s.calls[i]? = some (.seeding id))
    (hfree : s.SeedsUnopposed (.advance i)) : FirstDraws n (s.exec i (.seeding id)) := by
  simp only [exec]
  split
  · next err herr =>
    refine h.finish hc ?_
    intro e he hn hcon hnone heq
    cases heq
    obtain ⟨contractId, item, hf, hcid, hon, hi, hcov⟩ := h.target he hn hcon hnone
    have hb := hfree _ hc _ rfl e hf contractId hcid item hi
    obtain ⟨db', hok⟩ := TimeDb.exists_consumeSeed hf hon hi hcov hb
    rw [herr] at hok
    exact absurd hok (by simp)
  · next db' hok =>
    rcases TimeDb.consumeSeed_eq_ok hok with ⟨rfl, hidle⟩ | hD
    · exact h.finish_idle hc rfl hidle
    · exact h.finish_draw hc rfl hD

end FirstDraws

theorem step_firstDraws {e : SchedEvent} (h : FirstDraws n s) (hcr : e.creates)
    (hfree : s.SeedsUnopposed e) (hs : step s e = some s') : FirstDraws n s' := by
  cases e with
  | start c =>
      simp only [step] at hs
      split at hs
      · cases hs
        refine ⟨?_, h.covered, h.accounted, ?_, h.fresh⟩
        · intro x hx
          rcases List.mem_append.mp hx with hx | hx
          · exact h.calls x hx
          · rw [List.mem_singleton.mp hx]
            cases c <;> first | exact hfree | exact hcr.elim
        · intro x hx hn hcon hnone
          obtain ⟨c', hc', hd⟩ := h.pending x hx hn hcon hnone
          exact ⟨c', List.mem_append_left _ hc', hd⟩
      · exact absurd hs (by simp)
  | advance i =>
      simp only [step] at hs
      split at hs
      · exact absurd hs (by simp)
      · next c hc =>
        split at hs
        · exact absurd hs (by simp)
        · cases hs
          have hl := h.calls c (List.mem_of_getElem? hc)
          cases c with
          | create request =>
              simp only [exec]
              split
              · exact h.finish hc fun e _ _ _ _ => by simp [Call.draws]
              · next id db' hok => exact h.insert hc hok
          | consume id => exact h.consume hc
          | seeding id => exact h.seeding hc hfree
          | update | write | release | deleteRelease | delete => exact hl.elim

/-! ### Whole runs -/

theorem firstDraws_start (db : TimeDb) : FirstDraws db.entries.next ⟨db, []⟩ where
  calls := fun _ h => absurd h List.not_mem_nil
  covered := fun _ he hn => absurd hn (Table.key_lt_next he).not_ge
  accounted := fun _ he hn => absurd hn (Table.key_lt_next he).not_ge
  pending := fun _ he hn => absurd hn (Table.key_lt_next he).not_ge
  fresh := le_refl _

/-- **First draws.**  However `create_time_entry` calls are interleaved, if each logs at least a
minute and each insert of a balance row finds the period without one, then when no call is in
flight the hours of every new entry that a block-hours contract covers are drawn or recorded as
overage. -/
theorem covered_accounted {db : TimeDb} {es : List SchedEvent} {s : Sched}
    (hcr : ∀ e ∈ es, e.creates) (hfree : StepsMeet step SeedsUnopposed ⟨db, []⟩ es)
    (hs : run step ⟨db, []⟩ es = some s) (hidle : s.calls = []) :
    ∀ e ∈ s.db.entries, db.entries.next ≤ e.id → e.contractId ≠ none → e.Accounted := by
  have h := run_invariant_of_stepsMeet (FirstDraws db.entries.next)
    (fun _ _ _ h hC hs => step_firstDraws h hC.1 hC.2 hs) (firstDraws_start db)
    (hfree.and_events hcr) hs
  intro e he hn hcon
  refine h.accounted e he hn ?_
  intro hnone
  obtain ⟨c, hc, -⟩ := h.pending e he hn hcon hnone
  rw [hidle] at hc
  exact absurd hc List.not_mem_nil

/-- Two calls commit their entries and both find the period without a row. -/
def twoFirstDraws : List SchedEvent :=
  [.start (.create (sampleRequest 60 (sampleDay 1 10))),
    .start (.create (sampleRequest 30 (sampleDay 1 11))),
    .advance 0, .advance 1, .advance 0, .advance 1, .advance 0, .advance 0]

/-- The insert of the second fails, and its entry stays as it was committed: covered by the
contract, ready to bill and undrawn. -/
theorem loser_stays_undrawn :
    ∃ s, run step (init (sampleBook ⟨1000⟩ none) sampleDir) twoFirstDraws = some s ∧
      s.calls.length = 0 ∧
      ∃ e ∈ s.db.entries, e.contractId = some 0 ∧ e.billingStatus = .readyToBill ∧
        e.hoursConsumed = none ∧ e.overageHours = none := by
  have h : (run step (init (sampleBook ⟨1000⟩ none) sampleDir) twoFirstDraws).any (fun s =>
      decide (s.calls.length = 0) && s.db.entries.rows.any (fun e =>
        decide (e.contractId = some 0 ∧ e.billingStatus = .readyToBill ∧
          e.hoursConsumed = none ∧ e.overageHours = none))) = true := by
    decide +kernel
  obtain ⟨s, hs, hp⟩ := exists_run_of_any h
  rw [Bool.and_eq_true, decide_eq_true_iff, List.any_eq_true] at hp
  obtain ⟨hc, e, he, hu⟩ := hp
  exact ⟨s, hs, hc, e, he, by simpa using hu⟩

/-- The same calls when the second reads after the first has inserted the row. -/
theorem covered_accounted_sample :
    ∃ s, run step ⟨sampleTimeDb (sampleBook ⟨1000⟩ none), []⟩
        [.start (.create (sampleRequest 60 (sampleDay 1 10))),
          .start (.create (sampleRequest 30 (sampleDay 1 11))),
          .advance 0, .advance 1, .advance 0, .advance 0, .advance 0] = some s ∧
      ∀ e ∈ s.db.entries, 0 ≤ e.id → e.contractId ≠ none → e.Accounted := by
  have h : (run step ⟨sampleTimeDb (sampleBook ⟨1000⟩ none), []⟩
      [.start (.create (sampleRequest 60 (sampleDay 1 10))),
        .start (.create (sampleRequest 30 (sampleDay 1 11))),
        .advance 0, .advance 1, .advance 0, .advance 0, .advance 0]).any
      (fun s => s.calls.isEmpty) = true := by
    decide +kernel
  obtain ⟨s, hs, hp⟩ := exists_run_of_any h
  refine ⟨s, hs, covered_accounted ?_ ?_ hs (List.isEmpty_iff.mp hp)⟩
  · simp [SchedEvent.creates]
  · decide +kernel

end Sched

end Mokosh
