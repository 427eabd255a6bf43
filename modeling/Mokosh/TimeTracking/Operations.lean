import Mokosh.TimeTracking.Service

/-! # The operations of time tracking, one after the other

`TimeDb.perform` runs a whole operation, with its draw and its release.  `perform_mem` says what an
operation can do to the entries: one is new, or one is edited; the rest stays.  An entry that was
written has drawn nothing, or its hours are accounted for, and an edit neither bills an entry nor
takes it off its invoice.  `drawable` is what the draw at the end of an edit takes. -/

namespace Mokosh

inductive TimeOp where
  | createTimeEntry (request : CreateTimeEntryRequest)
  | updateTimeEntry (id : Uuid) (request : UpdateTimeEntryRequest)
  | stopTimer (timerId userId : Uuid) (now : ℤ) (today : NaiveDate)
  | deleteTimeEntry (id : Uuid)

/-- What an operation commits, also when it fails halfway. -/
def TimeDb.perform (db : TimeDb) : TimeOp → TimeDb
  | .createTimeEntry request => (db.createTimeEntry request).1
  | .updateTimeEntry id request => (db.updateTimeEntry id request).1
  | .stopTimer timerId userId now today => (db.stopTimer timerId userId now today).1
  | .deleteTimeEntry id => (db.deleteTimeEntry id).1

namespace TimeEntry

/-- An overage is recorded only with a draw. -/
def Clean (e : TimeEntry) : Prop := e.hoursConsumed = none → e.overageHours = none

/-- Nothing is drawn for the entry, or all its hours are drawn or overage. -/
def Settled (e : TimeEntry) : Prop := e.Clean ∧ (e.hoursConsumed = none ∨ e.Accounted)

theorem Accounted.settled {e : TimeEntry} (h : e.Accounted) : e.Settled := by
  refine ⟨fun hnone => ?_, .inr h⟩
  obtain ⟨applied, ha, -⟩ := h
  rw [hnone] at ha
  exact absurd ha (by simp)

/-- The same entry later, which is on an invoice if and only if it was. -/
structure Follows (e e' : TimeEntry) : Prop where
  id : e'.id = e.id
  billed : e'.billingStatus = .billed ↔ e.billingStatus = .billed
  invoice : e'.invoiceId = e.invoiceId
  clean : e.Clean → e'.Clean

namespace Follows

variable {e e' e'' : TimeEntry}

theorem refl (e : TimeEntry) : e.Follows e := ⟨rfl, Iff.rfl, rfl, fun h => h⟩

theorem trans (h : e.Follows e') (h' : e'.Follows e'') : e.Follows e'' :=
  ⟨h'.id.trans h.id, h'.billed.trans h.billed, h'.invoice.trans h.invoice,
    fun hc => h'.clean (h.clean hc)⟩

theorem stamp (e : TimeEntry) (o : ConsumeOutcome) : e.Follows (e.stamp o) := by
  refine ⟨rfl, ?_, rfl, fun _ hnone => absurd hnone (by simp [TimeEntry.stamp])⟩
  show (if _ then _ else _) = _ ↔ _
  split
  · exact Iff.rfl
  · next h =>
    rw [not_or, not_not] at h
    simp [h.2]

theorem unstamp (e : TimeEntry) : e.Follows e.unstamp := by
  refine ⟨rfl, ?_, rfl, fun _ _ => rfl⟩
  show (if _ then _ else _) = _ ↔ _
  split
  · next h => simp [h]
  · exact Iff.rfl

theorem edit (e : TimeEntry) (request : UpdateTimeEntryRequest) (kind : ResolvedKind)
    (category : WorkCategory) (worked billable : ℤ) (contractId : Option Uuid) :
    e.Follows (TimeDb.editEntry e request kind category worked billable contractId e) := by
  refine ⟨rfl, ?_, rfl, fun h => h⟩
  show resolveBillingStatus kind.billable (some e.billingStatus) = .billed ↔ _
  by_cases h : e.billingStatus = .billed <;> cases kind.billable <;> simp [resolveBillingStatus, h]

end Follows

end TimeEntry

namespace TimeDb

variable {db : TimeDb} {id : Uuid} {e' : TimeEntry}

/-! ### The transactions -/

/-- A draw leaves an entry alone, or stamps it. -/
theorem mem_consumed {α : Type} {a : α} (h : e' ∈ (db.andThen a (db.consumeForEntry id)).1.entries) :
    e' ∈ db.entries ∨ ∃ e ∈ db.entries, e.id = id ∧ ∃ item b, e' = e.drawn item b := by
  cases hc : db.consumeForEntry id with
  | error err =>
      rw [hc] at h
      exact .inl h
  | ok db' =>
      rw [hc] at h
      have h' : e' ∈ db'.entries := h
      rcases consumeForEntry_eq_ok hc with ⟨rfl, -⟩ | hd
      · exact .inl h'
      · obtain ⟨-, e, item, b, he, hu⟩ := hd.entries
        rw [hu] at h'
        obtain ⟨r, hr, rfl⟩ := (Table.mem_update).mp h'
        split
        · next hid =>
          subst hid
          rw [Table.find_key hr, Option.some.injEq] at he
          subst he
          exact .inr ⟨r, hr, rfl, item, b, rfl⟩
        · exact .inl hr

/-- After a release the entry has drawn nothing. -/
theorem mem_released (h : e' ∈ (db.releaseForEntry id).entries) :
    ∃ e ∈ db.entries, e.Follows e' ∧ (e' = e ∨ e.id = id) ∧
      (e'.id = id → e'.hoursConsumed = none) := by
  unfold releaseForEntry at h
  split at h
  · next hn => exact ⟨e', h, .refl e', .inl rfl, fun hid => absurd hid (Table.find_eq_none_iff.mp hn e' h)⟩
  · next e he =>
    have hid := Table.key_of_find he
    subst hid
    split at h
    · next hc =>
      refine ⟨e', h, .refl e', .inl rfl, fun hid => ?_⟩
      rw [Table.eq_of_key_eq h (Table.find_mem he) hid, hc]
    · rcases (Table.mem_update_of_mem (Table.find_mem he)).mp h with rfl | ⟨h, hne⟩
      · exact ⟨e, Table.find_mem he, .unstamp e, .inr rfl, fun _ => rfl⟩
      · exact ⟨e', h, .refl e', .inl rfl, fun hid => absurd hid hne⟩

theorem next_consumed {α : Type} {a : α} :
    (db.andThen a (db.consumeForEntry id)).1.entries.next = db.entries.next := by
  cases hc : db.consumeForEntry id with
  | error err => rfl
  | ok db' =>
      show db'.entries.next = _
      rcases consumeForEntry_eq_ok hc with ⟨rfl, -⟩ | hd
      · rfl
      · obtain ⟨-, e, item, b, -, hu⟩ := hd.entries
        rw [hu, Table.update_next]

theorem next_released : (db.releaseForEntry id).entries.next = db.entries.next := by
  unfold releaseForEntry
  split
  · rfl
  · split
    · rfl
    · rfl

/-! ### The operations -/

/-- An edit that commits anything writes the entry, gives its hours back and draws again. -/
theorem updateTimeEntry_cases (db : TimeDb) (id : Uuid) (request : UpdateTimeEntryRequest) :
    (db.updateTimeEntry id request).1 = db ∨
      ∃ current time, db.entries.find id = some current ∧
        db.writeTimeEntry current request = .ok time ∧
        (db.updateTimeEntry id request).1 =
          ((time.releaseForEntry id).andThen id ((time.releaseForEntry id).consumeForEntry id)).1 := by
  unfold updateTimeEntry
  split
  · exact .inl rfl
  · next current hc =>
    split
    · exact .inl rfl
    · next time hw => exact .inr ⟨current, time, orError_eq_ok.mp hc, hw, rfl⟩

/-- A new entry is not on an invoice. -/
def Fresh (db : TimeDb) (e : TimeEntry) : Prop :=
  e.id = db.entries.next ∧ e.billingStatus ≠ .billed ∧ e.invoiceId = none

theorem resolveBillingStatus_new (billable : Bool) : resolveBillingStatus billable none ≠ .billed := by
  cases billable <;> simp [resolveBillingStatus]

/-- An entry is inserted and draws its hours. -/
theorem mem_logged {α : Type} {a : α} {db1 : TimeDb} {new : TimeEntry}
    (h : e' ∈ (db1.andThen a (db1.consumeForEntry db.entries.next)).1.entries)
    (h1 : ∀ e ∈ db1.entries, e ∈ db.entries ∨ e = new) (hnew : db.Fresh new)
    (hc : new.hoursConsumed = none) (ho : new.overageHours = none) :
    e' ∈ db.entries ∨ db.Fresh e' ∧ e'.Settled := by
  rcases mem_consumed h with h | ⟨e, he, hid, item, b, rfl⟩
  · rcases h1 e' h with h | rfl
    · exact .inl h
    · exact .inr ⟨hnew, fun _ => ho, .inl hc⟩
  · rcases h1 e he with he | rfl
    · exact absurd hid (Table.key_lt_next he).ne
    · have hf := TimeEntry.Follows.stamp e (drawOutcome item b (hoursOf e.durationMinutes))
      obtain ⟨hid, hs, hi⟩ := hnew
      refine .inr ⟨⟨hf.id.trans hid, ?_, hf.invoice.trans hi⟩, (e.drawn_accounted item b).settled⟩
      exact fun hb => hs (hf.billed.mp hb)

/-- The `UPDATE` of an edit writes the entry it has read and no other. -/
theorem mem_written {time : TimeDb} {current : TimeEntry} {request : UpdateTimeEntryRequest}
    (hc : db.entries.find id = some current) (hw : db.writeTimeEntry current request = .ok time)
    (h : e' ∈ time.entries) : e' ∈ db.entries ∧ e'.id ≠ id ∨ current.Follows e' ∧ e'.id = id := by
  have hid := Table.key_of_find hc
  subst hid
  obtain ⟨kind, category, worked, billable, contractId, rfl⟩ := writeTimeEntry_eq_ok hw
  rcases (Table.mem_update_of_mem (Table.find_mem hc)).mp h with rfl | h
  · have hf := TimeEntry.Follows.edit current request kind category worked billable contractId
    exact .inr ⟨hf, hf.id⟩
  · exact .inl h

/-- The entries that the draw at the end of an edit finds. -/
theorem mem_rewritten {time : TimeDb} {current : TimeEntry} {request : UpdateTimeEntryRequest}
    (hc : db.entries.find id = some current) (hw : db.writeTimeEntry current request = .ok time)
    (h : e' ∈ (time.releaseForEntry id).entries) :
    e' ∈ db.entries ∧ e'.id ≠ id ∨
      current.Follows e' ∧ e'.id = id ∧ e'.hoursConsumed = none := by
  obtain ⟨e, he, hf, hsame, hnone⟩ := mem_released h
  rcases mem_written hc hw he with ⟨hold, hne⟩ | ⟨hf1, hid1⟩
  · rcases hsame with rfl | hid1
    · exact .inl ⟨hold, hne⟩
    · exact absurd hid1 hne
  · have hid2 := hf.id.trans hid1
    exact .inr ⟨hf1.trans hf, hid2, hnone hid2⟩

/-- What a delete leaves was there before. -/
theorem mem_deleted (h : e' ∈ (db.deleteTimeEntry id).1.entries) : e' ∈ db.entries := by
  have h1 : e' ∈ (db.releaseForEntry id).entries ∧ e'.id ≠ id := by
    unfold deleteTimeEntry eraseTimeEntry at h
    simp only at h
    split at h
    · next hn => exact ⟨h, Table.find_eq_none_iff.mp hn e' h⟩
    · exact Table.mem_erase.mp h
  obtain ⟨e, he, hf, rfl | hid, -⟩ := mem_released h1.1
  · exact he
  · exact absurd (hf.id.trans hid) h1.2

/-- What an operation can do to the entries. -/
theorem perform_mem {op : TimeOp} (h : e' ∈ (db.perform op).entries) :
    e' ∈ db.entries ∨ db.Fresh e' ∧ e'.Settled ∨
      ∃ e ∈ db.entries, e.Follows e' ∧ (e.Settled → e'.Settled) ∧
        ∃ request, op = .updateTimeEntry e.id request := by
  cases op with
  | createTimeEntry request =>
      simp only [perform, createTimeEntry] at h
      split at h
      · exact .inl h
      · next i db1 hins =>
        obtain ⟨_, _, _, _, _, -, rfl, rfl⟩ := insertTimeEntry_eq_ok hins
        rcases mem_logged h (fun e he => (Table.mem_insert).mp he)
          ⟨rfl, resolveBillingStatus_new _, rfl⟩ rfl rfl with h | h
        · exact .inl h
        · exact .inr (.inl h)
  | stopTimer timerId userId now today =>
      simp only [perform, stopTimer] at h
      split at h
      · exact .inl h
      · next i db1 hins =>
        obtain ⟨_, _, _, _, _, _, _, rfl, rfl⟩ := insertTimerEntry_eq_ok hins
        rcases mem_logged h (fun e he => (Table.mem_insert).mp he)
          ⟨rfl, resolveBillingStatus_new _, rfl⟩ rfl rfl with h | h
        · exact .inl h
        · exact .inr (.inl h)
  | deleteTimeEntry id => exact .inl (mem_deleted h)
  | updateTimeEntry id request =>
      simp only [perform] at h
      rcases updateTimeEntry_cases db id request with hu | ⟨current, time, hc, hw, hu⟩
      · rw [hu] at h
        exact .inl h
      · rw [hu] at h
        have hm := Table.find_mem hc
        have hid := Table.key_of_find hc
        rcases mem_consumed h with h | ⟨e, he, heid, item, b, rfl⟩
        · rcases mem_rewritten hc hw h with ⟨h, -⟩ | ⟨hf, -, hnone⟩
          · exact .inl h
          · exact .inr (.inr ⟨current, hm, hf, fun hs => ⟨hf.clean hs.1, .inl hnone⟩, request,
              by rw [hid]⟩)
        · rcases mem_rewritten hc hw he with ⟨-, hne⟩ | ⟨hf, -, -⟩
          · exact absurd heid hne
          · exact .inr (.inr ⟨current, hm, hf.trans (.stamp e _),
              fun _ => (e.drawn_accounted item b).settled, request, by rw [hid]⟩)

theorem perform_next (op : TimeOp) : db.entries.next ≤ (db.perform op).entries.next := by
  cases op with
  | createTimeEntry request =>
      simp only [perform, createTimeEntry]
      split
      · exact le_refl _
      · next i db1 hins =>
        obtain ⟨_, _, _, _, _, -, rfl, rfl⟩ := insertTimeEntry_eq_ok hins
        rw [next_consumed]
        exact Nat.le_succ _
  | stopTimer timerId userId now today =>
      simp only [perform, stopTimer]
      split
      · exact le_refl _
      · next i db1 hins =>
        obtain ⟨_, _, _, _, _, _, _, rfl, rfl⟩ := insertTimerEntry_eq_ok hins
        rw [next_consumed]
        exact Nat.le_succ _
  | deleteTimeEntry id =>
      simp only [perform, deleteTimeEntry, eraseTimeEntry]
      split <;> exact next_released.ge
  | updateTimeEntry id request =>
      simp only [perform]
      rcases updateTimeEntry_cases db id request with hu | ⟨current, time, hc, hw, hu⟩
      · rw [hu]
      · rw [hu, next_consumed, next_released]
        obtain ⟨_, _, _, _, _, rfl⟩ := writeTimeEntry_eq_ok hw
        exact le_refl _

/-! ### What an edit draws -/

/-- What a draw for the entry takes: its rounded hours, as far as the row of its period, or the
allotment of a period without a row, goes. -/
def drawable (db : TimeDb) (id : Uuid) : Numeric 2 :=
  match db.entries.find id with
  | none => 0
  | some e =>
    match e.drawsOn with
    | none => 0
    | some contractId =>
      match drawTarget db.book contractId e.date with
      | .error _ => 0
      | .ok (item, k) =>
        ⟨((findBalance db.balances k).getD
          (newBalance k item.included 0 db.balances.next)).drawnCents e.durationMinutes⟩

theorem drawable_nonneg (db : TimeDb) (id : Uuid) : 0 ≤ db.drawable id := by
  unfold drawable
  split
  · exact le_refl _
  · next e he =>
    split
    · exact le_refl _
    · next contractId hd =>
      split
      · exact le_refl _
      · rw [Numeric.le_iff_unscaled]
        exact HourBalance.drawnCents_nonneg _ (TimeEntry.drawsOn_eq_some.mp hd).2.2.2.1.le

theorem drawable_eq {e : TimeEntry} {contractId : Uuid} {item : BlockItemRow}
    (he : db.entries.find id = some e) (hd : e.drawsOn = some contractId)
    (hi : fetchBlockItem db.book contractId = some item) (hc : item.covers e.date) :
    db.drawable id = ⟨((findBalance db.balances (balanceKey contractId item e.date)).getD
      (newBalance (balanceKey contractId item e.date) item.included 0
        db.balances.next)).drawnCents e.durationMinutes⟩ := by
  have ht : drawTarget db.book contractId e.date =
      .ok (item, balanceKey contractId item e.date) := drawTarget_eq_ok.mpr ⟨hi, hc, rfl⟩
  unfold drawable
  rw [he]
  simp only [hd, ht]

/-- A draw for an entry that has drawn nothing. -/
theorem consumed_le_drawable {α : Type} {a : α} {e : TimeEntry} (he : db.entries.find id = some e)
    (hnone : e.hoursConsumed = none)
    (h : e' ∈ (db.andThen a (db.consumeForEntry id)).1.entries) (hid : e'.id = id) :
    e'.durationMinutes = e.durationMinutes ∧ e'.hoursConsumed.getD 0 ≤ db.drawable id := by
  have hsame : e' ∈ db.entries →
      e'.durationMinutes = e.durationMinutes ∧ e'.hoursConsumed.getD 0 ≤ db.drawable id := by
    intro h1
    have h2 := Table.eq_of_find he h1 hid
    subst h2
    rw [hnone]
    exact ⟨rfl, db.drawable_nonneg id⟩
  cases hc : db.consumeForEntry id with
  | error err =>
      rw [hc] at h
      exact hsame h
  | ok db' =>
      rw [hc] at h
      have h' : e' ∈ db'.entries := h
      have hf : db'.entries.find id = some e' := by
        rw [← hid]
        exact Table.find_key h'
      rcases consumeForEntry_eq_ok hc with ⟨rfl, -⟩ | hd
      · exact hsame h'
      · cases hd with
        | @existing e1 c item b he1 hd1 hi1 hc1 hb1 =>
            rw [he, Option.some.injEq] at he1
            subst he1
            simp only [commitStamp, Table.find_update_self, he, Option.map_some,
              Option.some.injEq] at hf
            rw [drawable_eq he hd1 hi1 hc1, hb1, ← hf]
            refine ⟨rfl, ?_⟩
            rw [← TimeEntry.drawn, TimeEntry.drawn_hoursConsumed]
            exact le_refl _
        | @fresh e1 c item he1 hd1 hi1 hc1 hb1 =>
            rw [he, Option.some.injEq] at he1
            subst he1
            simp only [commitStamp, Table.find_update_self, he, Option.map_some,
              Option.some.injEq] at hf
            rw [drawable_eq he hd1 hi1 hc1, hb1, ← hf]
            refine ⟨rfl, ?_⟩
            rw [← TimeEntry.drawn, TimeEntry.drawn_hoursConsumed]
            exact le_refl _

/-- After an edit that commits anything, the entry has drawn at most what it could. -/
theorem updated_le_drawable {request : UpdateTimeEntryRequest}
    (h : e' ∈ (db.updateTimeEntry id request).1.entries) (hid : e'.id = id) :
    e' ∈ db.entries ∨ ∃ current time e, db.entries.find id = some current ∧
      db.writeTimeEntry current request = .ok time ∧
      (time.releaseForEntry id).entries.find id = some e ∧
      e'.durationMinutes = e.durationMinutes ∧
      e'.hoursConsumed.getD 0 ≤ (time.releaseForEntry id).drawable id := by
  rcases updateTimeEntry_cases db id request with hu | ⟨current, time, hc, hw, hu⟩
  · rw [hu] at h
    exact .inl h
  · rw [hu] at h
    obtain ⟨e, he, heid⟩ : ∃ e ∈ (time.releaseForEntry id).entries, e.id = id := by
      rcases mem_consumed h with h | ⟨e, he, heid, -⟩
      · exact ⟨e', h, hid⟩
      · exact ⟨e, he, heid⟩
    have hfind : (time.releaseForEntry id).entries.find id = some e :=
      Table.find_eq_some_iff.mpr ⟨he, heid⟩
    rcases mem_rewritten hc hw he with ⟨-, hne⟩ | ⟨-, -, hnone⟩
    · exact absurd heid hne
    · exact .inr ⟨current, time, e, hc, hw, hfind, consumed_le_drawable hfind hnone h hid⟩

end TimeDb

end Mokosh
