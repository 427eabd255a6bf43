import Mathlib.Logic.Relation
import Mokosh.ContactSync.Service

/-! # What a pass can do

The rules by which the results about syncs are proved.

* `applyRecord_cases` says everything that one record can do, by the plan made for it.
* `applyRecords_invariant` is the induction over the records of a pass.
* `SyncWrite` is one statement of a sync or of a review answer on the tables; a run and an answer
  are sequences of such statements (`runTracked_writes`, `resolve_writes`). -/

namespace Mokosh.ContactSync

open Relation (ReflTransGen)

variable {rt : Runtime} {db db' : SyncDb}

/-! ### One statement -/

theorem applyFields_eq_ok {contactId : Uuid} {record : SourceContact} {mapped : MappedContact}
    {labels : List String} {pass : Pass} {b : Bool} :
    db.applyFields contactId record mapped labels pass = .ok (db', b) ↔
      ∃ c, db.contacts.find contactId = some c ∧
        ((fieldWrites c (db.isLocked contactId) record mapped labels pass).isEmpty = true ∧
            db' = db ∧ b = false ∨
          (fieldWrites c (db.isLocked contactId) record mapped labels pass).isEmpty = false ∧
            db' = { db with
              contacts := db.contacts.update contactId
                (·.write (fieldWrites c (db.isLocked contactId) record mapped labels pass))
                (write_id · _) } ∧ b = true) := by
  unfold SyncDb.applyFields
  cases hc : db.contacts.find contactId with
  | none => simp
  | some c =>
      simp only [Option.some.injEq, exists_eq_left']
      cases hw : (fieldWrites c (db.isLocked contactId) record mapped labels pass).isEmpty <;>
        simp [eq_comm]

theorem insertLink_eq_ok {connection : Connection} {record : SourceContact} {contactId : Uuid}
    {origin : LinkOrigin} {suggestion : Option Uuid} {l : Link} :
    db.insertLink connection record contactId origin suggestion = .ok (db', l) ↔
      db.liveLink connection.id record.externalId = none ∧
        db' = { db with
          links := db.links.insert (SyncDb.newLink connection record.externalId record.etag contactId
            origin suggestion) } ∧
        l = SyncDb.newLink connection record.externalId record.etag contactId origin suggestion
          db.links.next := by
  unfold SyncDb.insertLink
  cases db.liveLink connection.id record.externalId <;> simp [eq_comm]

/-! ### One record -/

/-- What becomes of a record whose plan writes nothing. -/
def Plan.idle : Plan → Option Outcome
  | excluded => some .excluded
  | notSelected => some .notSelected
  | unchanged => some .unchanged
  | alreadyReviewed => some .alreadyReviewed
  | flagDeleted _ | update _ | link _ | review _ | create _ => none

/-- Everything that one record can do. -/
inductive Applied (ctx : RunContext) (db : SyncDb) (record : SourceContact) :
    Plan → SyncDb → Outcome → Prop
  | idle {p : Plan} {o : Outcome} (h : p.idle = some o) : Applied ctx db record p db o
  | flagDeleted (link : Link) :
      Applied ctx db record (.flagDeleted link) (db.flagDeleted link.id) .deletedInSource
  | update (link : Link) {db₁ : SyncDb} {changed : Bool}
      (h : db.applyFields link.contactId record (mapContact ctx.rt record)
        (labelsOf record ctx.connection.selectedGroups ctx.groups) .owned = .ok (db₁, changed)) :
      Applied ctx db record (.update link) (db₁.touchLink link.id record.etag)
        (if changed then .updated else .unchanged)
  | link (contactId : Uuid) {db₁ db₂ : SyncDb} {changed : Bool} {l : Link}
      (h : db.applyFields contactId record (mapContact ctx.rt record)
        (labelsOf record ctx.connection.selectedGroups ctx.groups) .firstLink = .ok (db₁, changed))
      (hl : db₁.insertLink ctx.connection record contactId .linked none = .ok (db₂, l)) :
      Applied ctx db record (.link contactId) db₂ (.linked contactId l)
  | review (pairs : List (Uuid × MatchReason)) :
      Applied ctx db record (.review pairs)
        (db.askAll ctx.connection.id record (sourceSnapshot ctx.rt record
          (labelsOf record ctx.connection.selectedGroups ctx.groups)) pairs).1
        (if (db.askAll ctx.connection.id record (sourceSnapshot ctx.rt record
          (labelsOf record ctx.connection.selectedGroups ctx.groups)) pairs).2 then .queued
          else .awaitingReview)
  | create (suggestion : Option Uuid) {db₂ : SyncDb} {l : Link}
      (hl : (db.importContact (mapContact ctx.rt record)
        (labelsOf record ctx.connection.selectedGroups ctx.groups)).1.insertLink ctx.connection
          record db.contacts.next .created suggestion = .ok (db₂, l)) :
      Applied ctx db record (.create suggestion) db₂ (.created db.contacts.next l)

theorem applyRecord_cases {ctx : RunContext} {s : Snapshot} {record : SourceContact} {o : Outcome}
    (h : applyRecord ctx db s record = .ok (db', o)) :
    Applied ctx db record
      (plan ctx.rt record ctx.connection.selectedGroups s ctx.fullRead) db' o := by
  unfold applyRecord at h
  cases hp : plan ctx.rt record ctx.connection.selectedGroups s ctx.fullRead with
  | excluded | notSelected | unchanged | alreadyReviewed =>
      simp only [hp, Except.ok.injEq, Prod.mk.injEq] at h
      obtain ⟨rfl, rfl⟩ := h
      exact .idle rfl
  | flagDeleted link =>
      simp only [hp, Except.ok.injEq, Prod.mk.injEq] at h
      obtain ⟨rfl, rfl⟩ := h
      exact .flagDeleted link
  | update link =>
      simp only [hp] at h
      obtain ⟨⟨db₁, changed⟩, h1, h2⟩ := bind_eq_ok.mp h
      simp only [Except.ok.injEq, Prod.mk.injEq] at h2
      obtain ⟨rfl, rfl⟩ := h2
      exact .update link h1
  | link contactId =>
      simp only [hp] at h
      obtain ⟨⟨db₁, changed⟩, h1, h2⟩ := bind_eq_ok.mp h
      obtain ⟨⟨db₂, l⟩, h3, h4⟩ := bind_eq_ok.mp h2
      simp only [Except.ok.injEq, Prod.mk.injEq] at h4
      obtain ⟨rfl, rfl⟩ := h4
      exact .link contactId h1 h3
  | review pairs =>
      simp only [hp, Except.ok.injEq, Prod.mk.injEq] at h
      obtain ⟨rfl, rfl⟩ := h
      exact .review pairs
  | create suggestion =>
      simp only [hp] at h
      obtain ⟨⟨db₂, l⟩, h1, h2⟩ := bind_eq_ok.mp h
      simp only [Except.ok.injEq, Prod.mk.injEq] at h2
      obtain ⟨rfl, rfl⟩ := h2
      exact .create suggestion h1

/-! ### The records of a pass -/

/-- A record fails, or its writes, its growth of the snapshot and its outcome are recorded. -/
theorem applyOne_cases (ctx : RunContext) (refused : Bool) (st : PassState)
    (record : SourceContact) :
    applyOne ctx refused st record =
        { st with report := { st.report with failed := st.report.failed + 1 } } ∨
      ∃ db' o, applyRecord ctx st.db st.snapshot record = .ok (db', o) ∧
        applyOne ctx refused st record =
          { db := db'
            snapshot := st.snapshot.after ctx.rt record o
            report := st.report.count o
            outcomes := st.outcomes ++ [(record, o)] } := by
  unfold applyOne
  cases h : applyRecord ctx st.db st.snapshot record with
  | error e => exact .inl rfl
  | ok r =>
      cases refused with
      | true => exact .inl rfl
      | false => exact .inr ⟨r.1, r.2, rfl, rfl⟩

/-- What every record of a pass preserves, the pass preserves. -/
theorem applyRecords_invariant {ctx : RunContext} {fault : ℕ → Bool} (P : PassState → Prop)
    {records : List SourceContact}
    (hstep : ∀ refused st, ∀ r ∈ records, P st → P (applyOne ctx refused st r)) {i : ℕ}
    {st : PassState} (h : P st) : P (applyRecords ctx fault i st records) := by
  induction records generalizing i st with
  | nil => exact h
  | cons r records ih =>
      exact ih (fun refused st r' hr => hstep refused st r' (List.mem_cons_of_mem _ hr))
        (hstep (fault i) st r List.mem_cons_self h)

/-- What holds of every record that is applied holds of all outcomes. -/
theorem applyRecords_outcomes {ctx : RunContext} {fault : ℕ → Bool} {P : PassState → Prop}
    {Q : SourceContact → Outcome → Prop} {records : List SourceContact}
    (hP : ∀ refused st, ∀ r ∈ records, P st → P (applyOne ctx refused st r))
    (hQ : ∀ st, ∀ r ∈ records, P st → ∀ db' o,
      applyRecord ctx st.db st.snapshot r = .ok (db', o) → Q r o) {i : ℕ} {st : PassState}
    (h : P st) (h0 : ∀ p ∈ st.outcomes, Q p.1 p.2) :
    ∀ p ∈ (applyRecords ctx fault i st records).outcomes, Q p.1 p.2 := by
  refine (applyRecords_invariant (fun st => P st ∧ ∀ p ∈ st.outcomes, Q p.1 p.2) ?_ ⟨h, h0⟩).2
  rintro refused st r hr ⟨hst, ho⟩
  refine ⟨hP refused st r hr hst, ?_⟩
  rcases applyOne_cases ctx refused st r with he | ⟨db', o, hok, he⟩
  · rw [he]
    exact ho
  · rw [he]
    intro p hp
    rcases List.mem_append.mp hp with hp | hp
    · exact ho p hp
    · rw [List.mem_singleton.mp hp]
      exact hQ st r hr hst db' o hok

/-- Records that are applied one after the other, none of which fails. -/
inductive Landed (ctx : RunContext) :
    SyncDb → Snapshot → List SourceContact → SyncDb → Snapshot → List Outcome → Prop
  | nil (db : SyncDb) (s : Snapshot) : Landed ctx db s [] db s []
  | cons {db db₁ db' : SyncDb} {s s' : Snapshot} {r : SourceContact} {rs : List SourceContact}
      {o : Outcome} {os : List Outcome} (h : applyRecord ctx db s r = .ok (db₁, o))
      (t : Landed ctx db₁ (s.after ctx.rt r o) rs db' s' os) :
      Landed ctx db s (r :: rs) db' s' (o :: os)

theorem failed_le_applyRecords (ctx : RunContext) (fault : ℕ → Bool) (i : ℕ) (st : PassState)
    (records : List SourceContact) :
    st.report.failed ≤ (applyRecords ctx fault i st records).report.failed := by
  refine applyRecords_invariant (fun st' => st.report.failed ≤ st'.report.failed) ?_ le_rfl
  intro refused st' r _ h
  rcases applyOne_cases ctx refused st' r with he | ⟨db', o, -, he⟩
  · rw [he]
    exact Nat.le_succ_of_le h
  · rw [he]
    cases o <;> exact h

/-- A pass without a failed record has applied all of its records. -/
theorem applyRecords_landed {ctx : RunContext} {fault : ℕ → Bool} {records : List SourceContact}
    {i : ℕ} (st : PassState)
    (h : (applyRecords ctx fault i st records).report.failed = st.report.failed) :
    ∃ os, Landed ctx st.db st.snapshot records (applyRecords ctx fault i st records).db
        (applyRecords ctx fault i st records).snapshot os ∧
      (applyRecords ctx fault i st records).outcomes = st.outcomes ++ records.zip os ∧
      (applyRecords ctx fault i st records).report = os.foldl SyncReport.count st.report := by
  induction records generalizing i st with
  | nil => exact ⟨[], .nil .., (List.append_nil _).symm, rfl⟩
  | cons r records ih =>
      simp only [applyRecords] at h ⊢
      rcases applyOne_cases ctx (fault i) st r with he | ⟨db₁, o, ho, he⟩
      · have hle := failed_le_applyRecords ctx fault (i + 1) (applyOne ctx (fault i) st r) records
        rw [h, he] at hle
        exact absurd hle (Nat.not_succ_le_self _)
      · rw [he] at h ⊢
        obtain ⟨os, hl, hos, hr⟩ := ih _ (h.trans (by cases o <;> rfl))
        exact ⟨o :: os, .cons ho hl, by rw [hos, List.append_assoc]; rfl, hr⟩

namespace Snapshot

variable {s : Snapshot} {record : SourceContact} {o : Outcome}

@[simp] theorem after_answered : (s.after rt record o).answered = s.answered := by cases o <;> rfl

@[simp] theorem after_skipped : (s.after rt record o).skipped = s.skipped := by cases o <;> rfl

/-- What people have stopped is read once for a pass. -/
@[simp] theorem after_excludes (externalId : String) :
    (s.after rt record o).excludes rt externalId = s.excludes rt externalId := by
  cases o <;> rfl

end Snapshot

/-- A record that a person has stopped is excluded. -/
theorem plan_excluded {record : SourceContact} {selected : List String} {s : Snapshot}
    {fullRead : Bool} (h : s.excludes rt record.externalId = true) :
    plan rt record selected s fullRead = .excluded := by
  unfold plan
  rw [if_pos h]

/-! ### The statements of a sync -/

/-- The connection that a pass was started with is in the table, maybe in another status. -/
def SyncDb.HasConnection (db : SyncDb) (connection : Connection) : Prop :=
  ∃ k ∈ db.connections, k.id = connection.id ∧ k.provider = connection.provider

/-- One statement of a sync or of a review answer. -/
inductive SyncWrite : SyncDb → SyncDb → Prop
  | fields {db : SyncDb} {contactId : Uuid} {c : Contact} (record : SourceContact)
      (mapped : MappedContact) (labels : List String) (pass : Pass)
      (hc : db.contacts.find contactId = some c) :
      SyncWrite db { db with
        contacts := db.contacts.update contactId
          (·.write (fieldWrites c (db.isLocked contactId) record mapped labels pass))
          (write_id · _) }
  | link {db : SyncDb} {connection : Connection} (hk : db.HasConnection connection)
      (externalId : String) (etag : Option String) (contactId : Uuid) (origin : LinkOrigin)
      (suggestion : Option Uuid) :
      SyncWrite db { db with
        links := db.links.insert
          (SyncDb.newLink connection externalId etag contactId origin suggestion) }
  | flagDeleted (db : SyncDb) (id : Uuid) : SyncWrite db (db.flagDeleted id)
  | touchLink (db : SyncDb) (id : Uuid) (etag : Option String) :
      SyncWrite db (db.touchLink id etag)
  | candidates (db : SyncDb) (t : Table Candidate.id) : SyncWrite db { db with candidates := t }
  | importContact (db : SyncDb) (mapped : MappedContact) (labels : List String) :
      SyncWrite db (db.importContact mapped labels).1
  | setStatus (db : SyncDb) (id : Uuid) (status : SyncStatus) :
      SyncWrite db (db.setStatus id status)
  | finish (db : SyncDb) (id : Uuid) (next : Option SyncToken) : SyncWrite db (db.finish id next)

/-- The tables of people's decisions are read and never written. -/
theorem SyncWrite.frame (h : SyncWrite db db') :
    db'.locks = db.locks ∧ db'.suppressions = db.suppressions ∧ db'.companies = db.companies := by
  cases h <;> exact ⟨rfl, rfl, rfl⟩

theorem writes_frame (h : ReflTransGen SyncWrite db db') :
    db'.locks = db.locks ∧ db'.suppressions = db.suppressions ∧ db'.companies = db.companies := by
  induction h with
  | refl => exact ⟨rfl, rfl, rfl⟩
  | tail _ hw ih =>
      obtain ⟨h1, h2, h3⟩ := hw.frame
      exact ⟨h1.trans ih.1, h2.trans ih.2.1, h3.trans ih.2.2⟩

theorem hasConnection_update {connection : Connection} {id : Uuid} {f : Connection → Connection}
    (hid : ∀ c, (f c).id = c.id) (hp : ∀ c, (f c).provider = c.provider)
    (h : db.HasConnection connection) :
    SyncDb.HasConnection { db with connections := db.connections.update id f hid } connection := by
  obtain ⟨k, hk, h1, h2⟩ := h
  refine ⟨_, (Table.mem_update hid).mpr ⟨k, hk, rfl⟩, ?_, ?_⟩
  · split
    · exact (hid k).trans h1
    · exact h1
  · split
    · exact (hp k).trans h2
    · exact h2

theorem SyncWrite.hasConnection {connection : Connection} (h : SyncWrite db db')
    (hc : db.HasConnection connection) : db'.HasConnection connection := by
  cases h with
  | setStatus id status =>
      exact hasConnection_update (f := fun c => { c with syncStatus := status }) (fun _ => rfl)
        (fun _ => rfl) hc
  | finish id next =>
      exact hasConnection_update (f := fun c => { c with syncStatus := .success, syncToken := next })
        (fun _ => rfl) (fun _ => rfl) hc
  | fields | link | flagDeleted | touchLink | candidates | importContact => exact hc

theorem writes_hasConnection {connection : Connection} (h : ReflTransGen SyncWrite db db')
    (hc : db.HasConnection connection) : db'.HasConnection connection := by
  induction h with
  | refl => exact hc
  | tail _ hw ih => exact hw.hasConnection ih

theorem applyFields_writes {contactId : Uuid} {record : SourceContact} {mapped : MappedContact}
    {labels : List String} {pass : Pass} {b : Bool}
    (h : db.applyFields contactId record mapped labels pass = .ok (db', b)) :
    ReflTransGen SyncWrite db db' := by
  obtain ⟨c, hc, ⟨-, rfl, -⟩ | ⟨-, rfl, -⟩⟩ := applyFields_eq_ok.mp h
  · exact .refl
  · exact .single (.fields record mapped labels pass hc)

theorem insertLink_writes {connection : Connection} {record : SourceContact} {contactId : Uuid}
    {origin : LinkOrigin} {suggestion : Option Uuid} {l : Link} (hk : db.HasConnection connection)
    (h : db.insertLink connection record contactId origin suggestion = .ok (db', l)) :
    SyncWrite db db' := by
  obtain ⟨-, rfl, -⟩ := insertLink_eq_ok.mp h
  exact .link hk ..

theorem ask_writes (db : SyncDb) (connectionId : Uuid) (record : SourceContact)
    (shown : SourceSnapshot) (pair : Uuid × MatchReason) :
    ReflTransGen SyncWrite db (db.ask connectionId record shown pair).1 := by
  unfold SyncDb.ask
  split
  · exact .single (.candidates ..)
  · split
    · exact .refl
    · exact .single (.candidates ..)

theorem askAll_writes (db : SyncDb) (connectionId : Uuid) (record : SourceContact)
    (shown : SourceSnapshot) (pairs : List (Uuid × MatchReason)) :
    ReflTransGen SyncWrite db (db.askAll connectionId record shown pairs).1 := by
  induction pairs generalizing db with
  | nil => exact .refl
  | cons pair pairs ih => exact (ask_writes db connectionId record shown pair).trans (ih _)

theorem applyRecord_writes {ctx : RunContext} {s : Snapshot} {record : SourceContact} {o : Outcome}
    (hk : db.HasConnection ctx.connection) (h : applyRecord ctx db s record = .ok (db', o)) :
    ReflTransGen SyncWrite db db' := by
  have ha := applyRecord_cases h
  generalize plan ctx.rt record ctx.connection.selectedGroups s ctx.fullRead = p at ha
  cases ha with
  | idle => exact .refl
  | flagDeleted link => exact .single (.flagDeleted ..)
  | update link h1 => exact (applyFields_writes h1).tail (.touchLink ..)
  | link contactId h1 hl =>
      have hw := applyFields_writes h1
      exact hw.tail (insertLink_writes (writes_hasConnection hw hk) hl)
  | review pairs => exact askAll_writes ..
  | create suggestion hl =>
      have hw : SyncWrite db (db.importContact (mapContact ctx.rt record)
        (labelsOf record ctx.connection.selectedGroups ctx.groups)).1 := .importContact ..
      exact (ReflTransGen.single hw).tail (insertLink_writes (hw.hasConnection hk) hl)

theorem applyRecords_writes {ctx : RunContext} {fault : ℕ → Bool} {i : ℕ} {st : PassState}
    {records : List SourceContact} (h : ReflTransGen SyncWrite db st.db)
    (hk : db.HasConnection ctx.connection) :
    ReflTransGen SyncWrite db (applyRecords ctx fault i st records).db := by
  refine applyRecords_invariant (fun st' => ReflTransGen SyncWrite db st'.db) ?_ h
  intro refused st' record _ h
  rcases applyOne_cases ctx refused st' record with he | ⟨db', o, ho, he⟩
  · rw [he]
    exact h
  · rw [he]
    exact h.trans (applyRecord_writes (writes_hasConnection h hk) ho)

theorem flagAll_writes (db : SyncDb) (links : List Link) :
    ReflTransGen SyncWrite db (links.foldl (fun db l => db.flagDeleted l.id) db) := by
  induction links generalizing db with
  | nil => exact .refl
  | cons l links ih => exact (ReflTransGen.single (.flagDeleted db l.id)).trans (ih _)

/-- The pass after the sweep, if there is one. -/
def swept (changes : SourceChanges) (st : PassState) : PassState :=
  if st.report.fullRead ∧ st.report.failed = 0 then
    sweep st (absentLinks st.snapshot changes.contacts) else st

theorem endPass_eq (connectionId : Uuid) (changes : SourceChanges) (st : PassState) :
    endPass connectionId changes st =
      { swept changes st with
        db := if (swept changes st).report.failed = 0 then
            (swept changes st).db.finish connectionId changes.nextSyncToken
          else (swept changes st).db.setStatus connectionId .failed } := rfl

theorem swept_writes (changes : SourceChanges) (st : PassState) :
    ReflTransGen SyncWrite st.db (swept changes st).db := by
  unfold swept
  split
  · exact flagAll_writes ..
  · exact .refl

theorem endPass_writes {connectionId : Uuid} {changes : SourceChanges} {st : PassState}
    (h : ReflTransGen SyncWrite db st.db) :
    ReflTransGen SyncWrite db (endPass connectionId changes st).db := by
  refine (h.trans (swept_writes changes st)).tail ?_
  rw [endPass_eq]
  dsimp only
  split
  · exact .finish ..
  · exact .setStatus ..

/-! ### Whole operations -/

/-- What a run needs of the connection before it begins. -/
theorem startRun_eq_ok {connectionId : Uuid} {source : Source} {connection : Connection} :
    startRun db connectionId source = .ok connection ↔
      db.connections.find connectionId = some connection ∧
        connection.provider = source.provider ∧ connection.disconnected = false ∧
        connection.isActive = true ∧ connection.selectedGroups ≠ [] := by
  unfold startRun
  cases h : db.connections.find connectionId with
  | none => simp
  | some k =>
      simp only [Option.some.injEq]
      split_ifs with h1 h2 h3
      · simp only [false_iff]
        rintro ⟨rfl, hp, -⟩
        exact h1 hp
      · simp only [false_iff]
        rintro ⟨rfl, -, hd, ha, -⟩
        rcases h2 with h2 | h2
        · exact absurd h2 (by simp [hd])
        · exact absurd ha (by simp [h2])
      · simp only [false_iff]
        rintro ⟨rfl, -, -, -, hg⟩
        exact hg h3
      · rw [not_or] at h2
        simp only [Except.ok.injEq]
        constructor
        · rintro rfl
          exact ⟨rfl, not_not.mp h1, by simpa using h2.1, by simpa using h2.2, h3⟩
        · rintro ⟨rfl, -⟩
          rfl

theorem readSource_eq_ok {source : Source} {token : Option SyncToken} {groups : List SourceGroup}
    {changes : SourceChanges} : readSource source token = .ok (groups, changes) ↔
      source.listGroups = .ok groups ∧ source.changesSince token = .ok changes := by
  unfold readSource
  cases source.listGroups with
  | error e => simp [Bind.bind, Except.bind]
  | ok gs =>
      cases source.changesSince token <;> simp [Bind.bind, Except.bind]

/-- The pass of a run that could begin and read its source. -/
def passOf (rt : Runtime) (db : SyncDb) (connectionId : Uuid) (source : Source)
    (opts : RunOptions) : Option PassState :=
  match startRun db connectionId source with
  | .error _ => none
  | .ok connection =>
    match readSource source connection.syncToken with
    | .error _ => none
    | .ok (groups, changes) => some (passOver rt db connection source groups changes opts)

theorem passOf_eq_some {connectionId : Uuid} {source : Source} {opts : RunOptions}
    {st : PassState} : passOf rt db connectionId source opts = some st ↔
      ∃ connection groups changes, startRun db connectionId source = .ok connection ∧
        readSource source connection.syncToken = .ok (groups, changes) ∧
        st = passOver rt db connection source groups changes opts := by
  unfold passOf
  cases h : startRun db connectionId source with
  | error e => simp
  | ok connection =>
      cases hr : readSource source connection.syncToken with
      | error e => simp [hr]
      | ok r => simp [hr, Prod.ext_iff, eq_comm]

/-- A run is its pass, or it writes the status of the connection at most. -/
theorem runTracked_cases (rt : Runtime) (db : SyncDb) (connectionId : Uuid) (source : Source)
    (opts : RunOptions) :
    (∃ st, passOf rt db connectionId source opts = some st ∧
        runTracked rt db connectionId source opts = (st.db, .ok st.report)) ∨
      passOf rt db connectionId source opts = none ∧
        (∃ e, (runTracked rt db connectionId source opts).2 = .error e) ∧
        ((runTracked rt db connectionId source opts).1 = db ∨
          ∃ status, (runTracked rt db connectionId source opts).1 =
            db.setStatus connectionId status) := by
  unfold runTracked passOf
  cases h : startRun db connectionId source with
  | error e => exact .inr ⟨rfl, ⟨e, rfl⟩, .inl rfl⟩
  | ok connection =>
      dsimp only
      cases hr : readSource source connection.syncToken with
      | error e => exact .inr ⟨rfl, ⟨.source e, rfl⟩, .inr ⟨e.status, rfl⟩⟩
      | ok r => exact .inl ⟨_, rfl, rfl⟩

/-- The records a run applies: all, or those before its cancel. -/
def RunOptions.applied (opts : RunOptions) (records : List SourceContact) : List SourceContact :=
  (beforeCancel opts records).getD records

theorem mem_of_mem_applied {opts : RunOptions} {records : List SourceContact} {r : SourceContact}
    (h : r ∈ opts.applied records) : r ∈ records := by
  unfold RunOptions.applied beforeCancel at h
  split at h
  · exact h
  · split at h
    · exact List.mem_of_mem_take h
    · exact h

/-- Where the pass of a run starts. -/
def passStart (rt : Runtime) (db : SyncDb) (connection : Connection) (source : Source)
    (changes : SourceChanges) : PassState :=
  { db := db.setStatus connection.id .inProgress
    snapshot := db.snapshot rt connection.id connection.provider
    report :=
      { fullRead := isFullRead source connection.syncToken changes
        total := changes.contacts.length }
    outcomes := [] }

/-- What stays the same for all records of a run. -/
def passContext (rt : Runtime) (connection : Connection) (source : Source)
    (groups : List SourceGroup) (changes : SourceChanges) : RunContext :=
  { rt := rt, connection := connection, groups := groups
    fullRead := isFullRead source connection.syncToken changes }

theorem passOver_eq (rt : Runtime) (db : SyncDb) (connection : Connection) (source : Source)
    (groups : List SourceGroup) (changes : SourceChanges) (opts : RunOptions) :
    passOver rt db connection source groups changes opts =
      let st := applyRecords (passContext rt connection source groups changes) opts.fault 0
        (passStart rt db connection source changes) (opts.applied changes.contacts)
      if (beforeCancel opts changes.contacts).isSome then
        { st with
          db := st.db.setStatus connection.id connection.syncStatus
          report := { st.report with cancelled := true } }
      else endPass connection.id changes st := by
  unfold passOver RunOptions.applied
  cases beforeCancel opts changes.contacts <;> rfl

/-- What the end of a pass leaves of its report. -/
theorem endPass_report (connectionId : Uuid) (changes : SourceChanges) (st : PassState) :
    (endPass connectionId changes st).outcomes = st.outcomes ∧
      ∃ n, (endPass connectionId changes st).report =
        { st.report with deletedInSource := st.report.deletedInSource + n } := by
  rw [endPass_eq]
  unfold swept
  split
  · exact ⟨rfl, _, rfl⟩
  · exact ⟨rfl, 0, rfl⟩

/-- A run that is not cancelled applies all records. -/
theorem passOver_finished {connection : Connection} {source : Source} {groups : List SourceGroup}
    {changes : SourceChanges} {opts : RunOptions}
    (h : (passOver rt db connection source groups changes opts).report.cancelled = false) :
    passOver rt db connection source groups changes opts = endPass connection.id changes
      (applyRecords (passContext rt connection source groups changes) opts.fault 0
        (passStart rt db connection source changes) changes.contacts) := by
  rw [passOver_eq] at h ⊢
  unfold RunOptions.applied at h ⊢
  cases hb : beforeCancel opts changes.contacts with
  | none => rfl
  | some records =>
      rw [hb] at h
      cases h

/-- A run that is not cancelled and in which no record fails has applied them all. -/
theorem passOver_landed {connection : Connection} {source : Source} {groups : List SourceGroup}
    {changes : SourceChanges} {opts : RunOptions}
    (hc : (passOver rt db connection source groups changes opts).report.cancelled = false)
    (hf : (passOver rt db connection source groups changes opts).report.failed = 0) :
    ∃ st os, passOver rt db connection source groups changes opts =
        endPass connection.id changes st ∧
      Landed (passContext rt connection source groups changes)
        (db.setStatus connection.id .inProgress) (db.snapshot rt connection.id connection.provider)
        changes.contacts st.db st.snapshot os ∧
      st.outcomes = changes.contacts.zip os ∧
      st.report = os.foldl SyncReport.count
        { fullRead := isFullRead source connection.syncToken changes
          total := changes.contacts.length } := by
  rw [passOver_finished hc] at hf ⊢
  obtain ⟨-, n, hn⟩ := endPass_report connection.id changes
    (applyRecords (passContext rt connection source groups changes) opts.fault 0
      (passStart rt db connection source changes) changes.contacts)
  rw [hn] at hf
  obtain ⟨os, hl, ho, hr⟩ := applyRecords_landed (passStart rt db connection source changes) hf
  exact ⟨_, os, rfl, hl, ho, hr⟩

/-- The outcomes of a run are those of its records. -/
theorem passOver_outcomes (rt : Runtime) (db : SyncDb) (connection : Connection) (source : Source)
    (groups : List SourceGroup) (changes : SourceChanges) (opts : RunOptions) :
    (passOver rt db connection source groups changes opts).outcomes =
      (applyRecords (passContext rt connection source groups changes) opts.fault 0
        (passStart rt db connection source changes) (opts.applied changes.contacts)).outcomes := by
  rw [passOver_eq]
  dsimp only
  split
  · rfl
  · exact (endPass_report ..).1

theorem passOver_writes {connection : Connection} (hk : db.HasConnection connection)
    (source : Source) (groups : List SourceGroup) (changes : SourceChanges) (opts : RunOptions) :
    ReflTransGen SyncWrite db (passOver rt db connection source groups changes opts).db := by
  have h0 : SyncWrite db (db.setStatus connection.id .inProgress) := .setStatus ..
  unfold passOver
  dsimp only
  split
  · exact (applyRecords_writes (.single h0) hk).tail (.setStatus ..)
  · exact endPass_writes (applyRecords_writes (.single h0) hk)

theorem hasConnection_of_find {connectionId : Uuid} {connection : Connection}
    (h : db.connections.find connectionId = some connection) : db.HasConnection connection :=
  ⟨connection, Table.find_mem h, rfl, rfl⟩

/-- A run is a sequence of statements. -/
theorem runTracked_writes (rt : Runtime) (db : SyncDb) (connectionId : Uuid) (source : Source)
    (opts : RunOptions) :
    ReflTransGen SyncWrite db (runTracked rt db connectionId source opts).1 := by
  rcases runTracked_cases rt db connectionId source opts with
    ⟨st, hst, he⟩ | ⟨-, -, he | ⟨status, he⟩⟩
  · obtain ⟨connection, groups, changes, hs, -, rfl⟩ := passOf_eq_some.mp hst
    rw [he]
    exact passOver_writes (hasConnection_of_find (startRun_eq_ok.mp hs).1) ..
  · rw [he]
  · rw [he]
    exact .single (.setStatus ..)

/-! ### Review answers -/

theorem mapError_map_eq_ok {α β : Type} {x : AppResult α} {f : AppError → AppError} {g : α → β}
    {b : β} : (x.mapError f).map g = .ok b ↔ ∃ a, x = .ok a ∧ g a = b := by
  cases x <;> simp [Except.mapError, Except.map]

theorem mem_openQuestions {connectionId : Uuid} {externalId : String} {k : Candidate} :
    k ∈ db.openQuestions connectionId externalId ↔
      k ∈ db.candidates ∧ k.connectionId = connectionId ∧ k.externalId = externalId ∧
        k.status = .opened := by
  simp [SyncDb.openQuestions, Table.mem_def]

/-- An answer is about a record that waits in a live connection. -/
theorem resolve_eq_ok {enabled : String → AppResult Unit} {r : Resolution}
    (h : db.resolve rt enabled r = .ok db') :
    ∃ connection ∈ db.connections, connection.disconnected = false ∧
      db.answer rt connection.id r = .ok db' := by
  unfold SyncDb.resolve at h
  split at h
  · obtain ⟨_, -, h⟩ := bind_eq_ok.mp h
    cases h
  · cases h
  · next connection hs =>
    have hm : connection ∈ db.reviewSources r.externalId r.connectionId := by
      unfold SyncDb.reviewSource at hs
      split at hs
      · next hl =>
        cases hs
        exact hl ▸ List.mem_singleton_self connection
      · cases hs
      · cases hs
    obtain ⟨hmem, hp⟩ := List.mem_filter.mp hm
    simp only [Bool.and_eq_true, Bool.not_eq_true', and_assoc] at hp
    refine ⟨connection, hmem, hp.1, ?_⟩
    dsimp only at h
    split at h
    · obtain ⟨_, -, h⟩ := bind_eq_ok.mp h
      exact h
    · exact h

/-- What an answer does: it goes by the snapshot of an open question and closes all of them. -/
inductive Answered (rt : Runtime) (db : SyncDb) (connectionId : Uuid) : Resolution → SyncDb → Prop
  | link {externalId : String} {contactId : Uuid} {named : Option Uuid} {first : Candidate}
      {db₁ : SyncDb} (hq : first ∈ db.openQuestions connectionId externalId)
      (hm : ∃ k ∈ db.openQuestions connectionId externalId, k.candidateContactId = contactId)
      (h : db.linkReviewed rt connectionId externalId first.etag first.sourceSnapshot contactId =
        .ok db₁) :
      Answered rt db connectionId (.link externalId contactId named)
        (db₁.closeQuestions connectionId (.link externalId contactId named))
  | create {externalId : String} {named : Option Uuid} {first : Candidate} {db₁ : SyncDb}
      {contactId : Uuid} (hq : first ∈ db.openQuestions connectionId externalId)
      (h : db.createReviewed rt connectionId externalId first.etag first.sourceSnapshot =
        .ok (db₁, contactId)) :
      Answered rt db connectionId (.create externalId named)
        (db₁.closeQuestions connectionId (.create externalId named))
  | skip {externalId : String} {named : Option Uuid} {first : Candidate}
      (hq : first ∈ db.openQuestions connectionId externalId) :
      Answered rt db connectionId (.skip externalId named)
        (db.closeQuestions connectionId (.skip externalId named))

theorem answer_eq_ok {connectionId : Uuid} {r : Resolution}
    (h : db.answer rt connectionId r = .ok db') : Answered rt db connectionId r db' := by
  unfold SyncDb.answer at h
  dsimp only at h
  split at h
  · cases h
  · next first hf =>
    have hq := List.mem_of_head? hf
    cases r with
    | link externalId contactId named =>
        dsimp only at h
        split at h
        · next hm =>
          obtain ⟨db₁, h1, rfl⟩ := mapError_map_eq_ok.mp h
          exact .link hq (by simpa [Resolution.externalId] using hm) h1
        · cases h
    | create externalId named =>
        obtain ⟨⟨db₁, contactId⟩, h1, rfl⟩ := mapError_map_eq_ok.mp h
        exact .create hq h1
    | skip externalId named =>
        cases h
        exact .skip hq

theorem linkReviewed_writes {connectionId : Uuid} {externalId : String} {etag : Option String}
    {shown : SourceSnapshot} {contactId : Uuid}
    (h : db.linkReviewed rt connectionId externalId etag shown contactId = .ok db') :
    ReflTransGen SyncWrite db db' := by
  obtain ⟨connection, hc, h⟩ := bind_eq_ok.mp h
  obtain ⟨⟨db₁, changed⟩, h1, h⟩ := bind_eq_ok.mp h
  obtain ⟨⟨db₂, l⟩, h2, h⟩ := bind_eq_ok.mp h
  cases h
  have hw := applyFields_writes h1
  exact hw.tail (insertLink_writes
    (writes_hasConnection hw (hasConnection_of_find (orError_eq_ok.mp hc))) h2)

theorem createReviewed_writes {connectionId : Uuid} {externalId : String} {etag : Option String}
    {shown : SourceSnapshot} {contactId : Uuid}
    (h : db.createReviewed rt connectionId externalId etag shown = .ok (db', contactId)) :
    ReflTransGen SyncWrite db db' := by
  obtain ⟨connection, hc, h⟩ := bind_eq_ok.mp h
  obtain ⟨⟨db₂, l⟩, h2, h⟩ := bind_eq_ok.mp h
  cases h
  have hw : SyncWrite db (db.importContact (fromSnapshot rt externalId etag shown).2.1
    (fromSnapshot rt externalId etag shown).2.2).1 := .importContact ..
  exact (ReflTransGen.single hw).tail (insertLink_writes
    (hw.hasConnection (hasConnection_of_find (orError_eq_ok.mp hc))) h2)

/-- An answer is a sequence of statements. -/
theorem resolve_writes {enabled : String → AppResult Unit} {r : Resolution}
    (h : db.resolve rt enabled r = .ok db') : ReflTransGen SyncWrite db db' := by
  obtain ⟨connection, -, -, h⟩ := resolve_eq_ok h
  cases answer_eq_ok h with
  | link _ _ h1 => exact (linkReviewed_writes h1).tail (.candidates ..)
  | create _ h1 => exact (createReviewed_writes h1).tail (.candidates ..)
  | skip _ => exact .single (.candidates ..)

/-! ### An address book -/

/-- A connection that imports one group. -/
def clientsConnection : Connection where
  id := 0
  provider := "google"
  accountEmail := "admin@example.com"
  isActive := true
  syncStatus := .never
  syncToken := none
  selectedGroups := ["contactGroups/a"]
  disconnected := false

/-- The connection in the row `id`. -/
theorem clientsConnection_id (id : Uuid) :
    Connection.id { clientsConnection with id := id } = id := rfl

/-- The whole address book at every read: the records, and one group. -/
def clientsSource (records : List SourceContact) : Source where
  provider := "google"
  listsEverything := true
  listGroups := .ok [⟨"contactGroups/a", "Clients"⟩]
  changesSince _ := .ok ⟨records, some 1, true⟩

end Mokosh.ContactSync
