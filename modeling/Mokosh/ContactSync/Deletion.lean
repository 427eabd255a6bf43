import Mokosh.ContactSync.ICloud
import Mokosh.ContactSync.Passes

/-! # Deleted in the source

A link is flagged where the source reports its record as deleted, and at the end of a full read that
has seen no record of it.  `runTracked_flags` says so for every source.

Of an iCloud address book the second is the only way, and a full read sees a card only if its text
came along and could be read: `parse_cards` skips the rest without a word.  A linked card that was
edited until nothing of a contact is left in it is flagged although the book holds it
(`unread_card_is_flagged`).  Where every linked card that a full read meets is read
(`ReadsLinked`), only links of cards that are gone are flagged (`no_false_deletion`). -/

namespace Mokosh.ContactSync

open ChangeLog (contents current)
open Relation (ReflTransGen)

variable {rt : Runtime} {db db' : SyncDb}

/-! ### Flags -/

namespace SyncDb

/-- The links that are flagged in the later tables and not in the earlier ones satisfy `P`. -/
def FlagsOnly (P : String → Prop) (db db' : SyncDb) : Prop :=
  ∀ l ∈ db'.links, l.deletedInSource = true →
    (∃ k ∈ db.links, k.id = l.id ∧ k.externalId = l.externalId ∧ k.deletedInSource = true) ∨
      P l.externalId

/-- The link is in the table, maybe in another state. -/
def HasRow (db : SyncDb) (l : Link) : Prop :=
  ∃ k ∈ db.links, k.id = l.id ∧ k.externalId = l.externalId

/-- A live link of the record that is not flagged yet. -/
def HasUnflaggedLink (db : SyncDb) (connectionId : Uuid) (externalId : String) : Prop :=
  ∃ l ∈ db.links, l.isLive = true ∧ l.connectionId = connectionId ∧ l.externalId = externalId ∧
    l.deletedInSource = false

end SyncDb

open SyncDb (FlagsOnly HasRow)

section Flags

variable {P Q : String → Prop}

theorem flagsOnly_of_eq (h : db'.links = db.links) : FlagsOnly P db db' := by
  intro l hl hf
  rw [h] at hl
  exact .inl ⟨l, hl, rfl, rfl, hf⟩

theorem SyncDb.FlagsOnly.mono (h : FlagsOnly P db db') (hPQ : ∀ e, P e → Q e) : FlagsOnly Q db db' :=
  fun l hl hf => (h l hl hf).imp_right (hPQ _)

theorem SyncDb.FlagsOnly.trans {db₁ : SyncDb} (h : FlagsOnly P db db₁) (h' : FlagsOnly P db₁ db') :
    FlagsOnly P db db' := by
  intro l hl hf
  rcases h' l hl hf with ⟨k, hk, hid, hext, hkf⟩ | hp
  · rw [← hid, ← hext]
    exact h k hk hkf
  · exact .inr hp

theorem SyncWrite.hasRow {l : Link} (h : SyncWrite db db') (hl : db.HasRow l) : db'.HasRow l := by
  obtain ⟨k, hk, hid, hext⟩ := hl
  have hupdate : ∀ (id : Uuid) (f : Link → Link) (hf : ∀ l, (f l).id = l.id),
      (∀ l, (f l).externalId = l.externalId) →
      ∃ k' ∈ db.links.update id f hf, k'.id = l.id ∧ k'.externalId = l.externalId := by
    intro id f hf hfe
    refine ⟨_, (Table.mem_update hf).mpr ⟨k, hk, rfl⟩, ?_, ?_⟩
    · split
      · exact (hf k).trans hid
      · exact hid
    · split
      · exact (hfe k).trans hext
      · exact hext
  cases h with
  | fields | candidates | importContact | setStatus | finish => exact ⟨k, hk, hid, hext⟩
  | link => exact ⟨k, (Table.mem_insert).mpr (.inl hk), hid, hext⟩
  | flagDeleted id =>
      exact hupdate id (fun l => { l with deletedInSource := true }) (fun _ => rfl) fun _ => rfl
  | touchLink id etag =>
      exact hupdate id (fun l => { l with etag := etag, deletedInSource := false }) (fun _ => rfl)
        fun _ => rfl

theorem writes_hasRow {l : Link} (h : ReflTransGen SyncWrite db db') (hl : db.HasRow l) :
    db'.HasRow l := by
  induction h with
  | refl => exact hl
  | tail _ hw ih => exact hw.hasRow ih

/-- A flag is set on the row of the link. -/
theorem flagDeleted_flags {a : Link} (h : db.HasRow a) :
    FlagsOnly (· = a.externalId) db (db.flagDeleted a.id) := by
  intro l hl hf
  have hm : l ∈ db.links.update a.id fun l => { l with deletedInSource := true } := hl
  obtain ⟨k, hk, rfl⟩ := (Table.mem_update _).mp hm
  by_cases hid : k.id = a.id
  · obtain ⟨k', hk', h1, h2⟩ := h
    obtain rfl := Table.eq_of_key_eq hk hk' (hid.trans h1.symm)
    rw [if_pos hid]
    exact .inr h2
  · rw [if_neg hid] at hf ⊢
    exact .inl ⟨k, hk, rfl, rfl, hf⟩

theorem touchLink_flags (db : SyncDb) (linkId : Uuid) (etag : Option String) :
    FlagsOnly P db (db.touchLink linkId etag) := by
  intro l hl hf
  have hm : l ∈ db.links.update linkId fun l => { l with etag := etag, deletedInSource := false } :=
    hl
  obtain ⟨k, hk, rfl⟩ := (Table.mem_update _).mp hm
  by_cases hid : k.id = linkId
  · rw [if_pos hid] at hf
    cases hf
  · rw [if_neg hid] at hf ⊢
    exact .inl ⟨k, hk, rfl, rfl, hf⟩

theorem insertLink_flags {connection : Connection} {record : SourceContact} {contactId : Uuid}
    {origin : LinkOrigin} {suggestion : Option Uuid} {l : Link}
    (h : db.insertLink connection record contactId origin suggestion = .ok (db', l)) :
    FlagsOnly P db db' := by
  obtain ⟨-, rfl, -⟩ := insertLink_eq_ok.mp h
  intro l hl hf
  rcases (Table.mem_insert).mp hl with hl | rfl
  · exact .inl ⟨l, hl, rfl, rfl, hf⟩
  · cases hf

theorem applyFields_links {contactId : Uuid} {record : SourceContact} {mapped : MappedContact}
    {labels : List String} {pass : Pass} {b : Bool}
    (h : db.applyFields contactId record mapped labels pass = .ok (db', b)) :
    db'.links = db.links := by
  obtain ⟨c, -, ⟨-, rfl, -⟩ | ⟨-, rfl, -⟩⟩ := applyFields_eq_ok.mp h <;> rfl

theorem ask_links (db : SyncDb) (connectionId : Uuid) (record : SourceContact)
    (shown : SourceSnapshot) (pair : Uuid × MatchReason) :
    (db.ask connectionId record shown pair).1.links = db.links := by
  unfold SyncDb.ask
  split
  · rfl
  · split <;> rfl

theorem askAll_links (db : SyncDb) (connectionId : Uuid) (record : SourceContact)
    (shown : SourceSnapshot) (pairs : List (Uuid × MatchReason)) :
    (db.askAll connectionId record shown pairs).1.links = db.links := by
  induction pairs generalizing db with
  | nil => rfl
  | cons pair pairs ih => exact (ih _).trans (ask_links ..)

end Flags

/-! ### A pass -/

section Pass

variable {ctx : RunContext} {record : SourceContact} {s : Snapshot} {o : Outcome}

theorem plan_flagDeleted {selected : List String} {fullRead : Bool} {link : Link}
    (h : plan rt record selected s fullRead = .flagDeleted link) :
    record.deleted = true ∧ link ∈ s.links ∧ link.externalId = record.externalId := by
  unfold plan at h
  split at h
  · cases h
  · split at h
    · next hd =>
      cases hl : s.findLink record.externalId with
      | none =>
          rw [hl] at h
          cases h
      | some l =>
          rw [hl] at h
          dsimp only at h
          split at h
          · cases h
          · cases h
            exact ⟨hd, List.mem_of_find?_eq_some hl, by simpa using List.find?_some hl⟩
    · split at h
      · cases h
      · split at h
        · split at h <;> cases h
        · split at h
          · cases h
          · unfold planMatch at h
            split at h
            · cases h
            · split at h <;> cases h
            · cases h

/-- A record flags its own link, and only if the source reports it as deleted. -/
theorem applyRecord_flags (hrows : ∀ l ∈ s.links, db.HasRow l)
    (h : applyRecord ctx db s record = .ok (db', o)) :
    FlagsOnly (fun e => record.deleted = true ∧ record.externalId = e) db db' := by
  have ha := applyRecord_cases h
  cases hp : plan ctx.rt record ctx.connection.selectedGroups s ctx.fullRead with
  | flagDeleted link =>
      rw [hp] at ha
      cases ha with
      | idle hi => cases hi
      | flagDeleted =>
          obtain ⟨hd, hm, hext⟩ := plan_flagDeleted hp
          exact (flagDeleted_flags (hrows link hm)).mono fun e he => ⟨hd, hext.symm.trans he.symm⟩
  | excluded | notSelected | unchanged | alreadyReviewed =>
      rw [hp] at ha
      cases ha
      exact flagsOnly_of_eq rfl
  | update link =>
      rw [hp] at ha
      cases ha with
      | idle hi => cases hi
      | update _ h1 => exact (flagsOnly_of_eq (applyFields_links h1)).trans (touchLink_flags _ _ _)
  | link contactId =>
      rw [hp] at ha
      cases ha with
      | idle hi => cases hi
      | link _ h1 hl => exact (flagsOnly_of_eq (applyFields_links h1)).trans (insertLink_flags hl)
  | review pairs =>
      rw [hp] at ha
      cases ha with
      | idle hi => cases hi
      | review => exact flagsOnly_of_eq (askAll_links ..)
  | create suggestion =>
      rw [hp] at ha
      cases ha with
      | idle hi => cases hi
      | create _ hl =>
          refine SyncDb.FlagsOnly.trans (flagsOnly_of_eq ?_) (insertLink_flags hl)
          rfl

/-- Every link of the snapshot is in the tables, and is of the start or of a record. -/
structure Tracks (db : SyncDb) (s₀ s : Snapshot) (records : List SourceContact) : Prop where
  rows : ∀ l ∈ s.links, db.HasRow l
  origin : ∀ l ∈ s.links, l ∈ s₀.links ∨ ∃ r ∈ records, r.externalId = l.externalId

theorem Tracks.after {s₀ : Snapshot} {records : List SourceContact}
    (ht : Tracks db s₀ s records) (hr : record ∈ records) (hk : db.HasConnection ctx.connection)
    (h : applyRecord ctx db s record = .ok (db', o)) :
    Tracks db' s₀ (s.after ctx.rt record o) records := by
  have hrows : ∀ l ∈ s.links, db'.HasRow l := fun l hl =>
    writes_hasRow (applyRecord_writes hk h) (ht.rows l hl)
  have hsame : ∀ s' : Snapshot, s'.links = s.links → Tracks db' s₀ s' records :=
    fun s' he => ⟨he ▸ hrows, he ▸ ht.origin⟩
  have hnew : ∀ (s' : Snapshot) (l : Link), s'.links = l :: s.links → db'.HasRow l →
      l.externalId = record.externalId → Tracks db' s₀ s' records := by
    intro s' l he hl hext
    constructor <;> rw [he] <;> refine List.forall_mem_cons.mpr ⟨?_, ?_⟩
    · exact hl
    · exact hrows
    · exact .inr ⟨record, hr, hext.symm⟩
    · exact ht.origin
  have ha := applyRecord_cases h
  generalize plan ctx.rt record ctx.connection.selectedGroups s ctx.fullRead = p at ha
  cases ha with
  | idle hi =>
      cases p <;> cases hi <;> exact hsame _ rfl
  | flagDeleted => exact hsame _ rfl
  | update => split <;> exact hsame _ rfl
  | review => split <;> exact hsame _ rfl
  | link _ _ hl | create _ hl =>
      obtain ⟨-, rfl, rfl⟩ := insertLink_eq_ok.mp hl
      exact hnew _ _ rfl ⟨_, (Table.mem_insert).mpr (.inr rfl), rfl, rfl⟩ rfl

/-- The source reports the record as deleted. -/
def ReportedDeleted (records : List SourceContact) (externalId : String) : Prop :=
  ∃ r ∈ records, r.deleted = true ∧ r.externalId = externalId

/-- The records of a pass flag what the source reports as deleted. -/
theorem applyRecords_flags (ctx : RunContext) (fault : ℕ → Bool) (i : ℕ)
    {records : List SourceContact} {st : PassState} (hf : FlagsOnly (ReportedDeleted records) db st.db)
    (ht : Tracks st.db s st.snapshot records) (hk : st.db.HasConnection ctx.connection) :
    FlagsOnly (ReportedDeleted records) db (applyRecords ctx fault i st records).db ∧
      Tracks (applyRecords ctx fault i st records).db s
        (applyRecords ctx fault i st records).snapshot records := by
  suffices hall : FlagsOnly (ReportedDeleted records) db (applyRecords ctx fault i st records).db ∧
      Tracks (applyRecords ctx fault i st records).db s
        (applyRecords ctx fault i st records).snapshot records ∧
      (applyRecords ctx fault i st records).db.HasConnection ctx.connection from
    ⟨hall.1, hall.2.1⟩
  refine applyRecords_invariant (fun st => FlagsOnly (ReportedDeleted records) db st.db ∧
    Tracks st.db s st.snapshot records ∧ st.db.HasConnection ctx.connection) ?_ ⟨hf, ht, hk⟩
  rintro refused st r hr ⟨hf, ht, hk⟩
  rcases applyOne_cases ctx refused st r with he | ⟨db', o, hok, he⟩
  · rw [he]
    exact ⟨hf, ht, hk⟩
  · rw [he]
    have hnew := (applyRecord_flags ht.rows hok).mono fun e he =>
      (⟨r, hr, he⟩ : ReportedDeleted records e)
    exact ⟨hf.trans hnew, ht.after hr hk hok, writes_hasConnection (applyRecord_writes hk hok) hk⟩

/-- The database refuses no record of a pass in which none fails. -/
theorem fault_of_failed {fault : ℕ → Bool} {records : List SourceContact} {i : ℕ} {st : PassState}
    (h : (applyRecords ctx fault i st records).report.failed = st.report.failed) {j : ℕ}
    (hj : j < records.length) : fault (i + j) = false := by
  induction records generalizing i st j with
  | nil => cases hj
  | cons r records ih =>
      have hle := failed_le_applyRecords ctx fault (i + 1) (applyOne ctx (fault i) st r) records
      simp only [applyRecords] at h
      have hone : (applyOne ctx (fault i) st r).report.failed = st.report.failed := by
        refine le_antisymm (h ▸ hle) ?_
        exact failed_le_applyRecords ctx fault i st [r]
      cases j with
      | zero =>
          cases hf : fault (i + 0) with
          | false => rfl
          | true =>
              rw [show fault i = true from hf] at hone
              unfold applyOne at hone
              cases hr : applyRecord ctx st.db st.snapshot r <;>
                simp only [hr, if_true] at hone <;> omega
      | succ j =>
          rw [← Nat.succ_add_eq_add_succ]
          exact ih (h.trans hone.symm) (Nat.lt_of_succ_lt_succ hj)

theorem flagAll_flags {links : List Link} (h : ∀ a ∈ links, db.HasRow a) :
    FlagsOnly (fun e => ∃ a ∈ links, a.externalId = e) db
      (links.foldl (fun db l => db.flagDeleted l.id) db) := by
  induction links generalizing db with
  | nil => exact flagsOnly_of_eq rfl
  | cons a links ih =>
      rw [List.forall_mem_cons] at h
      have hone := (flagDeleted_flags h.1).mono fun e he =>
        (⟨a, List.mem_cons_self, he.symm⟩ : ∃ b ∈ a :: links, b.externalId = e)
      have hrest := (ih fun b hb => (SyncWrite.flagDeleted db a.id).hasRow (h.2 b hb)).mono
        fun e he => (⟨he.choose, List.mem_cons_of_mem _ he.choose_spec.1, he.choose_spec.2⟩ :
          ∃ b ∈ a :: links, b.externalId = e)
      exact hone.trans hrest

theorem applyRecords_fullRead {fault : ℕ → Bool} {records : List SourceContact} {i : ℕ}
    {st : PassState} :
    (applyRecords ctx fault i st records).report.fullRead = st.report.fullRead := by
  refine applyRecords_invariant (fun st' => st'.report.fullRead = st.report.fullRead) ?_ rfl
  intro refused st' r _ h
  rcases applyOne_cases ctx refused st' r with he | ⟨db', o, -, he⟩
  · rw [he]
    exact h
  · rw [he]
    cases o <;> exact h

/-- The sweep flags the links that a full read without a failed record has not seen. -/
theorem swept_flags {st : PassState} (hrows : ∀ l ∈ st.snapshot.links, st.db.HasRow l)
    (changes : SourceChanges) :
    FlagsOnly (fun e => st.report.fullRead = true ∧ st.report.failed = 0 ∧
      ∃ a ∈ absentLinks st.snapshot changes.contacts, a.externalId = e) st.db
        (swept changes st).db := by
  unfold swept
  split
  · next h =>
    have habsent : ∀ a ∈ absentLinks st.snapshot changes.contacts, st.db.HasRow a :=
      fun a ha => hrows a (List.mem_filter.mp ha).1
    exact (flagAll_flags habsent).mono fun e he => ⟨h.1, h.2, he⟩
  · exact flagsOnly_of_eq rfl

end Pass

/-! ### A run -/

/-- The run gets to the sweep: nobody cancels it and the database refuses none of its records. -/
def RunOptions.ReachesSweep (opts : RunOptions) (records : List SourceContact) : Prop :=
  beforeCancel opts records = none ∧ ∀ i < records.length, opts.fault i = false

/-- The record has an unflagged link, and a full read that got to its sweep has not seen it. -/
structure Swept (db : SyncDb) (connection : Connection) (source : Source) (changes : SourceChanges)
    (opts : RunOptions) (externalId : String) : Prop where
  fullRead : isFullRead source connection.syncToken changes = true
  reaches : opts.ReachesSweep changes.contacts
  link : db.HasUnflaggedLink connection.id externalId
  unseen : ∀ r ∈ changes.contacts, r.externalId ≠ externalId

/-- What the sweep flags had an unflagged link when the run began. -/
theorem swept_of_absent {connection : Connection} {source : Source} {changes : SourceChanges}
    {opts : RunOptions} {st : PassState}
    (ht : Tracks st.db (db.snapshot rt connection.id connection.provider) st.snapshot
      changes.contacts)
    (hfull : isFullRead source connection.syncToken changes = true)
    (hreach : opts.ReachesSweep changes.contacts) {a : Link}
    (ha : a ∈ absentLinks st.snapshot changes.contacts) :
    Swept db connection source changes opts a.externalId := by
  obtain ⟨hm, hunseen⟩ := List.mem_filter.mp ha
  simp only [Bool.and_eq_true, Bool.not_eq_true', List.any_eq_false, decide_eq_true_eq] at hunseen
  refine ⟨hfull, hreach, ?_, hunseen.2⟩
  rcases ht.origin a hm with hs | ⟨r, hr, he⟩
  · obtain ⟨hl, hlive⟩ := List.mem_filter.mp hs
    simp only [Bool.and_eq_true, decide_eq_true_eq] at hlive
    exact ⟨a, hl, hlive.1, hlive.2, rfl, hunseen.1⟩
  · exact absurd he (hunseen.2 r hr)

/-- A link is flagged where the source reports its record as deleted, and at the end of a full read
that has not seen it. -/
theorem passOver_flags {connection : Connection} (hk : db.HasConnection connection)
    (source : Source) (groups : List SourceGroup) (changes : SourceChanges) (opts : RunOptions) :
    FlagsOnly (fun e => ReportedDeleted changes.contacts e ∨
      Swept db connection source changes opts e) db
        (passOver rt db connection source groups changes opts).db := by
  have h0 : FlagsOnly (ReportedDeleted (opts.applied changes.contacts)) db
      (passStart rt db connection source changes).db := flagsOnly_of_eq rfl
  have hstart : Tracks (passStart rt db connection source changes).db
      (db.snapshot rt connection.id connection.provider)
      (passStart rt db connection source changes).snapshot (opts.applied changes.contacts) :=
    ⟨fun l hl => ⟨l, (List.mem_filter.mp hl).1, rfl, rfl⟩, fun l hl => .inl hl⟩
  have hk' : (passStart rt db connection source changes).db.HasConnection connection :=
    (SyncWrite.setStatus ..).hasConnection hk
  obtain ⟨hf, ht⟩ := applyRecords_flags (passContext rt connection source groups changes)
    opts.fault 0 h0 hstart hk'
  have hreported := hf.mono fun e ⟨r, hr, h⟩ =>
    (.inl ⟨r, mem_of_mem_applied hr, h⟩ : ReportedDeleted changes.contacts e ∨
      Swept db connection source changes opts e)
  rw [passOver_eq]
  dsimp only
  split
  · exact hreported.trans (flagsOnly_of_eq rfl)
  · next hcancel =>
    have hbefore : beforeCancel opts changes.contacts = none := by simpa using hcancel
    have happlied : opts.applied changes.contacts = changes.contacts := by
      rw [RunOptions.applied, hbefore]
      rfl
    rw [happlied] at ht hreported ⊢
    have hsweep := (swept_flags ht.rows changes).mono fun e ⟨hfull, hfailed, a, ha, he⟩ =>
      (.inr (he ▸ swept_of_absent ht (applyRecords_fullRead.symm.trans hfull)
        ⟨hbefore, fun i hi => Nat.zero_add i ▸ fault_of_failed hfailed hi⟩ ha) :
          ReportedDeleted changes.contacts e ∨ Swept db connection source changes opts e)
    rw [endPass_eq]
    refine hreported.trans (hsweep.trans (flagsOnly_of_eq ?_))
    dsimp only
    split <;> rfl

/-- What a whole run flags. -/
theorem runTracked_flags (rt : Runtime) (db : SyncDb) (connectionId : Uuid) (source : Source)
    (opts : RunOptions) :
    FlagsOnly (fun e => ∃ connection changes, db.connections.find connectionId = some connection ∧
      source.changesSince connection.syncToken = .ok changes ∧
        (ReportedDeleted changes.contacts e ∨ Swept db connection source changes opts e)) db
          (runTracked rt db connectionId source opts).1 := by
  rcases runTracked_cases rt db connectionId source opts with
    ⟨st, hst, he⟩ | ⟨-, -, he | ⟨status, he⟩⟩
  · obtain ⟨connection, groups, changes, hs, hread, rfl⟩ := passOf_eq_some.mp hst
    have hc := (startRun_eq_ok.mp hs).1
    rw [he]
    refine (passOver_flags (hasConnection_of_find hc) source groups changes opts).mono ?_
    exact fun e h => ⟨connection, changes, hc, (readSource_eq_ok.mp hread).2, h⟩
  · rw [he]
    exact flagsOnly_of_eq rfl
  · rw [he]
    exact flagsOnly_of_eq rfl

/-! ### Requests -/

/-- What a person asks of the server, and not a sync. -/
def SyncEvent.isRequest : SyncEvent → Bool
  | .sync _ _ _ => false
  | .resolve _ _ | .setSelection _ _ | .connect _ _ _ | .disconnect _ | .unlink _
  | .removeImportedData _ _ _ | .deleteContact _ _ | .releaseLock _ _ | .edit _ _ => true

section Requests

variable {P : String → Prop}

/-- Rows that go take their flags along. -/
theorem filter_flags {p : Link → Bool} (h : db'.links = db.links.filter p) :
    FlagsOnly P db db' := by
  intro l hl hf
  rw [h] at hl
  exact .inl ⟨l, (Table.mem_filter.mp hl).1, rfl, rfl, hf⟩

theorem close_flags {reason : UnlinkReason} {p : Link → Bool}
    (h : db'.links = db.links.map (Link.close reason p) (Link.close_id _ _)) :
    FlagsOnly P db db' := by
  intro l hl hf
  rw [h] at hl
  obtain ⟨k, hk, rfl⟩ := Table.mem_map.mp hl
  refine .inl ⟨k, hk, ?_, ?_, ?_⟩
  · exact (Link.close_id ..).symm
  · unfold Link.close
    split <;> rfl
  · unfold Link.close at hf
    split at hf <;> exact hf

theorem answered_flags {connectionId : Uuid} {r : Resolution}
    (h : Answered rt db connectionId r db') : FlagsOnly P db db' := by
  cases h with
  | link _ _ h1 =>
      obtain ⟨connection, hc, h1⟩ := bind_eq_ok.mp h1
      obtain ⟨⟨db₁, changed⟩, h2, h1⟩ := bind_eq_ok.mp h1
      obtain ⟨⟨db₂, l⟩, h3, h1⟩ := bind_eq_ok.mp h1
      cases h1
      have hlink := (flagsOnly_of_eq (P := P) (applyFields_links h2)).trans (insertLink_flags h3)
      exact hlink.trans (flagsOnly_of_eq rfl)
  | create _ h1 =>
      obtain ⟨connection, hc, h1⟩ := bind_eq_ok.mp h1
      obtain ⟨⟨db₂, l⟩, h3, h1⟩ := bind_eq_ok.mp h1
      cases h1
      refine SyncDb.FlagsOnly.trans (SyncDb.FlagsOnly.trans (flagsOnly_of_eq ?_)
        (insertLink_flags h3)) (flagsOnly_of_eq ?_) <;> rfl
  | skip _ => exact flagsOnly_of_eq rfl

/-- No request flags a link. -/
theorem request_flags {e : SyncEvent} (he : e.isRequest = true) (h : db.step rt e = some db') :
    FlagsOnly P db db' := by
  cases e with
  | sync => cases he
  | resolve enabled r =>
      obtain ⟨connection, -, -, ha⟩ := resolve_eq_ok (toOption_eq_some h)
      exact answered_flags (answer_eq_ok ha)
  | setSelection provider ids =>
      obtain ⟨k, -, rfl⟩ := setSelection_eq_ok (toOption_eq_some h)
      exact flagsOnly_of_eq rfl
  | connect provider email never =>
      obtain ⟨k, -, rfl⟩ | ⟨-, rfl⟩ := recordConnection_eq_ok (toOption_eq_some h) <;>
        exact flagsOnly_of_eq rfl
  | disconnect provider =>
      obtain ⟨k, -, rfl⟩ := disconnect_eq_ok (toOption_eq_some h)
      exact close_flags rfl
  | unlink contactId =>
      obtain rfl := unlink_eq_ok (toOption_eq_some h)
      exact close_flags rfl
  | removeImportedData contactId reason outside =>
      have hforget : FlagsOnly P db (db.forgetImport rt contactId) := filter_flags rfl
      obtain rfl | rfl := removeImportedData_eq_ok (toOption_eq_some h)
      · exact hforget
      · exact hforget.trans (filter_flags rfl)
  | deleteContact contactId outside =>
      obtain rfl := deleteContact_eq_ok (toOption_eq_some h)
      exact filter_flags rfl
  | releaseLock contactId field =>
      obtain rfl := releaseLock_eq_ok (toOption_eq_some h)
      exact flagsOnly_of_eq rfl
  | edit contactId edit =>
      obtain ⟨c, -, ⟨-, rfl⟩ | ⟨-, rfl⟩⟩ := editContact_eq_ok (toOption_eq_some h) <;>
        exact flagsOnly_of_eq rfl

end Requests

/-! ### The address book -/

/-- A card as the server holds it. -/
structure BookCard where
  /-- The external id that its `UID`, or without one its content, gives it. -/
  externalId : String
  text : String
deriving DecidableEq, Repr

/-- The tables, and the address book behind one connection. -/
structure CardBookState where
  db : SyncDb
  book : ChangeLog String BookCard

/-- What the server answers to the requests of one run.  Only the query of all cards says what the
book holds; what the other requests are told is anything. -/
structure CardRead where
  /-- The edits between the start of the run and the query. -/
  beforeQuery : ChangeLog String BookCard := []
  afterQuery : ChangeLog String BookCard := []
  queryFault : Option Fault := none
  /-- The cards whose data the server leaves out. -/
  withheld : String → Bool := fun _ => false
  discovered : Except SourceError String := .ok "/book/"
  delta : String → Except SourceError XmlBody
  token : Except SourceError XmlBody
  /-- The requests of `list_groups`. -/
  labels : Replies

/-- The texts that the connection's cursors stand for. -/
structure TokenTexts where
  name : ℕ → String
  number : String → ℕ

namespace CardRead

variable (v : CardRead) (book : ChangeLog String BookCard)

/-- The book when the query is answered. -/
def queryLog : ChangeLog String BookCard := book ++ v.beforeQuery

def replies : Replies where
  book := v.discovered
  delta := v.delta
  query := answer v.queryFault
    (queryReport ((contents (v.queryLog book)).map fun x => (x.1, x.2.text)) v.withheld)
  token := v.token

/-- iCloud as the engine reads it. -/
def source (rt : Runtime) (parser : CardParser) (tokens : TokenTexts) : Source where
  provider := "icloud"
  listsEverything := true
  listGroups := listGroups rt parser v.labels
  changesSince token :=
    (changesSince rt parser (v.replies book) (token.map tokens.name)).map fun c =>
      ⟨c.contacts, c.nextSyncToken.map tokens.number, c.wasFullResync⟩

end CardRead

inductive CardEvent where
  | edit (change : Change String BookCard)
  | read (v : CardRead) (opts : RunOptions)
  | request (e : SyncEvent)

namespace CardBookState

variable (rt : Runtime) (parser : CardParser) (tokens : TokenTexts) (connectionId : Uuid)

def step (st : CardBookState) : CardEvent → Option CardBookState
  | .edit change => some { st with book := st.book ++ [change] }
  | .read v opts => some
    { db := (runTracked rt st.db connectionId (v.source st.book rt parser tokens) opts).1
      book := v.queryLog st.book ++ v.afterQuery }
  | .request e =>
    if e.isRequest then (st.db.step rt e).map fun db => { st with db := db } else none

end CardBookState

/-- The book at the time of the read, if the event is one. -/
def CardEvent.bookRead (book : ChangeLog String BookCard) : CardEvent → ChangeLog String BookCard
  | .read v _ => v.queryLog book
  | .edit _ | .request _ => book

/-- A link is flagged only when the book holds no card with its external id at the time of the read,
or the source itself reports the record as deleted. -/
def NoFalseDeletion (rt : Runtime) (parser : CardParser) (tokens : TokenTexts) (connectionId : Uuid)
    (start : CardBookState) (es : List CardEvent) : Prop :=
  ∀ es₁ e es₂ st st', es = es₁ ++ e :: es₂ →
    run (CardBookState.step rt parser tokens connectionId) start es₁ = some st →
    st.step rt parser tokens connectionId e = some st' →
    ∀ l ∈ st'.db.links, l.deletedInSource = true →
      (∃ k ∈ st.db.links, k.id = l.id ∧ k.deletedInSource = true) ∨
        (∀ href card, current (e.bookRead st.book) href = some card →
          card.externalId ≠ l.externalId) ∨
        ∃ v opts connection changes, e = .read v opts ∧
          st.db.connections.find connectionId = some connection ∧
          (v.source st.book rt parser tokens).changesSince connection.syncToken = .ok changes ∧
          ReportedDeleted changes.contacts l.externalId

/-- A full read that gets to its sweep reads every linked card of the book: its data comes along,
and a contact with its external id is read from it. -/
def ReadsLinked (rt : Runtime) (parser : CardParser) (tokens : TokenTexts) (connectionId : Uuid)
    (st : CardBookState) : CardEvent → Prop
  | .edit _ | .request _ => True
  | .read v opts =>
    ∀ connection changes, st.db.connections.find connectionId = some connection →
      (v.source st.book rt parser tokens).changesSince connection.syncToken = .ok changes →
      isFullRead (v.source st.book rt parser tokens) connection.syncToken changes = true →
      opts.ReachesSweep changes.contacts →
      ∀ href card, current (v.queryLog st.book) href = some card →
        st.db.HasUnflaggedLink connectionId card.externalId →
        v.withheld href = false ∧
          ∃ r ∈ (parseCards rt parser [trim card.text]).1, r.externalId = card.externalId

section CardBook

variable {parser : CardParser} {tokens : TokenTexts} {connectionId : Uuid}

/-- The contacts of a read are those of its cards, with their groups. -/
theorem changesSince_contacts {v : CardRead} {book : ChangeLog String BookCard}
    {token : Option SyncToken} {changes : SourceChanges}
    (h : (v.source book rt parser tokens).changesSince token = .ok changes) :
    ∃ b, (v.replies book).readBook rt (token.map tokens.name) = .ok b ∧
      changes.wasFullResync = b.wasFullResync ∧
      ∀ {β : Type} (f : SourceContact → β), (∀ c ids, f { c with groupIds := ids } = f c) →
        changes.contacts.map f = (parseCards rt parser b.cards).1.map f := by
  have h' : (changesSince rt parser (v.replies book) (token.map tokens.name)).map (fun c =>
      (⟨c.contacts, c.nextSyncToken.map tokens.number, c.wasFullResync⟩ : SourceChanges)) =
        .ok changes := h
  unfold changesSince at h'
  cases hb : (v.replies book).readBook rt (token.map tokens.name) with
  | error e =>
      rw [hb] at h'
      cases h'
  | ok b =>
      rw [hb] at h'
      cases h'
      exact ⟨b, rfl, rfl, fun f hf => applyMembership_map f hf _ _⟩

/-- A card is never reported as deleted. -/
theorem not_reportedDeleted {v : CardRead} {book : ChangeLog String BookCard}
    {token : Option SyncToken} {changes : SourceChanges}
    (h : (v.source book rt parser tokens).changesSince token = .ok changes) (externalId : String) :
    ¬ ReportedDeleted changes.contacts externalId := by
  rintro ⟨r, hr, hd, -⟩
  obtain ⟨b, -, -, hmap⟩ := changesSince_contacts h
  have hm : r.deleted ∈ changes.contacts.map (·.deleted) := List.mem_map_of_mem hr
  rw [hmap (·.deleted) fun _ _ => rfl] at hm
  obtain ⟨c, hc, he⟩ := List.mem_map.mp hm
  rw [parseCards_live hc, hd] at he
  cases he

/-- A full read has a contact for every card that came along and could be read. -/
theorem seen_of_read (h : rt.KeepsLowercase) {v : CardRead} {book : ChangeLog String BookCard}
    {token : Option SyncToken} {changes : SourceChanges}
    (hc : (v.source book rt parser tokens).changesSince token = .ok changes)
    (hfull : isFullRead (v.source book rt parser tokens) token changes = true) {href : String}
    {card : BookCard} (hcur : current (v.queryLog book) href = some card)
    (hw : v.withheld href = false) {r : SourceContact}
    (hr : r ∈ (parseCards rt parser [trim card.text]).1) :
    ∃ r' ∈ changes.contacts, r'.externalId = r.externalId := by
  obtain ⟨b, hb, hresync, hmap⟩ := changesSince_contacts hc
  have hcards : (v.replies book).allCards rt = .ok b.cards := by
    rcases readBook_cases hb with ⟨-, hall, -⟩ | ⟨-, hno, t, delta, ht, -⟩
    · exact hall
    · rw [isFullRead, hresync, hno] at hfull
      cases token with
      | none => cases ht
      | some t => cases hfull
  have heq := read_query h _ rfl hcards
  have hmem : (href, card.text) ∈ (contents (v.queryLog book)).map fun x => (x.1, x.2.text) :=
    List.mem_map.mpr ⟨(href, card), ChangeLog.mem_contents.mpr hcur, rfl⟩
  have hread : trim card.text ∈ b.cards := by
    rw [heq]
    exact List.mem_map.mpr ⟨_, List.mem_filter.mpr ⟨hmem, by rw [hw]; rfl⟩, rfl⟩
  have hid : r.externalId ∈ changes.contacts.map (·.externalId) := by
    rw [hmap (·.externalId) fun _ _ => rfl]
    exact List.mem_map_of_mem (mem_parseCards hread hr)
  obtain ⟨r', hr', he⟩ := List.mem_map.mp hid
  exact ⟨r', hr', he⟩

/-- Where every linked card is read, a run flags only links of cards that are gone. -/
theorem step_noFalseDeletion (h : rt.KeepsLowercase) {st st' : CardBookState} {e : CardEvent}
    (hc : ReadsLinked rt parser tokens connectionId st e)
    (hs : st.step rt parser tokens connectionId e = some st') :
    FlagsOnly (fun externalId => ∀ href card, current (e.bookRead st.book) href = some card →
      card.externalId ≠ externalId) st.db st'.db := by
  cases e with
  | edit change =>
      cases hs
      exact flagsOnly_of_eq rfl
  | request e =>
      unfold CardBookState.step at hs
      dsimp only at hs
      split at hs
      · next he =>
        obtain ⟨db', hd, rfl⟩ := Option.map_eq_some_iff.mp hs
        exact request_flags he hd
      · cases hs
  | read v opts =>
      cases hs
      refine (runTracked_flags rt st.db connectionId (v.source st.book rt parser tokens) opts).mono ?_
      rintro e ⟨connection, changes, hconn, hread, hrep | hsw⟩ href card hcur rfl
      · exact not_reportedDeleted hread _ hrep
      · have hid : connection.id = connectionId := Table.key_of_find hconn
        obtain ⟨hw, r, hr, hext⟩ := hc connection changes hconn hread hsw.fullRead hsw.reaches href
          card hcur (hid ▸ hsw.link)
        obtain ⟨r', hr', he⟩ := seen_of_read h hread hsw.fullRead hcur hw hr
        exact hsw.unseen r' hr' (he.trans hext)

/-- In every run each of whose full reads reads the linked cards it meets, a link is flagged only
when the book holds no card with its external id. -/
theorem no_false_deletion (h : rt.KeepsLowercase) {start : CardBookState} {es : List CardEvent}
    (hes : StepsMeet (CardBookState.step rt parser tokens connectionId)
      (ReadsLinked rt parser tokens connectionId) start es) :
    NoFalseDeletion rt parser tokens connectionId start es := by
  rintro es₁ e es₂ st st' rfl hr hs l hl hf
  have hmeet := (stepsMeet_append.mp hes).2 st hr
  rcases step_noFalseDeletion h hmeet.1 hs l hl hf with ⟨k, hk, hid, -, hkf⟩ | hgone
  · exact .inl ⟨k, hk, hid, hkf⟩
  · exact .inr (.inl hgone)

end CardBook

/-! ### A card without a name -/

/-- The parser on lines that are a name, a colon and a value without an escape. -/
def plainParser : CardParser := fun text =>
  some ((readLines [] text.toList).map fun line =>
    { name :=
        let name := asciiUpper (line.takeWhile (· ≠ ':'))
        if name = "UID".toList then .uid
        else if name = "FN".toList then .fn
        else if name = "NOTE".toList then .note
        else if name = "CATEGORIES".toList then .categories
        else .unread
      values := [.text (String.ofList (((trimEol line).dropWhile (· ≠ ':')).drop 1))] })

def annCard : BookCard where
  externalId := "c1"
  text := "BEGIN:VCARD\r\nVERSION:3.0\r\nUID:c1\r\nFN:Ann Lee\r\nCATEGORIES:Clients\r\nEND:VCARD"

/-- The same card after its name was removed. -/
def namelessCard : BookCard where
  externalId := "c1"
  text := "BEGIN:VCARD\r\nVERSION:3.0\r\nUID:c1\r\nFN:\r\nNOTE:met at the fair\r\n" ++
    "CATEGORIES:Clients\r\nEND:VCARD"

/-- A read that is told no token, so that the next one is of the whole book too. -/
def wholeRead : CardEvent :=
  .read
    { delta := fun _ => .error .throttled
      token := .error .throttled
      labels :=
        { book := .ok "/book/"
          delta := fun _ => .error .throttled
          query := .ok ⟨multistatusBody [] none, none⟩
          token := .error .throttled } } {}

def plainTokens : TokenTexts where
  name := plainName
  number := String.length

/-- A book with one card, and an iCloud connection that imports its group. -/
def annBook : CardBookState where
  db := { SyncDb.fresh with
    connections := SyncDb.fresh.connections.insert fun id =>
      { clientsConnection with id := id, provider := "icloud", selectedGroups := ["Clients"] } }
  book := [.put "/book/ann.vcf" annCard]

/-- The card is imported and its name removed; the next read flags the link although the book holds
the card. -/
theorem unread_card_is_flagged :
    ¬ NoFalseDeletion asciiRuntime plainParser plainTokens 0 annBook
      [wholeRead, .edit (.put "/book/ann.vcf" namelessCard), wholeRead] := by
  intro h
  have hrun : ((run (CardBookState.step asciiRuntime plainParser plainTokens 0) annBook
      [wholeRead, .edit (.put "/book/ann.vcf" namelessCard)]).any fun st =>
        (st.step asciiRuntime plainParser plainTokens 0 wholeRead).any fun st' =>
          st'.db.links.rows.any fun l =>
            l.deletedInSource && st.db.links.rows.all (fun k => !k.deletedInSource) &&
              decide (current (wholeRead.bookRead st.book) "/book/ann.vcf" = some namelessCard) &&
              decide (namelessCard.externalId = l.externalId)) = true := by
    decide +kernel
  simp only [Option.any_eq_true, List.any_eq_true, List.all_eq_true, Bool.and_eq_true,
    Bool.not_eq_true', decide_eq_true_eq] at hrun
  obtain ⟨st, hst, st', hst', l, hl, ⟨⟨hf, hclean⟩, hcur⟩, hext⟩ := hrun
  rcases h _ _ [] st st' rfl hst hst' l hl hf with ⟨k, hk, -, hkf⟩ | hgone | hrep
  · rw [hclean k hk] at hkf
    cases hkf
  · exact hgone _ _ hcur hext
  · obtain ⟨v, opts, connection, changes, -, -, hread, hrep⟩ := hrep
    exact not_reportedDeleted hread _ hrep

/-- The card is imported, removed from the book, and its link flagged. -/
theorem no_false_deletion_removed :
    NoFalseDeletion asciiRuntime plainParser plainTokens 0 annBook
      [wholeRead, .edit (.remove "/book/ann.vcf"), wholeRead] := by
  refine no_false_deletion asciiRuntime_keepsLowercase ⟨?_, fun st hst => ⟨trivial, fun st' hst' =>
    ⟨?_, fun _ _ => trivial⟩⟩⟩
  · rintro connection changes - - - - href card - ⟨l, hl, -⟩
    exact absurd hl List.not_mem_nil
  · rintro connection changes - - - - href card hcur -
    cases hst
    cases hst'
    have hgone : current ([.put "/book/ann.vcf" annCard, .remove "/book/ann.vcf"] :
        ChangeLog String BookCard) href = none := by
      by_cases hh : "/book/ann.vcf" = href <;> simp [current, Change.key, Change.value, hh]
    exact absurd (hgone.symm.trans hcur) (by simp)

end Mokosh.ContactSync
