import Mokosh.Lib.ChangeLog
import Mokosh.ContactSync.Stop

/-! # The selection is complete

After a successful sync every selected record of the address book is accounted for: it has a live
link, a person stopped it, a reviewer skipped it or it waits for review (`SelectionComplete`).  A
sync with a cursor is told of the records changed since then and of no others, so the result rests
on an invariant over the history (`Caught`): what was not changed since the stored cursor and
carries a selected label is accounted for already.

Every event keeps the invariant but one.  `set_selection` leaves the cursor where it is, and a label
it adds may be carried by records the cursor has passed; no later sync is told of them
(`widened_selection_is_missed`).  Where each selection adds none of those (`WidensCaught`), the
selection is complete (`selection_complete`). -/

namespace Mokosh.ContactSync

open ChangeLog (contents changedSince current)
open Relation (ReflTransGen)

variable {rt : Runtime} {db db' : SyncDb} {cn : Connection}

/-! ### What becomes of a record -/

namespace SyncDb

def HasLiveLink (db : SyncDb) (connectionId : Uuid) (externalId : String) : Prop :=
  ∃ l ∈ db.links.rows, l.isLive = true ∧ l.connectionId = connectionId ∧ l.externalId = externalId

/-- A reviewer has skipped the record. -/
def Skipped (db : SyncDb) (connectionId : Uuid) (externalId : String) : Prop :=
  ∃ k ∈ db.candidates.rows, k.connectionId = connectionId ∧ k.externalId = externalId ∧
    k.status = .skipped

/-- A question about the record is open. -/
def WaitsForReview (db : SyncDb) (connectionId : Uuid) (externalId : String) : Prop :=
  ∃ k ∈ db.candidates.rows, k.connectionId = connectionId ∧ k.externalId = externalId ∧
    k.status = .opened

/-- Nobody has to decide about the record any more. -/
def Settled (rt : Runtime) (db : SyncDb) (cn : Connection) (externalId : String) : Prop :=
  db.HasLiveLink cn.id externalId ∨ db.Unlinked cn.id externalId ∨
    db.Suppressed rt cn.provider externalId ∨ db.Skipped cn.id externalId

/-- The record is settled or somebody has been asked about it. -/
def Accounted (rt : Runtime) (db : SyncDb) (cn : Connection) (externalId : String) : Prop :=
  db.Settled rt cn externalId ∨ db.WaitsForReview cn.id externalId

instance (connectionId : Uuid) (externalId : String) :
    Decidable (db.HasLiveLink connectionId externalId) :=
  inferInstanceAs (Decidable (∃ l ∈ db.links.rows, _))

instance (connectionId : Uuid) (externalId : String) :
    Decidable (db.Skipped connectionId externalId) :=
  inferInstanceAs (Decidable (∃ k ∈ db.candidates.rows, _))

instance (connectionId : Uuid) (externalId : String) :
    Decidable (db.WaitsForReview connectionId externalId) :=
  inferInstanceAs (Decidable (∃ k ∈ db.candidates.rows, _))

instance (connectionId : Uuid) (externalId : String) :
    Decidable (db.Unlinked connectionId externalId) :=
  inferInstanceAs (Decidable (∃ l ∈ db.links.rows, _))

end SyncDb

/-! ### The address book -/

/-- A record as the source gives it out. -/
def inBook (externalId : String) (record : SourceContact) : SourceContact :=
  { record with externalId := externalId, deleted := false }

/-- The answer for a record that was changed. -/
def changedRecord (log : ChangeLog String SourceContact) (externalId : String) : SourceContact :=
  match current log externalId with
  | some record => inBook externalId record
  | none => { externalId := externalId, deleted := true }

/-- A source that reads the log: everything without a cursor or after it has expired (`resync`), the
changed records with one. -/
def bookSource (provider : String) (groups : Except SourceError (List SourceGroup)) (resync : Bool)
    (log : ChangeLog String SourceContact) : Source where
  provider := provider
  listsEverything := true
  listGroups := groups
  changesSince
    | none => .ok ⟨(contents log).map fun x => inBook x.1 x.2, some log.length, false⟩
    | some t =>
      if resync then .ok ⟨(contents log).map fun x => inBook x.1 x.2, some log.length, true⟩
      else .ok ⟨(changedSince t log).map (changedRecord log), some log.length, false⟩

/-- The tables and the address book of one connection. -/
structure BookState where
  db : SyncDb
  log : ChangeLog String SourceContact

inductive BookEvent where
  | edit (change : Change String SourceContact)
  | sync (groups : Except SourceError (List SourceGroup)) (resync : Bool) (opts : RunOptions)
  | setSelection (provider : String) (groupIds : List String)
  | resolve (enabled : String → AppResult Unit) (resolution : Resolution)
  | unlink (contactId : Uuid)
  | editContact (contactId : Uuid) (edit : ContactEdit)

namespace BookState

def request (rt : Runtime) (st : BookState) (e : SyncEvent) : Option BookState :=
  (st.db.step rt e).map fun db => { st with db := db }

/-- One event of the address book, or one of the server. -/
def step (rt : Runtime) (cn : Connection) (st : BookState) : BookEvent → Option BookState
  | .edit change => some { st with log := st.log ++ [change] }
  | .sync groups resync opts =>
    st.request rt (.sync cn.id (bookSource cn.provider groups resync st.log) opts)
  | .setSelection provider groupIds => st.request rt (.setSelection provider groupIds)
  | .resolve enabled resolution => st.request rt (.resolve enabled resolution)
  | .unlink contactId => st.request rt (.unlink contactId)
  | .editContact contactId edit => st.request rt (.edit contactId edit)

theorem request_eq_some {st st' : BookState} {e : SyncEvent} (h : st.request rt e = some st') :
    ∃ db', st.db.step rt e = some db' ∧ st' = { st with db := db' } := by
  obtain ⟨db', hd, rfl⟩ := Option.map_eq_some_iff.mp h
  exact ⟨db', hd, rfl⟩

end BookState

/-- After every successful sync of a run, every selected record that nobody has stopped, skipped or
been asked about has a live link. -/
def SelectionComplete (rt : Runtime) (cn : Connection) (st : BookState) (es : List BookEvent) :
    Prop :=
  ∀ es₁ groups resync opts es₂ s pass c, es = es₁ ++ .sync groups resync opts :: es₂ →
    run (BookState.step rt cn) st es₁ = some s →
    passOf rt s.db cn.id (bookSource cn.provider groups resync s.log) opts = some pass →
    pass.report.cancelled = false → pass.report.failed = 0 →
    s.db.connections.find cn.id = some c →
    ∀ externalId r, current s.log externalId = some r → r.isSelected c.selectedGroups = true →
      ¬ pass.db.Unlinked cn.id externalId → ¬ pass.db.Suppressed rt cn.provider externalId →
      ¬ pass.db.Skipped cn.id externalId → ¬ pass.db.WaitsForReview cn.id externalId →
      pass.db.HasLiveLink cn.id externalId

/-! ### What a statement keeps -/

/-- Two rows of one question, in one status. -/
def SameQuestion (k k' : Candidate) : Prop :=
  k'.connectionId = k.connectionId ∧ k'.externalId = k.externalId ∧ k'.status = k.status

/-- Questions are added, and none is answered. -/
structure QuestionsKept (db db' : SyncDb) : Prop where
  kept : ∀ k ∈ db.candidates.rows, ∃ k' ∈ db'.candidates.rows, SameQuestion k k'
  answered : ∀ k' ∈ db'.candidates.rows, k'.status ≠ .opened →
    ∃ k ∈ db.candidates.rows, SameQuestion k k'

theorem QuestionsKept.of_eq (h : db'.candidates = db.candidates) : QuestionsKept db db' :=
  ⟨fun k hk => ⟨k, h ▸ hk, rfl, rfl, rfl⟩, fun k hk _ => ⟨k, h ▸ hk, rfl, rfl, rfl⟩⟩

theorem QuestionsKept.trans {db₁ : SyncDb} (h : QuestionsKept db db₁) (h' : QuestionsKept db₁ db') :
    QuestionsKept db db' := by
  constructor
  · intro k hk
    obtain ⟨k₁, hk₁, e1, e2, e3⟩ := h.kept k hk
    obtain ⟨k₂, hk₂, e4, e5, e6⟩ := h'.kept k₁ hk₁
    exact ⟨k₂, hk₂, e4.trans e1, e5.trans e2, e6.trans e3⟩
  · intro k hk hs
    obtain ⟨k₁, hk₁, e1, e2, e3⟩ := h'.answered k hk hs
    obtain ⟨k₂, hk₂, e4, e5, e6⟩ := h.answered k₁ hk₁ (e3 ▸ hs)
    exact ⟨k₂, hk₂, e1.trans e4, e2.trans e5, e3.trans e6⟩

theorem ask_kept (db : SyncDb) (connectionId : Uuid) (record : SourceContact)
    (shown : SourceSnapshot) (pair : Uuid × MatchReason) :
    QuestionsKept db (db.ask connectionId record shown pair).1 := by
  unfold SyncDb.ask
  split
  · constructor
    · exact fun k hk => ⟨k, (Table.mem_insert).mpr (.inl hk), rfl, rfl, rfl⟩
    · intro k hk hs
      rcases (Table.mem_insert).mp hk with hk | rfl
      · exact ⟨k, hk, rfl, rfl, rfl⟩
      · exact absurd rfl hs
  · split
    · exact .of_eq rfl
    · constructor
      · intro k hk
        refine ⟨_, (Table.mem_update).mpr ⟨k, hk, rfl⟩, ?_⟩
        split <;> exact ⟨rfl, rfl, rfl⟩
      · intro k hk _
        obtain ⟨k', hk', rfl⟩ := (Table.mem_update).mp hk
        refine ⟨k', hk', ?_⟩
        split <;> exact ⟨rfl, rfl, rfl⟩

theorem askAll_kept (db : SyncDb) (connectionId : Uuid) (record : SourceContact)
    (shown : SourceSnapshot) (pairs : List (Uuid × MatchReason)) :
    QuestionsKept db (db.askAll connectionId record shown pairs).1 := by
  induction pairs generalizing db with
  | nil => exact .of_eq rfl
  | cons pair pairs ih => exact (ask_kept db connectionId record shown pair).trans (ih _)

/-- A question that was put is open. -/
theorem ask_opens (db : SyncDb) (connectionId : Uuid) (record : SourceContact)
    (shown : SourceSnapshot) (pair : Uuid × MatchReason) :
    (db.ask connectionId record shown pair).1.WaitsForReview connectionId record.externalId := by
  unfold SyncDb.ask
  split
  · exact ⟨_, (Table.mem_insert).mpr (.inr rfl), rfl, rfl, rfl⟩
  · next k hk =>
    have hmem := List.mem_of_find?_eq_some hk
    have hp := List.find?_some hk
    simp only [decide_eq_true_eq] at hp
    split
    · exact ⟨k, hmem, hp.2.1, hp.2.2.1, hp.1⟩
    · refine ⟨_, (Table.mem_update).mpr ⟨k, hmem, rfl⟩, ?_⟩
      rw [if_pos rfl]
      exact ⟨hp.2.1, hp.2.2.1, hp.1⟩

theorem HasLiveLink.write {connectionId : Uuid} {externalId : String} (h : SyncWrite db db')
    (hl : db.HasLiveLink connectionId externalId) : db'.HasLiveLink connectionId externalId := by
  obtain ⟨l, hl, h1, h2, h3⟩ := hl
  cases h with
  | fields | candidates | importContact | setStatus | finish => exact ⟨l, hl, h1, h2, h3⟩
  | link => exact ⟨l, (Table.mem_insert).mpr (.inl hl), h1, h2, h3⟩
  | flagDeleted | touchLink =>
      refine ⟨_, (Table.mem_update).mpr ⟨l, hl, rfl⟩, ?_, ?_, ?_⟩ <;> split <;> assumption

theorem writes_live {connectionId : Uuid} {externalId : String} (hw : ReflTransGen SyncWrite db db')
    (h : db.HasLiveLink connectionId externalId) : db'.HasLiveLink connectionId externalId := by
  induction hw with
  | refl => exact h
  | tail _ hw ih => exact HasLiveLink.write hw ih

theorem writes_unlinked {connectionId : Uuid} {externalId : String}
    (hw : ReflTransGen SyncWrite db db') (h : db.Unlinked connectionId externalId) :
    db'.Unlinked connectionId externalId := by
  induction hw with
  | refl => exact h
  | tail _ hw ih => exact hw.unlinked ih

theorem writes_suppressed {provider externalId : String} (hw : ReflTransGen SyncWrite db db')
    (h : db.Suppressed rt provider externalId) : db'.Suppressed rt provider externalId := by
  unfold SyncDb.Suppressed
  rw [(writes_frame hw).2.1]
  exact h

/-- What is settled stays so under the statements of a sync that keep what was skipped. -/
theorem Settled.writes {externalId : String} (hw : ReflTransGen SyncWrite db db')
    (hq : db.Skipped cn.id externalId → db'.Skipped cn.id externalId)
    (h : db.Settled rt cn externalId) : db'.Settled rt cn externalId :=
  h.imp (writes_live hw) (Or.imp (writes_unlinked hw) (Or.imp (writes_suppressed hw) hq))

theorem Skipped.kept {connectionId : Uuid} {externalId : String} (hq : QuestionsKept db db')
    (h : db.Skipped connectionId externalId) : db'.Skipped connectionId externalId := by
  obtain ⟨k, hk, h1, h2, h3⟩ := h
  obtain ⟨k', hk', e1, e2, e3⟩ := hq.kept k hk
  exact ⟨k', hk', e1.trans h1, e2.trans h2, e3.trans h3⟩

theorem WaitsForReview.kept {connectionId : Uuid} {externalId : String} (hq : QuestionsKept db db')
    (h : db.WaitsForReview connectionId externalId) :
    db'.WaitsForReview connectionId externalId := by
  obtain ⟨k, hk, h1, h2, h3⟩ := h
  obtain ⟨k', hk', e1, e2, e3⟩ := hq.kept k hk
  exact ⟨k', hk', e1.trans h1, e2.trans h2, e3.trans h3⟩

theorem askAll_opens {connectionId : Uuid} {record : SourceContact} {shown : SourceSnapshot}
    {pairs : List (Uuid × MatchReason)} (h : pairs ≠ []) :
    (db.askAll connectionId record shown pairs).1.WaitsForReview connectionId
      record.externalId := by
  cases pairs with
  | nil => exact absurd rfl h
  | cons pair pairs =>
      exact WaitsForReview.kept
        (askAll_kept (db.ask connectionId record shown pair).1 connectionId record shown pairs)
        (ask_opens db connectionId record shown pair)

/-- One record, some records or a whole run: statements of a sync by which no question is
answered. -/
structure Progress (db db' : SyncDb) : Prop where
  writes : ReflTransGen SyncWrite db db'
  questions : QuestionsKept db db'

namespace Progress

theorem trans {db₁ : SyncDb} (h : Progress db db₁) (h' : Progress db₁ db') : Progress db db' :=
  ⟨h.writes.trans h'.writes, h.questions.trans h'.questions⟩

theorem settled {externalId : String} (h : Progress db db') (hs : db.Settled rt cn externalId) :
    db'.Settled rt cn externalId :=
  Settled.writes h.writes (Skipped.kept h.questions) hs

theorem accounted {externalId : String} (h : Progress db db')
    (ha : db.Accounted rt cn externalId) : db'.Accounted rt cn externalId :=
  ha.imp h.settled (WaitsForReview.kept h.questions)

end Progress

theorem applyFields_candidates {contactId : Uuid} {record : SourceContact} {mapped : MappedContact}
    {labels : List String} {pass : Pass} {b : Bool}
    (h : db.applyFields contactId record mapped labels pass = .ok (db', b)) :
    db'.candidates = db.candidates ∧ db'.connections = db.connections := by
  obtain ⟨c, -, ⟨-, rfl, -⟩ | ⟨-, rfl, -⟩⟩ := applyFields_eq_ok.mp h <;> exact ⟨rfl, rfl⟩

theorem insertLink_candidates {connection : Connection} {record : SourceContact} {contactId : Uuid}
    {origin : LinkOrigin} {suggestion : Option Uuid} {l : Link}
    (h : db.insertLink connection record contactId origin suggestion = .ok (db', l)) :
    db'.candidates = db.candidates ∧ db'.connections = db.connections := by
  obtain ⟨-, rfl, -⟩ := insertLink_eq_ok.mp h
  exact ⟨rfl, rfl⟩

theorem ask_connections (db : SyncDb) (connectionId : Uuid) (record : SourceContact)
    (shown : SourceSnapshot) (pair : Uuid × MatchReason) :
    (db.ask connectionId record shown pair).1.connections = db.connections := by
  unfold SyncDb.ask
  split
  · rfl
  · split <;> rfl

theorem askAll_connections (db : SyncDb) (connectionId : Uuid) (record : SourceContact)
    (shown : SourceSnapshot) (pairs : List (Uuid × MatchReason)) :
    (db.askAll connectionId record shown pairs).1.connections = db.connections := by
  induction pairs generalizing db with
  | nil => rfl
  | cons pair pairs ih => exact (ih _).trans (ask_connections ..)

/-- A record answers no question and leaves the connections alone. -/
theorem Applied.progress {ctx : RunContext} {record : SourceContact} {p : Plan} {o : Outcome}
    (hk : db.HasConnection ctx.connection) (h : Applied ctx db record p db' o) :
    Progress db db' ∧ db'.connections = db.connections := by
  cases h with
  | idle => exact ⟨⟨.refl, .of_eq rfl⟩, rfl⟩
  | flagDeleted link => exact ⟨⟨.single (.flagDeleted ..), .of_eq rfl⟩, rfl⟩
  | update link h1 =>
      obtain ⟨h2, h3⟩ := applyFields_candidates h1
      exact ⟨⟨(applyFields_writes h1).tail (.touchLink ..), .of_eq h2⟩, h3⟩
  | link contactId h1 hl =>
      have hw := applyFields_writes h1
      obtain ⟨h2, h3⟩ := applyFields_candidates h1
      obtain ⟨h4, h5⟩ := insertLink_candidates hl
      exact ⟨⟨hw.tail (insertLink_writes (writes_hasConnection hw hk) hl), .of_eq (h4.trans h2)⟩,
        h5.trans h3⟩
  | review pairs => exact ⟨⟨askAll_writes .., askAll_kept ..⟩, askAll_connections ..⟩
  | create suggestion hl =>
      have hw : SyncWrite db (db.importContact (mapContact ctx.rt record)
        (labelsOf record ctx.connection.selectedGroups ctx.groups)).1 := .importContact ..
      obtain ⟨h4, h5⟩ := insertLink_candidates hl
      exact ⟨⟨(ReflTransGen.single hw).tail (insertLink_writes (hw.hasConnection hk) hl),
        .of_eq h4⟩, h5⟩

/-! ### One record of a successful sync -/

/-- The snapshot of a pass says nothing that the tables do not say. -/
structure Watches (rt : Runtime) (cn : Connection) (db : SyncDb) (s : Snapshot) : Prop where
  excludes : ∀ externalId, s.excludes rt externalId = true →
    db.Unlinked cn.id externalId ∨ db.Suppressed rt cn.provider externalId
  links : ∀ l ∈ s.links, db.HasLiveLink cn.id l.externalId
  skipped : ∀ externalId ∈ s.skipped, db.Skipped cn.id externalId
  answered : ∀ q ∈ s.answered, db.Settled rt cn q.1

/-- What a plan knows of a selected record that the source holds. -/
theorem plan_selected (rt : Runtime) (s : Snapshot) (fullRead : Bool) {record : SourceContact}
    {selected : List String} (hd : record.deleted = false) (hs : record.isSelected selected = true) :
    (plan rt record selected s fullRead = .excluded ∧ s.excludes rt record.externalId = true) ∨
      (∃ l ∈ s.links, l.externalId = record.externalId) ∨
      record.externalId ∈ s.skipped ∨ (∃ q ∈ s.answered, q.1 = record.externalId) ∨
      (∃ contactId, plan rt record selected s fullRead = .link contactId) ∨
      (∃ suggestion, plan rt record selected s fullRead = .create suggestion) ∨
      ∃ pairs ≠ [], plan rt record selected s fullRead = .review pairs := by
  unfold plan
  split
  · next h => exact .inl ⟨rfl, h⟩
  · right
    have hsel : refusedBySelection record selected (s.findLink record.externalId) fullRead =
        false := by
      simp [refusedBySelection, hs]
    rw [if_neg (by simp [hd]), if_neg (by simp [hsel])]
    cases hl : s.findLink record.externalId with
    | some l =>
        exact .inl ⟨l, List.mem_of_find?_eq_some hl, by simpa using List.find?_some hl⟩
    | none =>
        right
        dsimp only
        split
        · next h => exact .inl h
        · right
          unfold planMatch
          rcases decideMatch_cases (record.incoming rt) s.locals with
            ⟨l, -, -, he⟩ | ⟨he, -⟩ | ⟨he, hne⟩
          · rw [he]
            exact .inr (.inl ⟨_, rfl⟩)
          · rw [he]
            exact .inr (.inr (.inl ⟨_, rfl⟩))
          · rw [he]
            dsimp only
            split
            · next hnil =>
              obtain ⟨q, hq⟩ := List.exists_mem_of_ne_nil _ hne
              have ha := List.filter_eq_nil_iff.mp hnil q hq
              exact .inl ⟨(record.externalId, q.1), by simpa using ha, rfl⟩
            · next hnil => exact .inr (.inr (.inr ⟨_, hnil, rfl⟩))

/-- A selected record that is applied is accounted for. -/
theorem applied_accounted {ctx : RunContext} {s : Snapshot} {record : SourceContact} {o : Outcome}
    (hs : Watches ctx.rt ctx.connection db s) (hk : db.HasConnection ctx.connection)
    (hd : record.deleted = false) (hsel : record.isSelected ctx.connection.selectedGroups = true)
    (h : applyRecord ctx db s record = .ok (db', o)) :
    db'.Accounted ctx.rt ctx.connection record.externalId := by
  have ha := applyRecord_cases h
  have hp := (ha.progress hk).1
  have hlinked : ∀ {db₁ : SyncDb} {contactId : Uuid} {origin : LinkOrigin}
      {suggestion : Option Uuid} {l : Link},
      db₁.insertLink ctx.connection record contactId origin suggestion = .ok (db', l) →
      db'.Accounted ctx.rt ctx.connection record.externalId := by
    intro db₁ contactId origin suggestion l hl
    obtain ⟨-, rfl, -⟩ := insertLink_eq_ok.mp hl
    exact .inl (.inl ⟨_, (Table.mem_insert).mpr (.inr rfl), rfl, rfl, rfl⟩)
  rcases plan_selected ctx.rt s ctx.fullRead hd hsel with
    ⟨-, hx⟩ | ⟨l, hl, he⟩ | hskip | ⟨q, hq, he⟩ | ⟨contactId, he⟩ | ⟨suggestion, he⟩ |
      ⟨pairs, hne, he⟩
  · apply hp.accounted
    rcases hs.excludes _ hx with hu | hu
    · exact .inl (.inr (.inl hu))
    · exact .inl (.inr (.inr (.inl hu)))
  · exact hp.accounted (.inl (.inl (he ▸ hs.links l hl)))
  · exact hp.accounted (.inl (.inr (.inr (.inr (hs.skipped _ hskip)))))
  · exact hp.accounted (.inl (he ▸ hs.answered q hq))
  · rw [he] at ha
    cases ha with
    | idle hi => cases hi
    | link _ _ hl => exact hlinked hl
  · rw [he] at ha
    cases ha with
    | idle hi => cases hi
    | create _ hl => exact hlinked hl
  · rw [he] at ha
    cases ha with
    | idle hi => cases hi
    | review _ =>
        exact .inr (askAll_opens hne)

/-- The snapshot grows by live links only. -/
theorem watches_after {ctx : RunContext} {s : Snapshot} {record : SourceContact} {o : Outcome}
    (hs : Watches ctx.rt ctx.connection db s) (hk : db.HasConnection ctx.connection)
    (h : applyRecord ctx db s record = .ok (db', o)) :
    Watches ctx.rt ctx.connection db' (s.after ctx.rt record o) := by
  have ha := applyRecord_cases h
  have hp := (ha.progress hk).1
  have hmono : Watches ctx.rt ctx.connection db' s := by
    constructor
    · intro e he
      rcases hs.excludes e he with hu | hu
      · exact .inl (writes_unlinked hp.writes hu)
      · exact .inr (writes_suppressed hp.writes hu)
    · exact fun l hl => writes_live hp.writes (hs.links l hl)
    · exact fun e he => Skipped.kept hp.questions (hs.skipped e he)
    · exact fun q hq => hp.settled (hs.answered q hq)
  obtain ⟨hx, hlinks, hskip, hans⟩ := hmono
  refine ⟨fun e he => hx e ((Snapshot.after_excludes e).symm.trans he), ?_, ?_, ?_⟩
  · intro l hl
    generalize plan ctx.rt record ctx.connection.selectedGroups s ctx.fullRead = p at ha
    cases ha with
    | idle hi =>
        cases p <;> cases hi <;> exact hlinks l hl
    | flagDeleted => exact hlinks l hl
    | update => split at hl <;> exact hlinks l hl
    | review => split at hl <;> exact hlinks l hl
    | link _ _ hi | create _ hi =>
        obtain ⟨-, rfl, rfl⟩ := insertLink_eq_ok.mp hi
        rcases List.mem_cons.mp hl with rfl | hl
        · exact ⟨_, (Table.mem_insert).mpr (.inr rfl), rfl, rfl, rfl⟩
        · exact hlinks l hl
  · rw [Snapshot.after_skipped]
    exact hskip
  · rw [Snapshot.after_answered]
    exact hans

/-! ### Whole syncs -/

/-- The records of a pass none of which fails. -/
theorem landed_accounted {ctx : RunContext} {s s' : Snapshot} {records : List SourceContact}
    {os : List Outcome} (h : Landed ctx db s records db' s' os)
    (hs : Watches ctx.rt ctx.connection db s) (hk : db.HasConnection ctx.connection) :
    Progress db db' ∧ ∀ r ∈ records, r.deleted = false →
      r.isSelected ctx.connection.selectedGroups = true →
      db'.Accounted ctx.rt ctx.connection r.externalId := by
  induction h with
  | nil db s => exact ⟨⟨.refl, .of_eq rfl⟩, fun r hr => absurd hr List.not_mem_nil⟩
  | @cons db db₁ db' s s' r records o os ho _ ih =>
      have hp := ((applyRecord_cases ho).progress hk).1
      obtain ⟨hrest, hall⟩ := ih (watches_after hs hk ho) (writes_hasConnection hp.writes hk)
      refine ⟨hp.trans hrest, ?_⟩
      rw [List.forall_mem_cons]
      exact ⟨fun hd hsel => hrest.accounted (applied_accounted hs hk hd hsel ho), hall⟩

theorem watches_snapshot (hp : ∀ k ∈ db.candidates.rows, k.connectionId = cn.id →
    k.status ≠ .opened → db.Settled rt cn k.externalId) :
    Watches rt cn db (db.snapshot rt cn.id cn.provider) := by
  constructor
  · exact fun e he => snapshot_excludes.mp he
  · intro l hl
    obtain ⟨hm, hlive⟩ := List.mem_filter.mp hl
    simp only [Bool.and_eq_true, decide_eq_true_eq] at hlive
    exact ⟨l, hm, hlive.1, hlive.2, rfl⟩
  · intro e he
    obtain ⟨k, hk, rfl⟩ := List.mem_map.mp he
    obtain ⟨hm, h1⟩ := List.mem_filter.mp hk
    simp only [decide_eq_true_eq] at h1
    exact ⟨k, hm, h1.1, rfl, h1.2⟩
  · intro q hq
    obtain ⟨k, hk, rfl⟩ := List.mem_map.mp hq
    obtain ⟨hm, h1⟩ := List.mem_filter.mp hk
    simp only [decide_eq_true_eq] at h1
    exact hp k hm h1.1 h1.2

/-- Any pass, cancelled or with failed records, answers no question and leaves the connections as
its start found them. -/
theorem applyRecords_progress (ctx : RunContext) (fault : ℕ → Bool) (i : ℕ) (st : PassState)
    (records : List SourceContact) (hk : st.db.HasConnection ctx.connection) :
    Progress st.db (applyRecords ctx fault i st records).db ∧
      (applyRecords ctx fault i st records).db.connections = st.db.connections := by
  refine applyRecords_invariant (fun st' => Progress st.db st'.db ∧
    st'.db.connections = st.db.connections) ?_ ⟨⟨.refl, .of_eq rfl⟩, rfl⟩
  rintro refused st' r - ⟨hp, hc⟩
  rcases applyOne_cases ctx refused st' r with he | ⟨db', o, ho, he⟩
  · rw [he]
    exact ⟨hp, hc⟩
  · obtain ⟨h1, h2⟩ := (applyRecord_cases ho).progress (writes_hasConnection hp.writes hk)
    rw [he]
    exact ⟨hp.trans h1, h2.trans hc⟩

theorem Progress.of_connections {t : Table Connection.id}
    (hw : SyncWrite db { db with connections := t }) : Progress db { db with connections := t } :=
  ⟨.single hw, .of_eq rfl⟩

theorem sweep_progress (changes : SourceChanges) (st : PassState) :
    Progress st.db (swept changes st).db ∧ (swept changes st).db.connections = st.db.connections ∧
      (swept changes st).report.failed = st.report.failed := by
  have hflag : ∀ (links : List Link) (db : SyncDb),
      (links.foldl (fun db l => db.flagDeleted l.id) db).candidates = db.candidates ∧
        (links.foldl (fun db l => db.flagDeleted l.id) db).connections = db.connections := by
    intro links
    induction links with
    | nil => exact fun db => ⟨rfl, rfl⟩
    | cons l links ih => exact fun db => ih (db.flagDeleted l.id)
  refine ⟨⟨swept_writes changes st, ?_⟩, ?_, ?_⟩
  · unfold swept
    split
    · exact .of_eq (hflag _ _).1
    · exact .of_eq rfl
  · unfold swept
    split
    · exact (hflag _ _).2
    · rfl
  · unfold swept
    split <;> rfl

theorem find_setStatus {id : Uuid} {c : Connection} (status : SyncStatus)
    (hc : db.connections.find id = some c) :
    (db.setStatus id status).connections.find id = some { c with syncStatus := status } := by
  unfold SyncDb.setStatus
  rw [Table.find_update_self, hc]
  rfl

theorem endPass_progress (id : Uuid) (changes : SourceChanges) (st : PassState) :
    Progress st.db (endPass id changes st).db := by
  refine (sweep_progress changes st).1.trans ?_
  rw [endPass_eq]
  dsimp only
  split
  · exact .of_connections (.finish ..)
  · exact .of_connections (.setStatus ..)

/-- The end of a pass moves the cursor if no record has failed. -/
theorem endPass_connection {id : Uuid} (changes : SourceChanges) {st : PassState} {c : Connection}
    (hc : st.db.connections.find id = some c) :
    ∃ status token, (endPass id changes st).db.connections.find id =
        some { c with syncStatus := status, syncToken := token } ∧
      (token = c.syncToken ∨ token = changes.nextSyncToken ∧ st.report.failed = 0) := by
  obtain ⟨-, h1, h2⟩ := sweep_progress changes st
  rw [← h1] at hc
  rw [endPass_eq]
  dsimp only
  rw [h2]
  split
  · next hf =>
    refine ⟨.success, changes.nextSyncToken, ?_, .inr ⟨rfl, hf⟩⟩
    unfold SyncDb.finish
    rw [Table.find_update_self, hc]
    rfl
  · exact ⟨.failed, c.syncToken, find_setStatus .failed hc, .inl rfl⟩

theorem applyRecords_cancelled {ctx : RunContext} {fault : ℕ → Bool} {i : ℕ} {st : PassState}
    {records : List SourceContact} :
    (applyRecords ctx fault i st records).report.cancelled = st.report.cancelled := by
  refine applyRecords_invariant (fun st' => st'.report.cancelled = st.report.cancelled) ?_ rfl
  intro refused st' r _ h
  rcases applyOne_cases ctx refused st' r with he | ⟨db', o, -, he⟩
  · rw [he]
    exact h
  · rw [he]
    cases o <;> exact h

/-- A pass answers no question, and it moves the cursor only if it comes to its end without a failed
record. -/
theorem passOver_progress {connection : Connection} {source : Source} {groups : List SourceGroup}
    {changes : SourceChanges} {opts : RunOptions} {st : PassState} {c : Connection}
    (hst : passOver rt db connection source groups changes opts = st)
    (hc : db.connections.find connection.id = some c) (hk : db.HasConnection connection) :
    Progress db st.db ∧ ∃ status token, st.db.connections.find connection.id =
        some { c with syncStatus := status, syncToken := token } ∧
      (token = c.syncToken ∨ token = changes.nextSyncToken ∧ st.report.cancelled = false ∧
        st.report.failed = 0) := by
  have h0 : Progress db (db.setStatus connection.id .inProgress) := .of_connections (.setStatus ..)
  obtain ⟨hp, hconn⟩ := applyRecords_progress (passContext rt connection source groups changes)
    opts.fault 0 (passStart rt db connection source changes) (opts.applied changes.contacts)
    (writes_hasConnection h0.writes hk)
  have hc' := (congrArg (·.find connection.id) hconn).trans (find_setStatus .inProgress hc)
  rw [passOver_eq] at hst
  dsimp only at hst
  split at hst
  · subst hst
    have hback := find_setStatus connection.syncStatus hc'
    exact ⟨(h0.trans hp).trans (.of_connections (.setStatus ..)), _, _, hback, .inl rfl⟩
  · subst hst
    obtain ⟨-, n, hn⟩ := endPass_report connection.id changes
      (applyRecords (passContext rt connection source groups changes) opts.fault 0
        (passStart rt db connection source changes) (opts.applied changes.contacts))
    obtain ⟨status, token, he, ht⟩ := endPass_connection changes hc'
    refine ⟨(h0.trans hp).trans (endPass_progress ..), status, token, he, ?_⟩
    rw [hn]
    exact ht.imp id fun h => ⟨h.1, applyRecords_cancelled, h.2⟩

/-! ### The invariant -/

/-- What a sync with the stored cursor is not told of has been accounted for. -/
structure Caught (rt : Runtime) (cn : Connection) (st : BookState) : Prop where
  connection : st.db.HasConnection cn
  /-- The answer to a question was carried out. -/
  settled : ∀ k ∈ st.db.candidates.rows, k.connectionId = cn.id → k.status ≠ .opened →
    st.db.Settled rt cn k.externalId
  cursor : ∀ c, st.db.connections.find cn.id = some c → ∀ t, c.syncToken = some t →
    t ≤ st.log.length ∧ ∀ externalId r, current st.log externalId = some r →
      externalId ∉ changedSince t st.log → r.isSelected c.selectedGroups = true →
      st.db.Accounted rt cn externalId

/-- A selection adds no label that a record carries which the cursor has passed, unless the record
is accounted for. -/
def WidensCaught (rt : Runtime) (cn : Connection) (st : BookState) : BookEvent → Prop
  | .setSelection provider groupIds =>
    ∀ c, st.db.connections.find cn.id = some c → st.db.connection provider = some c →
      ∀ t, c.syncToken = some t → ∀ externalId r, current st.log externalId = some r →
        externalId ∉ changedSince t st.log → r.isSelected (selectionIds groupIds) = true →
        r.isSelected c.selectedGroups = true ∨ st.db.Accounted rt cn externalId
  | _ => True

/-- A connection that has not been synced yet, over whatever contacts there are. -/
theorem Caught.start {log : ChangeLog String SourceContact} (hk : db.HasConnection cn)
    (hq : ∀ k ∈ db.candidates.rows, k.connectionId = cn.id → k.status ≠ .opened →
      db.Settled rt cn k.externalId)
    (ht : ∀ c, db.connections.find cn.id = some c → c.syncToken = none) : Caught rt cn ⟨db, log⟩ :=
  ⟨hk, hq, fun c hc t h => by
    rw [ht c hc] at h
    cases h⟩

theorem settled_congr {cn' : Connection} {externalId : String} (hid : cn'.id = cn.id)
    (hp : cn'.provider = cn.provider) :
    db.Settled rt cn' externalId ↔ db.Settled rt cn externalId := by
  unfold SyncDb.Settled
  rw [hid, hp]

theorem accounted_congr {cn' : Connection} {externalId : String} (hid : cn'.id = cn.id)
    (hp : cn'.provider = cn.provider) :
    db.Accounted rt cn' externalId ↔ db.Accounted rt cn externalId := by
  unfold SyncDb.Accounted
  rw [settled_congr hid hp, hid]

/-- A record is in the answer, or there is a cursor and the record was not changed since. -/
theorem changesSince_book {provider : String} {groups : Except SourceError (List SourceGroup)}
    {resync : Bool} {log : ChangeLog String SourceContact} {token : Option SyncToken}
    {changes : SourceChanges} {externalId : String} {r : SourceContact}
    (h : (bookSource provider groups resync log).changesSince token = .ok changes)
    (hr : current log externalId = some r) :
    (∃ t, token = some t ∧ externalId ∉ changedSince t log) ∨
      inBook externalId r ∈ changes.contacts := by
  have hall : inBook externalId r ∈ (contents log).map fun x => inBook x.1 x.2 :=
    List.mem_map.mpr ⟨(externalId, r), ChangeLog.mem_contents.mpr hr, rfl⟩
  cases token with
  | none =>
      cases h
      exact .inr hall
  | some t =>
      cases resync with
      | true =>
          cases h
          exact .inr hall
      | false =>
          cases h
          by_cases hm : externalId ∈ changedSince t log
          · exact .inr (List.mem_map.mpr ⟨externalId, hm, by rw [changedRecord, hr]⟩)
          · exact .inl ⟨t, rfl, hm⟩

theorem nextSyncToken_book {provider : String} {groups : Except SourceError (List SourceGroup)}
    {resync : Bool} {log : ChangeLog String SourceContact} {token : Option SyncToken}
    {changes : SourceChanges}
    (h : (bookSource provider groups resync log).changesSince token = .ok changes) :
    changes.nextSyncToken = some log.length := by
  cases token with
  | none =>
      cases h
      rfl
  | some t => cases resync <;> cases h <;> rfl

namespace Caught

variable {st : BookState}

theorem edit (h : Caught rt cn st) (change : Change String SourceContact) :
    Caught rt cn { st with log := st.log ++ [change] } := by
  refine ⟨h.connection, h.settled, fun c hc t ht => ?_⟩
  obtain ⟨hle, hall⟩ := h.cursor c hc t ht
  refine ⟨hle.trans (by simp), fun externalId r hr hn hsel => ?_⟩
  rw [ChangeLog.changedSince_append hle, not_or] at hn
  refine hall externalId r ?_ hn.1 hsel
  rwa [ChangeLog.current_append fun c hc he => hn.2 ⟨c, hc, he⟩] at hr

theorem settled_of_progress (h : Caught rt cn st) (hp : Progress st.db db') :
    ∀ k ∈ db'.candidates.rows, k.connectionId = cn.id → k.status ≠ .opened →
      db'.Settled rt cn k.externalId := by
  intro k hk h1 h2
  obtain ⟨k', hk', e1, e2, e3⟩ := hp.questions.answered k hk h2
  rw [e2]
  exact hp.settled (h.settled k' hk' (e1 ▸ h1) (e3 ▸ h2))

/-- The rule for an event that leaves the connection's cursor and selection alone. -/
theorem of_progress (h : Caught rt cn st) (hp : Progress st.db db')
    (hc : ∀ c', db'.connections.find cn.id = some c' → ∃ c, st.db.connections.find cn.id = some c ∧
      c'.syncToken = c.syncToken ∧ c'.selectedGroups = c.selectedGroups) :
    Caught rt cn { st with db := db' } := by
  refine ⟨writes_hasConnection hp.writes h.connection, h.settled_of_progress hp, ?_⟩
  intro c' hc' t ht
  obtain ⟨c, hc, h1, h2⟩ := hc c' hc'
  obtain ⟨hle, hall⟩ := h.cursor c hc t (h1 ▸ ht)
  exact ⟨hle, fun e r hr hn hsel => hp.accounted (hall e r hr hn (h2 ▸ hsel))⟩

/-- A successful sync has looked at every record that the earlier ones had not. -/
theorem landed (h : Caught rt cn st) {groups : Except SourceError (List SourceGroup)} {resync : Bool}
    {opts : RunOptions} {pass : PassState} {c : Connection}
    (hst : passOf rt st.db cn.id (bookSource cn.provider groups resync st.log) opts = some pass)
    (hcancel : pass.report.cancelled = false) (hfail : pass.report.failed = 0)
    (hc : st.db.connections.find cn.id = some c) {externalId : String} {r : SourceContact}
    (hr : current st.log externalId = some r) (hsel : r.isSelected c.selectedGroups = true) :
    pass.db.Accounted rt cn externalId := by
  obtain ⟨c', gs, changes, hs, hread, rfl⟩ := passOf_eq_some.mp hst
  obtain ⟨hc', hprov, -⟩ := startRun_eq_ok.mp hs
  cases hc.symm.trans hc'
  have hid : c.id = cn.id := Table.key_of_find hc
  have hk : st.db.HasConnection c := hasConnection_of_find (hid ▸ hc)
  obtain ⟨hp, -⟩ := passOver_progress rfl (hid ▸ hc) hk
  rcases changesSince_book (readSource_eq_ok.mp hread).2 hr with ⟨t, ht, hn⟩ | hm
  · exact hp.accounted ((h.cursor c hc t ht).2 externalId r hr hn hsel)
  · obtain ⟨pst, os, he, hl, -, -⟩ := passOver_landed hcancel hfail
    have hw : Watches rt c st.db (st.db.snapshot rt c.id c.provider) :=
      watches_snapshot fun k hm h1 h2 => by
        rw [settled_congr hid hprov]
        exact h.settled k hm (h1.trans hid) h2
    have hall := (landed_accounted hl ⟨hw.excludes, hw.links, hw.skipped, hw.answered⟩
      (writes_hasConnection (.single (.setStatus ..)) hk)).2 _ hm rfl hsel
    rw [he, ← accounted_congr hid hprov]
    exact (endPass_progress ..).accounted hall

/-- A sync keeps the invariant, whatever comes of it. -/
theorem sync (h : Caught rt cn st) (groups : Except SourceError (List SourceGroup)) (resync : Bool)
    (opts : RunOptions) :
    Caught rt cn { st with
      db := (runTracked rt st.db cn.id (bookSource cn.provider groups resync st.log) opts).1 } := by
  rcases runTracked_cases rt st.db cn.id (bookSource cn.provider groups resync st.log) opts with
    ⟨pass, hst, he⟩ | ⟨-, -, he | ⟨status, he⟩⟩
  · rw [he]
    obtain ⟨c, gs, changes, hs, hread, hpass⟩ := passOf_eq_some.mp hst
    have hc := (startRun_eq_ok.mp hs).1
    have hid : c.id = cn.id := Table.key_of_find hc
    obtain ⟨hp, status, token, hfind, ht⟩ :=
      passOver_progress hpass.symm (hid ▸ hc) (hasConnection_of_find (hid ▸ hc))
    rw [hid] at hfind
    rcases ht with rfl | ⟨rfl, hcancel, hfail⟩
    · exact h.of_progress hp fun c' hc' => by
        cases hfind.symm.trans hc'
        exact ⟨c, hc, rfl, rfl⟩
    · refine ⟨writes_hasConnection hp.writes h.connection, h.settled_of_progress hp, ?_⟩
      intro c' hc' t ht
      cases hfind.symm.trans hc'
      cases (nextSyncToken_book (readSource_eq_ok.mp hread).2).symm.trans ht
      exact ⟨le_rfl, fun e r hr _ hsel => h.landed hst hcancel hfail hc hr hsel⟩
  · rw [he]
    exact h
  · rw [he]
    refine h.of_progress (.of_connections (.setStatus ..)) fun c' hc' => ?_
    unfold SyncDb.setStatus at hc'
    rw [Table.find_update_self] at hc'
    obtain ⟨c, hc, rfl⟩ := Option.map_eq_some_iff.mp hc'
    exact ⟨c, hc, rfl, rfl⟩

/-- A new selection keeps the invariant if it adds no label of a record that the cursor has
passed. -/
theorem setSelection (h : Caught rt cn st) {provider : String} {groupIds : List String}
    (hw : WidensCaught rt cn st (.setSelection provider groupIds))
    (hs : st.db.setSelection provider groupIds = .ok db') : Caught rt cn { st with db := db' } := by
  obtain ⟨k, hk, rfl⟩ := setSelection_eq_ok hs
  refine ⟨hasConnection_update (by intro _; rfl) (by intro _; rfl) h.connection, h.settled, ?_⟩
  intro c' hc' t ht
  rcases eq_or_ne k.id cn.id with hid | hne
  · rw [hid, Table.find_update_self] at hc'
    obtain ⟨c, hc, rfl⟩ := Option.map_eq_some_iff.mp hc'
    have hkc : k = c := Table.eq_of_find hc (List.mem_of_find?_eq_some hk) hid
    obtain ⟨hle, hall⟩ := h.cursor c hc t ht
    refine ⟨hle, fun e r hr hn hsel => ?_⟩
    exact (hw c hc (hkc ▸ hk) t ht e r hr hn hsel).elim (hall e r hr hn) id
  · rw [Table.find_update_ne (Ne.symm hne)] at hc'
    exact h.cursor c' hc' t ht

/-- An unlinked record is still settled. -/
theorem unlink (h : Caught rt cn st) {contactId : Uuid} (hu : st.db.unlink contactId = .ok db') :
    Caught rt cn { st with db := db' } := by
  obtain rfl := unlink_eq_ok hu
  have hsettled : ∀ {e}, st.db.Settled rt cn e → SyncDb.Settled rt { st.db with
      links := st.db.links.map (Link.close .unlinked fun l => l.contactId = contactId)
        (Link.close_id _ _) } cn e := by
    rintro e (⟨l, hl, h1, h2, h3⟩ | ⟨l, hl, h1, h2, h3⟩ | hs | hs)
    · have hm := close_mem_map .unlinked (fun l => l.contactId = contactId)
        (show l ∈ st.db.links from hl)
      by_cases hc : l.contactId = contactId
      · exact .inr (.inl ⟨_, hm, by simp [Link.close, hc, h1, h2, h3]⟩)
      · exact .inl ⟨_, hm, by simp [Link.close, hc, h1, h2, h3]⟩
    · exact .inr (.inl ⟨l, mem_close_of_unlinked hl h3, h1, h2, h3⟩)
    · exact .inr (.inr (.inl hs))
    · exact .inr (.inr (.inr hs))
  refine ⟨h.connection, fun k hk h1 h2 => hsettled (h.settled k hk h1 h2), fun c hc t ht => ?_⟩
  obtain ⟨hle, hall⟩ := h.cursor c hc t ht
  exact ⟨hle, fun e r hr hn hsel => (hall e r hr hn hsel).imp hsettled id⟩

theorem editContact (h : Caught rt cn st) {contactId : Uuid} {edit : ContactEdit}
    (he : st.db.editContact contactId edit = .ok db') : Caught rt cn { st with db := db' } := by
  obtain ⟨c, -, ⟨-, rfl⟩ | ⟨-, rfl⟩⟩ := editContact_eq_ok he <;>
    exact ⟨h.connection, h.settled, h.cursor⟩

end Caught

/-! ### Review answers -/

/-- What an answer does to a question. -/
def closed (connectionId : Uuid) (resolution : Resolution) (k : Candidate) : Candidate :=
  { k with
    status :=
      if k.connectionId = connectionId ∧ k.externalId = resolution.externalId ∧
          k.status = .opened then
        resolution.close k.candidateContactId
      else k.status }

theorem mem_closeQuestions {connectionId : Uuid} {resolution : Resolution} {k : Candidate} :
    k ∈ (db.closeQuestions connectionId resolution).candidates.rows ↔
      ∃ k' ∈ db.candidates.rows, closed connectionId resolution k' = k := by
  show k ∈ db.candidates.map (closed connectionId resolution) (fun _ => rfl) ↔ _
  exact Table.mem_map

theorem linkReviewed_links {connectionId : Uuid} {externalId : String} {etag : Option String}
    {shown : SourceSnapshot} {contactId : Uuid}
    (h : db.linkReviewed rt connectionId externalId etag shown contactId = .ok db') :
    db'.HasLiveLink connectionId externalId ∧ db'.candidates = db.candidates ∧
      db'.connections = db.connections := by
  obtain ⟨connection, hc, h⟩ := bind_eq_ok.mp h
  obtain ⟨⟨db₁, changed⟩, h1, h⟩ := bind_eq_ok.mp h
  obtain ⟨⟨db₂, l⟩, h2, h⟩ := bind_eq_ok.mp h
  cases h
  obtain ⟨h3, h4⟩ := applyFields_candidates h1
  obtain ⟨h5, h6⟩ := insertLink_candidates h2
  have hid : connection.id = connectionId := Table.key_of_find (orError_eq_ok.mp hc)
  refine ⟨?_, h5.trans h3, h6.trans h4⟩
  obtain ⟨-, rfl, -⟩ := insertLink_eq_ok.mp h2
  exact ⟨_, (Table.mem_insert).mpr (.inr rfl), rfl, hid, rfl⟩

theorem createReviewed_links {connectionId : Uuid} {externalId : String} {etag : Option String}
    {shown : SourceSnapshot} {contactId : Uuid}
    (h : db.createReviewed rt connectionId externalId etag shown = .ok (db', contactId)) :
    db'.HasLiveLink connectionId externalId ∧ db'.candidates = db.candidates ∧
      db'.connections = db.connections := by
  obtain ⟨connection, hc, h⟩ := bind_eq_ok.mp h
  obtain ⟨⟨db₂, l⟩, h2, h⟩ := bind_eq_ok.mp h
  cases h
  obtain ⟨h5, h6⟩ := insertLink_candidates h2
  have hid : connection.id = connectionId := Table.key_of_find (orError_eq_ok.mp hc)
  refine ⟨?_, h5, h6⟩
  obtain ⟨-, rfl, -⟩ := insertLink_eq_ok.mp h2
  exact ⟨_, (Table.mem_insert).mpr (.inr rfl), rfl, hid, rfl⟩

/-- An answer carries out what it says and closes the questions about the record. -/
theorem Answered.closes {connectionId : Uuid} {r : Resolution}
    (h : Answered rt db connectionId r db') :
    (∀ k, k ∈ db'.candidates.rows ↔ ∃ k' ∈ db.candidates.rows, closed connectionId r k' = k) ∧
      db'.connections = db.connections ∧
      (db'.HasLiveLink connectionId r.externalId ∨ db'.Skipped connectionId r.externalId) := by
  cases h with
  | link _ _ h1 =>
      obtain ⟨hl, hq, hc⟩ := linkReviewed_links h1
      exact ⟨fun k => by rw [mem_closeQuestions, hq], hc, .inl hl⟩
  | create _ h1 =>
      obtain ⟨hl, hq, hc⟩ := createReviewed_links h1
      exact ⟨fun k => by rw [mem_closeQuestions, hq], hc, .inl hl⟩
  | @skip externalId named first hq =>
      obtain ⟨hm, h1, h2, h3⟩ := mem_openQuestions.mp hq
      refine ⟨fun k => mem_closeQuestions, rfl, .inr ⟨_, mem_closeQuestions.mpr ⟨first, hm, rfl⟩, ?_⟩⟩
      refine ⟨h1, h2, ?_⟩
      unfold closed
      rw [if_pos ⟨h1, h2, h3⟩]
      rfl

/-- A question that an answer leaves alone keeps its status. -/
theorem closed_cases (connectionId : Uuid) (r : Resolution) (k : Candidate) :
    closed connectionId r k = k ∨ k.connectionId = connectionId ∧ k.externalId = r.externalId ∧
      k.status = .opened := by
  unfold closed
  split
  · next h => exact .inr h
  · exact .inl rfl

/-- An answer keeps the invariant: it settles the record it is about. -/
theorem Caught.resolve {st : BookState} (h : Caught rt cn st) {enabled : String → AppResult Unit}
    {r : Resolution} (hr : st.db.resolve rt enabled r = .ok db') :
    Caught rt cn { st with db := db' } := by
  have hw := resolve_writes hr
  obtain ⟨connection, -, -, ha⟩ := resolve_eq_ok hr
  obtain ⟨hq, hc, hdone⟩ := (answer_eq_ok ha).closes
  have hskip : ∀ {e}, st.db.Skipped cn.id e → db'.Skipped cn.id e := by
    rintro e ⟨k, hk, h1, h2, h3⟩
    rcases closed_cases connection.id r k with he | ⟨-, -, ho⟩
    · exact ⟨k, (hq k).mpr ⟨k, hk, he⟩, h1, h2, h3⟩
    · rw [h3] at ho
      cases ho
  have hsettled : ∀ {e}, st.db.Settled rt cn e → db'.Settled rt cn e := Settled.writes hw hskip
  have hnow : connection.id = cn.id → db'.Settled rt cn r.externalId := by
    intro hid
    rw [hid] at hdone
    exact hdone.elim .inl fun h => .inr (.inr (.inr h))
  refine ⟨writes_hasConnection hw h.connection, ?_, fun c hcf t ht => ?_⟩
  · intro k hk h1 h2
    obtain ⟨k', hk', rfl⟩ := (hq k).mp hk
    rcases closed_cases connection.id r k' with he | ⟨hid, hext, -⟩
    · rw [he] at h1 h2 ⊢
      exact hsettled (h.settled k' hk' h1 h2)
    · rw [show (closed connection.id r k').externalId = r.externalId from hext]
      exact hnow (hid.symm.trans h1)
  · obtain ⟨hle, hall⟩ := h.cursor c (hc ▸ hcf) t ht
    refine ⟨hle, fun e rec hrec hn hsel => ?_⟩
    rcases hall e rec hrec hn hsel with hs | ⟨k, hk, h1, h2, h3⟩
    · exact .inl (hsettled hs)
    · rcases closed_cases connection.id r k with he | ⟨hid, hext, -⟩
      · exact .inr ⟨k, (hq k).mpr ⟨k, hk, he⟩, h1, h2, h3⟩
      · left
        rw [← h2, hext]
        exact hnow (hid.symm.trans h1)

/-! ### Whole histories -/

/-- Every event that meets the condition keeps the invariant. -/
theorem step_caught {st st' : BookState} {e : BookEvent} (h : Caught rt cn st)
    (hw : WidensCaught rt cn st e) (hs : st.step rt cn e = some st') : Caught rt cn st' := by
  cases e with
  | edit change =>
      cases hs
      exact h.edit change
  | sync groups resync opts =>
      obtain ⟨db', hd, rfl⟩ := BookState.request_eq_some hs
      cases hd
      exact h.sync groups resync opts
  | setSelection provider groupIds =>
      obtain ⟨db', hd, rfl⟩ := BookState.request_eq_some hs
      exact h.setSelection hw (toOption_eq_some hd)
  | resolve enabled resolution =>
      obtain ⟨db', hd, rfl⟩ := BookState.request_eq_some hs
      exact h.resolve (toOption_eq_some hd)
  | unlink contactId =>
      obtain ⟨db', hd, rfl⟩ := BookState.request_eq_some hs
      exact h.unlink (toOption_eq_some hd)
  | editContact contactId edit =>
      obtain ⟨db', hd, rfl⟩ := BookState.request_eq_some hs
      exact h.editContact (toOption_eq_some hd)

/-- In every history each of whose selections adds no label of a record that the cursor has passed,
every successful sync accounts for every selected record. -/
theorem selection_complete {st : BookState} {es : List BookEvent} (h : Caught rt cn st)
    (hes : StepsMeet (BookState.step rt cn) (WidensCaught rt cn) st es) :
    SelectionComplete rt cn st es := by
  rintro es₁ groups resync opts es₂ s pass c rfl hr hst hcancel hfail hc e r hrec hsel hu hsupp hskip
    hopen
  have hs : Caught rt cn s := run_invariant_of_stepsMeet (Caught rt cn)
    (fun _ _ _ hc hw hs => step_caught hc hw hs) h (stepsMeet_append.mp hes).1 hr
  rcases hs.landed hst hcancel hfail hc hrec hsel with (hl | hl | hl | hl) | hl
  · exact hl
  · exact absurd hl hu
  · exact absurd hl hsupp
  · exact absurd hl hskip
  · exact absurd hl hopen

/-! ### A selection that is widened -/

/-- An address book with two records in two groups, and a connection that imports the first. -/
def twoGroups : BookState where
  db := { SyncDb.fresh with
    connections := SyncDb.fresh.connections.insert (fun id => { clientsConnection with id := id })
      clientsConnection_id }
  log := [.put "people/c1" { externalId := "people/c1", groupIds := ["contactGroups/a"] },
    .put "people/c2" { externalId := "people/c2", groupIds := ["contactGroups/b"] }]

/-- A sync of the book with its groups. -/
def syncTwoGroups : BookEvent :=
  .sync (.ok [⟨"contactGroups/a", "Clients"⟩, ⟨"contactGroups/b", "Vendors"⟩]) false {}

theorem twoGroups_caught : Caught asciiRuntime clientsConnection twoGroups :=
  .start ⟨clientsConnection, (Table.mem_insert).mpr (.inr rfl), rfl, rfl⟩ (fun k hk => absurd hk List.not_mem_nil)
    fun c hc => by cases hc; rfl

/-- The second group is selected after the first sync: the second one succeeds, and the record in
that group has no link. -/
theorem widened_selection_is_missed :
    ¬ SelectionComplete asciiRuntime clientsConnection twoGroups
      [syncTwoGroups, .setSelection "google" ["contactGroups/a", "contactGroups/b"],
        syncTwoGroups] := by
  intro h
  have hrun : ((run (BookState.step asciiRuntime clientsConnection) twoGroups
      [syncTwoGroups, .setSelection "google" ["contactGroups/a", "contactGroups/b"]]).any fun s =>
        (passOf asciiRuntime s.db 0 (bookSource "google"
          (.ok [⟨"contactGroups/a", "Clients"⟩, ⟨"contactGroups/b", "Vendors"⟩]) false s.log)
          {}).any fun pass =>
            (s.db.connections.find 0).any fun c =>
              (current s.log "people/c2").any fun r =>
                decide (pass.report.cancelled = false) && decide (pass.report.failed = 0) &&
                  r.isSelected c.selectedGroups &&
                  decide (¬ pass.db.Unlinked 0 "people/c2") &&
                  decide (¬ pass.db.Suppressed asciiRuntime "google" "people/c2") &&
                  decide (¬ pass.db.Skipped 0 "people/c2") &&
                  decide (¬ pass.db.WaitsForReview 0 "people/c2") &&
                  decide (¬ pass.db.HasLiveLink 0 "people/c2")) = true := by
    decide +kernel
  simp only [Option.any_eq_true, Bool.and_eq_true, decide_eq_true_eq] at hrun
  obtain ⟨s, hs, pass, hpass, c, hc, r, hr, ⟨⟨⟨⟨⟨⟨⟨h1, h2⟩, h3⟩, h4⟩, h5⟩, h6⟩, h7⟩, h8⟩⟩ := hrun
  exact h8 (h _ _ _ _ [] s pass c rfl hs hpass h1 h2 hc _ r hr h3 h4 h5 h6 h7)

/-- Both groups selected before the first sync. -/
theorem selection_complete_two_groups :
    SelectionComplete asciiRuntime clientsConnection twoGroups
      [.setSelection "google" ["contactGroups/a", "contactGroups/b"], syncTwoGroups,
        syncTwoGroups] := by
  refine selection_complete twoGroups_caught ⟨?_, fun _ _ => ⟨trivial, fun _ _ => ⟨trivial,
    fun _ _ => trivial⟩⟩⟩
  intro c hc _ t ht
  cases hc
  cases ht

end Mokosh.ContactSync
