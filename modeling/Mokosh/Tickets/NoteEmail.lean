import Mokosh.Lib.Requests
import Mokosh.Lib.Table
import Mokosh.Types

/-! # Notes that are mailed

`tickets/service.rs`: `add_note`, `send_note_email` and `update_note`.  A public note is inserted, its text is handed
to the mailer or the notification queue, and then the row says that it was sent; `update_note` reads the row, refuses
if it says so, and writes the text in a transaction of its own.  Any number of these calls are in flight, and their
statements may fail.

**`sent_is_stored`**: the text of a note that was handed over is the one that is stored, as long as (`MailFirst`) an
edit is written only to a note that nobody is mailing and that does not say that it was sent, and what was handed over
is marked.  `edited_while_sending` has a run without the first. -/

namespace Mokosh.NoteEmail

open Requests (Handlers World Event)

inductive NoteType where
  | isInternal | isPublic | resolution | timeEntry
deriving DecidableEq

/-- A row of `ticket_notes`. -/
structure TicketNote where
  id : Uuid
  ticketId : Uuid
  noteType : NoteType
  content : String
  createdById : Uuid
  createdByContactId : Option Uuid
  isEmailSent : Bool
  emailSentAt : Option ℕ
  updatedAt : ℕ
deriving DecidableEq

/-- A row of `tickets`, with the address of its contact. -/
structure Ticket where
  id : Uuid
  ticketNumber : String
  title : String
  contactEmail : Option String
  updatedAt : ℕ
  lastUpdatedById : Option Uuid
  firstResponseAt : Option ℕ
deriving DecidableEq

structure OrgIdentity where
  name : String
  contactLine : String
deriving DecidableEq

structure CreateNoteRequest where
  noteType : NoteType
  content : String
  sendEmail : Bool
deriving DecidableEq

/-- The user who edits. -/
structure Editor where
  id : Uuid
  isAdmin : Bool
  canManageUsers : Bool
deriving DecidableEq

inductive NoteEditPolicy where
  | off
  | authorOrAdmin
  | authorOrManager
deriving DecidableEq

namespace NoteEditPolicy

def parse : String → Option NoteEditPolicy
  | "off" => some .off
  | "author_or_admin" => some .authorOrAdmin
  | "author_or_manager" => some .authorOrManager
  | _ => none

def permits (user : Editor) (author : Uuid) : NoteEditPolicy → Bool
  | .off => false
  | .authorOrAdmin => user.id = author || user.isAdmin
  | .authorOrManager => user.id = author || user.canManageUsers

/-- What a refused edit says. -/
def refusal : NoteEditPolicy → String
  | .off =>
    "Editing notes is switched off for this organisation (setting tickets/note_editing). Add a new note instead."
  | .authorOrAdmin | .authorOrManager => "You can only edit notes you wrote."

end NoteEditPolicy

/-- Why a note cannot be edited. -/
def noteEditBlock (note : TicketNote) : Option String :=
  if note.createdByContactId.isSome then
    some "This note was written by the customer through the portal and cannot be edited."
  else
    match note.noteType with
    | .isInternal | .resolution => none
    | .isPublic =>
      if note.isEmailSent then
        some ("This note was emailed to the customer, so the copy they hold cannot be changed. " ++
          "Add a new note instead.")
      else none
    | .timeEntry => some "A time-entry note is edited through its time entry."

/-- What is handed over: to whom, the values of the message, and the note. -/
structure Mail where
  noteId : Uuid
  ticketId : Uuid
  email : String
  ticketNumber : String
  title : String
  content : String
deriving DecidableEq

namespace Mail

def subject (m : Mail) : String := s!"[{m.ticketNumber}] {m.title}"

def body (m : Mail) (org : OrgIdentity) : String :=
  s!"{org.name} has added an update to ticket {m.ticketNumber}:\n\n{m.content}\n\n{org.contactLine}\n"

end Mail

/-- What was handed over: the values, and the message of the mailer. -/
structure Sent where
  mail : Mail
  subject : String
  body : String
deriving DecidableEq

/-- The tables.  The history: what was handed over. -/
structure NotesDb where
  tickets : Table Ticket.id
  notes : Table TicketNote.id
  sent : List Sent
deriving DecidableEq

namespace NotesDb

variable (db : NotesDb)

/-- A ticket was touched. -/
def touch (ticketId user now : ℕ) : NotesDb :=
  { db with
    tickets := db.tickets.update ticketId fun t => { t with updatedAt := now, lastUpdatedById := some user } }

def respond (ticketId now : ℕ) : NotesDb :=
  { db with
    tickets := db.tickets.update ticketId fun t => { t with firstResponseAt := t.firstResponseAt <|> some now } }

def insertNote (ticketId user : Uuid) (request : CreateNoteRequest) (now : ℕ) : NotesDb :=
  { db with
    notes := db.notes.insert fun id =>
      { id := id, ticketId := ticketId, noteType := request.noteType, content := request.content, createdById := user,
        createdByContactId := none, isEmailSent := false, emailSentAt := none, updatedAt := now } }

/-- The transaction of `add_note`. -/
def addNote (ticketId user : Uuid) (request : CreateNoteRequest) (now : ℕ) : NotesDb :=
  let db := (db.insertNote ticketId user request now).touch ticketId user now
  if request.noteType = .isPublic then db.respond ticketId now else db

/-- The transaction of `update_note`. -/
def writeContent (noteId ticketId editor : Uuid) (content : String) (now : ℕ) : NotesDb :=
  let notes := db.notes.update noteId fun n => { n with content := content, updatedAt := now }
  { db with notes := notes }.touch ticketId editor now

def markSent (noteId now : ℕ) : NotesDb :=
  { db with
    notes := db.notes.update noteId fun n => { n with isEmailSent := true, emailSentAt := some now } }

def handOver (m : Mail) (org : OrgIdentity) : NotesDb :=
  { db with sent := { mail := m, subject := m.subject, body := m.body org } :: db.sent }

end NotesDb

/-! ### Calls -/

inductive Operation where
  | addNote (ticketId user : Uuid) (request : CreateNoteRequest)
  | updateNote (ticketId noteId : Uuid) (editor : Editor) (content : String)
deriving DecidableEq

/-- An edit in flight. -/
structure Edit where
  ticketId : Uuid
  noteId : Uuid
  editor : Editor
  content : String
deriving DecidableEq

inductive Point where
  | validating (ticketId user : Uuid) (request : CreateNoteRequest)
  | inserting (ticketId user : Uuid) (request : CreateNoteRequest)
  | fetching (noteId ticketId : Uuid) (content : String)
  | identifying (m : Mail)
  | handing (m : Mail) (org : OrgIdentity)
  | marking (noteId : Uuid)
  | reading (e : Edit)
  | permitting (e : Edit) (note : TicketNote)
  | writing (e : Edit)
deriving DecidableEq

/-- What a statement finds: whether it goes through, the tenant's setting, who the organisation is, and whether the
mail was handed over, whatever the call says. -/
structure Answer where
  ok : Bool
  noteEditing : Option String
  org : Option OrgIdentity
  handed : Bool
deriving DecidableEq

def start : Operation → Point
  | .addNote ticketId user request => .validating ticketId user request
  | .updateNote ticketId noteId editor content =>
    .reading { ticketId := ticketId, noteId := noteId, editor := editor, content := content }

/-- What `update_note` checks of the note that it has read. -/
def Edit.check (e : Edit) (policy : NoteEditPolicy) (note : TicketNote) : AppResult Unit :=
  if ¬policy.permits e.editor note.createdById then .error (.forbidden policy.refusal)
  else
    match noteEditBlock note with
    | some reason => .error (.conflict reason)
    | none => .ok ()

/-- The next statement of a call. -/
def advance (now : ℕ) (x : Answer) (db : NotesDb) : Point → Option (NotesDb × Option Point)
  | .validating ticketId user request =>
    some (db, if x.ok ∧ (db.tickets.find ticketId).isSome then some (.inserting ticketId user request) else none)
  | .inserting ticketId user request =>
    if x.ok then
      let mails := request.sendEmail && request.noteType = .isPublic
      some (db.addNote ticketId user request now,
        if mails then some (.fetching db.notes.next ticketId request.content) else none)
    else some (db, none)
  | .fetching noteId ticketId content =>
    match (db.tickets.find ticketId).bind fun t => t.contactEmail.map (t, ·) with
    | some (t, email) =>
      let m : Mail :=
        { noteId := noteId, ticketId := ticketId, email := email, ticketNumber := t.ticketNumber, title := t.title,
          content := content }
      some (db, if x.ok then some (.identifying m) else none)
    | none => some (db, none)
  | .identifying m => some (db, x.org.map (.handing m))
  | .handing m org =>
    some (if x.handed then db.handOver m org else db, if x.ok then some (.marking m.noteId) else none)
  | .marking noteId => some (if x.ok then db.markSent noteId now else db, none)
  | .reading e =>
    match (db.notes.find e.noteId).filter (·.ticketId = e.ticketId) with
    | some note => some (db, if x.ok then some (.permitting e note) else none)
    | none => some (db, none)
  | .permitting e note =>
    let policy := (x.noteEditing.bind NoteEditPolicy.parse).getD .authorOrAdmin
    match e.check policy note with
    | .ok () => some (db, if x.ok then some (.writing e) else none)
    | .error _ => some (db, none)
  | .writing e =>
    some (if x.ok then db.writeContent e.noteId e.ticketId e.editor.id e.content now else db, none)

def handlers : Handlers Operation Answer NotesDb Point Empty := .lockless start advance

abbrev step := Requests.step handlers

/-! ### The condition -/

/-- The request is mailing the note, or is about to. -/
def Point.mails (noteId : Uuid) : Point → Bool
  | .fetching n _ _ => n = noteId
  | .identifying m => m.noteId = noteId
  | .handing m _ => m.noteId = noteId
  | .marking n => n = noteId
  | _ => false

/-- The row says that the note was sent. -/
def NotesDb.marked (db : NotesDb) (noteId : Uuid) : Bool := (db.notes.find noteId).any (·.isEmailSent)

def MailFirstAt (w : World NotesDb Point) (x : Answer) : Point → Prop
  | .writing e => (∀ p ∈ w.requests, p.mails e.noteId = false) ∧ w.store.marked e.noteId = false
  | .handing _ _ => x.handed = true → x.ok = true
  | .marking _ => x.ok = true
  | _ => True

instance (w : World NotesDb Point) (x : Answer) : ∀ p, Decidable (MailFirstAt w x p)
  | .writing e => inferInstanceAs
      (Decidable ((∀ p ∈ w.requests, p.mails e.noteId = false) ∧ w.store.marked e.noteId = false))
  | .handing _ _ => inferInstanceAs (Decidable (x.handed = true → x.ok = true))
  | .marking _ => inferInstanceAs (Decidable (x.ok = true))
  | .validating _ _ _ | .inserting _ _ _ | .fetching _ _ _ | .identifying _ | .reading _ | .permitting _ _ =>
    isTrue trivial

def Point.isMarking : Point → Bool
  | .marking _ => true
  | _ => false

/-- An edit is written only to a note that nobody is mailing and that is not marked, and what was handed over is
marked. -/
def MailFirst (w : World NotesDb Point) : Event Operation Answer → Prop
  | .step i x => ∀ p ∈ w.requests[i]?, MailFirstAt w x p
  | .crash i => ∀ p ∈ w.requests[i]?, p.isMarking = false
  | .wait _ | .arrive _ => True

instance (w : World NotesDb Point) : ∀ e, Decidable (MailFirst w e)
  | .step i x => inferInstanceAs (Decidable (∀ p ∈ w.requests[i]?, MailFirstAt w x p))
  | .crash i => inferInstanceAs (Decidable (∀ p ∈ w.requests[i]?, p.isMarking = false))
  | .wait _ | .arrive _ => isTrue trivial

/-! ### What a statement can do -/

/-- The text that a request is going to hand over, and of which note. -/
def Point.text : Point → Option (Uuid × String)
  | .fetching n _ content => some (n, content)
  | .identifying m => some (m.noteId, m.content)
  | .handing m _ => some (m.noteId, m.content)
  | _ => none

/-- The note is stored with this text. -/
def NotesDb.stores (db : NotesDb) (t : Uuid × String) : Prop := ∃ n, db.notes.find t.1 = some n ∧ n.content = t.2

variable {db db' : NotesDb} {p : Point} {q : Option Point} {x : Answer} {now : ℕ} {t : Uuid × String} {noteId : Uuid}

inductive Leaves (now : ℕ) (x : Answer) (db : NotesDb) : Point → NotesDb → Option Point → Prop
  /-- Nothing is written, and the request goes on with the text that it had. -/
  | passed {p : Point} {q : Option Point} (hp : p.isMarking = false) (hq : ∀ p' ∈ q, ∀ t ∈ p'.text, t ∈ p.text) :
      Leaves now x db p db q
  | inserted {ticketId user : Uuid} {r : CreateNoteRequest} {q : Option Point}
      (hq : ∀ p' ∈ q, ∀ t ∈ p'.text, t = (db.notes.next, r.content)) :
      Leaves now x db (.inserting ticketId user r) (db.addNote ticketId user r now) q
  | handed {m : Mail} {org : OrgIdentity} {q : Option Point} (hx : x.handed = true)
      (hq : q = if x.ok then some (.marking m.noteId) else none) :
      Leaves now x db (.handing m org) (db.handOver m org) q
  | marked {n : Uuid} : Leaves now x db (.marking n) (if x.ok then db.markSent n now else db) none
  | wrote {e : Edit} :
      Leaves now x db (.writing e) (db.writeContent e.noteId e.ticketId e.editor.id e.content now) none

theorem text_ite {c : Prop} [Decidable c] {p' : Point} (h : ∀ t ∈ p'.text, t ∈ p.text) :
    ∀ p₁ ∈ if c then some p' else none, ∀ t ∈ p₁.text, t ∈ p.text := by
  intro p₁ hp₁
  obtain ⟨-, heq⟩ := Option.ite_none_right_eq_some.mp hp₁
  exact Option.some.inj heq ▸ h

theorem advance_leaves (ha : advance now x db p = some (db', q)) : Leaves now x db p db' q := by
  have hdone : ∀ p' ∈ (none : Option Point), ∀ t ∈ p'.text, t ∈ p.text := fun _ hp' => nomatch hp'
  cases p with
  | validating ticketId user request =>
      cases ha
      exact .passed rfl (text_ite fun _ ht => nomatch ht)
  | inserting ticketId user request =>
      simp only [advance] at ha
      split at ha <;> cases ha
      · refine .inserted fun p' hp' => ?_
        obtain ⟨-, heq⟩ := Option.ite_none_right_eq_some.mp hp'
        exact Option.some.inj heq ▸ fun _ ht => (Option.some.inj ht).symm
      · exact .passed rfl hdone
  | fetching n ticketId content =>
      simp only [advance] at ha
      split at ha <;> cases ha
      · exact .passed rfl (text_ite fun _ ht => ht)
      · exact .passed rfl hdone
  | identifying m =>
      cases ha
      refine .passed rfl fun p' hp' => ?_
      obtain ⟨org, -, rfl⟩ := Option.map_eq_some_iff.mp hp'
      exact fun _ ht => ht
  | handing m org =>
      cases ha
      split
      · next hx => exact .handed hx rfl
      · exact .passed rfl (text_ite fun _ ht => nomatch ht)
  | marking n =>
      cases ha
      exact .marked
  | reading e =>
      simp only [advance] at ha
      split at ha <;> cases ha
      · exact .passed rfl (text_ite fun _ ht => nomatch ht)
      · exact .passed rfl hdone
  | permitting e note =>
      simp only [advance] at ha
      split at ha <;> cases ha
      · exact .passed rfl (text_ite fun _ ht => nomatch ht)
      · exact .passed rfl hdone
  | writing e =>
      cases ha
      split
      · exact .wrote
      · exact .passed rfl hdone

/-! ### What becomes of a note -/

namespace NotesDb

variable (ticketId user : Uuid) (r : CreateNoteRequest) (content : String)

theorem notes_addNote : (db.addNote ticketId user r now).notes = (db.insertNote ticketId user r now).notes := by
  unfold addNote
  split <;> rfl

theorem sent_addNote : (db.addNote ticketId user r now).sent = db.sent := by
  unfold addNote
  split <;> rfl

theorem marked_iff : db.marked noteId = true ↔ ∃ n, db.notes.find noteId = some n ∧ n.isEmailSent = true :=
  Option.any_eq_true _ _

theorem find_addNote {n : TicketNote} (h : db.notes.find noteId = some n) :
    (db.addNote ticketId user r now).notes.find noteId = some n := by
  rw [notes_addNote, insertNote, Table.find_insert, if_neg (Nat.ne_of_lt (Table.find_lt_next h)), h]

theorem stores_addNote (h : db.stores t) : (db.addNote ticketId user r now).stores t := by
  obtain ⟨n, hn, hcontent⟩ := h
  exact ⟨n, find_addNote ticketId user r hn, hcontent⟩

theorem marked_addNote (h : db.marked noteId = true) : (db.addNote ticketId user r now).marked noteId = true := by
  obtain ⟨n, hn, hsent⟩ := marked_iff.mp h
  exact marked_iff.mpr ⟨n, find_addNote ticketId user r hn, hsent⟩

theorem stores_inserted : (db.addNote ticketId user r now).stores (db.notes.next, r.content) := by
  unfold stores
  rw [notes_addNote, insertNote, Table.find_insert, if_pos rfl]
  exact ⟨_, rfl, rfl⟩

theorem stores_markSent (noteId : Uuid) (h : db.stores t) : (db.markSent noteId now).stores t := by
  obtain ⟨n, hn, hcontent⟩ := h
  unfold stores markSent
  rw [Table.find_update, hn]
  split
  · exact ⟨_, rfl, hcontent⟩
  · exact ⟨n, rfl, hcontent⟩

theorem marked_markSent {n : Uuid} (h : db.marked n = true) : (db.markSent noteId now).marked n = true := by
  obtain ⟨note, hn, hsent⟩ := marked_iff.mp h
  rw [marked_iff, markSent, Table.find_update, hn]
  split
  · exact ⟨_, rfl, rfl⟩
  · exact ⟨note, rfl, hsent⟩

theorem markSent_marked (h : db.stores t) : (db.markSent t.1 now).marked t.1 = true := by
  obtain ⟨note, hn, -⟩ := h
  rw [marked_iff, markSent, Table.find_update, if_pos rfl, hn]
  exact ⟨_, rfl, rfl⟩

/-- An edit leaves the other notes alone. -/
theorem find_writeContent {n : Uuid} (hne : n ≠ noteId) :
    (db.writeContent noteId ticketId user content now).notes.find n = db.notes.find n := by
  unfold writeContent touch
  dsimp only
  rw [Table.find_update_ne hne]

end NotesDb

/-! ### Runs -/

/-- What is to be handed over is stored, and so is what was handed over, which is marked or about to be. -/
structure Kept (db : NotesDb) (rs : List Point) : Prop where
  texts : ∀ p ∈ rs, ∀ t ∈ p.text, db.stores t
  sent : ∀ s ∈ db.sent, db.stores (s.mail.noteId, s.mail.content)
  marked : ∀ s ∈ db.sent, db.marked s.mail.noteId = true ∨ .marking s.mail.noteId ∈ rs

theorem mails_of_text (ht : t ∈ p.text) : p.mails t.1 = true := by
  cases p with
  | fetching | identifying | handing =>
      obtain rfl := Option.some.inj ht
      exact decide_eq_true rfl
  | _ => cases ht

variable {w w' : World NotesDb Point} {i : ℕ}

theorem Kept.leaves (h : Kept w.store w.requests) (hi : w.requests[i]? = some p) (hC : MailFirstAt w x p)
    (hl : Leaves w.now x w.store p db' q) : Kept db' (w.resume i db' q).requests := by
  have hp := List.mem_of_getElem? hi
  have hothers : ∀ r ∈ w.requests.eraseIdx i, r ∈ w.requests := fun r => List.mem_of_mem_eraseIdx
  -- A request that marks is still there, unless it takes the step.
  have hmarking : ∀ n, .marking n ∈ w.requests → .marking n ≠ p → .marking n ∈ (w.resume i db' q).requests :=
    fun n hn hne => (World.mem_resume_iff hi).mpr (.inr (World.mem_eraseIdx_of_ne hi hn hne))
  cases hl with
  | passed hnot hq =>
      refine ⟨fun r hr t ht => ?_, h.sent, fun s hs => (h.marked s hs).imp_right fun hn => hmarking _ hn ?_⟩
      · obtain hr | hr := World.mem_resume hi hr
        · exact h.texts p hp t (hq r hr t ht)
        · exact h.texts r (hothers r hr) t ht
      · rintro rfl
        cases hnot
  | @inserted ticketId user r q hq =>
      refine ⟨fun p' hp' t ht => ?_, fun s hs => ?_, fun s hs => ?_⟩
      · obtain hp' | hp' := World.mem_resume hi hp'
        · rw [hq p' hp' t ht]
          exact NotesDb.stores_inserted ticketId user r
        · exact NotesDb.stores_addNote _ _ _ (h.texts p' (hothers p' hp') t ht)
      · rw [NotesDb.sent_addNote] at hs
        exact NotesDb.stores_addNote _ _ _ (h.sent s hs)
      · rw [NotesDb.sent_addNote] at hs
        exact (h.marked s hs).imp (NotesDb.marked_addNote _ _ _) fun hn => hmarking _ hn nofun
  | @handed m org q hx hq =>
      have hq : q = some (.marking m.noteId) := by rw [hq, if_pos (hC hx)]
      subst hq
      refine ⟨fun r hr t ht => ?_, List.forall_mem_cons.mpr ⟨?_, h.sent⟩, List.forall_mem_cons.mpr ⟨.inr ?_, ?_⟩⟩
      · obtain hr | hr := World.mem_resume hi hr
        · obtain rfl := Option.some.inj hr
          cases ht
        · exact h.texts r (hothers r hr) t ht
      · exact h.texts _ hp (m.noteId, m.content) rfl
      · exact (World.mem_resume_iff hi).mpr (.inl rfl)
      · exact fun s hs => (h.marked s hs).imp_right fun hn => hmarking _ hn nofun
  | @marked n =>
      rw [if_pos (show x.ok = true from hC)] at hmarking ⊢
      refine ⟨fun r hr t ht => ?_, fun s hs => NotesDb.stores_markSent n (h.sent s hs), fun s hs => ?_⟩
      · obtain hr | hr := World.mem_resume hi hr
        · cases hr
        · exact NotesDb.stores_markSent n (h.texts r (hothers r hr) t ht)
      · by_cases hn : s.mail.noteId = n
        · subst hn
          exact .inl (NotesDb.markSent_marked (h.sent s hs))
        · refine (h.marked s hs).imp NotesDb.marked_markSent fun hm => hmarking _ hm fun heq => ?_
          exact hn (Point.marking.inj heq)
  | @wrote e =>
      obtain ⟨hmails, hmarked⟩ := hC
      have hstores : ∀ t : Uuid × String, t.1 ≠ e.noteId → w.store.stores t →
          (w.store.writeContent e.noteId e.ticketId e.editor.id e.content w.now).stores t := by
        rintro t hne ⟨n, hn, hcontent⟩
        exact ⟨n, (NotesDb.find_writeContent _ _ _ hne).trans hn, hcontent⟩
      -- The note was not handed over: it would be marked, or a request would be about to.
      have hsent : ∀ s ∈ w.store.sent, s.mail.noteId ≠ e.noteId := by
        rintro s hs heq
        obtain hm | hm := h.marked s hs
        · rw [heq, hmarked] at hm
          cases hm
        · have hmail := hmails _ hm
          rw [Point.mails, heq, decide_eq_true rfl] at hmail
          cases hmail
      refine ⟨fun r hr t ht => ?_, fun s hs => hstores _ (hsent s hs) (h.sent s hs), fun s hs => ?_⟩
      · obtain hr | hr := World.mem_resume hi hr
        · cases hr
        · have hr := hothers r hr
          refine hstores t (fun heq => ?_) (h.texts r hr t ht)
          have hmail := mails_of_text ht
          rw [heq, hmails r hr] at hmail
          cases hmail
      · refine (h.marked s hs).imp (fun hm => ?_) fun hm => hmarking _ hm nofun
        unfold NotesDb.marked at *
        rwa [NotesDb.find_writeContent _ _ _ (hsent s hs)]

theorem Kept.step (h : Kept w.store w.requests) {e : Event Operation Answer} (hC : MailFirst w e)
    (hs : step w e = some w') : Kept w'.store w'.requests := by
  replace hs := Requests.step_cases hs
  cases hs with
  | waited => exact h
  | @arrived op =>
      refine ⟨fun p hp t ht => ?_, h.sent, fun s hs => (h.marked s hs).imp_right (List.mem_append_left _)⟩
      obtain hp | hp := List.mem_append.mp hp
      · exact h.texts p hp t ht
      · rw [List.mem_singleton.mp hp] at ht
        cases op <;> cases ht
  | @crashed i =>
      refine ⟨fun p hp => h.texts p (List.mem_of_mem_eraseIdx hp), h.sent, fun s hs => (h.marked s hs).imp_right ?_⟩
      intro hm
      cases hi : w.requests[i]? with
      | none =>
          dsimp only
          rwa [List.eraseIdx_of_length_le (List.getElem?_eq_none_iff.mp hi)]
      | some p =>
          refine World.mem_eraseIdx_of_ne hi hm ?_
          rintro rfl
          exact absurd (hC _ hi).symm Bool.false_ne_true
  | advanced hi _ ha =>
      rw [World.resume_store]
      exact h.leaves hi (hC _ hi) (advance_leaves ha)

/-- What is stored before the first call. -/
def NotesDb.start (tickets : Table Ticket.id) (notes : Table TicketNote.id) : NotesDb :=
  { tickets := tickets, notes := notes, sent := [] }

/-- In a run in which no edit is written to a note that is being mailed or marked, and what was handed over is marked,
every text that was handed over is the one that is stored. -/
theorem sent_is_stored {tickets : Table Ticket.id} {notes : Table TicketNote.id} {n : ℕ}
    {es : List (Event Operation Answer)}
    (hC : StepsMeet NoteEmail.step MailFirst (World.start n (NotesDb.start tickets notes)) es)
    (hr : run NoteEmail.step (World.start n (NotesDb.start tickets notes)) es = some w) :
    ∀ s ∈ w.store.sent, ∃ note, w.store.notes.find s.mail.noteId = some note ∧ note.content = s.mail.content := by
  have hinit : Kept (NotesDb.start tickets notes) [] :=
    ⟨fun _ hp => absurd hp List.not_mem_nil, fun _ hs => absurd hs List.not_mem_nil,
      fun _ hs => absurd hs List.not_mem_nil⟩
  exact (run_invariant_of_stepsMeet (fun w => Kept w.store w.requests) (fun _ _ _ h hC hs => h.step hC hs)
    (s := World.start n (NotesDb.start tickets notes)) hinit hC hr).sent

/-! ### An edit that comes while the note is sent -/

def oneTicket : Table Ticket.id :=
  (∅ : Table Ticket.id).insert (fun id =>
    { id := id, ticketNumber := "T-1", title := "Printer", contactEmail := some "ann@acme.test", updatedAt := 0,
      lastUpdatedById := none, firstResponseAt := none }) fun _ => rfl

def ready : NotesDb := NotesDb.start oneTicket ∅

def answer : Answer :=
  { ok := true, noteEditing := none, org := some { name := "Acme", contactLine := "Questions about this ticket?" },
    handed := true }

def add : Event Operation Answer :=
  .arrive (.addNote 0 7 { noteType := .isPublic, content := "The toner is empty.", sendEmail := true })

def edit : Event Operation Answer :=
  .arrive (.updateNote 0 0 { id := 7, isAdmin := false, canManageUsers := false } "The toner is full.")

def steps (i n : ℕ) : List (Event Operation Answer) := List.replicate n (.step i answer)

/-- The edit comes after the mail, and is refused. -/
def editedLate : List (Event Operation Answer) := [add] ++ steps 0 6 ++ [edit] ++ steps 0 2

theorem sent_is_stored_editedLate : ∃ w, run step (World.start 0 ready) editedLate = some w ∧
    w.store.sent.map (·.mail.content) = ["The toner is empty."] ∧ w.requests = [] ∧
      ∀ s ∈ w.store.sent, ∃ note, w.store.notes.find s.mail.noteId = some note ∧ note.content = s.mail.content := by
  have h : (run step (World.start 0 ready) editedLate).any (fun w =>
      w.store.sent.map (·.mail.content) = ["The toner is empty."] ∧ w.requests = []) = true := by
    decide
  have hC : StepsMeet step MailFirst (World.start 0 ready) editedLate := by
    decide
  obtain ⟨w, hr, hw⟩ := exists_run_of_any h
  obtain ⟨hsent, hidle⟩ := of_decide_eq_true hw
  exact ⟨w, hr, hsent, hidle, sent_is_stored hC hr⟩

/-- The mail has been handed over and is not marked when the edit reads the note. -/
def editedMeanwhile : List (Event Operation Answer) := [add] ++ steps 0 5 ++ [edit] ++ steps 1 3 ++ steps 0 1

theorem edited_while_sending : ∃ w, run step (World.start 0 ready) editedMeanwhile = some w ∧ w.requests = [] ∧
    ∃ s ∈ w.store.sent, ∃ note, w.store.notes.find s.mail.noteId = some note ∧ note.isEmailSent = true ∧
      note.content ≠ s.mail.content := by
  have h : (run step (World.start 0 ready) editedMeanwhile).any (fun w => w.requests = [] ∧
      ∃ s ∈ w.store.sent, ∃ note ∈ w.store.notes.find s.mail.noteId, note.isEmailSent = true ∧
        note.content ≠ s.mail.content) = true := by
    decide
  obtain ⟨w, hr, hw⟩ := exists_run_of_any h
  exact ⟨w, hr, of_decide_eq_true hw⟩

end Mokosh.NoteEmail
