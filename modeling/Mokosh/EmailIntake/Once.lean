import Mokosh.EmailIntake.Service

/-! # Every email once

What the deliveries of a gateway come to, which delivers an email until it is answered, and also twice at a time.

The index keeps a Message-Id from becoming two tickets.  Nothing keeps it from becoming two notes, or a note and a
ticket: a note does not store it.  Nor is an address kept from becoming two contacts.

**`intake_once`**: each Message-Id that has been delivered comes to one ticket or one note, and each address to one new
contact at most, as long as (`HandledOnce`) a delivery that finds a ticket for one of its references is the only one of
its Message-Id, no two deliveries make a contact of one address at a time, and none is cut off.  `reply_noted_twice`
has runs without the first two. -/

namespace Mokosh.EmailIntake

open Requests (Handlers World Event Keeps Rule)

/-! ### What an email comes to -/

namespace IntakeDb

variable (db : IntakeDb)

def ticketsOf (messageId : String) : List Ticket := db.tickets.rows.filter fun t => t.emailMessageId = some messageId

def repliesOf (messageId : String) : List TicketNote := db.notes.rows.filter fun n => n.email = some messageId

/-- The contacts with the address that are younger than `since`. -/
def autoCreated (texts : Texts) (since : Uuid) (address : String) : List Contact :=
  (db.withAddress texts address).filter fun c => since ≤ c.id

/-- The log has the email in a row that is younger than `since`. -/
def Delivered (since : Uuid) (messageId : String) : Prop :=
  ∃ row ∈ db.log, since ≤ row.id ∧ row.messageId = messageId

instance (since : Uuid) (messageId : String) : Decidable (db.Delivered since messageId) :=
  inferInstanceAs (Decidable (∃ row ∈ db.log.rows, since ≤ row.id ∧ row.messageId = messageId))

variable {db} {texts : Texts} {now : ℕ} {r : EmailIntakeRequest} {m a : String} {since : Uuid}

theorem ticketsOf_eq_nil_iff : db.ticketsOf m = [] ↔ db.hasMessageId m = false := by
  simp [ticketsOf, hasMessageId]

theorem length_ticketsOf_le (m : String) : (db.ticketsOf m).length ≤ 1 := by
  have hcount := List.nodup_iff_count_le_one.mp db.messageIds m
  rw [List.count_filterMap] at hcount
  unfold ticketsOf
  rw [← List.countP_eq_length_filter]
  simpa only [beq_eq_decide] using hcount

theorem isSome_findByMessageId : (db.findByMessageId m).isSome = db.hasMessageId m := List.isSome_find?

@[simp] theorem findByReferences_nil : db.findByReferences [] = none := by
  unfold findByReferences
  have hnone : db.tickets.rows.filter (fun t => t.emailMessageId.any (· ∈ ([] : List String))) = [] := by
    refine List.filter_eq_nil_iff.mpr fun t _ => ?_
    cases t.emailMessageId <;> simp
  rw [hnone]
  rfl

/-! ### What the writes leave behind -/

theorem repliesOf_insertNote (ticketId contactId creator : Uuid) (m : String) :
    (db.insertNote r ticketId contactId creator).repliesOf m =
      if r.messageId = m then db.repliesOf m ++ [newNote r ticketId contactId creator db.notes.next]
      else db.repliesOf m := by
  unfold repliesOf insertNote Table.insert
  rw [List.filter_append, List.filter_singleton]
  split
  · next h => simp [newNote, h]
  · next h => simp [newNote, h]

theorem withAddress_insertContact (companyId : Uuid) (a : String) :
    (db.insertContact texts r companyId).withAddress texts a =
      if r.address texts = a then db.withAddress texts a ++ [newContact texts r companyId db.contacts.next]
      else db.withAddress texts a := by
  have haddress : (newContact texts r companyId db.contacts.next).email.map texts.lower = some (r.address texts) :=
    congrArg some (texts.lower_toLowercase r.fromEmail)
  unfold withAddress insertContact Table.insert
  rw [List.filter_append, List.filter_singleton, haddress]
  split
  · next h => simp [h]
  · next h => simp [h]

theorem insertTicket_eq_ok {number contactId companyId creator : ℕ} {db' : IntakeDb}
    (h : db.insertTicket texts now r number contactId companyId creator = .ok db') :
    db.hasMessageId r.messageId = false ∧ db'.contacts = db.contacts ∧ db'.notes = db.notes ∧ db'.log = db.log ∧
      ∀ m, db'.hasMessageId m = (db.hasMessageId m || r.messageId = m) := by
  unfold insertTicket at h
  split at h
  · next hnone =>
      cases h
      refine ⟨hnone, rfl, rfl, rfl, fun m => ?_⟩
      simp [hasMessageId, Table.insert, newTicket]
  · cases h

end IntakeDb

/-! ### Where the deliveries stand -/

namespace Point

/-- The Message-Id of a delivery that is on its way to a note (`true`) or to a ticket. -/
def underway : Point → Option (String × Bool)
  | resolving d onto | inserting d onto _ | attributing d onto _ _ => some (d.request.messageId, onto.isSome)
  | replying d _ _ _ => some (d.request.messageId, true)
  | numbering d _ _ _ | creating d _ _ _ _ => some (d.request.messageId, false)
  | recording _ | deduplicating _ | threading _ | rechecking _ _ | finalising _ _ => none

/-- The address that a delivery is about to make a contact of. -/
def adds (texts : Texts) : Point → Option String
  | inserting d _ _ => some (d.request.address texts)
  | _ => none

/-- The Message-Id of a delivery that is to write a ticket or a note. -/
def pending : Point → Option String
  | deduplicating d | threading d | resolving d _ | inserting d _ _ | attributing d _ _ _ | replying d _ _ _
  | numbering d _ _ _ | creating d _ _ _ _ => some d.request.messageId
  | recording _ | rechecking _ _ | finalising _ _ => none

/-- The delivery is to write neither a contact nor a note nor a ticket. -/
structure Idle (texts : Texts) (p : Point) : Prop where
  underway : p.underway = none
  pending : p.pending = none
  adds : p.adds texts = none

end Point

variable (tenant : Tenant)

/-- The statement does not cut the delivery off. -/
def goesThrough (x : Answer) (db : IntakeDb) : Point → Bool
  | .deduplicating _ | .inserting _ _ _ | .replying _ _ _ _ | .numbering _ _ _ _ => x.failure = none
  | .threading d => d.request.references = [] ∨ x.failure = none
  | .resolving d _ => x.failure = none ∧
      ((existing tenant x db d).any (·.companyId.isSome) ∨ tenant.defaultCompanyId.isSome)
  | .attributing _ _ _ _ => x.failure = none ∧ tenant.creator.isSome
  | .creating _ _ _ _ _ => x.refusal = none
  | .recording _ | .rechecking _ _ | .finalising _ _ => true

/-- What the `others` must not be about when a delivery looks its references up, and when it finds no contact. -/
def aloneAt (db : IntakeDb) (others : List Point) : Point → Bool
  | .threading d =>
    let m := d.request.messageId
    if (db.findByReferences d.request.references).isSome then
      db.repliesOf m = [] ∧ db.hasMessageId m = false ∧ ∀ p ∈ others, ∀ u ∈ p.underway, u.1 ≠ m
    else db.repliesOf m = [] ∧ ∀ p ∈ others, p.underway ≠ some (m, true)
  | .resolving d _ =>
    db.withAddress tenant.texts (d.request.address tenant.texts) = [] → ∀ p ∈ others,
      p.adds tenant.texts ≠ some (d.request.address tenant.texts)
  | _ => true

/-- Each delivery goes through, and none is in another one's way. -/
def HandledOnce (w : World IntakeDb Point) : Event EmailIntakeRequest Answer → Prop
  | .step i x => ∀ p ∈ w.requests[i]?,
    goesThrough tenant x w.store p = true ∧ aloneAt tenant w.store (w.requests.eraseIdx i) p = true
  | .crash i => ∀ p ∈ w.requests[i]?, p.pending = none
  | .wait _ | .arrive _ => True

instance (w : World IntakeDb Point) : ∀ e, Decidable (HandledOnce tenant w e)
  | .step i x => inferInstanceAs (Decidable (∀ p ∈ w.requests[i]?,
      goesThrough tenant x w.store p = true ∧ aloneAt tenant w.store (w.requests.eraseIdx i) p = true))
  | .crash i => inferInstanceAs (Decidable (∀ p ∈ w.requests[i]?, p.pending = none))
  | .wait _ | .arrive _ => isTrue trivial

/-! ### What a statement does -/

/-- The tables that count are as they were. -/
structure Same (db db' : IntakeDb) : Prop where
  contacts : db'.contacts = db.contacts
  tickets : db'.tickets = db.tickets
  notes : db'.notes = db.notes

/-- The log has the emails that it had. -/
def SameLog (db db' : IntakeDb) : Prop := ∀ since m, db'.Delivered since m → db.Delivered since m

inductive Leaves (now : ℕ) (x : Answer) (db : IntakeDb) : Point → IntakeDb → Option Point → Prop
  | logged {r : EmailIntakeRequest} : Leaves now x db (.recording r) (db.recordIntakeLog now r)
      (some (.deduplicating { logId := db.log.next, request := r }))
  | passed {p p' : Point} {db' : IntakeDb} (hsame : Same db db') (hlog : SameLog db db')
      (hunderway : p'.underway = p.underway) (hpending : p'.pending = p.pending)
      (hadds : p'.adds tenant.texts = none) : Leaves now x db p db' (some p')
  | closed {p : Point} {db' : IntakeDb} {q : Option Point} (hsame : Same db db') (hlog : SameLog db db')
      (hq : ∀ p' ∈ q, p'.Idle tenant.texts)
      (hpending : goesThrough tenant x db p = true → ∀ m ∈ p.pending, db.hasMessageId m = true) :
      Leaves now x db p db' q
  | routed {d : Delivery} {onto : Option (Uuid × ℕ)}
      (honto : onto.isSome = (db.findByReferences d.request.references).isSome) :
      Leaves now x db (.threading d) db (some (.resolving d onto))
  | missed {d : Delivery} {onto : Option (Uuid × ℕ)} {companyId : Uuid}
      (hnone : db.withAddress tenant.texts (d.request.address tenant.texts) = []) :
      Leaves now x db (.resolving d onto) db (some (.inserting d onto companyId))
  | contactAdded {d : Delivery} {onto : Option (Uuid × ℕ)} {companyId id : Uuid} :
      Leaves now x db (.inserting d onto companyId) (db.insertContact tenant.texts d.request companyId)
        (some (.attributing d onto id companyId))
  | noted {d : Delivery} {t : Uuid × ℕ} {contactId creator logId : Uuid} {result : AppResult EmailIntakeResponse} :
      Leaves now x db (.replying d t contactId creator) (db.insertNote d.request t.1 contactId creator)
        (some (.finalising logId result))
  | created {d : Delivery} {number contactId companyId creator : ℕ} {db' : IntakeDb} {p' : Point}
      (hok : db.insertTicket tenant.texts now d.request number contactId companyId creator = .ok db')
      (hq : p'.Idle tenant.texts) :
      Leaves now x db (.creating d number contactId companyId creator) db' (some p')

variable {tenant} {now : ℕ} {x : Answer} {db db' : IntakeDb} {p : Point} {q : Option Point} {since : Uuid}
  {m a : String}

namespace Same

theorem rfl : Same db db where
  contacts := Eq.refl _
  tickets := Eq.refl _
  notes := Eq.refl _

theorem hasMessageId (h : Same db db') (m : String) : db'.hasMessageId m = db.hasMessageId m := by
  unfold IntakeDb.hasMessageId
  rw [h.tickets]

theorem repliesOf (h : Same db db') (m : String) : db'.repliesOf m = db.repliesOf m := by
  unfold IntakeDb.repliesOf
  rw [h.notes]

theorem withAddress (h : Same db db') (texts : Texts) (a : String) :
    db'.withAddress texts a = db.withAddress texts a := by
  unfold IntakeDb.withAddress
  rw [h.contacts]

end Same

theorem sameLog_rfl : SameLog db db := fun _ _ h => h

theorem sameLog_finaliseIntakeLog (logId : Uuid) (result : AppResult EmailIntakeResponse) :
    SameLog db (db.finaliseIntakeLog logId result) := by
  rintro since m ⟨row, hrow, hsince, hm⟩
  obtain ⟨old, hold, rfl⟩ := List.mem_map.mp hrow
  refine ⟨old, hold, ?_⟩
  split at hsince <;> split at hm <;> exact ⟨hsince, hm⟩

theorem giveUp_idle (texts : Texts) (d : Delivery) (onto : Option (Uuid × ℕ)) (e : AppError) :
    (d.giveUp onto e).Idle texts := by
  cases onto <;> exact ⟨rfl, rfl, rfl⟩

theorem failed_idle (texts : Texts) (d : Delivery) (e : AppError) : (d.failed e).Idle texts := by
  unfold Delivery.failed
  split <;> exact ⟨rfl, rfl, rfl⟩

/-- A delivery that gives up was cut off. -/
theorem Leaves.givenUp {d : Delivery} {onto : Option (Uuid × ℕ)} {e : AppError}
    (h : goesThrough tenant x db p = false) : Leaves tenant now x db p db (some (d.giveUp onto e)) :=
  .closed .rfl sameLog_rfl (fun _ hp' => Option.some.inj hp' ▸ giveUp_idle _ d onto e) fun h' =>
    absurd (h.symm.trans h') Bool.false_ne_true

theorem resolve_leaves (d : Delivery) (onto : Option (Uuid × ℕ)) :
    Leaves tenant now x db (.resolving d onto) db (some (resolve tenant x db d onto)) := by
  unfold resolve
  split
  · next c hc =>
      split
      · exact .passed .rfl sameLog_rfl rfl rfl rfl
      · next hnone =>
          obtain ⟨hcompany, hdefault⟩ : c.companyId = none ∧ tenant.defaultCompanyId = none := by
            simpa using hnone
          exact .givenUp (by simp [goesThrough, hc, hcompany, hdefault])
  · next companyId hnone _ =>
      refine .missed ?_
      have hfound := hnone
      simp only [existing, Option.orElse_eq_orElse, Option.orElse_eq_or, Option.or_eq_none_iff] at hfound
      exact List.head?_eq_none_iff.mp hfound.2
  · next hnone hdefault => exact .givenUp (by simp [goesThrough, hnone, hdefault])

theorem advance_leaves (ha : advance tenant now x db p = some (db', q)) : Leaves tenant now x db p db' q := by
  -- A delivery that goes on to write nothing.
  have hclosed : ∀ {p p' : Point}, p'.Idle tenant.texts →
      (goesThrough tenant x db p = true → ∀ m ∈ p.pending, db.hasMessageId m = true) →
      Leaves tenant now x db p db (some p') := fun hq h =>
    .closed .rfl sameLog_rfl (fun _ hp' => Option.some.inj hp' ▸ hq) h
  cases p with
  | recording r =>
      simp only [advance] at ha
      split at ha <;> cases ha
      · exact .logged
      · exact .closed .rfl sameLog_rfl (fun _ hq => by cases hq) fun _ _ hm => by cases hm
  | deduplicating d =>
      simp only [advance] at ha
      split at ha <;> cases ha
      · next t ht =>
          refine hclosed ⟨rfl, rfl, rfl⟩ fun _ m hm => ?_
          obtain rfl := Option.some.inj hm
          rw [← IntakeDb.isSome_findByMessageId, ht]
          rfl
      · exact .passed .rfl sameLog_rfl rfl rfl rfl
      · next hx => exact hclosed ⟨rfl, rfl, rfl⟩ fun h => by simp [goesThrough, hx] at h
  | threading d =>
      simp only [advance] at ha
      split at ha
      · next hnil =>
          cases ha
          exact .routed (by simp [hnil])
      · next hne =>
          split at ha <;> cases ha
          · exact .routed Option.isSome_map
          · next hx => exact hclosed ⟨rfl, rfl, rfl⟩ fun h => by simp [goesThrough, hx, hne] at h
  | resolving d onto =>
      simp only [advance] at ha
      split at ha <;> cases ha
      · exact resolve_leaves d onto
      · next hx => exact .givenUp (by simp [goesThrough, hx])
  | inserting d onto companyId =>
      simp only [advance] at ha
      split at ha <;> cases ha
      · exact .contactAdded
      · next hx => exact .givenUp (by simp [goesThrough, hx])
  | attributing d onto contactId companyId =>
      simp only [advance] at ha
      split at ha <;> cases ha
      · exact .passed .rfl sameLog_rfl rfl rfl rfl
      · exact .passed .rfl sameLog_rfl rfl rfl rfl
      · next hcreator => exact .givenUp (by simp [goesThrough, hcreator])
      · next hx => exact .givenUp (by simp [goesThrough, hx])
  | replying d t contactId creator =>
      simp only [advance] at ha
      split at ha <;> cases ha
      · exact .noted
      · next hx => exact .givenUp (by simp [goesThrough, hx])
  | numbering d contactId companyId creator =>
      simp only [advance] at ha
      split at ha <;> cases ha
      · exact .passed ⟨rfl, rfl, rfl⟩ sameLog_rfl rfl rfl rfl
      · next hx => exact hclosed ⟨rfl, rfl, rfl⟩ fun h => by simp [goesThrough, hx] at h
  | creating d number contactId companyId creator =>
      simp only [advance] at ha
      split at ha
      · next e he =>
          cases ha
          exact hclosed (failed_idle _ d e) fun h => by simp [goesThrough, he] at h
      · split at ha <;> cases ha
        · exact .created ‹_› ⟨rfl, rfl, rfl⟩
        · exact .created ‹_› (failed_idle _ d _)
        · next e hrefused =>
            refine hclosed (failed_idle _ d e) fun _ m hm => ?_
            obtain rfl := Option.some.inj hm
            unfold IntakeDb.insertTicket at hrefused
            split at hrefused
            · cases hrefused
            · next h => exact Bool.eq_true_of_not_eq_false h
  | rechecking d e =>
      simp only [advance] at ha
      split at ha <;> cases ha <;> exact hclosed ⟨rfl, rfl, rfl⟩ fun _ _ hm => by cases hm
  | finalising logId result =>
      simp only [advance] at ha
      split at ha <;> cases ha
      · exact .closed ⟨rfl, rfl, rfl⟩ (sameLog_finaliseIntakeLog logId result) (fun _ hq => by cases hq)
          fun _ _ hm => by cases hm
      · exact .closed .rfl sameLog_rfl (fun _ hq => by cases hq) fun _ _ hm => by cases hm

/-! ### One note, one ticket, one contact -/

/-- What is stored of an email and of an address. -/
structure Sound (texts : Texts) (since : Uuid) (db : IntakeDb) : Prop where
  one_reply : ∀ m, (db.repliesOf m).length ≤ 1
  reply_or_ticket : ∀ m, db.repliesOf m ≠ [] → db.hasMessageId m = false
  one_contact : ∀ a, (db.autoCreated texts since a).length ≤ 1

/-- What a delivery counts on: its email has no note yet, nor a ticket if it is to become a note, and nobody has the
address that it makes a contact of. -/
structure Stands (texts : Texts) (db : IntakeDb) (p : Point) : Prop where
  no_reply : ∀ u ∈ p.underway, db.repliesOf u.1 = []
  no_ticket : ∀ m, p.underway = some (m, true) → db.hasMessageId m = false
  no_contact : ∀ a ∈ p.adds texts, db.withAddress texts a = []

/-- No two deliveries are on their way with one email, unless both are to become a ticket, nor are they about to make
contacts of one address. -/
structure Disjoint (texts : Texts) (p p' : Point) : Prop where
  underway : ∀ u ∈ p.underway, ∀ u' ∈ p'.underway, u.1 = u'.1 → u.2 = false ∧ u'.2 = false
  adds : ∀ a ∈ p.adds texts, a ∉ p'.adds texts

variable {texts : Texts} {p' : Point}

theorem Disjoint.symm (h : Disjoint texts p p') : Disjoint texts p' p where
  underway u hu u' hu' heq := (h.underway u' hu' u hu heq.symm).symm
  adds a ha ha' := h.adds a ha' ha

theorem Point.Idle.disjoint (h : p.Idle texts) (p' : Point) : Disjoint texts p p' where
  underway u hu := by rw [h.underway] at hu; cases hu
  adds a ha := by rw [h.adds] at ha; cases ha

theorem Point.Idle.stands (h : p.Idle texts) (db : IntakeDb) : Stands texts db p where
  no_reply u hu := by rw [h.underway] at hu; cases hu
  no_ticket m hm := by rw [h.underway] at hm; cases hm
  no_contact a ha := by rw [h.adds] at ha; cases ha

theorem Same.sound (h : Same db db') (hdb : Sound texts since db) : Sound texts since db' where
  one_reply m := by rw [h.repliesOf]; exact hdb.one_reply m
  reply_or_ticket m := by rw [h.repliesOf, h.hasMessageId]; exact hdb.reply_or_ticket m
  one_contact a := by unfold IntakeDb.autoCreated; rw [h.withAddress]; exact hdb.one_contact a

theorem Same.stands (h : Same db db') (hp : Stands texts db p) : Stands texts db' p where
  no_reply u hu := by rw [h.repliesOf]; exact hp.no_reply u hu
  no_ticket m hm := by rw [h.hasMessageId]; exact hp.no_ticket m hm
  no_contact a ha := by rw [h.withAddress]; exact hp.no_contact a ha

/-- The condition, where a delivery has looked its references up. -/
theorem alone_routed {others : List Point} {d : Delivery} (hC : aloneAt tenant db others (.threading d) = true) :
    db.repliesOf d.request.messageId = [] ∧
      ((db.findByReferences d.request.references).isSome = true → db.hasMessageId d.request.messageId = false) ∧
      ∀ p ∈ others, ∀ u ∈ p.underway, u.1 = d.request.messageId →
        (db.findByReferences d.request.references).isSome = false ∧ u.2 = false := by
  simp only [aloneAt] at hC
  split at hC
  · obtain ⟨hreply, hticket, hothers⟩ := of_decide_eq_true hC
    exact ⟨hreply, fun _ => hticket, fun p hp u hu heq => absurd heq (hothers p hp u hu)⟩
  · next hmiss =>
      obtain ⟨hreply, hothers⟩ := of_decide_eq_true hC
      refine ⟨hreply, fun h => absurd h hmiss, fun p hp u hu heq => ⟨Bool.eq_false_iff.mpr hmiss, ?_⟩⟩
      refine Bool.eq_false_iff.mpr fun htrue => hothers p hp ?_
      rw [← heq, ← htrue]
      exact hu

section Step

variable (h : Leaves tenant now x db p db' q)

include h

theorem Leaves.sound (hdb : Sound tenant.texts since db) (hp : Stands tenant.texts db p) :
    Sound tenant.texts since db' := by
  cases h with
  | @logged r =>
      have hsame : Same db (db.recordIntakeLog now r) := ⟨rfl, rfl, rfl⟩
      exact hsame.sound hdb
  | passed hsame => exact hsame.sound hdb
  | closed hsame => exact hsame.sound hdb
  | routed => exact hdb
  | missed => exact hdb
  | @contactAdded d onto companyId id =>
      refine ⟨hdb.one_reply, hdb.reply_or_ticket, fun a => ?_⟩
      unfold IntakeDb.autoCreated
      rw [IntakeDb.withAddress_insertContact]
      split
      · next ha =>
          rw [hp.no_contact a (congrArg some ha), List.nil_append]
          exact List.length_filter_le _ _
      · exact hdb.one_contact a
  | @noted d t contactId creator logId result =>
      have hempty := hp.no_reply _ rfl
      have hnone := hp.no_ticket _ rfl
      refine ⟨fun m => ?_, fun m hm => ?_, hdb.one_contact⟩
      · rw [IntakeDb.repliesOf_insertNote]
        split
        · next heq =>
            rw [← heq, hempty]
            exact le_rfl
        · exact hdb.one_reply m
      · rw [IntakeDb.repliesOf_insertNote] at hm
        split at hm
        · next heq => exact heq ▸ hnone
        · exact hdb.reply_or_ticket m hm
  | @created d number contactId companyId creator _ p' hok hq =>
      obtain ⟨-, hcontacts, hnotes, -, hids⟩ := IntakeDb.insertTicket_eq_ok hok
      have hreplies : ∀ m, db'.repliesOf m = db.repliesOf m := fun m => by
        unfold IntakeDb.repliesOf
        rw [hnotes]
      refine ⟨fun m => ?_, fun m hm => ?_, fun a => ?_⟩
      · rw [hreplies]
        exact hdb.one_reply m
      · rw [hreplies] at hm
        have hne : d.request.messageId ≠ m := fun heq => hm (heq ▸ hp.no_reply _ rfl)
        rw [hids, hdb.reply_or_ticket m hm]
        simpa using hne
      · unfold IntakeDb.autoCreated IntakeDb.withAddress
        rw [hcontacts]
        exact hdb.one_contact a

/-- The delivery itself, where it stands next. -/
theorem Leaves.stands_next {others : List Point} (hC : aloneAt tenant db others p = true)
    (hp : Stands tenant.texts db p) : ∀ p' ∈ q, Stands tenant.texts db' p' := by
  intro p' hp'
  cases h with
  | logged =>
      cases hp'
      exact ⟨fun _ hu => (by cases hu), fun _ hm => (by cases hm), fun _ ha => by cases ha⟩
  | passed hsame _ hunderway _ hadds =>
      cases hp'
      refine hsame.stands ⟨?_, ?_, ?_⟩
      · rw [hunderway]
        exact hp.no_reply
      · rw [hunderway]
        exact hp.no_ticket
      · rw [hadds]
        exact fun _ ha => by cases ha
  | closed hsame _ hq => exact (hq p' hp').stands db'
  | @routed d onto honto =>
      cases hp'
      obtain ⟨hreply, hticket, -⟩ := alone_routed hC
      refine ⟨fun u hu => ?_, fun m hm => ?_, fun _ ha => by cases ha⟩
      · obtain rfl := Option.some.inj hu
        exact hreply
      · obtain ⟨rfl, hhit⟩ := Prod.mk.inj (Option.some.inj hm)
        exact hticket (honto.symm.trans hhit)
  | @missed d onto companyId hnone =>
      cases hp'
      refine ⟨hp.no_reply, hp.no_ticket, fun a ha => ?_⟩
      obtain rfl := Option.some.inj ha
      exact hnone
  | @contactAdded d onto companyId id =>
      cases hp'
      exact ⟨hp.no_reply, hp.no_ticket, fun _ ha => by cases ha⟩
  | noted =>
      cases hp'
      exact Point.Idle.stands ⟨rfl, rfl, rfl⟩ _
  | created _ hq =>
      cases hp'
      exact hq.stands db'

/-- The other deliveries. -/
theorem Leaves.stands_other (hp' : Stands tenant.texts db p') (hX : Disjoint tenant.texts p p') :
    Stands tenant.texts db' p' := by
  cases h with
  | @logged r =>
      have hsame : Same db (db.recordIntakeLog now r) := ⟨rfl, rfl, rfl⟩
      exact hsame.stands hp'
  | passed hsame => exact hsame.stands hp'
  | closed hsame => exact hsame.stands hp'
  | routed => exact hp'
  | missed => exact hp'
  | @contactAdded d onto companyId id =>
      refine ⟨hp'.no_reply, hp'.no_ticket, fun a ha => ?_⟩
      have hne : d.request.address tenant.texts ≠ a := fun heq => hX.adds _ rfl (heq ▸ ha)
      rw [IntakeDb.withAddress_insertContact, if_neg hne]
      exact hp'.no_contact a ha
  | @noted d t contactId creator logId result =>
      refine ⟨fun u hu => ?_, hp'.no_ticket, hp'.no_contact⟩
      have hne : d.request.messageId ≠ u.1 := fun heq => absurd (hX.underway _ rfl u hu heq).1 (by simp)
      rw [IntakeDb.repliesOf_insertNote, if_neg hne]
      exact hp'.no_reply u hu
  | @created d number contactId companyId creator _ _ hok hq =>
      obtain ⟨-, hcontacts, hnotes, -, hids⟩ := IntakeDb.insertTicket_eq_ok hok
      refine ⟨fun u hu => ?_, fun m hm => ?_, fun a ha => ?_⟩
      · unfold IntakeDb.repliesOf
        rw [hnotes]
        exact hp'.no_reply u hu
      · have hne : d.request.messageId ≠ m := fun heq => absurd (hX.underway _ rfl _ hm heq).2 (by simp)
        rw [hids, hp'.no_ticket m hm]
        simpa using hne
      · unfold IntakeDb.withAddress
        rw [hcontacts]
        exact hp'.no_contact a ha

theorem Leaves.disjoint_next {others : List Point} (hC : aloneAt tenant db others p = true) (hp' : p' ∈ others)
    (hX : Disjoint tenant.texts p p') : ∀ p'' ∈ q, Disjoint tenant.texts p'' p' := by
  intro p'' hp''
  cases h with
  | logged =>
      cases hp''
      exact ⟨fun _ hu => (by cases hu), fun _ ha => by cases ha⟩
  | passed _ _ hunderway _ hadds =>
      cases hp''
      refine ⟨?_, ?_⟩
      · rw [hunderway]
        exact hX.underway
      · rw [hadds]
        exact fun _ ha => by cases ha
  | closed _ _ hq => exact (hq p'' hp'').disjoint p'
  | @routed d onto honto =>
      cases hp''
      refine ⟨fun u hu u' hu' heq => ?_, fun _ ha => by cases ha⟩
      obtain rfl := Option.some.inj hu
      obtain ⟨hmiss, hother⟩ := (alone_routed hC).2.2 p' hp' u' hu' heq.symm
      exact ⟨honto.trans hmiss, hother⟩
  | @missed d onto companyId hnone =>
      cases hp''
      refine ⟨hX.underway, fun a ha ha' => ?_⟩
      obtain rfl := Option.some.inj ha
      exact of_decide_eq_true hC hnone p' hp' ha'
  | contactAdded =>
      cases hp''
      exact ⟨hX.underway, fun _ ha => by cases ha⟩
  | noted =>
      cases hp''
      exact Point.Idle.disjoint ⟨rfl, rfl, rfl⟩ p'
  | created _ hq =>
      cases hp''
      exact hq.disjoint p'

/-- An email that has come to nothing yet is on its way. -/
theorem Leaves.debt (hC : goesThrough tenant x db p = true)
    (hD : db'.Delivered since m ∧ db'.hasMessageId m = false ∧ db'.repliesOf m = []) :
    (∃ p' ∈ q, p'.pending = some m) ∨
      (db.Delivered since m ∧ db.hasMessageId m = false ∧ db.repliesOf m = []) ∧ p.pending ≠ some m := by
  by_cases hp : p.pending = some m
  · refine .inl ?_
    cases h with
    | logged => cases hp
    | @passed _ p' _ _ _ _ hpending => exact ⟨p', rfl, hpending.trans hp⟩
    | closed hsame _ _ hpending =>
        have htrue := hpending hC m hp
        rw [← hsame.hasMessageId, hD.2.1] at htrue
        cases htrue
    | routed => exact ⟨_, rfl, hp⟩
    | missed => exact ⟨_, rfl, hp⟩
    | contactAdded => exact ⟨_, rfl, hp⟩
    | @noted d =>
        have hreplies := hD.2.2
        rw [IntakeDb.repliesOf_insertNote, if_pos (Option.some.inj hp)] at hreplies
        exact absurd hreplies (by simp)
    | created hok =>
        obtain ⟨-, -, -, -, hids⟩ := IntakeDb.insertTicket_eq_ok hok
        have hids := hids m
        rw [hD.2.1, decide_eq_true (Option.some.inj hp)] at hids
        simp at hids
  · cases h with
    | @logged r =>
        obtain ⟨⟨row, hrow, hsince, hm⟩, hticket, hreply⟩ := hD
        obtain hold | rfl := (Table.mem_insert fun _ => rfl).mp hrow
        · exact .inr ⟨⟨⟨row, hold, hsince, hm⟩, hticket, hreply⟩, hp⟩
        · exact .inl ⟨_, rfl, congrArg some hm⟩
    | passed hsame hlog =>
        rw [hsame.hasMessageId, hsame.repliesOf] at hD
        exact .inr ⟨⟨hlog _ _ hD.1, hD.2⟩, hp⟩
    | closed hsame hlog =>
        rw [hsame.hasMessageId, hsame.repliesOf] at hD
        exact .inr ⟨⟨hlog _ _ hD.1, hD.2⟩, hp⟩
    | routed => exact .inr ⟨hD, hp⟩
    | missed => exact .inr ⟨hD, hp⟩
    | contactAdded => exact .inr ⟨hD, hp⟩
    | @noted d t contactId creator logId result =>
        have hne : d.request.messageId ≠ m := fun heq => hp (congrArg some heq)
        rw [IntakeDb.repliesOf_insertNote, if_neg hne] at hD
        exact .inr ⟨hD, hp⟩
    | created hok =>
        obtain ⟨-, -, hnotes, hlog, hids⟩ := IntakeDb.insertTicket_eq_ok hok
        refine .inr ⟨⟨?_, ?_, ?_⟩, hp⟩
        · unfold IntakeDb.Delivered
          rw [← hlog]
          exact hD.1
        · have hids := (hids m).symm.trans hD.2.1
          exact (Bool.or_eq_false_iff.mp hids).1
        · unfold IntakeDb.repliesOf
          rw [← hnotes]
          exact hD.2.2

end Step

/-! ### Runs -/

variable {w : World IntakeDb Point} {n : ℕ} {es : List (Event EmailIntakeRequest Answer)}

theorem intake_rule (tenant : Tenant) (since : Uuid) :
    Rule (handlers tenant) (fun _ => Sound tenant.texts since) (fun _ => Stands tenant.texts)
      (fun w e => HandledOnce tenant w e ∧ w.requests.Pairwise (Disjoint tenant.texts)) where
  locks _ _ _ _ hb := absurd hb List.not_mem_nil
  unlocked _ := rfl
  wait h _ := ⟨h, fun _ hp => hp⟩
  start _ _ := ⟨fun _ hu => (by cases hu), fun _ hm => (by cases hm), fun _ ha => by cases ha⟩
  step hw hC hi ha := by
    have hl := advance_leaves ha
    have hp := hw.requests _ (List.mem_of_getElem? hi)
    refine ⟨hl.sound hw.store hp, hl.stands_next (hC.1 _ hi).2 hp, fun p' hp' _ hp'' => ?_⟩
    exact hl.stands_other hp'' (World.rel_others Disjoint.symm hC.2 hi p' hp')

/-- The ids of the contacts and of the log that are to come are greater than those that there are. -/
theorem sound_start (h₀ : ∀ note ∈ db.notes, note.email = none) : Sound texts db.contacts.next db := by
  have hnil : ∀ m, db.repliesOf m = [] := fun m => List.filter_eq_nil_iff.mpr fun note hnote => by
    rw [h₀ note hnote]
    exact Bool.false_ne_true
  refine ⟨fun m => ?_, fun m hm => absurd (hnil m) hm, fun a => ?_⟩
  · rw [hnil]
    exact Nat.zero_le 1
  · have hempty : db.autoCreated texts db.contacts.next a = [] := by
      refine List.filter_eq_nil_iff.mpr fun c hc hsince => ?_
      exact absurd (db.contacts.lt_next c (List.mem_of_mem_filter hc)) (not_lt.mpr (of_decide_eq_true hsince))
    rw [hempty]
    exact Nat.zero_le 1

/-- If no delivery is in another one's way, nor cut off, then an email is one ticket or one note once nothing is in
flight, and never more, and an address gets one new contact at most. -/
theorem intake_once (h₀ : ∀ note ∈ db.notes, note.email = none)
    (hr : run (step tenant) (World.start n db) es = some w)
    (hC : StepsMeet (step tenant) (HandledOnce tenant) (World.start n db) es) :
    (∀ m, (w.store.ticketsOf m).length + (w.store.repliesOf m).length ≤ 1) ∧
      (w.requests = [] → ∀ m, w.store.Delivered db.log.next m →
        (w.store.ticketsOf m).length + (w.store.repliesOf m).length = 1) ∧
      ∀ a, (w.store.autoCreated tenant.texts db.contacts.next a).length ≤ 1 := by
  have hrule := intake_rule tenant db.contacts.next
  have hstart : Keeps (handlers tenant) (fun _ => Sound tenant.texts db.contacts.next)
      (fun _ => Stands tenant.texts) (World.start n db) := Requests.keeps_start (sound_start h₀)
  have hC' := hrule.stepsMeet_pairwise Disjoint.symm
    (fun _ p _ => ⟨fun _ _ _ hu' => (by cases hu'), fun _ _ ha' => by cases ha'⟩)
    (fun _ hC hi ha p' hp' hX => (advance_leaves ha).disjoint_next (hC _ hi).2 hp' hX)
    hstart List.Pairwise.nil hC
  have hsound := (hrule.run hstart hC' hr).store
  have hmost : ∀ m, (w.store.ticketsOf m).length + (w.store.repliesOf m).length ≤ 1 := fun m => by
    have htickets := w.store.length_ticketsOf_le m
    have hreplies := hsound.one_reply m
    by_cases hnil : w.store.repliesOf m = []
    · rw [hnil]
      exact htickets
    · rw [IntakeDb.ticketsOf_eq_nil_iff.mpr (hsound.reply_or_ticket m hnil)]
      simpa using hreplies
  refine ⟨hmost, fun hidle m hm => le_antisymm (hmost m) ?_, hsound.one_contact⟩
  by_contra hlt
  have hnone : w.store.ticketsOf m = [] ∧ w.store.repliesOf m = [] := by
    rw [← List.length_eq_zero_iff, ← List.length_eq_zero_iff]
    omega
  obtain ⟨p, hp, -⟩ := hrule.debt
    (D := fun db' => db'.Delivered db.log.next m ∧ db'.hasMessageId m = false ∧ db'.repliesOf m = [])
    (P := fun p => p.pending = some m)
    (fun hC hi hp => by rw [hC.1 _ hi] at hp; cases hp)
    (fun _ hC hi ha hD => ((advance_leaves ha).debt (hC.1 _ hi).1 hD).imp_right .inl)
    hstart hC' hr
    (fun ⟨⟨row, hrow, hsince, _⟩, _⟩ => absurd (db.log.lt_next row hrow) (not_lt.mpr hsince))
    ⟨hm, IntakeDb.ticketsOf_eq_nil_iff.mp hnone.1, hnone.2⟩
  rw [hidle] at hp
  exact absurd hp List.not_mem_nil

/-! ### A reply that is delivered twice -/

def plainTexts : Texts := { lower := id, toLowercase := id, rfc3339 := fun _ => "", lower_toLowercase := fun _ => rfl }

def tenantOne : Tenant where
  users := [{ id := 1, role := .admin, status := .active, createdAt := 0 }]
  defaultCompanyId := some 10
  texts := plainTexts

def noEmail : IntakeDb :=
  { contacts := ∅, tickets := ∅, lastNumber := 0, notes := ∅, log := ∅, messageIds := List.nodup_nil }

def email (messageId fromEmail : String) (references : List String) : EmailIntakeRequest :=
  { messageId := messageId, fromEmail := fromEmail, fromName := none, subject := "Printer", bodyText := none,
    bodyHtml := none, references := references, rawHeaders := "" }

def answer : Answer := { failure := none, pick := 0, refusal := none, afterwards := none }

/-- An email that nobody else is in the way of, from its arrival to its answer in `k` statements. -/
def delivery (r : EmailIntakeRequest) (k : ℕ) : List (Event EmailIntakeRequest Answer) :=
  .arrive r :: List.replicate k (.step 0 answer)

/-- A new email, and its reply twice. -/
def replyTwice : List (Event EmailIntakeRequest Answer) :=
  delivery (email "one" "ann" []) 9 ++ delivery (email "two" "ann" ["one"]) 7 ++ delivery (email "two" "ann" ["one"]) 7

/-- Two emails of a new sender at a time. -/
def senderTwice : List (Event EmailIntakeRequest Answer) :=
  [.arrive (email "one" "ann" []), .arrive (email "two" "ann" [])] ++ List.replicate 4 (.step 0 answer) ++
    List.replicate 9 (.step 1 answer) ++ List.replicate 5 (.step 0 answer)

theorem reply_noted_twice :
    (∃ w, run (step tenantOne) (World.start 0 noEmail) replyTwice = some w ∧ w.requests = [] ∧
      w.store.Delivered 0 "two" ∧ (w.store.repliesOf "two").length = 2) ∧
    ∃ w, run (step tenantOne) (World.start 0 noEmail) senderTwice = some w ∧ w.requests = [] ∧
      (w.store.autoCreated plainTexts 0 "ann").length = 2 := by
  have hreply : (run (step tenantOne) (World.start 0 noEmail) replyTwice).any (fun w =>
      w.requests = [] ∧ w.store.Delivered 0 "two" ∧ (w.store.repliesOf "two").length = 2) = true := by
    decide
  have hsender : (run (step tenantOne) (World.start 0 noEmail) senderTwice).any (fun w =>
      w.requests = [] ∧ (w.store.autoCreated plainTexts 0 "ann").length = 2) = true := by
    decide
  obtain ⟨w, hr, hw⟩ := exists_run_of_any hreply
  obtain ⟨w', hr', hw'⟩ := exists_run_of_any hsender
  exact ⟨⟨w, hr, of_decide_eq_true hw⟩, w', hr', of_decide_eq_true hw'⟩

/-- The email is delivered again, the reply is not. -/
def emailTwice : List (Event EmailIntakeRequest Answer) :=
  delivery (email "one" "ann" []) 9 ++ delivery (email "two" "ann" ["one"]) 7 ++ delivery (email "one" "ann" []) 3

theorem intake_once_emailTwice : ∃ w, run (step tenantOne) (World.start 0 noEmail) emailTwice = some w ∧
    (w.store.ticketsOf "one").length + (w.store.repliesOf "one").length = 1 ∧
    (w.store.ticketsOf "two").length + (w.store.repliesOf "two").length = 1 := by
  have h : (run (step tenantOne) (World.start 0 noEmail) emailTwice).any (fun w =>
      w.requests = [] ∧ w.store.Delivered 0 "one" ∧ w.store.Delivered 0 "two") = true := by
    decide
  have hC : StepsMeet (step tenantOne) (HandledOnce tenantOne) (World.start 0 noEmail) emailTwice := by decide
  obtain ⟨w, hr, hw⟩ := exists_run_of_any h
  obtain ⟨hidle, hone, htwo⟩ := of_decide_eq_true hw
  have honce := (intake_once (fun _ hnote => absurd hnote List.not_mem_nil) hr hC).2.1 hidle
  exact ⟨w, hr, honce "one" hone, honce "two" htwo⟩

end Mokosh.EmailIntake
