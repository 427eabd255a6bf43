import Mokosh.Auth.Grants
import Mokosh.Auth.Sessions
import Mokosh.Lib.Requests
import Mokosh.Lib.Table
import Mokosh.Utils.Text

/-! # Email intake

`email_intake/service.rs`: `intake` for the emails of one tenant, with what it does of `create_ticket`.  A delivery is
logged, and then it takes one of these routes: a ticket has its Message-Id; or a ticket has one of its references, and
the body becomes a public note of that ticket; or it becomes a new ticket.  On the latter two the sender is looked up
among the contacts, or becomes one.

The statements are transactions of their own, but for those that look the sender up: `resolve_or_create_contact` has
one transaction for its `SELECT`s and its `INSERT`, and takes no lock before the latter, so that they are two steps
here.  Each of them may fail. -/

namespace Mokosh.EmailIntake

open Grants (UserRole)
open Sessions (UserStatus)
open Requests (Handlers World Event)

/-! ### Rows -/

structure EmailIntakeRequest where
  messageId : String
  fromEmail : String
  fromName : Option String
  subject : String
  bodyText : Option String
  bodyHtml : Option String
  references : List String
  rawHeaders : String
deriving DecidableEq

/-- A row of `contacts`. -/
structure Contact where
  id : Uuid
  companyId : Option Uuid
  firstName : String
  lastName : String
  email : Option String
  contactType : String
deriving DecidableEq

/-- A row of `tickets`; `number` is written `T000001`. -/
structure Ticket where
  id : Uuid
  number : ℕ
  title : String
  description : Option String
  source : String
  companyId : Uuid
  contactId : Option Uuid
  isBillable : Bool
  createdById : Uuid
  emailMessageId : Option String
  createdAt : ℕ
deriving DecidableEq

/-- A row of `ticket_notes`.  Only the model knows of which email it has the body (`email`). -/
structure TicketNote where
  id : Uuid
  ticketId : Uuid
  noteType : String
  content : String
  createdById : Uuid
  createdByContactId : Option Uuid
  email : Option String
deriving DecidableEq

/-- A row of `email_intake_log`. -/
structure IntakeLogRow where
  id : Uuid
  messageId : String
  rawHeaders : String
  rawBodyText : Option String
  rawBodyHtml : Option String
  receivedAt : ℕ
  ticketId : Option Uuid
  error : Option String
deriving DecidableEq

/-- A row of `users`. -/
structure User where
  id : Uuid
  role : UserRole
  status : UserStatus
  createdAt : ℕ
deriving DecidableEq

structure IntakeDb where
  contacts : Table Contact.id
  tickets : Table Ticket.id
  lastNumber : ℕ
  notes : Table TicketNote.id
  log : Table IntakeLogRow.id
  /-- `idx_tickets_email_message_id`. -/
  messageIds : (tickets.rows.filterMap Ticket.emailMessageId).Nodup

/-- `lower` is the database's, `toLowercase` that of `str`, and `rfc3339` writes an instant. -/
structure Texts where
  lower : String → String
  toLowercase : String → String
  rfc3339 : ℕ → String
  lower_toLowercase : ∀ s, lower (toLowercase s) = toLowercase s

/-- What no delivery writes: `users`, and the setting `email_intake/default_company_id`. -/
structure Tenant where
  users : List User
  defaultCompanyId : Option Uuid
  texts : Texts

/-- The first active admin or manager. -/
def Tenant.creator (tenant : Tenant) : Option Uuid :=
  (firstBy (fun u v : User => u.createdAt < v.createdAt) (tenant.users.filter fun u =>
    u.status = .active ∧ (u.role = .superAdmin ∨ u.role = .admin ∨ u.role = .manager))).map User.id

/-! ### Texts -/

/-- `str::trim`. -/
def trim (s : String) : String := String.ofList (Text.trim s.toList)

def splitDisplayName (raw : Option String) : String × String :=
  let trimmed := Text.trim (raw.getD "").toList
  let rest := Text.trim ((trimmed.dropWhile (· ≠ ' ')).drop 1)
  if trimmed = [] then ("Contact", "")
  else if rest = [] then (String.ofList trimmed, "")
  else (String.ofList (trimmed.takeWhile (· ≠ ' ')), String.ofList rest)

namespace EmailIntakeRequest

variable (r : EmailIntakeRequest) (texts : Texts)

def address : String := texts.toLowercase r.fromEmail

def buildDescription (now : ℕ) : String :=
  let sender := match r.fromName with
    | some name => if trim name ≠ "" then trim name ++ " <" ++ r.fromEmail ++ ">" else r.fromEmail
    | none => r.fromEmail
  "From: " ++ sender ++ "\nReceived: " ++ texts.rfc3339 now ++ "\n\n" ++
    r.bodyText.getD "(no plaintext body provided)"

/-- The content of the note. -/
def replyContent : String := (r.bodyText.filter fun s => trim s ≠ "").getD "(reply body empty)"

end EmailIntakeRequest

/-- The text of an error. -/
def toText : AppError → String
  | .unauthorized => "Authentication required"
  | .rateLimited _ => "Rate limit exceeded. Please try again later."
  | .forbidden message | .badRequest message | .conflict message => message
  | .notFound what => what ++ " not found"
  | .configuration message => "Configuration error: " ++ message
  | .validation _ message => "Validation failed: " ++ message
  | .database message => "Database error: " ++ message
  | .internal message => "Internal error: " ++ message

def isUniqueViolation (e : AppError) : Bool := "23505".toList <:+: (toText e).toList

/-! ### What the statements select and write -/

namespace IntakeDb

variable (texts : Texts) (now : ℕ) (db : IntakeDb)

def hasMessageId (messageId : String) : Bool := db.tickets.rows.any fun t => t.emailMessageId = some messageId

def findByMessageId (messageId : String) : Option Ticket :=
  db.tickets.rows.find? fun t => t.emailMessageId = some messageId

/-- The youngest of them. -/
def findByReferences (references : List String) : Option Ticket :=
  firstBy (fun t u : Ticket => u.createdAt < t.createdAt) (db.tickets.rows.filter fun t =>
    t.emailMessageId.any (· ∈ references))

/-- The contacts with the address, of which a `SELECT` without `ORDER BY` gets any. -/
def withAddress (address : String) : List Contact :=
  db.contacts.rows.filter fun c => c.email.map texts.lower = some address

def recordIntakeLog (r : EmailIntakeRequest) : IntakeDb :=
  { db with
    log := db.log.insert fun id =>
      { id := id, messageId := r.messageId, rawHeaders := r.rawHeaders, rawBodyText := r.bodyText,
        rawBodyHtml := r.bodyHtml, receivedAt := now, ticketId := none, error := none } }

def newContact (r : EmailIntakeRequest) (companyId id : Uuid) : Contact :=
  let name := splitDisplayName r.fromName
  { id := id, companyId := some companyId, firstName := name.1, lastName := name.2,
    email := some (r.address texts), contactType := "primary" }

def insertContact (r : EmailIntakeRequest) (companyId : Uuid) : IntakeDb :=
  { db with contacts := db.contacts.insert (newContact texts r companyId) }

def newNote (r : EmailIntakeRequest) (ticketId contactId creator id : Uuid) : TicketNote :=
  { id := id, ticketId := ticketId, noteType := "public", content := r.replyContent, createdById := creator,
    createdByContactId := some contactId, email := some r.messageId }

def insertNote (r : EmailIntakeRequest) (ticketId contactId creator : Uuid) : IntakeDb :=
  { db with notes := db.notes.insert (newNote r ticketId contactId creator) }

/-- The row that `create_ticket` inserts for an email. -/
def newTicket (r : EmailIntakeRequest) (number : ℕ) (contactId companyId creator id : Uuid) : Ticket :=
  { id := id, number := number, title := r.subject, description := some (r.buildDescription texts now),
    source := "email", companyId := companyId, contactId := some contactId, isBillable := false,
    createdById := creator, emailMessageId := some r.messageId, createdAt := now }

theorem nodup_insertTicket {db : IntakeDb} {mk : ℕ → Ticket} {hk : ∀ i, (mk i).id = i} {m : String}
    (hm : ∀ i, (mk i).emailMessageId = some m) (h : db.hasMessageId m = false) :
    ((db.tickets.insert mk hk).rows.filterMap Ticket.emailMessageId).Nodup := by
  have hrows : (db.tickets.insert mk hk).rows = db.tickets.rows ++ [mk db.tickets.next] := rfl
  have hsingle : [mk db.tickets.next].filterMap Ticket.emailMessageId = [m] := by simp [hm]
  rw [hrows, List.filterMap_append, hsingle]
  refine List.nodup_append.mpr ⟨db.messageIds, List.nodup_singleton m, fun a ha b hb hab => ?_⟩
  obtain ⟨t, ht, hta⟩ := List.mem_filterMap.mp ha
  rw [hab, List.mem_singleton.mp hb] at hta
  have hnone := List.any_eq_false.mp h t ht
  simp [hta] at hnone

/-- The `INSERT` of `create_ticket`, unless the index refuses it. -/
def insertTicket (r : EmailIntakeRequest) (number : ℕ) (contactId companyId creator : Uuid) : AppResult IntakeDb :=
  if h : db.hasMessageId r.messageId = false then
    .ok { db with
      tickets := db.tickets.insert (newTicket texts now r number contactId companyId creator)
      messageIds := nodup_insertTicket (fun _ => rfl) h }
  else .error (.conflict "That record already exists")

end IntakeDb

/-! ### Deliveries -/

structure EmailIntakeResponse where
  ticketId : Uuid
  ticketNumber : ℕ
  created : Bool
  deduplicated : Bool
  threaded : Bool
  commentAdded : Bool
deriving DecidableEq

def EmailIntakeResponse.of (ticketId : Uuid) (number : ℕ) : EmailIntakeResponse :=
  { ticketId := ticketId, ticketNumber := number, created := false, deduplicated := false, threaded := false,
    commentAdded := false }

namespace IntakeDb

def finaliseIntakeLog (db : IntakeDb) (logId : Uuid) (result : AppResult EmailIntakeResponse) : IntakeDb :=
  { db with
    log := db.log.update logId fun row =>
      { row with
        ticketId := result.toOption.map EmailIntakeResponse.ticketId
        error := match result with
          | .ok _ => none
          | .error e => some (toText e) } }

end IntakeDb

/-- A delivery whose row of the log has been written. -/
structure Delivery where
  logId : Uuid
  request : EmailIntakeRequest
deriving DecidableEq

/-- Where a delivery stands.  From `resolving` to `attributing` it is on its way to a note of a ticket (`onto`), or to
a new ticket. -/
inductive Point where
  | recording (r : EmailIntakeRequest)
  | deduplicating (d : Delivery)
  | threading (d : Delivery)
  | resolving (d : Delivery) (onto : Option (Uuid × ℕ))
  | inserting (d : Delivery) (onto : Option (Uuid × ℕ)) (companyId : Uuid)
  | attributing (d : Delivery) (onto : Option (Uuid × ℕ)) (contactId companyId : Uuid)
  | replying (d : Delivery) (onto : Uuid × ℕ) (contactId creator : Uuid)
  | numbering (d : Delivery) (contactId companyId creator : Uuid)
  | creating (d : Delivery) (number : ℕ) (contactId companyId creator : Uuid)
  | rechecking (d : Delivery) (e : AppError)
  | finalising (logId : Uuid) (result : AppResult EmailIntakeResponse)
deriving DecidableEq

/-- What a statement is answered: the text of its failure, the row that it gets where it may get any, and what
`create_ticket` fails with besides, before and after its `INSERT`. -/
structure Answer where
  failure : Option String
  pick : ℕ
  refusal : Option AppError
  afterwards : Option AppError
deriving DecidableEq

/-- A delivery that cannot go on to its note answers that the email is threaded. -/
def Delivery.giveUp (d : Delivery) (onto : Option (Uuid × ℕ)) (e : AppError) : Point :=
  match onto with
  | some t => .finalising d.logId (.ok { EmailIntakeResponse.of t.1 t.2 with threaded := true })
  | none => .finalising d.logId (.error e)

/-- What becomes of a delivery after an error of `create_ticket`. -/
def Delivery.failed (d : Delivery) (e : AppError) : Point :=
  if isUniqueViolation e then .rechecking d e else .finalising d.logId (.error e)

def noContactFound (address : String) : AppError :=
  .badRequest ("No contact found for from_email='" ++ address ++ "'; the sender must exist as a tenant contact before " ++
    "email-intake can create a ticket. Configure tenant_settings(email_intake/default_company_id) to auto-create " ++
    "contacts under a fallback company.")

def noCreator : AppError :=
  .configuration "Cannot create email-intake ticket: tenant has no admin/manager user to attribute it to"

variable (tenant : Tenant)

/-- The contact that the sender is looked up as. -/
def existing (x : Answer) (db : IntakeDb) (d : Delivery) : Option Contact :=
  let found := db.withAddress tenant.texts (d.request.address tenant.texts)
  found[x.pick]? <|> found.head?

/-- `resolve_or_create_contact`, up to its `INSERT`. -/
def resolve (x : Answer) (db : IntakeDb) (d : Delivery) (onto : Option (Uuid × ℕ)) : Point :=
  match existing tenant x db d, tenant.defaultCompanyId with
  | some c, default =>
    match c.companyId <|> default with
    | some companyId => .attributing d onto c.id companyId
    | none => d.giveUp onto (noContactFound (d.request.address tenant.texts))
  | none, some companyId => .inserting d onto companyId
  | none, none => d.giveUp onto (noContactFound (d.request.address tenant.texts))

def start : EmailIntakeRequest → Point := .recording

def advance (now : ℕ) (x : Answer) (db : IntakeDb) : Point → Option (IntakeDb × Option Point)
  | .recording r =>
    match x.failure with
    | none => some (db.recordIntakeLog now r, some (.deduplicating { logId := db.log.next, request := r }))
    | some _ => some (db, none)
  | .deduplicating d =>
    match x.failure, db.findByMessageId d.request.messageId with
    | none, some t =>
      some (db, some (.finalising d.logId (.ok { EmailIntakeResponse.of t.id t.number with deduplicated := true })))
    | none, none => some (db, some (.threading d))
    | some cause, _ => some (db, some (.finalising d.logId (.error (.database cause))))
  | .threading d =>
    if d.request.references = [] then some (db, some (.resolving d none))
    else match x.failure with
      | none => some (db, some (.resolving d ((db.findByReferences d.request.references).map fun t =>
          (t.id, t.number))))
      | some cause => some (db, some (.finalising d.logId (.error (.database cause))))
  | .resolving d onto =>
    match x.failure with
    | none => some (db, some (resolve tenant x db d onto))
    | some cause => some (db, some (d.giveUp onto (.database cause)))
  | .inserting d onto companyId =>
    match x.failure with
    | none =>
      some (db.insertContact tenant.texts d.request companyId, some (.attributing d onto db.contacts.next companyId))
    | some cause => some (db, some (d.giveUp onto (.database cause)))
  | .attributing d onto contactId companyId =>
    match x.failure, tenant.creator, onto with
    | none, some creator, some t => some (db, some (.replying d t contactId creator))
    | none, some creator, none => some (db, some (.numbering d contactId companyId creator))
    | none, none, onto => some (db, some (d.giveUp onto noCreator))
    | some cause, _, onto => some (db, some (d.giveUp onto (.database cause)))
  | .replying d t contactId creator =>
    match x.failure with
    | none => some (db.insertNote d.request t.1 contactId creator, some (.finalising d.logId
        (.ok { EmailIntakeResponse.of t.1 t.2 with threaded := true, commentAdded := true })))
    | some cause => some (db, some (d.giveUp (some t) (.database cause)))
  | .numbering d contactId companyId creator =>
    match x.failure with
    | none => some ({ db with lastNumber := db.lastNumber + 1 },
        some (.creating d (db.lastNumber + 1) contactId companyId creator))
    | some cause => some (db, some (.finalising d.logId (.error (.database cause))))
  | .creating d number contactId companyId creator =>
    match x.refusal with
    | some e => some (db, some (d.failed e))
    | none =>
      match db.insertTicket tenant.texts now d.request number contactId companyId creator, x.afterwards with
      | .ok db', none => some (db', some (.finalising d.logId
          (.ok { EmailIntakeResponse.of db.tickets.next number with created := true })))
      | .ok db', some e => some (db', some (d.failed e))
      | .error e, _ => some (db, some (d.failed e))
  | .rechecking d e =>
    match x.failure, db.findByMessageId d.request.messageId with
    | none, some t =>
      some (db, some (.finalising d.logId (.ok { EmailIntakeResponse.of t.id t.number with deduplicated := true })))
    | none, none => some (db, some (.finalising d.logId (.error e)))
    | some cause, _ => some (db, some (.finalising d.logId (.error (.database cause))))
  | .finalising logId result =>
    match x.failure with
    | none => some (db.finaliseIntakeLog logId result, none)
    | some _ => some (db, none)

def handlers : Handlers EmailIntakeRequest Answer IntakeDb Point Empty := .lockless start (advance tenant)

abbrev step := Requests.step (handlers tenant)

end Mokosh.EmailIntake
