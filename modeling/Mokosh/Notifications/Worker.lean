import Mathlib.Data.List.Sort
import Mokosh.Lib.Requests
import Mokosh.Lib.Table
import Mokosh.Types

/-! # The notifications dispatcher

`notifications/worker.rs`: any number of workers drain one queue.

* A tick claims the rows that are due, in one statement; it reads the addresses of their users; it
  delivers them one by one, with no transaction open; and it writes all outcomes back.
* A claim is the status `sending`, an attempt counted and a time at which it expires.  The rows that other
  workers have locked while a claim runs are skipped.
* What comes from outside: which rows are locked, the addresses, and what the mailer answers. -/

namespace Mokosh.Notifications

open Requests (Handlers World Event)

/-- Delays in seconds after a transient failure, by the attempts made. -/
def backoffSecs : List ℕ := [60, 300, 1800, 7200, 21600]

def claimTimeoutSecs : ℕ := 600

inductive Status where
  | pending
  | sending
  | sent
  | delivered
  | failed
deriving DecidableEq, Repr

/-- A row of `notifications`. -/
structure Notification where
  id : Uuid
  tenantId : Uuid
  userId : Option Uuid
  contactId : Option Uuid
  channelType : String
  recipient : Option String
  subject : Option String
  body : String
  bodyHtml : Option String
  status : Status
  attemptCount : ℕ
  nextAttemptAt : Option ℕ
  errorMessage : Option String
  sentAt : Option ℕ
  createdAt : ℕ
deriving DecidableEq

namespace Notification

/-- What a claim selects. -/
def isDue (n : Notification) (now : ℕ) : Bool :=
  match n.status, n.nextAttemptAt with
  | .pending, none => true
  | .pending, some t | .sending, some t => t ≤ now
  | _, _ => false

def claim (n : Notification) (now : ℕ) : Notification :=
  { n with
    status := .sending, attemptCount := n.attemptCount + 1,
    nextAttemptAt := some (now + claimTimeoutSecs) }

def markSent (n : Notification) (now : ℕ) : Notification :=
  { n with status := .sent, sentAt := some now, nextAttemptAt := none, errorMessage := none }

def claimAmong (n : Notification) (now : ℕ) (ids : List Uuid) : Notification :=
  if n.id ∈ ids then n.claim now else n

def markSentAmong (n : Notification) (now : ℕ) (ids : List Uuid) : Notification :=
  if n.id ∈ ids then n.markSent now else n

@[simp] theorem claimAmong_id (n : Notification) (now : ℕ) (ids : List Uuid) :
    (n.claimAmong now ids).id = n.id := by
  unfold claimAmong
  split <;> rfl

@[simp] theorem markSentAmong_id (n : Notification) (now : ℕ) (ids : List Uuid) :
    (n.markSentAmong now ids).id = n.id := by
  unfold markSentAmong
  split <;> rfl

end Notification

/-- The queue; and the mails that the mailer was asked to send, by the row that they are of. -/
structure QueueDb where
  notifications : Table Notification.id
  mailed : List Uuid

/-! ### Claim -/

structure ClaimedRow where
  id : Uuid
  tenantId : Uuid
  userId : Option Uuid
  contactId : Option Uuid
  channel : String
  recipient : Option String
  subject : Option String
  body : String
  bodyHtml : Option String
  /-- The attempt that the tick is making. -/
  attempt : ℕ
deriving DecidableEq

def ClaimedRow.ofNotification (n : Notification) : ClaimedRow :=
  { id := n.id, tenantId := n.tenantId, userId := n.userId, contactId := n.contactId,
    channel := n.channelType, recipient := n.recipient, subject := n.subject, body := n.body,
    bodyHtml := n.bodyHtml, attempt := n.attemptCount }

/-- The rows of a batch: due, not locked by others, the oldest first. -/
def QueueDb.due (db : QueueDb) (now limit : ℕ) (locked : List Uuid) : List Notification :=
  ((db.notifications.rows.filter fun n => n.isDue now ∧ n.id ∉ locked).insertionSort
    fun a b => a.createdAt ≤ b.createdAt).take limit

/-- `claim`. -/
def QueueDb.claim (db : QueueDb) (now limit : ℕ) (locked : List Uuid) : QueueDb × List ClaimedRow :=
  let due := db.due now limit locked
  let ids := due.map Notification.id
  ({ db with
      notifications := db.notifications.map (·.claimAmong now ids) fun n => n.claimAmong_id now ids },
    due.map fun n => .ofNotification (n.claim now))

/-! ### Deliver -/

inductive DeliveryError where
  | transient (message : String)
  | permanent (message : String)
deriving DecidableEq

/-- What `resolve_addresses` found for the users of a tenant: an address, or why there is none. -/
abbrev Addresses := List ((Uuid × Uuid) × Except String String)

/-- The address that an email goes to. -/
def ClaimedRow.address (row : ClaimedRow) (addresses : Addresses) : Except DeliveryError String :=
  match row.userId, row.recipient with
  | some uid, _ =>
    match addresses.lookup (row.tenantId, uid) with
    | some (.ok address) => .ok address
    | some (.error message) => .error (.transient message)
    | none => .error (.permanent ("user " ++ toString uid ++ " has no email"))
  | none, some address => .ok address
  | none, none => .error (.permanent "email notification has no user_id and no recipient")

/-- `deliver`, with what the mailer answers if it is asked, and whether it is. -/
def deliver (row : ClaimedRow) (addresses : Addresses) (smtp : Except String Unit) :
    Except DeliveryError Unit × Bool :=
  if row.channel = "in_app" then
    if row.userId.isNone ∧ row.contactId.isNone then
      (.error (.permanent "in_app notification has no user_id and no contact_id"), false)
    else (.ok (), false)
  else if row.channel = "email" then
    match row.address addresses with
    | .error e => (.error e, false)
    | .ok _ => (smtp.mapError fun e => .transient ("smtp: " ++ e), true)
  else
    (.error (.permanent ("no transport registered for channel '" ++ row.channel ++ "'")), false)

/-! ### Settle -/

structure Settlement where
  id : Uuid
  status : Status
  retryInSecs : Option ℕ
  errorMessage : Option String
deriving DecidableEq

/-- What becomes of a row that was not delivered. -/
def Settlement.ofError (row : ClaimedRow) : DeliveryError → Settlement
  | .permanent message =>
    { id := row.id, status := .failed, retryInSecs := none, errorMessage := some message }
  | .transient message =>
    match backoffSecs[row.attempt - 1]? with
    | none => { id := row.id, status := .failed, retryInSecs := none, errorMessage := some message }
    | some secs =>
      { id := row.id, status := .pending, retryInSecs := some secs, errorMessage := some message }

def Notification.settle (n : Notification) (now : ℕ) (s : Settlement) : Notification :=
  { n with
    status := s.status, nextAttemptAt := s.retryInSecs.map (now + ·), errorMessage := s.errorMessage }

def Notification.settleAmong (n : Notification) (now : ℕ) (settlements : List Settlement) :
    Notification :=
  ((settlements.find? fun s => s.id = n.id).map (n.settle now)).getD n

@[simp] theorem Notification.settleAmong_id (n : Notification) (now : ℕ)
    (settlements : List Settlement) : (n.settleAmong now settlements).id = n.id := by
  unfold settleAmong
  cases settlements.find? fun s => s.id = n.id <;> rfl

/-- `settle`: both statements select the rows by their ids alone. -/
def QueueDb.settle (db : QueueDb) (now : ℕ) (sentIds : List Uuid) (settlements : List Settlement) :
    QueueDb :=
  let sent := db.notifications.map (·.markSentAmong now sentIds) fun n => n.markSentAmong_id now sentIds
  { db with
    notifications := sent.map (·.settleAmong now settlements) fun n =>
      n.settleAmong_id now settlements }

/-! ### The workers -/

/-- What `dispatch` inserts. -/
structure NewNotification where
  tenantId : Uuid
  userId : Option Uuid
  contactId : Option Uuid
  channelType : String
  recipient : Option String
  subject : Option String
  body : String
  bodyHtml : Option String
deriving DecidableEq

def NewNotification.row (new : NewNotification) (now : ℕ) (id : Uuid) : Notification :=
  { id := id, tenantId := new.tenantId, userId := new.userId, contactId := new.contactId,
    channelType := new.channelType, recipient := new.recipient, subject := new.subject,
    body := new.body, bodyHtml := new.bodyHtml, status := .pending, attemptCount := 0,
    nextAttemptAt := none, errorMessage := none, sentAt := none, createdAt := now }

inductive Operation where
  | runTick (limit : ℕ)
  | dispatch (new : NewNotification)
deriving DecidableEq

/-- What a step is told from outside. -/
inductive Answer where
  | nothing
  | locked (ids : List Uuid)
  | addresses (found : Addresses)
  | smtp (result : Except String Unit)

/-- Where a tick stands: `rest` is what it has not delivered of what it `claimed`. -/
inductive Point where
  | dispatching (new : NewNotification)
  | claiming (limit : ℕ)
  | resolving (claimed : List ClaimedRow)
  | sending (claimed : List ClaimedRow) (addresses : Addresses) (rest : List ClaimedRow)
      (sentIds : List Uuid) (settlements : List Settlement)

def start : Operation → Point
  | .runTick limit => .claiming limit
  | .dispatch new => .dispatching new

def Answer.lockedIds : Answer → List Uuid
  | locked ids => ids
  | _ => []

def Answer.found : Answer → Addresses
  | addresses found => found
  | _ => []

def Answer.result : Answer → Except String Unit
  | smtp result => result
  | _ => .ok ()

def QueueDb.hand (db : QueueDb) (handed : Bool) (id : Uuid) : QueueDb :=
  if handed then { db with mailed := id :: db.mailed } else db

/-- The next step of a tick. -/
def advance (now : ℕ) (answer : Answer) (db : QueueDb) : Point → Option (QueueDb × Option Point)
  | .dispatching new =>
    some ({ db with notifications := db.notifications.insert (new.row now) }, none)
  | .claiming limit =>
    let (db', claimed) := db.claim now limit answer.lockedIds
    some (db', if claimed.isEmpty then none else some (.resolving claimed))
  | .resolving claimed => some (db, some (.sending claimed answer.found claimed [] []))
  | .sending claimed addresses (row :: rest) sentIds settlements =>
    let (outcome, handed) := deliver row addresses answer.result
    some (db.hand handed row.id, some (
      match outcome with
      | .ok () => .sending claimed addresses rest (row.id :: sentIds) settlements
      | .error e => .sending claimed addresses rest sentIds (.ofError row e :: settlements)))
  | .sending _ _ [] sentIds settlements => some (db.settle now sentIds settlements, none)

def handlers : Handlers Operation Answer QueueDb Point Empty := .lockless start advance

abbrev step := Requests.step handlers

end Mokosh.Notifications
