import Mokosh.Lib.Requests
import Mokosh.Quotes.Quote

/-! # Approvals

`approvals/service.rs` and `quotes/approval_sync.rs`: sign-off on a ticket, a change request, a quote or a
time entry, of one tenant.

* `decide` and `decide_as_contact` lock the row before they check it; `cancel` reads it without a lock, and
  its `UPDATE` asks for nothing but the id.
* A staff decision on a quote goes on, in its transaction, to `apply_decision`: lock the quote, count the
  staff approvals, write the status.
* What a transaction has written nobody else sees before its commit. -/

namespace Mokosh.Approvals

open Quotes (QuoteStatus)
open Requests (Handlers World Event)

inductive Status where
  | pending
  | approved
  | rejected
  | cancelled
deriving DecidableEq, Repr

def Status.asStr : Status → String
  | pending => "pending"
  | approved => "approved"
  | rejected => "rejected"
  | cancelled => "cancelled"

inductive ApprovalTarget where
  | ticket
  | changeRequest
  | quote
  | timeEntry
deriving DecidableEq, Repr

/-- `approver_user_id`, `approver_role` and `approver_contact_id`, of which a `CHECK` allows one. -/
inductive Approver where
  | user (id : Uuid)
  | role (name : String)
  | contact (id : Uuid)
  | unknown
deriving DecidableEq, Repr

namespace Approver

def authorises (a : Approver) (callerId : Uuid) (callerRole : String) : Bool :=
  match a with
  | user id => id = callerId
  | role name => name = callerRole
  | _ => false

/-- `approver_contact_id IS NULL`. -/
def isStaff : Approver → Bool
  | contact _ => false
  | _ => true

end Approver

/-- A row of `ticket_approvals`; `requestedById` is null where a contact asked. -/
structure Approval where
  id : Uuid
  target : ApprovalTarget
  entityId : Uuid
  requestedById : Option Uuid
  approver : Approver
  status : Status
  decisionNotes : Option String
  decidedById : Option Uuid
  decidedByContactId : Option Uuid
  decidedAt : Option ℕ
deriving DecidableEq

/-- One of the approvals of a quote that `apply_decision` counts. -/
def Approval.isStaffOf (a : Approval) (quoteId : Uuid) : Bool :=
  a.target = .quote ∧ a.entityId = quoteId ∧ a.approver.isStaff

structure QuoteRow where
  id : Uuid
  status : QuoteStatus
deriving DecidableEq

structure ApprovalsDb where
  approvals : Table Approval.id
  quotes : Table QuoteRow.id
deriving DecidableEq

namespace ApprovalsDb

def write (db : ApprovalsDb) (row : Approval) : ApprovalsDb :=
  { db with approvals := db.approvals.update row.id fun r => { row with id := r.id } }

def setStatus (db : ApprovalsDb) (quoteId : Uuid) (next : QuoteStatus) : ApprovalsDb :=
  { db with quotes := db.quotes.update quoteId fun q => { q with status := next } }

def staffApprovals (db : ApprovalsDb) (quoteId : Uuid) : List Approval :=
  db.approvals.rows.filter fun a => a.isStaffOf quoteId

def count (db : ApprovalsDb) (quoteId : Uuid) (status : Status) : ℕ :=
  (db.staffApprovals quoteId).countP fun a => a.status = status

def quoteStatus (db : ApprovalsDb) (quoteId : Uuid) : Option QuoteStatus :=
  (db.quotes.find quoteId).map QuoteRow.status

/-- What `apply_decision` makes of a quote in `current`: its count sees what is committed and the
transaction's own version of its row. -/
def outcome (db : ApprovalsDb) (row : Approval) (current : QuoteStatus) : Option QuoteStatus :=
  let seen := db.write row
  Quotes.outcome current (seen.count row.entityId .pending) (seen.count row.entityId .rejected)

end ApprovalsDb

/-! ### Decisions -/

structure DecideApprovalRequest where
  decision : String
  decisionNotes : Option String
deriving DecidableEq

def DecideApprovalRequest.newStatus (req : DecideApprovalRequest) : AppResult Status :=
  if req.decision = "approve" then .ok .approved
  else if req.decision = "reject" then .ok .rejected
  else .error (.badRequest "Decision must be 'approve' or 'reject'")

/-- Who decides: the two arms of the route. -/
inductive Decider where
  | staff (callerId : Uuid) (callerRole : String)
  | contact (contactId : Uuid)
deriving DecidableEq

structure Decision where
  id : Uuid
  decider : Decider
  newStatus : Status
  decisionNotes : Option String
deriving DecidableEq

namespace Decision

/-- The row that the arm selects. -/
def row (d : Decision) (db : ApprovalsDb) : Option Approval :=
  match d.decider with
  | .staff _ _ => db.approvals.find d.id
  | .contact contactId => (db.approvals.find d.id).filter fun a => a.approver = .contact contactId

def check (d : Decision) (row : Approval) : AppResult Unit :=
  if row.status ≠ .pending then
    .error (.badRequest ("Approval is already " ++ row.status.asStr))
  else
    match d.decider with
    | .staff callerId callerRole =>
      if row.approver.authorises callerId callerRole then .ok ()
      else .error (.forbidden "Only the assigned approver may decide")
    | .contact _ => .ok ()

def apply (d : Decision) (now : ℕ) (row : Approval) : Approval :=
  let row := { row with
    status := d.newStatus, decisionNotes := d.decisionNotes, decidedAt := some now }
  match d.decider with
  | .staff callerId _ => { row with decidedById := some callerId }
  | .contact contactId => { row with decidedByContactId := some contactId }

/-- A decision that goes on to `apply_decision`. -/
def syncs (d : Decision) (row : Approval) : Bool :=
  match d.decider with
  | .staff _ _ => row.target = .quote
  | .contact _ => false

end Decision

def Approval.cancel (row : Approval) (now : ℕ) : Approval :=
  { row with status := .cancelled, decidedAt := some now }

/-! ### The requests -/

inductive Operation where
  | decide (id callerId : Uuid) (callerRole : String) (req : DecideApprovalRequest)
  | decideAsContact (id contactId : Uuid) (req : DecideApprovalRequest)
  | cancel (id callerId : Uuid)
deriving DecidableEq

/-- Where a request stands.  From `updated` on it has a version of its row that it has not committed. -/
inductive Point where
  | deciding (d : Decision)
  | locked (d : Decision) (row : Approval)
  | updated (d : Decision) (row : Approval)
  | quoteLocked (d : Decision) (row : Approval) (current : QuoteStatus)
  | counted (d : Decision) (row : Approval) (next : Option QuoteStatus)
  | moved (d : Decision) (row : Approval) (next : QuoteStatus)
  /-- There is no quote to move. -/
  | unmoved (d : Decision) (row : Approval)
  | cancelling (id callerId : Uuid)
  | cancelChecked (id : Uuid)
  | cancelled (row : Approval)
  | answered (answer : AppResult Unit)
deriving DecidableEq

inductive Lock where
  | approval (id : Uuid)
  | quote (id : Uuid)
deriving DecidableEq

def deciding (id : Uuid) (decider : Decider) (req : DecideApprovalRequest) : Point :=
  match req.newStatus with
  | .error e => .answered (.error e)
  | .ok status =>
    .deciding { id := id, decider := decider, newStatus := status, decisionNotes := req.decisionNotes }

def start : Operation → Point
  | .decide id callerId callerRole req => deciding id (.staff callerId callerRole) req
  | .decideAsContact id contactId req => deciding id (.contact contactId) req
  | .cancel id callerId => .cancelling id callerId

/-- What `cancel` does with the row that it reads. -/
def cancelCheck (callerId : Uuid) (row : Approval) : AppResult Unit :=
  if row.status ≠ .pending then
    .error (.badRequest ("Approval is already " ++ row.status.asStr))
  else if row.requestedById ≠ some callerId then .error (.forbidden "Only the requester may cancel")
  else .ok ()

/-- The end of a transaction that has gone well. -/
def committed : Option Point := some (.answered (.ok ()))

def failed (e : AppError) : Option Point := some (.answered (.error e))

/-- The next statement of a request. -/
def advance (now : ℕ) (_ : Unit) (db : ApprovalsDb) : Point → Option (ApprovalsDb × Option Point)
  -- SELECT … FOR UPDATE
  | .deciding d => some (db,
    match d.row db with
    | none => failed (.notFound "Approval")
    | some row =>
      match d.check row with
      | .error e => failed e
      | .ok () => some (.locked d row))
  -- UPDATE … WHERE status = 'pending'
  | .locked d _ => some (db,
    match (d.row db).filter fun row => row.status = .pending with
    | none => failed (.badRequest "Approval is already decided")
    | some row => some (.updated d (d.apply now row)))
  | .updated d row =>
    if d.syncs row then
      -- SELECT status FROM quotes … FOR UPDATE
      some (db,
        match db.quoteStatus row.entityId with
        | none => some (.unmoved d row)
        | some current => some (.quoteLocked d row current))
    else some (db.write row, committed)
  | .quoteLocked d row current => some (db, some (.counted d row (db.outcome row current)))
  | .counted d row (some next) => some (db, some (.moved d row next))
  | .counted _ row none => some (db.write row, committed)
  | .moved _ row next => some ((db.write row).setStatus row.entityId next, committed)
  | .unmoved _ row => some (db.write row, committed)
  -- SELECT …, with no lock
  | .cancelling id callerId => some (db,
    match db.approvals.find id with
    | none => failed (.notFound "Approval")
    | some row =>
      match cancelCheck callerId row with
      | .error e => failed e
      | .ok () => some (.cancelChecked id))
  -- UPDATE … WHERE id, whatever the status is by now
  | .cancelChecked id => some (db,
    match db.approvals.find id with
    | none => committed
    | some row => some (.cancelled (row.cancel now)))
  | .cancelled row => some (db.write row, committed)
  | .answered _ => some (db, none)

def takes (db : ApprovalsDb) : Point → List Lock
  | .deciding d => if (d.row db).isSome then [.approval d.id] else []
  | .updated d row =>
    if d.syncs row ∧ (db.quoteStatus row.entityId).isSome then [.quote row.entityId] else []
  | .cancelChecked id => [.approval id]
  | _ => []

def holds : Point → List Lock
  | .locked d _ | .updated d _ | .unmoved d _ => [.approval d.id]
  | .quoteLocked d row _ | .counted d row _ | .moved d row _ =>
    [.approval d.id, .quote row.entityId]
  | .cancelled row => [.approval row.id]
  | _ => []

def handlers : Handlers Operation Unit ApprovalsDb Point Lock :=
  { start := start, advance := advance, takes := takes, holds := holds }

abbrev step := Requests.step handlers

end Mokosh.Approvals
