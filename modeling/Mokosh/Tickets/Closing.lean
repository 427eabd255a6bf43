import Mokosh.Lib.Requests
import Mokosh.Lib.Table
import Mokosh.Workflows.Preserve

/-! # When a ticket was closed

`tickets/service.rs`, `workflows/executor.rs`, `tickets/automation.rs`: the writers of the status of a ticket.
`create_ticket` inserts it and `update_ticket` moves it, the rules of the executor run in their transactions, and the
automation rules in another one after them.  Only `update_ticket` writes the stamps `closed_at` and `resolved_at`, and
it decides on the ticket that it has read before its transaction.

A transaction locks the row with its first `UPDATE`, so that it is one step here, at the instant that it began.

**`closed_says_when`**: a closed ticket has its stamps and its `closed_at` stays, as long as (`ClosesWell`) only
`update_ticket` closes a ticket that has none, and no two of them close the same one.  `closed_unstamped` has runs
without each. -/

namespace Mokosh.Closing

open Requests (Handlers World Event Keeps Rule)
open Workflows (Json TicketRow TransitionContext TicketEvent Env Tx runEvent runEvent_status)

/-- A row of `tickets`. -/
structure Ticket extends TicketRow where
  queueId : Uuid
  companyId : Uuid
  typeId : Option Uuid
  source : String
  isBillable : Bool
  resolvedAt : Option ℕ
  closedAt : Option ℕ
deriving DecidableEq

/-- What no call writes: `ticket_statuses`, the names, and how an id is written. -/
structure Tenant where
  isClosed : Uuid → Option Bool
  statusName : Uuid → String
  priorityName : Uuid → String
  uuidText : Uuid → String

def Tenant.closed (tenant : Tenant) (statusId : Uuid) : Bool := tenant.isClosed statusId = some true

structure CreateTicketRequest where
  priorityId : Option Uuid
  queueId : Option Uuid
  typeId : Option Uuid
  companyId : Uuid
  source : String
  assignedToId : Option Uuid
  teamId : Option Uuid
  isBillable : Bool
  tags : List String
deriving DecidableEq

structure UpdateTicketRequest where
  statusId : Option Uuid
  priorityId : Option Uuid
  typeId : Option (Option Uuid)
  queueId : Option Uuid
  assignedToId : Option Uuid
  teamId : Option (Option Uuid)
  isBillable : Option Bool
  tags : Option (List String)
deriving DecidableEq

namespace UpdateTicketRequest

variable (r : UpdateTicketRequest) (tenant : Tenant) (ticket : Ticket)

/-- The update sets the stamps, with the ticket that it has read. -/
def closes : Bool := r.statusId.any tenant.closed && ticket.closedAt.isNone

/-- The `UPDATE` of the status. -/
def setStatus (began : ℕ) (t : Ticket) : Ticket :=
  match r.statusId with
  | none => t
  | some statusId =>
    if tenant.closed statusId && ticket.closedAt.isNone then
      { t with statusId := statusId, closedAt := some began, resolvedAt := t.resolvedAt <|> some began }
    else { t with statusId := statusId }

/-- The `UPDATE`s of the other columns. -/
def patch (t : Ticket) : Ticket :=
  { t with
    priorityId := r.priorityId.getD t.priorityId
    assignedToId := r.assignedToId <|> t.assignedToId
    queueId := r.queueId.getD t.queueId
    typeId := r.typeId.getD t.typeId
    teamId := r.teamId.getD t.teamId
    isBillable := r.isBillable.getD t.isBillable
    tags := r.tags <|> t.tags }

/-- The transitions whose rules run, with the ticket that it has read. -/
def transitions : List TicketEvent :=
  let context : TransitionContext :=
    { moved := .status, ticketId := ticket.id, fromId := ticket.statusId, toId := r.statusId.getD ticket.statusId,
      otherId := r.priorityId.getD ticket.priorityId, queueId := r.queueId.getD ticket.queueId,
      companyId := ticket.companyId, typeId := r.typeId.getD ticket.typeId }
  let moved := [TicketEvent.moved context].filter fun _ => r.statusId.any (· ≠ ticket.statusId)
  let raised := [TicketEvent.moved
    { context with moved := .priority, fromId := ticket.priorityId, toId := context.otherId, otherId := context.toId }]
  moved ++ raised.filter fun _ => r.priorityId.any (· ≠ ticket.priorityId)

end UpdateTicketRequest

/-- The rules of one event after the other, until one fails. -/
def runEvents (env : Env) : List TicketEvent → Tx → Option (AppResult Unit × Tx)
  | [], tx => some (.ok (), tx)
  | e :: es, tx => do
    let (result, tx') ← runEvent env tx e
    match result with
    | .ok () => runEvents env es tx'
    | .error e => some (.error e, tx')

/-- What a transaction leaves of the ticket when it commits: nothing, if a statement of it was refused. -/
def committed (tx : Tx) (t : Ticket) : Option Ticket :=
  if tx.aborted then none else some { t with toTicketRow := tx.ticket }

/-! ### Automation rules -/

structure AutomationCondition where
  field : String
  operator : String
  value : Json

structure AutomationAction where
  actionType : String
  params : Json

/-- An active rule.  Conditions or actions that cannot be read are none. -/
structure AutomationRule where
  conditions : List AutomationCondition
  actions : List AutomationAction

section Automation

variable (tenant : Tenant) (env : Env)

def AutomationCondition.fieldValue (c : AutomationCondition) (t : Ticket) : Option String :=
  match c.field with
  | "status" => some (tenant.statusName t.statusId)
  | "priority" => some (tenant.priorityName t.priorityId)
  | "company_id" => some (tenant.uuidText t.companyId)
  | "assigned_to_id" => t.assignedToId.map tenant.uuidText
  | "source" => some t.source
  | "is_billable" => some (if t.isBillable then "true" else "false")
  | _ => none

/-- `evaluate_condition`. -/
def AutomationCondition.evaluate (c : AutomationCondition) (t : Ticket) : Bool :=
  match c.fieldValue tenant t with
  | none => false
  | some value =>
    let expected := c.value.asStr.getD ""
    match c.operator with
    | "equals" => value = expected
    | "not_equals" => value ≠ expected
    | "contains" => expected.toList <:+: value.toList
    | "starts_with" => expected.toList <+: value.toList
    | "ends_with" => expected.toList <:+ value.toList
    | "is_null" => value = ""
    | "is_not_null" => value ≠ ""
    | _ => false

/-- `evaluate_conditions`. -/
def AutomationRule.evaluateConditions (rule : AutomationRule) (ticket : Option Ticket) : Bool :=
  rule.conditions.isEmpty || ticket.any fun t => rule.conditions.all (·.evaluate tenant t)

/-- The id that an action names. -/
def AutomationAction.id (a : AutomationAction) (key : String) : Option Uuid :=
  (a.params.asObject.bind (Json.getStr · key)).bind fun raw => (env.parseUuid raw).toOption

/-- The status that an action sets. -/
def AutomationAction.statusSet (a : AutomationAction) : Option Uuid :=
  if a.actionType = "set_status" then a.id env "status_id" else none

/-- `execute_db_actions`, for the actions that write the ticket.  A status that does not exist is refused. -/
def AutomationAction.execute (a : AutomationAction) (t : Ticket) : Option Ticket :=
  match a.actionType with
  | "set_status" =>
    match a.id env "status_id" with
    | some id => if (tenant.isClosed id).isSome then some { t with statusId := id } else none
    | none => some t
  | "set_priority" => some { t with priorityId := (a.id env "priority_id").getD t.priorityId }
  | "assign_to" => some { t with assignedToId := a.id env "user_id" <|> t.assignedToId }
  | "set_queue" => some { t with queueId := (a.id env "queue_id").getD t.queueId }
  | _ => some t

end Automation

/-! ### Calls -/

abbrev TicketsDb := Table fun t : Ticket => t.id

inductive Operation where
  | createTicket (r : CreateTicketRequest)
  | updateTicket (id : Uuid) (r : UpdateTicketRequest)

inductive Point where
  | creating (r : CreateTicketRequest)
  | inserting (r : CreateTicketRequest) (statusId priorityId queueId : Uuid)
  | reading (id : Uuid) (r : UpdateTicketRequest)
  | validating (r : UpdateTicketRequest) (ticket : Ticket)
  | writing (r : UpdateTicketRequest) (ticket : Ticket) (began : ℕ)
  | automating (id : Uuid)
  | acting (id : Uuid) (actions : List AutomationAction)

/-- What a statement finds: whether it goes through, the defaults of the tenant, the rules, and which statements of the
executor are refused. -/
structure Answer where
  ok : Bool
  defaultStatus : Option Uuid
  defaultPriority : Option Uuid
  defaultQueue : Option Uuid
  env : Env
  rules : List AutomationRule

def start : Operation → Point
  | .createTicket r => .creating r
  | .updateTicket id r => .reading id r

/-- The row that is inserted. -/
def CreateTicketRequest.ticket (r : CreateTicketRequest) (statusId priorityId queueId id : Uuid) : Ticket where
  id := id
  statusId := statusId
  priorityId := priorityId
  assignedToId := r.assignedToId
  teamId := r.teamId
  tags := some r.tags
  queueId := queueId
  companyId := r.companyId
  typeId := r.typeId
  source := r.source
  isBillable := r.isBillable
  resolvedAt := none
  closedAt := none

/-- The event of a new ticket. -/
def Ticket.created (t : Ticket) : TicketEvent :=
  .created
    { ticketId := t.id, priorityId := t.priorityId, queueId := t.queueId, companyId := t.companyId, source := t.source,
      typeId := t.typeId }

section Advance

variable (tenant : Tenant)

/-- The row of `update_ticket`, before the rules run. -/
def UpdateTicketRequest.updated (r : UpdateTicketRequest) (ticket : Ticket) (began : ℕ) (t : Ticket) : Ticket :=
  r.patch (r.setStatus tenant ticket began t)

/-- The next step of a call. -/
def advance (now : ℕ) (x : Answer) (db : TicketsDb) : Point → Option (TicketsDb × Option Point)
  | .creating r =>
    match x.defaultStatus, r.priorityId <|> x.defaultPriority, r.queueId <|> x.defaultQueue with
    | some statusId, some priorityId, some queueId =>
      some (db, if x.ok then some (.inserting r statusId priorityId queueId) else none)
    | _, _, _ => some (db, none)
  | .inserting r statusId priorityId queueId =>
    if x.ok then do
      let t := r.ticket statusId priorityId queueId db.next
      let (result, tx) ← runEvent x.env (.start t.toTicketRow [] [] 1) t.created
      match result, committed tx t with
      | .ok (), some t' =>
        some (db.insert fun id => { t' with id := id }, some (.automating db.next))
      | _, _ => some (db, none)
    else some (db, none)
  | .reading id r =>
    match db.find id with
    | some t => some (db, if x.ok then some (.validating r t) else none)
    | none => some (db, none)
  | .validating r ticket => some (db, if x.ok then some (.writing r ticket now) else none)
  | .writing r ticket began =>
    if x.ok && r.statusId.all fun statusId => (tenant.isClosed statusId).isSome then
      match db.find ticket.id with
      | none => some (db, none)
      | some t => do
        let t := r.updated tenant ticket began t
        let (result, tx) ← runEvents x.env (r.transitions ticket) (.start t.toTicketRow [] [] 1)
        match result, committed tx t with
        | .error _, _ => some (db, none)
        | .ok (), none => some (db, some (.automating ticket.id))
        | .ok (), some t' => some (db.update ticket.id fun t => { t' with id := t.id }, some (.automating ticket.id))
    else some (db, none)
  | .automating id =>
    if x.ok then
      let rules := x.rules.filter (·.evaluateConditions tenant (db.find id))
      some (db, if x.rules = [] then none else some (.acting id (rules.flatMap (·.actions))))
    else some (db, none)
  | .acting id actions =>
    match (db.find id).bind fun t => actions.foldlM (fun t a => a.execute tenant x.env t) t with
    | some t' => some (if x.ok then db.update id fun t => { t' with id := t.id } else db, none)
    | none => some (db, none)

def handlers : Handlers Operation Answer TicketsDb Point Empty := .lockless start (advance tenant)

abbrev step := Requests.step (handlers tenant)

end Advance

/-! ### The condition -/

section Condition

variable (tenant : Tenant)

/-- No rule that may run for the event sets a closed status. -/
def Opens (env : Env) (e : TicketEvent) : Prop := ∀ id ∈ env.statusesSet e.triggers, tenant.closed id = false

instance (env : Env) (e : TicketEvent) : Decidable (Opens tenant env e) :=
  inferInstanceAs (Decidable (∀ id ∈ env.statusesSet e.triggers, tenant.closed id = false))

/-- The update closes a ticket that still has no stamp, and the rules close one that has. -/
def UpdateTicketRequest.ClosesWell (r : UpdateTicketRequest) (env : Env) (ticket t : Ticket) : Prop :=
  (r.closes tenant ticket = true → t.closedAt = none) ∧
    (r.closes tenant ticket = true ∨ t.closedAt.isSome = true ∨ ∀ e ∈ r.transitions ticket, Opens tenant env e)

instance (r : UpdateTicketRequest) (env : Env) (ticket t : Ticket) : Decidable (r.ClosesWell tenant env ticket t) :=
  inferInstanceAs (Decidable ((r.closes tenant ticket = true → t.closedAt = none) ∧
    (r.closes tenant ticket = true ∨ t.closedAt.isSome = true ∨ ∀ e ∈ r.transitions ticket, Opens tenant env e)))

/-- The actions close a ticket that has its stamps. -/
def ActWell (env : Env) (actions : List AutomationAction) (t : Ticket) : Prop :=
  t.closedAt.isSome = true ∨ ∀ a ∈ actions, ∀ id ∈ a.statusSet env, tenant.closed id = false

instance (env : Env) (actions : List AutomationAction) (t : Ticket) : Decidable (ActWell tenant env actions t) :=
  inferInstanceAs (Decidable
    (t.closedAt.isSome = true ∨ ∀ a ∈ actions, ∀ id ∈ a.statusSet env, tenant.closed id = false))

/-- A ticket is not created closed. -/
def CreateTicketRequest.ClosesWell (r : CreateTicketRequest) (env : Env) (statusId priorityId queueId id : Uuid) :
    Prop :=
  tenant.closed statusId = false ∧ Opens tenant env (r.ticket statusId priorityId queueId id).created

instance (r : CreateTicketRequest) (env : Env) (statusId priorityId queueId id : Uuid) :
    Decidable (r.ClosesWell tenant env statusId priorityId queueId id) :=
  inferInstanceAs (Decidable (tenant.closed statusId = false ∧
    Opens tenant env (r.ticket statusId priorityId queueId id).created))

def ClosesWellAt (db : TicketsDb) (env : Env) : Point → Prop
  | .inserting r statusId priorityId queueId => r.ClosesWell tenant env statusId priorityId queueId db.next
  | .writing r ticket _ => ∀ t ∈ db.find ticket.id, r.ClosesWell tenant env ticket t
  | .acting id actions => ∀ t ∈ db.find id, ActWell tenant env actions t
  | _ => True

instance (db : TicketsDb) (env : Env) : ∀ p, Decidable (ClosesWellAt tenant db env p)
  | .inserting r statusId priorityId queueId =>
    inferInstanceAs (Decidable (r.ClosesWell tenant env statusId priorityId queueId db.next))
  | .writing r ticket _ => inferInstanceAs (Decidable (∀ t ∈ db.find ticket.id, r.ClosesWell tenant env ticket t))
  | .acting id actions => inferInstanceAs (Decidable (∀ t ∈ db.find id, ActWell tenant env actions t))
  | .creating _ | .reading _ _ | .validating _ _ | .automating _ => isTrue trivial

def ClosesWell (w : World TicketsDb Point) : Event Operation Answer → Prop
  | .step i x => ∀ p ∈ w.requests[i]?, ClosesWellAt tenant w.store x.env p
  | _ => True

instance (w : World TicketsDb Point) : ∀ e, Decidable (ClosesWell tenant w e)
  | .step i x => inferInstanceAs (Decidable (∀ p ∈ w.requests[i]?, ClosesWellAt tenant w.store x.env p))
  | .wait _ | .arrive _ | .crash _ => isTrue trivial

end Condition

/-! ### What the writers do to the stamps -/

variable {tenant : Tenant} {db db' : TicketsDb} {env : Env} {t t' : Ticket} {tx : Tx}

/-- A closed ticket has both stamps, and the one does not come without the other. -/
structure Stamped (tenant : Tenant) (t : Ticket) : Prop where
  closed : tenant.closed t.statusId = true → t.closedAt.isSome = true
  resolved : t.closedAt.isSome = true → t.resolvedAt.isSome = true

/-- The other stamps are as they were, and the status is one of `ids` if it has changed. -/
structure Moved (ids : Uuid → Prop) (t t' : Ticket) : Prop where
  status : t'.statusId = t.statusId ∨ ids t'.statusId
  closedAt : t'.closedAt = t.closedAt
  resolvedAt : t'.resolvedAt = t.resolvedAt

namespace Moved

variable {ids : Uuid → Prop}

theorem trans {t'' : Ticket} (h : Moved ids t t') (h' : Moved ids t' t'') : Moved ids t t'' where
  status := by
    obtain hs | hs := h'.status
    · exact h.status.imp hs.trans fun h => hs ▸ h
    · exact .inr hs
  closedAt := h'.closedAt.trans h.closedAt
  resolvedAt := h'.resolvedAt.trans h.resolvedAt

theorem mono {ids' : Uuid → Prop} (h : Moved ids t t') (hids : ∀ id, ids id → ids' id) : Moved ids' t t' :=
  ⟨h.status.imp_right (hids _), h.closedAt, h.resolvedAt⟩

/-- A ticket that has its stamps, or is not moved to a closed status, keeps what it says. -/
theorem stamped (h : Moved ids t t') (ht : Stamped tenant t)
    (hids : t.closedAt.isSome = true ∨ ∀ id, ids id → tenant.closed id = false) : Stamped tenant t' where
  closed hclosed := by
    rw [h.closedAt]
    obtain hsome | hopen := hids
    · exact hsome
    · obtain hs | hs := h.status
      · exact ht.closed (hs ▸ hclosed)
      · rw [hopen _ hs] at hclosed
        cases hclosed
  resolved hsome := by
    rw [h.closedAt] at hsome
    rw [h.resolvedAt]
    exact ht.resolved hsome

end Moved

theorem runEvents_status {es : List TicketEvent} {r : AppResult Unit × Tx} (h : runEvents env es tx = some r) :
    r.2.ticket.statusId = tx.ticket.statusId ∨ ∃ e ∈ es, r.2.ticket.statusId ∈ env.statusesSet e.triggers := by
  induction es generalizing tx with
  | nil =>
      cases h
      exact .inl rfl
  | cons e es ih =>
      obtain ⟨⟨result, tx'⟩, hr, h⟩ := Option.bind_eq_some_iff.mp h
      have hfirst := runEvent_status hr
      cases result with
      | error err =>
          cases h
          exact hfirst.imp_right fun hm => ⟨e, List.mem_cons_self, hm⟩
      | ok u =>
          obtain hs | ⟨e', he', hm⟩ := ih h
          · rw [hs]
            exact hfirst.imp_right fun hm => ⟨e, List.mem_cons_self, hm⟩
          · exact .inr ⟨e', List.mem_cons_of_mem _ he', hm⟩

theorem committed_moved {ids : Uuid → Prop} (h : committed tx t = some t')
    (hs : tx.ticket.statusId = t.statusId ∨ ids tx.ticket.statusId) : Moved ids t t' := by
  obtain ⟨-, heq⟩ := Option.ite_none_left_eq_some.mp h
  obtain rfl := Option.some.inj heq
  exact ⟨hs, rfl, rfl⟩

theorem execute_moved {a : AutomationAction} (h : a.execute tenant env t = some t') :
    Moved (· ∈ a.statusSet env) t t' := by
  unfold AutomationAction.execute at h
  split at h
  · next htype =>
      split at h
      · next id hid =>
          obtain ⟨-, heq⟩ := Option.ite_none_right_eq_some.mp h
          obtain rfl := Option.some.inj heq
          exact ⟨.inr (by rw [AutomationAction.statusSet, if_pos htype, hid]; rfl), rfl, rfl⟩
      · cases h
        exact ⟨.inl rfl, rfl, rfl⟩
  all_goals
    cases h
    exact ⟨.inl rfl, rfl, rfl⟩

theorem executes_moved {actions : List AutomationAction}
    (h : actions.foldlM (fun t a => a.execute tenant env t) t = some t') :
    Moved (fun id => ∃ a ∈ actions, id ∈ a.statusSet env) t t' := by
  induction actions generalizing t with
  | nil =>
      cases h
      exact ⟨.inl rfl, rfl, rfl⟩
  | cons a actions ih =>
      obtain ⟨t₁, h₁, h⟩ := Option.bind_eq_some_iff.mp h
      refine ((execute_moved h₁).mono fun id hid => ?_).trans ((ih h).mono fun id hid => ?_)
      · exact ⟨a, List.mem_cons_self, hid⟩
      · obtain ⟨a', ha', hid⟩ := hid
        exact ⟨a', List.mem_cons_of_mem _ ha', hid⟩

section Updated

variable {r : UpdateTicketRequest} {ticket : Ticket} {n : ℕ}

/-- An update that closes sets the stamps. -/
theorem updated_of_closes (h : r.closes tenant ticket = true) :
    (r.updated tenant ticket n t).closedAt = some n ∧
      (r.updated tenant ticket n t).resolvedAt = (t.resolvedAt <|> some n) := by
  obtain ⟨hs, hnone⟩ := Bool.and_eq_true_iff.mp h
  obtain ⟨statusId, heq, hclosed⟩ := (Option.any_eq_true _ _).mp hs
  simp [UpdateTicketRequest.updated, UpdateTicketRequest.patch, UpdateTicketRequest.setStatus, heq, hclosed, hnone]

/-- Any other update leaves them alone. -/
theorem updated_of_not_closes (h : r.closes tenant ticket = false) :
    Moved (· ∈ r.statusId) t (r.updated tenant ticket n t) := by
  unfold UpdateTicketRequest.updated UpdateTicketRequest.patch UpdateTicketRequest.setStatus
  cases heq : r.statusId with
  | none => exact ⟨.inl rfl, rfl, rfl⟩
  | some statusId =>
      rw [UpdateTicketRequest.closes, heq, Option.any_some] at h
      simp only [h]
      exact ⟨.inr rfl, rfl, rfl⟩

/-- An update that closes a ticket, or finds it stamped, leaves it stamped. -/
theorem updated_stamped (ht : Stamped tenant t)
    (hread : ticket.closedAt.isSome = true → t.closedAt.isSome = true) :
    Stamped tenant (r.updated tenant ticket n t) := by
  cases h : r.closes tenant ticket with
  | true =>
      obtain ⟨hclosed, hresolved⟩ := updated_of_closes (t := t) (n := n) h
      exact ⟨fun _ => by rw [hclosed]; rfl, fun _ => by rw [hresolved]; cases t.resolvedAt <;> rfl⟩
  | false =>
      refine (updated_of_not_closes h).stamped ht ?_
      by_cases hread' : ticket.closedAt.isSome = true
      · exact .inl (hread hread')
      · refine .inr fun id hid => ?_
        rw [UpdateTicketRequest.closes, Option.mem_def.mp hid, Option.any_some, Option.isSome_eq_false_iff.mp
          (by simpa using hread'), Bool.and_true] at h
        exact h

end Updated

/-! ### Runs -/

/-- A `closed_at` that is set stays. -/
def KeepsClosed (db db' : TicketsDb) : Prop :=
  ∀ id t c, db.find id = some t → t.closedAt = some c → ∃ t', db'.find id = some t' ∧ t'.closedAt = some c

/-- A request that has read a ticket as closed will find it closed. -/
def Stands (db : TicketsDb) : Point → Prop
  | .validating _ ticket | .writing _ ticket _ =>
    ticket.closedAt.isSome = true → ∃ t, db.find ticket.id = some t ∧ t.closedAt.isSome = true
  | _ => True

theorem KeepsClosed.stands {p : Point} (h : KeepsClosed db db') (hp : Stands db p) : Stands db' p := by
  cases p with
  | validating r ticket | writing r ticket _ =>
      intro hread
      obtain ⟨t, ht, hsome⟩ := hp hread
      obtain ⟨c, hc⟩ := Option.isSome_iff_exists.mp hsome
      obtain ⟨t', ht', hc'⟩ := h _ _ _ ht hc
      exact ⟨t', ht', by rw [hc']; rfl⟩
  | _ => trivial

theorem keepsClosed_refl (db : TicketsDb) : KeepsClosed db db := fun _ t _ ht hc => ⟨t, ht, hc⟩

/-- One ticket is written. -/
theorem update_kept {id : Uuid} (hdb : ∀ t ∈ db, Stamped tenant t) (ht : db.find id = some t) (ht' : Stamped tenant t')
    (hc : ∀ c, t.closedAt = some c → t'.closedAt = some c) :
    (∀ u ∈ db.update id fun u => { t' with id := u.id }, Stamped tenant u) ∧
      KeepsClosed db (db.update id fun u => { t' with id := u.id }) := by
  constructor
  · intro u hu
    obtain ⟨u₀, hu₀, rfl⟩ := (Table.mem_update).mp hu
    split
    · exact ⟨ht'.closed, ht'.resolved⟩
    · exact hdb u₀ hu₀
  · intro id' u c hu hclosed
    rw [Table.find_update]
    split
    · next hid =>
        subst hid
        obtain rfl := Option.some.inj (ht.symm.trans hu)
        rw [hu]
        exact ⟨_, rfl, hc c hclosed⟩
    · exact ⟨u, hu, hclosed⟩

/-- A ticket is inserted. -/
theorem insert_kept (hdb : ∀ t ∈ db, Stamped tenant t) (ht : Stamped tenant t) :
    (∀ u ∈ db.insert fun id => { t with id := id }, Stamped tenant u) ∧
      KeepsClosed db (db.insert fun id => { t with id := id }) := by
  constructor
  · intro u hu
    obtain hu | rfl := (Table.mem_insert fun _ => rfl).mp hu
    · exact hdb u hu
    · exact ⟨ht.closed, ht.resolved⟩
  · intro id u c hu hclosed
    exact ⟨u, by rw [Table.find_insert, if_neg (Nat.ne_of_lt (Table.find_lt_next hu)), hu], hclosed⟩

/-- What `update_ticket` commits. -/
theorem updated_kept {r : UpdateTicketRequest} {ticket : Ticket} {began : ℕ} (hdb : ∀ t ∈ db, Stamped tenant t)
    (hp : Stands db (.writing r ticket began)) (ht : db.find ticket.id = some t) (hC : r.ClosesWell tenant env ticket t)
    {result : AppResult Unit × Tx} (hrun : runEvents env (r.transitions ticket)
      (.start (r.updated tenant ticket began t).toTicketRow [] [] 1) = some result)
    (hcommitted : committed result.2 (r.updated tenant ticket began t) = some t') :
    (∀ u ∈ db.update ticket.id fun u => { t' with id := u.id }, Stamped tenant u) ∧
      KeepsClosed db (db.update ticket.id fun u => { t' with id := u.id }) := by
  have hmoved : Moved (fun id => ∃ e ∈ r.transitions ticket, id ∈ env.statusesSet e.triggers)
      (r.updated tenant ticket began t) t' := committed_moved hcommitted (runEvents_status hrun)
  have hread : ticket.closedAt.isSome = true → t.closedAt.isSome = true := by
    intro hsome
    obtain ⟨u, hu, hclosed⟩ := hp hsome
    obtain rfl := Option.some.inj (ht.symm.trans hu)
    exact hclosed
  have hupdated := updated_stamped (r := r) (n := began) (hdb t (Table.find_mem ht)) hread
  have hclosedAt : ∀ c, t.closedAt = some c → (r.updated tenant ticket began t).closedAt = some c := by
    intro c hc
    cases h : r.closes tenant ticket with
    | true =>
        rw [hC.1 h] at hc
        cases hc
    | false => exact (updated_of_not_closes h).closedAt.trans hc
  refine update_kept hdb ht (hmoved.stamped hupdated ?_) fun c hc => hmoved.closedAt.trans (hclosedAt c hc)
  obtain hcloses | hsome | hopens := hC.2
  · refine .inl ?_
    rw [(updated_of_closes hcloses).1]
    rfl
  · obtain ⟨c, hc⟩ := Option.isSome_iff_exists.mp hsome
    refine .inl ?_
    rw [hclosedAt c hc]
    rfl
  · exact .inr fun id ⟨e, he, hid⟩ => hopens e he id hid

variable {p : Point} {q : Option Point} {x : Answer} {now : ℕ}

theorem advance_kept (hdb : ∀ t ∈ db, Stamped tenant t) (hp : Stands db p) (hC : ClosesWellAt tenant db x.env p)
    (ha : advance tenant now x db p = some (db', q)) :
    (∀ t ∈ db', Stamped tenant t) ∧ KeepsClosed db db' ∧ ∀ p' ∈ q, Stands db' p' := by
  have hsame : ∀ {q' : Option Point}, (∀ p' ∈ q', Stands db p') →
      (∀ t ∈ db, Stamped tenant t) ∧ KeepsClosed db db ∧ ∀ p' ∈ q', Stands db p' :=
    fun hq => ⟨hdb, keepsClosed_refl db, hq⟩
  cases p with
  | creating r =>
      simp only [advance] at ha
      split at ha <;> cases ha
      · refine hsame fun p' hp' => ?_
        obtain ⟨-, heq⟩ := Option.ite_none_right_eq_some.mp hp'
        exact Option.some.inj heq ▸ trivial
      · exact hsame fun _ hp' => by cases hp'
  | inserting r statusId priorityId queueId =>
      simp only [advance] at ha
      split at ha
      · obtain ⟨⟨result, tx⟩, hrun, ha⟩ := Option.bind_eq_some_iff.mp ha
        dsimp only at ha
        split at ha
        · next t' hcommitted =>
            cases ha
            have hmoved := committed_moved hcommitted (runEvent_status hrun)
            have hnew : Stamped tenant (r.ticket statusId priorityId queueId db.next) :=
              ⟨fun h => absurd (hC.1.symm.trans h) Bool.false_ne_true, fun h => by cases h⟩
            have hstamped := hmoved.stamped hnew (.inr hC.2)
            obtain ⟨hall, hkeeps⟩ := insert_kept hdb hstamped
            exact ⟨hall, hkeeps, fun p' hp' => Option.some.inj hp' ▸ trivial⟩
        · cases ha
          exact hsame fun _ hp' => by cases hp'
      · cases ha
        exact hsame fun _ hp' => by cases hp'
  | reading id r =>
      simp only [advance] at ha
      split at ha <;> cases ha
      · next t ht =>
          refine hsame fun p' hp' => ?_
          obtain ⟨-, heq⟩ := Option.ite_none_right_eq_some.mp hp'
          refine Option.some.inj heq ▸ fun hsome => ⟨t, ?_, hsome⟩
          rw [Table.key_of_find ht, ht]
      · exact hsame fun _ hp' => by cases hp'
  | validating r ticket =>
      cases ha
      refine hsame fun p' hp' => ?_
      obtain ⟨-, heq⟩ := Option.ite_none_right_eq_some.mp hp'
      exact Option.some.inj heq ▸ hp
  | writing r ticket began =>
      simp only [advance] at ha
      split at ha
      · split at ha
        · cases ha
          exact hsame fun _ hp' => by cases hp'
        · next t ht =>
            obtain ⟨⟨result, tx⟩, hrun, ha⟩ := Option.bind_eq_some_iff.mp ha
            dsimp only at ha
            split at ha
            · cases ha
              exact hsame fun _ hp' => by cases hp'
            · cases ha
              exact hsame fun p' hp' => Option.some.inj hp' ▸ trivial
            · next t' hcommitted =>
                cases ha
                obtain ⟨hall, hkeeps⟩ := updated_kept hdb hp ht (hC t ht) hrun hcommitted
                exact ⟨hall, hkeeps, fun p' hp' => Option.some.inj hp' ▸ trivial⟩
      · cases ha
        exact hsame fun _ hp' => by cases hp'
  | automating id =>
      simp only [advance] at ha
      split at ha <;> cases ha
      · refine hsame fun p' hp' => ?_
        obtain ⟨-, heq⟩ := Option.ite_none_left_eq_some.mp hp'
        exact Option.some.inj heq ▸ trivial
      · exact hsame fun _ hp' => by cases hp'
  | acting id actions =>
      simp only [advance] at ha
      split at ha <;> cases ha
      · next t' hbind =>
          obtain ⟨t, ht, hactions⟩ := Option.bind_eq_some_iff.mp hbind
          have hmoved := executes_moved hactions
          split
          · have hstamped := hmoved.stamped (hdb t (Table.find_mem ht))
              ((hC t ht).imp_right fun h id hset => by
                obtain ⟨a, ha, hid⟩ := hset
                exact h a ha id hid)
            obtain ⟨hall, hkeeps⟩ := update_kept hdb ht hstamped fun c hc => hmoved.closedAt.trans hc
            exact ⟨hall, hkeeps, fun _ hp' => by cases hp'⟩
          · exact hsame fun _ hp' => by cases hp'
      · exact hsame fun _ hp' => by cases hp'

theorem closing_rule (tenant : Tenant) : Rule (handlers tenant) (fun _ db => ∀ t ∈ db, Stamped tenant t)
    (fun _ => Stands) (ClosesWell tenant) where
  locks _ := fun _ _ b => b.elim
  unlocked _ := rfl
  wait hdb _ := ⟨hdb, fun _ hp => hp⟩
  start {w op} _ _ := by
    cases op <;> trivial
  step {w i x p db' q} hw hC hi ha := by
    obtain ⟨hdb, hkeeps, hq⟩ := advance_kept hw.store (hw.requests p (List.mem_of_getElem? hi)) (hC p hi) ha
    exact ⟨hdb, hq, fun p' _ _ hp' => hkeeps.stands hp'⟩

/-- In a run in which only `update_ticket` closes a ticket that has no stamps, one at a time, every closed ticket has
both, and a `closed_at` that was set in between is the same at the end. -/
theorem closed_says_when {tickets : TicketsDb} {n : ℕ} {es₁ es₂ : List (Event Operation Answer)}
    {w₁ w₂ : World TicketsDb Point} (h₀ : ∀ t ∈ tickets, Stamped tenant t)
    (hr₁ : run (step tenant) (World.start n tickets) es₁ = some w₁) (hr₂ : run (step tenant) w₁ es₂ = some w₂)
    (hC : StepsMeet (step tenant) (ClosesWell tenant) (World.start n tickets) (es₁ ++ es₂)) :
    (∀ t ∈ w₂.store, tenant.closed t.statusId = true → t.closedAt.isSome = true ∧ t.resolvedAt.isSome = true) ∧
      ∀ id t c, w₁.store.find id = some t → t.closedAt = some c →
        ∃ t', w₂.store.find id = some t' ∧ t'.closedAt = some c := by
  obtain ⟨hC₁, hC₂⟩ := stepsMeet_append.mp hC
  have hw₁ := (closing_rule tenant).run (Requests.keeps_start h₀) hC₁ hr₁
  have hw₂ := (closing_rule tenant).run hw₁ (hC₂ w₁ hr₁) hr₂
  refine ⟨fun t ht hclosed => ?_, ?_⟩
  · have hstamped := hw₂.store t ht
    exact ⟨hstamped.closed hclosed, hstamped.resolved (hstamped.closed hclosed)⟩
  · refine (closing_rule tenant).relation (R := KeepsClosed) keepsClosed_refl ?_ ?_ hw₁ (hC₂ w₁ hr₁) hr₂
    · intro db db' db'' h h' id t c ht hc
      obtain ⟨t', ht', hc'⟩ := h id t c ht hc
      exact h' id t' c ht' hc'
    · intro w i x p db' q hw hC hi ha
      exact (advance_kept hw.store (hw.requests p (List.mem_of_getElem? hi)) (hC p hi) ha).2.1

/-! ### Tickets that are closed otherwise -/

/-- The status 9 is closed. -/
def oneClosed : Tenant where
  isClosed id := some (id = 9)
  statusName _ := ""
  priorityName _ := ""
  uuidText _ := ""

def parseNine (s : String) : Except String Uuid := if s = "9" then .ok 9 else .error "invalid"

def noRules : Env where
  parseUuid := parseNine
  rules _ := []
  ruleMaxDepth := none
  creator := none
  refuses _ _ := none

/-- Whoever raises a ticket to a new priority closes it. -/
def closingRule : Env :=
  { noRules with
    rules := fun trigger =>
      if trigger = .priorityChanged then
        [{ id := 0, conditions := .object [], actions := .object [("set_status_id", .string "9")] }]
      else [] }

/-- An automation rule that closes every ticket. -/
def closingAutomation : AutomationRule where
  conditions := []
  actions := [{ actionType := "set_status", params := .object [("status_id", .string "9")] }]

def answer : Answer :=
  { ok := true, defaultStatus := some 1, defaultPriority := some 1, defaultQueue := some 1, env := noRules,
    rules := [] }

def openTicket : TicketsDb :=
  (∅ : TicketsDb).insert (fun id =>
    { id := id, statusId := 1, priorityId := 1, assignedToId := none, teamId := none, tags := some [], queueId := 1,
      companyId := 1, typeId := none, source := "portal", isBillable := true, resolvedAt := none, closedAt := none })
    fun _ => rfl

def nothing : UpdateTicketRequest :=
  { statusId := none, priorityId := none, typeId := none, queueId := none, assignedToId := none, teamId := none,
    isBillable := none, tags := none }

/-- The request of index `i` is served, the last two steps being those of the automation. -/
def served (i : ℕ) (x : Answer) : List (Event Operation Answer) := List.replicate 4 (.step i x)

def close : Event Operation Answer := .arrive (.updateTicket 0 { nothing with statusId := some 9 })

def closedOnce : List (Event Operation Answer) := [close] ++ served 0 answer

/-- The ticket is opened, and closed again. -/
def closedAgain : List (Event Operation Answer) :=
  [.wait 5, .arrive (.updateTicket 0 { nothing with statusId := some 1 })] ++ served 0 answer ++ [.wait 5, close] ++
    served 0 answer

theorem closed_says_when_closedAgain : ∃ w₁ w₂, run (step oneClosed) (World.start 3 openTicket) closedOnce = some w₁ ∧
    run (step oneClosed) w₁ closedAgain = some w₂ ∧
      ∃ t, w₂.store.find 0 = some t ∧ t.statusId = 9 ∧ t.closedAt = some 3 ∧ t.resolvedAt.isSome = true := by
  have h₀ : ∀ t ∈ openTicket, Stamped oneClosed t :=
    List.forall_mem_singleton.mpr ⟨by decide, by decide⟩
  have h : (run (step oneClosed) (World.start 3 openTicket) closedOnce).any (fun w₁ =>
      (∃ t ∈ w₁.store.find 0, t.closedAt = some 3) ∧
        (run (step oneClosed) w₁ closedAgain).any fun w₂ => ∃ t ∈ w₂.store.find 0, t.statusId = 9) = true := by
    decide +kernel
  have hC : StepsMeet (step oneClosed) (ClosesWell oneClosed) (World.start 3 openTicket)
      (closedOnce ++ closedAgain) := by
    decide +kernel
  obtain ⟨w₁, hr₁, hw₁⟩ := exists_run_of_any h
  obtain ⟨⟨t₁, ht₁, hclosedAt⟩, hw₁⟩ := of_decide_eq_true hw₁
  obtain ⟨w₂, hr₂, hw₂⟩ := exists_run_of_any hw₁
  obtain ⟨t₂, ht₂, hstatus⟩ := of_decide_eq_true hw₂
  obtain ⟨hstamps, hkeeps⟩ := closed_says_when h₀ hr₁ hr₂ hC
  obtain ⟨t, ht, hclosed⟩ := hkeeps 0 t₁ 3 ht₁ hclosedAt
  obtain rfl := Option.some.inj (ht₂.symm.trans ht)
  refine ⟨w₁, w₂, hr₁, hr₂, t₂, ht, hstatus, hclosed, (hstamps t₂ (Table.find_mem ht) ?_).2⟩
  rw [hstatus]
  rfl

/-- The priority is raised, and a workflow rule closes the ticket. -/
def raised : List (Event Operation Answer) :=
  [.arrive (.updateTicket 0 { nothing with priorityId := some 2 })] ++ served 0 { answer with env := closingRule }

/-- Nothing is updated, and an automation rule closes the ticket. -/
def automated : List (Event Operation Answer) :=
  [.arrive (.updateTicket 0 nothing)] ++ served 0 { answer with rules := [closingAutomation] } ++ [.step 0 answer]

/-- Two updates have read the open ticket, and the first of them closes it. -/
def closedByOne : List (Event Operation Answer) :=
  [close, close, .step 0 answer, .step 0 answer, .wait 5, .step 1 answer, .step 1 answer, .step 0 answer]

theorem closed_unstamped :
    (∃ w ∈ run (step oneClosed) (World.start 3 openTicket) raised,
      ∃ t ∈ w.store.rows, oneClosed.closed t.statusId = true ∧ t.closedAt = none) ∧
    (∃ w ∈ run (step oneClosed) (World.start 3 openTicket) automated,
      ∃ t ∈ w.store.rows, oneClosed.closed t.statusId = true ∧ t.closedAt = none) ∧
    ∃ w₁ ∈ run (step oneClosed) (World.start 3 openTicket) closedByOne,
      ∃ w₂ ∈ run (step oneClosed) w₁ [.step 1 answer],
        (w₁.store.find 0).map (·.closedAt) = some (some 3) ∧ (w₂.store.find 0).map (·.closedAt) = some (some 8) := by
  decide +kernel

end Mokosh.Closing
