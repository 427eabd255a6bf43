import Mokosh.Types

/-! # The workflow executor

`workflows/executor.rs`: the rules of a tenant that run when a ticket is created or moves its status
or priority.  They run inside the transaction that writes the ticket.

* A statement may be refused by the database, and then every later statement of the transaction is
  refused too: there is no savepoint (`Tx.exec`).
* A rule collects the first error of its actions (`Progress`), and the error is written to the row of
  its run.
* An action that moves the status or the priority runs the rules of that move one level deeper
  (`runAtDepth`), up to the cap of the tenant.

The recursion of the source has a fuel argument here, and `none` says that it ran out.  `Tx.log`
keeps what happened in the transaction for the theorems to speak about; nothing reads it. -/

namespace Mokosh.Workflows

/-! ### Rules and the ticket -/

/-- `serde_json::Value`. -/
inductive Json where
  | null
  | bool (b : Bool)
  | number (text : String)
  | string (s : String)
  | array (values : List Json)
  | object (fields : List (String × Json))

namespace Json

def asObject : Json → Option (List (String × Json))
  | .object fields => some fields
  | _ => none

def asArray : Json → Option (List Json)
  | .array values => some values
  | _ => none

def asStr : Json → Option String
  | .string s => some s
  | _ => none

/-- `map.get(key).and_then(|v| v.as_str())`. -/
def getStr (map : List (String × Json)) (key : String) : Option String :=
  (map.lookup key).bind asStr

end Json

inductive Trigger where
  | ticketCreated
  | statusChanged
  | priorityChanged
deriving DecidableEq, Repr

structure Rule where
  id : Uuid
  conditions : Json
  actions : Json

/-- What the executor reads or writes of a ticket.  The tags are NULL for `none`. -/
structure TicketRow where
  id : Uuid
  statusId : Uuid
  priorityId : Uuid
  assignedToId : Option Uuid
  teamId : Option Uuid
  tags : Option (List String)
deriving DecidableEq, Repr

/-- The columns that a transition moves. -/
inductive Moved where
  | status
  | priority
deriving DecidableEq, Repr

namespace Moved

def trigger : Moved → Trigger
  | status => .statusChanged
  | priority => .priorityChanged

def other : Moved → Moved
  | status => priority
  | priority => status

/-- The name of the column, as the keys and the messages have it. -/
def name : Moved → String
  | status => "status"
  | priority => "priority"

end Moved

def TicketRow.held (t : TicketRow) : Moved → Uuid
  | .status => t.statusId
  | .priority => t.priorityId

def TicketRow.move (t : TicketRow) (id : Uuid) : Moved → TicketRow
  | .status => { t with statusId := id }
  | .priority => { t with priorityId := id }

/-- `TicketCreateContext`. -/
structure TicketCreateContext where
  ticketId : Uuid
  priorityId : Uuid
  queueId : Uuid
  companyId : Uuid
  source : String
  typeId : Option Uuid

/-- `TicketStatusChangedContext` and `TicketPriorityChangedContext`: the column that moved, from
where and to where, and the value of the other one. -/
structure TransitionContext where
  moved : Moved
  ticketId : Uuid
  fromId : Uuid
  toId : Uuid
  otherId : Uuid
  queueId : Uuid
  companyId : Uuid
  typeId : Option Uuid
deriving DecidableEq, Repr

/-- The status or the priority as the context has it. -/
def TransitionContext.current (ctx : TransitionContext) (m : Moved) : Uuid :=
  if ctx.moved = m then ctx.toId else ctx.otherId

/-- The context of the move of `m` to `id`, out of another transition. -/
def TransitionContext.nested (ctx : TransitionContext) (m : Moved) (id : Uuid) :
    TransitionContext :=
  { ctx with
    moved := m
    fromId := ctx.current m
    toId := id
    otherId := ctx.current m.other }

/-! ### Conditions -/

section Conditions

variable (parseUuid : String → Except String Uuid)

def uuidInArray (arr : List Json) (needle : Uuid) : Bool :=
  (arr.filterMap fun v => v.asStr.bind fun s => (parseUuid s).toOption).any (· = needle)

/-- AND over the keys, IN over the values of a key.  An empty object matches everything, and what is
not an object of arrays matches nothing. -/
def matchesKeys (conditions : Json) (ok : String → List Json → Bool) : Bool :=
  match conditions.asObject with
  | none => false
  | some map => map.all fun kv =>
      match kv.2.asArray with
      | none => false
      | some arr => ok kv.1 arr

/-- `matches_conditions`. -/
def TicketCreateContext.matchesConditions (ctx : TicketCreateContext) (conditions : Json) : Bool :=
  matchesKeys conditions fun key arr =>
    match key with
    | "priority_id" => uuidInArray parseUuid arr ctx.priorityId
    | "queue_id" => uuidInArray parseUuid arr ctx.queueId
    | "company_id" => uuidInArray parseUuid arr ctx.companyId
    | "type_id" => ctx.typeId.any (uuidInArray parseUuid arr)
    | "source" => arr.any fun v => decide (v.asStr = some ctx.source)
    | _ => false

/-- `matches_status_changed`. -/
def TransitionContext.matchesStatusChanged (ctx : TransitionContext) (conditions : Json) : Bool :=
  matchesKeys conditions fun key arr =>
    match key with
    | "from_status_id" => uuidInArray parseUuid arr ctx.fromId
    | "to_status_id" => uuidInArray parseUuid arr ctx.toId
    | "priority_id" => uuidInArray parseUuid arr ctx.otherId
    | "queue_id" => uuidInArray parseUuid arr ctx.queueId
    | "company_id" => uuidInArray parseUuid arr ctx.companyId
    | "type_id" => ctx.typeId.any (uuidInArray parseUuid arr)
    | _ => false

/-- `matches_priority_changed`. -/
def TransitionContext.matchesPriorityChanged (ctx : TransitionContext) (conditions : Json) : Bool :=
  matchesKeys conditions fun key arr =>
    match key with
    | "from_priority_id" => uuidInArray parseUuid arr ctx.fromId
    | "to_priority_id" => uuidInArray parseUuid arr ctx.toId
    | "status_id" => uuidInArray parseUuid arr ctx.otherId
    | "queue_id" => uuidInArray parseUuid arr ctx.queueId
    | "company_id" => uuidInArray parseUuid arr ctx.companyId
    | "type_id" => ctx.typeId.any (uuidInArray parseUuid arr)
    | _ => false

/-- A transition rule that matches. -/
def TransitionContext.matches (ctx : TransitionContext) (conditions : Json) : Bool :=
  match ctx.moved with
  | .status => ctx.matchesStatusChanged parseUuid conditions
  | .priority => ctx.matchesPriorityChanged parseUuid conditions

end Conditions

/-! ### The transaction -/

/-- A row of `workflow_rule_runs`. -/
structure RunRow where
  ruleId : Uuid
  entityId : Uuid
  appliedActions : Json
  error : Option String

/-- The statements of the executor. -/
inductive Statement where
  | readMaxDepth
  | selectRules (trigger : Trigger)
  | selectCreator
  | assignUser (userId : Uuid)
  | assignTeam (teamId : Uuid)
  | move (id : Uuid) (m : Moved)
  | addTag (tag : String)
  | insertNote (content : String) (createdById : Uuid)
  | insertRun (row : RunRow)

/-- What is recorded of a transaction: the statements with their number, the ticket they found and the
error they met, the rules that were looked at, the transitions that were fired, and the rules that
ended. -/
inductive LogEntry where
  | statement (n depth : ℕ) (s : Statement) (row : TicketRow) (error : Option String)
  | evaluated (depth : ℕ) (ctx : TransitionContext) (rule : Rule) (row : TicketRow) (matched : Bool)
  | fired (ctx : TransitionContext) (row : TicketRow)
  | finished (depth : ℕ) (rule : Rule) (entityId : Uuid) (error : Option String)

/-- The transaction of the caller. -/
structure Tx where
  ticket : TicketRow
  /-- Content and author of the notes. -/
  notes : List (String × Uuid)
  runs : List RunRow
  aborted : Bool
  /-- How many statements were issued. -/
  issued : ℕ
  log : List LogEntry

/-- What the executor reads and never writes, and which statements the database refuses: the `n`-th
statement of the transaction, with the error. -/
structure Env where
  /-- `Uuid::parse_str`. -/
  parseUuid : String → Except String Uuid
  /-- The active rules of a trigger, in the order of `priority, created_at`. -/
  rules : Trigger → List Rule
  /-- The setting `workflows/rule_max_depth`, if it is a natural number. -/
  ruleMaxDepth : Option ℕ
  /-- The oldest active user of the roles that may write notes. -/
  creator : Option Uuid
  refuses : ℕ → Statement → Option String

/-- `array_append`, if the tags are not NULL and do not have the tag. -/
def withTag (tag : String) : Option (List String) → Option (List String)
  | none => none
  | some tags => some (if tag ∈ tags then tags else tags ++ [tag])

/-- What an accepted statement does. -/
def Statement.effect : Statement → Tx → Tx
  | .readMaxDepth, tx | .selectRules _, tx | .selectCreator, tx => tx
  | .assignUser id, tx => { tx with ticket := { tx.ticket with assignedToId := some id } }
  | .assignTeam id, tx => { tx with ticket := { tx.ticket with teamId := some id } }
  | .move id m, tx => { tx with ticket := tx.ticket.move id m }
  | .addTag tag, tx => { tx with ticket := { tx.ticket with tags := withTag tag tx.ticket.tags } }
  | .insertNote content createdById, tx => { tx with notes := tx.notes ++ [(content, createdById)] }
  | .insertRun row, tx => { tx with runs := tx.runs ++ [row] }

/-- The error of every statement after a refused one. -/
def abortedText : String :=
  "current transaction is aborted, commands ignored until end of transaction block"

namespace Tx

/-- The transaction when the executor is called. -/
def start (ticket : TicketRow) (notes : List (String × Uuid)) (runs : List RunRow) (issued : ℕ) : Tx :=
  { ticket := ticket, notes := notes, runs := runs, aborted := false, issued := issued, log := [] }

def record (tx : Tx) (entry : LogEntry) : Tx := { tx with log := tx.log ++ [entry] }

/-- The error that the next statement meets. -/
def refusal (tx : Tx) (env : Env) (s : Statement) : Option String :=
  if tx.aborted then some abortedText else env.refuses tx.issued s

/-- Issue a statement. -/
def exec (tx : Tx) (env : Env) (depth : ℕ) (s : Statement) : Option String × Tx :=
  let tx' := { tx with issued := tx.issued + 1 }.record
    (.statement tx.issued depth s tx.ticket (tx.refusal env s))
  match tx.refusal env s with
  | some e => (some e, { tx' with aborted := true })
  | none => (none, s.effect tx')

end Tx

/-! ### Actions -/

/-- The `Display` of an error. -/
def errorText : AppError → String
  | .unauthorized => "Authentication required"
  | .rateLimited _ => "Rate limit exceeded. Please try again later."
  | .notFound what => what ++ " not found"
  | .forbidden message | .badRequest message | .conflict message => message
  | .configuration message => "Configuration error: " ++ message
  | .validation _ message => "Validation failed: " ++ message
  | .database e => "Database error: Database operation failed: " ++ e
  | .internal message => "Internal error: " ++ message

/-- The transaction of a rule, with the first error of its actions. -/
structure Progress where
  firstError : Option String
  tx : Tx

namespace Progress

/-- `first_error.get_or_insert_with`. -/
def note (p : Progress) (message : String) : Progress :=
  { p with firstError := p.firstError.or (some message) }

/-- Issue a statement of an action, and note its error. -/
def issue (p : Progress) (env : Env) (depth : ℕ) (label : String) (s : Statement) : Progress :=
  match p.tx.exec env depth s with
  | (some e, tx) => { p with tx := tx }.note (label ++ ": " ++ e)
  | (none, tx) => { p with tx := tx }

/-- The result of the actions of a rule. -/
def outcome (p : Progress) : AppResult Unit :=
  match p.firstError with
  | some message => .error (.internal message)
  | none => .ok ()

end Progress

section Actions

variable (env : Env) (depth : ℕ) (map : List (String × Json))

/-- An action whose value is an id: parse it and issue the statement. -/
def applyId (key : String) (s : Uuid → Statement) (p : Progress) : Progress :=
  match Json.getStr map key with
  | none => p
  | some raw =>
    match env.parseUuid raw with
    | .ok id => p.issue env depth (key ++ " failed") (s id)
    | .error e => p.note (key ++ " parse: " ++ e)

def applyAssignUser : Progress → Progress := applyId env depth map "assign_to_user_id" .assignUser

def applyAssignTeam : Progress → Progress := applyId env depth map "assign_to_team_id" .assignTeam

def applySetPriorityNoCascade : Progress → Progress :=
  applyId env depth map "set_priority_id" (.move · .priority)

def applySetStatusNoCascade : Progress → Progress :=
  applyId env depth map "set_status_id" (.move · .status)

def applyAddTag (p : Progress) : Progress :=
  match Json.getStr map "add_tag" with
  | none => p
  | some tag => p.issue env depth "add_tag failed" (.addTag tag)

def applyAddInternalNote (p : Progress) : Progress :=
  match Json.getStr map "add_internal_note" with
  | none => p
  | some content =>
    match p.tx.exec env depth .selectCreator with
    | (some e, tx) => { p with tx := tx }.note ("add_internal_note creator lookup: " ++ e)
    | (none, tx) =>
      match env.creator with
      | none => { p with tx := tx }
      | some creator =>
        { p with tx := tx }.issue env depth "add_internal_note failed" (.insertNote content creator)

/-- What `apply_create_actions` does to a ticket that was just inserted. -/
def createActions (p : Progress) : Progress :=
  p |> applyAssignUser env depth map |> applyAssignTeam env depth map
    |> applySetPriorityNoCascade env depth map |> applySetStatusNoCascade env depth map
    |> applyAddTag env depth map |> applyAddInternalNote env depth map

/-- The actions of a transition rule that fire nothing. -/
def plainActions (p : Progress) : Progress :=
  p |> applyAssignUser env depth map |> applyAssignTeam env depth map
    |> applyAddTag env depth map |> applyAddInternalNote env depth map

/-- The value that `set_status_id` or `set_priority_id` names, if it is another one. -/
def target (ctx : TransitionContext) (m : Moved) : Option Uuid :=
  ((Json.getStr map ("set_" ++ m.name ++ "_id")).bind fun raw =>
    (env.parseUuid raw).toOption).filter (· ≠ ctx.current m)

end Actions

/-- `apply_create_actions`. -/
def applyCreateActions (env : Env) (actions : Json) (tx : Tx) : AppResult Unit × Tx :=
  match actions.asObject with
  | none => (.ok (), tx)
  | some map =>
    let p := createActions env 0 map ⟨none, tx⟩
    (p.outcome, p.tx)

/-- A run of the rules of a transition, at a depth. -/
abbrev Nested := TransitionContext → ℕ → Tx → Option (AppResult Unit × Tx)

/-- The half of `apply_transition_actions` that moves `m` and fires its rules. -/
def cascade (env : Env) (nested : Nested) (ctx : TransitionContext) (depth : ℕ)
    (map : List (String × Json)) (m : Moved) (p : Progress) : Option Progress :=
  match target env map ctx m with
  | none => some p
  | some id =>
    match p.tx.exec env depth (.move id m) with
    | (some e, tx) => some ({ p with tx := tx }.note ("set_" ++ m.name ++ "_id failed: " ++ e))
    | (none, tx) => do
      let (result, tx') ← nested (ctx.nested m id) (depth + 1)
        (tx.record (.fired (ctx.nested m id) p.tx.ticket))
      match result with
      | .ok () => some { p with tx := tx' }
      | .error e => some ({ p with tx := tx' }.note (m.name ++ " cascade: " ++ errorText e))

/-- `apply_transition_actions`. -/
def applyTransitionActions (env : Env) (nested : Nested) (ctx : TransitionContext) (depth : ℕ)
    (actions : Json) (tx : Tx) : Option (AppResult Unit × Tx) :=
  match actions.asObject with
  | none => some (.ok (), tx)
  | some map => do
    let p ← cascade env nested ctx depth map .priority (plainActions env depth map ⟨none, tx⟩)
    let p' ← cascade env nested ctx depth map .status p
    some (p'.outcome, p'.tx)

/-! ### Rules -/

/-- A statement whose error ends the run. -/
def require (tx : Tx) (env : Env) (depth : ℕ) (s : Statement) : AppResult Unit × Tx :=
  match tx.exec env depth s with
  | (some e, tx') => (.error (.database e), tx')
  | (none, tx') => (.ok (), tx')

/-- `insert_run_row`, for a rule that has ended with or without an error. -/
def insertRunRow (env : Env) (depth : ℕ) (rule : Rule) (entityId : Uuid) (error : Option String)
    (tx : Tx) : AppResult Unit × Tx :=
  require (tx.record (.finished depth rule entityId error)) env depth
    (.insertRun ⟨rule.id, entityId, rule.actions, error⟩)

/-- `outcome.err().map(|e| e.to_string())`. -/
def errorMessage : AppResult Unit → Option String
  | .ok () => none
  | .error e => some (errorText e)

/-- A loop over rules that an error ends. -/
def forRules (body : Rule → Tx → Option (AppResult Unit × Tx)) :
    List Rule → Tx → Option (AppResult Unit × Tx)
  | [], tx => some (.ok (), tx)
  | rule :: rules, tx => do
    let (result, tx') ← body rule tx
    match result with
    | .ok () => forRules body rules tx'
    | .error e => some (.error e, tx')

def capText (maxDepth : ℕ) : String := "cycle cap reached at depth " ++ toString maxDepth

/-- One rule of a transition. -/
def runRule (env : Env) (maxDepth : ℕ) (nested : Nested) (ctx : TransitionContext) (depth : ℕ)
    (rule : Rule) (tx : Tx) : Option (AppResult Unit × Tx) :=
  let matched := ctx.matches env.parseUuid rule.conditions
  let tx := tx.record (.evaluated depth ctx rule tx.ticket matched)
  if !matched then some (.ok (), tx)
  else if maxDepth ≤ depth then
    some (insertRunRow env depth rule ctx.ticketId (some (capText maxDepth)) tx)
  else do
    let (outcome, tx') ← applyTransitionActions env nested ctx depth rule.actions tx
    some (insertRunRow env depth rule ctx.ticketId (errorMessage outcome) tx')

/-- `run_status_changed_at_depth` and `run_priority_changed_at_depth`. -/
def runAtDepth (env : Env) (maxDepth : ℕ) : ℕ → Nested
  | 0, _, _, _ => none
  | fuel + 1, ctx, depth, tx =>
    match require tx env depth (.selectRules ctx.moved.trigger) with
    | (.error e, tx') => some (.error e, tx')
    | (.ok (), tx') =>
      forRules (runRule env maxDepth (runAtDepth env maxDepth fuel) ctx depth)
        (env.rules ctx.moved.trigger) tx'

/-- `read_workflow_rule_max_depth`: 3, or what the tenant has set, from 1 to 10. -/
def Env.maxDepth (env : Env) : ℕ :=
  match env.ruleMaxDepth with
  | none => 3
  | some n => min (max n 1) 10

/-- `run_ticket_status_changed` and `run_ticket_priority_changed`, with fuel for one more level than
the cap. -/
def runTransition (env : Env) (ctx : TransitionContext) (tx : Tx) : Option (AppResult Unit × Tx) :=
  match require tx env 0 .readMaxDepth with
  | (.error e, tx') => some (.error e, tx')
  | (.ok (), tx') => runAtDepth env env.maxDepth (env.maxDepth + 1) ctx 0 tx'

/-- One rule of `run_ticket_created`. -/
def runCreatedRule (env : Env) (ctx : TicketCreateContext) (rule : Rule) (tx : Tx) :
    AppResult Unit × Tx :=
  if !ctx.matchesConditions env.parseUuid rule.conditions then (.ok (), tx)
  else
    let (outcome, tx') := applyCreateActions env rule.actions tx
    insertRunRow env 0 rule ctx.ticketId (errorMessage outcome) tx'

/-- `run_ticket_created`. -/
def runTicketCreated (env : Env) (ctx : TicketCreateContext) (tx : Tx) :
    Option (AppResult Unit × Tx) :=
  match require tx env 0 (.selectRules .ticketCreated) with
  | (.error e, tx') => some (.error e, tx')
  | (.ok (), tx') =>
    forRules (fun rule tx => some (runCreatedRule env ctx rule tx)) (env.rules .ticketCreated) tx'

inductive TicketEvent where
  | created (ctx : TicketCreateContext)
  | moved (ctx : TransitionContext)

/-- The run of the rules of an event. -/
def runEvent (env : Env) (tx : Tx) : TicketEvent → Option (AppResult Unit × Tx)
  | .created ctx => runTicketCreated env ctx tx
  | .moved ctx => runTransition env ctx tx

end Mokosh.Workflows
