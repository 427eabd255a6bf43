import Mathlib.Data.List.Range
import Mokosh.Lib.FreeNames
import Mokosh.Lib.Placeholders
import Mokosh.Utils.Json

/-! # The compiler of saved reports

`compile` of `saved_reports/compiler.rs`, which makes of the stored `filters`, `columns` and `sort` of a report a
`SELECT` with placeholders and the values that are bound to them.

The crate `uuid` and the lowercase of Unicode are parameters. -/

namespace Mokosh.SavedReports

open Workflows (Json)
open FreeNames (freeNames freeName)

inductive ColumnType where
  | uuid
  | text
  | int
  | bool
  | timestamp
deriving DecidableEq, Repr

structure TicketColumn where
  sql : String
  ty : ColumnType
deriving DecidableEq, Repr

/-- A value that is bound to a placeholder. -/
inductive BindValue where
  | uuid (u : Uuid)
  | uuidList (us : List Uuid)
  | text (s : String)
  | textList (ss : List String)
  | int (i : ℤ)
  | bool (b : Bool)
deriving DecidableEq, Repr

structure CompiledQuery where
  sql : String
  binds : List BindValue
  columns : List String
  aliases : List String
  countSql : String
  countBinds : List BindValue

/-! ### The whitelist -/

def ticketsJoinTree : String :=
  "\n    FROM tickets t\n" ++
  "    INNER JOIN ticket_statuses    ts ON t.status_id     = ts.id\n" ++
  "    INNER JOIN ticket_priorities  tp ON t.priority_id   = tp.id\n" ++
  "    INNER JOIN ticket_queues      tq ON t.queue_id      = tq.id\n" ++
  "    LEFT  JOIN ticket_types       tt ON t.type_id       = tt.id\n" ++
  "    LEFT  JOIN ticket_categories  tc ON t.category_id   = tc.id\n" ++
  "    INNER JOIN companies          co ON t.company_id    = co.id\n" ++
  "    LEFT  JOIN contacts           ct ON t.contact_id    = ct.id\n" ++
  "    LEFT  JOIN users              au ON t.assigned_to_id = au.id\n" ++
  "    LEFT  JOIN assets             a  ON t.asset_id      = a.id\n" ++
  "    LEFT  JOIN users              cu ON t.created_by_id = cu.id\n"

def ticketColumns : List (String × TicketColumn) :=
  [("ticket_number", ⟨"t.ticket_number", .text⟩),
    ("title", ⟨"t.title", .text⟩),
    ("description", ⟨"t.description", .text⟩),
    ("source", ⟨"t.source", .text⟩),
    ("is_billable", ⟨"t.is_billable", .bool⟩),
    ("billing_status", ⟨"t.billing_status", .text⟩),
    ("created_at", ⟨"t.created_at", .timestamp⟩),
    ("updated_at", ⟨"t.updated_at", .timestamp⟩),
    ("closed_at", ⟨"t.closed_at", .timestamp⟩),
    ("status_id", ⟨"t.status_id", .uuid⟩),
    ("priority_id", ⟨"t.priority_id", .uuid⟩),
    ("queue_id", ⟨"t.queue_id", .uuid⟩),
    ("type_id", ⟨"t.type_id", .uuid⟩),
    ("company_id", ⟨"t.company_id", .uuid⟩),
    ("contact_id", ⟨"t.contact_id", .uuid⟩),
    ("assigned_to_id", ⟨"t.assigned_to_id", .uuid⟩),
    ("status_name", ⟨"ts.name", .text⟩),
    ("priority_name", ⟨"tp.name", .text⟩),
    ("queue_name", ⟨"tq.name", .text⟩),
    ("type_name", ⟨"tt.name", .text⟩),
    ("category_name", ⟨"tc.name", .text⟩),
    ("company_name", ⟨"co.name", .text⟩),
    ("contact_name",
      ⟨"NULLIF(TRIM(COALESCE(ct.first_name, '') || ' ' || COALESCE(ct.last_name, '')), '')", .text⟩),
    ("assigned_to_name",
      ⟨"NULLIF(TRIM(COALESCE(au.first_name, '') || ' ' || COALESCE(au.last_name, '')), '')", .text⟩),
    ("asset_name", ⟨"a.name", .text⟩),
    ("created_by_name", ⟨"COALESCE(TRIM(cu.first_name || ' ' || cu.last_name), '')", .text⟩)]

def ticketColumn (key : String) : Option TicketColumn := ticketColumns.lookup key

/-! ### Columns -/

/-- The output names so far and a field: a name that is not among them. -/
def uniqueOutputKey (taken : List String) (field : String) : String :=
  freeName (fun n => s!"{field}_{n}") taken field

def maxHeaderLen : ℕ := 100

def defaultTicketColumns : List (String × String) :=
  ["ticket_number", "title", "status_name", "priority_name", "company_name", "assigned_to_name", "created_at",
    "updated_at"].map fun s => (s, s)

/-- An entry of `columns`. -/
def parseEntry (idx : ℕ) (entry : Json) : AppResult (String × String) :=
  let got := String.ofList entry.text
  match entry with
  | .string s => .ok (s, s)
  | .object o =>
    match Json.getStr o "field" with
    | none => .error (.badRequest s!"columns[{idx}].field is required (got {got})")
    | some field => .ok (field, (Json.getStr o "header").getD field)
  | _ => .error (.badRequest s!"columns[{idx}] must be a string or an object (got {got})")

def parseEntries : ℕ → List Json → AppResult (List (String × String))
  | _, [] => .ok []
  | idx, entry :: entries => do
    let (field, header) ← parseEntry idx entry
    if '"' ∈ header.toList then .error (.badRequest s!"columns[{idx}].header must not contain a double quote")
    else if maxHeaderLen < header.length then
      .error (.badRequest s!"columns[{idx}].header must be at most {maxHeaderLen} characters")
    else do
      let out ← parseEntries (idx + 1) entries
      .ok ((field, header) :: out)

def parseColumns (columns : Json) : AppResult (List (String × String)) :=
  match columns.asArray with
  | none => .error (.badRequest "saved_reports.columns must be a JSON array")
  | some [] => .ok defaultTicketColumns
  | some entries => parseEntries 0 entries

/-- The loop over the columns: the fragments of the `SELECT` and the output names. -/
def selectColumns : List (String × String) → List String → List String → AppResult (List String × List String)
  | [], fragments, outputs => .ok (fragments, outputs)
  | (field, _) :: specs, fragments, outputs =>
    match ticketColumn field with
    | none =>
      .error (.badRequest
        s!"Unsupported column '{field}' for entity 'tickets'. See the saved-report column whitelist.")
    | some col =>
      let key := uniqueOutputKey outputs field
      selectColumns specs (fragments ++ [col.sql ++ " AS \"" ++ key ++ "\""]) (outputs ++ [key])

/-! ### Filters -/

section

variable (parseStr : String → Except String Uuid)

/-- `n.as_i64()`. -/
def asI64 (n : String) : Option ℤ := n.toInt?.filter fun i => -2 ^ 63 ≤ i ∧ i < 2 ^ 63

def coerceBindScalar (field : String) (ty : ColumnType) (value : Json) : AppResult BindValue :=
  match ty, value with
  | .uuid, .string s =>
    match parseStr s with
    | .ok u => .ok (.uuid u)
    | .error e => .error (.badRequest s!"Filter '{field}' expects a UUID; '{s}' is not one ({e})")
  | .text, .string s => .ok (.text s)
  | .int, .number n =>
    match asI64 n with
    | some i => .ok (.int i)
    | none => .error (.badRequest s!"Filter '{field}' must fit in i64")
  | .bool, .bool b => .ok (.bool b)
  | .timestamp, .string s => .ok (.text s)
  | _, _ => .error (.badRequest s!"Filter '{field}' has an unexpected value type for its column")

def coerceUuids (field : String) : List Json → AppResult (List Uuid)
  | [] => .ok []
  | v :: arr =>
    match v.asStr with
    | none => .error (.badRequest s!"Filter '{field}' UUID values must be strings")
    | some s =>
      match parseStr s with
      | .error e => .error (.badRequest s!"Filter '{field}': '{s}' is not a UUID ({e})")
      | .ok u => do
        let out ← coerceUuids field arr
        .ok (u :: out)

def coerceTexts (field : String) : List Json → AppResult (List String)
  | [] => .ok []
  | v :: arr =>
    match v.asStr with
    | none => .error (.badRequest s!"Filter '{field}' values must be strings")
    | some s => do
      let out ← coerceTexts field arr
      .ok (s :: out)

def coerceBindArray (field : String) (ty : ColumnType) (arr : List Json) : AppResult BindValue :=
  match ty with
  | .uuid => do
    let out ← coerceUuids parseStr field arr
    .ok (.uuidList out)
  | .text | .timestamp => do
    let out ← coerceTexts field arr
    .ok (.textList out)
  | .int | .bool =>
    .error (.badRequest s!"Filter '{field}' does not support array values for its column type")

def elementCast : ColumnType → String
  | .uuid => "uuid"
  | .text => "text"
  | .int => "bigint"
  | .bool => "boolean"
  | .timestamp => "timestamptz"

def compileFilter (field : String) (col : TicketColumn) (value : Json) (startBindIdx : ℕ) :
    AppResult (String × List BindValue) :=
  match value.asArray with
  | some [] =>
    .error (.badRequest
      s!"Filter '{field}' is an empty array; remove the key or supply at least one value")
  | some arr => do
    let bind ← coerceBindArray parseStr field col.ty arr
    .ok (s!"{col.sql} = ANY(${startBindIdx}::{elementCast col.ty}[])", [bind])
  | none => do
    let bind ← coerceBindScalar parseStr field col.ty value
    .ok (s!"{col.sql} = ${startBindIdx}", [bind])

/-- The loop over the filters. -/
def compileFilters :
    List (String × Json) → List String → List BindValue → AppResult (List String × List BindValue)
  | [], clauses, binds => .ok (clauses, binds)
  | (field, value) :: filters, clauses, binds =>
    match ticketColumn field with
    | none => .error (.badRequest s!"Unsupported filter field '{field}' for entity 'tickets'.")
    | some col => do
      let (clause, extra) ← compileFilter parseStr field col value (binds.length + 1)
      compileFilters filters (clauses ++ [clause]) (binds ++ extra)

end

/-! ### The order -/

def dirSql (idx : ℕ) : String → AppResult String
  | "asc" => .ok "ASC"
  | "desc" => .ok "DESC"
  | other => .error (.badRequest s!"sort[{idx}].dir must be 'asc' or 'desc' (got '{other}')")

section

variable (toLowercase : String → String)

def sortPart (idx : ℕ) (entry : Json) : AppResult String :=
  match entry.asObject with
  | none => .error (.badRequest s!"sort[{idx}] must be an object \x7bfield, dir\x7d")
  | some obj =>
    match Json.getStr obj "field" with
    | none => .error (.badRequest s!"sort[{idx}].field is required")
    | some field =>
      match ticketColumn field with
      | none => .error (.badRequest s!"sort[{idx}] unsupported field '{field}'")
      | some col => do
        let dirSql ← dirSql idx (toLowercase ((Json.getStr obj "dir").getD "asc"))
        .ok s!"{col.sql} {dirSql}"

def sortParts : ℕ → List Json → AppResult (List String)
  | _, [] => .ok []
  | idx, entry :: entries => do
    let part ← sortPart toLowercase idx entry
    let parts ← sortParts (idx + 1) entries
    .ok (part :: parts)

def parseSort (sort : Json) : AppResult String :=
  match sort.asArray with
  | none | some [] => .ok "ORDER BY t.updated_at DESC"
  | some entries => do
    let parts ← sortParts toLowercase 0 entries
    .ok ("ORDER BY " ++ ", ".intercalate parts)

end

/-! ### compile -/

section

variable (parseStr : String → Except String Uuid) (toLowercase : String → String)

def compileTickets (tenantId : Uuid) (filters columns sort : Json) (paginationLimit paginationOffset : ℕ) :
    AppResult CompiledQuery := do
  let specs ← parseColumns columns
  let (fragments, outputs) ← selectColumns specs [] []
  let (clauses, binds) ←
    compileFilters parseStr (filters.asObject.getD []) ["t.tenant_id = $1"] [.uuid tenantId]
  let whereClause := " AND ".intercalate clauses
  let orderByClause ← parseSort toLowercase sort
  let selectClause := ", ".intercalate fragments
  let limitIdx := binds.length + 1
  let offsetIdx := binds.length + 2
  .ok
    { sql := s!"SELECT {selectClause} {ticketsJoinTree} WHERE {whereClause} {orderByClause} " ++
        s!"LIMIT ${limitIdx} OFFSET ${offsetIdx}"
      binds := binds ++ [.int paginationLimit, .int paginationOffset]
      columns := outputs
      aliases := specs.map Prod.snd
      countSql := s!"SELECT COUNT(*)::bigint {ticketsJoinTree} WHERE {whereClause}"
      countBinds := binds }

def compile (tenantId : Uuid) (entityType : String) (filters columns sort : Json)
    (paginationLimit paginationOffset : ℕ) : AppResult CompiledQuery :=
  match entityType with
  | "tickets" => compileTickets parseStr toLowercase tenantId filters columns sort paginationLimit paginationOffset
  | other =>
    .error (.badRequest s!"Unsupported entity_type='{other}'. Phase 2 only supports 'tickets'.")

end

end Mokosh.SavedReports
