import Mokosh.Contracts.Hours

/-! # Time entries

The rows of `time_entries` and the rules of `time_tracking/service.rs` that decide what goes into
one: whose time it is (`resolveEntryKind`), how many minutes were worked and billed
(`computeMinutes`, `deriveBillableMinutes`), what it costs (`resolveBilling`), whether it can be
invoiced (`resolveBillingStatus`), which contract its hours are drawn from
(`blockHoursContractFor`), and the per-day cap (`enforceDayCap`). -/

namespace Mokosh

/-- Seconds since midnight. -/
abbrev NaiveTime := ℤ

/-- `TimeDelta::num_minutes` of a difference: whole minutes, towards zero. -/
def numMinutes (seconds : ℤ) : ℤ := seconds.tdiv 60

inductive EntryKind where
  | client
  | employee
deriving DecidableEq, Repr

inductive WorkCategory where
  | ticketed
  | project
  | general
deriving DecidableEq, Repr

/-- The `billing_status` column of `time_entries`. -/
inductive BillingStatus where
  | notBilled
  | readyToBill
  | billed
  | prepaid
deriving DecidableEq, Repr

inductive RoundingMethod where
  | up
  | down
  | nearest
deriving DecidableEq, Repr

structure RoundingParams where
  incrementMinutes : ℤ
  minimumMinutes : ℤ
  method : RoundingMethod
deriving DecidableEq, Repr

structure WorkType where
  id : Uuid
  defaultBillable : Option Bool
  defaultRate : Option (Numeric 2)
  isActive : Bool
  sortOrder : ℤ
deriving DecidableEq, Repr

structure Ticket where
  id : Uuid
  companyId : Uuid
deriving DecidableEq, Repr

structure Project where
  id : Uuid
  companyId : Uuid
deriving DecidableEq, Repr

/-- The tenant's master data that logging time and billing read and do not write. -/
structure Directory where
  workTypes : List WorkType
  tickets : List Ticket
  projects : List Project
  companies : List Uuid
  ownCompanyId : Option Uuid
  roundingRule : Option RoundingParams
  maxMinutesPerDay : ℤ
deriving DecidableEq

/-- A row of `time_entries`. -/
structure TimeEntry where
  id : Uuid
  userId : Uuid
  date : NaiveDate
  startTime : Option NaiveTime
  endTime : Option NaiveTime
  durationMinutes : ℤ
  workedMinutes : Option ℤ
  billableMinutes : Option ℤ
  workTypeId : Uuid
  ticketId : Option Uuid
  projectId : Option Uuid
  taskId : Option Uuid
  companyId : Option Uuid
  contractId : Option Uuid
  isBillable : Option Bool
  hourlyRate : Option (Numeric 2)
  totalAmount : Option (Numeric 2)
  entryKind : EntryKind
  workCategory : Option WorkCategory
  billingStatus : BillingStatus
  invoiceId : Option Uuid
  hoursConsumed : Option (Numeric 2)
  hoursBalanceId : Option Uuid
  overageHours : Option (Numeric 2)
  overageRate : Option (Numeric 2)
deriving DecidableEq, Repr

structure ActiveTimer where
  id : Uuid
  userId : Uuid
  ticketId : Option Uuid
  projectId : Option Uuid
  companyId : Option Uuid
  workTypeId : Option Uuid
  /-- Seconds since the epoch. -/
  startedAt : ℤ
deriving DecidableEq, Repr

/-- The body of a create request, as the validator lets it through. -/
structure CreateTimeEntryRequest where
  userId : Uuid
  date : NaiveDate
  startTime : Option NaiveTime := none
  endTime : Option NaiveTime := none
  durationMinutes : Option ℤ := none
  workedMinutes : Option ℤ := none
  billableMinutes : Option ℤ := none
  workTypeId : Uuid
  ticketId : Option Uuid := none
  projectId : Option Uuid := none
  workCategory : Option String := none
  taskId : Option Uuid := none
  entryKind : Option String := none
  companyId : Option Uuid := none
  isBillable : Bool := true
  hourlyRate : Option ℚ := none
  duration_mem : ∀ m ∈ durationMinutes, 1 ≤ m ∧ m ≤ 1440 := by decide
  worked_mem : ∀ m ∈ workedMinutes, 1 ≤ m ∧ m ≤ 1440 := by decide

/-- The body of an update request, as the validator lets it through. -/
structure UpdateTimeEntryRequest where
  date : Option NaiveDate := none
  startTime : Option NaiveTime := none
  endTime : Option NaiveTime := none
  durationMinutes : Option ℤ := none
  workedMinutes : Option ℤ := none
  billableMinutes : Option ℤ := none
  workTypeId : Option Uuid := none
  ticketId : Option Uuid := none
  projectId : Option Uuid := none
  workCategory : Option String := none
  taskId : Option Uuid := none
  isBillable : Option Bool := none
  hourlyRate : Option ℚ := none
  duration_mem : ∀ m ∈ durationMinutes, 1 ≤ m ∧ m ≤ 1440 := by decide
  worked_mem : ∀ m ∈ workedMinutes, 1 ≤ m ∧ m ≤ 1440 := by decide

/-! ### The rules -/

/-- `char::is_whitespace`. -/
def isWhitespace (c : Char) : Bool :=
  (9 ≤ c.toNat && c.toNat ≤ 13) || c.toNat = 0x20 || c.toNat = 0x85 || c.toNat = 0xA0 ||
    c.toNat = 0x1680 || (0x2000 ≤ c.toNat && c.toNat ≤ 0x200A) || c.toNat = 0x2028 ||
    c.toNat = 0x2029 || c.toNat = 0x202F || c.toNat = 0x205F || c.toNat = 0x3000

/-- `str::trim`. -/
def trim (s : String) : String :=
  String.ofList
    ((s.toList.dropWhile isWhitespace).reverse.dropWhile isWhitespace).reverse

/-- The worked minutes of a create request: explicit, then the duration, then start and end. -/
def computeMinutes (request : CreateTimeEntryRequest) : AppResult ℤ :=
  match request.workedMinutes, request.durationMinutes, request.startTime, request.endTime with
  | some m, _, _, _ => .ok m
  | none, some m, _, _ => .ok m
  | none, none, some s, some e =>
    if numMinutes (e - s) < 0 then .error (.badRequest "end_time must be after start_time")
    else .ok (numMinutes (e - s))
  | none, none, _, _ =>
    .error (.badRequest "Either duration_minutes or (start_time, end_time) must be supplied")

structure EntryKindInput where
  requested : Option String
  companyId : Option Uuid
  ownCompanyId : Option Uuid
  ticketId : Option Uuid
  projectId : Option Uuid
  taskId : Option Uuid
  contractId : Option Uuid
  isBillable : Bool

structure ResolvedKind where
  kind : EntryKind
  billable : Bool
deriving DecidableEq

def requestedKind (derived : EntryKind) : Option String → AppResult EntryKind
  | none => .ok derived
  | some requested =>
    let other := trim requested
    if other = "" then .ok derived
    else if other = "client" then .ok .client
    else if other = "employee" then .ok .employee
    else .error (.badRequest ("entry_kind must be one of client, employee (got `" ++ other ++ "`)"))

/-- Decide whether an entry is a client's work or the employee's own, and refuse the
contradictions. -/
def resolveEntryKind (input : EntryKindInput) : AppResult ResolvedKind := do
  let hasClientWork := input.ticketId.isSome || input.projectId.isSome || input.taskId.isSome ||
    input.contractId.isSome
  let derived : EntryKind :=
    if hasClientWork then .client
    else if input.companyId.isNone ||
        (input.ownCompanyId.isSome && input.companyId == input.ownCompanyId) then .employee
    else .client
  let kind ← requestedKind derived input.requested
  if kind = .employee ∧ hasClientWork = true then
    .error (.badRequest "Employee time carries no ticket, project, task or contract; it is the MSP's own time, not a client's")
  else if kind = .client ∧ input.companyId.isNone = true then
    .error (.badRequest "Client work needs a company_id; log it as employee time if it belongs to no client")
  else
    .ok { kind := kind, billable := kind == .client && input.isBillable }

/-- The persisted work category. -/
def deriveWorkCategory (requested : Option String) (ticketId projectId : Option Uuid) :
    AppResult WorkCategory :=
  let derived : WorkCategory :=
    if ticketId.isSome then .ticketed else if projectId.isSome then .project else .general
  match requested.map trim with
  | none => .ok derived
  | some category =>
    if category = "" then .ok derived
    else if category = "ticketed" then
      if ticketId.isNone then
        .error (.badRequest "work_category 'ticketed' requires a ticket_id")
      else .ok .ticketed
    else if category = "project" then .ok .project
    else if category = "general" then .ok .general
    else .error (.badRequest
      ("work_category must be one of ticketed, project, general (got `" ++ category ++ "`)"))

/-- Whether an entry is invoiceable, decided by the entry itself; `billed` is sticky and `prepaid`
is not. -/
def resolveBillingStatus (isBillable : Bool) (current : Option BillingStatus) : BillingStatus :=
  if current = some .billed then .billed
  else if isBillable then .readyToBill
  else .notBilled

/-- Apply a rounding rule to a raw duration: first the minimum, then the increment. -/
def applyRounding (rawMinutes : ℤ) (rule : RoundingParams) : ℤ :=
  let floored := max rawMinutes rule.minimumMinutes
  let inc := rule.incrementMinutes
  if inc ≤ 0 then floored
  else
    let r := floored.tmod inc
    if r = 0 then floored
    else
      let down := floored - r
      match rule.method with
      | .down => down
      | .up => down + inc
      | .nearest => if inc ≤ r * 2 then down + inc else down

def deriveBillableMinutes (workedMinutes : ℤ) (isBillable : Bool)
    (rounding : Option RoundingParams) : ℤ :=
  if !isBillable then 0
  else match rounding with
    | some rule => applyRounding workedMinutes rule
    | none => workedMinutes

structure WorkTypeDefaults where
  defaultRate : Option (Numeric 2)
  defaultBillable : Bool

def fetchWorkTypeDefaults (dir : Directory) (workTypeId : Uuid) : AppResult WorkTypeDefaults :=
  match dir.workTypes.find? fun w => decide (w.id = workTypeId) with
  | some w => .ok { defaultRate := w.defaultRate, defaultBillable := w.defaultBillable.getD true }
  | none => .error (.notFound "Work type")

def assertTicketInTenant (dir : Directory) (ticketId : Option Uuid) : AppResult Unit :=
  match ticketId with
  | none => .ok ()
  | some id =>
    if dir.tickets.any fun t => decide (t.id = id) then .ok () else .error (.notFound "Ticket")

def assertCompanyInTenant (dir : Directory) (companyId : Option Uuid) : AppResult Unit :=
  match companyId with
  | none => .ok ()
  | some id => if id ∈ dir.companies then .ok () else .error (.notFound "Company")

/-- The amount of `minutes` at a rate, exact. -/
def amountOf (rate : ℚ) (minutes : ℤ) : ℚ := rate * minutes / 60

/-- The rate of an entry, explicit before the work type's default, and its total if billable. -/
def resolveBilling (explicitRate : Option ℚ) (isBillable : Bool) (defaults : WorkTypeDefaults)
    (minutes : ℤ) : Option ℚ × Option ℚ :=
  let rate := explicitRate.or (defaults.defaultRate.map Numeric.toRat)
  (rate, if isBillable then rate.map (amountOf · minutes) else none)

/-- The minutes a user has logged on a day, without one entry. -/
def dayMinutesExcluding (entries : Table TimeEntry.id) (userId : Uuid) (date : NaiveDate)
    (exclude : Option Uuid) : ℤ :=
  entries.sum fun e =>
    if e.userId = userId ∧ e.date = date ∧ exclude ≠ some e.id then e.durationMinutes else 0

def enforceDayCap (existing newMinutes capMinutes : ℤ) : AppResult Unit :=
  if capMinutes < existing + newMinutes then
    .error (.badRequest ("Day total would exceed the " ++ toString (capMinutes.tdiv 60) ++
      "h/day cap (" ++ toString capMinutes ++ " minutes); this entry of " ++ toString newMinutes ++
      " minutes leaves " ++ toString (max (capMinutes - existing) 0) ++ " minutes for the day"))
  else .ok ()

/-- The contract covers the date for the company and has a block of hours. -/
def coversWork (book : ContractBook) (companyId : Uuid) (date : NaiveDate) (c : Contract) : Bool :=
  decide (c.companyId = companyId ∧ c.status = .active ∧ c.startDate ≤ date) &&
    c.endDate.all (fun stop => decide (date ≤ stop)) &&
    book.items.rows.any fun i => decide (i.contractId = c.id ∧ i.itemType = .blockHours)

/-- The contract a piece of work draws its hours from: of those that cover it, the one that began
last, then the least id. -/
def blockHoursContractFor (book : ContractBook) (companyId : Option Uuid) (date : NaiveDate)
    (kind : EntryKind) (isBillable : Bool) : Option Uuid :=
  if kind ≠ .client ∨ isBillable = false then none
  else do
    let company ← companyId
    let found ← firstBy
      (fun c d => decide (d.startDate < c.startDate ∨ c.startDate = d.startDate ∧ c.id < d.id))
      (book.contracts.rows.filter (coversWork book company date))
    some found.id

end Mokosh
