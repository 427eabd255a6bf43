import Mathlib.Data.List.Infix
import Mokosh.Workflows.Executor

/-! # The conditions of automation rules

`tickets/automation.rs`: the rules of a ticket run their actions one after the other, each rule if its
conditions hold for the ticket.

* The conditions are stored as JSON.  What `serde` cannot read as a list of conditions is no conditions
  (`evaluateConditions`), and no conditions always hold.
* A column that is NULL makes every condition on it false, and a value that is no string is the empty text.

**`conditions_right_iff`** says on which rules, tickets and conditions that is what the conditions mean. -/

namespace Mokosh.Automation

open Workflows (Json)

/-! ### Conditions -/

structure AutomationCondition where
  field : String
  operator : String
  value : Json

structure AutomationRule where
  id : Uuid
  conditions : Json
  actions : Json

structure TicketDataRow where
  companyId : Uuid
  assignedToId : Option Uuid
  source : String
  isBillable : Bool
  statusName : String
  priorityName : String

/-- The derived `Deserialize`, which takes an object, and an array of the fields in their order. -/
def readCondition : Json → Option AutomationCondition
  | .object fields =>
    (Json.getStr fields "field").bind fun field =>
    (Json.getStr fields "operator").bind fun operator =>
    (fields.lookup "value").map fun value => { field := field, operator := operator, value := value }
  | .array [.string field, .string operator, value] => some { field := field, operator := operator, value := value }
  | _ => none

/-- `serde_json::from_value::<Vec<AutomationCondition>>`. -/
def readConditions (conditions : Json) : Option (List AutomationCondition) :=
  conditions.asArray.bind (·.mapM readCondition)

/-- `bool::to_string`. -/
def boolText (b : Bool) : String := if b then "true" else "false"

section

-- `Uuid::to_string`
variable (uuidText : Uuid → String)

def supportedFields : List String :=
  ["status", "priority", "company_id", "assigned_to_id", "source", "is_billable"]

def TicketDataRow.fieldValue (ticket : TicketDataRow) (field : String) : Option String :=
  if field = "status" then some ticket.statusName
  else if field = "priority" then some ticket.priorityName
  else if field = "company_id" then some (uuidText ticket.companyId)
  else if field = "assigned_to_id" then ticket.assignedToId.map uuidText
  else if field = "source" then some ticket.source
  else if field = "is_billable" then some (boolText ticket.isBillable)
  else none

/-- The operator on the text of a field. -/
def compareText (operator value expected : String) : Bool :=
  if operator = "equals" then value = expected
  else if operator = "not_equals" then value ≠ expected
  else if operator = "contains" then expected.toList <:+: value.toList
  else if operator = "starts_with" then expected.toList <+: value.toList
  else if operator = "ends_with" then expected.toList <:+ value.toList
  else if operator = "is_null" then value = ""
  else if operator = "is_not_null" then value ≠ ""
  else false

/-- `condition.value.as_str().unwrap_or("")`. -/
def expectedText (value : Json) : String := value.asStr.getD ""

def evaluateCondition (ticket : TicketDataRow) (condition : AutomationCondition) : Bool :=
  match ticket.fieldValue uuidText condition.field with
  | none => false
  | some value => compareText condition.operator value (expectedText condition.value)

def evaluateConditions (ticket : Option TicketDataRow) (rule : AutomationRule) : Bool :=
  let conditions := (readConditions rule.conditions).getD []
  if conditions.isEmpty then true
  else
    match ticket with
    | none => false
    | some ticket => conditions.all (evaluateCondition uuidText ticket)

/-- The loop of `process_rules`, with what the actions of a rule do.  The first error ends it. -/
def runRules {σ δ : Type} (execute : AutomationRule → σ → AppResult (σ × List δ)) (ticket : Option TicketDataRow) :
    List AutomationRule → σ → AppResult (σ × List δ)
  | [], tx => pure (tx, [])
  | rule :: rules, tx =>
    if evaluateConditions uuidText ticket rule then do
      let (tx, actions) ← execute rule tx
      let (tx, deferred) ← runRules execute ticket rules tx
      pure (tx, actions ++ deferred)
    else runRules execute ticket rules tx

/-! ### What the conditions mean -/

/-- The actions run only if the JSON is a list of conditions that all hold. -/
def FailsClosed (ticket : Option TicketDataRow) (rule : AutomationRule) : Prop :=
  evaluateConditions uuidText ticket rule = true → ∃ conditions, readConditions rule.conditions = some conditions ∧
    ∀ c ∈ conditions, ∃ t, ticket = some t ∧ evaluateCondition uuidText t c = true

/-- The two tests for NULL, and the two for equality, are each other's opposites, and a boolean is its text. -/
structure Complementary (ticket : TicketDataRow) (field : String) (value : Json) : Prop where
  null : evaluateCondition uuidText ticket ⟨field, "is_null", value⟩ =
    !evaluateCondition uuidText ticket ⟨field, "is_not_null", value⟩
  equality : evaluateCondition uuidText ticket ⟨field, "not_equals", value⟩ =
    !evaluateCondition uuidText ticket ⟨field, "equals", value⟩
  boolean : ∀ b, value = .bool b → ∀ operator, evaluateCondition uuidText ticket ⟨field, operator, .bool b⟩ =
    evaluateCondition uuidText ticket ⟨field, operator, .string (boolText b)⟩

/-- The text of a field begins and ends with that of the boolean, and is longer. -/
def Encloses (text : String) (b : Bool) : Prop :=
  (boolText b).toList <+: text.toList ∧ (boolText b).toList <:+ text.toList ∧ text ≠ boolText b

/-! ### Rules -/

variable {uuidText}

variable {ticket : TicketDataRow} {field : String} {value : Json} {text : String} {b : Bool}

theorem failsClosed_iff {ticket : Option TicketDataRow} {rule : AutomationRule} :
    FailsClosed uuidText ticket rule ↔ (readConditions rule.conditions).isSome = true := by
  unfold FailsClosed evaluateConditions
  cases readConditions rule.conditions with
  | none => simp
  | some conditions =>
      refine iff_of_true (fun h => ⟨conditions, rfl, fun c hc => ?_⟩) rfl
      dsimp only [Option.getD_some] at h
      split at h
      · next hempty =>
          rw [List.isEmpty_iff.mp hempty] at hc
          cases hc
      · split at h
        · cases h
        · next t => exact ⟨t, rfl, List.all_eq_true.mp h c hc⟩

/-! ### Operators -/

theorem evaluateCondition_some (h : ticket.fieldValue uuidText field = some text) (operator : String) :
    evaluateCondition uuidText ticket ⟨field, operator, value⟩ = compareText operator text (expectedText value) := by
  unfold evaluateCondition
  rw [h]

theorem evaluateCondition_none (h : ticket.fieldValue uuidText field = none) (operator : String) :
    evaluateCondition uuidText ticket ⟨field, operator, value⟩ = false := by
  unfold evaluateCondition
  rw [h]

/-- Only a ticket that is not assigned has no text for a supported field. -/
theorem fieldValue_isSome_iff (h : field ∈ supportedFields) :
    (ticket.fieldValue uuidText field).isSome = true ↔
      (field = "assigned_to_id" → ticket.assignedToId.isSome = true) := by
  simp only [supportedFields, List.mem_cons, List.not_mem_nil, or_false] at h
  obtain rfl | rfl | rfl | rfl | rfl | rfl := h
  all_goals simp [TicketDataRow.fieldValue]

theorem ne_empty_of_prefix {w : String} (hw : w ≠ "") (h : w.toList <+: text.toList) : text ≠ "" := by
  rintro rfl
  exact hw (String.toList_inj.mp (List.prefix_nil.mp h))

theorem boolText_ne_empty : boolText b ≠ "" := by
  cases b <;> decide

/-- Against the text of a boolean the operators say what they say against the empty text. -/
theorem boolean_iff_encloses :
    (∀ operator, compareText operator text "" = compareText operator text (boolText b)) ↔ Encloses text b := by
  constructor
  · intro h
    have hstarts : decide ([] <+: text.toList) = decide ((boolText b).toList <+: text.toList) := h "starts_with"
    have hends : decide ([] <:+ text.toList) = decide ((boolText b).toList <:+ text.toList) := h "ends_with"
    rw [decide_eq_true List.nil_prefix, eq_comm, decide_eq_true_iff] at hstarts
    rw [decide_eq_true List.nil_suffix, eq_comm, decide_eq_true_iff] at hends
    refine ⟨hstarts, hends, fun heq => ?_⟩
    have hequals : decide (text = "") = decide (text = boolText b) := h "equals"
    rw [decide_eq_true heq] at hequals
    exact ne_empty_of_prefix boolText_ne_empty hstarts (of_decide_eq_true hequals)
  · rintro ⟨hstarts, hends, hne⟩ operator
    have hempty := ne_empty_of_prefix boolText_ne_empty hstarts
    have hinfix := hstarts.isInfix
    unfold compareText
    simp [hstarts, hends, hne, hempty, hinfix]

theorem complementary_iff :
    Complementary uuidText ticket field value ↔
      ∃ text, ticket.fieldValue uuidText field = some text ∧ ∀ b, value = .bool b → Encloses text b := by
  cases hfield : ticket.fieldValue uuidText field with
  | none =>
      refine iff_of_false (fun hc => ?_) (by simp)
      have hnull := hc.null
      rw [evaluateCondition_none hfield, evaluateCondition_none hfield] at hnull
      cases hnull
  | some text =>
      constructor
      · intro hc
        refine ⟨text, rfl, fun b hb => boolean_iff_encloses.mp fun operator => ?_⟩
        have := hc.boolean b hb operator
        rwa [evaluateCondition_some hfield, evaluateCondition_some hfield] at this
      · rintro ⟨text', htext, hb⟩
        cases htext
        refine ⟨?_, ?_, fun b hv operator => ?_⟩
        · rw [evaluateCondition_some hfield, evaluateCondition_some hfield]
          simp [compareText]
        · rw [evaluateCondition_some hfield, evaluateCondition_some hfield]
          simp [compareText]
        · rw [evaluateCondition_some hfield, evaluateCondition_some hfield]
          exact boolean_iff_encloses.mpr (hb b hv) operator

/-- **Automation conditions.**  A rule fails closed and its operators are each other's opposites if and only if its
conditions can be read, the field has a text, and the value is no boolean, or one that the text of the field
encloses. -/
theorem conditions_right_iff (ticket : Option TicketDataRow) (rule : AutomationRule) (t : TicketDataRow)
    (field : String) (value : Json) (h : field ∈ supportedFields) :
    FailsClosed uuidText ticket rule ∧ Complementary uuidText t field value ↔
      (readConditions rule.conditions).isSome = true ∧
        (field = "assigned_to_id" → t.assignedToId.isSome = true) ∧
        ∀ b, value = .bool b → ∀ text, t.fieldValue uuidText field = some text → Encloses text b := by
  have hsome : (t.fieldValue uuidText field).isSome = true ↔ _ := fieldValue_isSome_iff h
  rw [failsClosed_iff, complementary_iff, ← hsome]
  cases t.fieldValue uuidText field with
  | none => simp
  | some text => simp

end

namespace Unassigned

def ticket : TicketDataRow :=
  { companyId := 1
    assignedToId := none
    source := "portal"
    isBillable := true
    statusName := "New"
    priorityName := "Low" }

/-- One condition, but not in a list. -/
def rule : AutomationRule :=
  { id := 1
    conditions := .object [("field", .string "status"), ("operator", .string "equals"), ("value", .string "Closed")]
    actions := .array [] }

/-- The rule runs on a new ticket, nobody is neither assigned nor not assigned, and a billable ticket is not
`true`. -/
theorem runs_unread : evaluateConditions toString (some ticket) rule = true ∧
    ¬FailsClosed toString (some ticket) rule ∧ ¬Complementary toString ticket "assigned_to_id" .null ∧
    evaluateCondition toString ticket ⟨"is_billable", "equals", .bool true⟩ = false := by
  refine ⟨rfl, ?_, fun h => absurd h.null (by decide), by decide⟩
  rw [failsClosed_iff]
  decide

theorem conditions_right_source :
    FailsClosed toString (some ticket) { rule with conditions := .array [rule.conditions] } ∧
      Complementary toString ticket "source" (.string "email") ↔
    (readConditions (.array [rule.conditions])).isSome = true ∧
      ("source" = "assigned_to_id" → ticket.assignedToId.isSome = true) ∧
      ∀ b, Json.string "email" = .bool b → ∀ text, ticket.fieldValue toString "source" = some text → Encloses text b :=
  conditions_right_iff (some ticket) { rule with conditions := .array [rule.conditions] } ticket "source"
    (.string "email") (by decide)

end Unassigned

end Mokosh.Automation
