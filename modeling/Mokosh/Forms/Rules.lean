import Mokosh.Forms.Validation

/-! # The rules of a form

`check_rules_against_fields` of `forms/service.rs`, which a form's author meets whenever the fields or the rules are
written, against the validation of a submission.

* **`validateSubmission_refused_rules`**: the rules that it refuses would have been silent.  The one exception is a
  comparison with the empty text, which a blank answer meets although it counts as none. -/

namespace Mokosh.Forms

open Workflows (Json)

structure RuleField where
  name : String
  fieldType : FieldType
  options : Option (List String)
deriving DecidableEq, Repr

def FormField.ruleField (field : FormField) : RuleField :=
  { name := field.name, fieldType := field.fieldType, options := field.options }

def equalsOutsideDomain (condition : RuleField) (equals : String) : Option String :=
  match condition.fieldType with
  | .select => do
    let options ← condition.options
    if equals ∈ options then none
    else
      let listed := ", ".intercalate options
      some s!"`{equals}` is not an option of `{condition.name}` (one of: {listed})"
  | .boolean =>
    if equals ≠ "true" ∧ equals ≠ "false" then
      some s!"`{equals}` is not a value of `{condition.name}` (one of: true, false)"
    else none
  | .text | .textarea | .email | .date | .unknown => none

/-- The errors of the rule at place `i`. -/
def ruleErrors (known : List RuleField) (i : ℕ) : FormRule → List FieldError
  | .unknown => [{ field := s!"rules[{i}].kind", message := "Unknown rule kind", code := "unknown_rule_kind" }]
  | .requiredIf field whenField equals =>
    (if known.any fun f => f.name = field then []
      else [{ field := s!"rules[{i}].field", message := s!"Rule targets unknown field `{field}`",
              code := "unknown_field" }]) ++
    match known.find? fun f => f.name = whenField with
    | none => [{ field := s!"rules[{i}].when_field", message := s!"Rule reads unknown field `{whenField}`",
                 code := "unknown_field" }]
    | some condition =>
      match equalsOutsideDomain condition equals with
      | some message => [{ field := s!"rules[{i}].equals", message, code := "option" }]
      | none => []

def checkRulesAgainstFields (rules : List FormRule) (known : List RuleField) : Except ValidationError Unit :=
  let errors := rules.zipIdx.flatMap fun (rule, i) => ruleErrors known i rule
  if errors = [] then .ok () else .error { message := "one or more fields are invalid", errors }

/-- The rule compares with the empty text. -/
def FormRule.comparesBlank : FormRule → Bool
  | .requiredIf _ _ equals => equals = ""
  | .unknown => false

/-- The rules that count: those that the check takes alone, and the comparisons with the empty text. -/
def rulesThatCount (known : List RuleField) (rules : List FormRule) : List FormRule :=
  rules.filter fun rule => rule.comparesBlank || checkRulesAgainstFields [rule] known = .ok ()

variable {parseDate : String → Option NaiveDate} {today : NaiveDate} {fields : List FormField} {known : List RuleField}
  {rule : FormRule} {rules : List FormRule} {object : Answers} {target whenField equals : String}

/-- The rule has no errors, whatever its place. -/
def FormRule.Stands (known : List RuleField) : FormRule → Prop
  | .unknown => False
  | .requiredIf target whenField equals => (∃ f ∈ known, f.name = target) ∧
      ∃ condition, known.find? (fun f => f.name = whenField) = some condition ∧
        equalsOutsideDomain condition equals = none

theorem ruleErrors_eq_nil {i : ℕ} : ruleErrors known i rule = [] ↔ rule.Stands known := by
  cases rule with
  | unknown => simp [ruleErrors, FormRule.Stands]
  | requiredIf target whenField equals =>
      unfold ruleErrors FormRule.Stands
      rw [List.append_eq_nil_iff]
      refine and_congr (by simp) ?_
      cases known.find? fun f => f.name = whenField with
      | none => simp
      | some condition => cases h : equalsOutsideDomain condition equals <;> simp [h]

theorem checkRulesAgainstFields_eq_ok :
    checkRulesAgainstFields rules known = .ok () ↔ ∀ rule ∈ rules, rule.Stands known := by
  have herrors : (rules.zipIdx.flatMap fun (rule, i) => ruleErrors known i rule) = [] ↔
      ∀ rule ∈ rules, rule.Stands known := by
    rw [List.flatMap_eq_nil_iff]
    simp only [ruleErrors_eq_nil]
    rw [← List.forall_mem_map (f := Prod.fst), List.zipIdx_map_fst]
  rw [← herrors]
  simp only [checkRulesAgainstFields]
  split
  · next h => exact iff_of_true rfl h
  · next h => exact iff_of_false (by simp) h

theorem checkRulesAgainstFields_singleton : checkRulesAgainstFields [rule] known = .ok () ↔ rule.Stands known := by
  rw [checkRulesAgainstFields_eq_ok, List.forall_mem_singleton]

theorem lookup_eq_none_of_unknown {name : String} (hkeys : ∀ key ∈ object.map Prod.fst, ∃ f ∈ fields, f.name = key)
    (h : ∀ f ∈ fields, f.name ≠ name) : object.lookup name = none := by
  cases hvalue : object.lookup name with
  | none => rfl
  | some value =>
      obtain ⟨f, hf, hname⟩ := hkeys name (List.mem_map.mpr ⟨_, SortedMap.mem_of_lookup hvalue, rfl⟩)
      exact absurd hname (h f hf)

/-- An answer that its field takes is in the domain that the field's type and its options set. -/
theorem equalsOutsideDomain_eq_none {condition : FormField} (hblank : equals ≠ "")
    (hanswered : condition.Answered parseDate today rules object)
    (h : conditionMatches (object.lookup condition.name) equals = true) :
    equalsOutsideDomain condition.ruleField equals = none := by
  unfold FormField.Answered at hanswered
  generalize object.lookup condition.name = raw at h hanswered
  cases raw with
  | none => cases h
  | some value =>
    cases value with
    | null | array _ | object _ => cases h
    | number text => exact hanswered.elim
    | bool b =>
        have hboolean : condition.fieldType = .boolean := hanswered
        have hequals : (if b then "true" else "false") = equals := by simpa [conditionMatches] using h
        subst hequals
        cases b <;> simp [equalsOutsideDomain, FormField.ruleField, hboolean]
    | string s =>
        have hequals : trimmed s = equals := by simpa [conditionMatches] using h
        have hpresent : normalisePresent (some (.string s)) = some (.string equals) := by
          simp [normalisePresent, hequals, hblank]
        rw [hpresent] at hanswered
        have htext : condition.TakesText parseDate today equals := hanswered
        unfold FormField.TakesText at htext
        unfold equalsOutsideDomain FormField.ruleField
        cases htype : condition.fieldType with
        | text | textarea | email | date | unknown => rfl
        | boolean =>
            rw [htype] at htext
            exact htext.elim
        | select =>
            rw [htype] at htext
            obtain ⟨permitted, hoptions, hmem⟩ := htext
            simp [hoptions, hmem]

/-- A rule that asks for a field in a submission that is otherwise in order is one that the check takes. -/
theorem stands_of_fires {field : FormField} (hfield : field ∈ fields) (hblank : equals ≠ "")
    (hkeys : ∀ key ∈ object.map Prod.fst, ∃ f ∈ fields, f.name = key)
    (hanswered : ∀ f ∈ fields, f.Answered parseDate today rules object)
    (h : conditionMatches (object.lookup whenField) equals = true) :
    (FormRule.requiredIf field.name whenField equals).Stands (fields.map FormField.ruleField) := by
  refine ⟨⟨field.ruleField, List.mem_map_of_mem hfield, rfl⟩, ?_⟩
  have hfind : (fields.map FormField.ruleField).find? (fun f => f.name = whenField) =
      (fields.find? fun f => f.name = whenField).map FormField.ruleField := by
    rw [List.find?_map]
    rfl
  cases hcondition : fields.find? fun f => f.name = whenField with
  | none =>
      have hnone : object.lookup whenField = none :=
        lookup_eq_none_of_unknown hkeys fun f hf => by simpa using List.find?_eq_none.mp hcondition f hf
      rw [hnone] at h
      cases h
  | some condition =>
      have hname : condition.name = whenField := by simpa using List.find?_some hcondition
      rw [hfind, hcondition]
      refine ⟨condition.ruleField, rfl, ?_⟩
      rw [← hname] at h
      exact equalsOutsideDomain_eq_none hblank (hanswered condition (List.mem_of_find?_eq_some hcondition)) h

/-- The check takes the rules of a form if and only if it takes each of them alone.  Those that it refuses ask for
nothing: without them, comparisons with the empty text apart, the same submissions are taken, and the same answers are
stored. -/
theorem validateSubmission_refused_rules (fields : List FormField) (rules : List FormRule) :
    (checkRulesAgainstFields rules (fields.map FormField.ruleField) = .ok () ↔
      ∀ rule ∈ rules, checkRulesAgainstFields [rule] (fields.map FormField.ruleField) = .ok ()) ∧
    ∀ payload answers, validateSubmission parseDate today fields rules payload = .ok answers ↔
      validateSubmission parseDate today fields (rulesThatCount (fields.map FormField.ruleField) rules) payload =
        .ok answers := by
  constructor
  · simp only [checkRulesAgainstFields_eq_ok, List.forall_mem_singleton]
  · intro payload answers
    cases payload with
    | null | bool _ | number _ | string _ | array _ => exact Iff.rfl
    | object object =>
        rw [validateSubmission_object, validateSubmission_object]
        have hproblems : problems parseDate today fields rules object = [] ↔
            problems parseDate today fields (rulesThatCount (fields.map FormField.ruleField) rules) object = [] := by
          rw [problems_eq_nil_iff, problems_eq_nil_iff]
          refine and_congr_right fun hkeys => ⟨fun h f hf => ?_, fun h f hf => ?_⟩
          · refine (h f hf).mono le_rfl rfl fun hrequired => ?_
            obtain ⟨rule, hrule, hfires⟩ := List.any_eq_true.mp hrequired
            exact List.any_eq_true.mpr ⟨rule, List.mem_of_mem_filter hrule, hfires⟩
          · refine (h f hf).mono le_rfl rfl fun hrequired => ?_
            obtain ⟨rule, hrule, hfires⟩ := List.any_eq_true.mp hrequired
            refine List.any_eq_true.mpr ⟨rule, List.mem_filter.mpr ⟨hrule, ?_⟩, hfires⟩
            cases rule with
            | unknown => cases hfires
            | requiredIf target whenField equals =>
                obtain ⟨htarget, hcondition⟩ := Bool.and_eq_true_iff.mp hfires
                obtain rfl := of_decide_eq_true htarget
                by_cases hblank : equals = ""
                · simp [FormRule.comparesBlank, hblank]
                · have hstands := stands_of_fires hf hblank hkeys h hcondition
                  simp [checkRulesAgainstFields_singleton.mpr hstands]
        by_cases hnil : problems parseDate today fields rules object = []
        · rw [if_pos hnil, if_pos (hproblems.mp hnil)]
        · rw [if_neg hnil, if_neg (mt hproblems.mpr hnil)]
          simp

end Mokosh.Forms
