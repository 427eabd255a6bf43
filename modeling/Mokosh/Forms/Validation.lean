import Mokosh.Lib.SortedMap
import Mokosh.Utils.Sanitize

/-! # Submissions of a form

`forms/validation.rs`: the answers to a form whose fields and rules are rows that a tenant has written.  How `chrono`
reads a date is a parameter.

* **`validateSubmission_spec`**: the answers are taken if and only if every key is a field's, every field that has to be
  answered is, and every answer is one that its field takes; what is stored are the answers, trimmed, and a refusal
  names each key and each field that is wrong.
* **`validateSubmission_again`**: what is stored would be taken again as it is, on any day that is not later. -/

namespace Mokosh.Forms

open Workflows (Json)
open SortedMap (Ascending insertAll)

inductive FieldType where
  | text
  | textarea
  | email
  | date
  | select
  | boolean
  | unknown
deriving DecidableEq, Repr

def FieldType.honoursLength : FieldType → Bool
  | .text | .textarea | .email => true
  | .date | .select | .boolean | .unknown => false

inductive FormRule where
  | requiredIf (field whenField equals : String)
  | unknown
deriving DecidableEq, Repr

/-- What the validation reads of a `FormFieldResponse`. -/
structure FormField where
  name : String
  label : String
  fieldType : FieldType
  isRequired : Bool
  minLength : Option ℤ
  maxLength : Option ℤ
  options : Option (List String)
  dateNotInPast : Bool
deriving DecidableEq, Repr

structure FieldError where
  field : String
  message : String
  code : String
deriving DecidableEq, Repr

/-- `AppError::Validation`. -/
structure ValidationError where
  message : String
  errors : List FieldError
deriving DecidableEq, Repr

/-- A `serde_json::Map`. -/
abbrev Answers := List (String × Json)

/-! ### validate_email -/

def isLocalChar (c : Char) : Bool := c.isAlphanum || c ∈ ['.', '_', '%', '+', '-']

def isDomainChar (c : Char) : Bool := c.isAlphanum || c ∈ ['.', '-']

/-- `^[a-zA-Z0-9._%+-]+@[a-zA-Z0-9.-]+\.[a-zA-Z]{2,}$`.  The last dot is the one before the top level domain, which has
none. -/
def validateEmail (email : String) : Bool :=
  match email.toList.splitOn '@' with
  | [localPart, domain] =>
    let host := domain.rdropWhile (· ≠ '.')
    let topLevel := domain.rtakeWhile (· ≠ '.')
    !localPart.isEmpty && localPart.all isLocalChar && 2 ≤ host.length && host.all isDomainChar &&
      2 ≤ topLevel.length && topLevel.all Char.isAlpha
  | _ => false

/-! ### validate_submission -/

def trimmed (s : String) : String := .ofList (Text.trim s.toList)

/-- An answer that is `null` or blank is none. -/
def normalisePresent : Option Json → Option Json
  | none | some .null => none
  | some (.string s) => if trimmed s = "" then none else some (.string (trimmed s))
  | some other => some other

def conditionMatches (value : Option Json) (equals : String) : Bool :=
  match value with
  | some (.string s) => trimmed s = equals
  | some (.bool b) => (if b then "true" else "false") = equals
  | some (.number text) => text = equals
  | _ => false

def requiredByRule (field : FormField) (rules : List FormRule) (object : Answers) : Bool :=
  rules.any fun
    | .requiredIf target whenField equals => target = field.name && conditionMatches (object.lookup whenField) equals
    | .unknown => false

def FormField.err (field : FormField) (message code : String) : FieldError := { field := field.name, message, code }

def asString (field : FormField) : Json → Except FieldError String
  | .string s => .ok s
  | _ => .error (field.err s!"{field.label} must be text" "type")

def checkLength (field : FormField) (s : String) : Except FieldError Unit :=
  if field.fieldType.honoursLength then
    let len : ℤ := s.length
    match field.minLength.filter (len < ·), field.maxLength.filter (· < len) with
    | some min, _ => .error (field.err s!"{field.label} must be at least {min} characters" "length_min")
    | none, some max => .error (field.err s!"{field.label} must be at most {max} characters" "length_max")
    | none, none => .ok ()
  else .ok ()

section Validation

variable (parseDate : String → Option NaiveDate) (today : NaiveDate)

def validateValue (field : FormField) (value : Json) : Except FieldError Unit :=
  match field.fieldType with
  | .boolean =>
    match value with
    | .bool _ => .ok ()
    | _ => .error (field.err s!"{field.label} must be true or false" "type")
  | .text | .textarea | .email => do
    let s ← asString field value
    checkLength field s
    if field.fieldType = .email && !validateEmail s then
      .error (field.err s!"{field.label} must be a valid email address" "email")
    else .ok ()
  | .unknown => do
    let _ ← asString field value
    .ok ()
  | .date => do
    let s ← asString field value
    match parseDate s with
    | none => .error (field.err s!"{field.label} must be a date in YYYY-MM-DD format" "date_format")
    | some parsed =>
      if field.dateNotInPast && parsed < today then
        .error (field.err s!"{field.label} cannot be in the past" "date_in_past")
      else .ok ()
  | .select => do
    let s ← asString field value
    let permitted := field.options.getD []
    if s ∈ permitted then .ok ()
    else
      let listed := ", ".intercalate permitted
      .error (field.err s!"{field.label} must be one of: {listed}" "option")

/-- One field: another error, another answer, or nothing. -/
def validateField (rules : List FormRule) (object : Answers) (state : List FieldError × Answers) (field : FormField) :
    List FieldError × Answers :=
  match normalisePresent (object.lookup field.name) with
  | none =>
    if field.isRequired || requiredByRule field rules object then
      (state.1 ++ [field.err s!"{field.label} is required" "required"], state.2)
    else state
  | some value =>
    match validateValue parseDate today field value with
    | .ok () => (state.1, SortedMap.insert (field.name, value) state.2)
    | .error e => (state.1 ++ [e], state.2)

def unknownField (key : String) : FieldError :=
  { field := key, message := s!"Unknown field `{key}` for this form", code := "unknown_field" }

def validateSubmission (fields : List FormField) (rules : List FormRule) (payload : Json) :
    Except ValidationError Answers :=
  match payload.asObject with
  | none =>
    .error { message := "one or more fields are invalid"
             errors := [{ field := "payload", message := "must be a JSON object", code := "invalid" }] }
  | some object =>
    let unknown := (object.map Prod.fst).filter fun key => !fields.any fun f => f.name = key
    let (errors, normalised) := fields.foldl (validateField parseDate today rules object) (unknown.map unknownField, [])
    if errors = [] then .ok normalised else .error { message := "one or more fields are invalid", errors }

/-! ### What is taken -/

variable {parseDate : String → Option NaiveDate} {today : NaiveDate}

def FormField.Within (field : FormField) (s : String) : Prop :=
  (∀ min ∈ field.minLength, min ≤ s.length) ∧ ∀ max ∈ field.maxLength, (s.length : ℤ) ≤ max

variable (parseDate today) in
/-- The text is an answer to the field. -/
def FormField.TakesText (field : FormField) (s : String) : Prop :=
  match field.fieldType with
  | .text | .textarea => field.Within s
  | .email => field.Within s ∧ validateEmail s = true
  | .date => ∃ d, parseDate s = some d ∧ (field.dateNotInPast = true → today ≤ d)
  | .select => ∃ permitted, field.options = some permitted ∧ s ∈ permitted
  | .boolean => False
  | .unknown => True

variable (parseDate today) in
def FormField.Takes (field : FormField) : Json → Prop
  | .bool _ => field.fieldType = .boolean
  | .string s => field.TakesText parseDate today s
  | .null | .number _ | .array _ | .object _ => False

variable (parseDate today) in
/-- The field has an answer that it takes, or it has none and needs none. -/
def FormField.Answered (rules : List FormRule) (object : Answers) (field : FormField) : Prop :=
  match normalisePresent (object.lookup field.name) with
  | some value => field.Takes parseDate today value
  | none => field.isRequired = false ∧ requiredByRule field rules object = false

variable {field : FormField} {fields : List FormField} {rules : List FormRule} {object : Answers} {value : Json}

theorem checkLength_eq_ok {s : String} (h : field.fieldType.honoursLength = true) :
    checkLength field s = .ok () ↔ field.Within s := by
  unfold checkLength FormField.Within
  rw [if_pos h]
  cases field.minLength with
  | none =>
      cases field.maxLength with
      | none => simp
      | some max =>
          by_cases hlt : max < s.length
          · simp [Option.filter, hlt]
          · have hle : (s.length : ℤ) ≤ max := by omega
            simp [Option.filter, hlt, hle]
  | some min =>
      by_cases hlt : (s.length : ℤ) < min
      · simp [Option.filter, hlt]
      · have hle : min ≤ s.length := by omega
        cases field.maxLength with
        | none => simp [Option.filter, hlt, hle]
        | some max =>
            by_cases hgt : max < s.length
            · simp [Option.filter, hlt, hgt]
            · have hle' : (s.length : ℤ) ≤ max := by omega
              simp [Option.filter, hlt, hgt, hle, hle']

theorem validateValue_eq_ok :
    validateValue parseDate today field value = .ok () ↔ field.Takes parseDate today value := by
  unfold validateValue FormField.Takes FormField.TakesText
  cases value with
  | bool b => cases field.fieldType <;> simp [asString, bind, Except.bind]
  | null | number _ | array _ | object _ => cases field.fieldType <;> simp [asString, bind, Except.bind]
  | string s =>
      cases htype : field.fieldType with
      | boolean | unknown => simp [asString, bind, Except.bind]
      | text | textarea | email =>
          have hlength : checkLength field s = .ok () ↔ field.Within s := checkLength_eq_ok (by rw [htype]; rfl)
          simp only [asString, bind, Except.bind]
          rw [← hlength]
          cases checkLength field s with
          | error e => simp
          | ok u => simp
      | date =>
          simp only [asString, bind, Except.bind]
          cases parseDate s with
          | none => simp
          | some d => simp
      | select =>
          cases hoptions : field.options <;> simp [asString, bind, Except.bind]

/-- A refusal names the field. -/
def FormField.Names {α : Type} (field : FormField) (r : Except FieldError α) : Prop :=
  ∀ e, r = .error e → e.field = field.name

namespace FormField

theorem names_ok {α : Type} (a : α) : field.Names (.ok a) := fun _ h => nomatch h

theorem names_err {α : Type} (message code : String) : field.Names (.error (field.err message code) : Except _ α) := by
  intro e h
  cases h
  rfl

theorem Names.bind {α β : Type} {x : Except FieldError α} {f : α → Except FieldError β} (hx : field.Names x)
    (hf : ∀ a, field.Names (f a)) : field.Names (x >>= f) := by
  cases x with
  | error e =>
      intro e' h
      cases h
      exact hx e rfl
  | ok a => exact hf a

theorem Names.ite {α : Type} {p : Prop} [Decidable p] {x y : Except FieldError α} (hx : field.Names x)
    (hy : field.Names y) : field.Names (if p then x else y) := by
  split
  · exact hx
  · exact hy

end FormField

theorem names_asString : field.Names (asString field value) := by
  cases value with
  | string s => exact FormField.names_ok s
  | null | bool _ | number _ | array _ | object _ => exact FormField.names_err _ _

theorem names_checkLength (s : String) : field.Names (checkLength field s) := by
  refine FormField.Names.ite ?_ (FormField.names_ok ())
  dsimp only
  split
  · exact FormField.names_err _ _
  · exact FormField.names_err _ _
  · exact FormField.names_ok ()

theorem names_validateValue : field.Names (validateValue parseDate today field value) := by
  unfold validateValue
  cases field.fieldType with
  | boolean =>
      cases value with
      | bool b => exact FormField.names_ok ()
      | null | string _ | number _ | array _ | object _ => exact FormField.names_err _ _
  | text | textarea | email =>
      refine names_asString.bind fun s => (names_checkLength s).bind fun _ => ?_
      exact .ite (FormField.names_err _ _) (FormField.names_ok ())
  | unknown => exact names_asString.bind fun _ => FormField.names_ok ()
  | date =>
      refine names_asString.bind fun s => ?_
      cases parseDate s with
      | none => exact FormField.names_err _ _
      | some d => exact .ite (FormField.names_err _ _) (FormField.names_ok ())
  | select => exact names_asString.bind fun s => .ite (FormField.names_ok ()) (FormField.names_err _ _)

/-! ### Field by field -/

variable (parseDate today) in
/-- What the field adds to the errors. -/
def FormField.problem (rules : List FormRule) (object : Answers) (field : FormField) : Option FieldError :=
  match normalisePresent (object.lookup field.name) with
  | none =>
    if field.isRequired || requiredByRule field rules object then
      some (field.err s!"{field.label} is required" "required")
    else none
  | some value =>
    match validateValue parseDate today field value with
    | .ok () => none
    | .error e => some e

variable (parseDate today) in
/-- What the field adds to the answers. -/
def FormField.answer (object : Answers) (field : FormField) : Option (String × Json) :=
  (normalisePresent (object.lookup field.name)).bind fun value =>
    match validateValue parseDate today field value with
    | .ok () => some (field.name, value)
    | .error _ => none

theorem validateField_eq (state : List FieldError × Answers) : validateField parseDate today rules object state field =
    (state.1 ++ (field.problem parseDate today rules object).toList,
      insertAll state.2 (field.answer parseDate today object).toList) := by
  unfold validateField FormField.problem FormField.answer
  cases normalisePresent (object.lookup field.name) with
  | none =>
      dsimp only
      split <;> simp [insertAll]
  | some value =>
      dsimp only [Option.bind_some]
      cases validateValue parseDate today field value <;> simp [insertAll]

theorem foldl_validateField (state : List FieldError × Answers) :
    fields.foldl (validateField parseDate today rules object) state =
      (state.1 ++ fields.filterMap (FormField.problem parseDate today rules object),
        insertAll state.2 (fields.filterMap (FormField.answer parseDate today object))) := by
  induction fields generalizing state with
  | nil => simp [insertAll]
  | cons field fields ih =>
      rw [List.foldl_cons, ih, validateField_eq]
      simp only [List.filterMap_cons]
      cases field.problem parseDate today rules object <;> cases field.answer parseDate today object <;>
        simp [insertAll]

theorem problem_eq_none_iff :
    field.problem parseDate today rules object = none ↔ field.Answered parseDate today rules object := by
  unfold FormField.problem FormField.Answered
  cases normalisePresent (object.lookup field.name) with
  | none => simp
  | some value =>
      dsimp only
      rw [← validateValue_eq_ok]
      cases validateValue parseDate today field value <;> simp

theorem field_of_problem {e : FieldError} (h : field.problem parseDate today rules object = some e) :
    e.field = field.name := by
  unfold FormField.problem at h
  split at h
  · split at h <;> cases h
    rfl
  · split at h
    · cases h
    · next heq =>
        cases h
        exact names_validateValue _ heq

theorem answer_of_answered (h : field.Answered parseDate today rules object) :
    field.answer parseDate today object = (normalisePresent (object.lookup field.name)).map (field.name, ·) := by
  unfold FormField.Answered at h
  unfold FormField.answer
  cases hvalue : normalisePresent (object.lookup field.name) with
  | none => rfl
  | some value =>
      rw [hvalue] at h
      rw [Option.bind_some, validateValue_eq_ok.mpr h]
      rfl

/-- The keys that no field has. -/
def unknownKeys (fields : List FormField) (object : Answers) : List String :=
  (object.map Prod.fst).filter fun key => !fields.any fun f => f.name = key

theorem mem_unknownKeys {key : String} :
    key ∈ unknownKeys fields object ↔ key ∈ object.map Prod.fst ∧ ∀ f ∈ fields, f.name ≠ key := by
  simp [unknownKeys]

variable (parseDate today) in
def problems (fields : List FormField) (rules : List FormRule) (object : Answers) : List FieldError :=
  (unknownKeys fields object).map unknownField ++ fields.filterMap (FormField.problem parseDate today rules object)

variable (parseDate today) in
def storedAnswers (fields : List FormField) (object : Answers) : Answers :=
  insertAll [] (fields.filterMap (FormField.answer parseDate today object))

theorem validateSubmission_object : validateSubmission parseDate today fields rules (.object object) =
    if problems parseDate today fields rules object = [] then .ok (storedAnswers parseDate today fields object)
    else .error { message := "one or more fields are invalid"
                  errors := problems parseDate today fields rules object } := by
  unfold validateSubmission
  simp only [Json.asObject]
  rw [foldl_validateField]
  rfl

theorem mem_answers (h : ∀ f ∈ fields, f.Answered parseDate today rules object) {m : String × Json} :
    m ∈ fields.filterMap (FormField.answer parseDate today object) ↔
      (∃ f ∈ fields, f.name = m.1) ∧ normalisePresent (object.lookup m.1) = some m.2 := by
  rw [List.mem_filterMap]
  constructor
  · rintro ⟨f, hf, hanswer⟩
    rw [answer_of_answered (h f hf)] at hanswer
    obtain ⟨value, hvalue, rfl⟩ := Option.map_eq_some_iff.mp hanswer
    exact ⟨⟨f, hf, rfl⟩, hvalue⟩
  · rintro ⟨⟨f, hf, hname⟩, hvalue⟩
    refine ⟨f, hf, ?_⟩
    rw [answer_of_answered (h f hf), hname, hvalue]
    rfl

theorem ascending_storedAnswers : Ascending (storedAnswers parseDate today fields object) :=
  SortedMap.ascending_insertAll List.Pairwise.nil _

theorem lookup_storedAnswers (h : ∀ f ∈ fields, f.Answered parseDate today rules object) {name : String} :
    (storedAnswers parseDate today fields object).lookup name = some value ↔
      (∃ f ∈ fields, f.name = name) ∧ normalisePresent (object.lookup name) = some value := by
  have hmem : ∀ m ∈ storedAnswers parseDate today fields object,
      (∃ f ∈ fields, f.name = m.1) ∧ normalisePresent (object.lookup m.1) = some m.2 := fun m hm =>
    (mem_answers h).mp ((SortedMap.mem_of_mem_insertAll hm).resolve_left List.not_mem_nil)
  constructor
  · intro hlookup
    exact hmem _ (SortedMap.mem_of_lookup hlookup)
  · intro hvalue
    have hkey : name ∈ (storedAnswers parseDate today fields object).map Prod.fst := by
      refine SortedMap.mem_keys_insertAll.mpr (.inr (List.mem_map.mpr ⟨(name, value), ?_, rfl⟩))
      exact (mem_answers (m := (name, value)) h).mpr hvalue
    obtain ⟨m, hm, rfl⟩ := List.mem_map.mp hkey
    have hsame : some m.2 = some value := (hmem m hm).2.symm.trans hvalue.2
    rw [← Option.some.inj hsame]
    exact SortedMap.lookup_of_mem ascending_storedAnswers.nodup hm

theorem problems_eq_nil_iff : problems parseDate today fields rules object = [] ↔
    (∀ key ∈ object.map Prod.fst, ∃ f ∈ fields, f.name = key) ∧
      ∀ f ∈ fields, f.Answered parseDate today rules object := by
  unfold problems
  rw [List.append_eq_nil_iff, List.map_eq_nil_iff, List.filterMap_eq_nil_iff, List.eq_nil_iff_forall_not_mem]
  refine and_congr (forall_congr' fun key => ?_) (forall₂_congr fun f _ => problem_eq_none_iff)
  rw [mem_unknownKeys]
  constructor
  · intro h hkey
    by_contra hnone
    exact h ⟨hkey, fun f hf hname => hnone ⟨f, hf, hname⟩⟩
  · rintro h ⟨hkey, hnone⟩
    obtain ⟨f, hf, hname⟩ := h hkey
    exact hnone f hf hname

/-- A submission is taken if and only if it is an object whose keys are all those of fields, and every field has an
answer that it takes or can do without one.  What is stored then are the answers, trimmed, and the blank ones are left
out.  A refusal of an object names the keys and the fields that are wrong, all of them and no others. -/
theorem validateSubmission_spec (fields : List FormField) (rules : List FormRule) (payload : Json) :
    ((∃ answers, validateSubmission parseDate today fields rules payload = .ok answers) ↔
      ∃ object, payload = .object object ∧ (∀ key ∈ object.map Prod.fst, ∃ f ∈ fields, f.name = key) ∧
        ∀ f ∈ fields, f.Answered parseDate today rules object) ∧
    ∀ object, payload = .object object → match validateSubmission parseDate today fields rules payload with
      | .ok answers => Ascending answers ∧ ∀ name value, answers.lookup name = some value ↔
          (∃ f ∈ fields, f.name = name) ∧ normalisePresent (object.lookup name) = some value
      | .error e => ∀ name, name ∈ e.errors.map FieldError.field ↔
          (name ∈ object.map Prod.fst ∧ ∀ f ∈ fields, f.name ≠ name) ∨
            ∃ f ∈ fields, f.name = name ∧ ¬f.Answered parseDate today rules object := by
  constructor
  · cases payload with
    | object object =>
        rw [validateSubmission_object]
        constructor
        · rintro ⟨answers, hanswers⟩
          split at hanswers
          · next hnil => exact ⟨object, rfl, problems_eq_nil_iff.mp hnil⟩
          · cases hanswers
        · rintro ⟨object', heq, h⟩
          cases heq
          rw [if_pos (problems_eq_nil_iff.mpr h)]
          exact ⟨_, rfl⟩
    | null | bool _ | number _ | string _ | array _ => simp [validateSubmission, Json.asObject]
  · rintro object rfl
    rw [validateSubmission_object]
    split
    · next answers hanswers =>
        split at hanswers
        · next hnil =>
            cases hanswers
            refine ⟨ascending_storedAnswers, fun name value => ?_⟩
            exact lookup_storedAnswers (problems_eq_nil_iff.mp hnil).2
        · cases hanswers
    · next e herror =>
        split at herror
        · cases herror
        · cases herror
          intro name
          have hunknown : ((unknownKeys fields object).map unknownField).map FieldError.field =
              unknownKeys fields object := by
            simp [unknownField, Function.comp_def]
          unfold problems
          rw [List.map_append, hunknown, List.mem_append, mem_unknownKeys]
          refine or_congr_right ?_
          rw [List.mem_map]
          constructor
          · rintro ⟨e, he, rfl⟩
            obtain ⟨f, hf, hproblem⟩ := List.mem_filterMap.mp he
            refine ⟨f, hf, (field_of_problem hproblem).symm, fun hanswered => ?_⟩
            rw [problem_eq_none_iff.mpr hanswered] at hproblem
            cases hproblem
          · rintro ⟨f, hf, rfl, hnot⟩
            obtain ⟨e, he⟩ := Option.ne_none_iff_exists'.mp (mt problem_eq_none_iff.mp hnot)
            exact ⟨e, List.mem_filterMap.mpr ⟨f, hf, he⟩, field_of_problem he⟩

/-! ### What is stored, once more -/

theorem trimmed_trimmed (s : String) : trimmed (trimmed s) = trimmed s := by
  have h : Text.trim (Text.trim s.toList) = Text.trim s.toList :=
    Sanitizer.trimMatches_eq_self (fun _ => Sanitizer.head_trimMatches) fun _ => Sanitizer.last_trimMatches
  unfold trimmed
  rw [String.toList_ofList, h]

/-- A value that stands for an answer is one. -/
theorem normalisePresent_eq_self {raw : Option Json} (h : normalisePresent raw = some value) :
    normalisePresent (some value) = some value := by
  unfold normalisePresent at h
  split at h
  · cases h
  · cases h
  · split at h
    · cases h
    · next hblank =>
        cases h
        simp only [normalisePresent]
        rw [trimmed_trimmed, if_neg hblank]
  · next hnull hstring =>
      cases h
      cases value with
      | null => exact absurd rfl hnull
      | string s => exact absurd rfl (hstring s)
      | bool _ | number _ | array _ | object _ => rfl

theorem conditionMatches_of_normalisePresent {raw : Option Json} {equals : String}
    (h : conditionMatches (normalisePresent raw) equals = true) : conditionMatches raw equals = true := by
  cases raw with
  | none => exact h
  | some raw =>
      cases raw with
      | string s =>
          simp only [normalisePresent] at h
          split at h
          · cases h
          · simpa [conditionMatches, trimmed_trimmed] using h
      | null | bool _ | number _ | array _ | object _ => exact h

theorem Takes.mono {today' : NaiveDate} (h : field.Takes parseDate today value) (hle : today' ≤ today) :
    field.Takes parseDate today' value := by
  cases value with
  | string s =>
      simp only [FormField.Takes, FormField.TakesText] at h ⊢
      cases htype : field.fieldType with
      | date =>
          rw [htype] at h
          obtain ⟨d, hd, hpast⟩ := h
          exact ⟨d, hd, fun hp => hle.trans (hpast hp)⟩
      | text | textarea | email | select | boolean | unknown => rwa [htype] at h
  | null | bool _ | number _ | array _ | object _ => exact h

theorem FormField.Answered.mono {rules' : List FormRule} {object' : Answers} {today' : NaiveDate}
    (h : field.Answered parseDate today rules object) (hle : today' ≤ today)
    (hsame : normalisePresent (object'.lookup field.name) = normalisePresent (object.lookup field.name))
    (hrule : requiredByRule field rules' object' = true → requiredByRule field rules object = true) :
    field.Answered parseDate today' rules' object' := by
  unfold FormField.Answered at h ⊢
  rw [hsame]
  cases hvalue : normalisePresent (object.lookup field.name) with
  | some value =>
      rw [hvalue] at h
      exact Takes.mono h hle
  | none =>
      rw [hvalue] at h
      exact ⟨h.1, Bool.eq_false_iff.mpr fun hrequired => Bool.eq_false_iff.mp h.2 (hrule hrequired)⟩

/-- A rule that finds its condition among these answers finds it among those. -/
theorem requiredByRule_of_lookup {object' : Answers} (hlookup : ∀ name, object'.lookup name = none ∨
    object'.lookup name = normalisePresent (object.lookup name)) (h : requiredByRule field rules object' = true) :
    requiredByRule field rules object = true := by
  obtain ⟨rule, hrule, hmatches⟩ := List.any_eq_true.mp h
  refine List.any_eq_true.mpr ⟨rule, hrule, ?_⟩
  cases rule with
  | unknown => exact hmatches
  | requiredIf target whenField equals =>
      obtain ⟨htarget, hcondition⟩ := Bool.and_eq_true_iff.mp hmatches
      refine Bool.and_eq_true_iff.mpr ⟨htarget, ?_⟩
      obtain hnone | hsame := hlookup whenField
      · rw [hnone] at hcondition
        cases hcondition
      · rw [hsame] at hcondition
        exact conditionMatches_of_normalisePresent hcondition

/-- What has been stored would be taken once more, as it is: on the day of the submission and on any before it. -/
theorem validateSubmission_again {fields : List FormField} {rules : List FormRule} {payload : Json} {answers : Answers}
    {today' : NaiveDate} (h : validateSubmission parseDate today fields rules payload = .ok answers)
    (hle : today' ≤ today) : validateSubmission parseDate today' fields rules (.object answers) = .ok answers := by
  obtain ⟨object, rfl⟩ : ∃ object, payload = .object object := by
    cases payload with
    | object object => exact ⟨object, rfl⟩
    | null | bool _ | number _ | string _ | array _ => cases h
  rw [validateSubmission_object] at h
  split at h
  · next hnil =>
    cases h
    obtain ⟨-, hanswered⟩ := problems_eq_nil_iff.mp hnil
    have hlookup : ∀ name, (storedAnswers parseDate today fields object).lookup name = none ∨
        (storedAnswers parseDate today fields object).lookup name = normalisePresent (object.lookup name) := by
      intro name
      cases hstored : (storedAnswers parseDate today fields object).lookup name with
      | none => exact .inl rfl
      | some value => exact .inr ((lookup_storedAnswers hanswered).mp hstored).2.symm
    have hfield : ∀ f ∈ fields, normalisePresent ((storedAnswers parseDate today fields object).lookup f.name) =
        normalisePresent (object.lookup f.name) := by
      intro f hf
      cases hvalue : normalisePresent (object.lookup f.name) with
      | none =>
          obtain hnone | hsame := hlookup f.name
          · rw [hnone]
            rfl
          · rw [hsame, hvalue]
            rfl
      | some value =>
          rw [(lookup_storedAnswers hanswered).mpr ⟨⟨f, hf, rfl⟩, hvalue⟩]
          exact normalisePresent_eq_self hvalue
    have hagain : ∀ f ∈ fields, f.Answered parseDate today' rules (storedAnswers parseDate today fields object) :=
      fun f hf => (hanswered f hf).mono hle (hfield f hf) (requiredByRule_of_lookup hlookup)
    have hknown : ∀ key ∈ (storedAnswers parseDate today fields object).map Prod.fst, ∃ f ∈ fields, f.name = key := by
      intro key hkey
      obtain ⟨m, hm, rfl⟩ := List.mem_map.mp hkey
      exact ((mem_answers hanswered).mp ((SortedMap.mem_of_mem_insertAll hm).resolve_left List.not_mem_nil)).1
    have hsame : fields.filterMap (FormField.answer parseDate today' (storedAnswers parseDate today fields object)) =
        fields.filterMap (FormField.answer parseDate today object) := by
      refine List.filterMap_congr fun f hf => ?_
      rw [answer_of_answered (hagain f hf), answer_of_answered (hanswered f hf), hfield f hf]
    rw [validateSubmission_object, if_pos (problems_eq_nil_iff.mpr ⟨hknown, hagain⟩)]
    simp only [storedAnswers] at hsame ⊢
    rw [hsame]
  · cases h

end Validation

/-- Where the mail of somebody who leaves is to go. -/
def mailboxHandling : FormField where
  name := "mailbox_handling"
  label := "Mailbox handling"
  fieldType := .select
  isRequired := true
  minLength := none
  maxLength := none
  options := some ["delete", "forward"]
  dateNotInPast := false

def forwardTo : FormField where
  name := "forward_to"
  label := "Forward to"
  fieldType := .email
  isRequired := false
  minLength := none
  maxLength := some 254
  options := none
  dateNotInPast := false

def departure : List FormRule := [.requiredIf "forward_to" "mailbox_handling" "forward"]

def august6 : NaiveDate := (NaiveDate.fromYmdOpt 2026 8 6).get (by decide)

def departureAnswers : Answers := [("forward_to", .string "a@b.io"), ("mailbox_handling", .string "forward")]

theorem validateSubmission_departure : validateSubmission (fun _ => none) august6 [mailboxHandling, forwardTo] departure
    (.object [("forward_to", .string " a@b.io "), ("mailbox_handling", .string "forward")]) = .ok departureAnswers :=
  rfl

theorem validateSubmission_again_departure : validateSubmission (fun _ => none) august6 [mailboxHandling, forwardTo]
    departure (.object departureAnswers) = .ok departureAnswers :=
  validateSubmission_again validateSubmission_departure le_rfl

end Mokosh.Forms
