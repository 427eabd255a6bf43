import Mokosh.Workflows.Executor

/-! # JSON

What the server does with a `serde_json::Value` beside reading its fields: writing it as text and comparing it, and
induction over its elements and members. -/

namespace Mokosh.Workflows.Json

/-- Induction over elements and members. -/
@[elab_as_elim]
theorem induct {motive : Json → Prop} (null : motive .null) (bool : ∀ b, motive (.bool b))
    (number : ∀ t, motive (.number t)) (string : ∀ s, motive (.string s))
    (array : ∀ values, (∀ v ∈ values, motive v) → motive (.array values))
    (object : ∀ fields, (∀ m ∈ fields, motive m.2) → motive (.object fields)) (value : Json) : motive value := by
  refine @Json.rec motive (fun values => ∀ v ∈ values, motive v) (fun fields => ∀ m ∈ fields, motive m.2)
    (fun m => motive m.2) null bool number string array object ?_ ?_ ?_ ?_ ?_ value
  · exact List.forall_mem_nil _
  · exact fun v values hv hvalues => List.forall_mem_cons.mpr ⟨hv, hvalues⟩
  · exact List.forall_mem_nil _
  · exact fun m fields hm hfields => List.forall_mem_cons.mpr ⟨hm, hfields⟩
  · exact fun _ _ hv => hv

/-- A digit of `\\u00xx`. -/
def hexDigit (n : ℕ) : Char := Nat.digitChar (n % 16)

/-- A character of a string as `serde_json` writes it. -/
def escapeChar (c : Char) : List Char :=
  if c = '"' then ['\\', '"']
  else if c = '\\' then ['\\', '\\']
  else if c = '\n' then ['\\', 'n']
  else if c = '\r' then ['\\', 'r']
  else if c = '\t' then ['\\', 't']
  else if c.toNat = 8 then ['\\', 'b']
  else if c.toNat = 12 then ['\\', 'f']
  else if c.toNat < 32 then ['\\', 'u', '0', '0', hexDigit (c.toNat / 16), hexDigit c.toNat]
  else [c]

def quoted (s : String) : List Char := '"' :: (s.toList.flatMap escapeChar ++ ['"'])

mutual

/-- `Value::to_string`: the compact text. -/
def text : Json → List Char
  | .null => "null".toList
  | .bool b => if b then "true".toList else "false".toList
  | .number t => t.toList
  | .string s => quoted s
  | .array values => '[' :: (elementsText values ++ [']'])
  | .object fields => '{' :: (membersText fields ++ ['}'])

def elementsText : List Json → List Char
  | [] => []
  | [v] => text v
  | v :: w :: values => text v ++ ',' :: elementsText (w :: values)

def membersText : List (String × Json) → List Char
  | [] => []
  | [(k, v)] => quoted k ++ ':' :: text v
  | (k, v) :: m :: fields => quoted k ++ ':' :: text v ++ ',' :: membersText (m :: fields)

end

mutual

/-- `==` of two values.  Of the numbers only the two zeros of floating point are equal without being the same. -/
def same : Json → Json → Bool
  | .null, .null => true
  | .bool b, .bool b' => b = b'
  | .number t, .number t' => t = t' || (t = "0.0" || t = "-0.0") && (t' = "0.0" || t' = "-0.0")
  | .string s, .string s' => s = s'
  | .array values, .array values' => sameElements values values'
  | .object fields, .object fields' => sameMembers fields fields'
  | _, _ => false

def sameElements : List Json → List Json → Bool
  | [], [] => true
  | v :: values, v' :: values' => same v v' && sameElements values values'
  | _, _ => false

def sameMembers : List (String × Json) → List (String × Json) → Bool
  | [], [] => true
  | (k, v) :: fields, (k', v') :: fields' => k = k' && same v v' && sameMembers fields fields'
  | _, _ => false

end

/-- `Value::as_bool`. -/
def asBool : Json → Option Bool
  | .bool b => some b
  | .null | .number _ | .string _ | .array _ | .object _ => none

/-- `Value::get` with a key. -/
def get (value : Json) (key : String) : Option Json := value.asObject.bind (·.lookup key)

example : text (.array [.object [("a", .number "1")], .null, .string "x\"y"]) =
    "[\x7b\"a\":1\x7d,null,\"x\\\"y\"]".toList := by decide

end Mokosh.Workflows.Json
