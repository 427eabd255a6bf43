import Mokosh.TimeTracking.Entry

/-! # Source records and what they become

What every source of contacts is normalized into (`SourceContact`), the keys by which two people are
compared (`normalize.rs`), and the one mapping of a record onto a contact (`mapping.rs`).

`Runtime` holds the two library functions the sync calls and the server does not contain: the
Unicode lowercase of `str` and the SHA-256 of a text in hexadecimal.  Nothing below depends on what
they compute. -/

namespace Mokosh.ContactSync

structure Runtime where
  /-- `str::to_lowercase`. -/
  toLowercase : String → String
  /-- `format!("{:x}", Sha256::digest(..))`. -/
  sha256 : String → String

/-- The two functions on ASCII texts and on the ids of two records. -/
def asciiRuntime : Runtime where
  toLowercase s := String.ofList (s.toList.map Char.toLower)
  sha256 s :=
    if s = "people/c1" then "e19f83b84715d01f847f701701b1fb0ed40d36da82b361938968d534088a1db1"
    else if s = "people/c2" then "3b4cbd4fef956d73fcab6e40688ec5ba73c8930a51135a9ce0265499d1ec1ed8"
    else ""

/-! ### Texts -/

/-- Drop characters at both ends. -/
def trimMatches (p : Char → Bool) (s : List Char) : List Char :=
  ((s.dropWhile p).reverse.dropWhile p).reverse

/-- A character that renders as nothing and carries no meaning. -/
def isRemoved (c : Char) : Bool :=
  c.toNat = 0xAD || c.toNat = 0x200B || c.toNat = 0x200E || c.toNat = 0x200F ||
    (0x202A ≤ c.toNat && c.toNat ≤ 0x202E) || (0x2060 ≤ c.toNat && c.toNat ≤ 0x2064) ||
    (0x2066 ≤ c.toNat && c.toNat ≤ 0x2069) || c.toNat = 0xFEFF

/-- Whitespace outside ASCII. -/
def isExoticSpace (c : Char) : Bool := 128 ≤ c.toNat && isWhitespace c

def isEdgeTrim (c : Char) : Bool := isWhitespace c || c.toNat = 0x200C || c.toNat = 0x200D

/-- `sanitize_invisible`: what renders as nothing goes, exotic spaces become plain ones, and the
edges are trimmed. -/
def sanitizeInvisible (value : String) : String :=
  String.ofList (trimMatches isEdgeTrim ((value.toList.filter fun c => !isRemoved c).map fun c =>
    if isExoticSpace c then ' ' else c))

/-- `str::split_whitespace`; `word` is the word that is being read, last character first. -/
def splitWhitespace : List Char → List Char → List (List Char)
  | word, [] => if word = [] then [] else [word.reverse]
  | word, c :: cs =>
    if isWhitespace c then
      if word = [] then splitWhitespace [] cs else word.reverse :: splitWhitespace [] cs
    else splitWhitespace (c :: word) cs

/-! ### Match keys -/

/-- The comparison key of an email address. -/
def emailKey (rt : Runtime) (raw : String) : Option String :=
  let trimmed := (rt.toLowercase (trim raw)).toList
  let localPart := trimmed.takeWhile (· ≠ '@')
  let domain := (trimmed.dropWhile (· ≠ '@')).drop 1
  if '@' ∉ trimmed ∨ localPart = [] ∨ domain = [] ∨ '@' ∈ domain then none
  else
    let plain := localPart.takeWhile (· ≠ '+')
    if plain = [] then none else some (String.ofList (plain ++ '@' :: domain))

/-- The comparison key of a phone number: fewer than seven digits have none. -/
def phoneKey (raw : String) : Option String :=
  let trimmed := (trim raw).toList
  let doubleZero := ['0', '0'].isPrefixOf trimmed
  let international := ['+'].isPrefixOf trimmed || doubleZero
  let digits := trimmed.filter Char.isDigit
  let digits := if doubleZero && ['0', '0'].isPrefixOf digits then digits.drop 2 else digits
  if digits.length < 7 then none
  else some (String.ofList (if international then '+' :: digits else digits))

/-- The comparison key of a person's or a company's name. -/
def nameKey (rt : Runtime) (raw : String) : Option String :=
  let key := rt.toLowercase
    (String.ofList ([' '].intercalate (splitWhitespace [] raw.toList)))
  if key = "" then none else some key

/-- How a removed record is recognised without being named. -/
def externalIdDigest (rt : Runtime) (externalId : String) : String := rt.sha256 externalId

/-! ### Records -/

structure SourcePhone where
  number : String
  canonical : Option String
  label : Option String
  isPrimary : Bool
deriving DecidableEq, Repr

structure SourceContact where
  externalId : String
  etag : Option String := none
  displayName : Option String := none
  givenName : Option String := none
  familyName : Option String := none
  /-- The addresses, the primary one first. -/
  emails : List String := []
  phones : List SourcePhone := []
  organization : Option String := none
  title : Option String := none
  department : Option String := none
  groupIds : List String := []
  note : Option String := none
  deleted : Bool := false
deriving DecidableEq, Repr

structure SourceGroup where
  id : String
  name : String
deriving DecidableEq, Repr

/-- The group a source may offer for records that carry none; it is never stored as a tag. -/
def ungroupedId : String := "mokosh:ungrouped"

/-! ### The mapping -/

inductive PhoneType where
  | mobile
  | work
  | home
  | fax
  | other
deriving DecidableEq, Repr

namespace PhoneType

def asStr : PhoneType → String
  | mobile => "mobile"
  | work => "work"
  | home => "home"
  | fax => "fax"
  | other => "other"

def fromLabel (rt : Runtime) (label : Option String) : PhoneType :=
  match label.map rt.toLowercase with
  | none => .other
  | some l =>
    if l = "mobile" then .mobile
    else if l = "work" then .work
    else if l = "home" then .home
    else if ['f', 'a', 'x'].isSuffixOf l.toList then .fax
    else .other

end PhoneType

structure MappedPhone where
  number : String
  phoneType : PhoneType
  isPrimary : Bool
deriving DecidableEq, Repr

structure MappedContact where
  firstName : String
  lastName : String
  email : Option String
  phones : List MappedPhone
  companyName : Option String
  title : Option String
  department : Option String
  notes : Option String
deriving DecidableEq, Repr

def nameMax : ℕ := 100
def emailMax : ℕ := 255
def companyNameMax : ℕ := 255
def titleMax : ℕ := 100
def phoneMax : ℕ := 50
def notesMax : ℕ := 10000

/-- Sanitize, trim and cut to a column's width; nothing is left of an empty text. -/
def fit (value : Option String) (max : ℕ) : Option String :=
  value.bind fun v =>
    let trimmed := trim (sanitizeInvisible v)
    if trimmed = "" then none else some (String.ofList (trimmed.toList.take max))

/-- A number Mokosh stores: an optional `+` and two to fifteen digits, the first of them not 0. -/
def storablePhone (raw : String) : Option String :=
  let stripped := raw.toList.filter fun c => c ∉ [' ', '\t', Char.ofNat 0xA0, '-', '(', ')', '.']
  let digits := if ['+'].isPrefixOf stripped then stripped.drop 1 else stripped
  if 2 ≤ digits.length ∧ digits.length ≤ 15 ∧ digits.all Char.isDigit = true ∧
      digits.head? ≠ some '0' ∧ stripped.length ≤ phoneMax then
    some (String.ofList stripped)
  else none

/-- The storable numbers of a record, each once. -/
def mapPhones (rt : Runtime) (phones : List SourcePhone) : List MappedPhone :=
  phones.foldl (fun mapped phone =>
    match (phone.canonical.bind storablePhone).or (storablePhone phone.number) with
    | some number =>
      if mapped.any fun p => p.number = number then mapped
      else mapped ++ [⟨number, .fromLabel rt phone.label, phone.isPrimary⟩]
    | none => mapped) []

/-- Exactly one number is primary: the first that is marked so, else the first. -/
def onePrimary (phones : List MappedPhone) : List MappedPhone :=
  let primaryAt := (phones.findIdx? (·.isPrimary)).getD 0
  phones.mapIdx fun i p => { p with isPrimary := decide (i = primaryAt) }

/-- The first and the last name of a record; one without a name takes what else it has. -/
def mapName (source : SourceContact) : String × String :=
  match fit source.givenName nameMax, fit source.familyName nameMax with
  | some g, f => (g, f.getD "")
  | none, some f => (f, "")
  | none, none =>
    (((fit source.displayName nameMax).or
      ((fit source.organization nameMax).or (fit source.emails.head? nameMax))).getD "(no name)", "")

/-- `map_contact`. -/
def mapContact (rt : Runtime) (source : SourceContact) : MappedContact :=
  { firstName := (mapName source).1
    lastName := (mapName source).2
    email := fit source.emails.head? emailMax
    phones := onePrimary (mapPhones rt source.phones)
    companyName := fit source.organization companyNameMax
    title := fit source.title titleMax
    department := fit source.department titleMax
    notes := fit source.note notesMax }

end Mokosh.ContactSync
