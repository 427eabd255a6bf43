import Mokosh.ContactSync.Source
import Mathlib.Data.List.Sort

/-! # What a sync writes on a contact

The row of `contacts` with its phone list and its company links, and the field rules of a sync
(`apply_fields`): what is written is worked out first (`fieldWrites`), field by field, and then
written (`Contact.write`).  A contact's phone list is replaced as a whole
(`replaceContactPhonesIn`), and the columns that mirror it are recomputed
(`recomputeContactMirrors`). -/

namespace Mokosh.ContactSync

/-- A row of `contact_phones`; the list of a contact is in its stored order. -/
structure ContactPhone where
  phoneType : PhoneType
  number : String
  extension : Option String
  isPrimary : Bool
deriving DecidableEq, Repr

/-- A row of `contact_companies`. -/
structure CompanyLink where
  companyId : Uuid
  isPrimary : Bool
deriving DecidableEq, Repr

/-- A row of `contacts` with its child rows. -/
structure Contact where
  id : Uuid
  firstName : String
  lastName : String
  email : Option String
  title : Option String
  department : Option String
  companyName : Option String
  notes : Option String
  tags : Option (List String)
  companyId : Option Uuid
  phone : Option String
  mobile : Option String
  fax : Option String
  phones : List ContactPhone
  companies : List CompanyLink
deriving DecidableEq, Repr

/-- The fields a lock can name. -/
inductive Field where
  | firstName
  | lastName
  | email
  | title
  | department
  | companyName
  | phones
  | tags
  | notes
deriving DecidableEq, Repr

namespace Field

/-- As `contact_field_locks.field` stores it. -/
def asStr : Field → String
  | firstName => "first_name"
  | lastName => "last_name"
  | email => "email"
  | title => "title"
  | department => "department"
  | companyName => "company_name"
  | phones => "phones"
  | tags => "tags"
  | notes => "notes"

def all : List Field :=
  [firstName, lastName, email, title, department, companyName, phones, tags, notes]

theorem mem_all (f : Field) : f ∈ all := by
  cases f <;> decide

end Field

namespace Contact

def fullName (c : Contact) : String := c.firstName ++ " " ++ c.lastName

def currentTags (c : Contact) : List String := c.tags.getD []

/-- A company is linked. -/
def hasCompanyLink (c : Contact) : Bool := c.companyId.isSome || !c.companies.isEmpty

def hasPrimaryCompany (c : Contact) : Bool := c.companies.any (·.isPrimary)

end Contact

/-! ### The phone list -/

/-- `resolve_phone_list`: somebody is primary. -/
def resolvePhoneList : List ContactPhone → List ContactPhone
  | [] => []
  | p :: ps =>
    if (p :: ps).any (·.isPrimary) then p :: ps else { p with isPrimary := true } :: ps

/-- `recompute_contact_mirrors`. -/
def recomputeContactMirrors (c : Contact) : Contact :=
  { c with
    phone := (c.phones.find? (·.isPrimary)).map (·.number)
    mobile := (c.phones.find? fun p => p.phoneType = .mobile).map (·.number)
    fax := (c.phones.find? fun p => p.phoneType = .fax).map (·.number)
    companyId := (c.companies.find? (·.isPrimary)).map (·.companyId)
    companyName := if c.hasPrimaryCompany then none else c.companyName }

/-- `replace_contact_phones_in`. -/
def replaceContactPhonesIn (c : Contact) (entries : List ContactPhone) : Contact :=
  recomputeContactMirrors { c with phones := resolvePhoneList entries }

/-! ### The field rules -/

/-- Whether a first link or a later sync is applied. -/
inductive Pass where
  | firstLink
  | owned
deriving DecidableEq, Repr

/-- The value to write, or none to leave the column alone. -/
def choose (isLocked : Bool) (current incoming : Option String) (fillOnly : Bool) :
    Option String :=
  match incoming.filter (· ≠ "") with
  | none => none
  | some value =>
    if isLocked ∨ current = some value then none
    else if current.getD "" = "" ∨ fillOnly = false then some value
    else none

/-- What a sync writes on a contact. -/
structure FieldWrites where
  firstName : Option String
  lastName : Option String
  email : Option String
  title : Option String
  department : Option String
  companyName : Option String
  notes : Option String
  newTags : List String
  added : List MappedPhone
deriving DecidableEq, Repr

namespace FieldWrites

def scalarChange (w : FieldWrites) : Bool :=
  w.firstName.isSome || w.lastName.isSome || w.email.isSome || w.title.isSome ||
    w.department.isSome || w.companyName.isSome || w.notes.isSome || !w.newTags.isEmpty

/-- Nothing is written. -/
def isEmpty (w : FieldWrites) : Bool := !w.scalarChange && w.added.isEmpty

end FieldWrites

/-- Sorted, each text once (`BTreeSet<String>`). -/
def sortedSet (l : List String) : List String := l.dedup.insertionSort (· ≤ ·)

/-- The source gave the record a name of its own. -/
def SourceContact.isNamed (record : SourceContact) : Bool :=
  record.givenName.isSome || record.familyName.isSome || record.displayName.isSome

/-- What `apply_fields` works out. -/
def fieldWrites (c : Contact) (locked : Field → Bool) (record : SourceContact)
    (mapped : MappedContact) (labels : List String) (pass : Pass) : FieldWrites :=
  let fillOnly := decide (pass = .firstLink)
  let known := c.phones.filterMap fun p => phoneKey p.number
  { firstName :=
      if record.isNamed then
        choose (locked .firstName) (some c.firstName) (some mapped.firstName) fillOnly
      else none
    lastName :=
      if record.isNamed then
        choose (locked .lastName) (some c.lastName) (some mapped.lastName) fillOnly
      else none
    email := choose (locked .email) c.email mapped.email true
    title := choose (locked .title) c.title mapped.title fillOnly
    department := choose (locked .department) c.department mapped.department fillOnly
    companyName :=
      if c.hasCompanyLink then none
      else choose (locked .companyName) c.companyName mapped.companyName fillOnly
    notes := choose (locked .notes) c.notes mapped.notes fillOnly
    newTags :=
      if locked .tags then [] else sortedSet (labels.filter fun l => l ∉ c.currentTags)
    added :=
      if locked .phones then []
      else mapped.phones.filter fun p => (phoneKey p.number).all fun k => k ∉ known }

/-- The `UPDATE` of the columns. -/
def Contact.writeScalars (c : Contact) (w : FieldWrites) : Contact :=
  { c with
    firstName := w.firstName.getD c.firstName
    lastName := w.lastName.getD c.lastName
    email := w.email.or c.email
    title := w.title.or c.title
    department := w.department.or c.department
    companyName := w.companyName.or c.companyName
    tags := some (c.currentTags ++ w.newTags)
    notes := w.notes.or c.notes }

/-- The phone list with the new numbers behind the old ones; the contact's primary stays. -/
def Contact.phoneEntries (c : Contact) (added : List MappedPhone) : List ContactPhone :=
  c.phones ++ added.map fun p =>
    { phoneType := p.phoneType
      number := p.number
      extension := none
      isPrimary := c.phones.isEmpty && p.isPrimary }

/-- The contact after the writes of `apply_fields`. -/
def Contact.write (c : Contact) (w : FieldWrites) : Contact :=
  let c' := if w.scalarChange then c.writeScalars w else c
  if w.added.isEmpty then c' else replaceContactPhonesIn c' (c.phoneEntries w.added)

/-! ### A new contact -/

/-- The contact that an import creates: `create_request` and `import_contact_in`. -/
def importedContact (mapped : MappedContact) (labels : List String) (id : Uuid) : Contact :=
  recomputeContactMirrors
    { id := id
      firstName := mapped.firstName
      lastName := mapped.lastName
      email := mapped.email
      title := mapped.title
      department := mapped.department
      companyName := mapped.companyName.filter (· ≠ "")
      notes := mapped.notes
      tags := some (sortedSet labels)
      companyId := none
      phone := none
      mobile := none
      fax := none
      phones := resolvePhoneList (mapped.phones.map fun p =>
        { phoneType := p.phoneType
          number := p.number
          extension := none
          isPrimary := p.isPrimary })
      companies := [] }

/-! ### What the writes keep -/

@[simp] theorem write_id (c : Contact) (w : FieldWrites) : (c.write w).id = c.id := by
  unfold Contact.write
  split <;> split <;> rfl

@[simp] theorem write_companies (c : Contact) (w : FieldWrites) :
    (c.write w).companies = c.companies := by
  unfold Contact.write
  split <;> split <;> rfl

theorem choose_eq_some {isLocked : Bool} {current incoming : Option String} {fillOnly : Bool}
    {value : String} (h : choose isLocked current incoming fillOnly = some value) :
    isLocked = false ∧ incoming = some value ∧ value ≠ "" ∧ current ≠ some value ∧
      (current.getD "" = "" ∨ fillOnly = false) := by
  unfold choose at h
  split at h
  · exact absurd h (by simp)
  · next v hv =>
    obtain ⟨hi, hne⟩ := Option.filter_eq_some_iff.mp hv
    split at h
    · exact absurd h (by simp)
    · next hl =>
      split at h
      · next hc =>
        cases h
        rw [not_or] at hl
        exact ⟨by simpa using hl.1, hi, by simpa using hne, hl.2, hc⟩
      · exact absurd h (by simp)

/-- An empty `FieldWrites` says of each column that it is left alone. -/
theorem FieldWrites.isEmpty_iff {w : FieldWrites} : w.isEmpty = true ↔
    w.firstName = none ∧ w.lastName = none ∧ w.email = none ∧ w.title = none ∧
      w.department = none ∧ w.companyName = none ∧ w.notes = none ∧ w.newTags = [] ∧
      w.added = [] := by
  simp [FieldWrites.isEmpty, FieldWrites.scalarChange, and_assoc]

end Mokosh.ContactSync
