import Mathlib.Data.List.Sort
import Mokosh.ContactSync.Source

/-! # Matching

Whether an incoming record is somebody the server already holds (`matching.rs`): a decision over
match keys.  One contact that shares an email and is not linked yet is linked; any other match is a
question for a reviewer, with the strongest reason there is; no match is a new contact. -/

namespace Mokosh.ContactSync

/-- Why a pair is put in front of a human, the strongest first. -/
inductive MatchReason where
  | emailAmbiguous
  | phone
  | nameCompany
deriving DecidableEq, Repr

/-- A contact as the matcher sees it. -/
structure LocalContact where
  contactId : Uuid
  emailKeys : List String
  phoneKeys : List String
  nameKey : Option String
  companyKeys : List String
  /-- Linked to a record from this connection already. -/
  linked : Bool
deriving DecidableEq, Repr

structure IncomingKeys where
  emailKeys : List String
  phoneKeys : List String
  nameKey : Option String
  companyKey : Option String
deriving DecidableEq, Repr

/-- `LocalContact::from_values`. -/
def localFromValues (rt : Runtime) (contactId : Uuid) (email : Option String)
    (phones : List String) (fullName : String) (companyNames : List String) (linked : Bool) :
    LocalContact :=
  { contactId := contactId
    emailKeys := (email.bind (emailKey rt)).toList
    phoneKeys := phones.filterMap phoneKey
    nameKey := nameKey rt fullName
    companyKeys := companyNames.filterMap (nameKey rt)
    linked := linked }

/-- `IncomingKeys::from_values`. -/
def incomingFromValues (rt : Runtime) (emails phones : List String) (fullName : String)
    (company : Option String) : IncomingKeys :=
  { emailKeys := (emails.filterMap (emailKey rt)).destutter (· ≠ ·)
    phoneKeys := (phones.filterMap phoneKey).destutter (· ≠ ·)
    nameKey := nameKey rt fullName
    companyKey := company.bind (nameKey rt) }

inductive MatchDecision where
  | link (contactId : Uuid)
  | review (pairs : List (Uuid × MatchReason))
  | create
deriving DecidableEq, Repr

namespace LocalContact

def sharesEmail (incoming : IncomingKeys) (l : LocalContact) : Bool :=
  l.emailKeys.any fun k => decide (k ∈ incoming.emailKeys)

def sharesPhone (incoming : IncomingKeys) (l : LocalContact) : Bool :=
  l.phoneKeys.any fun k => decide (k ∈ incoming.phoneKeys)

def sharesNameAndCompany (incoming : IncomingKeys) (l : LocalContact) : Bool :=
  incoming.nameKey.isSome && decide (l.nameKey = incoming.nameKey) &&
    incoming.companyKey.any fun c => decide (c ∈ l.companyKeys)

/-- The strongest reason to ask about the contact. -/
def reason (incoming : IncomingKeys) (l : LocalContact) : Option MatchReason :=
  if l.sharesEmail incoming then some .emailAmbiguous
  else if l.sharesPhone incoming then some .phone
  else if l.sharesNameAndCompany incoming then some .nameCompany
  else none

end LocalContact

/-- The questions about a record, in the order of the contacts' ids.  A contact is in the list
once, so it is asked about once. -/
def proposals (incoming : IncomingKeys) (locals : List LocalContact) :
    List (Uuid × MatchReason) :=
  (locals.filterMap fun l => (l.reason incoming).map (l.contactId, ·)).insertionSort
    fun a b => a.1 ≤ b.1

def decideReview (incoming : IncomingKeys) (locals : List LocalContact) : MatchDecision :=
  match proposals incoming locals with
  | [] => .create
  | pairs => .review pairs

/-- `decide`. -/
def decideMatch (incoming : IncomingKeys) (locals : List LocalContact) : MatchDecision :=
  match locals.filter (·.sharesEmail incoming) with
  | [only] => if only.linked then decideReview incoming locals else .link only.contactId
  | _ => decideReview incoming locals

/-! ### What a decision says -/

theorem mem_proposals {incoming : IncomingKeys} {locals : List LocalContact} {id : Uuid}
    {r : MatchReason} : (id, r) ∈ proposals incoming locals ↔
      ∃ l ∈ locals, l.contactId = id ∧ l.reason incoming = some r := by
  unfold proposals
  rw [List.mem_insertionSort, List.mem_filterMap]
  constructor
  · rintro ⟨l, hl, h⟩
    obtain ⟨r', hr, h⟩ := Option.map_eq_some_iff.mp h
    cases h
    exact ⟨l, hl, rfl, hr⟩
  · rintro ⟨l, hl, rfl, hr⟩
    exact ⟨l, hl, by rw [hr]; rfl⟩

theorem proposals_eq_nil {incoming : IncomingKeys} {locals : List LocalContact} :
    proposals incoming locals = [] ↔ ∀ l ∈ locals, l.reason incoming = none := by
  rw [List.eq_nil_iff_forall_not_mem]
  constructor
  · intro h l hl
    by_contra hne
    obtain ⟨r, hr⟩ := Option.ne_none_iff_exists'.mp hne
    exact h (l.contactId, r) (mem_proposals.mpr ⟨l, hl, rfl, hr⟩)
  · rintro h ⟨id, r⟩ hm
    obtain ⟨l, hl, -, hr⟩ := mem_proposals.mp hm
    rw [h l hl] at hr
    cases hr

theorem decideReview_cases (incoming : IncomingKeys) (locals : List LocalContact) :
    decideReview incoming locals = .create ∧ proposals incoming locals = [] ∨
      decideReview incoming locals = .review (proposals incoming locals) ∧
        proposals incoming locals ≠ [] := by
  unfold decideReview
  split
  · next h => exact .inl ⟨rfl, h⟩
  · next h => exact .inr ⟨rfl, h⟩

/-- Everything a decision can be. -/
theorem decideMatch_cases (incoming : IncomingKeys) (locals : List LocalContact) :
    (∃ l, locals.filter (·.sharesEmail incoming) = [l] ∧ l.linked = false ∧
        decideMatch incoming locals = .link l.contactId) ∨
      (decideMatch incoming locals = .create ∧ proposals incoming locals = []) ∨
      (decideMatch incoming locals = .review (proposals incoming locals) ∧
        proposals incoming locals ≠ []) := by
  unfold decideMatch
  split
  · next l hl =>
    cases hlinked : l.linked with
    | false => exact .inl ⟨l, hl, hlinked, rfl⟩
    | true => exact .inr (decideReview_cases incoming locals)
  · exact .inr (decideReview_cases incoming locals)

end Mokosh.ContactSync
