import Mokosh.ContactSync.CardDav
import Mokosh.ContactSync.Fields
import Mokosh.ContactSync.VcardBytes
import Mokosh.Utils.Sanitize

/-! # What a review answer does

A record that waits for review is stored as JSON (`source_snapshot`), and the answer works from what `from_snapshot`
reads back.  What is read back is trimmed once more, so the trip loses nothing unless the mapping cut a text right
behind white space (`SourceContact.CutsClean`).  A record without a name of its own comes back with one: the fallback
of the mapping, which then fills the blank first name of the contact it is linked to.

* `snapshotText_fit_iff` and `fromSnapshot_iff` are about the trip, `readSnapshot_storedSnapshot` about its JSON.
* `firstLink_named_iff` compares a first link from the snapshot with `Plan::Link`; `answersAsSync_iff` is both and
  `Plan::Create`. -/

namespace Mokosh.ContactSync

open VcardBytes (FileContact)
open Workflows (Json)

variable {rt : Runtime} {db : SyncDb}

/-! ### The stored snapshot -/

/-- A `MappedContact` with what the record lost on the way. -/
structure CollapsedContact extends MappedContact where
  dropped : List String
deriving DecidableEq, Repr

def droppedEmails (emails : List String) : List String :=
  if 1 < emails.length then [toString (emails.length - 1) ++ " additional email address(es)"] else []

def droppedPhones (phones : List SourcePhone) : List String :=
  (phones.filter fun p => ((p.canonical.bind storablePhone).or (storablePhone p.number)).isNone).map
    fun p => "unstorable phone number " ++ p.number

def droppedPhoto : Option VcardBytes.SourcePhoto → List String
  | some (.uri _) => ["photo (a link, not fetched)"]
  | some (.inline _ _) => ["photo"]
  | none => []

/-- `map_contact`, with what it drops. -/
def collapse (rt : Runtime) (source : FileContact) : CollapsedContact :=
  { mapContact rt source.toSourceContact with
    dropped := droppedEmails source.emails ++ droppedPhones source.phones ++ droppedPhoto source.photo ++
      source.droppedProperties }

/-- A connection, and the upload that it is read from. -/
structure ConnectionRow extends Connection where
  importFileId : Option String

def jsonText (value : Option String) : Json := value.elim .null .string

def jsonTexts (values : List String) : Json := .array (values.map .string)

def MappedPhone.toJson (p : MappedPhone) : Json :=
  .object [("number", .string p.number), ("phone_type", .string p.phoneType.asStr), ("is_primary", .bool p.isPrimary)]

/-- `source_snapshot`, as the review queue stores it. -/
def storedSnapshot (record : SourceContact) (mapped : CollapsedContact) (labels : List String)
    (connection : ConnectionRow) : Json :=
  .object ([("external_id", .string record.externalId), ("display_name", jsonText record.displayName),
    ("first_name", .string mapped.firstName), ("last_name", .string mapped.lastName), ("email", jsonText mapped.email),
    ("emails", jsonTexts record.emails), ("phones", .array (mapped.phones.map (·.toJson))),
    ("company_name", jsonText mapped.companyName), ("title", jsonText mapped.title),
    ("department", jsonText mapped.department), ("notes", jsonText mapped.notes), ("labels", jsonTexts labels),
    ("dropped", jsonTexts mapped.dropped)] ++
    connection.importFileId.elim []
      fun file => [("import_file_id", .string file), ("source_label", .string connection.accountEmail)])

def readText (snapshot : Json) (key : String) : Option String := snapshotText ((snapshot.get key).bind Json.asStr)

def readTexts (snapshot : Json) (key : String) : List String :=
  ((snapshot.get key).bind Json.asArray).elim [] (·.filterMap Json.asStr)

def readPhone (rt : Runtime) (p : Json) : Option MappedPhone :=
  ((p.get "number").bind Json.asStr).map fun number =>
    { number := number
      phoneType := .fromLabel rt ((p.get "phone_type").bind Json.asStr)
      isPrimary := ((p.get "is_primary").bind Json.asBool).getD false }

/-- `from_snapshot`, from what is stored. -/
def readSnapshot (rt : Runtime) (externalId : String) (etag : Option String) (snapshot : Json) :
    SourceContact × CollapsedContact × List String :=
  let mapped : CollapsedContact :=
    { firstName := (readText snapshot "first_name").getD "(no name)"
      lastName := (readText snapshot "last_name").getD ""
      email := readText snapshot "email"
      phones := ((snapshot.get "phones").bind Json.asArray).elim [] (·.filterMap (readPhone rt))
      companyName := readText snapshot "company_name"
      title := readText snapshot "title"
      department := readText snapshot "department"
      notes := readText snapshot "notes"
      dropped := readTexts snapshot "dropped" }
  ({ externalId := externalId
     etag := etag
     displayName := readText snapshot "display_name"
     givenName := readText snapshot "first_name"
     familyName := readText snapshot "last_name"
     emails := readTexts snapshot "emails"
     organization := mapped.companyName
     title := mapped.title
     department := mapped.department
     note := mapped.notes }, mapped, readTexts snapshot "labels")

@[simp] theorem asStr_jsonText (value : Option String) : (jsonText value).asStr = value := by
  cases value <;> rfl

@[simp] theorem asStr_string (s : String) : (Json.string s).asStr = some s := rfl

@[simp] theorem texts_jsonTexts (values : List String) :
    (jsonTexts values).asArray.elim [] (·.filterMap Json.asStr) = values := by
  show (values.map Json.string).filterMap Json.asStr = values
  rw [List.filterMap_map]
  exact List.filterMap_some

/-- A phone comes back with its type read as a label. -/
@[simp] theorem phones_toJson (phones : List MappedPhone) :
    (Json.array (phones.map (·.toJson))).asArray.elim [] (·.filterMap (readPhone rt)) =
      phones.map fun p => ⟨p.number, .fromLabel rt (some p.phoneType.asStr), p.isPrimary⟩ := by
  show (phones.map (·.toJson)).filterMap (readPhone rt) = _
  rw [List.filterMap_map, ← List.filterMap_eq_map]
  rfl

/-- Through the JSON goes exactly what `SourceSnapshot` holds, and what was dropped. -/
theorem readSnapshot_storedSnapshot (record : FileContact) (labels : List String) (connection : ConnectionRow)
    (externalId : String) (etag : Option String) :
    readSnapshot rt externalId etag (storedSnapshot record.toSourceContact (collapse rt record) labels connection) =
      ((fromSnapshot rt externalId etag (sourceSnapshot rt record.toSourceContact labels)).1,
        { (fromSnapshot rt externalId etag (sourceSnapshot rt record.toSourceContact labels)).2.1 with
          dropped := (collapse rt record).dropped }, labels) := by
  unfold readSnapshot readText readTexts storedSnapshot
  simp only [Json.get, Json.asObject, Option.bind_some, List.cons_append, List.lookup_cons, String.reduceBEq, asStr_jsonText,
    asStr_string, texts_jsonTexts, phones_toJson]
  rfl

/-! ### What a cut leaves -/

theorem trimMatches_eq_self_iff {p : Char → Bool} {s : List Char} :
    trimMatches p s = s ↔ (∀ c, s.head? = some c → p c = false) ∧ ∀ c, s.getLast? = some c → p c = false := by
  constructor
  · intro h
    rw [← h]
    exact ⟨fun c hc => Sanitizer.head_trimMatches hc, fun c hc => Sanitizer.last_trimMatches hc⟩
  · rintro ⟨hhead, hlast⟩
    exact Sanitizer.trimMatches_eq_self hhead hlast

theorem trimMatches_idem (p : Char → Bool) (s : List Char) : trimMatches p (trimMatches p s) = trimMatches p s :=
  trimMatches_eq_self_iff.mpr ⟨fun _ hc => Sanitizer.head_trimMatches (s := s) hc,
    fun _ hc => Sanitizer.last_trimMatches (s := s) hc⟩

theorem toList_trim (s : String) : (trim s).toList = trimMatches isWhitespace s.toList := String.toList_ofList

theorem trim_eq_self_iff (s : List Char) : trim (.ofList s) = .ofList s ↔ trimMatches isWhitespace s = s := by
  show String.ofList (trimMatches isWhitespace (String.ofList s).toList) = _ ↔ _
  rw [String.toList_ofList]
  exact String.ofList_inj

/-- A text that starts with a visible character is not trimmed away. -/
theorem trim_ne_empty {s : List Char} (hne : s ≠ []) (hhead : ∀ c, s.head? = some c → isWhitespace c = false) :
    trim (.ofList s) ≠ "" := by
  obtain ⟨c, s, rfl⟩ := List.exists_cons_of_ne_nil hne
  have hc : isWhitespace c = false := hhead c rfl
  intro h
  have hnil : trimMatches isWhitespace (c :: s) = [] := by
    rw [← String.toList_ofList (l := c :: s), ← toList_trim, h]
    rfl
  rw [trimMatches, List.dropWhile_cons_of_neg (by simp [hc])] at hnil
  have hall := List.rdropWhile_eq_nil_iff.mp hnil c List.mem_cons_self
  exact absurd hall (by simp [hc])

/-- The `max`-th character of the text is white space, so what is cut to `max` characters ends in it. -/
def cutBehindSpace (value : Option String) (max : ℕ) : Bool :=
  value.any fun v => ((trim (sanitizeInvisible v)).toList[max - 1]?).any isWhitespace

/-- A trimmed text that is cut is trimmed, unless the cut is right behind white space. -/
theorem trim_take_iff {t : List Char} {max : ℕ} (hm : 0 < max) (ht : trimMatches isWhitespace t = t) :
    trim (.ofList (t.take max)) = .ofList (t.take max) ↔ (t[max - 1]?).any isWhitespace = false := by
  obtain ⟨hhead, hlast⟩ := trimMatches_eq_self_iff.mp ht
  rw [trim_eq_self_iff, trimMatches_eq_self_iff, List.head?_take, if_neg hm.ne', List.getLast?_take, if_neg hm.ne']
  cases t[max - 1]? with
  | none => exact ⟨fun _ => rfl, fun _ => ⟨hhead, hlast⟩⟩
  | some c => exact ⟨fun h => h.2 c rfl, fun hc => ⟨hhead, fun d hd => Option.some.inj hd ▸ hc⟩⟩

/-- What `fit` makes of a text: nothing of a blank one, else the first characters of a trimmed text. -/
theorem fit_cases (value : Option String) (max : ℕ) :
    fit value max = none ∧ cutBehindSpace value max = false ∨
      ∃ t : List Char, t ≠ [] ∧ trimMatches isWhitespace t = t ∧ fit value max = some (.ofList (t.take max)) ∧
        cutBehindSpace value max = (t[max - 1]?).any isWhitespace := by
  cases value with
  | none => exact .inl ⟨rfl, rfl⟩
  | some v =>
      have htrim : trimMatches isWhitespace (trim (sanitizeInvisible v)).toList =
          (trim (sanitizeInvisible v)).toList := by
        rw [toList_trim, trimMatches_idem]
      by_cases hblank : trim (sanitizeInvisible v) = ""
      · refine .inl ⟨by simp [fit, hblank], ?_⟩
        simp [cutBehindSpace, hblank]
      · refine .inr ⟨(trim (sanitizeInvisible v)).toList, ?_, htrim, ?_, ?_⟩
        · exact fun hnil => hblank (String.toList_eq_nil_iff.mp hnil)
        · unfold fit
          rw [Option.bind_some, if_neg hblank]
        · rw [cutBehindSpace, Option.any_some]

/-- What is left of a text is not blank, and it is trimmed unless the cut is right behind white space. -/
theorem trim_fit {value : Option String} {max : ℕ} (hm : 0 < max) {s : String} (h : fit value max = some s) :
    trim s ≠ "" ∧ (trim s = s ↔ cutBehindSpace value max = false) := by
  rcases fit_cases value max with ⟨hnone, -⟩ | ⟨t, hne, ht, hsome, hcut⟩
  · rw [hnone] at h
    cases h
  · rw [hsome] at h
    obtain rfl := Option.some.inj h
    rw [hcut]
    refine ⟨trim_ne_empty ?_ ?_, trim_take_iff hm ht⟩
    · simpa [hm.ne'] using hne
    · rw [List.head?_take, if_neg hm.ne']
      exact (trimMatches_eq_self_iff.mp ht).1

theorem snapshotText_some {s : String} (h : trim s ≠ "") : snapshotText (some s) = some (trim s) := by
  simp [snapshotText, h]

/-- A mapped text comes back as it was stored, unless it was cut right behind white space. -/
theorem snapshotText_fit_iff {value : Option String} {max : ℕ} (hm : 0 < max) :
    snapshotText (fit value max) = fit value max ↔ cutBehindSpace value max = false := by
  cases h : fit value max with
  | none =>
      rcases fit_cases value max with ⟨-, hcut⟩ | ⟨t, -, -, hsome, -⟩
      · exact ⟨fun _ => hcut, fun _ => rfl⟩
      · rw [hsome] at h
        cases h
  | some s =>
      obtain ⟨hne, hiff⟩ := trim_fit hm h
      rw [snapshotText_some hne, Option.some.injEq, hiff]

/-- The same of a name, which has a default where there is no text. -/
theorem snapshotText_name_iff {value : Option String} {max : ℕ} (hm : 0 < max) {d : String}
    (hd : (snapshotText (some d)).getD d = d) :
    (snapshotText (some ((fit value max).getD d))).getD d = (fit value max).getD d ↔
      cutBehindSpace value max = false := by
  cases h : fit value max with
  | none =>
      rw [← snapshotText_fit_iff hm, h]
      exact ⟨fun _ => rfl, fun _ => hd⟩
  | some s =>
      obtain ⟨hne, hiff⟩ := trim_fit hm h
      rw [Option.getD_some, snapshotText_some hne, Option.getD_some, hiff]

/-! ### The trip -/

/-- Nothing is left of the text. -/
def isBlank (value : Option String) : Bool := value.all fun v => trim (sanitizeInvisible v) = ""

theorem fit_eq_none_iff {value : Option String} {max : ℕ} : fit value max = none ↔ isBlank value = true := by
  cases value with
  | none => exact ⟨fun _ => rfl, fun _ => rfl⟩
  | some v =>
      unfold fit isBlank
      rw [Option.bind_some, Option.all_some, decide_eq_true_iff]
      dsimp only
      split
      · next h => exact ⟨fun _ => h, fun _ => rfl⟩
      · next h => exact ⟨nofun, fun h' => absurd h' h⟩

/-- The text that the first name of a record is taken from. -/
def SourceContact.firstNameText (record : SourceContact) : Option String :=
  ([record.givenName, record.familyName, record.displayName, record.organization, record.emails.head?].find?
    fun v => !isBlank v).join

def SourceContact.lastNameText (record : SourceContact) : Option String :=
  if isBlank record.givenName then none else record.familyName

/-- What the mapping cuts, with the width that is left. -/
def SourceContact.cutTexts (record : SourceContact) : List (Option String × ℕ) :=
  [(record.firstNameText, nameMax), (record.lastNameText, nameMax), (record.emails.head?, emailMax),
    (record.organization, companyNameMax), (record.title, titleMax), (record.department, titleMax),
    (record.note, notesMax)]

/-- No text of the record is cut right behind white space. -/
def SourceContact.CutsClean (record : SourceContact) : Prop :=
  ∀ cut ∈ record.cutTexts, cutBehindSpace cut.1 cut.2 = false

instance (record : SourceContact) : Decidable record.CutsClean :=
  inferInstanceAs (Decidable (∀ cut ∈ record.cutTexts, cutBehindSpace cut.1 cut.2 = false))

theorem fit_find (values : List (Option String)) (max : ℕ) :
    fit (values.find? fun v => !isBlank v).join max = values.findSome? (fit · max) := by
  induction values with
  | nil => rfl
  | cons value values ih =>
      cases hblank : isBlank value with
      | true =>
          rw [List.find?_cons_of_neg (by simp [hblank]), List.findSome?_cons, fit_eq_none_iff.mpr hblank, ih]
      | false =>
          have hsome : fit value max ≠ none := fun h => by simp [fit_eq_none_iff.mp h] at hblank
          obtain ⟨s, hs⟩ := Option.ne_none_iff_exists'.mp hsome
          rw [List.find?_cons_of_pos (by simp [hblank]), List.findSome?_cons, hs]
          exact hs

theorem mapName_eq (record : SourceContact) :
    mapName record =
      ((fit record.firstNameText nameMax).getD "(no name)", (fit record.lastNameText nameMax).getD "") := by
  unfold SourceContact.firstNameText SourceContact.lastNameText mapName
  rw [fit_find]
  cases hg : fit record.givenName nameMax with
  | some g =>
      have hblank : ¬ isBlank record.givenName = true := fun h => by simp [fit_eq_none_iff.mpr h] at hg
      simp [hg, hblank]
  | none =>
      have hblank := fit_eq_none_iff.mp hg
      cases hf : fit record.familyName nameMax with
      | some f =>
          simp only [List.findSome?_cons, hg, hf, hblank, if_pos]
          rfl
      | none =>
          simp only [List.findSome?_cons, hg, hf, hblank, if_pos, List.findSome?_nil]
          cases fit record.displayName nameMax <;> cases fit record.organization nameMax <;>
            cases fit record.emails.head? nameMax <;> rfl

theorem fromLabel_asStr (h : rt.KeepsLowercase) (t : PhoneType) : PhoneType.fromLabel rt (some t.asStr) = t := by
  have hlower : t.asStr.toList.all (·.isLower) = true := by cases t <;> decide
  have hkeep : rt.toLowercase t.asStr = t.asStr := h _ fun c hc => .inl (List.all_eq_true.mp hlower c hc)
  unfold PhoneType.fromLabel
  rw [Option.map_some, hkeep]
  cases t <;> decide

/-- The mapped contact comes back from the snapshot exactly when no text was cut right behind white space. -/
theorem fromSnapshot_iff (h : rt.KeepsLowercase) (record : SourceContact) (labels : List String) (externalId : String)
    (etag : Option String) :
    (fromSnapshot rt externalId etag (sourceSnapshot rt record labels)).2.1 = mapContact rt record ↔
      record.CutsClean := by
  have hphones (phones : List MappedPhone) :
      (phones.map fun p => ⟨p.number, .fromLabel rt (some p.phoneType.asStr), p.isPrimary⟩) = phones := by
    rw [List.map_congr_left fun p _ => by rw [fromLabel_asStr h]]
    exact List.map_id _
  unfold SourceContact.CutsClean SourceContact.cutTexts fromSnapshot sourceSnapshot mapContact
  simp only [List.forall_mem_cons, MappedContact.mk.injEq, mapName_eq, hphones, true_and]
  rw [snapshotText_name_iff (by decide) (by decide), snapshotText_name_iff (by decide) (by decide),
    snapshotText_fit_iff (by decide), snapshotText_fit_iff (by decide), snapshotText_fit_iff (by decide),
    snapshotText_fit_iff (by decide), snapshotText_fit_iff (by decide)]
  simp

/-! ### Answers -/

/-- The arm `Plan::Link` of `apply_record_in_tx`. -/
def SyncDb.firstLink (db : SyncDb) (connection : Connection) (record : SourceContact) (mapped : MappedContact)
    (labels : List String) (contactId : Uuid) : AppResult (SyncDb × Link) := do
  let (db', _) ← db.applyFields contactId record mapped labels .firstLink
  db'.insertLink connection record contactId .linked none

/-- The arm `Plan::Create`. -/
def SyncDb.firstImport (db : SyncDb) (connection : Connection) (record : SourceContact) (mapped : MappedContact)
    (labels : List String) (suggestion : Option Uuid) : AppResult (SyncDb × Link) :=
  (db.importContact mapped labels).1.insertLink connection record db.contacts.next .created suggestion

theorem map_eq_bind {α β : Type} (x : AppResult α) (f : α → β) : x.map f = x >>= fun a => .ok (f a) := by
  cases x <;> rfl

section Arms

variable {ctx : RunContext} {s : Snapshot} {record : SourceContact}

end Arms

variable {connection : Connection} {record : SourceContact} {labels : List String}

theorem linkReviewed_eq (hc : db.connections.find connection.id = some connection) (externalId : String)
    (etag : Option String) (shown : SourceSnapshot) (contactId : Uuid) :
    db.linkReviewed rt connection.id externalId etag shown contactId =
      (db.firstLink connection (fromSnapshot rt externalId etag shown).1 (fromSnapshot rt externalId etag shown).2.1
        (fromSnapshot rt externalId etag shown).2.2 contactId).map Prod.fst := by
  unfold SyncDb.linkReviewed SyncDb.firstLink
  rw [hc, map_eq_bind, bind_assoc]
  rfl

theorem createReviewed_eq (hc : db.connections.find connection.id = some connection) (externalId : String)
    (etag : Option String) (shown : SourceSnapshot) :
    db.createReviewed rt connection.id externalId etag shown =
      (db.firstImport connection (fromSnapshot rt externalId etag shown).1 (fromSnapshot rt externalId etag shown).2.1
        (fromSnapshot rt externalId etag shown).2.2
        (suggestCompany rt (db.companyKeys rt) (fromSnapshot rt externalId etag shown).2.1.companyName)).map
          fun x => (x.1, db.contacts.next) := by
  unfold SyncDb.createReviewed SyncDb.firstImport
  rw [hc, map_eq_bind]
  rfl

/-! ### A first link, with and without a name -/

theorem write_firstName (c : Contact) (w : FieldWrites) : (c.write w).firstName = w.firstName.getD c.firstName := by
  have ht : some (c.scalarsWritten w).firstName = w.firstName.or (some c.firstName) :=
    (scalarsWritten_are c w).text .firstName
  have hw : (c.write w).firstName = (c.scalarsWritten w).firstName := by
    rw [write_eq]
    split <;> rfl
  rw [hw]
  cases hf : w.firstName <;> rw [hf] at ht <;> exact Option.some.inj ht

/-- Of the record only its id, its version and whether it has a name matter for a first link. -/
theorem firstLink_congr {record' : SourceContact} (hid : record'.externalId = record.externalId)
    (hetag : record'.etag = record.etag) (hnamed : record'.isNamed = record.isNamed) (mapped : MappedContact)
    (contactId : Uuid) :
    db.firstLink connection record' mapped labels contactId =
      db.firstLink connection record mapped labels contactId := by
  unfold SyncDb.firstLink SyncDb.applyFields SyncDb.insertLink fieldWrites
  rw [hid, hetag, hnamed]

/-- What the name adds to the writes of a first link: the mapping's fallback, in a blank first name. -/
theorem fieldWrites_named {c : Contact} {locked : Field → Bool} {record' : SourceContact} {mapped : MappedContact}
    (hn : record.isNamed = false) (hn' : record'.isNamed = true) (hlast : mapped.lastName = "") :
    fieldWrites c locked record' mapped labels .firstLink =
      { fieldWrites c locked record mapped labels .firstLink with
        firstName := choose (locked .firstName) (some c.firstName) (some mapped.firstName) true } := by
  unfold fieldWrites
  rw [hn, hn', hlast]
  rfl

theorem choose_first_eq_none_iff {isLocked : Bool} {current incoming : String} (hi : incoming ≠ "") :
    choose isLocked (some current) (some incoming) true = none ↔ current ≠ "" ∨ isLocked = true := by
  unfold choose
  rw [Option.filter_some]
  cases isLocked <;> by_cases hcur : current = "" <;> by_cases hsame : current = incoming <;>
    simp_all

/-- The tables after `apply_fields` has written. -/
def SyncDb.fieldsWritten (db : SyncDb) (contactId : Uuid) (w : FieldWrites) : SyncDb :=
  if w.isEmpty then db
  else { db with contacts := db.contacts.update contactId (·.write w) (write_id · w) }

theorem fieldsWritten_liveLink (contactId : Uuid) (w : FieldWrites) :
    (db.fieldsWritten contactId w).liveLink = db.liveLink := by
  unfold SyncDb.fieldsWritten
  split <;> rfl

theorem fieldsWritten_firstName {contactId : Uuid} {c : Contact} (hc : db.contacts.find contactId = some c)
    (w : FieldWrites) :
    ((db.fieldsWritten contactId w).contacts.find contactId).map (·.firstName) =
      some (w.firstName.getD c.firstName) := by
  unfold SyncDb.fieldsWritten
  split
  · next hempty =>
    rw [hc, (FieldWrites.isEmpty_iff.mp hempty).1]
    rfl
  · rw [Table.find_update_self, hc, Option.map_some, Option.map_some, write_firstName]

theorem firstLink_of_find {contactId : Uuid} {c : Contact} (hc : db.contacts.find contactId = some c)
    (mapped : MappedContact) :
    db.firstLink connection record mapped labels contactId =
      (db.fieldsWritten contactId
        (fieldWrites c (db.isLocked contactId) record mapped labels .firstLink)).insertLink connection record contactId
          .linked none := by
  unfold SyncDb.firstLink SyncDb.applyFields SyncDb.fieldsWritten
  rw [hc]
  dsimp only
  split <;> rfl

theorem insertLink_of_live {l : Link} (h : db.liveLink connection.id record.externalId = some l) (contactId : Uuid)
    (origin : LinkOrigin) (suggestion : Option Uuid) :
    db.insertLink connection record contactId origin suggestion =
      .error (.database "idx_contact_sync_links_live") := by
  unfold SyncDb.insertLink
  rw [h]

/-- Two sets of writes leave the same tables behind a first link only if they leave the same first name. -/
theorem firstName_of_insertLink_eq {record' : SourceContact} {w w' : FieldWrites} {contactId : Uuid} {c : Contact}
    (hid : record'.externalId = record.externalId) (hl : db.liveLink connection.id record.externalId = none)
    (hc : db.contacts.find contactId = some c)
    (h : ((db.fieldsWritten contactId w').insertLink connection record' contactId .linked none).map Prod.fst =
      ((db.fieldsWritten contactId w).insertLink connection record contactId .linked none).map Prod.fst) :
    w'.firstName.getD c.firstName = w.firstName.getD c.firstName := by
  have hcontacts : (db.fieldsWritten contactId w').contacts = (db.fieldsWritten contactId w).contacts := by
    rw [insertLink_eq_ok.mpr ⟨by rwa [fieldsWritten_liveLink, hid], rfl, rfl⟩,
      insertLink_eq_ok.mpr ⟨by rwa [fieldsWritten_liveLink], rfl, rfl⟩] at h
    have hdb := congrArg SyncDb.contacts (Except.ok.inj h)
    exact hdb
  have hfirst := fieldsWritten_firstName hc w'
  rw [hcontacts, fieldsWritten_firstName hc w] at hfirst
  exact (Option.some.inj hfirst).symm

theorem firstLink_of_missing {contactId : Uuid} (hc : db.contacts.find contactId = none) (mapped : MappedContact) :
    db.firstLink connection record mapped labels contactId = .error (.notFound "contact") := by
  unfold SyncDb.firstLink SyncDb.applyFields
  rw [hc]
  rfl

/-- A record that comes back with a name links as the one without, unless that name fills a blank first name. -/
theorem firstLink_named_iff {record' : SourceContact} {mapped : MappedContact} {contactId : Uuid}
    (hid : record'.externalId = record.externalId) (hetag : record'.etag = record.etag)
    (hn' : record'.isNamed = true) (hfirst : mapped.firstName ≠ "")
    (hlast : record.isNamed = false → mapped.lastName = "") :
    (db.firstLink connection record' mapped labels contactId).map Prod.fst =
        (db.firstLink connection record mapped labels contactId).map Prod.fst ↔
      record.isNamed = true ∨ db.liveLink connection.id record.externalId ≠ none ∨
        ∀ c, db.contacts.find contactId = some c → c.firstName ≠ "" ∨ db.isLocked contactId .firstName = true := by
  cases hn : record.isNamed with
  | true =>
      rw [firstLink_congr hid hetag (hn'.trans hn.symm)]
      exact ⟨fun _ => .inl rfl, fun _ => rfl⟩
  | false =>
      cases hc : db.contacts.find contactId with
      | none =>
          rw [firstLink_of_missing hc, firstLink_of_missing hc]
          exact ⟨fun _ => .inr (.inr fun c hsome => absurd hsome (Option.some_ne_none c).symm), fun _ => rfl⟩
      | some c =>
          rw [firstLink_of_find hc, firstLink_of_find hc, fieldWrites_named hn hn' (hlast hn)]
          have hnone : (fieldWrites c (db.isLocked contactId) record mapped labels .firstLink).firstName = none :=
            if_neg (by simp [hn])
          generalize fieldWrites c (db.isLocked contactId) record mapped labels .firstLink = w at hnone
          cases hl : db.liveLink connection.id record.externalId with
          | some l =>
              rw [insertLink_of_live (by rwa [fieldsWritten_liveLink, hid]),
                insertLink_of_live (by rwa [fieldsWritten_liveLink])]
              exact ⟨fun _ => .inr (.inl nofun), fun _ => rfl⟩
          | none =>
              have hblank : choose (db.isLocked contactId .firstName) (some c.firstName) (some mapped.firstName) true =
                  none ↔ _ := choose_first_eq_none_iff hfirst
              simp only [Bool.false_eq_true, ne_eq, not_true, false_or, Option.some.injEq, forall_eq', ← hblank]
              constructor
              · intro h
                have hname := firstName_of_insertLink_eq hid hl hc h
                rw [hnone] at hname
                by_contra hsome
                obtain ⟨value, hvalue⟩ := Option.ne_none_iff_exists'.mp hsome
                rw [hvalue] at hname
                exact (choose_eq_some hvalue).2.2.2.1 (congrArg some hname.symm)
              · intro h
                rw [h, ← hnone]
                unfold SyncDb.insertLink
                rw [hid, hetag]

/-! ### An answer is the sync's own action -/

/-- An answer about a record of a connection does what the sync would have: the mapped contact and the labels come back
from the stored snapshot, a new contact is that of `Plan::Create`, and a linked one that of `Plan::Link`. -/
structure AnswersAsSync (rt : Runtime) (db : SyncDb) (connection : ConnectionRow) (record : FileContact)
    (labels : List String) (contactId : Uuid) : Prop where
  restored : (readSnapshot rt record.externalId record.etag
    (storedSnapshot record.toSourceContact (collapse rt record) labels connection)).2 = (collapse rt record, labels)
  created : db.createReviewed rt connection.id record.externalId record.etag
      (sourceSnapshot rt record.toSourceContact labels) =
    (db.firstImport connection.toConnection record.toSourceContact (mapContact rt record.toSourceContact) labels
      (suggestCompany rt (db.companyKeys rt) (mapContact rt record.toSourceContact).companyName)).map
        fun x => (x.1, db.contacts.next)
  linked : db.linkReviewed rt connection.id record.externalId record.etag
      (sourceSnapshot rt record.toSourceContact labels) contactId =
    (db.firstLink connection.toConnection record.toSourceContact (mapContact rt record.toSourceContact) labels
      contactId).map Prod.fst

/-- The record has a name of its own, or a link to the contact cannot write its first name. -/
def KeepsFirstName (db : SyncDb) (connection : Connection) (record : SourceContact) (contactId : Uuid) : Prop :=
  record.isNamed = true ∨ db.liveLink connection.id record.externalId ≠ none ∨
    ∀ c, db.contacts.find contactId = some c → c.firstName ≠ "" ∨ db.isLocked contactId .firstName = true

theorem trim_firstName (rt : Runtime) (record : SourceContact) : trim (mapContact rt record).firstName ≠ "" := by
  show trim (mapName record).1 ≠ ""
  rw [mapName_eq]
  show trim ((fit record.firstNameText nameMax).getD "(no name)") ≠ ""
  cases h : fit record.firstNameText nameMax with
  | none => decide
  | some s => exact (trim_fit (by decide) h).1

/-- What comes back has a name, be it the mapping's fallback. -/
theorem isNamed_fromSnapshot (externalId : String) (etag : Option String) :
    (fromSnapshot rt externalId etag (sourceSnapshot rt record labels)).1.isNamed = true := by
  unfold SourceContact.isNamed fromSnapshot sourceSnapshot
  dsimp only
  rw [snapshotText_some (trim_firstName rt record)]
  rfl

theorem lastName_of_not_named (h : record.isNamed = false) : (mapContact rt record).lastName = "" := by
  have hfamily : record.familyName = none := by
    unfold SourceContact.isNamed at h
    simpa using (Bool.or_eq_false_iff.mp (Bool.or_eq_false_iff.mp h).1).2
  show (mapName record).2 = ""
  rw [mapName_eq, SourceContact.lastNameText, hfamily, ite_self]
  rfl

/-- An answer is the sync's own action exactly when no text was cut right behind white space and the fallback name does
not get into a blank first name. -/
theorem answersAsSync_iff (h : rt.KeepsLowercase) {connection : ConnectionRow}
    (hc : db.connections.find connection.id = some connection.toConnection) (record : FileContact)
    (labels : List String) (contactId : Uuid) :
    AnswersAsSync rt db connection record labels contactId ↔
      record.toSourceContact.CutsClean ∧
        KeepsFirstName db connection.toConnection record.toSourceContact contactId := by
  have htrip := fromSnapshot_iff h record.toSourceContact labels record.externalId record.etag
  have hlink (hclean : record.toSourceContact.CutsClean) :
      db.linkReviewed rt connection.id record.externalId record.etag
          (sourceSnapshot rt record.toSourceContact labels) contactId =
        (db.firstLink connection.toConnection record.toSourceContact (mapContact rt record.toSourceContact) labels
          contactId).map Prod.fst ↔
      KeepsFirstName db connection.toConnection record.toSourceContact contactId := by
    rw [linkReviewed_eq hc, htrip.mpr hclean]
    refine firstLink_named_iff rfl rfl (isNamed_fromSnapshot _ _) (fun hempty => ?_) lastName_of_not_named
    exact trim_firstName rt record.toSourceContact (by rw [hempty]; decide)
  constructor
  · rintro ⟨hrestored, -, hlinked⟩
    rw [readSnapshot_storedSnapshot] at hrestored
    have hclean := htrip.mp (congrArg (fun x => x.1.toMappedContact) hrestored)
    exact ⟨hclean, (hlink hclean).mp hlinked⟩
  · rintro ⟨hclean, hname⟩
    refine ⟨?_, ?_, (hlink hclean).mpr hname⟩
    · rw [readSnapshot_storedSnapshot, htrip.mpr hclean]
      rfl
    · rw [createReviewed_eq hc, htrip.mpr hclean]
      rfl

/-- The connection of `taggedDb`, not read from an upload. -/
def clientsRow : ConnectionRow := { clientsConnection with importFileId := none }

/-- A record of an address book, with what only a preview reads. -/
def fileContact (record : SourceContact) : FileContact :=
  { record with emailLabels := [], photo := none, droppedProperties := [] }

/-- The answer about a client that has an address only, and is linked to a contact with a name. -/
theorem answersAsSync_client :
    AnswersAsSync asciiRuntime taggedDb clientsRow (fileContact clientRecord) ["Clients"] 0 :=
  (answersAsSync_iff asciiRuntime_keepsLowercase rfl (fileContact clientRecord) ["Clients"] 0).mpr
    ⟨by decide, .inr (.inr fun c hc => by cases hc; decide)⟩

/-- A person whose given name is cut between two words. -/
def longNamed : SourceContact :=
  { externalId := "people/c1", givenName := some (String.ofList (List.replicate 99 'a') ++ " b")
    groupIds := ["contactGroups/a"] }

/-- The contact of `taggedDb`, without a name. -/
def namelessDb : SyncDb :=
  { taggedDb with
    contacts :=
      (∅ : Table Contact.id).insert fun id => { taggedContact ["vip"] id with firstName := "", lastName := "" } }

/-- The cut name comes back without the white space at its end, and the address of a person without a name is written
into the blank first name of the contact, which the sync leaves blank. -/
theorem not_answersAsSync :
    ¬ AnswersAsSync asciiRuntime taggedDb clientsRow (fileContact longNamed) ["Clients"] 0 ∧
      ¬ AnswersAsSync asciiRuntime namelessDb clientsRow (fileContact clientRecord) ["Clients"] 0 := by
  constructor
  · intro h
    have hrestored := h.restored
    rw [readSnapshot_storedSnapshot] at hrestored
    have htrip := fromSnapshot_iff asciiRuntime_keepsLowercase longNamed ["Clients"] longNamed.externalId longNamed.etag
    have hcut : ¬ longNamed.CutsClean := by decide +kernel
    exact hcut (htrip.mp (congrArg (fun x => x.1.toMappedContact) hrestored))
  · intro h
    have hfirst := congrArg (fun x => (x.toOption.bind (·.contacts.find 0)).map (·.firstName)) h.linked
    revert hfirst
    decide +kernel

end Mokosh.ContactSync
