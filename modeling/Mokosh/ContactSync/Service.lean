import Mokosh.ContactSync.Sync

/-! # What people do to a connection

The operations of `contact_sync/service.rs` beside the sync itself: the answer to a review question
(`resolve`), the selection of labels, connecting and disconnecting an account, unlinking a contact
and removing its imported data, releasing a field lock; and the deletion of a contact, which takes
the rows that refer to it along (`contacts/service.rs`, `ON DELETE CASCADE`).

An operation that fails leaves the tables as they were.  `enabled` is the switch that an
administrator can turn a provider off with, `outside` the checks of tables that are not modelled. -/

namespace Mokosh.ContactSync

/-! ### Review answers -/

/-- A text of a stored snapshot; a blank one is absent. -/
def snapshotText (value : Option String) : Option String := (value.map trim).filter (· ≠ "")

/-- `from_snapshot`: the record a reviewer saw, rebuilt from what was stored with the question. -/
def fromSnapshot (rt : Runtime) (externalId : String) (etag : Option String)
    (shown : SourceSnapshot) : SourceContact × MappedContact × List String :=
  let mapped : MappedContact :=
    { firstName := (snapshotText (some shown.firstName)).getD "(no name)"
      lastName := (snapshotText (some shown.lastName)).getD ""
      email := snapshotText shown.email
      phones := shown.phones.map fun p =>
        ⟨p.number, PhoneType.fromLabel rt (some p.phoneType.asStr), p.isPrimary⟩
      companyName := snapshotText shown.companyName
      title := snapshotText shown.title
      department := snapshotText shown.department
      notes := snapshotText shown.notes }
  ({ externalId := externalId
     etag := etag
     displayName := snapshotText shown.displayName
     givenName := snapshotText (some shown.firstName)
     familyName := snapshotText (some shown.lastName)
     emails := shown.emails
     organization := mapped.companyName
     title := mapped.title
     department := mapped.department
     note := mapped.notes }, mapped, shown.labels)

/-- A reviewer's answer. -/
inductive Resolution where
  | link (externalId : String) (contactId : Uuid) (connectionId : Option Uuid)
  | create (externalId : String) (connectionId : Option Uuid)
  | skip (externalId : String) (connectionId : Option Uuid)
deriving DecidableEq, Repr

namespace Resolution

def externalId : Resolution → String
  | link e _ _ | create e _ | skip e _ => e

def connectionId : Resolution → Option Uuid
  | link _ _ k | create _ k | skip _ k => k

/-- What becomes of an open question about the pair of the record and the contact. -/
def close : Resolution → Uuid → CandidateStatus
  | link _ chosen _, contactId => if contactId = chosen then .linked else .skipped
  | create _ _, _ => .created
  | skip _ _, _ => .skipped

end Resolution

namespace SyncDb

/-- The open questions about a record. -/
def openQuestions (db : SyncDb) (connectionId : Uuid) (externalId : String) : List Candidate :=
  db.candidates.rows.filter fun k =>
    decide (k.connectionId = connectionId ∧ k.externalId = externalId ∧ k.status = .opened)

/-- `link_reviewed`: the first-link rule, from the snapshot the reviewer compared. -/
def linkReviewed (rt : Runtime) (db : SyncDb) (connectionId : Uuid) (externalId : String)
    (etag : Option String) (shown : SourceSnapshot) (contactId : Uuid) : AppResult SyncDb := do
  let connection ← orError (.notFound "contact sync connection") (db.connections.find connectionId)
  let (record, mapped, labels) := fromSnapshot rt externalId etag shown
  let (db', _) ← db.applyFields contactId record mapped labels .firstLink
  let (db'', _) ← db'.insertLink connection record contactId .linked none
  .ok db''

/-- The companies by the key of their name. -/
def companyKeys (rt : Runtime) (db : SyncDb) : List (String × Uuid) :=
  db.companies.filterMap fun co => (nameKey rt co.name).map (·, co.id)

/-- `create_reviewed`. -/
def createReviewed (rt : Runtime) (db : SyncDb) (connectionId : Uuid) (externalId : String)
    (etag : Option String) (shown : SourceSnapshot) : AppResult (SyncDb × Uuid) := do
  let connection ← orError (.notFound "contact sync connection") (db.connections.find connectionId)
  let (record, mapped, labels) := fromSnapshot rt externalId etag shown
  let suggestion := suggestCompany rt (db.companyKeys rt) mapped.companyName
  let (db', contactId) := db.importContact mapped labels
  let (db'', _) ← db'.insertLink connection record contactId .created suggestion
  .ok (db'', contactId)

/-- The open questions about a record are closed, each as the answer says. -/
def closeQuestions (db : SyncDb) (connectionId : Uuid) (resolution : Resolution) : SyncDb :=
  { db with
    candidates := db.candidates.map fun k =>
      { k with
        status :=
          if k.connectionId = connectionId ∧ k.externalId = resolution.externalId ∧
              k.status = .opened then
            resolution.close k.candidateContactId
          else k.status } }

/-- The live connections in which a record waits, each once. -/
def reviewSources (db : SyncDb) (externalId : String) (named : Option Uuid) : List Connection :=
  db.connections.rows.filter fun cn =>
    !cn.disconnected && !(db.openQuestions cn.id externalId).isEmpty &&
      named.all fun id => decide (cn.id = id)

/-- `review_source`. -/
def reviewSource (db : SyncDb) (externalId : String) (named : Option Uuid) : AppResult Connection :=
  match db.reviewSources externalId named with
  | [only] => .ok only
  | [] => .error (.notFound "Review item")
  | _ => .error (.validation "connection_id"
      "this record is waiting in more than one source; name the one you are answering")

/-- A second link for one record, in the words of the review queue. -/
def alreadyLinked : AppError → AppError
  | .database _ => .conflict
      "This record was linked by a sync while it was waiting for review. Reload the queue."
  | e => e

/-- The part of `resolve` under its transaction; the answer's snapshot is that of the first open
question. -/
def answer (rt : Runtime) (db : SyncDb) (connectionId : Uuid) (resolution : Resolution) :
    AppResult SyncDb :=
  let opened := db.openQuestions connectionId resolution.externalId
  match opened.head? with
  | none => .error (.notFound "Review item")
  | some first =>
    match resolution with
    | .link externalId contactId _ =>
      if opened.any fun k => decide (k.candidateContactId = contactId) then
        ((db.linkReviewed rt connectionId externalId first.etag first.sourceSnapshot
          contactId).mapError alreadyLinked).map (·.closeQuestions connectionId resolution)
      else .error (.validation "contact_id"
        "must be one of the contacts this record was matched to")
    | .create externalId _ =>
      ((db.createReviewed rt connectionId externalId first.etag
        first.sourceSnapshot).mapError alreadyLinked).map
          (·.1.closeQuestions connectionId resolution)
    | .skip _ _ => .ok (db.closeQuestions connectionId resolution)

/-- `resolve`. -/
def resolve (rt : Runtime) (db : SyncDb) (enabled : String → AppResult Unit)
    (resolution : Resolution) : AppResult SyncDb :=
  match db.reviewSource resolution.externalId resolution.connectionId with
  | .error (.notFound what) => do
    enabled "google"
    .error (.notFound what)
  | .error e => .error e
  | .ok connection => do
    if connection.provider ≠ "vcard" then enabled connection.provider
    db.answer rt connection.id resolution

end SyncDb

/-- A live link that satisfies `p` stops for the reason. -/
def Link.close (reason : UnlinkReason) (p : Link → Bool) (l : Link) : Link :=
  if p l && l.isLive then { l with unlinkReason := some reason } else l

theorem Link.close_id (reason : UnlinkReason) (p : Link → Bool) (l : Link) :
    (l.close reason p).id = l.id := by
  unfold Link.close
  split <;> rfl

/-! ### The connection -/

/-- `words(provider).name`. -/
def providerName (provider : String) : String :=
  if provider = "google" then "Google Contacts"
  else if provider = "icloud" then "iCloud Contacts"
  else if provider = "microsoft" then "Microsoft 365 Contacts"
  else "Contact import"

/-- `words(provider).account`. -/
def accountWord (provider : String) : String :=
  if provider = "google" then "Google account"
  else if provider = "icloud" then "Apple ID"
  else if provider = "microsoft" then "Microsoft account"
  else "source"

def maxGroups : ℕ := 200

/-- `group_id_is_shaped`. -/
def groupIdIsShaped (provider id : String) : Bool :=
  id ≠ "" && decide (id.utf8ByteSize ≤ 255) &&
    if provider = "google" then "contactGroups/".toList.isPrefixOf id.toList
    else decide (id = ungroupedId) || !id.toList.any isWhitespace

/-- The ids of a selection: trimmed, sorted, each once. -/
def selectionIds (groupIds : List String) : List String :=
  ((groupIds.map trim).insertionSort (· ≤ ·)).destutter (· ≠ ·)

/-- `str::eq_ignore_ascii_case`. -/
def eqIgnoreAsciiCase (a b : String) : Bool :=
  decide (a.toList.map Char.toLower = b.toList.map Char.toLower)

namespace SyncDb

/-- The live connection to a provider. -/
def connection (db : SyncDb) (provider : String) : Option Connection :=
  db.connections.rows.find? fun c => decide (c.provider = provider) && !c.disconnected

def liveConnection (db : SyncDb) (provider : String) : AppResult Connection :=
  orError (.notFound (providerName provider ++ " connection")) (db.connection provider)

/-- `set_selection`. -/
def setSelection (db : SyncDb) (provider : String) (groupIds : List String) : AppResult SyncDb :=
  let ids := selectionIds groupIds
  if maxGroups < ids.length ∨ ids.all (groupIdIsShaped provider) = false then
    .error (.validation "group_ids"
      ("must be " ++ groupWord provider ++ " ids, at most " ++ toString maxGroups))
  else do
    let connection ← db.liveConnection provider
    .ok { db with
      connections := db.connections.update connection.id fun c => { c with selectedGroups := ids } }

/-- `disconnect`: the row and its links are kept and marked. -/
def disconnect (db : SyncDb) (provider : String) : AppResult SyncDb := do
  let connection ← db.liveConnection provider
  .ok { db with
    connections := db.connections.update connection.id fun c =>
      { c with disconnected := true, isActive := false, syncToken := none }
    links := db.links.map (Link.close .disconnected fun l => l.connectionId = connection.id)
      (Link.close_id _ _) }

/-- `record_connection`: the live connection to the same account is taken up again, else there is a
new one.  `neverSynced` says that `last_sync_at` of the live connection is NULL. -/
def recordConnection (db : SyncDb) (provider accountEmail : String) (neverSynced : Bool) :
    AppResult SyncDb :=
  match db.connection provider with
  | some existing =>
    if eqIgnoreAsciiCase existing.accountEmail accountEmail then
      .ok { db with
        connections := db.connections.update existing.id fun c =>
          { c with syncStatus := if neverSynced then .never else .success, isActive := true } }
    else
      .error (.conflict ("This organization is connected to " ++ existing.accountEmail ++
        ". Disconnect it before connecting a different " ++ accountWord provider ++ "."))
  | none =>
    .ok { db with
      connections := db.connections.insert fun id =>
        { id := id
          provider := provider
          accountEmail := accountEmail
          isActive := true
          syncStatus := .never
          syncToken := none
          selectedGroups := []
          disconnected := false } }

end SyncDb

/-! ### One contact -/

namespace SyncDb

def assertContact (db : SyncDb) (contactId : Uuid) : AppResult Contact :=
  orError (.notFound "Contact") (db.contacts.find contactId)

/-- The live links of a contact. -/
def liveLinksOf (db : SyncDb) (contactId : Uuid) : List Link :=
  db.links.rows.filter fun l => decide (l.contactId = contactId) && l.isLive

/-- The link rows of a contact. -/
def linksOf (db : SyncDb) (contactId : Uuid) : List Link :=
  db.links.rows.filter fun l => decide (l.contactId = contactId)

/-- `unlink`. -/
def unlink (db : SyncDb) (contactId : Uuid) : AppResult SyncDb := do
  let _ ← db.assertContact contactId
  if db.liveLinksOf contactId = [] then .error (.notFound "Contact sync link")
  else
    .ok { db with
      links := db.links.map (Link.close .unlinked fun l => l.contactId = contactId)
        (Link.close_id _ _) }

/-- `DELETE FROM contacts`: the rows that refer to the contact go with it. -/
def eraseContact (db : SyncDb) (contactId : Uuid) : SyncDb :=
  { db with
    contacts := db.contacts.erase contactId
    links := db.links.filter fun l => decide (l.contactId ≠ contactId)
    candidates := db.candidates.filter fun k => decide (k.candidateContactId ≠ contactId)
    locks := db.locks.filter fun l => l.1 ≠ contactId }

/-- `delete_contact`. -/
def deleteContact (db : SyncDb) (contactId : Uuid) (outside : Option AppError) :
    AppResult SyncDb := do
  let _ ← db.assertContact contactId
  match outside with
  | some e => .error e
  | none => .ok (db.eraseContact contactId)

/-- The records of the links are remembered by their digests, each once. -/
def suppress (rt : Runtime) (suppressions : List (String × String)) (links : List Link) :
    List (String × String) :=
  links.foldl (fun acc l =>
    if (l.provider, externalIdDigest rt l.externalId) ∈ acc then acc
    else acc ++ [(l.provider, externalIdDigest rt l.externalId)]) suppressions

/-- What an import knows about a contact goes, and its records are remembered by their digests. -/
def forgetImport (rt : Runtime) (db : SyncDb) (contactId : Uuid) : SyncDb :=
  { db with
    suppressions := suppress rt db.suppressions (db.linksOf contactId)
    candidates := db.candidates.filter fun k =>
      !(db.linksOf contactId).any fun l => decide (l.externalId = k.externalId)
    links := db.links.filter fun l => decide (l.contactId ≠ contactId)
    locks := db.locks.filter fun l => l.1 ≠ contactId }

/-- `remove_imported_data`: a contact that the import created is deleted, any other one keeps its
row. -/
def removeImportedData (rt : Runtime) (db : SyncDb) (contactId : Uuid) (reason : String)
    (outside : Option AppError) : AppResult SyncDb :=
  if trim reason = "" then
    .error (.validation "reason" "say who asked for the removal, or why")
  else do
    let _ ← db.assertContact contactId
    if db.linksOf contactId = [] then .error (.notFound "Imported contact data")
    else if (db.linksOf contactId).any fun l => decide (l.origin = .created) then
      match outside with
      | some e => .error e
      | none => .ok ((db.forgetImport rt contactId).eraseContact contactId)
    else .ok (db.forgetImport rt contactId)

/-- `release_lock`. -/
def releaseLock (db : SyncDb) (contactId : Uuid) (field : Field) : AppResult SyncDb := do
  let _ ← db.assertContact contactId
  if db.isLocked contactId field then
    .ok { db with locks := db.locks.filter fun l => l ≠ (contactId, field) }
  else .error (.notFound "Field lock")

end SyncDb

/-! ### Edits and locks

`contact_sync/locks.rs`: an edit of a contact that has a live link compares the lockable fields
before and after the write, as texts, and locks those that differ. -/

/-- `string_agg(.., ',')`; of no rows it is NULL, read as an empty text. -/
def stringAgg (l : List String) : String := String.ofList ([','].intercalate (l.map (·.toList)))

/-- `phone_type || ':' || number || ':' || extension`. -/
def ContactPhone.render (p : ContactPhone) : String :=
  p.phoneType.asStr ++ ":" ++ p.number ++ ":" ++ p.extension.getD ""

/-- The order of `string_agg` over the phones. -/
def ContactPhone.before (p q : ContactPhone) : Prop :=
  p.phoneType.asStr < q.phoneType.asStr ∨
    p.phoneType.asStr = q.phoneType.asStr ∧ p.number ≤ q.number

instance : DecidableRel ContactPhone.before := fun _ _ => inferInstanceAs (Decidable (_ ∨ _))

/-- `EditSnapshot`: the lockable fields of a contact as comparable texts. -/
abbrev EditSnapshot := Field → String

/-- `EditSnapshot::capture`: NULL reads as an empty text. -/
def EditSnapshot.capture (c : Contact) : EditSnapshot
  | .firstName => c.firstName
  | .lastName => c.lastName
  | .email => c.email.getD ""
  | .title => c.title.getD ""
  | .department => c.department.getD ""
  | .companyName => c.companyName.getD ""
  | .notes => c.notes.getD ""
  | .tags => stringAgg (c.currentTags.insertionSort (· ≤ ·))
  | .phones => stringAgg ((c.phones.insertionSort ContactPhone.before).map (·.render))

/-- `changed_fields`. -/
def EditSnapshot.changedFields (before after : EditSnapshot) : List Field :=
  Field.all.filter fun f => before f ≠ after f

/-- What an edit writes: staff the whole row, with the mirrors recomputed (`update_contact`), a
portal contact its own name and numbers (`update_self`). -/
inductive ContactEdit where
  | staff (row : Contact)
  | self (firstName lastName phone mobile : Option String)
deriving DecidableEq, Repr

def ContactEdit.apply : ContactEdit → Contact → Contact
  | staff row, c => recomputeContactMirrors { row with id := c.id }
  | self firstName lastName phone mobile, c =>
    { c with
      firstName := firstName.getD c.firstName
      lastName := lastName.getD c.lastName
      phone := phone.or c.phone
      mobile := mobile.or c.mobile }

@[simp] theorem ContactEdit.apply_id (e : ContactEdit) (c : Contact) : (e.apply c).id = c.id := by
  cases e <;> rfl

namespace SyncDb

/-- `lock_edited_fields`; a lock there is already stays. -/
def lockFields (db : SyncDb) (contactId : Uuid) (fields : List Field) : SyncDb :=
  { db with
    locks := db.locks ++ (fields.filter fun f => !db.isLocked contactId f).map (contactId, ·) }

def writeEdit (db : SyncDb) (contactId : Uuid) (edit : ContactEdit) : SyncDb :=
  { db with contacts := db.contacts.update contactId edit.apply edit.apply_id }

/-- An edit in its transaction: `capture_if_linked`, the write, `lock_edited_fields`. -/
def editContact (db : SyncDb) (contactId : Uuid) (edit : ContactEdit) : AppResult SyncDb := do
  let before ← db.assertContact contactId
  if db.liveLinksOf contactId = [] then .ok (db.writeEdit contactId edit)
  else .ok ((db.writeEdit contactId edit).lockFields contactId
    ((EditSnapshot.capture before).changedFields (.capture (edit.apply before))))

end SyncDb

/-! ### What the requests write -/

section Requests

variable {rt : Runtime} {db db' : SyncDb} {contactId : Uuid} {provider : String}

theorem setSelection_eq_ok {groupIds : List String}
    (h : db.setSelection provider groupIds = .ok db') :
    ∃ k, db.connection provider = some k ∧ db' = { db with
      connections := db.connections.update k.id fun c =>
        { c with selectedGroups := selectionIds groupIds } } := by
  unfold SyncDb.setSelection at h
  dsimp only at h
  split at h
  · cases h
  · obtain ⟨k, hk, h⟩ := bind_eq_ok.mp h
    cases h
    exact ⟨k, orError_eq_ok.mp hk, rfl⟩

theorem disconnect_eq_ok (h : db.disconnect provider = .ok db') :
    ∃ k, db.connection provider = some k ∧ db' = { db with
      connections := db.connections.update k.id fun c =>
        { c with disconnected := true, isActive := false, syncToken := none }
      links := db.links.map (Link.close .disconnected fun l => l.connectionId = k.id)
        (Link.close_id _ _) } := by
  obtain ⟨k, hk, h⟩ := bind_eq_ok.mp h
  cases h
  exact ⟨k, orError_eq_ok.mp hk, rfl⟩

/-- A connection is taken up again, or there is a new one. -/
theorem recordConnection_eq_ok {accountEmail : String} {neverSynced : Bool}
    (h : db.recordConnection provider accountEmail neverSynced = .ok db') :
    (∃ k, db.connection provider = some k ∧ db' = { db with
      connections := db.connections.update k.id fun c =>
        { c with syncStatus := if neverSynced then .never else .success, isActive := true } }) ∨
    db.connection provider = none ∧ db' = { db with
      connections := db.connections.insert fun id =>
        { id := id
          provider := provider
          accountEmail := accountEmail
          isActive := true
          syncStatus := .never
          syncToken := none
          selectedGroups := []
          disconnected := false } } := by
  unfold SyncDb.recordConnection at h
  split at h
  · next k hk =>
    split at h <;> cases h
    exact .inl ⟨k, hk, rfl⟩
  · next hk =>
    cases h
    exact .inr ⟨hk, rfl⟩

theorem unlink_eq_ok (h : db.unlink contactId = .ok db') : db' = { db with
    links := db.links.map (Link.close .unlinked fun l => l.contactId = contactId)
      (Link.close_id _ _) } := by
  obtain ⟨c, -, h⟩ := bind_eq_ok.mp h
  split at h <;> cases h
  rfl

theorem removeImportedData_eq_ok {reason : String} {outside : Option AppError}
    (h : db.removeImportedData rt contactId reason outside = .ok db') :
    db' = db.forgetImport rt contactId ∨
      db' = (db.forgetImport rt contactId).eraseContact contactId := by
  unfold SyncDb.removeImportedData at h
  split at h
  · cases h
  · obtain ⟨c, -, h⟩ := bind_eq_ok.mp h
    split at h
    · cases h
    · split at h
      · split at h <;> cases h
        exact .inr rfl
      · cases h
        exact .inl rfl

theorem deleteContact_eq_ok {outside : Option AppError}
    (h : db.deleteContact contactId outside = .ok db') : db' = db.eraseContact contactId := by
  obtain ⟨c, -, h⟩ := bind_eq_ok.mp h
  cases outside <;> cases h
  rfl

theorem releaseLock_eq_ok {field : Field} (h : db.releaseLock contactId field = .ok db') :
    db' = { db with locks := db.locks.filter fun l => l ≠ (contactId, field) } := by
  obtain ⟨c, -, h⟩ := bind_eq_ok.mp h
  split at h <;> cases h
  rfl

/-- An edit writes the row, and locks what it changed if the contact has a live link. -/
theorem editContact_eq_ok {edit : ContactEdit} (h : db.editContact contactId edit = .ok db') :
    ∃ c, db.contacts.find contactId = some c ∧
      (db.liveLinksOf contactId = [] ∧ db' = db.writeEdit contactId edit ∨
        db.liveLinksOf contactId ≠ [] ∧ db' = (db.writeEdit contactId edit).lockFields contactId
          ((EditSnapshot.capture c).changedFields (.capture (edit.apply c)))) := by
  obtain ⟨c, hc, h⟩ := bind_eq_ok.mp h
  refine ⟨c, orError_eq_ok.mp hc, ?_⟩
  split at h
  · next hl =>
    cases h
    exact .inl ⟨hl, rfl⟩
  · next hl =>
    cases h
    exact .inr ⟨hl, rfl⟩

theorem toOption_eq_some {ε α : Type} {x : Except ε α} {a : α} (h : x.toOption = some a) :
    x = .ok a := by
  cases x with
  | error e => cases h
  | ok b => exact congrArg _ (Option.some.inj h)

end Requests

/-! ### The machine -/

/-- Everything that happens to the tables: a sync, or one request. -/
inductive SyncEvent where
  | sync (connectionId : Uuid) (source : Source) (opts : RunOptions)
  | resolve (enabled : String → AppResult Unit) (resolution : Resolution)
  | setSelection (provider : String) (groupIds : List String)
  | connect (provider accountEmail : String) (neverSynced : Bool)
  | disconnect (provider : String)
  | unlink (contactId : Uuid)
  | removeImportedData (contactId : Uuid) (reason : String) (outside : Option AppError)
  | deleteContact (contactId : Uuid) (outside : Option AppError)
  | releaseLock (contactId : Uuid) (field : Field)
  | edit (contactId : Uuid) (edit : ContactEdit)

namespace SyncDb

/-- One event; a request that is refused does not happen. -/
def step (rt : Runtime) (db : SyncDb) : SyncEvent → Option SyncDb
  | .sync connectionId source opts => some (runTracked rt db connectionId source opts).1
  | .resolve enabled resolution => (db.resolve rt enabled resolution).toOption
  | .setSelection provider groupIds => (db.setSelection provider groupIds).toOption
  | .connect provider accountEmail neverSynced =>
    (db.recordConnection provider accountEmail neverSynced).toOption
  | .disconnect provider => (db.disconnect provider).toOption
  | .unlink contactId => (db.unlink contactId).toOption
  | .removeImportedData contactId reason outside =>
    (db.removeImportedData rt contactId reason outside).toOption
  | .deleteContact contactId outside => (db.deleteContact contactId outside).toOption
  | .releaseLock contactId field => (db.releaseLock contactId field).toOption
  | .edit contactId edit => (db.editContact contactId edit).toOption

end SyncDb

end Mokosh.ContactSync
