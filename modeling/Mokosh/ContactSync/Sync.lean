import Mokosh.Lib.Table
import Mokosh.ContactSync.Matching
import Mokosh.ContactSync.Contacts

/-! # One sync of one connection

`contact_sync/sync.rs`: the tables a sync reads and writes (`SyncDb`), what is read once at its
start (`Snapshot`), the decision about one record (`plan`), what the decision does to the tables
(`applyRecord`), and the pass over all records (`applyRecords`, `runTracked`).

* A record is decided against the snapshot, which grows while the pass runs (`Snapshot.remember`,
  `Snapshot.markLinked`).
* A record the database refuses is rolled back and counted; `RunOptions.fault` says which.
* A cancel is seen between two chunks of records and leaves the rest undone.
* A full read without a failed record flags the links of which it has seen no record.

`preview` runs the same decisions over the same snapshot and writes nothing. -/

namespace Mokosh.ContactSync

/-- A provider's cursor: opaque, compared and never computed with. -/
abbrev SyncToken := ℕ

/-! ### Tables -/

inductive UnlinkReason where
  | unlinked
  | disconnected
deriving DecidableEq, Repr

inductive LinkOrigin where
  | created
  | linked
deriving DecidableEq, Repr

/-- A row of `contact_sync_links`; it is live while nobody has unlinked it. -/
structure Link where
  id : Uuid
  connectionId : Uuid
  provider : String
  externalId : String
  etag : Option String
  contactId : Uuid
  deletedInSource : Bool
  unlinkReason : Option UnlinkReason
  origin : LinkOrigin
  suggestedCompanyId : Option Uuid
deriving DecidableEq, Repr

def Link.isLive (l : Link) : Bool := l.unlinkReason.isNone

/-- `source_snapshot`: the record as a reviewer compares it. -/
structure SourceSnapshot where
  displayName : Option String
  firstName : String
  lastName : String
  email : Option String
  emails : List String
  phones : List MappedPhone
  companyName : Option String
  title : Option String
  department : Option String
  notes : Option String
  labels : List String
deriving DecidableEq, Repr

/-- The `status` column of `contact_sync_candidates`; a row is created `opened`. -/
inductive CandidateStatus where
  | opened
  | linked
  | created
  | skipped
deriving DecidableEq, Repr

/-- A row of `contact_sync_candidates`. -/
structure Candidate where
  id : Uuid
  connectionId : Uuid
  externalId : String
  etag : Option String
  candidateContactId : Uuid
  matchReason : MatchReason
  sourceSnapshot : SourceSnapshot
  status : CandidateStatus
deriving DecidableEq, Repr

inductive SyncStatus where
  | never
  | inProgress
  | success
  | failed
  | throttled
  | reconnectRequired
deriving DecidableEq, Repr

/-- A row of `contact_sync_connections`. -/
structure Connection where
  id : Uuid
  provider : String
  accountEmail : String
  isActive : Bool
  syncStatus : SyncStatus
  syncToken : Option SyncToken
  selectedGroups : List String
  disconnected : Bool
deriving DecidableEq, Repr

structure Company where
  id : Uuid
  name : String
deriving DecidableEq, Repr

structure SyncDb where
  contacts : Table Contact.id
  companies : List Company
  links : Table Link.id
  candidates : Table Candidate.id
  /-- `contact_field_locks`. -/
  locks : List (Uuid × Field)
  connections : Table Connection.id
  /-- `contact_sync_suppressions`: provider and digest. -/
  suppressions : List (String × String)

namespace SyncDb

/-- A tenant before anything has happened. -/
def fresh : SyncDb where
  contacts := ∅
  companies := []
  links := ∅
  candidates := ∅
  locks := []
  connections := ∅
  suppressions := []

def isLocked (db : SyncDb) (contactId : Uuid) (field : Field) : Bool :=
  decide ((contactId, field) ∈ db.locks)

/-- The live row of a record. -/
def liveLink (db : SyncDb) (connectionId : Uuid) (externalId : String) : Option Link :=
  db.links.rows.find? fun l =>
    l.isLive && decide (l.connectionId = connectionId ∧ l.externalId = externalId)

end SyncDb

/-! ### The snapshot -/

/-- Everything that is read once for a pass. -/
structure Snapshot where
  locals : List LocalContact
  /-- The live links, the newest of a record first. -/
  links : List Link
  /-- The pairs a human has resolved. -/
  answered : List (String × Uuid)
  /-- The records a reviewer chose not to import. -/
  skipped : List String
  unlinked : List String
  suppressed : List String
  /-- The companies by the key of their name. -/
  companies : List (String × Uuid)

def Contact.toLocal (rt : Runtime) (db : SyncDb) (connectionId : Uuid) (c : Contact) :
    LocalContact :=
  localFromValues rt c.id c.email
    (c.phones.map (·.number) ++ c.phone.toList ++ c.mobile.toList) c.fullName
    ((c.companies.flatMap fun l => (db.companies.filter fun co => co.id = l.companyId).map (·.name))
      ++ c.companyName.toList)
    (db.links.rows.any fun l =>
      l.isLive && decide (l.contactId = c.id ∧ l.connectionId = connectionId))

/-- `ContactSyncEngine::snapshot`. -/
def SyncDb.snapshot (rt : Runtime) (db : SyncDb) (connectionId : Uuid) (provider : String) :
    Snapshot :=
  { locals := db.contacts.rows.map (Contact.toLocal rt db connectionId)
    links := db.links.rows.filter fun l => l.isLive && decide (l.connectionId = connectionId)
    answered := (db.candidates.rows.filter fun k =>
      decide (k.connectionId = connectionId ∧ k.status ≠ .opened)).map
        fun k => (k.externalId, k.candidateContactId)
    skipped := (db.candidates.rows.filter fun k =>
      decide (k.connectionId = connectionId ∧ k.status = .skipped)).map (·.externalId)
    unlinked := (db.links.rows.filter fun l =>
      decide (l.connectionId = connectionId ∧ l.unlinkReason = some .unlinked)).map (·.externalId)
    suppressed := (db.suppressions.filter fun s => s.1 = provider).map Prod.snd
    companies := db.companies.filterMap fun co => (nameKey rt co.name).map (·, co.id) }

namespace Snapshot

def findLink (s : Snapshot) (externalId : String) : Option Link :=
  s.links.find? fun l => l.externalId = externalId

/-- A contact this pass created is a match target for the records after it. -/
def remember (rt : Runtime) (s : Snapshot) (contactId : Uuid) (record : SourceContact)
    (link : Link) : Snapshot :=
  let mapped := mapContact rt record
  { s with
    locals := s.locals ++ [localFromValues rt contactId mapped.email (mapped.phones.map (·.number))
      (mapped.firstName ++ " " ++ mapped.lastName) mapped.companyName.toList true]
    links := link :: s.links }

def markLinked (s : Snapshot) (contactId : Uuid) (link : Link) : Snapshot :=
  { s with
    locals := s.locals.map fun l => if l.contactId = contactId then { l with linked := true } else l
    links := link :: s.links }

end Snapshot

/-! ### The plan -/

/-- What the sync will do with one record. -/
inductive Plan where
  | excluded
  | flagDeleted (link : Link)
  | notSelected
  | unchanged
  | update (link : Link)
  | alreadyReviewed
  | link (contactId : Uuid)
  | review (pairs : List (Uuid × MatchReason))
  | create (suggestion : Option Uuid)

def SourceContact.incoming (rt : Runtime) (record : SourceContact) : IncomingKeys :=
  let mapped := mapContact rt record
  incomingFromValues rt record.emails
    (record.phones.flatMap fun p => p.canonical.toList ++ [p.number])
    (mapped.firstName ++ " " ++ mapped.lastName) mapped.companyName

/-- The record carries a selected label. -/
def SourceContact.isSelected (record : SourceContact) (selected : List String) : Bool :=
  record.groupIds.any fun g => decide (g ∈ selected)

/-- A person unlinked the record, or had its data removed. -/
def Snapshot.excludes (rt : Runtime) (s : Snapshot) (externalId : String) : Bool :=
  decide (externalId ∈ s.unlinked) || decide (externalIdDigest rt externalId ∈ s.suppressed)

/-- The company a new contact may belong to, if exactly one has the name. -/
def suggestCompany (rt : Runtime) (companies : List (String × Uuid)) (companyName : Option String) :
    Option Uuid :=
  (companyName.bind (nameKey rt)).bind fun key =>
    match (companies.filter fun co => co.1 = key).map Prod.snd with
    | [only] => some only
    | _ => none

/-- The decision about a record that is not linked and that no reviewer has skipped. -/
def planMatch (rt : Runtime) (record : SourceContact) (s : Snapshot) : Plan :=
  match decideMatch (record.incoming rt) s.locals with
  | .link contactId => .link contactId
  | .review pairs =>
    match pairs.filter fun p => (record.externalId, p.1) ∉ s.answered with
    | [] => .alreadyReviewed
    | unanswered => .review unanswered
  | .create => .create (suggestCompany rt s.companies (mapContact rt record).companyName)

/-- A record without a selected label is refused, except that a delta that says nothing about the
groups of a linked record does not unselect it. -/
def refusedBySelection (record : SourceContact) (selected : List String) (link : Option Link)
    (fullRead : Bool) : Bool :=
  !record.isSelected selected && (fullRead || !record.groupIds.isEmpty || link.isNone)

def plan (rt : Runtime) (record : SourceContact) (selected : List String) (s : Snapshot)
    (fullRead : Bool) : Plan :=
  if s.excludes rt record.externalId then .excluded
  else if record.deleted then
    match s.findLink record.externalId with
    | some link => if link.deletedInSource then .unchanged else .flagDeleted link
    | none => .unchanged
  else if refusedBySelection record selected (s.findLink record.externalId) fullRead then
    .notSelected
  else match s.findLink record.externalId with
    | some link =>
      if link.etag.isSome ∧ link.etag = record.etag ∧ link.deletedInSource = false then .unchanged
      else .update link
    | none =>
      if record.externalId ∈ s.skipped then .alreadyReviewed else planMatch rt record s

/-! ### Applying a record -/

/-- What became of one record. -/
inductive Outcome where
  | created (contactId : Uuid) (link : Link)
  | linked (contactId : Uuid) (link : Link)
  | updated
  | unchanged
  | queued
  | awaitingReview
  | alreadyReviewed
  | notSelected
  | excluded
  | deletedInSource
deriving DecidableEq, Repr

/-- The names of the selected labels a record carries. -/
def labelsOf (record : SourceContact) (selected : List String) (groups : List SourceGroup) :
    List String :=
  ((record.groupIds.filter fun g => g ∈ selected).filter fun g => g ≠ ungroupedId).filterMap
    fun g => (groups.reverse.find? fun x => x.id = g).map (·.name)

def sourceSnapshot (rt : Runtime) (record : SourceContact) (labels : List String) :
    SourceSnapshot :=
  let mapped := mapContact rt record
  { displayName := record.displayName
    firstName := mapped.firstName
    lastName := mapped.lastName
    email := mapped.email
    emails := record.emails
    phones := mapped.phones
    companyName := mapped.companyName
    title := mapped.title
    department := mapped.department
    notes := mapped.notes
    labels := labels }

namespace SyncDb

/-- `apply_fields`, and whether anything was written. -/
def applyFields (db : SyncDb) (contactId : Uuid) (record : SourceContact) (mapped : MappedContact)
    (labels : List String) (pass : Pass) : AppResult (SyncDb × Bool) :=
  match db.contacts.find contactId with
  | none => .error (.notFound "contact")
  | some c =>
    let w := fieldWrites c (db.isLocked contactId) record mapped labels pass
    if w.isEmpty then .ok (db, false)
    else .ok ({ db with contacts := db.contacts.update contactId (·.write w) (write_id · w) }, true)

def newLink (connection : Connection) (externalId : String) (etag : Option String)
    (contactId : Uuid) (origin : LinkOrigin) (suggestion : Option Uuid) (id : Uuid) : Link :=
  { id := id
    connectionId := connection.id
    provider := connection.provider
    externalId := externalId
    etag := etag
    contactId := contactId
    deletedInSource := false
    unlinkReason := none
    origin := origin
    suggestedCompanyId := suggestion }

/-- `insert_link`; a record has one live link. -/
def insertLink (db : SyncDb) (connection : Connection) (record : SourceContact) (contactId : Uuid)
    (origin : LinkOrigin) (suggestion : Option Uuid) : AppResult (SyncDb × Link) :=
  match db.liveLink connection.id record.externalId with
  | some _ => .error (.database "idx_contact_sync_links_live")
  | none =>
    let mk := newLink connection record.externalId record.etag contactId origin suggestion
    .ok ({ db with links := db.links.insert mk }, mk db.links.next)

/-- `flag_deleted_in`. -/
def flagDeleted (db : SyncDb) (linkId : Uuid) : SyncDb :=
  { db with links := db.links.update linkId fun l => { l with deletedInSource := true } }

/-- The `UPDATE` of the link after its contact was brought up to date. -/
def touchLink (db : SyncDb) (linkId : Uuid) (etag : Option String) : SyncDb :=
  { db with
    links := db.links.update linkId fun l => { l with etag := etag, deletedInSource := false } }

/-- The open question about a pair. -/
def openQuestion (db : SyncDb) (connectionId : Uuid) (externalId : String) (contactId : Uuid) :
    Option Candidate :=
  db.candidates.rows.find? fun k => decide (k.status = .opened ∧ k.connectionId = connectionId ∧
    k.externalId = externalId ∧ k.candidateContactId = contactId)

/-- Put one question; an open one is found again, and refreshed if the record has a new etag.  Says
whether the question is new. -/
def ask (db : SyncDb) (connectionId : Uuid) (record : SourceContact) (shown : SourceSnapshot)
    (pair : Uuid × MatchReason) : SyncDb × Bool :=
  match db.openQuestion connectionId record.externalId pair.1 with
  | none =>
    ({ db with
        candidates := db.candidates.insert fun id =>
          { id := id
            connectionId := connectionId
            externalId := record.externalId
            etag := record.etag
            candidateContactId := pair.1
            matchReason := pair.2
            sourceSnapshot := shown
            status := .opened } }, true)
  | some k =>
    if k.etag = record.etag then (db, false)
    else
      ({ db with
          candidates := db.candidates.update k.id fun k =>
            { k with etag := record.etag, sourceSnapshot := shown, matchReason := pair.2 } }, false)

/-- Put all questions of a record; says whether one of them is new. -/
def askAll (db : SyncDb) (connectionId : Uuid) (record : SourceContact) (shown : SourceSnapshot) :
    List (Uuid × MatchReason) → SyncDb × Bool
  | [] => (db, false)
  | pair :: pairs =>
    let (db', isNew) := db.ask connectionId record shown pair
    let (db'', rest) := db'.askAll connectionId record shown pairs
    (db'', isNew || rest)

/-- `import_contact_in`: the contact is inserted; says its id. -/
def importContact (db : SyncDb) (mapped : MappedContact) (labels : List String) :
    SyncDb × Uuid :=
  ({ db with contacts := db.contacts.insert (importedContact mapped labels) }, db.contacts.next)

end SyncDb

/-- What stays the same for all records of a pass. -/
structure RunContext where
  rt : Runtime
  connection : Connection
  groups : List SourceGroup
  fullRead : Bool

/-- `apply_record_in_tx`. -/
def applyRecord (ctx : RunContext) (db : SyncDb) (s : Snapshot) (record : SourceContact) :
    AppResult (SyncDb × Outcome) :=
  let mapped := mapContact ctx.rt record
  let labels := labelsOf record ctx.connection.selectedGroups ctx.groups
  match plan ctx.rt record ctx.connection.selectedGroups s ctx.fullRead with
  | .excluded => .ok (db, .excluded)
  | .notSelected => .ok (db, .notSelected)
  | .unchanged => .ok (db, .unchanged)
  | .alreadyReviewed => .ok (db, .alreadyReviewed)
  | .flagDeleted link => .ok (db.flagDeleted link.id, .deletedInSource)
  | .update link => do
    let (db', changed) ← db.applyFields link.contactId record mapped labels .owned
    .ok (db'.touchLink link.id record.etag, if changed then .updated else .unchanged)
  | .link contactId => do
    let (db', _) ← db.applyFields contactId record mapped labels .firstLink
    let (db'', link) ← db'.insertLink ctx.connection record contactId .linked none
    .ok (db'', .linked contactId link)
  | .review pairs =>
    let (db', isNew) := db.askAll ctx.connection.id record
      (sourceSnapshot ctx.rt record labels) pairs
    .ok (db', if isNew then .queued else .awaitingReview)
  | .create suggestion => do
    let (db', contactId) := db.importContact mapped labels
    let (db'', link) ← db'.insertLink ctx.connection record contactId .created suggestion
    .ok (db'', .created contactId link)

/-! ### The pass -/

structure SyncReport where
  fullRead : Bool := false
  created : ℕ := 0
  linked : ℕ := 0
  updated : ℕ := 0
  unchanged : ℕ := 0
  queued : ℕ := 0
  awaitingReview : ℕ := 0
  alreadyReviewed : ℕ := 0
  notSelected : ℕ := 0
  excluded : ℕ := 0
  deletedInSource : ℕ := 0
  failed : ℕ := 0
  total : ℕ := 0
  cancelled : Bool := false
deriving DecidableEq, Repr

def SyncReport.count (r : SyncReport) : Outcome → SyncReport
  | .created _ _ => { r with created := r.created + 1 }
  | .linked _ _ => { r with linked := r.linked + 1 }
  | .updated => { r with updated := r.updated + 1 }
  | .unchanged => { r with unchanged := r.unchanged + 1 }
  | .queued => { r with queued := r.queued + 1 }
  | .awaitingReview => { r with awaitingReview := r.awaitingReview + 1 }
  | .alreadyReviewed => { r with alreadyReviewed := r.alreadyReviewed + 1 }
  | .notSelected => { r with notSelected := r.notSelected + 1 }
  | .excluded => { r with excluded := r.excluded + 1 }
  | .deletedInSource => { r with deletedInSource := r.deletedInSource + 1 }

/-- How the snapshot grows with a record. -/
def Snapshot.after (rt : Runtime) (s : Snapshot) (record : SourceContact) : Outcome → Snapshot
  | .created contactId link => s.remember rt contactId record link
  | .linked contactId link => s.markLinked contactId link
  | .updated | .unchanged | .queued | .awaitingReview | .alreadyReviewed | .notSelected | .excluded
  | .deletedInSource => s

/-- Where a pass stands. -/
structure PassState where
  db : SyncDb
  snapshot : Snapshot
  report : SyncReport
  /-- The outcome of each record so far that did not fail. -/
  outcomes : List (SourceContact × Outcome)

/-- One record under its savepoint: one that fails is rolled back and counted. -/
def applyOne (ctx : RunContext) (refused : Bool) (st : PassState) (record : SourceContact) :
    PassState :=
  match applyRecord ctx st.db st.snapshot record with
  | .error _ => { st with report := { st.report with failed := st.report.failed + 1 } }
  | .ok (db', o) =>
    if refused then { st with report := { st.report with failed := st.report.failed + 1 } }
    else
      { db := db'
        snapshot := st.snapshot.after ctx.rt record o
        report := st.report.count o
        outcomes := st.outcomes ++ [(record, o)] }

/-- The records one after the other; `fault i` says that the database refuses record `i`. -/
def applyRecords (ctx : RunContext) (fault : ℕ → Bool) :
    ℕ → PassState → List SourceContact → PassState
  | _, st, [] => st
  | i, st, record :: records =>
    applyRecords ctx fault (i + 1) (applyOne ctx (fault i) st record) records

/-! ### The run -/

structure SourceChanges where
  contacts : List SourceContact
  nextSyncToken : Option SyncToken
  wasFullResync : Bool

inductive SourceError where
  | throttled
  | unauthorized
  | failed (reason : String)
deriving DecidableEq, Repr

/-- A provider: `ContactSyncProvider`. -/
structure Source where
  provider : String
  listsEverything : Bool
  listGroups : Except SourceError (List SourceGroup)
  changesSince : Option SyncToken → Except SourceError SourceChanges

/-- What happens around a run. -/
structure RunOptions where
  /-- The records the database refuses, by their place in the answer. -/
  fault : ℕ → Bool := fun _ => false
  /-- The chunk before which a cancel is seen. -/
  cancelBefore : Option ℕ := none

/-- Why a run did not begin or could not read its source. -/
inductive SyncError where
  | app (error : AppError)
  | source (error : SourceError)
  | internal (message : String)
deriving DecidableEq, Repr

def chunkSize : ℕ := 25

/-- The words of a provider for one of its groups. -/
def groupWord (provider : String) : String :=
  if provider = "google" then "Google label"
  else if provider = "icloud" then "iCloud group"
  else if provider = "microsoft" then "Microsoft 365 folder"
  else "category"

def SourceError.status : SourceError → SyncStatus
  | throttled => .throttled
  | unauthorized => .reconnectRequired
  | failed _ => .failed

namespace SyncDb

def setStatus (db : SyncDb) (connectionId : Uuid) (status : SyncStatus) : SyncDb :=
  { db with
    connections := db.connections.update connectionId fun c => { c with syncStatus := status } }

/-- The cursor is moved: `finish`. -/
def finish (db : SyncDb) (connectionId : Uuid) (next : Option SyncToken) : SyncDb :=
  { db with
    connections := db.connections.update connectionId fun c =>
      { c with syncStatus := .success, syncToken := next } }

end SyncDb

/-- The checks before a run. -/
def startRun (db : SyncDb) (connectionId : Uuid) (source : Source) :
    Except SyncError Connection :=
  match db.connections.find connectionId with
  | none => .error (.app (.notFound "contact sync connection"))
  | some connection =>
    if connection.provider ≠ source.provider then
      .error (.internal ("a " ++ source.provider ++ " provider was handed a " ++
        connection.provider ++ " connection"))
    else if connection.disconnected ∨ connection.isActive = false then
      .error (.app (.conflict "This contact sync connection is not active."))
    else if connection.selectedGroups = [] then
      .error (.app (.conflict (if source.listsEverything then
          "Choose at least one " ++ groupWord connection.provider ++ " to import before syncing."
        else "Choose at least one category to import before importing.")))
    else .ok connection

/-- What is read of the source. -/
def readSource (source : Source) (token : Option SyncToken) :
    Except SourceError (List SourceGroup × SourceChanges) := do
  let groups ← source.listGroups
  let changes ← source.changesSince token
  .ok (groups, changes)

/-- The whole address book was read. -/
def isFullRead (source : Source) (token : Option SyncToken) (changes : SourceChanges) : Bool :=
  source.listsEverything && (token.isNone || changes.wasFullResync)

/-- The records before the cancel, if there is one that is seen. -/
def beforeCancel (opts : RunOptions) (records : List SourceContact) : Option (List SourceContact) :=
  match opts.cancelBefore with
  | none => none
  | some k =>
    if 0 < k ∧ k * chunkSize < records.length then some (records.take (k * chunkSize)) else none

/-- The links a full read has seen no record of. -/
def absentLinks (s : Snapshot) (records : List SourceContact) : List Link :=
  s.links.filter fun l =>
    !l.deletedInSource && !records.any fun r => decide (r.externalId = l.externalId)

/-- The flags of the links that are absent from a full read. -/
def sweep (st : PassState) (absent : List Link) : PassState :=
  { st with
    db := absent.foldl (fun db l => db.flagDeleted l.id) st.db
    report := { st.report with deletedInSource := st.report.deletedInSource + absent.length } }

/-- The end of a pass that was not cancelled: the sweep and the cursor. -/
def endPass (connectionId : Uuid) (changes : SourceChanges) (st : PassState) : PassState :=
  let swept := if st.report.fullRead ∧ st.report.failed = 0 then
    sweep st (absentLinks st.snapshot changes.contacts) else st
  { swept with
    db := if swept.report.failed = 0 then swept.db.finish connectionId changes.nextSyncToken
      else swept.db.setStatus connectionId .failed }

/-- The pass over what was read, with the connection as it was before the run. -/
def passOver (rt : Runtime) (db : SyncDb) (connection : Connection) (source : Source)
    (groups : List SourceGroup) (changes : SourceChanges) (opts : RunOptions) : PassState :=
  let fullRead := isFullRead source connection.syncToken changes
  let ctx : RunContext :=
    { rt := rt, connection := connection, groups := groups, fullRead := fullRead }
  let start : PassState :=
    { db := db.setStatus connection.id .inProgress
      snapshot := db.snapshot rt connection.id connection.provider
      report := { fullRead := fullRead, total := changes.contacts.length }
      outcomes := [] }
  match beforeCancel opts changes.contacts with
  | some records =>
    let st := applyRecords ctx opts.fault 0 start records
    { st with
      db := st.db.setStatus connection.id connection.syncStatus
      report := { st.report with cancelled := true } }
  | none => endPass connection.id changes (applyRecords ctx opts.fault 0 start changes.contacts)

/-- `run_tracked`: the tables after it, and its report. -/
def runTracked (rt : Runtime) (db : SyncDb) (connectionId : Uuid) (source : Source)
    (opts : RunOptions) : SyncDb × Except SyncError SyncReport :=
  match startRun db connectionId source with
  | .error e => (db, .error e)
  | .ok connection =>
    match readSource source connection.syncToken with
    | .error e => (db.setStatus connectionId e.status, .error (.source e))
    | .ok (groups, changes) =>
      let st := passOver rt db connection source groups changes opts
      (st.db, .ok st.report)

/-! ### The preview -/

inductive PreviewOutcome where
  | create
  | link
  | review
  | imported
  | excluded
deriving DecidableEq, Repr

structure PreviewTotals where
  contacts : ℕ := 0
  create : ℕ := 0
  link : ℕ := 0
  review : ℕ := 0
  imported : ℕ := 0
  excluded : ℕ := 0
deriving DecidableEq, Repr

def PreviewTotals.add (t : PreviewTotals) : PreviewOutcome → PreviewTotals
  | .create => { t with contacts := t.contacts + 1, create := t.create + 1 }
  | .link => { t with contacts := t.contacts + 1, link := t.link + 1 }
  | .review => { t with contacts := t.contacts + 1, review := t.review + 1 }
  | .imported => { t with contacts := t.contacts + 1, imported := t.imported + 1 }
  | .excluded => { t with contacts := t.contacts + 1, excluded := t.excluded + 1 }

/-- What the preview says of a plan, if it says anything. -/
def Plan.preview : Plan → Option PreviewOutcome
  | notSelected | flagDeleted _ => none
  | excluded | alreadyReviewed => some .excluded
  | unchanged | update _ => some .imported
  | link _ => some .link
  | review _ => some .review
  | create _ => some .create

structure PreviewRecord where
  groupIds : List String
  outcome : PreviewOutcome
deriving DecidableEq, Repr

structure ImportPreview where
  groups : List SourceGroup
  selection : List String
  records : List PreviewRecord
  totals : PreviewTotals

/-- Where a preview stands. -/
structure PreviewState where
  snapshot : Snapshot
  /-- How many ids were invented so far. -/
  invented : ℕ
  records : List PreviewRecord
  totals : PreviewTotals

/-- The link a preview pretends to make. -/
def simulatedLink (connection : Connection) (record : SourceContact) (contactId id : Uuid) : Link :=
  SyncDb.newLink connection record.externalId record.etag contactId .linked none id

/-- How the preview's snapshot grows with a plan; `invent` supplies the ids. -/
def Snapshot.simulate (rt : Runtime) (connection : Connection) (invent : ℕ → Uuid) (n : ℕ)
    (s : Snapshot) (record : SourceContact) : Plan → Snapshot × ℕ
  | .link contactId =>
    (s.markLinked contactId (simulatedLink connection record contactId (invent n)), n + 1)
  | .create _ =>
    (s.remember rt (invent n) record
      (simulatedLink connection record (invent n) (invent (n + 1))), n + 2)
  | .excluded | .flagDeleted _ | .notSelected | .unchanged | .update _ | .alreadyReviewed
  | .review _ => (s, n)

/-- One record of a preview. -/
def previewOne (rt : Runtime) (connection : Connection) (invent : ℕ → Uuid)
    (offered considered : List String) (fullRead : Bool) (st : PreviewState)
    (record : SourceContact) : PreviewState :=
  let planned := plan rt record considered st.snapshot fullRead
  let (snapshot, invented) := st.snapshot.simulate rt connection invent st.invented record planned
  match planned.preview with
  | none => { st with snapshot := snapshot, invented := invented }
  | some outcome =>
    { snapshot := snapshot
      invented := invented
      records := st.records ++ [⟨record.groupIds.filter fun g => g ∈ offered, outcome⟩]
      totals := st.totals.add outcome }

/-- `preview`: `invent` is where the ids of `Uuid::new_v4` come from. -/
def preview (rt : Runtime) (invent : ℕ → Uuid) (db : SyncDb) (connectionId : Uuid)
    (source : Source) (selection : Option (List String)) : Except SyncError ImportPreview :=
  match db.connections.find connectionId with
  | none => .error (.app (.notFound "contact sync connection"))
  | some connection =>
    if connection.disconnected ∨ connection.isActive = false then
      .error (.app (.conflict "This contact sync connection is not active."))
    else match readSource source none with
      | .error e => .error (.source e)
      | .ok (groups, changes) =>
        let offered := groups.map (·.id)
        let considered := match selection with
          | some chosen => chosen.filter fun g => g ∈ offered
          | none => offered
        let st := (changes.contacts.filter fun r => !r.deleted).foldl
          (previewOne rt connection invent offered considered source.listsEverything)
          { snapshot := db.snapshot rt connectionId connection.provider
            invented := 0
            records := []
            totals := {} }
        .ok { groups := groups, selection := considered, records := st.records, totals := st.totals }

end Mokosh.ContactSync
