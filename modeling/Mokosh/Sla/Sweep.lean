import Mokosh.Lib.Keyed
import Mokosh.Lib.Requests
import Mokosh.Sla.Clock

/-! # The sweep

`sla/worker.rs` and `claim_sla_notification`: any number of sweeps of any number of workers, statement by statement,
while other requests write the tickets as they like.  A sweep takes the time, reads the open tickets, and for each
milestone that a ticket has crossed it claims the row of the ledger and, if the row was not there, dispatches.

* **`alerts_once_and_due`**: a milestone is dispatched at most once, the ticket had crossed it when it was read, and a
  sweep that has come to its end leaves none of those that it read unclaimed.
* **`dispatched_iff_spared`**: an alert that is claimed is dispatched, unless a worker crashes between the two; then it
  never is.
* **`breached_before_at_risk`**: one sweep after the other, an alert that a ticket is at risk comes after one that it is
  breached only if the ticket is due later by then. -/

namespace Mokosh.Sla

open Requests (Handlers World Event Keeps Rule)

/-- What the scan reads of a row of `tickets` and its status. -/
structure TicketRow where
  id : Uuid
  tenantId : Uuid
  assignedToId : Option Uuid
  createdAt : ℤ
  firstResponseDue : Option ℤ
  firstResponseAt : Option ℤ
  resolutionDue : Option ℤ
  resolvedAt : Option ℤ
  closedAt : Option ℤ
  statusIsClosed : Option Bool
deriving DecidableEq

abbrev TicketRows := Keyed fun row : TicketRow => row.id

/-- The `kind` of a row of `sla_notifications`. -/
inductive AlertKind where
  | firstResponseBreached
  | firstResponseAtRisk
  | resolutionBreached
  | resolutionAtRisk
deriving DecidableEq

/-! ### Milestones -/

def slaAtRiskLeadFloor : ℤ := 5 * 60 * nanos

def slaAtRiskLeadCeil : ℤ := 24 * 3600 * nanos

def millis : ℤ := 1000000

/-- How long before `due` a ticket is at risk. -/
def slaAtRiskLead (createdAt due : ℤ) : ℤ :=
  let window := due - createdAt
  if window ≤ 0 then slaAtRiskLeadFloor
  else min (max (window / millis / 5 * millis) slaAtRiskLeadFloor) slaAtRiskLeadCeil

structure Milestone where
  due : Option ℤ
  breachedKind : AlertKind
  atRiskKind : AlertKind
  satisfied : Bool

/-- An alert, with what goes into its context. -/
structure Alert where
  tenantId : Uuid
  ticketId : Uuid
  recipientUserId : Uuid
  kind : AlertKind
  eventType : String
  due : ℤ
deriving DecidableEq

/-- The unique key of `sla_notifications`. -/
def Alert.key (a : Alert) : Uuid × AlertKind := (a.ticketId, a.kind)

namespace TicketRow

variable (row : TicketRow) (now : ℤ)

/-- The `WHERE` of the scan. -/
def scanned : Bool :=
  row.resolvedAt.isNone && row.closedAt.isNone && !row.statusIsClosed.getD false &&
    (row.firstResponseDue.isSome || row.resolutionDue.isSome)

def milestones : List Milestone :=
  [{ due := row.firstResponseDue
     breachedKind := .firstResponseBreached
     atRiskKind := .firstResponseAtRisk
     satisfied := row.firstResponseAt.isSome },
   { due := row.resolutionDue
     breachedKind := .resolutionBreached
     atRiskKind := .resolutionAtRisk
     satisfied := false }]

/-- What the milestone asks for at `now`. -/
def alert (assigneeId : Uuid) (m : Milestone) : Option Alert :=
  if m.satisfied then none
  else m.due.bind fun due =>
    let alert (kind : AlertKind) (eventType : String) : Alert :=
      { tenantId := row.tenantId, ticketId := row.id, recipientUserId := assigneeId, kind, eventType, due }
    if due ≤ now then some (alert m.breachedKind "sla.breached")
    else if due - slaAtRiskLead row.createdAt due ≤ now then some (alert m.atRiskKind "sla.at_risk")
    else none

/-- Nobody is told of a ticket without an assignee. -/
def alerts : List Alert :=
  match row.assignedToId with
  | some assigneeId => row.milestones.filterMap (row.alert now assigneeId)
  | none => []

end TicketRow

/-- The alerts of the rows that the scan finds. -/
def sweepAlerts (rows : List TicketRow) (now : ℤ) : List Alert :=
  (rows.filter TicketRow.scanned).flatMap fun row => row.alerts now

/-! ### Sweeps -/

/-- A sweep at `now`, of a worker that has a `NotificationsService` or not. -/
structure Sweep where
  now : ℤ
  notifications : Bool
deriving DecidableEq

abbrev AlertLedger := Keyed Alert.key

/-- The tickets and the ledger.  The history: what each sweep has read and what it has dispatched, and the sweeps that
have come to their end without an error. -/
structure SweepDb where
  tickets : TicketRows
  ledger : AlertLedger
  scans : List (Sweep × List TicketRow)
  dispatched : List (Sweep × Alert)
  completed : List (Sweep × List TicketRow)

inductive SweepRequest where
  | sweep (s : Sweep)
  /-- Some other request leaves the tickets so. -/
  | write (tickets : TicketRows)

inductive SweepPoint where
  | scanning (s : Sweep)
  | claiming (s : Sweep) (rows : List TicketRow) (a : Alert) (rest : List Alert)
  | dispatching (s : Sweep) (rows : List TicketRow) (a : Alert) (rest : List Alert)
  | writing (tickets : TicketRows)

def SweepRequest.start : SweepRequest → SweepPoint
  | .sweep s => .scanning s
  | .write tickets => .writing tickets

/-- To the next alert, or to the end. -/
def SweepDb.next (db : SweepDb) (s : Sweep) (rows : List TicketRow) : List Alert → SweepDb × Option SweepPoint
  | [] => ({ db with completed := (s, rows) :: db.completed }, none)
  | a :: rest => (db, some (.claiming s rows a rest))

/-- The next statement.  A failed dispatch is logged, any other failure ends the sweep. -/
def sweepAdvance (_ : ℕ) (ok : Bool) (db : SweepDb) : SweepPoint → Option (SweepDb × Option SweepPoint)
  | .scanning s =>
    if s.notifications then
      if ok then
        some ({ db with scans := (s, db.tickets.rows) :: db.scans }.next s db.tickets.rows
          (sweepAlerts db.tickets.rows s.now))
      else some (db, none)
    else some (db, none)
  | .claiming s rows a rest =>
    if ok then
      if a.key ∈ db.ledger.rows.map Alert.key then some (db.next s rows rest)
      else some ({ db with ledger := db.ledger.insert a }, some (.dispatching s rows a rest))
    else some (db, none)
  | .dispatching s rows a rest => some ({ db with dispatched := (s, a) :: db.dispatched }.next s rows rest)
  | .writing tickets => some ({ db with tickets := tickets }, none)

def sweepHandlers : Handlers SweepRequest Bool SweepDb SweepPoint Empty := .lockless SweepRequest.start sweepAdvance

abbrev sweepStep := Requests.step sweepHandlers

/-- What a statement can do. -/
inductive Swept (db : SweepDb) : SweepPoint → SweepDb → Option SweepPoint → Prop
  | ended {p : SweepPoint} (hp : ∀ s rows a rest, p ≠ .dispatching s rows a rest) : Swept db p db none
  | scanned {s db' q} (h : { db with scans := (s, db.tickets.rows) :: db.scans }.next s db.tickets.rows
      (sweepAlerts db.tickets.rows s.now) = (db', q)) : Swept db (.scanning s) db' q
  | passed {s rows a rest db' q} (h : a.key ∈ db.ledger.rows.map Alert.key) (hn : db.next s rows rest = (db', q)) :
      Swept db (.claiming s rows a rest) db' q
  | claimed {s rows a rest} (h : a.key ∉ db.ledger.rows.map Alert.key) :
      Swept db (.claiming s rows a rest) { db with ledger := db.ledger.insert a } (some (.dispatching s rows a rest))
  | dispatched {s rows a rest db' q} (h : { db with dispatched := (s, a) :: db.dispatched }.next s rows rest =
      (db', q)) : Swept db (.dispatching s rows a rest) db' q
  | written {tickets} : Swept db (.writing tickets) { db with tickets := tickets } none

theorem swept_of_sweepAdvance {n : ℕ} {ok : Bool} {db db' : SweepDb} {p : SweepPoint} {q : Option SweepPoint}
    (ha : sweepAdvance n ok db p = some (db', q)) : Swept db p db' q := by
  cases p with
  | scanning s =>
      simp only [sweepAdvance] at ha
      split at ha
      · split at ha
        · exact .scanned (Option.some.inj ha)
        · cases ha
          exact .ended fun _ _ _ _ => SweepPoint.noConfusion
      · cases ha
        exact .ended fun _ _ _ _ => SweepPoint.noConfusion
  | claiming s rows a rest =>
      simp only [sweepAdvance] at ha
      split at ha
      · split at ha
        · next hclaimed => exact .passed hclaimed (Option.some.inj ha)
        · next hnew =>
            cases ha
            exact .claimed hnew
      · cases ha
        exact .ended fun _ _ _ _ => SweepPoint.noConfusion
  | dispatching s rows a rest => exact .dispatched (Option.some.inj ha)
  | writing tickets =>
      cases ha
      exact .written

/-! ### When a milestone is crossed -/

/-- What the milestone of a kind is due at, and whether the ticket still waits for it. -/
def TicketRow.Awaits (row : TicketRow) : AlertKind → ℤ → Prop
  | .firstResponseBreached, due | .firstResponseAtRisk, due =>
    row.firstResponseDue = some due ∧ row.firstResponseAt = none
  | .resolutionBreached, due | .resolutionAtRisk, due => row.resolutionDue = some due

/-- The time has come for an alert of a kind. -/
def AlertKind.TimeFor (kind : AlertKind) (createdAt due now : ℤ) : Prop :=
  match kind with
  | .firstResponseBreached | .resolutionBreached => due ≤ now
  | .firstResponseAtRisk | .resolutionAtRisk => due - slaAtRiskLead createdAt due ≤ now ∧ now < due

/-- Why an alert is sent: the ticket is open, it waits for what the alert is about, and the time for it has come. -/
structure TicketRow.Crossed (row : TicketRow) (now : ℤ) (a : Alert) : Prop where
  unresolved : row.resolvedAt = none
  notClosed : row.closedAt = none
  openStatus : row.statusIsClosed ≠ some true
  ticket : row.id = a.ticketId
  tenant : row.tenantId = a.tenantId
  assignee : row.assignedToId = some a.recipientUserId
  awaits : row.Awaits a.kind a.due
  timeFor : a.kind.TimeFor row.createdAt a.due now

namespace TicketRow

variable {row : TicketRow} {rows : List TicketRow} {now due : ℤ} {a : Alert} {assigneeId : Uuid} {m : Milestone}

theorem alert_eq_some_iff : row.alert now assigneeId m = some a ↔
    m.satisfied = false ∧ m.due = some a.due ∧ a.tenantId = row.tenantId ∧ a.ticketId = row.id ∧
      a.recipientUserId = assigneeId ∧ (a.kind = m.breachedKind ∧ a.eventType = "sla.breached" ∧ a.due ≤ now ∨
        a.kind = m.atRiskKind ∧ a.eventType = "sla.at_risk" ∧
          a.due - slaAtRiskLead row.createdAt a.due ≤ now ∧ now < a.due) := by
  obtain ⟨tenantId, ticketId, recipient, kind, eventType, adue⟩ := a
  cases hm : m.satisfied with
  | true => simp [alert, hm]
  | false =>
      cases hd : m.due with
      | none => simp [alert, hm, hd]
      | some due =>
          simp only [alert, hm, hd, Bool.false_eq_true, if_false, Option.bind_some, Option.some.injEq, true_and]
          constructor
          · intro h
            split at h
            · next hle =>
                cases h
                exact ⟨rfl, rfl, rfl, rfl, .inl ⟨rfl, rfl, hle⟩⟩
            · next hgt =>
                split at h
                · next hlead =>
                    cases h
                    exact ⟨rfl, rfl, rfl, rfl, .inr ⟨rfl, rfl, hlead, by omega⟩⟩
                · cases h
          · rintro ⟨rfl, rfl, rfl, rfl, ⟨rfl, rfl, hle⟩ | ⟨rfl, rfl, hlead, hlt⟩⟩
            · rw [if_pos hle]
            · rw [if_neg (by omega), if_pos hlead]

theorem scanned_iff : row.scanned = true ↔ row.resolvedAt = none ∧ row.closedAt = none ∧
    row.statusIsClosed ≠ some true ∧ (row.firstResponseDue.isSome ∨ row.resolutionDue.isSome) := by
  unfold scanned
  cases row.statusIsClosed with
  | none => simp [and_assoc]
  | some b => cases b <;> simp [and_assoc]

end TicketRow

/-- The event that is dispatched for a kind. -/
def AlertKind.eventType : AlertKind → String
  | .firstResponseBreached | .resolutionBreached => "sla.breached"
  | .firstResponseAtRisk | .resolutionAtRisk => "sla.at_risk"

/-- The alerts of a scan are those of the milestones that its rows have crossed. -/
theorem mem_sweepAlerts {rows : List TicketRow} {now : ℤ} {a : Alert} :
    a ∈ sweepAlerts rows now ↔ a.eventType = a.kind.eventType ∧ ∃ row ∈ rows, row.Crossed now a := by
  have halerts : ∀ row : TicketRow, a ∈ row.alerts now ↔ row.assignedToId = some a.recipientUserId ∧
      ∃ m ∈ row.milestones, row.alert now a.recipientUserId m = some a := by
    intro row
    unfold TicketRow.alerts
    cases row.assignedToId with
    | none => simp
    | some assigneeId =>
        simp only [List.mem_filterMap, Option.some.injEq]
        constructor
        · rintro ⟨m, hm, ha⟩
          obtain rfl := (TicketRow.alert_eq_some_iff.mp ha).2.2.2.2.1
          exact ⟨rfl, m, hm, ha⟩
        · rintro ⟨rfl, m, hm, ha⟩
          exact ⟨m, hm, ha⟩
  simp only [sweepAlerts, List.mem_flatMap, List.mem_filter, halerts, TicketRow.scanned_iff]
  constructor
  · rintro ⟨row, ⟨hrow, hresolved, hclosed, hstatus, -⟩, hassignee, m, hm, ha⟩
    obtain ⟨hsat, hdue, htenant, hticket, -, hkind⟩ := TicketRow.alert_eq_some_iff.mp ha
    have hcrossed : a.eventType = a.kind.eventType ∧ row.Awaits a.kind a.due ∧
        a.kind.TimeFor row.createdAt a.due now := by
      simp only [TicketRow.milestones, List.mem_cons, List.not_mem_nil, or_false] at hm
      obtain rfl | rfl := hm <;> obtain ⟨hk, he, htime⟩ | ⟨hk, he, htime⟩ := hkind <;> rw [hk, he]
      · exact ⟨rfl, ⟨hdue, Option.isSome_eq_false_iff.mp hsat |> Option.isNone_iff_eq_none.mp⟩, htime⟩
      · exact ⟨rfl, ⟨hdue, Option.isSome_eq_false_iff.mp hsat |> Option.isNone_iff_eq_none.mp⟩, htime⟩
      · exact ⟨rfl, hdue, htime⟩
      · exact ⟨rfl, hdue, htime⟩
    exact ⟨hcrossed.1, row, hrow, hresolved, hclosed, hstatus, hticket.symm, htenant.symm, hassignee, hcrossed.2.1,
      hcrossed.2.2⟩
  · rintro ⟨hevent, row, hrow, h⟩
    have hmilestone : (row.firstResponseDue.isSome ∨ row.resolutionDue.isSome) ∧
        ∃ m ∈ row.milestones, row.alert now a.recipientUserId m = some a := by
      have hawaits := h.awaits
      have htime := h.timeFor
      cases hk : a.kind with
      | firstResponseBreached | firstResponseAtRisk =>
          simp only [hk, TicketRow.Awaits, AlertKind.TimeFor, AlertKind.eventType] at hawaits htime hevent
          refine ⟨.inl (by rw [hawaits.1]; rfl), _, List.mem_cons_self, TicketRow.alert_eq_some_iff.mpr ?_⟩
          refine ⟨by rw [hawaits.2]; rfl, hawaits.1, h.tenant.symm, h.ticket.symm, rfl, ?_⟩
          first
            | exact .inl ⟨hk, hevent, htime⟩
            | exact .inr ⟨hk, hevent, htime⟩
      | resolutionBreached | resolutionAtRisk =>
          simp only [hk, TicketRow.Awaits, AlertKind.TimeFor, AlertKind.eventType] at hawaits htime hevent
          refine ⟨.inr (by rw [hawaits]; rfl), _, List.mem_cons_of_mem _ List.mem_cons_self,
            TicketRow.alert_eq_some_iff.mpr ?_⟩
          refine ⟨rfl, hawaits, h.tenant.symm, h.ticket.symm, rfl, ?_⟩
          first
            | exact .inl ⟨hk, hevent, htime⟩
            | exact .inr ⟨hk, hevent, htime⟩
    exact ⟨row, ⟨hrow, h.unresolved, h.notClosed, h.openStatus, hmilestone.1⟩, h.assignee, hmilestone.2⟩

/-! ### Whole runs -/

/-- The alert has its row in the ledger. -/
def AlertLedger.Claims (l : AlertLedger) (k : Uuid × AlertKind) : Prop := k ∈ l.rows.map Alert.key

/-- Every alert of the scan has its row in the ledger, or is among `rest`. -/
def Served (s : Sweep) (rows : List TicketRow) (l : AlertLedger) (rest : List Alert) : Prop :=
  ∀ a ∈ sweepAlerts rows s.now, l.Claims a.key ∨ a ∈ rest

/-- What every statement relies on. -/
structure SweepsKept (db : SweepDb) : Prop where
  due : ∀ d ∈ db.dispatched, ∃ rows, (d.1, rows) ∈ db.scans ∧ d.2 ∈ sweepAlerts rows d.1.now
  served : ∀ c ∈ db.completed, c ∈ db.scans ∧ Served c.1 c.2 db.ledger []

/-- A sweep with the alerts `l` before it. -/
structure Sweeping (db : SweepDb) (s : Sweep) (rows : List TicketRow) (l : List Alert) : Prop where
  scan : (s, rows) ∈ db.scans
  due : ∀ a ∈ l, a ∈ sweepAlerts rows s.now

def SweepStands (db : SweepDb) : SweepPoint → Prop
  | .scanning _ | .writing _ => True
  | .claiming s rows a rest => Sweeping db s rows (a :: rest) ∧ Served s rows db.ledger (a :: rest)
  | .dispatching s rows a rest => Sweeping db s rows (a :: rest) ∧ Served s rows db.ledger rest

/-- The ledger and the scans only grow. -/
structure SweepDb.Grows (db db' : SweepDb) : Prop where
  scans : ∀ x ∈ db.scans, x ∈ db'.scans
  ledger : ∀ k, db.ledger.Claims k → db'.ledger.Claims k

section Runs

variable {db db' : SweepDb} {s : Sweep} {rows : List TicketRow} {a : Alert} {l rest : List Alert} {p : SweepPoint}
  {q : Option SweepPoint} {n : ℕ} {ok : Bool}

theorem SweepDb.Grows.refl (db : SweepDb) : db.Grows db := ⟨fun _ h => h, fun _ h => h⟩

theorem AlertLedger.Claims.insert {l : AlertLedger} {k : Uuid × AlertKind} (h : l.Claims k) (a : Alert) :
    AlertLedger.Claims (l.insert a) k :=
  Keyed.mem_keys_insert.mpr (.inr h)

theorem Served.mono (h : Served s rows db.ledger l) (hg : db.Grows db') : Served s rows db'.ledger l :=
  fun a ha => (h a ha).imp (hg.ledger _) id

/-- The alert has its row now. -/
theorem Served.drop {ledger : AlertLedger} (h : Served s rows ledger (a :: rest)) (ha : ledger.Claims a.key) :
    Served s rows ledger rest := by
  intro x hx
  obtain hclaimed | hmem := h x hx
  · exact .inl hclaimed
  · obtain rfl | hmem := List.mem_cons.mp hmem
    · exact .inl ha
    · exact .inr hmem

theorem Sweeping.mono (h : Sweeping db s rows l) (hg : db.Grows db') : Sweeping db' s rows l :=
  ⟨hg.scans _ h.scan, h.due⟩

theorem Sweeping.tail (h : Sweeping db s rows (a :: rest)) : Sweeping db s rows rest :=
  ⟨h.scan, fun x hx => h.due x (List.mem_cons_of_mem a hx)⟩

theorem SweepStands.mono (h : SweepStands db p) (hg : db.Grows db') : SweepStands db' p := by
  cases p with
  | scanning | writing => trivial
  | claiming | dispatching => exact ⟨h.1.mono hg, h.2.mono hg⟩

theorem next_kept (h : SweepsKept db) (hsweeping : Sweeping db s rows l) (hserved : Served s rows db.ledger l)
    (hn : db.next s rows l = (db', q)) : SweepsKept db' ∧ (∀ p ∈ q, SweepStands db' p) ∧ db.Grows db' := by
  cases l with
  | nil =>
      cases hn
      refine ⟨⟨h.due, List.forall_mem_cons.mpr ⟨⟨hsweeping.scan, hserved⟩, h.served⟩⟩, fun p hp => (nomatch hp), ?_⟩
      exact ⟨fun _ hx => hx, fun _ hk => hk⟩
  | cons a rest =>
      cases hn
      refine ⟨h, fun p hp => ?_, .refl db⟩
      obtain rfl := Option.some.inj hp
      exact ⟨hsweeping, hserved⟩

theorem SweepsKept.scan (h : SweepsKept db) (x : Sweep × List TicketRow) :
    SweepsKept { db with scans := x :: db.scans } where
  due d hd := by
    obtain ⟨rows, hrows, hmem⟩ := h.due d hd
    exact ⟨rows, List.mem_cons_of_mem x hrows, hmem⟩
  served c hc := ⟨List.mem_cons_of_mem x (h.served c hc).1, (h.served c hc).2⟩

theorem Swept.kept (h : SweepsKept db) (hp : SweepStands db p) (ha : Swept db p db' q) :
    SweepsKept db' ∧ (∀ p' ∈ q, SweepStands db' p') ∧ db.Grows db' := by
  cases ha with
  | ended => exact ⟨h, fun _ hp => (nomatch hp), .refl db⟩
  | scanned hn =>
      obtain ⟨hkept, hstands, hnext⟩ := next_kept (h.scan _) ⟨List.mem_cons_self, fun _ hx => hx⟩
        (fun _ hx => .inr hx) hn
      exact ⟨hkept, hstands, fun x hx => hnext.scans x (List.mem_cons_of_mem _ hx), hnext.ledger⟩
  | passed hclaimed hn => exact next_kept h hp.1.tail (hp.2.drop hclaimed) hn
  | @claimed s rows a rest =>
      have hgrows : db.Grows { db with ledger := db.ledger.insert a } := ⟨fun _ hx => hx, fun _ hk => hk.insert a⟩
      refine ⟨⟨h.due, fun c hc => ⟨(h.served c hc).1, (h.served c hc).2.mono hgrows⟩⟩, fun p' hp' => ?_, hgrows⟩
      obtain rfl := Option.some.inj hp'
      exact ⟨hp.1.mono hgrows, (hp.2.mono hgrows).drop (Keyed.mem_keys_insert.mpr (.inl rfl))⟩
  | @dispatched s rows a rest _ _ hn =>
      have hdispatched : SweepsKept { db with dispatched := (s, a) :: db.dispatched } :=
        ⟨List.forall_mem_cons.mpr ⟨⟨rows, hp.1.scan, hp.1.due a List.mem_cons_self⟩, h.due⟩, h.served⟩
      obtain ⟨hkept, hstands, hnext⟩ := next_kept hdispatched ⟨hp.1.scan, hp.1.tail.due⟩ hp.2 hn
      exact ⟨hkept, hstands, hnext.scans, hnext.ledger⟩
  | written => exact ⟨⟨h.due, h.served⟩, fun _ hp => (nomatch hp), fun _ hx => hx, fun _ hk => hk⟩

theorem sweep_rule (C : World SweepDb SweepPoint → Event SweepRequest Bool → Prop) :
    Rule sweepHandlers (fun _ db => SweepsKept db) (fun _ db p => SweepStands db p) C where
  locks _ _ _ _ hb := absurd hb List.not_mem_nil
  unlocked _ := rfl
  wait h _ := ⟨h, fun _ hp => hp⟩
  start {_ op} _ _ := by cases op <;> trivial
  step hw _ hi ha := by
    obtain ⟨hkept, hstands, hgrows⟩ := Swept.kept hw.store (hw.requests _ (List.mem_of_getElem? hi))
      (swept_of_sweepAdvance (n := 0) ha)
    exact ⟨hkept, hstands, fun _ _ _ hp' => hp'.mono hgrows⟩

/-! ### At most once -/

/-- The alert that a sweep has claimed and not dispatched yet. -/
def SweepPoint.ticket : SweepPoint → List (Uuid × AlertKind)
  | .dispatching _ _ a _ => [a.key]
  | _ => []

def SweepDb.sent (db : SweepDb) : List (Uuid × AlertKind) := db.dispatched.map (·.2.key)

def SweepPoint.sweep : SweepPoint → Option Sweep
  | .scanning s | .claiming s _ _ _ | .dispatching s _ _ _ => some s
  | .writing _ => none

/-- The statement has `fresh` claimed, and carries no more than that and what it had. -/
def CarriesOn (db db' : SweepDb) (p : SweepPoint) (q : Option SweepPoint) : Prop :=
  (∀ k, db.ledger.Claims k → db'.ledger.Claims k) ∧ ∃ fresh : List (Uuid × AlertKind), fresh.Nodup ∧
    (∀ k ∈ fresh, ¬db.ledger.Claims k ∧ db'.ledger.Claims k) ∧
      (q.toList.flatMap SweepPoint.ticket ++ db'.sent).Subperm (fresh ++ (p.ticket ++ db.sent))

theorem next_sent (hn : db.next s rows l = (db', q)) :
    db'.ledger = db.ledger ∧ db'.dispatched = db.dispatched ∧ q.toList.flatMap SweepPoint.ticket = [] ∧
      ∀ p ∈ q, p.sweep = some s := by
  cases l with
  | nil =>
      cases hn
      exact ⟨rfl, rfl, rfl, fun p hp => (nomatch hp)⟩
  | cons a rest =>
      cases hn
      exact ⟨rfl, rfl, rfl, fun p hp => (Option.some.inj hp) ▸ rfl⟩

/-- Nothing is claimed, and what is dispatched was carried. -/
theorem carriesOn_of_none (hl : db'.ledger = db.ledger)
    (hs : (q.toList.flatMap SweepPoint.ticket ++ db'.sent).Subperm (p.ticket ++ db.sent)) : CarriesOn db db' p q :=
  ⟨fun k hk => by rwa [hl], [], List.nodup_nil, fun _ hk => absurd hk List.not_mem_nil, hs⟩

/-- A sweep dispatches what it has claimed itself. -/
theorem Swept.carriesOn (ha : Swept db p db' q) : CarriesOn db db' p q := by
  cases ha with
  | ended => exact carriesOn_of_none rfl (List.sublist_append_right _ _).subperm
  | scanned hn | passed _ hn | dispatched hn =>
      obtain ⟨hl, hd, hq, -⟩ := next_sent hn
      refine carriesOn_of_none hl ?_
      rw [SweepDb.sent, hd, hq]
      exact List.Subperm.refl _
  | @claimed s rows a rest hnew =>
      refine ⟨fun k hk => hk.insert a, [a.key], List.nodup_singleton _, fun k hk => ?_, List.Subperm.refl _⟩
      rw [List.mem_singleton.mp hk]
      exact ⟨hnew, Keyed.mem_keys_insert.mpr (.inl rfl)⟩
  | written => exact carriesOn_of_none rfl (List.Subperm.refl _)

/-- What is stored before the first sweep. -/
def SweepDb.start (tickets : TicketRows) (ledger : AlertLedger) : SweepDb :=
  { tickets, ledger, scans := [], dispatched := [], completed := [] }

theorem sweepsKept_start (tickets : TicketRows) (ledger : AlertLedger) : SweepsKept (SweepDb.start tickets ledger) :=
  ⟨fun _ hd => absurd hd List.not_mem_nil, fun _ hc => absurd hc List.not_mem_nil⟩

variable {tickets : TicketRows} {ledger : AlertLedger} {es : List (Event SweepRequest Bool)}
  {w : World SweepDb SweepPoint}

/-- An alert that has been dispatched, or that a sweep carries, is claimed, and there is one of each. -/
theorem tickets_of_run (hr : run sweepStep (World.start n (SweepDb.start tickets ledger)) es = some w) :
    (w.requests.flatMap SweepPoint.ticket ++ w.store.sent).Nodup ∧
      ∀ k ∈ w.requests.flatMap SweepPoint.ticket ++ w.store.sent, w.store.ledger.Claims k :=
  (sweep_rule fun _ _ => True).tickets (f := SweepPoint.ticket) (g := SweepDb.sent)
    (P := fun db k => db.ledger.Claims k) (fun op => by cases op <;> rfl)
    (fun _ _ _ ha => (swept_of_sweepAdvance (n := 0) ha).carriesOn)
    (Requests.keeps_start (sweepsKept_start tickets ledger)) (stepsMeet_true _ es) hr
    ⟨List.nodup_nil, fun _ hk => absurd hk List.not_mem_nil⟩

variable {k : Uuid × AlertKind}

/-- The alert is claimed and has not been dispatched. -/
def SweepDb.Owes (db : SweepDb) (k : Uuid × AlertKind) : Prop := db.ledger.Claims k ∧ k ∉ db.sent

/-- Either a statement has claimed the alert, or it was owed before and the sweep that goes on does not carry it. -/
theorem Swept.owes (ha : Swept db p db' q) (h : db'.Owes k) :
    (∃ p' ∈ q, k ∈ p'.ticket) ∨ (db.Owes k ∧ k ∉ p.ticket) := by
  cases ha with
  | @ended p hp =>
      refine .inr ⟨h, fun hk => ?_⟩
      cases p with
      | dispatching s rows a rest => exact hp s rows a rest rfl
      | scanning | claiming | writing => cases hk
  | scanned hn | passed _ hn =>
      obtain ⟨hl, hd, -⟩ := next_sent hn
      rw [SweepDb.Owes, SweepDb.sent, hl, hd] at h
      exact .inr ⟨h, List.not_mem_nil⟩
  | @claimed s rows a rest =>
      obtain rfl | hk := Keyed.mem_keys_insert.mp h.1
      · exact .inl ⟨_, rfl, List.mem_singleton_self _⟩
      · exact .inr ⟨⟨hk, h.2⟩, List.not_mem_nil⟩
  | dispatched hn =>
      obtain ⟨hl, hd, -⟩ := next_sent hn
      rw [SweepDb.Owes, SweepDb.sent, hl, hd, List.map_cons, List.mem_cons, not_or] at h
      exact .inr ⟨⟨h.1, h.2.2⟩, mt List.mem_singleton.mp h.2.1⟩
  | written => exact .inr ⟨h, List.not_mem_nil⟩

/-- No sweep crashes between the claim of the alert and its dispatch. -/
def Spared (k : Uuid × AlertKind) (w : World SweepDb SweepPoint) : Event SweepRequest Bool → Prop
  | .crash i => ∀ p ∈ w.requests[i]?, k ∉ p.ticket
  | _ => True

/-- What is owed and carried by no sweep stays so. -/
theorem lost_rule : Rule sweepHandlers (fun _ db => db.Owes k) (fun _ _ p => k ∉ p.ticket) fun _ _ => True where
  locks _ _ _ _ hb := absurd hb List.not_mem_nil
  unlocked _ := rfl
  wait h _ := ⟨h, fun _ hp => hp⟩
  start {_ op} _ _ := by cases op <;> exact List.not_mem_nil
  step {w i x p db' q} hw _ hi ha := by
    obtain ⟨hmono, fresh, -, hfresh, hsub⟩ := (swept_of_sweepAdvance (n := 0) ha).carriesOn
    have hlost : k ∉ q.toList.flatMap SweepPoint.ticket ++ db'.sent := by
      intro hmem
      obtain hk | hk := List.mem_append.mp (hsub.subset hmem)
      · exact (hfresh k hk).1 hw.store.1
      · exact (List.mem_append.mp hk).elim (hw.requests p (List.mem_of_getElem? hi)) hw.store.2
    rw [List.mem_append, not_or, List.mem_flatMap] at hlost
    refine ⟨⟨hmono k hw.store.1, hlost.2⟩, fun p' hp' hk => ?_, fun _ _ _ h => h⟩
    exact hlost.1 ⟨p', Option.mem_toList.mpr hp', hk⟩

/-- An alert that is claimed in a run is dispatched, or a sweep in flight is about to, if and only if none has crashed
between the two. -/
theorem dispatched_iff_spared (hk : ¬ledger.Claims k)
    (hr : run sweepStep (World.start n (SweepDb.start tickets ledger)) es = some w) (hw : w.store.ledger.Claims k) :
    (k ∈ w.store.dispatched.map (·.2.key) ∨ ∃ p ∈ w.requests, k ∈ p.ticket) ↔
      StepsMeet sweepStep (Spared k) (World.start n (SweepDb.start tickets ledger)) es := by
  constructor
  · intro h
    refine stepsMeet_of_forall fun es₁ e es₂ t hes ht => ?_
    cases e with
    | arrive | wait | step => trivial
    | crash i =>
        intro p hp hkp
        -- From the crash on, the alert is owed and no sweep carries it.
        obtain ⟨hnodup, hclaims⟩ := tickets_of_run ht
        have hclaimed := hclaims k (List.mem_append_left _ (List.mem_flatMap.mpr ⟨p, List.mem_of_getElem? hp, hkp⟩))
        rw [((holds_perm hp SweepPoint.ticket).append_right t.store.sent).nodup_iff, List.append_assoc] at hnodup
        have hno : k ∉ (t.requests.eraseIdx i).flatMap SweepPoint.ticket ++ t.store.sent :=
          List.disjoint_of_nodup_append hnodup hkp
        rw [List.mem_append, not_or, List.mem_flatMap] at hno
        rw [hes, run_append, ht] at hr
        obtain ⟨t', hcrash, hr⟩ := run_cons_eq_some.mp hr
        obtain rfl : { t with requests := t.requests.eraseIdx i } = t' := by
          simp only [sweepStep, Requests.step] at hcrash
          split at hcrash <;> cases hcrash
          rfl
        have hafter : Keeps sweepHandlers (fun _ db => db.Owes k) (fun _ _ p => k ∉ p.ticket)
            { t with requests := t.requests.eraseIdx i } :=
          ⟨⟨hclaimed, hno.2⟩, fun p' hp' hk' => hno.1 ⟨p', hp', hk'⟩,
            List.pairwise_of_forall fun _ _ _ hb => absurd hb List.not_mem_nil⟩
        have hlost := lost_rule.run hafter (stepsMeet_true _ es₂) hr
        exact h.elim hlost.store.2 fun ⟨p', hp', hkp'⟩ => hlost.requests p' hp' hkp'
  · intro hC
    by_contra hnot
    rw [not_or] at hnot
    refine hnot.2 ((sweep_rule (Spared k)).debt (D := fun db => db.Owes k) (P := fun p => k ∈ p.ticket) ?_ ?_
      (Requests.keeps_start (sweepsKept_start tickets ledger)) hC hr (fun h => absurd h.1 hk) ⟨hw, hnot.1⟩)
    · exact fun hcrash hi hkp => hcrash _ hi hkp
    · intro w i x p db' q _ _ _ ha howes
      exact ((swept_of_sweepAdvance (n := 0) ha).owes howes).imp_right .inl

/-! ### One sweep after the other -/

def AlertKind.isBreached : AlertKind → Bool
  | .firstResponseBreached | .resolutionBreached => true
  | .firstResponseAtRisk | .resolutionAtRisk => false

/-- A sweep starts when no other is in flight, and its clock is not behind that of the sweeps before. -/
def OneByOne (w : World SweepDb SweepPoint) : Event SweepRequest Bool → Prop
  | .arrive (.sweep s) => (∀ p ∈ w.requests, p.sweep = none) ∧ ∀ d ∈ w.store.dispatched, d.1.now ≤ s.now
  | _ => True

instance (w : World SweepDb SweepPoint) : ∀ e, Decidable (OneByOne w e)
  | .arrive (.sweep s) => inferInstanceAs (Decidable ((∀ p ∈ w.requests, p.sweep = none) ∧
      ∀ d ∈ w.store.dispatched, d.1.now ≤ s.now))
  | .arrive (.write _) | .wait _ | .step _ _ | .crash _ => isTrue trivial

/-- One of the two is not a sweep. -/
def NotBothSweep (p p' : SweepPoint) : Prop := p.sweep = none ∨ p'.sweep = none

/-- The clock of the sweep is not behind that of the alerts. -/
def Ahead (db : SweepDb) (p : SweepPoint) : Prop := ∀ s ∈ p.sweep, ∀ d ∈ db.dispatched, d.1.now ≤ s.now

/-- A statement goes on with its sweep, and dispatches for it or not at all. -/
theorem Swept.sweep (ha : Swept db p db' q) : (∀ p' ∈ q, p'.sweep = p.sweep) ∧
    (db'.dispatched = db.dispatched ∨ ∃ s a, p.sweep = some s ∧ db'.dispatched = (s, a) :: db.dispatched) := by
  cases ha with
  | ended | written => exact ⟨fun p' hp' => (nomatch hp'), .inl rfl⟩
  | scanned hn | passed _ hn =>
      obtain ⟨-, hd, -, hs⟩ := next_sent hn
      exact ⟨hs, .inl hd⟩
  | claimed => exact ⟨fun p' hp' => (Option.some.inj hp') ▸ rfl, .inl rfl⟩
  | @dispatched s _ a _ _ _ hn =>
      obtain ⟨-, hd, -, hs⟩ := next_sent hn
      exact ⟨hs, .inr ⟨s, a, rfl, hd⟩⟩

/-- The alerts are in the order of the clocks, the latest first. -/
def InOrder (db : SweepDb) : Prop := db.dispatched.Pairwise fun later earlier => earlier.1.now ≤ later.1.now

theorem oneByOne_rule : Rule sweepHandlers (fun _ db => SweepsKept db ∧ InOrder db)
    (fun _ db p => SweepStands db p ∧ Ahead db p) fun w e => OneByOne w e ∧ w.requests.Pairwise NotBothSweep where
  locks _ _ _ _ hb := absurd hb List.not_mem_nil
  unlocked _ := rfl
  wait h _ := ⟨h, fun _ hp => hp⟩
  start {_ op} hw hC := by
    cases op with
    | sweep s =>
        refine ⟨trivial, fun s' hs' d hd => ?_⟩
        obtain rfl := Option.some.inj hs'
        exact hC.1.2 d hd
    | write tickets => exact ⟨trivial, fun s hs => (nomatch hs)⟩
  step {w i x p db' q} hw hC hi ha := by
    obtain ⟨hstands, hahead⟩ := hw.requests p (List.mem_of_getElem? hi)
    have hswept := swept_of_sweepAdvance (n := 0) ha
    obtain ⟨hkept, hq, hgrows⟩ := Swept.kept hw.store.1 hstands hswept
    obtain ⟨hsweep, hd | ⟨s, a, hs, hd⟩⟩ := hswept.sweep
    · have hkeep : ∀ {p' : SweepPoint}, Ahead w.store p' → Ahead db' p' :=
        fun h s hs d hmem => h s hs d (hd ▸ hmem)
      refine ⟨⟨hkept, by rw [InOrder, hd]; exact hw.store.2⟩, fun p' hp' => ⟨hq p' hp', ?_⟩,
        fun p' _ _ h => ⟨h.1.mono hgrows, hkeep h.2⟩⟩
      exact hkeep fun s hs => hahead s (hsweep p' hp' ▸ hs)
    · -- No other sweep is in flight that the alert could be ahead of.
      have hothers := World.rel_others (X := NotBothSweep) (fun h => h.symm) hC.2 hi
      have hself : ∀ s' ∈ p.sweep, ∀ d ∈ db'.dispatched, d.1.now ≤ s'.now := by
        intro s' hs' d hmem
        obtain rfl : s = s' := Option.some.inj (hs.symm.trans hs')
        rw [hd] at hmem
        obtain rfl | hmem := List.mem_cons.mp hmem
        · exact le_rfl
        · exact hahead s hs' d hmem
      refine ⟨⟨hkept, ?_⟩, fun p' hp' => ⟨hq p' hp', fun s' hs' => hself s' (hsweep p' hp' ▸ hs')⟩,
        fun p' hp' _ h => ⟨h.1.mono hgrows, fun s' hs' => ?_⟩⟩
      · rw [InOrder, hd]
        exact List.pairwise_cons.mpr ⟨fun d hmem => hahead s hs d hmem, hw.store.2⟩
      · obtain hnone | hnone := hothers p' hp'
        · rw [hs] at hnone
          cases hnone
        · rw [hnone] at hs'
          cases hs'

theorem AlertKind.TimeFor.of_isBreached {kind : AlertKind} {createdAt due now : ℤ}
    (h : kind.TimeFor createdAt due now) : if kind.isBreached then due ≤ now else now < due := by
  cases kind with
  | firstResponseBreached | resolutionBreached => exact h
  | firstResponseAtRisk | resolutionAtRisk => exact h.2

/-- In a run whose sweeps come one after the other, an alert that a ticket is at risk is dispatched after one that it is
breached only for an instant that is later. -/
theorem breached_before_at_risk
    (hC : StepsMeet sweepStep OneByOne (World.start n (SweepDb.start tickets ledger)) es)
    (hr : run sweepStep (World.start n (SweepDb.start tickets ledger)) es = some w) :
    w.store.dispatched.Pairwise fun later earlier => earlier.2.kind.isBreached = true →
      later.2.kind.isBreached = false → earlier.2.due < later.2.due := by
  have hkeeps : Keeps sweepHandlers (fun _ db => SweepsKept db ∧ InOrder db)
      (fun _ db p => SweepStands db p ∧ Ahead db p) (World.start n (SweepDb.start tickets ledger)) :=
    Requests.keeps_start ⟨sweepsKept_start tickets ledger, List.Pairwise.nil⟩
  have hmeets := oneByOne_rule.stepsMeet_pairwise (fun h => h.symm)
    (fun {w op} hC p hp => by
      cases op with
      | sweep s => exact .inl (hC.1 p hp)
      | write tickets => exact .inr rfl)
    (fun _ _ _ ha p' _ hX p'' hq => by
      rw [NotBothSweep, (swept_of_sweepAdvance (n := 0) ha).sweep.1 p'' hq]
      exact hX)
    hkeeps List.Pairwise.nil hC
  obtain ⟨hkept, horder⟩ := (oneByOne_rule.run hkeeps hmeets hr).store
  have htime : ∀ d ∈ w.store.dispatched, if d.2.kind.isBreached then d.2.due ≤ d.1.now else d.1.now < d.2.due := by
    intro d hd
    obtain ⟨rows, -, hmem⟩ := hkept.due d hd
    obtain ⟨-, row, -, hcrossed⟩ := mem_sweepAlerts.mp hmem
    exact hcrossed.timeFor.of_isBreached
  refine horder.imp_of_mem fun {later earlier} hlater hearlier hle hbreached hrisk => ?_
  have h₁ := htime earlier hearlier
  have h₂ := htime later hlater
  rw [hbreached, if_pos rfl] at h₁
  rw [hrisk, if_neg Bool.false_ne_true] at h₂
  omega

end Runs

/-- A ticket that is to be resolved an hour after it was opened. -/
def hourTicket : TicketRow where
  id := 1
  tenantId := 7
  assignedToId := some 3
  createdAt := 0
  firstResponseDue := none
  firstResponseAt := none
  resolutionDue := some (3600 * nanos)
  resolvedAt := none
  closedAt := none
  statusIsClosed := some false

def ticketRows (row : TicketRow) : TicketRows where
  rows := [row]
  nodup := List.nodup_singleton _

def sweepAt (minutes : ℤ) : Sweep := { now := minutes * 60 * nanos, notifications := true }

/-- Two workers sweep at once, of which the second finds the alert claimed. -/
def twoSweeps : List (Event SweepRequest Bool) :=
  [.arrive (.sweep (sweepAt 50)), .arrive (.sweep (sweepAt 50)), .step 0 true, .step 1 true, .step 0 true, .step 1 true,
    .step 0 true]

/-- A worker crashes when it has claimed the alert, and the next one finds it claimed. -/
def crashedBetween : List (Event SweepRequest Bool) :=
  [.arrive (.sweep (sweepAt 50)), .step 0 true, .step 0 true, .crash 0, .arrive (.sweep (sweepAt 51)), .step 0 true,
    .step 0 true]

theorem dispatched_iff_spared_crashedBetween :
    ∃ w, run sweepStep (World.start 0 (SweepDb.start (ticketRows hourTicket) Keyed.empty)) crashedBetween = some w ∧
      w.store.completed.length = 1 ∧
      ¬((1, .resolutionAtRisk) ∈ w.store.dispatched.map (·.2.key) ∨
        ∃ p ∈ w.requests, (1, AlertKind.resolutionAtRisk) ∈ p.ticket) := by
  have h : (run sweepStep (World.start 0 (SweepDb.start (ticketRows hourTicket) Keyed.empty)) crashedBetween).any
      (fun w => w.store.completed.length = 1 ∧ (1, .resolutionAtRisk) ∈ w.store.ledger.rows.map Alert.key) = true := by
    decide
  obtain ⟨w, hr, hw⟩ := exists_run_of_any h
  obtain ⟨hcompleted, hclaimed⟩ := of_decide_eq_true hw
  refine ⟨w, hr, hcompleted, mt (dispatched_iff_spared List.not_mem_nil hr hclaimed).mp fun hC => ?_⟩
  exact (((hC.2 _ rfl).2 _ rfl).2 _ rfl).1 _ rfl List.mem_cons_self

/-- A sweep, a new instant for the ticket, and a sweep before it. -/
def movedDue : List (Event SweepRequest Bool) :=
  [.arrive (.sweep (sweepAt 61)), .step 0 true, .step 0 true, .step 0 true,
    .arrive (.write (ticketRows { hourTicket with resolutionDue := some (4000 * nanos) })), .step 0 true,
    .arrive (.sweep (sweepAt 62)), .step 0 true, .step 0 true, .step 0 true]

theorem breached_before_at_risk_movedDue :
    ∃ w, run sweepStep (World.start 0 (SweepDb.start (ticketRows hourTicket) Keyed.empty)) movedDue = some w ∧
      w.store.dispatched.map (·.2.kind) = [.resolutionAtRisk, .resolutionBreached] ∧
      w.store.dispatched.Pairwise fun later earlier => earlier.2.kind.isBreached = true →
        later.2.kind.isBreached = false → earlier.2.due < later.2.due := by
  have h : (run sweepStep (World.start 0 (SweepDb.start (ticketRows hourTicket) Keyed.empty)) movedDue).any
      (fun w => w.store.dispatched.map (·.2.kind) = [.resolutionAtRisk, .resolutionBreached]) = true := by
    decide
  have hC : StepsMeet sweepStep OneByOne (World.start 0 (SweepDb.start (ticketRows hourTicket) Keyed.empty))
      movedDue := by
    decide
  obtain ⟨w, hr, hw⟩ := exists_run_of_any h
  exact ⟨w, hr, of_decide_eq_true hw, breached_before_at_risk hC hr⟩

end Mokosh.Sla
