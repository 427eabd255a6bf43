import Mathlib.Data.List.Pairwise
import Mokosh.Lib.Requests
import Mokosh.Lib.Table
import Mokosh.Types

/-! # The work-day clock

`time_tracking/work_day.rs`: the segments of one person.  A call takes its instant first; then its transaction finds
the open segment (`FOR UPDATE`), waits for its lock and looks at it again, and writes at that instant.

* That no two segments are open is a unique index, and that none ends before it starts is a `CHECK`: fields of `Clock`
  and `Segment`.
* Instants are microseconds, and the calls of any number of devices are in flight.

**`no_minute_twice`**: no two segments overlap, as long as (`ClocksInLate`) each clock-in that opens a segment has
taken its instant after the end of every segment that it finds.  A break never leaves a gap.  `late_clock_in` has a
run with a clock-in that was held up. -/

namespace Mokosh.WorkDay

open Requests (Handlers World Event Keeps Rule)

inductive SegmentKind where
  | work
  | onBreak
deriving DecidableEq

/-- A row of `work_day_segments`. -/
structure Segment where
  id : Uuid
  date : NaiveDate
  kind : SegmentKind
  startedAt : ℕ
  endedAt : Option ℕ
  check : ∀ t ∈ endedAt, startedAt ≤ t
deriving DecidableEq

structure SegmentResponse where
  segment : Segment
  minutes : ℕ

namespace Segment

variable (s : Segment) (now : ℕ)

def isOpen : Bool := s.endedAt.isNone

/-- `minutes`. -/
def elapsed : ℕ := (s.endedAt.getD now - s.startedAt) / 60000000

def intoResponse : SegmentResponse := { segment := s, minutes := s.elapsed now }

theorem check_some {t₀ t : ℕ} (h : t₀ ≤ t) : ∀ t' ∈ some t, t₀ ≤ t' := fun _ ht => Option.some.inj ht ▸ h

/-- The row with its end, if the `CHECK` admits it. -/
def close (t : ℕ) : Segment :=
  if h : s.startedAt ≤ t then { s with endedAt := some t, check := check_some h } else s

@[simp] theorem close_id (t : ℕ) : (s.close t).id = s.id := by
  unfold close
  split <;> rfl

/-- A new row. -/
def opened (id : Uuid) (date : NaiveDate) (kind : SegmentKind) (t : ℕ) : Segment :=
  { id := id, date := date, kind := kind, startedAt := t, endedAt := none, check := fun _ ht => nomatch ht }

end Segment

def fmtElapsed (minutes : ℕ) : String :=
  if 0 < minutes / 60 then s!"{minutes / 60}h {minutes % 60}m" else s!"{minutes % 60}m"

def openSegmentConflict (s : Segment) (now : ℕ) : String :=
  let running := fmtElapsed (s.elapsed now)
  match s.kind with
  | .onBreak =>
    s!"Already clocked in and on a break, on {s.date.format} for {running}. End the break or clock out first; if " ++
      "the break should have ended earlier, correct that segment instead."
  | .work =>
    s!"Already clocked in on {s.date.format} for {running}. Clock out first; if you forgot to clock out that day, " ++
      "correct that segment instead so the time in between is not recorded as worked."

/-- The segments of a person, with `idx_work_day_segments_open`. -/
structure Clock where
  segments : Table Segment.id
  oneOpen : segments.rows.countP Segment.isOpen ≤ 1

namespace Clock

variable (c : Clock)

def openSegment : Option Segment := c.segments.rows.find? Segment.isOpen

theorem close_oneOpen (id : Uuid) (t : ℕ) :
    (c.segments.update id (·.close t) fun s => s.close_id t).rows.countP Segment.isOpen ≤ 1 := by
  refine le_trans ?_ c.oneOpen
  unfold Table.update Table.map
  rw [List.countP_map]
  refine List.countP_mono_left fun s _ hs => ?_
  dsimp only [Function.comp_apply] at hs
  split at hs
  · unfold Segment.close at hs
    split at hs
    · exact absurd hs Bool.false_ne_true
    · exact hs
  · exact hs

def closeSegment (id : Uuid) (t : ℕ) : AppResult (Segment × Clock) :=
  match c.segments.find id with
  | none => .error (.notFound "Record")
  | some s =>
    if s.startedAt ≤ t then
      .ok (s.close t,
        { segments := c.segments.update id (·.close t) fun s => s.close_id t, oneOpen := c.close_oneOpen id t })
    else .error (.database "work_day_segments_check")

theorem open_oneOpen (h : c.openSegment = none) (date : NaiveDate) (kind : SegmentKind) (t : ℕ) :
    (c.segments.insert (Segment.opened · date kind t)).rows.countP Segment.isOpen ≤ 1 := by
  have hnone : c.segments.rows.countP Segment.isOpen = 0 :=
    List.countP_eq_zero.mpr fun s hs => List.find?_eq_none.mp h s hs
  unfold Table.insert
  rw [List.countP_append, hnone]
  rfl

def openNewSegment (date : NaiveDate) (kind : SegmentKind) (t : ℕ) : AppResult (Segment × Clock) :=
  if h : c.openSegment = none then
    .ok (Segment.opened c.segments.next date kind t,
      { segments := c.segments.insert (Segment.opened · date kind t), oneOpen := c.open_oneOpen h date kind t })
  else .error (.conflict "Already clocked in; clock out first")

def deleteSegment (id : Uuid) : Clock where
  segments := c.segments.erase id
  oneOpen := (List.filter_sublist.countP_le).trans c.oneOpen

end Clock

/-! ### Calls -/

inductive SegmentEditPolicy where
  | off
  | ownerOrAdmin
  | ownerOrManager
deriving DecidableEq

structure Caller where
  id : Uuid
  isAdmin : Bool
  canManageUsers : Bool
deriving DecidableEq

namespace SegmentEditPolicy

def parse : String → Option SegmentEditPolicy
  | "off" => some .off
  | "owner_or_admin" => some .ownerOrAdmin
  | "owner_or_manager" => some .ownerOrManager
  | _ => none

def permits (caller : Caller) (owner : Uuid) : SegmentEditPolicy → Bool
  | .off => false
  | .ownerOrAdmin => caller.id = owner || caller.isAdmin
  | .ownerOrManager => caller.id = owner || caller.canManageUsers

end SegmentEditPolicy

inductive Operation where
  | clockIn (date : Option NaiveDate)
  | clockOut
  | startBreak
  | endBreak
  | deleteSegment (id : Uuid) (caller : Caller)
deriving DecidableEq

def Operation.isBreak : Operation → Bool
  | .startBreak | .endBreak => true
  | _ => false

def Operation.isClockIn : Operation → Bool
  | .clockIn _ => true
  | _ => false

/-- What a call finds in the tenant's settings. -/
structure Settings where
  trackBreaks : Bool
  segmentEditing : Option String
deriving DecidableEq

/-- A call that has taken its instant. -/
structure Call where
  op : Operation
  policy : SegmentEditPolicy
  now : ℕ
deriving DecidableEq

namespace Call

variable (k : Call)

/-- The `WHERE` of the `SELECT … FOR UPDATE`, on a row that it has waited for. -/
def selects (s : Segment) : Bool :=
  match k.op with
  | .deleteSegment id _ => s.id = id
  | _ => s.isOpen

def find (c : Clock) : Option Segment :=
  match k.op with
  | .deleteSegment id _ => c.segments.find id
  | _ => c.openSegment

/-- The rest of the transaction, with the segment that it has locked. -/
def transact (user : Uuid) (userToday : ℕ → NaiveDate) (c : Clock) (found : Option Segment) :
    AppResult (Option SegmentResponse × Clock) :=
  match k.op, found with
  | .clockIn _, some s => .error (.conflict (openSegmentConflict s k.now))
  | .clockIn date, none => do
    let (s, c) ← c.openNewSegment (date.getD (userToday k.now)) .work k.now
    .ok (some (s.intoResponse k.now), c)
  | .clockOut, none => .error (.conflict "Not clocked in")
  | .clockOut, some s => do
    let (s, c) ← c.closeSegment s.id k.now
    .ok (some (s.intoResponse k.now), c)
  | .startBreak, none => .error (.conflict "Not clocked in; clock in first")
  | .startBreak, some s =>
    if s.kind = .onBreak then .error (.conflict "Already on a break")
    else do
      let (_, c) ← c.closeSegment s.id k.now
      let (s, c) ← c.openNewSegment s.date .onBreak k.now
      .ok (some (s.intoResponse k.now), c)
  | .endBreak, none => .error (.conflict "Not on a break")
  | .endBreak, some s =>
    if s.kind = .onBreak then do
      let (_, c) ← c.closeSegment s.id k.now
      let (s, c) ← c.openNewSegment s.date .work k.now
      .ok (some (s.intoResponse k.now), c)
    else .error (.conflict "Not on a break")
  | .deleteSegment _ _, none => .error (.notFound "Work day segment")
  | .deleteSegment _ caller, some s =>
    if k.policy.permits caller user then .ok (none, c.deleteSegment s.id)
    else .error (.forbidden "Not allowed to correct this work day segment")

end Call

inductive Point where
  | called (op : Operation)
  | selecting (k : Call)
  /-- The row that the statement has found, before it has its lock. -/
  | waiting (k : Call) (id : Uuid)
  | holding (k : Call) (found : Option Segment)
deriving DecidableEq

section Advance

variable (user : Uuid) (userToday : ℕ → NaiveDate)

/-- The next statement of a call. -/
def advance (now : ℕ) (settings : Settings) (c : Clock) : Point → Option (Clock × Option Point)
  | .called op =>
    if op.isBreak && !settings.trackBreaks then some (c, none)
    else
      let policy := (settings.segmentEditing.bind SegmentEditPolicy.parse).getD .ownerOrAdmin
      some (c, some (.selecting { op := op, policy := policy, now := now }))
  | .selecting k =>
    match k.find c with
    | none => some (c, some (.holding k none))
    | some s => some (c, some (.waiting k s.id))
  | .waiting k id => some (c, some (.holding k ((c.segments.find id).filter k.selects)))
  | .holding k found =>
    match k.transact user userToday c found with
    | .ok (_, c') => some (c', none)
    | .error _ => some (c, none)

/-- A row is locked from when it is found until the transaction ends. -/
def handlers : Handlers Operation Settings Clock Point Uuid where
  start := .called
  advance := advance user userToday
  takes
    | _, .waiting _ id => [id]
    | _, _ => []
  holds
    | .holding _ (some s) => [s.id]
    | _ => []

abbrev step := Requests.step (handlers user userToday)

end Advance

/-! ### Overlaps -/

namespace Segment

/-- The segment has ended by then. -/
def EndedBy (s : Segment) (t : ℕ) : Prop := ∃ t' ∈ s.endedAt, t' ≤ t

/-- One of the two has ended when the other starts. -/
def Apart (a b : Segment) : Prop := a.EndedBy b.startedAt ∨ b.EndedBy a.startedAt

/-- The later start comes before both ends. -/
def Overlap (a b : Segment) : Prop :=
  (∀ t ∈ a.endedAt, max a.startedAt b.startedAt < t) ∧ ∀ t ∈ b.endedAt, max a.startedAt b.startedAt < t

instance (a b : Segment) : Decidable (a.Overlap b) :=
  inferInstanceAs (Decidable ((∀ t ∈ a.endedAt, max a.startedAt b.startedAt < t) ∧
    ∀ t ∈ b.endedAt, max a.startedAt b.startedAt < t))

variable {a b s : Segment} {t : ℕ}

theorem Apart.not_overlap (h : a.Apart b) : ¬a.Overlap b := by
  rintro ⟨ha, hb⟩
  obtain ⟨t, ht, hle⟩ | ⟨t, ht, hle⟩ := h
  · exact absurd (ha t ht) (not_lt_of_ge (hle.trans (le_max_right _ _)))
  · exact absurd (hb t ht) (not_lt_of_ge (hle.trans (le_max_left _ _)))

/-- What is apart from an open segment has ended when that one starts. -/
theorem Apart.endedBy (h : a.Apart b) (hb : b.isOpen = true) : a.EndedBy b.startedAt := by
  obtain h | ⟨t, ht, -⟩ := h
  · exact h
  · rw [Option.isNone_iff_eq_none.mp hb] at ht
    exact nomatch ht

theorem EndedBy.mono {t' : ℕ} (h : s.EndedBy t) (hle : t ≤ t') : s.EndedBy t' := by
  obtain ⟨t₀, ht₀, h₀⟩ := h
  exact ⟨t₀, ht₀, h₀.trans hle⟩

theorem close_startedAt (s : Segment) (t : ℕ) : (s.close t).startedAt = s.startedAt := by
  unfold close
  split <;> rfl

theorem close_endedAt (h : s.startedAt ≤ t) : (s.close t).endedAt = some t := by
  unfold close
  rw [dif_pos h]

end Segment

namespace Clock

/-- Any two segments are apart. -/
def Orderly (c : Clock) : Prop := ∀ a ∈ c.segments, ∀ b ∈ c.segments, a.id ≠ b.id → a.Apart b

/-- Every segment has ended by then. -/
def EndedBy (c : Clock) (t : ℕ) : Prop := ∀ s ∈ c.segments, s.EndedBy t

variable {c c' : Clock} {s s' : Segment} {id : Uuid} {t : ℕ} {date : NaiveDate} {kind : SegmentKind}

theorem closeSegment_eq_ok (h : c.closeSegment id t = .ok (s', c')) :
    ∃ s, c.segments.find id = some s ∧ s.startedAt ≤ t ∧ s' = s.close t ∧
      c'.segments = c.segments.update id (·.close t) fun s => s.close_id t := by
  unfold closeSegment at h
  split at h
  · cases h
  · next s hs =>
      split at h
      · next hle =>
          cases h
          exact ⟨s, hs, hle, rfl, rfl⟩
      · cases h

theorem openNewSegment_eq_ok (h : c.openNewSegment date kind t = .ok (s', c')) :
    c.openSegment = none ∧ s' = Segment.opened c.segments.next date kind t ∧
      c'.segments = c.segments.insert (Segment.opened · date kind t) := by
  unfold openNewSegment at h
  split at h
  · next hnone =>
      cases h
      exact ⟨hnone, rfl, rfl⟩
  · cases h

theorem mem_closed (hc' : c'.segments = c.segments.update s.id (·.close t) fun s => s.close_id t)
    (hs : s ∈ c.segments) {x : Segment} : x ∈ c'.segments ↔ x = s.close t ∨ x ∈ c.segments ∧ x.id ≠ s.id := by
  rw [hc', Table.mem_update_of_mem hs fun s => s.close_id t]

/-- To close the open segment keeps the segments apart, and none is open any more. -/
theorem Orderly.close (h : c.Orderly) (hs : s ∈ c.segments) (ho : s.isOpen = true) (hle : s.startedAt ≤ t)
    (hc' : c'.segments = c.segments.update s.id (·.close t) fun s => s.close_id t) : c'.Orderly ∧ c'.EndedBy t := by
  have hend : ∀ x ∈ c.segments, x.id ≠ s.id → x.EndedBy s.startedAt := fun x hx hne => (h x hx s hs hne).endedBy ho
  have hclosed : (s.close t).EndedBy t := ⟨t, Segment.close_endedAt hle, Nat.le_refl t⟩
  constructor
  · intro a ha b hb hne
    obtain rfl | ⟨ha, hna⟩ := (mem_closed hc' hs).mp ha
    · obtain rfl | ⟨hb, hnb⟩ := (mem_closed hc' hs).mp hb
      · exact absurd rfl hne
      · refine .inr ?_
        rw [Segment.close_startedAt]
        exact hend b hb hnb
    · obtain rfl | ⟨hb, -⟩ := (mem_closed hc' hs).mp hb
      · refine .inl ?_
        rw [Segment.close_startedAt]
        exact hend a ha hna
      · exact h a ha b hb hne
  · intro x hx
    obtain rfl | ⟨hx, hne⟩ := (mem_closed hc' hs).mp hx
    · exact hclosed
    · exact (hend x hx hne).mono hle

/-- To open a segment after the end of all others keeps them apart. -/
theorem Orderly.open (h : c.Orderly) (hend : c.EndedBy t)
    (hc' : c'.segments = c.segments.insert (Segment.opened · date kind t)) : c'.Orderly := by
  intro a ha b hb hne
  rw [hc', Table.mem_insert] at ha hb
  obtain ha | rfl := ha
  · obtain hb | rfl := hb
    · exact h a ha b hb hne
    · exact .inl (hend a ha)
  · obtain hb | rfl := hb
    · exact .inr (hend b hb)
    · exact absurd rfl hne

theorem Orderly.delete (h : c.Orderly) (id : Uuid) : (c.deleteSegment id).Orderly :=
  fun a ha b hb hne => h a (Table.mem_erase.mp ha).1 b (Table.mem_erase.mp hb).1 hne

end Clock

/-! ### What a transaction writes -/

/-- The new segment starts where the one that was open ends, on the same day. -/
def Gapless (s : Segment) (t : ℕ) (c : Clock) : Prop :=
  (∃ a ∈ c.segments, a.id = s.id ∧ a.startedAt = s.startedAt ∧ a.endedAt = some t) ∧
    ∃ b ∈ c.segments, b.date = s.date ∧ b.kind ≠ s.kind ∧ b.startedAt = t ∧ b.endedAt = none

/-- What the rest of a transaction can do. -/
inductive Wrote (k : Call) (c : Clock) : Option Segment → Clock → Prop
  | clockedIn {c' : Clock} {date : NaiveDate} (hop : k.op.isClockIn = true) (hopen : c.openSegment = none)
      (hc' : c'.segments = c.segments.insert (Segment.opened · date .work k.now)) : Wrote k c none c'
  | clockedOut {s₀ s : Segment} {c' : Clock} (hop : k.op = .clockOut) (hs : c.segments.find s.id = some s₀)
      (hle : s₀.startedAt ≤ k.now)
      (hc' : c'.segments = c.segments.update s.id (·.close k.now) fun s => s.close_id k.now) : Wrote k c (some s) c'
  | switched {s₀ s : Segment} {c₁ c' : Clock} {kind : SegmentKind} (hop : k.op.isBreak = true)
      (hs : c.segments.find s.id = some s₀) (hle : s₀.startedAt ≤ k.now) (hkind : kind ≠ s.kind)
      (hc₁ : c₁.segments = c.segments.update s.id (·.close k.now) fun s => s.close_id k.now)
      (hc' : c'.segments = c₁.segments.insert (Segment.opened · s.date kind k.now)) : Wrote k c (some s) c'
  | deleted {s : Segment} (hop : k.op.isBreak = false) : Wrote k c (some s) (c.deleteSegment s.id)

variable {user : Uuid} {userToday : ℕ → NaiveDate} {c c' : Clock} {k : Call} {found : Option Segment}
  {r : Option SegmentResponse} {s : Segment}

theorem switched_of_ok {kind : SegmentKind} (hop : k.op.isBreak = true) (hkind : kind ≠ s.kind)
    (h : (do
      let (_, c) ← c.closeSegment s.id k.now
      let (s, c) ← c.openNewSegment s.date kind k.now
      .ok (some (s.intoResponse k.now), c) : AppResult (Option SegmentResponse × Clock)) = .ok (r, c')) :
    Wrote k c (some s) c' := by
  obtain ⟨⟨_, c₁⟩, hclose, h⟩ := bind_eq_ok.mp h
  obtain ⟨⟨_, c₂⟩, hopen, h⟩ := bind_eq_ok.mp h
  cases h
  obtain ⟨s₀, hs, hle, -, hc₁⟩ := Clock.closeSegment_eq_ok hclose
  obtain ⟨-, -, hc'⟩ := Clock.openNewSegment_eq_ok hopen
  exact .switched hop hs hle hkind hc₁ hc'

theorem transact_wrote (h : k.transact user userToday c found = .ok (r, c')) : Wrote k c found c' := by
  obtain ⟨op, policy, now⟩ := k
  cases op with
  | clockIn date =>
      cases found with
      | some s => cases h
      | none =>
          obtain ⟨⟨_, c₁⟩, hopen, h⟩ := bind_eq_ok.mp h
          cases h
          obtain ⟨hnone, -, hc'⟩ := Clock.openNewSegment_eq_ok hopen
          exact .clockedIn rfl hnone hc'
  | clockOut =>
      cases found with
      | none => cases h
      | some s =>
          obtain ⟨⟨_, c₁⟩, hclose, h⟩ := bind_eq_ok.mp h
          cases h
          obtain ⟨s₀, hs, hle, -, hc'⟩ := Clock.closeSegment_eq_ok hclose
          exact .clockedOut rfl hs hle hc'
  | startBreak =>
      cases found with
      | none => cases h
      | some s =>
          simp only [Call.transact] at h
          split at h
          · cases h
          · next hkind => exact switched_of_ok rfl (Ne.symm hkind) h
  | endBreak =>
      cases found with
      | none => cases h
      | some s =>
          simp only [Call.transact] at h
          split at h
          · next hkind => exact switched_of_ok rfl (by rw [hkind]; decide) h
          · cases h
  | deleteSegment id caller =>
      cases found with
      | none => cases h
      | some s =>
          simp only [Call.transact] at h
          split at h
          · cases h
            exact .deleted rfl
          · cases h

/-- The segment that a transaction has locked. -/
structure Held (c : Clock) (k : Call) (s : Segment) : Prop where
  mem : s ∈ c.segments
  selects : k.selects s = true

theorem Held.isOpen (h : Held c k s) (hop : k.op = .clockOut ∨ k.op.isBreak = true) : s.isOpen = true := by
  have hsel := h.selects
  obtain ⟨op, policy, now⟩ := k
  cases op with
  | deleteSegment id caller =>
      obtain hop | hop := hop
      · cases hop
      · exact absurd hop Bool.false_ne_true
  | _ => exact hsel

theorem Held.eq_of_find (h : Held c k s) {s₀ : Segment} (hs : c.segments.find s.id = some s₀) : s₀ = s :=
  Option.some.inj (hs.symm.trans (Table.find_key h.mem))

/-- The clock-in that is going to open a segment has taken its instant after the end of all that it finds. -/
def ClocksInLateAt (c : Clock) : Point → Prop
  | .holding k none => k.op.isClockIn = true → c.openSegment = none →
      ∀ s ∈ c.segments.rows, ∀ t ∈ s.endedAt, t ≤ k.now
  | _ => True

instance (c : Clock) : ∀ p, Decidable (ClocksInLateAt c p)
  | .holding k none => inferInstanceAs (Decidable (k.op.isClockIn = true → c.openSegment = none →
      ∀ s ∈ c.segments.rows, ∀ t ∈ s.endedAt, t ≤ k.now))
  | .holding _ (some _) | .called _ | .selecting _ | .waiting _ _ => isTrue trivial

theorem endedBy_of_openSegment (hopen : c.openSegment = none) {t : ℕ}
    (h : ∀ s ∈ c.segments.rows, ∀ t' ∈ s.endedAt, t' ≤ t) : c.EndedBy t := by
  intro s hs
  have hclosed := List.find?_eq_none.mp hopen s hs
  cases hend : s.endedAt with
  | none =>
      unfold Segment.isOpen at hclosed
      rw [hend] at hclosed
      exact absurd rfl hclosed
  | some t' => exact ⟨t', hend, h s hs t' hend⟩

theorem Wrote.orderly (h : Wrote k c found c') (hc : c.Orderly) (hheld : ∀ s ∈ found, Held c k s)
    (hlate : ClocksInLateAt c (.holding k found)) : c'.Orderly := by
  cases h with
  | clockedIn hop hopen hc' => exact hc.open (endedBy_of_openSegment hopen (hlate hop hopen)) hc'
  | @clockedOut s₀ s _ hop hs hle hc' =>
      have hs' := hheld s rfl
      obtain rfl := hs'.eq_of_find hs
      exact (hc.close hs'.mem (hs'.isOpen (.inl hop)) hle hc').1
  | @switched s₀ s _ _ _ hop hs hle hkind hc₁ hc' =>
      have hs' := hheld s rfl
      obtain rfl := hs'.eq_of_find hs
      obtain ⟨h₁, hend⟩ := hc.close hs'.mem (hs'.isOpen (.inr hop)) hle hc₁
      exact h₁.open hend hc'
  | deleted => exact hc.delete _

/-- The other rows stay. -/
theorem Wrote.mem (h : Wrote k c found c') (hs : s ∈ c.segments) (hne : ∀ s' ∈ found, s.id ≠ s'.id) :
    s ∈ c'.segments := by
  have hclosed : ∀ {c₁ : Clock} {s' : Segment}, s.id ≠ s'.id →
      c₁.segments = c.segments.update s'.id (·.close k.now) (fun s => s.close_id k.now) → s ∈ c₁.segments := by
    intro c₁ s' hne hc₁
    rw [hc₁]
    exact (Table.mem_update fun s => s.close_id k.now).mpr ⟨s, hs, if_neg hne⟩
  cases h with
  | clockedIn _ _ hc' =>
      rw [hc']
      exact (Table.mem_insert fun _ => rfl).mpr (.inl hs)
  | clockedOut _ _ _ hc' => exact hclosed (hne _ rfl) hc'
  | switched _ _ _ _ hc₁ hc' =>
      rw [hc']
      exact (Table.mem_insert fun _ => rfl).mpr (.inl (hclosed (hne _ rfl) hc₁))
  | deleted => exact Table.mem_erase.mpr ⟨hs, hne _ rfl⟩

theorem Wrote.gapless (h : Wrote k c (some s) c') (hheld : Held c k s) (hop : k.op.isBreak = true) :
    Gapless s k.now c' := by
  cases h with
  | clockedOut hop' =>
      rw [hop'] at hop
      exact absurd hop Bool.false_ne_true
  | deleted hop' =>
      rw [hop'] at hop
      exact absurd hop Bool.false_ne_true
  | @switched _ _ c₁ _ kind _ hs hle hkind hc₁ hc' =>
      replace hle : s.startedAt ≤ k.now := hheld.eq_of_find hs ▸ hle
      refine ⟨⟨s.close k.now, ?_, Segment.close_id _ _, Segment.close_startedAt _ _, Segment.close_endedAt hle⟩,
        Segment.opened c₁.segments.next s.date kind k.now, ?_, rfl, hkind, rfl, rfl⟩
      · rw [hc', Table.mem_insert]
        exact .inl ((Clock.mem_closed hc₁ hheld.mem).mpr (.inl rfl))
      · rw [hc', Table.mem_insert]
        exact .inr rfl

/-! ### Whole runs -/

/-- What a call that stands there has found. -/
def Stands (c : Clock) : Point → Prop
  | .holding k found => ∀ s ∈ found, Held c k s
  | _ => True

/-- Each step of a clock-in that opens a segment meets the condition. -/
def ClocksInLate (w : World Clock Point) : Event Operation Settings → Prop
  | .step i _ => ∀ p ∈ w.requests[i]?, ClocksInLateAt w.store p
  | _ => True

instance (w : World Clock Point) : ∀ e, Decidable (ClocksInLate w e)
  | .step i _ => inferInstanceAs (Decidable (∀ p ∈ w.requests[i]?, ClocksInLateAt w.store p))
  | .wait _ | .arrive _ | .crash _ => isTrue trivial

variable (user userToday) in
/-- A statement that writes writes what the rest of its transaction does. -/
theorem advance_cases {now : ℕ} {settings : Settings} {p : Point} {q : Option Point}
    (ha : advance user userToday now settings c p = some (c', q)) :
    c' = c ∧ (∀ p' ∈ q, Stands c p') ∨ ∃ k found, p = .holding k found ∧ q = none ∧ Wrote k c found c' := by
  cases p with
  | called op =>
      simp only [advance] at ha
      split at ha
      · cases ha
        exact .inl ⟨rfl, fun _ hp => nomatch hp⟩
      · cases ha
        exact .inl ⟨rfl, fun _ hp => Option.some.inj hp ▸ trivial⟩
  | selecting k =>
      simp only [advance] at ha
      split at ha
      · cases ha
        exact .inl ⟨rfl, fun _ hp => Option.some.inj hp ▸ fun _ hs => nomatch hs⟩
      · cases ha
        exact .inl ⟨rfl, fun _ hp => Option.some.inj hp ▸ trivial⟩
  | waiting k id =>
      cases ha
      refine .inl ⟨rfl, fun _ hp => Option.some.inj hp ▸ fun s hs => ?_⟩
      obtain ⟨hs, hsel⟩ := Option.filter_eq_some_iff.mp hs
      exact ⟨Table.find_mem hs, hsel⟩
  | holding k found =>
      simp only [advance] at ha
      split at ha
      · next h =>
          cases ha
          exact .inr ⟨k, found, rfl, rfl, transact_wrote h⟩
      · cases ha
        exact .inl ⟨rfl, fun _ hp => nomatch hp⟩

/-- The rows that are locked stay as they were found, and what every transaction keeps, a run keeps. -/
theorem clock_rule (user : Uuid) (userToday : ℕ → NaiveDate) {G : Clock → Prop}
    {C : World Clock Point → Event Operation Settings → Prop}
    (hG : ∀ {w i settings k found c'}, C w (.step i settings) → w.requests[i]? = some (.holding k found) → G w.store →
      (∀ s ∈ found, Held w.store k s) → Wrote k w.store found c' → G c') :
    Rule (handlers user userToday) (fun _ c => G c) (fun _ => Stands) C where
  locks {n settings c p c' q} ha p' hp' b hb := by
    cases p with
    | waiting k id =>
        cases ha
        obtain rfl := Option.some.inj hp'
        cases hf : (c.segments.find id).filter k.selects with
        | none =>
            rw [hf] at hb
            exact absurd hb List.not_mem_nil
        | some s =>
            rw [hf] at hb
            have hid := Table.key_of_find (Option.filter_eq_some_iff.mp hf).1
            exact .inl (hid ▸ hb)
    | called op =>
        simp only [handlers, advance] at ha
        split at ha <;> cases ha
        · cases hp'
        · obtain rfl := Option.some.inj hp'
          exact absurd hb List.not_mem_nil
    | selecting k =>
        simp only [handlers, advance] at ha
        split at ha <;> cases ha <;> obtain rfl := Option.some.inj hp' <;> exact absurd hb List.not_mem_nil
    | holding k found =>
        simp only [handlers, advance] at ha
        split at ha <;> cases ha <;> cases hp'
  unlocked _ := rfl
  wait h _ := ⟨h, fun _ hp => hp⟩
  start _ _ := trivial
  step {w i settings p c' q} hw hC hi ha := by
    have hp := hw.requests p (List.mem_of_getElem? hi)
    obtain ⟨rfl, hq⟩ | ⟨k, found, rfl, rfl, hwrote⟩ := advance_cases user userToday ha
    · exact ⟨hw.store, hq, fun _ _ _ hp' => hp'⟩
    · refine ⟨hG hC hi hw.store hp hwrote, fun _ hp' => (nomatch hp'), fun p' _ hapart hp' => ?_⟩
      cases p' with
      | holding k' found' =>
          intro s hs
          refine ⟨hwrote.mem (hp' s hs).mem fun s' hs' heq => ?_, (hp' s hs).selects⟩
          obtain rfl := Option.mem_def.mp hs
          obtain rfl := Option.mem_def.mp hs'
          exact hapart s'.id List.mem_cons_self (heq ▸ List.mem_cons_self)
      | _ => trivial

variable {n : ℕ} {es : List (Event Operation Settings)} {w w' : World Clock Point}

/-- In every run at most one segment is open and a break leaves no gap.  If in every step a clock-in that opens a
segment has taken its instant after the end of all segments that it finds, then no two segments overlap. -/
theorem no_minute_twice (h₀ : c.Orderly) (hr : run (step user userToday) (World.start n c) es = some w) :
    (StepsMeet (step user userToday) ClocksInLate (World.start n c) es →
      ∀ a ∈ w.store.segments, ∀ b ∈ w.store.segments, a.id ≠ b.id → ¬a.Overlap b) ∧
    w.store.segments.rows.countP Segment.isOpen ≤ 1 ∧
    ∀ i settings k s w', w.requests[i]? = some (.holding k (some s)) → k.op.isBreak = true →
      step user userToday w (.step i settings) = some w' → w'.store = w.store ∨ Gapless s k.now w'.store := by
  refine ⟨fun hC a ha b hb hne => ?_, w.store.oneOpen, ?_⟩
  · have horderly := (clock_rule user userToday (G := Clock.Orderly) fun hC hi hc hheld hwrote =>
      hwrote.orderly hc hheld (hC _ hi)).run (Requests.keeps_start h₀) hC hr
    exact (horderly.store a ha b hb hne).not_overlap
  · intro i settings k s w' hi hop hs
    have hkept := (clock_rule user userToday (G := fun _ => True) fun _ _ _ _ _ => trivial).run
      (Requests.keeps_start trivial) (stepsMeet_true _ _) hr
    replace hs := Requests.step_cases hs
    cases hs with
    | @advanced _ _ p c' q hi' _ ha =>
        obtain rfl := Option.some.inj (hi.symm.trans hi')
        replace ha : advance user userToday w.now settings w.store (.holding k (some s)) = some (c', q) := ha
        rw [World.resume_store]
        obtain ⟨rfl, -⟩ | ⟨k', found, heq, -, hwrote⟩ := advance_cases user userToday ha
        · exact .inl rfl
        · cases heq
          exact .inr (hwrote.gapless (hkept.requests _ (List.mem_of_getElem? hi) s rfl) hop)

/-! ### A clock-in that was held up -/

def today : NaiveDate := (NaiveDate.fromYmdOpt 2026 1 5).get (by decide)

def noClock : Clock := { segments := ∅, oneOpen := Nat.zero_le 1 }

def settings : Settings := { trackBreaks := true, segmentEditing := none }

/-- A clock-in takes its instant and is held up.  Another one goes through, and the person clocks out. -/
def heldUp : List (Event Operation Settings) :=
  [.arrive (.clockIn none), .step 0 settings, .wait 60000000, .arrive (.clockIn none), .step 1 settings, .step 1 settings,
    .step 1 settings, .wait 60000000, .arrive .clockOut, .step 1 settings, .step 1 settings, .step 1 settings,
    .step 1 settings, .step 0 settings, .step 0 settings]

/-- The minute between the second clock-in and the clock-out is counted twice. -/
theorem late_clock_in : ∃ w, run (step 1 fun _ => today) (World.start 0 noClock) heldUp = some w ∧
    ∃ a ∈ w.store.segments.rows, ∃ b ∈ w.store.segments.rows, a.id ≠ b.id ∧ a.Overlap b := by
  have h : (run (step 1 fun _ => today) (World.start 0 noClock) heldUp).any (fun w =>
      ∃ a ∈ w.store.segments.rows, ∃ b ∈ w.store.segments.rows, a.id ≠ b.id ∧ a.Overlap b) = true := by
    decide
  obtain ⟨w, hr, hw⟩ := exists_run_of_any h
  exact ⟨w, hr, of_decide_eq_true hw⟩

/-- A day with a break. -/
def dayWithBreak : List (Event Operation Settings) :=
  [.arrive (.clockIn none), .step 0 settings, .step 0 settings, .step 0 settings, .wait 60000000, .arrive .startBreak,
    .step 0 settings, .step 0 settings, .step 0 settings, .step 0 settings, .wait 60000000, .arrive .endBreak,
    .step 0 settings, .step 0 settings, .step 0 settings, .step 0 settings]

theorem no_minute_twice_dayWithBreak : ∃ w,
    run (step 1 fun _ => today) (World.start 0 noClock) dayWithBreak = some w ∧
      w.store.segments.rows.length = 3 ∧ ∀ a ∈ w.store.segments, ∀ b ∈ w.store.segments, a.id ≠ b.id → ¬a.Overlap b := by
  have h₀ : noClock.Orderly := fun _ ha => absurd ha List.not_mem_nil
  have h : (run (step 1 fun _ => today) (World.start 0 noClock) dayWithBreak).any
      (fun w => w.store.segments.rows.length = 3) = true := by
    decide
  have hC : StepsMeet (step 1 fun _ => today) ClocksInLate (World.start 0 noClock) dayWithBreak := by
    decide
  obtain ⟨w, hr, hw⟩ := exists_run_of_any h
  exact ⟨w, hr, of_decide_eq_true hw, (no_minute_twice h₀ hr).1 hC⟩

end Mokosh.WorkDay
