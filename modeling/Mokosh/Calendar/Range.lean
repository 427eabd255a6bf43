import Mathlib.Data.List.Sort
import Mokosh.Lib.Keyed
import Mokosh.Calendar.Recurrence

/-! # The calendar in a range

`appointments_in_range`: the appointments without a rule that overlap a window, and the occurrences of the series that
start in it.

An appointment that has begun before the window is shown if it is a row, and left out if it is an occurrence:
**`appointmentsInRange_overlap`** says for which windows what is read is what overlaps. -/

namespace Mokosh.Calendar

structure RangeFilter where
  assignedToId : Option Uuid
  teamId : Option Uuid
  myTeamsCaller : Option Uuid
deriving DecidableEq

/-- `appointments` and `team_members`. -/
structure CalendarDb where
  appointments : Keyed Appointment.id
  teamMembers : List (Uuid × Uuid)

namespace CalendarDb

variable (db : CalendarDb) (tenantId : Uuid) (f : RangeFilter)

/-- The `WHERE` that both queries share. -/
def selects (a : Appointment) : Bool :=
  a.tenantId = tenantId && f.assignedToId.all (a.assignedToId = ·) && f.teamId.all (a.teamId = some ·) &&
    f.myTeamsCaller.all fun user => a.teamId.any fun team => db.teamMembers.contains (team, user)

def selected : List Appointment := db.appointments.rows.filter (db.selects tenantId f)

def appointmentsInRange (x : Expander) (from' to' : ℤ) : List Appointment :=
  let plain := (db.selected tenantId f).filter fun a =>
    a.recurrenceRule = none ∧ from' ≤ a.endTime ∧ a.startTime ≤ to'
  let recurring := (db.selected tenantId f).filter fun a => a.recurrenceRule.isSome
  (plain ++ recurring.flatMap fun base => expandRecurrence x base from' to').insertionSort (·.startTime ≤ ·.startTime)

/-- A selected row without a rule, or an occurrence of a selected series. -/
def Instance {x : Expander} (occurs : x.RuleSet → ℤ → Prop) (a : Appointment) : Prop :=
  ∃ row ∈ db.selected tenantId f,
    row.recurrenceRule = none ∧ a = row ∨ ∃ s, row.Occurs occurs s ∧ a = row.occurrence s

end CalendarDb

/-- Of the instances `I`, those that overlap the window, each once and by their start. -/
structure Overlapping (I : Appointment → Prop) (from' to' : ℤ) (out : List Appointment) : Prop where
  mem_iff : ∀ a, a ∈ out ↔ I a ∧ from' ≤ a.endTime ∧ a.startTime ≤ to'
  nodup : out.Nodup
  sorted : out.Pairwise (·.startTime ≤ ·.startTime)

/-- The series does not reach into the window from before it. -/
def Appointment.StartsInside {x : Expander} (occurs : x.RuleSet → ℤ → Prop) (from' to' : ℤ) (row : Appointment) : Prop :=
  ∀ s, row.Occurs occurs s → s ≤ to' → from' ≤ s + row.duration → from' ≤ s

variable {x : Expander} {occurs : x.RuleSet → ℤ → Prop} {db : CalendarDb} {tenantId : Uuid} {f : RangeFilter}
  {from' to' : ℤ} {a row : Appointment}

theorem mem_appointmentsInRange (hx : x.Expands occurs)
    (hcap : ∀ row ∈ db.selected tenantId f, row.BelowCap x from' to') :
    a ∈ db.appointmentsInRange tenantId f x from' to' ↔ ∃ row ∈ db.selected tenantId f,
      row.recurrenceRule = none ∧ a = row ∧ from' ≤ a.endTime ∧ a.startTime ≤ to' ∨
        ∃ s, row.Occurs occurs s ∧ a = row.occurrence s ∧ from' ≤ s ∧ s ≤ to' := by
  unfold CalendarDb.appointmentsInRange
  simp only [List.mem_insertionSort, List.mem_append, List.mem_flatMap, List.mem_filter, decide_eq_true_eq]
  constructor
  · rintro (⟨hsel, hnone, hlo, hhi⟩ | ⟨row, ⟨hsel, -⟩, hmem⟩)
    · exact ⟨a, hsel, .inl ⟨hnone, rfl, hlo, hhi⟩⟩
    · obtain ⟨s, hs, hlo, hhi, rfl⟩ := (mem_expandRecurrence hx (hcap row hsel)).mp hmem
      exact ⟨row, hsel, .inr ⟨s, hs, rfl, hlo, hhi⟩⟩
  · rintro ⟨row, hsel, ⟨hnone, rfl, hlo, hhi⟩ | ⟨s, hs, rfl, hlo, hhi⟩⟩
    · exact .inl ⟨hsel, hnone, hlo, hhi⟩
    · exact .inr ⟨row, ⟨hsel, hs.isSome⟩, (mem_expandRecurrence hx (hcap row hsel)).mpr ⟨s, hs, hlo, hhi, rfl⟩⟩

theorem sorted_appointmentsInRange :
    (db.appointmentsInRange tenantId f x from' to').Pairwise (·.startTime ≤ ·.startTime) :=
  List.pairwise_insertionSort _ _

theorem id_of_mem_expandRecurrence (h : a ∈ expandRecurrence x row from' to') :
    a.id = row.id ∧ a.recurrenceRule = none ∧ a.recurrenceParentId = some row.id := by
  rw [expandRecurrence_eq] at h
  cases hset : row.ruleSet x with
  | none =>
      rw [hset] at h
      exact absurd h List.not_mem_nil
  | some set =>
      rw [hset] at h
      obtain ⟨s, -, rfl⟩ := List.mem_map.mp h
      exact ⟨rfl, rfl, rfl⟩

theorem nodup_appointmentsInRange (hx : x.Expands occurs) :
    (db.appointmentsInRange tenantId f x from' to').Nodup := by
  have hsel : ((db.selected tenantId f).map Appointment.id).Nodup :=
    db.appointments.nodup.sublist (List.filter_sublist.map _)
  refine (List.perm_insertionSort _ _).nodup_iff.mpr (List.nodup_append.mpr ⟨hsel.of_map.filter _, ?_, ?_⟩)
  · refine List.nodup_flatMap.mpr ⟨fun row _ => nodup_expandRecurrence hx row from' to', ?_⟩
    refine (List.pairwise_map.mp hsel).filter _ |>.imp fun hne a ha hb => hne ?_
    exact (id_of_mem_expandRecurrence ha).1.symm.trans (id_of_mem_expandRecurrence hb).1
  · rintro a ha _ hb rfl
    obtain ⟨row, hrow, hb⟩ := List.mem_flatMap.mp hb
    rw [List.mem_filter] at ha hrow
    -- The row and the series have the same id, so they are the same row, with a rule and without.
    have heq := List.inj_on_of_nodup_map hsel ha.1 hrow.1 (id_of_mem_expandRecurrence hb).1
    have hnone := (of_decide_eq_true ha.2).1
    rw [heq] at hnone
    rw [hnone] at hrow
    exact absurd hrow.2 Bool.false_ne_true

theorem eq_of_id {row' : Appointment} (h : row ∈ db.selected tenantId f) (h' : row' ∈ db.selected tenantId f)
    (hid : row.id = row'.id) : row = row' :=
  List.inj_on_of_nodup_map db.appointments.nodup (List.mem_filter.mp h).1 (List.mem_filter.mp h').1 hid

/-- What is read is what overlaps, if and only if no selected series reaches into the window. -/
theorem overlapping_iff (hx : x.Expands occurs) (hcap : ∀ row ∈ db.selected tenantId f, row.BelowCap x from' to') :
    Overlapping (db.Instance tenantId f occurs) from' to' (db.appointmentsInRange tenantId f x from' to') ↔
      ∀ row ∈ db.selected tenantId f, row.StartsInside occurs from' to' := by
  constructor
  · intro h row hsel s hs hhi hlo
    have hmem := (h.mem_iff (row.occurrence s)).mpr ⟨⟨row, hsel, .inr ⟨s, hs, rfl⟩⟩, hlo, hhi⟩
    obtain ⟨row', hsel', ⟨hnone, heq, -⟩ | ⟨s', -, heq, hlo', -⟩⟩ := (mem_appointmentsInRange hx hcap).mp hmem
    · have hsome := hs.isSome
      have hid : (row.occurrence s).id = row'.id := congrArg Appointment.id heq
      rw [eq_of_id hsel hsel' hid, hnone] at hsome
      exact absurd hsome Bool.false_ne_true
    · rw [show s = s' from congrArg Appointment.startTime heq]
      exact hlo'
  · intro h
    refine ⟨fun a => ?_, nodup_appointmentsInRange hx, sorted_appointmentsInRange⟩
    rw [mem_appointmentsInRange hx hcap]
    constructor
    · rintro ⟨row, hsel, ⟨hnone, rfl, hlo, hhi⟩ | ⟨s, hs, rfl, hlo, hhi⟩⟩
      · exact ⟨⟨a, hsel, .inl ⟨hnone, rfl⟩⟩, hlo, hhi⟩
      · exact ⟨⟨row, hsel, .inr ⟨s, hs, rfl⟩⟩, hlo.trans (row.lt_add_duration s).le, hhi⟩
    · rintro ⟨⟨row, hsel, ⟨hnone, rfl⟩ | ⟨s, hs, rfl⟩⟩, hlo, hhi⟩
      · exact ⟨a, hsel, .inl ⟨hnone, rfl, hlo, hhi⟩⟩
      · exact ⟨row, hsel, .inr ⟨s, hs, rfl, h row hsel s hs hhi hlo, hhi⟩⟩

/-! ### Windows side by side -/

/-- Two windows that meet find what the whole finds. -/
theorem mem_split (hx : x.Expands occurs) {t₁ t₂ t₃ : ℤ} (h₁₂ : t₁ ≤ t₂) (h₂₃ : t₂ ≤ t₃)
    (hcap : ∀ row ∈ db.selected tenantId f, row.BelowCap x t₁ t₃ ∧ row.BelowCap x t₁ t₂ ∧ row.BelowCap x t₂ t₃) :
    a ∈ db.appointmentsInRange tenantId f x t₁ t₃ ↔
      a ∈ db.appointmentsInRange tenantId f x t₁ t₂ ∨ a ∈ db.appointmentsInRange tenantId f x t₂ t₃ := by
  rw [mem_appointmentsInRange hx fun row h => (hcap row h).1,
    mem_appointmentsInRange hx fun row h => (hcap row h).2.1,
    mem_appointmentsInRange hx fun row h => (hcap row h).2.2]
  constructor
  · rintro ⟨row, hsel, ⟨hnone, rfl, hlo, hhi⟩ | ⟨s, hs, rfl, hlo, hhi⟩⟩
    · obtain h | h := le_total a.startTime t₂
      · exact .inl ⟨a, hsel, .inl ⟨hnone, rfl, hlo, h⟩⟩
      · exact .inr ⟨a, hsel, .inl ⟨hnone, rfl, h.trans a.rangeOk.le, hhi⟩⟩
    · obtain h | h := le_total s t₂
      · exact .inl ⟨row, hsel, .inr ⟨s, hs, rfl, hlo, h⟩⟩
      · exact .inr ⟨row, hsel, .inr ⟨s, hs, rfl, h, hhi⟩⟩
  · rintro (⟨row, hsel, ⟨hnone, rfl, hlo, hhi⟩ | ⟨s, hs, rfl, hlo, hhi⟩⟩ |
      ⟨row, hsel, ⟨hnone, rfl, hlo, hhi⟩ | ⟨s, hs, rfl, hlo, hhi⟩⟩)
    · exact ⟨a, hsel, .inl ⟨hnone, rfl, hlo, hhi.trans h₂₃⟩⟩
    · exact ⟨row, hsel, .inr ⟨s, hs, rfl, hlo, hhi.trans h₂₃⟩⟩
    · exact ⟨a, hsel, .inl ⟨hnone, rfl, h₁₂.trans hlo, hhi⟩⟩
    · exact ⟨row, hsel, .inr ⟨s, hs, rfl, h₁₂.trans hlo, hhi⟩⟩

/-! ### A series of one occurrence -/

/-- The same appointment without a rule. -/
def Appointment.withoutRule (row : Appointment) : Appointment := { row with recurrenceRule := none }

/-- One appointment in the calendar. -/
def CalendarDb.single (teamMembers : List (Uuid × Uuid)) (row : Appointment) : CalendarDb where
  appointments := { rows := [row], nodup := List.nodup_singleton row.id }
  teamMembers := teamMembers

variable {teamMembers : List (Uuid × Uuid)}

theorem selected_single (h : (CalendarDb.single teamMembers row).selects tenantId f row = true) :
    (CalendarDb.single teamMembers row).selected tenantId f = [row] :=
  List.filter_eq_self.mpr fun _ hrow => List.mem_singleton.mp hrow ▸ h

theorem exists_mem_occursOnce (hx : x.Expands occurs) (h : row.OccursOnce occurs)
    (hsel : (CalendarDb.single teamMembers row).selects tenantId f row = true) :
    (∃ a, a ∈ (CalendarDb.single teamMembers row).appointmentsInRange tenantId f x from' to') ↔
      from' ≤ wholeSecond row.startTime ∧ wholeSecond row.startTime ≤ to' := by
  have hcap : ∀ r ∈ (CalendarDb.single teamMembers row).selected tenantId f, r.BelowCap x from' to' := by
    rw [selected_single hsel]
    exact List.forall_mem_singleton.mpr (h.belowCap hx from' to')
  simp only [mem_appointmentsInRange hx hcap, selected_single hsel, List.mem_singleton, exists_eq_left]
  constructor
  · rintro ⟨a, ⟨hnone, -⟩ | ⟨s, hs, -, hlo, hhi⟩⟩
    · have hsome := ((h _).mpr rfl).isSome
      rw [hnone] at hsome
      exact absurd hsome Bool.false_ne_true
    · rw [(h s).mp hs] at hlo hhi
      exact ⟨hlo, hhi⟩
  · rintro ⟨hlo, hhi⟩
    exact ⟨_, .inr ⟨_, (h _).mpr rfl, rfl, hlo, hhi⟩⟩

theorem exists_mem_withoutRule (hx : x.Expands occurs)
    (hsel : (CalendarDb.single teamMembers row).selects tenantId f row = true) :
    (∃ a, a ∈ (CalendarDb.single teamMembers row.withoutRule).appointmentsInRange tenantId f x from' to') ↔
      from' ≤ row.endTime ∧ row.startTime ≤ to' := by
  replace hsel : (CalendarDb.single teamMembers row.withoutRule).selects tenantId f row.withoutRule = true := hsel
  have hcap : ∀ r ∈ (CalendarDb.single teamMembers row.withoutRule).selected tenantId f, r.BelowCap x from' to' := by
    rw [selected_single hsel]
    exact List.forall_mem_singleton.mpr fun set hset => nomatch hset
  simp only [mem_appointmentsInRange hx hcap, selected_single hsel, List.mem_singleton, exists_eq_left]
  constructor
  · rintro ⟨_, ⟨-, rfl, hlo, hhi⟩ | ⟨s, hs, -⟩⟩
    · exact ⟨hlo, hhi⟩
    · exact absurd hs.isSome Bool.false_ne_true
  · rintro ⟨hlo, hhi⟩
    exact ⟨_, .inl ⟨rfl, rfl, hlo, hhi⟩⟩

/-- A window that shows the appointment shows its one occurrence, and the other way round. -/
def Appointment.SameWindow (row : Appointment) (from' to' : ℤ) : Prop :=
  (row.startTime ≤ to' → from' ≤ row.endTime → from' ≤ wholeSecond row.startTime) ∧
    (from' ≤ wholeSecond row.startTime → wholeSecond row.startTime ≤ to' → row.startTime ≤ to')

theorem wholeSecond_le (t : ℤ) : wholeSecond t ≤ t :=
  Int.sub_le_self t (Int.emod_nonneg t (by decide))

/-- What is read in a window is what overlaps it, each instance once and by its start, if and only if no selected
series reaches into the window from before it.  A series of one occurrence is shown where the appointment would be if
and only if its start, in whole seconds, is on the same side of the window's ends.  Two windows that meet find what
the whole finds. -/
theorem appointmentsInRange_overlap (hx : x.Expands occurs) :
    (∀ (db : CalendarDb) tenantId f from' to', (∀ row ∈ db.selected tenantId f, row.BelowCap x from' to') →
      (Overlapping (db.Instance tenantId f occurs) from' to' (db.appointmentsInRange tenantId f x from' to') ↔
        ∀ row ∈ db.selected tenantId f, row.StartsInside occurs from' to')) ∧
    (∀ teamMembers row tenantId f from' to', row.OccursOnce occurs →
      (CalendarDb.single teamMembers row).selects tenantId f row = true →
      (((∃ a, a ∈ (CalendarDb.single teamMembers row).appointmentsInRange tenantId f x from' to') ↔
        ∃ a, a ∈ (CalendarDb.single teamMembers row.withoutRule).appointmentsInRange tenantId f x from' to') ↔
          row.SameWindow from' to')) ∧
    ∀ (db : CalendarDb) tenantId f t₁ t₂ t₃, t₁ ≤ t₂ → t₂ ≤ t₃ →
      (∀ row ∈ db.selected tenantId f, row.BelowCap x t₁ t₃ ∧ row.BelowCap x t₁ t₂ ∧ row.BelowCap x t₂ t₃) →
      ∀ a, a ∈ db.appointmentsInRange tenantId f x t₁ t₃ ↔
        a ∈ db.appointmentsInRange tenantId f x t₁ t₂ ∨ a ∈ db.appointmentsInRange tenantId f x t₂ t₃ := by
  refine ⟨fun db tenantId f from' to' hcap => overlapping_iff hx hcap, ?_, fun db tenantId f t₁ t₂ t₃ h₁₂ h₂₃ hcap a =>
    mem_split hx h₁₂ h₂₃ hcap⟩
  intro teamMembers row tenantId f from' to' honce hsel
  rw [exists_mem_occursOnce hx honce hsel, exists_mem_withoutRule hx hsel]
  have hstart := wholeSecond_le row.startTime
  have hrange := row.rangeOk
  constructor
  · intro h
    exact ⟨fun hhi hlo => (h.mpr ⟨hlo, hhi⟩).1, fun hlo hhi => (h.mp ⟨hlo, hhi⟩).2⟩
  · rintro ⟨hin, hout⟩
    constructor
    · rintro ⟨hlo, hhi⟩
      exact ⟨by omega, hout hlo hhi⟩
    · rintro ⟨hlo, hhi⟩
      exact ⟨hin hhi hlo, hstart.trans hhi⟩

/-! ### An hour that has begun -/

def anyone : RangeFilter := { assignedToId := none, teamId := none, myTeamsCaller := none }

theorem anyone_selects : (CalendarDb.single [] hourOnce).selects 1 anyone hourOnce = true := rfl

/-- At half past, the hour is not shown any more. -/
theorem running_occurrence_missing : onceExpander.Expands Eq ∧
    (∀ row ∈ (CalendarDb.single [] hourOnce).selected 1 anyone,
      row.BelowCap onceExpander (1800 * second) (7200 * second)) ∧
    ¬Overlapping ((CalendarDb.single [] hourOnce).Instance (x := onceExpander) 1 anyone Eq) (1800 * second)
      (7200 * second)
      ((CalendarDb.single [] hourOnce).appointmentsInRange 1 anyone onceExpander (1800 * second) (7200 * second)) := by
  have hcap : ∀ row ∈ (CalendarDb.single [] hourOnce).selected 1 anyone,
      row.BelowCap onceExpander (1800 * second) (7200 * second) := by
    rw [selected_single anyone_selects]
    exact List.forall_mem_singleton.mpr (hourOnce_occursOnce.belowCap onceExpander_expands _ _)
  refine ⟨onceExpander_expands, hcap, fun h => ?_⟩
  have hstart := (overlapping_iff onceExpander_expands hcap).mp h hourOnce
    (by rw [selected_single anyone_selects]; exact List.mem_singleton_self _) 0 ((hourOnce_occursOnce 0).mpr rfl)
    (by decide) (by decide)
  exact absurd hstart (by decide)

theorem appointmentsInRange_overlap_hourOnce :
    onceExpander.Expands Eq ∧
      ((∃ a, a ∈ (CalendarDb.single [] hourOnce).appointmentsInRange 1 anyone onceExpander 0 second) ↔
        ∃ a, a ∈ (CalendarDb.single [] hourOnce.withoutRule).appointmentsInRange 1 anyone onceExpander 0 second) :=
  ⟨onceExpander_expands, ((appointmentsInRange_overlap onceExpander_expands).2.1 [] hourOnce 1 anyone 0 second
    hourOnce_occursOnce anyone_selects).mpr ⟨fun _ _ => by decide, fun _ _ => by decide⟩⟩

end Mokosh.Calendar
