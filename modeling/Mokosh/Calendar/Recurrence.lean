import Mathlib.Data.List.Nodup
import Mokosh.Types
import Mokosh.Utils.Text

/-! # Recurring appointments

`calendar/service.rs`: a master with a `recurrence_rule` is not shown itself.  `expand_recurrence` anchors the rule
on the master's start and asks the `rrule` crate for the occurrences in a window.

* The crate is a parameter (`Expander`).  What is relied on is `Expander.Expands`: it returns starts of the series, in
  order, and every one between the bounds, unless there are as many as the cap.
* Instants are counted in microseconds, as the database stores them.  `DTSTART` has whole seconds.

`mem_expandRecurrence` says which instances a window gets. -/

namespace Mokosh.Calendar

/-- `MAX_OCCURRENCES_PER_SERIES`. -/
def maxOccurrencesPerSeries : ℕ := 1000

def second : ℤ := 1000000

/-- A row of `appointments`, or an instance of one. -/
structure Appointment where
  id : Uuid
  tenantId : Uuid
  assignedToId : Uuid
  teamId : Option Uuid
  startTime : ℤ
  endTime : ℤ
  recurrenceRule : Option (List Char)
  recurrenceParentId : Option Uuid
  /-- `appointment_range_ok`. -/
  rangeOk : startTime < endTime
deriving DecidableEq

/-! ### Reading a rule -/

/-- `str::to_uppercase`, as far as the result can begin with `DTSTART`. -/
def toUppercase (s : List Char) : List Char := s.flatMap fun c =>
  match c.toNat with
  | 0x17F => ['S']
  | 0xFB05 | 0xFB06 => ['S', 'T']
  | 0x1E97 => ['T', Char.ofNat 0x308]
  | _ => [c.toUpper]

def isDtstart (line : List Char) : Bool := ['D', 'T', 'S', 'T', 'A', 'R', 'T'].isPrefixOf (toUppercase line)

/-- The rule in a stored value: its first line that is not empty and no `DTSTART`, without `RRULE:`. -/
def ruleBody (raw : List Char) : List Char :=
  match ((raw.splitOn '\n').map Text.trim).find? fun l => !isDtstart l && !l.isEmpty with
  | some l => (l.dropPrefix? ['R', 'R', 'U', 'L', 'E', ':'] <|> l.dropPrefix? ['r', 'r', 'u', 'l', 'e', ':']).getD l
  | none => raw

/-- The crate `rrule`. -/
structure Expander where
  RuleSet : Type
  /-- What `DTSTART` and the body of an `RRULE` parse to. -/
  parse : ℤ → List Char → Option RuleSet
  /-- `after`, `before` and `all`: the starts between two bounds, up to a number of them. -/
  all : RuleSet → ℤ → ℤ → ℕ → List ℤ

variable (x : Expander)

/-- `occurs` are the starts of a series, and the crate finds them. -/
structure Expander.Expands (occurs : x.RuleSet → ℤ → Prop) : Prop where
  increasing : ∀ set after before limit, (x.all set after before limit).Pairwise (· < ·)
  sound : ∀ {set after before limit s}, s ∈ x.all set after before limit → occurs set s
  complete : ∀ {set after before limit s}, (x.all set after before limit).length < limit → occurs set s →
    after < s → s < before → s ∈ x.all set after before limit

/-- The format of `DTSTART`. -/
def wholeSecond (t : ℤ) : ℤ := t - t % second

def parseRecurrenceRule (raw : List Char) (start : ℤ) : Option x.RuleSet :=
  x.parse (wholeSecond start) (ruleBody raw)

/-! ### Expansion -/

namespace Appointment

variable (base : Appointment)

def duration : ℤ := base.endTime - base.startTime

theorem duration_pos : 0 < base.duration := Int.sub_pos.mpr base.rangeOk

theorem lt_add_duration (s : ℤ) : s < s + base.duration := Int.lt_add_of_pos_right s base.duration_pos

/-- The instance of a series that starts at `s`. -/
def occurrence (s : ℤ) : Appointment :=
  { base with
    startTime := s
    endTime := s + base.duration
    recurrenceParentId := some base.id
    recurrenceRule := none
    rangeOk := base.lt_add_duration s }

/-- The rule set of a master, if it has a rule that parses. -/
def ruleSet : Option x.RuleSet := base.recurrenceRule.bind fun raw => parseRecurrenceRule x raw base.startTime

variable {x} in
/-- The series has an occurrence at `s`. -/
def Occurs (occurs : x.RuleSet → ℤ → Prop) (s : ℤ) : Prop := ∃ set ∈ base.ruleSet x, occurs set s

/-- In the window, widened by a second, the series has fewer occurrences than the cap. -/
def BelowCap (from' to' : ℤ) : Prop := ∀ set ∈ base.ruleSet x,
  (x.all set (from' - second) (to' + second) maxOccurrencesPerSeries).length < maxOccurrencesPerSeries

end Appointment

def expandRecurrence (base : Appointment) (from' to' : ℤ) : List Appointment :=
  match base.recurrenceRule with
  | none => []
  | some raw =>
    match parseRecurrenceRule x raw base.startTime with
    | none => []
    | some set =>
      let dates := x.all set (from' - second) (to' + second) maxOccurrencesPerSeries
      (dates.filter fun s => from' ≤ s ∧ s ≤ to').map base.occurrence

variable {x} {base : Appointment} {occurs : x.RuleSet → ℤ → Prop} {from' to' : ℤ}

theorem Appointment.Occurs.isSome {s : ℤ} (h : base.Occurs occurs s) : base.recurrenceRule.isSome = true := by
  obtain ⟨set, hset, -⟩ := h
  obtain ⟨raw, hraw, -⟩ := Option.bind_eq_some_iff.mp hset
  rw [hraw]
  rfl

theorem expandRecurrence_eq (base : Appointment) (from' to' : ℤ) :
    expandRecurrence x base from' to' = (base.ruleSet x).elim [] fun set =>
      ((x.all set (from' - second) (to' + second) maxOccurrencesPerSeries).filter fun s =>
        from' ≤ s ∧ s ≤ to').map base.occurrence := by
  unfold expandRecurrence Appointment.ruleSet
  cases base.recurrenceRule with
  | none => rfl
  | some raw =>
      dsimp only [Option.bind_some]
      cases parseRecurrenceRule x raw base.startTime <;> rfl

/-- A window gets the instances that start in it. -/
theorem mem_expandRecurrence (hx : x.Expands occurs) (hcap : base.BelowCap x from' to') {a : Appointment} :
    a ∈ expandRecurrence x base from' to' ↔
      ∃ s, base.Occurs occurs s ∧ from' ≤ s ∧ s ≤ to' ∧ a = base.occurrence s := by
  rw [expandRecurrence_eq]
  unfold Appointment.Occurs
  cases hset : base.ruleSet x with
  | none => simp
  | some set =>
      simp only [Option.elim_some, List.mem_map, List.mem_filter, decide_eq_true_eq, Option.mem_def,
        Option.some.injEq, exists_eq_left']
      constructor
      · rintro ⟨s, ⟨hs, hlo, hhi⟩, rfl⟩
        exact ⟨s, hx.sound hs, hlo, hhi, rfl⟩
      · rintro ⟨s, hs, hlo, hhi, rfl⟩
        have hsecond : (0 : ℤ) < second := by decide
        refine ⟨s, ⟨hx.complete (hcap set hset) hs ?_ ?_, hlo, hhi⟩, rfl⟩
        · omega
        · omega

theorem occurrence_injective (base : Appointment) : Function.Injective base.occurrence :=
  fun _ _ h => congrArg Appointment.startTime h

theorem nodup_expandRecurrence (hx : x.Expands occurs) (base : Appointment) (from' to' : ℤ) :
    (expandRecurrence x base from' to').Nodup := by
  rw [expandRecurrence_eq]
  cases base.ruleSet x with
  | none => exact List.nodup_nil
  | some set =>
      have hdates := (hx.increasing set (from' - second) (to' + second) maxOccurrencesPerSeries).imp ne_of_lt
      exact (List.Nodup.filter _ hdates).map (occurrence_injective base)

/-! ### One occurrence -/

/-- The series has one occurrence, where its master starts (`COUNT=1`). -/
def Appointment.OccursOnce (occurs : x.RuleSet → ℤ → Prop) (base : Appointment) : Prop :=
  ∀ s, base.Occurs occurs s ↔ s = wholeSecond base.startTime

theorem Appointment.OccursOnce.belowCap (hx : x.Expands occurs) (h : base.OccursOnce occurs) (from' to' : ℤ) :
    base.BelowCap x from' to' := by
  intro set hset
  have heq : ∀ s ∈ x.all set (from' - second) (to' + second) maxOccurrencesPerSeries, s = wholeSecond base.startTime :=
    fun s hs => (h s).mp ⟨set, hset, hx.sound hs⟩
  have hnodup := (hx.increasing set (from' - second) (to' + second) maxOccurrencesPerSeries).imp ne_of_lt
  have hle := (List.eq_replicate_of_mem heq ▸ hnodup : (List.replicate _ _).Nodup)
  rw [List.nodup_replicate] at hle
  exact lt_of_le_of_lt hle (by decide)

/-- Series of one occurrence, and no others. -/
def onceExpander : Expander where
  RuleSet := ℤ
  parse dtstart body := if body = "FREQ=DAILY;COUNT=1".toList then some dtstart else none
  all set after before limit := if after < set ∧ set < before then [set].take limit else []

theorem onceExpander_expands : onceExpander.Expands Eq where
  increasing set after before limit := by
    dsimp only [onceExpander]
    split
    · exact List.Pairwise.take (List.pairwise_singleton _ _)
    · exact List.Pairwise.nil
  sound h := by
    dsimp only [onceExpander] at h
    split at h
    · exact (List.mem_singleton.mp (List.mem_of_mem_take h)).symm
    · exact absurd h List.not_mem_nil
  complete {set after before limit s} hlen hs hlo hhi := by
    subst hs
    dsimp only [onceExpander] at hlen ⊢
    rw [if_pos ⟨hlo, hhi⟩] at hlen ⊢
    cases limit with
    | zero => exact absurd hlen (Nat.not_lt_zero _)
    | succ n => exact List.mem_cons_self

/-- From 0:00 to 1:00, as a series of one occurrence. -/
def hourOnce : Appointment where
  id := 1
  tenantId := 1
  assignedToId := 1
  teamId := none
  startTime := 0
  endTime := 3600 * second
  recurrenceRule := some "FREQ=DAILY;COUNT=1".toList
  recurrenceParentId := none
  rangeOk := by decide

theorem hourOnce_occursOnce : hourOnce.OccursOnce (x := onceExpander) Eq := by
  intro s
  constructor
  · rintro ⟨set, hset, rfl⟩
    exact (Option.some.inj (show some (0 : ℤ) = some set from hset)).symm
  · rintro rfl
    exact ⟨(0 : ℤ), rfl, rfl⟩

end Mokosh.Calendar
