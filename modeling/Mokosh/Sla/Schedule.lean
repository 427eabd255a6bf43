import Mathlib.Data.Finset.Insert
import Mathlib.Data.List.Sort
import Mathlib.Data.List.Flatten
import Mokosh.Utils.Text
import Mokosh.Workflows.Executor

/-! # The business schedule: its writer and its reader

A schedule is JSON, keyed by weekday, and it is read by two parsers that share no code but the readers of a key and of a
time.  `validate_business_schedule` (`sla/models.rs`) refuses what it does not understand, `BusinessSchedule::parse`
(`sla/clock.rs`) skips it.  The same holds of a list of holidays (`validate_holiday_list`, `parse_holidays`).

* What the writer accepts the reader reads in full: the windows of a weekday are the windows that are listed under the
  keys that name it, and the holidays are the dates that are listed (`windows_parse_perm`, `readsHolidays_parse`).
* The windows of one key are sorted.  A weekday has several names, though, and what a second key lists goes after what
  the first one lists: the windows of the weekday are sorted by their start if and only if none that is listed under
  an earlier key starts after one that is listed under a later one (**`schedule_read_iff`**). -/

namespace Mokosh.Sla

open Workflows (Json)

inductive Weekday where
  | sun
  | mon
  | tue
  | wed
  | thu
  | fri
  | sat
deriving DecidableEq, Repr

/-- A time of the day, in seconds. -/
abbrev NaiveTime := Fin 86400

/-- The readers of the server's libraries: `chrono` for a time and a date with a format, `chrono-tz` for the name of a
time zone, and `fmt::Debug` of a text. -/
structure Readers (τ ζ : Type) where
  parseTime : String → String → Option τ
  parseDate : String → String → Option NaiveDate
  parseTz : String → Option ζ
  utc : ζ
  debug : String → String

/-- A window within a day.  One that has no length is not built. -/
structure Window (τ : Type) [LT τ] where
  start : τ
  finish : τ
  start_lt : start < finish

/-- A schedule of the week.  A weekday without a window is closed. -/
structure BusinessSchedule (τ ζ : Type) [LT τ] where
  tz : ζ
  windows : Weekday → List (Window τ)

def parseWeekdayKey (key : String) : Option Weekday :=
  match String.ofList (Text.trim key.toList) with
  | "0" | "sun" | "sunday" => some .sun
  | "1" | "mon" | "monday" => some .mon
  | "2" | "tue" | "tuesday" => some .tue
  | "3" | "wed" | "wednesday" => some .wed
  | "4" | "thu" | "thursday" => some .thu
  | "5" | "fri" | "friday" => some .fri
  | "6" | "sat" | "saturday" => some .sat
  | _ => none

/-- `value.get(key)`, if it is a text. -/
def getText (value : Json) (key : String) : Option String := value.asObject.bind fun fields => Json.getStr fields key

/-- The text that an entry of a list of holidays gives as its date. -/
def holidayText : Json → Option String
  | .string s => some s
  | .object fields => Json.getStr fields "date"
  | _ => none

/-- `ValidationError`, with its message. -/
structure ValidationError where
  code : String
  message : String
deriving DecidableEq, Repr

section Parsers

variable {τ ζ : Type} [LinearOrder τ] (rd : Readers τ ζ)

/-! ### The reader -/

/-- `parse_hhmm`. -/
def Readers.parseHhmm (s : String) : Option τ := (rd.parseTime s "%H:%M").or (rd.parseTime s "%H:%M:%S")

def parseWindow (value : Json) : Option (Window τ) :=
  ((getText value "start").bind rd.parseHhmm).bind fun start =>
    ((getText value "end").bind rd.parseHhmm).bind fun finish =>
      if h : start < finish then some ⟨start, finish, h⟩ else none

def parseWindows : Json → List (Window τ)
  | .array items => items.filterMap (parseWindow rd)
  | .object fields => (parseWindow rd (.object fields)).toList
  | _ => []

/-- `sort_by_key(|w| w.start)`. -/
def sortByStart (ws : List (Window τ)) : List (Window τ) := ws.insertionSort fun w w' => w.start ≤ w'.start

/-- The body of the loop over the keys. -/
def extendWeekday (byWeekday : Weekday → List (Window τ)) (entry : String × Json) : Weekday → List (Window τ) :=
  match parseWeekdayKey entry.1 with
  | none => byWeekday
  | some weekday => fun d =>
      if d = weekday then byWeekday d ++ sortByStart (parseWindows rd entry.2) else byWeekday d

/-- `BusinessSchedule::parse`. -/
def BusinessSchedule.parse (timezone : String) (schedule : Json) : BusinessSchedule τ ζ where
  tz := (rd.parseTz timezone).getD rd.utc
  windows := (schedule.asObject.getD []).foldl (extendWeekday rd) fun _ => []

def holidayDate (item : Json) : Option NaiveDate := (holidayText item).bind fun s => rd.parseDate s "%Y-%m-%d"

def parseHolidays (holidays : Json) : Finset NaiveDate :=
  ((holidays.asArray.getD []).filterMap (holidayDate rd)).toFinset

/-! ### The writer -/

def invalidSchedule (message : String) : Except ValidationError Unit := .error ⟨"invalid_schedule", message⟩

def invalidHolidays (message : String) : Except ValidationError Unit := .error ⟨"invalid_holidays", message⟩

def validateScheduleWindow (day : String) (window : Json) : Except ValidationError Unit :=
  match window.asObject with
  | none => invalidSchedule ("schedule window for " ++ rd.debug day ++ " must be a \x7bstart, end\x7d object")
  | some obj =>
      match Json.getStr obj "start", Json.getStr obj "end" with
      | some start, some finish =>
          match rd.parseHhmm start, rd.parseHhmm finish with
          | some start, some finish =>
              if finish ≤ start then
                invalidSchedule ("schedule window for " ++ rd.debug day ++ " must have end after start")
              else .ok ()
          | _, _ =>
              invalidSchedule ("schedule window for " ++ rd.debug day ++
                " has an unparseable time; use HH:MM (e.g. 09:00)")
      | _, _ =>
          invalidSchedule ("schedule window for " ++ rd.debug day ++
            " needs string \"start\" and \"end\" times")

def validateScheduleDay (day : String) : Json → Except ValidationError Unit
  | .null => .ok ()
  | .object fields => validateScheduleWindow rd day (.object fields)
  | .array items => forM items (validateScheduleWindow rd day)
  | _ => invalidSchedule ("schedule for " ++ rd.debug day ++
      " must be null, a \x7bstart, end\x7d window, or an array of windows")

def validateBusinessSchedule : Json → Except ValidationError Unit
  | .null => .ok ()
  | .object map => forM map fun entry =>
      if (parseWeekdayKey entry.1).isNone then
        invalidSchedule ("unknown weekday key " ++ rd.debug entry.1 ++
          "; use \"0\"-\"6\" (0=Sunday) or \"mon\"-\"sun\"")
      else validateScheduleDay rd entry.1 entry.2
  | _ => invalidSchedule ("schedule must be a JSON object keyed by weekday, " ++
      "e.g. \x7b\"mon\": [\x7b\"start\": \"09:00\", \"end\": \"17:00\"\x7d]\x7d")

def validateHolidayList : Json → Except ValidationError Unit
  | .null => .ok ()
  | .array items => forM items fun item =>
      match holidayText item with
      | none => invalidHolidays "each holiday must be a \"YYYY-MM-DD\" string or an object with a string \"date\""
      | some s =>
          match rd.parseDate s "%Y-%m-%d" with
          | none => invalidHolidays ("holiday date " ++ rd.debug s ++ " is not a valid YYYY-MM-DD date")
          | some _ => .ok ()
  | _ => invalidHolidays "holidays must be a JSON array of \"YYYY-MM-DD\" strings or \x7bdate, name\x7d objects"

/-! ### What a value lists -/

/-- The value is an object that gives the window's start and end, in whichever form. -/
def Says (value : Json) (w : Window τ) : Prop :=
  ∃ s e, getText value "start" = some s ∧ getText value "end" = some e ∧ rd.parseHhmm s = some w.start ∧
    rd.parseHhmm e = some w.finish

/-- What a weekday's value lists.  Nothing in it is left out. -/
inductive Lists : Json → List (Window τ) → Prop
  | closed : Lists .null []
  | single {fields : List (String × Json)} {w : Window τ} (h : Says rd (.object fields) w) : Lists (.object fields) [w]
  | many {items : List Json} {ws : List (Window τ)} (h : List.Forall₂ (Says rd) items ws) : Lists (.array items) ws

/-- The entries of a schedule whose key names the weekday. -/
def naming (schedule : Json) (weekday : Weekday) : List (String × Json) :=
  (schedule.asObject.getD []).filter fun entry => parseWeekdayKey entry.1 = some weekday

/-- The schedule that is read has for each weekday the windows that are listed under the keys that name it, sorted by
their start. -/
def ReadsSchedule (json : Json) (schedule : BusinessSchedule τ ζ) : Prop :=
  ∀ weekday, ∃ listed, List.Forall₂ (fun entry ws => Lists rd entry.2 ws) (naming json weekday) listed ∧
    (schedule.windows weekday).Perm listed.flatten ∧
      (schedule.windows weekday).Pairwise fun w w' => w.start ≤ w'.start

/-- The holidays that are read are the dates that are listed. -/
def ReadsHolidays (json : Json) (holidays : Finset NaiveDate) : Prop :=
  ∃ dates, List.Forall₂ (fun item date => ∃ s, holidayText item = some s ∧ rd.parseDate s "%Y-%m-%d" = some date)
    (json.asArray.getD []) dates ∧ holidays = dates.toFinset

/-- No window that is listed under an earlier key of a weekday starts after one under a later key. -/
def KeysInOrder (json : Json) : Prop :=
  ∀ weekday, (naming json weekday).Pairwise fun entry entry' => ∀ ws ws', Lists rd entry.2 ws → Lists rd entry'.2 ws' →
    ∀ w ∈ ws, ∀ w' ∈ ws', w.start ≤ w'.start

variable {rd}

/-! ### What is accepted is read in full -/

omit [LinearOrder τ] in
theorem forM_eq_ok {α ε : Type} {l : List α} {f : α → Except ε Unit} : forM l f = .ok () ↔ ∀ x ∈ l, f x = .ok () := by
  induction l with
  | nil => exact iff_of_true rfl fun x h => absurd h List.not_mem_nil
  | cons x l ih =>
      rw [List.forM_cons, List.forall_mem_cons, ← ih]
      cases f x with
      | error e => exact iff_of_false (fun h => by cases h) fun h => by cases h.1
      | ok u => exact (and_iff_right rfl).symm

theorem parseWindow_eq_some_iff {value : Json} {w : Window τ} : parseWindow rd value = some w ↔ Says rd value w := by
  unfold parseWindow Says
  rw [Option.bind_eq_some_iff]
  constructor
  · rintro ⟨start, hstart, h⟩
    obtain ⟨finish, hfinish, h⟩ := Option.bind_eq_some_iff.mp h
    obtain ⟨s, hs, hps⟩ := Option.bind_eq_some_iff.mp hstart
    obtain ⟨e, he, hpe⟩ := Option.bind_eq_some_iff.mp hfinish
    split at h
    · cases h
      exact ⟨s, e, hs, he, hps, hpe⟩
    · cases h
  · rintro ⟨s, e, hs, he, hps, hpe⟩
    refine ⟨w.start, Option.bind_eq_some_iff.mpr ⟨s, hs, hps⟩, ?_⟩
    rw [Option.bind_eq_some_iff]
    exact ⟨w.finish, Option.bind_eq_some_iff.mpr ⟨e, he, hpe⟩, dif_pos w.start_lt⟩

theorem says_of_validate {day : String} {value : Json} (h : validateScheduleWindow rd day value = .ok ()) :
    ∃ w, Says rd value w := by
  unfold validateScheduleWindow at h
  split at h
  · cases h
  · next obj hobj =>
    split at h
    · next s e hs he =>
      split at h
      · next start finish hps hpe =>
        split at h
        · cases h
        · next hlt =>
          have hs' : getText value "start" = some s := by rw [getText, hobj, Option.bind_some, hs]
          have he' : getText value "end" = some e := by rw [getText, hobj, Option.bind_some, he]
          exact ⟨⟨start, finish, not_le.mp hlt⟩, s, e, hs', he', hps, hpe⟩
      · cases h
    · cases h

theorem Lists.parseWindows_eq {value : Json} {ws : List (Window τ)} (h : Lists rd value ws) :
    parseWindows rd value = ws := by
  cases h with
  | closed => rfl
  | @single fields w h =>
      show (parseWindow rd (.object fields)).toList = [w]
      rw [parseWindow_eq_some_iff.mpr h, Option.toList_some]
  | @many items ws h =>
      show items.filterMap (parseWindow rd) = ws
      induction h with
      | nil => rfl
      | cons hw _ ih => rw [List.filterMap_cons_some (parseWindow_eq_some_iff.mpr hw), ih]

theorem lists_of_validate {day : String} {value : Json} (h : validateScheduleDay rd day value = .ok ()) :
    Lists rd value (parseWindows rd value) := by
  have hlists : ∃ ws, Lists rd value ws := by
    cases value with
    | null => exact ⟨[], .closed⟩
    | bool b => cases h
    | number t => cases h
    | string t => cases h
    | object fields =>
        have hwindow : validateScheduleWindow rd day (.object fields) = .ok () := h
        obtain ⟨w, hw⟩ := says_of_validate hwindow
        exact ⟨[w], .single hw⟩
    | array items =>
        have hall := forM_eq_ok.mp h
        suffices hws : ∃ ws, List.Forall₂ (Says rd) items ws by
          obtain ⟨ws, hws⟩ := hws
          exact ⟨ws, .many hws⟩
        clear h
        induction items with
        | nil => exact ⟨[], .nil⟩
        | cons item items ih =>
            rw [List.forall_mem_cons] at hall
            obtain ⟨w, hw⟩ := says_of_validate hall.1
            obtain ⟨ws, hws⟩ := ih hall.2
            exact ⟨w :: ws, .cons hw hws⟩
  obtain ⟨ws, hws⟩ := hlists
  rwa [hws.parseWindows_eq]

theorem lists_of_accepted {schedule : Json} (h : validateBusinessSchedule rd schedule = .ok ()) {entry : String × Json}
    (he : entry ∈ schedule.asObject.getD []) : Lists rd entry.2 (parseWindows rd entry.2) := by
  cases schedule with
  | null => exact absurd he List.not_mem_nil
  | bool b => cases h
  | number t => cases h
  | string t => cases h
  | array items => cases h
  | object map =>
      have hentry := forM_eq_ok.mp h entry he
      split at hentry
      · cases hentry
      · exact lists_of_validate hentry

/-- The loop over the keys keeps what a weekday has, and adds what the key lists to the weekday it names. -/
theorem foldl_extendWeekday (entries : List (String × Json)) (byWeekday : Weekday → List (Window τ))
    (weekday : Weekday) :
    entries.foldl (extendWeekday rd) byWeekday weekday = byWeekday weekday ++
      (entries.filter fun entry => parseWeekdayKey entry.1 = some weekday).flatMap
        fun entry => sortByStart (parseWindows rd entry.2) := by
  induction entries generalizing byWeekday with
  | nil => rw [List.foldl_nil, List.filter_nil, List.flatMap_nil, List.append_nil]
  | cons entry entries ih =>
      rw [List.foldl_cons, ih]
      unfold extendWeekday
      cases hkey : parseWeekdayKey entry.1 with
      | none =>
          rw [List.filter_cons_of_neg]
          rw [hkey, decide_eq_true_eq]
          exact Option.some_ne_none weekday ∘ Eq.symm
      | some d =>
          dsimp only
          split
          · next hd =>
            rw [List.filter_cons_of_pos, List.flatMap_cons, List.append_assoc]
            rw [hkey, hd, decide_eq_true_eq]
          · next hd =>
            rw [List.filter_cons_of_neg]
            rw [hkey, decide_eq_true_eq, Option.some.injEq]
            exact hd ∘ Eq.symm

theorem windows_parse (timezone : String) (schedule : Json) (weekday : Weekday) :
    (BusinessSchedule.parse rd timezone schedule).windows weekday =
      (naming schedule weekday).flatMap fun entry => sortByStart (parseWindows rd entry.2) :=
  foldl_extendWeekday _ _ weekday

theorem sortByStart_perm (ws : List (Window τ)) : (sortByStart ws).Perm ws := List.perm_insertionSort _ ws

theorem sorted_sortByStart (ws : List (Window τ)) : (sortByStart ws).Pairwise fun w w' => w.start ≤ w'.start :=
  List.pairwise_insertionSort _ ws

theorem windows_parse_perm (timezone : String) (schedule : Json) (weekday : Weekday) :
    ((BusinessSchedule.parse rd timezone schedule).windows weekday).Perm
      ((naming schedule weekday).map fun entry => parseWindows rd entry.2).flatten := by
  rw [windows_parse, ← List.flatMap_def]
  exact List.Perm.flatMap_left _ fun entry _ => sortByStart_perm _

omit [LinearOrder τ] in
theorem readsHolidays_parse {holidays : Json} (h : validateHolidayList rd holidays = .ok ()) :
    ReadsHolidays rd holidays (parseHolidays rd holidays) := by
  unfold ReadsHolidays parseHolidays
  cases holidays with
  | null => exact ⟨[], .nil, rfl⟩
  | bool b => cases h
  | number t => cases h
  | string t => cases h
  | object fields => cases h
  | array items =>
      have hall := forM_eq_ok.mp h
      clear h
      induction items with
      | nil => exact ⟨[], .nil, rfl⟩
      | cons item items ih =>
          rw [List.forall_mem_cons] at hall
          obtain ⟨dates, hdates, hset⟩ := ih hall.2
          have hitem := hall.1
          split at hitem
          · cases hitem
          · next s hs =>
            split at hitem
            · cases hitem
            · next date hdate =>
              have hread : holidayDate rd item = some date := by rw [holidayDate, hs, Option.bind_some, hdate]
              refine ⟨date :: dates, .cons ⟨s, hs, hdate⟩ hdates, ?_⟩
              rw [List.toFinset_cons, ← hset, ← List.toFinset_cons, ← List.filterMap_cons_some hread]
              rfl

/-! ### The order of the windows -/

/-- The windows that are read are sorted if and only if the keys of each weekday list theirs in order. -/
theorem sorted_parse_iff {schedule : Json} (h : validateBusinessSchedule rd schedule = .ok ()) (timezone : String) :
    (∀ weekday, ((BusinessSchedule.parse rd timezone schedule).windows weekday).Pairwise
      fun w w' => w.start ≤ w'.start) ↔ KeysInOrder rd schedule := by
  refine forall_congr' fun weekday => ?_
  rw [windows_parse, List.pairwise_flatMap, and_iff_right fun entry _ => sorted_sortByStart _]
  refine List.Pairwise.iff_of_mem fun {entry entry'} he he' => ?_
  have hlists := lists_of_accepted h (List.mem_of_mem_filter he)
  have hlists' := lists_of_accepted h (List.mem_of_mem_filter he')
  simp only [(sortByStart_perm _).mem_iff]
  constructor
  · intro hle ws ws' hws hws'
    rw [← hws.parseWindows_eq, ← hws'.parseWindows_eq]
    exact hle
  · exact fun hle => hle _ _ hlists hlists'

/-- For an accepted schedule and an accepted list of holidays, what the clock reads is what is listed, sorted, if and
only if the keys of each weekday list their windows in order. -/
theorem schedule_read_iff {schedule holidays : Json} (hs : validateBusinessSchedule rd schedule = .ok ())
    (hh : validateHolidayList rd holidays = .ok ()) (timezone : String) :
    ReadsSchedule rd schedule (BusinessSchedule.parse rd timezone schedule) ∧
      ReadsHolidays rd holidays (parseHolidays rd holidays) ↔ KeysInOrder rd schedule := by
  rw [and_iff_left (readsHolidays_parse hh), ← sorted_parse_iff hs timezone]
  constructor
  · intro hreads weekday
    obtain ⟨_, _, _, hsorted⟩ := hreads weekday
    exact hsorted
  · intro hsorted weekday
    refine ⟨_, ?_, windows_parse_perm timezone schedule weekday, hsorted weekday⟩
    rw [List.forall₂_map_right_iff, List.forall₂_same]
    exact fun entry he => lists_of_accepted hs (List.mem_of_mem_filter he)

end Parsers

/-! ### Two keys for one weekday -/

/-- Readers of texts with two digits for every number, which know one time zone besides UTC. -/
def twoDigitReaders {ζ : Type} (zone : String) (tz utc : ζ) : Readers NaiveTime ζ where
  parseTime s format :=
    let number (d d' : Char) : ℕ := 10 * (d.toNat - 48) + (d'.toNat - 48)
    let time (h m s : ℕ) : Option NaiveTime :=
      if hv : h < 24 ∧ m < 60 ∧ s < 60 then some ⟨h * 3600 + m * 60 + s, by omega⟩ else none
    match s.toList, format with
    | [h, h', ':', m, m'], "%H:%M" => time (number h h') (number m m') 0
    | [h, h', ':', m, m', ':', s, s'], "%H:%M:%S" => time (number h h') (number m m') (number s s')
    | _, _ => none
  parseDate s _ := if s = "2026-12-25" then NaiveDate.fromYmdOpt 2026 12 25 else none
  parseTz name := if name = zone then some tz else if name = "UTC" then some utc else none
  utc := utc
  debug s := "\"" ++ s ++ "\""

def unitReaders : Readers NaiveTime Unit := twoDigitReaders "Etc/UTC" () ()

def windowJson (start finish : String) : Json := .object [("end", .string finish), ("start", .string start)]

/-- A split shift on Mondays, the afternoon first. -/
def splitShift : Json := .object [("1", .array [windowJson "13:00" "17:00", windowJson "09:00" "12:00"]), ("6", .null)]

theorem schedule_read_splitShift :
    ReadsSchedule unitReaders splitShift (BusinessSchedule.parse unitReaders "UTC" splitShift) ∧
      ReadsHolidays unitReaders (.array [.string "2026-12-25"])
        (parseHolidays unitReaders (.array [.string "2026-12-25"])) := by
  refine (schedule_read_iff (by rfl) (by rfl) "UTC").mpr fun weekday => ?_
  have hone : (naming splitShift weekday).length ≤ 1 := by cases weekday <;> decide
  generalize naming splitShift weekday = entries at hone
  match entries, hone with
  | [], _ => exact .nil
  | [entry], _ => exact List.pairwise_singleton _ entry

/-- The same shift under two keys. -/
def twoKeys : Json := .object [("1", windowJson "13:00" "17:00"), ("mon", windowJson "09:00" "12:00")]

/-- The morning comes after the afternoon. -/
theorem twoKeys_unsorted :
    validateBusinessSchedule unitReaders twoKeys = .ok () ∧ validateHolidayList unitReaders .null = .ok () ∧
      ¬ (ReadsSchedule unitReaders twoKeys (BusinessSchedule.parse unitReaders "UTC" twoKeys) ∧
        ReadsHolidays unitReaders .null (parseHolidays unitReaders .null)) := by
  refine ⟨by rfl, by rfl, ?_⟩
  rintro ⟨hreads, -⟩
  obtain ⟨_, _, _, hsorted⟩ := hreads .mon
  have hstarts :
      ((BusinessSchedule.parse unitReaders "UTC" twoKeys).windows .mon).map Window.start = [46800, 32400] := by rfl
  have hle := List.pairwise_map.mpr hsorted
  rw [hstarts, List.pairwise_pair] at hle
  exact absurd hle (by decide)

end Mokosh.Sla
