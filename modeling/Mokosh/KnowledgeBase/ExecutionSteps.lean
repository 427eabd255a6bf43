import Mathlib.Algebra.Group.Nat.Even
import Mathlib.Data.List.Infix
import Mokosh.Utils.Text

/-! # The steps of a runbook

`knowledge_base/execution_steps.rs`: the task-list lines of a Markdown text outside its fenced code blocks.

* `parseSteps` is the scanner.  It remembers the character of the fence it is in, and nothing else.
* `Fence` and `tasks` are the rule of GitHub's Markdown: a fence has a length too, and a line that is to close
  it has nothing after it.

**`steps_right_iff`**: the scanner goes by the rule, whatever is cut off the text and whatever step stands there
instead, if and only if no line of the text is a fence to it that is none by the rule (`Faultless`), and an
`i32` can count the steps. -/

namespace Mokosh.ExecutionSteps

abbrev Line := List Char

def backtick : Char := .ofNat 96

/-- `str::trim_start`. -/
def trimStart (line : Line) : Line := line.dropWhile Text.isWhiteSpace

/-- `str::split` at the line feeds. -/
def lines (text : List Char) : List Line := text.splitOn '\n'

/-! ### The scanner -/

structure ParsedStep where
  index : Int32
  initiallyChecked : Bool
  text : List Char
deriving DecidableEq

def fenceMarkerOf (trimmed : Line) : Option Char :=
  match trimmed with
  | [] => none
  | marker :: _ =>
    if marker ≠ backtick ∧ marker ≠ '~' then none
    else if 3 ≤ (trimmed.takeWhile (· = marker)).length then some marker
    else none

def stripOrderedMarker (trimmed : Line) : Option Line :=
  if trimmed.takeWhile Char.isDigit = [] then none
  else
    match trimmed.dropWhile Char.isDigit with
    | '.' :: ' ' :: rest => some rest
    | ')' :: ' ' :: rest => some rest
    | _ => none

/-- What is after the marker of a list. -/
def afterMarker (trimmed : Line) : Option Line :=
  match trimmed with
  | '-' :: ' ' :: rest => some rest
  | '*' :: ' ' :: rest => some rest
  | '+' :: ' ' :: rest => some rest
  | _ => stripOrderedMarker trimmed

def checkedOf (inside : Char) : Option Bool :=
  if inside = ' ' then some false
  else if inside = 'x' ∨ inside = 'X' then some true
  else none

/-- `after.strip_prefix(' ').unwrap_or(after)`. -/
def stripSpace (after : Line) : Line :=
  match after with
  | ' ' :: body => body
  | _ => after

def stripCheckbox (afterMarker : Line) : Option (Bool × Line) :=
  match afterMarker with
  | '[' :: inside :: ']' :: after => (checkedOf inside).map fun checked => (checked, stripSpace after)
  | _ => none

/-- A task without its place in the list. -/
structure Task where
  initiallyChecked : Bool
  text : List Char
deriving DecidableEq

def taskOf (trimmed : Line) : Option Task :=
  (afterMarker trimmed).bind fun rest =>
    (stripCheckbox rest).map fun (checked, body) => { initiallyChecked := checked, text := Text.trim body }

def Task.step (index : Int32) (t : Task) : ParsedStep :=
  { index := index, initiallyChecked := t.initiallyChecked, text := t.text }

def parseTaskLine (trimmed : Line) (index : Int32) : Option ParsedStep := (taskOf trimmed).map (·.step index)

/-- The variables of the loop. -/
structure Scan where
  out : List ParsedStep := []
  inFence : Bool := false
  fenceMarker : Option Char := none
  index : Int32 := 0

/-- The body of the loop. -/
def Scan.line (s : Scan) (line : Line) : Scan :=
  match fenceMarkerOf (trimStart line) with
  | some marker =>
    match s.fenceMarker with
    | some existing => if existing = marker then { s with inFence := false, fenceMarker := none } else s
    | none => { s with inFence := true, fenceMarker := some marker }
  | none =>
    if s.inFence then s
    else
      match parseTaskLine (trimStart line) s.index with
      | some step => { s with out := s.out ++ [step], index := s.index + 1 }
      | none => s

def parseLines (ls : List Line) : List ParsedStep := (ls.foldl Scan.line {}).out

/-- `parse_steps`. -/
def parseSteps (rendered : List Char) : List ParsedStep := parseLines (lines rendered)

/-! ### A task line -/

/-- A bullet, or a number with a full stop or a bracket. -/
inductive ListMarker : Line → Prop where
  | bullet {c : Char} (hc : c ∈ ['-', '*', '+']) : ListMarker [c]
  | ordered {ds : List Char} {d : Char} (hne : ds ≠ []) (hds : ∀ c ∈ ds, c.isDigit = true) (hd : d ∈ ['.', ')']) :
      ListMarker (ds ++ [d])

/-- The marker of a list, a space and a checkbox. -/
inductive TaskLine : Line → Task → Prop where
  | mk {marker : Line} {inside : Char} {checked : Bool} {body : Line} (hm : ListMarker marker)
      (hc : checkedOf inside = some checked) :
      TaskLine (marker ++ ' ' :: '[' :: inside :: ']' :: body) { initiallyChecked := checked, text := Text.trim body }

@[simp] theorem trim_stripSpace (after : Line) : Text.trim (stripSpace after) = Text.trim after := by
  unfold stripSpace
  split
  · next body =>
      unfold Text.trim
      rw [List.dropWhile_cons_of_pos (by decide)]
  · rfl

theorem stripCheckbox_eq_some_iff {rest body : Line} {checked : Bool} :
    stripCheckbox rest = some (checked, body) ↔
      ∃ inside after, rest = '[' :: inside :: ']' :: after ∧ checkedOf inside = some checked ∧
        stripSpace after = body := by
  constructor
  · intro h
    unfold stripCheckbox at h
    split at h
    · next inside after =>
        obtain ⟨c, hc, heq⟩ := Option.map_eq_some_iff.mp h
        cases heq
        exact ⟨inside, after, rfl, hc, rfl⟩
    · cases h
  · rintro ⟨inside, after, rfl, hc, rfl⟩
    simp only [stripCheckbox, hc, Option.map_some]

theorem stripOrderedMarker_eq_some_iff {trimmed rest : Line} :
    stripOrderedMarker trimmed = some rest ↔
      ∃ ds d, ds ≠ [] ∧ (∀ c ∈ ds, c.isDigit = true) ∧ d ∈ ['.', ')'] ∧ trimmed = ds ++ d :: ' ' :: rest := by
  constructor
  · intro h
    unfold stripOrderedMarker at h
    split at h
    · cases h
    · next hne =>
        have hds : ∀ c ∈ trimmed.takeWhile Char.isDigit, c.isDigit = true := fun c hc => List.mem_takeWhile_imp hc
        have hsplit := List.takeWhile_append_dropWhile (p := Char.isDigit) (l := trimmed)
        split at h
        · next rest' heq =>
            cases h
            exact ⟨_, '.', hne, hds, by decide, heq ▸ hsplit.symm⟩
        · next rest' heq =>
            cases h
            exact ⟨_, ')', hne, hds, by decide, heq ▸ hsplit.symm⟩
        · cases h
  · rintro ⟨ds, d, hne, hds, hd, rfl⟩
    have hd' : d.isDigit = false := by
      obtain rfl | rfl : d = '.' ∨ d = ')' := by simpa using hd
      all_goals rfl
    have htake : (ds ++ d :: ' ' :: rest).takeWhile Char.isDigit = ds := by
      rw [List.takeWhile_append_of_pos hds, List.takeWhile_cons_of_neg (by simp [hd']), List.append_nil]
    have hdrop : (ds ++ d :: ' ' :: rest).dropWhile Char.isDigit = d :: ' ' :: rest := by
      rw [List.dropWhile_append_of_pos hds, List.dropWhile_cons_of_neg (by simp [hd'])]
    unfold stripOrderedMarker
    rw [htake, hdrop, if_neg hne]
    obtain rfl | rfl : d = '.' ∨ d = ')' := by simpa using hd
    · rfl
    · rfl

theorem afterMarker_eq_some_iff {trimmed rest : Line} :
    afterMarker trimmed = some rest ↔ ∃ marker, ListMarker marker ∧ trimmed = marker ++ ' ' :: rest := by
  constructor
  · intro h
    unfold afterMarker at h
    split at h
    case h_4 =>
      obtain ⟨ds, d, hne, hds, hd, rfl⟩ := stripOrderedMarker_eq_some_iff.mp h
      exact ⟨ds ++ [d], .ordered hne hds hd, by simp⟩
    all_goals
      cases h
      exact ⟨[_], .bullet (by decide), rfl⟩
  · rintro ⟨marker, hm, rfl⟩
    cases hm with
    | @bullet c hc =>
        obtain rfl | rfl | rfl : c = '-' ∨ c = '*' ∨ c = '+' := by simpa using hc
        all_goals rfl
    | @ordered ds d hne hds hd =>
        obtain ⟨c, ds', rfl⟩ := List.exists_cons_of_ne_nil hne
        have hc := hds c List.mem_cons_self
        have hordered : stripOrderedMarker (c :: ds' ++ [d] ++ ' ' :: rest) = some rest :=
          stripOrderedMarker_eq_some_iff.mpr ⟨c :: ds', d, hne, hds, hd, by simp⟩
        unfold afterMarker
        split
        case h_4 => exact hordered
        all_goals
          next heq =>
            cases (List.cons.inj heq).1
            cases hc

/-- A task is what a task line says. -/
theorem taskOf_eq_some_iff {trimmed : Line} {t : Task} : taskOf trimmed = some t ↔ TaskLine trimmed t := by
  constructor
  · intro h
    obtain ⟨rest, hrest, h⟩ := Option.bind_eq_some_iff.mp h
    obtain ⟨⟨checked, body⟩, hbox, rfl⟩ := Option.map_eq_some_iff.mp h
    obtain ⟨marker, hm, rfl⟩ := afterMarker_eq_some_iff.mp hrest
    obtain ⟨inside, after, rfl, hc, rfl⟩ := stripCheckbox_eq_some_iff.mp hbox
    dsimp only
    rw [trim_stripSpace]
    exact .mk hm hc
  · rintro ⟨hm, hc⟩
    unfold taskOf
    rw [afterMarker_eq_some_iff.mpr ⟨_, hm, rfl⟩, Option.bind_some,
      stripCheckbox_eq_some_iff.mpr ⟨_, _, rfl, hc, rfl⟩, Option.map_some]
    simp

/-! ### The rule -/

/-- How many of a character a line starts with. -/
def run (c : Char) (trimmed : Line) : ℕ := (trimmed.takeWhile (· = c)).length

/-- What follows them. -/
def info (c : Char) (trimmed : Line) : Line := trimmed.dropWhile (· = c)

/-- The fence that opened the code block the scan is in. -/
@[ext]
structure Fence where
  marker : Char
  length : ℕ
  three_le : 3 ≤ length
  isMarker : marker = backtick ∨ marker = '~'

/-- The fence that a line opens.  The info string of a backtick fence has no backtick. -/
def Fence.openedBy (trimmed : Line) : Option Fence :=
  match trimmed with
  | [] => none
  | c :: _ =>
    if h : 3 ≤ run c trimmed ∧ (c = backtick ∨ c = '~') then
      if c = backtick ∧ backtick ∈ info c trimmed then none
      else some ⟨c, run c trimmed, h.1, h.2⟩
    else none

/-- As many of the same character and nothing else but white space. -/
def Fence.closedBy (f : Fence) (trimmed : Line) : Bool :=
  decide (f.length ≤ run f.marker trimmed) && (info f.marker trimmed).all Text.isWhiteSpace

/-- The code block that the line after is in. -/
def Fence.after (f : Option Fence) (line : Line) : Option Fence :=
  match f with
  | none => openedBy (trimStart line)
  | some f => if f.closedBy (trimStart line) then none else some f

/-- The task of a line outside the code blocks. -/
def taskAt (f : Option Fence) (line : Line) : Option Task :=
  match f, Fence.openedBy (trimStart line) with
  | none, none => taskOf (trimStart line)
  | _, _ => none

def tasksFrom : Option Fence → List Line → List Task
  | _, [] => []
  | f, line :: ls => (taskAt f line).toList ++ tasksFrom (Fence.after f line) ls

/-- The tasks of the lines outside the code blocks. -/
def tasks (ls : List Line) : List Task := tasksFrom none ls

/-- A line that starts like a fence is one that closes, or one that opens, a code block. -/
def FaultlessAt (f : Option Fence) (line : Line) : Prop :=
  match f with
  | none => fenceMarkerOf (trimStart line) = some backtick → backtick ∉ info backtick (trimStart line)
  | some f => fenceMarkerOf (trimStart line) = some f.marker → f.closedBy (trimStart line) = true

def Faultless : Option Fence → List Line → Prop
  | _, [] => True
  | f, line :: ls => FaultlessAt f line ∧ Faultless (Fence.after f line) ls

/-- A step with its index as a number. -/
def ParsedStep.shown (s : ParsedStep) : ℤ × Task :=
  (s.index.toInt, { initiallyChecked := s.initiallyChecked, text := s.text })

/-- The tasks with the indices 0, 1, 2, …. -/
def numbered (ts : List Task) : List (ℤ × Task) := ts.zipIdx.map fun (t, i) => ((i : ℤ), t)

/-- The scanner finds the tasks outside the code blocks. -/
def Right (ls : List Line) : Prop := (parseLines ls).map ParsedStep.shown = numbered (tasks ls)

/-- A text, or the first lines of it and a step after them. -/
inductive Cut (ls : List Line) : List Line → Prop where
  | whole : Cut ls ls
  | step {pre : List Line} {line : Line} {t : Task} (hpre : pre <+: ls) (hline : TaskLine (trimStart line) t) :
      Cut ls (pre ++ [line])

/-- A line of nothing but the fence. -/
def Fence.line (f : Fence) : Line := .replicate f.length f.marker

/-- The lines with a part of them in a code block of its own. -/
def wrapped (pre part post : List Line) (f : Fence) : List Line := pre ++ f.line :: (part ++ f.line :: post)

/-! ### Fences to the scanner and by the rule -/

theorem exists_cons_of_run_pos {c : Char} {trimmed : Line} (h : 0 < run c trimmed) : ∃ rest, trimmed = c :: rest := by
  cases trimmed with
  | nil => cases h
  | cons d rest =>
      by_cases hd : d = c
      · exact ⟨rest, by rw [hd]⟩
      · unfold run at h
        rw [List.takeWhile_cons_of_neg (by simpa using hd)] at h
        cases h

theorem fenceMarkerOf_eq_some_iff {trimmed : Line} {c : Char} :
    fenceMarkerOf trimmed = some c ↔ 3 ≤ run c trimmed ∧ (c = backtick ∨ c = '~') := by
  constructor
  · intro h
    unfold fenceMarkerOf at h
    split at h
    · cases h
    · next d rest =>
        split at h
        · cases h
        · next hd =>
            obtain ⟨hrun, hdc⟩ := Option.ite_none_right_eq_some.mp h
            cases hdc
            exact ⟨hrun, by tauto⟩
  · rintro ⟨hrun, hc⟩
    obtain ⟨rest, rfl⟩ := exists_cons_of_run_pos (by omega : 0 < run c trimmed)
    unfold fenceMarkerOf
    dsimp only
    rw [if_neg (by tauto)]
    exact if_pos hrun

theorem marker_of_openedBy {trimmed : Line} {f : Fence} (h : Fence.openedBy trimmed = some f) :
    fenceMarkerOf trimmed = some f.marker := by
  unfold Fence.openedBy at h
  split at h
  · cases h
  · split at h
    · next hc =>
        obtain ⟨-, heq⟩ := Option.ite_none_left_eq_some.mp h
        cases heq
        exact fenceMarkerOf_eq_some_iff.mpr hc
    · cases h

theorem openedBy_of_marker {trimmed : Line} {c : Char} (h : fenceMarkerOf trimmed = some c) :
    Fence.openedBy trimmed = none ∧ c = backtick ∧ backtick ∈ info backtick trimmed ∨
      (∃ f, Fence.openedBy trimmed = some f ∧ f.marker = c ∧ f.length = run c trimmed) ∧
        ¬(c = backtick ∧ backtick ∈ info backtick trimmed) := by
  have hc := fenceMarkerOf_eq_some_iff.mp h
  obtain ⟨rest, rfl⟩ := exists_cons_of_run_pos (by omega : 0 < run c trimmed)
  unfold Fence.openedBy
  dsimp only
  rw [dif_pos hc]
  by_cases hinfo : c = backtick ∧ backtick ∈ info c (c :: rest)
  · rw [if_pos hinfo]
    obtain ⟨rfl, hmem⟩ := hinfo
    exact .inl ⟨rfl, rfl, hmem⟩
  · rw [if_neg hinfo]
    refine .inr ⟨⟨_, rfl, rfl, rfl⟩, fun hb => hinfo ?_⟩
    obtain ⟨rfl, hmem⟩ := hb
    exact ⟨rfl, hmem⟩

theorem marker_of_closedBy {f : Fence} {trimmed : Line} (h : f.closedBy trimmed = true) :
    fenceMarkerOf trimmed = some f.marker := by
  have hlen := of_decide_eq_true (Bool.and_eq_true_iff.mp h).1
  exact fenceMarkerOf_eq_some_iff.mpr ⟨f.three_le.trans hlen, f.isMarker⟩

/-- A fence is no task. -/
theorem taskOf_of_marker {trimmed : Line} {c : Char} (h : fenceMarkerOf trimmed = some c) : taskOf trimmed = none := by
  obtain ⟨hrun, hc⟩ := fenceMarkerOf_eq_some_iff.mp h
  obtain ⟨rest, rfl⟩ := exists_cons_of_run_pos (by omega : 0 < run c trimmed)
  obtain rfl | rfl := hc
  · rfl
  · rfl

theorem marker_of_taskLine {trimmed : Line} {t : Task} (h : TaskLine trimmed t) : fenceMarkerOf trimmed = none := by
  rw [Option.eq_none_iff_forall_ne_some]
  intro c hc
  have := taskOf_of_marker hc
  rw [taskOf_eq_some_iff.mpr h] at this
  cases this

theorem openedBy_of_marker_eq_none {trimmed : Line} (h : fenceMarkerOf trimmed = none) :
    Fence.openedBy trimmed = none := by
  rw [Option.eq_none_iff_forall_ne_some]
  intro f hf
  rw [marker_of_openedBy hf] at h
  cases h

theorem closedBy_of_marker_ne {f : Fence} {trimmed : Line} (h : fenceMarkerOf trimmed ≠ some f.marker) :
    f.closedBy trimmed = false :=
  Bool.eq_false_iff.mpr fun hc => h (marker_of_closedBy hc)

/-! ### The scanner goes by the rule -/

/-- The scanner and the rule are in the same code block. -/
structure Scan.Follows (s : Scan) (f : Option Fence) : Prop where
  inFence : s.inFence = f.isSome
  fenceMarker : s.fenceMarker = f.map Fence.marker

/-- The scan after a line that leaves it in a code block and may be a task. -/
def Scan.goOn (s : Scan) (f : Option Fence) (t : Option Task) : Scan :=
  { out := s.out ++ (t.map (·.step s.index)).toList
    inFence := f.isSome
    fenceMarker := f.map Fence.marker
    index := if t.isSome then s.index + 1 else s.index }

theorem Scan.goOn_follows (s : Scan) (f : Option Fence) (t : Option Task) : (s.goOn f t).Follows f := ⟨rfl, rfl⟩

theorem Scan.goOn_self {s : Scan} {f : Option Fence} (h : s.Follows f) : s.goOn f none = s := by
  obtain ⟨out, inFence, fenceMarker, index⟩ := s
  obtain ⟨rfl, rfl⟩ := h
  simp [Scan.goOn]

/-- One line. -/
theorem Scan.line_eq {s : Scan} {f : Option Fence} {line : Line} (hs : s.Follows f) (hl : FaultlessAt f line) :
    s.line line = s.goOn (Fence.after f line) (taskAt f line) := by
  cases hm : fenceMarkerOf (trimStart line) with
  | none =>
      have hopen := openedBy_of_marker_eq_none hm
      cases f with
      | none =>
          have hafter : Fence.after none line = none := hopen
          have htask : taskAt none line = taskOf (trimStart line) := by
            unfold taskAt
            rw [hopen]
          rw [hafter, htask]
          unfold Scan.line parseTaskLine
          rw [hm]
          dsimp only
          rw [hs.inFence, if_neg (by simp)]
          cases taskOf (trimStart line) with
          | none => exact (goOn_self hs).symm
          | some t => simp [Scan.goOn, hs.fenceMarker]
      | some f =>
          have hafter : Fence.after (some f) line = some f :=
            if_neg (by rw [closedBy_of_marker_ne (by simp [hm])]; simp)
          have htask : taskAt (some f) line = none := rfl
          rw [hafter, htask, goOn_self hs]
          unfold Scan.line
          rw [hm]
          dsimp only
          rw [hs.inFence]
          exact if_pos rfl
  | some c =>
      cases f with
      | none =>
          obtain ⟨-, rfl, hmem⟩ | ⟨⟨f, hf, hc, -⟩, -⟩ := openedBy_of_marker hm
          · exact absurd hmem (hl hm)
          · have hafter : Fence.after none line = some f := hf
            have htask : taskAt none line = none := by
              unfold taskAt
              rw [hf]
            rw [hafter, htask]
            unfold Scan.line
            rw [hm, hs.fenceMarker]
            simp [Scan.goOn, hc]
      | some f =>
          have htask : taskAt (some f) line = none := rfl
          by_cases hc : c = f.marker
          · have hafter : Fence.after (some f) line = none := if_pos (hl (hc ▸ hm))
            rw [hafter, htask]
            unfold Scan.line
            rw [hm, hs.fenceMarker]
            simp [Scan.goOn, hc]
          · have hafter : Fence.after (some f) line = some f :=
              if_neg (by rw [closedBy_of_marker_ne (by simpa [hm] using hc)]; simp)
            rw [hafter, htask, goOn_self hs]
            unfold Scan.line
            rw [hm, hs.fenceMarker]
            simp [Ne.symm hc]

/-- The steps of the tasks from an index on. -/
def place (n : ℕ) (ts : List Task) : List ParsedStep := (ts.zipIdx n).map fun (t, i) => t.step (.ofNat i)

theorem place_append (n : ℕ) (ts us : List Task) : place n (ts ++ us) = place n ts ++ place (n + ts.length) us := by
  unfold place
  rw [List.zipIdx_append, List.map_append, Nat.add_comm]

theorem tasksFrom_append (f : Option Fence) (ls ms : List Line) :
    tasksFrom f (ls ++ ms) = tasksFrom f ls ++ tasksFrom (ls.foldl Fence.after f) ms := by
  induction ls generalizing f with
  | nil => rfl
  | cons line ls ih =>
      rw [List.cons_append, tasksFrom, tasksFrom, ih, List.append_assoc]
      rfl

theorem faultless_append {f : Option Fence} {ls ms : List Line} :
    Faultless f (ls ++ ms) ↔ Faultless f ls ∧ Faultless (ls.foldl Fence.after f) ms := by
  induction ls generalizing f with
  | nil => exact (and_iff_right trivial).symm
  | cons line ls ih =>
      rw [List.cons_append, Faultless, Faultless, ih, and_assoc]
      rfl

/-- Every line: by induction on them. -/
theorem out_foldl {s : Scan} {f : Option Fence} {ls : List Line} (hs : s.Follows f) (hl : Faultless f ls) {n : ℕ}
    (hn : s.index = .ofNat n) : (ls.foldl Scan.line s).out = s.out ++ place n (tasksFrom f ls) := by
  induction ls generalizing s f n with
  | nil => simp [tasksFrom, place]
  | cons line ls ih =>
      rw [List.foldl_cons, Scan.line_eq hs hl.1, tasksFrom, place_append]
      cases ht : taskAt f line with
      | none =>
          rw [ih (Scan.goOn_follows ..) hl.2 (n := n) (by simpa [Scan.goOn] using hn)]
          simp [Scan.goOn, place]
      | some t =>
          rw [ih (Scan.goOn_follows ..) hl.2 (n := n + 1) (by simp [Scan.goOn, hn, Int32.ofNat_add])]
          simp [Scan.goOn, place, hn]

theorem parseLines_eq {ls : List Line} (h : Faultless none ls) : parseLines ls = place 0 (tasks ls) := by
  exact (out_foldl (s := {}) ⟨rfl, rfl⟩ h (n := 0) rfl).trans (List.nil_append _)

/-- The indices are those of the list as long as an `i32` can count them. -/
theorem shown_place_iff (ts : List Task) : (place 0 ts).map ParsedStep.shown = numbered ts ↔ ts.length ≤ 2 ^ 31 := by
  have hmap : (place 0 ts).map ParsedStep.shown = ts.zipIdx.map fun (t, i) => ((Int32.ofNat i).toInt, t) := by
    unfold place
    rw [List.map_map]
    rfl
  rw [hmap, numbered]
  constructor
  · intro h
    by_contra hlen
    have hi : 2 ^ 31 < ts.length := by omega
    have hget := congrArg (·[2 ^ 31]?) h
    simp only [List.getElem?_map, List.getElem?_zipIdx, List.getElem?_eq_getElem hi, Option.map_some, Nat.zero_add]
      at hget
    have hindex := (Prod.mk.inj (Option.some.inj hget)).1
    exact absurd hindex (by decide)
  · intro hlen
    refine List.map_congr_left fun x hx => ?_
    have hlt := (List.mem_zipIdx hx).2.1
    dsimp only
    rw [Int32.toInt_ofNat_of_lt (by omega)]

theorem right_iff_length {ls : List Line} (h : Faultless none ls) : Right ls ↔ (tasks ls).length ≤ 2 ^ 31 := by
  unfold Right
  rw [parseLines_eq h]
  exact shown_place_iff _

/-! ### The first fault -/

theorem task_step {s : Scan} {line : Line} {t : Task} (hs : s.inFence = false) (ht : TaskLine (trimStart line) t) :
    (s.line line).out = s.out ++ [t.step s.index] := by
  unfold Scan.line parseTaskLine
  rw [marker_of_taskLine ht, taskOf_eq_some_iff.mpr ht]
  simp [hs]

theorem task_skipped {s : Scan} {line : Line} {t : Task} (hs : s.inFence = true) (ht : TaskLine (trimStart line) t) :
    (s.line line).out = s.out := by
  unfold Scan.line
  rw [marker_of_taskLine ht]
  simp [hs]

theorem taskAt_of_taskLine {line : Line} {t : Task} (ht : TaskLine (trimStart line) t) : taskAt none line = some t := by
  unfold taskAt
  rw [openedBy_of_marker_eq_none (marker_of_taskLine ht)]
  exact taskOf_eq_some_iff.mpr ht

/-- After a fault the scanner leaves a code block that goes on, or is in one that was not opened. -/
theorem length_out_of_fault {s : Scan} {f : Option Fence} {bad : Line} (hs : s.Follows f) (hbad : ¬FaultlessAt f bad)
    {line : Line} {t : Task} (ht : TaskLine (trimStart line) t) :
    ([bad, line].foldl Scan.line s).out.length ≠ s.out.length + (tasksFrom f [bad, line]).length := by
  cases f with
  | none =>
      obtain ⟨hm, hinfo⟩ := Classical.not_imp.mp hbad
      obtain ⟨hopen, -⟩ | ⟨-, hno⟩ := openedBy_of_marker hm
      · have htask : taskAt none bad = none := by
          unfold taskAt
          rw [hopen]
          exact taskOf_of_marker hm
        have hafter : Fence.after none bad = none := hopen
        have hline : s.line bad = { s with inFence := true, fenceMarker := some backtick } := by
          unfold Scan.line
          rw [hm, hs.fenceMarker]
          rfl
        rw [List.foldl_cons, List.foldl_cons, List.foldl_nil, hline, task_skipped rfl ht]
        simp [tasksFrom, htask, hafter, taskAt_of_taskLine ht]
      · exact absurd ⟨rfl, not_not.mp hinfo⟩ hno
  | some f =>
      obtain ⟨hm, hclosed⟩ := Classical.not_imp.mp hbad
      have hafter : Fence.after (some f) bad = some f := if_neg hclosed
      have hline : s.line bad = { s with inFence := false, fenceMarker := none } := by
        unfold Scan.line
        rw [hm, hs.fenceMarker]
        exact if_pos rfl
      rw [List.foldl_cons, List.foldl_cons, List.foldl_nil, hline, task_step rfl ht]
      simp [tasksFrom, hafter, taskAt]

/-- Where the first fault is, a step after it is lost, or one too many. -/
theorem exists_fault {s : Scan} {f : Option Fence} {ls : List Line} (hs : s.Follows f) (hl : ¬Faultless f ls) :
    ∃ pre, pre <+: ls ∧ ∀ line t, TaskLine (trimStart line) t →
      ((pre ++ [line]).foldl Scan.line s).out.length ≠ s.out.length + (tasksFrom f (pre ++ [line])).length := by
  induction ls generalizing s f with
  | nil => exact absurd trivial hl
  | cons bad ls ih =>
      by_cases hbad : FaultlessAt f bad
      · obtain ⟨pre, hpre, hlen⟩ := ih (s.goOn_follows (Fence.after f bad) (taskAt f bad)) fun h => hl ⟨hbad, h⟩
        refine ⟨bad :: pre, List.prefix_cons_inj bad |>.mpr hpre, fun line t ht => ?_⟩
        have hgo := hlen line t ht
        have hout : (s.goOn (Fence.after f bad) (taskAt f bad)).out.length =
            s.out.length + (taskAt f bad).toList.length := by
          cases h : taskAt f bad <;> simp [Scan.goOn]
        rw [List.cons_append, List.foldl_cons, Scan.line_eq hs hbad, tasksFrom, List.length_append]
        omega
      · exact ⟨[bad], ⟨ls, rfl⟩, fun line t ht => length_out_of_fault hs hbad ht⟩

/-! ### Cuts -/

theorem faultless_of_cut {ls ms : List Line} (h : Faultless none ls) (hc : Cut ls ms) : Faultless none ms := by
  cases hc with
  | whole => exact h
  | @step pre line t hpre hline =>
      obtain ⟨rest, rfl⟩ := hpre
      have hm := marker_of_taskLine hline
      refine faultless_append.mpr ⟨(faultless_append.mp h).1, ?_, trivial⟩
      cases pre.foldl Fence.after none with
      | none => exact fun h' => absurd (hm.symm.trans h') (by simp)
      | some f => exact fun h' => absurd (hm.symm.trans h') (by simp)

/-- A step to look for. -/
theorem taskLine_dash : TaskLine (trimStart "- [ ] step".toList)
    { initiallyChecked := false, text := "step".toList } := by
  rw [← taskOf_eq_some_iff]
  decide

theorem right_cuts_iff (ls : List Line) :
    (∀ ms, Cut ls ms → Right ms) ↔ Faultless none ls ∧ ∀ ms, Cut ls ms → (tasks ms).length ≤ 2 ^ 31 := by
  constructor
  · intro h
    have hl : Faultless none ls := by
      by_contra hl
      obtain ⟨pre, hpre, hlen⟩ := exists_fault (s := {}) ⟨rfl, rfl⟩ hl
      have hright := congrArg List.length (h _ (.step hpre taskLine_dash))
      simp only [List.length_map, numbered, List.length_zipIdx] at hright
      exact hlen _ _ taskLine_dash (hright.trans (Nat.zero_add _).symm)
    exact ⟨hl, fun ms hm => (right_iff_length (faultless_of_cut hl hm)).mp (h ms hm)⟩
  · rintro ⟨hl, hlen⟩ ms hm
    exact (right_iff_length (faultless_of_cut hl hm)).mpr (hlen ms hm)

/-! ### Wrapping -/

namespace Fence

variable (f : Fence)

theorem trimStart_line : trimStart f.line = f.line := by
  obtain ⟨c, n, h3, hc⟩ := f
  obtain ⟨m, rfl⟩ : ∃ m, n = m + 1 := ⟨n - 1, by omega⟩
  refine List.dropWhile_cons_of_neg ?_
  obtain rfl | rfl := hc
  · show ¬Text.isWhiteSpace backtick = true
    decide
  · show ¬Text.isWhiteSpace '~' = true
    decide

theorem openedBy_line : openedBy (trimStart f.line) = some f := by
  have hrun : run f.marker f.line = f.length := by
    simp [run, line]
  have hm : fenceMarkerOf f.line = some f.marker :=
    fenceMarkerOf_eq_some_iff.mpr ⟨hrun.symm ▸ f.three_le, f.isMarker⟩
  rw [trimStart_line]
  obtain ⟨-, hb, hmem⟩ | ⟨⟨g, hg, hgm, hgl⟩, -⟩ := openedBy_of_marker hm
  · simp [info, line, hb] at hmem
  · rw [hg, Fence.ext hgm (hgl.trans hrun)]

theorem closedBy_line : f.closedBy (trimStart f.line) = true := by
  rw [trimStart_line]
  simp [closedBy, run, info, line]

/-- A fence that is longer than what the lines start with is not closed by them. -/
theorem foldl_after_of_longer {ls : List Line} (h : ∀ l ∈ ls, run f.marker (trimStart l) < f.length) :
    ls.foldl after (some f) = some f ∧ tasksFrom (some f) ls = [] := by
  induction ls with
  | nil => exact ⟨rfl, rfl⟩
  | cons l ls ih =>
      have hlt := h l List.mem_cons_self
      have hafter : after (some f) l = some f := by
        refine if_neg fun hc => ?_
        have := of_decide_eq_true (Bool.and_eq_true_iff.mp hc).1
        omega
      obtain ⟨hfold, htasks⟩ := ih fun l hl => h l (List.mem_cons_of_mem _ hl)
      rw [List.foldl_cons, tasksFrom, hafter]
      exact ⟨hfold, by rw [htasks]; rfl⟩

end Fence

/-- A longer fence around a part that starts outside the code blocks removes the tasks of the part. -/
theorem tasks_wrapped {pre part post : List Line} {f : Fence} (hpre : pre.foldl Fence.after none = none)
    (hpart : ∀ l ∈ part, run f.marker (trimStart l) < f.length) :
    tasks (wrapped pre part post f) = tasks pre ++ tasks post := by
  obtain ⟨hfold, hnone⟩ := f.foldl_after_of_longer hpart
  have hopen : Fence.after none f.line = some f := f.openedBy_line
  have hclose : Fence.after (some f) f.line = none := if_pos f.closedBy_line
  have hfirst : taskAt none f.line = none := by
    unfold taskAt
    rw [f.openedBy_line]
  unfold wrapped tasks
  rw [tasksFrom_append, hpre, tasksFrom, hfirst, hopen, tasksFrom_append, hnone, hfold, tasksFrom, hclose]
  rfl

/-- **The steps of a runbook.**  The steps that the scanner finds in a text, and in what is left of it with a step
after it, are the tasks outside the code blocks if and only if every line that starts like a fence closes or opens
a block, and an `i32` counts the steps.  So a longer fence around a part removes its steps, if they are still right
then. -/
theorem steps_right_iff (rendered : List Char) :
    ((∀ ms, Cut (lines rendered) ms → Right ms) ↔
      Faultless none (lines rendered) ∧ ∀ ms, Cut (lines rendered) ms → (tasks ms).length ≤ 2 ^ 31) ∧
    ∀ pre part post f, lines rendered = pre ++ (part ++ post) → pre.foldl Fence.after none = none →
      part.foldl Fence.after none = none → (∀ l ∈ part, run f.marker (trimStart l) < f.length) →
      tasks (lines rendered) = tasks pre ++ (tasks part ++ tasks post) ∧
        (Right (wrapped pre part post f) ↔
          (parseLines (wrapped pre part post f)).map ParsedStep.shown = numbered (tasks pre ++ tasks post)) := by
  refine ⟨right_cuts_iff _, fun pre part post f heq hpre hpart hlonger => ⟨?_, ?_⟩⟩
  · unfold tasks
    rw [heq, tasksFrom_append, hpre, tasksFrom_append, hpart]
  · unfold Right
    rw [tasks_wrapped hpre hlonger]

namespace Wrapping

def rendered : List Char := "- [ ] one\n- [x] two\n- [ ] three".toList

def tildes : Fence := { marker := '~', length := 4, three_le := by decide, isMarker := .inr rfl }

theorem steps_right_of_wrapping : tasks (lines rendered) =
      tasks ["- [ ] one".toList] ++ (tasks ["- [x] two".toList] ++ tasks ["- [ ] three".toList]) ∧
    (Right (wrapped ["- [ ] one".toList] ["- [x] two".toList] ["- [ ] three".toList] tildes) ↔
      (parseLines (wrapped ["- [ ] one".toList] ["- [x] two".toList] ["- [ ] three".toList] tildes)).map
        ParsedStep.shown = numbered (tasks ["- [ ] one".toList] ++ tasks ["- [ ] three".toList])) :=
  (steps_right_iff rendered).2 _ _ _ _ (by decide) (by decide +kernel) (by decide +kernel) (by decide)

end Wrapping

/-- A block of four backticks with a line of three in it: the step after that line is one, and the step after the
block is none. -/
def nested : List Char :=
  "````\n```\n- [ ] inside\n````\n- [ ] after".toList

theorem steps_of_nested : parseSteps nested = [{ index := 0, initiallyChecked := false, text := "inside".toList }] ∧
    tasks (lines nested) = [{ initiallyChecked := false, text := "after".toList }] ∧ ¬Right (lines nested) := by
  refine ⟨by decide +kernel, by decide +kernel, ?_⟩
  unfold Right
  decide +kernel

end Mokosh.ExecutionSteps
