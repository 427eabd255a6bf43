import Mathlib.Tactic.Common

/-! # Comma-separated values

A reader for the format of RFC 4180: records on lines, fields between commas, and fields in quotes, in which a quote is
doubled and commas and line breaks are text.  A line break is `LF` or `CRLF`, the last one may be missing, and a blank
line is a record of one empty field.

`read` says what the reader does at the beginning of a field, within one, and behind a closing quote.  A field that is
written as it is (`IsPlain`) or in quotes (`quoted`) comes back, whatever follows it: `read_field`. -/

namespace Mokosh.Csv

/-- Where the reader stands. -/
inductive Mode where
  | start
  | plain
  | quoted
  /-- Behind a quote in a quoted field: its end, or the first half of a quote. -/
  | closing
  /-- Behind a `CR`, which an `LF` must follow. -/
  | carriage
deriving DecidableEq, Repr

/-- What is left to read at the end of the text. -/
def atEnd (mode : Mode) (field : List Char) (row : List (List Char)) : Option (List (List (List Char))) :=
  match mode with
  | .start => if row = [] then some [] else some [row ++ [[]]]
  | .plain | .closing => some [row ++ [field]]
  | .quoted | .carriage => none

/-- The records of a text.  `field` is what was read of the field so far, and `row` the fields before it. -/
def read (mode : Mode) (field : List Char) (row : List (List Char)) : List Char → Option (List (List (List Char)))
  | [] => atEnd mode field row
  | c :: s =>
    if mode = .quoted then
      if c = '"' then read .closing field row s else read .quoted (field ++ [c]) row s
    else if mode = .carriage then
      if c = '\n' then (read .start [] [] s).map fun rows => (row ++ [field]) :: rows else none
    else if c = ',' then read .start [] (row ++ [field]) s
    else if c = '\n' then (read .start [] [] s).map fun rows => (row ++ [field]) :: rows
    else if c = '\r' then read .carriage field row s
    else if c = '"' then
      if mode = .start then read .quoted [] row s
      else if mode = .closing then read .quoted (field ++ ['"']) row s
      else none
    else if mode = .closing then none
    else read .plain (field ++ [c]) row s

def readCsv (text : List Char) : Option (List (List (List Char))) := read .start [] [] text

/-- A character that stands for itself outside of quotes. -/
def IsPlain (c : Char) : Prop := c ≠ ',' ∧ c ≠ '"' ∧ c ≠ '\n' ∧ c ≠ '\r'

/-- A field in quotes. -/
def quoted (field : List Char) : List Char :=
  '"' :: (field.flatMap (fun c => if c = '"' then ['"', '"'] else [c]) ++ ['"'])

/-- How a field can be written. -/
inductive Written (field : List Char) : List Char → Prop where
  | plain (h : ∀ c ∈ field, IsPlain c) : Written field field
  | quoted : Written field (quoted field)

/-- What the reader does behind a field. -/
def behind (field : List Char) (row : List (List Char)) : List Char → Option (List (List (List Char)))
  | ',' :: s => read .start [] (row ++ [field]) s
  | '\n' :: s => (read .start [] [] s).map fun rows => (row ++ [field]) :: rows
  | _ => none

/-- The end of a field is seen in each of the modes that it can have. -/
theorem read_behind {mode : Mode} (h : mode = .plain ∨ mode = .closing ∨ mode = .start) {field : List Char}
    {row : List (List Char)} {c : Char} (hc : c = ',' ∨ c = '\n') (s : List Char) :
    read mode field row (c :: s) = behind field row (c :: s) := by
  rcases h with rfl | rfl | rfl
  · rcases hc with rfl | rfl
    · rfl
    · rfl
  · rcases hc with rfl | rfl
    · rfl
    · rfl
  · rcases hc with rfl | rfl
    · rfl
    · rfl

/-- A plain character is added to the field. -/
theorem read_char {mode : Mode} (h : mode = .plain ∨ mode = .start) {c : Char} (hc : IsPlain c) (field : List Char)
    (row : List (List Char)) (s : List Char) : read mode field row (c :: s) = read .plain (field ++ [c]) row s := by
  obtain ⟨hcomma, hquote, hlf, hcr⟩ := hc
  rcases h with rfl | rfl
  · simp [read, hcomma, hquote, hlf, hcr]
  · simp [read, hcomma, hquote, hlf, hcr]

theorem read_plain {field more : List Char} (h : ∀ c ∈ more, IsPlain c) {row : List (List Char)} {c : Char}
    (hc : c = ',' ∨ c = '\n') (s : List Char) :
    read .plain field row (more ++ c :: s) = behind (field ++ more) row (c :: s) := by
  induction more generalizing field with
  | nil =>
      rw [List.append_nil]
      exact read_behind (.inl rfl) hc s
  | cons d more ih =>
      obtain ⟨hd, hmore⟩ := List.forall_mem_cons.mp h
      rw [List.cons_append, read_char (.inl rfl) hd, List.append_cons field d more]
      exact ih hmore

theorem read_quoted {field more : List Char} {row : List (List Char)} {c : Char} (hc : c = ',' ∨ c = '\n')
    (s : List Char) :
    read .quoted field row (more.flatMap (fun c => if c = '"' then ['"', '"'] else [c]) ++ '"' :: c :: s) =
      behind (field ++ more) row (c :: s) := by
  induction more generalizing field with
  | nil =>
      rw [List.append_nil]
      exact read_behind (.inr (.inl rfl)) hc s
  | cons d more ih =>
      rw [List.flatMap_cons, List.append_cons field d more, List.append_assoc, ← ih]
      split
      · next hd =>
          subst hd
          rfl
      · next hd => simp [read, hd]

/-- A field comes back, however it is written. -/
theorem read_field {field text : List Char} (h : Written field text) {row : List (List Char)} {c : Char}
    (hc : c = ',' ∨ c = '\n') (s : List Char) :
    read .start [] row (text ++ c :: s) = behind field row (c :: s) := by
  cases h with
  | plain h =>
      cases field with
      | nil => exact read_behind (.inr (.inr rfl)) hc s
      | cons d field =>
          obtain ⟨hd, hfield⟩ := List.forall_mem_cons.mp h
          rw [List.cons_append, read_char (.inr rfl) hd]
          exact read_plain hfield hc s
  | quoted =>
      unfold quoted
      rw [List.cons_append, List.append_assoc]
      exact read_quoted hc s

/-- A line of fields comes back, and the reader goes on behind it. -/
theorem read_line {fields texts : List (List Char)} (h : List.Forall₂ Written fields texts) (hne : fields ≠ [])
    (row : List (List Char)) (s : List Char) :
    read .start [] row ([','].intercalate texts ++ '\n' :: s) =
      (read .start [] [] s).map fun rows => (row ++ fields) :: rows := by
  induction h generalizing row with
  | nil => exact absurd rfl hne
  | @cons field text fields texts hfield hrest ih =>
      cases hrest with
      | nil =>
          rw [List.intercalate_singleton]
          exact read_field hfield (.inr rfl) s
      | @cons field' text' fields texts hfield' hrest =>
          rw [List.intercalate_cons_cons, List.append_assoc, List.append_assoc]
          refine (read_field hfield (.inl rfl) _).trans ?_
          refine (ih (List.cons_ne_nil _ _) _).trans ?_
          rw [List.append_assoc]
          rfl

/-- Records that are written line by line come back. -/
theorem readCsv_lines {rows texts : List (List (List Char))} (h : List.Forall₂ (List.Forall₂ Written) rows texts)
    (hne : ∀ r ∈ rows, r ≠ []) :
    readCsv (texts.flatMap fun line => [','].intercalate line ++ ['\n']) = some rows := by
  unfold readCsv
  induction h with
  | nil => rfl
  | @cons row line rows texts hrow hrest ih =>
      obtain ⟨hrow', hrows⟩ := List.forall_mem_cons.mp hne
      rw [List.flatMap_cons, List.append_assoc]
      refine (read_line hrow hrow' [] _).trans ?_
      rw [show [].append _ = _ from List.nil_append _, ih hrows]
      rfl

end Mokosh.Csv
