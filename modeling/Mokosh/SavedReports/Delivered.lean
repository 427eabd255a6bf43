import Mathlib.Data.List.Forall2
import Mathlib.Data.List.Zip
import Mathlib.Data.String.Basic
import Mokosh.Lib.Csv
import Mokosh.Lib.SortedMap
import Mokosh.SavedReports.Shape

/-! # What a report delivers

`dedupe_headers` and `relabel_row` of `saved_reports/service.rs`, and `render_csv` of `saved_reports/worker.rs`.

A row of the database is a `row_to_json` object with the output names of the query; `relabel_row` puts its values under
the headers, into a `serde_json::Map`, which is a `BTreeMap`.  So no cell is lost (`perm_relabelRow`), and the text of
the report can be read back (`readCsv_renderCsv`); but the objects are in the order of the headers and not in that of
the columns, and **`delivered_iff`** says when these are the same. -/

namespace Mokosh.SavedReports

open Workflows (Json)
open FreeNames (freeNames)
open SortedMap (Ascending insertAll)

/-! ### The code -/

def dedupeHeaders (aliases : List String) : List String := freeNames (fun header n => s!"{header} ({n})") aliases []

def relabelRow (row : Json) (columns aliases : List String) : Json :=
  match row.asObject with
  | none => row
  | some obj =>
    .object (insertAll [] ((columns.zip aliases).map fun p => (p.2, (obj.lookup p.1).getD .null)))

def csvQuote (s : List Char) : List Char :=
  if s.any fun c => c = ',' ∨ c = '"' ∨ c = '\n' ∨ c = '\r' then
    '"' :: (s.flatMap (fun c => if c = '"' then ['"', '"'] else [c]) ++ ['"'])
  else s

/-- A cell of the text. -/
def csvCell (v : Option Json) : List Char :=
  match v with
  | some .null | none => []
  | some (.string s) => csvQuote s.toList
  | some other => csvQuote other.text

def renderCsv (aliases : List String) (rows : List Json) : List Char :=
  [','].intercalate (aliases.map fun a => csvQuote a.toList) ++ ['\n'] ++
    rows.flatMap fun row => [','].intercalate (aliases.map fun a => csvCell (row.get a)) ++ ['\n']

/-! ### Result sets -/

/-- The declared columns, which are fields with headers, and the rows, which have a value for each of them.  An empty
list of columns is replaced by the default one. -/
structure ResultSet where
  columns : List (String × String)
  declared : columns ≠ []
  rows : List (List Json)
  width : ∀ r ∈ rows, r.length = columns.length

namespace ResultSet

variable (t : ResultSet)

/-- The output names of the query. -/
def outputs : List String := freeNames (fun field n => s!"{field}_{n}") (t.columns.map Prod.fst) []

def headers : List String := dedupeHeaders (t.columns.map Prod.snd)

/-- `row_to_json`, as it is parsed. -/
def rowToJson (r : List Json) : Json := .object (insertAll [] (t.outputs.zip r))

def delivered : List Json := t.rows.map fun r => relabelRow (t.rowToJson r) t.outputs t.headers

end ResultSet

/-- The text of a value. -/
def cellText : Json → List Char
  | .null => []
  | .string s => s.toList
  | v => v.text

/-! ### Headers and output names -/

theorem suffixed_injective (header : String) : Function.Injective fun n : ℕ => s!"{header} ({n})" := by
  intro n m heq
  have hdigits : Nat.toDigits 10 n = Nat.toDigits 10 m := by
    simpa [toString_string] using congrArg String.toList heq
  rw [← Nat.ofDigitChars_ten_toDigits (n := n), hdigits, Nat.ofDigitChars_ten_toDigits]

section

variable (t : ResultSet)

theorem nodup_headers : t.headers.Nodup := FreeNames.nodup_freeNames suffixed_injective List.nodup_nil _

theorem length_headers : t.headers.length = t.columns.length := by
  simp [ResultSet.headers, dedupeHeaders]

theorem nodup_outputs : t.outputs.Nodup := FreeNames.nodup_freeNames numbered_injective List.nodup_nil _

theorem length_outputs : t.outputs.length = t.columns.length := by
  simp [ResultSet.outputs]

end

/-! ### Rows -/

theorem nodup_zip {names : List String} (h : names.Nodup) {r : List Json} (hlen : r.length = names.length) :
    ((names.zip r).map Prod.fst).Nodup := by
  rw [List.map_fst_zip hlen.ge]
  exact h

/-- The object of a row has its values under the names. -/
theorem lookup_insertAll_zip {names : List String} (h : names.Nodup) {r : List Json} (hlen : r.length = names.length)
    {e : String × Json} (he : e ∈ names.zip r) : (insertAll [] (names.zip r)).lookup e.1 = some e.2 := by
  have hperm := SortedMap.perm_insertAll_nil (nodup_zip h hlen)
  exact SortedMap.lookup_of_mem (SortedMap.ascending_insertAll .nil _).nodup (hperm.mem_iff.mpr he)

/-- The values under the names, one after the other, are the row. -/
theorem map_lookup_insertAll_zip {names : List String} (h : names.Nodup) {r : List Json}
    (hlen : r.length = names.length) :
    (names.map fun name => ((insertAll [] (names.zip r)).lookup name).getD .null) = r := by
  calc (names.map fun name => ((insertAll [] (names.zip r)).lookup name).getD .null)
      = (((names.zip r).map Prod.fst).map fun name => ((insertAll [] (names.zip r)).lookup name).getD .null) := by
        rw [List.map_fst_zip hlen.ge]
    _ = (names.zip r).map Prod.snd := by
        rw [List.map_map]
        exact List.map_congr_left fun e he => by
          rw [Function.comp_apply, lookup_insertAll_zip h hlen he, Option.getD_some]
    _ = r := List.map_snd_zip hlen.le

theorem map_zip_swap {α β γ : Type} (as : List α) (bs : List β) (g : α → γ) :
    ((as.zip bs).map fun p => (p.2, g p.1)) = bs.zip (as.map g) := by
  rw [List.zip_map_right, ← List.zip_swap, List.map_map]
  rfl

section

variable {t : ResultSet} {r : List Json}

/-- `relabel_row` puts the values of a row under the headers. -/
theorem relabelRow_rowToJson (hr : r.length = t.columns.length) :
    relabelRow (t.rowToJson r) t.outputs t.headers = .object (insertAll [] (t.headers.zip r)) := by
  have hentries := map_zip_swap t.outputs t.headers fun key =>
    ((insertAll [] (t.outputs.zip r)).lookup key).getD .null
  rw [map_lookup_insertAll_zip (nodup_outputs t) (hr.trans (length_outputs t).symm)] at hentries
  exact congrArg (fun entries => Json.object (insertAll [] entries)) hentries

/-- **No cell is lost.** -/
theorem perm_relabelRow (hr : r.length = t.columns.length) :
    ∃ members, relabelRow (t.rowToJson r) t.outputs t.headers = .object members ∧ members.Perm (t.headers.zip r) := by
  have hnodup := nodup_zip (nodup_headers t) (hr.trans (length_headers t).symm)
  exact ⟨_, relabelRow_rowToJson hr, SortedMap.perm_insertAll_nil hnodup⟩

theorem get_relabelRow (hr : r.length = t.columns.length) {header : String} {v : Json}
    (h : (header, v) ∈ t.headers.zip r) :
    (relabelRow (t.rowToJson r) t.outputs t.headers).get header = some v := by
  rw [relabelRow_rowToJson hr]
  exact lookup_insertAll_zip (nodup_headers t) (hr.trans (length_headers t).symm) h

/-- The objects are in the order of the columns if the headers are in order. -/
theorem relabelRow_eq_iff (hr : r.length = t.columns.length) :
    relabelRow (t.rowToJson r) t.outputs t.headers = .object (t.headers.zip r) ↔ t.headers.Pairwise (· < ·) := by
  rw [relabelRow_rowToJson hr, Json.object.injEq, SortedMap.insertAll_eq_self_iff]
  unfold Ascending
  rw [← List.pairwise_map, List.map_fst_zip (hr.trans (length_headers t).symm).ge]

end

/-! ### The text -/

theorem written_csvQuote (s : List Char) : Csv.Written s (csvQuote s) := by
  unfold csvQuote
  split
  · exact .quoted
  · next h =>
      refine .plain fun c hc => ?_
      simp only [List.any_eq_true, not_exists, not_and, decide_eq_true_eq, not_or] at h
      obtain ⟨hcomma, hquote, hlf, hcr⟩ := h c hc
      exact ⟨hcomma, hquote, hlf, hcr⟩

theorem written_csvCell (v : Json) : Csv.Written (cellText v) (csvCell (some v)) := by
  cases v with
  | null => exact .plain (List.forall_mem_nil _)
  | string s => exact written_csvQuote s.toList
  | _ => exact written_csvQuote _

theorem written_row {t : ResultSet} {r : List Json} (hr : r.length = t.columns.length) :
    List.Forall₂ Csv.Written (r.map cellText)
      (t.headers.map fun a => csvCell ((relabelRow (t.rowToJson r) t.outputs t.headers).get a)) := by
  rw [List.forall₂_map_left_iff, List.forall₂_map_right_iff, List.forall₂_iff_zip]
  refine ⟨hr.trans (length_headers t).symm, fun {v a} h => ?_⟩
  have hin : (a, v) ∈ t.headers.zip r := by
    rw [← List.zip_swap]
    exact List.mem_map_of_mem h
  rw [get_relabelRow hr hin]
  exact written_csvCell v

theorem written_headers (t : ResultSet) :
    List.Forall₂ Csv.Written (t.headers.map String.toList) (t.headers.map fun a => csvQuote a.toList) := by
  rw [List.forall₂_map_left_iff, List.forall₂_map_right_iff, List.forall₂_same]
  exact fun a _ => written_csvQuote a.toList

/-- **The text of a report can be read back.** -/
theorem readCsv_renderCsv (t : ResultSet) :
    Csv.readCsv (renderCsv t.headers t.delivered) =
      some (t.headers.map String.toList :: t.rows.map fun r => r.map cellText) := by
  have hlen : t.columns.length ≠ 0 := fun h => t.declared (List.length_eq_zero_iff.mp h)
  have hlines : List.Forall₂ (List.Forall₂ Csv.Written) (t.rows.map fun r => r.map cellText)
      (t.delivered.map fun row => t.headers.map fun a => csvCell (row.get a)) := by
    unfold ResultSet.delivered
    rw [List.map_map, List.forall₂_map_left_iff, List.forall₂_map_right_iff, List.forall₂_same]
    exact fun r hr => written_row (t.width r hr)
  have hread := Csv.readCsv_lines (.cons (written_headers t) hlines) (List.forall_mem_cons.mpr ⟨?_, ?_⟩)
  · rw [← hread, List.flatMap_cons, List.flatMap_map]
    rfl
  · intro h
    rw [List.map_eq_nil_iff, ← List.length_eq_zero_iff, length_headers] at h
    exact hlen h
  · intro row hrow
    obtain ⟨r, hr, rfl⟩ := List.mem_map.mp hrow
    rw [ne_eq, List.map_eq_nil_iff, ← List.length_eq_zero_iff, t.width r hr]
    exact hlen

/-! ### Reports -/

/-- What is expected of a report: its objects have the cells under the headers, one for each column and in their order,
and its text is the table of the headers and the texts of the cells. -/
structure Delivers (t : ResultSet) : Prop where
  objects : t.delivered = t.rows.map fun r => .object (t.headers.zip r)
  text : Csv.readCsv (renderCsv t.headers t.delivered) =
    some (t.headers.map String.toList :: t.rows.map fun r => r.map cellText)

/-- **What a report delivers.**  Its objects have the columns in their order if and only if the headers, with their
numbers, are in the order of their texts, or there is no row. -/
theorem delivered_iff (t : ResultSet) : Delivers t ↔ t.rows = [] ∨ t.headers.Pairwise (· < ·) := by
  constructor
  · intro h
    cases hrows : t.rows with
    | nil => exact .inl rfl
    | cons r rows =>
        have hin : r ∈ t.rows := hrows ▸ List.mem_cons_self
        exact .inr ((relabelRow_eq_iff (t.width r hin)).mp (List.map_eq_map_iff.mp h.objects r hin))
  · intro h
    refine ⟨List.map_congr_left fun r hr => ?_, readCsv_renderCsv t⟩
    exact (relabelRow_eq_iff (t.width r hr)).mpr (h.resolve_left (List.ne_nil_of_mem hr))

/-- The number and the creation time of a ticket. -/
def numberedRow : List Json := [.string "T-1", .string "2026-01-05"]

theorem width_numberedRow : ∀ r ∈ [numberedRow], r.length = 2 := List.forall_mem_singleton.mpr rfl

/-- A report with the number before the creation time. -/
def numbered : ResultSet where
  columns := [("ticket_number", "Number"), ("created_at", "Created")]
  declared := List.cons_ne_nil _ _
  rows := [numberedRow]
  width := width_numberedRow

/-- Its object begins with the creation time. -/
theorem not_delivers_numbered : ¬Delivers numbered := by
  intro h
  have hdelivered : numbered.delivered =
      [.object [("Created", .string "2026-01-05"), ("Number", .string "T-1")]] := rfl
  have hexpected : (numbered.rows.map fun r => Json.object (numbered.headers.zip r)) =
      [.object [("Number", .string "T-1"), ("Created", .string "2026-01-05")]] := rfl
  have hobjects := h.objects
  rw [hdelivered, hexpected] at hobjects
  simp at hobjects

end Mokosh.SavedReports
