import Mokosh.SavedReports.Compiler

/-! # What the text of a report depends on

`Shape` is what a report says beside its data: the field keys, whether a filter is a list, and the directions of the
sort.  `Shape.sql` and `Shape.countSql` are the texts for a shape, and `compile_eq` says that these are the texts the
compiler writes.  From there on a text is a matter of its shape: which placeholders it has, and where. -/

namespace Mokosh.SavedReports

open Workflows (Json)
open FreeNames (freeNames)
open Placeholders (indices placeholder)

inductive Direction where
  | asc
  | desc
deriving DecidableEq, Repr

structure Shape where
  fields : List String
  /-- The field of a filter, and whether its value is a list. -/
  filters : List (String × Bool)
  sort : List (String × Direction)

/-! ### The shape of a report -/

def entryField : Json → String
  | .string s => s
  | .object o => (Json.getStr o "field").getD ""
  | _ => ""

def selectedFields (columns : Json) : List String :=
  match columns.asArray with
  | none | some [] => defaultTicketColumns.map Prod.fst
  | some entries => entries.map entryField

def filterShape (filters : Json) : List (String × Bool) :=
  (filters.asObject.getD []).map fun f => (f.1, f.2.asArray.isSome)

def sortKey (toLowercase : String → String) (entry : Json) : String × Direction :=
  let obj := entry.asObject.getD []
  ((Json.getStr obj "field").getD "",
    if toLowercase ((Json.getStr obj "dir").getD "asc") = "desc" then .desc else .asc)

def shape (toLowercase : String → String) (filters columns sort : Json) : Shape where
  fields := selectedFields columns
  filters := filterShape filters
  sort := (sort.asArray.getD []).map (sortKey toLowercase)

/-! ### The texts of a shape -/

def columnSql (field : String) : String := ((ticketColumn field).map TicketColumn.sql).getD ""

def selectFragments : List String → List String → List String
  | [], _ => []
  | field :: fields, outputs =>
    let key := uniqueOutputKey outputs field
    (columnSql field ++ " AS \"" ++ key ++ "\"") :: selectFragments fields (outputs ++ [key])

/-- A filter compares a column with its placeholder. -/
def clause (idx : ℕ) (filter : String × Bool) : String :=
  match ticketColumn filter.1 with
  | none => ""
  | some col =>
    if filter.2 then s!"{col.sql} = ANY(${idx}::{elementCast col.ty}[])" else s!"{col.sql} = ${idx}"

def clauses : ℕ → List (String × Bool) → List String
  | _, [] => []
  | idx, filter :: filters => clause idx filter :: clauses (idx + 1) filters

def Direction.sql : Direction → String
  | asc => "ASC"
  | desc => "DESC"

def orderBy (sort : List (String × Direction)) : String :=
  match sort with
  | [] => "ORDER BY t.updated_at DESC"
  | _ => "ORDER BY " ++ ", ".intercalate (sort.map fun key => s!"{columnSql key.1} {key.2.sql}")

namespace Shape

variable (s : Shape)

def columns : List String := freeNames (fun field n => s!"{field}_{n}") s.fields []

def conjuncts : List String := "t.tenant_id = $1" :: clauses 2 s.filters

def whereClause : String := " AND ".intercalate s.conjuncts

def countSql : String := s!"SELECT COUNT(*)::bigint {ticketsJoinTree} WHERE {s.whereClause}"

def sql : String :=
  let selectClause := ", ".intercalate (selectFragments s.fields [])
  let limitIdx := s.filters.length + 2
  let offsetIdx := s.filters.length + 3
  s!"SELECT {selectClause} {ticketsJoinTree} WHERE {s.whereClause} {orderBy s.sort} " ++
    s!"LIMIT ${limitIdx} OFFSET ${offsetIdx}"

end Shape

/-! ### The compiler writes the texts of the shape -/

theorem parseEntry_field {idx : ℕ} {entry : Json} {spec : String × String} (h : parseEntry idx entry = .ok spec) :
    spec.1 = entryField entry := by
  unfold parseEntry at h
  split at h
  · cases h
    rfl
  · split at h
    · cases h
    · next hfield =>
        cases h
        rw [entryField, hfield]
        rfl
  · cases h

theorem parseEntries_fields {idx : ℕ} {entries : List Json} {specs : List (String × String)}
    (h : parseEntries idx entries = .ok specs) : specs.map Prod.fst = entries.map entryField := by
  induction entries generalizing idx specs with
  | nil =>
      cases h
      rfl
  | cons entry entries ih =>
      obtain ⟨spec, hspec, h⟩ := bind_eq_ok.mp h
      dsimp only at h
      split at h
      · cases h
      · split at h
        · cases h
        · obtain ⟨out, hout, h⟩ := bind_eq_ok.mp h
          cases h
          rw [List.map_cons, List.map_cons, ih hout, ← parseEntry_field hspec]

theorem parseColumns_fields {columns : Json} {specs : List (String × String)} (h : parseColumns columns = .ok specs) :
    specs.map Prod.fst = selectedFields columns := by
  unfold parseColumns at h
  unfold selectedFields
  cases harr : columns.asArray with
  | none =>
      rw [harr] at h
      cases h
  | some entries =>
      rw [harr] at h
      cases entries with
      | nil =>
          cases h
          rfl
      | cons entry entries => exact parseEntries_fields h

theorem selectColumns_eq {specs : List (String × String)} {fragments outputs fragments' outputs' : List String}
    (h : selectColumns specs fragments outputs = .ok (fragments', outputs')) :
    fragments' = fragments ++ selectFragments (specs.map Prod.fst) outputs ∧
      outputs' = freeNames (fun field n => s!"{field}_{n}") (specs.map Prod.fst) outputs ∧
      ∀ spec ∈ specs, (ticketColumn spec.1).isSome = true := by
  induction specs generalizing fragments outputs with
  | nil =>
      cases h
      exact ⟨(List.append_nil _).symm, rfl, List.forall_mem_nil _⟩
  | cons spec specs ih =>
      unfold selectColumns at h
      split at h
      · cases h
      · next col hcol =>
          obtain ⟨hfragments, houtputs, hall⟩ := ih h
          refine ⟨?_, houtputs, List.forall_mem_cons.mpr ⟨by rw [hcol]; rfl, hall⟩⟩
          rw [hfragments, List.append_assoc]
          simp [selectFragments, columnSql, hcol]

section

variable {parseStr : String → Except String Uuid}

theorem compileFilter_eq {field : String} {col : TicketColumn} {value : Json} {idx : ℕ} {text : String}
    {extra : List BindValue} (hcol : ticketColumn field = some col)
    (h : compileFilter parseStr field col value idx = .ok (text, extra)) :
    text = clause idx (field, value.asArray.isSome) ∧ extra.length = 1 := by
  unfold compileFilter at h
  unfold clause
  rw [hcol]
  cases harr : value.asArray with
  | none =>
      rw [harr] at h
      obtain ⟨bind, -, h⟩ := bind_eq_ok.mp h
      cases h
      exact ⟨rfl, rfl⟩
  | some arr =>
      rw [harr] at h
      cases arr with
      | nil => cases h
      | cons v arr =>
          obtain ⟨bind, -, h⟩ := bind_eq_ok.mp h
          cases h
          exact ⟨rfl, rfl⟩

theorem compileFilters_eq {filters : List (String × Json)} {texts texts' : List String} {binds binds' : List BindValue}
    (h : compileFilters parseStr filters texts binds = .ok (texts', binds')) :
    texts' = texts ++ clauses (binds.length + 1) (filters.map fun f => (f.1, f.2.asArray.isSome)) ∧
      (∃ more, binds' = binds ++ more ∧ more.length = filters.length) ∧
      ∀ f ∈ filters, (ticketColumn f.1).isSome = true := by
  induction filters generalizing texts binds with
  | nil =>
      cases h
      exact ⟨(List.append_nil _).symm, ⟨[], (List.append_nil _).symm, rfl⟩, List.forall_mem_nil _⟩
  | cons f filters ih =>
      unfold compileFilters at h
      split at h
      · cases h
      · next col hcol =>
          obtain ⟨⟨text, extra⟩, hfilter, h⟩ := bind_eq_ok.mp h
          obtain ⟨rfl, hextra⟩ := compileFilter_eq hcol hfilter
          obtain ⟨htexts, ⟨more, hbinds, hmore⟩, hall⟩ := ih h
          refine ⟨?_, ⟨extra ++ more, ?_, ?_⟩, List.forall_mem_cons.mpr ⟨by rw [hcol]; rfl, hall⟩⟩
          · rw [htexts, List.append_assoc, List.length_append, hextra]
            rfl
          · rw [hbinds, List.append_assoc]
          · rw [List.length_append, hextra, hmore, List.length_cons, Nat.add_comm]

end

section

variable {toLowercase : String → String}

theorem dirSql_eq {idx : ℕ} {dir text : String} (h : dirSql idx dir = .ok text) :
    text = Direction.sql (if dir = "desc" then .desc else .asc) := by
  unfold dirSql at h
  split at h
  · cases h
    rfl
  · cases h
    rfl
  · cases h

theorem sortPart_eq {idx : ℕ} {entry : Json} {part : String} (h : sortPart toLowercase idx entry = .ok part) :
    part = s!"{columnSql (sortKey toLowercase entry).1} {(sortKey toLowercase entry).2.sql}" := by
  unfold sortPart at h
  split at h
  · cases h
  · next obj hobj =>
      split at h
      · cases h
      · next field hfield =>
          split at h
          · cases h
          · next col hcol =>
              have hsql : columnSql field = col.sql := by
                rw [columnSql, hcol]
                rfl
              obtain ⟨dir, hdir, h⟩ := bind_eq_ok.mp h
              cases h
              rw [sortKey, hobj, Option.getD_some, hfield, Option.getD_some, hsql, dirSql_eq hdir]

theorem sortParts_eq {idx : ℕ} {entries : List Json} {parts : List String}
    (h : sortParts toLowercase idx entries = .ok parts) :
    parts = (entries.map (sortKey toLowercase)).map fun key => s!"{columnSql key.1} {key.2.sql}" := by
  induction entries generalizing idx parts with
  | nil =>
      cases h
      rfl
  | cons entry entries ih =>
      obtain ⟨part, hpart, h⟩ := bind_eq_ok.mp h
      obtain ⟨parts, hparts, h⟩ := bind_eq_ok.mp h
      cases h
      rw [ih hparts, sortPart_eq hpart]
      rfl

theorem parseSort_eq {sort : Json} {text : String} (h : parseSort toLowercase sort = .ok text) :
    text = orderBy ((sort.asArray.getD []).map (sortKey toLowercase)) := by
  unfold parseSort at h
  cases harr : sort.asArray with
  | none =>
      rw [harr] at h
      cases h
      rfl
  | some entries =>
      rw [harr] at h
      cases entries with
      | nil =>
          cases h
          rfl
      | cons entry entries =>
          obtain ⟨parts, hparts, h⟩ := bind_eq_ok.mp h
          cases h
          rw [sortParts_eq hparts]
          rfl

end

/-- The fields of a shape are in the whitelist. -/
structure Shape.Whitelisted (s : Shape) : Prop where
  fields : ∀ field ∈ s.fields, (ticketColumn field).isSome = true
  filters : ∀ filter ∈ s.filters, (ticketColumn filter.1).isSome = true

/-- What a query has of the shape of its report, and of its tenant and its page. -/
structure Compiled (s : Shape) (tenantId : Uuid) (limit offset : ℕ) (q : CompiledQuery) : Prop where
  sql : q.sql = s.sql
  countSql : q.countSql = s.countSql
  columns : q.columns = s.columns
  binds : q.binds = q.countBinds ++ [.int limit, .int offset]
  countBinds : ∃ values, q.countBinds = .uuid tenantId :: values ∧ values.length = s.filters.length
  whitelisted : s.Whitelisted

theorem compile_eq {parseStr : String → Except String Uuid} {toLowercase : String → String} {tenantId : Uuid}
    {entityType : String} {filters columns sort : Json} {limit offset : ℕ} {q : CompiledQuery}
    (h : compile parseStr toLowercase tenantId entityType filters columns sort limit offset = .ok q) :
    Compiled (shape toLowercase filters columns sort) tenantId limit offset q := by
  unfold compile at h
  split at h
  · obtain ⟨specs, hspecs, h⟩ := bind_eq_ok.mp h
    obtain ⟨⟨fragments, outputs⟩, hselect, h⟩ := bind_eq_ok.mp h
    obtain ⟨⟨texts, binds⟩, hfilters, h⟩ := bind_eq_ok.mp h
    obtain ⟨order, hsort, h⟩ := bind_eq_ok.mp h
    cases h
    obtain ⟨rfl, rfl, hselected⟩ := selectColumns_eq hselect
    obtain ⟨rfl, ⟨values, rfl, hlen⟩, hall⟩ := compileFilters_eq hfilters
    obtain rfl := parseSort_eq hsort
    have hlen : values.length = (filterShape filters).length := by rw [hlen, filterShape, List.length_map]
    have hfields := parseColumns_fields hspecs
    refine ⟨?_, rfl, ?_, rfl, ⟨values, rfl, hlen⟩, ?_, ?_⟩
    · dsimp only [Shape.sql, shape]
      rw [hfields, List.length_append, hlen, List.nil_append, List.length_singleton,
        Nat.add_comm 1 (filterShape filters).length]
      rfl
    · dsimp only [Shape.columns, shape]
      rw [hfields]
    · intro field hfield
      rw [show (shape toLowercase filters columns sort).fields = specs.map Prod.fst from hfields.symm] at hfield
      obtain ⟨spec, hspec, rfl⟩ := List.mem_map.mp hfield
      exact hselected spec hspec
    · intro filter hfilter
      obtain ⟨f, hf, rfl⟩ := List.mem_map.mp hfilter
      exact hall f hf
  · cases h

/-! ### Placeholders of a shape -/

theorem mem_ticketColumns {field : String} {col : TicketColumn} (h : ticketColumn field = some col) :
    (field, col) ∈ ticketColumns := by
  obtain ⟨before, after, heq, -⟩ := List.lookup_eq_some_iff.mp h
  rw [heq]
  exact List.mem_append_right _ List.mem_cons_self

theorem notMem_ofList {c : Char} {text : List Char} (h : c ∉ text) : c ∉ (String.ofList text).toList := by
  rw [String.toList_ofList]
  exact h

/-- No column has a dollar sign in its key or in its expression. -/
theorem notMem_ticketColumns : ∀ c ∈ ticketColumns, '$' ∉ c.1.toList ∧ '$' ∉ c.2.sql.toList := by
  unfold ticketColumns
  repeat refine List.forall_mem_cons.mpr ⟨⟨notMem_ofList (by decide), notMem_ofList (by decide)⟩, ?_⟩
  exact List.forall_mem_nil _

theorem notMem_columnSql (field : String) : '$' ∉ (columnSql field).toList := by
  unfold columnSql
  cases hcol : ticketColumn field with
  | none => decide
  | some col => exact (notMem_ticketColumns _ (mem_ticketColumns hcol)).2

theorem notMem_ticketsJoinTree : '$' ∉ ticketsJoinTree.toList := by
  unfold ticketsJoinTree
  simp only [String.toList_append, List.mem_append, not_or]
  refine ⟨⟨⟨⟨⟨⟨⟨⟨⟨⟨?_, ?_⟩, ?_⟩, ?_⟩, ?_⟩, ?_⟩, ?_⟩, ?_⟩, ?_⟩, ?_⟩, ?_⟩
  all_goals exact notMem_ofList (by decide)

theorem toString_string (s : String) : toString s = s := rfl

theorem notMem_toDigits (n : ℕ) : '$' ∉ Nat.toDigits 10 n := fun h =>
  absurd (Placeholders.isDigit_of_mem_toDigits h) (by decide)

theorem notMem_uniqueOutputKey {field : String} (h : (ticketColumn field).isSome = true) (taken : List String) :
    '$' ∉ (uniqueOutputKey taken field).toList := by
  obtain ⟨col, hcol⟩ := Option.isSome_iff_exists.mp h
  have hfield := (notMem_ticketColumns _ (mem_ticketColumns hcol)).1
  unfold uniqueOutputKey
  rcases FreeNames.freeName_eq (fun n => s!"{field}_{n}") taken field with heq | ⟨n, heq⟩
  · rw [heq]
    exact hfield
  · rw [heq]
    simp [toString_string, hfield, notMem_toDigits]

theorem notMem_intercalate {sep : String} (hsep : '$' ∉ sep.toList) {texts : List String}
    (h : ∀ t ∈ texts, '$' ∉ t.toList) : '$' ∉ (sep.intercalate texts).toList := by
  rw [String.toList_intercalate]
  induction texts with
  | nil => exact List.not_mem_nil
  | cons t texts ih =>
      obtain ⟨ht, htexts⟩ := List.forall_mem_cons.mp h
      cases texts with
      | nil => simpa using ht
      | cons t' texts =>
          rw [List.map_cons, List.map_cons, List.intercalate_cons_cons, List.mem_append, List.mem_append,
            not_or, not_or]
          exact ⟨⟨ht, hsep⟩, ih htexts⟩

theorem notMem_selectFragments {fields : List String} (h : ∀ field ∈ fields, (ticketColumn field).isSome = true)
    (outputs : List String) : ∀ t ∈ selectFragments fields outputs, '$' ∉ t.toList := by
  induction fields generalizing outputs with
  | nil => exact List.forall_mem_nil _
  | cons field fields ih =>
      obtain ⟨hfield, hfields⟩ := List.forall_mem_cons.mp h
      refine List.forall_mem_cons.mpr ⟨?_, ih hfields _⟩
      simp [notMem_columnSql, notMem_uniqueOutputKey hfield]

theorem notMem_orderBy (sort : List (String × Direction)) : '$' ∉ (orderBy sort).toList := by
  unfold orderBy
  split
  · decide
  · rw [String.toList_append, List.mem_append, not_or]
    refine ⟨by decide, notMem_intercalate (by decide) fun t ht => ?_⟩
    obtain ⟨⟨field, dir⟩, -, rfl⟩ := List.mem_map.mp ht
    cases dir
    · simp [toString_string, notMem_columnSql, Direction.sql]
    · simp [toString_string, notMem_columnSql, Direction.sql]

/-- A text with one placeholder, where no digit goes on behind it. -/
theorem indices_around {before after : List Char} (hbefore : '$' ∉ before) (hafter : '$' ∉ after)
    (hhead : ∀ c, after.head? = some c → c.isDigit = false) (idx : ℕ) :
    indices (before ++ (placeholder idx ++ after)) = [idx] := by
  rw [Placeholders.indices_append_of_notMem hbefore, Placeholders.indices_append hhead,
    Placeholders.indices_placeholder, Placeholders.indices_of_notMem hafter]
  rfl

theorem indices_clause {filter : String × Bool} (h : (ticketColumn filter.1).isSome = true) (idx : ℕ) :
    indices (clause idx filter).toList = [idx] := by
  obtain ⟨col, hcol⟩ := Option.isSome_iff_exists.mp h
  have hsql := (notMem_ticketColumns _ (mem_ticketColumns hcol)).2
  unfold clause
  rw [hcol]
  dsimp only
  split
  · have htext : (s!"{col.sql} = ANY(${idx}::{elementCast col.ty}[])").toList =
        (col.sql ++ " = ANY(").toList ++ (placeholder idx ++ ("::" ++ elementCast col.ty ++ "[])").toList) := by
      simp [toString_string, placeholder]
    rw [htext]
    refine indices_around (by simp [hsql]) ?_ (fun c hc => ?_) idx
    · cases col.ty <;> decide
    · rw [String.toList_append, String.toList_append] at hc
      exact Option.some.inj hc ▸ (by decide)
  · have htext : (s!"{col.sql} = ${idx}").toList = (col.sql ++ " = ").toList ++ (placeholder idx ++ []) := by
      simp [toString_string, placeholder]
    rw [htext]
    exact indices_around (by simp [hsql]) List.not_mem_nil (fun c hc => by cases hc) idx

theorem indices_clauses {filters : List (String × Bool)} (h : ∀ filter ∈ filters, (ticketColumn filter.1).isSome = true)
    (idx : ℕ) :
    (clauses idx filters).flatMap (fun t => indices t.toList) = List.range' idx filters.length := by
  induction filters generalizing idx with
  | nil => rfl
  | cons filter filters ih =>
      obtain ⟨hfilter, hfilters⟩ := List.forall_mem_cons.mp h
      rw [clauses, List.flatMap_cons, indices_clause hfilter, ih hfilters]
      rfl

theorem mem_clauses {filters : List (String × Bool)} (h : ∀ filter ∈ filters, (ticketColumn filter.1).isSome = true)
    {idx : ℕ} : ∀ c ∈ clauses idx filters,
      ∃ idx field list, (ticketColumn field).isSome = true ∧ c = clause idx (field, list) := by
  induction filters generalizing idx with
  | nil => exact List.forall_mem_nil _
  | cons filter filters ih =>
      obtain ⟨hfilter, hfilters⟩ := List.forall_mem_cons.mp h
      exact List.forall_mem_cons.mpr ⟨⟨idx, filter.1, filter.2, hfilter, rfl⟩, ih hfilters⟩

theorem indices_whereClause {s : Shape} (h : s.Whitelisted) :
    indices s.whereClause.toList = List.range' 1 (s.filters.length + 1) := by
  have hsep : (" AND ").toList = ' ' :: "AND ".toList := rfl
  unfold Shape.whereClause Shape.conjuncts
  rw [String.toList_intercalate, hsep, Placeholders.indices_intercalate (by decide) (by decide), List.flatMap_map,
    List.flatMap_cons, indices_clauses h.filters]
  rfl

theorem indices_countSql {s : Shape} (h : s.Whitelisted) :
    indices s.countSql.toList = List.range' 1 (s.filters.length + 1) := by
  have htext : s.countSql = "SELECT COUNT(*)::bigint " ++ ticketsJoinTree ++ " WHERE " ++ s.whereClause := rfl
  have hselect : '$' ∉ ("SELECT COUNT(*)::bigint " ++ ticketsJoinTree ++ " WHERE ").toList := by
    simp only [String.toList_append, List.mem_append, not_or]
    exact ⟨⟨by decide, notMem_ticketsJoinTree⟩, by decide⟩
  rw [htext, String.toList_append, Placeholders.indices_append_of_notMem hselect, indices_whereClause h]

/-- A literal that ends with a dollar sign, a number, and what follows. -/
theorem indices_numbered {lit : String} {before : List Char} (hlit : lit.toList = before ++ ['$'])
    (hbefore : '$' ∉ before) {rest : List Char} (hrest : ∀ c, rest.head? = some c → c.isDigit = false) (n : ℕ) :
    indices (lit.toList ++ ((toString n).toList ++ rest)) = n :: indices rest := by
  have hplace : lit.toList ++ ((toString n).toList ++ rest) = before ++ (placeholder n ++ rest) := by
    rw [hlit, Nat.toString_eq_repr, Nat.toList_repr, List.append_assoc]
    rfl
  rw [hplace, Placeholders.indices_append_of_notMem hbefore, Placeholders.indices_append hrest,
    Placeholders.indices_placeholder]
  rfl

theorem Shape.sql_eq (s : Shape) : s.sql =
    ("SELECT " ++ ", ".intercalate (selectFragments s.fields []) ++ " " ++ ticketsJoinTree ++ " WHERE ") ++
      (s.whereClause ++ (" " ++ orderBy s.sort ++ " " ++ ("LIMIT $" ++ (toString (s.filters.length + 2) ++
        (" OFFSET $" ++ toString (s.filters.length + 3)))))) := by
  unfold Shape.sql
  generalize ticketsJoinTree = join
  simp only [toString_string, String.append_assoc]

theorem indices_sql {s : Shape} (h : s.Whitelisted) :
    indices s.sql.toList = List.range' 1 (s.filters.length + 3) := by
  have hselect : '$' ∉
      ("SELECT " ++ ", ".intercalate (selectFragments s.fields []) ++ " " ++ ticketsJoinTree ++ " WHERE ").toList := by
    simp only [String.toList_append, List.mem_append, not_or]
    exact ⟨⟨⟨⟨by decide, notMem_intercalate (by decide) (notMem_selectFragments h.fields [])⟩, by decide⟩,
      notMem_ticketsJoinTree⟩, by decide⟩
  have horder : '$' ∉ (" " ++ orderBy s.sort ++ " ").toList := by
    simp only [String.toList_append, List.mem_append, not_or]
    exact ⟨⟨by decide, notMem_orderBy s.sort⟩, by decide⟩
  have hblank : ∀ {rest : List Char} c, ((" " ++ orderBy s.sort ++ " ").toList ++ rest).head? = some c →
      c.isDigit = false := fun c hc => by
    rw [String.toList_append, String.toList_append] at hc
    exact Option.some.inj hc ▸ by decide
  have hlimit : ∀ {rest : List Char}, (∀ c, rest.head? = some c → c.isDigit = false) → ∀ n : ℕ,
      indices ("LIMIT $".toList ++ ((toString n).toList ++ rest)) = n :: indices rest :=
    indices_numbered (show "LIMIT $".toList = "LIMIT ".toList ++ ['$'] from rfl) (by decide)
  have hoffset : ∀ n : ℕ, indices (" OFFSET $".toList ++ ((toString n).toList ++ [])) = [n] :=
    indices_numbered (show " OFFSET $".toList = " OFFSET ".toList ++ ['$'] from rfl) (by decide)
      (fun c hc => by cases hc)
  have hspace : ∀ {rest : List Char} c, (" OFFSET $".toList ++ rest).head? = some c → c.isDigit = false :=
    fun c hc => Option.some.inj hc ▸ by decide
  rw [s.sql_eq, String.toList_append, Placeholders.indices_append_of_notMem hselect, String.toList_append,
    String.toList_append, Placeholders.indices_append hblank, indices_whereClause h,
    Placeholders.indices_append_of_notMem horder, String.toList_append, String.toList_append, String.toList_append,
    hlimit hspace, ← List.append_nil (toString (s.filters.length + 3)).toList, hoffset]
  have hpage : List.range' (1 + (s.filters.length + 1)) 2 = [s.filters.length + 2, s.filters.length + 3] := by
    rw [Nat.add_comm 1]
    rfl
  rw [← hpage]
  exact List.range'_append_1

/-- Behind the `WHERE` clause is the order, with the page. -/
theorem Shape.exists_sql_eq (s : Shape) : ∃ order : String, s.sql =
    "SELECT " ++ ", ".intercalate (selectFragments s.fields []) ++ " " ++ ticketsJoinTree ++ " WHERE " ++
      s.whereClause ++ " " ++ order := by
  refine ⟨orderBy s.sort ++ " " ++ ("LIMIT $" ++ (toString (s.filters.length + 2) ++
    (" OFFSET $" ++ toString (s.filters.length + 3)))), ?_⟩
  simp only [s.sql_eq, String.append_assoc]

/-! ### Output names -/

theorem numbered_injective (field : String) : Function.Injective fun n : ℕ => s!"{field}_{n}" := by
  intro n m heq
  have hdigits : Nat.toDigits 10 n = Nat.toDigits 10 m := by
    simpa [toString_string] using congrArg String.toList heq
  rw [← Nat.ofDigitChars_ten_toDigits (n := n), hdigits, Nat.ofDigitChars_ten_toDigits]

theorem nodup_columns (s : Shape) : s.columns.Nodup :=
  FreeNames.nodup_freeNames numbered_injective List.nodup_nil s.fields

/-! ### Data and text -/

section

variable {parseStr : String → Except String Uuid} {toLowercase : String → String} {tenantId : Uuid}
variable {entityType : String} {filters columns sort : Json} {limit offset : ℕ} {q : CompiledQuery}

/-- **The compiler keeps data out of the text.**  Reports of one shape have one text; the placeholders of a text are
those of its values, each once; the first one is the tenant, in a conjunct of the `WHERE` clause, which is the same in
both texts; and no two columns have the same name. -/
theorem compile_keeps_data_out
    (h : compile parseStr toLowercase tenantId entityType filters columns sort limit offset = .ok q) :
    (∀ {tenantId' entityType' filters' columns' sort' limit' offset' q'},
      compile parseStr toLowercase tenantId' entityType' filters' columns' sort' limit' offset' = .ok q' →
      shape toLowercase filters' columns' sort' = shape toLowercase filters columns sort →
      q'.sql = q.sql ∧ q'.countSql = q.countSql) ∧
    indices q.sql.toList = List.range' 1 q.binds.length ∧
    indices q.countSql.toList = List.range' 1 q.countBinds.length ∧
    q.countBinds.head? = some (.uuid tenantId) ∧ q.binds = q.countBinds ++ [.int limit, .int offset] ∧
    (∃ (select whereClause order : String) (comparisons : List String),
      whereClause = " AND ".intercalate ("t.tenant_id = $1" :: comparisons) ∧
      (∀ c ∈ comparisons, ∃ idx field list, (ticketColumn field).isSome = true ∧ c = clause idx (field, list)) ∧
      q.sql = s!"SELECT {select} {ticketsJoinTree} WHERE {whereClause} {order}" ∧
      q.countSql = s!"SELECT COUNT(*)::bigint {ticketsJoinTree} WHERE {whereClause}") ∧
    q.columns.Nodup := by
  have hq := compile_eq h
  obtain ⟨values, hbinds, hlen⟩ := hq.countBinds
  have hcount : q.countBinds.length = (shape toLowercase filters columns sort).filters.length + 1 := by
    rw [hbinds, List.length_cons, hlen]
  refine ⟨fun h' hshape => ?_, ?_, ?_, by rw [hbinds]; rfl, hq.binds, ?_, hq.columns ▸ nodup_columns _⟩
  · have hq' := compile_eq h'
    rw [hshape] at hq'
    exact ⟨hq'.sql.trans hq.sql.symm, hq'.countSql.trans hq.countSql.symm⟩
  · rw [hq.sql, indices_sql hq.whitelisted, hq.binds, List.length_append, hcount]
    rfl
  · rw [hq.countSql, indices_countSql hq.whitelisted, hcount]
  · obtain ⟨order, hsql⟩ := Shape.exists_sql_eq (shape toLowercase filters columns sort)
    exact ⟨_, _, order, _, rfl, mem_clauses hq.whitelisted.filters, hq.sql.trans hsql, hq.countSql⟩

end

namespace Example

def parseStr (s : String) : Except String Uuid := if s = "5" then .ok 5 else .error "invalid length"

def filters : Json := .object [("source", .string "email"), ("status_id", .array [.string "5"])]

def columns : Json :=
  .array [.string "title", .object [("field", .string "title"), ("header", .string "1 AS b")]]

def sort : Json := .array [.object [("dir", .string "desc"), ("field", .string "created_at")]]

/-- Tickets from e-mail with a status, with a header that would be SQL. -/
theorem indices_report : ∃ q, compile parseStr id 7 "tickets" filters columns sort 50 0 = .ok q ∧
    indices q.sql.toList = List.range' 1 q.binds.length ∧ q.columns.Nodup := by
  have h : ∃ q, compile parseStr id 7 "tickets" filters columns sort 50 0 = .ok q := ⟨_, rfl⟩
  obtain ⟨q, hq⟩ := h
  exact ⟨q, hq, (compile_keeps_data_out hq).2.1, (compile_keeps_data_out hq).2.2.2.2.2.2⟩

end Example

end Mokosh.SavedReports
