import Mokosh.SavedReports.Shape

/-! # Scalar and list filters

What the two forms of a filter come to in the database: `column = $n`, which compares the column with a parameter of the
type it is sent with, and `column = ANY($n::type[])`, which casts the parameter first.

There is no operator that compares a `timestamptz` with a `text`, and `coerce_bind_scalar` sends a time stamp as text.
**`agree_iff`** says that this is the only difference: a value and the list of this value select the same rows if and
only if the column is no time stamp. -/

namespace Mokosh.SavedReports

open Workflows (Json)

/-! ### Types and values of the database -/

inductive SqlType where
  | uuid
  | text
  | bigint
  | boolean
  | timestamptz
deriving DecidableEq, Repr

def SqlType.name : SqlType → String
  | uuid => "uuid"
  | text => "text"
  | bigint => "bigint"
  | boolean => "boolean"
  | timestamptz => "timestamptz"

inductive SqlValue where
  | uuid (u : Uuid)
  | text (s : String)
  | bigint (i : ℤ)
  | boolean (b : Bool)
  | timestamptz (t : ℤ)
deriving DecidableEq, Repr

/-- The type of a column in the database. -/
def ColumnType.sqlType : ColumnType → SqlType
  | uuid => .uuid
  | text => .text
  | int => .bigint
  | bool => .boolean
  | timestamp => .timestamptz

/-- `bind_one_scalar`: the type a value is sent with, and whether it is an array. -/
def BindValue.paramType : BindValue → SqlType × Bool
  | uuid _ => (.uuid, false)
  | uuidList _ => (.uuid, true)
  | text _ => (.text, false)
  | textList _ => (.text, true)
  | int _ => (.bigint, false)
  | bool _ => (.boolean, false)

def BindValue.values : BindValue → List SqlValue
  | uuid u => [.uuid u]
  | uuidList us => us.map .uuid
  | text s => [.text s]
  | textList ss => ss.map .text
  | int i => [.bigint i]
  | bool b => [.boolean b]

/-- The explicit casts there are, of a type to itself and of text to a time stamp. -/
def SqlType.castable (a b : SqlType) : Bool := a = b ∨ a = text ∧ b = timestamptz

/-- Whether the conjunct for a filter of a column is well typed. -/
def conjunctTyped (ty : ColumnType) (list : Bool) (bind : BindValue) : Bool :=
  if list then bind.paramType.2 && bind.paramType.1.castable ty.sqlType else bind.paramType = (ty.sqlType, false)

/-- `a = b`, which is null if one of them is. -/
def sqlEq (a b : Option SqlValue) : Option Bool := a.bind fun x => b.map fun y => decide (x = y)

/-- `a = ANY(values)`. -/
def sqlAny (a : Option SqlValue) (values : List SqlValue) : Option Bool :=
  match a with
  | none => if values = [] then some false else none
  | some x => some (values.any fun y => x = y)

/-! ### Queries -/

/-- A row of the join tree, with its value for each column. -/
structure TicketRow where
  tenantId : Uuid
  cell : String → Option SqlValue

section

/- The time a text names, and what an `ORDER BY` makes of rows. -/
variable (timestampOf : String → Option ℤ) (order : List (String × Direction) → List TicketRow → List TicketRow)

/-- A cast, which fails on a text that names no time. -/
def castValue (target : SqlType) (v : SqlValue) : Option SqlValue :=
  match target, v with
  | .timestamptz, .text s => (timestampOf s).map .timestamptz
  | _, v => some v

/-- A conjunct of the `WHERE` clause on a row, unless a cast fails. -/
def conjunctHolds (row : TicketRow) (filter : String × Bool) (bind : BindValue) : Option Bool := do
  let col ← ticketColumn filter.1
  if filter.2 then
    let values ← bind.values.mapM (castValue timestampOf col.ty.sqlType)
    pure (sqlAny (row.cell filter.1) values = some true)
  else
    let v ← bind.values.head?
    pure (sqlEq (row.cell filter.1) (some v) = some true)

/-- The `WHERE` clause on a row. -/
def whereHolds (s : Shape) (binds : List BindValue) (row : TicketRow) : Option Bool := do
  let conjuncts ← (s.filters.zip binds.tail).mapM fun (filter, bind) => conjunctHolds timestampOf row filter bind
  pure (binds.head? = some (.uuid row.tenantId) ∧ conjuncts.all id)

/-- The page of a query on a table, unless a cast fails. -/
def selected (s : Shape) (q : CompiledQuery) (limit offset : ℕ) (table : List TicketRow) : Option (List TicketRow) := do
  let rows ← table.filterM (whereHolds timestampOf s q.countBinds)
  pure (((order s.sort rows).drop offset).take limit)

/-- Every parameter can be compared with its column, or is cast to its type. -/
def WellTyped (s : Shape) (q : CompiledQuery) : Prop :=
  ∀ p ∈ s.filters.zip q.countBinds.tail, ∀ col, ticketColumn p.1.1 = some col → conjunctTyped col.ty p.1.2 p.2 = true

/-- Two queries are well typed, and select the same rows of every table. -/
structure Agree (s s' : Shape) (q q' : CompiledQuery) (limit offset : ℕ) : Prop where
  typed : WellTyped s q
  typed' : WellTyped s' q'
  rows : ∀ table,
    selected timestampOf order s q limit offset table = selected timestampOf order s' q' limit offset table

end

/-! ### The two forms of a filter -/

section

variable {parseStr : String → Except String Uuid} {toLowercase : String → String}

/-- What is bound for one filter. -/
theorem compile_single {tenantId : Uuid} {entityType field : String} {value columns sort : Json} {limit offset : ℕ}
    {q : CompiledQuery}
    (h : compile parseStr toLowercase tenantId entityType (.object [(field, value)]) columns sort limit
      offset = .ok q) :
    ∃ col text bind, ticketColumn field = some col ∧ compileFilter parseStr field col value 2 = .ok (text, [bind]) ∧
      q.countBinds = [.uuid tenantId, bind] := by
  unfold compile at h
  split at h
  · obtain ⟨specs, -, h⟩ := bind_eq_ok.mp h
    obtain ⟨⟨fragments, outputs⟩, -, h⟩ := bind_eq_ok.mp h
    obtain ⟨⟨texts, binds⟩, hfilters, h⟩ := bind_eq_ok.mp h
    obtain ⟨order, -, h⟩ := bind_eq_ok.mp h
    cases h
    change compileFilters parseStr [(field, value)] _ _ = _ at hfilters
    unfold compileFilters at hfilters
    split at hfilters
    · cases hfilters
    · next col hcol =>
        obtain ⟨⟨text, extra⟩, hfilter, hrest⟩ := bind_eq_ok.mp hfilters
        cases hrest
        obtain ⟨bind, rfl⟩ := List.length_eq_one_iff.mp (compileFilter_eq hcol hfilter).2
        exact ⟨col, text, bind, hcol, hfilter, rfl⟩
  · cases h

/-- A value that is accepted alone and in a list is a string, of an identifier or as it is. -/
theorem binds_of_accepted {field : String} {col : TicketColumn} {value : Json} {idx : ℕ} {text text' : String}
    {bind bind' : BindValue} (h : compileFilter parseStr field col value idx = .ok (text, [bind]))
    (h' : compileFilter parseStr field col (.array [value]) idx = .ok (text', [bind'])) :
    value.asArray = none ∧
      ((∃ u, col.ty = .uuid ∧ bind = .uuid u ∧ bind' = .uuidList [u]) ∨
        ∃ s, (col.ty = .text ∨ col.ty = .timestamp) ∧ bind = .text s ∧ bind' = .textList [s]) := by
  obtain ⟨b', hb', hret'⟩ := bind_eq_ok.mp h'
  cases hret'
  have hstr : ∃ s, value = .string s := by
    cases value with
    | string s => exact ⟨s, rfl⟩
    | _ => cases hty : col.ty <;> rw [hty] at hb' <;> cases hb'
  obtain ⟨s, rfl⟩ := hstr
  obtain ⟨b, hb, hret⟩ := bind_eq_ok.mp h
  cases hret
  refine ⟨rfl, ?_⟩
  cases hty : col.ty with
  | uuid =>
      rw [hty] at hb hb'
      dsimp only [coerceBindScalar] at hb
      dsimp only [coerceBindArray, coerceUuids, Json.asStr] at hb'
      cases hparse : parseStr s with
      | error e =>
          rw [hparse] at hb
          cases hb
      | ok u =>
          rw [hparse] at hb hb'
          cases hb
          cases hb'
          exact .inl ⟨u, rfl, rfl, rfl⟩
  | text =>
      rw [hty] at hb hb'
      cases hb
      cases hb'
      exact .inr ⟨s, .inl rfl, rfl, rfl⟩
  | timestamp =>
      rw [hty] at hb hb'
      cases hb
      cases hb'
      exact .inr ⟨s, .inr rfl, rfl, rfl⟩
  | int =>
      rw [hty] at hb'
      cases hb'
  | bool =>
      rw [hty] at hb'
      cases hb'

end

/-! ### Agreement -/

section

variable {timestampOf : String → Option ℤ} {order : List (String × Direction) → List TicketRow → List TicketRow}

theorem sqlAny_singleton (a : Option SqlValue) (v : SqlValue) : sqlAny a [v] = sqlEq a (some v) := by
  cases a with
  | none => rfl
  | some x => simp [sqlAny, sqlEq]

/-- On a column that is no time stamp, a list of one value is the value. -/
theorem conjunctHolds_list {field : String} {col : TicketColumn} (hcol : ticketColumn field = some col)
    (hty : col.ty ≠ .timestamp) {bind bind' : BindValue} {v : SqlValue} (hv : bind.values = [v])
    (hv' : bind'.values = [v]) (row : TicketRow) :
    conjunctHolds timestampOf row (field, true) bind' = conjunctHolds timestampOf row (field, false) bind := by
  have hcast : castValue timestampOf col.ty.sqlType v = some v := by
    cases hsql : col.ty with
    | timestamp => exact absurd hsql hty
    | _ => rfl
  simp [conjunctHolds, hcol, hv, hv', hcast, sqlAny_singleton]

theorem selected_eq {s s' : Shape} {q q' : CompiledQuery} (hsort : s.sort = s'.sort)
    (h : ∀ row, whereHolds timestampOf s q.countBinds row = whereHolds timestampOf s' q'.countBinds row)
    (limit offset : ℕ) (table : List TicketRow) :
    selected timestampOf order s q limit offset table = selected timestampOf order s' q' limit offset table := by
  unfold selected
  rw [hsort, funext h]

end

section

variable {parseStr : String → Except String Uuid} {toLowercase : String → String} {tenantId : Uuid}
variable {entityType field : String} {value columns sort : Json} {limit offset : ℕ} {q q' : CompiledQuery}

/-- **Scalar and list filters.**  A value and the list of this value agree if and only if the column is no time
stamp. -/
theorem agree_iff
    (h : compile parseStr toLowercase tenantId entityType (.object [(field, value)]) columns sort limit offset = .ok q)
    (h' : compile parseStr toLowercase tenantId entityType (.object [(field, .array [value])]) columns sort limit
      offset = .ok q')
    (timestampOf : String → Option ℤ) (order : List (String × Direction) → List TicketRow → List TicketRow) :
    Agree timestampOf order (shape toLowercase (.object [(field, value)]) columns sort)
      (shape toLowercase (.object [(field, .array [value])]) columns sort) q q' limit offset ↔
      (ticketColumn field).map TicketColumn.ty ≠ some .timestamp := by
  obtain ⟨col, text, bind, hcol, hfilter, hbinds⟩ := compile_single h
  obtain ⟨col', text', bind', hcol', hfilter', hbinds'⟩ := compile_single h'
  obtain rfl := Option.some.inj (hcol.symm.trans hcol')
  obtain ⟨harr, hbound⟩ := binds_of_accepted hfilter hfilter'
  have hshape : (shape toLowercase (.object [(field, value)]) columns sort).filters = [(field, false)] := by
    simp [shape, filterShape, Json.asObject, harr]
  have hshape' : (shape toLowercase (.object [(field, .array [value])]) columns sort).filters = [(field, true)] := rfl
  have htyped : WellTyped (shape toLowercase (.object [(field, value)]) columns sort) q ↔
      conjunctTyped col.ty false bind = true := by
    simp [WellTyped, hshape, hbinds, hcol]
  have htyped' : WellTyped (shape toLowercase (.object [(field, .array [value])]) columns sort) q' ↔
      conjunctTyped col.ty true bind' = true := by
    simp [WellTyped, hshape', hbinds', hcol]
  rw [hcol, Option.map_some, ne_eq, Option.some_inj]
  constructor
  · intro hagree hty
    have hconj := htyped.mp hagree.typed
    rcases hbound with ⟨u, huuid, -, -⟩ | ⟨s, -, rfl, -⟩
    · rw [hty] at huuid
      cases huuid
    · rw [hty] at hconj
      cases hconj
  · intro hty
    have hsort : (shape toLowercase (.object [(field, value)]) columns sort).sort =
        (shape toLowercase (.object [(field, .array [value])]) columns sort).sort := rfl
    have hwhere : ∀ {v : SqlValue}, bind.values = [v] → bind'.values = [v] → ∀ row,
        whereHolds timestampOf (shape toLowercase (.object [(field, value)]) columns sort) q.countBinds row =
          whereHolds timestampOf (shape toLowercase (.object [(field, .array [value])]) columns sort) q'.countBinds
            row := fun hv hv' row => by
      simp [whereHolds, hshape, hshape', hbinds, hbinds', conjunctHolds_list hcol hty hv hv']
    rcases hbound with ⟨u, huuid, rfl, rfl⟩ | ⟨s, htext, rfl, rfl⟩
    · refine ⟨htyped.mpr ?_, htyped'.mpr ?_, fun table => ?_⟩
      · rw [huuid]
        rfl
      · rw [huuid]
        rfl
      · exact selected_eq hsort (hwhere rfl rfl) limit offset table
    · have htext := htext.resolve_right hty
      refine ⟨htyped.mpr ?_, htyped'.mpr ?_, fun table => ?_⟩
      · rw [htext]
        rfl
      · rw [htext]
        rfl
      · exact selected_eq hsort (hwhere rfl rfl) limit offset table

end

namespace Example

/-- The source of a ticket, alone and in a list. -/
theorem agree_source : ∃ q q', Agree (fun _ => none) (fun _ rows => rows)
    (shape id (.object [("source", .string "email")]) (.array []) (.array []))
    (shape id (.object [("source", .array [.string "email"])]) (.array []) (.array [])) q q' 50 0 := by
  have h : ∃ q, compile parseStr id 7 "tickets" (.object [("source", .string "email")]) (.array []) (.array []) 50 0 =
      .ok q := ⟨_, rfl⟩
  have h' : ∃ q, compile parseStr id 7 "tickets" (.object [("source", .array [.string "email"])]) (.array [])
      (.array []) 50 0 = .ok q := ⟨_, rfl⟩
  obtain ⟨q, hq⟩ := h
  obtain ⟨q', hq'⟩ := h'
  exact ⟨q, q', (agree_iff hq hq' (fun _ => none) fun _ rows => rows).mpr (by decide)⟩

/-- A time is accepted alone and in a list, and alone it is compared as text. -/
theorem not_wellTyped_createdAt : ∃ q q',
    compile parseStr id 7 "tickets" (.object [("created_at", .string "2026-01-05T00:00:00Z")]) (.array []) (.array [])
      50 0 = .ok q ∧
    compile parseStr id 7 "tickets" (.object [("created_at", .array [.string "2026-01-05T00:00:00Z"])]) (.array [])
      (.array []) 50 0 = .ok q' ∧
    ¬WellTyped (shape id (.object [("created_at", .string "2026-01-05T00:00:00Z")]) (.array []) (.array [])) q := by
  refine ⟨_, _, rfl, rfl, fun h => ?_⟩
  have htyped := h (("created_at", false), .text "2026-01-05T00:00:00Z") List.mem_cons_self
    ⟨"t.created_at", .timestamp⟩ rfl
  cases htyped

end Example

end Mokosh.SavedReports
