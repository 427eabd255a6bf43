import Mokosh.Lib.Serial
import Mokosh.Quotes.Totals

/-! # Three ways to change a line

A line of a quote is changed by `update_line`, by `delete_line` and then `add_line`, or by an
`update_quote` that sends all lines.  Each of them lists the columns of a line on its own, and then they
share `recompute_totals`.

* `SettlesOn`: an operation leaves these lines, and the header that goes with them.
* `EditsAgree`: the three leave the same lines, up to their ids, and the same figures.
* **`editsAgree_iff`**: they do so exactly when the request leaves the line as taxable as it is: the
  `UPDATE` of `update_line` has no `is_taxable`.
* `replaces_restated_iff` is about the requests for the other lines: a client that sends back what it
  reads restores a line if the stored total is the product of what is stored. -/

namespace Mokosh.Quotes

open ReadCommitted

/-- A quote, with nobody on it. -/
abbrev StoredQuote := Stored Quote QuoteLine

namespace StoredQuote

variable (s : StoredQuote)

/-- The lines but for one. -/
def others (lineId : Uuid) : List QuoteLine := (s.rows.filter fun row => row.1 ≠ lineId).map Prod.snd

/-- What `recompute_totals` makes of the header. -/
def settled : StoredQuote :=
  { s with header := s.header.recomputed s.rows, next := s.next + 4 }

/-- The quote after an `INSERT` of each of `lines`. -/
def insertAll (lines : List QuoteLineRequest) : StoredQuote :=
  lines.foldl (fun s line => s.write (.insert s.next line.row)) s

@[simp] theorem insertAll_header (lines : List QuoteLineRequest) :
    (insertAll s lines).header = s.header := by
  induction lines generalizing s with
  | nil => rfl
  | cons line lines ih => exact ih _

@[simp] theorem insertAll_lines (lines : List QuoteLineRequest) :
    (insertAll s lines).lines = s.lines ++ lines.map QuoteLineRequest.row := by
  induction lines generalizing s with
  | nil => simp [insertAll]
  | cons line lines ih =>
      refine (ih _).trans ?_
      simp [Stored.lines, Stored.write, RowWrite.apply]

end StoredQuote

/-! ### The figures -/

/-- A sum does not depend on the order of the lines. -/
theorem subtotalOf_perm {lines lines' : List QuoteLine} (h : lines.Perm lines') :
    subtotalOf lines = subtotalOf lines' := (h.map _).sum_eq

theorem taxableOf_perm {lines lines' : List QuoteLine} (h : lines.Perm lines') :
    taxableOf lines = taxableOf lines' := subtotalOf_perm (h.filter _)

/-- Neither do the figures. -/
theorem Quote.recomputed_perm (q : Quote) {rows rows' : List (ℕ × QuoteLine)}
    (h : (rows.map Prod.snd).Perm (rows'.map Prod.snd)) : q.recomputed rows = q.recomputed rows' := by
  rw [recomputed, recomputed, subtotalOf_perm h, taxableOf_perm h]

/-- What is summed again replaces what was summed before. -/
theorem Quote.recomputed_recomputed (q : Quote) (rows rows' : List (ℕ × QuoteLine)) :
    (q.recomputed rows).recomputed rows' = q.recomputed rows' := by
  unfold recomputed withTotal withSubtotal
  cases q.taxRate with
  | none => rfl
  | some rate => rfl

/-! ### The parts of the programs -/

section Parts

variable {s : StoredQuote} {k : Txn}

theorem serve_check {result : AppResult Unit} (h : result = .ok ()) :
    (Txn.check result k).serve s = k.serve s := by
  rw [h]
  rfl

theorem serve_insertLines (lines : List QuoteLineRequest) :
    (insertLines lines k).serve s = k.serve (StoredQuote.insertAll s lines) := by
  induction lines generalizing s with
  | nil => rfl
  | cons line lines ih => exact ih

/-- The ids that are not there any more are passed over. -/
theorem serve_deleteRows (ids : List ℕ) :
    (ids.foldr (fun id (k : Txn) => .deleteRow id fun _ => k) k).serve s =
      k.serve { s with
        rows := s.rows.filter fun row => decide (row.1 ∉ ids)
        next := s.next + ids.length } := by
  induction ids generalizing s with
  | nil => simp
  | cons id ids ih =>
      have hfilter : ∀ rows : List (ℕ × QuoteLine),
          (rows.filter fun row => decide (row.1 ≠ id)).filter (fun row => decide (row.1 ∉ ids)) =
            rows.filter fun row => decide (row.1 ∉ id :: ids) := by
        intro rows
        simp [List.filter_filter, Bool.and_comm]
      rw [List.foldr_cons, Program.serve]
      split
      · rw [ih, ← hfilter]
        simp only [Stored.write, Stored.tick, RowWrite.apply, List.length_cons]
        rw [Nat.add_right_comm, Nat.add_assoc]
      · next hnone =>
          -- no row has the id
          have hrows : s.rows.filter (fun row => decide (row.1 ≠ id)) = s.rows := by
            rw [List.filter_eq_self]
            intro row hrow
            have hne := List.lookup_eq_none_iff.mp hnone row hrow
            simpa using fun h : row.1 = id => by simp [h] at hne
          rw [ih, ← hfilter, hrows]
          simp only [Stored.tick, List.length_cons]
          rw [Nat.add_right_comm, Nat.add_assoc]

theorem serve_deleteLines :
    (deleteLines k).serve s = k.serve { s with rows := [], next := s.next + 1 + s.rows.length } := by
  rw [deleteLines, Program.serve, serve_deleteRows]
  have hrows : s.rows.filter (fun row => decide (row.1 ∉ s.ids)) = [] := by
    rw [List.filter_eq_nil_iff]
    intro row hrow
    have hid : row.1 ∈ s.ids := List.mem_map_of_mem hrow
    simpa using hid
  have hlength : s.ids.length = s.rows.length := List.length_map _
  simp only [Stored.tick, hrows, hlength]

end Parts

/-! ### The operations -/

/-- The transaction commits, and leaves `lines` and the header that goes with them. -/
def SettlesOn (s : StoredQuote) (p : Txn) (lines : List QuoteLine) : Prop :=
  ∃ s', p.serve s = some s' ∧ s'.lines.Perm lines ∧ s'.header = s.header.recomputed s'.rows

section Operations

variable {s : StoredQuote} {lineId : Uuid} {old : QuoteLine} {line : QuoteLineRequest}

theorem settlesOn_recomputeTotals {p : Txn} (s' : StoredQuote) {lines : List QuoteLine}
    (h : p.serve s = (recomputeTotals .commit).serve s') (hh : s'.header = s.header)
    (hl : s'.lines.Perm lines) : SettlesOn s p lines := by
  refine ⟨StoredQuote.settled s', h, hl, ?_⟩
  rw [← hh]
  rfl

/-- The line, and the others. -/
theorem rows_perm (hd : s.ids.Nodup) (hl : (lineId, old) ∈ s.rows) :
    s.rows.Perm ((lineId, old) :: s.rows.filter fun row => row.1 ≠ lineId) := by
  obtain ⟨before, after, hrows⟩ := List.append_of_mem hl
  rw [Stored.ids, hrows, List.map_append, List.map_cons, List.nodup_middle, List.nodup_cons,
    ← List.map_append] at hd
  have hne : ∀ row ∈ before ++ after, decide (row.1 ≠ lineId) = true := by
    intro row hrow
    have hmem : row.1 ∈ (before ++ after).map Prod.fst := List.mem_map_of_mem hrow
    exact decide_eq_true fun h => hd.1 (h ▸ hmem)
  have hfilter : (before ++ (lineId, old) :: after).filter (fun row => row.1 ≠ lineId) =
      before ++ after := by
    rw [List.filter_append, List.filter_cons_of_neg (by simp), ← List.filter_append]
    exact List.filter_eq_self.mpr hne
  rw [hrows, hfilter]
  exact List.perm_middle

theorem lookup_eq_some (hd : s.ids.Nodup) (hl : (lineId, old) ∈ s.rows) :
    s.rows.lookup lineId = some old := by
  obtain ⟨before, after, hrows⟩ := List.append_of_mem hl
  refine List.lookup_eq_some_iff.mpr ⟨before, after, hrows, fun row hrow => ?_⟩
  rw [Stored.ids, hrows, List.map_append, List.map_cons, List.nodup_middle, List.nodup_cons] at hd
  have hmem : row.1 ∈ before.map Prod.fst ++ after.map Prod.fst :=
    List.mem_append_left _ (List.mem_map_of_mem hrow)
  simpa using fun h : lineId = row.1 => hd.1 (h ▸ hmem)

theorem assertContentEditable_eq_ok {status : QuoteStatus} (h : status.allowsContentEdit = true) :
    assertContentEditable status = .ok () := if_pos h

theorem settlesOn_updateLine (line : QuoteLineRequest)
    (hs : s.header.status.allowsContentEdit = true) (hd : s.ids.Nodup) (hl : (lineId, old) ∈ s.rows) :
    SettlesOn s (updateLine lineId line) (line.overwrite old :: StoredQuote.others s lineId) := by
  refine settlesOn_recomputeTotals (s.tick.write (.update lineId (line.overwrite old))) ?_ rfl ?_
  · rw [updateLine, statusOf, Program.serve, serve_check (assertContentEditable_eq_ok hs), Program.serve]
    simp only [Stored.tick, lookup_eq_some hd hl]
    rfl
  · have hothers : ∀ row ∈ s.rows.filter (fun row => decide (row.1 ≠ lineId)),
        (if row.1 = lineId then (lineId, line.overwrite old) else row) = row := by
      intro row hrow
      exact if_neg (of_decide_eq_true (List.mem_filter.mp hrow).2)
    have hperm := (rows_perm hd hl).map fun row =>
      if row.1 = lineId then (lineId, line.overwrite old) else row
    rw [List.map_cons, if_pos rfl, List.map_congr_left hothers, List.map_id'] at hperm
    exact hperm.map Prod.snd

theorem settlesOn_deleteLine (hs : s.header.status.allowsContentEdit = true) (hd : s.ids.Nodup)
    (hl : (lineId, old) ∈ s.rows) :
    SettlesOn s (deleteLine lineId) (StoredQuote.others s lineId) := by
  refine settlesOn_recomputeTotals (s.tick.write (.delete lineId)) ?_ rfl (.refl _)
  rw [deleteLine, statusOf, Program.serve, serve_check (assertContentEditable_eq_ok hs), Program.serve]
  simp only [Stored.tick, lookup_eq_some hd hl]
  rfl

theorem settlesOn_addLine (line : QuoteLineRequest) (hs : s.header.status.allowsContentEdit = true) :
    SettlesOn s (addLine line) (line.row :: s.lines) := by
  refine settlesOn_recomputeTotals (s.tick.write (.insert s.tick.next line.row)) ?_ rfl ?_
  · rw [addLine, statusOf, Program.serve, serve_check (assertContentEditable_eq_ok hs), Program.serve]
  · rw [Stored.lines, Stored.write, RowWrite.apply, List.map_append]
    exact List.perm_append_comm

theorem check_lines {full : List QuoteLineRequest} {pending : Bool} {status : QuoteStatus}
    (h : status.allowsContentEdit = true) :
    ({ lines := some full } : UpdateQuoteRequest).check pending status = .ok () := by
  have hfrozen : assertNotFrozen status = .ok () := by
    rw [assertNotFrozen, QuoteStatus.isFrozen_of_allowsContentEdit h]
    rfl
  have hcontent : ({ lines := some full } : UpdateQuoteRequest).assertContent status = .ok () :=
    assertContentEditable_eq_ok h
  rw [UpdateQuoteRequest.check, hfrozen, hcontent]
  rfl

/-- A request with nothing but lines. -/
theorem settlesOn_updateQuote (hs : s.header.status.allowsContentEdit = true)
    (full : List QuoteLineRequest) (pending ofCompany : Bool) (rate : Option (Numeric 4)) :
    SettlesOn s (updateQuote { lines := some full } pending ofCompany rate)
      (full.map QuoteLineRequest.row) := by
  refine settlesOn_recomputeTotals (StoredQuote.insertAll
    { s with rows := [], next := s.next + 2 + 1 + s.rows.length } full) ?_
    (StoredQuote.insertAll_header _ _) ?_
  · have hcompany : assertForCompany none ofCompany = .ok () := rfl
    rw [updateQuote, statusOf, Program.serve, serve_check (check_lines hs), serve_check hcompany,
      Program.serve, replaceLines, serve_deleteLines, serve_insertLines]
    rfl
  · rw [StoredQuote.insertAll_lines]
    exact .refl _

end Operations

/-! ### The agreement -/

/-- Two stored quotes with the same lines, whatever their ids and their order, and the same figures. -/
structure SameQuote (s t : StoredQuote) : Prop where
  lines : s.lines.Perm t.lines
  figures : s.header.SameFigures t.header

/-- Where `s` has the line, `full` has `line`: its other requests are for the other lines. -/
def Replaces (full : List QuoteLineRequest) (s : StoredQuote) (lineId : Uuid)
    (line : QuoteLineRequest) : Prop :=
  ∃ others, full.Perm (line :: others) ∧
    (others.map QuoteLineRequest.row).Perm (StoredQuote.others s lineId)

/-- `update_line` leaves what `delete_line` and `add_line` leave, and what an `update_quote` with the full
line set leaves. -/
def EditsAgree (s : StoredQuote) (lineId : Uuid) (line : QuoteLineRequest) : Prop :=
  ∃ updated deleted added,
    (updateLine lineId line).serve s = some updated ∧
    (deleteLine lineId).serve s = some deleted ∧ (addLine line).serve deleted = some added ∧
    SameQuote updated added ∧
    ∀ full, Replaces full s lineId line → ∀ pending ofCompany rate, ∃ replaced,
      (updateQuote { lines := some full } pending ofCompany rate).serve s = some replaced ∧
      SameQuote updated replaced

section Agreement

variable {s : StoredQuote} {lineId : Uuid} {old : QuoteLine} {line : QuoteLineRequest}

/-- The figures go with the lines. -/
theorem sameQuote_of_perm {t u : StoredQuote} {q : Quote} (ht : t.header = q.recomputed t.rows)
    (hu : u.header = q.recomputed u.rows) (h : t.lines.Perm u.lines) : SameQuote t u := by
  refine ⟨h, ?_⟩
  rw [ht, hu, q.recomputed_perm h]
  exact ⟨rfl, rfl, rfl, rfl⟩

/-- `delete_line`, and `add_line` after it. -/
theorem serve_deleteLine_addLine (line : QuoteLineRequest)
    (hs : s.header.status.allowsContentEdit = true) (hd : s.ids.Nodup) (hl : (lineId, old) ∈ s.rows) :
    ∃ deleted added,
      (deleteLine lineId).serve s = some deleted ∧ (addLine line).serve deleted = some added ∧
      added.lines.Perm (line.row :: StoredQuote.others s lineId) ∧
      added.header = s.header.recomputed added.rows := by
  obtain ⟨deleted, hdel, hlines, hheader⟩ := settlesOn_deleteLine hs hd hl
  have hs' : deleted.header.status.allowsContentEdit = true := by
    rw [hheader]
    exact hs
  obtain ⟨added, hadd, hlines', hheader'⟩ := settlesOn_addLine line hs'
  rw [hheader, Quote.recomputed_recomputed] at hheader'
  exact ⟨deleted, added, hdel, hadd, hlines'.trans (hlines.cons line.row), hheader'⟩

theorem overwrite_eq_row_iff : line.overwrite old = line.row ↔ line.isTaxable = old.isTaxable := by
  constructor
  · intro h
    exact (congrArg QuoteLine.isTaxable h).symm
  · intro h
    rw [QuoteLineRequest.overwrite, ← h]
    rfl

theorem replaces_row_perm {full : List QuoteLineRequest} (h : Replaces full s lineId line) :
    (full.map QuoteLineRequest.row).Perm (line.row :: StoredQuote.others s lineId) := by
  obtain ⟨others, hfull, hothers⟩ := h
  exact (hfull.map _).trans (hothers.cons line.row)

/-- **The three ways to change a line.**  They leave the same lines, tax and totals exactly when the
request leaves the line as taxable as it is: `update_line` keeps the column. -/
theorem editsAgree_iff (hs : s.header.status.allowsContentEdit = true) (hd : s.ids.Nodup)
    (hl : (lineId, old) ∈ s.rows) :
    EditsAgree s lineId line ↔ line.isTaxable = old.isTaxable := by
  obtain ⟨updated, hupd, hlines, hheader⟩ := settlesOn_updateLine line hs hd hl
  obtain ⟨deleted, added, hdel, hadd, hlines', hheader'⟩ :=
    serve_deleteLine_addLine line hs hd hl
  rw [← overwrite_eq_row_iff]
  constructor
  · rintro ⟨updated', deleted', added', hupd', hdel', hadd', hsame, -⟩
    cases hupd.symm.trans hupd'
    cases hdel.symm.trans hdel'
    cases hadd.symm.trans hadd'
    have hperm := Multiset.coe_eq_coe.mpr (hlines.symm.trans (hsame.lines.trans hlines'))
    rw [← Multiset.cons_coe, ← Multiset.cons_coe] at hperm
    exact (Multiset.cons_inj_left _).mp hperm
  · intro heq
    rw [heq] at hlines
    refine ⟨updated, deleted, added, hupd, hdel, hadd,
      sameQuote_of_perm hheader hheader' (hlines.trans hlines'.symm), ?_⟩
    intro full hfull pending ofCompany rate
    obtain ⟨replaced, hrep, hlines'', hheader''⟩ := settlesOn_updateQuote hs full pending ofCompany rate
    refine ⟨replaced, hrep, sameQuote_of_perm hheader hheader'' (hlines.trans ?_)⟩
    exact (hlines''.trans (replaces_row_perm hfull)).symm

end Agreement

/-! ### The requests for the other lines -/

/-- The request that names what is stored: what a client sends that sends back what it read. -/
def QuoteLine.restated (line : QuoteLine) : QuoteLineRequest :=
  { lineType := line.lineType
    description := line.description
    quantity := line.quantity.toRat
    unitPrice := line.unitPrice.toRat
    sortOrder := line.sortOrder
    isTaxable := line.isTaxable }

/-- The stored total is the product of what is stored. -/
def QuoteLine.Exact (line : QuoteLine) : Prop :=
  line.total = .ofRat 2 (line.quantity.toRat * line.unitPrice.toRat)

/-- A restated line keeps all but its total. -/
theorem QuoteLine.restated_row (line : QuoteLine) :
    line.restated.row = { line with total := .ofRat 2 (line.quantity.toRat * line.unitPrice.toRat) } := by
  simp [QuoteLineRequest.row, restated]

theorem QuoteLine.exact_restated_row (line : QuoteLine) : line.restated.row.Exact := by
  rw [restated_row]
  rfl

/-- The lines that a client read replace the line if their totals are products of what is stored. -/
theorem replaces_restated_iff {s : StoredQuote} {lineId : Uuid} {line : QuoteLineRequest} :
    Replaces (line :: (StoredQuote.others s lineId).map QuoteLine.restated) s lineId line ↔
      ∀ other ∈ StoredQuote.others s lineId, other.Exact := by
  have hrow : ∀ others : List QuoteLine, (others.map QuoteLine.restated).map QuoteLineRequest.row =
      others.map fun other => other.restated.row := by simp
  constructor
  · rintro ⟨others, hfull, hothers⟩ other hother
    have hperm := (hfull.cons_inv.map QuoteLineRequest.row).trans hothers
    rw [hrow] at hperm
    obtain ⟨x, -, rfl⟩ := List.mem_map.mp (hperm.symm.subset hother)
    exact x.exact_restated_row
  · intro h
    refine ⟨_, .refl _, ?_⟩
    rw [hrow]
    refine .of_eq ((List.map_congr_left fun other hother => ?_).trans (List.map_id _))
    rw [QuoteLine.restated_row, ← h other hother]
    rfl

/-! ### Every quote has such ids -/

/-- The ids of the lines are distinct, in every interleaving. -/
theorem ids_nodup_of_run {request : CreateQuoteRequest} {billingContactId : Option Uuid}
    {rate : Option (Numeric 4)} {default : Option (Uuid × Numeric 4)}
    {created : Quote × List (ℕ × QuoteLine)}
    (h : createQuote request billingContactId rate default = .ok created) {es : List QuoteEvent}
    {w : QuoteWorld} (hr : run quoteStep (.start created) es = some w) :
    (w.rows.map Prod.fst).Nodup := by
  obtain ⟨settled, -, h⟩ := bind_eq_ok.mp h
  cases h
  have hids : ∀ lines : List QuoteLine,
      (lines.zipIdx.map Prod.swap).map Prod.fst = List.range lines.length := by
    intro lines
    rw [List.map_map, List.range_eq_range']
    exact List.zipIdx_map_snd 0 lines
  refine (identified_of_run (identified_start ?_ ?_) hr).distinct.of_append_left
  · rw [hids]
    exact List.nodup_range
  · rw [hids]
    simp

namespace Relabelled

/-- A line of 100.00. -/
def line (isTaxable : Bool) (price : ℚ) : QuoteLineRequest :=
  { lineType := .product, description := "Unit", quantity := 1, unitPrice := price, isTaxable := isTaxable }

def request : CreateQuoteRequest :=
  { companyId := 1, title := "Firewall", taxRateId := some 7, lines := [line true 100] }

/-- With a tax rate of 20 %. -/
def created : Quote × List (ℕ × QuoteLine) :=
  ((((request.header none).withRate (some (7, .ofRat 4 20))).withSubtotal (.ofRat 2 100)
    (.ofRat 2 100)).withTotal, [(0, (line true 100).row)])

def quote : StoredQuote := { header := created.1, rows := created.2, next := created.2.length }

/-- `createQuote` makes it. -/
example : createQuote request none (some (.ofRat 4 20)) none = .ok created := by decide +kernel

theorem editsAgree_repriced : EditsAgree quote 0 (line true 50) :=
  (editsAgree_iff rfl (by decide) (List.mem_singleton_self _)).mpr rfl

/-- The same line, now exempt: `update_line` leaves a tax of 20.00, and `delete_line` and `add_line` leave
none. -/
theorem not_editsAgree_exempt : quote.header.status = .draft ∧ quote.header.taxRate = some (.ofRat 4 20) ∧
    quote.ids.Nodup ∧ (0, (line true 100).row) ∈ quote.rows ∧
    ((updateLine 0 (line false 100)).serve quote).map (·.header.taxAmount) = some (.ofRat 2 20) ∧
    (((deleteLine 0).serve quote).bind (addLine (line false 100)).serve).map (·.header.taxAmount) =
      some 0 ∧
    ¬EditsAgree quote 0 (line false 100) := by
  have hupdate : ((updateLine 0 (line false 100)).serve quote).map (·.header.taxAmount) =
      some (.ofRat 2 20) := by decide +kernel
  have hadd : (((deleteLine 0).serve quote).bind (addLine (line false 100)).serve).map
      (·.header.taxAmount) = some 0 := by decide +kernel
  refine ⟨rfl, rfl, by decide, List.mem_singleton_self _, hupdate, hadd, ?_⟩
  rintro ⟨updated, deleted, added, hu, hd, ha, hsame, -⟩
  rw [hu] at hupdate
  rw [hd, Option.bind_some, ha] at hadd
  have htax : Numeric.ofRat 2 20 = 0 :=
    (Option.some.inj hupdate).symm.trans (hsame.figures.taxAmount.trans (Option.some.inj hadd))
  exact absurd htax (by decide +kernel)

end Relabelled

end Mokosh.Quotes
