import Mokosh.Billing.Balance
import Mokosh.Contracts.Ledger

/-! # Billed work

The builder claims the time entries it puts on an invoice, and the recurring run claims the period
it bills, in `contract_invoice_runs`.  Neither claim follows the invoice afterwards: the ledger of
the runs is kept apart from the life of the invoices on purpose, and no operation hands an entry
back.

* What holds in every run (`Filed`): a billed entry names an invoice that is there, so does a
  claimed period, and a period is claimed once.
* As long as no invoice with time entries on its lines is voided or has its lines replaced, every
  billed entry is on a line of an invoice that is not void (`Kept`).  Sending an amendment voids the
  invoice it replaces, but carries its lines.

Both are in **`work_of_reachable`**; `void_loses_work` shows what a void does. -/

namespace Mokosh

/-- A line of the invoice names the time entry. -/
def Names (db : BillingDb) (invoiceId entryId : Uuid) : Prop :=
  ∃ l ∈ db.lines, l.invoiceId = invoiceId ∧ entryId ∈ l.timeEntryIds

/-- No line of the invoice names a time entry. -/
def NamesNone (db : BillingDb) (invoiceId : Uuid) : Prop :=
  ∀ l ∈ db.lines.rows, l.invoiceId = invoiceId → l.timeEntryIds = []

/-- The entry is on a line of an invoice that is not void. -/
def OnLive (db : BillingDb) (entryId : Uuid) : Prop :=
  ∃ i ∈ db.invoices, i.status ≠ .void ∧ Names db i.id entryId

/-- What holds of the claims whatever happens to their invoices. -/
structure Filed (db : BillingDb) : Prop where
  billed : ∀ e ∈ db.time.entries, e.billingStatus = .billed →
    ∃ i ∈ db.invoices, e.invoiceId = some i.id
  claimed : ∀ r ∈ db.runs, ∃ i ∈ db.invoices, i.id = r.invoiceId
  once : ∀ r ∈ db.runs, ∀ r' ∈ db.runs, r'.contractId = r.contractId →
    r'.periodStart = r.periodStart → r' = r

/-- Billed work is on live invoices.  An amendment names what the invoice it replaces names, and
that one cannot be edited any more. -/
structure Kept (db : BillingDb) : Prop where
  live : ∀ e ∈ db.time.entries, e.billingStatus = .billed → OnLive db e.id
  amends : ∀ i ∈ db.invoices, ∀ o, i.amendsInvoiceId = some o →
    Issued db.invoices o ∧ ∀ t, Names db o t → Names db i.id t
  voided : ∀ i ∈ db.invoices, i.voidedAt = true → i.writtenOffAt = false → i.status = .void

/-- No invoice goes away, and none forgets what it amends. -/
def InvoicesStay (db db' : BillingDb) : Prop :=
  ∀ i ∈ db.invoices, ∃ i' ∈ db'.invoices, i'.id = i.id ∧ i'.amendsInvoiceId = i.amendsInvoiceId

namespace InvoicesStay

variable {db db' db'' : BillingDb}

theorem refl (db : BillingDb) : InvoicesStay db db := fun i hi => ⟨i, hi, rfl, rfl⟩

theorem trans (h : InvoicesStay db db') (h' : InvoicesStay db' db'') : InvoicesStay db db'' := by
  intro i hi
  obtain ⟨j, hj, h1, h2⟩ := h i hi
  obtain ⟨k, hk, h3, h4⟩ := h' j hj
  exact ⟨k, hk, h3.trans h1, h4.trans h2⟩

theorem update {k : Uuid} {f : Invoice → Invoice} (hf : ∀ r, (f r).id = r.id)
    (hi : db'.invoices = db.invoices.update k f hf)
    (ha : ∀ r, (f r).amendsInvoiceId = r.amendsInvoiceId) : InvoicesStay db db' := by
  intro i h
  refine ⟨if i.id = k then f i else i, ?_, ?_⟩
  · rw [hi]
    exact (Table.mem_update).mpr ⟨i, h, rfl⟩
  · split
    · exact ⟨hf i, ha i⟩
    · exact ⟨rfl, rfl⟩

theorem insert {mk : ℕ → Invoice} (hk : ∀ i, (mk i).id = i)
    (hi : db'.invoices = db.invoices.insert mk hk) : InvoicesStay db db' := by
  intro i h
  refine ⟨i, ?_, rfl, rfl⟩
  rw [hi]
  exact (Table.mem_insert).mpr (.inl h)

end InvoicesStay

section Filed

variable {db db' : BillingDb}

/-- The claims stay, and so do the invoices they name. -/
theorem Filed.stay (h : Filed db) (hi : InvoicesStay db db')
    (he : ∀ e' ∈ db'.time.entries, e'.billingStatus = .billed →
      ∃ e ∈ db.time.entries, e.billingStatus = .billed ∧ e'.invoiceId = e.invoiceId)
    (hr : db'.runs = db.runs) : Filed db' := by
  refine ⟨fun e' he' hb => ?_, fun r hr1 => ?_, by rw [hr]; exact h.once⟩
  · obtain ⟨e, hm, hbe, hie⟩ := he e' he' hb
    obtain ⟨i, hi1, hei⟩ := h.billed e hm hbe
    obtain ⟨i', hi', hid, -⟩ := hi i hi1
    exact ⟨i', hi', by rw [hie, hei, hid]⟩
  · rw [hr] at hr1
    obtain ⟨i, hi1, hir⟩ := h.claimed r hr1
    obtain ⟨i', hi', hid, -⟩ := hi i hi1
    exact ⟨i', hi', hid.trans hir⟩

theorem Filed.same (h : Filed db) (hi : InvoicesStay db db') (ht : db'.time = db.time)
    (hr : db'.runs = db.runs) : Filed db' := by
  refine h.stay hi (fun e he hb => ⟨e, ?_, hb, rfl⟩) hr
  rwa [ht] at he

end Filed

/-! ### Live invoices -/

section Kept

variable {db db' : BillingDb}

theorem NamesNone.not_names {k t : Uuid} (h : NamesNone db k) : ¬ Names db k t := by
  rintro ⟨l, hl, hk, ht⟩
  rw [h l hl hk] at ht
  exact absurd ht List.not_mem_nil

theorem names_of_lines_eq (hl : db'.lines = db.lines) (j t : Uuid) :
    Names db' j t ↔ Names db j t := by
  unfold Names
  rw [hl]

/-- One header is written; if that voids the invoice, what it names is also named elsewhere. -/
theorem Kept.update (h : Kept db) {k : Uuid} {f : Invoice → Invoice} (hf : ∀ r, (f r).id = r.id)
    (hi : db'.invoices = db.invoices.update k f hf) (hn : ∀ j t, Names db' j t ↔ Names db j t)
    (ht : db'.time.entries = db.time.entries)
    (ha : ∀ r, (f r).amendsInvoiceId = r.amendsInvoiceId)
    (hfr : ∀ r, db.invoices.find k = some r → r.status.isFrozen = true →
      (f r).status.isFrozen = true)
    (hv : ∀ r, db.invoices.find k = some r → (f r).voidedAt = true → (f r).writtenOffAt = false →
      (f r).status = .void)
    (hlive : ∀ r, db.invoices.find k = some r → r.status ≠ .void → (f r).status = .void →
      ∀ t, Names db k t → ∃ i ∈ db.invoices, i.id ≠ k ∧ i.status ≠ .void ∧ Names db i.id t) :
    Kept db' := by
  refine ⟨?_, ?_, ?_⟩
  · intro e he hb
    rw [ht] at he
    obtain ⟨i, hm, hs, hnt⟩ := h.live e he hb
    -- The invoice stays as it is, or stays live, or hands over to another one.
    have hother : ∀ j ∈ db.invoices, j.id ≠ k → j.status ≠ .void → Names db j.id e.id →
        OnLive db' e.id := by
      intro j hj hne hjs hjt
      refine ⟨j, ?_, hjs, (hn _ _).mpr hjt⟩
      rw [hi]
      exact (Table.mem_update).mpr ⟨j, hj, if_neg hne⟩
    by_cases hk : i.id = k
    · subst hk
      by_cases hvoid : (f i).status = .void
      · obtain ⟨j, hj, hne, hjs, hjt⟩ := hlive i (Table.find_key hm) hs hvoid e.id hnt
        exact hother j hj hne hjs hjt
      · refine ⟨f i, ?_, hvoid, ?_⟩
        · rw [hi]
          exact (Table.mem_update).mpr ⟨i, hm, if_pos rfl⟩
        · rw [hf, hn]
          exact hnt
    · exact hother i hm hk hs hnt
  · intro x hx o ho
    rw [hi] at hx
    obtain ⟨r, hr, rfl⟩ := (Table.mem_update).mp hx
    have hid : (if r.id = k then f r else r).id = r.id := by
      split
      · exact hf r
      · rfl
    have hro : r.amendsInvoiceId = some o := by
      split at ho
      · rw [← ha, ho]
      · exact ho
    obtain ⟨h1, h2⟩ := h.amends r hr o hro
    refine ⟨?_, fun t hot => ?_⟩
    · rw [hi]
      exact h1.update hfr
    · rw [hid, hn]
      exact h2 t ((hn _ _).mp hot)
  · intro x hx
    rw [hi] at hx
    obtain ⟨r, hr, rfl⟩ := (Table.mem_update).mp hx
    split
    · next hk =>
      subst hk
      exact hv r (Table.find_key hr)
    · exact h.voided r hr

/-- A new invoice, with what it names. -/
theorem Kept.insert (h : Kept db) {mk : ℕ → Invoice} (hk : ∀ i, (mk i).id = i)
    (hi : db'.invoices = db.invoices.insert mk hk) (hn : ∀ j t, Names db j t → Names db' j t)
    (hold : ∀ j t, j ≠ db.invoices.next → Names db' j t → Names db j t)
    (he : ∀ e ∈ db'.time.entries, e.billingStatus = .billed →
      OnLive db e.id ∨ Names db' db.invoices.next e.id)
    (hs : (mk db.invoices.next).status ≠ .void) (hv : (mk db.invoices.next).voidedAt = false)
    (ha : ∀ o, (mk db.invoices.next).amendsInvoiceId = some o →
      Issued db.invoices o ∧ ∀ t, Names db o t → Names db' db.invoices.next t) : Kept db' := by
  refine ⟨?_, ?_, ?_⟩
  · intro e hm hb
    rcases he e hm hb with ⟨i, hi1, his, hit⟩ | hnew
    · refine ⟨i, ?_, his, hn _ _ hit⟩
      rw [hi]
      exact (Table.mem_insert).mpr (.inl hi1)
    · refine ⟨mk db.invoices.next, ?_, hs, ?_⟩
      · rw [hi]
        exact (Table.mem_insert).mpr (.inr rfl)
      · rw [hk]
        exact hnew
  · intro x hx o ho
    rw [hi] at hx ⊢
    rcases (Table.mem_insert).mp hx with hx | rfl
    · obtain ⟨h1, h2⟩ := h.amends x hx o ho
      exact ⟨h1.insert, fun t hot => hn _ _ (h2 t (hold o t h1.lt_next.ne hot))⟩
    · obtain ⟨h1, h2⟩ := ha o ho
      refine ⟨h1.insert, fun t hot => ?_⟩
      rw [hk]
      exact h2 t (hold o t h1.lt_next.ne hot)
  · intro x hx
    rw [hi] at hx
    rcases (Table.mem_insert).mp hx with hx | rfl
    · exact h.voided x hx
    · intro h1
      rw [hv] at h1
      exact absurd h1 (by simp)

section NewLines

variable {β : Type} {line : β → ℕ → InvoiceLine} {hl : ∀ b i, (line b i).id = i} {ls : List β}

theorem names_insertEach (hlines : db'.lines = db.lines.insertEach line ls hl) {j t : Uuid}
    (h : Names db j t) : Names db' j t := by
  obtain ⟨l, hl1, h1⟩ := h
  refine ⟨l, ?_, h1⟩
  rw [hlines]
  exact Table.mem_insertEach_of_mem hl1 ls

theorem names_of_insertEach (hlines : db'.lines = db.lines.insertEach line ls hl) {j k t : Uuid}
    (hline : ∀ b i, (line b i).invoiceId = k) (hj : j ≠ k) (h : Names db' j t) : Names db j t := by
  obtain ⟨l, hl1, h1, h2⟩ := h
  rw [hlines] at hl1
  rcases Table.mem_insertEach hl1 with hl1 | ⟨b, -, i, -, rfl⟩
  · exact ⟨l, hl1, h1, h2⟩
  · rw [hline] at h1
    exact absurd h1.symm hj

theorem names_new (hlines : db'.lines = db.lines.insertEach line ls hl) {k t : Uuid} {b : β}
    (hb : b ∈ ls) (hline : ∀ i, (line b i).invoiceId = k) (ht : ∀ i, t ∈ (line b i).timeEntryIds) :
    Names db' k t := by
  obtain ⟨i, hi⟩ : ∃ i, line b i ∈ db.lines.insertEach line ls hl :=
    Table.exists_mem_insertEach db.lines hb
  refine ⟨line b i, ?_, hline i, ht i⟩
  rw [hlines]
  exact hi

end NewLines

end Kept

/-! ### One operation -/

section Operations

variable {db db' : BillingDb} {outside : AppResult Unit} {number : String}

theorem Kept.created (h : Kept db) {companyId : Uuid} {contractId : Option Uuid}
    {externalProvider : Option String} {s t d discount : ℚ} {ls : List NewLine}
    {explicitAmount : Option ℚ} {rate : Option TaxRate}
    (hi : db'.invoices = (Mokosh.created db
      (newInvoice number companyId contractId externalProvider s t d) ls explicitAmount rate
      discount (fun _ => rfl)).invoices)
    (hl : db'.lines = db.lines.insertEach (NewLine.row db.invoices.next) ls)
    (he : ∀ e ∈ db'.time.entries, e.billingStatus = .billed →
      OnLive db e.id ∨ ∃ l ∈ ls, e.id ∈ l.timeEntryIds) : Kept db' := by
  refine h.insert (by intro _; rfl) (hi.trans (created_invoices ..))
    (fun j t => names_insertEach hl) (fun j t => names_of_insertEach hl fun _ _ => rfl) ?_ ?_ rfl ?_
  · intro e hm hb
    rcases he e hm hb with h1 | ⟨l, hl1, hel⟩
    · exact .inl h1
    · exact .inr (names_new hl hl1 (fun _ => rfl) fun _ => hel)
  · show (if externalProvider.isSome then InvoiceStatus.sent else .draft) ≠ _
    split <;> simp
  · intro o ho
    exact absurd ho (by simp [newInvoice, Invoice.taxed])

theorem Kept.createInvoice (h : Kept db) {request : CreateInvoiceRequest}
    {externalProvider : Option String}
    (hok : Mokosh.createInvoice db request number externalProvider outside = .ok db') :
    Kept db' := by
  obtain ⟨rate, -, rfl⟩ := createInvoice_eq_ok hok
  exact h.created rfl rfl fun e he hb => .inl (h.live e he hb)

/-- The entries that the builder bills are on the lines it writes. -/
theorem Kept.createInvoiceFromTimeEntries (h : Kept db)
    {request : CreateInvoiceFromTimeEntriesRequest}
    (hok : Mokosh.createInvoiceFromTimeEntries db request number outside = .ok db') :
    Kept db' := by
  obtain ⟨rate, -, rfl⟩ := createInvoiceFromTimeEntries_eq_ok hok
  refine h.created rfl rfl ?_
  intro e' he' hb
  obtain ⟨e, he, rfl⟩ := mem_markBilled he'
  by_cases hsel : request.selects e = true
  · refine .inr ⟨timeEntryLine e, ?_, ?_⟩
    · exact List.mem_append_left _
        (List.mem_map.mpr ⟨e, List.mem_filter.mpr ⟨he, hsel⟩, rfl⟩)
    · rw [timeEntryLine_ids, if_pos hsel]
      exact List.mem_singleton.mpr rfl
  · rw [if_neg hsel] at hb ⊢
    exact .inl (h.live e he hb)

theorem Kept.generateOneRecurringInvoice (h : Kept db) {contractId companyId : Uuid}
    {periodStart periodEnd : NaiveDate}
    (hok : Mokosh.generateOneRecurringInvoice db contractId companyId periodStart periodEnd number
      outside = .ok db') : Kept db' := by
  rcases generateOneRecurringInvoice_eq_ok hok with rfl | ⟨-, ls, rate, -, rfl⟩
  · exact h
  · exact h.created rfl rfl fun e he hb => .inl (h.live e he hb)

theorem Kept.amendInvoice (h : Kept db) {invoiceId : Uuid}
    (hok : Mokosh.amendInvoice db invoiceId number outside = .ok db') : Kept db' := by
  obtain ⟨original, ho, hs, -, rfl⟩ := amendInvoice_eq_ok hok
  have hid := Table.key_of_find ho
  refine h.insert (by intro _; rfl) rfl (fun j t => names_insertEach rfl)
    (fun j t => names_of_insertEach rfl fun _ _ => rfl)
    (fun e he hb => .inl (h.live e he hb)) (by simp [Invoice.amendment]) rfl ?_
  rintro o hoe
  rw [Invoice.amendment, Option.some.injEq] at hoe
  subst hoe
  refine ⟨⟨original, by rw [hid]; exact ho, by rw [hs]; rfl⟩, ?_⟩
  rintro t ⟨l, hl, hlo, hlt⟩
  refine names_new rfl (b := l) ?_ (fun _ => rfl) fun _ => hlt
  exact List.mem_filter.mpr ⟨hl, decide_eq_true (hlo.trans hid)⟩

/-- An invoice that names no time entry can go. -/
theorem Kept.voidUnnamed (h : Kept db) {k : Uuid} (hn : NamesNone db k) :
    Kept { db with invoices := db.invoices.update k (·.voided) } := by
  refine h.update (by intro _; rfl) rfl (names_of_lines_eq rfl) rfl (fun _ => rfl)
    (fun _ _ _ => rfl) (fun _ _ _ _ => rfl) ?_
  intro r _ _ _ t ht
  exact absurd ht hn.not_names

theorem Kept.voidInvoice (h : Kept db) {invoiceId : Uuid} (hn : NamesNone db invoiceId)
    (hok : Mokosh.voidInvoice db invoiceId = .ok db') : Kept db' := by
  obtain ⟨row, -, -, rfl⟩ := voidInvoice_eq_ok hok
  exact h.voidUnnamed hn

theorem Kept.voidDelegatedInvoice (h : Kept db) {invoiceId : Uuid} (hn : NamesNone db invoiceId)
    (provider : String) : Kept (Mokosh.voidDelegatedInvoice db invoiceId provider) := by
  rcases voidDelegatedInvoice_cases db invoiceId provider with h1 | ⟨row, -, -, -, h1⟩ <;> rw [h1]
  · exact h
  · exact h.voidUnnamed hn

theorem Kept.writeOffInvoice (h : Kept db) {invoiceId : Uuid}
    (hok : Mokosh.writeOffInvoice db invoiceId = .ok db') : Kept db' := by
  obtain ⟨row, -, -, -, rfl⟩ := writeOffInvoice_eq_ok hok
  refine h.update (by intro _; rfl) rfl (names_of_lines_eq rfl) rfl (fun _ => rfl)
    (fun _ _ _ => rfl) ?_ ?_
  · intro r _ _ hw
    exact absurd hw (by simp [Invoice.writtenOffNow])
  · intro r _ _ hv
    exact absurd hv (by simp [Invoice.writtenOffNow])

/-- A recompute voids only what is void already. -/
theorem Invoice.recomputed_void {i : Invoice} {paid credited : Numeric 2}
    (hv : i.voidedAt = true → i.writtenOffAt = false → i.status = .void) :
    (i.recomputed paid credited).status = .void → i.status = .void := by
  unfold recomputed
  simp only
  split_ifs with h1 h2 h3 h4 h5
  · exact fun hs => hs
  · simp
  · exact fun _ => hv h3 (by simpa using h2)
  · simp
  · simp
  · simp

theorem Kept.recomputeOf (h : Kept db) {db1 : BillingDb} (hi : db1.invoices = db.invoices)
    (hl : db1.lines = db.lines) (ht : db1.time = db.time) (o : Option Uuid) :
    Kept (Mokosh.recomputeOf db1 o) := by
  have h1 : Kept db1 := by
    refine ⟨?_, ?_, by rw [hi]; exact h.voided⟩
    · unfold OnLive Names
      rw [hi, hl, ht]
      exact h.live
    · unfold Names
      rw [hi, hl]
      exact h.amends
  cases o with
  | none => exact h1
  | some k =>
      refine h1.update (by intro _; rfl) rfl (names_of_lines_eq rfl) rfl (fun _ => rfl) ?_ ?_ ?_
      · intro r _ hz
        rw [Invoice.recomputed_isFrozen]
        exact hz
      · intro r hr hva hw
        have hs := h1.voided r (Table.find_mem hr) hva hw
        have hva' : r.voidedAt = true := hva
        have hw' : r.writtenOffAt = false := hw
        simp [Invoice.recomputed, hs, hva', hw']
      · intro r hr hne hs
        exact absurd (Invoice.recomputed_void (h1.voided r (Table.find_mem hr)) hs) hne

theorem Invoice.rewritten_marks (i current : Invoice) (request : UpdateInvoiceRequest)
    (lines : Numeric 2) (tax : AppliedTax) :
    (i.rewritten current request lines tax).status = request.status.getD i.status ∧
      (i.rewritten current request lines tax).voidedAt = i.voidedAt ∧
      (i.rewritten current request lines tax).writtenOffAt = i.writtenOffAt ∧
      (i.rewritten current request lines tax).amendsInvoiceId = i.amendsInvoiceId := by
  unfold rewritten
  split <;> exact ⟨rfl, rfl, rfl, rfl⟩

/-- Replacing lines that name nothing changes nothing that is named. -/
theorem names_replaceLines {k : Uuid} {ls : Option (List CreateInvoiceLineRequest)}
    (hn : ls.isNone = true ∨ NamesNone db k) (j t : Uuid) :
    Names (replaceLines db k ls) j t ↔ Names db j t := by
  cases ls with
  | none => exact Iff.rfl
  | some ls =>
      have hn : NamesNone db k := hn.resolve_left (by simp)
      constructor
      · rintro ⟨l, hl, hj, ht⟩
        rcases Table.mem_insertEach hl with hl | ⟨b, hb, i, -, rfl⟩
        · exact ⟨l, (Table.mem_filter.mp hl).1, hj, ht⟩
        · obtain ⟨r, -, rfl⟩ := List.mem_map.mp hb
          exact absurd ht List.not_mem_nil
      · rintro ⟨l, hl, hj, ht⟩
        have hlk : l.invoiceId ≠ k := by
          rintro rfl
          rw [hn l hl rfl] at ht
          exact absurd ht List.not_mem_nil
        exact ⟨l, Table.mem_insertEach_of_mem
          (Table.mem_filter.mpr ⟨hl, decide_eq_true hlk⟩) _, hj, ht⟩

theorem rewriteInvoice_same (db : BillingDb) (current : Invoice) (request : UpdateInvoiceRequest)
    (rate : Option TaxRate) :
    (rewriteInvoice db current request rate).time = db.time ∧
      (rewriteInvoice db current request rate).runs = db.runs := by
  have h : (replaceLines db current.id request.lines).time = db.time ∧
      (replaceLines db current.id request.lines).runs = db.runs := by
    unfold replaceLines
    cases request.lines <;> exact ⟨rfl, rfl⟩
  exact h

/-- What an update has read: it does not void, and it knows what the invoice amends. -/
def ReadForUpdate (db : BillingDb) (current : Invoice) (request : UpdateInvoiceRequest) : Prop :=
  request.status ≠ some .void ∧
    ∃ row, db.invoices.find current.id = some row ∧ row.amendsInvoiceId = current.amendsInvoiceId

theorem Kept.rewriteInvoice (h : Kept db) {current row : Invoice} {request : UpdateInvoiceRequest}
    {rate : Option TaxRate} (hrow : db.invoices.find current.id = some row)
    (hf : row.status.isFrozen = false) (hs : request.status ≠ some .void)
    (hn : request.lines.isNone = true ∨ NamesNone db current.id) :
    Kept (Mokosh.rewriteInvoice db current request rate) := by
  have hvoid : row.status ≠ .void := InvoiceStatus.ne_of_unfrozen hf rfl
  refine h.update (fun i => (i.rewritten_same current request _ _).1) rfl (names_replaceLines hn) ?_
    (fun i => (i.rewritten_marks current request _ _).2.2.2) ?_ ?_ ?_
  · exact congrArg TimeDb.entries (rewriteInvoice_same db current request rate).1
  · intro r hr hz
    rw [hrow, Option.some.injEq] at hr
    rw [← hr, hf] at hz
    exact absurd hz (by simp)
  · intro r hr hva hw
    rw [hrow, Option.some.injEq] at hr
    subst hr
    obtain ⟨-, h2, h3, -⟩ := row.rewritten_marks current request
      ((replaceLines db current.id request.lines).linesOf current.id)
      (taxOn ((replaceLines db current.id request.lines).taxableOf current.id) request.taxAmount
        rate)
    rw [h2] at hva
    rw [h3] at hw
    exact absurd (h.voided row (Table.find_mem hrow) hva hw) hvoid
  · intro r hr hne hv
    rw [hrow, Option.some.injEq] at hr
    subst hr
    rw [(row.rewritten_marks current request _ _).1] at hv
    exact absurd hv (UpdateInvoiceRequest.status_ne hs hne)

/-- The amendment that is sent names what the invoice it replaces names. -/
theorem Kept.updateInvoice (h : Kept db) {current : Invoice} {request : UpdateInvoiceRequest}
    (hread : ReadForUpdate db current request)
    (hn : request.lines.isNone = true ∨ NamesNone db current.id)
    (hok : commitUpdateInvoice db current request outside = .ok db') : Kept db' := by
  obtain ⟨row, rate, hrow, hf, -, -, rfl⟩ := commitUpdateInvoice_eq_ok hok
  obtain ⟨hs, row', hrow', ha⟩ := hread
  rw [hrow, Option.some.injEq] at hrow'
  subst hrow'
  have h1 : Kept (Mokosh.rewriteInvoice db current request rate) :=
    h.rewriteInvoice hrow hf hs hn
  cases hrep : replacedBy row current request with
  | none => exact h1
  | some o =>
      unfold replacedBy at hrep
      split at hrep
      · next hsent =>
        -- The row of the amendment, sent and still naming the original.
        have hfind : (Mokosh.rewriteInvoice db current request rate).invoices.find current.id =
            some (row.rewritten current request
              ((replaceLines db current.id request.lines).linesOf current.id)
              (taxOn ((replaceLines db current.id request.lines).taxableOf current.id)
                request.taxAmount rate)) := by
          unfold Mokosh.rewriteInvoice
          rw [Table.find_update_self, hrow]
          rfl
        have hmem := Table.find_mem hfind
        have hid := Table.key_of_find hfind
        obtain ⟨hst, -, -, ham⟩ := row.rewritten_marks current request
          ((replaceLines db current.id request.lines).linesOf current.id)
          (taxOn ((replaceLines db current.id request.lines).taxableOf current.id)
            request.taxAmount rate)
        obtain ⟨⟨original, ho, hoz⟩, -⟩ := h.amends row (Table.find_mem hrow) o (ha.trans hrep)
        have hne : current.id ≠ o := by
          rintro rfl
          rw [hrow, Option.some.injEq] at ho
          rw [← ho, hf] at hoz
          exact absurd hoz (by simp)
        have hcover := (h1.amends _ hmem o (ham.trans (ha.trans hrep))).2
        refine h1.update (by intro _; rfl) rfl (names_of_lines_eq rfl) rfl (fun _ => rfl)
          (fun _ _ _ => rfl) (fun _ _ _ _ => rfl) ?_
        intro r _ _ _ t ht
        refine ⟨_, hmem, ?_, ?_, hcover t ht⟩
        · rw [hid]
          exact hne
        · rw [hst, hsent.1]
          simp
      · exact absurd hrep (by simp)

end Operations

/-! ### Claims in a run -/

section Claims

variable {db db' : BillingDb} {outside : AppResult Unit} {number : String}

theorem InvoicesStay.created {companyId : Uuid} {contractId : Option Uuid}
    {externalProvider : Option String} {s t d discount : ℚ} {ls : List NewLine}
    {explicitAmount : Option ℚ} {rate : Option TaxRate}
    (hi : db'.invoices = (Mokosh.created db
      (newInvoice number companyId contractId externalProvider s t d) ls explicitAmount rate
      discount (fun _ => rfl)).invoices) : InvoicesStay db db' :=
  .insert (by intro _; rfl) (hi.trans (created_invoices ..))

theorem InvoicesStay.recomputeOf {db1 : BillingDb} (hi : db1.invoices = db.invoices)
    (o : Option Uuid) : InvoicesStay db (Mokosh.recomputeOf db1 o) := by
  have h1 : InvoicesStay db db1 := by
    unfold InvoicesStay
    rw [hi]
    exact InvoicesStay.refl db
  cases o with
  | none => exact h1
  | some k => exact h1.trans (.update (by intro _; rfl) rfl fun _ => rfl)

theorem exists_created (db : BillingDb) (header : Uuid → Invoice) (ls : List NewLine)
    (explicitAmount : Option ℚ) (rate : Option TaxRate) (discount : ℚ)
    (hid : ∀ i, (header i).id = i) :
    ∃ i ∈ (created db header ls explicitAmount rate discount hid).invoices,
      i.id = db.invoices.next := by
  rw [created_invoices]
  exact Table.exists_mem_insert db.invoices _ (by exact hid)

/-- The claims after an operation, and the invoices they name. -/
def Files (db db' : BillingDb) : Prop := Filed db' ∧ InvoicesStay db db'

theorem Filed.files (h : Filed db) (hi : InvoicesStay db db') (ht : db'.time = db.time)
    (hr : db'.runs = db.runs) : Files db db' := ⟨h.same hi ht hr, hi⟩

theorem recomputeOf_same (db1 : BillingDb) (o : Option Uuid) :
    (recomputeOf db1 o).time = db1.time ∧ (recomputeOf db1 o).runs = db1.runs := by
  cases o <;> exact ⟨rfl, rfl⟩

theorem Filed.recomputeOf (h : Filed db) {db1 : BillingDb} (hi : db1.invoices = db.invoices)
    (ht : db1.time = db.time) (hr : db1.runs = db.runs) (o : Option Uuid) :
    Files db (Mokosh.recomputeOf db1 o) := by
  obtain ⟨h1, h2⟩ := recomputeOf_same db1 o
  exact h.files (.recomputeOf hi o) (h1.trans ht) (h2.trans hr)

/-- The builder bills entries on an invoice that it inserts. -/
theorem Filed.createInvoiceFromTimeEntries (h : Filed db)
    {request : CreateInvoiceFromTimeEntriesRequest}
    (hok : Mokosh.createInvoiceFromTimeEntries db request number outside = .ok db') :
    Files db db' := by
  obtain ⟨rate, -, rfl⟩ := createInvoiceFromTimeEntries_eq_ok hok
  have hstay : InvoicesStay db (markBilled (created db
      (newInvoice number request.companyId request.contractId none
        ((builtLines db request).map NewLine.total).sum 0 0)
      (builtLines db request) none rate 0 (fun _ => rfl)) request db.invoices.next) := .created rfl
  refine ⟨⟨?_, fun r hr => ?_, h.once⟩, hstay⟩
  · intro e' he' hb
    obtain ⟨e, he, rfl⟩ := mem_markBilled he'
    split at hb
    · next hsel =>
      rw [if_pos hsel]
      obtain ⟨i, hi, hid⟩ := exists_created db
        (newInvoice number request.companyId request.contractId none
          ((builtLines db request).map NewLine.total).sum 0 0)
        (builtLines db request) none rate 0 (fun _ => rfl)
      exact ⟨i, hi, congrArg some hid.symm⟩
    · next hsel =>
      rw [if_neg hsel]
      obtain ⟨i, hi, hei⟩ := h.billed e he hb
      obtain ⟨i', hi', hid, -⟩ := hstay i hi
      exact ⟨i', hi', by rw [hei, hid]⟩
  · obtain ⟨i, hi, hir⟩ := h.claimed r hr
    obtain ⟨i', hi', hid, -⟩ := hstay i hi
    exact ⟨i', hi', hid.trans hir⟩

/-- A recurring run claims a free period for an invoice that it inserts. -/
theorem Filed.generateOneRecurringInvoice (h : Filed db) {contractId companyId : Uuid}
    {periodStart periodEnd : NaiveDate}
    (hok : Mokosh.generateOneRecurringInvoice db contractId companyId periodStart periodEnd number
      outside = .ok db') : Files db db' := by
  rcases generateOneRecurringInvoice_eq_ok hok with rfl | ⟨hfree, ls, rate, -, rfl⟩
  · exact h.files (.refl _) rfl rfl
  · have hstay : InvoicesStay db { created db
        (newInvoice number companyId (some contractId) none (ls.map NewLine.total).sum 0 0) ls
        none rate 0 (fun _ => rfl) with
        runs := db.runs.insert fun id =>
          ⟨id, contractId, db.invoices.next, periodStart, periodEnd⟩
        time := { db.time with book := claimItems db.time.book contractId } } := .created rfl
    refine ⟨⟨?_, ?_, ?_⟩, hstay⟩
    · intro e he hb
      obtain ⟨i, hi, hei⟩ := h.billed e he hb
      obtain ⟨i', hi', hid, -⟩ := hstay i hi
      exact ⟨i', hi', by rw [hei, hid]⟩
    · intro r hr
      rcases (Table.mem_insert).mp hr with hr | rfl
      · obtain ⟨i, hi, hir⟩ := h.claimed r hr
        obtain ⟨i', hi', hid, -⟩ := hstay i hi
        exact ⟨i', hi', hid.trans hir⟩
      · exact exists_created db
          (newInvoice number companyId (some contractId) none (ls.map NewLine.total).sum 0 0) ls
          none rate 0 (fun _ => rfl)
    · intro r hr r' hr' hc hp
      rcases (Table.mem_insert).mp hr with hr | rfl
      · rcases (Table.mem_insert).mp hr' with hr' | rfl
        · exact h.once r hr r' hr' hc hp
        · exact absurd ⟨hc.symm, hp.symm⟩ (hfree r hr)
      · rcases (Table.mem_insert).mp hr' with hr' | rfl
        · exact absurd ⟨hc, hp⟩ (hfree r' hr')
        · rfl

theorem Filed.finish (h : Filed db) {c : BillingCall}
    (hok : Billing.finish db outside c = .ok db') : Files db db' := by
  cases c with
  | update current request =>
      obtain ⟨row, rate, -, -, -, -, rfl⟩ := commitUpdateInvoice_eq_ok hok
      obtain ⟨ht, hr⟩ := rewriteInvoice_same db current request rate
      have h1 : InvoicesStay db (rewriteInvoice db current request rate) :=
        .update (fun i => (i.rewritten_same current request _ _).1) rfl
          fun i => (i.rewritten_marks current request _ _).2.2.2
      cases replacedBy row current request with
      | none => exact h.files h1 ht hr
      | some o => exact h.files (h1.trans (.update (by intro _; rfl) rfl fun _ => rfl)) ht hr
  | deletePayment paymentId o =>
      cases hok
      exact h.recomputeOf (by rfl) (by rfl) (by rfl) o
  | gatewayRefunds paymentId o rs =>
      obtain ⟨db1, h1, rfl⟩ := commitGatewayRefunds_eq_ok hok
      obtain ⟨hi, -, ht, hr, -⟩ := insertRefunds_frame h1
      exact h.recomputeOf hi ht hr o
  | voidCreditNote creditNoteId i =>
      rw [commitVoidCreditNote_eq_ok hok]
      exact h.recomputeOf (by rfl) (by rfl) (by rfl) (some i)

/-- Time tracking neither bills an entry nor takes one off its invoice. -/
theorem perform_billed {time : TimeDb} {op : TimeOp} {e' : TimeEntry}
    (h : e' ∈ (time.perform op).entries) (hb : e'.billingStatus = .billed) :
    ∃ e ∈ time.entries, e.billingStatus = .billed ∧ e.id = e'.id ∧ e'.invoiceId = e.invoiceId := by
  rcases TimeDb.perform_mem h with h | ⟨⟨-, hn, -⟩, -⟩ | ⟨e, he, hf, -⟩
  · exact ⟨e', h, hb, rfl, rfl⟩
  · exact absurd hb hn
  · exact ⟨e, he, hf.billed.mp hb, hf.id.symm, hf.invoice⟩

end Claims

namespace Billing

section Step

variable {s s' : Billing} {e : BillingEvent}

/-- One transaction keeps the claims and the invoices they name. -/
theorem step_files (h : Filed s.db) (hs : step s e = some s') : Files s.db s'.db := by
  have hrefl : Files s.db s.db := h.files (.refl _) rfl rfl
  cases e with
  | time op =>
      cases hs
      refine ⟨h.stay (.refl _) ?_ rfl, .refl _⟩
      intro e' he' hb
      obtain ⟨e, he, hb, -, hi⟩ := perform_billed he' hb
      exact ⟨e, he, hb, hi⟩
  | createInvoice request number externalProvider outside =>
      refine write_holds hrefl (fun db' hok => ?_) hs
      obtain ⟨rate, -, rfl⟩ := createInvoice_eq_ok hok
      exact h.files (.created rfl) rfl rfl
  | createInvoiceFromTimeEntries request number outside =>
      exact write_holds hrefl (fun db' hok => h.createInvoiceFromTimeEntries hok) hs
  | generateOneRecurringInvoice contractId companyId periodStart periodEnd number outside =>
      exact write_holds hrefl (fun db' hok => h.generateOneRecurringInvoice hok) hs
  | amendInvoice invoiceId number outside =>
      refine write_holds hrefl (fun db' hok => ?_) hs
      obtain ⟨original, -, -, -, rfl⟩ := amendInvoice_eq_ok hok
      exact h.files (.insert (by intro _; rfl) rfl) rfl rfl
  | voidInvoice invoiceId =>
      refine write_holds hrefl (fun db' hok => ?_) hs
      obtain ⟨row, -, -, rfl⟩ := voidInvoice_eq_ok hok
      exact h.files (.update (by intro _; rfl) rfl fun _ => rfl) rfl rfl
  | voidDelegatedInvoice invoiceId provider =>
      refine write_holds hrefl (fun db' hok => ?_) hs
      cases hok
      rcases voidDelegatedInvoice_cases s.db invoiceId provider with h1 | ⟨row, -, -, -, h1⟩ <;>
        rw [h1]
      · exact hrefl
      · exact h.files (.update (by intro _; rfl) rfl fun _ => rfl) rfl rfl
  | writeOffInvoice invoiceId =>
      refine write_holds hrefl (fun db' hok => ?_) hs
      obtain ⟨row, -, -, -, rfl⟩ := writeOffInvoice_eq_ok hok
      exact h.files (.update (by intro _; rfl) rfl fun _ => rfl) rfl rfl
  | createPayment request =>
      refine write_holds hrefl (fun db' hok => ?_) hs
      obtain ⟨-, rfl⟩ := createPayment_eq_ok hok
      exact h.recomputeOf (by rfl) (by rfl) (by rfl) _
  | recordGatewayPayment invoiceId providerReference amount =>
      refine write_holds hrefl (fun db' hok => ?_) hs
      rcases recordGatewayPayment_eq_ok hok with rfl | ⟨-, row, -, -, -, rfl⟩
      · exact hrefl
      · exact h.recomputeOf (by rfl) (by rfl) (by rfl) _
  | createCreditNote request outside =>
      refine write_holds hrefl (fun db' hok => ?_) hs
      obtain ⟨-, -, -, -, -, -, mk, hk, -, rfl⟩ := createCreditNote_eq_ok hok
      exact h.recomputeOf (by rfl) (by rfl) (by rfl) (some request.invoiceId)
  | startUpdate _ _ | startDeletePayment _ | startGatewayRefunds _ _ | startVoidCreditNote _ =>
      cases hs
      exact hrefl
  | commit i outside =>
      obtain ⟨c, hc, rfl⟩ := step_commit hs
      exact committed_holds hrefl fun db' hok => h.finish hok

/-- What a waiting call has read of the invoices. -/
def CallRead (db : BillingDb) : BillingCall → Prop
  | .update current request => ReadForUpdate db current request
  | .deletePayment _ _ | .gatewayRefunds _ _ _ | .voidCreditNote _ _ => True

theorem CallRead.stay {db db' : BillingDb} {c : BillingCall} (h : CallRead db c)
    (hi : InvoicesStay db db') : CallRead db' c := by
  cases c with
  | update current request =>
      obtain ⟨hs, row, hrow, ha⟩ := h
      obtain ⟨row', hm, hid, ha'⟩ := hi row (Table.find_mem hrow)
      refine ⟨hs, row', ?_, ha'.trans ha⟩
      rw [← Table.key_of_find hrow, ← hid]
      exact Table.find_key hm
  | deletePayment paymentId o => trivial
  | gatewayRefunds paymentId o rs => trivial
  | voidCreditNote creditNoteId i => trivial

/-- The condition on the rest of a call. -/
def CallKeepsWork (db : BillingDb) : BillingCall → Prop
  | .update current request => request.lines.isNone = true ∨ NamesNone db current.id
  | .deletePayment _ _ | .gatewayRefunds _ _ _ | .voidCreditNote _ _ => True

/-- The condition on one transaction: no invoice with time entries on its lines is voided by itself,
and none has its lines replaced. -/
def KeepsWork (s : Billing) : BillingEvent → Prop
  | .voidInvoice invoiceId | .voidDelegatedInvoice invoiceId _ => NamesNone s.db invoiceId
  | .commit i _ => ∀ c ∈ s.calls[i]?, CallKeepsWork s.db c
  | _ => True

instance (db : BillingDb) (invoiceId : Uuid) : Decidable (NamesNone db invoiceId) :=
  inferInstanceAs (Decidable (∀ l ∈ db.lines.rows, _ → _))

instance (db : BillingDb) (c : BillingCall) : Decidable (CallKeepsWork db c) :=
  match c with
  | .update _ _ => inferInstanceAs (Decidable (_ ∨ _))
  | .deletePayment _ _ | .gatewayRefunds _ _ _ | .voidCreditNote _ _ =>
    inferInstanceAs (Decidable True)

instance (s : Billing) (e : BillingEvent) : Decidable (KeepsWork s e) :=
  match e with
  | .voidInvoice invoiceId | .voidDelegatedInvoice invoiceId _ =>
    inferInstanceAs (Decidable (NamesNone s.db invoiceId))
  | .commit i _ => inferInstanceAs (Decidable (∀ c ∈ s.calls[i]?, CallKeepsWork s.db c))
  | .time _ | .createInvoice _ _ _ _ | .createInvoiceFromTimeEntries _ _ _
  | .generateOneRecurringInvoice _ _ _ _ _ _ | .amendInvoice _ _ _ | .writeOffInvoice _
  | .createPayment _ | .recordGatewayPayment _ _ _ | .createCreditNote _ _ | .startUpdate _ _
  | .startDeletePayment _ | .startGatewayRefunds _ _ | .startVoidCreditNote _ =>
    inferInstanceAs (Decidable True)

/-- The invariant of the runs that keep the work. -/
structure Working (s : Billing) : Prop where
  filed : Filed s.db
  kept : Kept s.db
  calls : ∀ c ∈ s.calls, CallRead s.db c

theorem finish_kept {db db' : BillingDb} {outside : AppResult Unit} {c : BillingCall} (h : Kept db)
    (hread : CallRead db c) (hw : CallKeepsWork db c) (hok : finish db outside c = .ok db') :
    Kept db' := by
  cases c with
  | update current request => exact h.updateInvoice hread hw hok
  | deletePayment paymentId o =>
      cases hok
      exact h.recomputeOf (by rfl) (by rfl) (by rfl) o
  | gatewayRefunds paymentId o rs =>
      obtain ⟨db1, h1, rfl⟩ := commitGatewayRefunds_eq_ok hok
      obtain ⟨hi, hl, ht, -⟩ := insertRefunds_frame h1
      exact h.recomputeOf hi hl ht o
  | voidCreditNote creditNoteId i =>
      rw [commitVoidCreditNote_eq_ok hok]
      exact h.recomputeOf (by rfl) (by rfl) (by rfl) (some i)

/-- One transaction that meets the condition keeps billed work on live invoices. -/
theorem step_kept (h : s.Working) (hw : s.KeepsWork e) (hs : step s e = some s') : Kept s'.db := by
  have hk := h.kept
  cases e with
  | time op =>
      cases hs
      refine ⟨?_, hk.amends, hk.voided⟩
      intro e' he' hb
      obtain ⟨e, he, hbe, hid, -⟩ := perform_billed he' hb
      rw [← hid]
      exact hk.live e he hbe
  | createInvoice request number externalProvider outside =>
      exact write_holds hk (fun db' hok => hk.createInvoice hok) hs
  | createInvoiceFromTimeEntries request number outside =>
      exact write_holds hk (fun db' hok => hk.createInvoiceFromTimeEntries hok) hs
  | generateOneRecurringInvoice contractId companyId periodStart periodEnd number outside =>
      exact write_holds hk (fun db' hok => hk.generateOneRecurringInvoice hok) hs
  | amendInvoice invoiceId number outside =>
      exact write_holds hk (fun db' hok => hk.amendInvoice hok) hs
  | voidInvoice invoiceId => exact write_holds hk (fun db' hok => hk.voidInvoice hw hok) hs
  | voidDelegatedInvoice invoiceId provider =>
      refine write_holds hk (fun db' hok => ?_) hs
      cases hok
      exact hk.voidDelegatedInvoice hw provider
  | writeOffInvoice invoiceId => exact write_holds hk (fun db' hok => hk.writeOffInvoice hok) hs
  | createPayment request =>
      refine write_holds hk (fun db' hok => ?_) hs
      obtain ⟨-, rfl⟩ := createPayment_eq_ok hok
      exact hk.recomputeOf (by rfl) (by rfl) (by rfl) _
  | recordGatewayPayment invoiceId providerReference amount =>
      refine write_holds hk (fun db' hok => ?_) hs
      rcases recordGatewayPayment_eq_ok hok with rfl | ⟨-, row, -, -, -, rfl⟩
      · exact hk
      · exact hk.recomputeOf (by rfl) (by rfl) (by rfl) _
  | createCreditNote request outside =>
      refine write_holds hk (fun db' hok => ?_) hs
      obtain ⟨-, -, -, -, -, -, mk, hid, -, rfl⟩ := createCreditNote_eq_ok hok
      exact hk.recomputeOf (by rfl) (by rfl) (by rfl) (some request.invoiceId)
  | startUpdate _ _ | startDeletePayment _ | startGatewayRefunds _ _ | startVoidCreditNote _ =>
      cases hs
      exact hk
  | commit i outside =>
      obtain ⟨c, hc, rfl⟩ := step_commit hs
      exact committed_holds hk fun db' hok =>
        finish_kept hk (h.calls c (List.mem_of_getElem? hc)) (hw c hc) hok

/-- A call that waits after a step waited before it, or has just read. -/
theorem step_callRead (hs : step s e = some s') :
    ∀ c ∈ s'.calls, c ∈ s.calls ∨ CallRead s.db c := by
  intro c hc
  refine (step_began hs c hc).imp_right fun hb => ?_
  cases hb with
  | update hread =>
      obtain ⟨hf, -, hv, -⟩ := readForUpdate_eq_ok hread
      refine ⟨hv, _, ?_, rfl⟩
      rw [Table.key_of_find hf]
      exact hf
  | deletePayment hread => trivial
  | gatewayRefunds hread => trivial
  | voidCreditNote hread => trivial

theorem step_working (h : s.Working) (hw : s.KeepsWork e) (hs : step s e = some s') :
    s'.Working := by
  obtain ⟨hf, hi⟩ := step_files h.filed hs
  refine ⟨hf, step_kept h hw hs, fun c hc => ?_⟩
  rcases step_callRead hs c hc with hc | hc
  · exact (h.calls c hc).stay hi
  · exact hc.stay hi

end Step

variable {time : TimeDb} {mileage : Table MileageEntry.id} {taxRates : List TaxRate}
  {products : List Product}

theorem init_filed (h0 : ∀ e ∈ time.entries, e.billingStatus ≠ .billed) :
    Filed (init time mileage taxRates products).db := by
  constructor
  · intro e he hb
    exact absurd hb (h0 e he)
  · simp [init]
  · simp [init]

theorem init_working (h0 : ∀ e ∈ time.entries, e.billingStatus ≠ .billed) :
    (init time mileage taxRates products).Working := by
  refine ⟨init_filed h0, ?_, by simp [init]⟩
  constructor
  · intro e he hb
    exact absurd hb (h0 e he)
  · simp [init]
  · simp [init]

/-- In every run a billed entry and a claimed period name an invoice that is there, and a period is
claimed once.  If the run voids no invoice with time entries on its lines, except by sending its
amendment, and replaces the lines of none, then every billed entry is on a line of an invoice that
is not void. -/
theorem work_of_reachable (h0 : ∀ e ∈ time.entries, e.billingStatus ≠ .billed)
    {es : List BillingEvent} {s : Billing}
    (hr : run step (init time mileage taxRates products) es = some s) :
    (∀ e ∈ s.db.time.entries, e.billingStatus = .billed →
      ∃ i ∈ s.db.invoices, e.invoiceId = some i.id) ∧
    (∀ r ∈ s.db.runs, (∃ i ∈ s.db.invoices, i.id = r.invoiceId) ∧
      ∀ r' ∈ s.db.runs, r'.contractId = r.contractId → r'.periodStart = r.periodStart → r' = r) ∧
    (StepsMeet step KeepsWork (init time mileage taxRates products) es →
      ∀ e ∈ s.db.time.entries, e.billingStatus = .billed →
        ∃ i ∈ s.db.invoices, i.status ≠ .void ∧
          ∃ l ∈ s.db.lines, l.invoiceId = i.id ∧ e.id ∈ l.timeEntryIds) := by
  have hf : Filed s.db := run_invariant (fun s => Filed s.db)
    (fun _ _ _ h hs => (step_files h hs).1) (init_filed h0) hr
  refine ⟨hf.billed, fun r hm => ⟨hf.claimed r hm, hf.once r hm⟩, fun hw => ?_⟩
  exact (run_invariant_of_stepsMeet Working (fun _ _ _ h hw hs => step_working h hw hs)
    (init_working h0) hw hr).kept.live

/-- A contract with one service that is billed every month. -/
def serviceBook : ContractBook where
  contracts := ∅
  items := (∅ : Table ContractItem.id).insert fun i =>
    { id := i
      contractId := 0
      name := "Monitoring"
      itemType := .recurringService
      quantity := some ⟨100⟩
      unitPrice := ⟨20000⟩
      totalPrice := ⟨20000⟩
      includedHours := none
      overageRate := none
      rolloverEnabled := none
      maxRolloverHours := none
      sortOrder := 0
      billingRule := .everyPeriod
      billed := false }

/-- An hour is logged and invoiced, and a month of service is invoiced. -/
def billsWork : List BillingEvent :=
  [.time (.createTimeEntry (sampleRequest 60 (sampleDay 1 10))),
    .createInvoiceFromTimeEntries ⟨7, none, none, none⟩ "INV-1" (.ok ()),
    .generateOneRecurringInvoice 0 7 (sampleDay 1 1) (sampleDay 1 31) "INV-2" (.ok ())]

/-- Both invoices are voided while they are drafts.  The entry stays billed and is on no line of a
live invoice; the month stays claimed, by an invoice that is void. -/
theorem void_loses_work :
    ∃ s, run step (init (sampleTimeDb serviceBook) ∅ [] [])
        (billsWork ++ [.voidInvoice 0, .voidInvoice 1]) = some s ∧
      (∃ e ∈ s.db.time.entries, e.billingStatus = .billed ∧ ¬ ∃ i ∈ s.db.invoices,
        i.status ≠ .void ∧ ∃ l ∈ s.db.lines, l.invoiceId = i.id ∧ e.id ∈ l.timeEntryIds) ∧
      ∃ r ∈ s.db.runs, ∀ i ∈ s.db.invoices, i.id = r.invoiceId → i.status = .void := by
  have h : (run step (init (sampleTimeDb serviceBook) ∅ [] [])
      (billsWork ++ [.voidInvoice 0, .voidInvoice 1])).any (fun s =>
        (s.db.time.entries.rows.any fun e => decide (e.billingStatus = .billed)) &&
        s.db.invoices.rows.all (fun i => decide (i.status = .void)) &&
        s.db.runs.rows.any (fun _ => true)) = true := by decide +kernel
  obtain ⟨s, hs, hp⟩ := exists_run_of_any h
  rw [Bool.and_eq_true, Bool.and_eq_true] at hp
  obtain ⟨⟨he, hi⟩, hr⟩ := hp
  have hvoid : ∀ i ∈ s.db.invoices, i.status = .void := by
    intro i hm
    simpa using List.all_eq_true.mp hi i hm
  obtain ⟨e, hem, heb⟩ := List.any_eq_true.mp he
  obtain ⟨r, hrm, -⟩ := List.any_eq_true.mp hr
  refine ⟨s, hs, ⟨e, hem, by simpa using heb, ?_⟩, r, hrm, fun i hm _ => hvoid i hm⟩
  rintro ⟨i, hm, hne, -⟩
  exact hne (hvoid i hm)

/-- The invoice of the hour is sent, amended, and the amendment is sent. -/
theorem work_of_reachable_sample :
    ∃ s, run step (init (sampleTimeDb serviceBook) ∅ [] [])
        (billsWork ++ [.startUpdate 0 { status := some .sent }, .commit 0 (.ok ()),
          .amendInvoice 0 "INV-3" (.ok ()), .startUpdate 2 { status := some .sent },
          .commit 0 (.ok ())]) = some s ∧
      (∃ i ∈ s.db.invoices, i.id = 0 ∧ i.status = .void) ∧
      ∀ e ∈ s.db.time.entries, e.billingStatus = .billed →
        ∃ i ∈ s.db.invoices, i.status ≠ .void ∧
          ∃ l ∈ s.db.lines, l.invoiceId = i.id ∧ e.id ∈ l.timeEntryIds := by
  have h : (run step (init (sampleTimeDb serviceBook) ∅ [] [])
      (billsWork ++ [.startUpdate 0 { status := some .sent }, .commit 0 (.ok ()),
        .amendInvoice 0 "INV-3" (.ok ()), .startUpdate 2 { status := some .sent },
        .commit 0 (.ok ())])).any (fun s =>
      s.db.invoices.rows.any fun i => decide (i.id = 0 ∧ i.status = .void)) = true := by
    decide +kernel
  obtain ⟨s, hs, hp⟩ := exists_run_of_any h
  obtain ⟨i, hi, hv⟩ := List.any_eq_true.mp hp
  have h0 : ∀ e ∈ (sampleTimeDb serviceBook).entries, e.billingStatus ≠ .billed :=
    fun e he => absurd he (Table.not_mem_empty e)
  refine ⟨s, hs, ⟨i, hi, by simpa using hv⟩, (work_of_reachable h0 hs).2.2 ?_⟩
  decide +kernel

end Billing

end Mokosh
