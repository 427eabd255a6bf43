import Mathlib.Logic.Relation
import Mokosh.Billing.Writes

/-! # Chains of amendments

An amendment is a draft that names the invoice it will replace.  Days may pass until it is sent, and
only then the invoice is voided, so what was checked when the draft was made is checked again.

**`amendment_chains`**: in runs whose updates send drafts or leave them drafts,

* an invoice whose replacement was sent is void;
* no call voids an invoice with a payment or an issued credit note when it commits;
* of all invoices that go back to the same first one, at most one is issued and not void.

The third follows from two facts about one link (`Chained.once`, `Chained.replaced`): an invoice has
at most one replacement that was sent, so the sent invoices of a chain form a line, and each of them
but the last is void. -/

namespace Mokosh

/-- The marks of an invoice agree with its status. -/
structure Invoice.Marked (i : Invoice) : Prop where
  issued : i.status.isFrozen = true → i.status ≠ .void → i.sentAt = true
  draft : i.status.isFrozen = false → i.sentAt = false
  writtenOff : i.writtenOffAt = true →
    i.sentAt = true ∧ (i.status = .writtenOff ∨ i.status = .void)
  voided : i.voidedAt = true → i.writtenOffAt = false → i.status = .void
  void : i.status = .void → i.voidedAt = true

/-- The invoice is void for good. -/
def Invoice.Replaced (i : Invoice) : Prop :=
  i.status = .void ∧ i.voidedAt = true ∧ i.writtenOffAt = false

/-- The invariant of the invoices. -/
structure Chained (t : Table Invoice.id) : Prop where
  marked : ∀ i ∈ t, i.Marked
  origin : ∀ i ∈ t, ∀ o, i.amendsInvoiceId = some o → ∃ x ∈ t, x.id = o ∧ x.sentAt = true
  replaced : ∀ i ∈ t, i.sentAt = true → ∀ o, i.amendsInvoiceId = some o →
    ∃ x ∈ t, x.id = o ∧ x.Replaced
  once : ∀ i ∈ t, ∀ j ∈ t, i.sentAt = true → j.sentAt = true → ∀ o,
    i.amendsInvoiceId = some o → j.amendsInvoiceId = some o → i = j

/-! ### Chains -/

/-- The invoice `a` amends `b`. -/
def Amends (t : Table Invoice.id) (a b : Uuid) : Prop :=
  ∃ i ∈ t, i.id = a ∧ i.amendsInvoiceId = some b

/-- Going back from both invoices ends at the same one. -/
def SameChain (t : Table Invoice.id) (a b : Uuid) : Prop :=
  ∃ r, Relation.ReflTransGen (Amends t) a r ∧ Relation.ReflTransGen (Amends t) b r

/-- The invoice `b` was sent to replace `a`. -/
def SentFor (t : Table Invoice.id) (a b : Uuid) : Prop :=
  ∃ i ∈ t, i.id = b ∧ i.sentAt = true ∧ i.amendsInvoiceId = some a

section Chain

variable {t : Table Invoice.id}

theorem Chained.sentFor_unique (h : Chained t) : Relator.RightUnique (SentFor t) := by
  rintro a _ _ ⟨i, hi, rfl, his, hia⟩ ⟨j, hj, rfl, hjs, hja⟩
  rw [h.once i hi j hj his hjs a hia hja]

/-- What a sent invoice goes back to was replaced step by step by sent ones. -/
theorem Chained.sentFor_of_chain (h : Chained t) {i : Invoice} (hi : i ∈ t) (hs : i.sentAt = true)
    {r : Uuid} (hr : Relation.ReflTransGen (Amends t) i.id r) :
    Relation.ReflTransGen (SentFor t) r i.id ∧ ∃ x ∈ t, x.id = r ∧ x.sentAt = true := by
  induction hr with
  | refl => exact ⟨.refl, i, hi, rfl, hs⟩
  | @tail b c _ hlink ih =>
      obtain ⟨hback, x, hx, hxb, hxs⟩ := ih
      obtain ⟨y, hy, hyb, hyc⟩ := hlink
      have hxy : x = y := Table.eq_of_key_eq hx hy (hxb.trans hyb.symm)
      subst hxy
      exact ⟨.head ⟨x, hx, hxb, hxs, hyc⟩ hback, h.origin x hx c hyc⟩

/-- An invoice that another one was sent for is void. -/
theorem Chained.void_of_sentFor (h : Chained t) {x : Invoice} (hx : x ∈ t) {b : Uuid}
    (hb : SentFor t x.id b) : x.status = .void := by
  obtain ⟨i, hi, -, his, hia⟩ := hb
  obtain ⟨y, hy, hyx, hv, -⟩ := h.replaced i hi his x.id hia
  rwa [Table.eq_of_key_eq hy hx hyx] at hv

/-- Of the issued invoices of a chain all but the last are void. -/
theorem Chained.eq_of_sameChain (h : Chained t) {x y : Invoice} (hx : x ∈ t) (hy : y ∈ t)
    (hxs : x.sentAt = true) (hys : y.sentAt = true) (hxv : x.status ≠ .void)
    (hyv : y.status ≠ .void) (hc : SameChain t x.id y.id) : x = y := by
  obtain ⟨r, hxr, hyr⟩ := hc
  obtain ⟨h1, -⟩ := h.sentFor_of_chain hx hxs hxr
  obtain ⟨h2, -⟩ := h.sentFor_of_chain hy hys hyr
  -- Nothing was sent for either, so neither comes before the other.
  rcases Relation.ReflTransGen.total_of_right_unique h.sentFor_unique h1 h2 with h3 | h3
  · rcases Relation.ReflTransGen.cases_head h3 with heq | ⟨b, hb, -⟩
    · exact Table.eq_of_key_eq hx hy heq
    · exact absurd (h.void_of_sentFor hx hb) hxv
  · rcases Relation.ReflTransGen.cases_head h3 with heq | ⟨b, hb, -⟩
    · exact (Table.eq_of_key_eq hy hx heq).symm
    · exact absurd (h.void_of_sentFor hy hb) hyv

end Chain

/-! ### Writing invoices -/

section Tables

variable {t : Table Invoice.id} {k : Uuid}

/-- A new invoice; if it amends one, that one was sent and this one was not. -/
theorem Chained.insert (h : Chained t) {mk : ℕ → Invoice} {hk : ∀ i, (mk i).id = i}
    (hm : (mk t.next).Marked)
    (ha : ∀ o, (mk t.next).amendsInvoiceId = some o → (mk t.next).sentAt = false ∧
      ∃ x ∈ t, x.id = o ∧ x.sentAt = true) : Chained (t.insert mk hk) := by
  have hstay : ∀ x ∈ t, x ∈ t.insert mk hk := fun x hx => (Table.mem_insert).mpr (.inl hx)
  -- A sent amendment was there before.
  have hold : ∀ x ∈ t.insert mk hk, x.sentAt = true → ∀ o, x.amendsInvoiceId = some o → x ∈ t := by
    intro x hx hs o ho
    rcases (Table.mem_insert).mp hx with hx | rfl
    · exact hx
    · rw [(ha o ho).1] at hs
      exact absurd hs (by simp)
  refine ⟨?_, ?_, ?_, ?_⟩
  · intro x hx
    rcases (Table.mem_insert).mp hx with hx | rfl
    · exact h.marked x hx
    · exact hm
  · intro x hx o ho
    rcases (Table.mem_insert).mp hx with hx | rfl
    · obtain ⟨y, hy, h1⟩ := h.origin x hx o ho
      exact ⟨y, hstay y hy, h1⟩
    · obtain ⟨-, y, hy, h1⟩ := ha o ho
      exact ⟨y, hstay y hy, h1⟩
  · intro x hx hs o ho
    obtain ⟨y, hy, h1⟩ := h.replaced x (hold x hx hs o ho) hs o ho
    exact ⟨y, hstay y hy, h1⟩
  · intro x hx y hy hxs hys o hxo hyo
    exact h.once x (hold x hx hxs o hxo) y (hold y hy hys o hyo) hxs hys o hxo hyo

section Update

variable {f : Invoice → Invoice} {hf : ∀ r, (f r).id = r.id}

/-- A row after an update, and what it was. -/
theorem exists_of_mem_update {x : Invoice} (hx : x ∈ t.update k f hf) :
    ∃ r ∈ t, r.id = x.id ∧ (r.id = k ∧ x = f r ∨ r.id ≠ k ∧ x = r) := by
  obtain ⟨r, hr, rfl⟩ := (Table.mem_update).mp hx
  by_cases hk : r.id = k
  · rw [if_pos hk]
    exact ⟨r, hr, (hf r).symm, .inl ⟨hk, rfl⟩⟩
  · rw [if_neg hk]
    exact ⟨r, hr, rfl, .inr ⟨hk, rfl⟩⟩

/-- A row is written that was not sent before, or stays sent; what it amends is void then. -/
theorem Chained.update (h : Chained t) (ha : ∀ r, (f r).amendsInvoiceId = r.amendsInvoiceId)
    (hm : ∀ r ∈ t, r.id = k → (f r).Marked)
    (hs : ∀ r ∈ t, r.id = k → r.sentAt = true → (f r).sentAt = true)
    (hr : ∀ r ∈ t, r.id = k → r.Replaced → (f r).Replaced)
    (hsent : ∀ r ∈ t, r.id = k → (f r).sentAt = true → r.sentAt = true ∨
      ∀ o, r.amendsInvoiceId = some o → (∃ x ∈ t, x.id = o ∧ x.Replaced) ∧
        ∀ j ∈ t, j.sentAt = true → j.amendsInvoiceId ≠ some o) :
    Chained (t.update k f hf) := by
  -- What holds of a row and survives the write holds of the row that it became.
  have hkeep : ∀ {P : Invoice → Prop}, (∀ r ∈ t, r.id = k → P r → P (f r)) →
      ∀ {o : Uuid}, (∃ x ∈ t, x.id = o ∧ P x) → ∃ x ∈ t.update k f hf, x.id = o ∧ P x := by
    rintro P hP o ⟨x, hx, rfl, hp⟩
    refine ⟨if x.id = k then f x else x, (Table.mem_update).mpr ⟨x, hx, rfl⟩, ?_⟩
    split
    · next hk => exact ⟨hf x, hP x hx hk hp⟩
    · exact ⟨rfl, hp⟩
  refine ⟨?_, ?_, ?_, ?_⟩
  · intro x hx
    obtain ⟨r, hrm, -, ⟨hk, rfl⟩ | ⟨-, rfl⟩⟩ := exists_of_mem_update hx
    · exact hm r hrm hk
    · exact h.marked x hrm
  · intro x hx o ho
    obtain ⟨r, hrm, -, ⟨hk, rfl⟩ | ⟨-, rfl⟩⟩ := exists_of_mem_update hx
    · rw [ha] at ho
      exact hkeep hs (h.origin r hrm o ho)
    · exact hkeep hs (h.origin x hrm o ho)
  · intro x hx hxs o ho
    obtain ⟨r, hrm, -, ⟨hk, rfl⟩ | ⟨-, rfl⟩⟩ := exists_of_mem_update hx
    · rw [ha] at ho
      rcases hsent r hrm hk hxs with h1 | h1
      · exact hkeep hr (h.replaced r hrm h1 o ho)
      · exact hkeep hr (h1 o ho).1
    · exact hkeep hr (h.replaced x hrm hxs o ho)
  · intro x hx y hy hxs hys o hxo hyo
    obtain ⟨r, hrm, hrx, hxr⟩ := exists_of_mem_update hx
    obtain ⟨q, hqm, hqy, hyq⟩ := exists_of_mem_update hy
    -- Both rows were sent before, or one of them has just been and there is no other.
    have hpair : r = q := by
      rcases hxr with ⟨hrk, rfl⟩ | ⟨hrk, rfl⟩ <;> rcases hyq with ⟨hqk, rfl⟩ | ⟨hqk, rfl⟩
      · exact Table.eq_of_key_eq hrm hqm (hrk.trans hqk.symm)
      · rw [ha] at hxo
        rcases hsent r hrm hrk hxs with h1 | h1
        · exact h.once r hrm y hqm h1 hys o hxo hyo
        · exact absurd hyo ((h1 o hxo).2 y hqm hys)
      · rw [ha] at hyo
        rcases hsent q hqm hqk hys with h1 | h1
        · exact h.once x hrm q hqm hxs h1 o hxo hyo
        · exact absurd hxo ((h1 o hyo).2 x hrm hxs)
      · exact h.once x hrm y hqm hxs hys o hxo hyo
    exact Table.eq_of_key_eq hx hy (by rw [← hrx, ← hqy, hpair])

/-- A status or a mark is written that does not touch `sent_at`. -/
theorem Chained.mark (h : Chained t) (ha : ∀ r, (f r).amendsInvoiceId = r.amendsInvoiceId)
    (hs : ∀ r, (f r).sentAt = r.sentAt) (hm : ∀ r ∈ t, r.id = k → (f r).Marked)
    (hr : ∀ r ∈ t, r.id = k → r.Replaced → (f r).Replaced) : Chained (t.update k f hf) := by
  refine h.update ha hm (fun r _ _ h1 => (hs r).trans h1) hr fun r _ _ h1 => ?_
  rw [hs] at h1
  exact .inl h1

/-- A draft is written; if it is sent now, what it amends is void and has no other replacement. -/
theorem Chained.writeDraft (h : Chained t) {row : Invoice} (hrow : t.find k = some row)
    (hd : row.status.isFrozen = false) (ha : ∀ r, (f r).amendsInvoiceId = r.amendsInvoiceId)
    (hm : (f row).Marked)
    (hsent : (f row).sentAt = true → ∀ o, row.amendsInvoiceId = some o →
      (∃ x ∈ t, x.id = o ∧ x.Replaced) ∧ ∀ j ∈ t, j.sentAt = true → j.amendsInvoiceId ≠ some o) :
    Chained (t.update k f hf) := by
  have hmarked := h.marked row (Table.find_mem hrow)
  refine h.update ha ?_ ?_ ?_ ?_
  · intro r hr hk
    rw [Table.eq_of_find hrow hr hk]
    exact hm
  · intro r hr hk hrs
    rw [Table.eq_of_find hrow hr hk, hmarked.draft hd] at hrs
    exact absurd hrs (by simp)
  · intro r hr hk hrr
    rw [Table.eq_of_find hrow hr hk] at hrr
    exact absurd hrr.1 (InvoiceStatus.ne_of_unfrozen hd rfl)
  · intro r hr hk hfr
    rw [Table.eq_of_find hrow hr hk] at hfr ⊢
    exact .inr (hsent hfr)

end Update

/-! ### The marks after each write -/

theorem Invoice.New.marked {i : Invoice} (h : i.New) : i.Marked := by
  have hw := h.writtenOffAt
  have hv := h.voidedAt
  rcases h.status with ⟨h1, h2⟩ | ⟨h1, h2⟩ <;>
    constructor <;> simp [h1, h2, hw, hv, InvoiceStatus.isFrozen]

theorem Invoice.amendment_marked (i : Invoice) (number : String) (id : Uuid) :
    (i.amendment number id).Marked := by
  constructor <;> simp [Invoice.amendment, InvoiceStatus.isFrozen]

/-- The status after a recompute, by the branch that was taken. -/
theorem Invoice.recomputed_status (i : Invoice) (paid credited : Numeric 2) :
    i.status.isFrozen = false ∧ (i.recomputed paid credited).status = i.status ∨
    i.status.isFrozen = true ∧
      (i.writtenOffAt = true ∧ (i.recomputed paid credited).status = .writtenOff ∨
        i.writtenOffAt = false ∧ i.voidedAt = true ∧ (i.recomputed paid credited).status = .void ∨
        i.writtenOffAt = false ∧ i.voidedAt = false ∧
          (i.recomputed paid credited).status ≠ .void) := by
  by_cases hd : i.status = .draft ∨ i.status = .pending
  · refine .inl ⟨?_, if_pos hd⟩
    rcases hd with h | h <;> rw [h] <;> rfl
  · refine .inr ⟨InvoiceStatus.isFrozen_of_not hd, ?_⟩
    unfold recomputed
    simp only [if_neg hd]
    cases hw : i.writtenOffAt with
    | true => exact .inl ⟨rfl, by simp⟩
    | false =>
        cases hv : i.voidedAt with
        | true => exact .inr (.inl ⟨rfl, rfl, by simp⟩)
        | false =>
            refine .inr (.inr ⟨rfl, rfl, ?_⟩)
            simp only [Bool.false_eq_true, if_false]
            split_ifs <;> simp

theorem Invoice.Marked.recomputed {i : Invoice} (h : i.Marked) (paid credited : Numeric 2) :
    (i.recomputed paid credited).Marked := by
  have hfrozen := i.recomputed_isFrozen paid credited
  rcases i.recomputed_status paid credited with
    ⟨hf, hs⟩ | ⟨hf, ⟨hw, hs⟩ | ⟨hw, hv, hs⟩ | ⟨hw, hv, hs⟩⟩
  · refine ⟨?_, ?_, ?_, ?_, ?_⟩
    · rw [hs]
      exact h.issued
    · rw [hs]
      exact h.draft
    · rw [hs]
      exact h.writtenOff
    · rw [hs]
      exact h.voided
    · rw [hs]
      exact h.void
  · refine ⟨fun _ _ => (h.writtenOff hw).1, fun hz => ?_, fun _ => ⟨(h.writtenOff hw).1, .inl hs⟩,
      fun _ hz => ?_, fun hz => ?_⟩
    · rw [hfrozen, hf] at hz
      exact absurd hz (by simp)
    · exact absurd (hw.symm.trans hz) (by simp)
    · rw [hs] at hz
      exact absurd hz (by simp)
  · refine ⟨fun _ hz => absurd hs hz, fun hz => ?_, fun hz => ?_, fun _ _ => hs, fun _ => hv⟩
    · rw [hfrozen, hf] at hz
      exact absurd hz (by simp)
    · exact absurd (hw.symm.trans hz) (by simp)
  · have hne : i.status ≠ .void := by
      intro hz
      rw [h.void hz] at hv
      exact absurd hv (by simp)
    refine ⟨fun _ _ => h.issued hf hne, fun hz => ?_, fun hz => ?_, fun hz => ?_, fun hz => ?_⟩
    · rw [hfrozen, hf] at hz
      exact absurd hz (by simp)
    · exact absurd (hw.symm.trans hz) (by simp)
    · exact absurd (hv.symm.trans hz) (by simp)
    · exact absurd hz hs

theorem Invoice.Marked.not_writtenOff {i : Invoice} (h : i.Marked) (hw : i.status ≠ .writtenOff)
    (hv : i.status ≠ .void) : i.writtenOffAt = false := by
  by_contra hz
  obtain ⟨-, h1 | h1⟩ := h.writtenOff (by simpa using hz)
  · exact hw h1
  · exact hv h1

theorem Invoice.Replaced.recomputed {i : Invoice} (h : i.Replaced) (paid credited : Numeric 2) :
    (i.recomputed paid credited).Replaced := by
  obtain ⟨h1, h2, h3⟩ := h
  refine ⟨?_, h2, h3⟩
  simp [Invoice.recomputed, h1, h2, h3]

theorem Invoice.Marked.afterVoid {i j : Invoice} (h : i.Marked) (hs : j.status = .void)
    (hv : j.voidedAt = true) (hsent : j.sentAt = i.sentAt)
    (hw : j.writtenOffAt = i.writtenOffAt) : j.Marked := by
  refine ⟨fun _ hz => absurd hs hz, fun hz => ?_, fun hz => ?_, fun _ _ => hs, fun _ => hv⟩
  · rw [hs] at hz
    exact absurd hz (by simp [InvoiceStatus.isFrozen])
  · rw [hsent]
    exact ⟨(h.writtenOff (hw ▸ hz)).1, .inr hs⟩

theorem Invoice.Marked.afterWriteOff {i : Invoice} (h : i.Marked)
    (hs : i.status = .sent ∨ i.status = .partiallyPaid) : i.writtenOffNow.Marked := by
  have hsent : i.sentAt = true := by
    rcases hs with hs | hs <;> exact h.issued (by rw [hs]; rfl) (by rw [hs]; simp)
  constructor <;> simp [Invoice.writtenOffNow, InvoiceStatus.isFrozen, hsent]

theorem Invoice.rewritten_sentAt (i current : Invoice) (request : UpdateInvoiceRequest)
    (lines : Numeric 2) (tax : AppliedTax) :
    (i.rewritten current request lines tax).sentAt =
      (current.sentAt || decide (request.status.getD i.status = .sent)) := by
  unfold rewritten
  split <;> rfl

/-- A draft after an update that sends it or leaves it a draft. -/
theorem Invoice.Marked.rewritten {i current : Invoice} {request : UpdateInvoiceRequest}
    (h : i.Marked) (hf : i.status.isFrozen = false) (hsent : current.sentAt = false)
    (hst : request.status.getD i.status = .sent ∨ request.status.getD i.status ≠ .sent ∧
      (request.status.getD i.status).isFrozen = false) (lines : Numeric 2) (tax : AppliedTax) :
    (i.rewritten current request lines tax).Marked := by
  obtain ⟨h1, h2, h3, -⟩ := i.rewritten_marks current request lines tax
  have h4 := i.rewritten_sentAt current request lines tax
  have hw : i.writtenOffAt = false := by
    apply h.not_writtenOff
    · exact InvoiceStatus.ne_of_unfrozen hf rfl
    · exact InvoiceStatus.ne_of_unfrozen hf rfl
  have hv : i.voidedAt = false := by
    by_contra hv
    exact InvoiceStatus.ne_of_unfrozen hf rfl (h.voided (by simpa using hv) hw)
  rcases hst with hz | ⟨hz, hzf⟩
  · constructor <;> simp [h1, h2, h3, h4, hz, hw, hv, InvoiceStatus.isFrozen]
  · have hne : request.status.getD i.status ≠ .void := InvoiceStatus.ne_of_unfrozen hzf rfl
    constructor <;> simp [h1, h2, h3, h4, hz, hzf, hne, hsent, hw, hv]

/-- An invoice is voided, by hand, by its provider or by its replacement. -/
theorem Chained.void (h : Chained t) {f : Invoice → Invoice} {hf : ∀ r, (f r).id = r.id}
    (ha : ∀ r, (f r).amendsInvoiceId = r.amendsInvoiceId) (hs : ∀ r, (f r).sentAt = r.sentAt)
    (hw : ∀ r, (f r).writtenOffAt = r.writtenOffAt)
    (hv : ∀ r, (f r).status = .void ∧ (f r).voidedAt = true) : Chained (t.update k f hf) := by
  refine h.mark ha hs (fun r hr _ => ?_) fun r _ _ hrr => ?_
  · exact (h.marked r hr).afterVoid (hv r).1 (hv r).2 (hs r) (hw r)
  · exact ⟨(hv r).1, (hv r).2, (hw r).trans hrr.2.2⟩

/-- A sent invoice that is voided has no sent replacement yet. -/
theorem Chained.voidAsAmended (h : Chained t) {o : Uuid} {original : Invoice}
    (ho : t.find o = some original) (hs : original.status = .sent) :
    Chained (t.update o (·.voidAsAmended)) ∧
      (∃ x ∈ t.update o (·.voidAsAmended), x.id = o ∧ x.Replaced) ∧
      ∀ j ∈ t.update o (·.voidAsAmended), j.sentAt = true → j.amendsInvoiceId ≠ some o := by
  have hom := Table.find_mem ho
  have hoid := Table.key_of_find ho
  have hw : original.writtenOffAt = false := by
    apply (h.marked original hom).not_writtenOff
    · rw [hs]
      simp
    · rw [hs]
      simp
  refine ⟨h.void (fun _ => rfl) (fun _ => rfl) (fun _ => rfl) fun _ => ⟨rfl, rfl⟩, ?_, ?_⟩
  · exact ⟨original.voidAsAmended, (Table.mem_update).mpr ⟨original, hom, if_pos hoid⟩, hoid, rfl,
      rfl, hw⟩
  · intro j hj hjs hjo
    obtain ⟨r, hr, -, hjr⟩ := exists_of_mem_update hj
    have hro : r.sentAt = true ∧ r.amendsInvoiceId = some o := by
      rcases hjr with ⟨-, rfl⟩ | ⟨-, rfl⟩ <;> exact ⟨hjs, hjo⟩
    -- A replacement that was sent before had voided the invoice.
    obtain ⟨x, hx, hxo, hxv, -⟩ := h.replaced r hr hro.1 o hro.2
    rw [Table.eq_of_find ho hx hxo, hs] at hxv
    exact absurd hxv (by simp)

end Tables

/-! ### One transaction -/

/-- No refunds, and updates either send a draft or leave it one. -/
def BillingEvent.sends : BillingEvent → Bool
  | .startUpdate _ request =>
    decide (request.status ≠ some .paid ∧ request.status ≠ some .partiallyPaid)
  | .startGatewayRefunds _ _ => false
  | _ => true

theorem BillingEvent.refundless_of_sends {e : BillingEvent} (h : e.sends = true) :
    e.refundless = true := by
  cases e <;> first | rfl | exact absurd h (by simp [BillingEvent.sends])

namespace Billing

/-- A waiting update has read a draft, and will send it or leave it a draft. -/
def CallSends : BillingCall → Prop
  | .update current request => current.sentAt = false ∧ request.status ≠ some .void ∧
    request.status ≠ some .writtenOff ∧ request.status ≠ some .paid ∧
    request.status ≠ some .partiallyPaid
  | .deletePayment _ _ | .gatewayRefunds _ _ _ | .voidCreditNote _ _ => True

/-- The invariant of the runs that send drafts. -/
structure Amending (s : Billing) : Prop extends Refundless s where
  chained : Chained s.db.invoices
  reads : ∀ c ∈ s.calls, CallRead s.db c
  sends : ∀ c ∈ s.calls, CallSends c

section Step

variable {s s' : Billing} {e : BillingEvent}

/-- The status of a draft after an update. -/
theorem updated_status {row : Invoice} {request : UpdateInvoiceRequest}
    (hf : row.status.isFrozen = false) (h1 : request.status ≠ some .void)
    (h2 : request.status ≠ some .writtenOff) (h3 : request.status ≠ some .paid)
    (h4 : request.status ≠ some .partiallyPaid) :
    request.status.getD row.status = .sent ∨
      request.status.getD row.status ≠ .sent ∧
        (request.status.getD row.status).isFrozen = false := by
  cases hq : request.status with
  | none => exact .inr ⟨InvoiceStatus.ne_of_unfrozen hf rfl, hf⟩
  | some st =>
      rw [hq] at h1 h2 h3 h4
      cases st <;> simp_all [InvoiceStatus.isFrozen]

/-- The commit of an update, as one write after the void of what it replaces. -/
theorem Amending.update (h : s.Amending) {current row : Invoice} {request : UpdateInvoiceRequest}
    {rate : Option TaxRate} (hsends : CallSends (.update current request))
    (hread : CallRead s.db (.update current request))
    (hrow : s.db.invoices.find current.id = some row) (hf : row.status.isFrozen = false)
    (hamend : checkAmended s.db (replacedBy row current request) = .ok ()) :
    Chained (voidAmended (rewriteInvoice s.db current request rate)
      (replacedBy row current request)).invoices := by
  have hc := h.chained
  obtain ⟨hsent, h1, h2, h3, h4⟩ := hsends
  obtain ⟨-, row', hrow', ha⟩ := hread
  rw [hrow, Option.some.injEq] at hrow'
  subst hrow'
  -- The row that is written.
  generalize hg : (fun i : Invoice => i.rewritten current request
    ((replaceLines s.db current.id request.lines).linesOf current.id)
    (taxOn ((replaceLines s.db current.id request.lines).taxableOf current.id) request.taxAmount
      rate)) = g
  have hgid : ∀ r, (g r).id = r.id := by
    intro r
    rw [← hg]
    exact (r.rewritten_same current request _ _).1
  have hga : ∀ r, (g r).amendsInvoiceId = r.amendsInvoiceId := by
    intro r
    rw [← hg]
    exact (r.rewritten_marks current request _ _).2.2.2
  have hgs : (g row).sentAt = decide (request.status.getD row.status = .sent) := by
    rw [← hg]
    simp only [Invoice.rewritten_sentAt, hsent, Bool.false_or]
  have hnew : (g row).Marked := by
    rw [← hg]
    exact (hc.marked row (Table.find_mem hrow)).rewritten hf hsent (updated_status hf h1 h2 h3 h4)
      _ _
  have hinv : (rewriteInvoice s.db current request rate).invoices =
      s.db.invoices.update current.id g hgid := by
    subst hg
    rfl
  cases hrep : replacedBy row current request with
  | none =>
      show Chained (rewriteInvoice s.db current request rate).invoices
      rw [hinv]
      refine hc.writeDraft hrow hf hga hnew fun hgr o ho => ?_
      -- A row that is sent replaces what it amends.
      rw [hgs, decide_eq_true_iff] at hgr
      rw [replacedBy, if_pos ⟨hgr, hsent⟩, ← ha, ho] at hrep
      exact absurd hrep (by simp)
  | some o =>
      rw [hrep] at hamend
      obtain ⟨original, ho, hos, -, -⟩ := checkAmended_eq_ok hamend
      have hne : current.id ≠ o := (ne_of_checkAmended hamend hrow hf).symm
      have hro : row.amendsInvoiceId = some o := by
        rw [replacedBy] at hrep
        split at hrep
        · rw [ha]
          exact hrep
        · exact absurd hrep (by simp)
      show Chained ((rewriteInvoice s.db current request rate).invoices.update o
        (·.voidAsAmended))
      rw [hinv, Table.update_comm hne]
      obtain ⟨hvoid, hreplaced, hnone⟩ := hc.voidAsAmended ho hos
      refine hvoid.writeDraft ?_ hf hga hnew fun _ o' ho' => ?_
      · rw [Table.find_update_ne hne]
        exact hrow
      · rw [hro, Option.some.injEq] at ho'
        subst ho'
        exact ⟨hreplaced, hnone⟩

theorem Chained.recomputeOf {db db1 : BillingDb} (h : Chained db.invoices)
    (hi : db1.invoices = db.invoices) (o : Option Uuid) :
    Chained (Mokosh.recomputeOf db1 o).invoices := by
  cases o with
  | none =>
      show Chained db1.invoices
      rw [hi]
      exact h
  | some k =>
      rw [recomputeOf_invoices hi]
      exact h.mark (fun _ => rfl) (fun _ => rfl) (fun r hr _ => (h.marked r hr).recomputed _ _)
        fun r _ _ hrr => hrr.recomputed _ _

/-- One transaction keeps the chains. -/
theorem step_chained (h : s.Amending) (hs : step s e = some s') : Chained s'.db.invoices := by
  have hc := h.chained
  have hw := step_wrote hs
  generalize s'.db = db' at hw ⊢
  cases hw with
  | idle hi hm =>
      rw [hi]
      exact hc
  | create hk hnew hi hm =>
      rw [hi]
      refine hc.insert (hnew _).marked fun o ho => ?_
      rw [(hnew _).amends] at ho
      exact absurd ho (by simp)
  | @amend k number outside db' original hrow hst hp hcr hno hi hm =>
      rw [hi]
      refine hc.insert (original.amendment_marked number _) fun o ho => ⟨rfl, ?_⟩
      have ho' : original.id = o := Option.some.inj ho
      have hom := Table.find_mem hrow
      exact ⟨original, hom, ho', (hc.marked original hom).issued (by rw [hst]; rfl)
        (by rw [hst]; simp)⟩
  | void hrow hf =>
      show Chained (s.db.invoices.update _ (·.voided))
      exact hc.void (fun _ => rfl) (fun _ => rfl) (fun _ => rfl) fun _ => ⟨rfl, rfl⟩
  | voidDelegated hrow hp hne =>
      show Chained (s.db.invoices.update _ (·.voided))
      exact hc.void (fun _ => rfl) (fun _ => rfl) (fun _ => rfl) fun _ => ⟨rfl, rfl⟩
  | @writeOff k row hrow hst hd =>
      show Chained (s.db.invoices.update k (·.writtenOffNow))
      refine hc.mark (fun _ => rfl) (fun _ => rfl) (fun r hr hk => ?_) fun r hr hk hrr => ?_
      · rw [← Table.eq_of_find hrow hr hk] at hst
        exact (hc.marked r hr).afterWriteOff hst
      · rw [← Table.eq_of_find hrow hr hk, hrr.1] at hst
        exact absurd hst (by simp)
  | payment hp => exact Chained.recomputeOf hc (by rfl) _
  | gatewayPayment ha hrow hf hle => exact Chained.recomputeOf hc (by rfl) _
  | creditNote hrow ht hcr ha hmk => exact Chained.recomputeOf hc (by rfl) (some _)
  | update hcall hrow hf hamend =>
      have hm := List.mem_of_getElem? hcall
      exact h.update (h.sends _ hm) (h.reads _ hm) hrow hf hamend
  | deletePayment hcall => exact Chained.recomputeOf hc (by rfl) _
  | refunds hcall hins => exact absurd (List.mem_of_getElem? hcall) (h.waiting _ _ _)
  | voidCreditNote hcall => exact Chained.recomputeOf hc (by rfl) (some _)

theorem step_amending (h : s.Amending) (he : e.sends = true) (hs : step s e = some s') :
    s'.Amending := by
  refine ⟨step_refundless h.toRefundless (BillingEvent.refundless_of_sends he) hs,
    step_chained h hs, fun c hm => ?_, fun c hm => ?_⟩
  · rcases step_callRead hs c hm with hm | hread
    · exact (h.reads c hm).stay (step_invoicesStay hs)
    · exact hread.stay (step_invoicesStay hs)
  · rcases step_began hs c hm with hm | hb
    · exact h.sends c hm
    · cases hb with
      | update hread =>
          obtain ⟨hfind, hf, h1, h2⟩ := readForUpdate_eq_ok hread
          have h3 := (h.chained.marked _ (Table.find_mem hfind)).draft hf
          simp only [BillingEvent.sends, decide_eq_true_iff] at he
          exact ⟨h3, h1, h2, he.1, he.2⟩
      | deletePayment hread => trivial
      | gatewayRefunds hread => trivial
      | voidCreditNote hread => trivial

/-- Something is paid on the invoice or credited to it. -/
def HasMoney (db : BillingDb) (k : Uuid) : Prop :=
  (∃ p ∈ db.payments, p.invoiceId = some k) ∨
    ∃ n ∈ db.creditNotes, n.invoiceId = k ∧ n.status = .issued

theorem Refundless.amounts_pos (h : s.Refundless) {x : Invoice} (hx : x ∈ s.db.invoices)
    (hm : HasMoney s.db x.id) : 0 < x.amountPaid ∨ 0 < x.amountCredited := by
  obtain ⟨h1, h2, -⟩ := h.balanced.squared x hx
  rcases hm with ⟨p, hp, hpx⟩ | ⟨n, hn, hnx, hns⟩
  · left
    rw [h1]
    exact (h.plain.payments p hp).trans_le (h.plain.payment_le hp hpx)
  · right
    rw [h2, ← hnx]
    exact (h.plain.credits n hn).trans_le (h.plain.credit_le hn hns)

/-- A recompute leaves an invoice void or not void, if its marks agree with its status. -/
theorem recomputeOf_void {db db1 : BillingDb} (hc : Chained db.invoices)
    (hi : db1.invoices = db.invoices) {o : Option Uuid} {x x' : Invoice} (hx : x ∈ db.invoices)
    (hx' : x' ∈ (recomputeOf db1 o).invoices) (hid : x'.id = x.id) (hv : x.status ≠ .void) :
    x'.status ≠ .void := by
  cases o with
  | none =>
      have hx1 : x' ∈ db1.invoices := hx'
      rw [hi] at hx1
      rwa [Table.eq_of_key_eq hx1 hx hid]
  | some k =>
      rw [recomputeOf_invoices hi] at hx'
      obtain ⟨r, hr, hrx, hxr⟩ := exists_of_mem_update hx'
      have hrx' : r = x := Table.eq_of_key_eq hr hx (hrx.trans hid)
      subst hrx'
      rcases hxr with ⟨-, rfl⟩ | ⟨-, rfl⟩
      · exact fun hz => hv (Invoice.recomputed_void (hc.marked r hr).voided hz)
      · exact hv

/-- A call that commits does not void an invoice with money on it. -/
theorem commit_not_void (h : s.Amending) {i : ℕ} {outside : AppResult Unit}
    (hs : step s (.commit i outside) = some s') {x x' : Invoice} (hx : x ∈ s.db.invoices)
    (hv : x.status ≠ .void) (hm : HasMoney s.db x.id) (hx' : x' ∈ s'.db.invoices)
    (hid : x'.id = x.id) : x'.status ≠ .void := by
  have hpos := h.toRefundless.amounts_pos hx hm
  have hw := step_wrote hs
  generalize s'.db = db' at hw hx'
  cases hw with
  | idle hi hsame =>
      rw [hi] at hx'
      rwa [Table.eq_of_key_eq hx' hx hid]
  | create hk hnew hi hsame =>
      rw [hi] at hx'
      rcases (Table.mem_insert).mp hx' with hx' | rfl
      · rwa [Table.eq_of_key_eq hx' hx hid]
      · rcases (hnew s.db.invoices.next).status with ⟨h1, -⟩ | ⟨h1, -⟩ <;> rw [h1] <;> simp
  | @update i outside current row request rate hcall hrow hf hamend =>
      -- Neither the draft nor the invoice it replaces has money on it.
      have hne : x.id ≠ current.id := by
        intro hk
        rw [← hk, Table.find_key hx, Option.some.injEq] at hrow
        subst hrow
        obtain ⟨h1, h2, -, -⟩ := h.balanced.unissued (Table.find_key hx) hf
        rw [h1, h2] at hpos
        exact absurd hpos (by simp)
      have hmem : x ∈ (rewriteInvoice s.db current request rate).invoices := by
        apply Table.find_mem
        exact (rewriteInvoice_find_ne hne).trans (Table.find_key hx)
      cases hrep : replacedBy row current request with
      | none =>
          rw [hrep] at hx'
          have hx1 : x' ∈ (rewriteInvoice s.db current request rate).invoices := hx'
          rwa [Table.eq_of_key_eq hx1 hmem hid]
      | some o =>
          rw [hrep] at hx' hamend
          obtain ⟨original, ho, -, hp, hcr⟩ := checkAmended_eq_ok hamend
          have hxo : x.id ≠ o := by
            rintro rfl
            rw [Table.find_key hx, Option.some.injEq] at ho
            subst ho
            rcases hpos with hpos | hpos
            · exact hp hpos
            · exact hcr hpos
          have hmem' : x ∈ (voidAmended (rewriteInvoice s.db current request rate)
              (some o)).invoices := (Table.mem_update).mpr ⟨x, hmem, if_neg hxo⟩
          rwa [Table.eq_of_key_eq hx' hmem' hid]
  | deletePayment hcall => exact recomputeOf_void h.chained (by rfl) hx hx' hid hv
  | refunds hcall hins => exact absurd (List.mem_of_getElem? hcall) (h.waiting _ _ _)
  | voidCreditNote hcall =>
      exact recomputeOf_void (o := some _) h.chained (by rfl) hx hx' hid hv

end Step

/-! ### Runs -/

variable {time : TimeDb} {mileage : Table MileageEntry.id} {taxRates : List TaxRate}
  {products : List Product}

theorem init_amending : (init time mileage taxRates products).Amending := by
  refine ⟨init_refundless, ?_, by simp [init], by simp [init]⟩
  constructor <;> simp [init]

theorem reachable_amending {es : List BillingEvent} {s : Billing}
    (he : ∀ e ∈ es, e.sends = true)
    (hr : run step (init time mileage taxRates products) es = some s) : s.Amending :=
  run_invariant_of_stepsMeet Amending (fun _ _ _ h hc hs => step_amending h hc.1 hs) init_amending
    ((stepsMeet_true _ es).and_events he) hr

/-- In every run that sends drafts: an invoice whose replacement was sent is void; no call that
commits voids an invoice with money on it; and of the invoices of one chain at most one is issued
and not void. -/
theorem amendment_chains {es : List BillingEvent} {s : Billing} (he : ∀ e ∈ es, e.sends = true)
    (hr : run step (init time mileage taxRates products) es = some s) :
    (∀ i ∈ s.db.invoices, i.sentAt = true ∨ i.status.isFrozen = true ∧ i.status ≠ .void →
      ∀ o, i.amendsInvoiceId = some o → ∃ x ∈ s.db.invoices, x.id = o ∧ x.status = .void) ∧
    (∀ i outside s', step s (.commit i outside) = some s' →
      ∀ x ∈ s.db.invoices, x.status ≠ .void → HasMoney s.db x.id →
        ∀ x' ∈ s'.db.invoices, x'.id = x.id → x'.status ≠ .void) ∧
    ∀ x ∈ s.db.invoices, ∀ y ∈ s.db.invoices, SameChain s.db.invoices x.id y.id →
      x.status.isFrozen = true → x.status ≠ .void → y.status.isFrozen = true → y.status ≠ .void →
      x = y := by
  have h := reachable_amending he hr
  have hc := h.chained
  refine ⟨?_, ?_, ?_⟩
  · intro i hi hs o ho
    have hsent : i.sentAt = true := hs.elim id fun hf => (hc.marked i hi).issued hf.1 hf.2
    obtain ⟨x, hx, hxo, hv, -⟩ := hc.replaced i hi hsent o ho
    exact ⟨x, hx, hxo, hv⟩
  · intro i outside s' hs x hx hv hm x' hx' hid
    exact commit_not_void h hs hx hv hm hx' hid
  · intro x hx y hy hchain hxf hxv hyf hyv
    exact hc.eq_of_sameChain hx hy ((hc.marked x hx).issued hxf hxv)
      ((hc.marked y hy).issued hyf hyv) hxv hyv hchain

/-- An invoice is sent, amended and replaced, and its replacement amended; while that draft is open,
10 are paid on the invoice that it amends, so that it cannot be sent. -/
theorem amendment_chains_sample :
    ∃ s, run step (init (sampleTimeDb ⟨∅, ∅⟩) ∅ [] []) (sampleInvoice ++ sampleReplace ++
        [.amendInvoice 1 "INV-3" (.ok ()), .startUpdate 2 { status := some .sent },
          .createPayment ⟨some 1, 7, ⟨1000⟩, none, by decide⟩, .commit 0 (.ok ())]) = some s ∧
      (∃ i ∈ s.db.invoices, i.id = 1 ∧ i.sentAt = true ∧ i.amendsInvoiceId = some 0) ∧
      (∃ x ∈ s.db.invoices, x.id = 0 ∧ x.status = .void) ∧
      ∀ x ∈ s.db.invoices, ∀ y ∈ s.db.invoices, SameChain s.db.invoices x.id y.id →
        x.status.isFrozen = true → x.status ≠ .void → y.status.isFrozen = true →
        y.status ≠ .void → x = y := by
  have h : (run step (init (sampleTimeDb ⟨∅, ∅⟩) ∅ [] []) (sampleInvoice ++ sampleReplace ++
      [.amendInvoice 1 "INV-3" (.ok ()), .startUpdate 2 { status := some .sent },
        .createPayment ⟨some 1, 7, ⟨1000⟩, none, by decide⟩, .commit 0 (.ok ())])).any (fun s =>
      s.db.invoices.rows.any fun i =>
        decide (i.id = 1 ∧ i.sentAt = true ∧ i.amendsInvoiceId = some 0)) = true := by
    decide +kernel
  obtain ⟨s, hs, hp⟩ := exists_run_of_any h
  obtain ⟨i, hi, hv⟩ := List.any_eq_true.mp hp
  rw [decide_eq_true_iff] at hv
  obtain ⟨h1, -, h3⟩ := amendment_chains (by decide) hs
  exact ⟨s, hs, ⟨i, hi, hv⟩, h1 i hi (.inl hv.2.1) 0 hv.2.2, h3⟩

end Billing

end Mokosh
