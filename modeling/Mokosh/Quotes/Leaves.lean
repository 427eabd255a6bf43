import Mokosh.Quotes.Service

/-! # What each operation on a quote leaves

`Operation.Leaves` says for every operation what its transaction knows when it commits: which header it
found under its lock, what it made of it, and whether it wrote lines.  `leaves` proves it of the
programs, and with it `commit_leaves` knows every step of the system. -/

namespace Mokosh.Quotes

open ReadCommitted

/-- The header after `recompute_totals` has summed `rows`. -/
def Quote.recomputed (q : Quote) (rows : List (ℕ × QuoteLine)) : Quote :=
  (q.withSubtotal (subtotalOf (rows.map Prod.snd)) (taxableOf (rows.map Prod.snd))).withTotal

/-- The header after `settle_tax_rate`. -/
def Quote.settle (q : Quote) : Option (Option (Uuid × Numeric 4)) → Quote
  | some rate => q.withRate rate
  | none => q

namespace Operation

/-- What the transaction of an operation knows when it commits. -/
def Leaves : Operation → Known Quote QuoteLine → Prop
  | .updateQuote request _ _ rate, l => ∃ base settled rows,
      (∀ next, request.status = some next → next.isStaffSettable = true) ∧
      settledRate request.taxRateId rate none request.taxAmount.isSome = .ok settled ∧
      l.header = some (base, ((request.edit base).settle settled).recomputed rows) ∧
      l.counted = some rows ∧ (request.lines = none → l.wrote = false)
  | .cancelQuote, l => ∃ base, l.header = some (base, base.withStatus .cancelled) ∧ l.wrote = false
  | .sendQuote _ _ now user, l => ∃ base q method note recipient,
      (q = base.delivered now method note user recipient ∨
        ∃ address, q = (base.delivered now method note user recipient).emailed now address) ∧
      l.header = some (base, q) ∧ l.wrote = false
  | .decideQuote decision _ now, l => ∃ base,
      l.header = some (base, base.decided now decision) ∧ l.wrote = false
  | .convertQuote projectId, l => ∃ base, base.status = .accepted ∧
      l.header = some (base, base.convertedTo projectId) ∧ l.wrote = false
  | .applyDecision pending rejected, l => ∃ base q,
      (outcome base.status pending rejected = none ∧ q = base ∨
        ∃ next, outcome base.status pending rejected = some next ∧ q = base.withStatus next) ∧
      l.header = some (base, q) ∧ l.wrote = false
  | .addLine _, l | .updateLine _ _, l | .deleteLine _, l => ∃ base rows,
      l.header = some (base, base.recomputed rows) ∧ l.counted = some rows

end Operation

/-! ### The parts -/

section Parts

variable {Q : Known Quote QuoteLine → Prop} {k : Txn} {l : Known Quote QuoteLine}

theorem wp_check {result : AppResult Unit} (h : result = .ok () → wp Q k l) :
    wp Q (Txn.check result k) l := by
  cases result with
  | ok u => exact h rfl
  | error e => trivial

theorem wp_recomputeTotals (h : ∀ base seen rows, l.Sees base seen → l.Counts rows →
    wp Q k ((l.count rows).lock base (seen.recomputed rows))) : wp Q (recomputeTotals k) l := by
  intro rows hr rows' hr'
  obtain rfl := hr' rows rfl
  rintro base seen hs _ _ h'
  cases h'
  exact h base seen rows' hs hr

theorem wp_insertLines (h : wp Q k l) (h' : wp Q k l.write) (lines : List QuoteLineRequest) :
    wp Q (insertLines lines k) l := by
  have hw : ∀ lines, wp Q (insertLines lines k) l.write := by
    intro lines
    induction lines with
    | nil => exact h'
    | cons line lines ih => exact ih
  cases lines with
  | nil => exact h
  | cons line lines => exact hw lines

theorem wp_deleteLines (h : wp Q k l) (h' : wp Q k l.write) : wp Q (deleteLines k) l := by
  intro ids
  have hw : ∀ ids : List ℕ, wp Q (ids.foldr (fun id k => .deleteRow id fun _ => k) k) l.write := by
    intro ids
    induction ids with
    | nil => exact h'
    | cons id ids ih => exact ⟨ih, ih⟩
  induction ids with
  | nil => exact h
  | cons id ids ih => exact ⟨hw ids, ih⟩

theorem wp_replaceLines {lines : Option (List QuoteLineRequest)} (h : wp Q k l)
    (h' : lines ≠ none → wp Q k l.write) : wp Q (replaceLines lines k) l := by
  cases lines with
  | none => exact h
  | some lines =>
      have hk := h' nofun
      exact wp_deleteLines (wp_insertLines h hk lines) (wp_insertLines hk hk lines)

theorem wp_settleTaxRate {requested : Option Uuid} {rate : Option (Numeric 4)} {amountGiven : Bool}
    (h : ∀ settled, settledRate requested rate none amountGiven = .ok settled →
      ∀ base seen, l.header = some (base, seen) → wp Q k (l.lock base (seen.settle settled)))
    {base seen : Quote} (hl : l.header = some (base, seen)) :
    wp Q (settleTaxRate requested rate amountGiven k) l := by
  unfold settleTaxRate
  split
  · next settled hs =>
      intro base' seen' hs'
      rw [Known.Sees, hl] at hs'
      cases hs'
      exact h _ hs base seen hl
  · next hs =>
      have hk := h none hs base seen hl
      have hself : l.lock base seen = l := by
        rw [Known.lock, ← hl]
      rwa [Quote.settle, hself] at hk
  · trivial

end Parts

/-! ### The operations -/

/-- Staff sets the statuses that are theirs. -/
theorem isStaffSettable_of_check {request : UpdateQuoteRequest} {pending : Bool}
    {current next : QuoteStatus} (h : request.check pending current = .ok ())
    (hn : request.status = some next) : next.isStaffSettable = true := by
  by_contra hne
  rw [Bool.not_eq_true] at hne
  obtain ⟨-, -, h⟩ := bind_eq_ok.mp h
  obtain ⟨-, -, h⟩ := bind_eq_ok.mp h
  simp [assertSettable, hn, hne] at h

theorem updateQuote_leaves (request : UpdateQuoteRequest) (pending ofCompany : Bool)
    (rate : Option (Numeric 4)) :
    wp (Operation.updateQuote request pending ofCompany rate).Leaves
      (updateQuote request pending ofCompany rate) .start := by
  intro _ current _
  apply wp_check
  intro hcheck
  apply wp_check
  rintro - _ base rfl
  -- the header is locked from here on, and the lines may be written
  have hk : ∀ l : Known Quote QuoteLine, l.header = some (base, request.edit base) →
      (request.lines = none → l.wrote = false) →
      wp (Operation.updateQuote request pending ofCompany rate).Leaves
        (settleTaxRate request.taxRateId rate request.taxAmount.isSome (recomputeTotals .commit)) l := by
    intro l hl hw
    refine wp_settleTaxRate ?_ hl
    intro settled hs base' seen hl'
    rw [hl] at hl'
    cases hl'
    apply wp_recomputeTotals
    rintro _ _ rows h -
    cases h
    exact ⟨base, settled, rows, fun next => isStaffSettable_of_check hcheck, hs, rfl, rfl, hw⟩
  apply wp_replaceLines
  · exact hk _ rfl fun _ => rfl
  · intro hlines
    exact hk _ rfl fun h => absurd h hlines

theorem cancelQuote_leaves : wp Operation.cancelQuote.Leaves cancelQuote .start := by
  intro _ current _
  dsimp only
  split
  · trivial
  · rintro _ base rfl
    exact ⟨_, rfl, rfl⟩

theorem sendQuote_leaves (delivery : Option DeliveryRequest) (recipients : Recipients) (now : ℕ)
    (user : Option Uuid) :
    wp (Operation.sendQuote delivery recipients now user).Leaves
      (sendQuote delivery recipients now user) .start := by
  unfold sendQuote
  dsimp only
  split
  · trivial
  intro _ current _
  dsimp only
  split
  · trivial
  intro _ requested _
  dsimp only
  split
  · split
    · trivial
    · next recipient address _ =>
        rintro _ base rfl _ _ - _ _ h
        cases h
        exact ⟨base, _, _, _, _, .inr ⟨address, rfl⟩, rfl, rfl⟩
  · rintro _ base rfl
    exact ⟨base, _, _, _, _, .inl rfl, rfl, rfl⟩

theorem decideQuote_leaves (decision : ClientDecision) (today : NaiveDate) (now : ℕ) :
    wp (Operation.decideQuote decision today now).Leaves (decideQuote decision today now) .start := by
  intro _ row _
  dsimp only
  split
  · trivial
  split
  · trivial
  rintro _ base rfl
  exact ⟨_, rfl, rfl⟩

theorem convertQuote_leaves (projectId : Uuid) :
    wp (Operation.convertQuote projectId).Leaves (convertQuote projectId) .start := by
  rintro _ base rfl
  dsimp only
  split
  · trivial
  split
  · trivial
  · next hs =>
      rintro _ _ h
      cases h
      exact ⟨_, not_not.mp hs, rfl, rfl⟩

theorem applyDecision_leaves (pending rejected : ℕ) :
    wp (Operation.applyDecision pending rejected).Leaves (applyDecision pending rejected) .start := by
  rintro _ base rfl
  dsimp only
  split
  · next ho => exact ⟨_, _, .inl ⟨ho, rfl⟩, rfl, rfl⟩
  · next next ho =>
      rintro _ _ h
      cases h
      exact ⟨_, _, .inr ⟨next, ho, rfl⟩, rfl, rfl⟩

/-- A change of a line, and the sums after it. -/
theorem recomputeTotals_leaves (l : Known Quote QuoteLine) (hl : l.header = none) :
    wp (fun l => ∃ base rows, l.header = some (base, base.recomputed rows) ∧ l.counted = some rows)
      (recomputeTotals .commit) l := by
  apply wp_recomputeTotals
  intro base seen rows hs _
  rw [Known.Sees, hl] at hs
  exact ⟨base, rows, by rw [hs]; rfl, rfl⟩

/-- Every operation leaves what `Operation.Leaves` says. -/
theorem leaves (op : Operation) : wp op.Leaves op.program .start := by
  cases op with
  | updateQuote request pending ofCompany rate => exact updateQuote_leaves _ _ _ _
  | cancelQuote => exact cancelQuote_leaves
  | sendQuote delivery recipients now user => exact sendQuote_leaves _ _ _ _
  | decideQuote decision today now => exact decideQuote_leaves _ _ _
  | convertQuote projectId => exact convertQuote_leaves _
  | applyDecision pending rejected => exact applyDecision_leaves _ _
  | addLine line =>
      intro _ current _
      apply wp_check
      intro _
      exact recomputeTotals_leaves _ rfl
  | updateLine lineId line =>
      intro _ current _
      apply wp_check
      intro _
      exact ⟨recomputeTotals_leaves _ rfl, trivial⟩
  | deleteLine lineId =>
      intro _ current _
      apply wp_check
      intro _
      exact ⟨recomputeTotals_leaves _ rfl, trivial⟩

end Mokosh.Quotes
