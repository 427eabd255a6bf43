import Mokosh.Quotes.Leaves

/-! # The figures of a quote

`recompute_totals` sums the lines, and writes the header later.  Nobody locks the quote before it sums:
a line that is committed in between is not in the sum.

**`totals_agree`**: as long as no call commits a change of the lines while another is between its
`SELECT SUM` and its commit, the stored quote agrees with its lines in every state of every
interleaving.  `TwoLines.totals_disagree` is a run of two `add_line` calls after which it does not. -/

namespace Mokosh.Quotes

open ReadCommitted

/-- The columns that depend on the lines, and the rate. -/
structure Quote.SameFigures (q base : Quote) : Prop where
  subtotal : q.subtotal = base.subtotal
  taxAmount : q.taxAmount = base.taxAmount
  taxRate : q.taxRate = base.taxRate
  total : q.total = base.total

theorem Quote.SameFigures.trans {q r base : Quote} (h : q.SameFigures r) (h' : r.SameFigures base) :
    q.SameFigures base :=
  ⟨h.subtotal.trans h'.subtotal, h.taxAmount.trans h'.taxAmount, h.taxRate.trans h'.taxRate,
    h.total.trans h'.total⟩

theorem Quote.Agrees.congr {q base : Quote} {lines : List QuoteLine} (h : base.Agrees lines)
    (hs : q.SameFigures base) : q.Agrees lines where
  subtotal := hs.subtotal.trans h.subtotal
  taxAmount rate hr := by
    rw [hs.taxRate] at hr
    rw [hs.taxAmount, h.taxAmount rate hr]
  total := by rw [hs.total, hs.subtotal, hs.taxAmount, h.total]

/-- An operation sums the lines, or leaves them and the figures as they are. -/
theorem figures_of_leaves {op : Operation} {l : Known Quote QuoteLine} (h : op.Leaves l) :
    ∃ base q, l.header = some (base, q) ∧
      ((∃ (q' : Quote) (rows : _), l.counted = some rows ∧ q = q'.recomputed rows) ∨
        l.wrote = false ∧ q.SameFigures base) := by
  cases op with
  | updateQuote request pending ofCompany rate =>
      obtain ⟨base, settled, rows, -, -, hl, hc, -⟩ := h
      exact ⟨base, _, hl, .inl ⟨_, rows, hc, rfl⟩⟩
  | cancelQuote =>
      obtain ⟨base, hl, hw⟩ := h
      exact ⟨base, _, hl, .inr ⟨hw, ⟨rfl, rfl, rfl, rfl⟩⟩⟩
  | sendQuote delivery recipients now user =>
      obtain ⟨base, q, method, note, recipient, hq, hl, hw⟩ := h
      obtain rfl | ⟨address, rfl⟩ := hq
      · exact ⟨base, _, hl, .inr ⟨hw, ⟨rfl, rfl, rfl, rfl⟩⟩⟩
      · exact ⟨base, _, hl, .inr ⟨hw, ⟨rfl, rfl, rfl, rfl⟩⟩⟩
  | decideQuote decision today now =>
      obtain ⟨base, hl, hw⟩ := h
      exact ⟨base, _, hl, .inr ⟨hw, ⟨rfl, rfl, rfl, rfl⟩⟩⟩
  | convertQuote projectId =>
      obtain ⟨base, -, hl, hw⟩ := h
      exact ⟨base, _, hl, .inr ⟨hw, ⟨rfl, rfl, rfl, rfl⟩⟩⟩
  | applyDecision pending rejected =>
      obtain ⟨base, q, hq, hl, hw⟩ := h
      obtain ⟨-, rfl⟩ | ⟨next, -, rfl⟩ := hq
      · exact ⟨_, _, hl, .inr ⟨hw, ⟨rfl, rfl, rfl, rfl⟩⟩⟩
      · exact ⟨_, _, hl, .inr ⟨hw, ⟨rfl, rfl, rfl, rfl⟩⟩⟩
  | addLine line =>
      obtain ⟨base, rows, hl, hc⟩ := h
      exact ⟨base, _, hl, .inl ⟨base, rows, hc, rfl⟩⟩
  | updateLine lineId line =>
      obtain ⟨base, rows, hl, hc⟩ := h
      exact ⟨base, _, hl, .inl ⟨base, rows, hc, rfl⟩⟩
  | deleteLine lineId =>
      obtain ⟨base, rows, hl, hc⟩ := h
      exact ⟨base, _, hl, .inl ⟨base, rows, hc, rfl⟩⟩

/-- The calls go by their programs, and what is committed agrees. -/
structure Agreed (w : QuoteWorld) : Prop where
  inv : Inv Operation.Leaves w
  agrees : w.header.Agrees w.lines

/-- A commit keeps the agreement. -/
theorem agrees_commit {w w' : QuoteWorld} {op : Operation} {l : Known Quote QuoteLine}
    (h : w.header.Agrees w.lines) (ho : op.Leaves l) (hc : Commits l w w') :
    w'.header.Agrees w'.lines := by
  obtain ⟨base, q, hl, hq⟩ := figures_of_leaves ho
  obtain ⟨hb, hq'⟩ := hc.locked _ hl
  obtain ⟨q', rows, hrows, rfl⟩ | ⟨hw, hs⟩ := hq
  · rw [hq', QuoteWorld.lines, hc.counted rows hrows]
    exact q'.agrees_recomputed _
  · rw [hq', QuoteWorld.lines, hc.kept hw]
    exact h.congr (hb ▸ hs)

theorem step_agreed (w : QuoteWorld) (e : QuoteEvent) (w' : QuoteWorld) (h : Agreed w)
    (hu : Uncounted w e) (hs : quoteStep w e = some w') : Agreed w' := by
  obtain ⟨hi, ⟨hh, hr⟩ | ⟨i, c, l, -, -, -, hq, hc⟩⟩ := step_commits leaves h.inv hu hs
  · refine ⟨hi, ?_⟩
    rw [QuoteWorld.lines, hh, hr]
    exact h.agrees
  · exact ⟨hi, agrees_commit h.agrees hq hc⟩

/-- A quote that was just created agrees with its lines. -/
theorem createQuote_agrees {request : CreateQuoteRequest} {billingContactId : Option Uuid}
    {rate : Option (Numeric 4)} {default : Option (Uuid × Numeric 4)}
    {created : Quote × List (ℕ × QuoteLine)}
    (h : createQuote request billingContactId rate default = .ok created) :
    created.1.Agrees (created.2.map Prod.snd) := by
  obtain ⟨settled, -, h⟩ := bind_eq_ok.mp h
  cases h
  exact Quote.agrees_recomputed _ _

theorem agreed_start {request : CreateQuoteRequest} {billingContactId : Option Uuid}
    {rate : Option (Numeric 4)} {default : Option (Uuid × Numeric 4)}
    {created : Quote × List (ℕ × QuoteLine)}
    (h : createQuote request billingContactId rate default = .ok created) :
    Agreed (.start created) :=
  ⟨inv_start _ _ _, createQuote_agrees h⟩

/-- **The figures of a quote.**  In every interleaving in which no call commits a change of the lines
while another is between its sum and its commit, the header agrees with the lines. -/
theorem totals_agree {request : CreateQuoteRequest} {billingContactId : Option Uuid}
    {rate : Option (Numeric 4)} {default : Option (Uuid × Numeric 4)}
    {created : Quote × List (ℕ × QuoteLine)}
    (h : createQuote request billingContactId rate default = .ok created) {es : List QuoteEvent}
    {w : QuoteWorld} (hu : StepsMeet quoteStep Uncounted (.start created) es)
    (hr : run quoteStep (.start created) es = some w) : w.header.Agrees w.lines :=
  (run_invariant_of_stepsMeet Agreed step_agreed (agreed_start h) hu hr).agrees

namespace TwoLines

def request : CreateQuoteRequest := { companyId := 1, title := "Firewall" }

def created : Quote × List (ℕ × QuoteLine) :=
  (((request.header none).withSubtotal 0 0).withTotal, [])

def line (price : ℚ) : QuoteLineRequest :=
  { lineType := .product, description := "Unit", quantity := 1, unitPrice := price }

/-- One call after the other. -/
def ordered : List QuoteEvent :=
  .start (.addLine (line 100)) :: List.replicate 7 (.step 0) ++
    .start (.addLine (line 50)) :: List.replicate 7 (.step 0)

theorem totals_agree_ordered : ∃ w, run quoteStep (.start created) ordered = some w ∧
    w.lines.length = 2 ∧ w.header.Agrees w.lines := by
  have hc : createQuote request none none none = .ok created := rfl
  have hu : StepsMeet quoteStep Uncounted (.start created) ordered := by decide +kernel
  obtain ⟨w, hr, hp⟩ : ∃ w, run quoteStep (.start created) ordered = some w ∧
      decide (w.lines.length = 2) = true :=
    exists_run_of_any (by decide +kernel)
  exact ⟨w, hr, of_decide_eq_true hp, totals_agree hc hu hr⟩

/-- Both insert their lines, and both sum before the other commits. -/
def overlapping : List QuoteEvent :=
  [.start (.addLine (line 100)), .start (.addLine (line 50))] ++
    [.step 0, .step 0, .step 1, .step 1] ++
    [.step 0, .step 1] ++
    List.replicate 8 (.step 0)

/-- Each `add_line` stores a sum without the other's line: no call is in flight, and the header has 50
of 150. -/
theorem totals_disagree : ∃ w, createQuote request none none none = .ok created ∧
    run quoteStep (.start created) overlapping = some w ∧ w.calls.length = 0 ∧
    w.header.subtotal = .ofRat 2 50 ∧ subtotalOf w.lines = .ofRat 2 150 ∧
    ¬w.header.Agrees w.lines := by
  obtain ⟨w, hr, hp⟩ : ∃ w, run quoteStep (.start created) overlapping = some w ∧
      decide (w.calls.length = 0 ∧ w.header.subtotal = .ofRat 2 50 ∧
        subtotalOf w.lines = .ofRat 2 150) = true :=
    exists_run_of_any (by decide +kernel)
  obtain ⟨hn, hs, ht⟩ := of_decide_eq_true hp
  refine ⟨w, rfl, hr, hn, hs, ht, fun h => ?_⟩
  have heq : Numeric.ofRat 2 50 = Numeric.ofRat 2 150 := by
    rw [← hs, h.subtotal, ht]
  exact absurd heq (by decide +kernel)

end TwoLines

end Mokosh.Quotes
