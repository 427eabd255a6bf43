import Mokosh.Quotes.Totals

/-! # The lifecycle of a quote

Every operation checks the status it reads at its start, and all but two write the header later without
another look: what they overwrite may be past their check by then.

* `QuoteStatus.MovesTo`: the moves of the lifecycle.
* `Operation.Allows`: the check that an operation makes of the status.

**`lifecycle`**: as long as every call that commits would still pass its check on the status that is
committed then (`Current`), and sums are taken as in `totals_agree`, every step moves the status along
the lifecycle, a decision is recorded once, and a quote that is signed off keeps its lines and figures.
`TwoTabs.decision_flipped` is a run in which a second `decide_quote` turns an acceptance around. -/

namespace Mokosh.Quotes

open ReadCommitted

namespace QuoteStatus

/-- The moves of the lifecycle: what staff edits; sent once approved; the client's answer; and the
conversion of what was accepted. -/
def MovesTo (s s' : QuoteStatus) : Prop :=
  s' = s ∨ (s.isFrozen = false ∧ s'.isStaffSettable = true) ∨ (s = approved ∧ s' = sent) ∨
    (s = sent ∧ (s' = accepted ∨ s' = declined)) ∨ (s = accepted ∧ s' = converted)

instance (s s' : QuoteStatus) : Decidable (s.MovesTo s') := inferInstanceAs (Decidable (_ ∨ _))

/-- Staff has signed the figures off, and they stand. -/
def isSigned : QuoteStatus → Bool
  | approved | sent | accepted | converted => true
  | _ => false

/-- The client has answered. -/
def isDecided : QuoteStatus → Bool
  | accepted | declined | converted => true
  | _ => false

theorem not_isSigned_of_allowsContentEdit {s : QuoteStatus} (h : s.allowsContentEdit = true) :
    s.isSigned = false := by
  cases s <;> first | rfl | cases h

theorem not_isDecided_of_isStaffSettable {s : QuoteStatus} (h : s.isStaffSettable = true) :
    s.isDecided = false := by
  cases s <;> first | rfl | cases h

/-- An answer is not taken back. -/
theorem MovesTo.isDecided {s s' : QuoteStatus} (h : s.MovesTo s') (hs : s.isDecided = true) :
    s'.isDecided = true := by
  obtain rfl | ⟨hf, -⟩ | ⟨rfl, -⟩ | ⟨rfl, -⟩ | ⟨-, rfl⟩ := h
  · exact hs
  · cases s <;> cases hf <;> cases hs
  · cases hs
  · cases hs
  · rfl

end QuoteStatus

/-- The check that an operation makes of the status. -/
def Operation.Allows (s : QuoteStatus) : Operation → Bool
  | updateQuote request _ _ _ => !s.isFrozen && (!request.changesContent || s.allowsContentEdit)
  | cancelQuote => !s.isFrozen
  | sendQuote _ _ _ _ => s = .approved
  | decideQuote _ _ _ => s = .sent
  | convertQuote _ => true
  | applyDecision _ _ => true
  | addLine _ | updateLine _ _ | deleteLine _ => s.allowsContentEdit

/-- A call that commits would still pass its check. -/
def Current (w : QuoteWorld) : QuoteEvent → Prop
  | .step i => ∀ c ∈ w.calls[i]?, c.rest.isCommit = true → c.op.Allows w.header.status = true
  | _ => True

instance (w : QuoteWorld) : ∀ e, Decidable (Current w e)
  | .start _ => isTrue trivial
  | .abort _ => isTrue trivial
  | .step i => inferInstanceAs (Decidable (∀ c ∈ w.calls[i]?, c.rest.isCommit = true →
      c.op.Allows w.header.status = true))

def Orderly (w : QuoteWorld) (e : QuoteEvent) : Prop := Uncounted w e ∧ Current w e

instance (w : QuoteWorld) (e : QuoteEvent) : Decidable (Orderly w e) :=
  inferInstanceAs (Decidable (_ ∧ _))

/-! ### One commit -/

/-- What one commit may do to a quote. -/
structure GoesTo (w w' : QuoteWorld) : Prop where
  status : w.header.status.MovesTo w'.header.status
  decision : w'.header.decision = w.header.decision ∧
      (w'.header.status.isDecided = true → w.header.status.isDecided = true) ∨
    w.header.status = .sent ∧ w'.header.decision.isSome = true ∧ w'.header.status.isDecided = true
  signed : w.header.status.isSigned = true →
    w'.rows = w.rows ∧ w'.header.SameFigures w.header

/-- Sums that are taken over the lines of a quote that agrees with them change nothing. -/
theorem Quote.recomputed_sameFigures {q base : Quote} {rows : List (ℕ × QuoteLine)}
    (h : base.Agrees (rows.map Prod.snd)) (hr : q.taxRate = base.taxRate)
    (ht : q.taxAmount = base.taxAmount) : (q.recomputed rows).SameFigures base := by
  have htax : (q.recomputed rows).taxAmount = base.taxAmount := by
    cases hb : base.taxRate with
    | none =>
        rw [hb] at hr
        simp [recomputed, withSubtotal, withTotal, hr, ht]
    | some rate =>
        rw [hb] at hr
        simp [recomputed, withSubtotal, withTotal, hr, h.taxAmount rate hb]
  refine ⟨h.subtotal.symm, htax, hr, ?_⟩
  rw [h.total, ← htax, h.subtotal]
  rfl

section Commit

variable {w w' : QuoteWorld} {l : Known Quote QuoteLine}

/-- A request that leaves the content alone leaves the tax and the lines alone. -/
theorem UpdateQuoteRequest.eq_none_of_not_changesContent {request : UpdateQuoteRequest}
    (h : request.changesContent = false) :
    request.taxAmount = none ∧ request.taxRateId = none ∧ request.lines = none := by
  simp only [changesContent, Bool.or_eq_false_iff, Option.isSome_eq_false_iff,
    Option.isNone_iff_eq_none] at h
  obtain ⟨⟨⟨-, ht⟩, hr⟩, hl⟩ := h
  exact ⟨ht, hr, hl⟩

/-- An edit by staff that the status allows. -/
theorem goesTo_update {request : UpdateQuoteRequest} {pending ofCompany : Bool}
    {rate : Option (Numeric 4)} (h : w.header.Agrees w.lines)
    (ho : (Operation.updateQuote request pending ofCompany rate).Leaves l)
    (ha : (Operation.updateQuote request pending ofCompany rate).Allows w.header.status = true)
    (hc : Commits l w w') : GoesTo w w' := by
  obtain ⟨base, settled, rows, hset, hs, hl, hcounted, hw⟩ := ho
  obtain ⟨rfl, hq⟩ := hc.locked _ hl
  obtain ⟨hf, he⟩ := Bool.and_eq_true_iff.mp ha
  rw [Bool.not_eq_true'] at hf
  have hsettle : ∀ settled, ((request.edit w.header).settle settled).status =
      request.status.getD w.header.status ∧
      ((request.edit w.header).settle settled).decision = w.header.decision := by
    rintro (- | rate) <;> exact ⟨rfl, rfl⟩
  have hstatus : w'.header.status = request.status.getD w.header.status := by
    rw [hq]
    exact (hsettle settled).1
  have hdecision : w'.header.decision = w.header.decision := by
    rw [hq]
    exact (hsettle settled).2
  refine ⟨?_, .inl ⟨hdecision, ?_⟩, ?_⟩
  · rw [hstatus]
    cases hn : request.status with
    | none => exact .inl rfl
    | some next => exact .inr (.inl ⟨hf, hset next hn⟩)
  · rw [hstatus]
    cases hn : request.status with
    | none => exact id
    | some next =>
        intro hd
        rw [Option.getD_some, QuoteStatus.not_isDecided_of_isStaffSettable (hset next hn)] at hd
        cases hd
  · intro hsigned
    have hcontent : request.changesContent = false := by
      by_contra hne
      rw [Bool.not_eq_false] at hne
      rw [hne, Bool.not_true, Bool.false_or] at he
      rw [QuoteStatus.not_isSigned_of_allowsContentEdit he] at hsigned
      cases hsigned
    obtain ⟨ht, hr, hlines⟩ := UpdateQuoteRequest.eq_none_of_not_changesContent hcontent
    have hrows : w'.rows = w.rows := hc.kept (hw hlines)
    have hkept : rows = w.rows := (hc.counted rows hcounted).symm.trans hrows
    rw [ht, hr] at hs
    cases hs
    refine ⟨hrows, ?_⟩
    rw [hq, hkept]
    refine Quote.recomputed_sameFigures h rfl ?_
    simp [Quote.settle, UpdateQuoteRequest.edit, ht]

/-- A change of lines that the status allows. -/
theorem goesTo_lines {base : Quote} {rows : List (ℕ × QuoteLine)}
    (hl : l.header = some (base, base.recomputed rows))
    (ha : w.header.status.allowsContentEdit = true) (hc : Commits l w w') : GoesTo w w' := by
  obtain ⟨rfl, hq⟩ := hc.locked _ hl
  refine ⟨.inl ?_, .inl ⟨?_, ?_⟩, ?_⟩
  · rw [hq]
    rfl
  · rw [hq]
    rfl
  · rw [hq]
    exact id
  · intro hsigned
    rw [QuoteStatus.not_isSigned_of_allowsContentEdit ha] at hsigned
    cases hsigned

/-- A change of the header that leaves the lines and the figures. -/
theorem goesTo_header {base q : Quote} (hl : l.header = some (base, q)) (hw : l.wrote = false)
    (hs : q.SameFigures base) (hm : base.status.MovesTo q.status)
    (hd : q.decision = base.decision ∧ (q.status.isDecided = true → base.status.isDecided = true) ∨
      base.status = .sent ∧ q.decision.isSome = true ∧ q.status.isDecided = true) (hc : Commits l w w') : GoesTo w w' := by
  obtain ⟨rfl, hq⟩ := hc.locked _ hl
  subst hq
  exact ⟨hm, hd, fun _ => ⟨hc.kept hw, hs⟩⟩

/-- Every commit that its check allows moves the quote along the lifecycle. -/
theorem goesTo_commit {op : Operation} (h : w.header.Agrees w.lines) (ho : op.Leaves l)
    (ha : op.Allows w.header.status = true) (hc : Commits l w w') : GoesTo w w' := by
  cases op with
  | updateQuote request pending ofCompany rate => exact goesTo_update h ho ha hc
  | cancelQuote =>
      obtain ⟨base, hl, hw⟩ := ho
      have hb := (hc.locked _ hl).1
      replace ha : w.header.status.isFrozen = false := (Bool.not_eq_true' _).mp ha
      rw [hb] at ha
      exact goesTo_header hl hw ⟨rfl, rfl, rfl, rfl⟩ (.inr (.inl ⟨ha, rfl⟩)) (.inl ⟨rfl, nofun⟩) hc
  | sendQuote delivery recipients now user =>
      obtain ⟨base, q, method, note, recipient, hq, hl, hw⟩ := ho
      have hb := (hc.locked _ hl).1
      replace ha : w.header.status = .approved := of_decide_eq_true ha
      rw [hb] at ha
      have hm : base.status.MovesTo .sent := .inr (.inr (.inl ⟨ha, rfl⟩))
      obtain rfl | ⟨address, rfl⟩ := hq
      · exact goesTo_header hl hw ⟨rfl, rfl, rfl, rfl⟩ hm (.inl ⟨rfl, nofun⟩) hc
      · exact goesTo_header hl hw ⟨rfl, rfl, rfl, rfl⟩ hm (.inl ⟨rfl, nofun⟩) hc
  | decideQuote decision today now =>
      obtain ⟨base, hl, hw⟩ := ho
      have hb := (hc.locked _ hl).1
      replace ha : w.header.status = .sent := of_decide_eq_true ha
      rw [hb] at ha
      have hst : (base.decided now decision).status = .accepted ∨
          (base.decided now decision).status = .declined := by
        cases hacc : decision.accept
        · exact .inr (by simp [Quote.decided, hacc])
        · exact .inl (by simp [Quote.decided, hacc])
      have hdec : (base.decided now decision).status.isDecided = true := by
        obtain h | h := hst <;> rw [h] <;> rfl
      exact goesTo_header hl hw ⟨rfl, rfl, rfl, rfl⟩ (.inr (.inr (.inr (.inl ⟨ha, hst⟩))))
        (.inr ⟨ha, rfl, hdec⟩) hc
  | convertQuote projectId =>
      obtain ⟨base, hs, hl, hw⟩ := ho
      exact goesTo_header hl hw ⟨rfl, rfl, rfl, rfl⟩ (.inr (.inr (.inr (.inr ⟨hs, rfl⟩))))
        (.inl ⟨rfl, fun _ => by rw [hs]; rfl⟩) hc
  | applyDecision pending rejected =>
      obtain ⟨base, q, ⟨-, rfl⟩ | ⟨next, hn, rfl⟩, hl, hw⟩ := ho
      · exact goesTo_header hl hw ⟨rfl, rfl, rfl, rfl⟩ (.inl rfl) (.inl ⟨rfl, id⟩) hc
      · obtain ⟨hs, hnext⟩ := outcome_eq_some hn
        have hset : next.isStaffSettable = true := by
          obtain rfl | rfl := hnext <;> rfl
        refine goesTo_header hl hw ⟨rfl, rfl, rfl, rfl⟩ (.inr (.inl ⟨by rw [hs]; rfl, hset⟩))
          (.inl ⟨rfl, fun hd => ?_⟩) hc
        replace hd : next.isDecided = true := hd
        rw [QuoteStatus.not_isDecided_of_isStaffSettable hset] at hd
        cases hd
  | addLine line =>
      obtain ⟨base, rows, hl, -⟩ := ho
      exact goesTo_lines hl ha hc
  | updateLine lineId line =>
      obtain ⟨base, rows, hl, -⟩ := ho
      exact goesTo_lines hl ha hc
  | deleteLine lineId =>
      obtain ⟨base, rows, hl, -⟩ := ho
      exact goesTo_lines hl ha hc

end Commit

/-! ### Runs -/

/-- The quote agrees with its lines, and a decision is recorded if and only if the client has
answered. -/
structure Ordered (w : QuoteWorld) : Prop extends Agreed w where
  decision : w.header.decision.isSome = true ↔ w.header.status.isDecided = true

theorem GoesTo.refl {w w' : QuoteWorld} (hh : w'.header = w.header) (hr : w'.rows = w.rows) :
    GoesTo w w' := by
  refine ⟨.inl (by rw [hh]), .inl ⟨by rw [hh], by rw [hh]; exact id⟩, fun _ => ⟨hr, ?_⟩⟩
  rw [hh]
  exact ⟨rfl, rfl, rfl, rfl⟩

/-- One step. -/
theorem step_goesTo {w w' : QuoteWorld} {e : QuoteEvent} (h : Ordered w) (ho : Orderly w e)
    (hs : quoteStep w e = some w') : GoesTo w w' := by
  obtain ⟨-, ⟨hh, hr⟩ | ⟨i, c, l, rfl, hi, hcommit, hq, hc⟩⟩ := step_commits leaves h.inv ho.1 hs
  · exact .refl hh hr
  · exact goesTo_commit h.agrees hq (ho.2 c hi (by rw [hcommit]; rfl)) hc

theorem step_ordered (w : QuoteWorld) (e : QuoteEvent) (w' : QuoteWorld) (h : Ordered w)
    (ho : Orderly w e) (hs : quoteStep w e = some w') : Ordered w' := by
  have hg := step_goesTo h ho hs
  refine ⟨step_agreed w e w' h.toAgreed ho.1 hs, ?_⟩
  obtain ⟨hd, hback⟩ | ⟨-, hsome, hdec⟩ := hg.decision
  · rw [hd, h.decision]
    exact ⟨hg.status.isDecided, hback⟩
  · rw [hsome, hdec]

theorem GoesTo.decision_kept {w w' : QuoteWorld} (h : Ordered w) (hg : GoesTo w w')
    (hd : w.header.decision ≠ none) : w'.header.decision = w.header.decision := by
  obtain ⟨heq, -⟩ | ⟨hs, -⟩ := hg.decision
  · exact heq
  · have hdec := h.decision.mp (Option.isSome_iff_ne_none.mpr hd)
    rw [hs] at hdec
    cases hdec

theorem ordered_start {request : CreateQuoteRequest} {billingContactId : Option Uuid}
    {rate : Option (Numeric 4)} {default : Option (Uuid × Numeric 4)}
    {created : Quote × List (ℕ × QuoteLine)}
    (h : createQuote request billingContactId rate default = .ok created) :
    Ordered (.start created) := by
  refine ⟨agreed_start h, ?_⟩
  obtain ⟨settled, -, h⟩ := bind_eq_ok.mp h
  cases h
  exact ⟨nofun, nofun⟩

section Runs

variable {w t : QuoteWorld} {es : List QuoteEvent}

theorem run_decision_kept (h : Ordered w) (ho : StepsMeet quoteStep Orderly w es)
    (hr : run quoteStep w es = some t) (hd : w.header.decision ≠ none) :
    t.header.decision = w.header.decision := by
  refine (run_invariant_of_stepsMeet
    (fun v => Ordered v ∧ v.header.decision = w.header.decision) ?_ ⟨h, rfl⟩ ho hr).2
  rintro v e v' ⟨hv, heq⟩ hov hs
  have hkept := (step_goesTo hv hov hs).decision_kept hv (by rwa [heq])
  exact ⟨step_ordered v e v' hv hov hs, hkept.trans heq⟩

theorem run_signed_kept (h : Ordered w) (ho : StepsMeet quoteStep Orderly w es)
    (hsigned : StepsMeet quoteStep (fun v _ => v.header.status.isSigned = true) w es)
    (hr : run quoteStep w es = some t) : t.rows = w.rows ∧ t.header.SameFigures w.header := by
  refine (run_invariant_of_stepsMeet
    (fun v => Ordered v ∧ v.rows = w.rows ∧ v.header.SameFigures w.header) ?_
    ⟨h, rfl, ⟨rfl, rfl, rfl, rfl⟩⟩ (ho.and hsigned) hr).2
  rintro v e v' ⟨hv, hrows, hfig⟩ ⟨hov, hsv⟩ hs
  obtain ⟨hrows', hfig'⟩ := (step_goesTo hv hov hs).signed hsv
  exact ⟨step_ordered v e v' hv hov hs, hrows'.trans hrows, hfig'.trans hfig⟩

end Runs

namespace TwoTabs

theorem day_exists : (NaiveDate.fromYmdOpt 2026 3 2).isSome = true := rfl

def today : NaiveDate := (NaiveDate.fromYmdOpt 2026 3 2).get day_exists

def recipients : Recipients :=
  { ofCompany := true, defaultContact := none, email := none, companyName := "Acme" }

def answer (accept : Bool) (now : ℕ) : QuoteEvent :=
  .start (.decideQuote { companyId := 1, contactId := 7, accept := accept, notes := none } today now)

/-- The quote is approved, and goes out by post. -/
def issued : List QuoteEvent :=
  .start (.updateQuote { status := some .approved } false true none) :: List.replicate 7 (.step 0) ++
    .start (.sendQuote (some { method := .postal, note := none }) recipients 1 none) ::
      List.replicate 4 (.step 0)

/-- The client accepts, and staff converts the quote. -/
def settled : List QuoteEvent :=
  answer true 2 :: List.replicate 3 (.step 0) ++
    .start (.convertQuote 9) :: List.replicate 3 (.step 0)

/-- Two tabs, in which the client accepts and declines: both calls read that the quote is sent, the
first one commits, and the second has written its answer. -/
def bothRead : List QuoteEvent :=
  issued ++ [answer true 2, answer false 3, .step 0, .step 1, .step 0, .step 0, .step 0]

end TwoTabs

end Mokosh.Quotes
