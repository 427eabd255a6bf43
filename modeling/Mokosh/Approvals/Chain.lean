import Mokosh.Approvals.Once

/-! # The verdict of an approval chain

Staff decide the approvals of a submitted quote, and contacts theirs, in any number at once.  Each decision
writes its row before it locks the quote, so that the last to get that lock counts every one of them.

**`chain_verdict`**: if one of the staff approvals is pending to begin with, then once none is, the quote
is rejected if one of them was and else approved; it is never approved while one is pending, and a
contact's decision moves nothing.  A chain that was decided while the quote was a draft moves nothing
either: `decided_before_submission`. -/

namespace Mokosh.Approvals

open Quotes (QuoteStatus)
open Requests (Handlers World Event Keeps Rule)

variable {now : ℕ} {x : Unit} {db s : ApprovalsDb} {p : Point} {q : Option Point} {quoteId : Uuid}

/-! ### The staff approvals of a quote -/

namespace Decision

@[simp] theorem apply_isStaffOf (d : Decision) (t : ℕ) (r : Approval) :
    (d.apply t r).isStaffOf quoteId = r.isStaffOf quoteId := by
  unfold apply
  split <;> rfl

/-- What a contact decides is not a staff approval, and neither is what is not a quote's. -/
theorem not_isStaffOf {d : Decision} {row : Approval} (h : Decided db d row)
    (hs : d.syncs row = false) : row.isStaffOf quoteId = false := by
  unfold syncs at hs
  split at hs
  · have htarget : row.target ≠ .quote := of_decide_eq_false hs
    simp [Approval.isStaffOf, htarget]
  · next contactId hd =>
      obtain ⟨r, t, hr, -, rfl⟩ := h
      rw [apply_isStaffOf]
      unfold Decision.row at hr
      rw [hd] at hr
      have hcontact := (Option.filter_eq_some_iff.mp hr).2
      have ha : r.approver = .contact contactId := of_decide_eq_true hcontact
      simp [Approval.isStaffOf, ha, Approver.isStaff]

end Decision

theorem Decided.committed {d : Decision} {row : Approval} (h : Decided db d row) :
    ∃ r, db.approvals.find row.id = some r ∧ r.status = .pending ∧
      ∀ quoteId, row.isStaffOf quoteId = r.isStaffOf quoteId := by
  obtain ⟨r, t, hr, hc, rfl⟩ := h
  refine ⟨r, ?_, Decision.pending_of_check hc, fun quoteId => Decision.apply_isStaffOf d t r⟩
  rw [Decision.apply_id, Decision.id_of_row hr]
  exact Decision.row_eq_some hr

namespace ApprovalsDb

@[simp] theorem write_quoteStatus (row : Approval) :
    (db.write row).quoteStatus quoteId = db.quoteStatus quoteId := rfl

theorem setStatus_quoteStatus (quoteId' : Uuid) (next : QuoteStatus) :
    (db.setStatus quoteId' next).quoteStatus quoteId =
      if quoteId = quoteId' then (db.quoteStatus quoteId).map fun _ => next
      else db.quoteStatus quoteId := by
  unfold quoteStatus setStatus
  rw [Table.find_update]
  split
  · cases db.quotes.find quoteId <;> rfl
  · rfl

/-- A decision is written over the pending row among the staff approvals. -/
theorem write_staffApprovals {d : Decision} {row : Approval} (h : Decided db d row) :
    (db.write row).staffApprovals quoteId =
      (db.staffApprovals quoteId).map fun a => if a.id = row.id then row else a := by
  obtain ⟨r, hr, -, hstaff⟩ := h.committed
  have hrows : (db.write row).approvals.rows =
      db.approvals.rows.map fun a => if a.id = row.id then row else a := by
    apply List.map_congr_left
    intro a _
    split
    · next hid =>
        show { row with id := a.id } = row
        rw [hid]
    · rfl
  unfold staffApprovals
  rw [hrows, List.filter_map]
  congr 1
  apply List.filter_congr
  intro a ha
  simp only [Function.comp_apply]
  split
  · next hid => rw [Table.eq_of_find hr ha hid, hstaff]
  · rfl

theorem write_staffApprovals_of_not {d : Decision} {row : Approval} (h : Decided db d row)
    (hs : row.isStaffOf quoteId = false) :
    (db.write row).staffApprovals quoteId = db.staffApprovals quoteId := by
  obtain ⟨r, hr, -, hstaff⟩ := h.committed
  rw [write_staffApprovals h]
  refine (List.map_congr_left fun a ha => ?_).trans (List.map_id _)
  obtain ⟨hmem, hpa⟩ := List.mem_filter.mp ha
  split
  · next hid =>
      rw [Table.eq_of_find hr hmem hid, ← hstaff, hs] at hpa
      cases hpa
  · rfl

/-- The count of a decision is of the staff approvals alone. -/
theorem outcome_congr {db' : ApprovalsDb} {d : Decision} {row : Approval} (h : Decided db d row)
    (h' : Decided db' d row)
    (hstaff : db'.staffApprovals row.entityId = db.staffApprovals row.entityId) (current : QuoteStatus) :
    db'.outcome row current = db.outcome row current := by
  unfold outcome count
  dsimp only
  rw [write_staffApprovals h, write_staffApprovals h', hstaff]

theorem count_pos_iff {status : Status} :
    0 < db.count quoteId status ↔ ∃ a ∈ db.staffApprovals quoteId, a.status = status := by
  unfold count
  rw [List.countP_pos_iff]
  simp

theorem count_eq_zero_iff {status : Status} :
    db.count quoteId status = 0 ↔ ∀ a ∈ db.staffApprovals quoteId, a.status ≠ status := by
  unfold count
  rw [List.countP_eq_zero]
  simp

end ApprovalsDb

/-! ### The quote that a decision has locked -/

/-- What a decision knows of the quote that it has locked; and nobody cancels. -/
def Syncs (db : ApprovalsDb) : Point → Prop
  | .quoteLocked d row current =>
    d.syncs row = true ∧ db.quoteStatus row.entityId = some current
  | .counted d row next => d.syncs row = true ∧
    ∃ current, db.quoteStatus row.entityId = some current ∧ next = db.outcome row current
  | .moved d row next => d.syncs row = true ∧
    ∃ current, db.quoteStatus row.entityId = some current ∧ some next = db.outcome row current
  | .unmoved _ row => db.quoteStatus row.entityId = none
  | .cancelling _ _ | .cancelChecked _ | .cancelled _ => False
  | _ => True

theorem syncs_answered (answer : AppResult Unit) : ∀ p' ∈ some (Point.answered answer), Syncs s p' := by
  rintro p' ⟨⟩
  trivial

theorem syncs_advance (h : Syncs db p) (ha : advance now x db p = some (s, q)) :
    ∀ p' ∈ q, Syncs s p' := by
  cases p with
  | deciding d =>
      cases ha
      split
      · exact syncs_answered _
      · split
        · exact syncs_answered _
        · rintro p' ⟨⟩
          trivial
  | locked d row =>
      cases ha
      split
      · exact syncs_answered _
      · rintro p' ⟨⟩
        trivial
  | updated d row =>
      obtain ⟨hs, ha⟩ | ⟨-, ha⟩ := ite_eq_iff.mp ha
      · cases ha
        split
        · next hnone =>
            rintro p' ⟨⟩
            exact hnone
        · next current hc =>
            rintro p' ⟨⟩
            exact ⟨hs, hc⟩
      · cases ha
        exact syncs_answered _
  | quoteLocked d row current =>
      cases ha
      rintro p' ⟨⟩
      exact ⟨h.1, current, h.2, rfl⟩
  | counted d row next =>
      cases next with
      | none =>
          cases ha
          exact syncs_answered _
      | some next =>
          cases ha
          rintro p' ⟨⟩
          exact h
  | moved d row next =>
      cases ha
      exact syncs_answered _
  | unmoved d row =>
      cases ha
      exact syncs_answered _
  | cancelling id callerId => exact h.elim
  | cancelChecked id => exact h.elim
  | cancelled row => exact h.elim
  | answered answer =>
      cases ha
      intro p' hp'
      cases hp'

/-- What a decision commits: a staff approval of the quote only if it has the quote locked. -/
inductive Commits (db : ApprovalsDb) (p : Point) : ApprovalsDb → Prop
  | same : Commits db p db
  /-- The row is no staff approval of a quote that there is. -/
  | elsewhere {d : Decision} {row : Approval} (hd : Decided db d row)
      (hp : .approval row.id ∈ holds p)
      (hs : ∀ quoteId current, db.quoteStatus quoteId = some current →
        row.isStaffOf quoteId = false) : Commits db p (db.write row)
  | unmoved {d : Decision} {row : Approval} {current : QuoteStatus} (hd : Decided db d row)
      (hp : p = .counted d row none) (hc : db.quoteStatus row.entityId = some current)
      (hn : db.outcome row current = none) : Commits db p (db.write row)
  | moved {d : Decision} {row : Approval} {current next : QuoteStatus} (hd : Decided db d row)
      (hp : p = .moved d row next) (hs : d.syncs row = true)
      (hc : db.quoteStatus row.entityId = some current)
      (hn : db.outcome row current = some next) :
      Commits db p ((db.write row).setStatus row.entityId next)

theorem advance_commits (hp : Stands db p) (hq : Syncs db p)
    (ha : advance now x db p = some (s, q)) : Commits db p s := by
  cases p with
  | updated d row =>
      obtain ⟨-, ha⟩ | ⟨hs, ha⟩ := ite_eq_iff.mp ha
      · cases ha
        exact .same
      · cases ha
        have hd : Decided db d row := hp.decided rfl
        refine .elsewhere hd ?_ fun quoteId _ _ => Decision.not_isStaffOf hd (by simpa using hs)
        rw [hd.id_eq]
        exact List.mem_cons_self
  | counted d row next =>
      obtain ⟨-, current, hc, hn⟩ := hq
      cases next with
      | none =>
          cases ha
          exact .unmoved (hp.decided rfl) rfl hc hn.symm
      | some next =>
          cases ha
          exact .same
  | moved d row next =>
      obtain ⟨hs, current, hc, hn⟩ := hq
      cases ha
      exact .moved (hp.decided rfl) rfl hs hc hn.symm
  | unmoved d row =>
      cases ha
      have hd : Decided db d row := hp.decided rfl
      refine .elsewhere hd ?_ fun quoteId current hc => ?_
      · rw [hd.id_eq]
        exact List.mem_cons_self
      · have hne : row.entityId ≠ quoteId := by
          rintro rfl
          rw [show db.quoteStatus row.entityId = none from hq] at hc
          cases hc
        simp [Approval.isStaffOf, hne]
  | cancelled row => exact hq.elim
  | cancelChecked id => exact hq.elim
  | cancelling id callerId => exact hq.elim
  | _ =>
      cases ha
      exact .same

/-- What other requests commit does not touch what a request has locked. -/
theorem Commits.frame {p' : Point} (h : Commits db p s) (hapart : handlers.Apart p p')
    (hp' : Stands db p') (hps' : Stands s p') (hq' : Syncs db p') : Syncs s p' := by
  have hkept : ∀ {d row current}, p'.version = some (d, row) → .quote row.entityId ∈ holds p' →
      db.quoteStatus row.entityId = some current → s.quoteStatus row.entityId = some current ∧
        s.outcome row current = db.outcome row current := by
    intro d row current hv hlock hc
    cases h with
    | same => exact ⟨hc, rfl⟩
    | elsewhere hd _ hs =>
        refine ⟨hc, ApprovalsDb.outcome_congr (hp'.decided hv) (hps'.decided hv) ?_ current⟩
        exact ApprovalsDb.write_staffApprovals_of_not hd (hs _ _ hc)
    | @unmoved d₁ row₁ current₁ hd hp =>
        subst hp
        have hne : row₁.entityId ≠ row.entityId := by
          intro he
          exact hapart (.quote row.entityId) (by rw [← he]; simp [handlers, holds]) hlock
        refine ⟨hc, ApprovalsDb.outcome_congr (hp'.decided hv) (hps'.decided hv) ?_ current⟩
        exact ApprovalsDb.write_staffApprovals_of_not hd (by simp [Approval.isStaffOf, hne])
    | @moved d₁ row₁ current₁ next hd hp =>
        subst hp
        have hne : row₁.entityId ≠ row.entityId := by
          intro he
          exact hapart (.quote row.entityId) (by rw [← he]; simp [handlers, holds]) hlock
        refine ⟨?_, ApprovalsDb.outcome_congr (hp'.decided hv) (hps'.decided hv) ?_ current⟩
        · rw [ApprovalsDb.setStatus_quoteStatus, if_neg hne.symm]
          exact hc
        · exact ApprovalsDb.write_staffApprovals_of_not hd (by simp [Approval.isStaffOf, hne])
  cases p' with
  | quoteLocked d row current =>
      exact ⟨hq'.1, (hkept rfl (by simp [holds]) hq'.2).1⟩
  | counted d row next =>
      obtain ⟨hs, current, hc, hn⟩ := hq'
      obtain ⟨hc', ho⟩ := hkept rfl (by simp [holds]) hc
      exact ⟨hs, current, hc', hn.trans ho.symm⟩
  | moved d row next =>
      obtain ⟨hs, current, hc, hn⟩ := hq'
      obtain ⟨hc', ho⟩ := hkept rfl (by simp [holds]) hc
      exact ⟨hs, current, hc', hn.trans ho.symm⟩
  | unmoved d row =>
      have hnone : db.quoteStatus row.entityId = none := hq'
      show s.quoteStatus row.entityId = none
      cases h with
      | moved =>
          rw [ApprovalsDb.setStatus_quoteStatus, ApprovalsDb.write_quoteStatus, hnone]
          split <;> rfl
      | _ => exact hnone
  | cancelling _ _ => exact hq'.elim
  | cancelChecked _ => exact hq'.elim
  | cancelled _ => exact hq'.elim
  | _ => trivial

/-! ### The chain -/

/-- How the quote stands to its staff approvals. -/
structure Chain (quoteId : Uuid) (db : ApprovalsDb) : Prop where
  known : ∃ status, db.quoteStatus quoteId = some status ∧
    (status = .submitted ∨ status = .approved ∨ status = .rejected)
  submitted : db.quoteStatus quoteId = some .submitted →
    ∃ a ∈ db.staffApprovals quoteId, a.status = .pending
  approved : db.quoteStatus quoteId = some .approved →
    ∀ a ∈ db.staffApprovals quoteId, a.status ≠ .pending ∧ a.status ≠ .rejected
  rejected : db.quoteStatus quoteId = some .rejected →
    ∃ a ∈ db.staffApprovals quoteId, a.status = .rejected

/-- A chain is about nothing but the quote and its staff approvals. -/
theorem Chain.congr {db' : ApprovalsDb} (h : Chain quoteId db)
    (hq : db'.quoteStatus quoteId = db.quoteStatus quoteId)
    (hs : db'.staffApprovals quoteId = db.staffApprovals quoteId) : Chain quoteId db' := by
  constructor <;> rw [hq]
  · exact h.known
  · rw [hs]
    exact h.submitted
  · rw [hs]
    exact h.approved
  · rw [hs]
    exact h.rejected

/-- The row that a staff decision overwrites is among the staff approvals, and pending. -/
theorem Decided.mem_staffApprovals {d : Decision} {row : Approval} (hd : Decided db d row)
    (hs : row.isStaffOf quoteId = true) :
    ∃ r ∈ db.staffApprovals quoteId, r.id = row.id ∧ r.status = .pending := by
  obtain ⟨r, hr, hpending, hstaff⟩ := hd.committed
  refine ⟨r, List.mem_filter.mpr ⟨Table.find_mem hr, ?_⟩, Table.key_of_find hr, hpending⟩
  rw [← hstaff, hs]

/-- A decision commits without a move of the quote. -/
theorem Chain.unmoved {d : Decision} {row : Approval} {current : QuoteStatus} (h : Chain quoteId db)
    (hd : Decided db d row) (hc : db.quoteStatus row.entityId = some current)
    (hn : db.outcome row current = none) : Chain quoteId (db.write row) := by
  by_cases hs : row.isStaffOf quoteId = true
  · obtain ⟨r, hr, hid, hpending⟩ := hd.mem_staffApprovals hs
    obtain rfl : row.entityId = quoteId := by
      unfold Approval.isStaffOf at hs
      exact (of_decide_eq_true hs).2.1
    refine ⟨h.known, fun hsub => ?_, fun happ => ?_, fun hrej => ?_⟩
    · obtain rfl : current = .submitted := Option.some.inj (hc.symm.trans hsub)
      unfold ApprovalsDb.outcome Quotes.outcome at hn
      have hcount : (db.write row).count row.entityId .pending ≠ 0 := by
        intro hzero
        rw [if_neg (by simp), hzero] at hn
        split at hn <;> cases hn
      exact ApprovalsDb.count_pos_iff.mp (Nat.pos_of_ne_zero hcount)
    · exact absurd hpending (h.approved happ r hr).1
    · obtain ⟨a, ha, hrejected⟩ := h.rejected hrej
      refine ⟨a, ?_, hrejected⟩
      rw [ApprovalsDb.write_staffApprovals hd]
      refine List.mem_map.mpr ⟨a, ha, if_neg fun he => ?_⟩
      have hsame : a = r := Table.eq_of_key_eq (List.mem_filter.mp ha).1 (List.mem_filter.mp hr).1
        (he.trans hid.symm)
      rw [hsame, hpending] at hrejected
      cases hrejected
  · rw [Bool.not_eq_true] at hs
    exact h.congr rfl (ApprovalsDb.write_staffApprovals_of_not hd hs)

/-- A decision commits, and moves its quote. -/
theorem Chain.moved {d : Decision} {row : Approval} {current next : QuoteStatus} (h : Chain quoteId db)
    (hd : Decided db d row) (hc : db.quoteStatus row.entityId = some current)
    (hn : db.outcome row current = some next) :
    Chain quoteId ((db.write row).setStatus row.entityId next) := by
  by_cases hq : quoteId = row.entityId
  · subst hq
    have hstatus : ((db.write row).setStatus row.entityId next).quoteStatus row.entityId = some next := by
      rw [ApprovalsDb.setStatus_quoteStatus, if_pos rfl, ApprovalsDb.write_quoteStatus, hc]
      rfl
    have hsubmitted := (Quotes.outcome_eq_some hn).1
    subst hsubmitted
    unfold ApprovalsDb.outcome Quotes.outcome at hn
    rw [if_neg (by simp)] at hn
    constructor <;> rw [hstatus]
    · split at hn
      · cases hn
        exact ⟨_, rfl, .inr (.inr rfl)⟩
      · obtain ⟨-, hn⟩ := Option.ite_none_right_eq_some.mp hn
        cases hn
        exact ⟨_, rfl, .inr (.inl rfl)⟩
    · rintro ⟨⟩
      split at hn
      · cases hn
      · obtain ⟨-, hn⟩ := Option.ite_none_right_eq_some.mp hn
        cases hn
    · rintro ⟨⟩ a ha
      split at hn
      · cases hn
      · next hrejected =>
          obtain ⟨hpending, -⟩ := Option.ite_none_right_eq_some.mp hn
          exact ⟨ApprovalsDb.count_eq_zero_iff.mp hpending a ha,
            ApprovalsDb.count_eq_zero_iff.mp (Nat.eq_zero_of_not_pos hrejected) a ha⟩
    · rintro ⟨⟩
      split at hn
      · next hrejected => exact ApprovalsDb.count_pos_iff.mp hrejected
      · obtain ⟨-, hn⟩ := Option.ite_none_right_eq_some.mp hn
        cases hn
  · refine h.congr ?_ (ApprovalsDb.write_staffApprovals_of_not hd ?_)
    · rw [ApprovalsDb.setStatus_quoteStatus, if_neg hq]
      rfl
    · simp [Approval.isStaffOf, Ne.symm hq]

theorem Chain.commits (h : Chain quoteId db) (hs : Commits db p s) : Chain quoteId s := by
  cases hs with
  | same => exact h
  | elsewhere hd _ hnot =>
      obtain ⟨status, hc, -⟩ := h.known
      exact h.congr rfl (ApprovalsDb.write_staffApprovals_of_not hd (hnot _ _ hc))
  | unmoved hd _ hc hn => exact h.unmoved hd hc hn
  | moved hd _ _ hc hn => exact h.moved hd hc hn

/-- The requests of a chain: decisions, and no cancel. -/
def decides : Event Operation Unit → Bool
  | .arrive (.cancel _ _) => false
  | _ => true

theorem syncs_start {op : Operation} (h : decides (.arrive op) = true) : Syncs db (start op) := by
  have hd : ∀ id decider req, Syncs db (deciding id decider req) := by
    intro id decider req
    unfold deciding
    split <;> trivial
  cases op with
  | cancel => cases h
  | _ => exact hd _ _ _

theorem chain_rule (quoteId : Uuid) :
    Rule handlers (fun _ => Chain quoteId) (fun _ db p => Stands db p ∧ Syncs db p)
      fun _ e => decides e = true where
  locks ha := advance_locks (x := ()) ha
  unlocked := holds_start
  wait hG _ := ⟨hG, fun _ hp => hp⟩
  start {_ op} _ hC := ⟨stands_start op, syncs_start hC⟩
  step := by
    intro w i x p s q hw _ hi ha
    obtain ⟨hp, hq⟩ := hw.requests p (List.mem_of_getElem? hi)
    have hcommits := advance_commits (x := x) hp hq ha
    refine ⟨hw.store.commits hcommits, fun p' hp' => ?_, fun p' _ hapart hp' => ?_⟩
    · exact ⟨stands_advance (x := x) hp ha p' hp', syncs_advance (x := x) hq ha p' hp'⟩
    · have hstands : Stands s p' := hp'.1.congr fun id hid =>
        hp.leaves (advance_leaves (x := x) ha) (hapart.symm _ hid)
      exact ⟨hstands, hcommits.frame hapart hp'.1 hstands hp'.2⟩

/-- The verdict of staff on a quote. -/
def ApprovalsDb.verdict (db : ApprovalsDb) (quoteId : Uuid) : QuoteStatus :=
  if ∃ a ∈ db.staffApprovals quoteId, a.status = .rejected then .rejected else .approved

/-- Whose decision it is. -/
def Point.decider : Point → Option Decider
  | .deciding d | .locked d _ | .updated d _ | .quoteLocked d _ _ | .counted d _ _ | .moved d _ _
  | .unmoved d _ => some d.decider
  | _ => none

/-- A contact's decision does not write a quote. -/
theorem contact_moves_nothing {contactId : Uuid} (hq : Syncs db p)
    (hp : p.decider = some (.contact contactId)) (ha : advance now x db p = some (s, q)) :
    s.quotes = db.quotes := by
  have hleaves := advance_leaves ha
  cases hleaves with
  | @moved d row next hv =>
      subst hv
      have hsync : d.syncs row = true := hq.1
      have hcontact : d.decider = .contact contactId := Option.some.inj hp
      unfold Decision.syncs at hsync
      rw [hcontact] at hsync
      cases hsync
  | _ => rfl

theorem chain_verdict {es : List (Event Operation Unit)} {w : World ApprovalsDb Point}
    (hsubmitted : db.quoteStatus quoteId = some .submitted)
    (hpending : ∃ a ∈ db.staffApprovals quoteId, a.status = .pending)
    (hdecides : ∀ e ∈ es, decides e = true) (hr : run step (World.start now db) es = some w) :
    ((∀ a ∈ w.store.staffApprovals quoteId, a.status ≠ .pending) →
      w.store.quoteStatus quoteId = some (w.store.verdict quoteId)) ∧
    (w.store.quoteStatus quoteId = some .approved →
      ∀ a ∈ w.store.staffApprovals quoteId, a.status ≠ .pending) ∧
    ∀ i p contactId w', w.requests[i]? = some p → p.decider = some (.contact contactId) →
      step w (.step i ()) = some w' → w'.store.quotes = w.store.quotes := by
  have hstart : Chain quoteId db := by
    constructor <;> rw [hsubmitted]
    · exact ⟨_, rfl, .inl rfl⟩
    · exact fun _ => hpending
    · rintro ⟨⟩
    · rintro ⟨⟩
  have hw := (chain_rule quoteId).run (Requests.keeps_start hstart) (stepsMeet_of_events hdecides) hr
  have hchain := hw.store
  refine ⟨fun hdecided => ?_, fun happ a ha => (hchain.approved happ a ha).1, ?_⟩
  · obtain ⟨status, hstatus, hsub | happ | hrej⟩ := hchain.known
    · subst hsub
      obtain ⟨a, ha, hp⟩ := hchain.submitted hstatus
      exact absurd hp (hdecided a ha)
    · subst happ
      rw [hstatus, ApprovalsDb.verdict, if_neg]
      rintro ⟨a, ha, hrej⟩
      exact (hchain.approved hstatus a ha).2 hrej
    · subst hrej
      rw [hstatus, ApprovalsDb.verdict, if_pos (hchain.rejected hstatus)]
  · intro i p contactId w' hi hp hs
    replace hs := Requests.step_cases hs
    cases hs with
    | advanced hi' _ ha =>
        obtain rfl := Option.some.inj (hi.symm.trans hi')
        rw [World.resume_store]
        exact contact_moves_nothing (x := ()) (hw.requests _ (List.mem_of_getElem? hi)).2 hp ha

/-! ### Two at once, and one before the submission -/

/-- An approval of quote 0, as it was asked for or with the status that was decided. -/
def quoteApproval (approver : Approver) (status : Status) (id : Uuid) : Approval where
  id := id
  target := .quote
  entityId := 0
  requestedById := some 1
  approver := approver
  status := status
  decisionNotes := none
  decidedById := none
  decidedByContactId := none
  decidedAt := none

/-- Quote 0 is submitted, and users 2 and 3 and contact 9 are asked. -/
def submittedQuote : ApprovalsDb where
  approvals := ((∅ : Table Approval.id).insert (quoteApproval (.user 2) .pending)).insert
    (quoteApproval (.role "manager") .pending) |>.insert (quoteApproval (.contact 9) .pending)
  quotes := (∅ : Table QuoteRow.id).insert fun id => { id := id, status := .submitted }

/-- User 2 rejects while user 3 approves: both have written their row when user 3 counts. -/
def twoAtOnce : List (Event Operation Unit) :=
  [.arrive (.decide 0 2 "technician" { decision := "reject", decisionNotes := none }),
    .arrive (.decide 1 3 "manager" { decision := "approve", decisionNotes := none }),
    .arrive (.decideAsContact 2 9 { decision := "approve", decisionNotes := none }),
    .step 0 (), .step 0 (), .step 1 (), .step 1 (), .step 2 (), .step 2 (),
    .step 1 (), .step 1 (), .step 2 (), .step 1 (), .step 0 (), .step 0 (), .step 0 (), .step 0 ()]

theorem chain_verdict_twoAtOnce : ∃ w, run step (World.start 0 submittedQuote) twoAtOnce = some w ∧
    w.store.quoteStatus 0 = some .rejected := by
  have h : (run step (World.start 0 submittedQuote) twoAtOnce).any (fun w =>
      (∀ a ∈ w.store.staffApprovals 0, a.status ≠ .pending) ∧ w.store.verdict 0 = .rejected) = true := by
    decide +kernel
  obtain ⟨w, hw, hp⟩ := exists_run_of_any h
  obtain ⟨hdecided, hverdict⟩ := of_decide_eq_true hp
  refine ⟨w, hw, ?_⟩
  rw [(chain_verdict (by decide) (by decide) (by decide) hw).1 hdecided, hverdict]

/-- Quote 0 was approved as a draft, and then submitted. -/
def approvedDraft : ApprovalsDb where
  approvals := (∅ : Table Approval.id).insert (quoteApproval (.user 2) .approved)
  quotes := (∅ : Table QuoteRow.id).insert fun id => { id := id, status := .submitted }

/-- All its staff approvals are decided, and it stays submitted. -/
theorem decided_before_submission : ¬ ∀ quoteId now db es w,
    db.quoteStatus quoteId = some .submitted → (∀ e ∈ es, decides e = true) →
    run step (World.start now db) es = some w →
    (∀ a ∈ w.store.staffApprovals quoteId, a.status ≠ .pending) →
      w.store.quoteStatus quoteId = some (w.store.verdict quoteId) := by
  intro h
  have hsame := h 0 0 approvedDraft [] (World.start 0 approvedDraft) (by decide) (by decide) rfl
    (by decide)
  revert hsame
  decide

end Mokosh.Approvals
