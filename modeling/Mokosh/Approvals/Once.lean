import Mokosh.Approvals.Service

/-! # An approval is decided once

`decide` and `decide_as_contact` hold the row from their check to their commit, so that what they overwrite
is pending.  `cancel` overwrites whatever it finds when it comes to its `UPDATE`.

**`once_iff`**: along a run, an approval leaves pending at most once, and its decider and notes stand from
then on, exactly if no cancel commits on an approval that was approved or rejected.
`cancelled_after_decision` is a run in which one does. -/

namespace Mokosh.Approvals

open Quotes (QuoteStatus)
open Requests (Handlers World Event Keeps Rule)

/-! ### What a step writes -/

namespace ApprovalsDb

variable {db : ApprovalsDb} {row : Approval} {quoteId : Uuid} {next : QuoteStatus}

theorem write_find (k : Uuid) : (db.write row).approvals.find k =
    if k = row.id then (db.approvals.find k).map fun r => { row with id := r.id }
    else db.approvals.find k := by
  unfold write
  rw [Table.find_update]

theorem write_find_self {r : Approval} (hr : db.approvals.find row.id = some r) :
    (db.write row).approvals.find row.id = some row := by
  rw [write_find, if_pos rfl, hr, Option.map_some, Table.key_of_find hr]

theorem write_find_ne {k : Uuid} (h : k ≠ row.id) :
    (db.write row).approvals.find k = db.approvals.find k := by
  rw [write_find, if_neg h]

end ApprovalsDb

/-- The version of its row that a decision has written, and not committed. -/
def Point.version : Point → Option (Decision × Approval)
  | .updated d row | .unmoved d row | .quoteLocked d row _ | .counted d row _ | .moved d row _ =>
    some (d, row)
  | _ => none

/-- What a statement leaves behind. -/
inductive Leaves (db : ApprovalsDb) (p : Point) : ApprovalsDb → Prop
  | same : Leaves db p db
  | decided {d : Decision} {row : Approval} (hp : p.version = some (d, row)) : Leaves db p (db.write row)
  | moved {d : Decision} {row : Approval} {next : QuoteStatus} (hp : p = .moved d row next) :
      Leaves db p ((db.write row).setStatus row.entityId next)
  | cancelled {row : Approval} (hp : p = .cancelled row) : Leaves db p (db.write row)

variable {now : ℕ} {x : Unit} {db s : ApprovalsDb} {p : Point} {q : Option Point}

theorem advance_leaves (ha : advance now x db p = some (s, q)) : Leaves db p s := by
  cases p with
  | updated d row =>
      obtain ⟨-, ha⟩ | ⟨-, ha⟩ := ite_eq_iff.mp ha
      · cases ha
        exact .same
      · cases ha
        exact .decided rfl
  | counted d row next =>
      cases next with
      | none =>
          cases ha
          exact .decided rfl
      | some next =>
          cases ha
          exact .same
  | moved d row next =>
      cases ha
      exact .moved rfl
  | unmoved d row =>
      cases ha
      exact .decided rfl
  | cancelled row =>
      cases ha
      exact .cancelled rfl
  | _ =>
      cases ha
      exact .same

/-! ### Where a request stands -/

namespace Decision

variable {d : Decision} {row r : Approval}

/-- The rows that a decision selects are among those that have its id. -/
theorem row_eq_some (h : d.row db = some r) : db.approvals.find d.id = some r := by
  unfold row at h
  split at h
  · exact h
  · exact (Option.filter_eq_some_iff.mp h).1

theorem id_of_row (h : d.row db = some r) : r.id = d.id := Table.key_of_find (row_eq_some h)

theorem row_congr {db' : ApprovalsDb} (h : db'.approvals.find d.id = db.approvals.find d.id) :
    d.row db' = d.row db := by
  unfold row
  rw [h]

@[simp] theorem apply_id (t : ℕ) : (d.apply t r).id = r.id := by
  unfold apply
  split <;> rfl

/-- What passes the check is pending. -/
theorem pending_of_check (h : d.check r = .ok ()) : r.status = .pending := by
  unfold check at h
  split at h
  · cases h
  · next hs => exact not_not.mp hs

end Decision

/-- A decision has its own version of a pending row that is committed. -/
def Decided (db : ApprovalsDb) (d : Decision) (row : Approval) : Prop :=
  ∃ r t, d.row db = some r ∧ d.check r = .ok () ∧ row = d.apply t r

/-- What a request knows of the row that it holds. -/
def Stands (db : ApprovalsDb) : Point → Prop
  | .locked d row => d.row db = some row ∧ d.check row = .ok ()
  | .cancelled row => ∃ r t, db.approvals.find row.id = some r ∧ row = r.cancel t
  | p => ∀ d row, p.version = some (d, row) → Decided db d row

theorem Decided.id_eq {d : Decision} {row : Approval} (h : Decided db d row) : row.id = d.id := by
  obtain ⟨r, t, hr, -, rfl⟩ := h
  rw [Decision.apply_id, Decision.id_of_row hr]

theorem Decided.congr {db' : ApprovalsDb} {d : Decision} {row : Approval} (h : Decided db d row)
    (hfind : db'.approvals.find d.id = db.approvals.find d.id) : Decided db' d row := by
  obtain ⟨r, t, hr, hc, hrow⟩ := h
  exact ⟨r, t, (Decision.row_congr hfind).trans hr, hc, hrow⟩

theorem Stands.decided {d : Decision} {row : Approval} (h : Stands db p)
    (hp : p.version = some (d, row)) : Decided db d row := by
  cases p with
  | locked _ _ => cases hp
  | cancelled _ => cases hp
  | _ => exact h d row hp

/-- A request has a lock on what it knows. -/
theorem version_locked {d : Decision} {row : Approval} (hp : p.version = some (d, row)) :
    .approval d.id ∈ holds p := by
  cases p <;> cases hp <;> exact List.mem_cons_self

/-- A request stands where it stood as long as the rows that it holds are the same. -/
theorem Stands.congr {db' : ApprovalsDb} (h : Stands db p)
    (hfind : ∀ id, .approval id ∈ holds p → db'.approvals.find id = db.approvals.find id) :
    Stands db' p := by
  cases p with
  | locked d row =>
      refine ⟨(Decision.row_congr (hfind d.id ?_)).trans h.1, h.2⟩
      exact List.mem_singleton_self _
  | cancelled row =>
      obtain ⟨r, t, hr, hrow⟩ := h
      exact ⟨r, t, (hfind row.id (List.mem_singleton_self _)).trans hr, hrow⟩
  | _ =>
      intro d row hp
      exact (h d row hp).congr (hfind d.id (version_locked hp))

/-- The row that a statement writes is one that the request holds. -/
theorem Stands.leaves (h : Stands db p) (hs : Leaves db p s) {id : Uuid}
    (hid : .approval id ∉ holds p) : s.approvals.find id = db.approvals.find id := by
  cases hs with
  | same => rfl
  | @decided d row hp =>
      apply ApprovalsDb.write_find_ne
      rintro rfl
      rw [(h.decided hp).id_eq] at hid
      exact hid (version_locked hp)
  | @moved d row next hp =>
      subst hp
      refine ApprovalsDb.write_find_ne ?_
      rintro rfl
      rw [(h.decided rfl).id_eq] at hid
      exact hid List.mem_cons_self
  | @cancelled row hp =>
      subst hp
      apply ApprovalsDb.write_find_ne
      rintro rfl
      exact hid List.mem_cons_self

theorem stands_answered (answer : AppResult Unit) : ∀ p' ∈ some (Point.answered answer), Stands s p' := by
  rintro p' ⟨⟩ d row hp
  cases hp

/-- A statement leads its own request to a point where it stands. -/
theorem stands_advance (h : Stands db p) (ha : advance now x db p = some (s, q)) :
    ∀ p' ∈ q, Stands s p' := by
  cases p with
  | deciding d =>
      cases ha
      split
      · exact stands_answered _
      · next row hrow =>
          split
          · exact stands_answered _
          · next hcheck =>
              rintro p' ⟨⟩
              exact ⟨hrow, hcheck⟩
  | locked d row =>
      cases ha
      split
      · exact stands_answered _
      · next r hr =>
          have hrow := (Option.filter_eq_some_iff.mp hr).1
          obtain rfl : row = r := Option.some.inj (h.1.symm.trans hrow)
          rintro p' ⟨⟩ d' row' hp
          cases hp
          exact ⟨row, now, hrow, h.2, rfl⟩
  | updated d row =>
      obtain ⟨-, ha⟩ | ⟨-, ha⟩ := ite_eq_iff.mp ha
      · cases ha
        split
        · rintro p' ⟨⟩
          exact h
        · rintro p' ⟨⟩
          exact h
      · cases ha
        exact stands_answered _
  | quoteLocked d row current =>
      cases ha
      rintro p' ⟨⟩
      exact h
  | counted d row next =>
      cases next with
      | none =>
          cases ha
          exact stands_answered _
      | some next =>
          cases ha
          rintro p' ⟨⟩
          exact h
  | moved d row next =>
      cases ha
      exact stands_answered _
  | unmoved d row =>
      cases ha
      exact stands_answered _
  | cancelling id callerId =>
      cases ha
      split
      · exact stands_answered _
      · split
        · exact stands_answered _
        · rintro p' ⟨⟩ d row hp
          cases hp
  | cancelChecked id =>
      cases ha
      split
      · exact stands_answered _
      · next r hr =>
          rintro p' ⟨⟩
          refine ⟨r, now, ?_, rfl⟩
          have hid : (r.cancel now).id = id := (Table.find_eq_some_iff.mp hr).2
          rw [hid, hr]
  | cancelled row =>
      cases ha
      exact stands_answered _
  | answered answer =>
      cases ha
      intro p' hp'
      cases hp'

/-- A request has no locks but those that it had and those that its statement took. -/
theorem advance_locks (ha : advance now x db p = some (s, q)) :
    ∀ p' ∈ q, ∀ b ∈ holds p', b ∈ takes db p ∨ b ∈ holds p := by
  cases p with
  | deciding d =>
      cases ha
      split
      · rintro p' ⟨⟩ b ⟨⟩
      · next row hrow =>
          split
          · rintro p' ⟨⟩ b ⟨⟩
          · rintro p' ⟨⟩ b hb
            exact .inl (by simpa [takes, hrow, holds] using hb)
  | locked d row =>
      cases ha
      split
      · rintro p' ⟨⟩ b ⟨⟩
      · rintro p' ⟨⟩ b hb
        exact .inr hb
  | updated d row =>
      obtain ⟨hsync, ha⟩ | ⟨-, ha⟩ := ite_eq_iff.mp ha
      · cases ha
        split
        · rintro p' ⟨⟩ b hb
          exact .inr hb
        · next current hquote =>
            rintro p' ⟨⟩ b hb
            obtain rfl | hb := List.mem_cons.mp hb
            · exact .inr (List.mem_singleton_self _)
            · exact .inl (by simpa [takes, hsync, hquote] using hb)
      · cases ha
        rintro p' ⟨⟩ b ⟨⟩
  | counted d row next =>
      cases next with
      | none =>
          cases ha
          rintro p' ⟨⟩ b ⟨⟩
      | some next =>
          cases ha
          rintro p' ⟨⟩ b hb
          exact .inr hb
  | quoteLocked d row current =>
      cases ha
      rintro p' ⟨⟩ b hb
      exact .inr hb
  | cancelling id callerId =>
      cases ha
      split
      · rintro p' ⟨⟩ b ⟨⟩
      · split
        · rintro p' ⟨⟩ b ⟨⟩
        · rintro p' ⟨⟩ b ⟨⟩
  | cancelChecked id =>
      cases ha
      split
      · rintro p' ⟨⟩ b ⟨⟩
      · next r hr =>
          rintro p' ⟨⟩ b hb
          have hid : (r.cancel now).id = id := (Table.find_eq_some_iff.mp hr).2
          rw [holds, hid] at hb
          exact .inl hb
  | answered answer =>
      cases ha
      intro p' hp'
      cases hp'
  | _ =>
      cases ha
      rintro p' ⟨⟩ b ⟨⟩

theorem holds_start (op : Operation) : holds (start op) = [] := by
  have hd : ∀ id decider req, holds (deciding id decider req) = [] := by
    intro id decider req
    unfold deciding
    split <;> rfl
  cases op with
  | cancel => rfl
  | _ => exact hd _ _ _

theorem stands_start (op : Operation) : Stands db (start op) := by
  have hd : ∀ id decider req, Stands db (deciding id decider req) := by
    intro id decider req
    unfold deciding
    split <;> rintro d row ⟨⟩
  cases op with
  | cancel => rintro d row ⟨⟩
  | _ => exact hd _ _ _

theorem stands_rule (C : World ApprovalsDb Point → Event Operation Unit → Prop) :
    Rule handlers (fun _ _ => True) (fun _ => Stands) C where
  locks ha := advance_locks (x := ()) ha
  unlocked := holds_start
  wait _ _ := ⟨trivial, fun _ hp => hp⟩
  start := by
    intro w op _ _
    exact stands_start op
  step := by
    intro w i x p s q hw _ hi ha
    have hp := hw.requests p (List.mem_of_getElem? hi)
    refine ⟨trivial, stands_advance (x := x) hp ha, fun p' _ hapart hp' => hp'.congr fun id hid => ?_⟩
    exact hp.leaves (advance_leaves (x := x) ha) (hapart.symm _ hid)

/-- Where a run has come to, every request stands. -/
theorem stands_of_run {db : ApprovalsDb} {es : List (Event Operation Unit)}
    {w : World ApprovalsDb Point} (hr : run step (World.start now db) es = some w) :
    Keeps handlers (fun _ _ => True) (fun _ => Stands) w :=
  (stands_rule fun _ _ => True).run (Requests.keeps_start trivial) (stepsMeet_true _ _) hr

/-! ### What stands once an approval is decided -/

/-- What a later state of an approval has in common with an earlier one. -/
structure Approval.Follows (a a' : Approval) : Prop where
  status : a.status ≠ .pending → a'.status = a.status
  decidedById : a.status ≠ .pending → a'.decidedById = a.decidedById
  decidedByContactId : a.status ≠ .pending → a'.decidedByContactId = a.decidedByContactId
  decisionNotes : a.status ≠ .pending → a'.decisionNotes = a.decisionNotes

namespace Approval.Follows

theorem refl (a : Approval) : a.Follows a := ⟨fun _ => rfl, fun _ => rfl, fun _ => rfl, fun _ => rfl⟩

theorem of_pending {a : Approval} (h : a.status = .pending) (a' : Approval) : a.Follows a' :=
  ⟨absurd h, absurd h, absurd h, absurd h⟩

theorem trans {a a' a'' : Approval} (h : a.Follows a') (h' : a'.Follows a'') : a.Follows a'' := by
  by_cases hp : a.status = .pending
  · exact of_pending hp a''
  · have hp' : a'.status ≠ .pending := by rwa [h.status hp]
    exact ⟨fun hp => (h'.status hp').trans (h.status hp),
      fun hp => (h'.decidedById hp').trans (h.decidedById hp),
      fun hp => (h'.decidedByContactId hp').trans (h.decidedByContactId hp),
      fun hp => (h'.decisionNotes hp').trans (h.decisionNotes hp)⟩

end Approval.Follows

/-- An approval that is decided in `db` is decided so in `db'`. -/
def Follows (db db' : ApprovalsDb) : Prop :=
  ∀ id a, db.approvals.find id = some a → ∃ a', db'.approvals.find id = some a' ∧ a.Follows a'

theorem Follows.refl (db : ApprovalsDb) : Follows db db := fun _ a ha => ⟨a, ha, .refl a⟩

theorem Follows.trans {s t u : ApprovalsDb} (h : Follows s t) (h' : Follows t u) : Follows s u := by
  intro id a ha
  obtain ⟨a', ha', hf⟩ := h id a ha
  obtain ⟨a'', ha'', hf'⟩ := h' id a' ha'
  exact ⟨a'', ha'', hf.trans hf'⟩

/-- Writing a row on which the one that is committed follows. -/
theorem follows_write {row : Approval}
    (h : ∀ a, db.approvals.find row.id = some a → a.Follows row) : Follows db (db.write row) := by
  intro id a ha
  by_cases hid : id = row.id
  · subst hid
    exact ⟨row, ApprovalsDb.write_find_self ha, h a ha⟩
  · exact ⟨a, (ApprovalsDb.write_find_ne hid).trans ha, .refl a⟩

/-- The version of its row that a cancel has written, and not committed. -/
def Point.cancellation : Point → Option Approval
  | .cancelled row => some row
  | _ => none

/-- No cancel commits on an approval that was approved or rejected. -/
def CancelsUndecided (w : World ApprovalsDb Point) : Event Operation Unit → Prop
  | .step i _ => ∀ p ∈ w.requests[i]?, ∀ row ∈ p.cancellation, ∀ a ∈ w.store.approvals.find row.id,
      a.status = .pending ∨ a.status = .cancelled
  | _ => True

instance (w : World ApprovalsDb Point) : ∀ e, Decidable (CancelsUndecided w e)
  | .step i _ => inferInstanceAs (Decidable (∀ p ∈ w.requests[i]?, ∀ row ∈ p.cancellation,
      ∀ a ∈ w.store.approvals.find row.id, a.status = .pending ∨ a.status = .cancelled))
  | .wait _ => isTrue trivial
  | .arrive _ => isTrue trivial
  | .crash _ => isTrue trivial

/-- What a decision overwrites is pending. -/
theorem Decided.follows {d : Decision} {row : Approval} (h : Decided db d row) :
    Follows db (db.write row) := by
  obtain ⟨r, t, hr, hc, rfl⟩ := h
  refine follows_write fun a ha => .of_pending ?_ _
  rw [Decision.apply_id, Decision.id_of_row hr, Decision.row_eq_some hr] at ha
  cases ha
  exact Decision.pending_of_check hc

/-- What a cancel overwrites is pending, or cancelled. -/
theorem follows_cancelled {row : Approval} (h : Stands db (.cancelled row))
    (hc : ∀ a, db.approvals.find row.id = some a → a.status = .pending ∨ a.status = .cancelled) :
    Follows db (db.write row) := by
  obtain ⟨r, t, hr, hrow⟩ := h
  refine follows_write fun a ha => ?_
  obtain rfl : r = a := Option.some.inj (hr.symm.trans ha)
  obtain hs | hs := hc r ha
  · exact .of_pending hs _
  · rw [hrow]
    exact ⟨fun _ => hs.symm, fun _ => rfl, fun _ => rfl, fun _ => rfl⟩

theorem step_follows {w : World ApprovalsDb Point} {i : ℕ}
    (hw : Keeps handlers (fun _ _ => True) (fun _ => Stands) w)
    (hC : CancelsUndecided w (.step i x)) (hi : w.requests[i]? = some p)
    (ha : advance w.now x w.store p = some (s, q)) : Follows w.store s := by
  have hp : Stands w.store p := hw.requests p (List.mem_of_getElem? hi)
  have hleaves := advance_leaves ha
  cases hleaves with
  | same => exact .refl _
  | decided hv => exact (hp.decided hv).follows
  | @moved d row next hv =>
      subst hv
      have hd : Decided w.store d row := hp.decided rfl
      exact hd.follows
  | @cancelled row hv =>
      subst hv
      exact follows_cancelled hp (hC _ hi row rfl)

/-- Wherever two states of the run are, what is decided in the first is decided so in the second. -/
def DecidedOnce (w : World ApprovalsDb Point) (es : List (Event Operation Unit)) : Prop :=
  ∀ es₁ es₂ es₃, es = es₁ ++ (es₂ ++ es₃) → ∀ w₁ w₂, run step w es₁ = some w₁ →
    run step w₁ es₂ = some w₂ → Follows w₁.store w₂.store

/-- The last statement of a cancel. -/
theorem cancel_commits {w w' : World ApprovalsDb Point} {i : ℕ} {row : Approval}
    (hi : w.requests[i]? = some (.cancelled row)) (hr : run step w [.step i x] = some w') :
    w'.store = w.store.write row := by
  obtain ⟨w₁, hs, hr⟩ := run_cons_eq_some.mp hr
  cases hr
  replace hs := Requests.step_cases hs
  cases hs with
  | advanced hi' _ ha =>
      obtain rfl := Option.some.inj (hi.symm.trans hi')
      cases ha
      exact World.resume_store _ _ _ _

theorem once_iff {db : ApprovalsDb} {es : List (Event Operation Unit)} {w : World ApprovalsDb Point}
    (hr : run step (World.start now db) es = some w) :
    DecidedOnce (World.start now db) es ↔ StepsMeet step CancelsUndecided (World.start now db) es := by
  constructor
  · intro honce
    refine stepsMeet_of_forall fun es₁ e es₂ w₁ hes h1 => ?_
    cases e with
    | step i x =>
        intro p hi row hrow a ha
        obtain rfl : p = .cancelled row := by
          cases p <;> cases hrow
          rfl
        obtain ⟨w₂, h2⟩ : ∃ w₂, run step w₁ [.step i x] = some w₂ := by
          rw [hes, run_append, h1] at hr
          obtain ⟨w₂, h2, -⟩ := run_cons_eq_some.mp hr
          exact ⟨w₂, run_cons_eq_some.mpr ⟨w₂, h2, rfl⟩⟩
        obtain ⟨a', ha', hf⟩ := honce es₁ [.step i x] es₂ hes w₁ w₂ h1 h2 row.id a ha
        have hstands : Stands w₁.store (.cancelled row) :=
          (stands_of_run h1).requests _ (List.mem_of_getElem? hi)
        rw [cancel_commits hi h2, ApprovalsDb.write_find_self ha] at ha'
        obtain rfl : row = a' := Option.some.inj ha'
        by_cases hp : a.status = .pending
        · exact .inl hp
        · obtain ⟨r, t, -, hrow⟩ := hstands
          have hs := hf.status hp
          rw [hrow] at hs
          exact .inr hs.symm
    | _ => trivial
  · intro hC es₁ es₂ es₃ hes w₁ w₂ h1 h2
    rw [hes, stepsMeet_append] at hC
    have hC₂ := (stepsMeet_append.mp (hC.2 w₁ h1)).1
    refine (stands_rule CancelsUndecided).relation Follows.refl (fun _ _ _ => Follows.trans) ?_
      (stands_of_run h1) hC₂ h2
    intro w i x p s q hw hC hi ha
    exact step_follows hw hC hi ha

/-! ### A cancel after the decision -/

/-- A ticket's approval that user 1 has asked user 2 for. -/
def asked : ApprovalsDb where
  approvals := (∅ : Table Approval.id).insert fun id => {
    id := id, target := .ticket, entityId := 7, requestedById := some 1, approver := .user 2,
    status := .pending, decisionNotes := none, decidedById := none, decidedByContactId := none,
    decidedAt := none }
  quotes := ∅

/-- User 1 cancels; the cancel has read the approval when user 2 approves it. -/
def approvedMeanwhile : List (Event Operation Unit) :=
  [.arrive (.cancel 0 1), .step 0 (),
    .arrive (.decide 0 2 "technician" { decision := "approve", decisionNotes := some "go ahead" }),
    .step 1 (), .step 1 (), .step 1 ()]

/-- As long as the cancel goes no further, the approval is decided once. -/
theorem once_approvedMeanwhile : DecidedOnce (World.start 0 asked) approvedMeanwhile := by
  have h : (run step (World.start 0 asked) approvedMeanwhile).any (fun w =>
      (w.store.approvals.find 0).any fun a => a.status = .approved) = true := by
    decide +kernel
  obtain ⟨w, hw, -⟩ := exists_run_of_any h
  exact (once_iff hw).mpr (by decide +kernel)

/-- The approval is cancelled after it was approved. -/
theorem cancelled_after_decision :
    ¬ ∀ now db es w, run step (World.start now db) es = some w → DecidedOnce (World.start now db) es := by
  intro h
  have happroved : (run step (World.start 0 asked) approvedMeanwhile).any (fun w =>
      (w.store.approvals.find 0).any fun a => a.status = .approved) = true := by
    decide +kernel
  have hcancelled : (run step (World.start 0 asked)
      (approvedMeanwhile ++ [.step 0 (), .step 0 ()])).any (fun w =>
      (w.store.approvals.find 0).any fun a => a.status = .cancelled) = true := by
    decide +kernel
  obtain ⟨w₁, h1, hs1⟩ := exists_run_of_any happroved
  obtain ⟨w₂, h2, hs2⟩ := exists_run_of_any hcancelled
  have h12 := h2
  rw [run_append, h1] at h12
  obtain ⟨a, ha, hsa⟩ := (Option.any_eq_true _ _).mp hs1
  obtain ⟨a', ha', hf⟩ := h 0 asked _ w₂ h2 approvedMeanwhile _ [] rfl w₁ w₂ h1 h12 0 a ha
  rw [ha', Option.any_some] at hs2
  have hpending : a.status ≠ .pending := by
    rw [of_decide_eq_true hsa]
    nofun
  have hsame := hf.status hpending
  rw [of_decide_eq_true hsa, of_decide_eq_true hs2] at hsame
  cases hsame

end Mokosh.Approvals
