import Mokosh.Workflows.Cascade

/-! # What the rules of a tenant leave alone

The statements that a run issues are those that the actions of the active rules name (`MayIssue`).  What each of them
keeps of a ticket, the run of an event keeps (`runEvent_keeps`). -/

namespace Mokosh.Workflows

/-- The triggers whose rules the run of an event may come to. -/
def TicketEvent.triggers : TicketEvent → List Trigger
  | .created _ => [.ticketCreated]
  | .moved _ => [.statusChanged, .priorityChanged]

/-- The status that a rule sets. -/
def Env.statusSet (env : Env) (rule : Rule) : Option Uuid :=
  rule.actions.asObject.bind fun map => (Json.getStr map "set_status_id").bind fun raw => (env.parseUuid raw).toOption

/-- The statuses that the active rules of the triggers set. -/
def Env.statusesSet (env : Env) (triggers : List Trigger) : List Uuid :=
  triggers.flatMap fun trigger => (env.rules trigger).filterMap env.statusSet

/-- The statements that the rules of the triggers may issue. -/
def Env.MayIssue (env : Env) (triggers : List Trigger) : Statement → Prop
  | .move id .status => id ∈ env.statusesSet triggers
  | _ => True

variable {env : Env} {triggers : List Trigger} {P : TicketRow → Prop} {tx : Tx} {p : Progress} {d maxDepth : ℕ}
  {map : List (String × Json)} {ctx : TransitionContext} {trigger : Trigger} {rule : Rule}

/-- Every statement that the rules may issue keeps `P`. -/
def Env.Keeps (env : Env) (triggers : List Trigger) (P : TicketRow → Prop) : Prop :=
  ∀ s, env.MayIssue triggers s → ∀ t, P t → P (s.onTicket t)

theorem mayIssue_setStatus (ht : trigger ∈ triggers) (hrule : rule ∈ env.rules trigger)
    (hmap : rule.actions.asObject = some map) {raw : String} {id : Uuid}
    (hraw : Json.getStr map "set_status_id" = some raw) (hid : env.parseUuid raw = .ok id) :
    env.MayIssue triggers (.move id .status) := by
  refine List.mem_flatMap.mpr ⟨trigger, ht, List.mem_filterMap.mpr ⟨rule, hrule, ?_⟩⟩
  rw [Env.statusSet, hmap, Option.bind_some, hraw, Option.bind_some, hid]
  rfl

theorem mayIssue_target (ht : trigger ∈ triggers) (hrule : rule ∈ env.rules trigger)
    (hmap : rule.actions.asObject = some map) {m : Moved} {id : Uuid} (h : target env map ctx m = some id) :
    env.MayIssue triggers (.move id m) := by
  cases m with
  | priority => trivial
  | status =>
      obtain ⟨raw, hraw, hid⟩ := Option.bind_eq_some_iff.mp (Option.filter_eq_some_iff.mp h).1
      cases hp : env.parseUuid raw with
      | error e =>
          rw [hp] at hid
          cases hid
      | ok id' =>
          rw [hp] at hid
          obtain rfl := Option.some.inj hid
          exact mayIssue_setStatus ht hrule hmap hraw hp

namespace Env.Keeps

variable (hP : env.Keeps triggers P)

include hP

theorem exec {s : Statement} (hs : env.MayIssue triggers s) (h : P tx.ticket) : P (tx.exec env d s).2.ticket := by
  unfold Tx.exec
  split
  · exact h
  · rw [s.effect_ticket]
    exact hP s hs _ h

theorem require {s : Statement} (hs : env.MayIssue triggers s) (h : P tx.ticket) :
    P (Workflows.require tx env d s).2.ticket := by
  have hx := hP.exec (d := d) hs h
  unfold Workflows.require
  split <;> next heq =>
    rw [heq] at hx
    exact hx

theorem issue {label : String} {s : Statement} (hs : env.MayIssue triggers s) (h : P p.tx.ticket) :
    P (p.issue env d label s).tx.ticket := by
  have hx := hP.exec (d := d) hs h
  unfold Progress.issue
  split <;> next heq =>
    rw [heq] at hx
    exact hx

theorem applyId {key : String} {s : Uuid → Statement}
    (hs : ∀ raw id, Json.getStr map key = some raw → env.parseUuid raw = .ok id → env.MayIssue triggers (s id))
    (h : P p.tx.ticket) : P (Workflows.applyId env d map key s p).tx.ticket := by
  unfold Workflows.applyId
  split
  · exact h
  · next raw hraw =>
      split
      · next id hid => exact hP.issue (hs raw id hraw hid) h
      · exact h

theorem applyAddTag (h : P p.tx.ticket) : P (Workflows.applyAddTag env d map p).tx.ticket := by
  unfold Workflows.applyAddTag
  split
  · exact h
  · exact hP.issue trivial h

theorem applyAddInternalNote (h : P p.tx.ticket) : P (Workflows.applyAddInternalNote env d map p).tx.ticket := by
  have hx := hP.exec (d := d) (s := .selectCreator) trivial h
  unfold Workflows.applyAddInternalNote
  split
  · exact h
  · split
    · next heq =>
        rw [heq] at hx
        exact hx
    · next heq =>
        rw [heq] at hx
        split
        · exact hx
        · exact hP.issue trivial hx

theorem plainActions (h : P p.tx.ticket) : P (Workflows.plainActions env d map p).tx.ticket :=
  hP.applyAddInternalNote <| hP.applyAddTag <| hP.applyId (fun _ _ _ _ => trivial) <|
    hP.applyId (fun _ _ _ _ => trivial) h

theorem createActions (ht : trigger ∈ triggers) (hrule : rule ∈ env.rules trigger)
    (hmap : rule.actions.asObject = some map) (h : P p.tx.ticket) :
    P (Workflows.createActions env d map p).tx.ticket :=
  hP.applyAddInternalNote <| hP.applyAddTag <|
    hP.applyId (fun _ _ hraw hid => mayIssue_setStatus ht hrule hmap hraw hid) <| hP.applyId (fun _ _ _ _ => trivial) <|
      hP.applyId (fun _ _ _ _ => trivial) <| hP.applyId (fun _ _ _ _ => trivial) h

theorem applyCreateActions (ht : trigger ∈ triggers) (hrule : rule ∈ env.rules trigger) (h : P tx.ticket) :
    P (Workflows.applyCreateActions env rule.actions tx).2.ticket := by
  unfold Workflows.applyCreateActions
  split
  · exact h
  · next map hmap => exact hP.createActions ht hrule hmap h

variable {nested : Nested}

theorem cascade (hn : ∀ ctx tx r, nested ctx (d + 1) tx = some r → P tx.ticket → P r.2.ticket)
    (ht : trigger ∈ triggers) (hrule : rule ∈ env.rules trigger) (hmap : rule.actions.asObject = some map) {m : Moved}
    {p' : Progress} (hc : Workflows.cascade env nested ctx d map m p = some p')
    (h : P p.tx.ticket) : P p'.tx.ticket := by
  unfold Workflows.cascade at hc
  split at hc
  · cases hc
    exact h
  · next id htarget =>
      have hx := hP.exec (d := d) (mayIssue_target ht hrule hmap htarget) h
      split at hc
      · next heq =>
          rw [heq] at hx
          cases hc
          exact hx
      · next heq =>
          rw [heq] at hx
          obtain ⟨⟨result, tx'⟩, hr, hc⟩ := Option.bind_eq_some_iff.mp hc
          have hnested := hn _ _ _ hr hx
          cases result <;> cases hc <;> exact hnested

theorem applyTransitionActions (hn : ∀ ctx tx r, nested ctx (d + 1) tx = some r → P tx.ticket → P r.2.ticket)
    (ht : trigger ∈ triggers) (hrule : rule ∈ env.rules trigger) {r : AppResult Unit × Tx}
    (hr : Workflows.applyTransitionActions env nested ctx d rule.actions tx = some r) (h : P tx.ticket) :
    P r.2.ticket := by
  unfold Workflows.applyTransitionActions at hr
  split at hr
  · cases hr
    exact h
  · next map hmap =>
      obtain ⟨p₁, h₁, hr⟩ := Option.bind_eq_some_iff.mp hr
      obtain ⟨p₂, h₂, hr⟩ := Option.bind_eq_some_iff.mp hr
      cases hr
      exact hP.cascade hn ht hrule hmap h₂ (hP.cascade hn ht hrule hmap h₁ (hP.plainActions h))

theorem insertRunRow {rule : Rule} {entityId : Uuid} {error : Option String} (h : P tx.ticket) :
    P (Workflows.insertRunRow env d rule entityId error tx).2.ticket :=
  hP.require (s := .insertRun _) trivial h

theorem runRule (hn : d < maxDepth → ∀ ctx tx r, nested ctx (d + 1) tx = some r → P tx.ticket → P r.2.ticket)
    (ht : trigger ∈ triggers) (hrule : rule ∈ env.rules trigger) {r : AppResult Unit × Tx}
    (hr : Workflows.runRule env maxDepth nested ctx d rule tx = some r) (h : P tx.ticket) : P r.2.ticket := by
  cases hm : ctx.matches env.parseUuid rule.conditions with
  | false =>
      rw [runRule_unmatched hm] at hr
      cases hr
      exact h
  | true =>
      obtain hlt | hle := Nat.lt_or_ge d maxDepth
      · rw [runRule_applied hm hlt] at hr
        obtain ⟨⟨outcome, tx'⟩, ho, hr⟩ := Option.bind_eq_some_iff.mp hr
        cases hr
        exact hP.insertRunRow (hP.applyTransitionActions (hn hlt) ht hrule ho h)
      · rw [runRule_capped hm hle] at hr
        cases hr
        exact hP.insertRunRow h

omit hP in
theorem forRules {body : Rule → Tx → Option (AppResult Unit × Tx)} {rules : List Rule}
    (hb : ∀ rule ∈ rules, ∀ tx r, body rule tx = some r → P tx.ticket → P r.2.ticket) {r : AppResult Unit × Tx}
    (hr : Workflows.forRules body rules tx = some r) (h : P tx.ticket) : P r.2.ticket := by
  induction rules generalizing tx with
  | nil =>
      cases hr
      exact h
  | cons rule rules ih =>
      obtain ⟨⟨result, tx'⟩, h₁, hr⟩ := Option.bind_eq_some_iff.mp hr
      have hfirst := hb rule List.mem_cons_self _ _ h₁ h
      cases result with
      | error e =>
          cases hr
          exact hfirst
      | ok u => exact ih (fun rule hrule => hb rule (List.mem_cons_of_mem _ hrule)) hr hfirst

/-- By induction on the fuel. -/
theorem runAtDepth (ht : ∀ m : Moved, m.trigger ∈ triggers) {fuel : ℕ} {r : AppResult Unit × Tx}
    (hr : Workflows.runAtDepth env maxDepth fuel ctx d tx = some r) (h : P tx.ticket) : P r.2.ticket := by
  induction fuel generalizing ctx d tx r with
  | zero => cases hr
  | succ fuel ih =>
      have hx := hP.require (d := d) (s := .selectRules ctx.moved.trigger) trivial h
      unfold Workflows.runAtDepth at hr
      split at hr
      · next heq =>
          rw [heq] at hx
          cases hr
          exact hx
      · next heq =>
          rw [heq] at hx
          exact forRules (fun rule hrule tx r => hP.runRule (fun _ _ _ _ => ih) (ht _) hrule) hr hx

theorem runTransition (ht : ∀ m : Moved, m.trigger ∈ triggers) {r : AppResult Unit × Tx}
    (hr : Workflows.runTransition env ctx tx = some r) (h : P tx.ticket) : P r.2.ticket := by
  have hx := hP.require (d := 0) (s := .readMaxDepth) trivial h
  unfold Workflows.runTransition at hr
  split at hr
  · next heq =>
      rw [heq] at hx
      cases hr
      exact hx
  · next heq =>
      rw [heq] at hx
      exact hP.runAtDepth ht hr hx

theorem runTicketCreated (ht : .ticketCreated ∈ triggers) {ctx : TicketCreateContext} {r : AppResult Unit × Tx}
    (hr : Workflows.runTicketCreated env ctx tx = some r) (h : P tx.ticket) : P r.2.ticket := by
  have hx := hP.require (d := 0) (s := .selectRules .ticketCreated) trivial h
  unfold Workflows.runTicketCreated at hr
  split at hr
  · next heq =>
      rw [heq] at hx
      cases hr
      exact hx
  · next heq =>
      rw [heq] at hx
      refine forRules (fun rule hrule tx r hr h => ?_) hr hx
      cases hr
      unfold runCreatedRule
      split
      · exact h
      · exact hP.insertRunRow (hP.applyCreateActions ht hrule h)

end Env.Keeps

/-- What every statement keeps that the rules may issue, the run of an event keeps. -/
theorem runEvent_keeps {e : TicketEvent} (hP : env.Keeps e.triggers P) {r : AppResult Unit × Tx}
    (hr : runEvent env tx e = some r) (h : P tx.ticket) : P r.2.ticket := by
  cases e with
  | created ctx => exact hP.runTicketCreated (List.mem_singleton.mpr rfl) hr h
  | moved ctx => exact hP.runTransition (fun m => by cases m <;> simp [TicketEvent.triggers, Moved.trigger]) hr h

/-- The run of an event leaves the status, or sets one that an active rule names. -/
theorem runEvent_status {e : TicketEvent} {r : AppResult Unit × Tx} (hr : runEvent env tx e = some r) :
    r.2.ticket.statusId = tx.ticket.statusId ∨ r.2.ticket.statusId ∈ env.statusesSet e.triggers := by
  refine runEvent_keeps (P := fun t => t.statusId = tx.ticket.statusId ∨ t.statusId ∈ env.statusesSet e.triggers)
    (fun s hs t ht => ?_) hr (.inl rfl)
  cases s with
  | move id m =>
      cases m with
      | status => exact .inr hs
      | priority => exact ht
  | _ => exact ht

end Mokosh.Workflows
