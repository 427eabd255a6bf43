import Mokosh.Workflows.Plan

/-! # A rule that fails

The executor promises that a rule which fails does not block the work on a ticket: the error goes into
the row of the rule, and the transaction of the caller stays good.  The row is a statement of that
transaction, and so are the actions of the rules that follow.  The promise is kept exactly when no
statement of the plan is refused (`run_harmless`); a value that is no id is no statement, and its
error does get its row. -/

namespace Mokosh.Workflows

variable {env : Env} {depth maxDepth : ℕ}

/-! ### The rows of a run -/

/-- Each rule that ended has its row, with its error. -/
def Rowed (l : List LogEntry) : Prop :=
  l.filterMap LogEntry.inserted = (l.filterMap LogEntry.ended).map endedRow

theorem Rowed.append {l l' : List LogEntry} (h : Rowed l) (h' : Rowed l') : Rowed (l ++ l') := by
  unfold Rowed at *
  rw [List.filterMap_append, List.filterMap_append, List.map_append, h, h']

theorem Rowed.of_actions {l : List LogEntry} (h : ∀ e ∈ l, e.IsAction depth) : Rowed l := by
  unfold Rowed
  rw [List.filterMap_eq_nil_iff.mpr fun e he => (h e he).inserted_eq,
    List.filterMap_eq_nil_iff.mpr fun e he => (h e he).ended_eq]
  rfl

theorem require_rowed (tx : Tx) (env : Env) (depth : ℕ) {s : Statement} (hs : s.isAction = true) :
    Adds env Rowed tx (require tx env depth s).2 := by
  have h : Acts env depth tx (tx.exec env depth s).2 := .exec hs
  unfold require
  split <;> next heq =>
    rw [heq] at h
    exact h.mono fun _ => .of_actions

theorem insertRunRow_rowed (env : Env) (depth : ℕ) (rule : Rule) (entityId : Uuid)
    (error : Option String) (tx : Tx) :
    Adds env Rowed tx (insertRunRow env depth rule entityId error tx).2 := by
  obtain ⟨row, e, h⟩ := insertRunRow_extends env depth rule entityId error tx
  exact ⟨_, h, rfl⟩

theorem runCreatedRule_rowed (env : Env) (ctx : TicketCreateContext) (rule : Rule) (tx : Tx) :
    Adds env Rowed tx (runCreatedRule env ctx rule tx).2 := by
  unfold runCreatedRule
  split
  · exact .refl rfl
  · unfold applyCreateActions
    refine Adds.trans (fun _ _ => .append) ?_ (insertRunRow_rowed env 0 rule ctx.ticketId _ _)
    cases rule.actions.asObject with
    | none => exact .refl rfl
    | some map => exact Adds.mono (Acts.createActions (p := ⟨none, tx⟩)) fun _ h => .of_actions h

theorem runEvent_rowed {event : TicketEvent} {tx : Tx} {r : AppResult Unit × Tx}
    (h : runEvent env tx event = some r) : Adds env Rowed tx r.2 := by
  cases event with
  | created ctx =>
      have hx := require_rowed tx env 0 (s := .selectRules .ticketCreated) rfl
      replace h : runTicketCreated env ctx tx = some r := h
      unfold runTicketCreated at h
      split at h
      · next heq =>
          rw [heq] at hx
          cases h
          exact hx
      · next heq =>
          rw [heq] at hx
          refine hx.trans (fun _ _ => .append)
            (forRules_adds (P := Rowed) rfl (fun _ _ => .append) ?_ h)
          intro rule tx r h
          cases h
          exact runCreatedRule_rowed env ctx rule tx
  | moved ctx =>
      have hx := require_rowed tx env 0 (s := .readMaxDepth) rfl
      replace h : runTransition env ctx tx = some r := h
      unfold runTransition at h
      split at h
      · next heq =>
          rw [heq] at hx
          cases h
          exact hx
      · next heq =>
          rw [heq] at hx
          have hrun := (runAtDepth_grown (Nat.zero_le _) h).mono fun _ hl => hl.rows
          exact hx.trans (fun _ _ => .append) hrun

/-! ### The promise -/

/-- The run ends well, the transaction stays good, each rule that ended has one row with its error,
and no statement is refused but by the database itself: the actions of the other rules are applied. -/
structure Harmless (env : Env) (runs : List RunRow) (r : AppResult Unit × Tx) : Prop where
  ok : r.1 = .ok ()
  committable : r.2.aborted = false
  rows : r.2.runs = runs ++ (r.2.log.filterMap LogEntry.ended).map endedRow
  others : ∀ n d s row e, .statement n d s row (some e) ∈ r.2.log → env.refuses n s = some e

/-- The entries of a transaction that is not lost are no refusals. -/
theorem Extends.kept {tx tx' : Tx} {l : List LogEntry} (h : Extends env tx l tx')
    (ha : tx'.aborted = false) : ∀ e ∈ l, e.failed = false := by
  rw [h.aborted, Bool.or_eq_false_iff, List.any_eq_false] at ha
  exact fun e he => Bool.eq_false_iff.mpr (ha.2 e he)

/-- Every run of the rules of an event ends, and it is harmless if and only if the database refuses
none of the statements in the plan of the event. -/
theorem run_harmless (env : Env) (ticket : TicketRow) (notes : List (String × Uuid))
    (runs : List RunRow) (issued : ℕ) (event : TicketEvent) :
    ∃ r, runEvent env (Tx.start ticket notes runs issued) event = some r ∧
      (Harmless env runs r ↔ Clear env issued (event.plan env ticket.held)) := by
  obtain ⟨r, hr⟩ := runEvent_ends env (Tx.start ticket notes runs issued) event
  obtain ⟨⟨l, hl, hplay⟩, hok⟩ := runEvent_ran hr
  refine ⟨r, hr, fun h => ?_, fun hc => ?_⟩
  · cases hplay with
    | idle ha => cases ha
    | stopped _ ha => exact absurd (ha.symm.trans h.committable) (by simp)
    | done _ _ _ hc => exact hc
  · have ha : r.2.aborted = false := by
      cases hplay with
      | idle ha => cases ha
      | stopped _ _ _ hc' => exact absurd hc hc'
      | done _ ha => exact ha
    obtain ⟨l', hl', hrows⟩ := runEvent_rowed hr
    have hlog : r.2.log = l' := hl'.log
    have hkept := hl'.kept ha
    refine ⟨hok.mpr ha, ha, ?_, ?_⟩
    · rw [hlog, hl'.runs, filterMap_written hkept, hrows]
      rfl
    · intro n d s row e he
      rw [hlog] at he
      cases hkept _ he

end Mokosh.Workflows

/-! ### A rule that assigns a user who is gone -/

namespace Mokosh.Workflows.UnknownUser

/-- The first rule assigns a user who is gone, and the second one adds a tag. -/
def rules : Trigger → List Rule
  | .ticketCreated =>
    [⟨1, .object [], .object [("assign_to_user_id", .string "9")]⟩,
      ⟨2, .object [], .object [("add_tag", .string "vip")]⟩]
  | _ => []

/-- The foreign key of `tickets.assigned_to_id` refuses the user. -/
def env : Env where
  parseUuid s := if s = "9" then .ok 9 else .error "invalid character"
  rules := rules
  ruleMaxDepth := none
  creator := none
  refuses _ s :=
    match s with
    | .assignUser _ => some "insert or update on table \"tickets\" violates foreign key constraint"
    | _ => none

def ticket : TicketRow :=
  { id := 3, statusId := 4, priorityId := 5, assignedToId := none, teamId := none, tags := some [] }

def event : TicketEvent :=
  .created
    { ticketId := 3
      priorityId := 5
      queueId := 6
      companyId := 7
      source := "email"
      typeId := none }

/-- The run ends with an error, writes no row and adds no tag, and the transaction is lost. -/
theorem run_not_harmless : ∃ r, runEvent env (Tx.start ticket [] [] 0) event = some r ∧
    ¬ Harmless env [] r ∧ r.1 ≠ .ok () ∧ r.2.aborted = true ∧ r.2.runs = [] ∧
      r.2.ticket.tags = some [] := by
  obtain ⟨r, hr⟩ := runEvent_ends env (Tx.start ticket [] [] 0) event
  have h : (runEvent env (Tx.start ticket [] [] 0) event).all fun r =>
      r.2.aborted && r.2.runs.isEmpty && decide (r.2.ticket.tags = some []) &&
        decide (r.1 = .error (.database abortedText)) := by
    decide +kernel
  rw [hr] at h
  simp only [Option.all_some, Bool.and_eq_true, decide_eq_true_eq, List.isEmpty_iff] at h
  obtain ⟨⟨⟨ha, hruns⟩, htags⟩, he⟩ := h
  refine ⟨r, hr, fun hh => ?_, ?_, ha, hruns, htags⟩
  · exact absurd (ha.symm.trans hh.committable) (by simp)
  · rw [he]
    exact nofun

end Mokosh.Workflows.UnknownUser
