import Mathlib.Data.List.Perm.Basic
import Mokosh.Workflows.Executor

/-! # The cascade of transitions

A rule that moves the status or the priority of a ticket runs the rules of that move, so that a run is
a tree.  What one run adds to the log of its transaction is a list that accounts for itself
(`Accounts`), and the lists of the nested runs are parts of it.

* Every fuel above the cap gives the same run (`runAtDepth_settles`).
* No rule touches the ticket at the cap, and each rule that matches has one row (`cascade_ends`). -/

namespace Mokosh.Workflows

variable {env : Env} {depth maxDepth : ℕ} {map : List (String × Json)}

/-! ### What a statement does -/

/-- What an accepted statement does to the ticket. -/
def Statement.onTicket : Statement → TicketRow → TicketRow
  | .assignUser id, t => { t with assignedToId := some id }
  | .assignTeam id, t => { t with teamId := some id }
  | .move id m, t => t.move id m
  | .addTag tag, t => { t with tags := withTag tag t.tags }
  | _, t => t

namespace Statement

theorem effect_log (s : Statement) (tx : Tx) : (s.effect tx).log = tx.log := by
  cases s <;> rfl

theorem effect_aborted (s : Statement) (tx : Tx) : (s.effect tx).aborted = tx.aborted := by
  cases s <;> rfl

theorem effect_ticket (s : Statement) (tx : Tx) : (s.effect tx).ticket = s.onTicket tx.ticket := by
  cases s <;> rfl

end Statement

/-- A statement meets what the database says to it, or an earlier refusal. -/
theorem Tx.refusal_eq (tx : Tx) (env : Env) (s : Statement) :
    match tx.refusal env s with
    | some e => tx.aborted = true ∨ env.refuses tx.issued s = some e
    | none => tx.aborted = false ∧ none = env.refuses tx.issued s := by
  cases ha : tx.aborted with
  | true =>
      rw [show tx.refusal env s = some abortedText from if_pos ha]
      exact .inl rfl
  | false =>
      rw [show tx.refusal env s = env.refuses tx.issued s from if_neg (by simp [ha])]
      cases env.refuses tx.issued s with
      | some e => exact .inr rfl
      | none => exact ⟨rfl, rfl⟩

namespace LogEntry

/-- The ticket after what the entry records. -/
def redo (t : TicketRow) : LogEntry → TicketRow
  | .statement _ _ s _ none => s.onTicket t
  | _ => t

/-- The row of a run that was written. -/
def written : LogEntry → Option RunRow
  | .statement _ _ (.insertRun row) _ none => some row
  | _ => none

/-- A statement that was refused. -/
def failed : LogEntry → Bool
  | .statement _ _ _ _ (some _) => true
  | _ => false

theorem eq_of_failed {e : LogEntry} (h : e.failed = true) :
    ∃ n d s row error, e = .statement n d s row (some error) := by
  cases e with
  | statement n d s row error =>
      cases error with
      | none => cases h
      | some error => exact ⟨n, d, s, row, error, rfl⟩
  | _ => cases h

/-- The entry is none of a statement. -/
def isNote : LogEntry → Bool
  | .statement _ _ _ _ _ => false
  | _ => true

theorem redo_note {e : LogEntry} (h : e.isNote = true) (t : TicketRow) : e.redo t = t := by
  cases e with
  | statement => cases h
  | _ => rfl

theorem written_note {e : LogEntry} (h : e.isNote = true) : e.written = none := by
  cases e with
  | statement => cases h
  | _ => rfl

theorem failed_note {e : LogEntry} (h : e.isNote = true) : e.failed = false := by
  cases e with
  | statement => cases h
  | _ => rfl

end LogEntry

/-- The transaction after what the list records. -/
structure Extends (env : Env) (tx : Tx) (l : List LogEntry) (tx' : Tx) : Prop where
  log : tx'.log = tx.log ++ l
  ticket : tx'.ticket = l.foldl (fun t e => e.redo t) tx.ticket
  runs : tx'.runs = tx.runs ++ l.filterMap LogEntry.written
  aborted : tx'.aborted = (tx.aborted || l.any LogEntry.failed)
  accepted : ∀ n d s row, .statement n d s row none ∈ l → env.refuses n s = none
  refused : ∀ n d s row e, .statement n d s row (some e) ∈ l →
    tx.aborted = true ∨ ∃ n' s', env.refuses n' s' ≠ none

namespace Extends

variable {tx tx₁ tx₂ : Tx} {l l' : List LogEntry}

theorem nil : Extends env tx [] tx := by
  constructor <;> simp

theorem append (h : Extends env tx l tx₁) (h' : Extends env tx₁ l' tx₂) :
    Extends env tx (l ++ l') tx₂ := by
  constructor
  · rw [h'.log, h.log, List.append_assoc]
  · rw [h'.ticket, h.ticket, List.foldl_append]
  · rw [h'.runs, h.runs, List.filterMap_append, List.append_assoc]
  · rw [h'.aborted, h.aborted, List.any_append, Bool.or_assoc]
  · intro n d s row he
    exact (List.mem_append.mp he).elim (h.accepted n d s row) (h'.accepted n d s row)
  · intro n d s row e he
    rcases List.mem_append.mp he with he | he
    · exact h.refused n d s row e he
    · rcases h'.refused n d s row e he with ha | hr
      · rw [h.aborted, Bool.or_eq_true, List.any_eq_true] at ha
        rcases ha with ha | ⟨e', he', hf⟩
        · exact .inl ha
        · obtain ⟨n', d', s', row', e₀, rfl⟩ := e'.eq_of_failed hf
          exact h.refused _ _ _ _ _ he'
      · exact .inr hr

theorem record {e : LogEntry} (he : e.isNote = true) : Extends env tx [e] (tx.record e) := by
  constructor
  · rfl
  · exact (e.redo_note he tx.ticket).symm
  · simp [Tx.record, e.written_note he]
  · simp [Tx.record, e.failed_note he]
  · rintro n d s row hm
    cases List.mem_singleton.mp hm
    cases he
  · rintro n d s row e' hm
    cases List.mem_singleton.mp hm
    cases he

/-- A statement is recorded, refused or not. -/
theorem exec (tx : Tx) (env : Env) (depth : ℕ) (s : Statement) :
    Extends env tx [.statement tx.issued depth s tx.ticket (tx.refusal env s)]
      (tx.exec env depth s).2 := by
  have hq := tx.refusal_eq env s
  unfold Tx.exec
  cases hr : tx.refusal env s with
  | some e =>
      rw [hr] at hq
      refine ⟨rfl, rfl, by simp [Tx.record, LogEntry.written], by simp [LogEntry.failed],
        by simp, ?_⟩
      intro n d s' row e' _
      exact hq.imp_right fun h => ⟨_, _, h ▸ Option.some_ne_none e⟩
  | none =>
      rw [hr] at hq
      refine ⟨s.effect_log _, s.effect_ticket _, ?_, ?_, ?_, by simp⟩
      · cases s <;> simp [Statement.effect, Tx.record, LogEntry.written]
      · rw [s.effect_aborted]
        simp [Tx.record, LogEntry.failed]
      · intro n d s' row hm
        cases List.mem_singleton.mp hm
        exact hq.2.symm

end Extends

/-! ### What a run adds to the log -/

/-- What one part of a run adds to the log. -/
def Adds (env : Env) (P : List LogEntry → Prop) (tx tx' : Tx) : Prop :=
  ∃ l, Extends env tx l tx' ∧ P l

namespace Adds

variable {P Q : List LogEntry → Prop} {tx tx₁ tx₂ : Tx}

theorem trans (hP : ∀ l l', P l → P l' → P (l ++ l')) (h₁ : Adds env P tx tx₁) (h₂ : Adds env P tx₁ tx₂) :
    Adds env P tx tx₂ := by
  obtain ⟨l, h₁, hl⟩ := h₁
  obtain ⟨l', h₂, hl'⟩ := h₂
  exact ⟨l ++ l', h₁.append h₂, hP l l' hl hl'⟩

theorem refl (h : P []) : Adds env P tx tx := ⟨[], .nil, h⟩

theorem mono (h : Adds env P tx tx₁) (hPQ : ∀ l, P l → Q l) : Adds env Q tx tx₁ := by
  obtain ⟨l, h, hl⟩ := h
  exact ⟨l, h, hPQ l hl⟩

end Adds

/-- The statement writes the ticket or a note on it. -/
def Statement.mutates : Statement → Bool
  | .assignUser _ | .assignTeam _ | .move _ _ | .addTag _ | .insertNote _ _ => true
  | .readMaxDepth | .selectRules _ | .selectCreator | .insertRun _ => false

/-- The statement is issued by an action: it writes no row of a run. -/
def Statement.isAction : Statement → Bool
  | .insertRun _ => false
  | _ => true

namespace LogEntry

/-- The row of a run that a statement inserts. -/
def inserted : LogEntry → Option RunRow
  | .statement _ _ (.insertRun row) _ _ => some row
  | _ => none

/-- The rule that matched, with its depth and its ticket. -/
def matched : LogEntry → Option (ℕ × Rule × Uuid)
  | .evaluated depth ctx rule _ true => some (depth, rule, ctx.ticketId)
  | _ => none

/-- The rule that ended, with its depth, its ticket and its error. -/
def ended : LogEntry → Option (ℕ × Rule × Uuid × Option String)
  | .finished depth rule entityId error => some (depth, rule, entityId, error)
  | _ => none

/-- A statement of an action at a depth. -/
def IsAction (depth : ℕ) (e : LogEntry) : Prop :=
  ∃ n s row error, e = .statement n depth s row error ∧ s.isAction = true

theorem IsAction.inserted_eq {e : LogEntry} (h : e.IsAction depth) : e.inserted = none := by
  obtain ⟨n, s, row, error, rfl, hs⟩ := h
  cases s with
  | insertRun row => exact absurd hs (by simp [Statement.isAction])
  | _ => rfl

theorem IsAction.matched_eq {e : LogEntry} (h : e.IsAction depth) : e.matched = none := by
  obtain ⟨n, s, row, error, rfl, -⟩ := h
  rfl

theorem IsAction.ended_eq {e : LogEntry} (h : e.IsAction depth) : e.ended = none := by
  obtain ⟨n, s, row, error, rfl, -⟩ := h
  rfl

end LogEntry

/-- The row that a rule which ended has to have. -/
def endedRow (e : ℕ × Rule × Uuid × Option String) : RunRow :=
  ⟨e.2.1.id, e.2.2.1, e.2.1.actions, e.2.2.2⟩

/-- Every rule that matched ended, every rule that ended has its row, the rules that end at the cap
are those with the error of the cap, and below the cap alone the ticket is touched. -/
structure Accounts (maxDepth : ℕ) (l : List LogEntry) : Prop where
  rows : l.filterMap LogEntry.inserted = (l.filterMap LogEntry.ended).map endedRow
  ends : (l.filterMap LogEntry.matched).Perm
    ((l.filterMap LogEntry.ended).map fun e => (e.1, e.2.1, e.2.2.1))
  cap : ∀ e ∈ l.filterMap LogEntry.ended, (e.2.2.2 = some (capText maxDepth) ↔ e.1 = maxDepth)
  below : ∀ n d s row e, .statement n d s row e ∈ l → s.mutates = true → d < maxDepth

namespace Accounts

variable {l l' : List LogEntry}

theorem nil : Accounts maxDepth [] := ⟨rfl, .nil, by simp, by simp⟩

theorem append (h : Accounts maxDepth l) (h' : Accounts maxDepth l') :
    Accounts maxDepth (l ++ l') := by
  constructor
  · rw [List.filterMap_append, List.filterMap_append, List.map_append, h.rows, h'.rows]
  · rw [List.filterMap_append, List.filterMap_append, List.map_append]
    exact h.ends.append h'.ends
  · intro e he
    rw [List.filterMap_append, List.mem_append] at he
    exact he.elim (h.cap e) (h'.cap e)
  · intro n d s row e he
    exact (List.mem_append.mp he).elim (h.below n d s row e) (h'.below n d s row e)

/-- Statements of actions below the cap. -/
theorem of_actions (hd : depth < maxDepth) (h : ∀ e ∈ l, e.IsAction depth) :
    Accounts maxDepth l := by
  have h₁ : l.filterMap LogEntry.inserted = [] :=
    List.filterMap_eq_nil_iff.mpr fun e he => (h e he).inserted_eq
  have h₂ : l.filterMap LogEntry.matched = [] :=
    List.filterMap_eq_nil_iff.mpr fun e he => (h e he).matched_eq
  have h₃ : l.filterMap LogEntry.ended = [] :=
    List.filterMap_eq_nil_iff.mpr fun e he => (h e he).ended_eq
  refine ⟨by rw [h₁, h₃]; rfl, by rw [h₂, h₃]; exact .nil, by simp [h₃], ?_⟩
  intro n d s row e he _
  obtain ⟨n', s', row', e', heq, -⟩ := h _ he
  cases heq
  exact hd

/-- One statement that reads. -/
theorem of_read {n : ℕ} {s : Statement} {row : TicketRow} {error : Option String}
    (hs : s.isAction = true) (hm : s.mutates = false) :
    Accounts maxDepth [.statement n depth s row error] := by
  have hi : LogEntry.inserted (.statement n depth s row error) = none :=
    LogEntry.IsAction.inserted_eq ⟨n, s, row, error, rfl, hs⟩
  refine ⟨by simp [hi, LogEntry.ended], .nil, by simp [LogEntry.ended], ?_⟩
  intro n' d s' row' e he hm'
  cases List.mem_singleton.mp he
  exact absurd (hm'.symm.trans hm) (by simp)

/-- A transition that is fired is neither a rule nor a statement. -/
theorem of_fired (ctx : TransitionContext) (row : TicketRow) :
    Accounts maxDepth [.fired ctx row] :=
  ⟨rfl, .nil, by simp [LogEntry.ended], by simp⟩

/-- A rule that is looked at and does not match. -/
theorem of_unmatched (ctx : TransitionContext) (rule : Rule) (row : TicketRow) :
    Accounts maxDepth [.evaluated depth ctx rule row false] :=
  ⟨rfl, .nil, by simp [LogEntry.ended], by simp⟩

/-- A rule that matches, what it does, and its row. -/
theorem of_rule {ctx : TransitionContext} {rule : Rule} {row row' : TicketRow} {n : ℕ}
    {error e : Option String} (h : Accounts maxDepth l)
    (hcap : error = some (capText maxDepth) ↔ depth = maxDepth) :
    Accounts maxDepth ([.evaluated depth ctx rule row true] ++ l ++
      [.finished depth rule ctx.ticketId error,
        .statement n depth (.insertRun ⟨rule.id, ctx.ticketId, rule.actions, error⟩) row' e]) := by
  constructor
  · simp only [List.filterMap_append, List.filterMap_cons, List.filterMap_nil, LogEntry.inserted,
      LogEntry.ended, List.map_append, List.map_cons, List.map_nil, List.nil_append, h.rows, endedRow]
  · simp only [List.filterMap_append, List.filterMap_cons, List.filterMap_nil, LogEntry.matched,
      LogEntry.ended, List.map_append, List.map_cons, List.map_nil, List.append_nil,
      List.singleton_append]
    exact (List.Perm.cons _ h.ends).trans (List.perm_append_singleton _ _).symm
  · intro x hx
    simp only [List.filterMap_append, List.filterMap_cons, List.filterMap_nil, LogEntry.ended,
      List.nil_append, List.mem_append, List.mem_singleton] at hx
    rcases hx with hx | rfl
    · exact h.cap x hx
    · exact hcap
  · intro n' d s row'' e' he hm
    simp only [List.mem_append, List.mem_cons, reduceCtorEq, false_or, List.not_mem_nil,
      or_false] at he
    rcases he with he | he
    · exact h.below n' d s row'' e' he hm
    · cases he
      exact absurd hm (by simp [Statement.mutates])

end Accounts

/-! ### The actions of a rule -/

/-- What actions add to the log. -/
abbrev Acts (env : Env) (depth : ℕ) : Tx → Tx → Prop := Adds env fun l => ∀ e ∈ l, e.IsAction depth

namespace Acts

variable {tx tx₁ tx₂ : Tx} {p : Progress}

theorem refl : Acts env depth tx tx := Adds.refl (by simp)

theorem trans (h₁ : Acts env depth tx tx₁) (h₂ : Acts env depth tx₁ tx₂) : Acts env depth tx tx₂ :=
  Adds.trans (fun _ _ h h' e he => (List.mem_append.mp he).elim (h e) (h' e)) h₁ h₂

theorem exec {s : Statement} (hs : s.isAction = true) : Acts env depth tx (tx.exec env depth s).2 := by
  refine ⟨_, .exec _ _ _ _, ?_⟩
  intro e he
  cases List.mem_singleton.mp he
  exact ⟨_, s, _, _, rfl, hs⟩

theorem issue {o : Option String} {label : String} {s : Statement} (hs : s.isAction = true) :
    Acts env depth tx (Progress.issue ⟨o, tx⟩ env depth label s).tx := by
  have h : Acts env depth tx (tx.exec env depth s).2 := exec hs
  unfold Progress.issue
  split <;> next heq =>
    rw [heq] at h
    exact h

theorem applyId {key : String} {s : Uuid → Statement} (hs : ∀ id, (s id).isAction = true) :
    Acts env depth p.tx (applyId env depth map key s p).tx := by
  unfold Workflows.applyId
  split
  · exact refl
  · split
    · exact issue (hs _)
    · exact refl

theorem applyAddTag : Acts env depth p.tx (applyAddTag env depth map p).tx := by
  unfold Workflows.applyAddTag
  split
  · exact refl
  · exact issue rfl

theorem applyAddInternalNote : Acts env depth p.tx (applyAddInternalNote env depth map p).tx := by
  have h : Acts env depth p.tx (p.tx.exec env depth .selectCreator).2 := exec rfl
  unfold Workflows.applyAddInternalNote
  split
  · exact refl
  · split
    · next heq =>
        rw [heq] at h
        exact h
    · next heq =>
        rw [heq] at h
        split
        · exact h
        · exact h.trans (issue rfl)

theorem plainActions : Acts env depth p.tx (plainActions env depth map p).tx :=
  (applyId fun _ => rfl).trans <| (applyId fun _ => rfl).trans <| applyAddTag.trans
    applyAddInternalNote

theorem createActions : Acts env depth p.tx (createActions env depth map p).tx :=
  (applyId fun _ => rfl).trans <| (applyId fun _ => rfl).trans <| (applyId fun _ => rfl).trans <|
    (applyId fun _ => rfl).trans <| applyAddTag.trans applyAddInternalNote

end Acts

/-! ### Rules and the rules of their moves -/

/-- What a part of a run adds to the log. -/
abbrev Grown (env : Env) (maxDepth : ℕ) : Tx → Tx → Prop := Adds env (Accounts maxDepth)

namespace Grown

variable {tx tx₁ tx₂ : Tx}

theorem refl : Grown env maxDepth tx tx := Adds.refl .nil

theorem trans (h₁ : Grown env maxDepth tx tx₁) (h₂ : Grown env maxDepth tx₁ tx₂) : Grown env maxDepth tx tx₂ :=
  Adds.trans (fun _ _ => .append) h₁ h₂

theorem of_acts (hd : depth < maxDepth) (h : Acts env depth tx tx₁) : Grown env maxDepth tx tx₁ :=
  h.mono fun _ => .of_actions hd

theorem record {e : LogEntry} (he : e.isNote = true) (h : Accounts maxDepth [e]) :
    Grown env maxDepth tx (tx.record e) := ⟨_, .record he, h⟩

theorem require {s : Statement} (hs : s.isAction = true) (hm : s.mutates = false) :
    Grown env maxDepth tx (require tx env depth s).2 := by
  have h : (Workflows.require tx env depth s).2 = (tx.exec env depth s).2 := by
    unfold Workflows.require
    split <;> next heq => rw [heq]
  rw [h]
  exact ⟨_, .exec _ _ _ _, .of_read hs hm⟩

end Grown

theorem insertRunRow_extends (env : Env) (depth : ℕ) (rule : Rule) (entityId : Uuid)
    (error : Option String) (tx : Tx) : ∃ row e, Extends env tx
      ([.finished depth rule entityId error] ++
        [.statement tx.issued depth (.insertRun ⟨rule.id, entityId, rule.actions, error⟩) row e])
      (insertRunRow env depth rule entityId error tx).2 := by
  have h : (insertRunRow env depth rule entityId error tx).2 =
      ((tx.record (.finished depth rule entityId error)).exec env depth
        (.insertRun ⟨rule.id, entityId, rule.actions, error⟩)).2 := by
    unfold insertRunRow require
    split <;> next heq => rw [heq]
  rw [h]
  exact ⟨_, _, (Extends.record rfl).append (.exec _ _ _ _)⟩

theorem internal_ne_cap (m k : String) :
    "Internal error: " ++ m ≠ "cycle cap reached at depth " ++ k := by
  have h₁ : "Internal error: ".toList = 'I' :: "nternal error: ".toList := by decide +kernel
  have h₂ : "cycle cap reached at depth ".toList = 'c' :: "ycle cap reached at depth ".toList := by
    decide +kernel
  intro h
  have h' := congrArg String.toList h
  rw [String.toList_append, String.toList_append, h₁, h₂, List.cons_append, List.cons_append] at h'
  exact absurd (List.cons.inj h').1 (by decide)

/-- The error of a rule is never the error of the cap. -/
theorem errorMessage_ne_cap {r : AppResult Unit} (h : ∀ e, r = .error e → ∃ m, e = .internal m) :
    errorMessage r ≠ some (capText maxDepth) := by
  cases r with
  | ok u => exact fun h => absurd h (by simp [errorMessage])
  | error e =>
      obtain ⟨m, rfl⟩ := h e rfl
      exact fun h => internal_ne_cap _ _ (Option.some.inj h)

section Nested

variable {nested : Nested} {ctx : TransitionContext}

/-- A nested run adds what accounts for itself. -/
def Nested.Grows (env : Env) (nested : Nested) (maxDepth depth : ℕ) : Prop :=
  ∀ ctx tx r, nested ctx depth tx = some r → Grown env maxDepth tx r.2

theorem cascade_grown (hn : nested.Grows env maxDepth (depth + 1)) (hd : depth < maxDepth) {m : Moved}
    {p p' : Progress} (h : cascade env nested ctx depth map m p = some p') :
    Grown env maxDepth p.tx p'.tx := by
  unfold cascade at h
  split at h
  · cases h
    exact .refl
  · next id _ =>
      have hx : Acts env depth p.tx (p.tx.exec env depth (.move id m)).2 := .exec rfl
      split at h
      · next heq =>
          rw [heq] at hx
          cases h
          exact .of_acts hd hx
      · next heq =>
          rw [heq] at hx
          obtain ⟨⟨result, tx'⟩, hr, h⟩ := Option.bind_eq_some_iff.mp h
          have hg := (Grown.of_acts hd hx).trans <|
            (Grown.record rfl (.of_fired _ _)).trans (hn _ _ _ hr)
          cases result <;> cases h <;> exact hg

theorem applyTransitionActions_grown (hn : nested.Grows env maxDepth (depth + 1)) (hd : depth < maxDepth)
    {actions : Json} {tx : Tx} {r : AppResult Unit × Tx}
    (h : applyTransitionActions env nested ctx depth actions tx = some r) :
    Grown env maxDepth tx r.2 ∧ ∀ e, r.1 = .error e → ∃ m, e = .internal m := by
  unfold applyTransitionActions at h
  split at h
  · cases h
    exact ⟨.refl, nofun⟩
  · obtain ⟨p₁, h₁, h⟩ := Option.bind_eq_some_iff.mp h
    obtain ⟨p₂, h₂, h⟩ := Option.bind_eq_some_iff.mp h
    cases h
    refine ⟨(Grown.of_acts hd .plainActions).trans <|
      (cascade_grown hn hd h₁).trans (cascade_grown hn hd h₂), ?_⟩
    intro e he
    unfold Progress.outcome at he
    split at he <;> cases he
    exact ⟨_, rfl⟩

section Rules

variable {rule : Rule} {tx : Tx}

theorem runRule_unmatched (hm : ctx.matches env.parseUuid rule.conditions = false) :
    runRule env maxDepth nested ctx depth rule tx =
      some (.ok (), tx.record (.evaluated depth ctx rule tx.ticket false)) := by
  unfold runRule
  rw [hm]
  rfl

theorem runRule_capped (hm : ctx.matches env.parseUuid rule.conditions = true)
    (hcap : maxDepth ≤ depth) :
    runRule env maxDepth nested ctx depth rule tx =
      some (insertRunRow env depth rule ctx.ticketId (some (capText maxDepth))
        (tx.record (.evaluated depth ctx rule tx.ticket true))) := by
  unfold runRule
  rw [hm]
  exact if_pos hcap

theorem runRule_applied (hm : ctx.matches env.parseUuid rule.conditions = true)
    (hcap : depth < maxDepth) :
    runRule env maxDepth nested ctx depth rule tx =
      (applyTransitionActions env nested ctx depth rule.actions
        (tx.record (.evaluated depth ctx rule tx.ticket true))).bind fun p =>
          some (insertRunRow env depth rule ctx.ticketId (errorMessage p.1) p.2) := by
  unfold runRule
  rw [hm]
  exact if_neg (not_le.mpr hcap)

end Rules

theorem runRule_grown (hn : depth < maxDepth → nested.Grows env maxDepth (depth + 1))
    (hd : depth ≤ maxDepth) {rule : Rule} {tx : Tx} {r : AppResult Unit × Tx}
    (h : runRule env maxDepth nested ctx depth rule tx = some r) : Grown env maxDepth tx r.2 := by
  cases hm : ctx.matches env.parseUuid rule.conditions with
  | false =>
      rw [runRule_unmatched hm] at h
      cases h
      exact .record rfl (.of_unmatched _ _ _)
  | true =>
      rcases hd.lt_or_eq with hlt | heq
      · rw [runRule_applied hm hlt] at h
        obtain ⟨⟨outcome, tx'⟩, ho, h⟩ := Option.bind_eq_some_iff.mp h
        cases h
        obtain ⟨⟨l, hl, hacc⟩, hint⟩ := applyTransitionActions_grown (hn hlt) hlt ho
        obtain ⟨row, e, hrow⟩ :=
          insertRunRow_extends env depth rule ctx.ticketId (errorMessage outcome) tx'
        refine ⟨_, ((Extends.record rfl).append hl).append hrow, .of_rule hacc ?_⟩
        exact ⟨fun h => absurd h (errorMessage_ne_cap hint), fun h => absurd h hlt.ne⟩
      · rw [runRule_capped hm heq.ge] at h
        cases h
        obtain ⟨row, e, hrow⟩ := insertRunRow_extends env depth rule ctx.ticketId
          (some (capText maxDepth)) (tx.record (.evaluated depth ctx rule tx.ticket true))
        refine ⟨_, ((Extends.record rfl).append .nil).append hrow, .of_rule .nil ?_⟩
        exact ⟨fun _ => heq, fun _ => rfl⟩

/-- What the rules of a loop add one after the other. -/
theorem forRules_adds {P : List LogEntry → Prop} (hnil : P []) (hP : ∀ l l', P l → P l' → P (l ++ l'))
    {body : Rule → Tx → Option (AppResult Unit × Tx)}
    (hb : ∀ rule tx r, body rule tx = some r → Adds env P tx r.2) {rules : List Rule} {tx : Tx}
    {r : AppResult Unit × Tx} (h : forRules body rules tx = some r) : Adds env P tx r.2 := by
  induction rules generalizing tx with
  | nil =>
      cases h
      exact .refl hnil
  | cons rule rules ih =>
      obtain ⟨⟨result, tx'⟩, h₁, h⟩ := Option.bind_eq_some_iff.mp h
      have hg := hb _ _ _ h₁
      cases result with
      | error e =>
          cases h
          exact hg
      | ok u => exact hg.trans hP (ih h)

end Nested

/-- What a run adds to the log accounts for itself, by induction on the fuel. -/
theorem runAtDepth_grown {fuel : ℕ} {ctx : TransitionContext} {tx : Tx} {r : AppResult Unit × Tx}
    (hd : depth ≤ maxDepth) (h : runAtDepth env maxDepth fuel ctx depth tx = some r) :
    Grown env maxDepth tx r.2 := by
  induction fuel generalizing ctx depth tx r with
  | zero => cases h
  | succ fuel ih =>
      have hx : Grown env maxDepth tx (require tx env depth (.selectRules ctx.moved.trigger)).2 :=
        .require rfl rfl
      unfold runAtDepth at h
      split at h
      · next heq =>
          rw [heq] at hx
          cases h
          exact hx
      · next heq =>
          rw [heq] at hx
          exact hx.trans <| forRules_adds .nil (fun _ _ => .append)
            (fun rule tx r => runRule_grown (fun hlt ctx tx r => ih hlt) hd) h

/-! ### More fuel -/

/-- What the first run of nested rules says, the second says. -/
def Nested.Repeats (nested nested' : Nested) (depth : ℕ) : Prop :=
  ∀ ctx tx r, nested ctx depth tx = some r → nested' ctx depth tx = some r

section Repeats

variable {nested nested' : Nested} {ctx : TransitionContext} {tx : Tx} {r : AppResult Unit × Tx}

theorem cascade_same (hn : nested.Repeats nested' (depth + 1)) {m : Moved} {p p' : Progress}
    (h : cascade env nested ctx depth map m p = some p') :
    cascade env nested' ctx depth map m p = some p' := by
  unfold cascade at h ⊢
  split at h
  · exact h
  · split at h
    · exact h
    · obtain ⟨r, hr, h⟩ := Option.bind_eq_some_iff.mp h
      exact Option.bind_eq_some_iff.mpr ⟨r, hn _ _ _ hr, h⟩

theorem applyTransitionActions_same (hn : nested.Repeats nested' (depth + 1)) {actions : Json}
    (h : applyTransitionActions env nested ctx depth actions tx = some r) :
    applyTransitionActions env nested' ctx depth actions tx = some r := by
  unfold applyTransitionActions at h ⊢
  split at h
  · exact h
  · obtain ⟨p₁, h₁, h⟩ := Option.bind_eq_some_iff.mp h
    obtain ⟨p₂, h₂, h⟩ := Option.bind_eq_some_iff.mp h
    refine Option.bind_eq_some_iff.mpr ⟨p₁, cascade_same hn h₁, ?_⟩
    exact Option.bind_eq_some_iff.mpr ⟨p₂, cascade_same hn h₂, h⟩

theorem runRule_same (hn : depth < maxDepth → nested.Repeats nested' (depth + 1)) {rule : Rule}
    (h : runRule env maxDepth nested ctx depth rule tx = some r) :
    runRule env maxDepth nested' ctx depth rule tx = some r := by
  cases hm : ctx.matches env.parseUuid rule.conditions with
  | false => rwa [runRule_unmatched hm] at h ⊢
  | true =>
      rcases lt_or_ge depth maxDepth with hlt | hcap
      · rw [runRule_applied hm hlt] at h ⊢
        obtain ⟨p, ho, h⟩ := Option.bind_eq_some_iff.mp h
        exact Option.bind_eq_some_iff.mpr ⟨p, applyTransitionActions_same (hn hlt) ho, h⟩
      · rwa [runRule_capped hm hcap] at h ⊢

theorem forRules_same {body body' : Rule → Tx → Option (AppResult Unit × Tx)}
    (hb : ∀ rule tx r, body rule tx = some r → body' rule tx = some r) {rules : List Rule}
    (h : forRules body rules tx = some r) : forRules body' rules tx = some r := by
  induction rules generalizing tx with
  | nil => exact h
  | cons rule rules ih =>
      obtain ⟨⟨result, tx'⟩, h₁, h⟩ := Option.bind_eq_some_iff.mp h
      refine Option.bind_eq_some_iff.mpr ⟨_, hb _ _ _ h₁, ?_⟩
      cases result with
      | error e => exact h
      | ok u => exact ih h

end Repeats

/-- A run says the same with more fuel. -/
theorem runAtDepth_same {fuel fuel' : ℕ} (hf : fuel ≤ fuel') {ctx : TransitionContext} {tx : Tx}
    {r : AppResult Unit × Tx} (h : runAtDepth env maxDepth fuel ctx depth tx = some r) :
    runAtDepth env maxDepth fuel' ctx depth tx = some r := by
  induction fuel generalizing fuel' ctx depth tx r with
  | zero => cases h
  | succ fuel ih =>
      obtain ⟨fuel', rfl⟩ : ∃ n, fuel' = n + 1 := ⟨fuel' - 1, by omega⟩
      unfold runAtDepth at h ⊢
      split at h
      · exact h
      · exact forRules_same
          (fun _ _ _ => runRule_same fun _ _ _ _ h => ih (by omega) h) h

/-! ### Termination -/

section Ends

variable {nested : Nested} {ctx : TransitionContext}

theorem cascade_ends_of (env : Env) (map : List (String × Json)) (ctx : TransitionContext)
    (hn : ∀ ctx tx, ∃ r, nested ctx (depth + 1) tx = some r) (m : Moved) (p : Progress) :
    ∃ p', cascade env nested ctx depth map m p = some p' := by
  unfold cascade
  split
  · exact ⟨_, rfl⟩
  · next id _ =>
      split
      · exact ⟨_, rfl⟩
      · next tx _ =>
        obtain ⟨⟨result, tx'⟩, hr⟩ := hn (ctx.nested m id)
          (tx.record (.fired (ctx.nested m id) p.tx.ticket))
        rw [hr]
        cases result <;> exact ⟨_, rfl⟩

theorem runRule_ends (hn : depth < maxDepth → ∀ ctx tx, ∃ r, nested ctx (depth + 1) tx = some r)
    (rule : Rule) (tx : Tx) : ∃ r, runRule env maxDepth nested ctx depth rule tx = some r := by
  cases hm : ctx.matches env.parseUuid rule.conditions with
  | false => exact ⟨_, runRule_unmatched hm⟩
  | true =>
      rcases lt_or_ge depth maxDepth with hlt | hcap
      · rw [runRule_applied hm hlt]
        unfold applyTransitionActions
        split
        · exact ⟨_, rfl⟩
        · next map _ =>
            obtain ⟨p₁, h₁⟩ := cascade_ends_of env map ctx (hn hlt) .priority
              (plainActions env depth map
                ⟨none, tx.record (.evaluated depth ctx rule tx.ticket true)⟩)
            obtain ⟨p₂, h₂⟩ := cascade_ends_of env map ctx (hn hlt) .status p₁
            simp only [h₁, h₂, Option.bind_eq_bind, Option.bind_some]
            exact ⟨_, rfl⟩
      · exact ⟨_, runRule_capped hm hcap⟩

theorem forRules_ends {body : Rule → Tx → Option (AppResult Unit × Tx)}
    (hb : ∀ rule tx, ∃ r, body rule tx = some r) (rules : List Rule) (tx : Tx) :
    ∃ r, forRules body rules tx = some r := by
  induction rules generalizing tx with
  | nil => exact ⟨_, rfl⟩
  | cons rule rules ih =>
      obtain ⟨⟨result, tx'⟩, hr⟩ := hb rule tx
      unfold forRules
      rw [hr]
      cases result with
      | error e => exact ⟨_, rfl⟩
      | ok u => exact ih tx'

/-- With fuel for the levels that are left a run ends, by induction on the fuel. -/
theorem runAtDepth_ends (env : Env) {fuel : ℕ} (hf : maxDepth - depth < fuel) (ctx : TransitionContext)
    (tx : Tx) : ∃ r, runAtDepth env maxDepth fuel ctx depth tx = some r := by
  induction fuel generalizing ctx depth tx with
  | zero => omega
  | succ fuel ih =>
      unfold runAtDepth
      split
      · exact ⟨_, rfl⟩
      · exact forRules_ends (runRule_ends fun hlt ctx tx => ih (by omega) ctx tx) _ _

end Ends

/-- Every fuel above the number of levels gives the same run. -/
theorem runAtDepth_settles (env : Env) (maxDepth depth : ℕ) (ctx : TransitionContext) (tx : Tx) :
    ∃ r, ∀ fuel, maxDepth - depth < fuel → runAtDepth env maxDepth fuel ctx depth tx = some r := by
  obtain ⟨r, hr⟩ := runAtDepth_ends env (Nat.lt_succ_self (maxDepth - depth)) ctx tx
  exact ⟨r, fun fuel hf => runAtDepth_same hf hr⟩

/-! ### The run ends at the cap -/

/-- The database refuses nothing. -/
def Env.AcceptsAll (env : Env) : Prop := ∀ n s, env.refuses n s = none

theorem Extends.not_failed {tx tx' : Tx} {l : List LogEntry} (h : Extends env tx l tx')
    (hall : env.AcceptsAll) (ha : tx.aborted = false) : ∀ e ∈ l, e.failed = false := by
  intro e he
  by_contra hf
  obtain ⟨n, d, s, row, error, rfl⟩ := e.eq_of_failed (Bool.eq_true_of_not_eq_false hf)
  rcases h.refused n d s row error he with ht | ⟨n', s', hr⟩
  · exact absurd (ht.symm.trans ha) (by simp)
  · exact hr (hall n' s')

/-- What is inserted is written, if no statement is refused. -/
theorem filterMap_written {l : List LogEntry} (h : ∀ e ∈ l, e.failed = false) :
    l.filterMap LogEntry.written = l.filterMap LogEntry.inserted := by
  refine List.filterMap_congr fun e he => ?_
  have hf := h e he
  cases e with
  | statement n d s row error =>
      cases error with
      | some error => cases hf
      | none => cases s <;> rfl
  | _ => rfl

/-- A run ends with an error only if its transaction is lost. -/
def Sound (r : AppResult Unit × Tx) : Prop := r.1 = .ok () ∨ r.2.aborted = true

theorem require_sound (tx : Tx) (env : Env) (depth : ℕ) (s : Statement) :
    Sound (require tx env depth s) := by
  unfold require
  split
  · next e tx' heq =>
      refine .inr ?_
      show tx'.aborted = true
      unfold Tx.exec at heq
      split at heq <;> cases heq
      rfl
  · exact .inl rfl

theorem forRules_sound {body : Rule → Tx → Option (AppResult Unit × Tx)}
    (hb : ∀ rule tx r, body rule tx = some r → Sound r) {rules : List Rule} {tx : Tx}
    {r : AppResult Unit × Tx} (h : forRules body rules tx = some r) : Sound r := by
  induction rules generalizing tx with
  | nil =>
      cases h
      exact .inl rfl
  | cons rule rules ih =>
      obtain ⟨⟨result, tx'⟩, h₁, h⟩ := Option.bind_eq_some_iff.mp h
      cases result with
      | error e =>
          cases h
          exact hb _ _ _ h₁
      | ok u => exact ih h

theorem runRule_sound {nested : Nested} {ctx : TransitionContext} {rule : Rule} {tx : Tx}
    {r : AppResult Unit × Tx} (h : runRule env maxDepth nested ctx depth rule tx = some r) :
    Sound r := by
  cases hm : ctx.matches env.parseUuid rule.conditions with
  | false =>
      rw [runRule_unmatched hm] at h
      cases h
      exact .inl rfl
  | true =>
      rcases lt_or_ge depth maxDepth with hlt | hcap
      · rw [runRule_applied hm hlt] at h
        obtain ⟨p, -, h⟩ := Option.bind_eq_some_iff.mp h
        cases h
        exact require_sound _ _ _ _
      · rw [runRule_capped hm hcap] at h
        cases h
        exact require_sound _ _ _ _

theorem runAtDepth_sound {fuel : ℕ} {ctx : TransitionContext} {tx : Tx} {r : AppResult Unit × Tx}
    (h : runAtDepth env maxDepth fuel ctx depth tx = some r) : Sound r := by
  cases fuel with
  | zero => cases h
  | succ fuel =>
      have hs := require_sound tx env depth (.selectRules ctx.moved.trigger)
      unfold runAtDepth at h
      split at h
      · next heq =>
          rw [heq] at hs
          cases h
          exact hs
      · exact forRules_sound (fun _ _ _ => runRule_sound) h

/-- What the row of a matching rule has to show: the rule, the ticket, the actions, and whether the
cap refused it. -/
def matchedRun (maxDepth : ℕ) (e : ℕ × Rule × Uuid) : Uuid × Uuid × Json × Bool :=
  (e.2.1.id, e.2.2, e.2.1.actions, decide (e.1 = maxDepth))

/-- What the row of a run shows. -/
def RunRow.shown (maxDepth : ℕ) (row : RunRow) : Uuid × Uuid × Json × Bool :=
  (row.ruleId, row.entityId, row.appliedActions, decide (row.error = some (capText maxDepth)))

theorem Accounts.matched_perm {l : List LogEntry} (h : Accounts maxDepth l) :
    ((l.filterMap LogEntry.matched).map (matchedRun maxDepth)).Perm
      ((l.filterMap LogEntry.inserted).map (RunRow.shown maxDepth)) := by
  refine (h.ends.map _).trans (List.Perm.of_eq ?_)
  rw [h.rows, List.map_map, List.map_map]
  refine List.map_congr_left fun e he => ?_
  simp only [Function.comp, matchedRun, RunRow.shown, endedRow, Prod.mk.injEq, true_and]
  exact decide_eq_decide.mpr (h.cap e he).symm

/-- Every cascade ends, with the same result for any fuel above the cap; no statement at the cap
writes the ticket; and the rules that matched are those of the rows inserted, one for one, the ones
with the error of the cap being those at the cap. -/
theorem cascade_ends (env : Env) (maxDepth : ℕ) (ctx : TransitionContext) (tx : Tx) :
    ∃ r l, (∀ fuel, maxDepth < fuel → runAtDepth env maxDepth fuel ctx 0 tx = some r) ∧
      Extends env tx l r.2 ∧
      (∀ n d s row e, .statement n d s row e ∈ l → s.mutates = true → d < maxDepth) ∧
      ((l.filterMap LogEntry.matched).map (matchedRun maxDepth)).Perm
        ((l.filterMap LogEntry.inserted).map (RunRow.shown maxDepth)) ∧
      (env.AcceptsAll → tx.aborted = false →
        r.1 = .ok () ∧ r.2.runs = tx.runs ++ l.filterMap LogEntry.inserted) := by
  obtain ⟨r, hr⟩ := runAtDepth_settles env maxDepth 0 ctx tx
  have hrun := hr (maxDepth + 1) (by omega)
  obtain ⟨l, hl, hacc⟩ := runAtDepth_grown maxDepth.zero_le hrun
  refine ⟨r, l, fun fuel hf => hr fuel (by omega), hl, hacc.below, hacc.matched_perm, ?_⟩
  intro hall ha
  have hf := hl.not_failed hall ha
  refine ⟨(runAtDepth_sound hrun).resolve_right ?_, ?_⟩
  · rw [hl.aborted, ha, Bool.false_or, Bool.not_eq_true, List.any_eq_false]
    exact fun e he => by simp [hf e he]
  · rw [hl.runs, filterMap_written hf]

end Mokosh.Workflows
