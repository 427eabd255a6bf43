import Mathlib.Logic.Function.Basic
import Mokosh.Workflows.Cascade

/-! # What a run has to do

The plan of a run: the statements it issues, the rules it looks at and the transitions it fires, in
their order, when the database refuses nothing.  It is read off the rules, and knows of a ticket only
where it stands, which is its status and its priority.

* A run does its plan up to the first statement that is refused (`Performs`), and it ends well exactly
  when none is (`runEvent_ran`). -/

namespace Mokosh.Workflows

variable {env : Env} {depth maxDepth : ℕ} {map : List (String × Json)}

/-! ### Steps -/

/-- The status and the priority of a ticket. -/
abbrev Place := Moved → Uuid

/-- A statement to issue, a rule to look at, a transition to fire, with the place of the ticket. -/
inductive Step where
  | issue (s : Statement)
  | look (ctx : TransitionContext) (rule : Rule) (place : Place)
  | fire (ctx : TransitionContext) (place : Place)

/-- The place after a step. -/
def Step.carry (place : Place) : Step → Place
  | .issue (.move id m) => Function.update place m id
  | _ => place

/-- Where the steps leave a ticket. -/
def landing (steps : List Step) (place : Place) : Place := steps.foldl Step.carry place

theorem landing_append (steps steps' : List Step) (place : Place) :
    landing (steps ++ steps') place = landing steps' (landing steps place) := List.foldl_append

/-- How many statements are issued. -/
def asked : List Step → ℕ
  | [] => 0
  | .issue _ :: steps => asked steps + 1
  | _ :: steps => asked steps

/-- The database refuses none of the statements, the first of which has the number `n`. -/
def Clear (env : Env) : ℕ → List Step → Prop
  | _, [] => True
  | n, .issue s :: steps => env.refuses n s = none ∧ Clear env (n + 1) steps
  | n, _ :: steps => Clear env n steps

theorem asked_append (steps steps' : List Step) : asked (steps ++ steps') = asked steps + asked steps' := by
  induction steps with
  | nil => exact (Nat.zero_add _).symm
  | cons st steps ih =>
      cases st with
      | issue s =>
          show asked (steps ++ steps') + 1 = asked steps + 1 + asked steps'
          omega
      | _ => exact ih

theorem clear_append (n : ℕ) (steps steps' : List Step) :
    Clear env n (steps ++ steps') ↔ Clear env n steps ∧ Clear env (n + asked steps) steps' := by
  induction steps generalizing n with
  | nil => exact ⟨fun h => ⟨trivial, h⟩, And.right⟩
  | cons st steps ih =>
      cases st with
      | issue s =>
          have h := ih (n + 1)
          rw [Nat.add_right_comm] at h
          exact (and_congr_right fun _ => h).trans and_assoc.symm
      | _ => exact ih n

/-! ### The plan -/

section Actions

variable (env : Env) (map : List (String × Json))

def idSteps (key : String) (s : Uuid → Statement) : List Step :=
  match Json.getStr map key with
  | none => []
  | some raw =>
    match env.parseUuid raw with
    | .ok id => [.issue (s id)]
    | .error _ => []

/-- The error of a value that is no id. -/
def parseError (key : String) : Option String :=
  match Json.getStr map key with
  | none => none
  | some raw =>
    match env.parseUuid raw with
    | .ok _ => none
    | .error e => some (key ++ " parse: " ++ e)

def tagSteps : List Step :=
  match Json.getStr map "add_tag" with
  | none => []
  | some tag => [.issue (.addTag tag)]

def noteSteps : List Step :=
  match Json.getStr map "add_internal_note" with
  | none => []
  | some content =>
    .issue .selectCreator :: (env.creator.map fun id => .issue (.insertNote content id)).toList

/-- The steps of `plainActions`. -/
def plainSteps : List Step :=
  idSteps env map "assign_to_user_id" .assignUser ++ idSteps env map "assign_to_team_id" .assignTeam ++
    tagSteps map ++ noteSteps env map

def plainError : Option String :=
  (parseError env map "assign_to_user_id").or (parseError env map "assign_to_team_id")

/-- The steps of `createActions`. -/
def createSteps : List Step :=
  idSteps env map "assign_to_user_id" .assignUser ++ idSteps env map "assign_to_team_id" .assignTeam ++
    idSteps env map "set_priority_id" (.move · .priority) ++
    idSteps env map "set_status_id" (.move · .status) ++ tagSteps map ++ noteSteps env map

def createError : Option String :=
  (((parseError env map "assign_to_user_id").or (parseError env map "assign_to_team_id")).or
    (parseError env map "set_priority_id")).or (parseError env map "set_status_id")

end Actions

/-- The error in the row of a rule, out of the first error of its actions. -/
def rowError (error : Option String) : Option String := error.map fun m => errorText (.internal m)

def rowStep (rule : Rule) (entityId : Uuid) (error : Option String) : Step :=
  .issue (.insertRun ⟨rule.id, entityId, rule.actions, error⟩)

/-- The steps of rules one after the other. -/
def rulesSteps (steps : Rule → Place → List Step) : List Rule → Place → List Step
  | [], _ => []
  | rule :: rules, place =>
    steps rule place ++ rulesSteps steps rules (landing (steps rule place) place)

/-- The steps of the rules of a nested transition. -/
abbrev Ahead := TransitionContext → Place → List Step

section Rules

variable (env : Env) (ahead : Ahead) (ctx : TransitionContext)

/-- The steps of `cascade`. -/
def moveSteps (map : List (String × Json)) (m : Moved) (place : Place) : List Step :=
  match target env map ctx m with
  | none => []
  | some id => [.issue (.move id m), .fire (ctx.nested m id) place] ++
      ahead (ctx.nested m id) (Function.update place m id)

/-- The steps of the two moves of a rule. -/
def movesSteps (map : List (String × Json)) (place : Place) : List Step :=
  moveSteps env ahead ctx map .priority place ++
    moveSteps env ahead ctx map .status (landing (moveSteps env ahead ctx map .priority place) place)

/-- The steps of `applyTransitionActions`. -/
def actionSteps (actions : Json) (place : Place) : List Step :=
  match actions.asObject with
  | none => []
  | some map => plainSteps env map ++ movesSteps env ahead ctx map place

/-- The steps of `runRule`. -/
def ruleSteps (maxDepth depth : ℕ) (rule : Rule) (place : Place) : List Step :=
  [.look ctx rule place] ++
    if !ctx.matches env.parseUuid rule.conditions then []
    else if maxDepth ≤ depth then [rowStep rule ctx.ticketId (some (capText maxDepth))]
    else actionSteps env ahead ctx rule.actions place ++
      [rowStep rule ctx.ticketId (rowError (rule.actions.asObject.bind (plainError env)))]

section Cases

variable {env ahead ctx} {rule : Rule}

theorem ruleSteps_unmatched (hm : ctx.matches env.parseUuid rule.conditions = false) (place : Place) :
    ruleSteps env ahead ctx maxDepth depth rule place = [.look ctx rule place] := by
  unfold ruleSteps
  rw [hm]
  rfl

theorem ruleSteps_capped (hm : ctx.matches env.parseUuid rule.conditions = true)
    (hcap : maxDepth ≤ depth) (place : Place) :
    ruleSteps env ahead ctx maxDepth depth rule place =
      [.look ctx rule place] ++ [rowStep rule ctx.ticketId (some (capText maxDepth))] := by
  unfold ruleSteps
  rw [hm, if_neg (by simp), if_pos hcap]

theorem ruleSteps_applied (hm : ctx.matches env.parseUuid rule.conditions = true)
    (hd : depth < maxDepth) (place : Place) :
    ruleSteps env ahead ctx maxDepth depth rule place =
      [.look ctx rule place] ++ (actionSteps env ahead ctx rule.actions place ++
        [rowStep rule ctx.ticketId (rowError (rule.actions.asObject.bind (plainError env)))]) := by
  unfold ruleSteps
  rw [hm, if_neg (by simp), if_neg (not_le.mpr hd)]

end Cases

end Rules

/-- The steps of `runAtDepth`. -/
def stepsAtDepth (env : Env) (maxDepth : ℕ) : ℕ → TransitionContext → ℕ → Place → List Step
  | 0, _, _, _ => []
  | fuel + 1, ctx, depth, place => [.issue (.selectRules ctx.moved.trigger)] ++
      rulesSteps
        (ruleSteps env (fun ctx => stepsAtDepth env maxDepth fuel ctx (depth + 1)) ctx maxDepth depth)
        (env.rules ctx.moved.trigger) place

/-- The steps of `runCreatedRule`. -/
def createdSteps (env : Env) (ctx : TicketCreateContext) (rule : Rule) (_ : Place) : List Step :=
  if !ctx.matchesConditions env.parseUuid rule.conditions then []
  else (rule.actions.asObject.map (createSteps env)).getD [] ++
    [rowStep rule ctx.ticketId (rowError (rule.actions.asObject.bind (createError env)))]

/-- The steps of `runEvent`. -/
def TicketEvent.plan (env : Env) (place : Place) : TicketEvent → List Step
  | .created ctx => [.issue (.selectRules .ticketCreated)] ++
      rulesSteps (createdSteps env ctx) (env.rules .ticketCreated) place
  | .moved ctx => [.issue .readMaxDepth] ++
      stepsAtDepth env env.maxDepth (env.maxDepth + 1) ctx 0 place

theorem landing_idSteps (map : List (String × Json)) {key : String} {s : Uuid → Statement}
    (hs : ∀ id place, Step.carry place (.issue (s id)) = place) (place : Place) :
    landing (idSteps env map key s) place = place := by
  unfold idSteps
  split
  · rfl
  · split
    · exact hs _ place
    · rfl

/-- The plain actions move nothing. -/
theorem landing_plainSteps (env : Env) (map : List (String × Json)) (place : Place) :
    landing (plainSteps env map) place = place := by
  have htag : landing (tagSteps map) place = place := by
    unfold tagSteps
    split <;> rfl
  have hnote : landing (noteSteps env map) place = place := by
    unfold noteSteps
    split
    · rfl
    · cases env.creator <;> rfl
  unfold plainSteps
  rw [landing_append, landing_append, landing_append, landing_idSteps map fun _ _ => rfl,
    landing_idSteps map fun _ _ => rfl, htag, hnote]

/-! ### Performing a plan -/

/-- The step that an entry shows to be done. -/
def LogEntry.step : LogEntry → Option Step
  | .statement _ _ s _ none => some (.issue s)
  | .evaluated _ ctx rule row _ => some (.look ctx rule row.held)
  | .fired ctx row => some (.fire ctx row.held)
  | _ => none

/-- A transaction that was lost does nothing; one that gets lost has done a part of the steps, and
one of them is refused; any other one has done the steps. -/
inductive Plays (env : Env) (steps : List Step) (tx : Tx) (l : List LogEntry) (tx' : Tx) : Prop
  | idle (ha : tx.aborted = true) (ha' : tx'.aborted = true) (hs : l.filterMap LogEntry.step = [])
  | stopped (ha : tx.aborted = false) (ha' : tx'.aborted = true)
      (hs : l.filterMap LogEntry.step <+: steps) (hc : ¬ Clear env tx.issued steps)
  | done (ha : tx.aborted = false) (ha' : tx'.aborted = false)
      (hs : l.filterMap LogEntry.step = steps) (hc : Clear env tx.issued steps)
      (hi : tx'.issued = tx.issued + asked steps)

/-- A part of a run performs its part of the plan. -/
def Performs (env : Env) (steps : List Step) (tx tx' : Tx) : Prop :=
  ∃ l, Extends env tx l tx' ∧ Plays env steps tx l tx'

theorem TicketRow.held_move (t : TicketRow) (id : Uuid) (m : Moved) :
    (t.move id m).held = Function.update t.held m id := by
  funext m'
  cases m <;> cases m' <;> rfl

theorem TransitionContext.current_nested (ctx : TransitionContext) (m : Moved) (id : Uuid) :
    (ctx.nested m id).current = Function.update ctx.current m id := by
  funext m'
  cases m <;> cases m' <;> rfl

theorem LogEntry.held_redo (e : LogEntry) (t : TicketRow) :
    (e.redo t).held = landing e.step.toList t.held := by
  cases e with
  | statement n d s row error =>
      cases error with
      | some e => rfl
      | none =>
          cases s with
          | move id m => exact t.held_move id m
          | assignUser | assignTeam | addTag =>
              funext m
              cases m <;> rfl
          | _ => rfl
  | _ => rfl

/-- The place after the entries is where their steps lead. -/
theorem held_foldl_redo (l : List LogEntry) (t : TicketRow) :
    (l.foldl (fun t e => e.redo t) t).held = landing (l.filterMap LogEntry.step) t.held := by
  induction l generalizing t with
  | nil => rfl
  | cons e l ih =>
      rw [List.foldl_cons, ih, e.held_redo, ← landing_append]
      cases he : e.step with
      | none => rw [List.filterMap_cons_none he]; rfl
      | some st => rw [List.filterMap_cons_some he]; rfl

namespace Performs

variable {steps steps' : List Step} {tx tx₁ tx₂ : Tx}

theorem refl (tx : Tx) : Performs env [] tx tx := by
  refine ⟨[], .nil, ?_⟩
  cases ha : tx.aborted with
  | true => exact .idle ha ha rfl
  | false => exact .done ha ha rfl trivial rfl

/-- Nothing of any plan is done in a transaction that was lost. -/
theorem of_aborted (h : Performs env steps tx tx₁) (ha : tx.aborted = true) (steps' : List Step) :
    Performs env steps' tx tx₁ := by
  obtain ⟨l, hl, h⟩ := h
  refine ⟨l, hl, ?_⟩
  cases h with
  | idle _ ha' hs => exact .idle ha ha' hs
  | stopped ha' => exact absurd (ha.symm.trans ha') (by simp)
  | done ha' => exact absurd (ha.symm.trans ha') (by simp)

theorem trans (h₁ : Performs env steps tx tx₁) (h₂ : Performs env steps' tx₁ tx₂) :
    Performs env (steps ++ steps') tx tx₂ := by
  obtain ⟨l, hl, h₁⟩ := h₁
  obtain ⟨l', hl', h₂⟩ := h₂
  refine ⟨l ++ l', hl.append hl', ?_⟩
  have hshown : (l ++ l').filterMap LogEntry.step =
      l.filterMap LogEntry.step ++ l'.filterMap LogEntry.step := List.filterMap_append
  cases h₂ with
  | idle ha₁ ha₂ hs₂ =>
      rw [hs₂, List.append_nil] at hshown
      cases h₁ with
      | idle ha _ hs => exact .idle ha ha₂ (hshown.trans hs)
      | stopped ha _ hs hc =>
          refine .stopped ha ha₂ ?_ fun hc' => hc ((clear_append _ _ _).mp hc').1
          rw [hshown]
          exact hs.trans (List.prefix_append _ _)
      | done _ ha₁' => exact absurd (ha₁.symm.trans ha₁') (by simp)
  | stopped ha₁ ha₂ hs₂ hc₂ =>
      cases h₁ with
      | done ha _ hs hc hi =>
          refine .stopped ha ha₂ ?_ fun hc' => hc₂ (hi ▸ ((clear_append _ _ _).mp hc').2)
          rw [hshown, hs]
          exact (List.prefix_append_right_inj _).mpr hs₂
      | _ _ ha₁' => exact absurd (ha₁.symm.trans ha₁') (by simp)
  | done ha₁ ha₂ hs₂ hc₂ hi₂ =>
      cases h₁ with
      | done ha _ hs hc hi =>
          refine .done ha ha₂ (by rw [hshown, hs, hs₂]) ((clear_append _ _ _).mpr ⟨hc, hi ▸ hc₂⟩) ?_
          rw [hi₂, hi, asked_append, Nat.add_assoc]
      | _ _ ha₁' => exact absurd (ha₁.symm.trans ha₁') (by simp)

/-- A part that lost the transaction stands for the rest of the plan. -/
theorem stop (h : Performs env steps tx tx₁) (ha : tx₁.aborted = true) (steps' : List Step) :
    Performs env (steps ++ steps') tx tx₁ :=
  h.trans ((refl tx₁).of_aborted ha steps')

theorem landed (h : Performs env steps tx tx₁) (ha : tx₁.aborted = false) :
    tx₁.ticket.held = landing steps tx.ticket.held := by
  obtain ⟨l, hl, h⟩ := h
  cases h with
  | done _ _ hs => rw [hl.ticket, held_foldl_redo, hs]
  | idle _ ha' => exact absurd (ha'.symm.trans ha) (by simp)
  | stopped _ ha' => exact absurd (ha'.symm.trans ha) (by simp)

/-- A part whose plan depends on where the part before it leaves the ticket. -/
theorem follow {f : Place → List Step} (h₁ : Performs env steps tx tx₁)
    (h₂ : Performs env (f tx₁.ticket.held) tx₁ tx₂) :
    Performs env (steps ++ f (landing steps tx.ticket.held)) tx tx₂ := by
  cases ha : tx₁.aborted with
  | true => exact h₁.trans (h₂.of_aborted ha _)
  | false =>
      rw [← h₁.landed ha]
      exact h₁.trans h₂

/-- A transaction that is not lost was not lost before. -/
theorem intact (h : Performs env steps tx tx₁) (ha : tx₁.aborted = false) : tx.aborted = false := by
  obtain ⟨l, hl, -⟩ := h
  rw [hl.aborted, Bool.or_eq_false_iff] at ha
  exact ha.1

theorem exec (tx : Tx) (env : Env) (depth : ℕ) (s : Statement) :
    Performs env [.issue s] tx (tx.exec env depth s).2 := by
  refine ⟨_, .exec tx env depth s, ?_⟩
  have hq := tx.refusal_eq env s
  unfold Tx.exec
  cases hr : tx.refusal env s with
  | some e =>
      cases ha : tx.aborted with
      | true => exact .idle ha rfl rfl
      | false =>
          rw [hr] at hq
          refine .stopped ha rfl (List.nil_prefix) fun hc => ?_
          rcases hq with ha' | hq
          · exact absurd (ha'.symm.trans ha) (by simp)
          · exact absurd (hq.symm.trans hc.1) (by simp)
  | none =>
      rw [hr] at hq
      refine .done hq.1 ?_ rfl ⟨hq.2.symm, trivial⟩ ?_
      · rw [s.effect_aborted]
        exact hq.1
      · cases s <;> rfl

/-- An entry that is no statement. -/
theorem record {e : LogEntry} (he : e.isNote = true) (ha : tx.aborted = false) :
    Performs env e.step.toList tx (tx.record e) := by
  refine ⟨[e], .record he, .done ha ha ?_ ?_ ?_⟩
  · cases he' : e.step with
    | none => exact List.filterMap_cons_none he'
    | some st => exact List.filterMap_cons_some he'
  · cases e with
    | statement => cases he
    | _ => trivial
  · cases e with
    | statement => cases he
    | _ => rfl

/-- The end of a rule is no step. -/
theorem finished (tx : Tx) (rule : Rule) (entityId : Uuid) (error : Option String) :
    Performs env [] tx (tx.record (.finished depth rule entityId error)) := by
  cases ha : tx.aborted with
  | false => exact record rfl ha
  | true => exact ⟨_, .record rfl, .idle ha ha rfl⟩

end Performs

/-- A refused statement loses the transaction. -/
theorem exec_lost {tx tx' : Tx} {s : Statement} {e : String}
    (h : tx.exec env depth s = (some e, tx')) : tx'.aborted = true := by
  unfold Tx.exec at h
  split at h <;> cases h
  rfl

theorem exec_kept {tx tx' : Tx} {s : Statement} (h : tx.exec env depth s = (none, tx')) :
    tx'.aborted = false := by
  have hq := tx.refusal_eq env s
  unfold Tx.exec at h
  cases hr : tx.refusal env s with
  | some e =>
      rw [hr] at h
      cases h
  | none =>
      rw [hr] at h hq
      cases h
      rw [s.effect_aborted]
      exact hq.1

/-! ### The actions perform their plan -/

/-- The actions of a rule perform the steps, and note the error if they have not lost the
transaction. -/
def Acted (env : Env) (steps : List Step) (error : Option String) (p p' : Progress) : Prop :=
  Performs env steps p.tx p'.tx ∧ (p'.tx.aborted = false → p'.firstError = p.firstError.or error)

namespace Acted

variable {steps steps' : List Step} {error error' : Option String} {p p₁ p₂ : Progress}

theorem refl (p : Progress) : Acted env [] none p p :=
  ⟨.refl p.tx, fun _ => (Option.or_none).symm⟩

theorem trans (h₁ : Acted env steps error p p₁) (h₂ : Acted env steps' error' p₁ p₂) :
    Acted env (steps ++ steps') (error.or error') p p₂ := by
  refine ⟨h₁.1.trans h₂.1, fun ha => ?_⟩
  rw [h₂.2 ha, h₁.2 (h₂.1.intact ha), Option.or_assoc]

theorem issue (p : Progress) (env : Env) (depth : ℕ) (label : String) (s : Statement) :
    Acted env [.issue s] none p (p.issue env depth label s) := by
  have h := Performs.exec p.tx env depth s
  unfold Progress.issue
  split
  · next e tx heq =>
      rw [heq] at h
      exact ⟨h, fun ha => absurd (ha.symm.trans (exec_lost heq)) (by simp)⟩
  · next tx heq =>
      rw [heq] at h
      exact ⟨h, fun _ => (Option.or_none).symm⟩

theorem applyId (p : Progress) (env : Env) (depth : ℕ) (map : List (String × Json)) (key : String)
    (s : Uuid → Statement) :
    Acted env (idSteps env map key s) (parseError env map key) p (applyId env depth map key s p) := by
  unfold Workflows.applyId idSteps parseError
  cases Json.getStr map key with
  | none => exact refl p
  | some raw =>
      dsimp only
      cases env.parseUuid raw with
      | ok id => exact issue p env depth _ _
      | error e => exact ⟨.refl p.tx, fun _ => rfl⟩

theorem applyAddTag (p : Progress) (env : Env) (depth : ℕ) (map : List (String × Json)) :
    Acted env (tagSteps map) none p (applyAddTag env depth map p) := by
  unfold Workflows.applyAddTag tagSteps
  cases Json.getStr map "add_tag" with
  | none => exact refl p
  | some tag => exact issue p env depth _ _

theorem applyAddInternalNote (p : Progress) (env : Env) (depth : ℕ) (map : List (String × Json)) :
    Acted env (noteSteps env map) none p (applyAddInternalNote env depth map p) := by
  have h := Performs.exec p.tx env depth .selectCreator
  unfold Workflows.applyAddInternalNote noteSteps
  cases Json.getStr map "add_internal_note" with
  | none => exact refl p
  | some content =>
      dsimp only
      split
      · next e tx heq =>
          rw [heq] at h
          have ha : tx.aborted = true := exec_lost heq
          exact ⟨h.stop ha _, fun ha' => absurd (ha.symm.trans ha') (by simp)⟩
      · next tx heq =>
          rw [heq] at h
          have h' : Acted env [.issue .selectCreator] none p ⟨p.firstError, tx⟩ :=
            ⟨h, fun _ => (Option.or_none).symm⟩
          cases env.creator with
          | none => exact h'
          | some creator => exact h'.trans (issue _ env depth _ _)

theorem plainActions (p : Progress) (env : Env) (depth : ℕ) (map : List (String × Json)) :
    Acted env (plainSteps env map) (plainError env map) p (plainActions env depth map p) := by
  have h := (((applyId p env depth map "assign_to_user_id" .assignUser).trans
    (applyId _ env depth map "assign_to_team_id" .assignTeam)).trans
    (applyAddTag _ env depth map)).trans (applyAddInternalNote _ env depth map)
  rwa [Option.or_none, Option.or_none] at h

theorem createActions (p : Progress) (env : Env) (depth : ℕ) (map : List (String × Json)) :
    Acted env (createSteps env map) (createError env map) p (createActions env depth map p) := by
  have h := (((((applyId p env depth map "assign_to_user_id" .assignUser).trans
    (applyId _ env depth map "assign_to_team_id" .assignTeam)).trans
    (applyId _ env depth map "set_priority_id" (.move · .priority))).trans
    (applyId _ env depth map "set_status_id" (.move · .status))).trans
    (applyAddTag _ env depth map)).trans (applyAddInternalNote _ env depth map)
  rwa [Option.or_none, Option.or_none] at h

end Acted

/-! ### A run performs its plan -/

/-- A run performs the steps, and ends well if and only if it has not lost the transaction. -/
def Ran (env : Env) (steps : List Step) (tx : Tx) (r : AppResult Unit × Tx) : Prop :=
  Performs env steps tx r.2 ∧ (r.1 = .ok () ↔ r.2.aborted = false)

theorem Ran.require (tx : Tx) (env : Env) (depth : ℕ) (s : Statement) :
    Ran env [.issue s] tx (require tx env depth s) := by
  have h := Performs.exec tx env depth s
  unfold Workflows.require
  split
  · next e tx' heq =>
      rw [heq] at h
      exact ⟨h, nofun, fun ha => absurd (ha.symm.trans (exec_lost heq)) (by simp)⟩
  · next tx' heq =>
      rw [heq] at h
      exact ⟨h, fun _ => exec_kept heq, fun _ => rfl⟩

/-- A run that ends with an error stands for the rest of the plan. -/
theorem Ran.cut {steps : List Step} {tx tx' : Tx} {e : AppError}
    (h : Ran env steps tx (.error e, tx')) (steps' : List Step) :
    Ran env (steps ++ steps') tx (.error e, tx') := by
  have ha : tx'.aborted = true := by
    by_contra hn
    exact absurd (h.2.mpr (Bool.eq_false_iff.mpr hn)) (by simp)
  exact ⟨h.1.stop ha steps', h.2⟩

/-- A part of a run and the run that follows it. -/
theorem Ran.after {steps steps' : List Step} {tx tx₁ : Tx} {r : AppResult Unit × Tx}
    (h₁ : Performs env steps tx tx₁) (h₂ : Ran env steps' tx₁ r) : Ran env (steps ++ steps') tx r :=
  ⟨h₁.trans h₂.1, h₂.2⟩

theorem insertRunRow_ran (tx : Tx) (env : Env) (depth : ℕ) (rule : Rule) (entityId : Uuid)
    (error : Option String) :
    Ran env [rowStep rule entityId error] tx (insertRunRow env depth rule entityId error tx) :=
  .after (.finished tx rule entityId error) (.require _ env depth _)

/-- The row of a rule, after its actions. -/
theorem finish_ran {steps : List Step} {rule : Rule} {entityId : Uuid} {tx tx₁ : Tx}
    {outcome : AppResult Unit} {error : Option String} (h : Performs env steps tx tx₁)
    (he : tx₁.aborted = false → errorMessage outcome = error) :
    Ran env (steps ++ [rowStep rule entityId error]) tx
      (insertRunRow env depth rule entityId (errorMessage outcome) tx₁) := by
  have hr := insertRunRow_ran tx₁ env depth rule entityId (errorMessage outcome)
  cases ha : tx₁.aborted with
  | false =>
      rw [← he ha]
      exact .after h hr
  | true => exact .after h ⟨hr.1.of_aborted ha _, hr.2⟩

theorem outcome_error (p : Progress) : errorMessage p.outcome = rowError p.firstError := by
  unfold Progress.outcome
  cases p.firstError <;> rfl

section Nested

variable {nested : Nested} {ahead : Ahead} {ctx : TransitionContext} {tx : Tx}
  {r : AppResult Unit × Tx}

/-- The nested runs perform what is ahead, in a transaction that is not lost. -/
def Nested.Performs (env : Env) (nested : Nested) (ahead : Ahead) (depth : ℕ) : Prop :=
  ∀ ctx tx r, tx.aborted = false → nested ctx depth tx = some r →
    Ran env (ahead ctx tx.ticket.held) tx r

theorem cascade_acted (hn : nested.Performs env ahead (depth + 1)) {m : Moved} {p p' : Progress}
    (h : cascade env nested ctx depth map m p = some p') :
    Acted env (moveSteps env ahead ctx map m p.tx.ticket.held) none p p' := by
  unfold cascade at h
  unfold moveSteps
  cases ht : target env map ctx m with
  | none =>
      simp only [ht, Option.some.injEq] at h
      cases h
      exact .refl p
  | some id =>
      simp only [ht] at h
      have hx := Performs.exec p.tx env depth (.move id m)
      split at h
      · next e tx heq =>
          rw [heq] at hx
          cases h
          have ha : tx.aborted = true := exec_lost heq
          exact ⟨hx.stop ha _, fun ha' => absurd (ha.symm.trans ha') (by simp)⟩
      · next tx heq =>
          rw [heq] at hx
          have ha : tx.aborted = false := exec_kept heq
          obtain ⟨⟨result, tx'⟩, hr, h⟩ := Option.bind_eq_some_iff.mp h
          have hfire : Performs env [.fire (ctx.nested m id) p.tx.ticket.held] tx
              (tx.record (.fired (ctx.nested m id) p.tx.ticket)) := .record rfl ha
          have hrun := hn _ (tx.record _) _ ha hr
          have hplace : tx.ticket.held = Function.update p.tx.ticket.held m id := hx.landed ha
          have hall : Performs env _ p.tx tx' := (hx.trans hfire).trans hrun.1
          rw [show (tx.record (.fired (ctx.nested m id) p.tx.ticket)).ticket = tx.ticket from rfl,
            hplace] at hall
          cases result with
          | ok u =>
              cases h
              exact ⟨hall, fun _ => Option.or_none.symm⟩
          | error e =>
              cases h
              exact ⟨hall, fun ha' => absurd (hrun.2.mpr ha') (by simp)⟩

theorem applyTransitionActions_performs (hn : nested.Performs env ahead (depth + 1)) {actions : Json}
    (h : applyTransitionActions env nested ctx depth actions tx = some r) :
    Performs env (actionSteps env ahead ctx actions tx.ticket.held) tx r.2 ∧
      (r.2.aborted = false → errorMessage r.1 = rowError (actions.asObject.bind (plainError env))) := by
  unfold applyTransitionActions at h
  unfold actionSteps
  split at h
  · next hm =>
      cases h
      rw [hm]
      exact ⟨.refl tx, fun _ => rfl⟩
  · next map hm =>
      rw [hm]
      obtain ⟨p₁, h₁, h⟩ := Option.bind_eq_some_iff.mp h
      obtain ⟨p₂, h₂, h⟩ := Option.bind_eq_some_iff.mp h
      cases h
      have a₀ := Acted.plainActions ⟨none, tx⟩ env depth map
      have a₁ := cascade_acted hn h₁
      have a₂ := cascade_acted hn h₂
      refine ⟨?_, fun ha => ?_⟩
      · have h₀ := a₀.1.follow (f := movesSteps env ahead ctx map) (a₁.1.follow a₂.1)
        rwa [landing_plainSteps] at h₀
      · have e₁ := a₁.2 (a₂.1.intact ha)
        have e₀ := a₀.2 (a₁.1.intact (a₂.1.intact ha))
        rw [outcome_error, a₂.2 ha, e₁, e₀, Option.or_none, Option.or_none, Option.none_or]
        rfl

/-- A rule that is looked at in a transaction that is not lost. -/
theorem runRule_ran (hn : depth < maxDepth → nested.Performs env ahead (depth + 1)) {rule : Rule}
    (ha : tx.aborted = false) (h : runRule env maxDepth nested ctx depth rule tx = some r) :
    Ran env (ruleSteps env ahead ctx maxDepth depth rule tx.ticket.held) tx r := by
  have hlook : ∀ matched, Performs env [.look ctx rule tx.ticket.held] tx
      (tx.record (.evaluated depth ctx rule tx.ticket matched)) := fun _ => .record rfl ha
  cases hm : ctx.matches env.parseUuid rule.conditions with
  | false =>
      rw [runRule_unmatched hm] at h
      rw [ruleSteps_unmatched hm]
      cases h
      exact ⟨hlook false, fun _ => ha, fun _ => rfl⟩
  | true =>
      rcases lt_or_ge depth maxDepth with hlt | hcap
      · rw [runRule_applied hm hlt] at h
        rw [ruleSteps_applied hm hlt]
        obtain ⟨⟨outcome, tx'⟩, ho, h⟩ := Option.bind_eq_some_iff.mp h
        cases h
        obtain ⟨hp, he⟩ := applyTransitionActions_performs (hn hlt) ho
        exact .after (hlook true) (finish_ran hp he)
      · rw [runRule_capped hm hcap] at h
        rw [ruleSteps_capped hm hcap]
        cases h
        exact .after (hlook true) (insertRunRow_ran _ env depth rule _ _)

theorem forRules_ran {body : Rule → Tx → Option (AppResult Unit × Tx)}
    (steps : Rule → Place → List Step)
    (hb : ∀ rule tx r, tx.aborted = false → body rule tx = some r →
      Ran env (steps rule tx.ticket.held) tx r) {rules : List Rule} (ha : tx.aborted = false)
    (h : forRules body rules tx = some r) : Ran env (rulesSteps steps rules tx.ticket.held) tx r := by
  induction rules generalizing tx with
  | nil =>
      cases h
      exact ⟨.refl tx, fun _ => ha, fun _ => rfl⟩
  | cons rule rules ih =>
      obtain ⟨⟨result, tx'⟩, h₁, h⟩ := Option.bind_eq_some_iff.mp h
      have hr := hb _ _ _ ha h₁
      cases result with
      | error e =>
          cases h
          exact hr.cut _
      | ok u =>
          have hrest := ih (hr.2.mp rfl) h
          exact ⟨hr.1.follow (f := rulesSteps steps rules) hrest.1, hrest.2⟩

end Nested

/-- A run performs its plan, by induction on the fuel. -/
theorem runAtDepth_ran {fuel : ℕ} {ctx : TransitionContext} {tx : Tx} {r : AppResult Unit × Tx}
    (ha : tx.aborted = false) (h : runAtDepth env maxDepth fuel ctx depth tx = some r) :
    Ran env (stepsAtDepth env maxDepth fuel ctx depth tx.ticket.held) tx r := by
  induction fuel generalizing ctx depth tx r with
  | zero => cases h
  | succ fuel ih =>
      have hs := Ran.require tx env depth (.selectRules ctx.moved.trigger)
      unfold runAtDepth at h
      unfold stepsAtDepth
      split at h
      · next e tx' heq =>
          rw [heq] at hs
          cases h
          exact hs.cut _
      · next tx' heq =>
          rw [heq] at hs
          have hrest := forRules_ran _ (fun rule tx r ha h =>
            runRule_ran (fun _ ctx tx r ha h => ih ha h) ha h) (hs.2.mp rfl) h
          exact ⟨hs.1.follow hrest.1, hrest.2⟩

theorem runTransition_ran {ctx : TransitionContext} {tx : Tx} {r : AppResult Unit × Tx}
    (h : runTransition env ctx tx = some r) :
    Ran env (TicketEvent.plan env tx.ticket.held (.moved ctx)) tx r := by
  have hs := Ran.require tx env 0 .readMaxDepth
  unfold runTransition at h
  split at h
  · next e tx' heq =>
      rw [heq] at hs
      cases h
      exact hs.cut _
  · next tx' heq =>
      rw [heq] at hs
      have hrest := runAtDepth_ran (hs.2.mp rfl) h
      exact ⟨hs.1.follow (f := stepsAtDepth env env.maxDepth (env.maxDepth + 1) ctx 0) hrest.1,
        hrest.2⟩

theorem runCreatedRule_ran {ctx : TicketCreateContext} {rule : Rule} {tx : Tx}
    (ha : tx.aborted = false) :
    Ran env (createdSteps env ctx rule tx.ticket.held) tx (runCreatedRule env ctx rule tx) := by
  unfold runCreatedRule createdSteps
  split
  · exact ⟨.refl tx, fun _ => ha, fun _ => rfl⟩
  · unfold applyCreateActions
    cases hm : rule.actions.asObject with
    | none => exact finish_ran (.refl tx) fun _ => rfl
    | some map =>
        have h := Acted.createActions ⟨none, tx⟩ env 0 map
        refine finish_ran h.1 fun ha => ?_
        rw [outcome_error, h.2 ha, Option.none_or]
        rfl

theorem runTicketCreated_ran {ctx : TicketCreateContext} {tx : Tx} {r : AppResult Unit × Tx}
    (h : runTicketCreated env ctx tx = some r) :
    Ran env (TicketEvent.plan env tx.ticket.held (.created ctx)) tx r := by
  have hs := Ran.require tx env 0 (.selectRules .ticketCreated)
  unfold runTicketCreated at h
  split at h
  · next e tx' heq =>
      rw [heq] at hs
      cases h
      exact hs.cut _
  · next tx' heq =>
      rw [heq] at hs
      have hrest := forRules_ran (createdSteps env ctx) (fun rule tx r ha h => by
        cases h
        exact runCreatedRule_ran ha) (hs.2.mp rfl) h
      exact ⟨hs.1.follow (f := rulesSteps (createdSteps env ctx) (env.rules .ticketCreated)) hrest.1,
        hrest.2⟩

/-- Every run ends. -/
theorem runEvent_ends (env : Env) (tx : Tx) (event : TicketEvent) :
    ∃ r, runEvent env tx event = some r := by
  cases event with
  | created ctx =>
      show ∃ r, runTicketCreated env ctx tx = some r
      unfold runTicketCreated
      split
      · exact ⟨_, rfl⟩
      · exact forRules_ends (fun _ _ => ⟨_, rfl⟩) _ _
  | moved ctx =>
      show ∃ r, runTransition env ctx tx = some r
      unfold runTransition
      split
      · exact ⟨_, rfl⟩
      · exact runAtDepth_ends env (by omega) ctx _

/-- A run performs the plan of its event. -/
theorem runEvent_ran {event : TicketEvent} {tx : Tx} {r : AppResult Unit × Tx}
    (h : runEvent env tx event = some r) : Ran env (event.plan env tx.ticket.held) tx r := by
  cases event with
  | created ctx => exact runTicketCreated_ran h
  | moved ctx => exact runTransition_ran h

end Mokosh.Workflows
