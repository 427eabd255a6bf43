import Mokosh.Workflows.Plan

/-! # What the rules of a cascade are compared with

The fields of a ticket go down the cascade as parameters, and a list of rules goes on with them after
one of its rules has moved the ticket.  A rule is compared with the ticket as it is exactly when no
rule that others follow leaves the ticket elsewhere than it found it, and no rule that sets both the
priority and the status finds the ticket moved in between (`cascade_sees_ticket`). -/

namespace Mokosh.Workflows

variable {env : Env} {depth maxDepth : ℕ} {map : List (String × Json)}

/-! ### What has to be seen -/

/-- A rule is compared with the place of the ticket, and a transition that is fired is one from where
the ticket stood to somewhere else. -/
def LogEntry.Sees : LogEntry → Prop
  | .evaluated _ ctx _ row _ => row.held = ctx.current
  | .fired ctx row => row.held ctx.moved = ctx.fromId ∧ ctx.fromId ≠ ctx.toId
  | _ => True

def Step.Sees : Step → Prop
  | .look ctx _ place => place = ctx.current
  | .fire ctx place => place ctx.moved = ctx.fromId ∧ ctx.fromId ≠ ctx.toId
  | .issue _ => True

/-- All the steps see the ticket. -/
abbrev AllSee (steps : List Step) : Prop := ∀ st ∈ steps, st.Sees

theorem allSee_append {steps steps' : List Step} :
    AllSee (steps ++ steps') ↔ AllSee steps ∧ AllSee steps' := List.forall_mem_append

theorem LogEntry.sees_iff (e : LogEntry) : e.Sees ↔ AllSee e.step.toList := by
  cases e with
  | statement n d s row error => cases error <;> simp [Sees, step, AllSee, Step.Sees]
  | _ => simp [Sees, step, AllSee, Step.Sees]

theorem forall_sees_iff (l : List LogEntry) :
    (∀ e ∈ l, e.Sees) ↔ AllSee (l.filterMap LogEntry.step) := by
  induction l with
  | nil => simp [AllSee]
  | cons e l ih =>
      rw [List.forall_mem_cons, ih, e.sees_iff]
      cases he : e.step with
      | none => rw [List.filterMap_cons_none he]; simp [AllSee]
      | some st => rw [List.filterMap_cons_some he]; simp [AllSee]

/-! ### Cascades that do not disturb each other -/

/-- What the rules one level deeper do. -/
abbrev aheadAt (env : Env) (maxDepth fuel depth : ℕ) : Ahead :=
  fun ctx => stepsAtDepth env maxDepth fuel ctx (depth + 1)

/-- Where the priority half of a rule leaves a ticket that stood where the context says. -/
def afterPriority (env : Env) (maxDepth fuel depth : ℕ) (ctx : TransitionContext)
    (map : List (String × Json)) : Place :=
  landing (moveSteps env (aheadAt env maxDepth fuel depth) ctx map .priority ctx.current) ctx.current

/-- Where a rule leaves it. -/
def afterRule (env : Env) (maxDepth fuel depth : ℕ) (ctx : TransitionContext)
    (map : List (String × Json)) : Place :=
  landing (movesSteps env (aheadAt env maxDepth fuel depth) ctx map ctx.current) ctx.current

/-- For each rule that is applied: the cascades it fires are undisturbed; if it moves the priority and
the status, then the cascade of the priority leaves the status alone, and puts the priority back if
there are rules that are compared with it; and if other rules follow it, then it leaves the ticket
where it found it. -/
def Undisturbed (env : Env) (maxDepth : ℕ) : ℕ → TransitionContext → ℕ → Prop
  | 0, _, _ => True
  | fuel + 1, ctx, depth =>
    ∀ before rule after map, env.rules ctx.moved.trigger = before ++ rule :: after →
      ctx.matches env.parseUuid rule.conditions = true → depth < maxDepth →
      rule.actions.asObject = some map →
      (∀ m id, target env map ctx m = some id →
        Undisturbed env maxDepth fuel (ctx.nested m id) (depth + 1)) ∧
      (target env map ctx .priority ≠ none → target env map ctx .status ≠ none →
        afterPriority env maxDepth fuel depth ctx map .status = ctx.current .status ∧
        (env.rules .statusChanged = [] ∨
          afterPriority env maxDepth fuel depth ctx map .priority = ctx.current .priority)) ∧
      (after ≠ [] → afterRule env maxDepth fuel depth ctx map = ctx.current)

/-- There are no rules for the transition, or the ticket stands where the transition says and no
cascade disturbs another one. -/
def Steady (env : Env) (maxDepth fuel : ℕ) (ctx : TransitionContext) (depth : ℕ) (place : Place) :
    Prop :=
  env.rules ctx.moved.trigger = [] ∨ (place = ctx.current ∧ Undisturbed env maxDepth fuel ctx depth)

/-! ### The plan sees the ticket -/

/-- Without rules nothing is disturbed. -/
theorem steady_iff {fuel : ℕ} {ctx : TransitionContext} {place : Place} :
    Steady env maxDepth fuel ctx depth place ↔
      (env.rules ctx.moved.trigger = [] ∨ place = ctx.current) ∧
        Undisturbed env maxDepth fuel ctx depth := by
  constructor
  · rintro (hnil | ⟨hp, hu⟩)
    · refine ⟨.inl hnil, ?_⟩
      cases fuel with
      | zero => trivial
      | succ fuel =>
          intro before rule after map hsplit
          exact absurd (hnil.symm.trans hsplit) (by simp)
    · exact ⟨.inr hp, hu⟩
  · rintro ⟨hnil | hp, hu⟩
    · exact .inl hnil
    · exact .inr ⟨hp, hu⟩

/-- Rules one after the other, each of which looks first. -/
theorem rulesSteps_see {ctx : TransitionContext} {steps : Rule → Place → List Step}
    (hlook : ∀ rule place, AllSee (steps rule place) → place = ctx.current) (rules : List Rule)
    (place : Place) :
    AllSee (rulesSteps steps rules place) ↔ rules = [] ∨ (place = ctx.current ∧
      ∀ before rule after, rules = before ++ rule :: after → AllSee (steps rule ctx.current) ∧
        (after ≠ [] → landing (steps rule ctx.current) ctx.current = ctx.current)) := by
  induction rules generalizing place with
  | nil => simp [rulesSteps, AllSee]
  | cons rule rules ih =>
      unfold rulesSteps
      rw [allSee_append, ih]
      constructor
      · rintro ⟨hrule, hrest⟩
        obtain rfl := hlook rule place hrule
        refine .inr ⟨rfl, fun before rule' after hsplit => ?_⟩
        cases before with
        | nil =>
            cases hsplit
            exact ⟨hrule, fun hne => (hrest.resolve_left hne).1⟩
        | cons r before =>
            cases hsplit
            exact (hrest.resolve_left (by simp)).2 before rule' after rfl
      · rintro (hnil | ⟨rfl, hall⟩)
        · cases hnil
        · refine ⟨(hall [] rule rules rfl).1, ?_⟩
          cases rules with
          | nil => exact .inl rfl
          | cons r rs =>
              refine .inr ⟨(hall [] rule (r :: rs) rfl).2 (by simp), fun before rule' after hsplit => ?_⟩
              exact hall (rule :: before) rule' after (by rw [hsplit]; rfl)

section Rule

variable {ahead : Ahead} {ctx : TransitionContext}

theorem target_ne {m : Moved} {id : Uuid} (h : target env map ctx m = some id) :
    ctx.current m ≠ id := by
  have hp := (Option.filter_eq_some_iff.mp h).2
  exact fun heq => by simp [heq] at hp

/-- A move sees the ticket if its column is what the context says and the rules ahead see it. -/
theorem moveSteps_see {m : Moved} {id : Uuid} (h : target env map ctx m = some id) (place : Place) :
    AllSee (moveSteps env ahead ctx map m place) ↔ place m = ctx.current m ∧
      AllSee (ahead (ctx.nested m id) (Function.update place m id)) := by
  unfold moveSteps
  rw [h]
  dsimp only
  rw [allSee_append]
  refine and_congr_left fun _ => ?_
  have hne := target_ne h
  constructor
  · intro hs
    exact (hs (.fire (ctx.nested m id) place) (by simp)).1
  · rintro hm st hst
    simp only [List.mem_cons, List.not_mem_nil, or_false] at hst
    rcases hst with rfl | rfl
    · trivial
    · exact ⟨hm, hne⟩

theorem moveSteps_none {m : Moved} (h : target env map ctx m = none) (place : Place) :
    moveSteps env ahead ctx map m place = [] := by
  unfold moveSteps
  rw [h]

/-- A place that a move of the status leads to. -/
theorem update_status_eq (ctx : TransitionContext) (place : Place) (id : Uuid) :
    Function.update place .status id = (ctx.nested .status id).current ↔
      place .priority = ctx.current .priority := by
  rw [ctx.current_nested]
  constructor
  · intro h
    have hp := congrFun h .priority
    rwa [Function.update_of_ne (by decide), Function.update_of_ne (by decide)] at hp
  · intro h
    funext m
    cases m with
    | status => rw [Function.update_self, Function.update_self]
    | priority => rwa [Function.update_of_ne (by decide), Function.update_of_ne (by decide)]

variable {fuel : ℕ}

theorem moveSteps_current_see
    (ih : ∀ ctx place, AllSee (ahead ctx place) ↔ Steady env maxDepth fuel ctx (depth + 1) place)
    (m : Moved) : AllSee (moveSteps env ahead ctx map m ctx.current) ↔
      ∀ id, target env map ctx m = some id →
        Undisturbed env maxDepth fuel (ctx.nested m id) (depth + 1) := by
  cases ht : target env map ctx m with
  | none =>
      rw [moveSteps_none ht]
      simp [AllSee]
  | some id =>
      rw [moveSteps_see ht, ih, ← ctx.current_nested, steady_iff]
      simp

/-- The moves of a rule that finds the ticket where the context says. -/
theorem movesSteps_see
    (ih : ∀ ctx place, AllSee (ahead ctx place) ↔ Steady env maxDepth fuel ctx (depth + 1) place) :
    AllSee (movesSteps env ahead ctx map ctx.current) ↔
      (∀ m id, target env map ctx m = some id →
        Undisturbed env maxDepth fuel (ctx.nested m id) (depth + 1)) ∧
      (target env map ctx .priority ≠ none → target env map ctx .status ≠ none →
        landing (moveSteps env ahead ctx map .priority ctx.current) ctx.current .status =
          ctx.current .status ∧
        (env.rules .statusChanged = [] ∨
          landing (moveSteps env ahead ctx map .priority ctx.current) ctx.current .priority =
            ctx.current .priority)) := by
  unfold movesSteps
  rw [allSee_append, moveSteps_current_see ih .priority]
  cases hp : target env map ctx .priority with
  | none =>
      rw [moveSteps_none hp]
      show _ ∧ AllSee (moveSteps env ahead ctx map .status ctx.current) ↔ _
      rw [moveSteps_current_see ih .status]
      constructor
      · rintro ⟨h₁, h₂⟩
        refine ⟨fun m id ht => ?_, fun hne => absurd rfl hne⟩
        cases m with
        | status => exact h₂ id ht
        | priority => exact h₁ id (hp.symm.trans ht)
      · exact fun h => ⟨nofun, h.1 .status⟩
  | some p =>
      generalize landing (moveSteps env ahead ctx map .priority ctx.current) ctx.current = place
      cases hs : target env map ctx .status with
      | none =>
          rw [moveSteps_none hs]
          constructor
          · rintro ⟨h₁, -⟩
            refine ⟨fun m id ht => ?_, fun _ hne => absurd rfl hne⟩
            cases m with
            | status => exact absurd (hs.symm.trans ht) (by simp)
            | priority => exact h₁ id (hp.symm.trans ht)
          · exact fun h => ⟨fun id ht => h.1 .priority id (hp.trans ht), by simp [AllSee]⟩
      | some s =>
          rw [moveSteps_see hs, ih, steady_iff, update_status_eq]
          constructor
          · rintro ⟨h₁, hplace, hback, h₂⟩
            refine ⟨fun m id ht => ?_, fun _ _ => ⟨hplace, hback⟩⟩
            cases m with
            | status => exact Option.some.inj (hs.symm.trans ht) ▸ h₂
            | priority => exact h₁ id (hp.symm.trans ht)
          · rintro ⟨h₁, h₂⟩
            obtain ⟨hplace, hback⟩ := h₂ (by simp) (by simp)
            exact ⟨fun id ht => h₁ .priority id (hp.trans ht), hplace, hback, h₁ .status s hs⟩

/-- The steps of a rule that are none of its moves see everything, and move nothing. -/
theorem plainSteps_see (env : Env) (map : List (String × Json)) : AllSee (plainSteps env map) := by
  have hid : ∀ key s, AllSee (idSteps env map key s) := by
    intro key s
    unfold idSteps
    split
    · nofun
    · split <;> simp [AllSee, Step.Sees]
  have htag : AllSee (tagSteps map) := by
    unfold tagSteps
    split <;> simp [AllSee, Step.Sees]
  have hnote : AllSee (noteSteps env map) := by
    unfold noteSteps
    split
    · nofun
    · cases env.creator <;> simp [AllSee, Step.Sees]
  unfold plainSteps
  exact allSee_append.mpr ⟨allSee_append.mpr ⟨allSee_append.mpr ⟨hid _ _, hid _ _⟩, htag⟩, hnote⟩

/-! ### Rules -/

theorem ruleSteps_look {rule : Rule} {place : Place}
    (h : AllSee (ruleSteps env ahead ctx maxDepth depth rule place)) : place = ctx.current :=
  h (.look ctx rule place) (List.mem_append_left _ (List.mem_singleton_self _))

theorem look_see (rule : Rule) : AllSee [Step.look ctx rule ctx.current] := by
  simp [AllSee, Step.Sees]

theorem rowStep_see (rule : Rule) (error : Option String) :
    AllSee [rowStep rule ctx.ticketId error] := by
  simp [AllSee, rowStep, Step.Sees]

/-- A rule that does not match, one at the cap, and one without actions. -/
theorem ruleSteps_quiet (ahead : Ahead) {rule : Rule}
    (h : ctx.matches env.parseUuid rule.conditions = true →
      depth < maxDepth → rule.actions.asObject = none) :
    AllSee (ruleSteps env ahead ctx maxDepth depth rule ctx.current) ∧
      ∀ place, landing (ruleSteps env ahead ctx maxDepth depth rule place) place = place := by
  cases hm : ctx.matches env.parseUuid rule.conditions with
  | false =>
      simp only [ruleSteps_unmatched hm]
      exact ⟨look_see rule, fun _ => rfl⟩
  | true =>
      rcases lt_or_ge depth maxDepth with hlt | hcap
      · simp only [ruleSteps_applied hm hlt, actionSteps, h hm hlt]
        exact ⟨allSee_append.mpr ⟨look_see rule, rowStep_see rule _⟩, fun _ => rfl⟩
      · simp only [ruleSteps_capped hm hcap]
        exact ⟨allSee_append.mpr ⟨look_see rule, rowStep_see rule _⟩, fun _ => rfl⟩

/-- A rule that is applied sees what its moves see, and leaves the ticket where they lead. -/
theorem ruleSteps_moves (ahead : Ahead) {rule : Rule}
    (hm : ctx.matches env.parseUuid rule.conditions = true) (hd : depth < maxDepth)
    (hmap : rule.actions.asObject = some map) :
    (AllSee (ruleSteps env ahead ctx maxDepth depth rule ctx.current) ↔
      AllSee (movesSteps env ahead ctx map ctx.current)) ∧
    ∀ place, landing (ruleSteps env ahead ctx maxDepth depth rule place) place =
      landing (movesSteps env ahead ctx map place) place := by
  simp only [ruleSteps_applied hm hd, actionSteps, hmap]
  constructor
  · rw [allSee_append, allSee_append, allSee_append]
    exact ⟨fun h => h.2.1.2, fun h =>
      ⟨look_see rule, ⟨plainSteps_see env map, h⟩, rowStep_see rule _⟩⟩
  · intro place
    rw [landing_append, landing_append, landing_append]
    show landing _ (landing (plainSteps env map) place) = _
    rw [landing_plainSteps]

end Rule

/-- The plan of a run sees the ticket exactly when the cascade is steady, by induction on the fuel. -/
theorem stepsAtDepth_see {fuel : ℕ} (hd : depth ≤ maxDepth) (hf : maxDepth < depth + fuel)
    (ctx : TransitionContext) (place : Place) :
    AllSee (stepsAtDepth env maxDepth fuel ctx depth place) ↔
      Steady env maxDepth fuel ctx depth place := by
  induction fuel generalizing depth ctx place with
  | zero => omega
  | succ fuel ih =>
      have hahead : depth < maxDepth → ∀ ctx place,
          AllSee (aheadAt env maxDepth fuel depth ctx place) ↔
            Steady env maxDepth fuel ctx (depth + 1) place :=
        fun hlt ctx place => ih hlt (by omega) ctx place
      have hread : AllSee [Step.issue (.selectRules ctx.moved.trigger)] := by
        simp [AllSee, Step.Sees]
      unfold stepsAtDepth Steady Undisturbed
      rw [allSee_append, rulesSteps_see (fun _ _ => ruleSteps_look), and_iff_right hread]
      refine or_congr_right (and_congr_right fun _ => ?_)
      constructor
      · intro h before rule after map hsplit hm hlt hmap
        obtain ⟨hsee, hland⟩ := ruleSteps_moves (aheadAt env maxDepth fuel depth) hm hlt hmap
        obtain ⟨hrule, hback⟩ := h before rule after hsplit
        obtain ⟨h₁, h₂⟩ := (movesSteps_see (hahead hlt)).mp (hsee.mp hrule)
        exact ⟨h₁, h₂, fun hne => (hland _).symm.trans (hback hne)⟩
      · intro h before rule after hsplit
        by_cases happ : ctx.matches env.parseUuid rule.conditions = true ∧ depth < maxDepth ∧
            rule.actions.asObject ≠ none
        · obtain ⟨hm, hlt, hne⟩ := happ
          obtain ⟨map, hmap⟩ := Option.ne_none_iff_exists'.mp hne
          obtain ⟨hsee, hland⟩ := ruleSteps_moves (aheadAt env maxDepth fuel depth) hm hlt hmap
          obtain ⟨h₁, h₂, hback⟩ := h before rule after map hsplit hm hlt hmap
          exact ⟨hsee.mpr ((movesSteps_see (hahead hlt)).mpr ⟨h₁, h₂⟩),
            fun hne => (hland _).trans (hback hne)⟩
        · obtain ⟨hsee, hland⟩ := ruleSteps_quiet (aheadAt env maxDepth fuel depth)
            fun hm hlt => not_not.mp fun hne => happ ⟨hm, hlt, hne⟩
          exact ⟨hsee, fun _ => hland _⟩

/-! ### The cascade of an event -/

/-- A run of the rules of a transition sees the ticket if the cascade is steady, and if none of its
statements is refused only then. -/
theorem cascade_sees_ticket (env : Env) (ticket : TicketRow) (notes : List (String × Uuid))
    (runs : List RunRow) (issued : ℕ) (ctx : TransitionContext) :
    ∃ r, runTransition env ctx (Tx.start ticket notes runs issued) = some r ∧
      (Steady env env.maxDepth (env.maxDepth + 1) ctx 0 ticket.held → ∀ e ∈ r.2.log, e.Sees) ∧
      (Clear env issued (TicketEvent.plan env ticket.held (.moved ctx)) → (∀ e ∈ r.2.log, e.Sees) →
        Steady env env.maxDepth (env.maxDepth + 1) ctx 0 ticket.held) := by
  obtain ⟨r, hr⟩ := runEvent_ends env (Tx.start ticket notes runs issued) (.moved ctx)
  obtain ⟨⟨l, hl, hplay⟩, -⟩ := runTransition_ran hr
  have hlog : r.2.log = l := hl.log
  have hplan : AllSee (TicketEvent.plan env ticket.held (.moved ctx)) ↔
      Steady env env.maxDepth (env.maxDepth + 1) ctx 0 ticket.held := by
    have hread : AllSee [Step.issue .readMaxDepth] := by simp [AllSee, Step.Sees]
    unfold TicketEvent.plan
    rw [allSee_append, and_iff_right hread]
    exact stepsAtDepth_see (Nat.zero_le _) (by omega) ctx ticket.held
  refine ⟨r, hr, ?_⟩
  rw [hlog, forall_sees_iff, ← hplan]
  cases hplay with
  | idle ha => cases ha
  | stopped _ _ hs hc =>
      exact ⟨fun h st hst => h st (hs.subset hst), fun hc' => absurd hc' hc⟩
  | done _ _ hs => exact ⟨fun h => hs ▸ h, fun _ h => hs ▸ h⟩

end Mokosh.Workflows

/-! ### A rule that archives what is closed -/

namespace Mokosh.Workflows.Archived

def parseUuid (s : String) : Except String Uuid :=
  if s = "10" then .ok 10 else if s = "11" then .ok 11 else .error "invalid character"

/-- The first rule moves a ticket that was closed (10) on to the archive (11), and the second one is
for tickets that were closed. -/
def env : Env where
  parseUuid := parseUuid
  rules
    | .statusChanged =>
      [⟨1, .object [("to_status_id", .array [.string "10"])], .object [("set_status_id", .string "11")]⟩,
        ⟨2, .object [("to_status_id", .array [.string "10"])], .object [("add_tag", .string "closed")]⟩]
    | _ => []
  ruleMaxDepth := none
  creator := none
  refuses _ _ := none

def ticket : TicketRow :=
  { id := 3, statusId := 10, priorityId := 5, assignedToId := none, teamId := none, tags := some [] }

def closed : TransitionContext where
  moved := .status
  ticketId := 3
  fromId := 4
  toId := 10
  otherId := 5
  queueId := 6
  companyId := 7
  typeId := none

/-- A match against another status than the row holds. -/
def outdated : LogEntry → Bool
  | .evaluated _ ctx _ row true => decide (row.statusId ≠ ctx.current .status)
  | _ => false

/-- The second rule matches the status 10 while the ticket is in the status 11, and tags it. -/
theorem cascade_is_stale : ∃ r, runTransition env closed (Tx.start ticket [] [] 0) = some r ∧
    ¬ (∀ e ∈ r.2.log, e.Sees) ∧ r.2.ticket.statusId = 11 ∧ r.2.ticket.tags = some ["closed"] := by
  obtain ⟨r, hr⟩ := runEvent_ends env (Tx.start ticket [] [] 0) (.moved closed)
  replace hr : runTransition env closed (Tx.start ticket [] [] 0) = some r := hr
  have h : (runTransition env closed (Tx.start ticket [] [] 0)).all fun r =>
      r.2.log.any outdated &&
      decide (r.2.ticket.statusId = 11 ∧ r.2.ticket.tags = some ["closed"]) := by
    decide +kernel
  rw [hr] at h
  simp only [Option.all_some, Bool.and_eq_true, List.any_eq_true, decide_eq_true_eq] at h
  obtain ⟨⟨e, he, hstale⟩, hstatus, htags⟩ := h
  refine ⟨r, hr, fun hall => ?_, hstatus, htags⟩
  have hs := hall e he
  cases e with
  | evaluated depth ctx rule row matched =>
      cases matched with
      | true => exact of_decide_eq_true hstale (congrFun hs .status)
      | false => cases hstale
  | _ => cases hstale

end Mokosh.Workflows.Archived
