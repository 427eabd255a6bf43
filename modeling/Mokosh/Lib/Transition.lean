import Mathlib.Algebra.BigOperators.Group.List.Basic
import Mathlib.Tactic.Common
import Mathlib.Data.List.Flatten
import Mathlib.Data.List.Perm.Basic

/-! # Runs of a transition system

A system is a partial step function `step : σ → ε → Option σ`; `none` says that the event is not
enabled in the state.  A run is a list of events (`run`).  A property of all reachable states is
proved from what one step preserves, once and for all runs: `run_invariant`.  When a step
preserves it only under a condition on the event and the state it finds, the runs in question
are those all of whose steps meet the condition (`StepsMeet`, `run_invariant_of_stepsMeet`).
`run_relation` is the same rule for a relation between an earlier and a later state.

The last section is about calls in flight: a list of program counters, of which one is replaced
(`set`) or removed (`eraseIdx`) at a time, and what each of them holds. -/

namespace Mokosh

variable {σ ε : Type} (step : σ → ε → Option σ)

/-- The state after a sequence of events, if every one of them is enabled. -/
def run : σ → List ε → Option σ
  | s, [] => some s
  | s, e :: es => (step s e).bind fun s' => run s' es

/-- Every step of the run from `s` meets `C` in the state it finds. -/
def StepsMeet (C : σ → ε → Prop) : σ → List ε → Prop
  | _, [] => True
  | s, e :: es => C s e ∧ ∀ s', step s e = some s' → StepsMeet C s' es

variable {step}

instance StepsMeet.decidable {C : σ → ε → Prop} [∀ s e, Decidable (C s e)] :
    ∀ s es, Decidable (StepsMeet step C s es)
  | _, [] => isTrue trivial
  | s, e :: es =>
    haveI : ∀ s', Decidable (StepsMeet step C s' es) := fun s' => StepsMeet.decidable s' es
    inferInstanceAs (Decidable (C s e ∧ ∀ s' ∈ step s e, StepsMeet step C s' es))

theorem stepsMeet_true (s : σ) (es : List ε) : StepsMeet step (fun _ _ => True) s es := by
  induction es generalizing s with
  | nil => trivial
  | cons e es ih => exact ⟨trivial, fun s' _ => ih s'⟩

/-- A condition on the events alone, joined with one on the steps. -/
theorem StepsMeet.and_events {C : σ → ε → Prop} {P : ε → Prop} {s : σ} {es : List ε}
    (hP : ∀ e ∈ es, P e) (hC : StepsMeet step C s es) :
    StepsMeet step (fun s e => P e ∧ C s e) s es := by
  induction es generalizing s with
  | nil => trivial
  | cons e es ih =>
      rw [List.forall_mem_cons] at hP
      exact ⟨⟨hP.1, hC.1⟩, fun s' h => ih hP.2 (hC.2 s' h)⟩

theorem StepsMeet.and {C D : σ → ε → Prop} {s : σ} {es : List ε} (hC : StepsMeet step C s es)
    (hD : StepsMeet step D s es) : StepsMeet step (fun s e => C s e ∧ D s e) s es := by
  induction es generalizing s with
  | nil => trivial
  | cons e es ih => exact ⟨⟨hC.1, hD.1⟩, fun s' h => ih (hC.2 s' h) (hD.2 s' h)⟩

@[simp] theorem run_nil (s : σ) : run step s [] = some s := rfl

theorem run_cons_eq_some {s t : σ} {e : ε} {es : List ε} :
    run step s (e :: es) = some t ↔ ∃ s', step s e = some s' ∧ run step s' es = some t := by
  simp [run, Option.bind_eq_some_iff]

/-- Two runs, the second from where the first ends. -/
theorem run_append {s : σ} (es es' : List ε) :
    run step s (es ++ es') = (run step s es).bind fun t => run step t es' := by
  induction es generalizing s with
  | nil => rfl
  | cons e es ih =>
      simp only [List.cons_append, run, Option.bind_assoc, ih]

theorem stepsMeet_append {C : σ → ε → Prop} {s : σ} {es es' : List ε} :
    StepsMeet step C s (es ++ es') ↔
      StepsMeet step C s es ∧ ∀ t, run step s es = some t → StepsMeet step C t es' := by
  induction es generalizing s with
  | nil => simp [StepsMeet]
  | cons e es ih =>
      simp only [List.cons_append, StepsMeet, ih, run_cons_eq_some, forall_and, and_assoc]
      constructor
      · rintro ⟨h1, h2, h3⟩
        exact ⟨h1, h2, fun t ⟨s', h4, h5⟩ => h3 s' h4 t h5⟩
      · rintro ⟨h1, h2, h3⟩
        exact ⟨h1, h2, fun s' h4 t h5 => h3 t ⟨s', h4, h5⟩⟩

/-- A run meets the condition if each of its steps does, where the run has come to by then. -/
theorem stepsMeet_of_forall {C : σ → ε → Prop} {s : σ} {es : List ε}
    (h : ∀ es₁ e es₂ t, es = es₁ ++ e :: es₂ → run step s es₁ = some t → C t e) :
    StepsMeet step C s es := by
  induction es generalizing s with
  | nil => trivial
  | cons e es ih =>
      refine ⟨h [] e es s rfl rfl, fun s' hs => ih fun es₁ e' es₂ t hes hr => ?_⟩
      exact h (e :: es₁) e' es₂ t (by rw [hes]; rfl) (run_cons_eq_some.mpr ⟨s', hs, hr⟩)

/-- A condition on the events alone. -/
theorem stepsMeet_of_events {P : ε → Prop} {s : σ} {es : List ε} (hP : ∀ e ∈ es, P e) :
    StepsMeet step (fun _ e => P e) s es := by
  refine stepsMeet_of_forall fun es₁ e es₂ t hes _ => hP e ?_
  rw [hes]
  exact List.mem_append_right _ List.mem_cons_self

/-- A run that evaluates to a state with a given decidable property. -/
theorem exists_run_of_any {s : σ} {es : List ε} {p : σ → Bool}
    (h : (run step s es).any p = true) : ∃ t, run step s es = some t ∧ p t = true := by
  simpa [Option.any_eq_true] using h

/-- A property that every step meeting `C` preserves holds after every run whose steps all
meet `C`. -/
theorem run_invariant_of_stepsMeet (Inv : σ → Prop) {C : σ → ε → Prop}
    (hstep : ∀ s e s', Inv s → C s e → step s e = some s' → Inv s') {s t : σ} {es : List ε}
    (hs : Inv s) (hC : StepsMeet step C s es) (hr : run step s es = some t) : Inv t := by
  induction es generalizing s with
  | nil =>
      rw [run_nil, Option.some.injEq] at hr
      exact hr ▸ hs
  | cons e es ih =>
      obtain ⟨s', h1, h2⟩ := run_cons_eq_some.mp hr
      exact ih (hstep s e s' hs hC.1 h1) (hC.2 s' h1) h2

/-- A property that a step keeps if and only if it meets `C` holds all along those runs whose steps all do. -/
theorem run_invariant_iff {P Q : σ → Prop} {C : σ → ε → Prop}
    (hstep : ∀ s e s', P s → Q s → step s e = some s' → P s' ∧ (Q s' ↔ C s e)) {s t : σ} {es : List ε} (hp : P s)
    (hq : Q s) (hr : run step s es = some t) :
    (∀ before, before <+: es → ∀ u, run step s before = some u → Q u) ↔ StepsMeet step C s es := by
  induction es generalizing s with
  | nil =>
      refine iff_of_true (fun before hbefore u hu => ?_) trivial
      obtain rfl := List.prefix_nil.mp hbefore
      obtain rfl := Option.some.inj hu
      exact hq
  | cons e es ih =>
      obtain ⟨s', hs', hrest⟩ := run_cons_eq_some.mp hr
      obtain ⟨hp', hiff⟩ := hstep s e s' hp hq hs'
      constructor
      · intro h
        have hq' : Q s' := h [e] (List.prefix_append [e] es) s' (run_cons_eq_some.mpr ⟨s', hs', rfl⟩)
        refine ⟨hiff.mp hq', fun s'' hs'' => ?_⟩
        obtain rfl := Option.some.inj (hs'.symm.trans hs'')
        exact (ih hp' hq' hrest).mp fun before hbefore u hu =>
          h (e :: before) (List.cons_prefix_cons.mpr ⟨rfl, hbefore⟩) u (run_cons_eq_some.mpr ⟨s', hs', hu⟩)
      · rintro ⟨hc, hmeet⟩ before hbefore u hu
        cases before with
        | nil =>
            obtain rfl := Option.some.inj hu
            exact hq
        | cons e' before =>
            obtain ⟨rfl, hprefix⟩ := List.cons_prefix_cons.mp hbefore
            obtain ⟨s'', hs'', hu⟩ := run_cons_eq_some.mp hu
            obtain rfl := Option.some.inj (hs'.symm.trans hs'')
            exact (ih hp' (hiff.mpr hc) hrest).mpr (hmeet s' hs') before hprefix u hu

/-- A property that every step preserves holds after every run. -/
theorem run_invariant (Inv : σ → Prop)
    (hstep : ∀ s e s', Inv s → step s e = some s' → Inv s') {s t : σ} {es : List ε}
    (hs : Inv s) (hr : run step s es = some t) : Inv t := by
  induction es generalizing s with
  | nil =>
      rw [run_nil, Option.some.injEq] at hr
      exact hr ▸ hs
  | cons e es ih =>
      obtain ⟨s', h1, h2⟩ := run_cons_eq_some.mp hr
      exact ih (hstep s e s' hs h1) h2

/-- A reflexive and transitive relation that every step from a state satisfying the invariant
respects relates the two ends of every run. -/
theorem run_relation (Inv : σ → Prop) (R : σ → σ → Prop) (hrefl : ∀ s, R s s)
    (htrans : ∀ s t u, R s t → R t u → R s u)
    (hstep : ∀ s e s', Inv s → step s e = some s' → Inv s' ∧ R s s') {s t : σ} {es : List ε}
    (hs : Inv s) (hr : run step s es = some t) : R s t := by
  induction es generalizing s with
  | nil =>
      rw [run_nil, Option.some.injEq] at hr
      exact hr ▸ hrefl s
  | cons e es ih =>
      obtain ⟨s', h1, h2⟩ := run_cons_eq_some.mp hr
      obtain ⟨h3, h4⟩ := hstep s e s' hs h1
      exact htrans _ _ _ h4 (ih h3 h2)

/-! ### Calls in flight -/

section Calls

variable {α β : Type} {calls : List α} {i : ℕ} {c : α}

/-- Call `i` stands before the others. -/
theorem calls_perm (h : calls[i]? = some c) : calls.Perm (c :: calls.eraseIdx i) := by
  obtain ⟨hi, rfl⟩ := List.getElem?_eq_some_iff.mp h
  exact (List.getElem_cons_eraseIdx_perm hi).symm

theorem calls_set_perm (h : calls[i]? = some c) (d : α) :
    (calls.set i d).Perm (d :: calls.eraseIdx i) :=
  List.set_perm_cons_eraseIdx (List.getElem?_eq_some_iff.mp h).1 d

/-- After call `i` has gone on at `d`, a call is `d` or one of the others. -/
theorem mem_calls_set (h : calls[i]? = some c) {d x : α} :
    x ∈ calls.set i d ↔ x = d ∨ x ∈ calls.eraseIdx i := by
  rw [(calls_set_perm h d).mem_iff, List.mem_cons]

section Sum

variable {M : Type} [AddCommMonoid M]

/-- What the calls weigh, call `i` first. -/
theorem sum_calls (h : calls[i]? = some c) (f : α → M) :
    (calls.map f).sum = f c + ((calls.eraseIdx i).map f).sum := by
  rw [((calls_perm h).map f).sum_eq, List.map_cons, List.sum_cons]

theorem sum_calls_set (h : calls[i]? = some c) (d : α) (f : α → M) :
    ((calls.set i d).map f).sum = f d + ((calls.eraseIdx i).map f).sum := by
  rw [((calls_set_perm h d).map f).sum_eq, List.map_cons, List.sum_cons]

end Sum

theorem nodup_map_of_subperm {f : α → β} {l l' : List α} (hn : (l'.map f).Nodup)
    (h : l.Subperm l') : (l.map f).Nodup := by
  obtain ⟨k, hp, hs⟩ := h
  exact (hp.map f).nodup_iff.mp (hn.sublist (hs.map f))

variable {holds : α → List β}

/-- What the calls hold, call `i` first. -/
theorem holds_perm (h : calls[i]? = some c) (holds : α → List β) :
    (calls.flatMap holds).Perm (holds c ++ (calls.eraseIdx i).flatMap holds) := by
  simpa using (calls_perm h).flatMap_right holds

theorem holds_set_perm (h : calls[i]? = some c) (d : α) (holds : α → List β) :
    ((calls.set i d).flatMap holds).Perm (holds d ++ (calls.eraseIdx i).flatMap holds) := by
  simpa using (calls_set_perm h d).flatMap_right holds

/-- A call that goes on with what it holds. -/
theorem holds_set_perm_self (h : calls[i]? = some c) (d : α) {holds : α → List β}
    (hd : holds d = holds c) : ((calls.set i d).flatMap holds).Perm (calls.flatMap holds) := by
  refine (holds_set_perm h d holds).trans ?_
  rw [hd]
  exact (holds_perm h holds).symm

theorem holds_erase_sublist (calls : List α) (i : ℕ) (holds : α → List β) :
    ((calls.eraseIdx i).flatMap holds).Sublist (calls.flatMap holds) :=
  (List.eraseIdx_sublist calls i).flatMap holds

theorem nodup_holds_erase (hn : (calls.flatMap holds).Nodup) (i : ℕ) :
    ((calls.eraseIdx i).flatMap holds).Nodup :=
  hn.sublist (holds_erase_sublist calls i holds)

/-- No two calls hold the same thing after call `i` has gone on at `d`, if nobody else holds what
`d` does. -/
theorem nodup_holds_set (h : calls[i]? = some c) (hn : (calls.flatMap holds).Nodup) {d : α}
    (hd : (holds d).Nodup) (hne : ∀ b ∈ holds d, ∀ x ∈ calls.eraseIdx i, b ∉ holds x) :
    ((calls.set i d).flatMap holds).Nodup := by
  rw [(holds_set_perm h d holds).nodup_iff, List.nodup_append]
  refine ⟨hd, nodup_holds_erase hn i, ?_⟩
  rintro b hb _ hb' rfl
  obtain ⟨x, hx, hxb⟩ := List.mem_flatMap.mp hb'
  exact hne b hb x hx hxb

/-- What call `i` holds no other call holds. -/
theorem not_mem_holds (h : calls[i]? = some c) (hn : (calls.flatMap holds).Nodup) {b : β}
    (hb : b ∈ holds c) {x : α} (hx : x ∈ calls.eraseIdx i) : b ∉ holds x := by
  rw [(holds_perm h holds).nodup_iff, List.nodup_append] at hn
  exact fun hxb => hn.2.2 b hb b (List.mem_flatMap.mpr ⟨x, hx, hxb⟩) rfl

end Calls

end Mokosh
