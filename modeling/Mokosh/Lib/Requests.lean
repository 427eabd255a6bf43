import Mathlib.Algebra.Order.BigOperators.Group.List
import Mathlib.Algebra.GroupWithZero.Nat
import Mathlib.Algebra.Order.Group.Nat
import Mokosh.Lib.Transition

/-! # Requests in flight

A server works on any number of requests at once, one statement of one of them at a time.

* `Handlers` says where a request starts and what its next statement does: to what is stored, and where
  the request stands after it (nowhere, if it is done).  The statement finds the time, an answer `ι` from
  outside, and what is stored.  It waits until nobody else holds the locks that it takes; a request keeps
  the locks of the point that it stands at.
* A request can crash wherever it stands.
* `Rule`: an invariant `G` of what is stored and one `L` of every request for the point it stands at, such
  that a statement keeps both its own and the others'.  `Rule.run` is the rule for whole runs, and
  `Rule.relation` relates what is stored before a run to what is stored after it, `Rule.debt` is for what is wrong
  only until a request in flight has come to its end, `Rule.tickets` for what is given out once, and
  `Rule.stepsMeet_pairwise` for what no two requests do together. -/

namespace Mokosh.Requests

variable {ω ι σ κ β : Type}

/-- The clock, what is stored, and where each request in flight stands. -/
structure World (σ κ : Type) where
  now : ℕ
  store : σ
  requests : List κ

inductive Event (ω ι : Type) where
  | wait (d : ℕ)
  | arrive (op : ω)
  /-- The next statement of request `i`, with what it is answered. -/
  | step (i : ℕ) (answer : ι)
  | crash (i : ℕ)
deriving DecidableEq

structure Handlers (ω ι σ κ β : Type) where
  start : ω → κ
  advance : ℕ → ι → σ → κ → Option (σ × Option κ)
  /-- The locks that the next statement takes. -/
  takes : σ → κ → List β
  holds : κ → List β

/-- Requests whose statements are transactions of their own. -/
def Handlers.lockless (start : ω → κ) (advance : ℕ → ι → σ → κ → Option (σ × Option κ)) :
    Handlers ω ι σ κ Empty :=
  { start := start, advance := advance, takes := fun _ _ => [], holds := fun _ => [] }

namespace World

def start (now : ℕ) (store : σ) : World σ κ := { now := now, store := store, requests := [] }

/-- Request `i` has left `s` behind, and stands at `q`. -/
def resume (w : World σ κ) (i : ℕ) (s : σ) : Option κ → World σ κ
  | some p => { w with store := s, requests := w.requests.set i p }
  | none => { w with store := s, requests := w.requests.eraseIdx i }

@[simp] theorem resume_now (w : World σ κ) (i : ℕ) (s : σ) (q : Option κ) :
    (w.resume i s q).now = w.now := by
  cases q <;> rfl

@[simp] theorem resume_store (w : World σ κ) (i : ℕ) (s : σ) (q : Option κ) :
    (w.resume i s q).store = s := by
  cases q <;> rfl

/-- A request stands where the step has led it, or it is one of the others. -/
theorem mem_resume_iff {w : World σ κ} {i : ℕ} {p r : κ} (hi : w.requests[i]? = some p) {s : σ} {q : Option κ} :
    r ∈ (w.resume i s q).requests ↔ r ∈ q ∨ r ∈ w.requests.eraseIdx i := by
  cases q with
  | none => exact ⟨.inr, fun h => h.elim (fun h => nomatch h) id⟩
  | some p' =>
      rw [Option.mem_some, eq_comm]
      exact mem_calls_set hi

theorem mem_resume {w : World σ κ} {i : ℕ} {s : σ} {p r : κ} {q : Option κ}
    (hi : w.requests[i]? = some p) (hr : r ∈ (w.resume i s q).requests) :
    r ∈ q ∨ r ∈ w.requests.eraseIdx i :=
  (mem_resume_iff hi).mp hr

/-- A request other than the one that takes the step is still there. -/
theorem mem_eraseIdx_of_ne {w : World σ κ} {i : ℕ} {p r : κ} (hi : w.requests[i]? = some p) (hr : r ∈ w.requests)
    (hne : r ≠ p) : r ∈ w.requests.eraseIdx i :=
  (List.mem_cons.mp ((calls_perm hi).subset hr)).resolve_left hne

end World

variable (h : Handlers ω ι σ κ β)

/-! ### Locks -/

/-- Two requests hold no lock together. -/
def Handlers.Apart (p p' : κ) : Prop := ∀ b ∈ h.holds p, b ∉ h.holds p'

variable {h} in
theorem Handlers.Apart.symm {p p' : κ} (hp : h.Apart p p') : h.Apart p' p :=
  fun b hb hb' => hp b hb' hb

/-- `G` holds of what is stored, `L` of every request where it stands, and no lock is held twice. -/
structure Keeps (G : ℕ → σ → Prop) (L : ℕ → σ → κ → Prop) (w : World σ κ) : Prop where
  store : G w.now w.store
  requests : ∀ p ∈ w.requests, L w.now w.store p
  apart : w.requests.Pairwise h.Apart

variable {G : ℕ → σ → Prop} {L : ℕ → σ → κ → Prop} {w w' : World σ κ}

variable {h} in
theorem keeps_start {now : ℕ} {s : σ} (hs : G now s) : Keeps h G L (World.start now s) where
  store := hs
  requests _ hp := absurd hp List.not_mem_nil
  apart := List.Pairwise.nil

/-- How request `i` stands to the others. -/
theorem World.rel_others {X : κ → κ → Prop} (hsymm : ∀ {p p'}, X p p' → X p' p) (hX : w.requests.Pairwise X) {i : ℕ}
    {p : κ} (hi : w.requests[i]? = some p) : ∀ p' ∈ w.requests.eraseIdx i, X p p' :=
  (List.pairwise_cons.mp (((calls_perm hi).pairwise_iff hsymm).mp hX)).1

variable {h} in
/-- What request `i` holds, no other request holds. -/
theorem Keeps.apart_others (hw : Keeps h G L w) {i : ℕ} {p : κ} (hi : w.requests[i]? = some p) :
    ∀ p' ∈ w.requests.eraseIdx i, h.Apart p p' :=
  World.rel_others Handlers.Apart.symm hw.apart hi

/-! ### Steps -/

variable [DecidableEq β]

/-- Nobody among `others` holds the lock `b`. -/
def Handlers.free (others : List κ) (b : β) : Bool := others.all fun p => b ∉ h.holds p

def step (w : World σ κ) : Event ω ι → Option (World σ κ)
  | .wait d => some { w with now := w.now + d }
  | .arrive op => some { w with requests := w.requests ++ [h.start op] }
  | .step i x => w.requests[i]?.bind fun p =>
    if (h.takes w.store p).all (h.free (w.requests.eraseIdx i)) then
      (h.advance w.now x w.store p).map fun y => w.resume i y.1 y.2
    else none
  | .crash i =>
    if i < w.requests.length then some { w with requests := w.requests.eraseIdx i } else none

/-- What a step can do. -/
inductive Stepped (w : World σ κ) : Event ω ι → World σ κ → Prop
  | waited {d : ℕ} : Stepped w (.wait d) { w with now := w.now + d }
  | arrived {op : ω} : Stepped w (.arrive op) { w with requests := w.requests ++ [h.start op] }
  | crashed {i : ℕ} : Stepped w (.crash i) { w with requests := w.requests.eraseIdx i }
  | advanced {i : ℕ} {x : ι} {p : κ} {s : σ} {q : Option κ} (hi : w.requests[i]? = some p)
      (hfree : ∀ p' ∈ w.requests.eraseIdx i, ∀ b ∈ h.takes w.store p, b ∉ h.holds p')
      (ha : h.advance w.now x w.store p = some (s, q)) : Stepped w (.step i x) (w.resume i s q)

variable {h}

theorem step_cases {w w' : World σ κ} {e : Event ω ι} (hs : step h w e = some w') :
    Stepped h w e w' := by
  cases e with
  | wait d =>
      cases hs
      exact .waited
  | arrive op =>
      cases hs
      exact .arrived
  | crash i =>
      obtain ⟨-, hs⟩ := Option.ite_none_right_eq_some.mp hs
      cases hs
      exact .crashed
  | step i x =>
      obtain ⟨p, hi, hs⟩ := Option.bind_eq_some_iff.mp hs
      obtain ⟨hfree, hs⟩ := Option.ite_none_right_eq_some.mp hs
      obtain ⟨⟨s, q⟩, ha, rfl⟩ := Option.map_eq_some_iff.mp hs
      refine .advanced hi (fun p' hp' b hb => ?_) ha
      exact of_decide_eq_true (List.all_eq_true.mp (List.all_eq_true.mp hfree b hb) p' hp')

/-! ### The rule -/

variable {C : World σ κ → Event ω ι → Prop}

variable (h G L C) in
/-- The obligations of an invariant, for runs whose steps meet `C`. -/
structure Rule : Prop where
  /-- A statement leaves its request with no other locks than those it had and those it took. -/
  locks : ∀ {n x s p s' q}, h.advance n x s p = some (s', q) →
    ∀ p' ∈ q, ∀ b ∈ h.holds p', b ∈ h.takes s p ∨ b ∈ h.holds p
  unlocked : ∀ op, h.holds (h.start op) = []
  wait : ∀ {n s}, G n s → ∀ d, G (n + d) s ∧ ∀ p, L n s p → L (n + d) s p
  start : ∀ {w op}, Keeps h G L w → C w (.arrive op) → L w.now w.store (h.start op)
  step : ∀ {w i x p s q}, Keeps h G L w → C w (.step i x) → w.requests[i]? = some p →
    h.advance w.now x w.store p = some (s, q) →
    G w.now s ∧ (∀ p' ∈ q, L w.now s p') ∧
      ∀ p' ∈ w.requests.eraseIdx i, h.Apart p p' → L w.now w.store p' → L w.now s p'

namespace Rule

omit [DecidableEq β] in
theorem apart_resume (r : Rule h G L C) (hw : Keeps h G L w) {i : ℕ} {x : ι} {p : κ} {s : σ}
    {q : Option κ} (hi : w.requests[i]? = some p)
    (hfree : ∀ p' ∈ w.requests.eraseIdx i, ∀ b ∈ h.takes w.store p, b ∉ h.holds p')
    (ha : h.advance w.now x w.store p = some (s, q)) :
    (w.resume i s q).requests.Pairwise h.Apart := by
  have herase := hw.apart.sublist (List.eraseIdx_sublist w.requests i)
  cases q with
  | none => exact herase
  | some p' =>
      refine ((calls_set_perm hi p').pairwise_iff fun hp => Handlers.Apart.symm hp).mpr ?_
      refine List.pairwise_cons.mpr ⟨fun y hy b hb => ?_, herase⟩
      obtain hb | hb := r.locks ha p' rfl b hb
      · exact hfree y hy b hb
      · exact hw.apart_others hi y hy b hb

theorem keeps (r : Rule h G L C) {e : Event ω ι} (hw : Keeps h G L w) (hC : C w e)
    (hs : Requests.step h w e = some w') : Keeps h G L w' := by
  replace hs := step_cases hs
  cases hs with
  | waited =>
      refine ⟨(r.wait hw.store _).1, fun p hp => ?_, hw.apart⟩
      exact (r.wait hw.store _).2 p (hw.requests p hp)
  | @arrived op =>
      refine ⟨hw.store, fun p hp => ?_, ?_⟩
      · obtain hp | hp := List.mem_append.mp hp
        · exact hw.requests p hp
        · rw [List.mem_singleton.mp hp]
          exact r.start (w := w) hw hC
      · refine List.pairwise_append.mpr ⟨hw.apart, List.pairwise_singleton _ _, ?_⟩
        intro p _ p' hp' b _
        rw [List.mem_singleton.mp hp', r.unlocked]
        exact List.not_mem_nil
  | @crashed i =>
      refine ⟨hw.store, fun p hp => hw.requests p (List.mem_of_mem_eraseIdx hp), ?_⟩
      exact hw.apart.sublist (List.eraseIdx_sublist w.requests i)
  | @advanced i x p s q hi hfree ha =>
      obtain ⟨hG, hq, hothers⟩ := r.step hw hC hi ha
      refine ⟨by simpa using hG, fun p' hp' => ?_, r.apart_resume hw hi hfree ha⟩
      rw [World.resume_now, World.resume_store]
      obtain hp' | hp' := World.mem_resume hi hp'
      · exact hq p' hp'
      · exact hothers p' hp' (hw.apart_others hi p' hp')
          (hw.requests p' (List.mem_of_mem_eraseIdx hp'))

theorem run (r : Rule h G L C) {es : List (Event ω ι)} (hw : Keeps h G L w)
    (hC : StepsMeet (Requests.step h) C w es) (hr : Mokosh.run (Requests.step h) w es = some w') :
    Keeps h G L w' :=
  run_invariant_of_stepsMeet (Keeps h G L) (fun _ _ _ hw hC hs => r.keeps hw hC hs) hw hC hr

/-- What every statement does to what is stored, a whole run does. -/
theorem relation (r : Rule h G L C) {R : σ → σ → Prop} (hrefl : ∀ s, R s s)
    (htrans : ∀ s t u, R s t → R t u → R s u)
    (hstep : ∀ {w i x p s q}, Keeps h G L w → C w (.step i x) → w.requests[i]? = some p →
      h.advance w.now x w.store p = some (s, q) → R w.store s)
    {es : List (Event ω ι)} (hw : Keeps h G L w) (hC : StepsMeet (Requests.step h) C w es)
    (hr : Mokosh.run (Requests.step h) w es = some w') : R w.store w'.store := by
  induction es generalizing w with
  | nil =>
      cases hr
      exact hrefl _
  | cons e es ih =>
      obtain ⟨w₁, hs, hr⟩ := run_cons_eq_some.mp hr
      refine htrans _ _ _ ?_ (ih (r.keeps hw hC.1 hs) (hC.2 w₁ hs) hr)
      have hs' := step_cases hs
      cases hs' with
      | waited => exact hrefl _
      | arrived => exact hrefl _
      | crashed => exact hrefl _
      | @advanced i x p s q hi hfree ha =>
          rw [World.resume_store]
          exact hstep hw hC.1 hi ha

/-- What a statement leaves open, its own request or another one in flight will settle: `D` says that it is
open, `P` which requests settle it. -/
theorem debt (r : Rule h G L C) {D : σ → Prop} {P : κ → Prop}
    (hcrash : ∀ {w i p}, C w (.crash i) → w.requests[i]? = some p → ¬P p)
    (hstep : ∀ {w i x p s q}, Keeps h G L w → C w (.step i x) → w.requests[i]? = some p →
      h.advance w.now x w.store p = some (s, q) → D s →
        (∃ p' ∈ q, P p') ∨ (D w.store ∧ ¬P p) ∨ ∃ p' ∈ w.requests.eraseIdx i, P p')
    {es : List (Event ω ι)} (hw : Keeps h G L w) (hC : StepsMeet (Requests.step h) C w es)
    (hr : Mokosh.run (Requests.step h) w es = some w') (hD : D w.store → ∃ p ∈ w.requests, P p) :
    D w'.store → ∃ p ∈ w'.requests, P p := by
  refine (run_invariant_of_stepsMeet (fun w => Keeps h G L w ∧ (D w.store → ∃ p ∈ w.requests, P p)) ?_
    ⟨hw, hD⟩ hC hr).2
  intro w e w' hinv hC hs
  refine ⟨r.keeps hinv.1 hC hs, ?_⟩
  -- A request that settles stands, unless it is the one that takes the step.
  have hother : ∀ {i p}, w.requests[i]? = some p → ¬P p → (∃ p ∈ w.requests, P p) →
      ∃ p ∈ w.requests.eraseIdx i, P p := by
    rintro i p hi hp ⟨p', hp', hP⟩
    exact ⟨p', World.mem_eraseIdx_of_ne hi hp' fun h => hp (h ▸ hP), hP⟩
  replace hs := step_cases hs
  cases hs with
  | waited => exact hinv.2
  | arrived =>
      intro hD
      obtain ⟨p, hp, hP⟩ := hinv.2 hD
      exact ⟨p, List.mem_append_left _ hp, hP⟩
  | @crashed i =>
      intro hD
      cases hi : w.requests[i]? with
      | none =>
          dsimp only
          rw [List.eraseIdx_of_length_le (List.getElem?_eq_none_iff.mp hi)]
          exact hinv.2 hD
      | some p => exact hother hi (hcrash hC hi) (hinv.2 hD)
  | @advanced i x p s q hi hfree ha =>
      rw [World.resume_store]
      intro hD
      have hstays : (∃ p' ∈ w.requests.eraseIdx i, P p') → ∃ p' ∈ (w.resume i s q).requests, P p' :=
        fun ⟨p', hp', hP⟩ => ⟨p', (World.mem_resume_iff hi).mpr (.inr hp'), hP⟩
      obtain ⟨p', hq, hP⟩ | ⟨hD, hp⟩ | hothers := hstep hinv.1 hC hi ha hD
      · exact ⟨p', (World.mem_resume_iff hi).mpr (.inl hq), hP⟩
      · exact hstays (hother hi hp (hinv.2 hD))
      · exact hstays hothers

/-- `X` says how two requests may stand to each other.  If a statement keeps its request so with every other one, then
each step of a run finds all of them so. -/
theorem stepsMeet_pairwise {X : κ → κ → Prop} (hsymm : ∀ {p p'}, X p p' → X p' p)
    (r : Rule h G L fun w e => C w e ∧ w.requests.Pairwise X)
    (hstart : ∀ {w op}, C w (.arrive op) → ∀ p ∈ w.requests, X p (h.start op))
    (hstep : ∀ {w i x p s q}, Keeps h G L w → C w (.step i x) → w.requests[i]? = some p →
      h.advance w.now x w.store p = some (s, q) → ∀ p' ∈ w.requests.eraseIdx i, X p p' → ∀ p'' ∈ q, X p'' p')
    {es : List (Event ω ι)} (hw : Keeps h G L w) (hX : w.requests.Pairwise X)
    (hC : StepsMeet (Requests.step h) C w es) :
    StepsMeet (Requests.step h) (fun w e => C w e ∧ w.requests.Pairwise X) w es := by
  induction es generalizing w with
  | nil => trivial
  | cons e es ih =>
      refine ⟨⟨hC.1, hX⟩, fun w₁ hs => ih (r.keeps hw ⟨hC.1, hX⟩ hs) ?_ (hC.2 w₁ hs)⟩
      have hmeets := hC.1
      replace hs := step_cases hs
      cases hs with
      | waited => exact hX
      | arrived =>
          refine List.pairwise_append.mpr ⟨hX, List.pairwise_singleton _ _, fun p hp p' hp' => ?_⟩
          rw [List.mem_singleton.mp hp']
          exact hstart hmeets p hp
      | @crashed i => exact hX.sublist (List.eraseIdx_sublist w.requests i)
      | @advanced i x p s q hi _ ha =>
          have herase := hX.sublist (List.eraseIdx_sublist w.requests i)
          cases q with
          | none => exact herase
          | some p'' =>
              refine ((calls_set_perm hi p'').pairwise_iff hsymm).mpr (List.pairwise_cons.mpr ⟨?_, herase⟩)
              intro p' hp'
              exact hstep hw hmeets hi ha p' hp' (World.rel_others hsymm hX hi p' hp') p'' rfl

end Rule

/-! ### Budgets -/

omit [DecidableEq β] in
theorem sum_resume {M : Type} [AddCommMonoid M] {i : ℕ} {p : κ} (hi : w.requests[i]? = some p) (s : σ)
    (q : Option κ) (f : κ → M) : ((w.resume i s q).requests.map f).sum =
      (q.map f).getD 0 + ((w.requests.eraseIdx i).map f).sum := by
  cases q with
  | none => exact (zero_add _).symm
  | some p' => exact sum_calls_set hi p' f

omit [DecidableEq β] in
/-- What was spent, and what the requests may still spend (`f`), stays within the budget `b` if a statement raises the
budget by what it adds. -/
theorem stepped_budget {a b : σ → ℕ} {f : κ → ℕ} {e : Event ω ι} (hstart : ∀ op, f (h.start op) = 0)
    (hw : a w.store + (w.requests.map f).sum ≤ b w.store) (hs : Stepped h w e w')
    (hstep : ∀ {i x p s q}, e = .step i x → w.requests[i]? = some p → h.advance w.now x w.store p = some (s, q) →
      a s + (q.map f).getD 0 + b w.store ≤ a w.store + f p + b s) :
    a w'.store + (w'.requests.map f).sum ≤ b w'.store := by
  cases hs with
  | waited => exact hw
  | @arrived op =>
      have hsum : ((w.requests ++ [h.start op]).map f).sum = (w.requests.map f).sum := by
        simp [hstart]
      dsimp only
      rwa [hsum]
  | @crashed i =>
      have hsum : ((w.requests.eraseIdx i).map f).sum ≤ (w.requests.map f).sum :=
        ((List.eraseIdx_sublist w.requests i).map f).sum_le_sum fun _ _ => Nat.zero_le _
      dsimp only
      omega
  | @advanced i x p s q hi hfree ha =>
      have hbefore := sum_calls hi f
      have hspent := hstep rfl hi ha
      rw [sum_resume hi, World.resume_store]
      omega

theorem run_budget {a b : σ → ℕ} {f : κ → ℕ} (hstart : ∀ op, f (h.start op) = 0)
    (hstep : ∀ {n x s p s' q}, h.advance n x s p = some (s', q) →
      a s' + (q.map f).getD 0 + b s ≤ a s + f p + b s')
    {es : List (Event ω ι)} (hw : a w.store + (w.requests.map f).sum ≤ b w.store)
    (hr : Mokosh.run (Requests.step h) w es = some w') :
    a w'.store + (w'.requests.map f).sum ≤ b w'.store :=
  run_invariant (fun w => a w.store + (w.requests.map f).sum ≤ b w.store)
    (fun _ _ _ hw hs => stepped_budget hstart hw (step_cases hs) fun _ _ ha => hstep ha) hw hr

/-- The same, where the statements rely on an invariant. -/
theorem Rule.budget (r : Rule h G L C) {a b : σ → ℕ} {f : κ → ℕ} (hstart : ∀ op, f (h.start op) = 0)
    (hstep : ∀ {w i x p s q}, Keeps h G L w → C w (.step i x) → w.requests[i]? = some p →
      h.advance w.now x w.store p = some (s, q) → a s + (q.map f).getD 0 + b w.store ≤ a w.store + f p + b s)
    {es : List (Event ω ι)} (hw : Keeps h G L w) (hC : StepsMeet (Requests.step h) C w es)
    (hr : Mokosh.run (Requests.step h) w es = some w')
    (hb : a w.store + (w.requests.map f).sum ≤ b w.store) :
    a w'.store + (w'.requests.map f).sum ≤ b w'.store := by
  refine (run_invariant_of_stepsMeet (fun w => Keeps h G L w ∧ a w.store + (w.requests.map f).sum ≤ b w.store) ?_
    ⟨hw, hb⟩ hC hr).2
  intro w e w' hinv hC hs
  refine ⟨r.keeps hinv.1 hC hs, stepped_budget hstart hinv.2 (step_cases hs) fun he hi ha => ?_⟩
  subst he
  exact hstep hinv.1 hC hi ha

/-! ### Tickets -/

omit [DecidableEq β] in
theorem perm_append_right_comm {γ : Type} (l₁ l₂ l₃ : List γ) : (l₁ ++ l₂ ++ l₃).Perm (l₁ ++ l₃ ++ l₂) := by
  rw [List.append_assoc, List.append_assoc]
  exact List.perm_append_comm.append_left l₁

omit [DecidableEq β] in
/-- What the requests carry after request `i` has come to `q`. -/
theorem flatMap_resume {γ : Type} {i : ℕ} {p : κ} (hi : w.requests[i]? = some p) (s : σ) (q : Option κ)
    (f : κ → List γ) : ((w.resume i s q).requests.flatMap f).Perm
      (q.toList.flatMap f ++ (w.requests.eraseIdx i).flatMap f) := by
  cases q with
  | none => exact List.Perm.refl _
  | some p' =>
      rw [Option.toList_some, List.flatMap_singleton]
      exact holds_set_perm hi p' f

/-- `f` are the tickets that a request carries, `g` those that are stored, and `P` says that one has been issued.
A statement passes on the tickets of its request and issues new ones; then nobody has a ticket twice. -/
theorem Rule.tickets {γ : Type} (r : Rule h G L C) {f : κ → List γ} {g : σ → List γ} {P : σ → γ → Prop}
    (hstart : ∀ op, f (h.start op) = [])
    (hstep : ∀ {w i x p s q}, Keeps h G L w → C w (.step i x) → w.requests[i]? = some p →
      h.advance w.now x w.store p = some (s, q) → (∀ k, P w.store k → P s k) ∧
        ∃ fresh, fresh.Nodup ∧ (∀ k ∈ fresh, ¬P w.store k ∧ P s k) ∧
          (q.toList.flatMap f ++ g s).Subperm (fresh ++ (f p ++ g w.store)))
    {es : List (Event ω ι)} (hw : Keeps h G L w) (hC : StepsMeet (Requests.step h) C w es)
    (hr : Mokosh.run (Requests.step h) w es = some w')
    (hinit : (w.requests.flatMap f ++ g w.store).Nodup ∧ ∀ k ∈ w.requests.flatMap f ++ g w.store, P w.store k) :
    (w'.requests.flatMap f ++ g w'.store).Nodup ∧ ∀ k ∈ w'.requests.flatMap f ++ g w'.store, P w'.store k := by
  refine (run_invariant_of_stepsMeet (fun w => Keeps h G L w ∧ (w.requests.flatMap f ++ g w.store).Nodup ∧
    ∀ k ∈ w.requests.flatMap f ++ g w.store, P w.store k) ?_ ⟨hw, hinit⟩ hC hr).2
  intro w e w' ⟨hkeeps, hnodup, hissued⟩ hC hs
  refine ⟨r.keeps hkeeps hC hs, ?_⟩
  replace hs := step_cases hs
  cases hs with
  | waited => exact ⟨hnodup, hissued⟩
  | @arrived op =>
      have heq : (w.requests ++ [h.start op]).flatMap f = w.requests.flatMap f := by simp [hstart]
      dsimp only
      rw [heq]
      exact ⟨hnodup, hissued⟩
  | @crashed i =>
      have hsub := (holds_erase_sublist w.requests i f).append_right (g w.store)
      exact ⟨hnodup.sublist hsub, fun k hk => hissued k (hsub.subset hk)⟩
  | @advanced i x p s q hi hfree ha =>
      obtain ⟨hmono, fresh, hfresh, hnew, hsub⟩ := hstep hkeeps hC hi ha
      have hall : ((w.resume i s q).requests.flatMap f ++ g (w.resume i s q).store).Subperm
          (fresh ++ (w.requests.flatMap f ++ g w.store)) := by
        rw [World.resume_store]
        have hafter := ((flatMap_resume hi s q f).append_right (g s)).trans (perm_append_right_comm _ _ _)
        have hbefore := ((holds_perm hi f).append_right (g w.store)).trans (perm_append_right_comm _ _ _)
        refine hafter.subperm.trans (((List.subperm_append_right _).mpr hsub).trans ?_)
        rw [List.append_assoc]
        exact (hbefore.symm.append_left fresh).subperm
      have hdistinct : (fresh ++ (w.requests.flatMap f ++ g w.store)).Nodup :=
        List.nodup_append.mpr ⟨hfresh, hnodup, fun k hk k' hk' heq => (hnew k hk).1 (heq ▸ hissued k' hk')⟩
      refine ⟨?_, fun k hk => ?_⟩
      · have hmap := nodup_map_of_subperm (f := id) (by rw [List.map_id]; exact hdistinct) hall
        rwa [List.map_id] at hmap
      · rw [World.resume_store]
        obtain hk | hk := List.mem_append.mp (hall.subset hk)
        · exact (hnew k hk).2
        · exact hmono k (hissued k hk)

end Mokosh.Requests
