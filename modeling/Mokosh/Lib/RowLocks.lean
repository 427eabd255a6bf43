import Mathlib.Logic.Relation
import Mokosh.Lib.Requests

/-! # Deadlocks

A request waits for another one if its next statement takes a lock that the other one holds.

* `not_deadlocked`: requests that take their locks in one order never wait for each other in a cycle.  Only
  those need to keep the order that others wait for while they wait themselves.
* `Rule.pairwise` is for what any two requests in flight have to do with each other. -/

namespace Mokosh.Requests

variable {ω ι σ κ β : Type}

/-! ### Cycles -/

section Cycle

variable (h : Handlers ω ι σ κ β) (w : World σ κ)

def Waits (i j : ℕ) : Prop := i ≠ j ∧ ∃ p ∈ w.requests[i]?, ∃ p' ∈ w.requests[j]?,
  ∃ b ∈ h.takes w.store p, b ∈ h.holds p'

def Waiting (i : ℕ) : Prop := ∃ j, Waits h w i j

/-- Some requests wait for each other in a cycle. -/
def Deadlocked : Prop := ∃ i, Relation.TransGen (Waits h w) i i

instance [DecidableEq β] (i j : ℕ) : Decidable (Waits h w i j) :=
  inferInstanceAs (Decidable (i ≠ j ∧ ∃ p ∈ w.requests[i]?, ∃ p' ∈ w.requests[j]?,
    ∃ b ∈ h.takes w.store p, b ∈ h.holds p'))

variable {h w}

theorem deadlocked_of_mutual {i j : ℕ} (h₁ : Waits h w i j) (h₂ : Waits h w j i) : Deadlocked h w :=
  ⟨i, (Relation.TransGen.single h₁).tail h₂⟩

/-- In a cycle, whoever is waited for waits. -/
theorem waits_waiting {i j : ℕ} (hij : Relation.TransGen (Waits h w) i j) (hj : Waiting h w j) :
    Relation.TransGen (fun i j => Waits h w i j ∧ Waiting h w j) i j := by
  induction hij with
  | single hij => exact Relation.TransGen.single ⟨hij, hj⟩
  | tail _ hjk ih => exact (ih ⟨_, hjk⟩).tail ⟨hjk, hj⟩

/-- A lock that is waited for, in a cycle, ranks above all that the waiting request holds. -/
theorem not_deadlocked {γ : Type} [Preorder γ] (rank : β → γ)
    (hrank : ∀ i j p p', w.requests[i]? = some p → w.requests[j]? = some p' → i ≠ j → Waiting h w j →
      ∀ b ∈ h.takes w.store p, b ∈ h.holds p' → ∀ b' ∈ h.holds p, rank b' < rank b) :
    ¬Deadlocked h w := by
  rintro ⟨i, hi⟩
  have hwaiting : Waiting h w i := by
    obtain ⟨j, hij, -⟩ := Relation.TransGen.head'_iff.mp hi
    exact ⟨j, hij⟩
  -- Along the cycle, the highest lock that is held only rises.
  have hrise : ∀ {i j}, Relation.TransGen (fun i j => Waits h w i j ∧ Waiting h w j) i j →
      ∃ p p', w.requests[i]? = some p ∧ w.requests[j]? = some p' ∧
        ∃ b ∈ h.holds p', ∀ b' ∈ h.holds p, rank b' < rank b := by
    intro i j hij
    induction hij with
    | single hij =>
        obtain ⟨⟨hne, p, hp, p', hp', b, hb, hb'⟩, hj⟩ := hij
        exact ⟨p, p', hp, hp', b, hb', hrank i _ p p' hp hp' hne hj b hb hb'⟩
    | tail _ hjk ih =>
        obtain ⟨p, p', hp, hp', b, hb, hbelow⟩ := ih
        obtain ⟨⟨hne, p₁, hp₁, p'', hp'', c, hc, hc'⟩, hk⟩ := hjk
        obtain rfl : p' = p₁ := Option.some.inj (hp'.symm.trans hp₁)
        refine ⟨p, p'', hp, hp'', c, hc', fun b' hb' => ?_⟩
        exact (hbelow b' hb').trans (hrank _ _ p' p'' hp' hp'' hne hk c hc hc' b hb)
  obtain ⟨p, p', hp, hp', b, hb, hbelow⟩ := hrise (waits_waiting hi hwaiting)
  obtain rfl : p = p' := Option.some.inj (hp.symm.trans hp')
  exact lt_irrefl _ (hbelow b hb)

end Cycle

/-! ### Pairs of requests -/

theorem pairwise_getElem? {R : κ → κ → Prop} (hsymm : ∀ {p p'}, R p p' → R p' p) {l : List κ}
    (hR : l.Pairwise R) {i j : ℕ} {p p' : κ} (hi : l[i]? = some p) (hj : l[j]? = some p') (hne : i ≠ j) :
    R p p' := by
  obtain ⟨hi', rfl⟩ := List.getElem?_eq_some_iff.mp hi
  obtain ⟨hj', rfl⟩ := List.getElem?_eq_some_iff.mp hj
  obtain hlt | hlt := Nat.lt_or_gt_of_ne hne
  · exact List.pairwise_iff_getElem.mp hR i j hi' hj' hlt
  · exact hsymm (List.pairwise_iff_getElem.mp hR j i hj' hi' hlt)

theorem World.pairwise_resume {w : World σ κ} {R : κ → κ → Prop} (hsymm : ∀ {p p'}, R p p' → R p' p)
    (hR : w.requests.Pairwise R) {i : ℕ} {p : κ} (hi : w.requests[i]? = some p) (s : σ) {q : Option κ}
    (hq : ∀ p' ∈ q, ∀ r ∈ w.requests.eraseIdx i, R p r → R p' r) : (w.resume i s q).requests.Pairwise R := by
  have herase := hR.sublist (List.eraseIdx_sublist w.requests i)
  have hothers := (List.pairwise_cons.mp (((calls_perm hi).pairwise_iff fun h => hsymm h).mp hR)).1
  cases q with
  | none => exact herase
  | some p' =>
      refine ((calls_set_perm hi p').pairwise_iff fun h => hsymm h).mpr (List.pairwise_cons.mpr ⟨?_, herase⟩)
      exact fun r hr => hq p' rfl r hr (hothers r hr)

variable [DecidableEq β] {h : Handlers ω ι σ κ β} {G : ℕ → σ → Prop} {L : ℕ → σ → κ → Prop}
  {C : World σ κ → Event ω ι → Prop} {w w' : World σ κ}

/-- A relation between the requests in flight, kept by whoever takes a step. -/
theorem Rule.pairwise (r : Rule h G L C) {R : κ → κ → Prop} (hsymm : ∀ {p p'}, R p p' → R p' p)
    (hstart : ∀ {w op}, Keeps h G L w → C w (.arrive op) → ∀ p ∈ w.requests, R p (h.start op))
    (hstep : ∀ {w i x p s q}, Keeps h G L w → C w (.step i x) → w.requests[i]? = some p →
      h.advance w.now x w.store p = some (s, q) → ∀ p' ∈ q, ∀ r ∈ w.requests.eraseIdx i, R p r → R p' r)
    {es : List (Event ω ι)} (hw : Keeps h G L w) (hC : StepsMeet (Requests.step h) C w es)
    (hr : Mokosh.run (Requests.step h) w es = some w') (hR : w.requests.Pairwise R) :
    w'.requests.Pairwise R := by
  refine (run_invariant_of_stepsMeet (fun w => Keeps h G L w ∧ w.requests.Pairwise R) ?_ ⟨hw, hR⟩ hC hr).2
  intro w e w' hinv hC hs
  refine ⟨r.keeps hinv.1 hC hs, ?_⟩
  replace hs := step_cases hs
  cases hs with
  | waited => exact hinv.2
  | @arrived op =>
      refine List.pairwise_append.mpr ⟨hinv.2, List.pairwise_singleton _ _, fun p hp p' hp' => ?_⟩
      rw [List.mem_singleton.mp hp']
      exact hstart hinv.1 hC p hp
  | @crashed i => exact hinv.2.sublist (List.eraseIdx_sublist w.requests i)
  | @advanced i x p s q hi hfree ha =>
      exact World.pairwise_resume hsymm hinv.2 hi s (hstep hinv.1 hC hi ha)

end Mokosh.Requests
