import Mathlib.Logic.Relation
import Mathlib.Data.List.Basic

/-! # Finite directed graphs

A graph is the list of its edges, of any type `ε` with a `source` and a `target`.

* `chain` computes what can be reached from a vertex by joining the edges round by round, as a recursive
  `UNION` query does; `mem_chain_iff` says that it is the transitive closure.
* `acyclic_cons_iff` says which edges keep a graph acyclic. -/

namespace Mokosh.Digraph

variable {ε α : Type} (source target : ε → α)

/-- An edge leads from `a` to `b`. -/
def Joined (g : List ε) (a b : α) : Prop := ∃ e ∈ g, source e = a ∧ target e = b

def Path (g : List ε) : α → α → Prop := Relation.TransGen (Joined source target g)

def Acyclic (g : List ε) : Prop := ∀ a, ¬Path source target g a a

variable {source target} {g g' : List ε} {a b c : α} {e : ε}

theorem Path.mono (hg : ∀ e ∈ g, e ∈ g') (h : Path source target g a b) : Path source target g' a b := by
  have hle : Joined source target g ≤ Joined source target g' := by
    rintro a b ⟨e, he, hab⟩
    exact ⟨e, hg e he, hab⟩
  exact Relation.TransGen.mono hle a b h

theorem Acyclic.mono (hg : ∀ e ∈ g', e ∈ g) (h : Acyclic source target g) : Acyclic source target g' :=
  fun a hp => h a (hp.mono hg)

theorem acyclic_nil : Acyclic source target [] := by
  intro a h
  obtain ⟨b, ⟨e, he, -⟩, -⟩ := Relation.TransGen.head'_iff.mp h
  exact List.not_mem_nil he

theorem Path.of_mem (he : e ∈ g) : Path source target g (source e) (target e) :=
  Relation.TransGen.single ⟨e, he, rfl, rfl⟩

/-! ### A new edge -/

/-- A path that may use `e` does without it, or runs to its source and from its target. -/
theorem path_cons (h : Path source target (e :: g) a b) : Path source target g a b ∨
    (a = source e ∨ Path source target g a (source e)) ∧ (target e = b ∨ Path source target g (target e) b) := by
  -- One more edge at the end, which is `e` itself or an old one.
  have hlast : ∀ {b c}, Joined source target (e :: g) b c →
      (b = source e ∧ target e = c) ∨ Joined source target g b c := by
    rintro b c ⟨e', he', rfl, rfl⟩
    obtain rfl | he' := List.mem_cons.mp he'
    · exact .inl ⟨rfl, rfl⟩
    · exact .inr ⟨e', he', rfl, rfl⟩
  induction h with
  | single hb =>
      obtain ⟨ha, hc⟩ | hb := hlast hb
      · exact .inr ⟨.inl ha, .inl hc⟩
      · exact .inl (Relation.TransGen.single hb)
  | tail _ hc ih =>
      obtain ⟨hb, hc⟩ | hc := hlast hc
      · obtain ih | ⟨ha, -⟩ := ih
        · exact .inr ⟨.inr (hb ▸ ih), .inl hc⟩
        · exact .inr ⟨ha, .inl hc⟩
      · obtain ih | ⟨ha, rfl | ih⟩ := ih
        · exact .inl (Relation.TransGen.tail ih hc)
        · exact .inr ⟨ha, .inr (Relation.TransGen.single hc)⟩
        · exact .inr ⟨ha, .inr (Relation.TransGen.tail ih hc)⟩

/-- A new edge keeps a graph acyclic exactly if nothing leads from its target back to its source. -/
theorem acyclic_cons_iff : Acyclic source target (e :: g) ↔ Acyclic source target g ∧
    source e ≠ target e ∧ ¬Path source target g (target e) (source e) := by
  constructor
  · intro h
    have hnew : Path source target (e :: g) (source e) (target e) := Path.of_mem List.mem_cons_self
    refine ⟨h.mono fun _ => List.mem_cons_of_mem e, fun heq => ?_, fun hback => ?_⟩
    · exact h (source e) (heq ▸ hnew)
    · exact h (source e) (hnew.trans (hback.mono fun _ => List.mem_cons_of_mem e))
  · rintro ⟨hg, hne, hback⟩ a ha
    obtain ha | ⟨rfl | hto, heq | hfrom⟩ := path_cons ha
    · exact hg a ha
    · exact hne heq.symm
    · exact hback hfrom
    · exact hback (heq ▸ hto)
    · exact hback (hfrom.trans hto)

/-! ### What can be reached -/

section Chain

variable [DecidableEq α]

variable (source target) in
/-- Joins the edges that start in what has been found, until no more of `rest` do. -/
def grow : ℕ → List ε → List α → List α
  | 0, _, found => found
  | n + 1, rest, found =>
    if rest.any (fun e => source e ∈ found) then
      grow n (rest.filter fun e => source e ∉ found)
        (found ++ (rest.filter fun e => source e ∈ found).map target)
    else found

variable (source target) in
/-- What can be reached from `a` in one step or more. -/
def chain (g : List ε) (a : α) : List α :=
  grow source target g.length g ((g.filter fun e => source e = a).map target)

variable (source target) in
/-- What has been found is reachable from `a`, and every edge is still to be joined or leads to it. -/
structure Growing (g : List ε) (a : α) (rest : List ε) (found : List α) : Prop where
  sound : ∀ b ∈ found, Path source target g a b
  first : ∀ e ∈ g, source e = a → target e ∈ found
  joined : ∀ e ∈ g, e ∈ rest ∨ target e ∈ found
  rest : ∀ e ∈ rest, e ∈ g

variable {rest : List ε} {found : List α}

theorem Growing.start (g : List ε) (a : α) :
    Growing source target g a g ((g.filter fun e => source e = a).map target) where
  sound := by
    intro b hb
    obtain ⟨e, he, rfl⟩ := List.mem_map.mp hb
    obtain ⟨he, hs⟩ := List.mem_filter.mp he
    rw [← of_decide_eq_true hs]
    exact Path.of_mem he
  first e he hs := List.mem_map_of_mem (List.mem_filter.mpr ⟨he, decide_eq_true hs⟩)
  joined _ he := .inl he
  rest _ he := he

theorem Growing.round (h : Growing source target g a rest found) :
    Growing source target g a (rest.filter fun e => source e ∉ found)
      (found ++ (rest.filter fun e => source e ∈ found).map target) where
  sound := by
    intro b hb
    obtain hb | hb := List.mem_append.mp hb
    · exact h.sound b hb
    · obtain ⟨e, he, rfl⟩ := List.mem_map.mp hb
      obtain ⟨he, hs⟩ := List.mem_filter.mp he
      exact (h.sound _ (of_decide_eq_true hs)).tail ⟨e, h.rest e he, rfl, rfl⟩
  first e he hs := List.mem_append_left _ (h.first e he hs)
  joined := by
    intro e he
    obtain hr | hf := h.joined e he
    · by_cases hs : source e ∈ found
      · refine .inr (List.mem_append_right _ (List.mem_map_of_mem ?_))
        exact List.mem_filter.mpr ⟨hr, decide_eq_true hs⟩
      · exact .inl (List.mem_filter.mpr ⟨hr, decide_eq_true hs⟩)
    · exact .inr (List.mem_append_left _ hf)
  rest e he := h.rest e (List.mem_filter.mp he).1

omit [DecidableEq α] in
/-- Once nothing is left to join, everything that can be reached has been found. -/
theorem Growing.mem_iff (h : Growing source target g a rest found)
    (hdone : ∀ e ∈ rest, source e ∉ found) : b ∈ found ↔ Path source target g a b := by
  refine ⟨h.sound b, fun hp => ?_⟩
  induction hp with
  | single hb =>
      obtain ⟨e, he, hs, rfl⟩ := hb
      exact h.first e he hs
  | tail _ hc ih =>
      obtain ⟨e, he, rfl, rfl⟩ := hc
      exact (h.joined e he).resolve_left fun hr => hdone e hr ih

theorem Growing.mem_grow_iff {n : ℕ} (h : Growing source target g a rest found) (hn : rest.length ≤ n) :
    b ∈ grow source target n rest found ↔ Path source target g a b := by
  induction n generalizing rest found with
  | zero =>
      obtain rfl := List.length_eq_zero_iff.mp (Nat.le_zero.mp hn)
      exact h.mem_iff (List.forall_mem_nil _)
  | succ n ih =>
      unfold grow
      split
      · next hany =>
          obtain ⟨e, he, hs⟩ := List.any_eq_true.mp hany
          refine ih h.round (Nat.lt_succ_iff.mp (Nat.lt_of_lt_of_le ?_ hn))
          refine List.length_filter_lt_length_iff_exists.mpr ⟨e, he, ?_⟩
          simpa using hs
      · next hany =>
          refine h.mem_iff fun e he hs => hany (List.any_eq_true.mpr ⟨e, he, decide_eq_true hs⟩)

theorem mem_chain_iff : b ∈ chain source target g a ↔ Path source target g a b :=
  (Growing.start g a).mem_grow_iff (Nat.le_refl _)

theorem acyclic_iff : Acyclic source target g ↔ ∀ e ∈ g, source e ∉ chain source target g (source e) := by
  constructor
  · intro h e _ he
    exact h (source e) (mem_chain_iff.mp he)
  · intro h a ha
    obtain ⟨b, ⟨e, he, rfl, -⟩, -⟩ := Relation.TransGen.head'_iff.mp ha
    exact h e he (mem_chain_iff.mpr ha)

instance (g : List ε) : Decidable (Acyclic source target g) := decidable_of_iff _ acyclic_iff.symm

end Chain

end Mokosh.Digraph
