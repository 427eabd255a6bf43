import Mathlib.Data.List.Nodup
import Mathlib.Data.List.Perm.Subperm

/-! # Names that are not taken

A name that is taken gets a number: `while taken.contains(candidate)`, from the second candidate on.  As there are more
candidates than names, the loop comes to one that is free (`freeName_notMem`), and names that are given out one after
the other are distinct (`nodup_freeNames`). -/

namespace Mokosh.FreeNames

variable {α : Type} [DecidableEq α]

/-- The loop, which can find as many names taken as there are. -/
def firstFree (candidate : ℕ → α) (taken : List α) : ℕ → ℕ → α
  | 0, n => candidate n
  | left + 1, n => if candidate n ∈ taken then firstFree candidate taken left (n + 1) else candidate n

def freeName (numbered : ℕ → α) (taken : List α) (name : α) : α :=
  if name ∈ taken then firstFree numbered taken taken.length 2 else name

/-- One name after the other. -/
def freeNames (numbered : α → ℕ → α) : List α → List α → List α
  | [], taken => taken
  | name :: names, taken => freeNames numbered names (taken ++ [freeName (numbered name) taken name])

/-- What the loop went past was taken. -/
theorem mem_of_firstFree_mem {candidate : ℕ → α} {taken : List α} {left n : ℕ}
    (h : firstFree candidate taken left n ∈ taken) : ∀ i ≤ left, candidate (n + i) ∈ taken := by
  induction left generalizing n with
  | zero =>
      intro i hi
      obtain rfl := Nat.le_zero.mp hi
      exact h
  | succ left ih =>
      unfold firstFree at h
      split at h
      · next hn =>
          rintro (_ | i) hi
          · exact hn
          · rw [show n + (i + 1) = n + 1 + i by omega]
            exact ih h i (by omega)
      · next hn => exact absurd h hn

theorem firstFree_notMem {candidate : ℕ → α} (hinj : Function.Injective candidate) (taken : List α) (n : ℕ) :
    firstFree candidate taken taken.length n ∉ taken := by
  intro h
  have hall := mem_of_firstFree_mem h
  have hnodup : ((List.range (taken.length + 1)).map fun i => candidate (n + i)).Nodup :=
    List.nodup_range.map fun i j heq => Nat.add_left_cancel (hinj heq)
  have hsub : (List.range (taken.length + 1)).map (fun i => candidate (n + i)) ⊆ taken := fun c hc => by
    obtain ⟨i, hi, rfl⟩ := List.mem_map.mp hc
    exact hall i (Nat.lt_succ_iff.mp (List.mem_range.mp hi))
  have hle := (hnodup.subperm hsub).length_le
  rw [List.length_map, List.length_range] at hle
  exact absurd hle (Nat.not_succ_le_self _)

theorem freeName_notMem {numbered : ℕ → α} (hinj : Function.Injective numbered) (taken : List α) (name : α) :
    freeName numbered taken name ∉ taken := by
  unfold freeName
  split
  · exact firstFree_notMem hinj taken 2
  · next h => exact h

theorem firstFree_eq_candidate (candidate : ℕ → α) (taken : List α) (left n : ℕ) :
    ∃ m, firstFree candidate taken left n = candidate m := by
  induction left generalizing n with
  | zero => exact ⟨n, rfl⟩
  | succ left ih =>
      unfold firstFree
      split
      · exact ih (n + 1)
      · exact ⟨n, rfl⟩

/-- A name is itself or has a number. -/
theorem freeName_eq (numbered : ℕ → α) (taken : List α) (name : α) :
    freeName numbered taken name = name ∨ ∃ n, freeName numbered taken name = numbered n := by
  unfold freeName
  split
  · exact .inr (firstFree_eq_candidate numbered taken _ 2)
  · exact .inl rfl

section

variable {numbered : α → ℕ → α}

@[simp] theorem length_freeNames (names taken : List α) :
    (freeNames numbered names taken).length = taken.length + names.length := by
  induction names generalizing taken with
  | nil => rfl
  | cons name names ih =>
      rw [freeNames, ih, List.length_append, List.length_singleton, List.length_cons]
      omega

theorem nodup_freeNames (hinj : ∀ name, Function.Injective (numbered name)) {taken : List α} (h : taken.Nodup)
    (names : List α) : (freeNames numbered names taken).Nodup := by
  induction names generalizing taken with
  | nil => exact h
  | cons name names ih =>
      refine ih (List.nodup_append.mpr ⟨h, List.nodup_singleton _, fun a ha b hb heq => ?_⟩)
      rw [List.mem_singleton.mp hb] at heq
      exact freeName_notMem (hinj name) taken name (heq ▸ ha)

end

end Mokosh.FreeNames
