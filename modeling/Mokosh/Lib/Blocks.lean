import Mathlib.Data.List.Basic

/-! # Blocks between marks

A text is a list of lines, some of which begin a block and some end one.  The lines between are those of the block that
is open, if one is: a line that ends nothing, and a line outside any block, say nothing.

What follows a place at which no block is open does not depend on what stands before it.  So lines that begin no block
may be put there (`closed_insert_plain`); so may blocks that nothing ends, if another one begins before anything ends,
and then the blocks that are ended stay what they are (`ended_insert`). -/

namespace Mokosh.Blocks

variable {α : Type*}

/-- What a line is to the blocks. -/
inductive Mark where
  | begins
  | ends
  | plain
deriving DecidableEq, Repr

structure Block (α : Type*) where
  lines : List α
  /-- A line that ends it was read before another block began. -/
  ended : Bool
deriving DecidableEq, Repr

variable (mark : α → Mark)

/-- The block that is open behind a line, with its lines so far. -/
def next (o : Option (List α)) (l : α) : Option (List α) :=
  match mark l with
  | .begins => some []
  | .ends => none
  | .plain => o.map (· ++ [l])

/-- The block that is over with a line. -/
def closedAt (o : Option (List α)) (l : α) : Option (Block α) :=
  match mark l with
  | .begins => o.map (⟨·, false⟩)
  | .ends => o.map (⟨·, true⟩)
  | .plain => none

def openAfter (o : Option (List α)) (ls : List α) : Option (List α) := ls.foldl (next mark) o

/-- The blocks that are over within some lines. -/
def closed : Option (List α) → List α → List (Block α)
  | _, [] => []
  | o, l :: ls => (closedAt mark o l).toList ++ closed (next mark o l) ls

/-- The first line that begins or ends a block begins one. -/
def BeginsFirst (ls : List α) : Prop := (ls.map mark).find? (· ≠ .plain) ≠ some .ends

variable {mark}

theorem closed_append (o : Option (List α)) (a b : List α) :
    closed mark o (a ++ b) = closed mark o a ++ closed mark (openAfter mark o a) b := by
  induction a generalizing o with
  | nil => rfl
  | cons l a ih => rw [List.cons_append, closed, closed, ih, List.append_assoc, openAfter, openAfter, List.foldl_cons]

theorem closed_concat (o : Option (List α)) (a : List α) (l : α) :
    closed mark o (a ++ [l]) = closed mark o a ++ (closedAt mark (openAfter mark o a) l).toList := by
  rw [closed_append, closed, closed, List.append_nil]

/-- Outside any block, lines that begin none are no block. -/
theorem closed_of_no_begin {ls : List α} (h : ∀ l ∈ ls, mark l ≠ .begins) :
    closed mark none ls = [] ∧ openAfter mark none ls = none := by
  induction ls with
  | nil => exact ⟨rfl, rfl⟩
  | cons l ls ih =>
      rw [List.forall_mem_cons] at h
      have hnext : next mark none l = none ∧ closedAt mark none l = none := by
        unfold next closedAt
        cases hl : mark l with
        | begins => exact absurd hl h.1
        | ends => exact ⟨rfl, rfl⟩
        | plain => exact ⟨rfl, rfl⟩
      rw [closed, openAfter, List.foldl_cons, hnext.1, hnext.2]
      exact ih h.2

/-- Lines that begin no block may stand where none is open. -/
theorem closed_insert_plain {before ls : List α} (hbefore : openAfter mark none before = none)
    (h : ∀ l ∈ ls, mark l ≠ .begins) (after : List α) :
    closed mark none (before ++ (ls ++ after)) = closed mark none (before ++ after) := by
  obtain ⟨hclosed, hopen⟩ := closed_of_no_begin h
  rw [closed_append, closed_append, closed_append, hbefore, hopen, hclosed, List.nil_append]

theorem not_ended_of_no_end {ls : List α} (h : ∀ l ∈ ls, mark l ≠ .ends) (o : Option (List α)) :
    (closed mark o ls).filter (·.ended) = [] := by
  induction ls generalizing o with
  | nil => rfl
  | cons l ls ih =>
      rw [List.forall_mem_cons] at h
      rw [closed, List.filter_append, ih h.2, List.append_nil]
      unfold closedAt
      cases hl : mark l with
      | begins => cases o <;> rfl
      | ends => exact absurd hl h.1
      | plain => rfl

/-- A block that is open where the next mark begins another one is not ended. -/
theorem ended_closed_of_beginsFirst {ls : List α} (h : BeginsFirst mark ls) (o : Option (List α)) :
    (closed mark o ls).filter (·.ended) = (closed mark none ls).filter (·.ended) := by
  induction ls generalizing o with
  | nil => rfl
  | cons l ls ih =>
      rw [closed, closed, List.filter_append, List.filter_append]
      cases hl : mark l with
      | begins =>
          have hsome (o : Option (List α)) : next mark o l = some [] := by
            rw [next, hl]
          have hnone (o : Option (List α)) : (closedAt mark o l).toList.filter (·.ended) = [] := by
            rw [closedAt, hl]
            cases o <;> rfl
          rw [hsome, hsome, hnone, hnone]
      | ends =>
          rw [BeginsFirst, List.map_cons, hl] at h
          exact absurd rfl h
      | plain =>
          have hrest : BeginsFirst mark ls := by
            rw [BeginsFirst, List.map_cons, hl] at h
            exact h
          have hnone (o : Option (List α)) : closedAt mark o l = none := by
            rw [closedAt, hl]
          rw [hnone, hnone, ih hrest, ih hrest (next mark none l)]

/-- Blocks that nothing ends may stand where none is open, before another one begins. -/
theorem ended_insert {before ls after : List α} (hbefore : openAfter mark none before = none)
    (h : ∀ l ∈ ls, mark l ≠ .ends) (hafter : BeginsFirst mark after) :
    (closed mark none (before ++ (ls ++ after))).filter (·.ended) =
      (closed mark none (before ++ after)).filter (·.ended) := by
  rw [closed_append, closed_append, closed_append, hbefore, List.filter_append, List.filter_append, List.filter_append,
    not_ended_of_no_end h, List.nil_append, ended_closed_of_beginsFirst hafter]

end Mokosh.Blocks
