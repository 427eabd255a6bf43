import Mathlib.Data.Finset.Card
import Mathlib.Data.List.Nodup
import Mathlib.Order.Defs.LinearOrder

/-! # Maps that keep their entries in the order of the keys

A map is the list of its entries, each key above the one before.  `insertAll` puts entries into a map one after the
other, where a later one replaces an earlier one with its key: nothing is lost if and only if no two of the keys are
the same, and the entries come out as they went in if and only if they were in order. -/

namespace Mokosh.SortedMap

section Lookup

variable {κ ν : Type*} [DecidableEq κ]

/-- In a list without repeated keys an entry is found under its key. -/
theorem lookup_of_mem {m : List (κ × ν)} (h : (m.map Prod.fst).Nodup) {e : κ × ν} (he : e ∈ m) :
    m.lookup e.1 = some e.2 := by
  induction m with
  | nil => exact absurd he List.not_mem_nil
  | cons e' m ih =>
      rw [List.map_cons, List.nodup_cons] at h
      rcases List.mem_cons.mp he with rfl | hin
      · exact List.lookup_cons_self
      · have hne : e.1 ≠ e'.1 := fun heq => h.1 (heq ▸ List.mem_map_of_mem hin)
        obtain ⟨k, v⟩ := e'
        rw [List.lookup_cons, beq_false_of_ne hne]
        exact ih h.2 hin

theorem mem_of_lookup {m : List (κ × ν)} {k : κ} {v : ν} (h : m.lookup k = some v) : (k, v) ∈ m := by
  obtain ⟨before, after, rfl, -⟩ := List.lookup_eq_some_iff.mp h
  exact List.mem_append_right _ List.mem_cons_self

theorem lookup_eq_none {m : List (κ × ν)} {k : κ} : m.lookup k = none ↔ k ∉ m.map Prod.fst := by
  rw [List.lookup_eq_none_iff, List.mem_map]
  refine ⟨fun h ⟨e, he, heq⟩ => ?_, fun h e he => bne_iff_ne.mpr fun heq => h ⟨e, he, heq.symm⟩⟩
  exact bne_iff_ne.mp (h e he) heq.symm

end Lookup

variable {κ ν : Type*} [LinearOrder κ]

/-- Each key is above the one before. -/
def Ascending (m : List (κ × ν)) : Prop := m.Pairwise fun e e' => e.1 < e'.1

def insert (entry : κ × ν) : List (κ × ν) → List (κ × ν)
  | [] => [entry]
  | e :: m => if entry.1 < e.1 then entry :: e :: m else if e.1 < entry.1 then e :: insert entry m else entry :: m

def insertAll (m entries : List (κ × ν)) : List (κ × ν) := entries.foldl (fun m e => insert e m) m

theorem Ascending.nodup {m : List (κ × ν)} (h : Ascending m) : (m.map Prod.fst).Nodup :=
  List.pairwise_map.mpr (h.imp fun hlt => hlt.ne)

/-! ### insert -/

theorem mem_of_mem_insert {entry e : κ × ν} {m : List (κ × ν)} (h : e ∈ insert entry m) : e = entry ∨ e ∈ m := by
  induction m with
  | nil => exact .inl (List.mem_singleton.mp h)
  | cons e' m ih =>
      unfold insert at h
      split at h
      · exact List.mem_cons.mp h
      · split at h
        · rcases List.mem_cons.mp h with rfl | h
          · exact .inr List.mem_cons_self
          · exact (ih h).imp id (List.mem_cons_of_mem _)
        · exact (List.mem_cons.mp h).imp id (List.mem_cons_of_mem _)

theorem mem_keys_insert {entry : κ × ν} {m : List (κ × ν)} {k : κ} :
    k ∈ (insert entry m).map Prod.fst ↔ k = entry.1 ∨ k ∈ m.map Prod.fst := by
  induction m with
  | nil => simp [insert]
  | cons e m ih =>
      unfold insert
      split
      · simp
      · next hle =>
          split
          · rw [List.map_cons, List.mem_cons, ih, List.map_cons, List.mem_cons]
            exact or_left_comm
          · next hge =>
              rw [List.map_cons, List.map_cons, List.mem_cons, List.mem_cons,
                le_antisymm (not_lt.mp hle) (not_lt.mp hge)]
              simp

theorem ascending_insert {m : List (κ × ν)} (h : Ascending m) (entry : κ × ν) : Ascending (insert entry m) := by
  induction m with
  | nil => exact List.pairwise_singleton _ _
  | cons e m ih =>
      obtain ⟨hhead, htail⟩ := List.pairwise_cons.mp h
      unfold insert
      split
      · next hlt =>
          refine List.pairwise_cons.mpr ⟨fun e' he' => ?_, h⟩
          rcases List.mem_cons.mp he' with rfl | he'
          · exact hlt
          · exact hlt.trans (hhead e' he')
      · next hle =>
          split
          · next hlt =>
              refine List.pairwise_cons.mpr ⟨fun e' he' => ?_, ih htail⟩
              rcases mem_of_mem_insert he' with rfl | he'
              · exact hlt
              · exact hhead e' he'
          · next hge =>
              refine List.pairwise_cons.mpr ⟨fun e' he' => ?_, htail⟩
              rw [le_antisymm (not_lt.mp hge) (not_lt.mp hle)]
              exact hhead e' he'

/-- A new key is an entry more. -/
theorem perm_insert {entry : κ × ν} {m : List (κ × ν)} (h : entry.1 ∉ m.map Prod.fst) :
    (insert entry m).Perm (entry :: m) := by
  induction m with
  | nil => exact .refl _
  | cons e m ih =>
      rw [List.map_cons, List.mem_cons, not_or] at h
      unfold insert
      split
      · exact .refl _
      · next hle =>
          rw [if_pos (lt_of_le_of_ne (not_lt.mp hle) (Ne.symm h.1))]
          exact ((ih h.2).cons e).trans (.swap entry e m)

/-- The key of the entry has its value. -/
theorem lookup_insert_self (entry : κ × ν) (m : List (κ × ν)) : (insert entry m).lookup entry.1 = some entry.2 := by
  induction m with
  | nil => exact List.lookup_cons_self
  | cons e m ih =>
      unfold insert
      split
      · exact List.lookup_cons_self
      · split
        · next hlt =>
            obtain ⟨k, v⟩ := e
            rw [List.lookup_cons, beq_false_of_ne hlt.ne']
            exact ih
        · exact List.lookup_cons_self

/-- The other keys keep their values. -/
theorem lookup_insert_of_ne {entry : κ × ν} {k : κ} (hk : k ≠ entry.1) (m : List (κ × ν)) :
    (insert entry m).lookup k = m.lookup k := by
  obtain ⟨k', v⟩ := entry
  induction m with
  | nil =>
      rw [insert, List.lookup_cons, beq_false_of_ne hk]
  | cons e m ih =>
      obtain ⟨k'', v'⟩ := e
      unfold insert
      split
      · rw [List.lookup_cons, beq_false_of_ne hk]
      · next hle =>
          split
          · rw [List.lookup_cons, List.lookup_cons, ih]
          · next hge =>
              have heq : k' = k'' := le_antisymm (not_lt.mp hge) (not_lt.mp hle)
              rw [List.lookup_cons, List.lookup_cons, ← heq, beq_false_of_ne hk]

/-! ### insertAll -/

theorem ascending_insertAll {m : List (κ × ν)} (h : Ascending m) (entries : List (κ × ν)) :
    Ascending (insertAll m entries) := by
  induction entries generalizing m with
  | nil => exact h
  | cons e entries ih => exact ih (ascending_insert h e)

theorem mem_of_mem_insertAll {m entries : List (κ × ν)} {e : κ × ν} (h : e ∈ insertAll m entries) :
    e ∈ m ∨ e ∈ entries := by
  induction entries generalizing m with
  | nil => exact .inl h
  | cons e' entries ih =>
      rcases ih h with h | h
      · exact (mem_of_mem_insert h).elim (fun heq => .inr (List.mem_cons.mpr (.inl heq))) .inl
      · exact .inr (List.mem_cons_of_mem _ h)

theorem mem_keys_insertAll {m entries : List (κ × ν)} {k : κ} :
    k ∈ (insertAll m entries).map Prod.fst ↔ k ∈ m.map Prod.fst ∨ k ∈ entries.map Prod.fst := by
  induction entries generalizing m with
  | nil => simp [insertAll]
  | cons e entries ih =>
      rw [show insertAll m (e :: entries) = insertAll (insert e m) entries from rfl, ih, mem_keys_insert, List.map_cons,
        List.mem_cons, or_comm (a := k = e.1), or_assoc]

/-- New keys are as many entries more. -/
theorem perm_insertAll {m entries : List (κ × ν)} (h : ((entries ++ m).map Prod.fst).Nodup) :
    (insertAll m entries).Perm (entries ++ m) := by
  induction entries generalizing m with
  | nil => exact .refl _
  | cons e entries ih =>
      rw [List.cons_append, List.map_cons, List.nodup_cons] at h
      have hnew : e.1 ∉ m.map Prod.fst := fun hin => h.1 (by
        rw [List.map_append]
        exact List.mem_append_right _ hin)
      have hperm : (entries ++ insert e m).Perm (e :: (entries ++ m)) :=
        ((perm_insert hnew).append_left entries).trans List.perm_middle
      refine (ih ((hperm.map Prod.fst).nodup_iff.mpr ?_)).trans hperm
      rw [List.map_cons, List.nodup_cons]
      exact h

theorem perm_insertAll_nil {entries : List (κ × ν)} (h : (entries.map Prod.fst).Nodup) :
    (insertAll [] entries).Perm entries := by
  have hperm := @perm_insertAll κ ν _ [] entries (by rw [List.append_nil]; exact h)
  rw [List.append_nil] at hperm
  exact hperm

/-- As many entries as were put in are all of them. -/
theorem nodup_of_length_insertAll {entries : List (κ × ν)} (h : (insertAll [] entries).length = entries.length) :
    (entries.map Prod.fst).Nodup := by
  have hkeys : ((insertAll [] entries).map Prod.fst).toFinset = (entries.map Prod.fst).toFinset := by
    ext k
    rw [List.mem_toFinset, List.mem_toFinset, mem_keys_insertAll]
    simp
  have hcard := List.toFinset_card_of_nodup (ascending_insertAll List.Pairwise.nil entries).nodup
  rw [hkeys, List.length_map, h, List.card_toFinset] at hcard
  have hsub := List.dedup_sublist (entries.map Prod.fst)
  rw [← hsub.eq_of_length (hcard.trans (List.length_map _).symm)]
  exact List.nodup_dedup _

/-- Entries in order are a map. -/
theorem insertAll_eq_self {entries : List (κ × ν)} (h : Ascending entries) : insertAll [] entries = entries := by
  have hperm := perm_insertAll_nil h.nodup
  exact hperm.eq_of_pairwise (fun e e' _ _ hlt hlt' => absurd hlt hlt'.asymm) (ascending_insertAll .nil entries) h

theorem insertAll_eq_self_iff {entries : List (κ × ν)} : insertAll [] entries = entries ↔ Ascending entries :=
  ⟨fun h => h ▸ ascending_insertAll .nil entries, insertAll_eq_self⟩

end Mokosh.SortedMap
