import Mathlib.Data.List.Nodup
import Mathlib.Data.List.Pairwise

/-! # Tables with a unique index

Rows of which no two have the same key, and what an `INSERT`, an `UPDATE` and an upsert do to the row of a key
(`find`).  In a `Table` the keys are generated; here they come with the rows. -/

namespace Mokosh

structure Keyed {α κ : Type} (key : α → κ) where
  rows : List α
  nodup : (rows.map key).Nodup

namespace Keyed

variable {α κ : Type} {key : α → κ}

def empty : Keyed key := { rows := [], nodup := List.nodup_nil }

/-- Rows with the same entry in another index are the same. -/
theorem eq_of_nodup {β : Type} {t : Keyed key} {g : α → Option β} (h : (t.rows.filterMap g).Nodup) {r r' : α} {b : β}
    (hr : r ∈ t.rows) (hr' : r' ∈ t.rows) (hb : g r = some b) (hb' : g r' = some b) : r = r' := by
  have : Std.Symm fun r r' => ∀ b, g r = some b → ∀ b', g r' = some b' → b ≠ b' :=
    ⟨fun _ _ h b hb b' hb' => (h b' hb' b hb).symm⟩
  by_contra hne
  exact (List.pairwise_filterMap.mp h).forall hr hr' hne b hb b hb' rfl

variable [DecidableEq κ]

def find (t : Keyed key) (k : κ) : Option α := t.rows.find? (key · = k)

/-- An `INSERT`, if no row has the key. -/
def insert (t : Keyed key) (r : α) : Keyed key :=
  if h : key r ∈ t.rows.map key then t
  else { rows := r :: t.rows, nodup := List.nodup_cons.mpr ⟨h, t.nodup⟩ }

theorem key_update {k : κ} {f : α → α} (hf : ∀ r, key r = k → key (f r) = k) (r : α) :
    key (if key r = k then f r else r) = key r := by
  split
  · next h => rw [hf r h, h]
  · rfl

/-- An `UPDATE` of the row with key `k`. -/
def update (t : Keyed key) (k : κ) (f : α → α) (hf : ∀ r, key r = k → key (f r) = k) : Keyed key where
  rows := t.rows.map fun r => if key r = k then f r else r
  nodup := by
    rw [List.map_map, show (key ∘ fun r => if key r = k then f r else r) = key from funext (key_update hf)]
    exact t.nodup

/-- An `INSERT … ON CONFLICT DO UPDATE`. -/
def upsert (t : Keyed key) (r : α) (f : α → α) (hf : ∀ r', key r' = key r → key (f r') = key r) : Keyed key :=
  if (t.find (key r)).isSome then t.update (key r) f hf else t.insert r

/-- What an update leaves alone in each row. -/
theorem map_update {β : Type} (t : Keyed key) {k : κ} {f : α → α} (hf : ∀ r, key r = k → key (f r) = k) {g : α → β}
    (hg : ∀ r, g (f r) = g r) : (t.update k f hf).rows.map g = t.rows.map g := by
  refine List.map_map.trans (List.map_congr_left fun r _ => ?_)
  dsimp only [Function.comp_apply]
  split
  · exact hg r
  · rfl

variable {t : Keyed key} {k : κ} {r : α}

theorem find_eq_some_iff : t.find k = some r ↔ r ∈ t.rows ∧ key r = k := by
  unfold find
  refine ⟨fun h => ?_, fun ⟨hr, hk⟩ => ?_⟩
  · exact ⟨List.mem_of_find?_eq_some h, of_decide_eq_true (List.find?_some (p := (key · = k)) h)⟩
  · cases hf : t.rows.find? (key · = k) with
    | none => exact absurd (decide_eq_true hk) (List.find?_eq_none.mp hf r hr)
    | some r' =>
        have hr' := List.mem_of_find?_eq_some hf
        have hk' : key r' = k := of_decide_eq_true (List.find?_some (p := (key · = k)) hf)
        rw [List.inj_on_of_nodup_map t.nodup hr' hr (hk'.trans hk.symm)]

theorem find_eq_none_iff : t.find k = none ↔ k ∉ t.rows.map key := by
  simp [find]

/-- The rows with a key are the one that it finds. -/
theorem filter_key (k : κ) : t.rows.filter (key · = k) = (t.find k).toList := by
  cases hf : t.find k with
  | none =>
      refine List.filter_eq_nil_iff.mpr fun r hr hk => ?_
      exact find_eq_none_iff.mp hf (List.mem_map.mpr ⟨r, hr, of_decide_eq_true hk⟩)
  | some r =>
      obtain ⟨hr, hk⟩ := find_eq_some_iff.mp hf
      refine List.perm_singleton.mp ((List.perm_ext_iff_of_nodup ?_ (List.nodup_singleton r)).mpr fun r' => ?_)
      · exact t.nodup.of_map.filter _
      · rw [List.mem_filter, decide_eq_true_eq, ← find_eq_some_iff, hf, List.mem_singleton, Option.some.injEq]
        exact eq_comm

theorem find_insert (r : α) (k : κ) :
    (t.insert r).find k = if k = key r then t.find k <|> some r else t.find k := by
  unfold insert
  split
  · next h =>
      split
      · next hk =>
          subst hk
          cases hf : t.find (key r) with
          | none => exact absurd h (find_eq_none_iff.mp hf)
          | some _ => rfl
      · rfl
  · next h =>
      split
      · next hk =>
          subst hk
          rw [find_eq_none_iff.mpr h]
          exact find_eq_some_iff.mpr ⟨List.mem_cons_self, rfl⟩
      · next hk =>
          unfold find
          rw [List.find?_cons, decide_eq_false fun h => hk h.symm]

theorem mem_keys_insert {k : κ} : k ∈ (t.insert r).rows.map key ↔ k = key r ∨ k ∈ t.rows.map key := by
  unfold insert
  split
  · next h => exact ⟨.inr, fun hk => hk.elim (fun hk => hk ▸ h) id⟩
  · exact List.mem_cons

theorem find_update (k k' : κ) (f : α → α) (hf : ∀ r, key r = k → key (f r) = k) :
    (t.update k f hf).find k' = if k' = k then (t.find k).map f else t.find k' := by
  split
  · next hk =>
      subst hk
      cases hr : t.find k' with
      | none =>
          rw [Option.map_none, find_eq_none_iff]
          rw [find_eq_none_iff] at hr
          intro hmem
          obtain ⟨_, hmem, hk⟩ := List.mem_map.mp hmem
          obtain ⟨r, hr', rfl⟩ := List.mem_map.mp hmem
          exact hr (List.mem_map.mpr ⟨r, hr', (key_update hf r).symm.trans hk⟩)
      | some r =>
          obtain ⟨hr, hk⟩ := find_eq_some_iff.mp hr
          refine find_eq_some_iff.mpr ⟨?_, hf r hk⟩
          exact List.mem_map.mpr ⟨r, hr, if_pos hk⟩
  · next hk =>
      unfold find update
      rw [List.find?_map]
      simp only [Function.comp_def, key_update hf]
      cases hr : t.rows.find? (key · = k') with
      | none => rfl
      | some r =>
          have hk' : key r = k' := of_decide_eq_true (List.find?_some (p := (key · = k')) hr)
          rw [Option.map_some, if_neg (hk'.trans_ne hk)]

/-- The rows after an update: the one with the key, and the others. -/
theorem perm_update {f : α → α} {hf : ∀ r, key r = k → key (f r) = k} (hr : t.find k = some r) :
    (t.update k f hf).rows.Perm (f r :: t.rows.filter (key · ≠ k)) := by
  have hperm : (r :: t.rows.filter (key · ≠ k)).Perm t.rows := by
    have h := List.filter_append_perm (key · = k) t.rows
    rw [filter_key, hr] at h
    simpa using h
  refine ((hperm.map fun r => if key r = k then f r else r).symm).trans (List.Perm.of_eq ?_)
  rw [List.map_cons, if_pos (find_eq_some_iff.mp hr).2]
  refine congrArg (f r :: ·) ((List.map_congr_left fun r' hr' => ?_).trans (List.map_id _))
  exact if_neg (of_decide_eq_true (List.mem_filter.mp hr').2)

/-- Another index refuses an update if and only if another row stands in its way. -/
theorem nodup_update {β : Type} {g : α → Option β} {f : α → α} {hf : ∀ r, key r = k → key (f r) = k}
    (h : (t.rows.filterMap g).Nodup) (hr : t.find k = some r) :
    ((t.update k f hf).rows.filterMap g).Nodup ↔ ∀ r' ∈ t.rows, key r' ≠ k → ∀ b ∈ g (f r), b ∉ g r' := by
  have hothers : ((t.rows.filter (key · ≠ k)).filterMap g).Nodup := h.sublist (List.filter_sublist.filterMap g)
  rw [((perm_update hr).filterMap g).nodup_iff, List.filterMap_cons]
  cases hb : g (f r) with
  | none => simpa using hothers
  | some b =>
      dsimp only
      rw [List.nodup_cons, and_iff_left hothers, List.mem_filterMap]
      simp only [List.mem_filter, decide_eq_true_eq, Option.mem_def, Option.some.injEq, not_exists, not_and,
        forall_eq', and_imp]

theorem nodup_insert {β : Type} {g : α → Option β} (h : (t.rows.filterMap g).Nodup) (hr : t.find (key r) = none) :
    ((t.insert r).rows.filterMap g).Nodup ↔ ∀ r' ∈ t.rows, ∀ b ∈ g r, b ∉ g r' := by
  unfold insert
  rw [dif_neg (find_eq_none_iff.mp hr), List.filterMap_cons]
  cases hb : g r with
  | none => simpa using h
  | some b =>
      dsimp only
      rw [List.nodup_cons, and_iff_left h, List.mem_filterMap]
      simp only [Option.mem_def, Option.some.injEq, not_exists, not_and, forall_eq']

/-- An update that leaves its row as it was leaves the table as it was. -/
theorem update_eq_self_iff {f : α → α} {hf : ∀ r, key r = k → key (f r) = k} (hr : t.find k = some r) :
    t.update k f hf = t ↔ f r = r := by
  refine ⟨fun h => ?_, fun h => ?_⟩
  · have hfind := congrArg (fun t : Keyed key => t.find k) h
    rw [find_update, if_pos rfl, hr] at hfind
    exact Option.some.inj hfind
  · unfold update
    congr 1
    refine (List.map_congr_left fun r' hr' => ?_).trans (List.map_id _)
    split
    · next hk =>
        have hr'' := find_eq_some_iff.mpr ⟨hr', hk⟩
        rw [hr, Option.some.injEq] at hr''
        rw [← hr'', h]
        rfl
    · rfl

theorem find_upsert (r : α) (f : α → α) (hf : ∀ r', key r' = key r → key (f r') = key r) (k : κ) :
    (t.upsert r f hf).find k = if k = key r then some ((t.find k).elim r f) else t.find k := by
  unfold upsert
  split
  · next h =>
      obtain ⟨r', hr'⟩ := Option.isSome_iff_exists.mp h
      rw [find_update]
      split
      · next hk => rw [hk, hr', Option.map_some, Option.elim_some]
      · rfl
  · next h =>
      rw [find_insert]
      split
      · next hk =>
          rw [hk, Option.not_isSome_iff_eq_none.mp h]
          rfl
      · rfl

end Keyed

end Mokosh
