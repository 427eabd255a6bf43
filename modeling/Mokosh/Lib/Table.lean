import Mathlib.Algebra.BigOperators.Group.List.Basic
import Mathlib.Algebra.BigOperators.Group.Finset.Basic
import Mathlib.Algebra.Order.BigOperators.Group.Finset
import Mathlib.Algebra.Order.BigOperators.Group.List
import Mathlib.Data.List.Nodup
import Mathlib.Tactic.Abel

/-! # Tables with generated identifiers

A database table whose primary key is generated by the program and never repeats: a list of rows
together with the next unused key.  That no two rows have the same key, and that every key in use
is below the next one, are fields, so that no operation can break them: `insert` takes the key
from the counter, `map` and `update` take a row function that does not touch the key, `filter`
and `erase` only remove rows, and a key that was removed is not given out again.

Each operation comes with what it does to a lookup (`find`), to membership and to a total over
all rows (`sum`); proofs about the tables of a program use only these. -/

namespace Mokosh

/-- The row that comes first by a strict order, the earliest of those that tie
(`ORDER BY … LIMIT 1`). -/
def firstBy {α : Type} (before : α → α → Bool) : List α → Option α
  | [] => none
  | a :: l =>
    match firstBy before l with
    | none => some a
    | some b => if before b a then some b else some a

theorem firstBy_mem {α : Type} {before : α → α → Bool} {l : List α} {a : α}
    (h : firstBy before l = some a) : a ∈ l := by
  induction l generalizing a with
  | nil => exact absurd h (by simp [firstBy])
  | cons x l ih =>
      simp only [firstBy] at h
      split at h
      · cases h
        exact List.mem_cons_self
      · next b hb =>
        split at h
        · cases h
          exact List.mem_cons_of_mem _ (ih hb)
        · cases h
          exact List.mem_cons_self

theorem exists_firstBy {α : Type} (before : α → α → Bool) {l : List α} {a : α} (h : a ∈ l) :
    ∃ b, firstBy before l = some b := by
  cases l with
  | nil => exact absurd h List.not_mem_nil
  | cons x l =>
      simp only [firstBy]
      split
      · exact ⟨x, rfl⟩
      · split <;> exact ⟨_, rfl⟩

/-- A list of rows with unique keys, and a counter above all of them. -/
structure Table {α : Type} (key : α → ℕ) where
  /-- The rows, in the order of their insertion. -/
  rows : List α
  /-- The key of the next row to be inserted. -/
  next : ℕ
  nodup : (rows.map key).Nodup
  lt_next : ∀ r ∈ rows, key r < next

namespace Table

variable {α : Type} {key : α → ℕ}

instance : Membership α (Table key) := ⟨fun t r => r ∈ t.rows⟩

instance : EmptyCollection (Table key) := ⟨⟨[], 0, by simp, by simp⟩⟩

@[ext] theorem ext {t u : Table key} (h : t.rows = u.rows) (hn : t.next = u.next) : t = u := by
  cases t
  cases u
  simp_all

instance [DecidableEq α] : DecidableEq (Table key) := fun t u =>
  decidable_of_iff (t.rows = u.rows ∧ t.next = u.next) ⟨fun h => ext h.1 h.2, fun h => h ▸ ⟨rfl, rfl⟩⟩

theorem mem_def {t : Table key} {r : α} : r ∈ t ↔ r ∈ t.rows := Iff.rfl

@[simp] theorem not_mem_empty (r : α) : r ∉ (∅ : Table key) := List.not_mem_nil

theorem eq_of_key_eq {t : Table key} {r r' : α} (h : r ∈ t) (h' : r' ∈ t)
    (hk : key r = key r') : r = r' :=
  List.inj_on_of_nodup_map t.nodup h h' hk

theorem key_lt_next {t : Table key} {r : α} (h : r ∈ t) : key r < t.next := t.lt_next r h

/-- Add the row `mk id`, where `id` is the next unused key. -/
def insert (t : Table key) (mk : ℕ → α) (hk : ∀ i, key (mk i) = i := by intro _; exact Eq.trans rfl rfl) :
    Table key where
  rows := t.rows ++ [mk t.next]
  next := t.next + 1
  nodup := by
    rw [List.map_append, List.nodup_append]
    refine ⟨t.nodup, by simp, ?_⟩
    intro a ha b hb hab
    obtain ⟨r, hr, rfl⟩ := List.mem_map.mp ha
    rw [List.map_singleton, List.mem_singleton, hk] at hb
    have h := t.lt_next r hr
    omega
  lt_next := by
    intro r hr
    rcases List.mem_append.mp hr with h | h
    · exact (t.lt_next r h).trans (Nat.lt_succ_self _)
    · rw [List.mem_singleton.mp h, hk]
      exact Nat.lt_succ_self _

/-- Add a row for each element of a list, in its order. -/
def insertEach {β : Type} (t : Table key) (mk : β → ℕ → α) (l : List β)
    (hk : ∀ b i, key (mk b i) = i := by intro _ _; exact Eq.trans rfl rfl) : Table key :=
  l.foldl (fun t b => t.insert (mk b) (hk b)) t

/-- Change every row by `f`, which must leave the key alone. -/
def map (t : Table key) (f : α → α) (hf : ∀ r, key (f r) = key r := by intro _; exact Eq.trans rfl rfl) :
    Table key where
  rows := t.rows.map f
  next := t.next
  nodup := by
    have h : key ∘ f = key := funext hf
    simpa [List.map_map, h] using t.nodup
  lt_next := by
    intro r hr
    obtain ⟨x, hx, rfl⟩ := List.mem_map.mp hr
    rw [hf]
    exact t.lt_next x hx

/-- Keep the rows that satisfy `p`. -/
def filter (t : Table key) (p : α → Bool) : Table key where
  rows := t.rows.filter p
  next := t.next
  nodup := t.nodup.sublist (List.filter_sublist.map key)
  lt_next := fun r hr => t.lt_next r (List.mem_of_mem_filter hr)

/-- The row with key `k`. -/
def find (t : Table key) (k : ℕ) : Option α := t.rows.find? (fun r => decide (key r = k))

/-- Change the row with key `k` by `f`, which must leave the key alone. -/
def update (t : Table key) (k : ℕ) (f : α → α)
    (hf : ∀ r, key (f r) = key r := by intro _; exact Eq.trans rfl rfl) : Table key :=
  t.map (fun r => if key r = k then f r else r) (by
    intro r
    split
    · exact hf r
    · rfl)

/-- Remove the row with key `k`. -/
def erase (t : Table key) (k : ℕ) : Table key := t.filter (fun r => decide (key r ≠ k))

@[simp] theorem insert_next (t : Table key) (mk : ℕ → α) (hk : ∀ i, key (mk i) = i) :
    (t.insert mk hk).next = t.next + 1 := rfl

@[simp] theorem update_next (t : Table key) (k : ℕ) (f : α → α) (hf : ∀ r, key (f r) = key r) :
    (t.update k f hf).next = t.next := rfl

/-! ### Keys in use -/

theorem insert_keys (t : Table key) (mk : ℕ → α) (hk : ∀ i, key (mk i) = i) :
    (t.insert mk hk).rows.map key = t.rows.map key ++ [t.next] := by
  simp [insert, hk]

theorem map_keys (t : Table key) (f : α → α) (hf : ∀ r, key (f r) = key r) :
    (t.map f hf).rows.map key = t.rows.map key := by
  simp only [map, List.map_map]
  exact List.map_congr_left fun r _ => hf r

theorem update_keys (t : Table key) (k : ℕ) (f : α → α) (hf : ∀ r, key (f r) = key r) :
    (t.update k f hf).rows.map key = t.rows.map key := map_keys t _ _

/-! ### Membership and lookup -/

theorem mem_insert {t : Table key} {mk : ℕ → α} {x : α}
    (hk : ∀ i, key (mk i) = i := by first | assumption | (intro _; exact Eq.trans rfl rfl)) :
    x ∈ t.insert mk hk ↔ x ∈ t ∨ x = mk t.next := by
  simp [mem_def, insert]

theorem exists_mem_insert (t : Table key) (mk : ℕ → α) (hk : ∀ i, key (mk i) = i) :
    ∃ r ∈ t.insert mk hk, key r = t.next :=
  ⟨mk t.next, (mem_insert hk).mpr (.inr rfl), hk _⟩

section InsertEach

variable {β : Type} {mk : β → ℕ → α} {hk : ∀ b i, key (mk b i) = i}

/-- A row of the table after the inserts was there before, or is the row of one of the elements,
under a key that was not in use. -/
theorem mem_insertEach {t : Table key} {l : List β} {x : α} (hx : x ∈ t.insertEach mk l hk) :
    x ∈ t ∨ ∃ b ∈ l, ∃ i, t.next ≤ i ∧ x = mk b i := by
  induction l generalizing t with
  | nil => exact .inl hx
  | cons b l ih =>
      rcases ih hx with h | ⟨b', hb, i, hi, rfl⟩
      · rcases (mem_insert (hk b)).mp h with h | rfl
        · exact .inl h
        · exact .inr ⟨b, List.mem_cons_self, _, le_refl _, rfl⟩
      · exact .inr ⟨b', List.mem_cons_of_mem _ hb, i, (Nat.le_succ _).trans hi, rfl⟩

theorem mem_insertEach_of_mem {t : Table key} {x : α} (hx : x ∈ t) (l : List β) :
    x ∈ t.insertEach mk l hk := by
  induction l generalizing t with
  | nil => exact hx
  | cons b l ih => exact ih ((mem_insert (hk b)).mpr (.inl hx))

theorem exists_mem_insertEach (t : Table key) {l : List β} {b : β} (hb : b ∈ l) :
    ∃ i, mk b i ∈ t.insertEach mk l hk := by
  induction l generalizing t with
  | nil => exact absurd hb List.not_mem_nil
  | cons a l ih =>
      rcases List.mem_cons.mp hb with rfl | hb
      · exact ⟨t.next, mem_insertEach_of_mem ((mem_insert (hk b)).mpr (.inr rfl)) l⟩
      · exact ih (t.insert (mk a) (hk a)) hb

end InsertEach

theorem mem_map {t : Table key} {f : α → α} {hf : ∀ r, key (f r) = key r} {x : α} :
    x ∈ t.map f hf ↔ ∃ r ∈ t, f r = x := List.mem_map

theorem mem_filter {t : Table key} {p : α → Bool} {x : α} :
    x ∈ t.filter p ↔ x ∈ t ∧ p x = true := List.mem_filter

theorem filter_eq_self {t : Table key} {p : α → Bool} (h : ∀ r ∈ t, p r = true) :
    t.filter p = t := ext (List.filter_eq_self.mpr h) rfl

theorem find_eq_some_iff {t : Table key} {k : ℕ} {r : α} :
    t.find k = some r ↔ r ∈ t ∧ key r = k := by
  constructor
  · intro h
    exact ⟨List.mem_of_find?_eq_some h, by simpa using List.find?_some h⟩
  · rintro ⟨hm, hk⟩
    obtain ⟨x, hx⟩ : ∃ x, t.find k = some x := by
      rw [← Option.isSome_iff_exists, find, List.find?_isSome]
      exact ⟨r, hm, by simpa using hk⟩
    have hx' : x ∈ t ∧ key x = k :=
      ⟨List.mem_of_find?_eq_some hx, by simpa using List.find?_some hx⟩
    rw [hx, eq_of_key_eq hx'.1 hm (hx'.2.trans hk.symm)]

theorem find_key {t : Table key} {r : α} (h : r ∈ t) : t.find (key r) = some r :=
  find_eq_some_iff.mpr ⟨h, rfl⟩

theorem find_mem {t : Table key} {k : ℕ} {r : α} (h : t.find k = some r) : r ∈ t :=
  (find_eq_some_iff.mp h).1

theorem key_of_find {t : Table key} {k : ℕ} {r : α} (h : t.find k = some r) : key r = k :=
  (find_eq_some_iff.mp h).2

/-- The row that is found is the only one with its key. -/
theorem eq_of_find {t : Table key} {k : ℕ} {r r' : α} (h : t.find k = some r) (hr : r' ∈ t)
    (hk : key r' = k) : r' = r :=
  eq_of_key_eq hr (find_mem h) (hk.trans (key_of_find h).symm)

theorem find_eq_none_iff {t : Table key} {k : ℕ} : t.find k = none ↔ ∀ r ∈ t, key r ≠ k := by
  rw [find, List.find?_eq_none]
  simp [mem_def]

theorem find_insert {t : Table key} {mk : ℕ → α} {hk : ∀ i, key (mk i) = i} (k : ℕ) :
    (t.insert mk hk).find k = if k = t.next then some (mk t.next) else t.find k := by
  split
  · next h => exact find_eq_some_iff.mpr ⟨(mem_insert).mpr (.inr rfl), (hk _).trans h.symm⟩
  · next h =>
    have h1 : key (mk t.next) ≠ k := by rw [hk]; exact Ne.symm h
    simp [find, insert, List.find?_append, h1]

theorem find_lt_next {t : Table key} {k : ℕ} {r : α} (h : t.find k = some r) : k < t.next := by
  rw [← key_of_find h]
  exact key_lt_next (find_mem h)

theorem mem_update {t : Table key} {k : ℕ} {f : α → α} {x : α}
    (hf : ∀ r, key (f r) = key r := by first | assumption | (intro _; exact Eq.trans rfl rfl)) :
    x ∈ t.update k f hf ↔ ∃ r ∈ t, (if key r = k then f r else r) = x := mem_map

theorem find_map {t : Table key} {f : α → α} {hf : ∀ r, key (f r) = key r} (k : ℕ) :
    (t.map f hf).find k = (t.find k).map f := by
  simp only [find, map, List.find?_map]
  congr 2
  funext r
  simp [hf]

theorem find_update {t : Table key} {k : ℕ} {f : α → α} {hf : ∀ r, key (f r) = key r} (k' : ℕ) :
    (t.update k f hf).find k' = if k' = k then (t.find k').map f else t.find k' := by
  rw [update, find_map]
  cases h : t.find k' with
  | none => simp
  | some r =>
      have hk := key_of_find h
      subst hk
      by_cases hk : key r = k <;> simp [hk]

theorem find_update_self {t : Table key} {k : ℕ} {f : α → α} {hf : ∀ r, key (f r) = key r} :
    (t.update k f hf).find k = (t.find k).map f := by
  rw [find_update, if_pos rfl]

theorem find_update_ne {t : Table key} {k k' : ℕ} {f : α → α} {hf : ∀ r, key (f r) = key r}
    (h : k' ≠ k) : (t.update k f hf).find k' = t.find k' := by
  rw [find_update, if_neg h]

theorem mem_update_of_mem {t : Table key} {r : α} {f : α → α} {x : α} (hr : r ∈ t)
    (hf : ∀ r, key (f r) = key r := by first | assumption | (intro _; exact Eq.trans rfl rfl)) :
    x ∈ t.update (key r) f hf ↔ x = f r ∨ (x ∈ t ∧ key x ≠ key r) := by
  rw [mem_update]
  constructor
  · rintro ⟨y, hy, rfl⟩
    split
    · next h => exact .inl (by rw [eq_of_key_eq hy hr h])
    · next h => exact .inr ⟨hy, h⟩
  · rintro (rfl | ⟨hx, hk⟩)
    · exact ⟨r, hr, if_pos rfl⟩
    · exact ⟨x, hx, if_neg hk⟩

/-- An update depends only on what it does to the row it finds. -/
theorem update_congr {t : Table key} {r : α} {f g : α → α} (hr : r ∈ t) (h : f r = g r)
    (hf : ∀ r, key (f r) = key r := by first | assumption | (intro _; exact Eq.trans rfl rfl))
    (hg : ∀ r, key (g r) = key r := by first | assumption | (intro _; exact Eq.trans rfl rfl)) :
    t.update (key r) f hf = t.update (key r) g hg := by
  refine ext (List.map_congr_left ?_) rfl
  intro x hx
  split
  · next hk => rw [eq_of_key_eq hx hr hk, h]
  · rfl

/-- Writing what a row holds already changes nothing. -/
theorem update_eq_self {t : Table key} {k : ℕ} {f : α → α} (h : ∀ r ∈ t, key r = k → f r = r)
    (hf : ∀ r, key (f r) = key r := by first | assumption | (intro _; exact Eq.trans rfl rfl)) :
    t.update k f hf = t := by
  refine ext ((List.map_congr_left ?_).trans (List.map_id _)) rfl
  intro x hx
  split
  · next hk => exact h x hx hk
  · rfl

/-- Changing the row that was just inserted is inserting the changed row. -/
theorem update_insert {t : Table key} {mk : ℕ → α} {f : α → α} (hk : ∀ i, key (mk i) = i)
    (hf : ∀ r, key (f r) = key r) :
    (t.insert mk hk).update t.next f hf =
      t.insert (fun i => f (mk i)) (fun i => (hf _).trans (hk i)) := by
  refine ext ?_ rfl
  simp only [update, map, insert, List.map_append, List.map_cons, List.map_nil, hk, if_true]
  congr 1
  rw [List.map_congr_left (g := id), List.map_id]
  intro x hx
  rw [if_neg (t.lt_next x hx).ne, id]

/-- Changing a row twice is changing it once. -/
theorem update_update {t : Table key} {k : ℕ} {f g : α → α} {hf : ∀ r, key (f r) = key r}
    {hg : ∀ r, key (g r) = key r} :
    (t.update k f hf).update k g hg =
      t.update k (fun r => g (f r)) (fun r => (hg _).trans (hf r)) := by
  refine ext ?_ rfl
  simp only [update, map, List.map_map]
  apply List.map_congr_left
  intro r _
  show (if key (if key r = k then f r else r) = k then _ else _) = _
  split_ifs with h1 h2 <;> simp_all

/-- Changes of different rows commute. -/
theorem update_comm {t : Table key} {k k' : ℕ} {f g : α → α} {hf : ∀ r, key (f r) = key r}
    {hg : ∀ r, key (g r) = key r} (hne : k ≠ k') :
    (t.update k f hf).update k' g hg = (t.update k' g hg).update k f hf := by
  refine ext ?_ rfl
  simp only [update, map, List.map_map]
  apply List.map_congr_left
  intro r _
  simp only [Function.comp_apply]
  by_cases h1 : key r = k
  · have h2 : key r ≠ k' := fun h => hne (h1.symm.trans h)
    rw [if_pos h1, if_neg h2, if_pos h1, if_neg (by rw [hf]; exact h2)]
  · rw [if_neg h1]
    by_cases h2 : key r = k'
    · rw [if_pos h2, if_neg (by rw [hg]; exact h1)]
    · rw [if_neg h2, if_neg h1]

theorem mem_erase {t : Table key} {k : ℕ} {x : α} : x ∈ t.erase k ↔ x ∈ t ∧ key x ≠ k := by
  simp [erase, mem_filter]

theorem erase_eq_self {t : Table key} {k : ℕ} (h : t.find k = none) : t.erase k = t :=
  filter_eq_self fun r hr => decide_eq_true (find_eq_none_iff.mp h r hr)

theorem find_erase_self {t : Table key} {k : ℕ} : (t.erase k).find k = none :=
  find_eq_none_iff.mpr fun _ hr => (mem_erase.mp hr).2

theorem find_erase_ne {t : Table key} {k k' : ℕ} (h : k' ≠ k) :
    (t.erase k).find k' = t.find k' := by
  cases hf : t.find k' with
  | none =>
      rw [find_eq_none_iff] at hf ⊢
      exact fun r hr => hf r (mem_erase.mp hr).1
  | some r =>
      obtain ⟨hr, hk⟩ := find_eq_some_iff.mp hf
      exact find_eq_some_iff.mpr ⟨mem_erase.mpr ⟨hr, hk ▸ h⟩, hk⟩

/-! ### Totals -/

section Sum

variable {M : Type} [AddCommMonoid M]

/-- The total of `g` over all rows. -/
def sum (t : Table key) (g : α → M) : M := (t.rows.map g).sum

theorem sum_congr {t : Table key} {g g' : α → M} (h : ∀ r ∈ t, g r = g' r) :
    t.sum g = t.sum g' := by
  unfold sum
  rw [List.map_congr_left h]

theorem sum_eq_zero {t : Table key} {g : α → M} (h : ∀ r ∈ t, g r = 0) : t.sum g = 0 := by
  rw [sum_congr h]
  simp [sum]

theorem sum_add (t : Table key) (g g' : α → M) :
    t.sum (fun r => g r + g' r) = t.sum g + t.sum g' := List.sum_map_add

theorem sum_map (t : Table key) (f : α → α) (hf : ∀ r, key (f r) = key r) (g : α → M) :
    (t.map f hf).sum g = t.sum (fun r => g (f r)) := by
  simp only [sum, map, List.map_map]
  rfl

/-- The total does not notice a change of rows that `g` does not notice. -/
theorem sum_map_congr {t : Table key} {f : α → α} {hf : ∀ r, key (f r) = key r} {g : α → M}
    (h : ∀ r ∈ t, g (f r) = g r) : (t.map f hf).sum g = t.sum g := by
  rw [sum_map]
  exact sum_congr h

theorem le_sum [PartialOrder M] [IsOrderedAddMonoid M] {t : Table key} {g : α → M} {r : α}
    (hr : r ∈ t) (h : ∀ x ∈ t, 0 ≤ g x) : g r ≤ t.sum g := by
  apply List.single_le_sum
  · intro x hx
    obtain ⟨y, hy, rfl⟩ := List.mem_map.mp hx
    exact h y hy
  · exact List.mem_map.mpr ⟨r, hr, rfl⟩

theorem sum_nonneg [PartialOrder M] [IsOrderedAddMonoid M] {t : Table key} {g : α → M}
    (h : ∀ r ∈ t, 0 ≤ g r) : 0 ≤ t.sum g := by
  apply List.sum_nonneg
  intro x hx
  obtain ⟨r, hr, rfl⟩ := List.mem_map.mp hx
  exact h r hr

theorem sum_le_sum [PartialOrder M] [IsOrderedAddMonoid M] {t : Table key} {g h : α → M}
    (hle : ∀ r ∈ t, g r ≤ h r) : t.sum g ≤ t.sum h :=
  List.sum_le_sum hle

/-- If every row's contribution to `g` is not positive or is matched by a row's contribution to
`h`, no row being matched twice, the total of `g` is at most that of `h`. -/
theorem sum_le_sum_of_match [PartialOrder M] [IsOrderedAddMonoid M] {t : Table key} {g h : α → M}
    (R : α → α → Prop) (hR : ∀ r r' p, r ∈ t → r' ∈ t → R r p → R r' p → r = r')
    (hh : ∀ p ∈ t, 0 ≤ h p) (hg : ∀ r ∈ t, g r ≤ 0 ∨ ∃ p ∈ t, R r p ∧ g r ≤ h p) :
    t.sum g ≤ t.sum h := by
  classical
  have hn : t.rows.Nodup := List.Nodup.of_map key t.nodup
  choose! m hm using fun (r : α) (hr : r ∈ t ∧ ¬ g r ≤ 0) => (hg r hr.1).resolve_left hr.2
  let S := t.rows.toFinset.filter fun r => ¬ g r ≤ 0
  have hS : ∀ r ∈ S, r ∈ t ∧ ¬ g r ≤ 0 := by
    intro r hr
    simpa [S, mem_def] using hr
  have hinj : Set.InjOn m S := by
    intro r hr r' hr' e
    have h1 := hm r (hS r hr)
    have h2 := hm r' (hS r' hr')
    rw [← e] at h2
    exact hR r r' _ (hS r hr).1 (hS r' hr').1 h1.2.1 h2.2.1
  calc t.sum g = ∑ r ∈ t.rows.toFinset, g r := (List.sum_toFinset g hn).symm
    _ ≤ ∑ r ∈ S, g r := by
        rw [← Finset.sum_filter_add_sum_filter_not t.rows.toFinset (fun r => ¬ g r ≤ 0) g]
        have h1 : ∑ r ∈ t.rows.toFinset.filter (fun r => ¬ ¬ g r ≤ 0), g r ≤ 0 :=
          Finset.sum_nonpos fun r hr => not_not.mp (Finset.mem_filter.mp hr).2
        exact add_le_of_nonpos_right h1
    _ ≤ ∑ r ∈ S, h (m r) := Finset.sum_le_sum fun r hr => (hm r (hS r hr)).2.2
    _ = ∑ p ∈ S.image m, h p := (Finset.sum_image hinj).symm
    _ ≤ ∑ p ∈ t.rows.toFinset, h p := by
        apply Finset.sum_le_sum_of_subset_of_nonneg
        · intro p hp
          obtain ⟨r, hr, rfl⟩ := Finset.mem_image.mp hp
          exact List.mem_toFinset.mpr (hm r (hS r hr)).1
        · intro p hp _
          exact hh p (List.mem_toFinset.mp hp)
    _ = t.sum h := List.sum_toFinset h hn

theorem sum_insert (t : Table key) (mk : ℕ → α) (hk : ∀ i, key (mk i) = i) (g : α → M) :
    (t.insert mk hk).sum g = t.sum g + g (mk t.next) := by
  simp [sum, insert]

/-- Rows inserted one after the other add up, if `g` does not look at their keys. -/
theorem sum_insertEach {β : Type} {mk : β → ℕ → α} {hk : ∀ b i, key (mk b i) = i} {g : α → M}
    (g' : β → M) (h : ∀ b i, g (mk b i) = g' b) (t : Table key) (l : List β) :
    (t.insertEach mk l hk).sum g = t.sum g + (l.map g').sum := by
  induction l generalizing t with
  | nil => simp [insertEach]
  | cons b l ih =>
      have h1 := ih (t.insert (mk b) (hk b))
      rw [sum_insert, h] at h1
      rw [List.map_cons, List.sum_cons, ← add_assoc, ← h1]
      rfl

theorem sum_filter (t : Table key) (p : α → Bool) (g : α → M) :
    (t.filter p).sum g = t.sum fun r => if p r then g r else 0 := by
  show ((t.rows.filter p).map g).sum = _
  unfold sum
  induction t.rows with
  | nil => rfl
  | cons r l ih =>
      rw [List.filter_cons, List.map_cons, List.sum_cons, ← ih]
      split <;> simp

theorem sum_update_congr {t : Table key} {k : ℕ} {f : α → α} {g : α → M}
    (h : ∀ r ∈ t, key r = k → g (f r) = g r)
    (hf : ∀ r, key (f r) = key r := by first | assumption | (intro _; exact Eq.trans rfl rfl)) :
    (t.update k f hf).sum g = t.sum g := by
  apply sum_map_congr
  intro r hr
  split
  · next hk => exact h r hr hk
  · rfl

theorem sum_update_le [PartialOrder M] [IsOrderedAddMonoid M] {t : Table key} {k : ℕ} {f : α → α}
    {g : α → M} (h : ∀ r ∈ t, key r = k → g (f r) ≤ g r)
    (hf : ∀ r, key (f r) = key r := by first | assumption | (intro _; exact Eq.trans rfl rfl)) :
    (t.update k f hf).sum g ≤ t.sum g := by
  rw [update, sum_map]
  apply sum_le_sum
  intro r hr
  split
  · next hk => exact h r hr hk
  · exact le_rfl

theorem rows_sum_erase {l : List α} (hl : (l.map key).Nodup) {r : α} (hr : r ∈ l) (g : α → M) :
    (l.map g).sum = g r + ((l.filter (fun x => decide (key x ≠ key r))).map g).sum := by
  induction l with
  | nil => exact absurd hr List.not_mem_nil
  | cons x xs ih =>
      rw [List.map_cons, List.nodup_cons] at hl
      rcases List.mem_cons.mp hr with rfl | hr'
      · have h1 : xs.filter (fun y => decide (key y ≠ key r)) = xs := by
          rw [List.filter_eq_self]
          intro y hy
          have h2 : key y ≠ key r := fun h => hl.1 (h ▸ List.mem_map.mpr ⟨y, hy, rfl⟩)
          simpa using h2
        rw [List.filter_cons_of_neg (by simp), h1, List.map_cons, List.sum_cons]
      · have h1 : key x ≠ key r := fun h => hl.1 (h ▸ List.mem_map.mpr ⟨r, hr', rfl⟩)
        rw [List.filter_cons_of_pos (by simpa using h1), List.map_cons, List.sum_cons,
          ih hl.2 hr', List.map_cons, List.sum_cons]
        abel

/-- Removing a row takes its contribution out of the total. -/
theorem sum_erase {t : Table key} {r : α} (hr : r ∈ t) (g : α → M) :
    t.sum g = g r + (t.erase (key r)).sum g :=
  rows_sum_erase t.nodup hr g

/-- Only one row contributes to the total. -/
theorem sum_eq_single {t : Table key} {r : α} (hr : r ∈ t) {g : α → M}
    (h : ∀ x ∈ t, key x ≠ key r → g x = 0) : t.sum g = g r := by
  rw [sum_erase hr, sum_eq_zero, add_zero]
  intro x hx
  obtain ⟨hx, hne⟩ := mem_erase.mp hx
  exact h x hx hne

/-- Two totals can be taken in either order. -/
theorem sum_comm {β : Type} {key' : β → ℕ} (t : Table key) (u : Table key') (g : α → β → M) :
    t.sum (fun r => u.sum (g r)) = u.sum fun c => t.sum fun r => g r c := by
  unfold sum
  induction t.rows with
  | nil => simp
  | cons r l ih => simp only [List.map_cons, List.sum_cons, ih, List.sum_map_add]

/-- The rows of `u`, each under the row of `t` that it refers to, and those that refer to none. -/
theorem sum_by {β : Type} {key' : β → ℕ} (t : Table key) (u : Table key') (ref : β → Option ℕ)
    (h : ∀ c ∈ u, ∀ k, ref c = some k → ∃ r ∈ t, key r = k) (g : β → M) :
    u.sum g = t.sum (fun r => u.sum fun c => if ref c = some (key r) then g c else 0) +
      u.sum fun c => if ref c = none then g c else 0 := by
  rw [sum_comm, ← sum_add]
  apply sum_congr
  intro c hc
  cases hr : ref c with
  | none => simp [sum]
  | some k =>
      obtain ⟨r, hrt, rfl⟩ := h c hc k hr
      rw [sum_eq_single hrt]
      · simp
      · intro x _ hx
        rw [if_neg]
        simpa using hx.symm

/-- Changing a row exchanges its contribution to the total. -/
theorem sum_update {t : Table key} {r : α} {f : α → α} (hr : r ∈ t) (g : α → M)
    (hf : ∀ r, key (f r) = key r := by first | assumption | (intro _; exact Eq.trans rfl rfl)) :
    (t.update (key r) f hf).sum g + g r = t.sum g + g (f r) := by
  have h1 : f r ∈ t.update (key r) f hf := (mem_update).mpr ⟨r, hr, by simp⟩
  have h2 : (t.update (key r) f hf).erase (key r) = t.erase (key r) := by
    refine ext ?_ rfl
    simp only [erase, filter, update, map, List.filter_map]
    rw [List.filter_congr (q := fun x => decide (key x ≠ key r))]
    · rw [List.map_congr_left (g := id), List.map_id]
      intro x hx
      have h3 : key x ≠ key r := by simpa using (List.mem_filter.mp hx).2
      simp [h3]
    · intro x _
      by_cases h3 : key x = key r <;> simp [h3, hf]
  have h4 := sum_erase h1 g
  rw [hf, h2] at h4
  rw [sum_erase hr g, h4]
  abel

end Sum

end Table

end Mokosh
