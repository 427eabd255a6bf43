import Mathlib.Algebra.Order.Ring.Int
import Mathlib.Data.List.Nodup

/-! # Maps whose entries expire

A hash map from keys to the times at which they expire, as the list of its entries in the order in which its iterator
happens to visit them.  `Reordered` maps hold the same entries.  `makeRoom` drops an entry that expires first from a
full map; nothing that expires later than another entry is dropped (`mem_makeRoom`). -/

namespace Mokosh

structure Expiring (κ : Type) where
  entries : List (κ × ℤ)
  nodup : (entries.map Prod.fst).Nodup

namespace Expiring

variable {κ : Type}

def empty : Expiring κ := { entries := [], nodup := List.nodup_nil }

def len (m : Expiring κ) : ℕ := m.entries.length

/-- The same entries, in an order of the map's own. -/
def Reordered (m m' : Expiring κ) : Prop := m.entries.Perm m'.entries

def filter (m : Expiring κ) (p : κ × ℤ → Bool) : Expiring κ where
  entries := m.entries.filter p
  nodup := m.nodup.sublist (List.filter_sublist.map _)

/-- `HashMap::retain`, of the entries that expire after `now`. -/
def retain (m : Expiring κ) (now : ℤ) : Expiring κ := m.filter fun e => now < e.2

/-- `Iterator::min_by_key`: the first of the entries that expire first. -/
def minByExpiry : List (κ × ℤ) → Option (κ × ℤ)
  | [] => none
  | e :: es =>
    match minByExpiry es with
    | none => some e
    | some e' => if e.2 ≤ e'.2 then some e else some e'

def oldest (m : Expiring κ) : Option (κ × ℤ) := minByExpiry m.entries

variable {m m' : Expiring κ} {k : κ} {e : κ × ℤ} {expires now : ℤ} {cap : ℕ}

theorem mem_retain : e ∈ (m.retain now).entries ↔ e ∈ m.entries ∧ now < e.2 := by
  simp [retain, filter]

theorem Reordered.mem (h : m.Reordered m') : e ∈ m'.entries ↔ e ∈ m.entries := h.mem_iff.symm

theorem Reordered.len (h : m.Reordered m') : m'.len = m.len := h.length_eq.symm

theorem len_retain_le : (m.retain now).len ≤ m.len := List.length_filter_le _ _

theorem minByExpiry_eq_none {es : List (κ × ℤ)} (h : minByExpiry es = none) : es = [] := by
  cases es with
  | nil => rfl
  | cons e es =>
      unfold minByExpiry at h
      split at h
      · cases h
      · split at h <;> cases h

theorem minByExpiry_some {es : List (κ × ℤ)} {e : κ × ℤ} (h : minByExpiry es = some e) :
    e ∈ es ∧ ∀ e' ∈ es, e.2 ≤ e'.2 := by
  induction es generalizing e with
  | nil => cases h
  | cons d es ih =>
      unfold minByExpiry at h
      split at h
      · next hnone =>
          obtain rfl := Option.some.inj h
          rw [minByExpiry_eq_none hnone]
          exact ⟨List.mem_cons_self, fun e' he' => (List.mem_singleton.mp he') ▸ le_rfl⟩
      · next e₁ hsome =>
          obtain ⟨hmem, hfirst⟩ := ih hsome
          split at h
          · next hle =>
              obtain rfl := Option.some.inj h
              refine ⟨List.mem_cons_self, fun e' he' => ?_⟩
              rcases List.mem_cons.mp he' with rfl | he'
              · exact le_rfl
              · exact hle.trans (hfirst e' he')
          · next hgt =>
              obtain rfl := Option.some.inj h
              refine ⟨List.mem_cons_of_mem _ hmem, fun e' he' => ?_⟩
              rcases List.mem_cons.mp he' with rfl | he'
              · exact (not_le.mp hgt).le
              · exact hfirst e' he'

theorem exists_oldest (h : 0 < m.len) : ∃ e, m.oldest = some e := by
  cases ho : m.oldest with
  | some e => exact ⟨e, rfl⟩
  | none => exact absurd (minByExpiry_eq_none ho) (List.ne_nil_of_length_pos h)

/-! ### Keys -/

variable [DecidableEq κ]

def get (m : Expiring κ) (k : κ) : Option ℤ := (m.entries.find? fun e => e.1 = k).map Prod.snd

def containsKey (m : Expiring κ) (k : κ) : Bool := (m.get k).isSome

def remove (m : Expiring κ) (k : κ) : Expiring κ := m.filter fun e => e.1 ≠ k

def insert (m : Expiring κ) (k : κ) (expires : ℤ) : Expiring κ where
  entries := (k, expires) :: (m.remove k).entries
  nodup := by
    refine List.nodup_cons.mpr ⟨?_, (m.remove k).nodup⟩
    simp [remove, filter]

/-- A full map that is to take a new key drops its oldest entry. -/
def makeRoom (m : Expiring κ) (cap : ℕ) (k : κ) : Expiring κ :=
  if cap ≤ m.len ∧ !m.containsKey k then
    match m.oldest with
    | some e => m.remove e.1
    | none => m
  else m

theorem get_eq_some : m.get k = some expires ↔ (k, expires) ∈ m.entries := by
  unfold get
  rw [Option.map_eq_some_iff]
  constructor
  · rintro ⟨⟨k', expires'⟩, hfind, rfl⟩
    have hk : k' = k := by simpa using List.find?_some hfind
    exact hk ▸ List.mem_of_find?_eq_some hfind
  · intro hmem
    obtain ⟨e, hfind⟩ : ∃ e, m.entries.find? (fun e => e.1 = k) = some e :=
      Option.isSome_iff_exists.mp (List.find?_isSome.mpr ⟨_, hmem, by simp⟩)
    have hk : e.1 = k := by simpa using List.find?_some hfind
    have he : e = (k, expires) := List.inj_on_of_nodup_map m.nodup (List.mem_of_find?_eq_some hfind) hmem hk
    exact ⟨e, hfind, by rw [he]⟩

theorem containsKey_iff : m.containsKey k = true ↔ ∃ expires, (k, expires) ∈ m.entries := by
  unfold containsKey
  rw [Option.isSome_iff_exists]
  exact exists_congr fun _ => get_eq_some

theorem mem_remove : e ∈ (m.remove k).entries ↔ e ∈ m.entries ∧ e.1 ≠ k := by
  simp [remove, filter]

theorem mem_insert : e ∈ (m.insert k expires).entries ↔ e = (k, expires) ∨ e ∈ m.entries ∧ e.1 ≠ k := by
  unfold insert
  rw [List.mem_cons, mem_remove]

theorem len_remove_le : (m.remove k).len ≤ m.len := List.length_filter_le _ _

theorem len_remove_lt (h : m.containsKey k = true) : (m.remove k).len < m.len := by
  obtain ⟨expires, hmem⟩ := containsKey_iff.mp h
  exact List.length_filter_lt_length_iff_exists.mpr ⟨_, hmem, by simp⟩

theorem len_insert : (m.insert k expires).len = (m.remove k).len + 1 := rfl

/-! ### Making room -/

/-- What `makeRoom` comes to: nothing, or an entry that expires first is dropped from a full map without the key. -/
theorem makeRoom_cases (hcap : 0 < cap) (m : Expiring κ) (k : κ) :
    m.makeRoom cap k = m ∧ (m.len < cap ∨ m.containsKey k = true) ∨
      ∃ e, e ∈ m.entries ∧ (∀ e' ∈ m.entries, e.2 ≤ e'.2) ∧ cap ≤ m.len ∧ m.containsKey k = false ∧
        m.makeRoom cap k = m.remove e.1 := by
  unfold makeRoom
  split
  · next hfull =>
      obtain ⟨e, ho⟩ := exists_oldest (m := m) (hcap.trans_le hfull.1)
      rw [ho]
      exact .inr ⟨e, (minByExpiry_some ho).1, (minByExpiry_some ho).2, hfull.1, by simpa using hfull.2, rfl⟩
  · next hroom =>
      refine .inl ⟨rfl, ?_⟩
      by_contra hnot
      rw [not_or, not_lt, Bool.not_eq_true] at hnot
      exact hroom ⟨hnot.1, by rw [hnot.2]; rfl⟩

theorem mem_of_mem_makeRoom (hcap : 0 < cap) (h : e ∈ (m.makeRoom cap k).entries) : e ∈ m.entries := by
  obtain ⟨heq, -⟩ | ⟨oldest, -, -, -, -, heq⟩ := makeRoom_cases hcap m k
  · rwa [heq] at h
  · rw [heq] at h
    exact (mem_remove.mp h).1

/-- With room made, the key goes in without the map growing past its cap. -/
theorem len_insert_makeRoom_le (hcap : 0 < cap) (h : m.len ≤ cap) :
    ((m.makeRoom cap k).insert k expires).len ≤ cap := by
  rw [len_insert]
  obtain ⟨heq, hlt | hk⟩ | ⟨oldest, hmem, -, -, -, heq⟩ := makeRoom_cases hcap m k
  · rw [heq]
    exact (Nat.add_le_add_right len_remove_le 1).trans hlt
  · rw [heq]
    exact (len_remove_lt hk).trans_le h
  · rw [heq]
    have hdrop : (m.remove oldest.1).len < m.len := len_remove_lt (containsKey_iff.mpr ⟨_, hmem⟩)
    have hkeep : ((m.remove oldest.1).remove k).len ≤ (m.remove oldest.1).len := len_remove_le
    omega

/-- An entry stays, unless it expires first in a map that is full without the key. -/
theorem mem_makeRoom (hcap : 0 < cap) (h : e ∈ m.entries)
    (hlate : (∀ e' ∈ m.entries, e.2 ≤ e'.2) → m.containsKey k = false → m.len < cap) :
    e ∈ (m.makeRoom cap k).entries := by
  obtain ⟨heq, -⟩ | ⟨oldest, hmem, hfirst, hfull, hk, heq⟩ := makeRoom_cases hcap m k
  · rwa [heq]
  · rw [heq]
    refine mem_remove.mpr ⟨h, fun hkey => ?_⟩
    obtain rfl : e = oldest := List.inj_on_of_nodup_map m.nodup h hmem hkey
    exact absurd (hlate hfirst hk) (not_lt_of_ge hfull)

end Expiring

end Mokosh
