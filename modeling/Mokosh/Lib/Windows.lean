import Mathlib.Algebra.Order.Group.Nat
import Mathlib.Data.List.Basic

/-! # Fixed windows

Events are counted for each key in windows of the length `len`.  The first event of a key that has no window opens
one; a window that is over is removed when the next event comes, of whatever key, and does not count until then.

* `record` counts an event.  A count stops at `bound`.
* `Sound` ties the windows to the history: which windows were opened, and which events were recorded.
* `Covered`: what was seen of a key since its window began has been counted, up to `n` events that are still to be
  recorded. -/

namespace Mokosh

structure Window where
  started : ℕ
  count : ℕ
deriving DecidableEq

/-- The windows.  The history: when windows were opened, and which events were recorded. -/
structure Windows (κ : Type) where
  map : κ → Option Window
  opened : List (κ × ℕ)
  recorded : List (κ × ℕ)

namespace Windows

variable {κ : Type} (len now : ℕ) (t : Windows κ) (k : κ)

def empty : Windows κ := { map := fun _ => none, opened := [], recorded := [] }

/-- The windows that are not over. -/
def retain : Windows κ := { t with map := fun k => (t.map k).filter fun w => now - w.started < len }

/-- The window of the key, if it is not over. -/
def live : Option Window := (t.map k).filter fun w => now - w.started < len

def count : ℕ := ((t.live len now k).map (·.count)).getD 0

/-- When the window of the key began, or would begin. -/
def begins : ℕ := ((t.live len now k).map (·.started)).getD now

variable [DecidableEq κ] (bound : ℕ)

/-- An event of the key: one more in its window, or the first in a new one. -/
def bump : Windows κ :=
  match t.map k with
  | some w =>
    { t with
      map := fun k' => if k' = k then some { w with count := min (w.count + 1) bound } else t.map k'
      recorded := (k, now) :: t.recorded }
  | none =>
    { map := fun k' => if k' = k then some { started := now, count := 1 } else t.map k'
      opened := (k, now) :: t.opened
      recorded := (k, now) :: t.recorded }

def record : Windows κ := (t.retain len now).bump now k bound

/-- The number of events of the key from `s` on. -/
def since (events : List (κ × ℕ)) (k : κ) (s : ℕ) : ℕ := events.countP fun e => e.1 = k && s ≤ e.2

/-- Those of a window that began at `s`. -/
def within (events : List (κ × ℕ)) (k : κ) (s : ℕ) : ℕ :=
  events.countP fun e => e.1 = k && s ≤ e.2 && e.2 < s + len

variable {len now t k}

theorem within_le_since (len : ℕ) (events : List (κ × ℕ)) (k : κ) (s : ℕ) : within len events k s ≤ since events k s :=
  List.countP_mono_left fun e _ h => by
    rw [Bool.and_eq_true] at h
    exact h.1

/-- Nothing was seen after the last event. -/
theorem since_eq_zero {events : List (κ × ℕ)} {s : ℕ} (h : ∀ e ∈ events, e.2 < s) : since events k s = 0 :=
  List.countP_eq_zero.mpr fun e he hp => by
    rw [Bool.and_eq_true, decide_eq_true_eq, decide_eq_true_eq] at hp
    exact absurd (h e he) (not_lt_of_ge hp.2)

theorem since_cons_self {events : List (κ × ℕ)} {s : ℕ} (h : s ≤ now) :
    since ((k, now) :: events) k s = since events k s + 1 :=
  List.countP_cons_of_pos (by simp [h])

theorem since_cons_ne {events : List (κ × ℕ)} {k' : κ} {s : ℕ} (h : k' ≠ k) :
    since ((k, now) :: events) k' s = since events k' s :=
  List.countP_cons_of_neg (by simp [Ne.symm h])

/-- An event after the window. -/
theorem within_cons_of_le {events : List (κ × ℕ)} {s : ℕ} (h : s + len ≤ now) (k' : κ) :
    within len ((k', now) :: events) k s = within len events k s :=
  List.countP_cons_of_neg (by simp [h])

theorem since_le_cons (k : κ) (events : List (κ × ℕ)) (e : κ × ℕ) (s : ℕ) :
    since events k s ≤ since (e :: events) k s :=
  List.Sublist.countP_le (List.sublist_cons_self e events)

/-! ### Windows in progress -/

omit [DecidableEq κ] in
theorem live_eq_some_iff {w : Window} : t.live len now k = some w ↔ t.map k = some w ∧ now - w.started < len := by
  rw [live, Option.filter_eq_some_iff, decide_eq_true_eq]

/-- What an event does to the window of its key. -/
def next (now bound : ℕ) : Option Window → Window
  | some w => { w with count := min (w.count + 1) bound }
  | none => { started := now, count := 1 }

theorem map_record (k' : κ) :
    (t.record len now k bound).map k' =
      if k' = k then some (next now bound (t.live len now k)) else t.live len now k' := by
  unfold record bump
  split
  · next w hw =>
      rw [show t.live len now k = some w from hw]
      rfl
  · next hw =>
      rw [show t.live len now k = none from hw]
      rfl

theorem live_record (hlen : 0 < len) (k' : κ) :
    (t.record len now k bound).live len now k' =
      if k' = k then some (next now bound (t.live len now k)) else t.live len now k' := by
  rw [live, map_record]
  split
  · refine Option.filter_eq_some_iff.mpr ⟨rfl, decide_eq_true ?_⟩
    cases hw : t.live len now k with
    | none => simpa [next] using hlen
    | some w => exact (live_eq_some_iff.mp hw).2
  · unfold live
    rw [Option.filter_filter]
    simp only [Bool.and_self]

theorem recorded_record : (t.record len now k bound).recorded = (k, now) :: t.recorded := by
  unfold record bump
  split <;> rfl

theorem opened_record : (t.record len now k bound).opened =
    if t.live len now k = none then (k, now) :: t.opened else t.opened := by
  unfold record bump
  split
  · next w hw => rw [show t.live len now k = some w from hw, if_neg (Option.some_ne_none w), retain]
  · next hw => rw [show t.live len now k = none from hw, if_pos rfl, retain]

/-- Every window was opened when it says, and has not counted more than was recorded since; a window that was opened
and is not over is there. -/
structure Sound (len now : ℕ) (t : Windows κ) : Prop where
  window : ∀ k w, t.map k = some w →
    w.started ≤ now ∧ (k, w.started) ∈ t.opened ∧ w.count ≤ since t.recorded k w.started
  opened : ∀ k s, (k, s) ∈ t.opened → s ≤ now ∧ (now < s + len → ∃ w, t.live len now k = some w ∧ w.started = s)

theorem sound_empty (len now : ℕ) : (empty : Windows κ).Sound len now where
  window _ _ h := nomatch h
  opened _ _ h := absurd h List.not_mem_nil

omit [DecidableEq κ] in
/-- A window stays in progress until it is over. -/
theorem live_add {d : ℕ} : t.live len (now + d) k = (t.live len now k).filter fun w => now + d - w.started < len := by
  unfold live
  cases t.map k with
  | none => rfl
  | some w =>
      simp only [Option.filter_some, decide_eq_true_eq]
      split
      · rw [if_pos (by omega), Option.filter_some, if_pos (by simpa)]
      · split
        · rw [Option.filter_some, if_neg (by simpa using by omega)]
        · rfl

theorem Sound.wait (h : t.Sound len now) (d : ℕ) : t.Sound len (now + d) where
  window k w hw := ⟨(h.window k w hw).1.trans (Nat.le_add_right now d), (h.window k w hw).2⟩
  opened k s hs := by
    obtain ⟨hle, hlive⟩ := h.opened k s hs
    refine ⟨hle.trans (Nat.le_add_right now d), fun hlt => ?_⟩
    obtain ⟨w, hw, rfl⟩ := hlive (lt_of_le_of_lt (Nat.le_add_right now d) hlt)
    refine ⟨w, ?_, rfl⟩
    rw [live_add, hw, Option.filter_some, if_pos (decide_eq_true (by omega))]

theorem Sound.record (h : t.Sound len now) (hlen : 0 < len) (k : κ) (bound : ℕ) :
    (t.record len now k bound).Sound len now where
  window k' w hw := by
    rw [map_record] at hw
    rw [recorded_record, opened_record]
    split at hw
    · next hk =>
        subst hk
        obtain rfl := Option.some.inj hw
        cases hlive : t.live len now k' with
        | none =>
            rw [if_pos rfl]
            refine ⟨Nat.le_refl now, List.mem_cons_self, ?_⟩
            rw [next, since_cons_self (Nat.le_refl now)]
            exact Nat.le_add_left 1 _
        | some w₀ =>
            obtain ⟨hle, hopened, hcount⟩ := h.window k' w₀ (live_eq_some_iff.mp hlive).1
            rw [if_neg (Option.some_ne_none w₀)]
            refine ⟨hle, hopened, ?_⟩
            rw [next, since_cons_self hle]
            exact (Nat.min_le_left _ _).trans (Nat.succ_le_succ hcount)
    · next hk =>
        obtain ⟨hle, hopened, hcount⟩ := h.window k' w (live_eq_some_iff.mp hw).1
        refine ⟨hle, ?_, hcount.trans (since_le_cons k' _ _ _)⟩
        split
        · exact List.mem_cons_of_mem _ hopened
        · exact hopened
  opened k' s hs := by
    rw [opened_record] at hs
    rw [live_record bound hlen]
    obtain ⟨rfl, hnew⟩ | hold : (k' = k ∧ t.live len now k = none ∧ s = now) ∨ (k', s) ∈ t.opened := by
      split at hs
      · next hnone =>
          obtain heq | hold := List.mem_cons.mp hs
          · exact .inl ⟨congrArg Prod.fst heq, hnone, congrArg Prod.snd heq⟩
          · exact .inr hold
      · exact .inr hs
    · obtain ⟨hnone, rfl⟩ := hnew
      rw [if_pos rfl, hnone]
      exact ⟨Nat.le_refl _, fun _ => ⟨_, rfl, rfl⟩⟩
    · obtain ⟨hle, hlive⟩ := h.opened k' s hold
      refine ⟨hle, fun hlt => ?_⟩
      obtain ⟨w, hw, rfl⟩ := hlive hlt
      split
      · next hk =>
          subst hk
          rw [hw]
          exact ⟨_, rfl, rfl⟩
      · exact ⟨w, hw, rfl⟩

/-! ### Events that are not recorded yet -/

/-- What was seen of the key since its window began was counted, but for `n` events. -/
def Covered (len now : ℕ) (t : Windows κ) (seen : List (κ × ℕ)) (k : κ) (n : ℕ) : Prop :=
  since seen k (t.begins len now k) ≤ t.count len now k + n

variable {seen : List (κ × ℕ)} {n : ℕ}

omit [DecidableEq κ] in
theorem begins_of_live {w : Window} (h : t.live len now k = some w) : t.begins len now k = w.started := by
  rw [begins, h]
  rfl

theorem begins_le (h : t.Sound len now) (k : κ) : t.begins len now k ≤ now := by
  cases hw : t.live len now k with
  | none =>
      rw [begins, hw]
      exact Nat.le_refl now
  | some w =>
      rw [begins_of_live hw]
      exact (h.window k w (live_eq_some_iff.mp hw).1).1

theorem Covered.wait (h : t.Covered len now seen k n) (hpast : ∀ e ∈ seen, e.2 ≤ now) (d : ℕ) :
    t.Covered len (now + d) seen k n := by
  cases d with
  | zero => exact h
  | succ d =>
      unfold Covered begins count at *
      cases hw : t.live len (now + (d + 1)) k with
      | none =>
          rw [Option.map_none, Option.getD_none, since_eq_zero]
          · exact Nat.zero_le _
          · exact fun e he => Nat.lt_succ_of_le ((hpast e he).trans (Nat.le_add_right now d))
      | some w =>
          have hlive : t.live len now k = some w := by
            rw [live_add] at hw
            exact (Option.filter_eq_some_iff.mp hw).1
          rwa [hlive] at h

omit [DecidableEq κ] in
theorem count_add_le (d : ℕ) : t.count len (now + d) k ≤ t.count len now k := by
  unfold count
  rw [live_add]
  cases t.live len now k with
  | none => exact Nat.le_refl _
  | some w =>
      rw [Option.filter_some]
      split
      · exact Nat.le_refl _
      · exact Nat.zero_le _

/-- An event adds one to its key, or nothing at the bound. -/
theorem count_record_le (hlen : 0 < len) (bound : ℕ) :
    (t.record len now k bound).count len now k ≤ t.count len now k + 1 := by
  unfold count
  rw [live_record bound hlen, if_pos rfl]
  cases t.live len now k with
  | none => exact Nat.le_refl _
  | some w => exact Nat.min_le_left _ _

theorem count_record_ne (hlen : 0 < len) (bound : ℕ) {k' : κ} (hk : k ≠ k') :
    (t.record len now k' bound).count len now k = t.count len now k := by
  unfold count
  rw [live_record bound hlen, if_neg hk]

/-- Another event is seen. -/
theorem Covered.see (h : t.Covered len now seen k n) (hsound : t.Sound len now) :
    t.Covered len now ((k, now) :: seen) k (n + 1) := by
  unfold Covered at *
  rw [since_cons_self (begins_le hsound k)]
  omega

theorem Covered.see_ne (h : t.Covered len now seen k n) {k' : κ} (hk : k ≠ k') :
    t.Covered len now ((k', now) :: seen) k n := by
  unfold Covered at *
  rwa [since_cons_ne hk]

/-- An event that was seen is recorded. -/
theorem Covered.record (h : t.Covered len now seen k (n + 1)) (hlen : 0 < len)
    (hbound : t.count len now k + 1 ≤ bound) : (t.record len now k bound).Covered len now seen k n := by
  unfold Covered begins count at *
  rw [live_record bound hlen, if_pos rfl]
  cases hw : t.live len now k with
  | none =>
      rw [hw] at h
      simpa [next, Nat.add_comm] using h
  | some w =>
      rw [hw] at h hbound
      rw [Option.map_some, Option.getD_some] at h hbound
      rw [Option.map_some, Option.getD_some] at h
      rw [Option.map_some, Option.getD_some, Option.map_some, Option.getD_some, next, Nat.min_eq_left hbound]
      dsimp only
      omega

theorem Covered.record_ne (h : t.Covered len now seen k n) (hlen : 0 < len) {k' : κ} (hk : k ≠ k') :
    (t.record len now k' bound).Covered len now seen k n := by
  unfold Covered begins count at *
  rwa [live_record bound hlen, if_neg hk]

/-- In a window that is not over, what was seen is at most what was counted and what is still to be. -/
theorem Covered.within_le (h : t.Covered len now seen k n) (hsound : t.Sound len now) {s : ℕ}
    (hs : (k, s) ∈ t.opened) (hlt : now < s + len) : within len seen k s ≤ t.count len now k + n := by
  obtain ⟨w, hw, rfl⟩ := (hsound.opened k s hs).2 hlt
  rw [Covered, begins_of_live hw] at h
  exact (within_le_since len seen k _).trans h

end Windows

end Mokosh
