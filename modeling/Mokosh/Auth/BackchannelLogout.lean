import Mathlib.Data.Finset.Card
import Mokosh.Lib.Expiring

/-! # Ended sessions

`RevokedSessions` of `auth/backchannel_logout.rs`: the sessions that the identity provider has ended, each until
`REVOKED_TTL_SECS` after its last logout, and `MAX_REVOKED` of them at most.  A run has the calls of `revoke` and
`is_revoked`, the newest first, at times that do not go back; before a `revoke`, the hash map may be in any order, so
that of several entries that expire first any one may be evicted.

**`remembers`**: a session is refused if it was revoked in the window and fewer than `MAX_REVOKED` others have been
revoked since; it is not refused if it was not revoked in the window; and the map stays within its cap. -/

namespace Mokosh.BackchannelLogout

open Expiring (Reordered)

def nanosPerSecond : ℤ := 1000000000

def revokedTtlSecs : ℤ := 900

def maxRevoked : ℕ := 50000

theorem maxRevoked_pos : 0 < maxRevoked := by decide

/-- `Duration::seconds(REVOKED_TTL_SECS)`, in nanoseconds, as every time here. -/
def revokedTtl : ℤ := revokedTtlSecs * nanosPerSecond

abbrev RevokedSessions := Expiring String

namespace RevokedSessions

def revoke (map : RevokedSessions) (sid : String) (now : ℤ) : RevokedSessions :=
  ((map.retain now).makeRoom maxRevoked sid).insert sid (now + revokedTtl)

def isRevoked (map : RevokedSessions) (sid : String) (now : ℤ) : Bool :=
  (map.get sid).any fun expires => now < expires

end RevokedSessions

/-- A call, with what it answered. -/
inductive Event where
  | revoke (sid : String) (now : ℤ)
  | isRevoked (sid : String) (now : ℤ) (answer : Bool)
deriving DecidableEq

def Event.now : Event → ℤ
  | .revoke _ now | .isRevoked _ now _ => now

inductive Run : List Event → RevokedSessions → Prop where
  | new : Run [] .empty
  | revoke {events : List Event} {map map' : RevokedSessions} {sid : String} {now : ℤ} (hrun : Run events map)
      (hnow : ∀ e ∈ events, e.now ≤ now) (horder : map.Reordered map') :
      Run (.revoke sid now :: events) (map'.revoke sid now)
  | isRevoked {events : List Event} {map : RevokedSessions} {sid : String} {now : ℤ} {answer : Bool}
      (hrun : Run events map) (hnow : ∀ e ∈ events, e.now ≤ now) (hanswer : map.isRevoked sid now = answer) :
      Run (.isRevoked sid now answer :: events) map

/-- The session that a call revokes at `s` or later, if it is not `sid`. -/
def Event.otherSince (sid : String) (s : ℤ) : Event → Option String
  | .revoke sid' now => if sid' ≠ sid ∧ s ≤ now then some sid' else none
  | .isRevoked _ _ _ => none

/-- The other sessions that were revoked at `s` or later. -/
def othersSince (sid : String) (s : ℤ) (events : List Event) : Finset String :=
  (events.filterMap (Event.otherSince sid s)).toFinset

/-! ### What the map holds -/

/-- Every entry is there for a call of `revoke`, and stands for the last one of its session.  A session is there until
its time is over, if fewer than `MAX_REVOKED` others have been revoked since. -/
structure Sound (events : List Event) (map : RevokedSessions) : Prop where
  len_le : map.len ≤ maxRevoked
  revoked : ∀ sid expires, (sid, expires) ∈ map.entries → ∃ s, .revoke sid s ∈ events ∧ expires = s + revokedTtl
  last : ∀ sid expires, (sid, expires) ∈ map.entries → ∀ s, .revoke sid s ∈ events → s + revokedTtl ≤ expires
  kept : ∀ sid s, .revoke sid s ∈ events → (∀ e ∈ events, e.now < s + revokedTtl) →
    (othersSince sid s events).card < maxRevoked → ∃ expires, (sid, expires) ∈ map.entries

theorem mem_othersSince {sid sid' : String} {s : ℤ} {events : List Event} :
    sid' ∈ othersSince sid s events ↔ sid' ≠ sid ∧ ∃ s', .revoke sid' s' ∈ events ∧ s ≤ s' := by
  unfold othersSince
  rw [List.mem_toFinset, List.mem_filterMap]
  constructor
  · rintro ⟨e, he, hsome⟩
    cases e with
    | revoke sid'' now =>
        rw [Event.otherSince, Option.ite_none_right_eq_some, Option.some.injEq] at hsome
        obtain ⟨⟨hne, hs⟩, rfl⟩ := hsome
        exact ⟨hne, now, he, hs⟩
    | isRevoked sid'' now answer => exact absurd hsome (Option.some_ne_none _).symm
  · rintro ⟨hne, s', hmem, hs⟩
    exact ⟨_, hmem, if_pos ⟨hne, hs⟩⟩

theorem othersSince_cons_subset (sid : String) (s : ℤ) (e : Event) (events : List Event) :
    othersSince sid s events ⊆ othersSince sid s (e :: events) := by
  intro sid' h
  obtain ⟨hne, s', hmem, hs⟩ := mem_othersSince.mp h
  exact mem_othersSince.mpr ⟨hne, s', List.mem_cons_of_mem _ hmem, hs⟩

namespace Sound

variable {events : List Event} {map map' : RevokedSessions} {sid : String} {now : ℤ}

theorem reordered (h : Sound events map) (horder : map.Reordered map') : Sound events map' where
  len_le := horder.len.trans_le h.len_le
  revoked sid expires hmem := h.revoked sid expires (horder.mem.mp hmem)
  last sid expires hmem := h.last sid expires (horder.mem.mp hmem)
  kept sid s hs hnow hfew := (h.kept sid s hs hnow hfew).imp fun _ => horder.mem.mpr

/-- A session that expires first of those left, in a full map, has been followed by as many others as the map can
hold. -/
theorem maxRevoked_le_others {s expires : ℤ} {other : String} (h : Sound events map)
    (hleft : ∀ e ∈ map'.entries, e ∈ map.entries) (hs : .revoke sid s ∈ events) (hmem : (sid, expires) ∈ map'.entries)
    (hfirst : ∀ e ∈ map'.entries, expires ≤ e.2) (hfull : maxRevoked ≤ map'.len)
    (hother : map'.containsKey other = false) (hnow : s ≤ now) :
    maxRevoked ≤ (othersSince sid s (.revoke other now :: events)).card := by
  have hne : other ≠ sid := by
    rintro rfl
    rw [Expiring.containsKey_iff.mpr ⟨_, hmem⟩] at hother
    exact Bool.false_ne_true hother.symm
  have hsub : insert other ((map'.entries.map Prod.fst).toFinset.erase sid) ⊆
      othersSince sid s (.revoke other now :: events) := by
    intro sid' hsid'
    rw [mem_othersSince]
    rcases Finset.mem_insert.mp hsid' with rfl | hsid'
    · exact ⟨hne, now, List.mem_cons_self, hnow⟩
    · obtain ⟨hne', hkey⟩ := Finset.mem_erase.mp hsid'
      obtain ⟨⟨_, expires'⟩, hmem', rfl⟩ := List.mem_map.mp (List.mem_toFinset.mp hkey)
      obtain ⟨s', hs', hexp⟩ := h.revoked _ _ (hleft _ hmem')
      have hlast := h.last _ _ (hleft _ hmem) s hs
      have hle := hfirst _ hmem'
      dsimp only at hle
      exact ⟨hne', s', List.mem_cons_of_mem _ hs', by omega⟩
  have hnotin : other ∉ (map'.entries.map Prod.fst).toFinset.erase sid := by
    intro hin
    obtain ⟨⟨_, expires'⟩, hmem', rfl⟩ := List.mem_map.mp (List.mem_toFinset.mp (Finset.mem_of_mem_erase hin))
    rw [Expiring.containsKey_iff.mpr ⟨_, hmem'⟩] at hother
    exact Bool.false_ne_true hother.symm
  have hin : sid ∈ (map'.entries.map Prod.fst).toFinset := List.mem_toFinset.mpr (List.mem_map_of_mem hmem)
  have hcard : (map'.entries.map Prod.fst).toFinset.card = map'.len := by
    rw [List.toFinset_card_of_nodup map'.nodup, List.length_map]
    rfl
  calc maxRevoked ≤ map'.len := hfull
    _ = (insert other ((map'.entries.map Prod.fst).toFinset.erase sid)).card := by
        rw [Finset.card_insert_of_notMem hnotin, Finset.card_erase_add_one hin, hcard]
    _ ≤ _ := Finset.card_le_card hsub

/-- An entry that `revoke` keeps, other than the one that it writes. -/
theorem mem_of_mem_revoke {e : String × ℤ} (h : e ∈ (map.revoke sid now).entries) :
    e = (sid, now + revokedTtl) ∨ e ∈ map.entries ∧ e.1 ≠ sid := by
  refine (Expiring.mem_insert.mp h).imp id fun ⟨hmem, hne⟩ => ⟨?_, hne⟩
  exact (Expiring.mem_retain.mp (Expiring.mem_of_mem_makeRoom maxRevoked_pos hmem)).1

theorem revoke (h : Sound events map) (hnow : ∀ e ∈ events, e.now ≤ now) :
    Sound (.revoke sid now :: events) (map.revoke sid now) where
  len_le := Expiring.len_insert_makeRoom_le maxRevoked_pos (Expiring.len_retain_le.trans h.len_le)
  revoked sid' expires hmem := by
    rcases mem_of_mem_revoke hmem with heq | ⟨hmem, -⟩
    · obtain ⟨rfl, rfl⟩ := Prod.mk.inj heq
      exact ⟨now, List.mem_cons_self, rfl⟩
    · obtain ⟨s, hs, hexp⟩ := h.revoked _ _ hmem
      exact ⟨s, List.mem_cons_of_mem _ hs, hexp⟩
  last sid' expires hmem s hs := by
    rcases mem_of_mem_revoke hmem with heq | ⟨hmem, hne⟩
    · obtain ⟨rfl, rfl⟩ := Prod.mk.inj heq
      have hle : s ≤ now := by
        rcases List.mem_cons.mp hs with heq | hs
        · exact (Event.revoke.inj heq).2.le
        · exact hnow _ hs
      omega
    · rcases List.mem_cons.mp hs with heq | hs
      · exact absurd (Event.revoke.inj heq).1 hne
      · exact h.last _ _ hmem s hs
  kept sid' s hs hlive hfew := by
    by_cases hsid : sid' = sid
    · exact ⟨now + revokedTtl, Expiring.mem_insert.mpr (.inl (by rw [hsid]))⟩
    · have hs : .revoke sid' s ∈ events :=
        (List.mem_cons.mp hs).resolve_left fun heq => hsid (Event.revoke.inj heq).1
      obtain ⟨expires, hmem⟩ := h.kept sid' s hs (fun e he => hlive e (List.mem_cons_of_mem _ he))
        ((Finset.card_le_card (othersSince_cons_subset ..)).trans_lt hfew)
      have hlast := h.last _ _ hmem s hs
      have hnowlt : now < s + revokedTtl := hlive _ List.mem_cons_self
      have hretain : (sid', expires) ∈ (map.retain now).entries :=
        Expiring.mem_retain.mpr ⟨hmem, hnowlt.trans_le hlast⟩
      refine ⟨expires, Expiring.mem_insert.mpr (.inr ⟨?_, hsid⟩)⟩
      refine Expiring.mem_makeRoom maxRevoked_pos hretain fun hfirst hother => ?_
      have hsnow : s ≤ now := hnow _ hs
      by_contra hfull
      exact absurd hfew (not_lt_of_ge (h.maxRevoked_le_others (fun e he => (Expiring.mem_retain.mp he).1) hs hretain
        hfirst (not_lt.mp hfull) hother hsnow))

/-- A call of `is_revoked` changes nothing. -/
theorem isRevoked {answer : Bool} (h : Sound events map) : Sound (.isRevoked sid now answer :: events) map where
  len_le := h.len_le
  revoked sid' expires hmem := (h.revoked sid' expires hmem).imp fun s hs => ⟨List.mem_cons_of_mem _ hs.1, hs.2⟩
  last sid' expires hmem s hs := h.last sid' expires hmem s ((List.mem_cons.mp hs).resolve_left (by simp))
  kept sid' s hs hlive hfew :=
    h.kept sid' s ((List.mem_cons.mp hs).resolve_left (by simp)) (fun e he => hlive e (List.mem_cons_of_mem _ he))
      ((Finset.card_le_card (othersSince_cons_subset ..)).trans_lt hfew)

end Sound

/-! ### Runs -/

theorem sound {events : List Event} {map : RevokedSessions} (h : Run events map) : Sound events map := by
  induction h with
  | new =>
      refine ⟨Nat.zero_le _, ?_, ?_, ?_⟩
      · exact fun _ _ hmem => absurd hmem List.not_mem_nil
      · exact fun _ _ hmem => absurd hmem List.not_mem_nil
      · exact fun _ _ hmem => absurd hmem List.not_mem_nil
  | revoke _ hnow horder ih => exact (ih.reordered horder).revoke hnow
  | isRevoked _ _ _ ih => exact ih.isRevoked

/-- What came before a call was a run as well, and a call of `is_revoked` answers from the map that it left. -/
theorem Run.of_append {later earlier : List Event} {e : Event} {map : RevokedSessions}
    (h : Run (later ++ e :: earlier) map) : ∃ map', Run (e :: earlier) map' := by
  induction later generalizing map with
  | nil => exact ⟨map, h⟩
  | cons e' later ih =>
      cases h with
      | revoke hrun _ _ => exact ih hrun
      | isRevoked hrun _ _ => exact ih hrun

theorem isRevoked_iff {map : RevokedSessions} {sid : String} {now : ℤ} :
    map.isRevoked sid now = true ↔ ∃ expires, (sid, expires) ∈ map.entries ∧ now < expires := by
  unfold RevokedSessions.isRevoked
  rw [Option.any_eq_true]
  exact exists_congr fun _ => and_congr Expiring.get_eq_some decide_eq_true_iff

theorem remembers {events : List Event} {map : RevokedSessions} (h : Run events map) :
    map.len ≤ maxRevoked ∧
      ∀ later earlier sid t answer, events = later ++ .isRevoked sid t answer :: earlier →
        ((∀ s, .revoke sid s ∈ earlier → ¬ (s ≤ t ∧ t < s + revokedTtl)) → answer = false) ∧
          ∀ s, .revoke sid s ∈ earlier → s ≤ t → t < s + revokedTtl →
            (othersSince sid s earlier).card < maxRevoked → answer = true := by
  refine ⟨(sound h).len_le, ?_⟩
  rintro later earlier sid t answer rfl
  obtain ⟨map', hrun⟩ := h.of_append
  cases hrun with
  | isRevoked hrun hnow hanswer =>
      rw [← hanswer]
      have hsound := sound hrun
      constructor
      · intro hnot
        rw [Bool.eq_false_iff]
        intro htrue
        obtain ⟨expires, hmem, hlt⟩ := isRevoked_iff.mp htrue
        obtain ⟨s, hs, rfl⟩ := hsound.revoked _ _ hmem
        exact hnot s hs ⟨hnow _ hs, hlt⟩
      · intro s hs _ hlive hfew
        obtain ⟨expires, hmem⟩ := hsound.kept sid s hs (fun e he => (hnow e he).trans_lt hlive) hfew
        exact isRevoked_iff.mpr ⟨expires, hmem, hlive.trans_le (hsound.last _ _ hmem s hs)⟩

/-- A session is revoked, then another one, and the first is asked for, within its window and after it. -/
def replayed : List Event :=
  [.isRevoked "a" (revokedTtl + 1) false, .isRevoked "a" 5 true, .revoke "b" 1, .revoke "a" 0]

def replayedMap : RevokedSessions := (RevokedSessions.revoke .empty "a" 0).revoke "b" 1

theorem run_replayed : Run replayed replayedMap := by
  refine .isRevoked (.isRevoked (.revoke (.revoke .new ?_ (.refl _)) ?_ (.refl _)) ?_ ?_) ?_ ?_
  all_goals decide

theorem remembers_replayed : replayedMap.len ≤ maxRevoked ∧
    ∀ answer, replayed =
      [.isRevoked "a" (revokedTtl + 1) false] ++ .isRevoked "a" 5 answer :: [.revoke "b" 1, .revoke "a" 0] →
        answer = true := by
  obtain ⟨hlen, hanswers⟩ := remembers run_replayed
  refine ⟨hlen, fun answer heq => ?_⟩
  obtain ⟨-, hrefused⟩ := hanswers _ _ _ _ _ heq
  exact hrefused 0 (by decide) (by decide) (by decide) (by decide)

end Mokosh.BackchannelLogout
