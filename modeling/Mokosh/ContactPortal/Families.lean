import Mokosh.Lib.Requests
import Mokosh.Lib.Table
import Mokosh.Types

/-! # Rotation families of the contact portal

`contact_portal/service.rs`: `refresh` and `logout`.  A refresh reads the session of the presented token, revokes it if
nobody else has, and inserts a successor in the same family.  Whoever presents a token that was rotated, or loses a
race for one, burns the family: all its live sessions are revoked.  So does a logout.

The statements are transactions of their own, and each of them may fail.

**`family_live_once`**: a family has at most one live session.

**`rotation_family`**: once a replay has been detected or a logout has revoked the family, and nothing is in flight, the
family has no live session, as long as (`NoLateSuccessor`) no refresh inserts a successor into a family that has been
burned since it revoked the session before, and no burn for a replay is cut off.  `successor_outlives_burn` has a run
without the first. -/

namespace Mokosh.ContactPortal

open Requests (Handlers World Event Keeps Rule)

/-- A row of `contact_sessions`. -/
structure ContactSession where
  id : Uuid
  tenantId : Uuid
  contactId : Uuid
  refreshTokenHash : String
  revokedAt : Option ℕ
  expiresAt : ℕ
  familyId : Uuid
deriving DecidableEq

/-- `revoked_at = NOW()`, `WHERE revoked_at IS NULL`. -/
def ContactSession.revoke (now : ℕ) (s : ContactSession) : ContactSession :=
  { s with revokedAt := s.revokedAt <|> some now }

/-- What `parse_session_bound_token` reads of a token. -/
structure Token where
  sessionId : Uuid
  secret : String
deriving DecidableEq

/-- The sessions.  The history: the families in which a replay has been detected, and those that have been burned for
a replay or by a logout. -/
structure PortalDb where
  sessions : Table ContactSession.id
  detected : List Uuid
  burned : List Uuid

inductive Cause where
  | replay
  | accessGone
  | logout
deriving DecidableEq

inductive Operation where
  | refresh (token : Option Token)
  | logout (token : Option Token)
deriving DecidableEq

inductive Point where
  | refreshing (token : Option Token)
  | ensuring (s : ContactSession)
  | asking (s : ContactSession)
  | rotating (s : ContactSession)
  | loading (s : ContactSession)
  | inserting (s : ContactSession)
  | leaving (token : Option Token)
  | burning (familyId : Uuid) (cause : Cause)
deriving DecidableEq

def start : Operation → Point
  | .refresh token => .refreshing token
  | .logout token => .leaving token

/-- What a statement is answered: whether it goes through, and what it finds outside of `contact_sessions`. -/
structure Answer where
  ok : Bool
  tenantStatus : Option String
  isPortalUser : Option Bool
  /-- The hash of the secret that the successor gets. -/
  tokenHash : String
deriving DecidableEq

/-- `REFRESH_TOKEN_TTL_DAYS`, in seconds. -/
def refreshTokenTtl : ℕ := 30 * 24 * 60 * 60

namespace PortalDb

variable (db : PortalDb)

/-- The conditional `UPDATE` of `refresh`. -/
def revoke (now : ℕ) (id : Uuid) : PortalDb :=
  { db with
    sessions := db.sessions.update id (ContactSession.revoke now) fun _ => rfl }

/-- `mint_refresh_token`. -/
def mintRefreshToken (now : ℕ) (s : ContactSession) (tokenHash : String) : PortalDb :=
  { db with
    sessions := db.sessions.insert (fun id =>
      { id := id, tenantId := s.tenantId, contactId := s.contactId, refreshTokenHash := tokenHash, revokedAt := none,
        expiresAt := now + refreshTokenTtl, familyId := s.familyId }) fun _ => rfl }

/-- `revoke_session_family`. -/
def revokeSessionFamily (now : ℕ) (familyId : Uuid) (cause : Cause) : PortalDb :=
  { db with
    sessions := db.sessions.map (fun s => if s.familyId = familyId then s.revoke now else s) fun s => by split <;> rfl
    burned := if cause = .accessGone then db.burned else familyId :: db.burned }

def detect (familyId : Uuid) : PortalDb := { db with detected := familyId :: db.detected }

end PortalDb

section Advance

variable (verifyPassword : String → String → Bool)

/-- The session of a genuine token. -/
def genuine (db : PortalDb) (token : Option Token) : Option ContactSession :=
  token.bind fun t => (db.sessions.find t.sessionId).filter fun s => verifyPassword t.secret s.refreshTokenHash

/-- The next statement of a call. -/
def advance (now : ℕ) (x : Answer) (db : PortalDb) : Point → Option (PortalDb × Option Point)
  | .refreshing token =>
    match (genuine verifyPassword db token).filter fun _ => x.ok with
    | none => some (db, none)
    | some s =>
      if s.revokedAt.isSome then some (db.detect s.familyId, some (.burning s.familyId .replay))
      else if s.expiresAt ≤ now then some (db, none)
      else some (db, some (.ensuring s))
  | .ensuring s => some (db, if x.ok ∧ x.tenantStatus = some "active" then some (.asking s) else none)
  | .asking s =>
    match x.isPortalUser.filter fun _ => x.ok with
    | none => some (db, none)
    | some true => some (db, some (.rotating s))
    | some false => some (db, some (.burning s.familyId .accessGone))
  | .rotating s =>
    if x.ok then
      if (db.sessions.find s.id).any (·.revokedAt.isNone) then some (db.revoke now s.id, some (.loading s))
      else some (db.detect s.familyId, some (.burning s.familyId .replay))
    else some (db, none)
  | .loading s => some (db, if x.ok then some (.inserting s) else none)
  | .inserting s => some (if x.ok then db.mintRefreshToken now s x.tokenHash else db, none)
  | .leaving token =>
    match (genuine verifyPassword db token).filter fun _ => x.ok with
    | none => some (db, none)
    | some s => some (db, some (.burning s.familyId .logout))
  | .burning familyId cause => some (if x.ok then db.revokeSessionFamily now familyId cause else db, none)

def handlers : Handlers Operation Answer PortalDb Point Empty := .lockless start (advance verifyPassword)

abbrev step := Requests.step (handlers verifyPassword)

end Advance

/-! ### Live sessions -/

def ContactSession.live (familyId : Uuid) (s : ContactSession) : Bool :=
  s.familyId = familyId && s.revokedAt.isNone

namespace PortalDb

variable (db : PortalDb) (familyId : Uuid)

def liveSessions : List ContactSession := db.sessions.rows.filter (·.live familyId)

/-- Their number, as a total over the table. -/
def liveCount : ℕ := db.sessions.sum fun s => if s.live familyId then 1 else 0

theorem length_liveSessions : (db.liveSessions familyId).length = db.liveCount familyId := by
  unfold liveCount
  rw [← Table.sum_filter]
  simp [Table.sum, Table.filter, liveSessions]

variable {db familyId}

theorem liveSessions_eq_nil : db.liveSessions familyId = [] ↔ ∀ s ∈ db.sessions, s.live familyId = false := by
  simp [liveSessions, List.filter_eq_nil_iff, Table.mem_def]

theorem liveCount_revoke (now : ℕ) (familyId : Uuid) {s : ContactSession} (hs : s ∈ db.sessions) (hlive : s.revokedAt = none) :
    (db.revoke now s.id).liveCount familyId + (if s.familyId = familyId then 1 else 0) = db.liveCount familyId := by
  have hsum := Table.sum_update (f := ContactSession.revoke now) hs
    (fun s => if s.live familyId then 1 else 0) fun _ => rfl
  have hbefore : (if s.live familyId then 1 else 0) = if s.familyId = familyId then 1 else 0 := by
    simp [ContactSession.live, hlive]
  have hafter : (if (s.revoke now).live familyId then 1 else 0) = 0 := by
    simp [ContactSession.live, ContactSession.revoke, hlive]
  rw [hbefore, hafter, add_zero] at hsum
  exact hsum

theorem liveCount_mintRefreshToken (familyId : Uuid) (db : PortalDb) (now : ℕ) (s : ContactSession) (tokenHash : String) :
    (db.mintRefreshToken now s tokenHash).liveCount familyId =
      db.liveCount familyId + if s.familyId = familyId then 1 else 0 := by
  unfold liveCount mintRefreshToken
  rw [Table.sum_insert]
  simp [ContactSession.live]

theorem liveCount_revokeSessionFamily_le (db : PortalDb) (now : ℕ) (f : Uuid) (cause : Cause) :
    (db.revokeSessionFamily now f cause).liveCount familyId ≤ db.liveCount familyId := by
  unfold liveCount revokeSessionFamily
  rw [Table.sum_map]
  refine Table.sum_le_sum fun s _ => ?_
  split
  · have hdead : (s.revoke now).live familyId = false := by
      simp [ContactSession.live, ContactSession.revoke]
    rw [hdead]
    exact Nat.zero_le _
  · exact Nat.le_refl _

/-- After the burn the family has no live session. -/
theorem liveSessions_revokeSessionFamily (db : PortalDb) (now : ℕ) (familyId : Uuid) (cause : Cause) :
    (db.revokeSessionFamily now familyId cause).liveSessions familyId = [] := by
  rw [liveSessions_eq_nil]
  intro s hs
  rw [revokeSessionFamily, Table.mem_map] at hs
  obtain ⟨r, -, rfl⟩ := hs
  split
  · simp [ContactSession.live, ContactSession.revoke]
  · next hne => simp [ContactSession.live, hne]

/-- Revoking only makes live sessions fewer. -/
theorem liveSessions_nil_of_le {db' : PortalDb} (hle : db'.liveCount familyId ≤ db.liveCount familyId)
    (h : db.liveSessions familyId = []) : db'.liveSessions familyId = [] := by
  rw [← length_liveSessions, ← length_liveSessions, h] at hle
  exact List.length_eq_zero_iff.mp (Nat.le_zero.mp hle)

end PortalDb

/-! ### What a statement can do -/

/-- The successors that the call is going to insert into the family. -/
def Point.minting (familyId : Uuid) : Point → ℕ
  | .loading s | .inserting s => if s.familyId = familyId then 1 else 0
  | _ => 0

/-- The session that a call works on. -/
def Point.session : Point → Option ContactSession
  | .ensuring s | .asking s | .rotating s | .loading s | .inserting s => some s
  | _ => none

/-- The row that a call has read is still there, in the same family. -/
def Known (db : PortalDb) (s : ContactSession) : Prop := ∃ r ∈ db.sessions, r.id = s.id ∧ r.familyId = s.familyId

def Stands (db : PortalDb) (p : Point) : Prop := ∀ s ∈ p.session, Known db s

inductive Leaves (now : ℕ) (x : Answer) (db : PortalDb) : Point → PortalDb → Option Point → Prop
  | passed {p : Point} {q : Option Point} (hp : ∀ f c, p = .burning f c → x.ok = false)
      (hminting : ∀ p' ∈ q, ∀ f, p'.minting f ≤ p.minting f)
      (hsession : ∀ p' ∈ q, ∀ s ∈ p'.session, s ∈ p.session ∨ s ∈ db.sessions) : Leaves now x db p db q
  | detected {p : Point} {s : ContactSession} (hp : ∀ f c, p ≠ .burning f c) :
      Leaves now x db p (db.detect s.familyId) (some (.burning s.familyId .replay))
  | rotated {s r : ContactSession} (hr : db.sessions.find s.id = some r) (hlive : r.revokedAt = none) :
      Leaves now x db (.rotating s) (db.revoke now s.id) (some (.loading s))
  | minted {s : ContactSession} (hok : x.ok = true) :
      Leaves now x db (.inserting s) (db.mintRefreshToken now s x.tokenHash) none
  | burned {f : Uuid} {c : Cause} : Leaves now x db (.burning f c) (db.revokeSessionFamily now f c) none

variable {verifyPassword : String → String → Bool} {now : ℕ} {x : Answer} {db db' : PortalDb} {p : Point}
  {q : Option Point} {familyId : Uuid}

theorem mem_of_genuine {token : Option Token} {s : ContactSession}
    (h : (genuine verifyPassword db token).filter (fun _ => x.ok) = some s) : s ∈ db.sessions := by
  obtain ⟨t, -, h⟩ := Option.bind_eq_some_iff.mp (Option.filter_eq_some_iff.mp h).1
  exact Table.find_mem (Option.filter_eq_some_iff.mp h).1

theorem advance_leaves (ha : advance verifyPassword now x db p = some (db', q)) : Leaves now x db p db' q := by
  have hnone : ∀ {p : Point}, (∀ f c, p = .burning f c → x.ok = false) → Leaves now x db p db none :=
    fun hp => .passed hp (fun _ hq => nomatch hq) fun _ hq => nomatch hq
  cases p with
  | refreshing token =>
      simp only [advance] at ha
      split at ha
      · cases ha
        exact hnone (by simp)
      · next s hs =>
          split at ha
          · cases ha
            exact .detected (by simp)
          · split at ha <;> cases ha
            · exact hnone (by simp)
            · refine .passed (by simp) (by simp [Point.minting]) ?_
              simpa [Point.session] using mem_of_genuine hs
  | ensuring s =>
      simp only [advance] at ha
      split at ha <;> cases ha
      · exact .passed (by simp) (by simp [Point.minting]) (by simp [Point.session])
      · exact hnone (by simp)
  | asking s =>
      simp only [advance] at ha
      split at ha <;> cases ha
      · exact hnone (by simp)
      · exact .passed (by simp) (by simp [Point.minting]) (by simp [Point.session])
      · exact .passed (by simp) (by simp [Point.minting]) (by simp [Point.session])
  | rotating s =>
      simp only [advance] at ha
      split at ha
      · split at ha
        · next hlive =>
            cases ha
            obtain ⟨r, hr, hlive⟩ := (Option.any_eq_true _ _).mp hlive
            exact .rotated hr (Option.isNone_iff_eq_none.mp hlive)
        · cases ha
          exact .detected (by simp)
      · cases ha
        exact hnone (by simp)
  | loading s =>
      simp only [advance] at ha
      split at ha <;> cases ha
      · exact .passed (by simp) (by simp [Point.minting]) (by simp [Point.session])
      · exact hnone (by simp)
  | inserting s =>
      simp only [advance] at ha
      split at ha <;> cases ha
      · next hok => exact .minted hok
      · exact hnone (by simp)
  | leaving token =>
      simp only [advance] at ha
      split at ha <;> cases ha
      · exact hnone (by simp)
      · exact .passed (by simp) (by simp [Point.minting]) (by simp [Point.session])
  | burning f c =>
      simp only [advance] at ha
      split at ha <;> cases ha
      · exact .burned
      · next hok => exact hnone fun _ _ _ => Bool.eq_false_iff.mpr hok

theorem Leaves.known (h : Leaves now x db p db' q) {s : ContactSession} (hs : Known db s) : Known db' s := by
  obtain ⟨r, hr, hid, hfamily⟩ := hs
  cases h with
  | passed => exact ⟨r, hr, hid, hfamily⟩
  | detected => exact ⟨r, hr, hid, hfamily⟩
  | @rotated s' =>
      refine ⟨_, (Table.mem_update (f := ContactSession.revoke now) fun _ => rfl).mpr ⟨r, hr, rfl⟩, ?_⟩
      split <;> exact ⟨hid, hfamily⟩
  | minted => exact ⟨r, (Table.mem_insert fun _ => rfl).mpr (.inl hr), hid, hfamily⟩
  | burned =>
      refine ⟨_, List.mem_map_of_mem hr, ?_⟩
      split <;> exact ⟨hid, hfamily⟩

theorem Leaves.stands (h : Leaves now x db p db' q) (hp : Stands db p) : ∀ p' ∈ q, Stands db' p' := by
  have hknown : ∀ s, Known db s → Known db' s := fun _ hs => h.known hs
  cases h with
  | passed _ _ hsession =>
      intro p' hp' s hs
      obtain hs | hs := hsession p' hp' s hs
      · exact hp s hs
      · exact ⟨s, hs, rfl, rfl⟩
  | detected => exact fun p' hp' s hs => by cases Option.some.inj hp'; cases hs
  | @rotated s r hr hlive =>
      intro p' hp' s' hs'
      obtain rfl := Option.some.inj hp'
      obtain rfl := Option.some.inj hs'
      exact hknown s (hp s rfl)
  | minted => exact fun _ hp' => nomatch hp'
  | burned => exact fun _ hp' => nomatch hp'

/-- What every statement keeps, a run keeps. -/
theorem family_rule (verifyPassword : String → String → Bool) {G : PortalDb → Prop}
    {C : World PortalDb Point → Event Operation Answer → Prop}
    (hG : ∀ {w i x p db' q}, C w (.step i x) → w.requests[i]? = some p → G w.store →
      Leaves w.now x w.store p db' q → G db') :
    Rule (handlers verifyPassword) (fun _ db => G db) (fun _ => Stands) C where
  locks _ _ _ _ hb := absurd hb List.not_mem_nil
  unlocked _ := rfl
  wait h _ := ⟨h, fun _ hp => hp⟩
  start {w op} _ _ := by
    cases op <;> exact fun _ hs => nomatch hs
  step hw hC hi ha := by
    have hl := advance_leaves ha
    refine ⟨hG hC hi hw.store hl, hl.stands (hw.requests _ (List.mem_of_getElem? hi)), fun p' _ _ hp' s hs => ?_⟩
    exact hl.known (hp' s hs)

/-! ### One live session -/

variable {n : ℕ} {es : List (Event Operation Answer)} {w : World PortalDb Point}

/-- What is revoked for a successor is not more than what the successor takes. -/
theorem Leaves.live_le (h : Leaves now x db p db' q) (hp : Stands db p) (familyId : Uuid) :
    db'.liveCount familyId + (q.map (·.minting familyId)).getD 0 ≤ db.liveCount familyId + p.minting familyId := by
  cases h with
  | passed _ hminting =>
      refine Nat.add_le_add_left ?_ _
      cases q with
      | none => exact Nat.zero_le _
      | some p' => exact hminting p' rfl familyId
  | detected => exact Nat.le_add_right _ _
  | @rotated s r hr hlive =>
      obtain ⟨r', hr', hid, hfamily⟩ := hp s rfl
      have hrow := Table.find_key hr'
      rw [hid, hr] at hrow
      obtain rfl := Option.some.inj hrow
      have hcount := PortalDb.liveCount_revoke now familyId hr' hlive
      rw [hid, hfamily] at hcount
      exact hcount.le
  | @minted s hok =>
      rw [PortalDb.liveCount_mintRefreshToken]
      simp [Point.minting]
  | burned => exact (PortalDb.liveCount_revokeSessionFamily_le db now _ _).trans (Nat.le_add_right _ _)

theorem family_live_once (h₀ : (db.liveSessions familyId).length ≤ 1)
    (hr : run (step verifyPassword) (World.start n db) es = some w) : (w.store.liveSessions familyId).length ≤ 1 := by
  have hrule := family_rule verifyPassword (G := fun _ => True) (C := fun _ _ => True) fun _ _ _ _ => trivial
  have hbudget := hrule.budget (a := fun db => db.liveCount familyId) (b := fun _ => 1)
    (f := Point.minting familyId) (fun op => by cases op <;> rfl)
    (fun hw _ hi ha => Nat.add_le_add_right
      ((advance_leaves ha).live_le (hw.requests _ (List.mem_of_getElem? hi)) familyId) 1)
    (Requests.keeps_start trivial) (stepsMeet_true _ _) hr (by rwa [← PortalDb.length_liveSessions])
  rw [PortalDb.length_liveSessions]
  exact (Nat.le_add_right _ _).trans hbudget

/-! ### Burned families -/

/-- A successor is inserted only into a family that has not been burned, and a burn for a replay goes through. -/
def NoLateSuccessorAt (db : PortalDb) (x : Answer) : Point → Prop
  | .inserting s => x.ok = true → s.familyId ∉ db.burned
  | .burning _ .replay => x.ok = true
  | _ => True

instance (db : PortalDb) (x : Answer) : ∀ p, Decidable (NoLateSuccessorAt db x p)
  | .inserting s => inferInstanceAs (Decidable (x.ok = true → s.familyId ∉ db.burned))
  | .burning _ .replay => inferInstanceAs (Decidable (x.ok = true))
  | .burning _ .accessGone | .burning _ .logout | .refreshing _ | .ensuring _ | .asking _ | .rotating _ | .loading _
  | .leaving _ => isTrue trivial

def Point.burnsForReplay : Point → Bool
  | .burning _ .replay => true
  | _ => false

def NoLateSuccessor (w : World PortalDb Point) : Event Operation Answer → Prop
  | .step i x => ∀ p ∈ w.requests[i]?, NoLateSuccessorAt w.store x p
  | .crash i => ∀ p ∈ w.requests[i]?, p.burnsForReplay = false
  | .wait _ | .arrive _ => True

instance (w : World PortalDb Point) : ∀ e, Decidable (NoLateSuccessor w e)
  | .step i x => inferInstanceAs (Decidable (∀ p ∈ w.requests[i]?, NoLateSuccessorAt w.store x p))
  | .crash i => inferInstanceAs (Decidable (∀ p ∈ w.requests[i]?, p.burnsForReplay = false))
  | .wait _ | .arrive _ => isTrue trivial

/-- Burned families stay signed out. -/
def SignedOut (db : PortalDb) : Prop := ∀ f ∈ db.burned, db.liveSessions f = []

theorem Leaves.signedOut (h : Leaves now x db p db' q) (hC : NoLateSuccessorAt db x p) (hdb : SignedOut db) :
    SignedOut db' := by
  intro f hf
  cases h with
  | passed => exact hdb f hf
  | detected => exact hdb f hf
  | @rotated s r hr hlive =>
      have hcount := PortalDb.liveCount_revoke now f (Table.find_mem hr) hlive
      rw [Table.key_of_find hr] at hcount
      exact PortalDb.liveSessions_nil_of_le (Nat.le.intro hcount) (hdb f hf)
  | @minted s hok =>
      have hne : s.familyId ≠ f := fun heq => hC hok (heq ▸ hf)
      have hcount := PortalDb.liveCount_mintRefreshToken f db now s x.tokenHash
      rw [if_neg hne, add_zero] at hcount
      exact PortalDb.liveSessions_nil_of_le hcount.le (hdb f hf)
  | @burned f' c =>
      obtain rfl | hold : f = f' ∨ f ∈ db.burned := by
        unfold PortalDb.revokeSessionFamily at hf
        dsimp only at hf
        split at hf
        · exact .inr hf
        · exact List.mem_cons.mp hf
      · exact PortalDb.liveSessions_revokeSessionFamily db now f c
      · exact PortalDb.liveSessions_nil_of_le (PortalDb.liveCount_revokeSessionFamily_le db now f' c) (hdb f hold)

/-- A detected replay is going to be burned, or has been. -/
theorem Leaves.debt (h : Leaves now x db p db' q) (hC : NoLateSuccessorAt db x p) (f : Uuid)
    (hf : f ∈ db'.detected ∧ f ∉ db'.burned) :
    (∃ p' ∈ q, p' = .burning f .replay) ∨ (f ∈ db.detected ∧ f ∉ db.burned) ∧ p ≠ .burning f .replay := by
  cases h with
  | passed hp =>
      refine .inr ⟨hf, fun heq => ?_⟩
      have hok := hp f .replay heq
      subst heq
      exact absurd (hok.symm.trans hC) Bool.false_ne_true
  | @detected _ s hp =>
      obtain rfl | hold := List.mem_cons.mp hf.1
      · exact .inl ⟨_, rfl, rfl⟩
      · exact .inr ⟨⟨hold, hf.2⟩, hp f .replay⟩
  | rotated => exact .inr ⟨hf, by simp⟩
  | minted => exact .inr ⟨hf, by simp⟩
  | @burned f' c =>
      have hburned : (if c = .accessGone then db.burned else f' :: db.burned) =
          (db.revokeSessionFamily now f' c).burned := rfl
      rw [← hburned] at hf
      refine .inr ⟨⟨hf.1, fun hold => hf.2 ?_⟩, fun heq => hf.2 ?_⟩
      · split
        · exact hold
        · exact List.mem_cons_of_mem _ hold
      · cases heq
        exact List.mem_cons_self

/-- The sessions before the first call. -/
def PortalDb.start (sessions : Table ContactSession.id) : PortalDb :=
  { sessions := sessions, detected := [], burned := [] }

variable {sessions : Table ContactSession.id}

/-- A family has one live session at most.  If no successor is inserted into a burned family, and no burn for a replay
is cut off, then a family in which a replay was detected, or which a logout has revoked, has none when nothing is in
flight. -/
theorem rotation_family (h₀ : ∀ f, ((PortalDb.start sessions).liveSessions f).length ≤ 1)
    (hr : run (step verifyPassword) (World.start n (PortalDb.start sessions)) es = some w) :
    (∀ f, (w.store.liveSessions f).length ≤ 1) ∧
      (StepsMeet (step verifyPassword) NoLateSuccessor (World.start n (PortalDb.start sessions)) es →
        w.requests = [] → ∀ f, f ∈ w.store.detected ∨ f ∈ w.store.burned → w.store.liveSessions f = []) := by
  refine ⟨fun f => family_live_once (h₀ f) hr, fun hC hidle f hf => ?_⟩
  have hrule := family_rule verifyPassword (G := SignedOut) (C := NoLateSuccessor)
    fun hC hi hG hl => hl.signedOut (hC _ hi) hG
  have hinit : SignedOut (PortalDb.start sessions) := fun _ hf => absurd hf List.not_mem_nil
  have hsigned := (hrule.run (Requests.keeps_start hinit) hC hr).store
  by_cases hburned : f ∈ w.store.burned
  · exact hsigned f hburned
  · obtain ⟨p, hp, -⟩ := hrule.debt (D := fun db => f ∈ db.detected ∧ f ∉ db.burned) (P := (· = .burning f .replay))
      (fun hC hi hp => by
        have hcrash := hC _ hi
        rw [hp] at hcrash
        exact absurd hcrash.symm Bool.false_ne_true)
      (fun _ hC hi ha hD => ((advance_leaves ha).debt (hC _ hi) f hD).imp_right .inl)
      (Requests.keeps_start hinit) hC hr (fun h => absurd h.1 List.not_mem_nil) ⟨hf.resolve_right hburned, hburned⟩
    rw [hidle] at hp
    exact absurd hp List.not_mem_nil

/-! ### A successor that comes late -/

def firstSession : Table ContactSession.id :=
  (∅ : Table ContactSession.id).insert (fun id =>
    { id := id, tenantId := 1, contactId := 1, refreshTokenHash := "first", revokedAt := none, expiresAt := 100,
      familyId := 0 }) fun _ => rfl

def firstToken : Token := { sessionId := 0, secret := "first" }

def answer : Answer := { ok := true, tenantStatus := some "active", isPortalUser := some true, tokenHash := "second" }

/-- The customer's refresh has revoked the session when the thief presents the same token. -/
def lateSuccessor : List (Event Operation Answer) :=
  [.arrive (.refresh (some firstToken)), .step 0 answer, .step 0 answer, .step 0 answer, .step 0 answer,
    .arrive (.refresh (some firstToken)), .step 1 answer, .step 1 answer, .step 0 answer, .step 0 answer]

theorem successor_outlives_burn : ∃ w,
    run (step (· == ·)) (World.start 0 (PortalDb.start firstSession)) lateSuccessor = some w ∧
      w.requests = [] ∧ 0 ∈ w.store.detected ∧ 0 ∈ w.store.burned ∧ (w.store.liveSessions 0).length = 1 := by
  have h : (run (step (· == ·)) (World.start 0 (PortalDb.start firstSession)) lateSuccessor).any (fun w =>
      w.requests = [] ∧ 0 ∈ w.store.detected ∧ 0 ∈ w.store.burned ∧ (w.store.liveSessions 0).length = 1) = true := by
    decide
  obtain ⟨w, hr, hw⟩ := exists_run_of_any h
  exact ⟨w, hr, of_decide_eq_true hw⟩

/-- The thief comes after the customer's refresh. -/
def lateThief : List (Event Operation Answer) :=
  [.arrive (.refresh (some firstToken)), .step 0 answer, .step 0 answer, .step 0 answer, .step 0 answer,
    .step 0 answer, .step 0 answer, .arrive (.refresh (some firstToken)), .step 0 answer, .step 0 answer]

theorem rotation_family_lateThief : ∃ w,
    run (step (· == ·)) (World.start 0 (PortalDb.start firstSession)) lateThief = some w ∧
      w.store.sessions.rows.length = 2 ∧ w.store.liveSessions 0 = [] := by
  have h₀ : ∀ f, ((PortalDb.start firstSession).liveSessions f).length ≤ 1 :=
    fun f => (List.length_filter_le _ _).trans (Nat.le_refl 1)
  have h : (run (step (· == ·)) (World.start 0 (PortalDb.start firstSession)) lateThief).any (fun w =>
      w.requests = [] ∧ 0 ∈ w.store.detected ∧ w.store.sessions.rows.length = 2) = true := by
    decide
  have hC : StepsMeet (step (· == ·)) NoLateSuccessor (World.start 0 (PortalDb.start firstSession)) lateThief := by
    decide
  obtain ⟨w, hr, hw⟩ := exists_run_of_any h
  obtain ⟨hidle, hdetected, hlength⟩ := of_decide_eq_true hw
  exact ⟨w, hr, hlength, (rotation_family h₀ hr).2 hC hidle 0 (.inl hdetected)⟩

end Mokosh.ContactPortal
