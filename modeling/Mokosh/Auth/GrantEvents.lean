import Mokosh.Lib.Requests
import Mokosh.Auth.Grants
import Mokosh.Auth.Sessions

/-! # Grant events

`auth/bunyip_webhook.rs`, `auth/mokosh_bunyip_grants.rs`, `auth/service.rs`: one grantee and one account.  Any
number of deliveries of grant events and of requests of the grantee are in flight, and their statements may
fail.

* A delivery writes the mirror if its event is newer than the row, and if that has changed the row and the
  event revokes the grant, it tombstones the grantee's `users` row.
* A request of the grantee asks the mirror, or what was read of it in the last 30 seconds, whether the grant is
  active.  Where it finds no `users` row, `place_grantee_user` inserts one or opens the one that is tombstoned.

**`events_converge`**: once each event has had a delivery without a failure, and nothing is in flight, the mirror
holds the newest event, and the `users` row is tombstoned if it revokes the grant, as long as (`InOrder`)

* the tombstone of the delivery that wrote the newest event does not fail;
* no request opens the row after that.

`stays_open` has runs without each of them. -/

namespace Mokosh.GrantEvents

open Requests (Handlers World Event Keeps Rule)
open Grants (GrantRole UserRole BunyipGrant Mirror mapGrantRole)
open Sessions (UserStatus)

/-- `MokoshGrantChangedPayload`, of one grantee and account; `eventAt` is its `at`. -/
structure Payload where
  grantId : Uuid
  ownerBunyipUserId : Uuid
  state : String
  role : Option String
  eventAt : ℕ
deriving DecidableEq

/-- The `users` row of the grantee in the granted tenant. -/
structure Placement where
  status : UserStatus
  role : UserRole
  deletedAt : Option ℕ
deriving DecidableEq

/-- What `GRANT_CACHE` has of the pair. -/
structure GrantSnapshot where
  active : Bool
  resolvedAt : ℕ
deriving DecidableEq

/-- The mirror, the cache and the `users` row.  The history: the events that have had a delivery without a
failure. -/
structure EventsDb where
  mirror : Mirror
  cache : Option GrantSnapshot
  placement : Option Placement
  completed : List Payload

def grantCacheTtl : ℕ := 30

namespace Payload

variable (e : Payload)

def revokedAt : AppResult (Option ℕ) :=
  if e.state = "granted" then
    if e.role = none then .error (.badRequest "A granted event must carry a role.") else .ok none
  else if e.state = "revoked" then .ok (some e.eventAt)
  else .error (.badRequest s!"Unknown grant state `{e.state}`.")

/-- The row of the event, if the constraints of the table admit it. -/
def row (pair : Uuid × String) (revokedAt : Option ℕ) : AppResult BunyipGrant :=
  if e.role.all fun r => (GrantRole.ofString r).isSome then
    let role := e.role.bind GrantRole.ofString
    if h : role.isSome = revokedAt.isNone then
      .ok { bunyipGrantId := e.grantId, ownerBunyipUserId := e.ownerBunyipUserId,
            granteeBunyipUserId := pair.1, mokoshAccountId := pair.2, role := role, grantedAt := e.eventAt,
            revokedAt := revokedAt, revokedBy := revokedAt.map fun _ => "owner", granteeEmail := none,
            eventAt := e.eventAt, coupled := h }
    else .error (.database "mokosh_bunyip_grants_check")
  else .error (.database "mokosh_bunyip_grants_role_check")

/-- What `mokosh_grant_changed` checks before it writes. -/
def accept (pair : Uuid × String) (now : ℕ) : AppResult BunyipGrant := do
  let revokedAt ← e.revokedAt
  if now + 5 * 60 < e.eventAt then .error (.badRequest "Event timestamp is too far in the future.")
  else e.row pair revokedAt

end Payload

/-- What a request of the grantee carries: the role of its token, and whether its address is verified. -/
structure Token where
  mokoshGrantRole : String
  emailVerified : Bool
deriving DecidableEq

inductive Operation where
  | deliver (e : Payload)
  | request (token : Token)
deriving DecidableEq

inductive Point where
  | upserting (e : Payload)
  | tombstoning (e : Payload)
  | checking (token : Token)
  | caching (token : Token) (active : Bool)
  | finding (token : Token)
  | placing (role : UserRole)
deriving DecidableEq

def start : Operation → Point
  | .deliver e => .upserting e
  | .request token => .checking token

namespace EventsDb

variable (db : EventsDb)

def complete (e : Payload) : EventsDb := { db with completed := e :: db.completed }

/-- `upsert`, which invalidates the cache if it has changed the row. -/
def upsert (g : BunyipGrant) : EventsDb × Bool :=
  let (mirror, changed) := db.mirror.upsertWithEmail g
  ({ db with mirror := mirror, cache := if changed then none else db.cache }, changed)

def tombstone (now : ℕ) : EventsDb :=
  { db with placement := db.placement.map fun u => { u with deletedAt := u.deletedAt <|> some now } }

def setUserRole (role : UserRole) : EventsDb :=
  { db with placement := db.placement.map fun u => { u with role := role } }

/-- `place_grantee_user`. -/
def placeGranteeUser (role : UserRole) : EventsDb :=
  { db with placement := some { status := .active, role := role, deletedAt := none } }

def writeCache (now : ℕ) (active : Bool) : EventsDb :=
  { db with cache := some { active := active, resolvedAt := now } }

end EventsDb

section Advance

variable (pair : Uuid × String)

/-- After the grant has been found active, or not. -/
def checked (active : Bool) (token : Token) : Option Point := if active then some (.finding token) else none

/-- The next statement of a delivery or a request, which may fail. -/
def advance (now : ℕ) (ok : Bool) (db : EventsDb) : Point → Option (EventsDb × Option Point)
  | .upserting e =>
    match e.accept pair now with
    | .error _ => some (db, none)
    | .ok g =>
      if ok then
        if (db.upsert g).2 ∧ e.state = "revoked" then some ((db.upsert g).1, some (.tombstoning e))
        else some ((db.upsert g).1.complete e, none)
      else some (db, none)
  | .tombstoning e => some (if ok then (db.tombstone now).complete e else db, none)
  | .checking token =>
    match db.cache.filter fun c => now < c.resolvedAt + grantCacheTtl with
    | some c => some (db, checked c.active token)
    | none =>
      if ok then
        match db.mirror.find pair with
        | some g => some (db, some (.caching token g.active))
        | none => some (db, none)
      else some (db, none)
  | .caching token active => some (db.writeCache now active, checked active token)
  | .finding token =>
    match mapGrantRole token.mokoshGrantRole with
    | none => some (db, none)
    | some role =>
      match db.placement.filter fun u => ok ∧ u.deletedAt = none with
      | some u => some (if u.status = .active then db.setUserRole role else db, none)
      | none => some (db, if token.emailVerified then some (.placing role) else none)
  | .placing role => some (if ok then db.placeGranteeUser role else db, none)

def handlers : Handlers Operation Bool EventsDb Point Empty := .lockless start (advance pair)

abbrev step := Requests.step (handlers pair)

end Advance

/-! ### The condition -/

section Condition

variable (pair : Uuid × String) (events : List Payload) (newest : Payload)

/-- The mirror holds the newest event. -/
def Applied (db : EventsDb) : Prop := (db.mirror.find pair).any (·.eventAt = newest.eventAt) = true

instance (db : EventsDb) : Decidable (Applied pair newest db) :=
  inferInstanceAs (Decidable ((db.mirror.find pair).any (·.eventAt = newest.eventAt) = true))

def InOrderAt (w : World EventsDb Point) (ok : Bool) : Point → Prop
  | .tombstoning e => e = newest → ok = true
  | .placing _ => newest.state = "revoked" → Applied pair newest w.store → .tombstoning newest ∈ w.requests
  | _ => True

instance (w : World EventsDb Point) (ok : Bool) : ∀ p, Decidable (InOrderAt pair newest w ok p)
  | .tombstoning e => inferInstanceAs (Decidable (e = newest → ok = true))
  | .placing _ => inferInstanceAs (Decidable (newest.state = "revoked" → Applied pair newest w.store →
      .tombstoning newest ∈ w.requests))
  | .upserting _ | .checking _ | .caching _ _ | .finding _ => isTrue trivial

/-- The deliveries are of the given events, the newest one's tombstone does not fail, and no request places
the grantee after it. -/
def InOrder (w : World EventsDb Point) : Event Operation Bool → Prop
  | .arrive (.deliver e) => e ∈ events
  | .step i ok => ∀ p ∈ w.requests[i]?, InOrderAt pair newest w ok p
  | .crash i => ∀ p ∈ w.requests[i]?, p ≠ .tombstoning newest
  | .wait _ | .arrive (.request _) => True

instance (w : World EventsDb Point) : ∀ e, Decidable (InOrder pair events newest w e)
  | .arrive (.deliver e) => inferInstanceAs (Decidable (e ∈ events))
  | .step i ok => inferInstanceAs (Decidable (∀ p ∈ w.requests[i]?, InOrderAt pair newest w ok p))
  | .crash i => inferInstanceAs (Decidable (∀ p ∈ w.requests[i]?, p ≠ .tombstoning newest))
  | .wait _ | .arrive (.request _) => isTrue trivial

end Condition

/-- The row has the state and the role of the event. -/
structure Reflects (g : BunyipGrant) (e : Payload) : Prop where
  role : g.role = e.role.bind GrantRole.ofString
  revokedAt : g.revokedAt = if e.state = "revoked" then some e.eventAt else none
  eventAt : g.eventAt = e.eventAt

instance (g : BunyipGrant) (e : Payload) : Decidable (Reflects g e) :=
  decidable_of_iff (g.role = e.role.bind GrantRole.ofString ∧
    g.revokedAt = (if e.state = "revoked" then some e.eventAt else none) ∧ g.eventAt = e.eventAt)
    ⟨fun h => ⟨h.1, h.2.1, h.2.2⟩, fun h => ⟨h.role, h.revokedAt, h.eventAt⟩⟩

/-- The mirror reflects the event, and there is no `users` row that it does not allow. -/
structure Converged (pair : Uuid × String) (db : EventsDb) (e : Payload) : Prop where
  mirror : ∃ g ∈ db.mirror.find pair, Reflects g e
  tombstone : e.state = "revoked" → ∀ u ∈ db.placement, u.deletedAt.isSome = true

instance (pair : Uuid × String) (db : EventsDb) (e : Payload) : Decidable (Converged pair db e) :=
  decidable_of_iff ((∃ g ∈ db.mirror.find pair, Reflects g e) ∧
    (e.state = "revoked" → ∀ u ∈ db.placement, u.deletedAt.isSome = true))
    ⟨fun h => ⟨h.1, h.2⟩, fun h => ⟨h.mirror, h.tombstone⟩⟩

variable {pair : Uuid × String} {events : List Payload} {newest e : Payload} {now : ℕ} {ok : Bool}
  {db s : EventsDb} {p : Point} {q : Option Point}

/-! ### The mirror -/

theorem accept_ok {g : BunyipGrant} (h : e.accept pair now = .ok g) : Reflects g e ∧ g.key = pair := by
  unfold Payload.accept at h
  obtain ⟨revokedAt, hr, h⟩ := bind_eq_ok.mp h
  have hrow : e.row pair revokedAt = .ok g := by
    split at h
    · cases h
    · exact h
  have hrevoked : revokedAt = if e.state = "revoked" then some e.eventAt else none := by
    unfold Payload.revokedAt at hr
    split at hr
    · next hgranted =>
        split at hr
        · cases hr
        · cases hr
          rw [if_neg (by rw [hgranted]; decide)]
    · split at hr
      · next hstate =>
          cases hr
          rw [if_pos hstate]
      · cases hr
  unfold Payload.row at hrow
  split at hrow
  · dsimp only at hrow
    split at hrow
    · cases hrow
      exact ⟨⟨rfl, hrevoked, rfl⟩, rfl⟩
    · cases hrow
  · cases hrow

variable (db) in
/-- The row of the pair after an upsert reflects the event, or is as it was and as new. -/
theorem find_upsert {g : BunyipGrant} (hg : Reflects g e) (hkey : g.key = pair) :
    ∃ g', (db.upsert g).1.mirror.find pair = some g' ∧
      (Reflects g' e ∨ db.mirror.find pair = some g' ∧ e.eventAt ≤ g'.eventAt) := by
  subst hkey
  obtain ⟨g', hg', ⟨email, rfl⟩ | ⟨hold, hnew⟩⟩ := Mirror.exists_upsertWithEmail db.mirror g
  · exact ⟨_, hg', .inl ⟨hg.role, hg.revokedAt, hg.eventAt⟩⟩
  · exact ⟨g', hg', .inr ⟨hold, hg.eventAt ▸ hnew⟩⟩

theorem upsert_unchanged {g : BunyipGrant} (h : (db.upsert g).2 = false) :
    (db.upsert g).1.mirror = db.mirror ∧ (db.upsert g).1.placement = db.placement :=
  ⟨Mirror.upsertWithEmail_unchanged h, rfl⟩

/-! ### What every statement relies on -/

structure Kept (pair : Uuid × String) (events : List Payload) (db : EventsDb) : Prop where
  reflects : ∀ g, db.mirror.find pair = some g → ∃ e ∈ events, Reflects g e
  covered : ∀ e ∈ db.completed, ∃ g, db.mirror.find pair = some g ∧ e.eventAt ≤ g.eventAt

/-- Deliveries are of the given events, and one that tombstones has written its event. -/
def Stands (pair : Uuid × String) (events : List Payload) (db : EventsDb) : Point → Prop
  | .upserting e => e ∈ events
  | .tombstoning e => e ∈ events ∧ ∃ g, db.mirror.find pair = some g ∧ e.eventAt ≤ g.eventAt
  | _ => True

/-- What a statement can do. -/
inductive Leaves (pair : Uuid × String) (now : ℕ) (ok : Bool) (db : EventsDb) :
    Point → EventsDb → Option Point → Prop
  | upserted {e : Payload} {g : BunyipGrant} (hg : e.accept pair now = .ok g)
      (hdone : (db.upsert g).2 = true → e.state ≠ "revoked") :
      Leaves pair now ok db (.upserting e) ((db.upsert g).1.complete e) none
  | revoked {e : Payload} {g : BunyipGrant} (hg : e.accept pair now = .ok g) :
      Leaves pair now ok db (.upserting e) (db.upsert g).1 (some (.tombstoning e))
  | tombstoned {e : Payload} (hok : ok = true) :
      Leaves pair now ok db (.tombstoning e) ((db.tombstone now).complete e) none
  | failed {e : Payload} (hok : ok = false) : Leaves pair now ok db (.tombstoning e) db none
  /-- What neither writes an event nor opens or tombstones the row. -/
  | other {p : Point} {s : EventsDb} {q : Option Point} (hm : s.mirror = db.mirror)
      (hc : s.completed = db.completed)
      (hu : ∀ u ∈ s.placement, ∃ u₀ ∈ db.placement, u.deletedAt = u₀.deletedAt)
      (hp : ∀ e, p ≠ .tombstoning e) (hq : ∀ e, q ≠ some (.upserting e) ∧ q ≠ some (.tombstoning e)) :
      Leaves pair now ok db p s q
  | placed {role : UserRole} : Leaves pair now ok db (.placing role) (db.placeGranteeUser role) none

theorem Leaves.same (hp : ∀ e, p ≠ .tombstoning e) (hq : ∀ e, q ≠ some (.upserting e) ∧ q ≠ some (.tombstoning e)) :
    Leaves pair now ok db p db q :=
  .other rfl rfl (fun u hu => ⟨u, hu, rfl⟩) hp hq

theorem checked_ne (active : Bool) (token : Token) (e : Payload) :
    checked active token ≠ some (.upserting e) ∧ checked active token ≠ some (.tombstoning e) := by
  cases active <;> simp [checked]

theorem advance_leaves (ha : advance pair now ok db p = some (s, q)) : Leaves pair now ok db p s q := by
  cases p with
  | upserting e =>
      simp only [advance] at ha
      split at ha
      · cases ha
        exact .same (by simp) (by simp)
      · next g hg =>
          split at ha
          · split at ha
            · cases ha
              exact .revoked hg
            · next hnot =>
                cases ha
                exact .upserted hg fun hchanged hstate => hnot ⟨hchanged, hstate⟩
          · cases ha
            exact .same (by simp) (by simp)
  | tombstoning e =>
      cases ok with
      | true =>
          cases ha
          exact .tombstoned rfl
      | false =>
          cases ha
          exact .failed rfl
  | checking token =>
      simp only [advance] at ha
      split at ha
      · cases ha
        exact .same (by simp) (checked_ne _ _)
      · split at ha
        · split at ha <;> cases ha <;> exact .same (by simp) (by simp)
        · cases ha
          exact .same (by simp) (by simp)
  | caching token active =>
      cases ha
      exact .other rfl rfl (fun u hu => ⟨u, hu, rfl⟩) (by simp) (checked_ne _ _)
  | finding token =>
      simp only [advance] at ha
      split at ha
      · cases ha
        exact .same (by simp) (by simp)
      · split at ha
        · cases ha
          split
          · refine .other rfl rfl (fun u hu => ?_) (by simp) (by simp)
            obtain ⟨u₀, hu₀, rfl⟩ := Option.map_eq_some_iff.mp hu
            exact ⟨u₀, hu₀, rfl⟩
          · exact .same (by simp) (by simp)
        · cases ha
          refine .same (by simp) fun e => ?_
          split <;> simp
  | placing role =>
      cases ok with
      | true =>
          cases ha
          exact .placed
      | false =>
          cases ha
          exact .same (by simp) (by simp)

theorem kept_upsert (h : Kept pair events db) {g : BunyipGrant} (he : e ∈ events)
    (hg : e.accept pair now = .ok g) : Kept pair events (db.upsert g).1 where
  reflects g' hg' := by
    obtain ⟨hreflects, hkey⟩ := accept_ok hg
    obtain ⟨g₁, hg₁, hnew | ⟨hold, -⟩⟩ := find_upsert db hreflects hkey
    · rw [hg₁, Option.some.injEq] at hg'
      exact ⟨e, he, hg' ▸ hnew⟩
    · rw [hg₁, Option.some.injEq] at hg'
      exact h.reflects g' (hg' ▸ hold)
  covered e' he' := by
    obtain ⟨g₀, hg₀, hle⟩ := h.covered e' he'
    obtain ⟨g', hg', hmono⟩ := Mirror.find_upsertWithEmail_mono g hg₀
    exact ⟨g', hg', hle.trans hmono⟩

theorem covers_upsert {g : BunyipGrant} (hg : e.accept pair now = .ok g) :
    ∃ g', (db.upsert g).1.mirror.find pair = some g' ∧ e.eventAt ≤ g'.eventAt := by
  obtain ⟨hreflects, hkey⟩ := accept_ok hg
  obtain ⟨g', hg', hnew | ⟨-, hle⟩⟩ := find_upsert db hreflects hkey
  · exact ⟨g', hg', hnew.eventAt.ge⟩
  · exact ⟨g', hg', hle⟩

theorem kept_advance (h : Kept pair events db) (hp : Stands pair events db p) (hl : Leaves pair now ok db p s q) :
    Kept pair events s := by
  cases hl with
  | upserted hg hdone =>
      have hk := kept_upsert h hp hg
      exact ⟨hk.reflects, List.forall_mem_cons.mpr ⟨covers_upsert hg, hk.covered⟩⟩
  | revoked hg => exact kept_upsert h hp hg
  | tombstoned hok => exact ⟨h.reflects, List.forall_mem_cons.mpr ⟨hp.2, h.covered⟩⟩
  | failed hok => exact h
  | other hm hc hu hp hq => exact ⟨hm ▸ h.reflects, hm ▸ hc ▸ h.covered⟩
  | placed => exact ⟨h.reflects, h.covered⟩

/-- A request does not lose what it relies on. -/
theorem Stands.mono {p' : Point} (h : Stands pair events db p') (hl : Leaves pair now ok db p s q) :
    Stands pair events s p' := by
  cases p' with
  | tombstoning e =>
      obtain ⟨he, g, hg, hle⟩ := h
      refine ⟨he, ?_⟩
      cases hl with
      | @upserted _ g' hg' hdone =>
          obtain ⟨g₁, hg₁, hmono⟩ := Mirror.find_upsertWithEmail_mono g' hg
          exact ⟨g₁, hg₁, hle.trans hmono⟩
      | @revoked _ g' hg' =>
          obtain ⟨g₁, hg₁, hmono⟩ := Mirror.find_upsertWithEmail_mono g' hg
          exact ⟨g₁, hg₁, hle.trans hmono⟩
      | other hm hc hu hp hq => exact ⟨g, hm ▸ hg, hle⟩
      | tombstoned hok => exact ⟨g, hg, hle⟩
      | failed hok => exact ⟨g, hg, hle⟩
      | placed => exact ⟨g, hg, hle⟩
  | _ => exact h

theorem stands_advance (hp : Stands pair events db p) (hl : Leaves pair now ok db p s q) :
    ∀ p' ∈ q, Stands pair events s p' := by
  cases hl with
  | revoked hg =>
      rintro _ ⟨⟩
      exact ⟨hp, covers_upsert hg⟩
  | other hm hc hu hp hq =>
      intro p' hp'
      cases p' with
      | upserting e => exact absurd hp' (hq e).1
      | tombstoning e => exact absurd hp' (hq e).2
      | _ => trivial
  | _ => simp

theorem rule : Rule (handlers pair) (fun _ => Kept pair events) (fun _ => Stands pair events)
    (InOrder pair events newest) where
  locks _ _ _ _ hb := absurd hb List.not_mem_nil
  unlocked _ := rfl
  wait h _ := ⟨h, fun _ hp => hp⟩
  start {w op} _ hC := by
    cases op with
    | deliver e => exact hC
    | request token => trivial
  step hw _ hi ha := by
    have hp := hw.requests _ (List.mem_of_getElem? hi)
    have hl := advance_leaves ha
    exact ⟨kept_advance hw.store hp hl, stands_advance hp hl, fun _ _ _ h => h.mono hl⟩

/-! ### The tombstone -/

/-- The newest event revokes the grant, the mirror has it, and the row is not tombstoned. -/
def Open (pair : Uuid × String) (newest : Payload) (db : EventsDb) : Prop :=
  newest.state = "revoked" ∧ Applied pair newest db ∧ ∃ u, db.placement = some u ∧ u.deletedAt = none

theorem applied_iff : Applied pair newest db ↔ ∃ g, db.mirror.find pair = some g ∧ g.eventAt = newest.eventAt := by
  simp [Applied, Option.any_eq_true]

/-- An event that has changed the row is the one that the mirror has. -/
theorem applied_upsert {g : BunyipGrant} (hg : e.accept pair now = .ok g)
    (happlied : Applied pair newest (db.upsert g).1) : e.eventAt = newest.eventAt ∨ Applied pair newest db := by
  rw [applied_iff] at happlied ⊢
  obtain ⟨g₁, hg₁, hat⟩ := happlied
  obtain ⟨hreflects, hkey⟩ := accept_ok hg
  obtain ⟨g', hg', hnew | ⟨hold, -⟩⟩ := find_upsert db hreflects hkey
  · rw [hg₁, Option.some.injEq] at hg'
    subst hg'
    exact .inl (hnew.eventAt.symm.trans hat)
  · rw [hg₁, Option.some.injEq] at hg'
    exact .inr ⟨g', hold, hg' ▸ hat⟩

theorem open_advance {w : World EventsDb Point} {i : ℕ} (hdistinct : ∀ e ∈ events, e.eventAt = newest.eventAt → e = newest)
    (hp : Stands pair events w.store p) (hC : InOrderAt pair newest w ok p) (hi : w.requests[i]? = some p)
    (hl : Leaves pair w.now ok w.store p s q) (hopen : Open pair newest s) :
    (∃ p' ∈ q, p' = .tombstoning newest) ∨ (Open pair newest w.store ∧ p ≠ .tombstoning newest) ∨
      ∃ p' ∈ w.requests.eraseIdx i, p' = .tombstoning newest := by
  obtain ⟨hrevoked, happlied, u, hu, hlive⟩ := hopen
  cases hl with
  | @upserted e g hg hdone =>
      refine .inr (.inl ⟨⟨hrevoked, ?_, u, hu, hlive⟩, by simp⟩)
      by_cases hchanged : (w.store.upsert g).2 = true
      · obtain hat | hbefore := applied_upsert hg happlied
        · exact absurd (hdistinct e hp hat ▸ hrevoked) (hdone hchanged)
        · exact hbefore
      · obtain ⟨hm, -⟩ := upsert_unchanged (Bool.eq_false_of_not_eq_true hchanged)
        unfold Applied at happlied ⊢
        rwa [← hm]
  | @revoked e g hg =>
      obtain hat | hbefore := applied_upsert hg happlied
      · exact .inl ⟨_, rfl, by rw [hdistinct e hp hat]⟩
      · exact .inr (.inl ⟨⟨hrevoked, hbefore, u, hu, hlive⟩, by simp⟩)
  | tombstoned hok =>
      obtain ⟨u₀, -, rfl⟩ := Option.map_eq_some_iff.mp hu
      cases hd : u₀.deletedAt <;> simp [hd] at hlive
  | failed hok =>
      refine .inr (.inl ⟨⟨hrevoked, happlied, u, hu, hlive⟩, ?_⟩)
      rintro hnewest
      cases hnewest
      rw [hC rfl] at hok
      cases hok
  | other hm hc hrow hp hq =>
      obtain ⟨u₀, hu₀, hd⟩ := hrow u hu
      refine .inr (.inl ⟨⟨hrevoked, ?_, u₀, hu₀, hd ▸ hlive⟩, hp newest⟩)
      unfold Applied at happlied ⊢
      rwa [← hm]
  | placed =>
      -- The row is opened only before the tombstone.
      have hpending := hC hrevoked happlied
      obtain hself | hothers := List.mem_cons.mp ((calls_perm hi).subset hpending)
      · cases hself
      · exact .inr (.inr ⟨_, hothers, rfl⟩)

/-! ### Runs -/

theorem events_converge {pair : Uuid × String} {events : List Payload} {newest : Payload} {db : EventsDb} {now : ℕ}
    {es : List (Event Operation Bool)} {w : World EventsDb Point}
    (hdb : db.mirror.find pair = none) (hnew : db.completed = [])
    (hmem : newest ∈ events) (hnewest : ∀ e ∈ events, e ≠ newest → e.eventAt < newest.eventAt)
    (hC : StepsMeet (step pair) (InOrder pair events newest) (World.start now db) es)
    (hr : run (step pair) (World.start now db) es = some w) (hdone : w.requests = [])
    (hall : ∀ e ∈ events, e ∈ w.store.completed) : Converged pair w.store newest := by
  have hdistinct : ∀ e ∈ events, e.eventAt = newest.eventAt → e = newest := by
    intro e he hat
    by_contra hne
    exact absurd hat (hnewest e he hne).ne
  have hkept : Kept pair events db :=
    { reflects := fun g hg => by
        rw [hdb] at hg
        cases hg
      covered := hnew ▸ List.forall_mem_nil _ }
  have hstart : Keeps (handlers pair) (fun _ => Kept pair events) (fun _ => Stands pair events)
      (World.start now db) := Requests.keeps_start hkept
  have hend := (rule.run hstart hC hr).store
  obtain ⟨g, hg, hle⟩ := hend.covered newest (hall newest hmem)
  obtain ⟨e, he, hreflects⟩ := hend.reflects g hg
  obtain rfl : e = newest := by
    by_contra hne
    exact absurd (hnewest e he hne) (Nat.not_lt.mpr (hreflects.eventAt ▸ hle))
  refine ⟨⟨g, hg, hreflects⟩, fun hrevoked u hu => ?_⟩
  by_contra hlive
  have hopen : Open pair e w.store :=
    ⟨hrevoked, applied_iff.mpr ⟨g, hg, hreflects.eventAt⟩, u, hu, Option.not_isSome_iff_eq_none.mp hlive⟩
  obtain ⟨p, hp, -⟩ := rule.debt (D := Open pair e) (P := fun p => p = .tombstoning e)
    (fun hC hi => hC _ hi)
    (fun hw hC hi ha hopen => open_advance hdistinct (hw.requests _ (List.mem_of_getElem? hi)) (hC _ hi) hi
      (advance_leaves ha) hopen)
    hstart hC hr (fun hopen => by
      obtain ⟨g₀, hg₀, -⟩ := applied_iff.mp hopen.2.1
      rw [show (World.start now db : World EventsDb Point).store.mirror.find pair = none from hdb] at hg₀
      cases hg₀) hopen
  rw [hdone] at hp
  cases hp

/-! ### A grant that is given and revoked -/

def ann : Uuid × String := (7, "acme")

def given : Payload :=
  { grantId := 1, ownerBunyipUserId := 2, state := "granted", role := some "technician", eventAt := 10 }

def revoked : Payload :=
  { grantId := 1, ownerBunyipUserId := 2, state := "revoked", role := none, eventAt := 20 }

def unseen : EventsDb := { mirror := Keyed.empty, cache := none, placement := none, completed := [] }

def deliver (i : ℕ) (e : Payload) : List (Event Operation Bool) := [.arrive (.deliver e), .step i true]

/-- A request of the grantee, up to the placement. -/
def request : List (Event Operation Bool) :=
  .arrive (.request { mokoshGrantRole := "technician", emailVerified := true }) :: List.replicate 3 (.step 0 true)

/-- The grantee is placed, the grant is revoked, and the first event comes again. -/
def inTurn : List (Event Operation Bool) :=
  deliver 0 given ++ request ++ [.step 0 true] ++ deliver 0 revoked ++ [.step 0 true] ++ deliver 0 given

theorem events_converge_inTurn :
    ∃ w, run (step ann) (World.start 100 unseen) inTurn = some w ∧ Converged ann w.store revoked := by
  have h : (run (step ann) (World.start 100 unseen) inTurn).any
      (fun w => w.requests = [] ∧ ∀ e ∈ [given, revoked], e ∈ w.store.completed) = true := by
    decide +kernel
  obtain ⟨w, hr, hw⟩ := exists_run_of_any h
  obtain ⟨hdone, hall⟩ := of_decide_eq_true hw
  have hmem : revoked ∈ [given, revoked] := by decide
  exact ⟨w, hr, events_converge rfl rfl hmem (by decide) (by decide +kernel) hr hdone hall⟩

/-- The tombstone of the revoke fails, and the event is delivered once more. -/
def redelivered : List (Event Operation Bool) :=
  deliver 0 given ++ request ++ [.step 0 true] ++ deliver 0 revoked ++ [.step 0 false] ++ deliver 0 revoked

/-- The grant is revoked while a request is about to place the grantee. -/
def overtaken : List (Event Operation Bool) :=
  deliver 0 given ++ request ++ deliver 1 revoked ++ [.step 1 true, .step 0 true]

theorem stays_open :
    (∃ w ∈ run (step ann) (World.start 100 unseen) redelivered, w.requests = [] ∧
      (∀ e ∈ [given, revoked], e ∈ w.store.completed) ∧ ¬Converged ann w.store revoked) ∧
    ∃ w ∈ run (step ann) (World.start 100 unseen) overtaken, w.requests = [] ∧
      (∀ e ∈ [given, revoked], e ∈ w.store.completed) ∧ ¬Converged ann w.store revoked := by
  decide +kernel

end Mokosh.GrantEvents
