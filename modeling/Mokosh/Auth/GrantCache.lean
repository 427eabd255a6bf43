import Mokosh.Lib.Requests
import Mokosh.Auth.Grants

/-! # The cache of grants

`auth/mokosh_bunyip_grants.rs`: `is_grant_active` and `active_grant_role` ask the cache of the process, and if it has
nothing of the last 30 seconds they read the row and put it there; `upsert_with_email` and `grantee_leave` write the
row and then drop what the cache has of it.  Any number of these calls are in flight.

A row has had a state before its first change and one after each; the history numbers them.  A call is answered from
one of them, and by the time it starts, the changes up to some number have returned.

**`answers_current`**: no call is answered from a state older than a change that had returned when it started, as long
as (`NoLateWrite`) what is put into the cache was read after the last change that has dropped it.  `revoked_is_active`
has a run with a reader that was held up. -/

namespace Mokosh.GrantCache

open Requests (Handlers World Event Keeps Rule)
open Grants (GrantRole BunyipGrant Mirror)

abbrev GrantKey := Uuid × String

def nanosPerSecond : ℕ := 1000000000

/-- `GRANT_CACHE_TTL`. -/
def grantCacheTtl : ℕ := 30 * nanosPerSecond

/-- An entry of the cache.  The history: the state of the row that it was read from. -/
structure GrantSnapshot where
  role : Option GrantRole
  active : Bool
  resolvedAt : ℕ
  version : ℕ
deriving DecidableEq

/-- A row of `users` of a granted tenant. -/
structure Placement where
  bunyipUserId : Uuid
  tenantSlug : String
  deletedAt : Option ℕ
deriving DecidableEq

inductive Query where
  | isGrantActive (k : GrantKey)
  | activeGrantRole (k : GrantKey)
deriving DecidableEq

inductive Answer where
  | active (b : Bool)
  | role (r : Option GrantRole)
deriving DecidableEq

namespace Query

def key : Query → GrantKey
  | .isGrantActive k | .activeGrantRole k => k

/-- What the call returns, with the role and the flag that it has found. -/
def answer (role : Option GrantRole) (active : Bool) : Query → Answer
  | .isGrantActive _ => .active active
  | .activeGrantRole _ => .role (if active then role else none)

/-- What it returns from a state of the row. -/
def answerRow (q : Query) : Option BunyipGrant → Answer
  | some g => q.answer g.role g.active
  | none => q.answer none false

end Query

/-- A call that was answered from the state `version` of the row, when the changes up to `since` had returned before
it started. -/
structure Answered where
  query : Query
  since : ℕ
  version : ℕ
  answer : Answer
deriving DecidableEq

/-- The rows and the cache.  The history: the states of each row, the oldest first; up to which of them the changes
have returned; and the calls that were answered. -/
structure CacheDb where
  mirror : Mirror
  users : List Placement
  cache : GrantKey → Option GrantSnapshot
  states : GrantKey → List (Option BunyipGrant)
  returned : GrantKey → ℕ
  answers : List Answered

inductive GranteeLeaveOutcome where
  | revoked (k : GrantKey)
  | alreadyRevoked
  | notFound

/-- The `UPDATE` of `grantee_leave`. -/
def leaveRow (now : ℕ) (g : BunyipGrant) : BunyipGrant :=
  { g with role := none, revokedAt := some now, revokedBy := some "grantee", eventAt := now, coupled := rfl }

theorem leaveRow_key (now : ℕ) (g : BunyipGrant) : (leaveRow now g).key = g.key := rfl

namespace CacheDb

variable (db : CacheDb) (k : GrantKey)

def start (mirror : Mirror) (users : List Placement) : CacheDb where
  mirror := mirror
  users := users
  cache _ := none
  states k := [mirror.find k]
  returned _ := 0
  answers := []

/-- The number of the row's current state. -/
def version : ℕ := (db.states k).length - 1

def answered (q : Query) (since version : ℕ) (answer : Answer) : CacheDb :=
  { db with answers := { query := q, since := since, version := version, answer := answer } :: db.answers }

def writeCache (s : GrantSnapshot) : CacheDb :=
  { db with cache := fun k' => if k' = k then some s else db.cache k' }

/-- `invalidate_cache`, after which the call that has changed the row returns. -/
def invalidateCache (version : ℕ) : CacheDb :=
  { db with
    cache := fun k' => if k' = k then none else db.cache k'
    returned := fun k' => if k' = k then max (db.returned k) version else db.returned k' }

/-- The rows after a change of the row `k`. -/
def change (mirror : Mirror) : CacheDb :=
  { db with
    mirror := mirror
    states := fun k' => if k' = k then db.states k ++ [mirror.find k] else db.states k' }

def upsertWithEmail (e : BunyipGrant) : CacheDb × Bool :=
  match db.mirror.upsertWithEmail e with
  | (mirror, true) => (db.change e.key mirror, true)
  | (_, false) => (db, false)

def tombstone (now : ℕ) : CacheDb :=
  { db with
    users := db.users.map fun u =>
      if u.bunyipUserId = k.1 ∧ u.tenantSlug = k.2 then { u with deletedAt := u.deletedAt <|> some now } else u }

/-- The transaction of `grantee_leave`, which locks the row before it looks at it.  No row is ever deleted, and the id
of a row is how many were there before it. -/
def granteeLeave (id grantee now : ℕ) : CacheDb × GranteeLeaveOutcome :=
  match db.mirror.rows.reverse[id]?.filter (·.granteeBunyipUserId = grantee) with
  | none => (db, .notFound)
  | some g =>
    if g.revokedAt.isSome then (db, .alreadyRevoked)
    else
      let mirror := db.mirror.update g.key (leaveRow now) fun g' hk => (leaveRow_key now g').trans hk
      ((db.change g.key mirror).tombstone g.key now, .revoked g.key)

end CacheDb

/-! ### Calls -/

inductive Operation where
  | query (q : Query)
  | upsert (e : BunyipGrant)
  | granteeLeave (id grantee : Uuid)
deriving DecidableEq

inductive Point where
  | reading (q : Query)
  | querying (q : Query) (since : ℕ)
  | caching (q : Query) (since : ℕ) (g : BunyipGrant) (version : ℕ)
  | upserting (e : BunyipGrant)
  | leaving (id grantee : Uuid)
  | revoking (id grantee : Uuid) (now : ℕ)
  | invalidating (k : GrantKey) (version : ℕ)
deriving DecidableEq

def start : Operation → Point
  | .query q => .reading q
  | .upsert e => .upserting e
  | .granteeLeave id grantee => .leaving id grantee

/-- The next step of a call.  A statement may fail. -/
def advance (now : ℕ) (ok : Bool) (db : CacheDb) : Point → Option (CacheDb × Option Point)
  | .reading q =>
    match (db.cache q.key).filter fun s => now - s.resolvedAt < grantCacheTtl with
    | some s => some (db.answered q (db.returned q.key) s.version (q.answer s.role s.active), none)
    | none => some (db, some (.querying q (db.returned q.key)))
  | .querying q since =>
    if ok then
      match db.mirror.find q.key with
      | some g => some (db, some (.caching q since g (db.version q.key)))
      -- That there is no row is not cached.
      | none => some (db.answered q since (db.version q.key) (q.answer none false), none)
    else some (db, none)
  | .caching q since g version =>
    let s : GrantSnapshot := { role := g.role, active := g.active, resolvedAt := now, version := version }
    some ((db.writeCache q.key s).answered q since version (q.answer g.role g.active), none)
  | .upserting e =>
    if ok then
      match db.upsertWithEmail e with
      | (db', true) => some (db', some (.invalidating e.key (db'.version e.key)))
      | (_, false) => some (db, none)
    else some (db, none)
  | .leaving id grantee => some (db, if ok then some (.revoking id grantee now) else none)
  | .revoking id grantee began =>
    if ok then
      match db.granteeLeave id grantee began with
      | (db', .revoked k) => some (db', some (.invalidating k (db'.version k)))
      | _ => some (db, none)
    else some (db, none)
  | .invalidating k version => some (db.invalidateCache k version, none)

def handlers : Handlers Operation Bool CacheDb Point Empty := .lockless start advance

abbrev step := Requests.step handlers

/-! ### The condition -/

/-- What is put into the cache is no older than the last change that has dropped it. -/
def LateWriteAt (db : CacheDb) : Point → Prop
  | .caching q _ _ version => version < db.returned q.key
  | _ => False

instance (db : CacheDb) : ∀ p, Decidable (LateWriteAt db p)
  | .caching q _ _ version => inferInstanceAs (Decidable (version < db.returned q.key))
  | .reading _ | .querying _ _ | .upserting _ | .leaving _ _ | .revoking _ _ _ | .invalidating _ _ => isFalse id

def NoLateWrite (w : World CacheDb Point) : Event Operation Bool → Prop
  | .step i _ => ∀ p ∈ w.requests[i]?, ¬LateWriteAt w.store p
  | _ => True

instance (w : World CacheDb Point) : ∀ e, Decidable (NoLateWrite w e)
  | .step i _ => inferInstanceAs (Decidable (∀ p ∈ w.requests[i]?, ¬LateWriteAt w.store p))
  | .wait _ | .arrive _ | .crash _ => isTrue trivial

/-! ### What a step keeps -/

/-- A row gets new states, and more changes return. -/
structure Grows (db db' : CacheDb) : Prop where
  states : ∀ k, db.states k <+: db'.states k
  returned : ∀ k, db.returned k ≤ db'.returned k

/-- The call was answered from a state no older than the changes that had returned. -/
def Answered.Current (db : CacheDb) (a : Answered) : Prop :=
  a.since ≤ a.version ∧ ∃ r, (db.states a.query.key)[a.version]? = some r ∧ a.answer = a.query.answerRow r

structure Kept (db : CacheDb) : Prop where
  current : ∀ k, (db.states k)[db.version k]? = some (db.mirror.find k)
  returned : ∀ k, db.returned k ≤ db.version k
  cache : ∀ k s, db.cache k = some s → db.returned k ≤ s.version ∧
    ∃ g : BunyipGrant, (db.states k)[s.version]? = some (some g) ∧ s.role = g.role ∧ s.active = g.active
  answers : ∀ a ∈ db.answers, a.Current db

def Stands (db : CacheDb) : Point → Prop
  | .querying q since => since ≤ db.returned q.key
  | .caching q since g version => since ≤ version ∧ (db.states q.key)[version]? = some (some g)
  | .invalidating k version => version ≤ db.version k
  | _ => True

variable {db db' : CacheDb} {p : Point} {q : Option Point} {k : GrantKey} {now : ℕ} {ok : Bool}

namespace Grows

theorem refl (db : CacheDb) : Grows db db := ⟨fun _ => List.prefix_refl _, fun _ => Nat.le_refl _⟩

theorem version_le (h : Grows db db') (k : GrantKey) : db.version k ≤ db'.version k :=
  Nat.sub_le_sub_right (h.states k).length_le 1

theorem getElem? (h : Grows db db') {v : ℕ} {r : Option BunyipGrant} (hr : (db.states k)[v]? = some r) :
    (db'.states k)[v]? = some r := by
  obtain ⟨l, hl⟩ := h.states k
  rw [← hl, List.getElem?_append_left (List.getElem?_eq_some_iff.mp hr).1, hr]

theorem stands (h : Grows db db') (hp : Stands db p) : Stands db' p := by
  cases p with
  | querying q since => exact hp.trans (h.returned q.key)
  | caching q since g version => exact ⟨hp.1, h.getElem? hp.2⟩
  | invalidating k version => exact hp.trans (h.version_le k)
  | _ => trivial

theorem change (k : GrantKey) (mirror : Mirror) : Grows db (db.change k mirror) where
  states k' := by
    dsimp only [CacheDb.change]
    split
    · next h =>
        subst h
        exact List.prefix_append _ _
    · exact List.prefix_refl _
  returned _ := Nat.le_refl _

theorem invalidateCache (k : GrantKey) (version : ℕ) : Grows db (db.invalidateCache k version) where
  states _ := List.prefix_refl _
  returned k' := by
    dsimp only [CacheDb.invalidateCache]
    split
    · next h =>
        subst h
        exact le_max_left _ _
    · exact Nat.le_refl _

theorem tombstone (h : Grows db db') (k : GrantKey) (now : ℕ) : Grows db (db'.tombstone k now) :=
  ⟨h.states, h.returned⟩

theorem answered (query : Query) (since version : ℕ) (answer : Answer) :
    Grows db (db.answered query since version answer) :=
  ⟨fun _ => List.prefix_refl _, fun _ => Nat.le_refl _⟩

end Grows

namespace Kept

theorem start (mirror : Mirror) (users : List Placement) : Kept (CacheDb.start mirror users) where
  current _ := rfl
  returned _ := Nat.zero_le _
  cache _ _ h := nomatch h
  answers _ h := absurd h List.not_mem_nil

theorem answered (h : Kept db) {query : Query} {since version : ℕ} {r : Option BunyipGrant} (hle : since ≤ version)
    (hr : (db.states query.key)[version]? = some r) :
    Kept (db.answered query since version (query.answerRow r)) where
  current := h.current
  returned := h.returned
  cache := h.cache
  answers := List.forall_mem_cons.mpr ⟨⟨hle, r, hr, rfl⟩, h.answers⟩

theorem writeCache (h : Kept db) {g : BunyipGrant} {s : GrantSnapshot} (hle : db.returned k ≤ s.version)
    (hg : (db.states k)[s.version]? = some (some g)) (hs : s.role = g.role ∧ s.active = g.active) :
    Kept (db.writeCache k s) where
  current := h.current
  returned := h.returned
  cache k' s' hs' := by
    dsimp only [CacheDb.writeCache] at hs' ⊢
    split at hs'
    · next hk =>
        subst hk
        obtain rfl := Option.some.inj hs'
        exact ⟨hle, g, hg, hs⟩
    · exact h.cache k' s' hs'
  answers := h.answers

theorem invalidateCache (h : Kept db) {version : ℕ} (hle : version ≤ db.version k) :
    Kept (db.invalidateCache k version) where
  current := h.current
  returned k' := by
    dsimp only [CacheDb.invalidateCache]
    split
    · next hk =>
        subst hk
        exact max_le (h.returned k') hle
    · exact h.returned k'
  cache k' s hs := by
    dsimp only [CacheDb.invalidateCache] at hs ⊢
    split at hs
    · cases hs
    · next hk =>
        rw [if_neg hk]
        exact h.cache k' s hs
  answers := h.answers

/-- A change of one row. -/
theorem change (h : Kept db) {mirror : Mirror} (hne : ∀ k', k' ≠ k → mirror.find k' = db.mirror.find k') :
    Kept (db.change k mirror) where
  current k' := by
    dsimp only [CacheDb.version, CacheDb.change]
    split
    · next hk =>
        subst hk
        simp
    · next hk =>
        rw [hne k' hk]
        exact h.current k'
  returned k' := (h.returned k').trans ((Grows.change k mirror).version_le k')
  cache k' s hs := by
    obtain ⟨hle, g, hg, hs⟩ := h.cache k' s hs
    exact ⟨hle, g, (Grows.change k mirror).getElem? hg, hs⟩
  answers a ha := by
    obtain ⟨hle, r, hr, hanswer⟩ := h.answers a ha
    exact ⟨hle, r, (Grows.change k mirror).getElem? hr, hanswer⟩

theorem tombstone (h : Kept db) (k : GrantKey) (now : ℕ) : Kept (db.tombstone k now) :=
  ⟨h.current, h.returned, h.cache, h.answers⟩

end Kept

/-! ### What a change does -/

theorem upsertWithEmail_changed {e : BunyipGrant} (h : db.upsertWithEmail e = (db', true)) :
    (Kept db → Kept db') ∧ Grows db db' := by
  unfold CacheDb.upsertWithEmail at h
  split at h
  · next mirror heq =>
      obtain rfl : db.change e.key mirror = db' := congrArg Prod.fst h
      refine ⟨fun hdb => hdb.change fun k' hk => ?_, Grows.change _ _⟩
      have hfind := Mirror.find_upsertWithEmail_ne (m := db.mirror) hk
      rwa [heq] at hfind
  · cases h

theorem granteeLeave_changed {id grantee : Uuid} (h : db.granteeLeave id grantee now = (db', .revoked k)) :
    (Kept db → Kept db') ∧ Grows db db' := by
  unfold CacheDb.granteeLeave at h
  split at h
  · cases h
  · next g hg =>
      split at h
      · cases h
      · cases h
        refine ⟨fun hdb => (hdb.change fun k' hk => ?_).tombstone _ _, ?_⟩
        · rw [Keyed.find_update, if_neg hk]
        · exact (Grows.change _ _).tombstone _ _

/-! ### Runs -/

theorem advance_kept (hdb : Kept db) (hp : Stands db p) (hC : ¬LateWriteAt db p)
    (ha : advance now ok db p = some (db', q)) : Kept db' ∧ Grows db db' ∧ ∀ p' ∈ q, Stands db' p' := by
  have hdone : ∀ p' ∈ (none : Option Point), Stands db' p' := fun _ hp' => nomatch hp'
  cases p with
  | reading query =>
      simp only [advance] at ha
      split at ha <;> cases ha
      · next s hs =>
          obtain ⟨hle, g, hg, hrole, hactive⟩ := hdb.cache _ s (Option.filter_eq_some_iff.mp hs).1
          rw [hrole, hactive]
          exact ⟨hdb.answered hle hg, Grows.answered _ _ _ _, hdone⟩
      · exact ⟨hdb, Grows.refl db, fun p' hp' => Option.some.inj hp' ▸ Nat.le_refl _⟩
  | querying query since =>
      have hsince := hp.trans (hdb.returned query.key)
      have hcurrent := hdb.current query.key
      simp only [advance] at ha
      split at ha
      · split at ha <;> cases ha
        · next g hg =>
            rw [hg] at hcurrent
            exact ⟨hdb, Grows.refl db, fun p' hp' => Option.some.inj hp' ▸ ⟨hsince, hcurrent⟩⟩
        · next hg =>
            rw [hg] at hcurrent
            exact ⟨hdb.answered hsince hcurrent, Grows.answered _ _ _ _, hdone⟩
      · cases ha
        exact ⟨hdb, Grows.refl db, hdone⟩
  | caching query since g version =>
      cases ha
      have hle : db.returned query.key ≤ version := Nat.le_of_not_lt hC
      refine ⟨(hdb.writeCache hle hp.2 ⟨rfl, rfl⟩).answered hp.1 hp.2, ?_, hdone⟩
      exact ⟨fun _ => List.prefix_refl _, fun _ => Nat.le_refl _⟩
  | upserting e =>
      simp only [advance] at ha
      split at ha
      · split at ha <;> cases ha
        · next heq =>
            obtain ⟨hkept, hgrows⟩ := upsertWithEmail_changed heq
            exact ⟨hkept hdb, hgrows, fun p' hp' => Option.some.inj hp' ▸ Nat.le_refl _⟩
        · exact ⟨hdb, Grows.refl db, hdone⟩
      · cases ha
        exact ⟨hdb, Grows.refl db, hdone⟩
  | leaving id grantee =>
      cases ha
      refine ⟨hdb, Grows.refl db, fun p' hp' => ?_⟩
      split at hp'
      · exact Option.some.inj hp' ▸ trivial
      · cases hp'
  | revoking id grantee began =>
      simp only [advance] at ha
      split at ha
      · split at ha <;> cases ha
        · next heq =>
            obtain ⟨hkept, hgrows⟩ := granteeLeave_changed heq
            exact ⟨hkept hdb, hgrows, fun p' hp' => Option.some.inj hp' ▸ Nat.le_refl _⟩
        · exact ⟨hdb, Grows.refl db, hdone⟩
      · cases ha
        exact ⟨hdb, Grows.refl db, hdone⟩
  | invalidating k version =>
      cases ha
      exact ⟨hdb.invalidateCache hp, Grows.invalidateCache k version, hdone⟩

theorem cache_rule : Rule handlers (fun _ => Kept) (fun _ => Stands) NoLateWrite where
  locks _ := fun _ _ b => b.elim
  unlocked _ := rfl
  wait hdb _ := ⟨hdb, fun _ hp => hp⟩
  start {w op} _ _ := by
    cases op <;> trivial
  step {w i ok p db' q} hw hC hi ha := by
    obtain ⟨hkept, hgrows, hq⟩ := advance_kept hw.store (hw.requests p (List.mem_of_getElem? hi)) (hC p hi) ha
    exact ⟨hkept, hq, fun p' _ _ hp' => hgrows.stands hp'⟩

/-- In a run in which nothing is put into the cache after it was dropped for a change of what had been read, every call
is answered from a state of the row that is no older than the changes that had returned when it started. -/
theorem answers_current {mirror : Mirror} {users : List Placement} {n : ℕ} {es : List (Event Operation Bool)}
    {w : World CacheDb Point} (hC : StepsMeet step NoLateWrite (World.start n (CacheDb.start mirror users)) es)
    (hr : run step (World.start n (CacheDb.start mirror users)) es = some w) :
    ∀ a ∈ w.store.answers, a.Current w.store :=
  (cache_rule.run (Requests.keeps_start (Kept.start mirror users)) hC hr).store.answers

/-! ### A reader that was held up -/

def granted : BunyipGrant where
  bunyipGrantId := 1
  ownerBunyipUserId := 2
  granteeBunyipUserId := 3
  mokoshAccountId := "acme"
  role := some .admin
  grantedAt := 0
  revokedAt := none
  revokedBy := none
  granteeEmail := none
  eventAt := 0
  coupled := rfl

def oneGrant : CacheDb := CacheDb.start ((Keyed.empty : Mirror).insert granted) []

/-- Asked, and answered from the row. -/
def asked (i : ℕ) : List (Event Operation Bool) := List.replicate 3 (.step i true)

def ask : Event Operation Bool := .arrive (.query (.isGrantActive granted.key))

/-- The grantee leaves, and then the grant is asked for. -/
def leftFirst : List (Event Operation Bool) :=
  [ask] ++ asked 0 ++ [.arrive (.granteeLeave 0 3), .step 0 true, .step 0 true, .step 0 true, ask] ++ asked 0

/-- A reader has read the row when the grantee leaves, and puts it into the cache afterwards. -/
def heldUp : List (Event Operation Bool) :=
  [ask, .step 0 true, .step 0 true, .arrive (.granteeLeave 0 3), .step 1 true, .step 1 true, .step 1 true,
    .step 0 true, ask, .step 0 true]

theorem answers_current_leftFirst : ∃ w, run step (World.start 0 oneGrant) leftFirst = some w ∧
    w.store.answers.map (·.answer) = [.active false, .active true] ∧ ∀ a ∈ w.store.answers, a.Current w.store := by
  have h : (run step (World.start 0 oneGrant) leftFirst).any
      (fun w => w.store.answers.map (·.answer) = [.active false, .active true]) = true := by
    decide
  have hC : StepsMeet step NoLateWrite (World.start 0 oneGrant) leftFirst := by
    decide
  obtain ⟨w, hr, hw⟩ := exists_run_of_any h
  exact ⟨w, hr, of_decide_eq_true hw, answers_current hC hr⟩

/-- The call that starts after the grantee has left finds the grant active. -/
theorem revoked_is_active : ∃ w, run step (World.start 0 oneGrant) heldUp = some w ∧
    (w.store.mirror.find granted.key).any (·.active) = false ∧
      ∃ a ∈ w.store.answers, a.query.key = granted.key ∧ a.answer = .active true ∧ a.version < a.since := by
  have h : (run step (World.start 0 oneGrant) heldUp).any (fun w =>
      (w.store.mirror.find granted.key).any (·.active) = false ∧
        ∃ a ∈ w.store.answers, a.query.key = granted.key ∧ a.answer = .active true ∧ a.version < a.since) = true := by
    decide
  obtain ⟨w, hr, hw⟩ := exists_run_of_any h
  exact ⟨w, hr, of_decide_eq_true hw⟩

end Mokosh.GrantCache
