import Mokosh.Auth.Alone
import Mokosh.Lib.Requests

/-! # Whoever was invited

Requests with a token of Bunyip, any number at a time, and `revoke` of `invitations/service.rs`.  A request reads the
newest pending invitation, then moves the row of the caller into its tenant or inserts it there, and marks the
invitation as accepted after that, if it is still pending.

The model writes down which user a statement has brought into the tenant of the invitation that the request has read
(`placed`), and which invitations `revoke` has revoked.

**`invited_agree`**: when nothing is in flight, whoever was placed because of an invitation has accepted it, and who
revoked one has kept everybody out, as long as (`MarkedInTime`) a request that has placed its caller is not cut off
before the mark, and finds the invitation pending then, or accepted by the caller.  `revoked_in_between` has a run
without. -/

namespace Mokosh.Invited

open Placement
open Requests (Handlers World Event Keeps Rule)

/-! ### Statements -/

/-- What a request has learnt of an invitation. -/
def learn (held : Option PendingInvite) : (s : Statement) → Reply s → Option PendingInvite
  | .newestPendingFor _, r => r.toOption.join
  | _, _ => held

def asksInvite : Statement → Bool
  | .newestPendingFor _ => true
  | _ => false

def marks : Statement → Bool
  | .acceptInvite _ _ => true
  | _ => false

/-- Statements that bring a user into a tenant. -/
def moves : Statement → Bool
  | .rehomeUser _ _ _ | .upsertUser _ | .placeGrantee _ => true
  | _ => false

/-- The reply does not keep a request from the mark. -/
def lets : (s : Statement) → Reply s → Bool
  | .upsertUser _, r | .ensureTenantActive _ _, r => r.isOk
  | .getUserById read _ _, r => match r with
    | .ok u => u.status = .active
    | .error _ => read ≠ .upserted
  | _, _ => true

/-! ### What is stored -/

/-- The tenant of a user. -/
def tenantOf (db : PlacementDb) (sub : Uuid) : Option Uuid := (db.users.find sub).map fun u => u.tenantId

structure Store where
  db : PlacementDb
  placed : List (Uuid × Uuid)
  revoked : List Uuid

def AcceptedBy (db : PlacementDb) (inviteId sub : Uuid) : Prop :=
  ∃ i, db.invitations.find inviteId = some i ∧ i.status = .accepted ∧ i.acceptedBy = some sub

/-- `revoke`, where the invitation is pending. -/
def Store.revoke (s : Store) (tenantId id : Uuid) : Store :=
  match (s.db.invitations.find id).filter fun i => i.tenantId = tenantId ∧ i.status = .pending with
  | some _ =>
    { s with
      db :=
        { s.db with
          invitations := s.db.invitations.update id (fun i => { i with status := .revoked }) fun _ h => h }
      revoked := id :: s.revoked }
  | none => s

/-! ### Requests -/

inductive Operation where
  | revoke (tenantId id : Uuid)
  | request (sub : Uuid) (claims : AtClaims)
deriving DecidableEq

/-- A request: its caller, the invitation that it has read, whether it has placed the caller and not come to the mark,
and what is left of it. -/
structure Caller where
  sub : Uuid
  held : Option PendingInvite
  owes : Bool
  rest : Prog Outcome

inductive Point where
  | revoking (tenantId id : Uuid)
  | calling (c : Caller)

namespace Caller

variable (c : Caller)

/-- A statement has brought the caller into the tenant of the invitation. -/
def places (db db' : PlacementDb) : Bool :=
  c.held.any fun i => tenantOf db c.sub ≠ some i.tenantId ∧ tenantOf db' c.sub = some i.tenantId

def entry : Option (Uuid × Uuid) := c.held.map fun i => (i.id, c.sub)

/-- The caller after the statement `s`. -/
def next (s : Statement) (r : Reply s) (rest : Prog Outcome) (placed : Bool) : Caller :=
  { sub := c.sub, held := learn c.held s r, owes := ¬marks s ∧ (c.owes ∨ placed), rest := rest }

end Caller

variable (settings : Settings)

def start : Operation → Point
  | .revoke tenantId id => .revoking tenantId id
  | .request sub claims =>
    .calling { sub := sub, held := none, owes := false, rest := ensureUserFromBunyip settings sub claims }

def advance (now : ℕ) (x : Answer) (s : Store) : Point → Option (Store × Option Point)
  | .revoking tenantId id => some (if x.fails then s else s.revoke tenantId id, none)
  | .calling c =>
    match c.rest with
    | .done _ => some (s, none)
    | .ask statement k =>
      let y := s.db.exec settings.texts now x statement
      let placed := c.places s.db y.2
      some ({ s with db := y.2, placed := (c.entry.filter fun _ => placed).toList ++ s.placed },
        some (.calling (c.next statement y.1 (k y.1) placed)))

def handlers : Handlers Operation Answer Store Point Empty := .lockless (start settings) (advance settings)

abbrev step := Requests.step (handlers settings)

/-! ### The condition -/

/-- The invitation is there to be accepted by the user, or has been. -/
def isOpenFor (db : PlacementDb) (inviteId sub : Uuid) : Bool :=
  (db.invitations.find inviteId).any fun i => i.status = .pending ∨ i.status = .accepted ∧ i.acceptedBy = some sub

/-- A request that has placed its caller is let on to the mark, and finds the invitation to be its caller's there. -/
def Caller.inTime (c : Caller) (now : ℕ) (x : Answer) (db : PlacementDb) : Bool :=
  match c.rest with
  | .done _ => true
  | .ask (.acceptInvite i sub) _ => ¬x.fails ∧ isOpenFor db i.id sub
  | .ask s _ => lets s (db.exec settings.texts now x s).1

namespace Point

def owes : Point → Bool
  | revoking _ _ => false
  | calling c => c.owes

def inTime (now : ℕ) (x : Answer) (db : PlacementDb) : Point → Bool
  | revoking _ _ => true
  | calling c => ¬c.owes ∨ c.inTime settings now x db

end Point

def MarkedInTime (w : World Store Point) : Event Operation Answer → Prop
  | .step i x => ∀ p ∈ w.requests[i]?, p.inTime settings w.now x w.store.db = true
  | .crash i => ∀ p ∈ w.requests[i]?, p.owes = false
  | .wait _ | .arrive _ => True

instance (w : World Store Point) : ∀ e, Decidable (MarkedInTime settings w e)
  | .step i x => inferInstanceAs (Decidable (∀ p ∈ w.requests[i]?, p.inTime settings w.now x w.store.db = true))
  | .crash i => inferInstanceAs (Decidable (∀ p ∈ w.requests[i]?, p.owes = false))
  | .wait _ | .arrive _ => isTrue trivial

/-! ### What the programs do -/

/-- A program that reads no invitation, and brings nobody into a tenant unless it is `moving`. -/
def Avoids (moving : Bool) {α : Type} (p : Prog α) : Prop :=
  p.Meets (fun s => asksInvite s = false ∧ (moving = false → moves s = false)) (fun _ _ => True) fun _ => True

/-- The rest of a program, after a statement that brings its caller into a tenant: it comes to the mark. -/
def ThenMarks (sub : Uuid) (held : Option PendingInvite) (s : Statement) (r : Reply s) (rest : Prog Outcome) : Prop :=
  moves s = true → lets s r = true → ∀ i ∈ held, rest.Reaches (fun s => s = .acceptInvite i sub)
    (fun s => asksInvite s = false ∧ marks s = false) fun s r => lets s r = true

abbrev Follows (sub : Uuid) (held : Option PendingInvite) (p : Prog Outcome) : Prop :=
  p.Traced learn (ThenMarks sub) held

variable {settings} {moving : Bool} {α β : Type} {p : Prog α}

theorem learn_eq {held : Option PendingInvite} {s : Statement} {r : Reply s} (h : asksInvite s = false) :
    learn held s r = held := by
  cases s <;> first | rfl | cases h

namespace Avoids

theorem pure (a : α) : Avoids moving (pure a : Prog α) := trivial

theorem ask {s : Statement} (hs : asksInvite s = false) (hmoves : moving = false → moves s = false) :
    Avoids moving (ask s) :=
  ⟨⟨hs, hmoves⟩, fun _ _ => trivial⟩

theorem bind {f : α → Prog β} (hp : Avoids moving p) (hf : ∀ a, Avoids moving (f a)) : Avoids moving (p >>= f) :=
  Dialogue.Meets.bind hp fun a _ => hf a

/-- Before an invitation has been read, nothing is demanded. -/
theorem follows_none (sub : Uuid) {p : Prog Outcome} (hp : Avoids true p) : Follows sub none p :=
  hp.traced (fun _ _ h => learn_eq h.1) fun _ _ _ _ _ _ _ hi => by cases hi

theorem bind_follows_none {sub : Uuid} {f : α → Prog Outcome} (hp : Avoids true p) (hf : ∀ a, Follows sub none (f a)) :
    Follows sub none (p >>= f) :=
  hp.traced_bind (fun _ _ h => learn_eq h.1) (fun _ _ _ _ _ _ _ hi => by cases hi) fun a _ => hf a

/-- Nor is it after statements that bring nobody into a tenant. -/
theorem follows {sub : Uuid} {held : Option PendingInvite} {p : Prog Outcome} (hp : Avoids false p) :
    Follows sub held p :=
  hp.traced (fun _ _ h => learn_eq h.1) fun _ _ _ h hm => absurd (hm.symm.trans (h.2 rfl)) (by decide)

theorem bind_follows {sub : Uuid} {held : Option PendingInvite} {f : α → Prog Outcome} (hp : Avoids false p)
    (hf : ∀ a, Follows sub held (f a)) : Follows sub held (p >>= f) :=
  hp.traced_bind (fun _ _ h => learn_eq h.1) (fun _ _ _ h hm => absurd (hm.symm.trans (h.2 rfl)) (by decide))
    fun a _ => hf a

variable (sub : Uuid) (hints : Hints) (claims : AtClaims)

theorem isGrantActive (read : Read) (key : Uuid × String) : Avoids moving (isGrantActive read key) := by
  unfold Placement.isGrantActive
  refine bind (ask rfl fun _ => rfl) fun cached => ?_
  obtain _ | active := cached
  · refine bind (ask rfl fun _ => rfl) fun row => ?_
    obtain e | _ | active := row
    · exact pure _
    · exact pure _
    · exact bind (ask rfl fun _ => rfl) fun _ => pure _
  · exact pure _

theorem ensureGrantStillActiveIfClaimed (read : Read) :
    Avoids moving (ensureGrantStillActiveIfClaimed read sub claims) := by
  unfold Placement.ensureGrantStillActiveIfClaimed
  split
  · exact pure _
  · exact (isGrantActive ..).bind fun _ => pure _

theorem ensurePrincipalUsable (read : Read) (user : User) : Avoids moving (ensurePrincipalUsable read user) := by
  unfold Placement.ensurePrincipalUsable
  split
  · exact ask rfl fun _ => rfl
  · exact pure _

theorem resolveGranteeCaller (slug : String) : Avoids moving (resolveGranteeCaller sub slug claims) := by
  unfold Placement.resolveGranteeCaller
  refine bind (ensureGrantStillActiveIfClaimed ..) fun checked => ?_
  obtain e | _ := checked
  · exact pure _
  refine bind (ask rfl fun _ => rfl) fun target => ?_
  obtain e | _ | target := target
  · exact pure _
  · exact pure _
  refine bind (ask rfl fun _ => rfl) fun found => ?_
  obtain e | _ | principal := found
  · exact pure _
  · exact pure _
  refine bind (ensurePrincipalUsable ..) fun gate => ?_
  obtain e | _ := gate
  · exact pure _
  · exact pure _

theorem resolveBunyipCaller : Avoids moving (resolveBunyipCaller settings sub claims) := by
  unfold Placement.resolveBunyipCaller
  split
  · exact resolveGranteeCaller ..
  refine bind (ask rfl fun _ => rfl) fun found => ?_
  obtain e | _ | principal := found
  · exact pure _
  · exact pure _
  refine bind (ensurePrincipalUsable ..) fun gate => ?_
  obtain e | _ := gate
  · exact pure _
  refine bind (ensureGrantStillActiveIfClaimed ..) fun checked => ?_
  obtain e | _ := checked
  · exact pure _
  · exact pure _

theorem assumeRole (user : User) (role : Grants.UserRole) : Avoids moving (assumeRole user role) := by
  unfold Placement.assumeRole
  split
  · exact bind (ask rfl fun _ => rfl) fun _ => pure _
  · exact pure _

theorem provisionGrantee (target : Uuid) (role : Grants.UserRole) :
    Avoids true (provisionGrantee sub hints target role) := by
  unfold Placement.provisionGrantee
  split
  · exact pure _
  · refine bind ?_ fun placed => ?_
    · unfold placeGranteeUser
      refine bind (ask rfl fun h => by cases h) fun written => ?_
      obtain e | _ := written
      · exact pure _
      · exact bind (ask rfl fun _ => rfl) fun _ => pure _
    · obtain e | user := placed <;> exact pure _

theorem placeGranteeCaller : Avoids true (placeGranteeCaller sub hints claims) := by
  unfold Placement.placeGranteeCaller
  refine bind (ensureGrantStillActiveIfClaimed ..) fun checked => ?_
  obtain e | _ := checked
  · exact pure _
  dsimp only
  split
  · exact pure _
  refine bind (ask rfl fun h => by cases h) fun target => ?_
  obtain e | _ | target := target
  · exact pure _
  · exact pure _
  dsimp only
  split
  · exact pure _
  refine bind (ask rfl fun h => by cases h) fun found => ?_
  obtain e | _ | principal := found
  · exact provisionGrantee ..
  · exact provisionGrantee ..
  refine bind (ensurePrincipalUsable ..) fun gate => ?_
  obtain e | _ := gate
  · exact pure _
  · exact (assumeRole ..).bind fun _ => pure _

theorem ensurePersonalTenant : Avoids moving (ensurePersonalTenant sub) := by
  unfold Placement.ensurePersonalTenant
  refine bind (ask rfl fun _ => rfl) fun owned => ?_
  obtain e | _ | id := owned
  · exact pure _
  · refine bind (ask rfl fun _ => rfl) fun inserted => ?_
    obtain e | _ | id := inserted
    · exact pure _
    · exact bind (ask rfl fun _ => rfl) fun _ => pure _
    · exact bind (ask rfl fun _ => rfl) fun _ => pure _
  · exact pure _

theorem targetTenant (placement : Option (Uuid × Grants.UserRole)) (invite : Option PendingInvite) :
    Avoids moving (targetTenant settings sub placement invite) := by
  unfold Placement.targetTenant
  split
  · exact pure _
  · exact pure _
  · split
    · exact (ensurePersonalTenant sub).bind fun _ => pure _
    · exact pure _

theorem reread {write : Prog (AppResult Unit)} (hw : Avoids moving write) (read : Read) (tenantId userId : Uuid) :
    Avoids moving (reread write read tenantId userId) := by
  refine hw.bind fun written => ?_
  obtain e | _ := written
  · exact pure _
  · exact ask rfl fun _ => rfl

theorem healPlaceholder (user : User) : Avoids moving (healPlaceholder hints user) := by
  unfold Placement.healPlaceholder
  split
  · exact (reread (ask rfl fun _ => rfl) ..).bind fun _ => pure _
  · exact pure _

theorem refreshDrifted (user : User) : Avoids moving (refreshDrifted hints user) := by
  unfold Placement.refreshDrifted
  split
  · exact (reread (ask rfl fun _ => rfl) ..).bind fun _ => pure _
  · exact pure _

theorem lateGate (resolved : Option BunyipPrincipal) (user : User) : Avoids moving (lateGate resolved user) := by
  unfold Placement.lateGate
  split
  · exact pure _
  · exact ensurePrincipalUsable ..

theorem admitCaller (resolved : Option BunyipPrincipal) (invite : Option PendingInvite) (user : User) :
    Avoids moving (admitCaller sub hints claims resolved invite user) := by
  unfold Placement.admitCaller
  refine (healPlaceholder ..).bind fun user => (refreshDrifted ..).bind fun user => (lateGate ..).bind fun gate => ?_
  obtain e | _ := gate
  · exact pure _
  · refine bind ?_ fun _ => (assumeRole ..).bind fun _ => pure _
    unfold acceptConsumed
    split
    · exact bind (ask rfl fun _ => rfl) fun _ => pure _
    · exact pure _

end Avoids

/-! ### The mark comes after the placement -/

/-- What a program may do before the mark, if it is let on. -/
abbrev LetOn (Q : α → Prop) (p : Prog α) : Prop :=
  p.Meets (fun s => asksInvite s = false ∧ marks s = false) (fun s r => lets s r = true) Q

variable {sub : Uuid} {hints : Hints} {claims : AtClaims} {resolved : Option BunyipPrincipal} {invite : PendingInvite}

/-- The gate lets the user in, since it is not asked or the user is active. -/
def Passes (resolved : Option BunyipPrincipal) (user : User) : Prop := resolved = none → user.status = .active

/-- A user that was brought up to date, or could not be. -/
theorem letOn_reread {userId tenantId : Uuid} {p : Prog (AppResult Unit)} {read : Read}
    (hp : LetOn (fun _ => True) p) {user : User} (hu : Passes resolved user) :
    LetOn (Passes resolved) (do return (← reread p read tenantId userId).toOption.getD user) := by
  have hread : LetOn (fun found => ∀ u, found = .ok u → u.status = .active) (reread p read tenantId userId) := by
    refine Dialogue.Meets.bind hp fun written _ => ?_
    obtain e | _ := written
    · exact fun _ h => by cases h
    · refine ⟨⟨rfl, rfl⟩, fun found hfound u hu => ?_⟩
      subst hu
      exact of_decide_eq_true hfound
  refine Dialogue.Meets.bind hread fun found hfound => ?_
  obtain e | u := found
  · exact hu
  · exact fun _ => hfound u rfl

theorem letOn_healPlaceholder {user : User} (hu : Passes resolved user) :
    LetOn (Passes resolved) (healPlaceholder hints user) := by
  unfold healPlaceholder
  split
  · refine letOn_reread ?_ hu
    exact ⟨⟨rfl, rfl⟩, fun _ _ => trivial⟩
  · exact hu

theorem letOn_refreshDrifted {user : User} (hu : Passes resolved user) :
    LetOn (Passes resolved) (refreshDrifted hints user) := by
  unfold refreshDrifted
  split
  · refine letOn_reread ?_ hu
    exact ⟨⟨rfl, rfl⟩, fun _ _ => trivial⟩
  · exact hu

theorem letOn_lateGate {user : User} (hu : Passes resolved user) :
    LetOn (fun gate => gate = .ok ()) (lateGate resolved user) := by
  unfold lateGate
  split
  · rfl
  · next hresolved =>
      unfold ensurePrincipalUsable
      rw [if_pos (hu (Option.not_isSome_iff_eq_none.mp hresolved))]
      refine ⟨⟨rfl, rfl⟩, fun gate hgate => ?_⟩
      obtain e | _ := gate
      · cases hgate
      · rfl

/-- What comes to the mark. -/
abbrev ComesToMark (sub : Uuid) (invite : PendingInvite) (p : Prog α) : Prop :=
  p.Reaches (fun s => s = .acceptInvite invite sub) (fun s => asksInvite s = false ∧ marks s = false)
    fun s r => lets s r = true

theorem comesToMark_admitCaller {user : User} (hu : Passes resolved user) :
    ComesToMark sub invite (admitCaller sub hints claims resolved (some invite) user) := by
  unfold admitCaller
  refine (letOn_healPlaceholder hu).reaches_bind fun user hu => ?_
  refine (letOn_refreshDrifted hu).reaches_bind fun user hu => ?_
  refine (letOn_lateGate hu).reaches_bind fun gate hgate => ?_
  subst hgate
  have hmark : ComesToMark sub invite (acceptConsumed sub (some invite)) := .inl rfl
  exact hmark.bind _

variable {target : Uuid} {role : Grants.UserRole}

/-- The row that has been inserted is loaded. -/
theorem letOn_upserted (sub target : Uuid) : LetOn (fun loaded => ∃ u, loaded = some u ∧ Passes none u) (do
    let found : AppResult User ← ask (.getUserById .upserted target sub)
    return found.toOption) := by
  refine ⟨⟨rfl, rfl⟩, fun found hfound => ?_⟩
  obtain e | u := found
  · cases hfound
  · exact ⟨u, rfl, fun _ => of_decide_eq_true hfound⟩

theorem letOn_loadUser : LetOn (fun loaded => ∃ u, loaded = some u ∧ Passes resolved u)
    (loadUser settings sub hints resolved target role) := by
  unfold loadUser
  split
  · next principal hprincipal =>
      have hsome := (Option.filter_eq_some_iff.mp hprincipal).1
      exact ⟨_, rfl, fun hnone => absurd (hsome.symm.trans hnone) (by simp)⟩
  · refine ⟨⟨rfl, rfl⟩, fun found hfound => ?_⟩
    obtain e | u := found
    · refine ⟨⟨rfl, rfl⟩, fun written hwritten => ?_⟩
      obtain e | _ := written
      · cases hwritten
      · refine Dialogue.Meets.mono (letOn_upserted sub target) fun loaded hloaded => ?_
        obtain ⟨u, hu, hpasses⟩ := hloaded
        exact ⟨u, hu, fun _ => hpasses rfl⟩
    · exact ⟨u, rfl, fun _ => of_decide_eq_true hfound⟩

theorem comesToMark_settleIn :
    ComesToMark sub invite (settleIn settings sub hints claims resolved (some invite) target) := by
  unfold settleIn
  refine letOn_loadUser.reaches_bind fun loaded hloaded => ?_
  obtain ⟨u, rfl, hu⟩ := hloaded
  exact comesToMark_admitCaller hu

/-! ### Whole programs -/

section Continuations

variable (settings) (sub : Uuid) (hints : Hints) (claims : AtClaims) (resolved : Option BunyipPrincipal)

/-- What `settle_in` does with the user it loaded. -/
def admitLoaded (held : Option PendingInvite) : Option User → Prog Outcome
  | none => pure (none, none)
  | some user => admitCaller sub hints claims resolved held user

/-- What `place_bunyip_caller` does with the tenant it chose. -/
def enterTarget (placement : Option (Uuid × Grants.UserRole)) (held : Option PendingInvite) :
    Option Uuid → Prog Outcome
  | none => pure (none, none)
  | some target => enterTenant settings sub hints claims resolved placement held target

/-- The rest of `place_bunyip_caller` after its two readings. -/
def onboard (placement : Option (Uuid × Grants.UserRole)) (held : Option PendingInvite) : Prog Outcome :=
  if onboards settings hints claims placement held then
    targetTenant settings sub placement held >>= enterTarget settings sub hints claims resolved placement held
  else pure (none, none)

end Continuations

theorem avoids_admitLoaded (held : Option PendingInvite) (loaded : Option User) :
    Avoids false (admitLoaded sub hints claims resolved held loaded) := by
  obtain _ | user := loaded
  · exact .pure _
  · exact .admitCaller ..

theorem follows_settleIn (held : Option PendingInvite) :
    Follows sub held (settleIn settings sub hints claims resolved held target) := by
  have hadmitted : ∀ loaded, Avoids false (admitLoaded sub hints claims resolved held loaded) :=
    avoids_admitLoaded held
  unfold settleIn loadUser
  split
  · exact (hadmitted (some _)).follows
  · refine fun found => ⟨fun h => (by cases h), ?_⟩
    obtain e | user := found
    · refine fun written => ⟨fun _ hlets i hi => ?_, ?_⟩
      · obtain e | _ := written
        · cases hlets
        · obtain rfl : held = some i := hi
          refine (letOn_upserted sub target).reaches_bind fun loaded hloaded => ?_
          obtain ⟨u, rfl, hu⟩ := hloaded
          exact comesToMark_admitCaller fun _ => hu rfl
      · obtain e | _ := written
        · trivial
        · exact fun found => ⟨fun h => (by cases h), (hadmitted found.toOption).follows⟩
    · exact (hadmitted (some user)).follows

theorem follows_enterTenant (placement : Option (Uuid × Grants.UserRole)) (held : Option PendingInvite) :
    Follows sub held (enterTenant settings sub hints claims resolved placement held target) := by
  unfold enterTenant rehome
  split
  · refine fun moved => ⟨fun _ _ i hi => ?_, follows_settleIn held⟩
    obtain rfl : held = some i := hi
    exact comesToMark_settleIn
  · exact follows_settleIn held

theorem follows_placeBunyipCaller : Follows sub none (placeBunyipCaller settings sub hints claims resolved) := by
  have hplaced : ∀ placement held, Follows sub held (onboard settings sub hints claims resolved placement held) :=
    fun placement held => by
      unfold onboard
      split
      · refine (Avoids.targetTenant sub placement held).bind_follows fun target => ?_
        obtain _ | target := target
        · trivial
        · exact follows_enterTenant placement held
      · trivial
  unfold placeBunyipCaller
  refine Avoids.bind_follows_none ?_ fun placement => ?_
  · unfold currentPlacement
    split
    · exact .pure _
    · exact .bind (.ask rfl fun _ => rfl) fun _ => .pure _
  · unfold consumableInvite
    split
    · split
      · exact fun invite => ⟨fun h => (by cases h), hplaced placement invite.toOption.join⟩
      · exact hplaced placement none
    · exact hplaced placement none

theorem follows_ensureUserFromBunyip : Follows sub none (ensureUserFromBunyip settings sub claims) := by
  have huserinfo : Follows sub none (placeWithUserinfo settings sub claims) := by
    refine fun info => ⟨fun h => (by cases h), ?_⟩
    show Follows sub none (placeBunyipUserWithRejection settings sub claims (.ofUserinfo claims info))
    unfold placeBunyipUserWithRejection
    split
    · exact (Avoids.placeGranteeCaller ..).follows_none sub
    · exact follows_placeBunyipCaller
  unfold ensureUserFromBunyip placeBunyipUserFromLocalState
  rw [bind_assoc]
  refine (Avoids.resolveBunyipCaller sub claims).bind_follows_none fun decision => ?_
  obtain _ | _ | e | principal := decision
  · exact huserinfo
  · simpa using follows_placeBunyipCaller
  · trivial
  · dsimp only
    split
    · simpa using (Avoids.placeGranteeCaller sub .absent claims).follows_none sub
    · simpa using follows_placeBunyipCaller

/-! ### What a statement does -/

variable {texts : Texts} {now : ℕ} {x : Answer} {db db' : PlacementDb} {statement : Statement} {id : Uuid}
  {i : Invitation}

theorem tenantOf_updateUser {userId : Uuid} {p : UserRow → Bool} {f : UserRow → UserRow} {hf : ∀ u, (f u).id = u.id}
    (h : db.updateUser userId p f hf = .ok db') (htenant : ∀ u, (f u).tenantId = u.tenantId) (sub : Uuid) :
    tenantOf db' sub = tenantOf db sub := by
  cases hu : (db.users.find userId).filter p with
  | none =>
      rw [PlacementDb.updateUser_of_not_found hu] at h
      cases h
      rfl
  | some u =>
      rw [PlacementDb.updateUser_of_found hu] at h
      obtain ⟨_, _, rfl⟩ := PlacementDb.putUsers_eq_ok.mp h
      unfold tenantOf
      dsimp only
      rw [Keyed.find_update]
      split
      · next hsub =>
          rw [hsub, Option.map_map]
          exact congrArg (Option.map · _) (funext htenant)
      · rfl

theorem tenantOf_written {r : AppResult PlacementDb} {sub : Uuid}
    (h : ∀ db', r = .ok db' → tenantOf db' sub = tenantOf db sub) :
    tenantOf (db.written r).2 sub = tenantOf db sub := by
  cases r with
  | error _ => rfl
  | ok db' => exact h db' rfl

theorem tenantOf_exec (hs : moves statement = false) (sub : Uuid) :
    tenantOf (db.exec texts now x statement).2 sub = tenantOf db sub := by
  unfold PlacementDb.exec
  split
  · rfl
  cases statement with
  | rehomeUser | upsertUser | placeGrantee => cases hs
  | repairEmail => exact tenantOf_written fun _ h => tenantOf_updateUser h (fun _ => rfl) sub
  | refreshNames => exact tenantOf_written fun _ h => tenantOf_updateUser h (fun _ => rfl) sub
  | setUserRole => exact tenantOf_written fun _ h => tenantOf_updateUser h (fun _ => rfl) sub
  | insertPersonalTenant ownerId =>
      unfold PlacementDb.perform PlacementDb.insertPersonalTenant
      dsimp only
      split_ifs <;> rfl
  | acceptInvite invite sub =>
      unfold PlacementDb.perform PlacementDb.acceptInvite
      dsimp only
      split <;> rfl
  | _ => rfl

theorem not_places_of_tenantOf_eq {c : Caller} (h : tenantOf db' c.sub = tenantOf db c.sub) :
    c.places db db' = false := by
  unfold Caller.places
  rw [h]
  cases c.held <;> simp

/-- A statement that has placed the caller has succeeded. -/
theorem places_exec {c : Caller} (h : c.places db (db.exec texts now x statement).2 = true) :
    moves statement = true ∧ lets statement (db.exec texts now x statement).1 = true := by
  have hmoves : moves statement = true := by
    by_contra hs
    rw [not_places_of_tenantOf_eq (tenantOf_exec (Bool.eq_false_iff.mpr hs) c.sub)] at h
    cases h
  refine ⟨hmoves, ?_⟩
  cases statement with
  | upsertUser r =>
      by_contra hfailed
      refine absurd h (Bool.eq_false_iff.mp (not_places_of_tenantOf_eq ?_))
      unfold PlacementDb.exec at hfailed ⊢
      split at hfailed
      · next hx => rw [if_pos hx]
      · next hx =>
          rw [if_neg hx]
          refine tenantOf_written fun db' hok => ?_
          have hperform : db.perform texts now x (.upsertUser r) = (.ok (), db') := by
            show db.written (db.upsertUser texts now r) = _
            rw [hok]
            rfl
          rw [hperform] at hfailed
          exact absurd rfl hfailed
  | rehomeUser => rfl
  | placeGrantee => rfl
  | _ => cases hmoves

/-! #### Invitations -/

/-- An invitation that is no longer pending stays as it is. -/
def SettledStay (db db' : PlacementDb) : Prop :=
  ∀ id i, db.invitations.find id = some i → i.status ≠ .pending → db'.invitations.find id = some i

theorem settledStay_of_eq (h : db'.invitations = db.invitations) : SettledStay db db' :=
  fun id i hi _ => by rw [h]; exact hi

/-- A write to a pending invitation. -/
theorem settledStay_update (hi : db.invitations.find id = some i) (hpending : i.status = .pending)
    (h : ∀ id' ≠ id, db'.invitations.find id' = db.invitations.find id') : SettledStay db db' := by
  intro id' i' hi' hsettled
  by_cases heq : id' = id
  · subst heq
    cases hi.symm.trans hi'
    exact absurd hpending hsettled
  · rw [h id' heq]
    exact hi'

theorem settledStay_revoke (s : Store) (tenantId id : Uuid) : SettledStay s.db (s.revoke tenantId id).db := by
  unfold Store.revoke
  split
  · next i hi =>
      obtain ⟨hfind, hmatch⟩ := Option.filter_eq_some_iff.mp hi
      refine settledStay_update hfind (of_decide_eq_true hmatch).2 fun id' hne => ?_
      dsimp only
      rw [Keyed.find_update, if_neg hne]
  · exact settledStay_of_eq rfl

theorem invitations_placeGrantee {r : Identities.PlaceGranteeRequest} {freshId : Uuid}
    (h : db.placeGrantee texts now r freshId = .ok db') : db'.invitations = db.invitations := by
  unfold PlacementDb.placeGrantee at h
  split at h
  · next u hu =>
      have hmatch : (db.users.find u.id).filter (fun _ => true) = some u := by
        rw [PlacementDb.find_of_findPlacement hu]
        rfl
      obtain ⟨_, _, rfl⟩ := PlacementDb.putUsers_eq_ok.mp ((PlacementDb.updateUser_of_found hmatch).symm.trans h)
      rfl
  · obtain ⟨-, -, _, _, rfl⟩ := PlacementDb.insertUser_eq_ok.mp h
    rfl

theorem settledStay_exec : SettledStay db (db.exec texts now x statement).2 := by
  by_cases hs : statement.onlyUsers true = true
  · exact settledStay_of_eq (OnlyUsers.exec hs).invitations
  unfold PlacementDb.exec
  split
  · exact settledStay_of_eq rfl
  cases statement with
  | placeGrantee r =>
      refine settledStay_of_eq ?_
      show (db.written (db.placeGrantee texts now r x.generated.userId)).2.invitations = _
      cases hok : db.placeGrantee texts now r x.generated.userId with
      | error _ => rfl
      | ok db' => exact invitations_placeGrantee hok
  | insertPersonalTenant ownerId =>
      refine settledStay_of_eq ?_
      unfold PlacementDb.perform PlacementDb.insertPersonalTenant
      dsimp only
      split_ifs <;> rfl
  | seedTenant | cacheGrant => exact settledStay_of_eq rfl
  | acceptInvite invite sub =>
      unfold PlacementDb.perform PlacementDb.acceptInvite
      dsimp only
      split
      · next hpending =>
          obtain ⟨i, hi, hpending⟩ := (Option.any_eq_true _ _).mp hpending
          refine settledStay_update hi (of_decide_eq_true hpending) fun id' hne => ?_
          dsimp only
          rw [Keyed.find_update, if_neg hne]
      · exact settledStay_of_eq rfl
  | _ => exact absurd rfl hs

theorem SettledStay.acceptedBy (h : SettledStay db db') {sub : Uuid} (ha : AcceptedBy db id sub) :
    AcceptedBy db' id sub := by
  obtain ⟨i, hi, hstatus, hby⟩ := ha
  exact ⟨i, h id i hi (by rw [hstatus]; decide), hstatus, hby⟩

/-- The mark finds the invitation to be the caller's. -/
theorem acceptedBy_acceptInvite {invite : PendingInvite} {sub : Uuid} (h : isOpenFor db invite.id sub = true) :
    AcceptedBy (db.acceptInvite now invite sub) invite.id sub := by
  obtain ⟨i, hi, hopen⟩ := (Option.any_eq_true _ _).mp h
  unfold PlacementDb.acceptInvite
  rw [hi]
  split
  · refine ⟨{ i with status := .accepted, acceptedAt := some now, acceptedBy := some sub }, ?_, rfl, rfl⟩
    dsimp only
    rw [Keyed.find_update, if_pos rfl, hi]
    rfl
  · next hpending =>
      obtain hpending' | haccepted := of_decide_eq_true hopen
      · exact absurd (decide_eq_true hpending') hpending
      · exact ⟨i, hi, haccepted⟩

/-! ### Runs -/

/-- What `revoke` has revoked stays revoked. -/
def RevokedStay (s : Store) : Prop := ∀ id ∈ s.revoked, ∃ i, s.db.invitations.find id = some i ∧ i.status = .revoked

/-- A request follows its program, and comes to the mark if it has placed its caller. -/
def OnCourse : Point → Prop
  | .revoking _ _ => True
  | .calling c => Follows c.sub c.held c.rest ∧ (c.owes = true → ∃ i, c.held = some i ∧ ComesToMark c.sub i c.rest)

/-- The request has placed its caller because of the invitation, and has not come to the mark. -/
def Point.settles (entry : Uuid × Uuid) : Point → Prop
  | .revoking _ _ => False
  | .calling c => c.owes = true ∧ c.entry = some entry

/-- The placement is there, and the mark is not. -/
def Unmarked (entry : Uuid × Uuid) (s : Store) : Prop := entry ∈ s.placed ∧ ¬AcceptedBy s.db entry.1 entry.2

variable {s s' : Store} {point : Point} {q : Option Point} {entry : Uuid × Uuid}

theorem revokedStay_revoke (h : RevokedStay s) (tenantId id : Uuid) : RevokedStay (s.revoke tenantId id) := by
  have hkeeps := settledStay_revoke s tenantId id
  unfold Store.revoke at hkeeps ⊢
  split at hkeeps
  · next i hi =>
      intro id' hid'
      obtain rfl | hold := List.mem_cons.mp hid'
      · refine ⟨{ i with status := .revoked }, ?_, rfl⟩
        dsimp only
        rw [Keyed.find_update, if_pos rfl, (Option.filter_eq_some_iff.mp hi).1]
        rfl
      · obtain ⟨i', hi', hrevoked⟩ := h id' hold
        exact ⟨i', hkeeps id' i' hi' (by rw [hrevoked]; decide), hrevoked⟩
  · exact h

/-- What the statement of a request leaves. -/
inductive Leaves (settings : Settings) (now : ℕ) (x : Answer) (s : Store) : Point → Store → Option Point → Prop
  | revoked {tenantId id : Uuid} : Leaves settings now x s (.revoking tenantId id) (s.revoke tenantId id) none
  | passed {point : Point} (h : ∀ c, point = .calling c → ∃ outcome, c.rest = .done outcome) :
      Leaves settings now x s point s none
  | asked {c : Caller} {statement : Statement} {k : Reply statement → Prog Outcome} {reply : Reply statement}
      {db : PlacementDb} (hrest : c.rest = .ask statement k)
      (hexec : s.db.exec settings.texts now x statement = (reply, db)) :
      Leaves settings now x s (.calling c)
        { s with db := db, placed := (c.entry.filter fun _ => c.places s.db db).toList ++ s.placed }
        (some (.calling (c.next statement reply (k reply) (c.places s.db db))))

theorem advance_leaves (ha : advance settings now x s point = some (s', q)) : Leaves settings now x s point s' q := by
  cases point with
  | revoking tenantId id =>
      unfold advance at ha
      dsimp only at ha
      split at ha <;> cases ha
      · exact .passed fun _ h => by cases h
      · exact .revoked
  | calling c =>
      unfold advance at ha
      dsimp only at ha
      split at ha
      · next outcome hdone =>
          cases ha
          exact .passed fun c' h => ⟨outcome, by cases h; exact hdone⟩
      · next statement k hask =>
          cases ha
          exact .asked hask rfl

theorem Leaves.settledStay (h : Leaves settings now x s point s' q) : SettledStay s.db s'.db := by
  cases h with
  | revoked => exact settledStay_revoke s _ _
  | passed => exact settledStay_of_eq rfl
  | @asked c statement k reply db hrest hexec =>
      have hkeeps : SettledStay s.db (s.db.exec settings.texts now x statement).2 := settledStay_exec
      rw [hexec] at hkeeps
      exact hkeeps

theorem Leaves.revokedStay (h : Leaves settings now x s point s' q) (hs : RevokedStay s) : RevokedStay s' := by
  have hkeeps := h.settledStay
  cases h with
  | revoked => exact revokedStay_revoke hs _ _
  | passed => exact hs
  | asked =>
      intro id hid
      obtain ⟨i, hi, hrevoked⟩ := hs id hid
      exact ⟨i, hkeeps id i hi (by rw [hrevoked]; decide), hrevoked⟩

theorem learn_of_moves (held : Option PendingInvite) (reply : Reply statement) (h : moves statement = true) :
    learn held statement reply = held ∧ marks statement = false := by
  cases statement <;> first | exact ⟨rfl, rfl⟩ | cases h

theorem inTime_of_owes {c : Caller} (hC : (Point.calling c).inTime settings now x db = true) (howes : c.owes = true) :
    c.inTime settings now x db = true :=
  (of_decide_eq_true hC).resolve_left fun h => h howes

theorem lets_of_inTime {c : Caller} {k : Reply statement → Prog Outcome} (hC : c.inTime settings now x db = true)
    (hrest : c.rest = .ask statement k) (hmarks : marks statement = false) :
    lets statement (db.exec settings.texts now x statement).1 = true := by
  unfold Caller.inTime at hC
  rw [hrest] at hC
  cases statement with
  | acceptInvite => cases hmarks
  | _ => exact hC

theorem isOpenFor_of_inTime {c : Caller} {invite : PendingInvite} {sub : Uuid} {k : AppResult Unit → Prog Outcome}
    (hC : c.inTime settings now x db = true) (hrest : c.rest = .ask (.acceptInvite invite sub) k) :
    ¬x.fails = true ∧ isOpenFor db invite.id sub = true := by
  unfold Caller.inTime at hC
  rw [hrest] at hC
  exact of_decide_eq_true hC

/-- A request stays on its course. -/
theorem Leaves.onCourse (h : Leaves settings now x s point s' q) (hC : point.inTime settings now x s.db = true)
    (hp : OnCourse point) : ∀ point' ∈ q, OnCourse point' := by
  intro point' hpoint'
  cases h with
  | revoked => cases hpoint'
  | passed => cases hpoint'
  | @asked c statement k reply db hrest hexec =>
      cases hpoint'
      obtain ⟨hfollows, howes⟩ := hp
      rw [hrest] at hfollows
      refine ⟨(hfollows reply).2, fun hnext => ?_⟩
      obtain ⟨hmarks, howed | hplaced⟩ := of_decide_eq_true hnext
      · obtain ⟨i, hheld, hcomes⟩ := howes howed
        rw [hrest] at hcomes
        obtain rfl | ⟨hquiet, hcomes⟩ := hcomes
        · exact absurd rfl hmarks
        · refine ⟨i, (learn_eq hquiet.1).trans hheld, hcomes reply ?_⟩
          have hlets := lets_of_inTime (inTime_of_owes hC howed) hrest hquiet.2
          rwa [hexec] at hlets
      · have hplaces : c.places s.db (s.db.exec settings.texts now x statement).2 = true := by
          rw [hexec]
          exact hplaced
        obtain ⟨hmoves, hlets⟩ := places_exec hplaces
        rw [hexec] at hlets
        obtain ⟨i, hi, -⟩ := (Option.any_eq_true _ _).mp hplaced
        have hheld := (learn_of_moves c.held reply hmoves).1
        exact ⟨i, hheld.trans hi, (hfollows reply).1 hmoves hlets i hi⟩

/-- A placement without its mark has a request that comes to the mark. -/
theorem Leaves.unmarked (h : Leaves settings now x s point s' q) (hC : point.inTime settings now x s.db = true)
    (hp : OnCourse point) (hD : Unmarked entry s') :
    (∃ point' ∈ q, point'.settles entry) ∨ Unmarked entry s ∧ ¬point.settles entry := by
  have hbefore : ¬AcceptedBy s.db entry.1 entry.2 := fun ha => hD.2 (h.settledStay.acceptedBy ha)
  cases h with
  | @revoked tenantId id =>
      refine .inr ⟨⟨?_, hbefore⟩, fun hs => hs⟩
      have hplaced : (s.revoke tenantId id).placed = s.placed := by
        unfold Store.revoke
        split <;> rfl
      rw [← hplaced]
      exact hD.1
  | @passed point hdone =>
      refine .inr ⟨hD, fun hs => ?_⟩
      cases point with
      | revoking => exact hs
      | calling c =>
          obtain ⟨outcome, hrest⟩ := hdone c rfl
          obtain ⟨i, -, hcomes⟩ := hp.2 hs.1
          rw [hrest] at hcomes
          exact hcomes
  | @asked c statement k reply db hrest hexec =>
      obtain ⟨hplaced, hnot⟩ := hD
      by_cases hs : (Point.calling c).settles entry
      · -- The request that owes the mark comes to it, or goes on.
        obtain ⟨i, hheld, hcomes⟩ := hp.2 hs.1
        rw [hrest] at hcomes
        obtain rfl | ⟨hquiet, -⟩ := hcomes
        · have hentry : entry = (i.id, c.sub) := by
            have h := hs.2
            unfold Caller.entry at h
            rw [hheld] at h
            exact (Option.some.inj h).symm
          obtain ⟨hx, hopen⟩ := isOpenFor_of_inTime (inTime_of_owes hC hs.1) hrest
          unfold PlacementDb.exec at hexec
          rw [if_neg hx] at hexec
          obtain ⟨-, rfl⟩ := Prod.mk.inj hexec
          exact absurd (hentry ▸ acceptedBy_acceptInvite hopen) hnot
        · refine .inl ⟨_, rfl, ?_, ?_⟩
          · exact decide_eq_true ⟨by rw [hquiet.2]; exact Bool.false_ne_true, .inl hs.1⟩
          · show (learn c.held statement reply).map _ = _
            rw [learn_eq hquiet.1]
            exact hs.2
      · obtain hnew | hold := List.mem_append.mp hplaced
        · -- The statement has placed the caller.
          obtain ⟨hentry, hplaces⟩ := Option.filter_eq_some_iff.mp (Option.mem_toList.mp hnew)
          have hplaces' : c.places s.db (s.db.exec settings.texts now x statement).2 = true := by
            rw [hexec]
            exact hplaces
          obtain ⟨hmoves, -⟩ := places_exec hplaces'
          obtain ⟨hlearn, hmarks⟩ := learn_of_moves c.held reply hmoves
          refine .inl ⟨_, rfl, ?_, ?_⟩
          · exact decide_eq_true ⟨by rw [hmarks]; exact Bool.false_ne_true, .inr hplaces⟩
          · show (learn c.held statement reply).map _ = _
            rw [hlearn]
            exact hentry
        · exact .inr ⟨⟨hold, hbefore⟩, hs⟩

theorem invited_rule (settings : Settings) : Rule (handlers settings) (fun _ => RevokedStay) (fun _ _ => OnCourse)
    (MarkedInTime settings) where
  locks _ _ _ _ hb := absurd hb List.not_mem_nil
  unlocked _ := rfl
  wait h _ := ⟨h, fun _ hp => hp⟩
  start {_ op} _ _ := by
    cases op with
    | revoke => trivial
    | request sub claims => exact ⟨follows_ensureUserFromBunyip, fun h => by cases h⟩
  step hw hC hi ha := by
    have hl := advance_leaves ha
    have hp := hw.requests _ (List.mem_of_getElem? hi)
    exact ⟨hl.revokedStay hw.store, hl.onCourse (hC _ hi) hp, fun _ _ _ hp' => hp'⟩

/-- Nothing has been placed or revoked yet. -/
def Store.start (db : PlacementDb) : Store := { db := db, placed := [], revoked := [] }

variable {n : ℕ} {es : List (Event Operation Answer)} {w : World Store Point}

/-- If every request that places its caller comes to the mark, and finds the invitation to be its caller's, then
invitations and placements agree when nothing is in flight. -/
theorem invited_agree (hr : run (step settings) (World.start n (Store.start db)) es = some w)
    (hC : StepsMeet (step settings) (MarkedInTime settings) (World.start n (Store.start db)) es)
    (hidle : w.requests = []) : (∀ entry ∈ w.store.placed, AcceptedBy w.store.db entry.1 entry.2) ∧
      ∀ id ∈ w.store.revoked, ∀ entry ∈ w.store.placed, entry.1 ≠ id := by
  have hstart : Keeps (handlers settings) (fun _ => RevokedStay) (fun _ _ => OnCourse)
      (World.start n (Store.start db)) := Requests.keeps_start fun _ h => absurd h List.not_mem_nil
  have hmarked : ∀ entry ∈ w.store.placed, AcceptedBy w.store.db entry.1 entry.2 := fun entry hentry => by
    by_contra hnot
    obtain ⟨point, hpoint, -⟩ := (invited_rule settings).debt (D := Unmarked entry) (P := Point.settles entry)
      (fun {_ _ point} hC hi hs => by
        have howes := hC point hi
        cases point with
        | revoking => exact hs
        | calling c => exact absurd (hs.1.symm.trans howes) (by decide))
      (fun hw hC hi ha hD =>
        ((advance_leaves ha).unmarked (hC _ hi) (hw.requests _ (List.mem_of_getElem? hi)) hD).imp_right .inl)
      hstart hC hr (fun h => absurd h.1 List.not_mem_nil) ⟨hentry, hnot⟩
    rw [hidle] at hpoint
    exact absurd hpoint List.not_mem_nil
  refine ⟨hmarked, fun id hid entry hentry heq => ?_⟩
  obtain ⟨i, hi, haccepted, -⟩ := hmarked entry hentry
  obtain ⟨i', hi', hrevoked⟩ := ((invited_rule settings).run hstart hC hr).store id hid
  rw [heq, hi'] at hi
  cases hi
  exact absurd (haccepted.symm.trans hrevoked) (by decide)

/-! ### A revocation in between -/

/-- Ann is invited to Beta. -/
def invitedDeployment : PlacementDb :=
  { deployment with
    tenants := { rows := [acme, { acme with id := 3, slug := "beta" }], nodup := by decide }
    invitations :=
      { rows := [{ id := 51, tenantId := 3, email := "ann@acme.test", role := .technician, status := .pending
                   expiresAt := 100, acceptedAt := none, acceptedBy := none, createdAt := 1, teamId := none }]
        nodup := by decide } }

def answer : Answer :=
  { fails := false, generated := { userId := 21, tenantId := 22, companyId := 23 }
    userinfo := some { sub := annsClaims.sub, email := some "ann@acme.test", emailVerified := some true
                       givenName := some "Ann", familyName := some "Lee" } }

/-- Ann has been moved to Beta when the invitation is revoked. -/
def revokedInBetween : List (Event Operation Answer) :=
  .arrive (.request 7 annsClaims) :: List.replicate 6 (.step 0 answer) ++
    [.arrive (.revoke 3 51), .step 1 answer] ++ List.replicate 4 (.step 0 answer)

theorem revoked_in_between : ∃ w,
    run (step standardSettings) (World.start 5 (Store.start invitedDeployment)) revokedInBetween = some w ∧
      w.requests.isEmpty = true ∧ (51, 7) ∈ w.store.placed ∧ 51 ∈ w.store.revoked ∧
      tenantOf w.store.db 7 = some 3 ∧ (w.store.db.invitations.find 51).any (·.status = .accepted) = false := by
  have h : (run (step standardSettings) (World.start 5 (Store.start invitedDeployment)) revokedInBetween).any
      (fun w => w.requests.isEmpty = true ∧ (51, 7) ∈ w.store.placed ∧ 51 ∈ w.store.revoked ∧
        tenantOf w.store.db 7 = some 3 ∧
        (w.store.db.invitations.find 51).any (·.status = .accepted) = false) = true := by
    decide +kernel
  obtain ⟨w, hr, hw⟩ := exists_run_of_any h
  exact ⟨w, hr, of_decide_eq_true hw⟩

/-- The revocation comes after the mark. -/
def revokedAfterwards : List (Event Operation Answer) :=
  .arrive (.request 7 annsClaims) :: List.replicate 10 (.step 0 answer) ++
    [.arrive (.revoke 3 51), .step 0 answer]

theorem invited_agree_revokedAfterwards : ∃ w,
    run (step standardSettings) (World.start 5 (Store.start invitedDeployment)) revokedAfterwards = some w ∧
      AcceptedBy w.store.db 51 7 := by
  have h : (run (step standardSettings) (World.start 5 (Store.start invitedDeployment)) revokedAfterwards).any
      (fun w => w.requests.isEmpty = true ∧ (51, 7) ∈ w.store.placed) = true := by
    decide +kernel
  have hC : StepsMeet (step standardSettings) (MarkedInTime standardSettings)
      (World.start 5 (Store.start invitedDeployment)) revokedAfterwards := by
    decide +kernel
  obtain ⟨w, hr, hw⟩ := exists_run_of_any h
  obtain ⟨hidle, hplaced⟩ := of_decide_eq_true hw
  exact ⟨w, hr, (invited_agree hr hC (List.isEmpty_iff.mp hidle)).1 (51, 7) hplaced⟩

end Mokosh.Invited
