import Mokosh.Auth.Callers

/-! # A request alone

What the statements of a request, and the checks and lookups of the callers, come to when nobody else is at work
(`Circumstances.run`), as long as the database can be read. -/

namespace Mokosh.Placement

open Grants (UserRole)
open Identities (PlaceGranteeRequest isUnresolvedPlaceholderEmail nameHint)

/-- What a request finds while it runs alone: the time, the places where the database cannot be read, what is
generated for it, and the userinfo. -/
structure Circumstances where
  now : ℕ
  fails : Read → Bool
  generated : Generated
  userinfo : Option Userinfo

namespace Circumstances

variable (c : Circumstances) (texts : Texts) {α β : Type}

def answer (s : Statement) (db : PlacementDb) : Reply s × PlacementDb :=
  db.exec texts c.now { fails := s.read.any c.fails, generated := c.generated, userinfo := c.userinfo } s

def run (p : Prog α) (db : PlacementDb) : α × PlacementDb := p.eval (c.answer texts) db

variable (db : PlacementDb)

@[simp] theorem run_pure (a : α) : c.run texts (pure a) db = (a, db) := rfl

@[simp] theorem run_bind (p : Prog α) (f : α → Prog β) :
    c.run texts (p >>= f) db = c.run texts (f (c.run texts p db).1) (c.run texts p db).2 := Dialogue.eval_bind ..

/-- A read, which may fail where it is made. -/
def reading {γ : Type} (r : Read) (a : AppResult γ) : AppResult γ :=
  if c.fails r then .error (.database "connection") else a

theorem reading_eq_ok {γ : Type} {r : Read} {a : AppResult γ} {g : γ} :
    c.reading r a = .ok g ↔ c.fails r = false ∧ a = .ok g := by
  unfold reading
  split
  · next h => simp [h]
  · next h => simp [h]

theorem run_ask (s : Statement) : c.run texts (ask s) db =
    if s.read.any c.fails then (s.failed, db)
    else db.perform texts c.now
      { fails := s.read.any c.fails, generated := c.generated, userinfo := c.userinfo } s := rfl

theorem run_read {s : Statement} {r : Read} {a : Reply s} (hs : s.read = some r)
    (hp : ∀ x, db.perform texts c.now x s = (a, db)) :
    c.run texts (ask s) db = (if c.fails r then s.failed else a, db) := by
  rw [run_ask, hs, Option.any_some, hp]
  split <;> rfl

section Reads

variable (r : Read) (sub tenantId : Uuid)

@[simp] theorem run_selectGrant (key : Uuid × String) : c.run (α := AppResult (Option Bool)) texts
    (ask (.selectGrant r key)) db = (c.reading r (.ok (db.selectGrant key)), db) :=
  c.run_read texts db rfl fun _ => rfl

@[simp] theorem run_resolveTenantSlugOpt (slug : String) : c.run (α := AppResult (Option Uuid)) texts
    (ask (.resolveTenantSlugOpt r slug)) db = (c.reading r (.ok (db.resolveTenantSlugOpt slug)), db) :=
  c.run_read texts db rfl fun _ => rfl

@[simp] theorem run_findBunyipPrincipal : c.run (α := AppResult (Option BunyipPrincipal)) texts
    (ask (.findBunyipPrincipal sub)) db =
      (c.reading .resolvePrincipal (.ok ((db.liveUser sub).map (db.principal texts c.now))), db) :=
  c.run_read texts db rfl fun _ => rfl

@[simp] theorem run_findBunyipPrincipalInTenant : c.run (α := AppResult (Option BunyipPrincipal)) texts
    (ask (.findBunyipPrincipalInTenant r sub tenantId)) db =
      (c.reading r (.ok ((db.livePlacement sub tenantId).map (db.principal texts c.now))), db) :=
  c.run_read texts db rfl fun _ => rfl

@[simp] theorem run_findUserPlacement : c.run (α := AppResult (Option (Uuid × UserRole))) texts
    (ask (.findUserPlacement sub)) db =
      (c.reading .placement (.ok ((db.liveUser sub).map fun u => (u.tenantId, u.role))), db) :=
  c.run_read texts db rfl fun _ => rfl

@[simp] theorem run_newestPendingFor (email : String) : c.run (α := AppResult (Option PendingInvite)) texts
    (ask (.newestPendingFor email)) db =
      (c.reading .newestPending (.ok (db.newestPendingFor texts c.now email)), db) :=
  c.run_read texts db rfl fun _ => rfl

@[simp] theorem run_personalTenantForOwner : c.run (α := AppResult (Option Uuid)) texts
    (ask (.personalTenantForOwner r sub)) db = (c.reading r (.ok (db.personalTenantForOwner sub)), db) :=
  c.run_read texts db rfl fun _ => rfl

@[simp] theorem run_getUserById : c.run (α := AppResult User) texts (ask (.getUserById r tenantId sub)) db =
    (c.reading r (db.getUserById tenantId sub), db) :=
  c.run_read texts db rfl fun _ => rfl

/-- The gate, as far as it reads. -/
def gate (r : Read) (db : PlacementDb) (u : User) : AppResult Unit :=
  if u.status = .active then c.reading r (db.ensureTenantActive c.now u.tenantId)
  else .error (.forbidden "Account is not active")

@[simp] theorem run_ensurePrincipalUsable (u : User) :
    c.run texts (ensurePrincipalUsable r u) db = (c.gate r db u, db) := by
  unfold ensurePrincipalUsable gate
  by_cases h : u.status = .active
  · rw [if_pos h, if_pos h]
    exact c.run_read texts db rfl fun _ => rfl
  · rw [if_neg h, if_neg h]
    rfl

theorem gate_eq_ok {u : User} : c.gate r db u = .ok () ↔
    u.status = .active ∧ c.fails r = false ∧ db.ensureTenantActive c.now u.tenantId = .ok () := by
  unfold gate
  split
  · next h => rw [reading_eq_ok, and_iff_right h]
  · next h => simp [h]

end Reads

section Writes

variable (sub tenantId userId : Uuid)

@[simp] theorem run_upsertUser (r : OidcUser) : c.run (α := AppResult Unit) texts (ask (.upsertUser r)) db =
    db.written (db.upsertUser texts c.now r) := rfl

@[simp] theorem run_refreshNames (first last : Option String) : c.run (α := AppResult Unit) texts
    (ask (.refreshNames tenantId userId first last)) db =
      db.written (db.refreshNames c.now tenantId userId first last) := rfl

@[simp] theorem run_placeGrantee (r : PlaceGranteeRequest) : c.run (α := AppResult Unit) texts
    (ask (.placeGrantee r)) db = db.written (db.placeGrantee texts c.now r c.generated.userId) := rfl

@[simp] theorem run_userinfo : c.run (α := Option Userinfo) texts (ask .userinfo) db = (c.userinfo, db) := rfl

end Writes

/-! #### The checks -/

/-- What the grant check finds: the cache, or the mirror if it can be read. -/
def grantActive (r : Read) (db : PlacementDb) (key : Uuid × String) : AppResult Bool :=
  match db.cachedGrant c.now key with
  | some active => .ok active
  | none => (c.reading r (.ok (db.selectGrant key))).map fun row => row.getD false

/-- What it leaves in the cache. -/
def afterGrant (r : Read) (db : PlacementDb) (key : Uuid × String) : PlacementDb :=
  if db.cachedGrant c.now key = none ∧ c.fails r = false then
    ((db.selectGrant key).map (db.cacheGrant c.now key)).getD db
  else db

theorem run_isGrantActive (r : Read) (key : Uuid × String) :
    c.run texts (isGrantActive r key) db = (c.grantActive r db key, c.afterGrant r db key) := by
  have hcached : c.run (α := Option Bool) texts (ask (.cachedGrant key)) db = (db.cachedGrant c.now key, db) := rfl
  unfold isGrantActive grantActive afterGrant
  rw [run_bind, hcached]
  cases db.cachedGrant c.now key with
  | some active => rfl
  | none =>
      dsimp only
      rw [run_bind, run_selectGrant]
      unfold reading
      cases c.fails r with
      | true => rfl
      | false =>
          cases db.selectGrant key with
          | none => rfl
          | some active => rfl

end Circumstances

/-! ### Statements that write nothing but `users` -/

/-- Statements that write nothing but rows of `users`, and of these neither the status nor, unless they are
`moving`, the tenant. -/
def Statement.onlyUsers (moving : Bool) : Statement → Bool
  | .insertPersonalTenant _ | .seedTenant _ | .acceptInvite _ _ | .placeGrantee _ | .cacheGrant _ _ => false
  | .rehomeUser _ _ _ => moving
  | _ => true

/-- What such statements leave. -/
structure OnlyUsers (moving : Bool) (db db' : PlacementDb) : Prop where
  tenants : db'.tenants = db.tenants
  invitations : db'.invitations = db.invitations
  teamMembers : db'.teamMembers = db.teamMembers
  rows : ∀ id u, db.users.find id = some u →
    ∃ u', db'.users.find id = some u' ∧ u'.status = u.status ∧ (moving = false → u'.tenantId = u.tenantId)

namespace OnlyUsers

variable {moving : Bool} {db db' db'' : PlacementDb}

theorem refl (db : PlacementDb) : OnlyUsers moving db db :=
  ⟨rfl, rfl, rfl, fun _ u hu => ⟨u, hu, rfl, fun _ => rfl⟩⟩

theorem trans (h : OnlyUsers moving db db') (h' : OnlyUsers moving db' db'') : OnlyUsers moving db db'' := by
  refine ⟨h'.tenants.trans h.tenants, h'.invitations.trans h.invitations, h'.teamMembers.trans h.teamMembers,
    fun id u hu => ?_⟩
  obtain ⟨u', hu', hstatus, htenant⟩ := h.rows id u hu
  obtain ⟨u'', hu'', hstatus', htenant'⟩ := h'.rows id u' hu'
  exact ⟨u'', hu'', hstatus'.trans hstatus, fun hm => (htenant' hm).trans (htenant hm)⟩

theorem written {r : AppResult PlacementDb} (h : ∀ db', r = .ok db' → OnlyUsers moving db db') :
    OnlyUsers moving db (db.written r).2 := by
  cases r with
  | error _ => exact refl db
  | ok db' => exact h db' rfl

theorem updateUser {userId : Uuid} {p : UserRow → Bool} {f : UserRow → UserRow} {hf : ∀ u, (f u).id = u.id}
    (h : db.updateUser userId p f hf = .ok db') (hstatus : ∀ u, (f u).status = u.status)
    (htenant : moving = false → ∀ u, (f u).tenantId = u.tenantId) : OnlyUsers moving db db' := by
  cases hu : (db.users.find userId).filter p with
  | none =>
      rw [PlacementDb.updateUser_of_not_found hu] at h
      cases h
      exact refl db
  | some u =>
      rw [PlacementDb.updateUser_of_found hu] at h
      obtain ⟨_, _, rfl⟩ := PlacementDb.putUsers_eq_ok.mp h
      refine ⟨rfl, rfl, rfl, fun id v hv => ?_⟩
      dsimp only
      rw [Keyed.find_update]
      split
      · next hid =>
          subst hid
          exact ⟨f v, by rw [hv, Option.map_some], hstatus v, fun hm => htenant hm v⟩
      · exact ⟨v, hv, rfl, fun _ => rfl⟩

theorem insertUser {u : UserRow} (h : db.insertUser u = .ok db') : OnlyUsers moving db db' := by
  obtain ⟨hnone, -, _, _, rfl⟩ := PlacementDb.insertUser_eq_ok.mp h
  refine ⟨rfl, rfl, rfl, fun id v hv => ⟨v, ?_, rfl, fun _ => rfl⟩⟩
  dsimp only
  rw [Keyed.find_insert, hv]
  split <;> rfl

theorem upsertUser {texts : Texts} {now : ℕ} {r : OidcUser} (h : db.upsertUser texts now r = .ok db') :
    OnlyUsers moving db db' := by
  unfold PlacementDb.upsertUser at h
  split at h
  · exact updateUser h (fun _ => rfl) fun _ _ => rfl
  · exact insertUser h

theorem exec {texts : Texts} {now : ℕ} {x : Answer} {s : Statement} (hs : s.onlyUsers moving = true) :
    OnlyUsers moving db (db.exec texts now x s).2 := by
  unfold PlacementDb.exec
  split
  · exact refl db
  cases s with
  | insertPersonalTenant | seedTenant | acceptInvite | placeGrantee | cacheGrant => cases hs
  | rehomeUser => exact written fun _ h => updateUser h (fun _ => rfl) fun hm => absurd (hs.symm.trans hm) (by decide)
  | repairEmail => exact written fun _ h => updateUser h (fun _ => rfl) fun _ _ => rfl
  | refreshNames => exact written fun _ h => updateUser h (fun _ => rfl) fun _ _ => rfl
  | setUserRole => exact written fun _ h => updateUser h (fun _ => rfl) fun _ _ => rfl
  | upsertUser r => exact written fun _ h => upsertUser h
  | _ => exact refl db

end OnlyUsers

/-- A program that makes only such statements. -/
def WritesOnlyUsers (moving : Bool) {α : Type} (p : Prog α) : Prop :=
  p.Meets (fun s => s.onlyUsers moving = true) (fun _ _ => True) fun _ => True

namespace WritesOnlyUsers

variable {moving : Bool} {α β : Type} {p : Prog α}

theorem pure (a : α) : WritesOnlyUsers moving (pure a : Prog α) := trivial

theorem ask {s : Statement} (hs : s.onlyUsers moving = true) : WritesOnlyUsers moving (ask s) :=
  ⟨hs, fun _ _ => trivial⟩

theorem bind {f : α → Prog β} (hp : WritesOnlyUsers moving p) (hf : ∀ a, WritesOnlyUsers moving (f a)) :
    WritesOnlyUsers moving (p >>= f) :=
  Dialogue.Meets.bind hp fun a _ => hf a

theorem run (hp : WritesOnlyUsers moving p) (c : Circumstances) (texts : Texts) (db : PlacementDb) :
    OnlyUsers moving db (c.run texts p db).2 :=
  (hp.eval (I := OnlyUsers moving db) (fun _ _ hs hdb => ⟨trivial, hdb.trans (OnlyUsers.exec hs)⟩)
    (OnlyUsers.refl db)).2

theorem reread {write : Prog (AppResult Unit)} (hw : WritesOnlyUsers moving write) (r : Read) (tenantId userId : Uuid) :
    WritesOnlyUsers moving (reread write r tenantId userId) := by
  refine hw.bind fun written => ?_
  obtain e | _ := written
  · exact .pure _
  · exact .ask rfl

variable (settings : Settings) (sub : Uuid) (hints : Hints)

theorem ensurePrincipalUsable (r : Read) (u : User) : WritesOnlyUsers moving (ensurePrincipalUsable r u) := by
  unfold Placement.ensurePrincipalUsable
  split
  · exact .ask rfl
  · exact .pure _

theorem rehome (placement : Option (Uuid × UserRole)) (target : Uuid) :
    WritesOnlyUsers true (rehome sub placement target) := by
  unfold Placement.rehome
  split
  · exact bind (.ask rfl) fun _ => .pure _
  · exact .pure _

theorem loadUser (resolved : Option BunyipPrincipal) (target : Uuid) (role : UserRole) :
    WritesOnlyUsers moving (loadUser settings sub hints resolved target role) := by
  unfold Placement.loadUser
  split
  · exact .pure _
  · refine bind (.ask rfl) fun found => ?_
    obtain e | user := found
    · exact (reread (.ask rfl) ..).bind fun _ => .pure _
    · exact .pure _

theorem healPlaceholder (user : User) : WritesOnlyUsers moving (healPlaceholder hints user) := by
  unfold Placement.healPlaceholder
  split
  · exact (reread (.ask rfl) ..).bind fun _ => .pure _
  · exact .pure _

theorem refreshDrifted (user : User) : WritesOnlyUsers moving (refreshDrifted hints user) := by
  unfold Placement.refreshDrifted
  split
  · exact (reread (.ask rfl) ..).bind fun _ => .pure _
  · exact .pure _

theorem lateGate (resolved : Option BunyipPrincipal) (user : User) :
    WritesOnlyUsers moving (lateGate resolved user) := by
  unfold Placement.lateGate
  split
  · exact .pure _
  · exact ensurePrincipalUsable ..

theorem assumeRole (user : User) (role : UserRole) : WritesOnlyUsers moving (assumeRole user role) := by
  unfold Placement.assumeRole
  split
  · exact bind (.ask rfl) fun _ => .pure _
  · exact .pure _

/-- Without an invitation nothing else is written. -/
theorem admitCaller (claims : AtClaims) (resolved : Option BunyipPrincipal) (user : User) :
    WritesOnlyUsers moving (admitCaller sub hints claims resolved none user) := by
  unfold Placement.admitCaller
  refine (healPlaceholder hints user).bind fun user => ?_
  refine (refreshDrifted hints user).bind fun user => ?_
  refine (lateGate resolved user).bind fun gated => ?_
  obtain e | _ := gated
  · exact .pure _
  · exact bind (.pure _) fun _ => (assumeRole ..).bind fun _ => .pure _

theorem settleIn (claims : AtClaims) (resolved : Option BunyipPrincipal) (target : Uuid) :
    WritesOnlyUsers moving (settleIn settings sub hints claims resolved none target) := by
  unfold Placement.settleIn
  refine (loadUser ..).bind fun loaded => ?_
  obtain _ | user := loaded
  · exact .pure _
  · exact admitCaller ..

theorem enterTenant (claims : AtClaims) (resolved : Option BunyipPrincipal) (placement : Option (Uuid × UserRole))
    (target : Uuid) : WritesOnlyUsers true (enterTenant settings sub hints claims resolved placement none target) :=
  (rehome sub placement target).bind fun _ => settleIn ..

end WritesOnlyUsers

/-! ### Lookups of an owner -/

section Lookups

variable {settings : Settings} {c : Circumstances} {sub : Uuid} {claims : AtClaims} {db : PlacementDb}
  {principal : BunyipPrincipal} {u : UserRow}

/-- `ensure_principal_usable` lets the row pass. -/
def Usable (now : ℕ) (db : PlacementDb) (u : UserRow) : Prop :=
  u.status = .active ∧ db.ensureTenantActive now u.tenantId = .ok ()

/-- The row of a caller that needs no userinfo. -/
structure Settled (settings : Settings) (now : ℕ) (db : PlacementDb) (u : UserRow) : Prop where
  status : u.status = .active
  tenant : db.ensureTenantActive now u.tenantId = .ok ()
  placed : isStuckInDefault settings (some (u.tenantId, u.role)) false = false
  address : isUnresolvedPlaceholderEmail u.email = false

theorem run_resolveBunyipCaller (settings : Settings) (c : Circumstances) (sub : Uuid) (db : PlacementDb)
    (hgrant : claims.mokoshGrantAccountId = none) :
    c.run settings.texts (resolveBunyipCaller settings sub claims) db =
      (match c.reading .resolvePrincipal (.ok ((db.liveUser sub).map (db.principal settings.texts c.now))) with
      | .error _ => .readFailed
      | .ok none => .needed
      | .ok (some principal) =>
        match c.gate .resolveGate db principal.user with
        | .error e => .rejected e
        | .ok () => if isStuckInDefault settings (some principal.placement) false
              ∨ isUnresolvedPlaceholderEmail principal.user.email
              ∨ settings.invitations ∧ principal.hasPendingInvite then .needed
            else .skip principal, db) := by
  unfold resolveBunyipCaller ensureGrantStillActiveIfClaimed
  rw [hgrant]
  dsimp only
  rw [Circumstances.run_bind, Circumstances.run_findBunyipPrincipal]
  dsimp only
  generalize c.reading .resolvePrincipal _ = found
  obtain e | _ | principal := found
  · rfl
  · rfl
  · dsimp only
    rw [Circumstances.run_bind, Circumstances.run_ensurePrincipalUsable]
    dsimp only
    generalize c.gate .resolveGate db principal.user = passed
    obtain e | _ := passed
    · rfl
    · rfl

theorem settled_of_skip (hgrant : claims.mokoshGrantAccountId = none)
    (h : (c.run settings.texts (resolveBunyipCaller settings sub claims) db).1 = .skip principal) :
    ∃ u, db.liveUser sub = some u ∧ principal = db.principal settings.texts c.now u ∧ Settled settings c.now db u := by
  rw [run_resolveBunyipCaller settings c sub db hgrant] at h
  dsimp only at h
  split at h
  · cases h
  · cases h
  · next p hp =>
      obtain ⟨-, hp⟩ := c.reading_eq_ok.mp hp
      obtain ⟨u, hu, rfl⟩ := Option.map_eq_some_iff.mp (Except.ok.inj hp)
      split at h
      · cases h
      · next hgate =>
          obtain ⟨hstatus, -, htenant⟩ := (c.gate_eq_ok ..).mp hgate
          split_ifs at h with hneeded
          cases h
          push Not at hneeded
          refine ⟨u, hu, rfl, hstatus, htenant, ?_, ?_⟩
          · exact Bool.eq_false_iff.mpr hneeded.1
          · exact Bool.eq_false_iff.mpr hneeded.2.1

theorem run_currentPlacement : c.run settings.texts (currentPlacement sub none) db =
    ((c.reading .placement (.ok ((db.liveUser sub).map fun u => (u.tenantId, u.role)))).toOption.join, db) := by
  unfold currentPlacement
  rw [Circumstances.run_bind, Circumstances.run_findUserPlacement]
  rfl

/-- The invitation that a caller consumes. -/
def Circumstances.invite (c : Circumstances) (settings : Settings) (db : PlacementDb) (hints : Hints) :
    Option PendingInvite :=
  (hints.verifiedEmail.filter fun _ => settings.invitations).bind fun em =>
    (c.reading .newestPending (.ok (db.newestPendingFor settings.texts c.now em))).toOption.join

theorem run_consumableInvite {hints : Hints} :
    c.run settings.texts (consumableInvite settings hints) db = (c.invite settings db hints, db) := by
  unfold consumableInvite Circumstances.invite
  cases hints.verifiedEmail with
  | none => rfl
  | some em =>
      dsimp only
      split
      · next h =>
          rw [Circumstances.run_bind, Circumstances.run_newestPendingFor, Option.filter_some, if_pos h]
          rfl
      · next h =>
          rw [Option.filter_some, if_neg h]
          rfl

theorem getUserById_eq_ok {user : User} {tenantId : Uuid} : db.getUserById tenantId sub = .ok user ↔
    ∃ u, db.users.find sub = some u ∧ u.deletedAt = none ∧ u.tenantId = tenantId ∧ db.load u = user := by
  unfold PlacementDb.getUserById PlacementDb.liveUser
  simp only [orError_eq_ok, Option.map_eq_some_iff, Option.filter_eq_some_iff, decide_eq_true_eq, and_assoc]

theorem getUserById_of_live (hu : db.liveUser sub = some u) : db.getUserById u.tenantId sub = .ok (db.load u) := by
  unfold PlacementDb.getUserById
  rw [hu, Option.filter_some, if_pos (by simp)]
  rfl

theorem ensureTenantActive_congr {db' : PlacementDb} (h : db'.tenants = db.tenants) (now : ℕ) (tenantId : Uuid) :
    db'.ensureTenantActive now tenantId = db.ensureTenantActive now tenantId := by
  unfold PlacementDb.ensureTenantActive
  rw [h]

/-- The refresh of a live row, and the row after it. -/
theorem refreshNames_of_live (hu : db.liveUser sub = some u) (now : ℕ) (first last : Option String) :
    ∃ db', db.refreshNames now u.tenantId sub first last = .ok db' ∧
      db'.liveUser sub = some (withNames now first last u) := by
  obtain ⟨hfind, hlive⟩ := Option.filter_eq_some_iff.mp hu
  have hmatch : (db.users.find sub).filter (fun v => v.tenantId = u.tenantId) = some u := by
    rw [hfind, Option.filter_some, if_pos (decide_eq_true rfl)]
  obtain ⟨_, _, h⟩ := PlacementDb.updateUser_of_keeps (f := withNames now first last) (k := fun _ => rfl) hmatch
    (fun _ => rfl) fun _ => rfl
  refine ⟨_, h, ?_⟩
  unfold PlacementDb.liveUser
  dsimp only
  rw [Keyed.find_update, if_pos rfl, hfind, Option.map_some]
  exact Option.filter_eq_some_iff.mpr ⟨rfl, hlive⟩

/-- A live row whose names have drifted is refreshed and read again. -/
theorem run_refreshDrifted_of_drifted (texts : Texts) {hints : Hints} (hu : db.liveUser sub = some u)
    (hd : namesDrifted hints u = true) : ∃ db',
      db.refreshNames c.now u.tenantId sub (nameHint hints.givenName) (nameHint hints.familyName) = .ok db' ∧
      db'.liveUser sub = some (withNames c.now (nameHint hints.givenName) (nameHint hints.familyName) u) ∧
      ∀ user : User, user.toUserRow = u → c.run texts (refreshDrifted hints user) db =
        (if c.fails .refreshed then user
          else db'.load (withNames c.now (nameHint hints.givenName) (nameHint hints.familyName) u), db') := by
  obtain ⟨db', hrefresh, hlive⟩ :=
    refreshNames_of_live hu c.now (nameHint hints.givenName) (nameHint hints.familyName)
  have hid : u.id = sub := (Keyed.find_eq_some_iff.mp (Option.filter_eq_some_iff.mp hu).1).2
  refine ⟨db', hrefresh, hlive, ?_⟩
  rintro user rfl
  have hread := getUserById_of_live hlive
  replace hread : db'.getUserById user.tenantId sub = .ok (db'.load (withNames ..)) := hread
  unfold refreshDrifted refreshNamesFromOidc reread
  rw [if_pos hd, hid, Circumstances.run_bind, Circumstances.run_bind, Circumstances.run_refreshNames, hrefresh]
  dsimp only [PlacementDb.written]
  rw [Circumstances.run_getUserById, hread, Circumstances.reading]
  cases c.fails .refreshed with
  | true => rfl
  | false => rfl

theorem refreshDrifted_of_kept {hints : Hints} {user : User} (hd : namesDrifted hints u = false)
    (hu : user.toUserRow = u) : refreshDrifted hints user = pure user := by
  subst hu
  unfold refreshDrifted
  rw [hd]
  rfl

/-- A caller that stays where it is. -/
theorem run_stay {hints : Hints} {resolved : Option BunyipPrincipal} {placement : Uuid × UserRole}
    (hplacement : (c.run settings.texts (currentPlacement sub resolved) db) = (some placement, db))
    (hinvite : c.invite settings db hints = none) (hplaced : isStuckInDefault settings (some placement) false = false) :
    c.run settings.texts (placeBunyipCaller settings sub hints claims resolved) db =
      c.run settings.texts (settleIn settings sub hints claims resolved none placement.1) db := by
  have honboards : onboards settings hints claims (some placement) none = true := by
    simp [onboards]
  have htarget : targetTenant settings sub (some placement) none = pure (some placement.1) := by
    unfold targetTenant
    rw [Option.isSome_none, hplaced]
    rfl
  have hrehome : rehome sub (some placement) placement.1 = pure () := by
    unfold rehome
    rw [Option.filter_some, if_neg (by simp)]
  unfold placeBunyipCaller
  rw [Circumstances.run_bind, hplacement]
  dsimp only
  rw [Circumstances.run_bind, run_consumableInvite, hinvite]
  dsimp only
  rw [if_pos honboards, htarget, Circumstances.run_bind, Circumstances.run_pure]
  dsimp only
  unfold enterTenant
  rw [hrehome, Circumstances.run_bind, Circumstances.run_pure]

/-- With the principal that was resolved. -/
theorem run_fast (hs : Settled settings c.now db u) :
    c.run settings.texts (placeBunyipCaller settings sub (.ofClaims claims) claims
        (some (db.principal settings.texts c.now u))) db =
      c.run settings.texts (admitCaller sub (.ofClaims claims) claims (some (db.principal settings.texts c.now u)) none
        (db.principal settings.texts c.now u).user) db := by
  have hload : loadUser settings sub (.ofClaims claims) (some (db.principal settings.texts c.now u)) u.tenantId .admin =
      pure (some (db.principal settings.texts c.now u).user) := by
    unfold loadUser
    rw [Option.filter_some, if_pos (by simp [PlacementDb.principal, PlacementDb.load])]
  have hplacement : c.run settings.texts (currentPlacement sub (some (db.principal settings.texts c.now u))) db =
      (some (u.tenantId, u.role), db) := rfl
  rw [run_stay hplacement rfl hs.placed]
  unfold settleIn
  rw [Option.map_none, Option.getD_none, hload]
  rfl

theorem run_assumeRole {texts : Texts} (user : User) (role : UserRole) :
    (c.run texts (assumeRole user role) db).1 = { user with role := role } := by
  unfold assumeRole
  split
  · rw [Circumstances.run_bind]
    rfl
  · next h => rw [Circumstances.run_pure, ← not_not.mp h]

/-- What is left for a caller that the gate lets in, without an invitation. -/
theorem run_admitCaller {hints : Hints} {resolved : Option BunyipPrincipal} {user user' : User} {db' : PlacementDb}
    (hheal : healPlaceholder hints user = pure user)
    (hrefresh : c.run settings.texts (refreshDrifted hints user) db = (user', db'))
    (hgate : c.run settings.texts (lateGate resolved user') db' = (.ok (), db')) :
    c.run settings.texts (admitCaller sub hints claims resolved none user) db =
      c.run settings.texts (do
        return authenticated (← assumeRole user' (effectiveRoleFromBunyip claims user'.role))) db' := by
  unfold admitCaller
  rw [hheal, Circumstances.run_bind, Circumstances.run_pure]
  dsimp only
  rw [Circumstances.run_bind, hrefresh]
  dsimp only
  rw [Circumstances.run_bind, hgate]
  rfl

end Lookups

/-! ### The four ways of a request -/

section Request

variable {settings : Settings} {c : Circumstances} {sub : Uuid} {claims : AtClaims} {db db' : PlacementDb}

theorem run_request_of_needed
    (h : c.run settings.texts (resolveBunyipCaller settings sub claims) db = (.needed, db')) :
    c.run settings.texts (ensureUserFromBunyip settings sub claims) db =
      c.run settings.texts (placeWithUserinfo settings sub claims) db' := by
  unfold ensureUserFromBunyip placeBunyipUserFromLocalState
  rw [Circumstances.run_bind, Circumstances.run_bind, h]
  rfl

theorem run_request_of_rejected {e : AppError}
    (h : c.run settings.texts (resolveBunyipCaller settings sub claims) db = (.rejected e, db')) :
    c.run settings.texts (ensureUserFromBunyip settings sub claims) db = ((none, some e), db') := by
  unfold ensureUserFromBunyip placeBunyipUserFromLocalState
  rw [Circumstances.run_bind, Circumstances.run_bind, h]
  rfl

theorem run_request_of_readFailed
    (h : c.run settings.texts (resolveBunyipCaller settings sub claims) db = (.readFailed, db')) :
    c.run settings.texts (ensureUserFromBunyip settings sub claims) db =
      c.run settings.texts (placeBunyipCaller settings sub (.ofClaims claims) claims none) db' := by
  unfold ensureUserFromBunyip placeBunyipUserFromLocalState
  rw [Circumstances.run_bind, Circumstances.run_bind, h]
  dsimp only
  rw [Circumstances.run_bind]
  rfl

theorem run_request_of_skip {principal : BunyipPrincipal}
    (h : c.run settings.texts (resolveBunyipCaller settings sub claims) db = (.skip principal, db')) :
    c.run settings.texts (ensureUserFromBunyip settings sub claims) db =
      c.run settings.texts (if claims.mokoshGrantAccountId.isSome then placeGranteeCaller sub .absent claims
        else placeBunyipCaller settings sub (.ofClaims claims) claims (some principal)) db' := by
  unfold ensureUserFromBunyip placeBunyipUserFromLocalState
  rw [Circumstances.run_bind, Circumstances.run_bind, h]
  dsimp only
  cases claims.mokoshGrantAccountId with
  | none =>
      rw [if_neg (by simp), if_neg (by simp), Circumstances.run_bind]
      rfl
  | some _ =>
      rw [if_pos (Option.isSome_some), if_pos (Option.isSome_some), Circumstances.run_bind]
      rfl

end Request

/-! ### A deployment -/

/-- The last group of an identifier below ten. -/
def lastGroup (id : Uuid) : List Char := (Nat.toDigits 10 id).leftpad 12 '0'

theorem at_not_mem_lastGroup (id : Uuid) : '@' ∉ lastGroup id := by
  intro h
  obtain h | h := List.mem_append.mp h
  · exact absurd (List.eq_of_mem_replicate h) (by decide)
  · exact absurd (Nat.isDigit_of_mem_toDigits (by decide) (by decide) h) (by decide)

def asciiTexts : Texts :=
  { lower := fun s => String.ofList (s.toList.map Char.toLower), toUppercase := fun a => [a.toUpper]
    hyphenated := fun id => String.ofList ("00000000-0000-0000-0000-".toList ++ lastGroup id)
    simple := fun id => String.ofList (List.replicate 20 '0' ++ lastGroup id)
    plain := by
      intro id h
      rw [String.toList_ofList] at h
      obtain h | h := List.mem_append.mp h
      · exact absurd h (by decide)
      · exact at_not_mem_lastGroup id h }

def ann : UserRow :=
  { id := 7, tenantId := 2, bunyipUserId := none, email := "ann@acme.test", passwordHash := none
    profile :=
      { firstName := "Ann", lastName := "Lee", phone := none, mobile := none, avatarUrl := none, timezone := "UTC",
        locale := "en-US", emailVerifiedAt := some 1, lastLoginAt := none, mfaEnabled := false }
    preferences :=
      { dateFormatString := none, themeBaseMode := none, themeAccentId := none, loginLocationAlerts := true }
    title := none, role := .admin, status := .active, mfaSecret := none, mfaRecoveryCodesHashes := [],
    deletedAt := none, profileCompletedAt := some 1, updatedAt := 1 }

def acme : Tenant :=
  { id := 2, slug := "acme", kind := .org, status := .active, personalOwnerId := none, ownCompanyId := none
    entitlement := none }

/-- Ann, placed at Acme. -/
def deployment : PlacementDb :=
  { users := { rows := [ann], nodup := by decide }, tenants := { rows := [acme], nodup := by decide }
    invitations := .empty, teams := .empty, teamMembers := .empty, grants := .empty, grantCache := fun _ => none
    addresses := by decide, placements := by decide }

/-- Acme is suspended. -/
def suspendedDeployment : PlacementDb :=
  { deployment with tenants := { rows := [{ acme with status := .suspended }], nodup := by decide } }

def standardSettings : Settings :=
  { texts := asciiTexts, tenants := true, invitations := true, defaultTenantId := 1, allowUninvitedSignup := false }

def calm : Circumstances :=
  { now := 5, fails := fun _ => false, generated := { userId := 21, tenantId := 22, companyId := 23 }
    userinfo := none }

/-- A token of Ann. -/
def annsClaims : AtClaims :=
  { sub := "00000000-0000-0000-0000-000000000007", bunyipRole := none, givenName := some "Ann", familyName := none
    mokoshGrantAccountId := none, mokoshGrantRole := none }

end Mokosh.Placement
