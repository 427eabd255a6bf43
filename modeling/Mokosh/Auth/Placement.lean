import Mathlib.Data.List.MinMax
import Mokosh.Lib.Dialogue
import Mokosh.Auth.GrantEvents
import Mokosh.Auth.Identities

/-! # Placements

What a request with a token of Bunyip reads and writes before it is authenticated: `users`, `tenants` with their
entitlements, `tenant_invitations`, `teams`, `team_members`, and the mirror of the grants with its cache.

`Statement` has the statements of `auth/service.rs`, `tenants/service.rs` and `invitations/service.rs` that such a
request makes, `Reply` what they are replied, and `perform` what they do.  A statement that only reads names the
place that it is made at (`Read`), since it may fail at one place and succeed at another. -/

namespace Mokosh.Placement

open Grants (UserRole Mirror)
open GrantEvents (GrantSnapshot grantCacheTtl)
open Sessions (UserStatus)
open Identities (PlaceGranteeRequest nameHint syntheticNameFromEmail unresolvedEmailDomain)

/-! ### Rows -/

inductive TenantStatus where
  | active | suspended | cancelled
deriving DecidableEq

inductive TenantKind where
  | org | personal
deriving DecidableEq

def TenantKind.text : TenantKind → String
  | .org => "org"
  | .personal => "personal"

theorem TenantKind.text_ne_empty (k : TenantKind) : k.text ≠ "" := by
  cases k <;> decide

inductive EntitlementStatus where
  | active | suspended | unknown
deriving DecidableEq

structure Entitlement where
  status : EntitlementStatus
  expiresAt : Option ℕ
deriving DecidableEq

/-- A row of `tenants`, with its row of `tenant_membership_entitlements`. -/
structure Tenant where
  id : Uuid
  slug : String
  kind : TenantKind
  status : TenantStatus
  personalOwnerId : Option Uuid
  ownCompanyId : Option Uuid
  entitlement : Option Entitlement
deriving DecidableEq

/-- A row of `users`. -/
structure UserRow extends Identities.User where
  profileCompletedAt : Option ℕ
  updatedAt : ℕ
deriving DecidableEq

inductive InvitationStatus where
  | pending | accepted | revoked
deriving DecidableEq

/-- A row of `tenant_invitations`. -/
structure Invitation where
  id : Uuid
  tenantId : Uuid
  email : String
  role : UserRole
  status : InvitationStatus
  expiresAt : ℕ
  acceptedAt : Option ℕ
  acceptedBy : Option Uuid
  createdAt : ℕ
  teamId : Option Uuid
deriving DecidableEq

structure Team where
  id : Uuid
  tenantId : Uuid
  isActive : Bool
deriving DecidableEq

structure TeamMember where
  tenantId : Uuid
  teamId : Uuid
  userId : Uuid
deriving DecidableEq

/-- The unique key of `team_members`. -/
def TeamMember.key (m : TeamMember) : Uuid × Uuid := (m.teamId, m.userId)

/-! ### What the statements select -/

/-- `User`: a row, and what the subqueries have selected with it. -/
structure User extends UserRow where
  ownCompanyId : Option Uuid
  tenantKind : String
deriving DecidableEq

structure BunyipPrincipal where
  placement : Uuid × UserRole
  user : User
  hasPendingInvite : Bool
deriving DecidableEq

structure PendingInvite where
  id : Uuid
  tenantId : Uuid
  role : UserRole
  teamId : Option Uuid
deriving DecidableEq

def Invitation.pendingInvite (i : Invitation) : PendingInvite :=
  { id := i.id, tenantId := i.tenantId, role := i.role, teamId := i.teamId }

structure PlacementDb where
  users : Keyed fun u : UserRow => u.id
  tenants : Keyed Tenant.id
  invitations : Keyed Invitation.id
  teams : Keyed Team.id
  teamMembers : Keyed TeamMember.key
  grants : Mirror
  grantCache : Uuid × String → Option GrantSnapshot
  addresses : (users.rows.map fun u => u.address).Nodup
  placements : (users.rows.filterMap fun u => u.placement).Nodup

/-- `lower` is the database's, `toUppercase` that of `char`; an identifier is written with or without hyphens. -/
structure Texts where
  lower : String → String
  toUppercase : Char → List Char
  hyphenated : Uuid → String
  simple : Uuid → String
  plain : ∀ id, '@' ∉ (hyphenated id).toList

/-- `btrim`, which trims spaces only. -/
def btrim (s : String) : String := String.ofList ((s.toList.dropWhile (· = ' ')).rdropWhile (· = ' '))

/-- `to_ascii_lowercase`, after `trim`. -/
def normalized (email : String) : String := String.ofList ((Text.trim email.toList).map Char.toLower)

/-- `split_part(s, '@', 2)`. -/
def domain (s : String) : String := String.ofList (((s.toList.dropWhile (· ≠ '@')).drop 1).takeWhile (· ≠ '@'))

namespace PlacementDb

variable (texts : Texts) (now : ℕ) (db : PlacementDb)

/-- The row of `users`, unless it is tombstoned. -/
def liveUser (id : Uuid) : Option UserRow := (db.users.find id).filter fun u => u.deletedAt = none

def load (u : UserRow) : User :=
  { u with
    ownCompanyId := (db.tenants.find u.tenantId).bind Tenant.ownCompanyId
    tenantKind := ((db.tenants.find u.tenantId).map fun t => t.kind.text).getD "" }

def hasPendingInvite (u : UserRow) : Bool :=
  u.profile.emailVerifiedAt.isSome && db.invitations.rows.any fun i =>
    texts.lower i.email = texts.lower (btrim u.email) ∧ i.status = .pending ∧ now < i.expiresAt

/-- What `find_bunyip_principal` selects; the kind of the tenant is not among it. -/
def principal (u : UserRow) : BunyipPrincipal :=
  { placement := (u.tenantId, u.role), user := { db.load u with tenantKind := "" }
    hasPendingInvite := db.hasPendingInvite texts now u }

def getUserById (tenantId userId : Uuid) : AppResult User :=
  orError (.notFound "User") (((db.liveUser userId).filter fun u => u.tenantId = tenantId).map db.load)

/-- The row of a placement, tombstoned or not. -/
def findPlacement (sub tenantId : Uuid) : Option UserRow :=
  db.users.rows.find? fun u => u.placement = some (sub, tenantId)

def livePlacement (sub tenantId : Uuid) : Option UserRow :=
  (db.findPlacement sub tenantId).filter fun u => u.deletedAt = none

def ensureTenantActive (tenantId : Uuid) : AppResult Unit :=
  let inactive := AppError.forbidden "This organization is not active"
  match db.tenants.find tenantId with
  | none => .error inactive
  | some t =>
    if t.status = .active ∧ ¬t.entitlement.any (fun e => e.status = .suspended ∨ e.expiresAt.any (· < now)) then
      .ok ()
    else .error inactive

def newestPendingFor (email : String) : Option PendingInvite :=
  ((db.invitations.rows.filter fun i => texts.lower i.email = normalized email ∧ i.status = .pending ∧
    now < i.expiresAt).argmax Invitation.createdAt).map Invitation.pendingInvite

def resolveTenantSlugOpt (slug : String) : Option Uuid :=
  (db.tenants.rows.find? fun t => t.slug = slug).map Tenant.id

def personalTenantForOwner (ownerId : Uuid) : Option Uuid :=
  (db.tenants.rows.find? fun t => t.personalOwnerId = some ownerId).map Tenant.id

def cachedGrant (key : Uuid × String) : Option Bool :=
  ((db.grantCache key).filter fun c => now < c.resolvedAt + grantCacheTtl).map GrantSnapshot.active

def selectGrant (key : Uuid × String) : Option Bool := (db.grants.find key).map Grants.BunyipGrant.active

end PlacementDb

/-! ### What the statements write -/

/-- The arguments of `upsert_user_from_oidc`. -/
structure OidcUser where
  sub : Uuid
  tenantId : Uuid
  email : String
  role : UserRole
  givenNameHint : Option String
  familyNameHint : Option String
  emailVerified : Bool
deriving DecidableEq

namespace OidcUser

variable (texts : Texts) (now : ℕ) (r : OidcUser)

def profileCompletedAt : Option ℕ :=
  if (nameHint r.givenNameHint).isSome ∧ (nameHint r.familyNameHint).isSome then some now else none

def emailVerifiedAt : Option ℕ := if r.emailVerified then some now else none

/-- The row that is inserted. -/
def row : UserRow :=
  let synthetic := syntheticNameFromEmail texts.toUppercase r.email
  { id := r.sub, tenantId := r.tenantId, bunyipUserId := none, email := r.email, passwordHash := none
    profile :=
      { firstName := (nameHint r.givenNameHint).getD synthetic.1
        lastName := (nameHint r.familyNameHint).getD synthetic.2, phone := none, mobile := none,
        avatarUrl := none, timezone := "UTC", locale := "en-US", emailVerifiedAt := r.emailVerifiedAt now,
        lastLoginAt := none, mfaEnabled := false }
    preferences :=
      { dateFormatString := none, themeBaseMode := none, themeAccentId := none, loginLocationAlerts := true }
    title := none, role := r.role, status := .active, mfaSecret := none, mfaRecoveryCodesHashes := [],
    deletedAt := none, profileCompletedAt := r.profileCompletedAt now, updatedAt := now }

/-- The `DO UPDATE`. -/
def refresh (u : UserRow) : UserRow :=
  { u with
    email := if r.emailVerified then r.email else u.email
    profile :=
      { u.profile with
        firstName := (nameHint r.givenNameHint).getD u.profile.firstName
        lastName := (nameHint r.familyNameHint).getD u.profile.lastName
        emailVerifiedAt := u.profile.emailVerifiedAt <|> r.emailVerifiedAt now }
    profileCompletedAt := u.profileCompletedAt <|> r.profileCompletedAt now
    updatedAt := now }

end OidcUser

/-- The `SET` of `refresh_names_from_oidc`. -/
def withNames (now : ℕ) (first last : Option String) (u : UserRow) : UserRow :=
  { u with
    profile := { u.profile with firstName := first.getD u.profile.firstName, lastName := last.getD u.profile.lastName }
    updatedAt := now }

/-- The row that `place_grantee_user` inserts. -/
def granteeRow (texts : Texts) (now : ℕ) (r : PlaceGranteeRequest) (id : Uuid) : UserRow :=
  { r.row texts.toUppercase now id with profileCompletedAt := none, updatedAt := now }

/-- A row that it opens again. -/
def reopened (now : ℕ) (r : PlaceGranteeRequest) (u : UserRow) : UserRow :=
  { r.reopen now u.toUser with profileCompletedAt := u.profileCompletedAt, updatedAt := now }

/-- The slug of a personal tenant. -/
def personalSlug (texts : Texts) (id : Uuid) : String := "personal-" ++ ((texts.simple id).take 12).toString

/-- What is generated for a statement. -/
structure Generated where
  userId : Uuid
  tenantId : Uuid
  companyId : Uuid
deriving DecidableEq

namespace PlacementDb

variable (texts : Texts) (now : ℕ) (db : PlacementDb)

/-- `users` after an `INSERT` or `UPDATE`, unless an index refuses it. -/
def putUsers (users : Keyed fun u : UserRow => u.id) : AppResult PlacementDb :=
  if ha : (users.rows.map fun u => u.address).Nodup then
    if hp : (users.rows.filterMap fun u => u.placement).Nodup then
      .ok { db with users := users, addresses := ha, placements := hp }
    else .error (.database "idx_users_bunyip_tenant")
  else .error (.database "users_tenant_id_email_key")

def insertUser (u : UserRow) : AppResult PlacementDb :=
  if (db.users.find u.id).isSome then .error (.database "users_pkey")
  else if (db.tenants.find u.tenantId).isNone then .error (.database "users_tenant_id_fkey")
  else db.putUsers (db.users.insert u)

/-- An `UPDATE … WHERE id = $1 AND …`. -/
def updateUser (userId : Uuid) (p : UserRow → Bool) (f : UserRow → UserRow)
    (hf : ∀ u, (f u).id = u.id := by intro _; rfl) : AppResult PlacementDb :=
  match (db.users.find userId).filter p with
  | some _ => db.putUsers (db.users.update userId f fun u hu => (hf u).trans hu)
  | none => .ok db

variable {now db} {db' : PlacementDb} {u : UserRow} {userId : Uuid}

theorem putUsers_eq_ok {users : Keyed fun u : UserRow => u.id} : db.putUsers users = .ok db' ↔
    ∃ ha hp, db' = { db with users := users, addresses := ha, placements := hp } := by
  unfold putUsers
  split_ifs with ha hp
  · rw [Except.ok.injEq]
    exact ⟨fun h => ⟨ha, hp, h.symm⟩, fun ⟨_, _, h⟩ => h.symm⟩
  · exact ⟨fun h => absurd h (by simp), fun ⟨_, hp', _⟩ => absurd hp' hp⟩
  · exact ⟨fun h => absurd h (by simp), fun ⟨ha', _⟩ => absurd ha' ha⟩

theorem insertUser_eq_ok : db.insertUser u = .ok db' ↔
    db.users.find u.id = none ∧ (db.tenants.find u.tenantId).isSome = true ∧
      ∃ ha hp, db' = { db with users := db.users.insert u, addresses := ha, placements := hp } := by
  unfold insertUser
  rw [← putUsers_eq_ok]
  cases hu : db.users.find u.id with
  | some _ => simp
  | none =>
      cases ht : db.tenants.find u.tenantId with
      | none => simp
      | some _ => simp

theorem updateUser_of_not_found {p : UserRow → Bool} {f : UserRow → UserRow} {k : ∀ u, (f u).id = u.id}
    (hu : (db.users.find userId).filter p = none) : db.updateUser userId p f k = .ok db := by
  unfold updateUser
  rw [hu]

theorem updateUser_of_found {p : UserRow → Bool} {f : UserRow → UserRow} {k : ∀ u, (f u).id = u.id}
    (hu : (db.users.find userId).filter p = some u) :
    db.updateUser userId p f k = db.putUsers (db.users.update userId f fun u hu => (k u).trans hu) := by
  unfold updateUser
  rw [hu]

/-- No index refuses a row that keeps its address and its placement. -/
theorem updateUser_of_keeps {p : UserRow → Bool} {f : UserRow → UserRow} {k : ∀ u, (f u).id = u.id}
    (hu : (db.users.find userId).filter p = some u) (ha : ∀ u, (f u).address = u.address)
    (hp : ∀ u, (f u).placement = u.placement) : ∃ ha hp, db.updateUser userId p f k =
      .ok { db with
        users := db.users.update userId f fun u hu => (k u).trans hu, addresses := ha, placements := hp } := by
  have hk : ∀ u, u.id = userId → (f u).id = userId := fun u hu => (k u).trans hu
  have haddresses : ((db.users.update userId f hk).rows.map fun u => u.address).Nodup := by
    rw [Keyed.map_update db.users hk ha]
    exact db.addresses
  have hplacements : ((db.users.update userId f hk).rows.filterMap fun u => u.placement).Nodup := by
    have hmap := Keyed.map_update (g := fun u : UserRow => u.placement) db.users hk hp
    have hsame := congrArg (List.filterMap id) hmap
    rw [List.filterMap_map, List.filterMap_map] at hsame
    exact (congrArg List.Nodup hsame).mpr db.placements
  exact ⟨haddresses, hplacements, (updateUser_of_found hu).trans (putUsers_eq_ok.mpr ⟨haddresses, hplacements, rfl⟩)⟩

/-- No index stands between the row and the table. -/
def Fits (db : PlacementDb) (u : UserRow) : Prop :=
  ∀ v ∈ db.users.rows, v.id ≠ u.id → v.address ≠ u.address ∧ ∀ k ∈ u.placement, k ∉ v.placement

theorem putUsers_accepted {users : Keyed fun u : UserRow => u.id} : (∃ db', db.putUsers users = .ok db') ↔
    (users.rows.filterMap fun u => some u.address).Nodup ∧ (users.rows.filterMap fun u => u.placement).Nodup := by
  rw [List.filterMap_eq_map']
  constructor
  · rintro ⟨_, h⟩
    obtain ⟨ha, hp, -⟩ := putUsers_eq_ok.mp h
    exact ⟨ha, hp⟩
  · rintro ⟨ha, hp⟩
    exact ⟨_, putUsers_eq_ok.mpr ⟨ha, hp, rfl⟩⟩

theorem updateUser_accepted {p : UserRow → Bool} {f : UserRow → UserRow} {k : ∀ u, (f u).id = u.id}
    (hu : (db.users.find userId).filter p = some u) :
    (∃ db', db.updateUser userId p f k = .ok db') ↔ db.Fits (f u) := by
  obtain ⟨hfind, -⟩ := Option.filter_eq_some_iff.mp hu
  obtain ⟨-, rfl⟩ := Keyed.find_eq_some_iff.mp hfind
  have ha : (db.users.rows.filterMap fun u => some u.address).Nodup := by
    rw [List.filterMap_eq_map']
    exact db.addresses
  rw [updateUser_of_found hu, putUsers_accepted, Keyed.nodup_update ha hfind,
    Keyed.nodup_update db.placements hfind]
  unfold Fits
  rw [k]
  constructor
  · rintro ⟨haddress, hplacement⟩ v hv hne
    exact ⟨fun h => haddress v hv hne _ rfl (congrArg some h), hplacement v hv hne⟩
  · intro h
    refine ⟨fun v hv hne _ hb hb' => ?_, fun v hv hne => (h v hv hne).2⟩
    exact (h v hv hne).1 (Option.some.inj (hb'.trans hb.symm))

theorem insertUser_accepted : (∃ db', db.insertUser u = .ok db') ↔
    db.users.find u.id = none ∧ (db.tenants.find u.tenantId).isSome = true ∧ db.Fits u := by
  have ha : (db.users.rows.filterMap fun u => some u.address).Nodup := by
    rw [List.filterMap_eq_map']
    exact db.addresses
  have hput : db.users.find u.id = none → ((∃ db', db.putUsers (db.users.insert u) = .ok db') ↔ db.Fits u) := by
    intro hnone
    rw [putUsers_accepted, Keyed.nodup_insert ha hnone, Keyed.nodup_insert db.placements hnone]
    constructor
    · rintro ⟨haddress, hplacement⟩ v hv -
      exact ⟨fun h => haddress v hv _ rfl (congrArg some h), hplacement v hv⟩
    · intro h
      have hne : ∀ v ∈ db.users.rows, v.id ≠ u.id := fun v hv heq =>
        Keyed.find_eq_none_iff.mp hnone (List.mem_map.mpr ⟨v, hv, heq⟩)
      refine ⟨fun v hv _ hb hb' => ?_, fun v hv => (h v hv (hne v hv)).2⟩
      exact (h v hv (hne v hv)).1 (Option.some.inj (hb'.trans hb.symm))
  unfold insertUser
  cases hu : db.users.find u.id with
  | some _ => simp
  | none =>
      cases ht : db.tenants.find u.tenantId with
      | none => simp
      | some _ => simpa using hput hu

variable (now db)

def rehomeUser (sub fromTenant toTenant : Uuid) : AppResult PlacementDb :=
  db.updateUser sub (fun u => u.tenantId = fromTenant) fun u => { u with tenantId := toTenant, updatedAt := now }

def upsertUser (r : OidcUser) : AppResult PlacementDb :=
  if (db.users.find r.sub).isSome then db.updateUser r.sub (fun u => u.tenantId = r.tenantId) (r.refresh now)
  else db.insertUser (r.row texts now)

def repairEmail (tenantId userId : Uuid) (email : String) : AppResult PlacementDb :=
  db.updateUser userId (fun u => u.tenantId = tenantId ∧ domain u.email = unresolvedEmailDomain) fun u =>
    { u with
      email := email
      profile := { u.profile with emailVerifiedAt := u.profile.emailVerifiedAt <|> some now }
      updatedAt := now }

def refreshNames (tenantId userId : Uuid) (first last : Option String) : AppResult PlacementDb :=
  db.updateUser userId (fun u => u.tenantId = tenantId) (withNames now first last)

def setUserRole (tenantId userId : Uuid) (role : UserRole) : AppResult PlacementDb :=
  db.updateUser userId (fun u => u.tenantId = tenantId) fun u => { u with role := role, updatedAt := now }

def placeGrantee (r : PlaceGranteeRequest) (freshId : Uuid) : AppResult PlacementDb :=
  match db.findPlacement r.bunyipUserId r.tenantId with
  | some u => db.updateUser u.id (fun _ => true) (reopened now r)
  | none => db.insertUser (granteeRow texts now r freshId)

/-- The `INSERT` of `ensure_personal_tenant`. -/
def insertPersonalTenant (ownerId tenantId : Uuid) : AppResult (Option Uuid × PlacementDb) :=
  if (db.personalTenantForOwner ownerId).isSome then .ok (none, db)
  else if (db.tenants.find tenantId).isSome then .error (.database "tenants_pkey")
  else if (db.resolveTenantSlugOpt (personalSlug texts tenantId)).isSome then .error (.database "tenants_slug_key")
  else .ok (some tenantId, { db with
    tenants := db.tenants.insert
      { id := tenantId, slug := personalSlug texts tenantId, kind := .personal, status := .active,
        personalOwnerId := some ownerId, ownCompanyId := none, entitlement := none } })

/-- `ensure_own_company`. -/
def linkOwnCompany (tenantId companyId : Uuid) : PlacementDb :=
  { db with
    tenants := db.tenants.update tenantId
      (fun t => { t with ownCompanyId := t.ownCompanyId <|> some companyId }) fun _ h => h }

/-- `team_members` with the user that an invitation has named a team for. -/
def enrol (invite : PendingInvite) (sub : Uuid) : Keyed TeamMember.key :=
  match invite.teamId with
  | some teamId =>
    if (db.teams.find teamId).any fun t => t.tenantId = invite.tenantId ∧ t.isActive then
      db.teamMembers.insert { tenantId := invite.tenantId, teamId := teamId, userId := sub }
    else db.teamMembers
  | none => db.teamMembers

/-- `accept`. -/
def acceptInvite (invite : PendingInvite) (sub : Uuid) : PlacementDb :=
  if (db.invitations.find invite.id).any fun i => i.status = .pending then
    { db with
      invitations := db.invitations.update invite.id
        (fun i => { i with status := .accepted, acceptedAt := some now, acceptedBy := some sub }) fun _ h => h
      teamMembers := db.enrol invite sub }
  else db

def cacheGrant (key : Uuid × String) (active : Bool) : PlacementDb :=
  { db with
    grantCache := fun k => if k = key then some { active := active, resolvedAt := now } else db.grantCache k }

variable {texts now db} {db' : PlacementDb} {r : PlaceGranteeRequest} {sub tenantId freshId : Uuid} {u : UserRow}

theorem findPlacement_eq_some_iff : db.findPlacement sub tenantId = some u ↔
    u ∈ db.users.rows ∧ u.placement = some (sub, tenantId) := by
  refine ⟨fun h => ⟨List.mem_of_find?_eq_some h, by simpa using List.find?_some h⟩, fun ⟨hmem, hplaced⟩ => ?_⟩
  cases hf : db.findPlacement sub tenantId with
  | none => exact absurd (decide_eq_true hplaced) (List.find?_eq_none.mp hf u hmem)
  | some v =>
      have hv : v.placement = some (sub, tenantId) := by simpa using List.find?_some hf
      exact congrArg some (Keyed.eq_of_nodup db.placements (List.mem_of_find?_eq_some hf) hmem hv hplaced)

theorem tenantId_of_placement (h : u.placement = some (sub, tenantId)) : u.tenantId = tenantId := by
  obtain ⟨_, -, h⟩ := Option.map_eq_some_iff.mp h
  exact congrArg Prod.snd h

theorem find_of_findPlacement (h : db.findPlacement sub tenantId = some u) : db.users.find u.id = some u :=
  Keyed.find_eq_some_iff.mpr ⟨(findPlacement_eq_some_iff.mp h).1, rfl⟩

/-- No index refuses the placement. -/
def Accepts (texts : Texts) (now : ℕ) (db : PlacementDb) (r : PlaceGranteeRequest) (freshId : Uuid) : Prop :=
  match db.findPlacement r.bunyipUserId r.tenantId with
  | some u => db.Fits (reopened now r u)
  | none => db.users.find freshId = none ∧ (db.tenants.find r.tenantId).isSome = true ∧
      db.Fits (granteeRow texts now r freshId)

theorem placeGrantee_accepted :
    (∃ db', db.placeGrantee texts now r freshId = .ok db') ↔ db.Accepts texts now r freshId := by
  unfold placeGrantee Accepts
  cases hu : db.findPlacement r.bunyipUserId r.tenantId with
  | some u =>
      have hmatch : (db.users.find u.id).filter (fun _ => true) = some u := by
        rw [find_of_findPlacement hu]
        rfl
      exact updateUser_accepted (f := reopened now r) (k := fun _ => rfl) hmatch
  | none => exact insertUser_accepted

/-- The row of the placement is live, active and in the tenant. -/
theorem livePlacement_placeGrantee (h : db.placeGrantee texts now r freshId = .ok db') :
    db'.tenants = db.tenants ∧ ∃ w, db'.livePlacement r.bunyipUserId r.tenantId = some w ∧ w.status = .active ∧
      w.tenantId = r.tenantId ∧ w.id = (db.findPlacement r.bunyipUserId r.tenantId).elim freshId fun u => u.id := by
  unfold placeGrantee at h
  cases hu : db.findPlacement r.bunyipUserId r.tenantId with
  | some u =>
      have hfind := find_of_findPlacement hu
      have hplaced := (findPlacement_eq_some_iff.mp hu).2
      have hmatch : (db.users.find u.id).filter (fun _ => true) = some u := by
        rw [hfind]
        rfl
      rw [hu] at h
      obtain ⟨_, _, rfl⟩ := putUsers_eq_ok.mp ((updateUser_of_found hmatch).symm.trans h)
      refine ⟨rfl, reopened now r u, Option.filter_eq_some_iff.mpr
        ⟨findPlacement_eq_some_iff.mpr ⟨?_, hplaced⟩, rfl⟩, rfl, tenantId_of_placement hplaced, rfl⟩
      exact List.mem_map.mpr ⟨u, (Keyed.find_eq_some_iff.mp hfind).1, if_pos rfl⟩
  | none =>
      rw [hu] at h
      obtain ⟨hnone, -, _, _, rfl⟩ := insertUser_eq_ok.mp h
      refine ⟨rfl, granteeRow texts now r freshId, Option.filter_eq_some_iff.mpr
        ⟨findPlacement_eq_some_iff.mpr ⟨?_, rfl⟩, rfl⟩, rfl, rfl, rfl⟩
      have hfind := Keyed.find_insert (t := db.users) (granteeRow texts now r freshId)
        (granteeRow texts now r freshId).id
      rw [if_pos rfl, hnone] at hfind
      exact (Keyed.find_eq_some_iff.mp hfind).1

end PlacementDb

/-! ### Statements -/

/-- Where the database is only read. -/
inductive Read where
  | resolveGrant | resolveSlug | resolvePrincipal | resolveGate
  | placeGrant | placeSlug | placePrincipal | placeGate | placedPrincipal
  | placement | newestPending | personalTenant | seedTenant | personalTenantAgain
  | user | upserted | repaired | refreshed | lateGate
deriving DecidableEq

inductive Statement where
  | cachedGrant (key : Uuid × String)
  | selectGrant (r : Read) (key : Uuid × String)
  | cacheGrant (key : Uuid × String) (active : Bool)
  | resolveTenantSlugOpt (r : Read) (slug : String)
  | findBunyipPrincipal (sub : Uuid)
  | findBunyipPrincipalInTenant (r : Read) (sub tenantId : Uuid)
  | ensureTenantActive (r : Read) (tenantId : Uuid)
  | findUserPlacement (sub : Uuid)
  | newestPendingFor (email : String)
  | personalTenantForOwner (r : Read) (ownerId : Uuid)
  | getUserById (r : Read) (tenantId userId : Uuid)
  | insertPersonalTenant (ownerId : Uuid)
  | seedTenant (tenantId : Uuid)
  | rehomeUser (sub fromTenant toTenant : Uuid)
  | upsertUser (r : OidcUser)
  | repairEmail (tenantId userId : Uuid) (email : String)
  | refreshNames (tenantId userId : Uuid) (first last : Option String)
  | acceptInvite (invite : PendingInvite) (sub : Uuid)
  | setUserRole (tenantId userId : Uuid) (role : UserRole)
  | placeGrantee (r : PlaceGranteeRequest)
  | userinfo

/-- `/oauth2/userinfo`. -/
structure Userinfo where
  sub : String
  email : Option String
  emailVerified : Option Bool
  givenName : Option String
  familyName : Option String
deriving DecidableEq

abbrev Reply : Statement → Type
  | .cachedGrant _ => Option Bool
  | .cacheGrant _ _ => Unit
  | .selectGrant _ _ => AppResult (Option Bool)
  | .findBunyipPrincipal _ | .findBunyipPrincipalInTenant _ _ _ => AppResult (Option BunyipPrincipal)
  | .resolveTenantSlugOpt _ _ | .personalTenantForOwner _ _ | .insertPersonalTenant _ => AppResult (Option Uuid)
  | .findUserPlacement _ => AppResult (Option (Uuid × UserRole))
  | .newestPendingFor _ => AppResult (Option PendingInvite)
  | .getUserById _ _ _ => AppResult User
  | .ensureTenantActive _ _ | .seedTenant _ | .rehomeUser _ _ _ | .upsertUser _ | .repairEmail _ _ _
  | .refreshNames _ _ _ _ | .acceptInvite _ _ | .setUserRole _ _ _ | .placeGrantee _ => AppResult Unit
  | .userinfo => Option Userinfo

namespace Statement

def read : Statement → Option Read
  | .selectGrant r _ | .resolveTenantSlugOpt r _ | .findBunyipPrincipalInTenant r _ _ | .ensureTenantActive r _
  | .personalTenantForOwner r _ | .getUserById r _ _ => some r
  | .findBunyipPrincipal _ => some .resolvePrincipal
  | .findUserPlacement _ => some .placement
  | .newestPendingFor _ => some .newestPending
  | .seedTenant _ => some .seedTenant
  | _ => none

/-- What a statement that fails is replied. -/
def failed : (s : Statement) → Reply s
  | .cachedGrant _ => none
  | .cacheGrant _ _ => ()
  | .userinfo => none
  | .selectGrant _ _ | .findBunyipPrincipal _ | .findBunyipPrincipalInTenant _ _ _ | .resolveTenantSlugOpt _ _
  | .personalTenantForOwner _ _ | .insertPersonalTenant _ | .findUserPlacement _ | .newestPendingFor _
  | .getUserById _ _ _ | .ensureTenantActive _ _ | .seedTenant _ | .rehomeUser _ _ _ | .upsertUser _
  | .repairEmail _ _ _ | .refreshNames _ _ _ _ | .acceptInvite _ _ | .setUserRole _ _ _ | .placeGrantee _ =>
    .error (.database "connection")

end Statement

/-- What a statement is answered from outside. -/
structure Answer where
  fails : Bool
  generated : Generated
  userinfo : Option Userinfo
deriving DecidableEq

namespace PlacementDb

variable (texts : Texts) (now : ℕ) (x : Answer) (db : PlacementDb)

def written : AppResult PlacementDb → AppResult Unit × PlacementDb
  | .ok db' => (.ok (), db')
  | .error e => (.error e, db)

def perform : (s : Statement) → Reply s × PlacementDb
  | .cachedGrant key => (db.cachedGrant now key, db)
  | .selectGrant _ key => (.ok (db.selectGrant key), db)
  | .cacheGrant key active => ((), db.cacheGrant now key active)
  | .resolveTenantSlugOpt _ slug => (.ok (db.resolveTenantSlugOpt slug), db)
  | .findBunyipPrincipal sub => (.ok ((db.liveUser sub).map (db.principal texts now)), db)
  | .findBunyipPrincipalInTenant _ sub tenantId =>
    (.ok ((db.livePlacement sub tenantId).map (db.principal texts now)), db)
  | .ensureTenantActive _ tenantId => (db.ensureTenantActive now tenantId, db)
  | .findUserPlacement sub => (.ok ((db.liveUser sub).map fun u => (u.tenantId, u.role)), db)
  | .newestPendingFor email => (.ok (db.newestPendingFor texts now email), db)
  | .personalTenantForOwner _ ownerId => (.ok (db.personalTenantForOwner ownerId), db)
  | .getUserById _ tenantId userId => (db.getUserById tenantId userId, db)
  | .insertPersonalTenant ownerId =>
    match db.insertPersonalTenant texts ownerId x.generated.tenantId with
    | .ok (inserted, db') => (.ok inserted, db')
    | .error e => (.error e, db)
  | .seedTenant tenantId => (.ok (), db.linkOwnCompany tenantId x.generated.companyId)
  | .rehomeUser sub fromTenant toTenant => db.written (db.rehomeUser now sub fromTenant toTenant)
  | .upsertUser r => db.written (db.upsertUser texts now r)
  | .repairEmail tenantId userId email => db.written (db.repairEmail now tenantId userId email)
  | .refreshNames tenantId userId first last => db.written (db.refreshNames now tenantId userId first last)
  | .acceptInvite invite sub => (.ok (), db.acceptInvite now invite sub)
  | .setUserRole tenantId userId role => db.written (db.setUserRole now tenantId userId role)
  | .placeGrantee r => db.written (db.placeGrantee texts now r x.generated.userId)
  | .userinfo => (x.userinfo, db)

/-- What a statement is replied, and what is stored after it. -/
def exec (s : Statement) : Reply s × PlacementDb := if x.fails then (s.failed, db) else db.perform texts now x s

end PlacementDb

end Mokosh.Placement
