import Mokosh.Lib.Keyed
import Mokosh.Lib.Table
import Mokosh.Utils.Text
import Mokosh.Auth.Grants
import Mokosh.Auth.Sessions

/-! # Seats and identities

A human has a row of `users` for each seat, one row of `identities`, and a row of `tenant_memberships` for
each seat.  The program writes `users`, and the trigger `sync_user_to_identity_and_membership` carries what it
has written to the other two (`mirrorInsert`, `mirrorUpdate`), unless the transaction has switched it off.

An address has one identity ignoring case (`lower` is the database's), while the rows of a tenant may have
addresses that differ in case only. -/

namespace Mokosh.Identities

open Grants (UserRole)
open Sessions (UserStatus)

/-! ### Rows -/

/-- The columns that every write of a `users` row carries to the identity. -/
structure Profile where
  firstName : String
  lastName : String
  phone : Option String
  mobile : Option String
  avatarUrl : Option String
  timezone : String
  locale : String
  emailVerifiedAt : Option ℕ
  lastLoginAt : Option ℕ
  mfaEnabled : Bool
deriving DecidableEq

structure Preferences where
  dateFormatString : Option String
  themeBaseMode : Option String
  themeAccentId : Option String
  loginLocationAlerts : Bool
deriving DecidableEq

structure User where
  id : Uuid
  tenantId : Uuid
  bunyipUserId : Option Uuid
  email : String
  passwordHash : Option String
  profile : Profile
  preferences : Preferences
  title : Option String
  role : UserRole
  status : UserStatus
  mfaSecret : Option String
  mfaRecoveryCodesHashes : List String
  deletedAt : Option ℕ
deriving DecidableEq

namespace User

/-- The key of `idx_users_bunyip_tenant`. -/
def placement (u : User) : Option (Uuid × Uuid) := u.bunyipUserId.map fun sub => (sub, u.tenantId)

/-- The key of `UNIQUE (tenant_id, email)`. -/
def address (u : User) : Uuid × String := (u.tenantId, u.email)

end User

inductive IdentityStatus where
  | active | inactive
deriving DecidableEq

structure Identity where
  id : Uuid
  email : String
  passwordHash : Option String
  profile : Profile
  mfaSecret : Option String
  status : IdentityStatus
deriving DecidableEq

/-- The identity of the first `users` row of an address. -/
def User.seed (u : User) : Identity :=
  { id := u.id, email := u.email, passwordHash := u.passwordHash, profile := u.profile,
    mfaSecret := u.mfaSecret, status := if u.status = .inactive then .inactive else .active }

structure Membership where
  identityId : Uuid
  tenantId : Uuid
  role : UserRole
  title : Option String
  status : UserStatus
deriving DecidableEq

namespace Membership

def seat (m : Membership) : Uuid × Uuid := (m.identityId, m.tenantId)

def ofUser (identityId : Uuid) (u : User) : Membership :=
  { identityId := identityId, tenantId := u.tenantId, role := u.role, title := u.title, status := u.status }

def write (u : User) (m : Membership) : Membership :=
  { m with role := u.role, title := u.title, status := u.status }

theorem write_seat (u : User) (m : Membership) : (m.write u).seat = m.seat := rfl

end Membership

structure IdentityDb (lower : String → String) where
  users : Table User.id
  identities : Keyed fun i : Identity => lower i.email
  memberships : Keyed Membership.seat
  addresses : (users.rows.map User.address).Nodup
  placements : (users.rows.filterMap User.placement).Nodup
  ids : (identities.rows.map Identity.id).Nodup

variable {lower : String → String}

namespace IdentityDb

def empty : IdentityDb lower :=
  { users := ∅, identities := .empty, memberships := .empty, addresses := List.nodup_nil,
    placements := List.nodup_nil, ids := List.nodup_nil }

variable (db : IdentityDb lower)

/-- `users` after an `INSERT` or `UPDATE`, unless an index refuses it. -/
def putUsers (users : Table User.id) : AppResult (IdentityDb lower) :=
  if ha : (users.rows.map User.address).Nodup then
    if hp : (users.rows.filterMap User.placement).Nodup then
      .ok { db with users := users, addresses := ha, placements := hp }
    else .error (.database "idx_users_bunyip_tenant")
  else .error (.database "users_tenant_id_email_key")

/-! ### The trigger -/

def upsertMembership (identityId : Uuid) (new : User) : IdentityDb lower :=
  { db with
    memberships := db.memberships.upsert (.ofUser identityId new) (Membership.write new)
      fun m hm => (m.write_seat new).trans hm }

def insertIdentity (i : Identity) : AppResult (IdentityDb lower) :=
  if h : i.id ∈ db.identities.rows.map Identity.id then .error (.database "identities_pkey")
  else .ok { db with
    identities := db.identities.insert i
    ids := by
      unfold Keyed.insert
      split
      · exact db.ids
      · exact List.nodup_cons.mpr ⟨h, db.ids⟩ }

/-- After the `INSERT` of a `users` row. -/
def mirrorInsert (new : User) : AppResult (IdentityDb lower) :=
  match db.identities.find (lower new.email) with
  | some i => .ok (db.upsertMembership i.id new)
  | none => (db.insertIdentity new.seed).map fun db => db.upsertMembership new.id new

def updateMembership (identityId : Uuid) (new : User) : IdentityDb lower :=
  { db with
    memberships := db.memberships.update (identityId, new.tenantId) (Membership.write new)
      fun m hm => (m.write_seat new).trans hm }

def updateIdentity (email : String) (f : Identity → Identity)
    (hf : ∀ i, (f i).email = i.email ∧ (f i).id = i.id) : IdentityDb lower :=
  { db with
    identities := db.identities.update (lower email) f fun i hi => by rw [(hf i).1, hi]
    ids := by
      rw [Keyed.map_update _ _ fun i => (hf i).2]
      exact db.ids }

/-- After the `UPDATE` of a `users` row.  Neither the password nor the secret is carried over. -/
def mirrorUpdate (new : User) : IdentityDb lower :=
  match db.identities.find (lower new.email) with
  | some i => (db.updateMembership i.id new).updateIdentity i.email
      (fun i => { i with profile := new.profile }) fun _ => ⟨rfl, rfl⟩
  | none => db

variable {db} {new : User} {i : Identity}

theorem find_updateIdentity (email : String) (f : Identity → Identity)
    (hf : ∀ i, (f i).email = i.email ∧ (f i).id = i.id) (k : String) :
    (db.updateIdentity email f hf).identities.find k =
      if k = lower email then (db.identities.find (lower email)).map f else db.identities.find k := by
  rw [updateIdentity, Keyed.find_update]

theorem find_updateMembership (identityId : Uuid) (k : Uuid × Uuid) :
    (db.updateMembership identityId new).memberships.find k =
      if k = (identityId, new.tenantId) then
        (db.memberships.find (identityId, new.tenantId)).map (Membership.write new)
      else db.memberships.find k := by
  rw [updateMembership, Keyed.find_update]

theorem mirrorUpdate_of_find (hi : db.identities.find (lower new.email) = some i) :
    db.mirrorUpdate new = (db.updateMembership i.id new).updateIdentity i.email
      (fun i => { i with profile := new.profile }) fun _ => ⟨rfl, rfl⟩ := by
  unfold mirrorUpdate
  simp only [hi]

theorem mirrorUpdate_of_not_find (hi : db.identities.find (lower new.email) = none) :
    db.mirrorUpdate new = db := by
  unfold mirrorUpdate
  simp only [hi]

/-- The identity of the address gets the profile of the row. -/
theorem identities_mirrorUpdate (k : String) : (db.mirrorUpdate new).identities.find k =
    if k = lower new.email then (db.identities.find k).map fun i => { i with profile := new.profile }
    else db.identities.find k := by
  cases hi : db.identities.find (lower new.email) with
  | none =>
      rw [mirrorUpdate_of_not_find hi]
      split
      · next hk => rw [hk, hi, Option.map_none]
      · rfl
  | some i =>
      obtain ⟨-, hlower⟩ := Keyed.find_eq_some_iff.mp hi
      rw [mirrorUpdate_of_find hi, find_updateIdentity, hlower]
      split
      · next hk =>
          subst hk
          rfl
      · rfl

/-- Its membership of the tenant gets the role and status of the row. -/
theorem memberships_mirrorUpdate (hi : db.identities.find (lower new.email) = some i)
    (k : Uuid × Uuid) : (db.mirrorUpdate new).memberships.find k =
      if k = (i.id, new.tenantId) then (db.memberships.find k).map (Membership.write new)
      else db.memberships.find k := by
  rw [mirrorUpdate_of_find hi]
  refine (find_updateMembership i.id k).trans ?_
  split
  · next hk => rw [hk]
  · rfl

/-- The identity of a new address is that of its first row. -/
theorem identities_mirrorInsert {db' : IdentityDb lower} (h : db.mirrorInsert new = .ok db') (k : String) :
    db'.identities.find k =
      if k = lower new.email then db.identities.find k <|> some new.seed else db.identities.find k := by
  unfold mirrorInsert at h
  split at h
  · next i hi =>
      cases h
      split
      · next hk =>
          subst hk
          rw [hi]
          exact hi
      · rfl
  · unfold insertIdentity at h
    split at h
    · cases h
    · cases h
      exact Keyed.find_insert ..

/-- The trigger leaves `users` alone. -/
theorem users_mirrorInsert {db' : IdentityDb lower} (h : db.mirrorInsert new = .ok db') : db'.users = db.users := by
  unfold mirrorInsert at h
  split at h
  · cases h
    rfl
  · unfold insertIdentity at h
    split at h
    · cases h
    · cases h
      rfl

theorem users_mirrorUpdate (db : IdentityDb lower) (new : User) : (db.mirrorUpdate new).users = db.users := by
  unfold mirrorUpdate
  split <;> rfl

variable (db)

/-! ### Statements -/

def insertRow (mk : Uuid → User) (hk : ∀ id, (mk id).id = id := by intro _; rfl) :
    AppResult (IdentityDb lower) := do
  let inserted ← db.putUsers (db.users.insert mk hk)
  inserted.mirrorInsert (mk db.users.next)

def findUser (tenantId userId : Uuid) : Option User := (db.users.find userId).filter fun u => u.tenantId = tenantId

/-- An `UPDATE … WHERE id = $1 AND tenant_id = $2`; `mirrored` says whether the trigger is on. -/
def updateRow (mirrored : Bool) (tenantId userId : Uuid) (f : User → User)
    (hf : ∀ u, (f u).id = u.id := by intro _; rfl) : AppResult (IdentityDb lower) :=
  match db.findUser tenantId userId with
  | some u => (db.putUsers (db.users.update userId f hf)).map fun db =>
      if mirrored then db.mirrorUpdate (f u) else db
  | none => .ok db

variable {db} {db' : IdentityDb lower} {u : User} {tenantId userId : Uuid}

theorem putUsers_ok {users : Table User.id} (h : db.putUsers users = .ok db') :
    db'.users = users ∧ db'.identities = db.identities ∧ db'.memberships = db.memberships := by
  unfold putUsers at h
  split at h
  · split at h
    · cases h
      exact ⟨rfl, rfl, rfl⟩
    · cases h
  · cases h

theorem insertRow_ok {mk : Uuid → User} {hk : ∀ id, (mk id).id = id} (h : db.insertRow mk hk = .ok db') :
    ∃ put : IdentityDb lower, put.identities = db.identities ∧ put.memberships = db.memberships ∧
      (∀ v, v ∈ put.users.rows ↔ v ∈ db.users.rows ∨ v = mk db.users.next) ∧
      put.mirrorInsert (mk db.users.next) = .ok db' := by
  obtain ⟨put, hput, h⟩ := bind_eq_ok.mp h
  obtain ⟨husers, hi, hm⟩ := putUsers_ok hput
  refine ⟨put, hi, hm, fun v => ?_, h⟩
  rw [husers]
  exact Table.mem_insert hk

theorem findUser_eq_some_iff : db.findUser tenantId userId = some u ↔
    u ∈ db.users.rows ∧ u.id = userId ∧ u.tenantId = tenantId := by
  rw [findUser, Option.filter_eq_some_iff, Table.find_eq_some_iff, decide_eq_true_eq, and_assoc]
  exact Iff.rfl

theorem updateRow_of_not_found {mirrored : Bool} {f : User → User} {hf : ∀ u, (f u).id = u.id}
    (hu : db.findUser tenantId userId = none) (h : db.updateRow mirrored tenantId userId f hf = .ok db') :
    db' = db := by
  unfold updateRow at h
  simp only [hu] at h
  cases h
  rfl

theorem updateRow_ok {mirrored : Bool} {f : User → User} {hf : ∀ u, (f u).id = u.id}
    (hu : db.findUser tenantId userId = some u) (h : db.updateRow mirrored tenantId userId f hf = .ok db') :
    ∃ put : IdentityDb lower, put.identities = db.identities ∧ put.memberships = db.memberships ∧
      (∀ v, v ∈ put.users.rows ↔ v = f u ∨ v ∈ db.users.rows ∧ v.id ≠ u.id) ∧
      db' = if mirrored then put.mirrorUpdate (f u) else put := by
  unfold updateRow at h
  simp only [hu] at h
  cases hput : db.putUsers (db.users.update userId f hf) with
  | error e =>
      rw [hput] at h
      cases h
  | ok put =>
      rw [hput] at h
      cases h
      obtain ⟨husers, hi, hm⟩ := putUsers_ok hput
      refine ⟨put, hi, hm, fun v => ?_, rfl⟩
      obtain ⟨hmem, rfl, -⟩ := findUser_eq_some_iff.mp hu
      rw [husers]
      exact Table.mem_update_of_mem (t := db.users) hmem hf

/-- Of the addresses that the database lets through, none is another row's. -/
theorem address_of_insertRow {mk : Uuid → User} {hk : ∀ id, (mk id).id = id} (h : db.insertRow mk hk = .ok db')
    {v : User} (hv : v ∈ db.users.rows) : v.address ≠ (mk db.users.next).address := by
  obtain ⟨put, -, -, hrows, -⟩ := insertRow_ok h
  intro haddress
  have heq := List.inj_on_of_nodup_map put.addresses ((hrows v).mpr (.inl hv)) ((hrows _).mpr (.inr rfl)) haddress
  have hlt := Table.key_lt_next (t := db.users) hv
  rw [heq, hk] at hlt
  exact lt_irrefl _ hlt

theorem address_of_updateRow {mirrored : Bool} {f : User → User} {hf : ∀ u, (f u).id = u.id}
    (hu : db.findUser tenantId userId = some u) (h : db.updateRow mirrored tenantId userId f hf = .ok db')
    {v : User} (hv : v ∈ db.users.rows) (hne : v.id ≠ u.id) : v.address ≠ (f u).address := by
  obtain ⟨put, -, -, hrows, -⟩ := updateRow_ok hu h
  intro haddress
  have heq := List.inj_on_of_nodup_map put.addresses ((hrows v).mpr (.inr ⟨hv, hne⟩)) ((hrows _).mpr (.inl rfl))
    haddress
  exact hne (heq ▸ hf u)

end IdentityDb

/-! ### Names and addresses -/

section Names

def unresolvedEmailDomain : String := "unresolved.invalid"

/-- `is_unresolved_placeholder_email`. -/
def isUnresolvedPlaceholderEmail (email : String) : Bool :=
  '@' ∈ email.toList ∧
    (email.toList.rtakeWhile (· ≠ '@')).map Char.toLower = unresolvedEmailDomain.toList.map Char.toLower

def syntheticNameFallback : String × String := ("Mokosh", "User")

def isAsciiHexdigit (c : Char) : Bool := c.isDigit ∨ 'a' ≤ c ∧ c ≤ 'f' ∨ 'A' ≤ c ∧ c ≤ 'F'

-- `char::to_uppercase`
variable (toUppercase : Char → List Char)

def titlecase : List Char → String
  | c :: s => String.ofList (toUppercase c ++ s)
  | [] => ""

/-- `synthetic_name_from_email`. -/
def syntheticNameFromEmail (email : String) : String × String :=
  let parts := ((email.toList.takeWhile (· ≠ '@')).splitOnP (· ∈ ['.', '_', '-'])).filter (· ≠ [])
  if isUnresolvedPlaceholderEmail email then syntheticNameFallback
  else if parts.any fun p => 4 ≤ p.length ∧ p.all isAsciiHexdigit then syntheticNameFallback
  else
    match parts with
    | [] => syntheticNameFallback
    | [one] => (titlecase toUppercase one, "")
    | one :: two :: _ => (titlecase toUppercase one, titlecase toUppercase two)

/-- A name that the token gives, if it gives one. -/
def nameHint (hint : Option String) : Option String :=
  (hint.map fun s => String.ofList (Text.trim s.toList)).filter (· ≠ "")

end Names

/-! ### Operations of `auth/service.rs` -/

structure CreateUserRequest where
  email : String
  firstName : String
  lastName : String
  phone : Option String
  mobile : Option String
  title : Option String
  role : UserRole
  timezone : Option String
  dateFormatString : Option String
  themeBaseMode : Option String
  themeAccentId : Option String
deriving DecidableEq

/-- The row that `create_user` inserts. -/
def CreateUserRequest.row (r : CreateUserRequest) (tenantId id : Uuid) : User :=
  { id := id, tenantId := tenantId, bunyipUserId := none, email := r.email, passwordHash := none
    profile :=
      { firstName := r.firstName, lastName := r.lastName, phone := r.phone, mobile := r.mobile,
        avatarUrl := none, timezone := r.timezone.getD "UTC", locale := "en-US", emailVerifiedAt := none,
        lastLoginAt := none, mfaEnabled := false }
    preferences :=
      { dateFormatString := r.dateFormatString, themeBaseMode := r.themeBaseMode,
        themeAccentId := r.themeAccentId, loginLocationAlerts := true }
    title := r.title, role := r.role, status := .pending, mfaSecret := none, mfaRecoveryCodesHashes := [],
    deletedAt := none }

theorem CreateUserRequest.row_id (r : CreateUserRequest) (tenantId id : Uuid) : (r.row tenantId id).id = id := rfl

structure UpdateUserRequest where
  email : Option String
  mobile : Option String
  title : Option String
  role : Option UserRole
  status : Option UserStatus
  timezone : Option String
  dateFormatString : Option String
  themeBaseMode : Option String
  themeAccentId : Option String
  loginLocationAlerts : Option Bool
deriving DecidableEq

namespace UpdateUserRequest

def empty : UpdateUserRequest :=
  { email := none, mobile := none, title := none, role := none, status := none, timezone := none,
    dateFormatString := none, themeBaseMode := none, themeAccentId := none, loginLocationAlerts := none }

/-- What the `SET` of `update_user` makes of a row. -/
def set (r : UpdateUserRequest) (u : User) : User :=
  { u with
    email := r.email.getD u.email
    title := r.title <|> u.title
    role := r.role.getD u.role
    status := r.status.getD u.status
    profile :=
      { u.profile with
        mobile := r.mobile <|> u.profile.mobile, timezone := r.timezone.getD u.profile.timezone }
    preferences :=
      { dateFormatString := r.dateFormatString <|> u.preferences.dateFormatString
        themeBaseMode := r.themeBaseMode <|> u.preferences.themeBaseMode
        themeAccentId := r.themeAccentId <|> u.preferences.themeAccentId
        loginLocationAlerts := r.loginLocationAlerts.getD u.preferences.loginLocationAlerts } }

end UpdateUserRequest

namespace IdentityDb

variable (db : IdentityDb lower)

/-- `get_user_by_id`. -/
def getUserById (tenantId userId : Uuid) : AppResult User :=
  orError (.notFound "User") ((db.findUser tenantId userId).filter fun u => u.deletedAt = none)

/-- The check of `create_user`. -/
def emailExists (tenantId : Uuid) (email : String) : Bool :=
  db.users.rows.any fun u => u.tenantId = tenantId ∧ u.email = email

def createUser (tenantId : Uuid) (r : CreateUserRequest) : AppResult (IdentityDb lower) :=
  if db.emailExists tenantId r.email then .error (.conflict "A user with this email already exists")
  else db.insertRow (r.row tenantId)

/-- `update_user`, up to the read of the row that it returns. -/
def updateUser (tenantId userId : Uuid) (r : UpdateUserRequest) : AppResult (IdentityDb lower) :=
  if r = .empty then .ok db else db.updateRow true tenantId userId r.set

def updateLastLogin (now : ℕ) (tenantId userId : Uuid) : AppResult (IdentityDb lower) :=
  db.updateRow true tenantId userId fun u => { u with profile := { u.profile with lastLoginAt := some now } }

def setUserRole (tenantId userId : Uuid) (role : UserRole) : AppResult (IdentityDb lower) :=
  db.updateRow true tenantId userId fun u => { u with role := role }

end IdentityDb

structure PlaceGranteeRequest where
  bunyipUserId : Uuid
  tenantId : Uuid
  role : UserRole
  email : String
  givenNameHint : Option String
  familyNameHint : Option String
  emailVerified : Bool
deriving DecidableEq

namespace PlaceGranteeRequest

variable (toUppercase : Char → List Char) (r : PlaceGranteeRequest) (now : ℕ)

def emailVerifiedAt : Option ℕ := if r.emailVerified then some now else none

def row (id : Uuid) : User :=
  let synthetic := syntheticNameFromEmail toUppercase r.email
  { id := id, tenantId := r.tenantId, bunyipUserId := some r.bunyipUserId, email := r.email
    passwordHash := none
    profile :=
      { firstName := (nameHint r.givenNameHint).getD synthetic.1
        lastName := (nameHint r.familyNameHint).getD synthetic.2, phone := none, mobile := none,
        avatarUrl := none, timezone := "UTC", locale := "en-US", emailVerifiedAt := r.emailVerifiedAt now,
        lastLoginAt := none, mfaEnabled := false }
    preferences :=
      { dateFormatString := none, themeBaseMode := none, themeAccentId := none, loginLocationAlerts := true }
    title := none, role := r.role, status := .active, mfaSecret := none, mfaRecoveryCodesHashes := [],
    deletedAt := none }

/-- The `DO UPDATE`, which opens a row that was tombstoned. -/
def reopen (u : User) : User :=
  { u with
    deletedAt := none, role := r.role, status := .active, email := r.email
    profile :=
      { u.profile with
        firstName := (nameHint r.givenNameHint).getD u.profile.firstName
        lastName := (nameHint r.familyNameHint).getD u.profile.lastName
        emailVerifiedAt := u.profile.emailVerifiedAt <|> r.emailVerifiedAt now } }

end PlaceGranteeRequest

namespace IdentityDb

variable (db : IdentityDb lower)

def findPlacement (bunyipUserId tenantId : Uuid) : Option User :=
  db.users.rows.find? fun u => u.placement = some (bunyipUserId, tenantId)

/-- `place_grantee_user`. -/
def placeGranteeUser (toUppercase : Char → List Char) (now : ℕ) (r : PlaceGranteeRequest) :
    AppResult (IdentityDb lower) :=
  match db.findPlacement r.bunyipUserId r.tenantId with
  | some u => db.updateRow true u.tenantId u.id (r.reopen now)
  | none => db.insertRow (r.row toUppercase now)

end IdentityDb

end Mokosh.Identities
