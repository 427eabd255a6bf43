import Mathlib.Data.List.Sort
import Mokosh.Auth.Sessions
import Mokosh.Utils.Text

/-! # The tenant picker

`auth/service.rs`, `db/identity.rs`: an identity with any number of seats.

* `authenticate_identity_first` verifies the password of each seat that `list_views_for_identity` lists, and
  offers those that have verified.  What it returns for the next request is a token with the identity and
  its address.
* `select_tenant_for_identity` opens any tenant that the identity of the token has an active membership in,
  if the user is usable.

**`offers_what_it_opens`**: the token opens the usable tenants that were offered, and no other, if and only
if (`Agrees`) every active membership whose user is usable has verified the password, and every usable
tenant that was offered has an active membership. -/

namespace Mokosh.TenantPicker

open Sessions (UserStatus TokenType second timestamp)

/-! ### Rows -/

structure Identity where
  id : Uuid
  email : String
  passwordHash : Option String
  mfaEnabled : Bool
deriving DecidableEq

structure User where
  id : Uuid
  tenantId : Uuid
  email : String
  passwordHash : Option String
  status : UserStatus
  bunyipUserId : Option Uuid
  deletedAt : Option ℕ
deriving DecidableEq

/-- A row of `tenant_memberships`. -/
structure Membership where
  identityId : Uuid
  tenantId : Uuid
  role : String
  status : UserStatus
  joinedAt : ℕ
deriving DecidableEq

/-- A row of `tenant_membership_entitlements`. -/
structure Entitlement where
  suspended : Bool
  expiresAt : Option ℕ
deriving DecidableEq

structure Tenant where
  id : Uuid
  name : String
  slug : String
  kind : String
  active : Bool
  entitlement : Option Entitlement
deriving DecidableEq

/-- A row of `mokosh_bunyip_grants`. -/
structure Grant where
  id : Uuid
  bunyipGrantId : Option Uuid
  granteeBunyipUserId : Uuid
  granteeEmail : Option String
  mokoshAccountId : String
  role : Option String
  grantedAt : ℕ
  revokedAt : Option ℕ
deriving DecidableEq

structure MembershipView where
  tenantId : Uuid
  tenantName : String
  tenantSlug : String
  tenantKind : String
  role : String
  status : UserStatus
  isActive : Bool
  mokoshBunyipGrantId : Option Uuid
  bunyipGrantId : Option Uuid
deriving DecidableEq

def Membership.seat (m : Membership) : Uuid × Uuid := (m.identityId, m.tenantId)

structure Directory where
  identities : List Identity
  users : List User
  memberships : List Membership
  tenants : Table Tenant.id
  grants : List Grant
  /-- The unique key of `tenant_memberships`. -/
  seats : (memberships.map Membership.seat).Nodup

/-! ### Lookups -/

namespace Directory

variable (d : Directory)

/-- `lower` is the database's. -/
def identityByEmail (lower : String → String) (email : String) : Option Identity :=
  d.identities.find? fun i => lower i.email = lower email

/-- `find_user_by_email_for_tenant`. -/
def userByEmail (tenantId : Uuid) (email : String) : Option User :=
  d.users.find? fun u => u.tenantId = tenantId ∧ u.email = email

/-- `MembershipRepo::find`. -/
def membership (identityId tenantId : Uuid) : Option Membership :=
  d.memberships.find? fun m => m.seat = (identityId, tenantId)

/-- `ensure_tenant_active`. -/
def ensureTenantActive (now : ℕ) (tenantId : Uuid) : AppResult Unit :=
  let inactive := AppError.forbidden "This organization is not active"
  match d.tenants.find tenantId with
  | none => .error inactive
  | some t =>
    if t.active ∧ ¬t.entitlement.any (fun e => e.suspended ∨ e.expiresAt.any (· < now)) then .ok ()
    else .error inactive

def ensurePrincipalUsable (now : ℕ) (u : User) : AppResult Unit :=
  if u.status = .active then d.ensureTenantActive now u.tenantId
  else .error (.forbidden "Account is not active")

/-- The grant is the identity's, as the grantee or by the address. -/
def isGrantee (lower : String → String) (identityId : Uuid) (g : Grant) : Bool :=
  d.identities.any fun i => i.id = identityId ∧
    ((d.users.any fun u => lower i.email = lower u.email ∧ u.deletedAt.isNone ∧
        u.bunyipUserId = some g.granteeBunyipUserId) ∨
      g.granteeEmail.any fun email => lower i.email = lower email)

def grantView (activeTenantId : Option Uuid) (g : Grant) (t : Tenant) : MembershipView :=
  { tenantId := t.id, tenantName := t.name, tenantSlug := t.slug, tenantKind := t.kind,
    role := g.role.getD "", status := .active, isActive := some t.id = activeTenantId,
    mokoshBunyipGrantId := some g.id, bunyipGrantId := g.bunyipGrantId }

def ownerView (activeTenantId : Option Uuid) (m : Membership) (t : Tenant) : MembershipView :=
  { tenantId := t.id, tenantName := t.name, tenantSlug := t.slug, tenantKind := t.kind,
    role := m.role, status := m.status, isActive := some t.id = activeTenantId,
    mokoshBunyipGrantId := none, bunyipGrantId := none }

def grantArm (lower : String → String) (identityId : Uuid) (activeTenantId : Option Uuid) :
    List MembershipView :=
  let grants := d.grants.filter fun g => g.revokedAt.isNone ∧ g.role.isSome ∧ d.isGrantee lower identityId g
  (grants.insertionSort fun g g' => g.grantedAt ≤ g'.grantedAt).flatMap fun g =>
    (d.tenants.rows.filter fun t => t.slug = g.mokoshAccountId).map (grantView activeTenantId g)

def ownerArm (identityId : Uuid) (activeTenantId : Option Uuid) : List MembershipView :=
  let memberships := d.memberships.filter fun m => m.identityId = identityId ∧ m.status = .active
  (memberships.insertionSort fun m m' => m.joinedAt ≤ m'.joinedAt).filterMap fun m =>
    (d.tenants.find m.tenantId).map (ownerView activeTenantId m)

/-- A tenant that is listed already is not listed again. -/
def addView (views : List MembershipView) (v : MembershipView) : List MembershipView :=
  if views.any fun v' => v'.tenantId = v.tenantId then views else views ++ [v]

def listViewsForIdentity (lower : String → String) (identityId : Uuid) (activeTenantId : Option Uuid) :
    List MembershipView :=
  (d.ownerArm identityId activeTenantId).foldl addView (d.grantArm lower identityId activeTenantId)

end Directory

/-! ### Logging in -/

structure LoginRequest where
  email : String
  password : String
  mfaCode : Option String
deriving DecidableEq

structure IdentityToken where
  sub : Uuid
  email : String
  exp : ℕ
  typ : TokenType
deriving DecidableEq

structure ScopedSession where
  tenantId : Uuid
  userId : Uuid
deriving DecidableEq

structure LoginResponse where
  session : Option ScopedSession
  mfaRequired : Bool
  approvalRequired : Bool
  needsSelection : Bool
  needsSetup : Bool
  identityToken : Option IdentityToken
  memberships : Option (List MembershipView)
deriving DecidableEq

def LoginResponse.empty : LoginResponse :=
  { session := none, mfaRequired := false, approvalRequired := false, needsSelection := false,
    needsSetup := false, identityToken := none, memberships := none }

structure AuthService where
  lower : String → String
  /-- Of a password and its hash. -/
  verifyPassword : String → String → Bool
  /-- The check of a second factor's code, which spends it. -/
  verifyMfa : Identity → List Char → AppResult Unit
  /-- `check_login_approval`: whether a code is asked for. -/
  checkLoginApproval : User → AppResult Bool

namespace AuthService

variable (service : AuthService) (d : Directory)

def mintIdentityToken (now : ℕ) (identity : Identity) : IdentityToken :=
  { sub := identity.id, email := identity.email, exp := timestamp (now + 5 * 60 * second), typ := .identity }

def decodeIdentityToken (now : ℕ) (token : IdentityToken) : AppResult (Uuid × String) :=
  if token.typ = .identity ∧ timestamp now ≤ token.exp + 30 then .ok (token.sub, token.email)
  else .error .unauthorized

def mintSessionForUser (u : User) : LoginResponse :=
  { LoginResponse.empty with session := some { tenantId := u.tenantId, userId := u.id } }

def mintSessionForMembership (now : ℕ) (tenantId : Uuid) (email : String) : AppResult LoginResponse := do
  let user ← orError .unauthorized (d.userByEmail tenantId email)
  d.ensurePrincipalUsable now user
  return mintSessionForUser user

/-- The user of a seat, if its password is the one presented. -/
def verifiedUser (identity : Identity) (password : String) (tenantId : Uuid) : Option User :=
  (d.userByEmail tenantId identity.email).filter fun u => u.passwordHash.any (service.verifyPassword password)

def matchedMemberships (identity : Identity) (password : String) : List MembershipView :=
  (d.listViewsForIdentity service.lower identity.id none).filter fun v =>
    (service.verifiedUser d identity password v.tenantId).isSome

def checkPassword (identity : Identity) (password : String) : AppResult Unit :=
  if d.listViewsForIdentity service.lower identity.id none = [] then
    if identity.passwordHash.any (service.verifyPassword password) then .ok () else .error .unauthorized
  else if service.matchedMemberships d identity password = [] then .error .unauthorized
  else .ok ()

/-- Whether a code is asked for. -/
def checkMfa (identity : Identity) (mfaCode : Option String) : AppResult Bool :=
  if identity.mfaEnabled then
    match (mfaCode.map fun code => Text.trim code.toList).filter (· ≠ []) with
    | none => .ok true
    | some code => do
      service.verifyMfa identity code
      return false
  else .ok false

/-- The only seat whose password has verified is opened. -/
def openOnly (now : ℕ) (identity : Identity) (password : String) : AppResult LoginResponse := do
  let views := d.listViewsForIdentity service.lower identity.id none
  let user ← orError (.internal "any_verified_user set when matched_memberships is non-empty")
    (views.findSome? fun v => service.verifiedUser d identity password v.tenantId)
  d.ensurePrincipalUsable now user
  let asked ← service.checkLoginApproval user
  return if asked then { LoginResponse.empty with approvalRequired := true } else mintSessionForUser user

def offer (now : ℕ) (identity : Identity) (password : String) : AppResult LoginResponse :=
  let matched := service.matchedMemberships d identity password
  if d.listViewsForIdentity service.lower identity.id none = [] then
    .ok { LoginResponse.empty with
      needsSetup := true, identityToken := some (mintIdentityToken now identity) }
  else if matched.length = 1 then service.openOnly d now identity password
  else
    .ok { LoginResponse.empty with
      needsSelection := true,
      identityToken := some (mintIdentityToken now identity),
      memberships := some matched }

def authenticateIdentityFirst (now : ℕ) (request : LoginRequest) : AppResult LoginResponse := do
  let identity ← orError .unauthorized (d.identityByEmail service.lower request.email)
  service.checkPassword d identity request.password
  let asked ← service.checkMfa identity request.mfaCode
  if asked then return { LoginResponse.empty with mfaRequired := true }
  service.offer d now identity request.password

def selectTenantForIdentity (now : ℕ) (token : IdentityToken) (tenantId : Uuid) :
    AppResult LoginResponse := do
  let claims ← decodeIdentityToken now token
  let membership ← orError (.notFound "Membership in this tenant") (d.membership claims.1 tenantId)
  if membership.status = .active then mintSessionForMembership d now tenantId claims.2
  else throw (.notFound "Membership is not active")

end AuthService

/-! ### What a token opens -/

namespace Directory

variable (d : Directory)

/-- The identity has an active membership in the tenant. -/
def HasSeat (identityId tenantId : Uuid) : Prop :=
  ∃ m ∈ d.memberships, m.seat = (identityId, tenantId) ∧ m.status = .active

/-- The user of the seat may sign in. -/
def Usable (now : ℕ) (email : String) (tenantId : Uuid) : Prop :=
  ∃ u, d.userByEmail tenantId email = some u ∧ d.ensurePrincipalUsable now u = .ok ()

/-- The token gets a session in the tenant. -/
def Opens (now : ℕ) (token : IdentityToken) (tenantId : Uuid) : Prop :=
  ∃ response, AuthService.selectTenantForIdentity d now token tenantId = .ok response ∧
    ∃ s ∈ response.session, s.tenantId = tenantId

variable {d} {now : ℕ} {identityId tenantId : Uuid} {email : String} {u : User}

theorem membership_eq_some {m : Membership} :
    d.membership identityId tenantId = some m ↔ m ∈ d.memberships ∧ m.seat = (identityId, tenantId) := by
  constructor
  · intro h
    have hseat := List.find?_some h
    exact ⟨List.mem_of_find?_eq_some h, of_decide_eq_true hseat⟩
  · rintro ⟨hm, hseat⟩
    unfold membership
    cases hf : d.memberships.find? fun m => m.seat = (identityId, tenantId) with
    | none =>
        have hno := List.find?_eq_none.mp hf m hm
        exact absurd hseat (by simpa using hno)
    | some m' =>
        have hfound := List.find?_some hf
        have hsame : m'.seat = m.seat := (of_decide_eq_true hfound).trans hseat.symm
        rw [List.inj_on_of_nodup_map d.seats (List.mem_of_find?_eq_some hf) hm hsame]

theorem hasSeat_iff : d.HasSeat identityId tenantId ↔
    ∃ m, d.membership identityId tenantId = some m ∧ m.status = .active := by
  constructor
  · rintro ⟨m, hm, hseat, hactive⟩
    exact ⟨m, membership_eq_some.mpr ⟨hm, hseat⟩, hactive⟩
  · rintro ⟨m, hf, hactive⟩
    obtain ⟨hm, hseat⟩ := membership_eq_some.mp hf
    exact ⟨m, hm, hseat, hactive⟩

theorem tenantId_of_userByEmail (h : d.userByEmail tenantId email = some u) : u.tenantId = tenantId := by
  have hu := List.find?_some h
  exact (of_decide_eq_true hu).1

/-- The tenant of a usable user is there. -/
theorem Usable.exists_tenant (h : d.Usable now email tenantId) : ∃ t, d.tenants.find tenantId = some t := by
  obtain ⟨u, hu, husable⟩ := h
  rw [← tenantId_of_userByEmail hu]
  unfold ensurePrincipalUsable ensureTenantActive at husable
  cases hf : d.tenants.find u.tenantId with
  | some t => exact ⟨t, rfl⟩
  | none =>
      rw [hf] at husable
      split at husable <;> cases husable

theorem mintSessionForMembership_eq_ok {response : LoginResponse} :
    AuthService.mintSessionForMembership d now tenantId email = .ok response ↔
      ∃ u, d.userByEmail tenantId email = some u ∧ d.ensurePrincipalUsable now u = .ok () ∧
        response = AuthService.mintSessionForUser u := by
  unfold AuthService.mintSessionForMembership
  simp only [bind_eq_ok, orError_eq_ok]
  constructor
  · rintro ⟨u, hu, _, husable, h⟩
    cases h
    exact ⟨u, hu, husable, rfl⟩
  · rintro ⟨u, hu, husable, rfl⟩
    exact ⟨u, hu, (), husable, rfl⟩

/-- A live token opens the usable tenants with an active membership. -/
theorem opens_iff {token : IdentityToken} (htyp : token.typ = .identity)
    (hlive : timestamp now ≤ token.exp + 30) :
    d.Opens now token tenantId ↔ d.HasSeat token.sub tenantId ∧ d.Usable now token.email tenantId := by
  have hdecode : AuthService.decodeIdentityToken now token = .ok (token.sub, token.email) :=
    if_pos ⟨htyp, hlive⟩
  rw [hasSeat_iff]
  unfold Opens AuthService.selectTenantForIdentity
  rw [hdecode]
  constructor
  · rintro ⟨response, hselect, -⟩
    obtain ⟨claims, hclaims, hselect⟩ := bind_eq_ok.mp hselect
    cases hclaims
    obtain ⟨m, hm, hselect⟩ := bind_eq_ok.mp hselect
    split at hselect
    · next hactive =>
      obtain ⟨u, hu, husable, -⟩ := mintSessionForMembership_eq_ok.mp hselect
      exact ⟨⟨m, orError_eq_ok.mp hm, hactive⟩, u, hu, husable⟩
    · cases hselect
  · rintro ⟨⟨m, hm, hactive⟩, u, hu, husable⟩
    refine ⟨AuthService.mintSessionForUser u, ?_, _, rfl, tenantId_of_userByEmail hu⟩
    refine bind_eq_ok.mpr ⟨_, rfl, bind_eq_ok.mpr ⟨m, orError_eq_ok.mpr hm, ?_⟩⟩
    rw [if_pos hactive]
    exact mintSessionForMembership_eq_ok.mpr ⟨u, hu, husable, rfl⟩

/-! ### What is listed -/

theorem mem_addView {views : List MembershipView} {v w : MembershipView} (h : w ∈ views) :
    w ∈ addView views v := by
  unfold addView
  split
  · exact h
  · exact List.mem_append_left _ h

/-- A tenant that is listed stays listed, and the tenant of each view that is added is listed. -/
theorem listed_foldl {vs views : List MembershipView}
    (h : (∃ v ∈ views, v.tenantId = tenantId) ∨ ∃ v ∈ vs, v.tenantId = tenantId) :
    ∃ v ∈ vs.foldl addView views, v.tenantId = tenantId := by
  induction vs generalizing views with
  | nil => exact h.resolve_right fun ⟨v, hv, _⟩ => List.not_mem_nil hv
  | cons v vs ih =>
      refine ih ?_
      obtain ⟨w, hw, hid⟩ | ⟨w, hw, hid⟩ := h
      · exact .inl ⟨w, mem_addView hw, hid⟩
      · obtain rfl | hw := List.mem_cons.mp hw
        · refine .inl ?_
          unfold addView
          split
          · next hlisted =>
            obtain ⟨v', hv', hsame⟩ := List.any_eq_true.mp hlisted
            exact ⟨v', hv', (of_decide_eq_true hsame).trans hid⟩
          · exact ⟨w, List.mem_append_right _ List.mem_cons_self, hid⟩
        · exact .inr ⟨w, hw, hid⟩

theorem listed_of_hasSeat (h : d.HasSeat identityId tenantId) {t : Tenant}
    (ht : d.tenants.find tenantId = some t) (lower : String → String) (activeTenantId : Option Uuid) :
    ∃ v ∈ d.listViewsForIdentity lower identityId activeTenantId, v.tenantId = tenantId := by
  obtain ⟨m, hm, hseat, hactive⟩ := h
  obtain ⟨rfl, rfl⟩ := Prod.mk.inj hseat
  have hid := Table.key_of_find ht
  refine listed_foldl (.inr ⟨ownerView activeTenantId m t, ?_, hid⟩)
  refine List.mem_filterMap.mpr ⟨m, (List.mem_insertionSort _).mpr (List.mem_filter.mpr ⟨hm, ?_⟩), ?_⟩
  · simp [hactive]
  · rw [ht]
    rfl

end Directory

/-! ### What is offered -/

def LoginResponse.Offers (response : LoginResponse) (tenantId : Uuid) : Prop :=
  ∃ v ∈ response.memberships.getD [], v.tenantId = tenantId

namespace AuthService

variable {service : AuthService} {d : Directory} {now : ℕ} {identity : Identity} {password : String}
  {response : LoginResponse} {token : IdentityToken}

theorem identityToken_openOnly (h : service.openOnly d now identity password = .ok response) :
    response.identityToken = none := by
  unfold openOnly at h
  obtain ⟨u, -, h⟩ := bind_eq_ok.mp h
  obtain ⟨-, -, h⟩ := bind_eq_ok.mp h
  obtain ⟨asked, -, h⟩ := bind_eq_ok.mp h
  cases h
  split <;> rfl

/-- With a token the seats that have verified are offered. -/
theorem offer_cases (h : service.offer d now identity password = .ok response)
    (ht : response.identityToken = some token) :
    token = mintIdentityToken now identity ∧
      response.memberships.getD [] = service.matchedMemberships d identity password := by
  unfold offer at h
  dsimp only at h
  split at h
  · next hnone =>
    cases h
    refine ⟨(Option.some.inj ht).symm, ?_⟩
    unfold matchedMemberships
    rw [hnone]
    rfl
  · split at h
    · rw [identityToken_openOnly h] at ht
      cases ht
    · cases h
      exact ⟨(Option.some.inj ht).symm, rfl⟩

theorem authenticate_cases {request : LoginRequest}
    (hi : d.identityByEmail service.lower request.email = some identity)
    (h : service.authenticateIdentityFirst d now request = .ok response)
    (ht : response.identityToken = some token) :
    token = mintIdentityToken now identity ∧
      response.memberships.getD [] = service.matchedMemberships d identity request.password := by
  unfold authenticateIdentityFirst at h
  obtain ⟨identity', hi', h⟩ := bind_eq_ok.mp h
  cases hi.symm.trans (orError_eq_ok.mp hi')
  obtain ⟨-, -, h⟩ := bind_eq_ok.mp h
  obtain ⟨asked, -, h⟩ := bind_eq_ok.mp h
  split at h
  · cases h
    cases ht
  · exact offer_cases h ht

end AuthService

/-- The active memberships whose user is usable have verified the password, and what was offered and is
usable is an active membership. -/
structure Agrees (service : AuthService) (d : Directory) (now : ℕ) (identity : Identity)
    (password : String) : Prop where
  verified : ∀ m ∈ d.memberships, m.identityId = identity.id → m.status = .active →
    d.Usable now identity.email m.tenantId →
    (service.verifiedUser d identity password m.tenantId).isSome = true
  seated : ∀ v ∈ service.matchedMemberships d identity password, d.Usable now identity.email v.tenantId →
    d.HasSeat identity.id v.tenantId

theorem offers_what_it_opens {service : AuthService} {d : Directory} {now now' : ℕ}
    {request : LoginRequest} {identity : Identity} {response : LoginResponse} {token : IdentityToken}
    (hi : d.identityByEmail service.lower request.email = some identity)
    (h : service.authenticateIdentityFirst d now request = .ok response)
    (ht : response.identityToken = some token) (hlive : timestamp now' ≤ token.exp + 30) :
    (∀ tenantId, d.Opens now' token tenantId ↔
      response.Offers tenantId ∧ d.Usable now' identity.email tenantId) ↔
    Agrees service d now' identity request.password := by
  obtain ⟨rfl, hoffered⟩ := AuthService.authenticate_cases hi h ht
  have hopens : ∀ tenantId, d.Opens now' (AuthService.mintIdentityToken now identity) tenantId ↔
      d.HasSeat identity.id tenantId ∧ d.Usable now' identity.email tenantId :=
    fun _ => Directory.opens_iff rfl hlive
  unfold LoginResponse.Offers
  rw [hoffered]
  constructor
  · intro hagrees
    refine ⟨fun m hm hid hactive husable => ?_, fun v hv husable => ?_⟩
    · have hseat : d.HasSeat identity.id m.tenantId := ⟨m, hm, by rw [← hid]; rfl, hactive⟩
      obtain ⟨⟨v, hv, hsame⟩, -⟩ := (hagrees _).mp ((hopens _).mpr ⟨hseat, husable⟩)
      rw [← hsame]
      exact (List.mem_filter.mp hv).2
    · exact ((hopens _).mp ((hagrees _).mpr ⟨⟨v, hv, rfl⟩, husable⟩)).1
  · intro hagrees tenantId
    rw [hopens]
    refine and_congr_left fun husable => ⟨fun hseat => ?_, ?_⟩
    · obtain ⟨t, htenant⟩ := husable.exists_tenant
      obtain ⟨v, hv, rfl⟩ := Directory.listed_of_hasSeat hseat htenant service.lower none
      obtain ⟨m, hm, hmseat, hactive⟩ := hseat
      obtain ⟨hid, hsame⟩ := Prod.mk.inj hmseat
      refine ⟨v, List.mem_filter.mpr ⟨hv, ?_⟩, rfl⟩
      rw [← hsame] at husable ⊢
      exact hagrees.verified m hm hid hactive husable
    · rintro ⟨v, hv, rfl⟩
      exact hagrees.seated v hv husable

/-! ### Three seats -/

instance (d : Directory) (identityId tenantId : Uuid) : Decidable (d.HasSeat identityId tenantId) :=
  inferInstanceAs (Decidable (∃ m ∈ d.memberships, m.seat = (identityId, tenantId) ∧ m.status = .active))

instance (response : LoginResponse) (tenantId : Uuid) : Decidable (response.Offers tenantId) :=
  inferInstanceAs (Decidable (∃ v ∈ response.memberships.getD [], v.tenantId = tenantId))

def human : Identity :=
  { id := 7, email := "user@example.com", passwordHash := none, mfaEnabled := false }

def seatUser (tenantId : Uuid) (hash : String) : User :=
  { id := tenantId, tenantId := tenantId, email := "user@example.com", passwordHash := some hash,
    status := .active, bunyipUserId := none, deletedAt := none }

def seat (tenantId : Uuid) : Membership :=
  { identityId := 7, tenantId := tenantId, role := "technician", status := .active, joinedAt := tenantId }

def tenant (id : Uuid) : Tenant :=
  { id := id, name := "Client", slug := "client-" ++ toString id, kind := "client", active := true, entitlement := none }

theorem tenant_id (id : Uuid) : (tenant id).id = id := rfl

theorem seat_nodup : ([seat 0, seat 1, seat 2].map Membership.seat).Nodup := by decide

/-- The passwords of two seats are `winter`, and that of the third is another one's. -/
def threeSeats (hash : String) : Directory :=
  { identities := [human],
    users := [seatUser 0 Sessions.winterHash, seatUser 1 Sessions.winterHash, seatUser 2 hash],
    memberships := [seat 0, seat 1, seat 2],
    tenants := (((∅ : Table Tenant.id).insert tenant tenant_id).insert tenant tenant_id).insert tenant
      tenant_id,
    grants := [],
    seats := seat_nodup }

/-- The addresses are in lower case, and nothing is asked for but the password. -/
def plain : AuthService :=
  { lower := fun email => email, verifyPassword := Sessions.standalone.verifyPassword,
    verifyMfa := fun _ _ => .ok (), checkLoginApproval := fun _ => .ok false }

def winter : LoginRequest := { email := "user@example.com", password := "winter", mfaCode := none }

def picker (hash : String) : LoginResponse :=
  { LoginResponse.empty with
    needsSelection := true,
    identityToken := some (AuthService.mintIdentityToken 0 human),
    memberships := some (plain.matchedMemberships (threeSeats hash) human "winter") }

theorem offers_what_it_opens_onePassword :
    plain.authenticateIdentityFirst (threeSeats Sessions.winterHash) 0 winter =
        .ok (picker Sessions.winterHash) ∧
      ∀ tenantId,
        (threeSeats Sessions.winterHash).Opens 0 (AuthService.mintIdentityToken 0 human) tenantId ↔
          (picker Sessions.winterHash).Offers tenantId ∧
            (threeSeats Sessions.winterHash).Usable 0 human.email tenantId := by
  have h : plain.authenticateIdentityFirst (threeSeats Sessions.winterHash) 0 winter =
      .ok (picker Sessions.winterHash) := by
    decide +kernel
  refine ⟨h, (offers_what_it_opens (by decide +kernel) h rfl (by decide)).mpr ⟨?_, ?_⟩⟩
  · have hall : ∀ m ∈ (threeSeats Sessions.winterHash).memberships,
        (plain.verifiedUser (threeSeats Sessions.winterHash) human "winter" m.tenantId).isSome = true := by
      decide +kernel
    exact fun m hm _ _ _ => hall m hm
  · have hall : ∀ v ∈ plain.matchedMemberships (threeSeats Sessions.winterHash) human "winter",
        (threeSeats Sessions.winterHash).HasSeat human.id v.tenantId := by
      decide +kernel
    exact fun v hv _ => hall v hv

/-- The picker offers two tenants, and its token opens the third. -/
theorem opens_more :
    plain.authenticateIdentityFirst (threeSeats Sessions.springHash) 0 winter =
        .ok (picker Sessions.springHash) ∧
      ¬∀ tenantId,
        (threeSeats Sessions.springHash).Opens 0 (AuthService.mintIdentityToken 0 human) tenantId ↔
          (picker Sessions.springHash).Offers tenantId ∧
            (threeSeats Sessions.springHash).Usable 0 human.email tenantId := by
  refine ⟨by decide +kernel, fun h => ?_⟩
  have hopens : (threeSeats Sessions.springHash).Opens 0 (AuthService.mintIdentityToken 0 human) 2 :=
    ⟨AuthService.mintSessionForUser (seatUser 2 Sessions.springHash), by decide +kernel, _, rfl, rfl⟩
  exact absurd ((h 2).mp hopens).1 (by decide +kernel)

end Mokosh.TenantPicker
