import Mokosh.Auth.Placement

/-! # Callers with a token of Bunyip

`auth/middleware.rs`: from a verified token to an authenticated request, or a refusal.  `resolve_bunyip_caller`
decides from what is stored whether `/oauth2/userinfo` is needed; `place_bunyip_caller` places an owner, and
`place_grantee_caller` the holder of a grant.  Each is a program that makes the statements of `Placement`. -/

namespace Mokosh.Placement

open Grants (UserRole mapGrantRole)
open Identities (PlaceGranteeRequest isUnresolvedPlaceholderEmail nameHint unresolvedEmailDomain)

/-! ### Tokens and outcomes -/

/-- `AtClaims`, as far as the placement reads them. -/
structure AtClaims where
  sub : String
  bunyipRole : Option String
  givenName : Option String
  familyName : Option String
  mokoshGrantAccountId : Option String
  mokoshGrantRole : Option String
deriving DecidableEq

structure CurrentUser where
  id : Uuid
  tenantId : Uuid
  email : String
  firstName : String
  lastName : String
  role : UserRole
  timezone : String
  avatarUrl : Option String
  profileCompleted : Bool
  dateFormatString : Option String
  themeBaseMode : Option String
  themeAccentId : Option String
  ownCompanyId : Option Uuid
  tenantKind : String
deriving DecidableEq

def User.toCurrentUser (u : User) : CurrentUser :=
  { id := u.id, tenantId := u.tenantId, email := u.email, firstName := u.profile.firstName,
    lastName := u.profile.lastName, role := u.role, timezone := u.profile.timezone,
    avatarUrl := u.profile.avatarUrl, profileCompleted := u.profileCompletedAt.isSome,
    dateFormatString := u.preferences.dateFormatString, themeBaseMode := u.preferences.themeBaseMode,
    themeAccentId := u.preferences.themeAccentId, ownCompanyId := u.ownCompanyId, tenantKind := u.tenantKind }

/-- `AuthState::authenticated`. -/
structure AuthState where
  user : CurrentUser
  tenantId : Uuid
deriving DecidableEq

/-- What the request is authenticated as, and why it is refused if that is known. -/
abbrev Outcome := Option AuthState × Option AppError

def authenticated (u : User) : Outcome := (some { user := u.toCurrentUser, tenantId := u.tenantId }, none)

/-- Which services are wired, and the flags. -/
structure Settings where
  texts : Texts
  tenants : Bool
  invitations : Bool
  defaultTenantId : Uuid
  allowUninvitedSignup : Bool

/-- What a token or the userinfo says of the person. -/
structure Hints where
  email : Option String
  emailVerified : Bool
  givenName : Option String
  familyName : Option String
deriving DecidableEq

namespace Hints

/-- Without userinfo. -/
def ofClaims (claims : AtClaims) : Hints :=
  { email := none, emailVerified := false, givenName := claims.givenName, familyName := claims.familyName }

def absent : Hints := { email := none, emailVerified := false, givenName := none, familyName := none }

/-- The userinfo is dropped if it is of another subject. -/
def ofUserinfo (claims : AtClaims) (info : Option Userinfo) : Hints :=
  let info := info.filter fun i => i.sub = claims.sub
  { email := info.bind Userinfo.email
    emailVerified := (info.bind Userinfo.emailVerified).getD false
    givenName := info.bind Userinfo.givenName
    familyName := info.bind Userinfo.familyName }

def verifiedEmail (hints : Hints) : Option String := if hints.emailVerified then hints.email else none

end Hints

inductive UserinfoDecision where
  | needed
  | readFailed
  | rejected (e : AppError)
  | skip (principal : BunyipPrincipal)
deriving DecidableEq

/-! ### Checks -/

abbrev Prog := Dialogue Reply

def ask (s : Statement) : Prog (Reply s) := .request s

def notActive : AppError := .forbidden "Access to this organization is not active"

/-- `is_grant_active`. -/
def isGrantActive (r : Read) (key : Uuid × String) : Prog (AppResult Bool) := do
  let cached : Option Bool ← ask (.cachedGrant key)
  match cached with
  | some active => return .ok active
  | none =>
    let row : AppResult (Option Bool) ← ask (.selectGrant r key)
    match row with
    | .error e => return .error e
    | .ok none => return .ok false
    | .ok (some active) =>
      let _ : Unit ← ask (.cacheGrant key active)
      return .ok active

/-- `ensure_grant_still_active_if_claimed`. -/
def ensureGrantStillActiveIfClaimed (r : Read) (sub : Uuid) (claims : AtClaims) : Prog (AppResult Unit) :=
  match claims.mokoshGrantAccountId with
  | none => return .ok ()
  | some accountId => do
    let active ← isGrantActive r (sub, accountId)
    return active.bind fun active => if active then .ok () else .error notActive

/-- `ensure_principal_usable`. -/
def ensurePrincipalUsable (r : Read) (user : User) : Prog (AppResult Unit) :=
  if user.status = .active then ask (.ensureTenantActive r user.tenantId)
  else return .error (.forbidden "Account is not active")

def isStuckInDefault (settings : Settings) (placement : Option (Uuid × UserRole)) (hasInvite : Bool) : Bool :=
  placement.any fun p => p.1 = settings.defaultTenantId ∧ ¬hasInvite ∧ p.2 ≠ .superAdmin

/-! ### From what is stored -/

def resolveGranteeCaller (sub : Uuid) (targetSlug : String) (claims : AtClaims) : Prog UserinfoDecision := do
  match ← ensureGrantStillActiveIfClaimed .resolveGrant sub claims with
  | .error e => return .rejected e
  | .ok () =>
    let target : AppResult (Option Uuid) ← ask (.resolveTenantSlugOpt .resolveSlug targetSlug)
    match target with
    | .error _ => return .needed
    | .ok none => return .rejected notActive
    | .ok (some target) =>
      let found : AppResult (Option BunyipPrincipal) ← ask (.findBunyipPrincipalInTenant .resolvePrincipal sub target)
      match found with
      | .error _ | .ok none => return .needed
      | .ok (some principal) =>
        match ← ensurePrincipalUsable .resolveGate principal.user with
        | .error e => return .rejected e
        | .ok () =>
          return if isUnresolvedPlaceholderEmail principal.user.email then .needed else .skip principal

def resolveBunyipCaller (settings : Settings) (sub : Uuid) (claims : AtClaims) : Prog UserinfoDecision :=
  match claims.mokoshGrantAccountId with
  | some targetSlug => resolveGranteeCaller sub targetSlug claims
  | none => do
    let found : AppResult (Option BunyipPrincipal) ← ask (.findBunyipPrincipal sub)
    match found with
    | .error _ => return .readFailed
    | .ok none => return .needed
    | .ok (some principal) =>
      match ← ensurePrincipalUsable .resolveGate principal.user with
      | .error e => return .rejected e
      | .ok () =>
        match ← ensureGrantStillActiveIfClaimed .resolveGrant sub claims with
        | .error e => return .rejected e
        | .ok () =>
          return if isStuckInDefault settings (some principal.placement) false
              ∨ isUnresolvedPlaceholderEmail principal.user.email
              ∨ settings.invitations ∧ principal.hasPendingInvite then .needed
            else .skip principal

/-! ### Grantees -/

section Grantee

variable (sub : Uuid) (hints : Hints) (claims : AtClaims)

/-- `place_grantee_user`. -/
def placeGranteeUser (r : PlaceGranteeRequest) : Prog (AppResult User) := do
  let written : AppResult Unit ← ask (.placeGrantee r)
  match written with
  | .error e => return .error e
  | .ok () =>
    let found : AppResult (Option BunyipPrincipal) ←
      ask (.findBunyipPrincipalInTenant .placedPrincipal r.bunyipUserId r.tenantId)
    return found.bind fun found => (orError (.notFound "User") found).map BunyipPrincipal.user

/-- A grantee without a row in the tenant. -/
def provisionGrantee (target : Uuid) (grantRole : UserRole) : Prog Outcome := do
  match hints.verifiedEmail.filter fun em => Text.trim em.toList ≠ [] with
  | none => return (none, some (.forbidden ("Couldn't confirm your identity for this shared account. Contact the " ++
      "account owner or support with the time of this attempt so they can check the server log.")))
  | some addr =>
    let placed ← placeGranteeUser
      { bunyipUserId := sub, tenantId := target, role := grantRole, email := addr,
        givenNameHint := hints.givenName, familyNameHint := hints.familyName, emailVerified := hints.emailVerified }
    match placed with
    | .ok user => return authenticated user
    | .error _ => return (none, some (.forbidden ("Couldn't place you in this shared account. Try switching again " ++
        "in a moment; if it keeps failing, ask the account owner to re-share it with you.")))

/-- The role of the row becomes `role`, for this request in any case. -/
def assumeRole (user : User) (role : UserRole) : Prog User := do
  if user.role ≠ role then
    let _ : AppResult Unit ← ask (.setUserRole user.tenantId user.id role)
    return { user with role := role }
  else return user

def placeGranteeCaller : Prog Outcome := do
  match ← ensureGrantStillActiveIfClaimed .placeGrant sub claims with
  | .error e => return (none, some e)
  | .ok () =>
    match claims.mokoshGrantAccountId with
    | none => return (none, none)
    | some targetSlug =>
      let target : AppResult (Option Uuid) ← ask (.resolveTenantSlugOpt .placeSlug targetSlug)
      match target with
      | .error _ | .ok none => return (none, some notActive)
      | .ok (some target) =>
        match mapGrantRole (claims.mokoshGrantRole.getD "") with
        | none => return (none, some notActive)
        | some grantRole =>
          let found : AppResult (Option BunyipPrincipal) ←
            ask (.findBunyipPrincipalInTenant .placePrincipal sub target)
          match found with
          | .error _ | .ok none => provisionGrantee sub hints target grantRole
          | .ok (some principal) =>
            match ← ensurePrincipalUsable .placeGate principal.user with
            | .error e => return (none, some e)
            | .ok () => return authenticated (← assumeRole principal.user grantRole)

end Grantee

/-! ### Owners -/

section Owner

variable (settings : Settings) (sub : Uuid) (hints : Hints) (claims : AtClaims)

/-- `ensure_personal_tenant`. -/
def ensurePersonalTenant : Prog (AppResult Uuid) := do
  let owned : AppResult (Option Uuid) ← ask (.personalTenantForOwner .personalTenant sub)
  match owned with
  | .error e => return .error e
  | .ok (some id) => return .ok id
  | .ok none =>
    let inserted : AppResult (Option Uuid) ← ask (.insertPersonalTenant sub)
    match inserted with
    | .error e => return .error e
    | .ok (some id) =>
      let seeded : AppResult Unit ← ask (.seedTenant id)
      return seeded.map fun _ => id
    | .ok none =>
      let owned : AppResult (Option Uuid) ← ask (.personalTenantForOwner .personalTenantAgain sub)
      return owned.bind (orError (.internal "personal tenant missing after insert conflict"))

/-- A write to a row of `users`, and the row after it. -/
def reread (write : Prog (AppResult Unit)) (r : Read) (tenantId userId : Uuid) : Prog (AppResult User) := do
  match ← write with
  | .error e => return .error e
  | .ok () => ask (.getUserById r tenantId userId)

def upsertUserFromOidc (r : OidcUser) : Prog (AppResult User) :=
  reread (ask (.upsertUser r)) .upserted r.tenantId r.sub

def repairPlaceholderEmail (tenantId userId : Uuid) (email : String) : Prog (AppResult User) :=
  reread (ask (.repairEmail tenantId userId email)) .repaired tenantId userId

def refreshNamesFromOidc (tenantId userId : Uuid) (first last : Option String) : Prog (AppResult User) :=
  reread (ask (.refreshNames tenantId userId first last)) .refreshed tenantId userId

def currentPlacement (resolved : Option BunyipPrincipal) : Prog (Option (Uuid × UserRole)) :=
  match resolved with
  | some principal => return some principal.placement
  | none => do
    let placement : AppResult (Option (Uuid × UserRole)) ← ask (.findUserPlacement sub)
    return placement.toOption.join

def consumableInvite : Prog (Option PendingInvite) :=
  match hints.verifiedEmail with
  | some em => if settings.invitations then do
      let invite : AppResult (Option PendingInvite) ← ask (.newestPendingFor em)
      return invite.toOption.join
    else return none
  | none => return none

/-- Nobody is placed on first sight without an invitation, but the platform's admin. -/
def onboards (placement : Option (Uuid × UserRole)) (invite : Option PendingInvite) : Bool :=
  placement.isSome ∨ invite.isSome ∨ claims.bunyipRole = some "admin" ∨
    settings.allowUninvitedSignup ∧ hints.emailVerified

/-- The tenant that the caller belongs in. -/
def targetTenant (placement : Option (Uuid × UserRole)) (invite : Option PendingInvite) : Prog (Option Uuid) :=
  match invite, placement.filter fun _ => ¬isStuckInDefault settings placement invite.isSome with
  | some invite, _ => return some invite.tenantId
  | none, some current => return some current.1
  | none, none => if settings.tenants then do return (← ensurePersonalTenant sub).toOption
    else return some settings.defaultTenantId

def rehome (placement : Option (Uuid × UserRole)) (target : Uuid) : Prog Unit := do
  match placement.filter fun p => p.1 ≠ target with
  | some current =>
    let _ : AppResult Unit ← ask (.rehomeUser sub current.1 target)
    return ()
  | none => return ()

/-- The address that a row is inserted with. -/
def emailForInsert : String :=
  hints.verifiedEmail.getD (settings.texts.hyphenated sub ++ "@" ++ unresolvedEmailDomain)

def oidcUser (target : Uuid) (initialRole : UserRole) : OidcUser :=
  { sub := sub, tenantId := target, email := emailForInsert settings sub hints, role := initialRole,
    givenNameHint := hints.givenName, familyNameHint := hints.familyName, emailVerified := hints.emailVerified }

def loadUser (resolved : Option BunyipPrincipal) (target : Uuid) (initialRole : UserRole) : Prog (Option User) :=
  match resolved.filter fun principal => principal.user.tenantId = target with
  | some principal => return some principal.user
  | none => do
    let found : AppResult User ← ask (.getUserById .user target sub)
    match found with
    | .ok user => return some user
    | .error _ =>
      return (← upsertUserFromOidc (oidcUser settings sub hints target initialRole)).toOption

/-- A placeholder gives way to a verified address. -/
def healPlaceholder (user : User) : Prog User :=
  match hints.verifiedEmail.filter fun _ => isUnresolvedPlaceholderEmail user.email with
  | some em => do return (← repairPlaceholderEmail user.tenantId user.id em).toOption.getD user
  | none => return user

def namesDrifted (u : UserRow) : Bool :=
  (nameHint hints.givenName).any (· ≠ u.profile.firstName) ∨ (nameHint hints.familyName).any (· ≠ u.profile.lastName)

def refreshDrifted (user : User) : Prog User := do
  if namesDrifted hints user.toUserRow then
    let refreshed ← refreshNamesFromOidc user.tenantId user.id (nameHint hints.givenName) (nameHint hints.familyName)
    return refreshed.toOption.getD user
  else return user

/-- The gate of a caller that was not resolved before. -/
def lateGate (resolved : Option BunyipPrincipal) (user : User) : Prog (AppResult Unit) :=
  if resolved.isSome then return .ok () else ensurePrincipalUsable .lateGate user

def acceptConsumed (invite : Option PendingInvite) : Prog Unit :=
  match invite with
  | some invite => do
    let _ : AppResult Unit ← ask (.acceptInvite invite sub)
    return ()
  | none => return ()

def effectiveRoleFromBunyip (role : UserRole) : UserRole := claims.bunyipRole.elim role fun _ => .admin

/-- The caller has a row: it is brought up to date, and let in if the gate does. -/
def admitCaller (resolved : Option BunyipPrincipal) (invite : Option PendingInvite) (user : User) : Prog Outcome := do
  let user ← healPlaceholder hints user
  let user ← refreshDrifted hints user
  match ← lateGate resolved user with
  | .error e => return (none, some e)
  | .ok () =>
    acceptConsumed sub invite
    return authenticated (← assumeRole user (effectiveRoleFromBunyip claims user.role))

/-- The caller, once it is in the tenant. -/
def settleIn (resolved : Option BunyipPrincipal) (invite : Option PendingInvite) (target : Uuid) : Prog Outcome := do
  match ← loadUser settings sub hints resolved target ((invite.map PendingInvite.role).getD .admin) with
  | none => return (none, none)
  | some user => admitCaller sub hints claims resolved invite user

/-- The caller is moved into the tenant. -/
def enterTenant (resolved : Option BunyipPrincipal) (placement : Option (Uuid × UserRole))
    (invite : Option PendingInvite) (target : Uuid) : Prog Outcome := do
  rehome sub placement target
  settleIn settings sub hints claims resolved invite target

def placeBunyipCaller (resolved : Option BunyipPrincipal) : Prog Outcome := do
  let placement ← currentPlacement sub resolved
  let invite ← consumableInvite settings hints
  if onboards settings hints claims placement invite then
    match ← targetTenant settings sub placement invite with
    | none => return (none, none)
    | some target => enterTenant settings sub hints claims resolved placement invite target
  else return (none, none)

end Owner

/-! ### The whole request -/

section Request

variable (settings : Settings) (sub : Uuid) (claims : AtClaims)

def placeBunyipUserWithRejection (hints : Hints) : Prog Outcome :=
  if claims.mokoshGrantAccountId.isSome then placeGranteeCaller sub hints claims
  else placeBunyipCaller settings sub hints claims none

/-- `place_bunyip_user_from_local_state`, which has no outcome where it needs the userinfo. -/
def placeBunyipUserFromLocalState : Prog (Option Outcome) := do
  match ← resolveBunyipCaller settings sub claims with
  | .needed => return none
  | .rejected e => return some (none, some e)
  | .readFailed => return some (← placeBunyipCaller settings sub (.ofClaims claims) claims none)
  | .skip principal =>
    if claims.mokoshGrantAccountId.isSome then return some (← placeGranteeCaller sub .absent claims)
    else return some (← placeBunyipCaller settings sub (.ofClaims claims) claims (some principal))

def placeWithUserinfo : Prog Outcome := do
  let info : Option Userinfo ← ask .userinfo
  placeBunyipUserWithRejection settings sub claims (.ofUserinfo claims info)

def ensureUserFromBunyip : Prog Outcome := do
  match ← placeBunyipUserFromLocalState settings sub claims with
  | some outcome => return outcome
  | none => placeWithUserinfo settings sub claims

end Request

end Mokosh.Placement
