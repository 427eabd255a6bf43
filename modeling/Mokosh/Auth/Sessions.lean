import Mokosh.Lib.Requests
import Mokosh.Lib.Table
import Mokosh.Types

/-! # Passwords and sessions

`auth/service.rs`, for the users of one tenant: logging in, `refresh_token`, the check of an access token
(`ensure_user_and_tenant_active`), logging out, changing and resetting a password, and the two writers of
`users.status`, `create_user` and `update_user`.

* The clock counts microseconds; `iat`, `exp` and the cutoff that a password change sets count whole seconds.
* A transaction is seen when it commits.  What its `DELETE` of sessions removes, and its `UPDATE` of reset
  tokens marks, are the rows that the statement saw.  An `UPDATE` of a user locks the row until then.
* Whether the tenant is active, whether the second factor and the approval of a suspicious login let pass,
  and what is generated and hashed, are answers from outside.
* The store keeps a history: how often a password was set and a user was logged out everywhere, who was
  last set to inactive by `update_user`, which sessions let requests in, who logged in, and which tokens set
  a password. -/

namespace Mokosh.Sessions

open Requests (Handlers World Event Rule)

/-! ### Rows -/

inductive UserStatus where
  | active
  | inactive
  | pending
deriving DecidableEq

structure User where
  id : Uuid
  email : String
  passwordHash : Option String
  status : UserStatus
  passwordChangedAt : Option ℕ
deriving DecidableEq

/-- A row of `user_sessions`.  The history: how often the user's password had been set when the login read
it, and how often the user had been logged out everywhere when the row was inserted. -/
structure Session where
  id : Uuid
  userId : Uuid
  expiresAt : ℕ
  version : ℕ
  logouts : ℕ
deriving DecidableEq

/-- A row of `password_reset_tokens`. -/
structure ResetToken where
  id : Uuid
  userId : Uuid
  tokenHash : String
  lookupHash : String
  expiresAt : ℕ
  usedAt : Option ℕ
deriving DecidableEq

inductive TokenType where
  | access
  | refresh
  | identity
deriving DecidableEq

structure JwtClaims where
  sub : Uuid
  sid : Uuid
  iat : ℕ
  exp : ℕ
  typ : TokenType
deriving DecidableEq

/-- A session that let a request in, when the request had started with the password set `version` times and
the user logged out everywhere `logouts` times. -/
structure Admission where
  version : ℕ
  logouts : ℕ
  session : Session
deriving DecidableEq

/-- A login that was completed, when `update_user` had last set its user to inactive or not. -/
structure Login where
  userId : Uuid
  deactivated : Bool
deriving DecidableEq

/-- What one transaction of `change_password` or `reset_password` writes; the latter redeems a token. -/
structure Rewrite where
  userId : Uuid
  hash : String
  begun : ℕ
  token : Option Uuid
deriving DecidableEq

def second : ℕ := 1000000

def day : ℕ := 24 * 60 * 60 * second

/-- `DateTime::timestamp`. -/
def timestamp (t : ℕ) : ℕ := t / second

namespace User

def withPassword (u : User) (r : Rewrite) : User :=
  { u with
    passwordHash := some r.hash,
    passwordChangedAt := some r.begun,
    status := if r.token.isSome then .active else u.status }

def withColumns (u : User) (email : Option String) (status : Option UserStatus) : User :=
  { u with email := email.getD u.email, status := status.getD u.status }

theorem withPassword_id (r : Rewrite) (u : User) : (u.withPassword r).id = u.id := rfl

theorem withColumns_id (email : Option String) (status : Option UserStatus) (u : User) :
    (u.withColumns email status).id = u.id := rfl

end User

/-- The tokens `marked` are used. -/
def ResetToken.mark (marked : List Uuid) (begun : ℕ) (t : ResetToken) : ResetToken :=
  if t.id ∈ marked then { t with usedAt := some begun } else t

theorem ResetToken.mark_id (marked : List Uuid) (begun : ℕ) (t : ResetToken) :
    (t.mark marked begun).id = t.id := by
  unfold mark
  split <;> rfl

/-! ### The store -/

structure AuthDb where
  users : Table User.id
  sessions : Table Session.id
  tokens : Table ResetToken.id
  /-- The tokens that were signed. -/
  minted : List JwtClaims
  version : Uuid → ℕ
  logouts : Uuid → ℕ
  deactivated : Uuid → Bool
  admissions : List Admission
  logins : List Login
  redeemed : List Uuid

namespace AuthDb

/-- Nobody has logged in yet. -/
def start (users : Table User.id) : AuthDb :=
  { users := users, sessions := ∅, tokens := ∅, minted := [], version := fun _ => 0, logouts := fun _ => 0,
    deactivated := fun id => (users.find id).any fun u => u.status = .inactive,
    admissions := [], logins := [], redeemed := [] }

variable (db : AuthDb)

def userByEmail (email : String) : Option User := db.users.rows.find? fun u => u.email = email

/-- Another row has the address. -/
def taken (email : String) (id : Uuid) : Bool := db.users.rows.any fun u => u.email = email ∧ u.id ≠ id

def sessionsOf (userId : Uuid) : List Uuid :=
  (db.sessions.rows.filter fun s => s.userId = userId).map Session.id

def unusedTokensOf (userId : Uuid) : List Uuid :=
  (db.tokens.rows.filter fun t => t.userId = userId ∧ t.usedAt.isNone).map ResetToken.id

/-- `session_is_live` and `get_session`. -/
def liveSession (now : ℕ) (id : Uuid) : Option Session := (db.sessions.find id).filter (now < ·.expiresAt)

def session (now : ℕ) (userId : Uuid) (rememberMe : Bool) (version logouts : ℕ) (id : Uuid) : Session :=
  { id := id, userId := userId, expiresAt := now + (if rememberMe then 30 else 7) * day,
    version := version, logouts := logouts }

theorem session_id (now : ℕ) (userId : Uuid) (rememberMe : Bool) (version logouts : ℕ) (id : Uuid) :
    (session now userId rememberMe version logouts id).id = id := rfl

def createSession (now : ℕ) (userId : Uuid) (rememberMe : Bool) (version : ℕ) : AuthDb :=
  { db with
    sessions := db.sessions.insert (session now userId rememberMe version (db.logouts userId))
      (session_id now userId rememberMe version (db.logouts userId)) }

def mint (claims : List JwtClaims) : AuthDb := { db with minted := claims ++ db.minted }

def loggedIn (userId : Uuid) : AuthDb :=
  { db with logins := { userId := userId, deactivated := db.deactivated userId } :: db.logins }

def letIn (a : Admission) : AuthDb := { db with admissions := a :: db.admissions }

def deleteSessions (deleted : List Uuid) : AuthDb :=
  { db with sessions := db.sessions.filter (·.id ∉ deleted) }

/-- The commit of a `logout_all`. -/
def logoutAll (userId : Uuid) (deleted : List Uuid) : AuthDb :=
  { db.deleteSessions deleted with
    logouts := Function.update db.logouts userId (db.logouts userId + 1) }

/-- The commit of a `change_password` or `reset_password`. -/
def rewrite (r : Rewrite) (marked deleted : List Uuid) : AuthDb :=
  { db.deleteSessions deleted with
    users := db.users.update r.userId (·.withPassword r) (User.withPassword_id r),
    tokens := db.tokens.map (·.mark marked r.begun) (ResetToken.mark_id marked r.begun),
    version := Function.update db.version r.userId (db.version r.userId + 1),
    redeemed := r.token.toList ++ db.redeemed }

def resetToken (now : ℕ) (userId : Uuid) (lifetime : ℕ) (tokenHash lookupHash : String) (id : Uuid) :
    ResetToken :=
  { id := id, userId := userId, tokenHash := tokenHash, lookupHash := lookupHash,
    expiresAt := now + lifetime, usedAt := none }

theorem resetToken_id (now : ℕ) (userId : Uuid) (lifetime : ℕ) (tokenHash lookupHash : String) (id : Uuid) :
    (resetToken now userId lifetime tokenHash lookupHash id).id = id := rfl

def issue (now : ℕ) (userId : Uuid) (lifetime : ℕ) (tokenHash lookupHash : String) : AuthDb :=
  { db with
    tokens := db.tokens.insert (resetToken now userId lifetime tokenHash lookupHash)
      (resetToken_id now userId lifetime tokenHash lookupHash) }

def pendingUser (email : String) (id : Uuid) : User :=
  { id := id, email := email, passwordHash := none, status := .pending, passwordChangedAt := none }

theorem pendingUser_id (email : String) (id : Uuid) : (pendingUser email id).id = id := rfl

def insertUser (email : String) : AuthDb :=
  { db with users := db.users.insert (pendingUser email) (pendingUser_id email) }

/-- The commit of an `update_user`. -/
def updateUser (userId : Uuid) (email : Option String) (status : Option UserStatus) : AuthDb :=
  { db with
    users := db.users.update userId (·.withColumns email status) (User.withColumns_id email status),
    deactivated := Function.update db.deactivated userId
      ((status.map fun s => decide (s = .inactive)).getD (db.deactivated userId)) }

end AuthDb

/-! ### Requests -/

inductive Operation where
  | login (email password : String) (rememberMe : Bool)
  | refreshToken (token : JwtClaims)
  /-- A request that presents an access token. -/
  | authenticate (token : JwtClaims)
  | logout (sessionId : Uuid)
  | logoutAll (userId : Uuid)
  | requestPasswordReset (email : String)
  /-- The token is sent as `userId.secret`. -/
  | resetPassword (userId : Uuid) (secret newPassword confirmPassword : String)
  | changePassword (userId : Uuid) (currentPassword newPassword confirmPassword : String)
  | createUser (email : String) (sendWelcomeEmail : Bool)
  | updateUser (userId : Uuid) (email : Option String) (status : Option UserStatus)
deriving DecidableEq

inductive Answer where
  | passed
  | refused
  | generated (secret hash : String)
deriving DecidableEq

def Answer.lets : Answer → Bool
  | refused => false
  | _ => true

def Answer.secret : Answer → String
  | generated secret _ => secret
  | _ => ""

def Answer.hash : Answer → String
  | generated _ hash => hash
  | _ => ""

/-- Where a request stands. -/
inductive Point where
  | received (op : Operation)
  /-- A login that has verified the password that had been set `version` times. -/
  | verified (userId : Uuid) (rememberMe : Bool) (version : ℕ)
  | created (userId sessionId : Uuid)
  | refreshing (token : JwtClaims)
  | refreshed (token : JwtClaims)
  | authenticating (token : JwtClaims) (passwordChangedAt : Option ℕ) (version logouts : ℕ)
  | loggingOut (userId : Uuid) (deleted : List Uuid)
  | issuing (userId : Uuid) (lifetime : ℕ)
  | redeeming (userId token : Uuid)
  | updating (r : Rewrite)
  | marking (r : Rewrite)
  | deleting (r : Rewrite) (marked : List Uuid)
  | committing (r : Rewrite) (marked deleted : List Uuid)
  | inserting (email : String) (sendWelcomeEmail : Bool)
  | updatingUser (userId : Uuid) (email : Option String) (status : Option UserStatus)
deriving DecidableEq

structure AuthService where
  localPasswordAuthDisabled : Bool
  accessTokenTtl : ℕ
  refreshTokenTtl : ℕ
  /-- Of a password and its hash. -/
  verifyPassword : String → String → Bool
  sha256Hex : String → String

namespace AuthService

variable (service : AuthService)

def generateTokens (now : ℕ) (userId sessionId : Uuid) : List JwtClaims :=
  [{ sub := userId, sid := sessionId, iat := timestamp now, exp := timestamp (now + service.accessTokenTtl),
     typ := .access },
   { sub := userId, sid := sessionId, iat := timestamp now, exp := timestamp (now + service.refreshTokenTtl),
     typ := .refresh }]

theorem mem_generateTokens {now : ℕ} {userId sessionId : Uuid} {c : JwtClaims}
    (h : c ∈ service.generateTokens now userId sessionId) : c.sub = userId ∧ c.sid = sessionId := by
  unfold generateTokens at h
  obtain rfl | h := List.mem_cons.mp h
  · exact ⟨rfl, rfl⟩
  · rw [List.mem_singleton.mp h]
    exact ⟨rfl, rfl⟩

/-- `decode_token` of a token of the given type. -/
def decodes (db : AuthDb) (now : ℕ) (token : JwtClaims) (typ : TokenType) : Bool :=
  token ∈ db.minted ∧ timestamp now ≤ token.exp + 30 ∧ token.typ = typ

def isUsable (x : Answer) (u : User) : Bool := u.status = .active ∧ x.lets

def letsLogIn (x : Answer) (password : String) (u : User) : Bool :=
  !service.localPasswordAuthDisabled && isUsable x u && u.passwordHash.any (service.verifyPassword password)

/-- The row that a `reset_password` may redeem. -/
def redeemable (db : AuthDb) (now : ℕ) (userId : Uuid) (secret : String) : Option ResetToken :=
  (db.tokens.rows.find? fun t => t.userId = userId ∧ t.lookupHash = service.sha256Hex secret ∧
    t.usedAt.isNone ∧ now < t.expiresAt).filter fun t => service.verifyPassword secret t.tokenHash

/-- The first statement of a request. -/
def receive (now : ℕ) (x : Answer) (db : AuthDb) : Operation → AuthDb × Option Point
  | .login email password rememberMe =>
    (db, ((db.userByEmail email).filter (service.letsLogIn x password)).map fun u =>
      .verified u.id rememberMe (db.version u.id))
  | .refreshToken token =>
    if decodes db now token .refresh then
      match db.liveSession now token.sid with
      | some s =>
        (db.letIn { version := db.version token.sub, logouts := db.logouts token.sub, session := s },
          some (.refreshing token))
      | none => (db, none)
    else (db, none)
  | .authenticate token =>
    (db, ((db.users.find token.sub).filter fun u => decodes db now token .access && isUsable x u).map
      fun u => .authenticating token u.passwordChangedAt (db.version token.sub) (db.logouts token.sub))
  | .logout sessionId => (db.deleteSessions [sessionId], none)
  | .logoutAll userId => (db, some (.loggingOut userId (db.sessionsOf userId)))
  | .requestPasswordReset email =>
    (db, ((db.userByEmail email).filter fun _ => !service.localPasswordAuthDisabled).map fun u =>
      .issuing u.id day)
  | .resetPassword userId secret newPassword confirmPassword =>
    (db,
      if service.localPasswordAuthDisabled ∨ newPassword ≠ confirmPassword ∨ secret = "" then none
      else (service.redeemable db now userId secret).map fun t => .redeeming userId t.id)
  | .changePassword userId currentPassword newPassword confirmPassword =>
    (db,
      if newPassword ≠ confirmPassword then none
      else ((db.users.find userId).filter fun u =>
          u.passwordHash.any (service.verifyPassword currentPassword)).map fun _ =>
        .updating { userId := userId, hash := x.hash, begun := now, token := none })
  | .createUser email sendWelcomeEmail =>
    (db, if (db.userByEmail email).isSome then none else some (.inserting email sendWelcomeEmail))
  | .updateUser userId email status =>
    (db, if email.isNone ∧ status.isNone then none else some (.updatingUser userId email status))

/-- The next statement of a request. -/
def next (now : ℕ) (x : Answer) (db : AuthDb) : Point → AuthDb × Option Point
  | .received op => service.receive now x db op
  | .verified userId rememberMe version =>
    if x.lets then
      (db.createSession now userId rememberMe version, some (.created userId db.sessions.next))
    else (db, none)
  | .created userId sessionId =>
    ((db.mint (service.generateTokens now userId sessionId)).loggedIn userId, none)
  | .refreshing token => (db, if (db.users.find token.sub).any (isUsable x) then some (.refreshed token) else none)
  | .refreshed token => (db.mint (service.generateTokens now token.sub token.sid), none)
  | .authenticating token passwordChangedAt version logouts =>
    match db.liveSession now token.sid with
    | some s =>
      if passwordChangedAt.all fun t => timestamp t ≤ token.iat then
        (db.letIn { version := version, logouts := logouts, session := s }, none)
      else (db, none)
    | none => (db, none)
  | .loggingOut userId deleted => (db.logoutAll userId deleted, none)
  | .issuing userId lifetime =>
    (db.issue now userId lifetime x.hash (service.sha256Hex x.secret), none)
  | .redeeming userId token =>
    (db, some (.updating { userId := userId, hash := x.hash, begun := now, token := some token }))
  | .updating r => (db, some (if r.token.isSome then .marking r else .deleting r []))
  | .marking r => (db, some (.deleting r (db.unusedTokensOf r.userId)))
  | .deleting r marked => (db, some (.committing r marked (db.sessionsOf r.userId)))
  | .committing r marked deleted => (db.rewrite r marked deleted, none)
  | .inserting email sendWelcomeEmail =>
    if (db.userByEmail email).isSome then (db, none)
    else
      (db.insertUser email,
        if sendWelcomeEmail ∧ ¬service.localPasswordAuthDisabled then some (.issuing db.users.next (7 * day))
        else none)
  | .updatingUser userId email status =>
    if (db.users.find userId).isSome ∧ ¬email.any (db.taken · userId) then
      (db.updateUser userId email status, none)
    else (db, none)

/-- The user whose row the next statement updates. -/
def takes : Point → List Uuid
  | .updating r => [r.userId]
  | .received (.updateUser userId _ _) => [userId]
  | _ => []

def holds : Point → List Uuid
  | .marking r => [r.userId]
  | .deleting r _ => [r.userId]
  | .committing r _ _ => [r.userId]
  | .updatingUser userId _ _ => [userId]
  | _ => []

def handlers : Handlers Operation Answer AuthDb Point Uuid where
  start := .received
  advance now x db p := some (service.next now x db p)
  takes _ p := takes p
  holds := holds

abbrev step (w : World AuthDb Point) (e : Event Operation Answer) : Option (World AuthDb Point) :=
  Requests.step service.handlers w e

/-! ### What a statement leaves behind -/

inductive Leaves (now : ℕ) (x : Answer) (db : AuthDb) : Point → AuthDb → Option Point → Prop
  | done {p : Point} : Leaves now x db p db none
  | verified {email password : String} {rememberMe : Bool} {u : User} :
      Leaves now x db (.received (.login email password rememberMe)) db
        (some (.verified u.id rememberMe (db.version u.id)))
  | created {userId : Uuid} {rememberMe : Bool} {version : ℕ} (hx : x.lets = true) :
      Leaves now x db (.verified userId rememberMe version) (db.createSession now userId rememberMe version)
        (some (.created userId db.sessions.next))
  | loggedIn {userId sessionId : Uuid} : Leaves now x db (.created userId sessionId)
      ((db.mint (service.generateTokens now userId sessionId)).loggedIn userId) none
  | refreshing {token : JwtClaims} {s : Session} (hm : token ∈ db.minted)
      (hs : db.sessions.find token.sid = some s) :
      Leaves now x db (.received (.refreshToken token))
        (db.letIn { version := db.version token.sub, logouts := db.logouts token.sub, session := s })
        (some (.refreshing token))
  | refreshed {token : JwtClaims} : Leaves now x db (.refreshing token) db (some (.refreshed token))
  | minted {token : JwtClaims} : Leaves now x db (.refreshed token)
      (db.mint (service.generateTokens now token.sub token.sid)) none
  | authenticating {token : JwtClaims} {u : User} (hm : token ∈ db.minted) :
      Leaves now x db (.received (.authenticate token)) db
        (some (.authenticating token u.passwordChangedAt (db.version token.sub) (db.logouts token.sub)))
  | admitted {token : JwtClaims} {passwordChangedAt : Option ℕ} {version logouts : ℕ} {s : Session}
      (hs : db.sessions.find token.sid = some s) :
      Leaves now x db (.authenticating token passwordChangedAt version logouts)
        (db.letIn { version := version, logouts := logouts, session := s }) none
  | loggedOut {sessionId : Uuid} :
      Leaves now x db (.received (.logout sessionId)) (db.deleteSessions [sessionId]) none
  | loggingOut {userId : Uuid} : Leaves now x db (.received (.logoutAll userId)) db
      (some (.loggingOut userId (db.sessionsOf userId)))
  | loggedOutAll {userId : Uuid} {deleted : List Uuid} :
      Leaves now x db (.loggingOut userId deleted) (db.logoutAll userId deleted) none
  | requested {email : String} {u : User} :
      Leaves now x db (.received (.requestPasswordReset email)) db (some (.issuing u.id day))
  | issued {userId : Uuid} {lifetime : ℕ} : Leaves now x db (.issuing userId lifetime)
      (db.issue now userId lifetime x.hash (service.sha256Hex x.secret)) none
  | redeeming {userId : Uuid} {secret newPassword confirmPassword : String} {t : ResetToken}
      (ht : t ∈ db.tokens) (hu : t.userId = userId) :
      Leaves now x db (.received (.resetPassword userId secret newPassword confirmPassword)) db
        (some (.redeeming userId t.id))
  | begun {userId token : Uuid} : Leaves now x db (.redeeming userId token) db
      (some (.updating { userId := userId, hash := x.hash, begun := now, token := some token }))
  | changing {userId : Uuid} {currentPassword newPassword confirmPassword : String} :
      Leaves now x db (.received (.changePassword userId currentPassword newPassword confirmPassword)) db
        (some (.updating { userId := userId, hash := x.hash, begun := now, token := none }))
  | updated {r : Rewrite} : Leaves now x db (.updating r) db
      (some (if r.token.isSome then .marking r else .deleting r []))
  | marked {r : Rewrite} :
      Leaves now x db (.marking r) db (some (.deleting r (db.unusedTokensOf r.userId)))
  | deleted {r : Rewrite} {marked : List Uuid} : Leaves now x db (.deleting r marked) db
      (some (.committing r marked (db.sessionsOf r.userId)))
  | committed {r : Rewrite} {marked deleted : List Uuid} :
      Leaves now x db (.committing r marked deleted) (db.rewrite r marked deleted) none
  | inserting {email : String} {sendWelcomeEmail : Bool} :
      Leaves now x db (.received (.createUser email sendWelcomeEmail)) db
        (some (.inserting email sendWelcomeEmail))
  | inserted {email : String} {sendWelcomeEmail : Bool} :
      Leaves now x db (.inserting email sendWelcomeEmail) (db.insertUser email) none
  | welcoming {email : String} {sendWelcomeEmail : Bool} :
      Leaves now x db (.inserting email sendWelcomeEmail) (db.insertUser email)
        (some (.issuing db.users.next (7 * day)))
  | updatingUser {userId : Uuid} {email : Option String} {status : Option UserStatus} :
      Leaves now x db (.received (.updateUser userId email status)) db
        (some (.updatingUser userId email status))
  | updatedUser {userId : Uuid} {email : Option String} {status : Option UserStatus} {u : User}
      (hu : db.users.find userId = some u) :
      Leaves now x db (.updatingUser userId email status) (db.updateUser userId email status) none

variable {service} {now : ℕ} {x : Answer} {db : AuthDb}

theorem liveSession_eq_some {id : Uuid} {s : Session} (h : db.liveSession now id = some s) :
    db.sessions.find id = some s :=
  (Option.filter_eq_some_iff.mp h).1

theorem mem_minted_of_decodes {token : JwtClaims} {typ : TokenType}
    (h : decodes db now token typ = true) : token ∈ db.minted :=
  (of_decide_eq_true h).1

/-- A request goes on with what it has found, if it has. -/
theorem leaves_map {α : Type} {o : Option α} {f : α → Point} {p : Point}
    (h : ∀ a, o = some a → service.Leaves now x db p db (some (f a))) :
    service.Leaves now x db p db (o.map f) := by
  cases ho : o with
  | none => exact .done
  | some a => exact h a ho

theorem receive_leaves (op : Operation) : service.Leaves now x db (.received op)
    (service.receive now x db op).1 (service.receive now x db op).2 := by
  cases op with
  | login email password rememberMe => exact leaves_map fun u _ => .verified
  | refreshToken token =>
      unfold receive
      dsimp only
      split
      · next hd =>
        split
        · next s hs => exact .refreshing (mem_minted_of_decodes hd) (liveSession_eq_some hs)
        · exact .done
      · exact .done
  | authenticate token =>
      refine leaves_map fun u hu => .authenticating ?_
      have hd := (Option.filter_eq_some_iff.mp hu).2
      exact mem_minted_of_decodes (Bool.and_eq_true_iff.mp hd).1
  | logout sessionId => exact .loggedOut
  | logoutAll userId => exact .loggingOut
  | requestPasswordReset email => exact leaves_map fun u _ => .requested
  | resetPassword userId secret newPassword confirmPassword =>
      unfold receive
      dsimp only
      split
      · exact .done
      · refine leaves_map fun t ht => ?_
        have hf := (Option.filter_eq_some_iff.mp ht).1
        have hfound := List.find?_some hf
        exact .redeeming (List.mem_of_find?_eq_some hf) (of_decide_eq_true hfound).1
  | changePassword userId currentPassword newPassword confirmPassword =>
      unfold receive
      dsimp only
      split
      · exact .done
      · exact leaves_map fun u _ => .changing
  | createUser email sendWelcomeEmail =>
      unfold receive
      dsimp only
      split
      · exact .done
      · exact .inserting
  | updateUser userId email status =>
      unfold receive
      dsimp only
      split
      · exact .done
      · exact .updatingUser

theorem next_leaves (p : Point) :
    service.Leaves now x db p (service.next now x db p).1 (service.next now x db p).2 := by
  cases p with
  | received op => exact receive_leaves op
  | verified userId rememberMe version =>
      unfold next
      dsimp only
      split
      · next hx => exact .created hx
      · exact .done
  | created userId sessionId => exact .loggedIn
  | refreshing token =>
      unfold next
      dsimp only
      split
      · exact .refreshed
      · exact .done
  | refreshed token => exact .minted
  | authenticating token passwordChangedAt version logouts =>
      unfold next
      dsimp only
      split
      · next s hs =>
        split
        · exact .admitted (liveSession_eq_some hs)
        · exact .done
      · exact .done
  | loggingOut userId deleted => exact .loggedOutAll
  | issuing userId lifetime => exact .issued
  | redeeming userId token => exact .begun
  | updating r => exact .updated
  | marking r => exact .marked
  | deleting r marked => exact .deleted
  | committing r marked deleted => exact .committed
  | inserting email sendWelcomeEmail =>
      unfold next
      dsimp only
      split
      · exact .done
      · split
        · exact .welcoming
        · exact .inserted
  | updatingUser userId email status =>
      unfold next
      dsimp only
      split
      · next h =>
        obtain ⟨u, hu⟩ := Option.isSome_iff_exists.mp h.1
        exact .updatedUser hu
      · exact .done

theorem advance_leaves {p : Point} {s : AuthDb} {q : Option Point}
    (ha : service.handlers.advance now x db p = some (s, q)) : service.Leaves now x db p s q := by
  have hl : service.Leaves now x db p _ _ := next_leaves p
  rwa [Option.some.inj ha] at hl

end AuthService

/-! ### What a request relies on -/

variable {service : AuthService} {now : ℕ} {x : Answer} {db s : AuthDb} {p : Point} {q : Option Point}

namespace AuthDb

/-- The session `id`, if it is there, is the user's, and no other session will have its key. -/
def OwnsSession (db : AuthDb) (userId id : Uuid) : Prop :=
  id < db.sessions.next ∧ ∀ r ∈ db.sessions, r.id = id → r.userId = userId

def OwnsToken (db : AuthDb) (userId id : Uuid) : Prop := ∃ t ∈ db.tokens, t.id = id ∧ t.userId = userId

/-- The token is used, or `marked` will be. -/
def Spends (db : AuthDb) (marked : List Uuid) (id : Uuid) : Prop :=
  ∃ t ∈ db.tokens, t.id = id ∧ (t.usedAt.isSome = true ∨ id ∈ marked)

/-- A token names a session of its subject. -/
def Linked (db : AuthDb) : Prop := ∀ c ∈ db.minted, db.OwnsSession c.sub c.sid

end AuthDb

def Reads (db : AuthDb) : Point → Prop
  | .created userId sessionId => db.OwnsSession userId sessionId
  | .refreshing token | .refreshed token => token ∈ db.minted
  | .authenticating token _ version logouts =>
      token ∈ db.minted ∧ version ≤ db.version token.sub ∧ logouts ≤ db.logouts token.sub
  | .redeeming userId token => db.OwnsToken userId token
  | .updating r | .marking r => ∀ t ∈ r.token, db.OwnsToken r.userId t
  | .deleting r marked | .committing r marked _ => ∀ t ∈ r.token, db.Spends marked t
  | _ => True

/-- What no statement takes back. -/
structure Grows (db s : AuthDb) : Prop where
  minted : ∀ c ∈ db.minted, c ∈ s.minted
  version : ∀ id, db.version id ≤ s.version id
  logouts : ∀ id, db.logouts id ≤ s.logouts id
  nextSession : db.sessions.next ≤ s.sessions.next
  sessions : ∀ r ∈ s.sessions, r ∈ db.sessions ∨ db.sessions.next ≤ r.id
  tokens : ∀ t ∈ db.tokens, ∃ t' ∈ s.tokens, t'.id = t.id ∧ t'.userId = t.userId ∧
    (t.usedAt.isSome = true → t'.usedAt.isSome = true)

theorem Grows.refl (db : AuthDb) : Grows db db where
  minted _ h := h
  version _ := le_refl _
  logouts _ := le_refl _
  nextSession := le_refl _
  sessions _ h := .inl h
  tokens t ht := ⟨t, ht, rfl, rfl, fun h => h⟩

theorem Grows.ownsSession (h : Grows db s) {userId id : Uuid} (hs : db.OwnsSession userId id) :
    s.OwnsSession userId id := by
  refine ⟨hs.1.trans_le h.nextSession, fun r hr hid => ?_⟩
  obtain hold | hnew := h.sessions r hr
  · exact hs.2 r hold hid
  · rw [hid] at hnew
    exact absurd hs.1 hnew.not_gt

theorem Grows.ownsToken (h : Grows db s) {userId id : Uuid} (ht : db.OwnsToken userId id) :
    s.OwnsToken userId id := by
  obtain ⟨t, ht, hid, hu⟩ := ht
  obtain ⟨t', ht', hid', hu', -⟩ := h.tokens t ht
  exact ⟨t', ht', hid'.trans hid, hu'.trans hu⟩

theorem Grows.spends (h : Grows db s) {marked : List Uuid} {id : Uuid} (ht : db.Spends marked id) :
    s.Spends marked id := by
  obtain ⟨t, ht, hid, hused⟩ := ht
  obtain ⟨t', ht', hid', -, hused'⟩ := h.tokens t ht
  exact ⟨t', ht', hid'.trans hid, hused.imp_left hused'⟩

theorem Grows.reads (h : Grows db s) (hp : Reads db p) : Reads s p := by
  cases p with
  | created userId sessionId => exact h.ownsSession hp
  | refreshing token => exact h.minted token hp
  | refreshed token => exact h.minted token hp
  | authenticating token passwordChangedAt version logouts =>
      obtain ⟨hm, hv, hl⟩ := hp
      exact ⟨h.minted token hm, hv.trans (h.version _), hl.trans (h.logouts _)⟩
  | redeeming userId token => exact h.ownsToken hp
  | updating r => exact fun t ht => h.ownsToken (hp t ht)
  | marking r => exact fun t ht => h.ownsToken (hp t ht)
  | deleting r marked => exact fun t ht => h.spends (hp t ht)
  | committing r marked deleted => exact fun t ht => h.spends (hp t ht)
  | _ => trivial

theorem le_update_succ (f : Uuid → ℕ) (id id' : Uuid) : f id' ≤ Function.update f id (f id + 1) id' := by
  by_cases h : id' = id
  · subst h
    rw [Function.update_self]
    omega
  · rw [Function.update_of_ne h]

theorem grows_createSession (userId : Uuid) (rememberMe : Bool) (version : ℕ) :
    Grows db (db.createSession now userId rememberMe version) :=
  { Grows.refl db with
    nextSession := Nat.le_succ _
    sessions := by
      intro r hr
      obtain hr | rfl := (Table.mem_insert (AuthDb.session_id _ _ _ _ _)).mp hr
      · exact .inl hr
      · exact .inr (le_refl _) }

theorem grows_mint (claims : List JwtClaims) : Grows db (db.mint claims) :=
  { Grows.refl db with minted := fun _ h => List.mem_append_right _ h }

theorem grows_deleteSessions (deleted : List Uuid) : Grows db (db.deleteSessions deleted) :=
  { Grows.refl db with sessions := fun _ h => .inl (Table.mem_filter.mp h).1 }

theorem grows_logoutAll (userId : Uuid) (deleted : List Uuid) : Grows db (db.logoutAll userId deleted) :=
  { grows_deleteSessions deleted with logouts := le_update_succ db.logouts userId }

theorem grows_rewrite (r : Rewrite) (marked deleted : List Uuid) : Grows db (db.rewrite r marked deleted) :=
  { grows_deleteSessions deleted with
    version := le_update_succ db.version r.userId
    tokens := by
      intro t ht
      refine ⟨t.mark marked r.begun, List.mem_map_of_mem ht, t.mark_id marked r.begun, ?_⟩
      unfold ResetToken.mark
      split
      · exact ⟨rfl, fun _ => rfl⟩
      · exact ⟨rfl, fun h => h⟩ }

theorem grows_issue (userId : Uuid) (lifetime : ℕ) (tokenHash lookupHash : String) :
    Grows db (db.issue now userId lifetime tokenHash lookupHash) :=
  { Grows.refl db with
    tokens := fun t ht =>
      ⟨t, (Table.mem_insert (AuthDb.resetToken_id _ _ _ _ _)).mpr (.inl ht), rfl, rfl, fun h => h⟩ }

theorem grows_of_leaves (h : service.Leaves now x db p s q) : Grows db s := by
  cases h with
  | created => exact grows_createSession _ _ _
  | loggedIn => exact { grows_mint _ with }
  | minted => exact grows_mint _
  | loggedOut => exact grows_deleteSessions _
  | loggedOutAll => exact grows_logoutAll _ _
  | issued => exact grows_issue _ _ _ _
  | committed => exact grows_rewrite _ _ _
  | _ => exact { Grows.refl db with }

theorem ownsSession_createSession (userId : Uuid) (rememberMe : Bool) (version : ℕ) :
    (db.createSession now userId rememberMe version).OwnsSession userId db.sessions.next := by
  refine ⟨Nat.lt_succ_self _, fun r hr hid => ?_⟩
  obtain hr | rfl := (Table.mem_insert (AuthDb.session_id _ _ _ _ _)).mp hr
  · exact absurd hid (Table.key_lt_next hr).ne
  · rfl

theorem linked_mint (h : db.Linked) {now : ℕ} {userId sessionId : Uuid}
    (hs : db.OwnsSession userId sessionId) :
    (db.mint (service.generateTokens now userId sessionId)).Linked := by
  intro c hc
  obtain hc | hc := List.mem_append.mp hc
  · obtain ⟨rfl, rfl⟩ := service.mem_generateTokens hc
    exact hs
  · exact h c hc

/-- The tokens do not change. -/
theorem linked_of_minted (h : db.Linked) (hg : Grows db s) (hm : s.minted = db.minted) : s.Linked := by
  intro c hc
  rw [hm] at hc
  exact hg.ownsSession (h c hc)

theorem linked_of_leaves (h : db.Linked) (hp : Reads db p) (hl : service.Leaves now x db p s q) :
    s.Linked := by
  have hg := grows_of_leaves hl
  cases hl with
  | loggedIn => exact linked_mint h hp
  | @minted token => exact linked_mint h (h token hp)
  | _ => exact linked_of_minted h hg rfl

/-- The user's unused tokens are marked. -/
theorem spends_unusedTokensOf {userId id : Uuid} (h : db.OwnsToken userId id) :
    db.Spends (db.unusedTokensOf userId) id := by
  obtain ⟨t, ht, rfl, hu⟩ := h
  refine ⟨t, ht, rfl, ?_⟩
  cases hused : t.usedAt with
  | some _ => exact .inl rfl
  | none =>
      refine .inr (List.mem_map_of_mem (List.mem_filter.mpr ⟨ht, ?_⟩))
      simp [hu, hused]

theorem reads_of_leaves (hp : Reads db p) (hl : service.Leaves now x db p s q) :
    ∀ p' ∈ q, Reads s p' := by
  intro p' hp'
  cases hl with
  | created =>
      cases hp'
      exact ownsSession_createSession _ _ _
  | refreshing hm =>
      cases hp'
      exact hm
  | refreshed =>
      cases hp'
      exact hp
  | authenticating hm =>
      cases hp'
      exact ⟨hm, le_refl _, le_refl _⟩
  | redeeming ht hu =>
      cases hp'
      exact ⟨_, ht, rfl, hu⟩
  | begun =>
      cases hp'
      intro t ht
      cases ht
      exact hp
  | changing =>
      cases hp'
      intro t ht
      cases ht
  | @updated r =>
      cases hp'
      split
      · exact hp
      · next hnone =>
        intro t ht
        rw [Option.mem_def] at ht
        simp [ht] at hnone
  | marked =>
      cases hp'
      exact fun t ht => spends_unusedTokensOf (hp t ht)
  | deleted =>
      cases hp'
      exact hp
  | verified | loggingOut | requested | inserting | welcoming | updatingUser =>
      cases hp'
      trivial
  | done | loggedIn | minted | admitted | loggedOut | loggedOutAll | issued | committed | inserted
  | updatedUser => cases hp'

/-- A request keeps the locks that it had, or has just taken. -/
theorem locks_of_leaves (h : service.Leaves now x db p s q) :
    ∀ p' ∈ q, ∀ b ∈ AuthService.holds p', b ∈ AuthService.takes p ∨ b ∈ AuthService.holds p := by
  intro p' hp' b hb
  cases h with
  | @updated r =>
      cases hp'
      refine .inl ?_
      split at hb <;> exact hb
  | marked | deleted =>
      cases hp'
      exact .inr hb
  | updatingUser =>
      cases hp'
      exact .inl hb
  | verified | created | refreshing | refreshed | authenticating | loggingOut | requested | redeeming
  | begun | changing | inserting | welcoming =>
      cases hp'
      exact absurd hb List.not_mem_nil
  | done | loggedIn | minted | admitted | loggedOut | loggedOutAll | issued | committed | inserted
  | updatedUser => cases hp'

/-- An invariant that each statement keeps, if it finds what its request has read. -/
theorem rule_of_leaves {G : AuthDb → Prop} {C : World AuthDb Point → Event Operation Answer → Prop}
    (hkeep : ∀ {w i x p s q}, G w.store → Reads w.store p → C w (.step i x) → w.requests[i]? = some p →
      service.Leaves w.now x w.store p s q → G s) :
    Rule service.handlers (fun _ => G) (fun _ => Reads) C where
  locks ha := locks_of_leaves (AuthService.advance_leaves ha)
  unlocked _ := rfl
  wait h _ := ⟨h, fun _ hp => hp⟩
  start _ _ := trivial
  step hw hC hi ha := by
    have hl := AuthService.advance_leaves ha
    have hp := hw.requests _ (List.mem_of_getElem? hi)
    refine ⟨hkeep hw.store hp hC hi hl, reads_of_leaves hp hl, fun p' _ _ hp' => ?_⟩
    exact (grows_of_leaves hl).reads hp'

/-! ### One user -/

/-- The Argon2 hashes of three passwords, and the SHA-256 of the one that a reset sends. -/
def winterHash : String :=
  "$argon2id$v=19$m=19456,t=2,p=1$MDEyMzQ1Njc4OWFiY2RlZg$BTvzSp58o2SimJ6eHCFf8LIhvnWLH1aT8yY+KHXTnF8"

def springHash : String :=
  "$argon2id$v=19$m=19456,t=2,p=1$ZmVkY2JhOTg3NjU0MzIxMA$fMnh7EoDmpmuSPkbcEJoaUwMeqHauGCL65iWjdPBIP4"

def secretHash : String :=
  "$argon2id$v=19$m=19456,t=2,p=1$MDAxMTIyMzM0NDU1NjZhYQ$OHyrsKFAvVjaFB0kEMjHS/vxsSbYKeAxq9QvKqRf3Yc"

def standalone : AuthService :=
  { localPasswordAuthDisabled := false, accessTokenTtl := 60 * 60 * second, refreshTokenTtl := 7 * day,
    verifyPassword := fun password hash =>
      password = "winter" ∧ hash = winterHash ∨ password = "spring" ∧ hash = springHash ∨
        password = "first" ∧ hash = secretHash,
    sha256Hex := fun secret =>
      if secret = "first" then "a7937b64b8caa58f03721bb6bacf5c78cb235febe0e70b1b84cd99541461a08e"
      else "16367aacb67a4a017c8da8ab95682ccb390863780f7114dda0a0e0c55644c7c4" }

def user (id : Uuid) : User :=
  { id := id, email := "user@example.com", passwordHash := some winterHash, status := .active,
    passwordChangedAt := none }

theorem user_id (id : Uuid) : (user id).id = id := rfl

def oneUser : Table User.id := (∅ : Table User.id).insert user user_id

def login (password : String) : Event Operation Answer := .arrive (.login "user@example.com" password false)

end Mokosh.Sessions
