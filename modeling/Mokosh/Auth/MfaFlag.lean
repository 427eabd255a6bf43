import Mokosh.Lib.Requests
import Mokosh.Auth.Identities
import Mokosh.Auth.SecondFactor

/-! # The second factor is one fact for all seats

`mfa_enabled` is written to all rows of an address at once (`write_mfa_enabled`), but a new seat starts with
its own, and every write of a row carries the row's to the identity.  The secret is not carried over; it is
written to all rows at once as well (`write_mfa_secret`).

**`one_fact`**: all rows of an address and its identity agree on `mfa_enabled`, and those that have it on hold a
secret, as long as (`Copies`)

* a seat is created only for an address whose second factor is off;
* `enable_mfa` writes its flag when all rows of the address and the identity hold a secret, and `disable_mfa`
  removes the secret when the second factor is off;
* `update_user` gives a row only an address whose rows and identity agree with it, as those of the same address
  in another case do.

`second_factor_skipped` has runs without the first two. -/

namespace Mokosh.MfaFlag

open Requests (Handlers World Event Keeps Rule)
open Identities

variable {lower : String → String}

/-! ### Statements -/

section Writes

variable (db : IdentityDb lower)

/-- An `UPDATE` of the rows of an address, with the trigger once for each of them. -/
def updateAll (p : User → Bool) (f : User → User) (hid : ∀ u, (f u).id = u.id)
    (haddress : ∀ u, (f u).address = u.address) (hplacement : ∀ u, (f u).placement = u.placement) :
    IdentityDb lower :=
  ((db.users.rows.filter p).map f).foldl IdentityDb.mirrorUpdate
    { db with
      users := db.users.map (fun u => if p u then f u else u) fun u => by split <;> simp only [hid]
      addresses := by
        have h : (User.address ∘ fun u => if p u then f u else u) = User.address := by
          funext u
          dsimp only [Function.comp_apply]
          split <;> simp only [haddress]
        rw [Table.map, List.map_map, h]
        exact db.addresses
      placements := by
        have h : (User.placement ∘ fun u => if p u then f u else u) = User.placement := by
          funext u
          dsimp only [Function.comp_apply]
          split <;> simp only [hplacement]
        rw [Table.map, List.filterMap_map, h]
        exact db.placements }

/-- The guard of `write_mfa_secret`. -/
def guarded (previous secret : Option String) : Bool := previous.all (secret = some ·)

def setSecret (value : Option String) (u : User) : User := { u with mfaSecret := value }

def setIdentitySecret (value previous : Option String) (i : Identity) : Identity :=
  if guarded previous i.mfaSecret then { i with mfaSecret := value } else i

theorem setIdentitySecret_key (value previous : Option String) (i : Identity) :
    (setIdentitySecret value previous i).email = i.email ∧ (setIdentitySecret value previous i).id = i.id := by
  unfold setIdentitySecret
  split <;> exact ⟨rfl, rfl⟩

def writeMfaSecret (email : String) (value previous : Option String) : IdentityDb lower :=
  updateAll (db.updateIdentity email (setIdentitySecret value previous) (setIdentitySecret_key value previous))
    (fun u => lower u.email = lower email ∧ guarded previous u.mfaSecret) (setSecret value) (fun _ => rfl)
    (fun _ => rfl) fun _ => rfl

def setEnabled (enabled : Bool) (u : User) : User :=
  { u with profile := { u.profile with mfaEnabled := enabled } }

/-- `write_mfa_enabled`. -/
def writeMfaEnabled (email : String) (enabled : Bool) : IdentityDb lower :=
  (updateAll db (fun u => lower u.email = lower email) (setEnabled enabled) (fun _ => rfl) (fun _ => rfl)
    fun _ => rfl).updateIdentity email
      (fun i => { i with profile := { i.profile with mfaEnabled := enabled } }) fun _ => ⟨rfl, rfl⟩

end Writes

/-! ### Secrets and codes -/

inductive StoredMfaSecret where
  | encrypted (secretB32 : String)
  | legacyPlaintext (secretB32 : String)
deriving DecidableEq

namespace StoredMfaSecret

def secretB32 : StoredMfaSecret → String
  | encrypted s => s
  | legacyPlaintext s => s

def needsUpgrade : StoredMfaSecret → Bool
  | encrypted _ => false
  | legacyPlaintext _ => true

end StoredMfaSecret

def maxPlaintextLen : ℕ := 32

/-- `mfa_secret::is_plaintext_shape`. -/
def isPlaintextShape (stored : String) : Bool :=
  let body := stored.toList.rdropWhile (· = '=')
  body ≠ [] ∧ body.length ≤ maxPlaintextLen ∧ body.all fun c => c.isAlpha ∨ '2' ≤ c ∧ c ≤ '7'

/-- Encryption and hashing are from outside. -/
structure MfaService where
  decrypt : String → Option String
  base32Decode : String → Option SecondFactor.Secret
  hotp : SecondFactor.Secret → ℤ → ℕ
  verifyPassword : String → String → Bool

namespace MfaService

variable (service : MfaService)

/-- `mfa_secret::open`. -/
def openSecret (stored : String) : AppResult StoredMfaSecret :=
  if isPlaintextShape stored then .ok (.legacyPlaintext stored)
  else (orError (.internal "stored MFA secret is corrupt") (service.decrypt stored)).map .encrypted

/-- What `enable_mfa` checks. -/
def verifyEnrollment (now : ℕ) (u : User) (code : String) : AppResult StoredMfaSecret := do
  let stored ← orError (.badRequest "MFA enrollment has not been started") u.mfaSecret
  let stored ← service.openSecret stored
  let secret ← orError (.internal "stored MFA secret is corrupt") (service.base32Decode stored.secretB32)
  if (SecondFactor.verify service.hotp secret code now).isSome then .ok stored
  else .error (.badRequest "Invalid MFA code")

/-- What `disable_mfa` checks. -/
def reauthenticate (u : User) (password : String) : AppResult Unit := do
  let hash ← orError (.badRequest "This account has no password") u.passwordHash
  if service.verifyPassword password hash then .ok () else .error .unauthorized

end MfaService

/-- What `start_mfa_enrollment` checks. -/
def notEnabled (u : User) : AppResult Unit :=
  if u.profile.mfaEnabled then .error (.conflict "MFA is already enabled") else .ok ()

/-! ### Requests -/

inductive Operation where
  | createUser (tenantId : Uuid) (request : CreateUserRequest)
  | updateUser (tenantId userId : Uuid) (request : UpdateUserRequest)
  | updateLastLogin (tenantId userId : Uuid)
  | startMfaEnrollment (tenantId userId : Uuid)
  | enableMfa (tenantId userId : Uuid) (code : String)
  | disableMfa (tenantId userId : Uuid) (password : String)
deriving DecidableEq

/-- Whether a statement succeeds, and what is generated for it. -/
structure Answer where
  ok : Bool
  sealedSecret : String
  recoveryCodes : List String
deriving DecidableEq

inductive Point where
  | creating (tenantId : Uuid) (request : CreateUserRequest)
  | inserting (tenantId : Uuid) (request : CreateUserRequest)
  | updating (tenantId userId : Uuid) (request : UpdateUserRequest)
  | stamping (tenantId userId : Uuid)
  | starting (tenantId userId : Uuid)
  | enrolling (email : String)
  | enabling (tenantId userId : Uuid) (code : String)
  | upgrading (tenantId userId : Uuid) (email secretB32 : String)
  | flagging (tenantId userId : Uuid) (email : String)
  | storing (tenantId userId : Uuid)
  | disabling (tenantId userId : Uuid) (password : String)
  | unflagging (tenantId userId : Uuid) (email : String)
  | forgetting (tenantId userId : Uuid) (email : String)
  | dropping (email : String)
deriving DecidableEq

def start : Operation → Point
  | .createUser tenantId request => .creating tenantId request
  | .updateUser tenantId userId request => .updating tenantId userId request
  | .updateLastLogin tenantId userId => .stamping tenantId userId
  | .startMfaEnrollment tenantId userId => .starting tenantId userId
  | .enableMfa tenantId userId code => .enabling tenantId userId code
  | .disableMfa tenantId userId password => .disabling tenantId userId password

section Advance

variable (service : MfaService) (db : IdentityDb lower)

/-- A statement that the database refuses ends its request. -/
def written (next : Option Point) : AppResult (IdentityDb lower) → IdentityDb lower × Option Point
  | .ok db' => (db', next)
  | .error _ => (db, none)

def storeCodes (tenantId userId : Uuid) (codes : List String) : AppResult (IdentityDb lower) :=
  db.updateRow true tenantId userId fun u => { u with mfaRecoveryCodesHashes := codes }

/-- The next statement of a request, if it succeeds. -/
def perform (now : ℕ) (x : Answer) : Point → IdentityDb lower × Option Point
  | .creating tenantId r => (db, if db.emailExists tenantId r.email then none else some (.inserting tenantId r))
  | .inserting tenantId r => written db none (db.insertRow (r.row tenantId) (r.row_id tenantId))
  | .updating tenantId userId r => written db none (db.updateUser tenantId userId r)
  | .stamping tenantId userId => written db none (db.updateLastLogin now tenantId userId)
  | .starting tenantId userId => (db, (do
      let u ← db.getUserById tenantId userId
      notEnabled u
      return .enrolling u.email : AppResult Point).toOption)
  | .enrolling email => (writeMfaSecret db email (some x.sealedSecret) none, none)
  | .enabling tenantId userId code => (db, (do
      let u ← db.getUserById tenantId userId
      let stored ← service.verifyEnrollment now u code
      return if stored.needsUpgrade then .upgrading tenantId userId u.email stored.secretB32
        else .flagging tenantId userId u.email : AppResult Point).toOption)
  | .upgrading tenantId userId email secretB32 =>
    (writeMfaSecret db email (some x.sealedSecret) (some secretB32), some (.flagging tenantId userId email))
  | .flagging tenantId userId email => (writeMfaEnabled db email true, some (.storing tenantId userId))
  | .storing tenantId userId => written db none (storeCodes db tenantId userId x.recoveryCodes)
  | .disabling tenantId userId password => (db, (do
      let u ← db.getUserById tenantId userId
      service.reauthenticate u password
      return .unflagging tenantId userId u.email : AppResult Point).toOption)
  | .unflagging tenantId userId email => (writeMfaEnabled db email false, some (.forgetting tenantId userId email))
  | .forgetting tenantId userId email => written db (some (.dropping email)) (storeCodes db tenantId userId [])
  | .dropping email => (writeMfaSecret db email none none, none)

def advance (now : ℕ) (x : Answer) (db : IdentityDb lower) (p : Point) : Option (IdentityDb lower × Option Point) :=
  some (if x.ok then perform service db now x p else (db, none))

def handlers : Handlers Operation Answer (IdentityDb lower) Point Empty := .lockless start (advance service)

abbrev step := Requests.step (handlers service : Handlers Operation Answer (IdentityDb lower) Point Empty)

end Advance

/-- All rows of an address and its identity agree, and those that are on hold a secret. -/
structure OneFact (db : IdentityDb lower) : Prop where
  agree : ∀ u ∈ db.users.rows, ∀ v ∈ db.users.rows, lower u.email = lower v.email →
    u.profile.mfaEnabled = v.profile.mfaEnabled
  identity : ∀ u ∈ db.users.rows, ∀ i ∈ db.identities.rows, lower i.email = lower u.email →
    i.profile.mfaEnabled = u.profile.mfaEnabled
  secret : ∀ u ∈ db.users.rows, u.profile.mfaEnabled = true → u.mfaSecret.isSome = true
  identitySecret : ∀ i ∈ db.identities.rows, i.profile.mfaEnabled = true → i.mfaSecret.isSome = true

instance (db : IdentityDb lower) : Decidable (OneFact db) :=
  decidable_of_iff ((∀ u ∈ db.users.rows, ∀ v ∈ db.users.rows, lower u.email = lower v.email →
      u.profile.mfaEnabled = v.profile.mfaEnabled) ∧
    (∀ u ∈ db.users.rows, ∀ i ∈ db.identities.rows, lower i.email = lower u.email →
      i.profile.mfaEnabled = u.profile.mfaEnabled) ∧
    (∀ u ∈ db.users.rows, u.profile.mfaEnabled = true → u.mfaSecret.isSome = true) ∧
    ∀ i ∈ db.identities.rows, i.profile.mfaEnabled = true → i.mfaSecret.isSome = true)
    ⟨fun h => ⟨h.1, h.2.1, h.2.2.1, h.2.2.2⟩, fun h => ⟨h.agree, h.identity, h.secret, h.identitySecret⟩⟩

/-! ### The condition -/

section Condition

variable (db : IdentityDb lower)

/-- The second factor of the address is off. -/
def Off (email : String) : Prop :=
  (∀ u ∈ db.users.rows, lower u.email = lower email → u.profile.mfaEnabled = false) ∧
    ∀ i ∈ db.identities.rows, lower i.email = lower email → i.profile.mfaEnabled = false

/-- Everything of the address holds a secret. -/
def Sealed (email : String) : Prop :=
  (∀ u ∈ db.users.rows, lower u.email = lower email → u.mfaSecret.isSome = true) ∧
    ∀ i ∈ db.identities.rows, lower i.email = lower email → i.mfaSecret.isSome = true

/-- The other rows of the address and its identity agree with the row. -/
def AgreesWith (u : User) (email : String) : Prop :=
  (∀ v ∈ db.users.rows, v.id ≠ u.id → lower v.email = lower email → v.profile.mfaEnabled = u.profile.mfaEnabled) ∧
    ∀ i ∈ db.identities.rows, lower i.email = lower email → i.profile.mfaEnabled = u.profile.mfaEnabled

/-- No other row of the tenant has the address. -/
def Free (tenantId userId : Uuid) (email : String) : Prop :=
  ∀ v ∈ db.users.rows, v.address = (tenantId, email) → v.id = userId

instance (email : String) : Decidable (Off db email) := inferInstanceAs (Decidable (_ ∧ _))

instance (email : String) : Decidable (Sealed db email) := inferInstanceAs (Decidable (_ ∧ _))

instance (u : User) (email : String) : Decidable (AgreesWith db u email) := inferInstanceAs (Decidable (_ ∧ _))

instance (tenantId userId : Uuid) (email : String) : Decidable (Free db tenantId userId email) :=
  inferInstanceAs (Decidable (∀ v ∈ db.users.rows, _))

def CopiesAt : Point → Prop
  | .inserting tenantId r => db.emailExists tenantId r.email = false → Off db r.email
  | .updating tenantId userId r => ∀ u ∈ db.findUser tenantId userId, ∀ email ∈ r.email,
      Free db tenantId userId email → AgreesWith db u email
  | .flagging _ _ email => Sealed db email
  | .dropping email => Off db email
  | _ => True

instance : ∀ p, Decidable (CopiesAt db p)
  | .inserting tenantId r => inferInstanceAs (Decidable (db.emailExists tenantId r.email = false → Off db r.email))
  | .updating tenantId userId r => inferInstanceAs (Decidable (∀ u ∈ db.findUser tenantId userId, ∀ email ∈ r.email,
      Free db tenantId userId email → AgreesWith db u email))
  | .flagging _ _ email => inferInstanceAs (Decidable (Sealed db email))
  | .dropping email => inferInstanceAs (Decidable (Off db email))
  | .creating _ _ | .stamping _ _ | .starting _ _ | .enrolling _ | .enabling _ _ _ | .upgrading _ _ _ _
  | .storing _ _ | .disabling _ _ _ | .unflagging _ _ _ | .forgetting _ _ _ => isTrue trivial

/-- What is copied, and what starts anew, agrees with what is there. -/
def Copies (w : World (IdentityDb lower) Point) : Event Operation Answer → Prop
  | .step i x => x.ok = true → ∀ p ∈ w.requests[i]?, CopiesAt w.store p
  | _ => True

instance (w : World (IdentityDb lower) Point) : ∀ e, Decidable (Copies w e)
  | .step i x => inferInstanceAs (Decidable (x.ok = true → ∀ p ∈ w.requests[i]?, CopiesAt w.store p))
  | .wait _ | .arrive _ | .crash _ => isTrue trivial

end Condition

/-! ### What the trigger keeps -/

variable {db db' put : IdentityDb lower} {new u : User} {email : String} {tenantId userId : Uuid}

/-- What holds of every identity, if it holds of one that gets the profile of the row. -/
theorem find_mirrorUpdate {Q : String → Identity → Prop}
    (hnew : ∀ i, Q (lower new.email) i → Q (lower new.email) { i with profile := new.profile })
    (hQ : ∀ k i, db.identities.find k = some i → Q k i) :
    ∀ k i, (db.mirrorUpdate new).identities.find k = some i → Q k i := by
  intro k i hi
  rw [IdentityDb.identities_mirrorUpdate] at hi
  split at hi
  · next hk =>
      subst hk
      obtain ⟨j, hj, rfl⟩ := Option.map_eq_some_iff.mp hi
      exact hnew j (hQ _ j hj)
  · exact hQ k i hi

theorem find_foldl_mirrorUpdate {Q : String → Identity → Prop} {rows : List User}
    (hrows : ∀ new ∈ rows, ∀ i, Q (lower new.email) i → Q (lower new.email) { i with profile := new.profile })
    (hQ : ∀ k i, db.identities.find k = some i → Q k i) :
    ∀ k i, (rows.foldl IdentityDb.mirrorUpdate db).identities.find k = some i → Q k i := by
  induction rows generalizing db with
  | nil => exact hQ
  | cons new rows ih =>
      rw [List.forall_mem_cons] at hrows
      exact ih hrows.2 (find_mirrorUpdate hrows.1 hQ)

theorem users_foldl_mirrorUpdate (rows : List User) (db : IdentityDb lower) :
    (rows.foldl IdentityDb.mirrorUpdate db).users = db.users := by
  induction rows generalizing db with
  | nil => rfl
  | cons new rows ih => exact (ih _).trans (IdentityDb.users_mirrorUpdate db new)

/-- Rows of one address agree. -/
def Agree (lower : String → String) (rows : List User) : Prop :=
  ∀ u ∈ rows, ∀ v ∈ rows, lower u.email = lower v.email → u.profile.mfaEnabled = v.profile.mfaEnabled

/-- What an identity has to be for the rows of its address. -/
structure Fits (lower : String → String) (rows : List User) (k : String) (i : Identity) : Prop where
  flag : ∀ u ∈ rows, lower u.email = k → i.profile.mfaEnabled = u.profile.mfaEnabled
  secret : i.profile.mfaEnabled = true → i.mfaSecret.isSome = true

theorem oneFact_iff : OneFact db ↔ Agree lower db.users.rows ∧
    (∀ u ∈ db.users.rows, u.profile.mfaEnabled = true → u.mfaSecret.isSome = true) ∧
    ∀ k i, db.identities.find k = some i → Fits lower db.users.rows k i := by
  constructor
  · intro h
    refine ⟨h.agree, h.secret, fun k i hi => ?_⟩
    obtain ⟨hmem, rfl⟩ := Keyed.find_eq_some_iff.mp hi
    exact ⟨fun u hu he => h.identity u hu i hmem he.symm, h.identitySecret i hmem⟩
  · rintro ⟨hagree, hsecret, hfits⟩
    have hfind : ∀ i ∈ db.identities.rows, Fits lower db.users.rows (lower i.email) i :=
      fun i hi => hfits _ i (Keyed.find_eq_some_iff.mpr ⟨hi, rfl⟩)
    exact ⟨hagree, fun u hu i hi he => (hfind i hi).flag u hu he.symm, hsecret, fun i hi => (hfind i hi).secret⟩

/-- An identity that fits still does with the profile of one of the rows. -/
theorem Fits.copy {rows : List User} {i : Identity} (h : Fits lower rows (lower u.email) i)
    (hagree : Agree lower rows) (hu : u ∈ rows) :
    Fits lower rows (lower u.email) { i with profile := u.profile } where
  flag v hv he := hagree u hu v hv he.symm
  secret hon := h.secret ((h.flag u hu rfl).trans hon)

section UpdateAll

variable {p : User → Bool} {f : User → User} {hid : ∀ u, (f u).id = u.id}
  {haddress : ∀ u, (f u).address = u.address} {hplacement : ∀ u, (f u).placement = u.placement}

theorem rows_updateAll : (updateAll db p f hid haddress hplacement).users.rows =
    db.users.rows.map fun u => if p u then f u else u := by
  rw [updateAll, users_foldl_mirrorUpdate]
  rfl

theorem find_updateAll {Q : String → Identity → Prop}
    (hrows : ∀ u ∈ db.users.rows, p u = true → ∀ i, Q (lower (f u).email) i →
      Q (lower (f u).email) { i with profile := (f u).profile })
    (hQ : ∀ k i, db.identities.find k = some i → Q k i) :
    ∀ k i, (updateAll db p f hid haddress hplacement).identities.find k = some i → Q k i := by
  refine find_foldl_mirrorUpdate (fun new hnew i hi => ?_) hQ
  obtain ⟨u, hu, rfl⟩ := List.mem_map.mp hnew
  obtain ⟨hu, hp⟩ := List.mem_filter.mp hu
  exact hrows u hu hp i hi

theorem oneFact_updateAll
    (hagree : ∀ u ∈ db.users.rows, ∀ v ∈ db.users.rows, lower u.email = lower v.email →
      (if p u then f u else u).profile.mfaEnabled = (if p v then f v else v).profile.mfaEnabled)
    (hsecret : ∀ u ∈ db.users.rows, (if p u then f u else u).profile.mfaEnabled = true →
      (if p u then f u else u).mfaSecret.isSome = true)
    (hflag : ∀ k i, db.identities.find k = some i → ∀ u ∈ db.users.rows, lower u.email = k →
      i.profile.mfaEnabled = (if p u then f u else u).profile.mfaEnabled)
    (hidentity : ∀ k i, db.identities.find k = some i → i.profile.mfaEnabled = true → i.mfaSecret.isSome = true) :
    OneFact (updateAll db p f hid haddress hplacement) := by
  have hemail : ∀ u, (if p u then f u else u).email = u.email := by
    intro u
    split
    · exact congrArg Prod.snd (haddress u)
    · rfl
  have hrows : Agree lower (db.users.rows.map fun u => if p u then f u else u) := by
    refine List.forall_mem_map.mpr fun u hu => List.forall_mem_map.mpr fun v hv he => ?_
    rw [hemail, hemail] at he
    exact hagree u hu v hv he
  rw [oneFact_iff, rows_updateAll]
  refine ⟨hrows, List.forall_mem_map.mpr hsecret, find_updateAll (fun u hu hp i hi => ?_) fun k i hi => ?_⟩
  · exact hi.copy hrows (List.mem_map.mpr ⟨u, hu, if_pos hp⟩)
  · refine ⟨List.forall_mem_map.mpr fun u hu he => ?_, hidentity k i hi⟩
    rw [hemail] at he
    exact hflag k i hi u hu he

end UpdateAll

/-! ### Writes -/

variable {i : Identity} {value previous : Option String} {enabled : Bool}

theorem off_find (hoff : Off db email) (hi : db.identities.find (lower email) = some i) :
    i.profile.mfaEnabled = false := by
  obtain ⟨hmem, hlower⟩ := Keyed.find_eq_some_iff.mp hi
  exact hoff.2 i hmem hlower

/-- A secret is removed only where the second factor is off. -/
theorem oneFact_writeMfaSecret (h : OneFact db) (hoff : value = none → Off db email) :
    OneFact (writeMfaSecret db email value previous) := by
  obtain ⟨hagree, hsecret, hfits⟩ := oneFact_iff.mp h
  have hvalue : ∀ b : Bool, (Off db email → b = false) → b = true → value.isSome = true := by
    intro b hb hon
    cases hv : value with
    | none =>
        rw [hb (hoff hv)] at hon
        cases hon
    | some _ => rfl
  have hprofile : ∀ (p : Prop) [Decidable p] u, (if p then setSecret value u else u).profile = u.profile := by
    intro p _ u
    split <;> rfl
  -- The identity of an address keeps its profile, and its secret if it is on.
  have hidentity : ∀ k i, (db.updateIdentity email (setIdentitySecret value previous)
      (setIdentitySecret_key value previous)).identities.find k = some i →
      ∃ j, db.identities.find k = some j ∧ i.profile = j.profile ∧
        (j.profile.mfaEnabled = true → i.mfaSecret.isSome = true) := by
    intro k i hi
    rw [IdentityDb.find_updateIdentity] at hi
    split at hi
    · next hk =>
        subst hk
        obtain ⟨j, hj, rfl⟩ := Option.map_eq_some_iff.mp hi
        refine ⟨j, hj, ?_⟩
        unfold setIdentitySecret
        split
        · exact ⟨rfl, hvalue _ fun hoff => off_find hoff hj⟩
        · exact ⟨rfl, (hfits _ j hj).secret⟩
    · exact ⟨i, hi, rfl, (hfits k i hi).secret⟩
  refine oneFact_updateAll (fun u hu v hv he => ?_) (fun u hu => ?_) (fun k i hi u hu he => ?_) fun k i hi => ?_
  · rw [hprofile, hprofile]
    exact hagree u hu v hv he
  · rw [hprofile]
    split
    · next hp => exact hvalue _ fun hoff => hoff.1 u hu (of_decide_eq_true hp).1
    · exact hsecret u hu
  · obtain ⟨j, hj, hsame, -⟩ := hidentity k i hi
    rw [hprofile, hsame]
    exact (hfits k j hj).flag u hu he
  · obtain ⟨j, hj, hsame, hkept⟩ := hidentity k i hi
    rwa [hsame]

/-- The second factor is turned on only where everything holds a secret. -/
theorem oneFact_writeMfaEnabled (h : OneFact db) (hsealed : enabled = true → Sealed db email) :
    OneFact (writeMfaEnabled db email enabled) := by
  obtain ⟨hagree, hsecret, hfits⟩ := oneFact_iff.mp h
  set rows := db.users.rows.map fun u => if decide (lower u.email = lower email) then setEnabled enabled u else u
    with hrows
  have hemail : ∀ u : User,
      (if decide (lower u.email = lower email) then setEnabled enabled u else u).email = u.email := by
    intro u
    split <;> rfl
  have hflag : ∀ u : User,
      (if decide (lower u.email = lower email) then setEnabled enabled u else u).profile.mfaEnabled =
        if lower u.email = lower email then enabled else u.profile.mfaEnabled := by
    intro u
    simp only [decide_eq_true_eq]
    split <;> rfl
  have hagree' : Agree lower rows := by
    refine List.forall_mem_map.mpr fun u hu => List.forall_mem_map.mpr fun v hv he => ?_
    rw [hemail, hemail] at he
    rw [hflag, hflag, he]
    split
    · rfl
    · exact hagree u hu v hv he
  -- While the rows are written, the identity of the address has the flag of none of them yet.
  have hidentity : ∀ k i, (updateAll db (fun u => lower u.email = lower email) (setEnabled enabled) (fun _ => rfl)
      (fun _ => rfl) fun _ => rfl).identities.find k = some i →
      (k ≠ lower email → Fits lower rows k i) ∧ (k = lower email → enabled = true → i.mfaSecret.isSome = true) := by
    refine find_updateAll (fun u _ hp i hi => ⟨fun hne => ?_, hi.2⟩) fun k i hi => ⟨fun hne => ?_, fun hk hon => ?_⟩
    · exact absurd (of_decide_eq_true hp) hne
    · refine ⟨List.forall_mem_map.mpr fun u hu he => ?_, (hfits k i hi).secret⟩
      rw [hemail] at he
      rw [hflag, if_neg (he.trans_ne hne)]
      exact (hfits k i hi).flag u hu he
    · obtain ⟨hmem, hlower⟩ := Keyed.find_eq_some_iff.mp hi
      exact (hsealed hon).2 i hmem (hlower.trans hk)
  have husers : (writeMfaEnabled db email enabled).users.rows = rows := rows_updateAll
  rw [oneFact_iff, husers]
  refine ⟨hagree', List.forall_mem_map.mpr fun u hu => ?_, fun k i hi => ?_⟩
  · rw [hflag]
    split
    · next he =>
        rw [if_pos (decide_eq_true he)]
        exact fun hon => (hsealed hon).1 u hu he
    · next he =>
        rw [if_neg fun h => he (of_decide_eq_true h)]
        exact hsecret u hu
  · rw [writeMfaEnabled, IdentityDb.find_updateIdentity] at hi
    split at hi
    · next hk =>
        subst hk
        obtain ⟨j, hj, rfl⟩ := Option.map_eq_some_iff.mp hi
        refine ⟨List.forall_mem_map.mpr fun u hu he => ?_, (hidentity _ j hj).2 rfl⟩
        rw [hemail] at he
        rw [hflag, if_pos he]
    · next hk => exact (hidentity k i hi).1 hk

theorem oneFact_insertRow (h : OneFact db) {mk : Uuid → User} {hk : ∀ id, (mk id).id = id}
    (ho : db.insertRow mk hk = .ok db') (hnew : (mk db.users.next).profile.mfaEnabled = false)
    (hoff : Off db (mk db.users.next).email) : OneFact db' := by
  obtain ⟨hagree, hsecret, hfits⟩ := oneFact_iff.mp h
  obtain ⟨put, hids, -, hrows, ho⟩ := IdentityDb.insertRow_ok ho
  have husers := IdentityDb.users_mirrorInsert ho
  refine oneFact_iff.mpr ⟨fun u hu v hv he => ?_, fun u hu => ?_, fun k i hi => ?_⟩
  · rw [husers, hrows] at hu hv
    obtain hu | rfl := hu
    · obtain hv | rfl := hv
      · exact hagree u hu v hv he
      · rw [hnew, hoff.1 u hu he]
    · obtain hv | rfl := hv
      · rw [hnew, hoff.1 v hv he.symm]
      · rfl
  · rw [husers, hrows] at hu
    obtain hu | rfl := hu
    · exact hsecret u hu
    · intro hon
      rw [hnew] at hon
      cases hon
  · rw [IdentityDb.identities_mirrorInsert ho, hids] at hi
    have hseed : ∀ i, k = lower (mk db.users.next).email → i.profile.mfaEnabled = false →
        Fits lower db'.users.rows k i := by
      intro i hk hoff'
      refine ⟨fun u hu he => ?_, fun hon => ?_⟩
      · rw [husers, hrows] at hu
        obtain hu | rfl := hu
        · rw [hoff', hoff.1 u hu (he.trans hk)]
        · rw [hoff', hnew]
      · rw [hoff'] at hon
        cases hon
    split at hi
    · next hk =>
        subst hk
        cases hj : db.identities.find (lower (mk db.users.next).email) with
        | none =>
            rw [hj] at hi
            cases hi
            exact hseed _ rfl hnew
        | some j =>
            rw [hj] at hi
            cases hi
            exact hseed _ rfl (off_find hoff hj)
    · next hk =>
        refine ⟨fun u hu he => ?_, (hfits k i hi).secret⟩
        rw [husers, hrows] at hu
        obtain hu | rfl := hu
        · exact (hfits k i hi).flag u hu he
        · exact absurd he.symm hk

theorem oneFact_updateRow (h : OneFact db) {f : User → User} {hf : ∀ u, (f u).id = u.id}
    (ho : db.updateRow true tenantId userId f hf = .ok db')
    (hsame : ∀ u, (f u).profile.mfaEnabled = u.profile.mfaEnabled ∧ (f u).mfaSecret = u.mfaSecret)
    (hagrees : ∀ u, db.findUser tenantId userId = some u → AgreesWith db u (f u).email) : OneFact db' := by
  cases hu : db.findUser tenantId userId with
  | none => rwa [IdentityDb.updateRow_of_not_found hu ho]
  | some u =>
      obtain ⟨hagree, hsecret, hfits⟩ := oneFact_iff.mp h
      obtain ⟨put, hids, -, hrows, rfl⟩ := IdentityDb.updateRow_ok hu ho
      obtain ⟨hothers, hidentity⟩ := hagrees u hu
      obtain ⟨hflag, hkept⟩ := hsame u
      have hmem := (IdentityDb.findUser_eq_some_iff.mp hu).1
      have hput : Agree lower put.users.rows := by
        intro v hv w hw he
        rw [hrows] at hv hw
        obtain rfl | ⟨hv, hvid⟩ := hv
        · obtain rfl | ⟨hw, hwid⟩ := hw
          · rfl
          · rw [hflag, hothers w hw hwid he.symm]
        · obtain rfl | ⟨hw, hwid⟩ := hw
          · rw [hflag, hothers v hv hvid he]
          · exact hagree v hv w hw he
      rw [if_pos rfl, oneFact_iff, IdentityDb.users_mirrorUpdate]
      refine ⟨hput, fun v hv => ?_, find_mirrorUpdate (fun i hi => ?_) fun k i hi => ?_⟩
      · rw [hrows] at hv
        obtain rfl | ⟨hv, -⟩ := hv
        · rw [hflag, hkept]
          exact hsecret u hmem
        · exact hsecret v hv
      · exact hi.copy hput ((hrows _).mpr (.inl rfl))
      · rw [hids] at hi
        refine ⟨fun v hv he => ?_, (hfits k i hi).secret⟩
        rw [hrows] at hv
        obtain rfl | ⟨hv, -⟩ := hv
        · obtain ⟨hi, hk⟩ := Keyed.find_eq_some_iff.mp hi
          rw [hflag]
          exact hidentity i hi (hk.trans he.symm)
        · exact (hfits k i hi).flag v hv he

/-- A write that leaves address, flag and secret alone. -/
theorem oneFact_updateRow_same (h : OneFact db) {f : User → User} {hf : ∀ u, (f u).id = u.id}
    (ho : db.updateRow true tenantId userId f hf = .ok db')
    (hsame : ∀ u, (f u).profile.mfaEnabled = u.profile.mfaEnabled ∧ (f u).mfaSecret = u.mfaSecret)
    (hemail : ∀ u, (f u).email = u.email) : OneFact db' := by
  refine oneFact_updateRow h ho hsame fun u hu => ?_
  have hmem := (IdentityDb.findUser_eq_some_iff.mp hu).1
  rw [hemail]
  exact ⟨fun v hv _ he => h.agree v hv u hmem he, fun i hi he => h.identity u hmem i hi he⟩

theorem oneFact_updateUser (h : OneFact db) {r : UpdateUserRequest} (hC : CopiesAt db (.updating tenantId userId r))
    (ho : db.updateUser tenantId userId r = .ok db') : OneFact db' := by
  unfold IdentityDb.updateUser at ho
  split at ho
  · cases ho
    exact h
  · cases he : r.email with
    | none =>
        refine oneFact_updateRow_same h ho (fun _ => ⟨rfl, rfl⟩) fun u => ?_
        simp [UpdateUserRequest.set, he]
    | some email =>
        have hset : ∀ u, (r.set u).email = email := fun u => by simp [UpdateUserRequest.set, he]
        refine oneFact_updateRow h ho (fun _ => ⟨rfl, rfl⟩) fun u hu => ?_
        obtain ⟨-, hid, htenant⟩ := IdentityDb.findUser_eq_some_iff.mp hu
        rw [hset]
        refine hC u hu email he fun v hv haddress => ?_
        -- The database has let the address through.
        by_contra hne
        refine IdentityDb.address_of_updateRow hu ho hv (fun h => hne (h.trans hid)) (haddress.trans ?_)
        rw [User.address, hset, ← htenant]
        rfl

theorem oneFact_written (h : OneFact db) {next : Option Point} {r : AppResult (IdentityDb lower)}
    (hr : ∀ db', r = .ok db' → OneFact db') : OneFact (written db next r).1 := by
  cases r with
  | ok db' => exact hr db' rfl
  | error _ => exact h

theorem oneFact_perform {service : MfaService} {now : ℕ} {x : Answer} {p : Point} (h : OneFact db)
    (hC : CopiesAt db p) : OneFact (perform service db now x p).1 := by
  cases p with
  | inserting tenantId r =>
      refine oneFact_written h fun db' ho => oneFact_insertRow h ho rfl (hC (List.any_eq_false.mpr fun v hv htaken => ?_))
      obtain ⟨htenant, hemail⟩ := of_decide_eq_true htaken
      exact IdentityDb.address_of_insertRow ho hv (Prod.ext htenant hemail)
  | updating tenantId userId r => exact oneFact_written h fun db' ho => oneFact_updateUser h hC ho
  | stamping tenantId userId =>
      exact oneFact_written h fun db' ho => oneFact_updateRow_same h ho (fun _ => ⟨rfl, rfl⟩) fun _ => rfl
  | enrolling email => exact oneFact_writeMfaSecret h fun hnone => absurd hnone (Option.some_ne_none _)
  | upgrading tenantId userId email secretB32 =>
      exact oneFact_writeMfaSecret h fun hnone => absurd hnone (Option.some_ne_none _)
  | flagging tenantId userId email => exact oneFact_writeMfaEnabled h fun _ => hC
  | storing tenantId userId =>
      exact oneFact_written h fun db' ho => oneFact_updateRow_same h ho (fun _ => ⟨rfl, rfl⟩) fun _ => rfl
  | unflagging tenantId userId email => exact oneFact_writeMfaEnabled h fun hon => absurd hon Bool.false_ne_true
  | forgetting tenantId userId email =>
      exact oneFact_written h fun db' ho => oneFact_updateRow_same h ho (fun _ => ⟨rfl, rfl⟩) fun _ => rfl
  | dropping email => exact oneFact_writeMfaSecret h fun _ => hC
  | _ => exact h

/-! ### Runs -/

theorem rule {service : MfaService} :
    Rule (handlers service) (fun _ (db : IdentityDb lower) => OneFact db) (fun _ _ _ => True) Copies where
  locks _ _ _ _ hb := absurd hb List.not_mem_nil
  unlocked _ := rfl
  wait h _ := ⟨h, fun _ _ => trivial⟩
  start _ _ := trivial
  step {w i x p s q} hw hC hi ha := by
    refine ⟨?_, fun _ _ => trivial, fun _ _ _ _ => trivial⟩
    rw [show (handlers service).advance w.now x w.store p =
      some (if x.ok then perform service w.store w.now x p else (w.store, none)) from rfl, Option.some.injEq] at ha
    split at ha
    · next hok =>
        have hperform : OneFact (perform service w.store w.now x p).1 := oneFact_perform hw.store (hC hok p hi)
        rwa [ha] at hperform
    · cases ha
      exact hw.store

theorem one_fact {service : MfaService} {db : IdentityDb lower} {now : ℕ} {es : List (Event Operation Answer)}
    {w : World (IdentityDb lower) Point} (hdb : OneFact db)
    (hC : StepsMeet (step service) Copies (World.start now db) es)
    (hr : run (step service) (World.start now db) es = some w) : OneFact w.store :=
  (rule.run (Requests.keeps_start hdb) hC hr).store

/-! ### Two seats of one human -/

/-- The code of every secret is `123456`. -/
def oneCode : MfaService :=
  { decrypt := some, base32Decode := fun _ => some [], hotp := fun _ _ => 123456,
    verifyPassword := fun password hash => password = hash }

def ann : CreateUserRequest :=
  { email := "ann@acme.test", firstName := "Ann", lastName := "Lee", phone := none, mobile := none, title := none,
    role := .technician, timezone := none, dateFormatString := none, themeBaseMode := none, themeAccentId := none }

/-- Ann has a seat, and a password. -/
def oneSeat : IdentityDb fun s => s :=
  ((IdentityDb.empty.insertRow fun id =>
    { ann.row 1 id with passwordHash := some "winter", status := .active }).toOption).getD .empty

def yes : Answer := { ok := true, sealedSecret := "sealed:secret", recoveryCodes := ["a", "b"] }

/-- A request that is alone, with so many statements. -/
def alone (op : Operation) (n : ℕ) : List (Event Operation Answer) := .arrive op :: List.replicate n (.step 0 yes)

def enroll : List (Event Operation Answer) := alone (.startMfaEnrollment 1 0) 2

def enable : List (Event Operation Answer) := alone (.enableMfa 1 0 "123456") 3

def secondSeat : List (Event Operation Answer) := alone (.createUser 2 ann) 2

/-- The second seat is there before the second factor is turned on, and off again. -/
def inTurn : List (Event Operation Answer) :=
  secondSeat ++ enroll ++ enable ++ alone (.updateLastLogin 2 1) 1 ++ alone (.disableMfa 1 0 "winter") 4

theorem one_fact_inTurn : ∃ w, run (step oneCode) (World.start 0 oneSeat) inTurn = some w ∧
    w.store.users.rows.length = 2 ∧ OneFact w.store := by
  have h : (run (step oneCode) (World.start 0 oneSeat) inTurn).any
      (fun w => w.store.users.rows.length = 2) = true := by
    decide +kernel
  obtain ⟨w, hr, hlength⟩ := exists_run_of_any h
  exact ⟨w, hr, of_decide_eq_true hlength, one_fact (by decide +kernel) (by decide +kernel) hr⟩

/-- Ann gets a second seat after she has turned the second factor on, and signs in there: the identity has it off. -/
def lateSeat : List (Event Operation Answer) :=
  enroll ++ enable ++ secondSeat ++ alone (.updateLastLogin 2 1) 1

/-- She gets it between the two calls: it has the second factor on, and no secret. -/
def seatBetween : List (Event Operation Answer) := enroll ++ secondSeat ++ enable

/-- The second factor is turned on while it is turned off. -/
def crossed : List (Event Operation Answer) :=
  enroll ++ enable ++ [.arrive (.disableMfa 1 0 "winter"), .arrive (.enableMfa 1 0 "123456")] ++
    [.step 0 yes, .step 0 yes, .step 0 yes, .step 1 yes, .step 1 yes, .step 1 yes, .step 0 yes]

theorem second_factor_skipped :
    (∃ w ∈ run (step oneCode) (World.start 0 oneSeat) lateSeat, w.requests = [] ∧ ¬OneFact w.store ∧
      (∀ u ∈ w.store.users.rows, u.id = 0 → u.profile.mfaEnabled = true) ∧
      ∀ i ∈ w.store.identities.rows, i.profile.mfaEnabled = false) ∧
    (∃ w ∈ run (step oneCode) (World.start 0 oneSeat) seatBetween, w.requests = [] ∧ ¬OneFact w.store) ∧
    ∃ w ∈ run (step oneCode) (World.start 0 oneSeat) crossed, w.requests = [] ∧ ¬OneFact w.store := by
  decide +kernel

end Mokosh.MfaFlag
