import Mokosh.Lib.Requests
import Mokosh.Lib.Table
import Mokosh.Types
import Mokosh.Utils.Text

/-! # The second factor

`auth/service.rs`, `utils/totp.rs`, `utils/recovery.rs`: one human with one identity and a seat in each of
any number of tenants.

* The secret and whether the second factor is on are written to the identity and to all seats.  The
  watermarks against replays, the recovery codes, the failed attempts and the lock are per row.
* A login of a seat reads the seat, then its lock, compares the code, and writes what came of it; an
  identity-first login reads the identity, compares, and writes.  Each is a transaction of its own.
* The store keeps a history: which factors were accepted (`uses`), and when a code was compared, refused or
  accepted (`attempts`).
* `hotp` is the value of a time step, which HMAC-SHA1 computes from the secret. -/

namespace Mokosh.SecondFactor

open Requests (Handlers World Event)

/-! ### Codes -/

abbrev Secret := List UInt8

def totpStepSecs : ℤ := 30

def totpDigits : ℕ := 6

def formatCode (value : ℕ) : List Char :=
  let digits := Nat.toDigits 10 value
  List.replicate (totpDigits - digits.length) '0' ++ digits

/-- `totp::verify`, with a window of one step. -/
def verify (hotp : Secret → ℤ → ℕ) (secret : Secret) (code : String) (now : ℕ) : Option ℤ :=
  let digits := Text.trim code.toList
  let t := now / totpStepSecs
  if digits.length ≠ totpDigits ∨ ¬digits.all Char.isDigit then none
  else [t - 1, t, t + 1].find? fun step => formatCode (hotp secret step) = digits

/-- `recovery::RECOVERY_CODE_COUNT`. -/
def recoveryCodeCount : ℕ := 10

/-! ### Rows -/

/-- The `users` row of the human in one of the tenants. -/
structure Seat where
  id : Uuid
  mfaEnabled : Bool
  mfaSecret : Option Secret
  mfaLastUsedStep : Option ℤ
  mfaFailedAttempts : ℕ
  mfaLockedUntil : Option ℕ
  /-- The hashes of the recovery codes, as the numbers that the codes were minted under. -/
  mfaRecoveryCodesHashes : List ℕ
deriving DecidableEq

structure Identity where
  mfaEnabled : Bool
  mfaSecret : Option Secret
  mfaLastTotpStep : ℤ
deriving DecidableEq

namespace Seat

def withSecret (s : Seat) (secret : Option Secret) : Seat := { s with mfaSecret := secret }

def withEnabled (s : Seat) (enabled : Bool) : Seat := { s with mfaEnabled := enabled }

def withCodes (s : Seat) (codes : List ℕ) : Seat := { s with mfaRecoveryCodesHashes := codes }

def pop (s : Seat) (code : ℕ) : Seat := s.withCodes (s.mfaRecoveryCodesHashes.filter (· ≠ code))

/-- `mfa_lock_seconds_sql`. -/
def mfaLockSeconds (count : ℕ) : Option ℕ :=
  if 3 ≤ count then some (min 3600 (30 * 2 ^ min 20 (count - 3))) else none

/-- `register_failed_mfa`. -/
def registerFailedMfa (s : Seat) (now : ℕ) : Seat :=
  { s with
    mfaFailedAttempts := s.mfaFailedAttempts + 1,
    mfaLockedUntil := ((mfaLockSeconds (s.mfaFailedAttempts + 1)).map (now + ·)).or s.mfaLockedUntil }

/-- `clear_mfa_lockout`. -/
def clearMfaLockout (s : Seat) : Seat := { s with mfaFailedAttempts := 0, mfaLockedUntil := none }

/-- `record_mfa_success`, on a row that it selects. -/
def recordMfaSuccess (s : Seat) (step : ℤ) : Seat :=
  { s.clearMfaLockout with mfaLastUsedStep := some step }

/-- The step is later than the last one used. -/
def accepts (s : Seat) (step : ℤ) : Bool := s.mfaLastUsedStep.all (· < step)

def isLocked (s : Seat) (now : ℕ) : Bool := s.mfaLockedUntil.any (now < ·)

@[simp] theorem withSecret_id (s : Seat) (secret : Option Secret) : (s.withSecret secret).id = s.id := rfl

@[simp] theorem withEnabled_id (s : Seat) (enabled : Bool) : (s.withEnabled enabled).id = s.id := rfl

@[simp] theorem withCodes_id (s : Seat) (codes : List ℕ) : (s.withCodes codes).id = s.id := rfl

@[simp] theorem pop_id (s : Seat) (code : ℕ) : (s.pop code).id = s.id := rfl

@[simp] theorem registerFailedMfa_id (s : Seat) (now : ℕ) : (s.registerFailedMfa now).id = s.id := rfl

@[simp] theorem clearMfaLockout_id (s : Seat) : s.clearMfaLockout.id = s.id := rfl

@[simp] theorem recordMfaSuccess_id (s : Seat) (step : ℤ) : (s.recordMfaSuccess step).id = s.id := rfl

end Seat

/-! ### The store -/

/-- Which login: of a seat, or identity-first. -/
inductive Path where
  | seat (id : Uuid)
  | identity
deriving DecidableEq

/-- A factor that a login was completed with. -/
inductive Use where
  /-- A time step, after so many changes of the secret. -/
  | totp (secretChanges : ℕ) (step : ℤ) (path : Path)
  /-- A recovery code, when those below `retired` were minted before the last `enable_mfa` or
  `disable_mfa`. -/
  | recoveryCode (code retired : ℕ)
deriving DecidableEq

inductive Outcome where
  | compared
  | failed
  | accepted
deriving DecidableEq

structure Attempt where
  time : ℕ
  path : Path
  outcome : Outcome
deriving DecidableEq

structure FactorDb where
  seats : Table Seat.id
  identity : Identity
  /-- How many recovery codes have been minted. -/
  minted : ℕ
  retired : ℕ
  secretChanges : ℕ
  /-- The newest first, as the attempts. -/
  uses : List Use
  attempts : List Attempt

namespace FactorDb

variable (db : FactorDb)

def seat (id : Uuid) : Option Seat := db.seats.find id

def attempted (now : ℕ) (path : Path) (outcome : Outcome) : FactorDb :=
  { db with attempts := { time := now, path := path, outcome := outcome } :: db.attempts }

def used (use : Use) : FactorDb := { db with uses := use :: db.uses }

def writeMfaSecret (secret : Option Secret) : FactorDb :=
  { db with
    seats := db.seats.map (·.withSecret secret) fun s => s.withSecret_id secret,
    identity := { db.identity with mfaSecret := secret },
    secretChanges := db.secretChanges + 1 }

def writeMfaEnabled (enabled : Bool) : FactorDb :=
  { db with
    seats := db.seats.map (·.withEnabled enabled) fun s => s.withEnabled_id enabled,
    identity := { db.identity with mfaEnabled := enabled, mfaLastTotpStep := 0 } }

def writeCodes (id : Uuid) (codes : List ℕ) : FactorDb :=
  { db with seats := db.seats.update id (·.withCodes codes) fun s => s.withCodes_id codes }

/-- The codes below `retired` were minted before what has just come to its end. -/
def retire (retired : ℕ) : FactorDb := { db with retired := retired }

def mint : FactorDb := { db with minted := db.minted + recoveryCodeCount }

def newCodes : List ℕ := (List.range recoveryCodeCount).map (db.minted + ·)

def pop (id : Uuid) (code : ℕ) : FactorDb :=
  { db with seats := db.seats.update id (·.pop code) fun s => s.pop_id code }

def registerFailedMfa (now : ℕ) (id : Uuid) : FactorDb :=
  { db with
    seats := db.seats.update id (·.registerFailedMfa now) fun s => s.registerFailedMfa_id now }

def clearMfaLockout (id : Uuid) : FactorDb :=
  { db with seats := db.seats.update id (·.clearMfaLockout) fun s => s.clearMfaLockout_id }

def recordMfaSuccess (id : Uuid) (step : ℤ) : FactorDb :=
  { db with seats := db.seats.update id (·.recordMfaSuccess step) fun s => s.recordMfaSuccess_id step }

def recordIdentityMfaSuccess (step : ℤ) : FactorDb :=
  { db with identity := { db.identity with mfaLastTotpStep := step } }

end FactorDb

/-! ### Requests -/

structure LoginRequest where
  mfaCode : Option String
  recoveryCode : Option ℕ
deriving DecidableEq

inductive Operation where
  | login (id : Uuid) (request : LoginRequest)
  | authenticateIdentityFirst (request : LoginRequest)
  | startMfaEnrollment (id : Uuid)
  | enableMfa (id : Uuid) (code : String)
  | disableMfa (id : Uuid)
deriving DecidableEq

/-- What a step is told from outside: the secret that was generated, whether the password is right. -/
inductive Answer where
  | nothing
  | generated (secret : Secret)
  | password (verified : Bool)
deriving DecidableEq

def Answer.newSecret : Answer → Secret
  | generated secret => secret
  | _ => []

def Answer.verified : Answer → Bool
  | password verified => verified
  | _ => true

/-- Where a request stands.  The password of a login has been verified. -/
inductive Point where
  | loggingIn (id : Uuid) (request : LoginRequest)
  | checkingLock (id : Uuid) (secret : Option Secret) (request : LoginRequest)
  | comparing (id : Uuid) (secret : Option Secret) (request : LoginRequest)
  | recording (id : Uuid) (step : ℤ)
  | clearing (id : Uuid)
  | registering (id : Uuid)
  | identityLoggingIn (request : LoginRequest)
  | identityComparing (secret : Secret) (code : String)
  | identityRecording (step : ℤ)
  | starting (id : Uuid)
  | enrolling
  | enabling (id : Uuid) (code : String)
  | flagging (id : Uuid) (codes : List ℕ)
  | storing (id : Uuid) (codes : List ℕ)
  | disabling (id : Uuid)
  | unflagging (id : Uuid) (minted : ℕ)
  | dropping (id : Uuid) (minted : ℕ)
  | forgetting (minted : ℕ)
deriving DecidableEq

def start : Operation → Point
  | .login id request => .loggingIn id request
  | .authenticateIdentityFirst request => .identityLoggingIn request
  | .startMfaEnrollment id => .starting id
  | .enableMfa id code => .enabling id code
  | .disableMfa id => .disabling id

section Advance

variable (hotp : Secret → ℤ → ℕ)

/-- The row and the lock let a login of the seat compare its code. -/
def comparesAt (db : FactorDb) (now : ℕ) (id : Uuid) (request : LoginRequest) : Bool :=
  (db.seat id).any fun seat =>
    !seat.isLocked now && (request.recoveryCode.isSome || request.mfaCode.isSome)

/-- The comparison of a code with the secret that the login has read. -/
def compareTotp (now : ℕ) (id : Uuid) (secret : Option Secret) (code : Option String) (db : FactorDb) :
    FactorDb × Option Point :=
  match secret, code with
  | some secret, some code =>
    (db.attempted now (.seat id) .compared, some (
      match verify hotp secret code now with
      | some step => .recording id step
      | none => .registering id))
  | _, _ => (db, none)

/-- A recovery code is compared and taken by one statement. -/
def compareRecoveryCode (now : ℕ) (id : Uuid) (code : ℕ) (db : FactorDb) : FactorDb × Option Point :=
  let db' := db.attempted now (.seat id) .compared
  if (db.seat id).any fun seat => code ∈ seat.mfaRecoveryCodesHashes then
    ((db'.pop id code).used (.recoveryCode code db.retired), some (.clearing id))
  else (db', some (.registering id))

/-- The next step of a request. -/
def advance (now : ℕ) (answer : Answer) (db : FactorDb) : Point → Option (FactorDb × Option Point)
  | .loggingIn id request =>
    some (db, ((db.seat id).filter (·.mfaEnabled)).map fun seat =>
      .checkingLock id seat.mfaSecret request)
  | .checkingLock id secret request =>
    some (db, if comparesAt db now id request then some (.comparing id secret request) else none)
  | .comparing id secret request =>
    some (
      match request.recoveryCode with
      | some code => compareRecoveryCode now id code db
      | none => compareTotp hotp now id secret request.mfaCode db)
  | .recording id step =>
    some (
      if (db.seat id).any (·.accepts step) then
        (((db.recordMfaSuccess id step).attempted now (.seat id) .accepted).used
          (.totp db.secretChanges step (.seat id)), none)
      else (db, some (.registering id)))
  | .clearing id => some ((db.clearMfaLockout id).attempted now (.seat id) .accepted, none)
  | .registering id => some ((db.registerFailedMfa now id).attempted now (.seat id) .failed, none)
  | .identityLoggingIn request =>
    some (db, do
      guard db.identity.mfaEnabled
      let code ← request.mfaCode
      guard (Text.trim code.toList ≠ [])
      let secret ← db.identity.mfaSecret
      return .identityComparing secret code)
  | .identityComparing secret code =>
    let db' := db.attempted now .identity .compared
    some (
      match verify hotp secret code now with
      | some step => (db', some (.identityRecording step))
      | none => (db'.attempted now .identity .failed, none))
  | .identityRecording step =>
    some (
      if db.identity.mfaLastTotpStep < step then
        (((db.recordIdentityMfaSuccess step).attempted now .identity .accepted).used
          (.totp db.secretChanges step .identity), none)
      else (db.attempted now .identity .failed, none))
  | .starting id =>
    some (db, ((db.seat id).filter fun seat => !seat.mfaEnabled).map fun _ => .enrolling)
  | .enrolling => some (db.writeMfaSecret (some answer.newSecret), none)
  | .enabling id code =>
    some (
      match ((db.seat id).bind (·.mfaSecret)).bind fun secret => verify hotp secret code now with
      | some _ => (db.mint, some (.flagging id db.newCodes))
      | none => (db, none))
  | .flagging id codes => some (db.writeMfaEnabled true, some (.storing id codes))
  | .storing id codes => some ((db.writeCodes id codes).retire (codes.headD db.retired), none)
  | .disabling id =>
    some (db, if (db.seat id).isSome ∧ answer.verified then some (.unflagging id db.minted) else none)
  | .unflagging id minted => some (db.writeMfaEnabled false, some (.dropping id minted))
  | .dropping id minted => some (db.writeCodes id [], some (.forgetting minted))
  | .forgetting minted => some ((db.writeMfaSecret none).retire minted, none)

/-! ### What a step leaves behind -/

/-- The recovery codes that an `enable_mfa` has minted and not stored. -/
def Point.codes : Point → List ℕ
  | .flagging _ codes | .storing _ codes => codes
  | _ => []

inductive Leaves (now : ℕ) (answer : Answer) (db : FactorDb) : Point → FactorDb → Option Point → Prop
  | read {p : Point} {q : Option Point} (hq : ∀ p' ∈ q, p'.codes = []) (hp : p.codes = []) :
      Leaves now answer db p db q
  | compared {id : Uuid} {secret : Option Secret} {request : LoginRequest} {q : Option Point}
      (hq : ∀ p' ∈ q, p'.codes = []) :
      Leaves now answer db (.comparing id secret request) (db.attempted now (.seat id) .compared) q
  | popped {id : Uuid} {secret : Option Secret} {request : LoginRequest} {code : ℕ} {seat : Seat}
      (hs : db.seat id = some seat) (hc : code ∈ seat.mfaRecoveryCodesHashes) :
      Leaves now answer db (.comparing id secret request)
        (((db.attempted now (.seat id) .compared).pop id code).used (.recoveryCode code db.retired))
        (some (.clearing id))
  | recorded {id : Uuid} {step : ℤ} {seat : Seat} (hs : db.seat id = some seat)
      (ha : seat.accepts step = true) :
      Leaves now answer db (.recording id step)
        (((db.recordMfaSuccess id step).attempted now (.seat id) .accepted).used
          (.totp db.secretChanges step (.seat id))) none
  | cleared {id : Uuid} : Leaves now answer db (.clearing id)
      ((db.clearMfaLockout id).attempted now (.seat id) .accepted) none
  | registered {id : Uuid} : Leaves now answer db (.registering id)
      ((db.registerFailedMfa now id).attempted now (.seat id) .failed) none
  | identityCompared {secret : Secret} {code : String} {step : ℤ}
      (hv : verify hotp secret code now = some step) :
      Leaves now answer db (.identityComparing secret code) (db.attempted now .identity .compared)
        (some (.identityRecording step))
  | identityRefused {secret : Secret} {code : String} (hv : verify hotp secret code now = none) :
      Leaves now answer db (.identityComparing secret code)
        ((db.attempted now .identity .compared).attempted now .identity .failed) none
  | identityRecorded {step : ℤ} (ha : db.identity.mfaLastTotpStep < step) :
      Leaves now answer db (.identityRecording step)
        (((db.recordIdentityMfaSuccess step).attempted now .identity .accepted).used
          (.totp db.secretChanges step .identity)) none
  | identityMissed {step : ℤ} (ha : ¬db.identity.mfaLastTotpStep < step) :
      Leaves now answer db (.identityRecording step) (db.attempted now .identity .failed) none
  | enrolled : Leaves now answer db .enrolling (db.writeMfaSecret (some answer.newSecret)) none
  | minted {id : Uuid} {code : String} :
      Leaves now answer db (.enabling id code) db.mint (some (.flagging id db.newCodes))
  | flagged {id : Uuid} {codes : List ℕ} :
      Leaves now answer db (.flagging id codes) (db.writeMfaEnabled true) (some (.storing id codes))
  | stored {id : Uuid} {codes : List ℕ} :
      Leaves now answer db (.storing id codes) ((db.writeCodes id codes).retire (codes.headD db.retired))
        none
  | unflagged {id : Uuid} {minted : ℕ} : Leaves now answer db (.unflagging id minted)
      (db.writeMfaEnabled false) (some (.dropping id minted))
  | dropped {id : Uuid} {minted : ℕ} : Leaves now answer db (.dropping id minted)
      (db.writeCodes id []) (some (.forgetting minted))
  | forgotten {minted : ℕ} : Leaves now answer db (.forgetting minted)
      ((db.writeMfaSecret none).retire minted) none

theorem leaves_compareTotp {now : ℕ} {x : Answer} {db s : FactorDb} {id : Uuid}
    {secret : Option Secret} {request : LoginRequest} {q : Option Point}
    (h : compareTotp hotp now id secret request.mfaCode db = (s, q)) :
    Leaves hotp now x db (.comparing id secret request) s q := by
  unfold compareTotp at h
  split at h
  · cases h
    refine .compared fun p' hp' => ?_
    cases hp'
    split <;> rfl
  · cases h
    exact .read (by simp) rfl

theorem leaves_compareRecoveryCode {now code : ℕ} {x : Answer} {db s : FactorDb} {id : Uuid}
    {secret : Option Secret} {request : LoginRequest} {q : Option Point}
    (h : compareRecoveryCode now id code db = (s, q)) :
    Leaves hotp now x db (.comparing id secret request) s q := by
  unfold compareRecoveryCode at h
  split at h
  · next hany =>
      cases h
      obtain ⟨seat, hs, hc⟩ := (Option.any_eq_true _ _).mp hany
      exact .popped hs (of_decide_eq_true hc)
  · cases h
    refine .compared fun p' hp' => ?_
    cases hp'
    rfl

theorem advance_leaves {now : ℕ} {x : Answer} {db s : FactorDb} {p : Point} {q : Option Point}
    (h : advance hotp now x db p = some (s, q)) : Leaves hotp now x db p s q := by
  cases p with
  | loggingIn id request =>
      cases h
      refine .read (fun p' hp' => ?_) rfl
      obtain ⟨seat, -, rfl⟩ := Option.map_eq_some_iff.mp hp'
      rfl
  | checkingLock id secret request =>
      cases h
      refine .read (fun p' hp' => ?_) rfl
      obtain ⟨-, hp'⟩ := Option.ite_none_right_eq_some.mp hp'
      cases hp'
      rfl
  | comparing id secret request =>
      have h := Option.some.inj h
      split at h
      · exact leaves_compareRecoveryCode hotp h
      · exact leaves_compareTotp hotp h
  | recording id step =>
      have h := Option.some.inj h
      split at h
      · next hany =>
          cases h
          obtain ⟨seat, hs, ha⟩ := (Option.any_eq_true _ _).mp hany
          exact .recorded hs ha
      · cases h
        refine .read (fun p' hp' => ?_) rfl
        cases hp'
        rfl
  | clearing id =>
      cases h
      exact .cleared
  | registering id =>
      cases h
      exact .registered
  | identityLoggingIn request =>
      cases h
      refine .read (fun p' hp' => ?_) rfl
      simp only [Option.mem_def, Option.bind_eq_bind, Option.bind_eq_some_iff] at hp'
      obtain ⟨-, -, code, -, -, -, secret, -, hp'⟩ := hp'
      cases hp'
      rfl
  | identityComparing secret code =>
      have h := Option.some.inj h
      split at h
      · next step hv =>
          cases h
          exact .identityCompared hv
      · next hv =>
          cases h
          exact .identityRefused hv
  | identityRecording step =>
      have h := Option.some.inj h
      split at h
      · next ha =>
          cases h
          exact .identityRecorded ha
      · next ha =>
          cases h
          exact .identityMissed ha
  | starting id =>
      cases h
      refine .read (fun p' hp' => ?_) rfl
      obtain ⟨seat, -, rfl⟩ := Option.map_eq_some_iff.mp hp'
      rfl
  | enrolling =>
      cases h
      exact .enrolled
  | enabling id code =>
      have h := Option.some.inj h
      split at h
      · cases h
        exact .minted
      · cases h
        exact .read (by simp) rfl
  | flagging id codes =>
      cases h
      exact .flagged
  | storing id codes =>
      cases h
      exact .stored
  | disabling id =>
      cases h
      refine .read (fun p' hp' => ?_) rfl
      obtain ⟨-, hp'⟩ := Option.ite_none_right_eq_some.mp hp'
      cases hp'
      rfl
  | unflagging id minted =>
      cases h
      exact .unflagged
  | dropping id minted =>
      cases h
      exact .dropped
  | forgetting minted =>
      cases h
      exact .forgotten

def handlers : Handlers Operation Answer FactorDb Point Empty := .lockless start (advance hotp)

abbrev step := Requests.step (handlers hotp)

end Advance

/-! ### A human with two seats -/

/-- "12345678901234567890", for which RFC 4226 lists the values of the first time steps. -/
def listedSecret : Secret := [49, 50, 51, 52, 53, 54, 55, 56, 57, 48, 49, 50, 51, 52, 53, 54, 55, 56, 57, 48]

def listedValues : List ℕ :=
  [755224, 287082, 359152, 969429, 338314, 254676, 287922, 162583, 399871, 520489]

def listed (_ : Secret) (step : ℤ) : ℕ := listedValues.getD step.toNat 0

def seatWith (codes : List ℕ) (id : Uuid) : Seat :=
  { id := id, mfaEnabled := true, mfaSecret := some listedSecret, mfaLastUsedStep := none,
    mfaFailedAttempts := 0, mfaLockedUntil := none, mfaRecoveryCodesHashes := codes }

theorem seatWith_id (codes : List ℕ) (id : Uuid) : (seatWith codes id).id = id := rfl

/-- Two seats; the second factor was turned on from the second one. -/
def twoSeats : FactorDb where
  seats := ((∅ : Table Seat.id).insert (seatWith []) (seatWith_id [])).insert (seatWith [0, 1])
    (seatWith_id [0, 1])
  identity := { mfaEnabled := true, mfaSecret := some listedSecret, mfaLastTotpStep := 0 }
  minted := 2
  retired := 0
  secretChanges := 0
  uses := []
  attempts := []

def byCode (code : String) : LoginRequest := { mfaCode := some code, recoveryCode := none }

def byRecoveryCode (code : ℕ) : LoginRequest := { mfaCode := none, recoveryCode := some code }

def call (op : Operation) (steps : ℕ) : List (Event Operation Answer) :=
  .arrive op :: List.replicate steps (.step 0 .nothing)

end Mokosh.SecondFactor
