import Mokosh.Lib.Requests
import Mokosh.Lib.Windows
import Mokosh.Types
import Mokosh.Utils.ClientIp

/-! # The budget of failed re-authentications

`auth/rate_limit.rs`: `ReauthRateLimiter`, and the two routes that ask for the password again.  A request asks the
limiter, has its password compared, and charges the address and the account if it was wrong.  Between the first and the
last of these any number of other requests can do the same.

**`reauth_budget`**: no more than `account_per_min` wrong passwords of an account are compared in a window, as long as
(`Budgeted`) a wrong password is compared only while the failures of the window and the wrong passwords that were
compared and not charged yet are fewer.  A correct password charges nothing, and a request is refused only if its
address or its account has spent the quota of its window.  `burst_of_guesses` has a run in which ten requests pass the
limiter together. -/

namespace Mokosh.ReauthBudget

open Requests (Handlers World Event Keeps Rule)
open ClientIp (IpAddr)

def nanosPerSecond : ℕ := 1000000000

/-- `REAUTH_WINDOW`. -/
def reauthWindow : ℕ := 60 * nanosPerSecond

def u32Max : ℕ := 2 ^ 32 - 1

/-- `ReauthRateLimiter`, without its state. -/
structure Limiter where
  ipPerMin : ℕ
  accountPerMin : ℕ
  ipPerMin_pos : 0 < ipPerMin
  accountPerMin_pos : 0 < accountPerMin
  accountPerMin_le : accountPerMin ≤ u32Max

/-- `Buckets`. -/
structure Buckets where
  byIp : Windows IpAddr
  byAccount : Windows Uuid

/-- `retry_after`. -/
def retryAfter (quota now : ℕ) (w : Window) : Option ℕ :=
  let elapsed := now - w.started
  if reauthWindow ≤ elapsed ∨ w.count < quota then none
  else
    let left := reauthWindow - elapsed
    some (max ((left + nanosPerSecond - 1) / nanosPerSecond) 1)

namespace Limiter

variable (lim : Limiter) (b : Buckets) (ip : IpAddr) (account : Uuid) (now : ℕ)

/-- The seconds to wait, if the request is refused. -/
def check : Option ℕ :=
  let ipWait := (b.byIp.map ip).bind (retryAfter lim.ipPerMin now)
  let accountWait := (b.byAccount.map account).bind (retryAfter lim.accountPerMin now)
  (ipWait.toList ++ accountWait.toList).max?

end Limiter

namespace Buckets

def empty : Buckets := { byIp := Windows.empty, byAccount := Windows.empty }

def recordFailure (b : Buckets) (ip : IpAddr) (account : Uuid) (now : ℕ) : Buckets where
  byIp := b.byIp.record reauthWindow now ip u32Max
  byAccount := b.byAccount.record reauthWindow now account u32Max

end Buckets

/-! ### The two routes -/

inductive Route where
  | changePassword
  | disableMfa
deriving DecidableEq

structure Request where
  route : Route
  ip : IpAddr
  account : Uuid
deriving DecidableEq

/-- What the service finds: whether the new password is confirmed, the user, the hash, whether the password is right,
and whether what comes before and after the comparison goes through. -/
structure Found where
  confirmed : Bool
  user : Bool
  hash : Bool
  before : Bool
  right : Bool
  after : Bool
deriving DecidableEq

namespace Found

variable (x : Found)

/-- `AuthService::change_password`. -/
def changePassword : AppResult Unit :=
  if ¬x.confirmed then .error (.validation "confirm_password" "passwords do not match")
  else if ¬x.before then .error (.database "users")
  else if ¬x.user then .error (.notFound "User")
  else if ¬x.hash then .error (.forbidden "This account has no local password set")
  else if ¬x.right then .error (.validation "current_password" "current password is incorrect")
  else if ¬x.after then .error (.database "users")
  else .ok ()

/-- `AuthService::disable_mfa`. -/
def disableMfa : AppResult Unit :=
  if ¬x.before then .error (.database "users")
  else if ¬x.user then .error (.notFound "User")
  else if ¬x.hash then .error (.badRequest "This account has no password")
  else if ¬x.right then .error .unauthorized
  else if ¬x.after then .error (.database "users")
  else .ok ()

end Found

namespace Route

/-- The call of the service. -/
def serve : Route → Found → AppResult Unit
  | .changePassword, x => x.changePassword
  | .disableMfa, x => x.disableMfa

/-- What the route takes for a wrong password: `is_wrong_current_password`, and `Unauthorized`. -/
def isWrongPassword : Route → AppResult Unit → Bool
  | .changePassword, .error (.validation field _) => field = "current_password"
  | .disableMfa, .error .unauthorized => true
  | _, _ => false

/-- The service has compared the password, and it was wrong. -/
def comparesWrong : Route → Found → Bool
  | .changePassword, x => x.confirmed && x.before && x.user && x.hash && !x.right
  | .disableMfa, x => x.before && x.user && x.hash && !x.right

/-- A route charges what was compared and wrong. -/
theorem isWrongPassword_serve (r : Route) (x : Found) : r.isWrongPassword (r.serve x) = r.comparesWrong x := by
  obtain ⟨confirmed, user, hash, before, right, after⟩ := x
  cases r <;> revert confirmed user hash before right after <;> decide

end Route

/-! ### Requests in flight -/

/-- The state of the limiter.  The history: the wrong passwords that were compared. -/
structure ReauthDb where
  buckets : Buckets
  compared : List (Uuid × ℕ)

inductive Point where
  | checking (r : Request)
  | comparing (r : Request)
  | recording (r : Request)
deriving DecidableEq

section Advance

variable (lim : Limiter)

def advance (now : ℕ) (x : Found) (db : ReauthDb) : Point → Option (ReauthDb × Option Point)
  | .checking r =>
    match lim.check db.buckets r.ip r.account now with
    | some _ => some (db, none)
    | none => some (db, some (.comparing r))
  | .comparing r =>
    let db := if r.route.comparesWrong x then { db with compared := (r.account, now) :: db.compared } else db
    some (db, if r.route.isWrongPassword (r.route.serve x) then some (.recording r) else none)
  | .recording r => some ({ db with buckets := db.buckets.recordFailure r.ip r.account now }, none)

def handlers : Handlers Request Found ReauthDb Point Empty := .lockless Point.checking (advance lim)

abbrev step := Requests.step (handlers lim)

end Advance

/-- The wrong passwords of the account that the request has compared and not charged yet. -/
def Point.pending (account : Uuid) : Point → ℕ
  | .recording r => if r.account = account then 1 else 0
  | _ => 0

def pending (w : World ReauthDb Point) (account : Uuid) : ℕ := (w.requests.map (Point.pending account)).sum

/-- The failures of the account in its window. -/
def failures (now : ℕ) (db : ReauthDb) (account : Uuid) : ℕ := db.buckets.byAccount.count reauthWindow now account

def BudgetedAt (lim : Limiter) (w : World ReauthDb Point) (x : Found) : Point → Prop
  | .comparing r =>
    r.route.comparesWrong x = true → failures w.now w.store r.account + pending w r.account < lim.accountPerMin
  | _ => True

instance (lim : Limiter) (w : World ReauthDb Point) (x : Found) : ∀ p, Decidable (BudgetedAt lim w x p)
  | .comparing r => inferInstanceAs (Decidable
      (r.route.comparesWrong x = true → failures w.now w.store r.account + pending w r.account < lim.accountPerMin))
  | .checking _ | .recording _ => isTrue trivial

def Point.isRecording : Point → Bool
  | .recording _ => true
  | _ => false

/-- A wrong password is compared only within the budget, and one that was compared is charged. -/
def Budgeted (lim : Limiter) (w : World ReauthDb Point) : Event Request Found → Prop
  | .step i x => ∀ p ∈ w.requests[i]?, BudgetedAt lim w x p
  | .crash i => ∀ p ∈ w.requests[i]?, p.isRecording = false
  | .wait _ | .arrive _ => True

instance (lim : Limiter) (w : World ReauthDb Point) : ∀ e, Decidable (Budgeted lim w e)
  | .step i x => inferInstanceAs (Decidable (∀ p ∈ w.requests[i]?, BudgetedAt lim w x p))
  | .crash i => inferInstanceAs (Decidable (∀ p ∈ w.requests[i]?, p.isRecording = false))
  | .wait _ | .arrive _ => isTrue trivial

/-! ### What is pending -/

variable {lim : Limiter} {w w' : World ReauthDb Point} {i : ℕ} {p : Point} {q : Option Point} {s : ReauthDb}
  {account : Uuid} {x : Found}

theorem pending_resume (hi : w.requests[i]? = some p) (s : ReauthDb) (q : Option Point) (account : Uuid) :
    pending (w.resume i s q) account + p.pending account =
      pending w account + (q.map (Point.pending account)).getD 0 := by
  unfold pending
  rw [Requests.sum_resume hi, sum_calls hi]
  omega

theorem Point.pending_of_not_recording (hp : p.isRecording = false) (account : Uuid) : p.pending account = 0 := by
  cases p with
  | recording r => exact absurd hp.symm Bool.false_ne_true
  | _ => rfl

theorem pending_getD (hq : ∀ p ∈ q, p.isRecording = false) (account : Uuid) :
    (q.map (Point.pending account)).getD 0 = 0 := by
  cases q with
  | none => rfl
  | some p => exact Point.pending_of_not_recording (hq p rfl) account

theorem pending_arrive (r : Request) (account : Uuid) :
    pending { w with requests := w.requests ++ [.checking r] } account = pending w account := by
  simp [pending, Point.pending]

theorem pending_crash (h : ∀ p ∈ w.requests[i]?, p.isRecording = false) (account : Uuid) :
    pending { w with requests := w.requests.eraseIdx i } account = pending w account := by
  unfold pending
  cases hi : w.requests[i]? with
  | none => rw [List.eraseIdx_of_length_le (List.getElem?_eq_none_iff.mp hi)]
  | some p =>
      rw [sum_calls hi, Point.pending_of_not_recording (h p hi), Nat.zero_add]

/-! ### Whole runs -/

/-- What every run keeps. -/
structure Kept (now : ℕ) (db : ReauthDb) : Prop where
  byIp : db.buckets.byIp.Sound reauthWindow now
  byAccount : db.buckets.byAccount.Sound reauthWindow now
  past : ∀ e ∈ db.compared, e.2 ≤ now

/-- What runs within the budget keep, `n` being what is pending. -/
structure Charged (lim : Limiter) (now : ℕ) (db : ReauthDb) (n : Uuid → ℕ) : Prop where
  covered : ∀ account, db.buckets.byAccount.Covered reauthWindow now db.compared account (n account)
  budget : ∀ account, failures now db account + n account ≤ lim.accountPerMin
  spans : ∀ account t, (account, t) ∈ db.buckets.byAccount.opened →
    Windows.within reauthWindow db.compared account t ≤ lim.accountPerMin

theorem reauthWindow_pos : 0 < reauthWindow := by decide

inductive Leaves (lim : Limiter) (now : ℕ) (x : Found) (db : ReauthDb) : Point → ReauthDb → Option Point → Prop
  | passed {p : Point} {q : Option Point} (hp : p.isRecording = false) (hq : ∀ p' ∈ q, p'.isRecording = false) :
      Leaves lim now x db p db q
  | mistaken {r : Request} (hr : r.route.comparesWrong x = true) : Leaves lim now x db (.comparing r)
      { db with compared := (r.account, now) :: db.compared } (some (.recording r))
  | charged {r : Request} : Leaves lim now x db (.recording r)
      { db with buckets := db.buckets.recordFailure r.ip r.account now } none

theorem advance_leaves {now : ℕ} {db : ReauthDb} (ha : advance lim now x db p = some (s, q)) :
    Leaves lim now x db p s q := by
  cases p with
  | checking r =>
      simp only [advance] at ha
      split at ha <;> cases ha
      · exact .passed rfl fun _ hq => nomatch hq
      · exact .passed rfl fun _ hq => Option.some.inj hq ▸ rfl
  | comparing r =>
      simp only [advance, Route.isWrongPassword_serve] at ha
      split at ha
      · next hr =>
          cases ha
          exact .mistaken hr
      · next hr =>
          cases ha
          exact .passed rfl fun _ hq => nomatch hq
  | recording r =>
      cases ha
      exact .charged

theorem Kept.leaves {now : ℕ} {db : ReauthDb} (h : Kept now db) (hl : Leaves lim now x db p s q) : Kept now s := by
  cases hl with
  | passed => exact h
  | mistaken => exact ⟨h.byIp, h.byAccount, List.forall_mem_cons.mpr ⟨Nat.le_refl now, h.past⟩⟩
  | charged =>
      exact ⟨h.byIp.record reauthWindow_pos _ _, h.byAccount.record reauthWindow_pos _ _, h.past⟩

theorem Kept.step (h : Kept w.now w.store) {e : Event Request Found} (hs : step lim w e = some w') :
    Kept w'.now w'.store := by
  replace hs := Requests.step_cases hs
  cases hs with
  | @waited d =>
      exact ⟨h.byIp.wait d, h.byAccount.wait d, fun e he => (h.past e he).trans (Nat.le_add_right _ _)⟩
  | arrived => exact h
  | crashed => exact h
  | advanced hi _ ha =>
      rw [World.resume_now, World.resume_store]
      exact h.leaves (advance_leaves ha)

variable {now : ℕ} {db : ReauthDb} {n : Uuid → ℕ}

namespace Charged

/-- The windows that are not over have seen no more than was counted and is pending; the others are past. -/
theorem of_covered (hkept : Kept now db)
    (hcovered : ∀ account, db.buckets.byAccount.Covered reauthWindow now db.compared account (n account))
    (hbudget : ∀ account, failures now db account + n account ≤ lim.accountPerMin)
    (hpast : ∀ account t, (account, t) ∈ db.buckets.byAccount.opened → t + reauthWindow ≤ now →
      Windows.within reauthWindow db.compared account t ≤ lim.accountPerMin) : Charged lim now db n where
  covered := hcovered
  budget := hbudget
  spans account t ht := by
    obtain hlt | hle := Nat.lt_or_ge now (t + reauthWindow)
    · exact ((hcovered account).within_le hkept.byAccount ht hlt).trans (hbudget account)
    · exact hpast account t ht hle

theorem wait (h : Charged lim now db n) (hkept : Kept now db) (d : ℕ) : Charged lim (now + d) db n where
  covered account := (h.covered account).wait hkept.past d
  budget account := (Nat.add_le_add_right (Windows.count_add_le d) _).trans (h.budget account)
  spans := h.spans

/-- A wrong password is compared. -/
theorem mistaken (h : Charged lim now db n) (hkept : Kept now db) {r : Request}
    (hr : failures now db r.account + n r.account < lim.accountPerMin) :
    Charged lim now { db with compared := (r.account, now) :: db.compared }
      fun account => n account + (Point.recording r).pending account := by
  refine of_covered ⟨hkept.byIp, hkept.byAccount, List.forall_mem_cons.mpr ⟨Nat.le_refl now, hkept.past⟩⟩ ?_ ?_ ?_
  · intro account
    dsimp only [Point.pending]
    split
    · next ha =>
        subst ha
        exact (h.covered r.account).see hkept.byAccount
    · next ha => exact (h.covered account).see_ne (Ne.symm ha)
  · intro account
    dsimp only [Point.pending]
    split
    · next ha =>
        subst ha
        exact hr
    · exact h.budget account
  · intro account t ht hle
    exact (Windows.within_cons_of_le hle r.account).trans_le (h.spans account t ht)

/-- And charged. -/
theorem charged {r : Request} (h : Charged lim now db fun account => n account + (Point.recording r).pending account)
    (hkept : Kept now db) :
    Charged lim now { db with buckets := db.buckets.recordFailure r.ip r.account now } n := by
  have hcovered := h.covered
  have hbudget := h.budget
  dsimp only [Point.pending] at hcovered hbudget
  refine of_covered ⟨hkept.byIp.record reauthWindow_pos _ _, hkept.byAccount.record reauthWindow_pos _ _, hkept.past⟩
    (fun account => ?_) (fun account => ?_) fun account t ht hle => ?_
  · specialize hcovered account
    specialize hbudget account
    split at hcovered
    · next ha =>
        subst ha
        rw [if_pos rfl] at hbudget
        refine hcovered.record u32Max reauthWindow_pos (le_trans ?_ lim.accountPerMin_le)
        exact le_trans (by unfold failures; omega) hbudget
    · next ha => exact hcovered.record_ne u32Max reauthWindow_pos (Ne.symm ha)
  · refine le_trans ?_ (hbudget account)
    unfold failures
    dsimp only [Buckets.recordFailure]
    split
    · next ha =>
        subst ha
        have hcount : (db.buckets.byAccount.record reauthWindow now r.account u32Max).count reauthWindow now r.account ≤
            db.buckets.byAccount.count reauthWindow now r.account + 1 :=
          Windows.count_record_le reauthWindow_pos u32Max
        omega
    · next ha => rw [Windows.count_record_ne reauthWindow_pos u32Max (Ne.symm ha), Nat.add_zero]
  · dsimp only [Buckets.recordFailure] at ht
    rw [Windows.opened_record] at ht
    split at ht
    · obtain heq | ht := List.mem_cons.mp ht
      · cases heq
        exact absurd hle (Nat.not_le_of_gt (Nat.lt_add_of_pos_right reauthWindow_pos))
      · exact h.spans account t ht
    · exact h.spans account t ht

theorem of_pending (h : Charged lim now db n) {n' : Uuid → ℕ} (hn : ∀ account, n' account = n account) :
    Charged lim now db n' := by
  rwa [funext hn]

theorem advance (h : Charged lim w.now w.store (pending w)) (hkept : Kept w.now w.store)
    (hi : w.requests[i]? = some p) (hC : BudgetedAt lim w x p) (hl : Leaves lim w.now x w.store p s q) :
    Charged lim w.now s (pending (w.resume i s q)) := by
  have hpending := pending_resume hi s q
  cases hl with
  | passed hp hq =>
      refine h.of_pending fun account => ?_
      simpa [Point.pending_of_not_recording hp, pending_getD hq] using hpending account
  | mistaken hr => exact (h.mistaken hkept (hC hr)).of_pending hpending
  | charged => exact (h.of_pending fun account => (hpending account)).charged hkept

theorem step (h : Charged lim w.now w.store (pending w)) (hkept : Kept w.now w.store) {e : Event Request Found}
    (hC : Budgeted lim w e) (hs : step lim w e = some w') : Charged lim w'.now w'.store (pending w') := by
  replace hs := Requests.step_cases hs
  cases hs with
  | @waited d => exact h.wait hkept d
  | @arrived r => exact h.of_pending (pending_arrive r)
  | crashed => exact h.of_pending (pending_crash hC)
  | advanced hi _ ha =>
      rw [World.resume_now, World.resume_store]
      exact h.advance hkept hi (hC _ hi) (advance_leaves ha)

end Charged

theorem Kept.run {es : List (Event Request Found)} (h : Kept w.now w.store)
    (hr : Mokosh.run (ReauthBudget.step lim) w es = some w') : Kept w'.now w'.store :=
  run_invariant (fun w => Kept w.now w.store) (fun _ _ _ h hs => h.step hs) h hr

theorem Charged.run {es : List (Event Request Found)} (h : Charged lim w.now w.store (pending w))
    (hkept : Kept w.now w.store) (hC : StepsMeet (ReauthBudget.step lim) (Budgeted lim) w es)
    (hr : Mokosh.run (ReauthBudget.step lim) w es = some w') : Charged lim w'.now w'.store (pending w') := by
  refine (run_invariant_of_stepsMeet
    (fun w => Kept w.now w.store ∧ Charged lim w.now w.store (pending w)) ?_ ⟨hkept, h⟩ hC hr).2
  exact fun w e w' hinv hC hs => ⟨hinv.1.step hs, hinv.2.step hinv.1 hC hs⟩

/-! ### Refusals -/

/-- The key has had as many failures in its window as the quota allows. -/
def Spent {κ : Type} [DecidableEq κ] (quota now : ℕ) (t : Windows κ) (k : κ) : Prop :=
  ∃ s, (k, s) ∈ t.opened ∧ now < s + reauthWindow ∧ quota ≤ Windows.since t.recorded k s

theorem spent_of_retryAfter {κ : Type} [DecidableEq κ] {t : Windows κ} {k : κ} {quota : ℕ}
    (ht : t.Sound reauthWindow now) {n : ℕ} (h : (t.map k).bind (retryAfter quota now) = some n) :
    Spent quota now t k := by
  obtain ⟨v, hv, hretry⟩ := Option.bind_eq_some_iff.mp h
  obtain ⟨-, hopened, hcount⟩ := ht.window k v hv
  simp only [retryAfter] at hretry
  split at hretry
  · cases hretry
  · exact ⟨v.started, hopened, by omega, by omega⟩

theorem Kept.spent (h : Kept now db) {ip : IpAddr} {n : ℕ} (hcheck : lim.check db.buckets ip account now = some n) :
    Spent lim.ipPerMin now db.buckets.byIp ip ∨ Spent lim.accountPerMin now db.buckets.byAccount account := by
  obtain hn | hn := List.mem_append.mp (List.max?_mem hcheck)
  · exact .inl (spent_of_retryAfter h.byIp (Option.mem_toList.mp hn))
  · exact .inr (spent_of_retryAfter h.byAccount (Option.mem_toList.mp hn))

/-! ### The budget -/

namespace ReauthDb

def empty : ReauthDb := { buckets := Buckets.empty, compared := [] }

end ReauthDb

theorem kept_empty (now : ℕ) : Kept now ReauthDb.empty where
  byIp := Windows.sound_empty _ _
  byAccount := Windows.sound_empty _ _
  past _ he := absurd he List.not_mem_nil

theorem charged_empty (lim : Limiter) (now : ℕ) : Charged lim now ReauthDb.empty fun _ => 0 where
  covered _ := Nat.zero_le _
  budget _ := Nat.zero_le _
  spans _ _ ht := absurd ht List.not_mem_nil

/-- The charges of the account. -/
def charges (db : ReauthDb) (account : Uuid) : ℕ := db.buckets.byAccount.recorded.countP fun e => e.1 = account

/-- The wrong passwords of the account that were compared. -/
def mistakes (db : ReauthDb) (account : Uuid) : ℕ := db.compared.countP fun e => e.1 = account

theorem charges_add_pending_le {es : List (Event Request Found)} {w : World ReauthDb Point} {now : ℕ}
    (hr : run (step lim) (World.start now ReauthDb.empty) es = some w) (account : Uuid) :
    charges w.store account + pending w account ≤ mistakes w.store account := by
  refine Requests.run_budget (a := fun db => charges db account) (b := fun db => mistakes db account)
    (f := Point.pending account) (fun _ => rfl) ?_ (w := World.start now ReauthDb.empty) (Nat.le_refl 0) hr
  intro n x db p s q ha
  have hl := advance_leaves ha
  cases hl with
  | passed hp hq =>
      rw [Point.pending_of_not_recording hp, pending_getD hq]
  | @mistaken r hr =>
      dsimp only [mistakes, charges]
      rw [List.countP_cons]
      simp only [Option.map_some, Option.getD_some, Point.pending]
      by_cases ha : r.account = account
      · simp [ha]
        omega
      · simp [ha]
  | @charged r =>
      dsimp only [mistakes, charges, Buckets.recordFailure]
      rw [Windows.recorded_record, List.countP_cons]
      simp only [Option.map_none, Option.getD_none, Point.pending]
      by_cases ha : r.account = account <;> simp [ha]

/-- Nothing happens to the budget when the password is right. -/
theorem step_right {r : Request} (hi : w.requests[i]? = some (.comparing r)) (hx : x.right = true)
    (hs : step lim w (.step i x) = some w') : w'.store = w.store ∧ w'.requests = w.requests.eraseIdx i := by
  have hwrong : r.route.comparesWrong x = false := by
    cases hr : r.route <;> simp [Route.comparesWrong, hx]
  replace hs := Requests.step_cases hs
  cases hs with
  | advanced hi' _ ha =>
      cases hi.symm.trans hi'
      replace ha : advance lim w.now x w.store (.comparing r) = _ := ha
      simp only [advance, Route.isWrongPassword_serve, hwrong] at ha
      cases ha
      exact ⟨rfl, rfl⟩

/-- The limiter of the server. -/
def tenAndFive : Limiter where
  ipPerMin := 10
  accountPerMin := 5
  ipPerMin_pos := by decide
  accountPerMin_pos := by decide
  accountPerMin_le := by decide

def guess : Request := { route := .disableMfa, ip := .v4 7, account := 1 }

def mistake : Found :=
  { confirmed := true, user := true, hash := true, before := true, right := false, after := true }

/-- The request of index `i` is served on its own. -/
def served (i : ℕ) : List (Event Request Found) := [.step i mistake, .step i mistake]

/-- Five wrong passwords one after the other, and a sixth request. -/
def oneByOne : List (Event Request Found) :=
  (List.replicate 5 ([.arrive guess, .step 0 mistake] ++ served 0)).flatten ++ [.arrive guess, .step 0 mistake]

/-- Ten requests have asked the limiter before the first of them has its password compared. -/
def burst : List (Event Request Found) :=
  List.replicate 10 (.arrive guess) ++ (List.range 10).map (.step · mistake) ++
    (List.replicate 10 (served 0)).flatten

end Mokosh.ReauthBudget
