import Mokosh.Auth.Sessions

/-! # A password change ends the old password's access

A login verifies the password of the row that it has read, and inserts its session later.  A change deletes
the sessions that its statement sees, and the cutoff that it sets is compared with the time at which a token
was minted, not with the password that its session was opened with.

**`ends_access`**: a request that starts after a password was set or the user was logged out everywhere is
let in only by a session that was opened with that password, and after the user was logged out, as long as
(`Caught`)

* a login that inserts its session has verified the password that the user has then;
* a change, a reset or a `logout_all` commits when all sessions of the user are among those it has deleted.

`outlives` has runs without each of them. -/

namespace Mokosh.Sessions

open Requests (World Event Rule)

/-- No session let a request in after its password, or its user, had been sent away. -/
def EndsAccess (db : AuthDb) : Prop :=
  ∀ a ∈ db.admissions, a.version ≤ a.session.version ∧ a.logouts ≤ a.session.logouts

instance (db : AuthDb) : Decidable (EndsAccess db) :=
  inferInstanceAs (Decidable (∀ a ∈ db.admissions, _))

/-! ### The condition -/

/-- The sessions of the user are all among those deleted. -/
def AuthDb.NoneLeft (db : AuthDb) (userId : Uuid) (deleted : List Uuid) : Prop :=
  ∀ s ∈ db.sessions.rows, s.userId = userId → s.id ∈ deleted

instance (db : AuthDb) (userId : Uuid) (deleted : List Uuid) : Decidable (db.NoneLeft userId deleted) :=
  inferInstanceAs (Decidable (∀ s ∈ db.sessions.rows, s.userId = userId → s.id ∈ deleted))

def CaughtAt (db : AuthDb) (x : Answer) : Point → Prop
  | .verified userId _ version => x.lets = true → db.version userId = version
  | .committing r _ deleted => db.NoneLeft r.userId deleted
  | .loggingOut userId deleted => db.NoneLeft userId deleted
  | _ => True

instance (db : AuthDb) (x : Answer) : ∀ p, Decidable (CaughtAt db x p)
  | .verified userId _ version => inferInstanceAs (Decidable (x.lets = true → db.version userId = version))
  | .committing r _ deleted => inferInstanceAs (Decidable (db.NoneLeft r.userId deleted))
  | .loggingOut userId deleted => inferInstanceAs (Decidable (db.NoneLeft userId deleted))
  | .received _ | .created _ _ | .refreshing _ | .refreshed _ | .authenticating _ _ _ _ | .issuing _ _
  | .redeeming _ _ | .updating _ | .marking _ | .deleting _ _ | .inserting _ _ | .updatingUser _ _ _ =>
    isTrue trivial

def Caught (w : World AuthDb Point) : Event Operation Answer → Prop
  | .step i x => ∀ p ∈ w.requests[i]?, CaughtAt w.store x p
  | _ => True

instance (w : World AuthDb Point) : ∀ e, Decidable (Caught w e)
  | .step i x => inferInstanceAs (Decidable (∀ p ∈ w.requests[i]?, CaughtAt w.store x p))
  | .wait _ => isTrue trivial
  | .arrive _ => isTrue trivial
  | .crash _ => isTrue trivial

variable {service : AuthService} {now : ℕ} {x : Answer} {db s : AuthDb} {p : Point} {q : Option Point}

/-! ### Sessions of the last password -/

structure Current (db : AuthDb) : Prop where
  linked : db.Linked
  version : ∀ r ∈ db.sessions, db.version r.userId ≤ r.version
  logouts : ∀ r ∈ db.sessions, db.logouts r.userId ≤ r.logouts
  endsAccess : EndsAccess db

theorem Current.createSession (h : Current db) {userId : Uuid} {rememberMe : Bool} {version : ℕ}
    (hl : (db.createSession now userId rememberMe version).Linked) (hv : db.version userId = version) :
    Current (db.createSession now userId rememberMe version) where
  linked := hl
  version := by
    intro r hr
    obtain hr | rfl := (Table.mem_insert (AuthDb.session_id _ _ _ _ _)).mp hr
    · exact h.version r hr
    · exact hv.le
  logouts := by
    intro r hr
    obtain hr | rfl := (Table.mem_insert (AuthDb.session_id _ _ _ _ _)).mp hr
    · exact h.logouts r hr
    · exact le_refl _
  endsAccess := h.endsAccess

/-- What is left of the sessions are sessions of other users, whose counts have not changed. -/
theorem Current.delete (h : Current db) {userId : Uuid} {deleted : List Uuid}
    (hnone : db.NoneLeft userId deleted) (hl : s.Linked)
    (hsessions : s.sessions = (db.deleteSessions deleted).sessions)
    (hversion : ∀ id, id ≠ userId → s.version id = db.version id)
    (hlogouts : ∀ id, id ≠ userId → s.logouts id = db.logouts id)
    (hadmissions : s.admissions = db.admissions) : Current s := by
  have hold : ∀ r ∈ s.sessions, r ∈ db.sessions ∧ r.userId ≠ userId := by
    intro r hr
    rw [hsessions] at hr
    obtain ⟨hr, hkept⟩ := Table.mem_filter.mp hr
    exact ⟨hr, fun hu => of_decide_eq_true hkept (hnone r hr hu)⟩
  refine ⟨hl, fun r hr => ?_, fun r hr => ?_, ?_⟩
  · rw [hversion _ (hold r hr).2]
    exact h.version r (hold r hr).1
  · rw [hlogouts _ (hold r hr).2]
    exact h.logouts r (hold r hr).1
  · unfold EndsAccess
    rw [hadmissions]
    exact h.endsAccess

theorem Current.deleteSessions (h : Current db) (deleted : List Uuid)
    (hl : (db.deleteSessions deleted).Linked) : Current (db.deleteSessions deleted) where
  linked := hl
  version := fun r hr => h.version r (Table.mem_filter.mp hr).1
  logouts := fun r hr => h.logouts r (Table.mem_filter.mp hr).1
  endsAccess := h.endsAccess

theorem Current.letIn (h : Current db) {a : Admission} (hs : a.session ∈ db.sessions)
    (hv : a.version ≤ db.version a.session.userId) (hl : a.logouts ≤ db.logouts a.session.userId) :
    Current (db.letIn a) :=
  { h with
    endsAccess := List.forall_mem_cons.mpr
      ⟨⟨hv.trans (h.version _ hs), hl.trans (h.logouts _ hs)⟩, h.endsAccess⟩ }

theorem current_of_leaves (h : Current db) (hp : Reads db p) (hC : CaughtAt db x p)
    (hl : service.Leaves now x db p s q) : Current s := by
  have hlinked := linked_of_leaves h.linked hp hl
  cases hl with
  | created hx => exact h.createSession hlinked (hC hx)
  | @refreshing token r hm hs =>
      have howner : r.userId = token.sub :=
        (h.linked token hm).2 r (Table.find_mem hs) (Table.key_of_find hs)
      refine h.letIn (Table.find_mem hs) ?_ ?_ <;> dsimp only <;> rw [howner]
  | @admitted token passwordChangedAt version logouts r hs =>
      obtain ⟨hm, hv, hl⟩ := hp
      have howner : r.userId = token.sub :=
        (h.linked token hm).2 r (Table.find_mem hs) (Table.key_of_find hs)
      refine h.letIn (Table.find_mem hs) ?_ ?_ <;> dsimp only <;> rwa [howner]
  | loggedOut => exact h.deleteSessions _ hlinked
  | loggedOutAll =>
      exact h.delete hC hlinked rfl (fun _ _ => rfl) (fun id hid => Function.update_of_ne hid _ _) rfl
  | committed =>
      exact h.delete hC hlinked rfl (fun id hid => Function.update_of_ne hid _ _) (fun _ _ => rfl) rfl
  | _ => exact ⟨hlinked, h.version, h.logouts, h.endsAccess⟩

/-! ### Runs -/

theorem current_rule : Rule service.handlers (fun _ => Current) (fun _ => Reads) Caught :=
  rule_of_leaves fun h hp hC hi hl => current_of_leaves h hp (hC _ hi) hl

theorem current_start (users : Table User.id) : Current (.start users) where
  linked := List.forall_mem_nil _
  version r hr := absurd hr (Table.not_mem_empty r)
  logouts r hr := absurd hr (Table.not_mem_empty r)
  endsAccess := List.forall_mem_nil _

theorem ends_access {service : AuthService} {users : Table User.id} {now : ℕ}
    {es : List (Event Operation Answer)} {w : World AuthDb Point}
    (hC : StepsMeet service.step Caught (World.start now (.start users)) es)
    (hr : run service.step (World.start now (.start users)) es = some w) : EndsAccess w.store :=
  (current_rule.run (Requests.keeps_start (current_start users)) hC hr).store.endsAccess

/-! ### Logins in flight -/

/-- The change to another password, up to the `DELETE`, as request `i`. -/
def change (i : ℕ) : List (Event Operation Answer) :=
  [.arrive (.changePassword 0 "winter" "spring" "spring"), .step i (.generated "" springHash), .step i .passed,
    .step i .passed]

/-- A request with the access token of a session. -/
def present (sessionId : Uuid) : List (Event Operation Answer) :=
  [.arrive (.authenticate { sub := 0, sid := sessionId, iat := 0, exp := 3600, typ := .access }),
    .step 0 .passed, .step 0 .passed]

def loginAgain : List (Event Operation Answer) :=
  login "winter" :: List.replicate 3 (.step 0 .passed) ++ present 0 ++ change 0 ++ [.step 0 .passed] ++
    login "spring" :: List.replicate 3 (.step 0 .passed) ++ present 1

theorem ends_access_loginAgain : ∃ w, run standalone.step (World.start 0 (.start oneUser)) loginAgain = some w ∧
    EndsAccess w.store := by
  have h : (run standalone.step (World.start 0 (.start oneUser)) loginAgain).any
      (fun w => w.store.admissions.length = 2) = true := by
    decide +kernel
  obtain ⟨w, hr, -⟩ := exists_run_of_any h
  exact ⟨w, hr, ends_access (by decide +kernel) hr⟩

/-- The session is inserted after the change. -/
def lateSession : List (Event Operation Answer) :=
  [login "winter", .step 0 .passed] ++ change 1 ++ [.step 1 .passed, .step 0 .passed, .step 0 .passed] ++
    present 0

/-- The session is inserted between the `DELETE` of the change and its commit. -/
def unseenSession : List (Event Operation Answer) :=
  [login "winter", .step 0 .passed] ++ change 1 ++ [.step 0 .passed, .step 1 .passed, .step 0 .passed] ++
    present 0

def unseenByLogoutAll : List (Event Operation Answer) :=
  [login "winter", .step 0 .passed, .arrive (.logoutAll 0), .step 1 .passed, .step 0 .passed, .step 1 .passed,
    .step 0 .passed] ++ present 0

theorem outlives :
    (∃ w ∈ run standalone.step (World.start 0 (.start oneUser)) lateSession, ¬EndsAccess w.store) ∧
      (∃ w ∈ run standalone.step (World.start 0 (.start oneUser)) unseenSession, ¬EndsAccess w.store) ∧
      ∃ w ∈ run standalone.step (World.start 0 (.start oneUser)) unseenByLogoutAll, ¬EndsAccess w.store := by
  decide +kernel

end Mokosh.Sessions
