import Mokosh.Auth.Sessions

/-! # A deactivated account stays deactivated

`reset_password` activates the user whose token it redeems, whoever was sent one; it reads the token before
its transaction, which marks whatever is unused by then and asks for nothing.

**`stays_deactivated`**: a user whom `update_user` has set to inactive is not active, and completes no login,
until `update_user` sets another status, and a reset token sets a password once, as long as (`Held`)

* a reset commits while its user is not inactive and its token is unused;
* a login mints its tokens while its user is not inactive.

`reactivates` has runs without each of them. -/

namespace Mokosh.Sessions

open Requests (World Event Rule)

structure StaysDeactivated (db : AuthDb) : Prop where
  status : ∀ u ∈ db.users.rows, db.deactivated u.id = true → u.status ≠ .active
  logins : ∀ l ∈ db.logins, l.deactivated = false
  once : db.redeemed.Nodup

instance (db : AuthDb) : Decidable (StaysDeactivated db) :=
  decidable_of_iff ((∀ u ∈ db.users.rows, db.deactivated u.id = true → u.status ≠ .active) ∧
    (∀ l ∈ db.logins, l.deactivated = false) ∧ db.redeemed.Nodup)
    ⟨fun h => ⟨h.1, h.2.1, h.2.2⟩, fun h => ⟨h.status, h.logins, h.once⟩⟩

/-! ### The condition -/

def AuthDb.NotInactive (db : AuthDb) (userId : Uuid) : Prop :=
  ∀ u ∈ db.users.find userId, u.status ≠ .inactive

instance (db : AuthDb) (userId : Uuid) : Decidable (db.NotInactive userId) :=
  inferInstanceAs (Decidable (∀ u ∈ db.users.find userId, u.status ≠ .inactive))

def AuthDb.Unused (db : AuthDb) (token : Uuid) : Prop := ∀ t ∈ db.tokens.find token, t.usedAt = none

instance (db : AuthDb) (token : Uuid) : Decidable (db.Unused token) :=
  inferInstanceAs (Decidable (∀ t ∈ db.tokens.find token, t.usedAt = none))

def HeldAt (db : AuthDb) : Point → Prop
  | .created userId _ => db.NotInactive userId
  | .committing r _ _ => ∀ t ∈ r.token, db.NotInactive r.userId ∧ db.Unused t
  | _ => True

instance (db : AuthDb) : ∀ p, Decidable (HeldAt db p)
  | .created userId _ => inferInstanceAs (Decidable (db.NotInactive userId))
  | .committing r _ _ =>
    inferInstanceAs (Decidable (∀ t ∈ r.token, db.NotInactive r.userId ∧ db.Unused t))
  | .received _ | .verified _ _ _ | .refreshing _ | .refreshed _ | .authenticating _ _ _ _ | .loggingOut _ _
  | .issuing _ _ | .redeeming _ _ | .updating _ | .marking _ | .deleting _ _ | .inserting _ _
  | .updatingUser _ _ _ => isTrue trivial

def Held (w : World AuthDb Point) : Event Operation Answer → Prop
  | .step i _ => ∀ p ∈ w.requests[i]?, HeldAt w.store p
  | _ => True

instance (w : World AuthDb Point) : ∀ e, Decidable (Held w e)
  | .step i _ => inferInstanceAs (Decidable (∀ p ∈ w.requests[i]?, HeldAt w.store p))
  | .wait _ => isTrue trivial
  | .arrive _ => isTrue trivial
  | .crash _ => isTrue trivial

variable {service : AuthService} {now : ℕ} {x : Answer} {db s : AuthDb} {p : Point} {q : Option Point}

/-! ### Deactivated users and redeemed tokens -/

structure Standing (db : AuthDb) : Prop where
  linked : db.Linked
  inactive : ∀ id, db.deactivated id = true → ∃ u, db.users.find id = some u ∧ u.status = .inactive
  logins : ∀ l ∈ db.logins, l.deactivated = false
  once : db.redeemed.Nodup
  used : ∀ t ∈ db.tokens, t.id ∈ db.redeemed → t.usedAt.isSome = true
  issued : ∀ id ∈ db.redeemed, id < db.tokens.next

theorem Standing.not_deactivated (h : Standing db) {id : Uuid} (hu : db.NotInactive id) :
    db.deactivated id = false := by
  rw [Bool.eq_false_iff]
  intro hd
  obtain ⟨u, hf, hs⟩ := h.inactive id hd
  exact hu u hf hs

theorem Standing.loggedIn (h : Standing db) {userId : Uuid} (hu : db.NotInactive userId) {claims}
    (hl : ((db.mint claims).loggedIn userId).Linked) : Standing ((db.mint claims).loggedIn userId) :=
  { h with
    linked := hl
    logins := List.forall_mem_cons.mpr ⟨h.not_deactivated hu, h.logins⟩ }

theorem Standing.issue (h : Standing db) {userId : Uuid} {lifetime : ℕ} {tokenHash lookupHash : String}
    (hl : (db.issue now userId lifetime tokenHash lookupHash).Linked) :
    Standing (db.issue now userId lifetime tokenHash lookupHash) :=
  { h with
    linked := hl
    used := by
      intro t ht hr
      obtain ht | rfl := (Table.mem_insert (AuthDb.resetToken_id _ _ _ _ _)).mp ht
      · exact h.used t ht hr
      · exact absurd (h.issued _ hr) (lt_irrefl _)
    issued := fun id hid => (h.issued id hid).trans (Nat.lt_succ_self _) }

theorem Standing.insertUser (h : Standing db) {email : String} (hl : (db.insertUser email).Linked) :
    Standing (db.insertUser email) :=
  { h with
    linked := hl
    inactive := by
      intro id hd
      obtain ⟨u, hf, hs⟩ := h.inactive id hd
      refine ⟨u, ?_, hs⟩
      unfold AuthDb.insertUser
      rw [Table.find_insert, if_neg (Table.find_lt_next hf).ne]
      exact hf }

theorem Standing.updateUser (h : Standing db) {userId : Uuid} {email : Option String}
    {status : Option UserStatus} {u : User} (hu : db.users.find userId = some u)
    (hl : (db.updateUser userId email status).Linked) : Standing (db.updateUser userId email status) :=
  { h with
    linked := hl
    inactive := by
      intro id hd
      unfold AuthDb.updateUser at hd ⊢
      dsimp only at hd ⊢
      by_cases hid : id = userId
      · subst hid
        rw [Function.update_self] at hd
        rw [Table.find_update_self, hu]
        refine ⟨_, rfl, ?_⟩
        cases status with
        | some st => exact of_decide_eq_true hd
        | none =>
            obtain ⟨u', hf, hs⟩ := h.inactive id hd
            cases hu.symm.trans hf
            exact hs
      · rw [Function.update_of_ne hid] at hd
        rw [Table.find_update_ne hid]
        exact h.inactive id hd }

/-- Of the user whose password is set, the status is kept, or was not inactive. -/
theorem Standing.inactive_rewrite (h : Standing db) {r : Rewrite} {marked deleted : List Uuid}
    (hC : ∀ t ∈ r.token, db.NotInactive r.userId) (id : Uuid) (hd : db.deactivated id = true) :
    ∃ u, (db.rewrite r marked deleted).users.find id = some u ∧ u.status = .inactive := by
  obtain ⟨u, hf, hs⟩ := h.inactive id hd
  unfold AuthDb.rewrite
  dsimp only
  by_cases hid : id = r.userId
  · subst hid
    rw [Table.find_update_self, hf]
    refine ⟨_, rfl, ?_⟩
    cases ht : r.token with
    | none => simp [User.withPassword, ht, hs]
    | some t => exact absurd hs (hC t ht u hf)
  · rw [Table.find_update_ne hid]
    exact ⟨u, hf, hs⟩

/-- A token that is unused has not set a password, and is used after the transaction that redeems it. -/
theorem Standing.rewrite (h : Standing db) {r : Rewrite} {marked deleted : List Uuid}
    (hp : ∀ t ∈ r.token, db.Spends marked t)
    (hC : ∀ t ∈ r.token, db.NotInactive r.userId ∧ db.Unused t)
    (hl : (db.rewrite r marked deleted).Linked) : Standing (db.rewrite r marked deleted) where
  linked := hl
  inactive := h.inactive_rewrite fun t ht => (hC t ht).1
  logins := h.logins
  once := by
    unfold AuthDb.rewrite
    dsimp only
    cases ht : r.token with
    | none => exact h.once
    | some id =>
        refine List.nodup_cons.mpr ⟨fun hmem => ?_, h.once⟩
        obtain ⟨t, htok, rfl, -⟩ := hp id ht
        have hunused := (hC _ ht).2 t (Table.find_key htok)
        have hused := h.used t htok hmem
        rw [hunused] at hused
        cases hused
  used := by
    intro t' ht' hmem
    obtain ⟨t, htok, rfl⟩ := List.mem_map.mp ht'
    rw [ResetToken.mark_id] at hmem
    unfold ResetToken.mark
    split
    · rfl
    · next hmarked =>
      obtain hnew | hold := List.mem_append.mp hmem
      · rw [Option.mem_toList] at hnew
        obtain ⟨t₀, ht₀, hid, hspent⟩ := hp _ hnew
        rw [Table.eq_of_key_eq ht₀ htok hid] at hspent
        exact hspent.resolve_right hmarked
      · exact h.used t htok hold
  issued := by
    intro id hid
    obtain hnew | hold := List.mem_append.mp hid
    · rw [Option.mem_toList] at hnew
      obtain ⟨t, htok, rfl, -⟩ := hp _ hnew
      have hlt := Table.key_lt_next htok
      exact hlt
    · exact h.issued id hold

theorem standing_of_leaves (h : Standing db) (hp : Reads db p) (hC : HeldAt db p)
    (hl : service.Leaves now x db p s q) : Standing s := by
  have hlinked := linked_of_leaves h.linked hp hl
  cases hl with
  | loggedIn => exact h.loggedIn hC hlinked
  | issued => exact h.issue hlinked
  | committed => exact h.rewrite hp hC hlinked
  | inserted | welcoming => exact h.insertUser hlinked
  | updatedUser hu => exact h.updateUser hu hlinked
  | _ => exact ⟨hlinked, h.inactive, h.logins, h.once, h.used, h.issued⟩

/-! ### Runs -/

theorem standing_rule : Rule service.handlers (fun _ => Standing) (fun _ => Reads) Held :=
  rule_of_leaves fun h hp hC hi hl => standing_of_leaves h hp (hC _ hi) hl

theorem standing_start (users : Table User.id) : Standing (.start users) where
  linked := List.forall_mem_nil _
  inactive id hd := by
    obtain ⟨u, hf, hs⟩ := (Option.any_eq_true _ _).mp hd
    exact ⟨u, hf, of_decide_eq_true hs⟩
  logins := List.forall_mem_nil _
  once := List.nodup_nil
  used t ht := absurd ht (Table.not_mem_empty t)
  issued := List.forall_mem_nil _

def setStatus (i : ℕ) (status : UserStatus) : List (Event Operation Answer) :=
  [.arrive (.updateUser 0 none (some status)), .step i .passed, .step i .passed]

def requestReset : List (Event Operation Answer) :=
  [.arrive (.requestPasswordReset "user@example.com"), .step 0 .passed, .step 0 (.generated "first" secretHash)]

/-- A reset that has found its token. -/
def openReset (i : ℕ) : List (Event Operation Answer) :=
  [.arrive (.resetPassword 0 "first" "spring" "spring"), .step i .passed]

def setPassword : List (Event Operation Answer) :=
  .step 0 (.generated "" springHash) :: List.replicate 4 (.step 0 .passed)

/-- A user is created, sets the password, logs in, and is set to inactive. -/
def welcomed : List (Event Operation Answer) :=
  [.arrive (.createUser "user@example.com" true), .step 0 .passed, .step 0 .passed,
    .step 0 (.generated "first" secretHash)] ++ openReset 0 ++ setPassword ++
    login "spring" :: List.replicate 3 (.step 0 .passed) ++ setStatus 0 .inactive ++
    [login "spring", .step 0 .passed]

/-- The user is sent a token after being set to inactive. -/
def reactivated : List (Event Operation Answer) :=
  setStatus 0 .inactive ++ requestReset ++ openReset 0 ++ setPassword ++
    login "spring" :: List.replicate 3 (.step 0 .passed)

def redeemedTwice : List (Event Operation Answer) :=
  requestReset ++ openReset 0 ++ openReset 1 ++ setPassword ++ setPassword

/-- The user is set to inactive between the session of a login and its tokens. -/
def lateLogin : List (Event Operation Answer) :=
  [login "winter", .step 0 .passed, .step 0 .passed] ++ setStatus 1 .inactive ++ [.step 0 .passed]

end Mokosh.Sessions
