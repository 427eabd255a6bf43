import Mokosh.Lib.Transition
import Mokosh.Auth.Identities

/-! # The memberships mirror the seats

**`stays_mirrored`**: every `users` row has one identity with its address, and this has a membership of the row's
tenant with the role and status of the row, as long as (`KeepsSeats`)

* no call gives a row an address that another row of its tenant has in another spelling;
* `update_user` and `place_grantee_user` change an address only to one whose identity has a membership of the
  tenant already, as that of the same address in another case has;
* `reset_password` finds its row active, since it makes it active with the mirror switched off.

`drifts` has runs without each of them: the welcome mail of a new user is answered, an address is changed, by
either of the two, and a second row of a human is created in a tenant. -/

namespace Mokosh.Identities

open Grants (UserRole)

variable {lower : String → String}

/-! ### What the trigger does to a seat -/

namespace IdentityDb

/-- The membership of the identity of an address. -/
def seat (db : IdentityDb lower) (email : String) (tenantId : Uuid) : Option Membership :=
  (db.identities.find (lower email)).bind fun i => db.memberships.find (i.id, tenantId)

/-- The row has one identity, and that has a membership of the tenant with the role and status of the row. -/
def Mirrored (db : IdentityDb lower) (u : User) : Prop :=
  ∃ i, db.identities.rows.filter (fun i => lower i.email = lower u.email) = [i] ∧
    ∃ m ∈ db.memberships.rows, m.seat = (i.id, u.tenantId) ∧ m.role = u.role ∧ m.status = u.status

variable {db db' : IdentityDb lower} {u new : User} {i : Identity} {m : Membership} {email : String}
  {tenantId userId : Uuid}

theorem seat_eq_some_iff : db.seat email tenantId = some m ↔
    ∃ i, db.identities.find (lower email) = some i ∧ db.memberships.find (i.id, tenantId) = some m :=
  Option.bind_eq_some_iff

theorem mirrored_iff : db.Mirrored u ↔
    ∃ m, db.seat u.email u.tenantId = some m ∧ m.role = u.role ∧ m.status = u.status := by
  unfold Mirrored
  rw [Keyed.filter_key]
  constructor
  · rintro ⟨i, hi, m, hm, hseat, hrole, hstatus⟩
    refine ⟨m, seat_eq_some_iff.mpr ⟨i, ?_, Keyed.find_eq_some_iff.mpr ⟨hm, hseat⟩⟩, hrole, hstatus⟩
    cases hf : db.identities.find (lower u.email) with
    | none => simp [hf] at hi
    | some j =>
        rw [hf, Option.toList_some, List.singleton_inj] at hi
        rw [hi]
  · rintro ⟨m, hm, hrole, hstatus⟩
    obtain ⟨i, hi, hm⟩ := seat_eq_some_iff.mp hm
    obtain ⟨hm, hseat⟩ := Keyed.find_eq_some_iff.mp hm
    exact ⟨i, by rw [hi, Option.toList_some], m, hm, hseat, hrole, hstatus⟩

instance (db : IdentityDb lower) (u : User) : Decidable (db.Mirrored u) :=
  decidable_of_iff (∃ m ∈ db.seat u.email u.tenantId, m.role = u.role ∧ m.status = u.status) mirrored_iff.symm

theorem seat_congr (hi : db'.identities = db.identities) (hm : db'.memberships = db.memberships) :
    db'.seat = db.seat := by
  unfold seat
  rw [hi, hm]

/-- Identities of different addresses have different ids. -/
theorem id_ne {j : Identity} {email' : String} (hi : db.identities.find (lower email) = some i)
    (hj : db.identities.find (lower email') = some j) (hne : lower email ≠ lower email') : i.id ≠ j.id := by
  obtain ⟨hi, hie⟩ := Keyed.find_eq_some_iff.mp hi
  obtain ⟨hj, hje⟩ := Keyed.find_eq_some_iff.mp hj
  intro hid
  obtain rfl := List.inj_on_of_nodup_map db.ids hi hj hid
  exact hne (hie.symm.trans hje)

theorem seat_upsertMembership_self (hi : db.identities.find (lower new.email) = some i) :
    ∃ m, (db.upsertMembership i.id new).seat new.email new.tenantId = some m ∧ m.role = new.role ∧
      m.status = new.status := by
  have hm : (db.upsertMembership i.id new).memberships.find (i.id, new.tenantId) =
      some ((db.memberships.find (i.id, new.tenantId)).elim (.ofUser i.id new) (Membership.write new)) :=
    (Keyed.find_upsert _ _ _ _).trans (if_pos rfl)
  refine ⟨_, seat_eq_some_iff.mpr ⟨i, hi, hm⟩, ?_⟩
  cases db.memberships.find (i.id, new.tenantId) <;> exact ⟨rfl, rfl⟩

theorem seat_upsertMembership_ne (hi : db.identities.find (lower new.email) = some i)
    (hne : lower email ≠ lower new.email ∨ tenantId ≠ new.tenantId) (hm : db.seat email tenantId = some m) :
    (db.upsertMembership i.id new).seat email tenantId = some m := by
  obtain ⟨j, hj, hm⟩ := seat_eq_some_iff.mp hm
  refine seat_eq_some_iff.mpr ⟨j, hj, (Keyed.find_upsert _ _ _ _).trans ((if_neg fun hseat => ?_).trans hm)⟩
  obtain ⟨hid, htenant⟩ := Prod.mk.injEq .. ▸ hseat
  obtain hne | hne := hne
  · exact id_ne hj hi hne hid
  · exact hne htenant

/-- An `INSERT` gives its row a seat, and leaves those of other addresses and tenants alone. -/
theorem seat_mirrorInsert_self (h : db.mirrorInsert new = .ok db') :
    ∃ m, db'.seat new.email new.tenantId = some m ∧ m.role = new.role ∧ m.status = new.status := by
  unfold mirrorInsert at h
  split at h
  · next i hi =>
      cases h
      exact seat_upsertMembership_self hi
  · next hi =>
      unfold insertIdentity at h
      split at h
      · cases h
      · cases h
        refine seat_upsertMembership_self (i := new.seed) ?_
        exact (Keyed.find_insert _ _).trans ((if_pos rfl).trans (by rw [hi]; rfl))

theorem seat_mirrorInsert_ne (h : db.mirrorInsert new = .ok db')
    (hne : lower email ≠ lower new.email ∨ tenantId ≠ new.tenantId) (hm : db.seat email tenantId = some m) :
    db'.seat email tenantId = some m := by
  unfold mirrorInsert at h
  split at h
  · next i hi =>
      cases h
      exact seat_upsertMembership_ne hi hne hm
  · next hi =>
      unfold insertIdentity at h
      split at h
      · cases h
      · cases h
        refine seat_upsertMembership_ne (i := new.seed) ?_ hne ?_
        · exact (Keyed.find_insert _ _).trans ((if_pos rfl).trans (by rw [hi]; rfl))
        · obtain ⟨j, hj, hm⟩ := seat_eq_some_iff.mp hm
          refine seat_eq_some_iff.mpr ⟨j, (Keyed.find_insert _ _).trans ?_, hm⟩
          split
          · rw [hj]
            rfl
          · exact hj

/-- An `UPDATE` writes the seat that the address of its row has. -/
theorem seat_mirrorUpdate_self (hm : db.seat new.email new.tenantId = some m) :
    (db.mirrorUpdate new).seat new.email new.tenantId = some (m.write new) := by
  obtain ⟨i, hi, hm⟩ := seat_eq_some_iff.mp hm
  refine seat_eq_some_iff.mpr ⟨{ i with profile := new.profile }, ?_, ?_⟩
  · rw [identities_mirrorUpdate, if_pos rfl, hi, Option.map_some]
  · rw [memberships_mirrorUpdate hi, if_pos rfl, hm, Option.map_some]

theorem seat_mirrorUpdate_ne (hne : lower email ≠ lower new.email ∨ tenantId ≠ new.tenantId)
    (hm : db.seat email tenantId = some m) : (db.mirrorUpdate new).seat email tenantId = some m := by
  obtain ⟨j, hj, hm⟩ := seat_eq_some_iff.mp hm
  cases hi : db.identities.find (lower new.email) with
  | none =>
      rw [mirrorUpdate_of_not_find hi]
      exact seat_eq_some_iff.mpr ⟨j, hj, hm⟩
  | some i =>
      -- The identity keeps its id, and it is another one, or the seat is of another tenant.
      obtain ⟨j', hj', hid⟩ : ∃ j', (db.mirrorUpdate new).identities.find (lower email) = some j' ∧ j'.id = j.id := by
        rw [identities_mirrorUpdate, hj]
        split
        · exact ⟨_, rfl, rfl⟩
        · exact ⟨j, rfl, rfl⟩
      refine seat_eq_some_iff.mpr ⟨j', hj', ?_⟩
      rw [hid, memberships_mirrorUpdate hi, if_neg, hm]
      intro hseat
      obtain ⟨hid, htenant⟩ := Prod.mk.injEq .. ▸ hseat
      obtain hne | hne := hne
      · exact id_ne hj hi hne hid
      · exact hne htenant

end IdentityDb

/-! ### The condition -/

structure AuthService where
  localPasswordAuthDisabled : Bool
  verifyPassword : String → String → Bool
  toUppercase : Char → List Char

/-- A request to `reset_password`: the user and the tenant of the live token it presents, if it does, and what
`hash_password` makes of the new password. -/
structure ResetPasswordRequest where
  token : Option (Uuid × Uuid)
  newPassword : String
  confirmPassword : String
  newHash : String
deriving DecidableEq

structure ChangePasswordRequest where
  currentPassword : String
  newPassword : String
  confirmPassword : String
  newHash : String
deriving DecidableEq

inductive Operation where
  | createUser (tenantId : Uuid) (request : CreateUserRequest)
  | updateUser (tenantId userId : Uuid) (request : UpdateUserRequest)
  | resetPassword (request : ResetPasswordRequest)
  | changePassword (tenantId userId : Uuid) (request : ChangePasswordRequest)
  | setUserRole (tenantId userId : Uuid) (role : UserRole)
  | updateLastLogin (tenantId userId : Uuid)
  | placeGranteeUser (request : PlaceGranteeRequest)
deriving DecidableEq

namespace AuthService

variable (service : AuthService)

/-- What `reset_password` checks; the user and the tenant of the token. -/
def redeem (r : ResetPasswordRequest) : AppResult (Uuid × Uuid) :=
  if service.localPasswordAuthDisabled then .error (.forbidden
    "This deployment signs in with single sign-on. Use your organisation's sign-in page; a password set here would not sign you in.")
  else if r.newPassword ≠ r.confirmPassword then .error (.validation "confirm_password" "passwords do not match")
  else orError (.badRequest "Invalid or expired reset token") r.token

variable (db : IdentityDb lower)

def resetPassword (r : ResetPasswordRequest) : AppResult (IdentityDb lower) := do
  let (userId, tenantId) ← service.redeem r
  db.updateRow false tenantId userId fun u => { u with passwordHash := some r.newHash, status := .active }

def changePassword (tenantId userId : Uuid) (r : ChangePasswordRequest) : AppResult (IdentityDb lower) := do
  if r.newPassword ≠ r.confirmPassword then .error (.validation "confirm_password" "passwords do not match")
  else
    let u ← orError (.notFound "User") (db.findUser tenantId userId)
    let currentHash ← orError (.forbidden "This account has no local password set") u.passwordHash
    if service.verifyPassword r.currentPassword currentHash then
      db.updateRow false tenantId userId fun u => { u with passwordHash := some r.newHash }
    else .error (.validation "current_password" "current password is incorrect")

def call (now : ℕ) : Operation → AppResult (IdentityDb lower)
  | .createUser tenantId r => db.createUser tenantId r
  | .updateUser tenantId userId r => db.updateUser tenantId userId r
  | .resetPassword r => service.resetPassword db r
  | .changePassword tenantId userId r => service.changePassword db tenantId userId r
  | .setUserRole tenantId userId role => db.setUserRole tenantId userId role
  | .updateLastLogin tenantId userId => db.updateLastLogin now tenantId userId
  | .placeGranteeUser r => db.placeGranteeUser service.toUppercase now r

/-- A call that fails leaves everything as it was. -/
def step (db : IdentityDb lower) (e : ℕ × Operation) : Option (IdentityDb lower) :=
  some ((service.call db e.1 e.2).toOption.getD db)

end AuthService

namespace IdentityDb

variable (db : IdentityDb lower)

/-- No row of the tenant, other than `userId`, has the address in another spelling. -/
def OneSpelling (tenantId : Uuid) (email : String) (userId : Option Uuid) : Prop :=
  ∀ v ∈ db.users.rows, v.tenantId = tenantId → lower v.email = lower email → v.email = email ∨ some v.id = userId

instance (tenantId : Uuid) (email : String) (userId : Option Uuid) :
    Decidable (db.OneSpelling tenantId email userId) :=
  inferInstanceAs (Decidable (∀ v ∈ db.users.rows, _))

/-- The row may get the address. -/
def Moves (u : User) (email : String) : Prop :=
  db.OneSpelling u.tenantId email (some u.id) ∧ (db.seat email u.tenantId).isSome = true

instance (u : User) (email : String) : Decidable (db.Moves u email) := inferInstanceAs (Decidable (_ ∧ _))

/-- The row may get the address, or a new row may, if there is none. -/
def Places (tenantId : Uuid) (email : String) : Option User → Prop
  | some u => db.Moves u email
  | none => db.OneSpelling tenantId email none

instance (tenantId : Uuid) (email : String) : ∀ u, Decidable (db.Places tenantId email u)
  | some u => inferInstanceAs (Decidable (db.Moves u email))
  | none => inferInstanceAs (Decidable (db.OneSpelling tenantId email none))

end IdentityDb

/-- The calls that keep the mirror. -/
def KeepsSeatsIn (service : AuthService) (db : IdentityDb lower) : Operation → Prop
  | .createUser tenantId r => db.OneSpelling tenantId r.email none
  | .updateUser tenantId userId r => ∀ u ∈ db.findUser tenantId userId, ∀ email ∈ r.email, db.Moves u email
  | .resetPassword r => ∀ t ∈ (service.redeem r).toOption, ∀ u ∈ db.findUser t.2 t.1, u.status = .active
  | .placeGranteeUser r => db.Places r.tenantId r.email (db.findPlacement r.bunyipUserId r.tenantId)
  | .changePassword _ _ _ | .setUserRole _ _ _ | .updateLastLogin _ _ => True

instance (service : AuthService) (db : IdentityDb lower) : ∀ op, Decidable (KeepsSeatsIn service db op)
  | .createUser tenantId r => inferInstanceAs (Decidable (db.OneSpelling tenantId r.email none))
  | .updateUser tenantId userId r =>
    inferInstanceAs (Decidable (∀ u ∈ db.findUser tenantId userId, ∀ email ∈ r.email, db.Moves u email))
  | .resetPassword r =>
    inferInstanceAs (Decidable (∀ t ∈ (service.redeem r).toOption, ∀ u ∈ db.findUser t.2 t.1, u.status = .active))
  | .placeGranteeUser r =>
    inferInstanceAs (Decidable (db.Places r.tenantId r.email (db.findPlacement r.bunyipUserId r.tenantId)))
  | .changePassword _ _ _ | .setUserRole _ _ _ | .updateLastLogin _ _ => isTrue trivial

def KeepsSeats (service : AuthService) (db : IdentityDb lower) (e : ℕ × Operation) : Prop :=
  KeepsSeatsIn service db e.2

instance (service : AuthService) (db : IdentityDb lower) (e : ℕ × Operation) : Decidable (KeepsSeats service db e) :=
  inferInstanceAs (Decidable (KeepsSeatsIn service db e.2))

/-! ### What is kept -/

/-- Every row is mirrored, and no two rows of a tenant have one address in two spellings. -/
structure Mirrors (db : IdentityDb lower) : Prop where
  mirrored : ∀ u ∈ db.users.rows, db.Mirrored u
  apart : ∀ u ∈ db.users.rows, ∀ v ∈ db.users.rows, u.tenantId = v.tenantId → lower u.email = lower v.email → u = v

namespace Mirrors

variable {db db' : IdentityDb lower} {u : User} {tenantId userId : Uuid}

theorem insertRow (h : Mirrors db) {mk : Uuid → User} {hk : ∀ id, (mk id).id = id}
    (ho : db.insertRow mk hk = .ok db')
    (hone : db.OneSpelling (mk db.users.next).tenantId (mk db.users.next).email none) : Mirrors db' := by
  have haddress := fun v hv => IdentityDb.address_of_insertRow (v := v) ho hv
  obtain ⟨put, hids, hmembers, hrows, ho⟩ := IdentityDb.insertRow_ok ho
  have husers := IdentityDb.users_mirrorInsert ho
  have hseat := IdentityDb.seat_congr hids hmembers
  -- An older row with the address would have it in the same spelling.
  have hfree : ∀ v ∈ db.users.rows, v.tenantId = (mk db.users.next).tenantId →
      lower v.email ≠ lower (mk db.users.next).email := by
    intro v hv htenant hlower
    obtain hsame | hself := hone v hv htenant hlower
    · exact haddress v hv (Prod.ext htenant hsame)
    · cases hself
  refine ⟨fun v hv => ?_, fun v hv w hw htenant hlower => ?_⟩
  · rw [husers, hrows] at hv
    rw [IdentityDb.mirrored_iff]
    obtain hv | rfl := hv
    · obtain ⟨m, hm, hmatch⟩ := IdentityDb.mirrored_iff.mp (h.mirrored v hv)
      refine ⟨m, IdentityDb.seat_mirrorInsert_ne ho ?_ (hseat ▸ hm), hmatch⟩
      exact or_iff_not_imp_right.mpr fun htenant => hfree v hv (not_not.mp htenant)
    · exact IdentityDb.seat_mirrorInsert_self ho
  · rw [husers, hrows] at hv hw
    obtain hv | rfl := hv
    · obtain hw | rfl := hw
      · exact h.apart v hv w hw htenant hlower
      · exact absurd hlower (hfree v hv htenant)
    · obtain hw | rfl := hw
      · exact absurd hlower.symm (hfree w hw htenant.symm)
      · rfl

/-- A row is replaced by one whose address no other row of the tenant has. -/
theorem apart_replace {put : IdentityDb lower} {u' : User} (h : Mirrors db)
    (hrows : ∀ v, v ∈ put.users.rows ↔ v = u' ∨ v ∈ db.users.rows ∧ v.id ≠ u.id)
    (hfree : ∀ v ∈ db.users.rows, v.id ≠ u.id → v.tenantId = u'.tenantId → lower v.email ≠ lower u'.email) :
    ∀ v ∈ put.users.rows, ∀ w ∈ put.users.rows, v.tenantId = w.tenantId → lower v.email = lower w.email → v = w := by
  intro v hv w hw htenant hlower
  rw [hrows] at hv hw
  obtain rfl | ⟨hv, hvid⟩ := hv
  · obtain rfl | ⟨hw, hwid⟩ := hw
    · rfl
    · exact absurd hlower.symm (hfree w hw hwid htenant.symm)
  · obtain rfl | ⟨hw, hwid⟩ := hw
    · exact absurd hlower (hfree v hv hvid htenant)
    · exact h.apart v hv w hw htenant hlower

/-- An `UPDATE` of one row. -/
theorem updateRow (h : Mirrors db) {f : User → User} {hf : ∀ u, (f u).id = u.id}
    (ho : db.updateRow true tenantId userId f hf = .ok db') (htenant : ∀ u, (f u).tenantId = u.tenantId)
    (hmoves : ∀ u, db.findUser tenantId userId = some u → db.Moves u (f u).email) : Mirrors db' := by
  cases hu : db.findUser tenantId userId with
  | none => rwa [IdentityDb.updateRow_of_not_found hu ho]
  | some u =>
      have haddress := fun v hv => IdentityDb.address_of_updateRow (v := v) hu ho hv
      obtain ⟨hone, hseated⟩ := hmoves u hu
      obtain ⟨put, hids, hmembers, hrows, rfl⟩ := IdentityDb.updateRow_ok hu ho
      have hseat := IdentityDb.seat_congr hids hmembers
      have hfree : ∀ v ∈ db.users.rows, v.id ≠ u.id → v.tenantId = (f u).tenantId →
          lower v.email ≠ lower (f u).email := by
        intro v hv hid hv' hlower
        obtain hsame | hself := hone v hv (hv'.trans (htenant u)) hlower
        · exact haddress v hv hid (Prod.ext hv' hsame)
        · exact hid (Option.some.inj hself)
      rw [if_pos rfl]
      have husers := IdentityDb.users_mirrorUpdate put (f u)
      refine ⟨fun v hv => ?_, ?_⟩
      · rw [husers, hrows] at hv
        rw [IdentityDb.mirrored_iff]
        obtain rfl | ⟨hv, hid⟩ := hv
        · obtain ⟨m, hm⟩ := Option.isSome_iff_exists.mp hseated
          rw [← htenant, ← hseat] at hm
          exact ⟨_, IdentityDb.seat_mirrorUpdate_self hm, rfl, rfl⟩
        · obtain ⟨m, hm, hmatch⟩ := IdentityDb.mirrored_iff.mp (h.mirrored v hv)
          refine ⟨m, IdentityDb.seat_mirrorUpdate_ne ?_ (hseat ▸ hm), hmatch⟩
          exact or_iff_not_imp_right.mpr fun htenant => hfree v hv hid (not_not.mp htenant)
      · rw [husers]
        exact apart_replace h hrows hfree

theorem moves_self (h : Mirrors db) (hu : u ∈ db.users.rows) : db.Moves u u.email := by
  refine ⟨fun v hv htenant hlower => .inl ?_, ?_⟩
  · rw [h.apart v hv u hu htenant hlower]
  · obtain ⟨m, hm, -⟩ := IdentityDb.mirrored_iff.mp (h.mirrored u hu)
    rw [hm, Option.isSome_some]

/-- An `UPDATE` that leaves the address alone. -/
theorem updateRow_sameAddress (h : Mirrors db) {f : User → User} {hf : ∀ u, (f u).id = u.id}
    (ho : db.updateRow true tenantId userId f hf = .ok db') (hsame : ∀ u, (f u).address = u.address) :
    Mirrors db' := by
  refine h.updateRow ho (fun u => congrArg Prod.fst (hsame u)) fun u hu => ?_
  rw [show (f u).email = u.email from congrArg Prod.snd (hsame u)]
  exact h.moves_self (IdentityDb.findUser_eq_some_iff.mp hu).1

/-- With the trigger off, what is mirrored has to stay as it is. -/
theorem updateRow_unmirrored (h : Mirrors db) {f : User → User} {hf : ∀ u, (f u).id = u.id}
    (ho : db.updateRow false tenantId userId f hf = .ok db')
    (hsame : ∀ u, db.findUser tenantId userId = some u →
      (f u).address = u.address ∧ (f u).role = u.role ∧ (f u).status = u.status) : Mirrors db' := by
  cases hu : db.findUser tenantId userId with
  | none => rwa [IdentityDb.updateRow_of_not_found hu ho]
  | some u =>
      obtain ⟨put, hids, hmembers, hrows, rfl⟩ := IdentityDb.updateRow_ok hu ho
      have hseat := IdentityDb.seat_congr hids hmembers
      obtain ⟨haddress, hrole, hstatus⟩ := hsame u hu
      obtain ⟨htenant, hemail⟩ := Prod.mk.injEq .. ▸ haddress
      have hmem := (IdentityDb.findUser_eq_some_iff.mp hu).1
      refine ⟨fun v hv => ?_, apart_replace h hrows ?_⟩
      · rw [hrows] at hv
        obtain rfl | ⟨hv, -⟩ := hv
        · rw [IdentityDb.mirrored_iff, htenant, hemail, hrole, hstatus, hseat]
          exact IdentityDb.mirrored_iff.mp (h.mirrored u hmem)
        · rw [IdentityDb.mirrored_iff, hseat]
          exact IdentityDb.mirrored_iff.mp (h.mirrored v hv)
      · intro v hv hid hv' hlower
        rw [htenant] at hv'
        rw [hemail] at hlower
        exact hid (congrArg User.id (h.apart v hv u hmem hv' hlower))

/-- One lemma for each operation that has a condition. -/
theorem createUser (h : Mirrors db) {r : CreateUserRequest} (hone : db.OneSpelling tenantId r.email none)
    (ho : db.createUser tenantId r = .ok db') : Mirrors db' := by
  unfold IdentityDb.createUser at ho
  split at ho
  · cases ho
  · exact h.insertRow ho hone

theorem updateUser (h : Mirrors db) {r : UpdateUserRequest}
    (hmoves : ∀ u ∈ db.findUser tenantId userId, ∀ email ∈ r.email, db.Moves u email)
    (ho : db.updateUser tenantId userId r = .ok db') : Mirrors db' := by
  unfold IdentityDb.updateUser at ho
  split at ho
  · cases ho
    exact h
  · refine h.updateRow ho (fun _ => rfl) fun u hu => ?_
    cases he : r.email with
    | none =>
        rw [show (r.set u).email = u.email by simp [UpdateUserRequest.set, he]]
        exact h.moves_self (IdentityDb.findUser_eq_some_iff.mp hu).1
    | some email =>
        rw [show (r.set u).email = email by simp [UpdateUserRequest.set, he]]
        exact hmoves u hu email he

theorem resetPassword {service : AuthService} (h : Mirrors db) {r : ResetPasswordRequest}
    (hactive : ∀ t ∈ (service.redeem r).toOption, ∀ u ∈ db.findUser t.2 t.1, u.status = .active)
    (ho : service.resetPassword db r = .ok db') : Mirrors db' := by
  obtain ⟨⟨userId, tenantId⟩, hr, ho⟩ := bind_eq_ok.mp ho
  refine h.updateRow_unmirrored ho fun u hu => ⟨rfl, rfl, ?_⟩
  exact (hactive _ (by rw [hr]; rfl) u hu).symm

theorem changePassword {service : AuthService} (h : Mirrors db) {r : ChangePasswordRequest}
    (ho : service.changePassword db tenantId userId r = .ok db') : Mirrors db' := by
  unfold AuthService.changePassword at ho
  split at ho
  · cases ho
  · obtain ⟨u, -, ho⟩ := bind_eq_ok.mp ho
    obtain ⟨hash, -, ho⟩ := bind_eq_ok.mp ho
    split at ho
    · exact h.updateRow_unmirrored ho fun _ _ => ⟨rfl, rfl, rfl⟩
    · cases ho

theorem placeGranteeUser {toUppercase : Char → List Char} {now : ℕ} (h : Mirrors db) {r : PlaceGranteeRequest}
    (hplaces : db.Places r.tenantId r.email (db.findPlacement r.bunyipUserId r.tenantId))
    (ho : db.placeGranteeUser toUppercase now r = .ok db') : Mirrors db' := by
  unfold IdentityDb.placeGranteeUser at ho
  split at ho
  · next u hu =>
      rw [hu] at hplaces
      refine h.updateRow ho (fun _ => rfl) fun v hv => ?_
      obtain ⟨hmem, hid, -⟩ := IdentityDb.findUser_eq_some_iff.mp hv
      obtain rfl := Table.eq_of_key_eq (t := db.users) hmem (List.mem_of_find?_eq_some hu) hid
      exact hplaces
  · next hu =>
      rw [hu] at hplaces
      exact h.insertRow ho hplaces

end Mirrors

/-! ### Runs -/

theorem mirrors_call {service : AuthService} {db db' : IdentityDb lower} {now : ℕ} {op : Operation}
    (h : Mirrors db) (hC : KeepsSeatsIn service db op) (ho : service.call db now op = .ok db') : Mirrors db' := by
  cases op with
  | createUser tenantId r => exact h.createUser hC ho
  | updateUser tenantId userId r => exact h.updateUser hC ho
  | resetPassword r => exact h.resetPassword hC ho
  | changePassword tenantId userId r => exact h.changePassword ho
  | setUserRole tenantId userId role => exact h.updateRow_sameAddress ho fun _ => rfl
  | updateLastLogin tenantId userId => exact h.updateRow_sameAddress ho fun _ => rfl
  | placeGranteeUser r => exact h.placeGranteeUser hC ho

theorem mirrors_step {service : AuthService} (db : IdentityDb lower) (e : ℕ × Operation) (db' : IdentityDb lower)
    (h : Mirrors db) (hC : KeepsSeats service db e) (hs : service.step db e = some db') : Mirrors db' := by
  rw [AuthService.step, Option.some.injEq] at hs
  subst hs
  cases ho : service.call db e.1 e.2 with
  | error _ => exact h
  | ok db' => exact mirrors_call h hC ho

theorem stays_mirrored {service : AuthService} {db db' : IdentityDb lower} {es : List (ℕ × Operation)}
    (h : Mirrors db) (hC : StepsMeet service.step (KeepsSeats service) db es)
    (hr : run service.step db es = some db') : ∀ u ∈ db'.users.rows, db'.Mirrored u :=
  (run_invariant_of_stepsMeet Mirrors mirrors_step h hC hr).mirrored

theorem mirrors_empty : Mirrors (.empty : IdentityDb lower) where
  mirrored _ hu := absurd hu List.not_mem_nil
  apart _ hu := absurd hu List.not_mem_nil

/-! ### The seats of one human -/

def asciiLower (s : String) : String := String.ofList (s.toList.map Char.toLower)

def standalone : AuthService :=
  { localPasswordAuthDisabled := false, verifyPassword := fun password hash => password = hash,
    toUppercase := fun c => [c.toUpper] }

def createAnn (email : String) (role : UserRole) : CreateUserRequest :=
  { email := email, firstName := "Ann", lastName := "Lee", phone := none, mobile := none, title := none,
    role := role, timezone := none, dateFormatString := none, themeBaseMode := none, themeAccentId := none }

def placeAnn (email : String) : PlaceGranteeRequest :=
  { bunyipUserId := 7, tenantId := 2, role := .technician, email := email, givenNameHint := some "Ann",
    familyNameHint := some "Lee", emailVerified := true }

def setPassword : ResetPasswordRequest :=
  { token := some (0, 1), newPassword := "winter", confirmPassword := "winter", newHash := "winter" }

/-- Ann is made active, and gets a password; she is placed in a second tenant, and her address is spelled
another way. -/
def inTurn : List (ℕ × Operation) :=
  [(0, .createUser 1 (createAnn "ann@acme.test" .technician)),
    (1, .updateUser 1 0 { UpdateUserRequest.empty with status := some .active, title := some "Lead" }),
    (2, .resetPassword setPassword), (3, .updateLastLogin 1 0), (4, .setUserRole 1 0 .admin),
    (5, .placeGranteeUser (placeAnn "Ann@acme.test")), (6, .placeGranteeUser (placeAnn "ann@acme.test")),
    (7, .updateUser 1 0 { UpdateUserRequest.empty with email := some "Ann@Acme.test" })]

theorem stays_mirrored_inTurn : ∃ db, run standalone.step (.empty : IdentityDb asciiLower) inTurn = some db ∧
    db.users.rows.length = 2 ∧ ∀ u ∈ db.users.rows, db.Mirrored u := by
  have h : (run standalone.step (.empty : IdentityDb asciiLower) inTurn).any
      (fun db => db.users.rows.length = 2) = true := by
    decide +kernel
  obtain ⟨db, hr, hlength⟩ := exists_run_of_any h
  exact ⟨db, hr, of_decide_eq_true hlength, stays_mirrored mirrors_empty (by decide +kernel) hr⟩

/-- The welcome mail of a new user is answered. -/
def welcomed : List (ℕ × Operation) :=
  [(0, .createUser 1 (createAnn "ann@acme.test" .technician)), (1, .resetPassword setPassword)]

def moved : List (ℕ × Operation) :=
  [(0, .createUser 1 (createAnn "ann@acme.test" .technician)),
    (1, .updateUser 1 0 { UpdateUserRequest.empty with email := some "ann@lee.test" })]

/-- The grantee comes back with another address. -/
def regranted : List (ℕ × Operation) :=
  [(0, .placeGranteeUser (placeAnn "ann@acme.test")), (1, .placeGranteeUser (placeAnn "ann@lee.test"))]

def twoSpellings : List (ℕ × Operation) :=
  [(0, .createUser 1 (createAnn "ann@acme.test" .technician)),
    (1, .createUser 1 (createAnn "Ann@acme.test" .admin))]

theorem drifts :
    (∃ db ∈ run standalone.step (.empty : IdentityDb asciiLower) welcomed, ¬∀ u ∈ db.users.rows, db.Mirrored u) ∧
    (∃ db ∈ run standalone.step (.empty : IdentityDb asciiLower) moved, ¬∀ u ∈ db.users.rows, db.Mirrored u) ∧
    (∃ db ∈ run standalone.step (.empty : IdentityDb asciiLower) regranted, ¬∀ u ∈ db.users.rows, db.Mirrored u) ∧
    ∃ db ∈ run standalone.step (.empty : IdentityDb asciiLower) twoSpellings,
      ¬∀ u ∈ db.users.rows, db.Mirrored u := by
  decide +kernel

end Mokosh.Identities
