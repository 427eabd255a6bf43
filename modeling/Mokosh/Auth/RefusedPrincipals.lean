import Mokosh.Auth.Alone

/-! # Refused principals

A caller whose row `ensure_principal_usable` refuses is refused before anything is written, if the row is found when
the caller is resolved.  Otherwise the placement goes on without it: it may provision a personal tenant, move the row
or refresh it before the late gate, and a row that has been moved may even pass there.  `Undisturbed` says when none
of this happens. -/

namespace Mokosh.Placement

open Grants (UserRole)
open Identities (nameHint)

variable {settings : Settings} {c : Circumstances} {sub : Uuid} {claims : AtClaims} {hints : Hints} {db : PlacementDb}
  {u : UserRow} {target : Uuid}

/-- A refusal without a side effect. -/
structure RefusedQuietly (db : PlacementDb) (x : Outcome × PlacementDb) : Prop where
  refused : x.1.1 = none
  users : x.2.users = db.users
  tenants : x.2.tenants = db.tenants
  invitations : x.2.invitations = db.invitations
  teamMembers : x.2.teamMembers = db.teamMembers

theorem RefusedQuietly.refl (rejection : Option AppError) : RefusedQuietly db ((none, rejection), db) :=
  ⟨rfl, rfl, rfl, rfl, rfl⟩

theorem refusedQuietly_iff {x : Outcome × PlacementDb} (hrefused : x.1.1 = none) (h : OnlyUsers true db x.2) :
    RefusedQuietly db x ↔ x.2.users = db.users :=
  ⟨RefusedQuietly.users, fun husers => ⟨hrefused, husers, h.tenants, h.invitations, h.teamMembers⟩⟩

/-! ### What a caller that cannot be resolved may disturb -/

section Disturbance

variable (settings : Settings) (c : Circumstances) (sub : Uuid) (claims : AtClaims) (db : PlacementDb) (u : UserRow)

/-- The userinfo is asked for unless the principal cannot be read. -/
def Circumstances.knownHints : Hints :=
  if c.fails .resolvePrincipal then .ofClaims claims else .ofUserinfo claims c.userinfo

def Circumstances.placed : Option (Uuid × UserRole) :=
  (c.reading .placement (.ok ((db.liveUser sub).map fun u => (u.tenantId, u.role)))).toOption.join

/-- The row stays as it is when its holder enters the tenant: it is not refreshed there, nor moved into it. -/
def Spared (hints : Hints) (target : Uuid) : Prop :=
  if u.tenantId = target then
    if u.deletedAt = none ∧ c.fails .user = false then namesDrifted hints u = false
    else
      (oidcUser settings sub hints target .admin).refresh c.now u = u ∨
        ¬db.Fits ((oidcUser settings sub hints target .admin).refresh c.now u)
  else u.deletedAt = none → c.fails .placement = false → ¬db.Fits { u with tenantId := target, updatedAt := c.now }

/-- A personal tenant cannot be provisioned. -/
def PersonalTenantTaken : Prop :=
  (db.tenants.find c.generated.tenantId).isSome = true ∨
    (db.resolveTenantSlugOpt (personalSlug settings.texts c.generated.tenantId)).isSome = true

/-- The caller is not placed, or the row is spared where it is placed. -/
def SparedWhenPlaced (hints : Hints) : Prop :=
  let placement := c.placed sub db
  let invite := c.invite settings db hints
  onboards settings hints claims placement invite = true →
    match invite, placement.filter fun _ => ¬isStuckInDefault settings placement invite.isSome with
    | some invite, _ => Spared settings c sub db u hints invite.tenantId
    | none, some current => Spared settings c sub db u hints current.1
    | none, none =>
      if settings.tenants then
        c.fails .personalTenant = false →
          match db.personalTenantForOwner sub with
          | some own => Spared settings c sub db u hints own
          | none => PersonalTenantTaken settings c db
      else Spared settings c sub db u hints settings.defaultTenantId

/-- The row is found when the caller is resolved, or it is spared later. -/
def Undisturbed : Prop :=
  c.fails .resolvePrincipal = true ∨ u.deletedAt ≠ none →
    SparedWhenPlaced settings c sub claims db u (c.knownHints claims)

end Disturbance

/-! ### Writes to the row -/

theorem written_updateUser_users {userId : Uuid} {p : UserRow → Bool} {f : UserRow → UserRow}
    {k : ∀ u, (f u).id = u.id} (hu : (db.users.find userId).filter p = some u) :
    (db.written (db.updateUser userId p f k)).2.users = db.users ↔ f u = u ∨ ¬db.Fits (f u) := by
  have hfind := (Option.filter_eq_some_iff.mp hu).1
  by_cases hfits : db.Fits (f u)
  · obtain ⟨db', h⟩ := (PlacementDb.updateUser_accepted hu (k := k)).mpr hfits
    have hself : db.users.update userId f (fun u hu => (k u).trans hu) = db.users ↔ f u = u :=
      Keyed.update_eq_self_iff hfind
    rw [h, or_iff_left (not_not.mpr hfits), ← hself]
    rw [PlacementDb.updateUser_of_found hu] at h
    obtain ⟨_, _, rfl⟩ := PlacementDb.putUsers_eq_ok.mp h
    exact Iff.rfl
  · refine iff_of_true ?_ (.inr hfits)
    cases h : db.updateUser userId p f k with
    | ok db' => exact absurd ((PlacementDb.updateUser_accepted hu (k := k)).mp ⟨db', h⟩) hfits
    | error _ => rfl

theorem written_upsertUser_users (texts : Texts) (now : ℕ) {r : OidcUser} (hu : db.users.find r.sub = some u) :
    (db.written (db.upsertUser texts now r)).2.users = db.users ↔
      (u.tenantId = r.tenantId → r.refresh now u = u ∨ ¬db.Fits (r.refresh now u)) := by
  unfold PlacementDb.upsertUser
  rw [hu, Option.isSome_some, if_pos rfl]
  by_cases htenant : u.tenantId = r.tenantId
  · have hmatch : (db.users.find r.sub).filter (fun v => v.tenantId = r.tenantId) = some u := by
      rw [hu, Option.filter_some, if_pos (decide_eq_true htenant)]
    exact (written_updateUser_users hmatch).trans (imp_iff_right htenant).symm
  · refine iff_of_true ?_ fun h => absurd h htenant
    have hmatch : (db.users.find r.sub).filter (fun v => v.tenantId = r.tenantId) = none := by
      rw [hu, Option.filter_some, if_neg (by simpa using htenant)]
    exact congrArg (fun r => (db.written r).2.users) (PlacementDb.updateUser_of_not_found hmatch)

theorem find_upsertUser {texts : Texts} {now : ℕ} {r : OidcUser} {db' : PlacementDb} (hu : db.users.find r.sub = some u)
    (h : db.upsertUser texts now r = .ok db') :
    db'.users.find r.sub = some (if u.tenantId = r.tenantId then r.refresh now u else u) := by
  unfold PlacementDb.upsertUser at h
  rw [hu, Option.isSome_some, if_pos rfl] at h
  by_cases htenant : u.tenantId = r.tenantId
  · have hmatch : (db.users.find r.sub).filter (fun v => v.tenantId = r.tenantId) = some u := by
      rw [hu, Option.filter_some, if_pos (decide_eq_true htenant)]
    obtain ⟨_, _, rfl⟩ := PlacementDb.putUsers_eq_ok.mp ((PlacementDb.updateUser_of_found hmatch).symm.trans h)
    rw [if_pos htenant]
    dsimp only
    rw [Keyed.find_update, if_pos rfl, hu, Option.map_some]
  · have hmatch : (db.users.find r.sub).filter (fun v => v.tenantId = r.tenantId) = none := by
      rw [hu, Option.filter_some, if_neg (by simpa using htenant)]
    cases (PlacementDb.updateUser_of_not_found hmatch).symm.trans h
    rw [if_neg htenant, hu]

theorem rehomeUser_accepted {now : ℕ} (hu : db.users.find sub = some u) :
    (∃ db', db.rehomeUser now sub u.tenantId target = .ok db') ↔
      db.Fits { u with tenantId := target, updatedAt := now } := by
  have hmatch : (db.users.find sub).filter (fun v => v.tenantId = u.tenantId) = some u := by
    rw [hu, Option.filter_some, if_pos (decide_eq_true rfl)]
  exact PlacementDb.updateUser_accepted (f := fun u => { u with tenantId := target, updatedAt := now })
    (k := fun _ => rfl) hmatch

/-! ### Entering a tenant -/

/-- A row that is tombstoned, or in another tenant, is not found in the tenant, not even when it has been refreshed. -/
theorem run_loadUser_of_hidden {role : UserRole} (hu : db.users.find sub = some u)
    (hhidden : ¬(u.deletedAt = none ∧ u.tenantId = target)) :
    c.run settings.texts (loadUser settings sub hints none target role) db =
      (none, (db.written (db.upsertUser settings.texts c.now (oidcUser settings sub hints target role))).2) := by
  have hget : ∀ {r : Read} {user : User}, c.reading r (db.getUserById target sub) ≠ .ok user := by
    intro r user h
    obtain ⟨v, hv, hlive, htenant, -⟩ := getUserById_eq_ok.mp (c.reading_eq_ok.mp h).2
    cases hu.symm.trans hv
    exact hhidden ⟨hlive, htenant⟩
  unfold loadUser
  rw [Option.filter_none]
  dsimp only
  rw [Circumstances.run_bind, Circumstances.run_getUserById]
  cases hfirst : c.reading .user (db.getUserById target sub) with
  | ok user => exact absurd hfirst hget
  | error _ =>
      unfold upsertUserFromOidc reread
      dsimp only
      rw [Circumstances.run_bind, Circumstances.run_bind, Circumstances.run_upsertUser]
      cases hwrite : db.upsertUser settings.texts c.now (oidcUser settings sub hints target role) with
      | error _ => rfl
      | ok db' =>
          dsimp only [PlacementDb.written]
          rw [Circumstances.run_getUserById]
          cases hagain : c.reading .upserted (db'.getUserById target sub) with
          | error _ =>
              dsimp only [oidcUser]
              rw [hagain]
              rfl
          | ok user =>
              obtain ⟨v, hv, hlive, htenant, -⟩ := getUserById_eq_ok.mp (c.reading_eq_ok.mp hagain).2
              cases (find_upsertUser hu hwrite).symm.trans hv
              refine absurd ⟨?_, ?_⟩ hhidden
              · split at hlive <;> exact hlive
              · split at htenant <;> exact htenant

theorem run_enterTenant_of_absent {placement : Option (Uuid × UserRole)} {invite : Option PendingInvite}
    {db₁ db₂ : PlacementDb} (hrehome : (c.run settings.texts (rehome sub placement target) db).2 = db₁)
    (hload : c.run settings.texts
      (loadUser settings sub hints none target ((invite.map PendingInvite.role).getD .admin)) db₁ = (none, db₂)) :
    c.run settings.texts (enterTenant settings sub hints claims none placement invite target) db =
      ((none, none), db₂) := by
  unfold enterTenant settleIn
  rw [Circumstances.run_bind, hrehome, Circumstances.run_bind, hload]
  rfl

theorem run_enterTenant_of_loaded {placement : Option (Uuid × UserRole)} {invite : Option PendingInvite} {user : User}
    {db₁ db₂ : PlacementDb} (hrehome : (c.run settings.texts (rehome sub placement target) db).2 = db₁)
    (hload : c.run settings.texts
      (loadUser settings sub hints none target ((invite.map PendingInvite.role).getD .admin)) db₁ = (some user, db₂)) :
    c.run settings.texts (enterTenant settings sub hints claims none placement invite target) db =
      c.run settings.texts (admitCaller sub hints claims none invite user) db₂ := by
  unfold enterTenant settleIn
  rw [Circumstances.run_bind, hrehome, Circumstances.run_bind, hload]

/-- The late gate, for a row that is not usable. -/
theorem gate_of_unusable (r : Read) (user : User) (hrefused : ¬Usable c.now db u) (hstatus : user.status = u.status)
    (htenant : user.tenantId = u.tenantId) : ∃ e, c.gate r db user = .error e := by
  cases hgate : c.gate r db user with
  | error e => exact ⟨e, rfl⟩
  | ok _ =>
      obtain ⟨hactive, -, hopen⟩ := (c.gate_eq_ok ..).mp hgate
      exact absurd ⟨hstatus.symm.trans hactive, htenant ▸ hopen⟩ hrefused

theorem run_admitCaller_of_refused {user user' : User} {db' : PlacementDb} {e : AppError}
    (hheal : healPlaceholder hints user = pure user)
    (hrefresh : c.run settings.texts (refreshDrifted hints user) db = (user', db'))
    (hgate : c.gate .lateGate db' user' = .error e) :
    c.run settings.texts (admitCaller sub hints claims none none user) db = ((none, some e), db') := by
  unfold admitCaller lateGate
  rw [hheal, Circumstances.run_bind, Circumstances.run_pure]
  dsimp only
  rw [Circumstances.run_bind, hrefresh]
  dsimp only
  rw [Circumstances.run_bind, if_neg (by simp), Circumstances.run_ensurePrincipalUsable, hgate]
  rfl

theorem withNames_of_drifted {now : ℕ} (hd : namesDrifted hints u = true) :
    withNames now (nameHint hints.givenName) (nameHint hints.familyName) u ≠ u := by
  intro h
  have hfirst : (nameHint hints.givenName).getD u.profile.firstName = u.profile.firstName :=
    congrArg (fun u : UserRow => u.profile.firstName) h
  have hlast : (nameHint hints.familyName).getD u.profile.lastName = u.profile.lastName :=
    congrArg (fun u : UserRow => u.profile.lastName) h
  unfold namesDrifted at hd
  cases hg : nameHint hints.givenName <;> cases hf : nameHint hints.familyName <;> simp_all

/-- A live row that is not usable is refused at the late gate, and is refreshed before that if its names have
drifted. -/
theorem refusedQuietly_admitCaller {user : User} (hu : db.liveUser sub = some u) (hrefused : ¬Usable c.now db u)
    (huser : user.toUserRow = u) :
    RefusedQuietly db (c.run settings.texts (admitCaller sub (.ofClaims claims) claims none none user) db) ↔
      namesDrifted (.ofClaims claims) u = false := by
  cases hd : namesDrifted (.ofClaims claims) u with
  | false =>
      obtain ⟨e, hgate⟩ := gate_of_unusable (c := c) .lateGate user hrefused
        (by rw [huser]) (by rw [huser])
      rw [run_admitCaller_of_refused rfl (by rw [refreshDrifted_of_kept hd huser]; rfl) hgate]
      exact iff_of_true (.refl _) rfl
  | true =>
      refine iff_of_false (fun hquiet => ?_) (by decide)
      obtain ⟨db', hrefresh, hlive, hrun⟩ := run_refreshDrifted_of_drifted (c := c) settings.texts hu hd
      have hsame : OnlyUsers true db db' := .updateUser hrefresh (fun _ => rfl) fun _ _ => rfl
      have hrefused' : ¬Usable c.now db' u := by
        unfold Usable
        rwa [ensureTenantActive_congr hsame.tenants]
      obtain ⟨e, hgate⟩ : ∃ e, c.gate .lateGate db' (if c.fails .refreshed then user
          else db'.load (withNames c.now (nameHint (Hints.ofClaims claims).givenName)
            (nameHint (Hints.ofClaims claims).familyName) u)) = .error e := by
        refine gate_of_unusable _ _ hrefused' ?_ ?_
        · split
          · rw [huser]
          · rfl
        · split
          · rw [huser]
          · rfl
      rw [run_admitCaller_of_refused rfl (hrun user huser) hgate] at hquiet
      unfold PlacementDb.liveUser at hu hlive
      rw [hquiet.users, hu] at hlive
      exact withNames_of_drifted hd (Option.some.inj hlive).symm

theorem namesDrifted_refresh (now : ℕ) (role : UserRole) :
    namesDrifted hints ((oidcUser settings sub hints target role).refresh now u) = false := by
  unfold namesDrifted OidcUser.refresh oidcUser
  cases nameHint hints.givenName <;> cases nameHint hints.familyName <;> simp

/-- No index refuses a refresh without a verified address. -/
theorem upsertUser_of_live (texts : Texts) {r : OidcUser} (hu : db.liveUser r.sub = some u)
    (htenant : r.tenantId = u.tenantId) (hverified : r.emailVerified = false) (now : ℕ) :
    ∃ db', db.upsertUser texts now r = .ok db' ∧ db'.liveUser r.sub = some (r.refresh now u) := by
  obtain ⟨hfind, hlive⟩ := Option.filter_eq_some_iff.mp hu
  have hmatch : (db.users.find r.sub).filter (fun v => v.tenantId = r.tenantId) = some u := by
    rw [hfind, Option.filter_some, if_pos (decide_eq_true htenant.symm)]
  have hkept : ∀ v : UserRow, (r.refresh now v).address = v.address := by
    intro v
    unfold OidcUser.refresh Identities.User.address
    rw [hverified]
    rfl
  obtain ⟨_, _, hupdate⟩ := PlacementDb.updateUser_of_keeps (f := r.refresh now) (k := fun _ => rfl) hmatch hkept
    fun _ => rfl
  have hupsert : db.upsertUser texts now r =
      db.updateUser r.sub (fun v => v.tenantId = r.tenantId) (r.refresh now) := by
    unfold PlacementDb.upsertUser
    rw [if_pos (Option.isSome_of_eq_some hfind)]
  have hafter := find_upsertUser hfind (hupsert.trans hupdate)
  rw [if_pos htenant.symm] at hafter
  exact ⟨_, hupsert.trans hupdate, Option.filter_eq_some_iff.mpr ⟨hafter, hlive⟩⟩

/-- A live row of the tenant that cannot be read is refreshed. -/
theorem run_loadUser_of_unread (claims : AtClaims) {r : OidcUser}
    (hr : r = oidcUser settings sub (.ofClaims claims) u.tenantId .admin)
    (hu : db.liveUser sub = some u) (hunread : c.fails .user = true) :
    ∃ db', db.upsertUser settings.texts c.now r = .ok db' ∧ db'.liveUser sub = some (r.refresh c.now u) ∧
      c.run settings.texts (loadUser settings sub (.ofClaims claims) none u.tenantId .admin) db =
        (if c.fails .upserted then none else some (db'.load (r.refresh c.now u)), db') := by
  subst hr
  obtain ⟨db', hupsert, hlive⟩ := upsertUser_of_live settings.texts
    (r := oidcUser settings sub (.ofClaims claims) u.tenantId .admin) hu rfl rfl c.now
  have hread : db'.getUserById u.tenantId sub = .ok (db'.load (OidcUser.refresh ..)) := getUserById_of_live hlive
  refine ⟨db', hupsert, hlive, ?_⟩
  unfold loadUser upsertUserFromOidc reread
  rw [Option.filter_none]
  dsimp only
  rw [Circumstances.run_bind, Circumstances.run_getUserById, Circumstances.reading, if_pos hunread]
  dsimp only
  rw [Circumstances.run_bind, Circumstances.run_bind, Circumstances.run_upsertUser, hupsert]
  dsimp only [PlacementDb.written, oidcUser]
  rw [Circumstances.run_getUserById, hread, Circumstances.reading]
  cases c.fails .upserted with
  | true => rfl
  | false => rfl

/-- A live row, in its own tenant. -/
theorem refusedQuietly_home {placement : Option (Uuid × UserRole)} (hu : db.liveUser sub = some u)
    (hrefused : ¬Usable c.now db u) (hrehome : (c.run settings.texts (rehome sub placement u.tenantId) db).2 = db) :
    RefusedQuietly db
      (c.run settings.texts (enterTenant settings sub (.ofClaims claims) claims none placement none u.tenantId) db) ↔
    Spared settings c sub db u (.ofClaims claims) u.tenantId := by
  obtain ⟨hfind, hlive⟩ := Option.filter_eq_some_iff.mp hu
  replace hlive := of_decide_eq_true hlive
  unfold Spared
  rw [if_pos rfl]
  cases hread : c.fails .user with
  | false =>
      have hload : c.run settings.texts (loadUser settings sub (.ofClaims claims) none u.tenantId .admin) db =
          (some (db.load u), db) := by
        unfold loadUser
        rw [Option.filter_none]
        dsimp only
        rw [Circumstances.run_bind, Circumstances.run_getUserById, getUserById_of_live hu, Circumstances.reading, hread]
        rfl
      rw [if_pos ⟨hlive, rfl⟩, run_enterTenant_of_loaded hrehome hload]
      exact refusedQuietly_admitCaller hu hrefused rfl
  | true =>
      obtain ⟨db', hupsert, hlive', hload⟩ := run_loadUser_of_unread claims rfl hu hread
      have hsame : OnlyUsers true db db' := .upsertUser hupsert
      have hrefused' : ¬Usable c.now db' u := by
        unfold Usable
        rwa [ensureTenantActive_congr hsame.tenants]
      have hrun : ∃ rejection, c.run settings.texts
          (enterTenant settings sub (.ofClaims claims) claims none placement none u.tenantId) db =
            ((none, rejection), db') := by
        cases hagain : c.fails .upserted with
        | true =>
            rw [hagain] at hload
            exact ⟨none, run_enterTenant_of_absent hrehome hload⟩
        | false =>
            rw [hagain] at hload
            obtain ⟨e, hgate⟩ := gate_of_unusable (c := c) .lateGate (db'.load (OidcUser.refresh ..))
              hrefused' rfl rfl
            refine ⟨some e, (run_enterTenant_of_loaded hrehome hload).trans ?_⟩
            refine run_admitCaller_of_refused rfl ?_ hgate
            rw [refreshDrifted_of_kept (namesDrifted_refresh ..) rfl]
            rfl
      obtain ⟨rejection, hrun⟩ := hrun
      rw [hrun, refusedQuietly_iff rfl hsame, if_neg (by simp)]
      have husers := written_upsertUser_users settings.texts c.now
        (r := oidcUser settings sub (.ofClaims claims) u.tenantId .admin) hfind
      rw [hupsert] at husers
      exact husers.trans (imp_iff_right rfl)

/-- A row that is not found in the tenant. -/
theorem refusedQuietly_hidden {placement : Option (Uuid × UserRole)} {invite : Option PendingInvite}
    (hu : db.users.find sub = some u) (hhidden : ¬(u.deletedAt = none ∧ u.tenantId = target))
    (hrehome : (c.run settings.texts (rehome sub placement target) db).2 = db) :
    RefusedQuietly db (c.run settings.texts (enterTenant settings sub hints claims none placement invite target) db) ↔
      (u.tenantId = target → (oidcUser settings sub hints target .admin).refresh c.now u = u ∨
        ¬db.Fits ((oidcUser settings sub hints target .admin).refresh c.now u)) := by
  rw [run_enterTenant_of_absent hrehome (run_loadUser_of_hidden hu hhidden),
    refusedQuietly_iff rfl (OnlyUsers.written fun _ h => .upsertUser h)]
  exact written_upsertUser_users settings.texts c.now hu

/-- A row that is moved into another tenant stays there. -/
theorem not_refusedQuietly_moved {db₁ : PlacementDb} {resolved : Option BunyipPrincipal} {hints : Hints}
    (hu : db.users.find sub = some u) (htenant : u.tenantId ≠ target)
    (hmoved : db.rehomeUser c.now sub u.tenantId target = .ok db₁) :
    ¬RefusedQuietly db (c.run settings.texts (settleIn settings sub hints claims resolved none target) db₁) := by
  intro hquiet
  have hmatch : (db.users.find sub).filter (fun v => v.tenantId = u.tenantId) = some u := by
    rw [hu, Option.filter_some, if_pos (decide_eq_true rfl)]
  obtain ⟨_, _, hdb₁⟩ := PlacementDb.putUsers_eq_ok.mp ((PlacementDb.updateUser_of_found hmatch).symm.trans hmoved)
  have hfind : db₁.users.find sub = some { u with tenantId := target, updatedAt := c.now } := by
    rw [hdb₁]
    dsimp only
    rw [Keyed.find_update, if_pos rfl, hu, Option.map_some]
  have hrest : OnlyUsers false _ _ :=
    (WritesOnlyUsers.settleIn settings sub hints claims resolved target).run c settings.texts db₁
  obtain ⟨v, hv, -, hkept⟩ := hrest.rows sub _ hfind
  rw [hquiet.users, hu] at hv
  cases hv
  exact htenant (hkept rfl)

/-- A live row, and another tenant. -/
theorem refusedQuietly_elsewhere (hu : db.liveUser sub = some u) (htenant : u.tenantId ≠ target) :
    RefusedQuietly db (c.run settings.texts
      (enterTenant settings sub hints claims none (c.placed sub db) none target) db) ↔
    Spared settings c sub db u hints target := by
  obtain ⟨hfind, hlive⟩ := Option.filter_eq_some_iff.mp hu
  have hhidden : ¬(u.deletedAt = none ∧ u.tenantId = target) := fun h => htenant h.2
  unfold Spared Circumstances.placed Circumstances.reading
  rw [if_neg htenant, hu]
  cases hread : c.fails .placement with
  | true =>
      refine iff_of_true ?_ fun _ h => absurd h (by decide)
      exact (refusedQuietly_hidden hfind hhidden rfl).mpr fun h => absurd h htenant
  | false =>
      have hrehome : c.run settings.texts (rehome sub (some (u.tenantId, u.role)) target) db =
          ((), (db.written (db.rehomeUser c.now sub u.tenantId target)).2) := by
        unfold rehome
        rw [Option.filter_some, if_pos (by simpa using htenant)]
        rfl
      show RefusedQuietly db (c.run settings.texts
        (enterTenant settings sub hints claims none (some (u.tenantId, u.role)) none target) db) ↔ _
      cases hmoved : db.rehomeUser c.now sub u.tenantId target with
      | ok db₁ =>
          refine iff_of_false ?_ fun h => ?_
          · unfold enterTenant
            rw [Circumstances.run_bind, hrehome, hmoved]
            exact not_refusedQuietly_moved hfind htenant hmoved
          · exact h (of_decide_eq_true hlive) rfl ((rehomeUser_accepted hfind).mp ⟨db₁, hmoved⟩)
      | error _ =>
          rw [hmoved] at hrehome
          refine iff_of_true ?_ fun _ _ hfits => ?_
          · exact (refusedQuietly_hidden hfind hhidden (congrArg Prod.snd hrehome)).mpr fun h => absurd h htenant
          · obtain ⟨db', haccepted⟩ := (rehomeUser_accepted hfind).mpr hfits
            cases hmoved.symm.trans haccepted

/-- The caller is placed: it is refused, and nothing is written, if and only if the row is spared. -/
theorem refusedQuietly_enterTenant {invite : Option PendingInvite} (hu : db.users.find sub = some u)
    (hrefused : ¬Usable c.now db u) (hlive : u.deletedAt = none → hints = .ofClaims claims ∧ invite = none) :
    RefusedQuietly db (c.run settings.texts
      (enterTenant settings sub hints claims none (c.placed sub db) invite target) db) ↔
    Spared settings c sub db u hints target := by
  by_cases hdead : u.deletedAt = none
  · obtain ⟨rfl, rfl⟩ := hlive hdead
    have hlive : db.liveUser sub = some u := Option.filter_eq_some_iff.mpr ⟨hu, decide_eq_true hdead⟩
    by_cases htenant : u.tenantId = target
    · subst htenant
      refine refusedQuietly_home hlive hrefused ?_
      unfold Circumstances.placed Circumstances.reading
      rw [hlive]
      cases c.fails .placement with
      | true => rfl
      | false =>
          show (c.run settings.texts (rehome sub (some (u.tenantId, u.role)) u.tenantId) db).2 = db
          unfold rehome
          rw [Option.filter_some, if_neg (by simp)]
          rfl
    · exact refusedQuietly_elsewhere hlive htenant
  · have habsent : db.liveUser sub = none := by
      unfold PlacementDb.liveUser
      rw [hu, Option.filter_some, if_neg (by simpa using hdead)]
    have hplaced : c.placed sub db = none := by
      unfold Circumstances.placed Circumstances.reading
      rw [habsent]
      cases c.fails .placement <;> rfl
    rw [hplaced, refusedQuietly_hidden hu (fun h => hdead h.1) rfl]
    unfold Spared
    by_cases htenant : u.tenantId = target
    · rw [if_pos htenant, if_neg fun h => hdead h.1, imp_iff_right htenant]
    · rw [if_neg htenant]
      exact iff_of_true (fun h => absurd h htenant) fun h => absurd h hdead

/-! ### Personal tenants -/

theorem run_ensurePersonalTenant_of_unread (settings : Settings) (sub : Uuid) (hunread : c.fails .personalTenant = true) :
    ∃ e, c.run settings.texts (ensurePersonalTenant sub) db = (.error e, db) := by
  unfold ensurePersonalTenant
  rw [Circumstances.run_bind, Circumstances.run_personalTenantForOwner, Circumstances.reading, if_pos hunread]
  exact ⟨_, rfl⟩

theorem run_ensurePersonalTenant_of_owned {own : Uuid} (hread : c.fails .personalTenant = false)
    (howned : db.personalTenantForOwner sub = some own) :
    c.run settings.texts (ensurePersonalTenant sub) db = (.ok own, db) := by
  unfold ensurePersonalTenant
  rw [Circumstances.run_bind, Circumstances.run_personalTenantForOwner, howned, Circumstances.reading, hread]
  rfl

section Provision

variable (hread : c.fails .personalTenant = false) (hnone : db.personalTenantForOwner sub = none)

include hread hnone

theorem run_ensurePersonalTenant_of_taken (htaken : PersonalTenantTaken settings c db) :
    ∃ e, c.run settings.texts (ensurePersonalTenant sub) db = (.error e, db) := by
  have hinsert : ∃ e, db.insertPersonalTenant settings.texts sub c.generated.tenantId = .error e := by
    unfold PlacementDb.insertPersonalTenant
    rw [hnone, if_neg (by simp)]
    split
    · exact ⟨_, rfl⟩
    · next hid => exact ⟨_, if_pos (htaken.resolve_left hid)⟩
  obtain ⟨e, hinsert⟩ := hinsert
  have hrun : c.run (α := AppResult (Option Uuid)) settings.texts (ask (.insertPersonalTenant sub)) db =
      (.error e, db) := by
    rw [Circumstances.run_ask]
    unfold PlacementDb.perform
    dsimp only
    rw [hinsert]
    rfl
  unfold ensurePersonalTenant
  rw [Circumstances.run_bind, Circumstances.run_personalTenantForOwner, hnone, Circumstances.reading, hread]
  dsimp only
  rw [if_neg (by decide)]
  dsimp only
  rw [Circumstances.run_bind, hrun]
  exact ⟨e, rfl⟩

/-- A personal tenant is inserted. -/
theorem provisioned (htaken : ¬PersonalTenantTaken settings c db) :
    (c.run settings.texts (ensurePersonalTenant sub) db).2.tenants ≠ db.tenants := by
  obtain ⟨hid, hslug⟩ := not_or.mp htaken
  rw [Option.not_isSome_iff_eq_none] at hid
  obtain ⟨db₁, hinsert, hfound⟩ : ∃ db₁, db.insertPersonalTenant settings.texts sub c.generated.tenantId =
      .ok (some c.generated.tenantId, db₁) ∧ (db₁.tenants.find c.generated.tenantId).isSome = true := by
    unfold PlacementDb.insertPersonalTenant
    rw [hnone, hid, if_neg (by simp), if_neg (by simp), if_neg hslug]
    refine ⟨_, rfl, ?_⟩
    dsimp only
    rw [Keyed.find_insert, if_pos rfl, hid]
    rfl
  have hrun : c.run (α := AppResult (Option Uuid)) settings.texts (ask (.insertPersonalTenant sub)) db =
      (.ok (some c.generated.tenantId), db₁) := by
    rw [Circumstances.run_ask]
    unfold PlacementDb.perform
    dsimp only
    rw [hinsert]
    rfl
  have hseeded : ((c.run (α := AppResult Unit) settings.texts
      (ask (.seedTenant c.generated.tenantId)) db₁).2.tenants.find c.generated.tenantId).isSome = true := by
    rw [Circumstances.run_ask]
    split
    · exact hfound
    · unfold PlacementDb.perform PlacementDb.linkOwnCompany
      dsimp only
      rw [Keyed.find_update, if_pos rfl, Option.isSome_map]
      exact hfound
  unfold ensurePersonalTenant
  rw [Circumstances.run_bind, Circumstances.run_personalTenantForOwner, hnone, Circumstances.reading, hread]
  dsimp only
  rw [if_neg (by decide)]
  dsimp only
  rw [Circumstances.run_bind, hrun]
  intro heq
  dsimp only at heq
  rw [Circumstances.run_bind] at heq
  replace heq : (c.run (α := AppResult Unit) settings.texts (ask (.seedTenant c.generated.tenantId)) db₁).2.tenants =
    db.tenants := heq
  rw [heq, hid] at hseeded
  cases hseeded

end Provision

/-! ### The whole request -/

/-- In a personal tenant that is there before, the row is spared or not; a tenant that is provisioned stays. -/
theorem refusedQuietly_personal {placement : Option (Uuid × UserRole)} {P : Uuid → Prop}
    (hquiet : ∀ {target}, RefusedQuietly db
      (c.run settings.texts (enterTenant settings sub hints claims none placement none target) db) ↔ P target) :
    RefusedQuietly db
      (c.run settings.texts (do
        match ← (do return (← ensurePersonalTenant sub).toOption) with
        | none => return (none, none)
        | some target => enterTenant settings sub hints claims none placement none target) db) ↔
    (c.fails .personalTenant = false →
      match db.personalTenantForOwner sub with
      | some own => P own
      | none => PersonalTenantTaken settings c db) := by
  rw [Circumstances.run_bind, Circumstances.run_bind, Circumstances.run_pure]
  dsimp only
  cases hread : c.fails .personalTenant with
  | true =>
      obtain ⟨e, hunread⟩ := run_ensurePersonalTenant_of_unread settings sub hread
      rw [hunread]
      exact iff_of_true (.refl none) fun h => absurd h (by decide)
  | false =>
      rw [imp_iff_right rfl]
      cases hown : db.personalTenantForOwner sub with
      | some own =>
          rw [run_ensurePersonalTenant_of_owned hread hown]
          exact hquiet
      | none =>
          by_cases htaken : PersonalTenantTaken settings c db
          · obtain ⟨e, hrun⟩ := run_ensurePersonalTenant_of_taken hread hown htaken
            rw [hrun]
            exact iff_of_true (.refl none) htaken
          · refine iff_of_false (fun h => ?_) htaken
            refine provisioned hread hown htaken (Eq.trans ?_ h.tenants)
            cases (c.run settings.texts (ensurePersonalTenant sub) db).1.toOption with
            | none => rfl
            | some target =>
                exact ((WritesOnlyUsers.enterTenant settings sub hints claims none placement target).run c
                  settings.texts _).tenants.symm

/-- Where the placement goes, the row is spared or not. -/
theorem refusedQuietly_placeBunyipCaller (hu : db.users.find sub = some u) (hrefused : ¬Usable c.now db u)
    (hlive : u.deletedAt = none → hints = .ofClaims claims) :
    RefusedQuietly db (c.run settings.texts (placeBunyipCaller settings sub hints claims none) db) ↔
      SparedWhenPlaced settings c sub claims db u hints := by
  unfold placeBunyipCaller SparedWhenPlaced
  rw [Circumstances.run_bind, run_currentPlacement]
  dsimp only
  rw [Circumstances.run_bind, run_consumableInvite]
  dsimp only
  have hquiet : ∀ {target : Uuid}, RefusedQuietly db (c.run settings.texts
      (enterTenant settings sub hints claims none (c.placed sub db) (c.invite settings db hints) target) db) ↔
        Spared settings c sub db u hints target :=
    fun {_} => refusedQuietly_enterTenant hu hrefused fun h => by
      rw [hlive h]
      exact ⟨rfl, rfl⟩
  show RefusedQuietly db (c.run settings.texts
    (if onboards settings hints claims (c.placed sub db) (c.invite settings db hints) = true then (do
      match ← targetTenant settings sub (c.placed sub db) (c.invite settings db hints) with
      | none => return (none, none)
      | some target =>
        enterTenant settings sub hints claims none (c.placed sub db) (c.invite settings db hints) target)
      else return (none, none)) db) ↔ _
  split
  · next honboards =>
      rw [imp_iff_right honboards]
      unfold targetTenant
      cases hinvite : c.invite settings db hints with
      | some invite =>
          rw [hinvite] at hquiet
          exact hquiet
      | none =>
          rw [hinvite] at hquiet
          cases hstay : (c.placed sub db).filter fun _ =>
              ¬isStuckInDefault settings (c.placed sub db) (none : Option PendingInvite).isSome with
          | some current => exact hquiet
          | none =>
              dsimp only
              split
              · exact refusedQuietly_personal hquiet
              · exact hquiet
  · next honboards => exact iff_of_true (.refl none) fun h => absurd h honboards

end Mokosh.Placement
