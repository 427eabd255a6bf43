import Mokosh.Auth.Alone

/-! # Usable principals

Who is authenticated with a token of Bunyip.  An owner passes the gate before the placement or after it.  The holder
of a grant does not if `place_grantee_user` writes the row: it is active after that in any case, and nobody asks for
the tenant. -/

namespace Mokosh.Placement

open Grants (UserRole mapGrantRole)
open Identities (PlaceGranteeRequest isUnresolvedPlaceholderEmail nameHint)

variable {settings : Settings} {c : Circumstances} {sub : Uuid} {claims : AtClaims} {hints : Hints}
  {db db' : PlacementDb} {user : User} {texts : Texts}

/-- Whoever is authenticated is so in an active tenant, with a row that was active when the request began, if it was
there and was not tombstoned. -/
def UsableOnly (now : ℕ) (db : PlacementDb) (x : Outcome × PlacementDb) : Prop :=
  ∀ s, x.1.1 = some s → x.2.ensureTenantActive now s.tenantId = .ok () ∧
    ∀ u, db.liveUser s.user.id = some u → u.status = .active

theorem usableOnly_of_none {now : ℕ} {x : Outcome × PlacementDb} (h : x.1.1 = none) : UsableOnly now db x :=
  fun s hs => absurd (h.symm.trans hs) (by simp)

/-! ### Owners -/

/-- Each row keeps its status. -/
def StatusesKept (db db' : PlacementDb) : Prop :=
  ∀ id u, db.users.find id = some u → ∃ u', db'.users.find id = some u' ∧ u'.status = u.status

theorem StatusesKept.trans {db'' : PlacementDb} (h : StatusesKept db db') (h' : StatusesKept db' db'') :
    StatusesKept db db'' := by
  intro id u hu
  obtain ⟨u', hu', hstatus⟩ := h id u hu
  obtain ⟨u'', hu'', hstatus'⟩ := h' id u' hu'
  exact ⟨u'', hu'', hstatus'.trans hstatus⟩

theorem OnlyUsers.statuses {moving : Bool} (h : OnlyUsers moving db db') : StatusesKept db db' := by
  intro id u hu
  obtain ⟨u', hu', hstatus, -⟩ := h.rows id u hu
  exact ⟨u', hu', hstatus⟩

/-- What has been loaded has the status that is stored. -/
def Backed (db : PlacementDb) (user : User) : Prop := ∃ v, db.users.find user.id = some v ∧ v.status = user.status

theorem Backed.kept (hb : Backed db user) (h : StatusesKept db db') : Backed db' user := by
  obtain ⟨v, hv, hstatus⟩ := hb
  obtain ⟨v', hv', hstatus'⟩ := h _ v hv
  exact ⟨v', hv', hstatus'.trans hstatus⟩

theorem backed_of_getUserById {tenantId userId : Uuid} (h : db.getUserById tenantId userId = .ok user) :
    Backed db user := by
  obtain ⟨v, hv, -, -, rfl⟩ := getUserById_eq_ok.mp h
  refine ⟨v, ?_, rfl⟩
  show db.users.find v.id = some v
  rw [(Keyed.find_eq_some_iff.mp hv).2, hv]

theorem backed_reread {write : Prog (AppResult Unit)} {r : Read} {tenantId userId : Uuid}
    (h : (c.run texts (reread write r tenantId userId) db).1 = .ok user) :
    Backed (c.run texts (reread write r tenantId userId) db).2 user := by
  unfold reread at h ⊢
  rw [Circumstances.run_bind] at h ⊢
  generalize c.run texts write db = written at h ⊢
  obtain ⟨e | _, db'⟩ := written
  · cases h
  · dsimp only at h ⊢
    rw [Circumstances.run_getUserById] at h ⊢
    exact backed_of_getUserById (c.reading_eq_ok.mp h).2

/-- A write to the row, whether it succeeds or not. -/
theorem backed_getD {write : Prog (AppResult Unit)} (hw : WritesOnlyUsers true write) {r : Read}
    {tenantId userId : Uuid} (hb : Backed db user) :
    Backed (c.run texts (do return (← reread write r tenantId userId).toOption.getD user) db).2
      (c.run texts (do return (← reread write r tenantId userId).toOption.getD user) db).1 := by
  have hkept := ((hw.reread r tenantId userId).run c texts db).statuses
  have hread : ∀ user, (c.run texts (reread write r tenantId userId) db).1 = .ok user →
      Backed (c.run texts (reread write r tenantId userId) db).2 user := fun _ h => backed_reread h
  rw [Circumstances.run_bind, Circumstances.run_pure]
  generalize c.run texts (reread write r tenantId userId) db = reread at hkept hread ⊢
  obtain ⟨e | user', db'⟩ := reread
  · exact hb.kept hkept
  · exact hread user' rfl

theorem backed_healPlaceholder (c : Circumstances) (texts : Texts) (hints : Hints) (hb : Backed db user) :
    Backed (c.run texts (healPlaceholder hints user) db).2 (c.run texts (healPlaceholder hints user) db).1 := by
  unfold healPlaceholder
  split
  · exact backed_getD (.ask rfl) hb
  · exact hb

theorem backed_refreshDrifted (c : Circumstances) (texts : Texts) (hints : Hints) (hb : Backed db user) :
    Backed (c.run texts (refreshDrifted hints user) db).2 (c.run texts (refreshDrifted hints user) db).1 := by
  unfold refreshDrifted
  split
  · exact backed_getD (.ask rfl) hb
  · exact hb

theorem backed_loadUser {target : Uuid} {role : UserRole}
    (h : (c.run settings.texts (loadUser settings sub hints none target role) db).1 = some user) :
    Backed (c.run settings.texts (loadUser settings sub hints none target role) db).2 user := by
  unfold loadUser at h ⊢
  rw [Option.filter_none] at h ⊢
  dsimp only at h ⊢
  rw [Circumstances.run_bind, Circumstances.run_getUserById] at h ⊢
  dsimp only at h ⊢
  generalize hread : c.reading .user (db.getUserById target sub) = found at h ⊢
  obtain e | found := found
  · dsimp only at h ⊢
    rw [Circumstances.run_bind, Circumstances.run_pure] at h ⊢
    dsimp only at h ⊢
    refine backed_reread ?_
    revert h
    unfold upsertUserFromOidc
    cases (c.run settings.texts (reread _ _ _ _) db).1 with
    | error _ => exact fun h => absurd h (by simp [Except.toOption])
    | ok _ => exact fun h => congrArg Except.ok (Option.some.inj h)
  · cases h
    exact backed_of_getUserById (c.reading_eq_ok.mp hread).2

/-- What is left once the gate has let the caller in. -/
theorem usableOnly_authenticated {db₀ : PlacementDb} {role : UserRole} (hactive : user.status = .active)
    (hopen : db.ensureTenantActive c.now user.tenantId = .ok ()) (hkept : StatusesKept db₀ db) (hb : Backed db user) :
    UsableOnly c.now db₀ (c.run texts (do return authenticated (← assumeRole user role)) db) := by
  have hassume : OnlyUsers true _ _ := (WritesOnlyUsers.assumeRole user role).run c texts db
  rw [Circumstances.run_bind, run_assumeRole, Circumstances.run_pure]
  intro s hs
  cases hs
  refine ⟨(ensureTenantActive_congr hassume.tenants ..).trans hopen, fun u hu => ?_⟩
  obtain ⟨v, hv, hstored⟩ := hb
  obtain ⟨v', hv', hsame⟩ := hkept _ u (Option.filter_eq_some_iff.mp hu).1
  cases hv.symm.trans hv'
  rw [← hsame, hstored, hactive]

theorem run_acceptConsumed (c : Circumstances) (texts : Texts) (sub : Uuid) (db : PlacementDb)
    (invite : Option PendingInvite) : ∃ db',
    c.run texts (acceptConsumed sub invite) db = ((), db') ∧ db'.users = db.users ∧ db'.tenants = db.tenants := by
  cases invite with
  | none => exact ⟨db, rfl, rfl, rfl⟩
  | some invite =>
      refine ⟨db.acceptInvite c.now invite sub, rfl, ?_⟩
      unfold PlacementDb.acceptInvite
      split
      · exact ⟨rfl, rfl⟩
      · exact ⟨rfl, rfl⟩

theorem StatusesKept.of_users (h : db'.users = db.users) : StatusesKept db db' :=
  fun _ u hu => ⟨u, h ▸ hu, rfl⟩

/-- A caller that was not resolved passes the late gate. -/
theorem usableOnly_admitCaller {db₀ : PlacementDb} {invite : Option PendingInvite} (hkept : StatusesKept db₀ db)
    (hb : Backed db user) :
    UsableOnly c.now db₀ (c.run settings.texts (admitCaller sub hints claims none invite user) db) := by
  have hheal : OnlyUsers true _ _ := (WritesOnlyUsers.healPlaceholder hints user).run c settings.texts db
  have hb₁ := backed_healPlaceholder c settings.texts hints hb
  unfold admitCaller
  rw [Circumstances.run_bind]
  generalize c.run settings.texts (healPlaceholder hints user) db = healed at hheal hb₁ ⊢
  obtain ⟨user₁, db₁⟩ := healed
  dsimp only at hheal hb₁ ⊢
  have hrefresh : OnlyUsers true _ _ := (WritesOnlyUsers.refreshDrifted hints user₁).run c settings.texts db₁
  have hb₂ := backed_refreshDrifted c settings.texts hints hb₁
  rw [Circumstances.run_bind]
  generalize c.run settings.texts (refreshDrifted hints user₁) db₁ = refreshed at hrefresh hb₂ ⊢
  obtain ⟨user₂, db₂⟩ := refreshed
  dsimp only at hrefresh hb₂ ⊢
  have hgate : c.run settings.texts (lateGate none user₂) db₂ = (c.gate .lateGate db₂ user₂, db₂) :=
    c.run_ensurePrincipalUsable settings.texts db₂ .lateGate user₂
  rw [Circumstances.run_bind, hgate]
  dsimp only
  cases hpassed : c.gate .lateGate db₂ user₂ with
  | error e => exact usableOnly_of_none rfl
  | ok _ =>
      obtain ⟨hactive, -, hopen⟩ := (c.gate_eq_ok ..).mp hpassed
      obtain ⟨db₃, haccept, husers, htenants⟩ :=
        run_acceptConsumed c settings.texts sub db₂ invite
      have hsame := StatusesKept.of_users husers
      dsimp only
      rw [Circumstances.run_bind, haccept]
      refine usableOnly_authenticated hactive ((ensureTenantActive_congr htenants ..).trans hopen) ?_ (hb₂.kept hsame)
      exact hkept.trans (hheal.statuses.trans (hrefresh.statuses.trans hsame))

/-- Statements that write no row of `users`. -/
def Statement.keepsUsers : Statement → Bool
  | .rehomeUser _ _ _ | .upsertUser _ | .repairEmail _ _ _ | .refreshNames _ _ _ _ | .setUserRole _ _ _
  | .placeGrantee _ => false
  | _ => true

theorem users_exec {now : ℕ} {x : Answer} {s : Statement} (hs : s.keepsUsers = true) :
    (db.exec texts now x s).2.users = db.users := by
  unfold PlacementDb.exec
  split
  · rfl
  cases s with
  | rehomeUser | upsertUser | repairEmail | refreshNames | setUserRole | placeGrantee => cases hs
  | insertPersonalTenant ownerId =>
      unfold PlacementDb.perform PlacementDb.insertPersonalTenant
      dsimp only
      split_ifs <;> rfl
  | acceptInvite invite sub =>
      unfold PlacementDb.perform PlacementDb.acceptInvite
      dsimp only
      split <;> rfl
  | _ => rfl

theorem users_ensurePersonalTenant : (c.run texts (ensurePersonalTenant sub) db).2.users = db.users := by
  have hmeets : (ensurePersonalTenant sub).Meets (fun s => s.keepsUsers = true) (fun _ _ => True) fun _ => True := by
    unfold ensurePersonalTenant
    refine Dialogue.Meets.bind (Q := fun _ => True) ⟨rfl, fun _ _ => trivial⟩ fun owned _ => ?_
    obtain e | _ | id := owned
    · trivial
    · refine Dialogue.Meets.bind (Q := fun _ => True) ⟨rfl, fun _ _ => trivial⟩ fun inserted _ => ?_
      obtain e | _ | id := inserted
      · trivial
      · exact Dialogue.Meets.bind (Q := fun _ => True) ⟨rfl, fun _ _ => trivial⟩ fun _ _ => trivial
      · exact Dialogue.Meets.bind (Q := fun _ => True) ⟨rfl, fun _ _ => trivial⟩ fun _ _ => trivial
    · trivial
  exact (hmeets.eval (I := fun db' : PlacementDb => db'.users = db.users)
    (fun _ _ hs h => ⟨trivial, (users_exec hs).trans h⟩) rfl).2

theorem users_targetTenant (settings : Settings) (c : Circumstances) (sub : Uuid) (db : PlacementDb)
    (placement : Option (Uuid × UserRole)) (invite : Option PendingInvite) :
    (c.run settings.texts (targetTenant settings sub placement invite) db).2.users = db.users := by
  unfold targetTenant
  split
  · rfl
  · rfl
  · split
    · rw [Circumstances.run_bind]
      exact users_ensurePersonalTenant
    · rfl

/-- A caller that was not resolved. -/
theorem usableOnly_placeBunyipCaller :
    UsableOnly c.now db (c.run settings.texts (placeBunyipCaller settings sub hints claims none) db) := by
  unfold placeBunyipCaller
  rw [Circumstances.run_bind, run_currentPlacement]
  dsimp only
  generalize Option.join _ = placement
  rw [Circumstances.run_bind, run_consumableInvite]
  dsimp only
  split
  · have htarget := users_targetTenant settings c sub db placement (c.invite settings db hints)
    rw [Circumstances.run_bind]
    generalize c.run settings.texts (targetTenant ..) db = targeted at htarget ⊢
    obtain ⟨_ | target, db₁⟩ := targeted
    · exact usableOnly_of_none rfl
    · dsimp only at htarget ⊢
      unfold enterTenant settleIn
      have hrehome : OnlyUsers true _ _ := (WritesOnlyUsers.rehome sub placement target).run c settings.texts db₁
      rw [Circumstances.run_bind]
      generalize (c.run settings.texts (rehome sub placement target) db₁).2 = db₂ at hrehome ⊢
      have hload : OnlyUsers true _ _ := (WritesOnlyUsers.loadUser settings sub hints none target
        (((c.invite settings db hints).map PendingInvite.role).getD .admin)).run c settings.texts db₂
      have hb : ∀ user, (c.run settings.texts (loadUser settings sub hints none target
          (((c.invite settings db hints).map PendingInvite.role).getD .admin)) db₂).1 = some user → Backed _ user :=
        fun _ h => backed_loadUser h
      rw [Circumstances.run_bind]
      generalize c.run settings.texts (loadUser settings sub hints none target _) db₂ = loaded at hload hb ⊢
      obtain ⟨_ | user, db₃⟩ := loaded
      · exact usableOnly_of_none rfl
      · refine usableOnly_admitCaller ?_ (hb user rfl)
        exact (StatusesKept.of_users htarget).trans (hrehome.statuses.trans hload.statuses)
  · exact usableOnly_of_none rfl

/-- A caller that was resolved, and passed the gate then. -/
theorem usableOnly_fast {u : UserRow} (hu : db.liveUser sub = some u) (hs : Settled settings c.now db u) :
    UsableOnly c.now db (c.run settings.texts (placeBunyipCaller settings sub (.ofClaims claims) claims
      (some (db.principal settings.texts c.now u))) db) := by
  have hb : Backed db (db.principal settings.texts c.now u).user := by
    obtain ⟨hfind, -⟩ := Option.filter_eq_some_iff.mp hu
    refine ⟨u, ?_, rfl⟩
    show db.users.find u.id = some u
    rw [(Keyed.find_eq_some_iff.mp hfind).2, hfind]
  have hb₁ := backed_refreshDrifted c settings.texts (.ofClaims claims) hb
  have hrefresh : OnlyUsers true _ _ := (WritesOnlyUsers.refreshDrifted (.ofClaims claims)
    (db.principal settings.texts c.now u).user).run c settings.texts db
  rw [run_fast hs]
  obtain ⟨user₁, db₁, hrun, hstatus, htenant⟩ : ∃ user₁ db₁, c.run settings.texts
      (refreshDrifted (.ofClaims claims) (db.principal settings.texts c.now u).user) db = (user₁, db₁) ∧
        user₁.status = u.status ∧ user₁.tenantId = u.tenantId := by
    cases hd : namesDrifted (.ofClaims claims) u with
    | true =>
        obtain ⟨db', -, -, hrun⟩ := run_refreshDrifted_of_drifted (c := c) settings.texts hu hd
        refine ⟨_, _, hrun _ rfl, ?_⟩
        split
        · exact ⟨rfl, rfl⟩
        · exact ⟨rfl, rfl⟩
    | false =>
        rw [refreshDrifted_of_kept hd rfl]
        exact ⟨_, _, rfl, rfl, rfl⟩
  rw [hrun] at hb₁ hrefresh
  rw [run_admitCaller rfl hrun rfl]
  refine usableOnly_authenticated (hstatus.trans hs.status) ?_ hrefresh.statuses hb₁
  rw [htenant, ensureTenantActive_congr hrefresh.tenants, hs.tenant]

/-- **Only usable owners are authenticated.** -/
theorem usableOnly_owner (hgrant : claims.mokoshGrantAccountId = none) :
    UsableOnly c.now db (c.run settings.texts (ensureUserFromBunyip settings sub claims) db) := by
  have hdb := congrArg Prod.snd (run_resolveBunyipCaller settings c sub db hgrant)
  cases hdecision : (c.run settings.texts (resolveBunyipCaller settings sub claims) db).1 with
  | needed =>
      rw [run_request_of_needed (Prod.ext hdecision hdb)]
      unfold placeWithUserinfo placeBunyipUserWithRejection
      rw [Circumstances.run_bind, hgrant]
      exact usableOnly_placeBunyipCaller
  | readFailed =>
      rw [run_request_of_readFailed (Prod.ext hdecision hdb)]
      exact usableOnly_placeBunyipCaller
  | rejected e =>
      rw [run_request_of_rejected (Prod.ext hdecision hdb)]
      exact usableOnly_of_none rfl
  | skip principal =>
      obtain ⟨u, hu, rfl, hs⟩ := settled_of_skip hgrant hdecision
      rw [run_request_of_skip (Prod.ext hdecision hdb), hgrant]
      exact usableOnly_fast hu hs

/-! ### Grantees -/

/-- The tenant is active, and so is the placement there, unless it is tombstoned. -/
def PlaceUsable (now : ℕ) (db : PlacementDb) (sub target : Uuid) : Prop :=
  db.ensureTenantActive now target = .ok () ∧ ∀ v, db.livePlacement sub target = some v → v.status = .active

def granteeRequest (sub : Uuid) (hints : Hints) (target : Uuid) (role : UserRole) (email : String) :
    PlaceGranteeRequest :=
  { bunyipUserId := sub, tenantId := target, role := role, email := email, givenNameHint := hints.givenName
    familyNameHint := hints.familyName, emailVerified := hints.emailVerified }

/-- `place_grantee_user` writes the row, and finds it then. -/
structure Written (texts : Texts) (c : Circumstances) (sub : Uuid) (hints : Hints) (db : PlacementDb) (target : Uuid)
    (role : UserRole) (email : String) : Prop where
  verified : hints.verifiedEmail = some email
  blank : Text.trim email.toList ≠ []
  accepted : db.Accepts texts c.now (granteeRequest sub hints target role email) c.generated.userId
  found : c.fails .placedPrincipal = false

variable {target : Uuid} {role : UserRole} {email slug : String}

theorem liveUser_of_findPlacement {r : PlaceGranteeRequest} {now : ℕ} {freshId : Uuid}
    (h : db.Accepts texts now r freshId) :
    db.liveUser ((db.findPlacement r.bunyipUserId r.tenantId).elim freshId fun u => u.id) =
      db.livePlacement r.bunyipUserId r.tenantId := by
  unfold PlacementDb.Accepts at h
  unfold PlacementDb.liveUser PlacementDb.livePlacement
  cases hu : db.findPlacement r.bunyipUserId r.tenantId with
  | some u => rw [Option.elim_some, PlacementDb.find_of_findPlacement hu]
  | none =>
      rw [hu] at h
      rw [Option.elim_none, h.1]

/-- A placement that is written. -/
theorem run_placeGranteeUser (h : Written texts c sub hints db target role email) :
    ∃ user db', c.run texts (placeGranteeUser (granteeRequest sub hints target role email)) db = (.ok user, db') ∧
      db'.tenants = db.tenants ∧ user.tenantId = target ∧ db.liveUser user.id = db.livePlacement sub target := by
  obtain ⟨db', hwrite⟩ := PlacementDb.placeGrantee_accepted.mpr h.accepted
  obtain ⟨htenants, w, hw, -, htenant, hid⟩ := PlacementDb.livePlacement_placeGrantee hwrite
  refine ⟨(db'.principal texts c.now w).user, db', ?_, htenants, htenant, ?_⟩
  · unfold placeGranteeUser
    rw [Circumstances.run_bind, Circumstances.run_placeGrantee, hwrite]
    dsimp only [PlacementDb.written]
    rw [Circumstances.run_bind, Circumstances.run_findBunyipPrincipalInTenant, hw, Circumstances.reading, h.found]
    rfl
  · show db.liveUser w.id = _
    rw [hid, liveUser_of_findPlacement h.accepted]
    rfl

/-- A placement that is refused, or not found then. -/
theorem run_placeGranteeUser_of_unwritten (hverified : hints.verifiedEmail = some email)
    (hblank : Text.trim email.toList ≠ []) (h : ¬Written texts c sub hints db target role email) :
    ∃ e, (c.run texts (placeGranteeUser (granteeRequest sub hints target role email)) db).1 = .error e := by
  unfold placeGranteeUser
  rw [Circumstances.run_bind, Circumstances.run_placeGrantee]
  cases hwrite : db.placeGrantee texts c.now (granteeRequest sub hints target role email) c.generated.userId with
  | error e => exact ⟨e, rfl⟩
  | ok db' =>
      have hunread : c.fails .placedPrincipal = true := by
        by_contra hread
        exact h ⟨hverified, hblank, PlacementDb.placeGrantee_accepted.mp ⟨db', hwrite⟩, Bool.eq_false_iff.mpr hread⟩
      dsimp only [PlacementDb.written]
      rw [Circumstances.run_bind, Circumstances.run_findBunyipPrincipalInTenant, Circumstances.reading, if_pos hunread]
      exact ⟨_, rfl⟩

/-- A grantee without a row, or with one that could not be read. -/
theorem usableOnly_provisionGrantee :
    UsableOnly c.now db (c.run texts (provisionGrantee sub hints target role) db) ↔
      ∀ email, Written texts c sub hints db target role email → PlaceUsable c.now db sub target := by
  unfold provisionGrantee
  cases hverified : hints.verifiedEmail.filter fun em => Text.trim em.toList ≠ [] with
  | none =>
      refine iff_of_true (usableOnly_of_none rfl) fun email h => ?_
      rw [h.verified, Option.filter_some, if_pos (decide_eq_true h.blank)] at hverified
      cases hverified
  | some addr =>
      obtain ⟨hverified, hblank⟩ := Option.filter_eq_some_iff.mp hverified
      replace hblank := of_decide_eq_true hblank
      dsimp only
      rw [Circumstances.run_bind]
      by_cases h : Written texts c sub hints db target role addr
      · obtain ⟨user, db', hrun, htenants, htenant, hlive⟩ := run_placeGranteeUser h
        unfold granteeRequest at hrun
        rw [hrun]
        unfold PlaceUsable
        rw [← hlive, ← ensureTenantActive_congr htenants, ← htenant]
        refine ⟨fun husable _ _ => husable _ rfl, fun hplace s hs => ?_⟩
        cases hs
        exact hplace addr (htenant ▸ h)
      · obtain ⟨e, hrun⟩ := run_placeGranteeUser_of_unwritten hverified hblank h
        unfold granteeRequest at hrun
        rw [hrun]
        refine iff_of_true (usableOnly_of_none rfl) fun email h' => ?_
        cases hverified.symm.trans h'.verified
        exact absurd h' h

theorem run_ensureGrantStillActive {r : Read} (hclaimed : claims.mokoshGrantAccountId = some slug) :
    c.run texts (ensureGrantStillActiveIfClaimed r sub claims) db =
      ((c.grantActive r db (sub, slug)).bind fun active => if active then .ok () else .error notActive,
        c.afterGrant r db (sub, slug)) := by
  unfold ensureGrantStillActiveIfClaimed
  rw [hclaimed]
  dsimp only
  rw [Circumstances.run_bind, c.run_isGrantActive]
  rfl

/-- The cache is all that the check writes. -/
theorem afterGrant_eq (c : Circumstances) (r : Read) (db : PlacementDb) (key : Uuid × String) :
    ∃ cache, c.afterGrant r db key = { db with grantCache := cache } := by
  unfold Circumstances.afterGrant
  split
  · cases db.selectGrant key with
    | none => exact ⟨_, rfl⟩
    | some active => exact ⟨_, rfl⟩
  · exact ⟨_, rfl⟩

/-- A grant that is active stays so in the cache. -/
theorem cachedGrant_afterGrant {r : Read} {key : Uuid × String} (h : c.grantActive r db key = .ok true) :
    (c.afterGrant r db key).cachedGrant c.now key = some true := by
  unfold Circumstances.grantActive at h
  unfold Circumstances.afterGrant
  cases hcached : db.cachedGrant c.now key with
  | some active =>
      rw [hcached] at h
      cases h
      rw [if_neg (by simp), hcached]
  | none =>
      rw [hcached] at h
      unfold Circumstances.reading at h
      cases hread : c.fails r with
      | true =>
          rw [hread] at h
          cases h
      | false =>
          rw [hread] at h
          cases hselect : db.selectGrant key with
          | none =>
              rw [hselect] at h
              cases h
          | some active =>
              rw [hselect] at h
              cases h
              rw [if_pos ⟨rfl, rfl⟩]
              unfold PlacementDb.cachedGrant PlacementDb.cacheGrant
              simp [GrantEvents.grantCacheTtl]

theorem backed_of_livePlacement {now : ℕ} {v : UserRow} (h : db.livePlacement sub target = some v) :
    Backed db (db.principal texts now v).user :=
  ⟨v, PlacementDb.find_of_findPlacement (Option.filter_eq_some_iff.mp h).1, rfl⟩

/-- The holder of a grant that is in the cache. -/
theorem usableOnly_placeGranteeCaller (texts : Texts) (hints : Hints)
    (hclaimed : claims.mokoshGrantAccountId = some slug)
    (hcached : db.cachedGrant c.now (sub, slug) = some true) :
    UsableOnly c.now db (c.run texts (placeGranteeCaller sub hints claims) db) ↔
      ∀ target role email, c.fails .placeSlug = false → db.resolveTenantSlugOpt slug = some target →
        mapGrantRole (claims.mokoshGrantRole.getD "") = some role →
        c.fails .placePrincipal = true ∨ db.livePlacement sub target = none →
        Written texts c sub hints db target role email → PlaceUsable c.now db sub target := by
  have hcheck : c.run texts (ensureGrantStillActiveIfClaimed .placeGrant sub claims) db = (.ok (), db) := by
    rw [run_ensureGrantStillActive hclaimed]
    unfold Circumstances.grantActive Circumstances.afterGrant
    rw [hcached]
    rfl
  unfold placeGranteeCaller
  rw [Circumstances.run_bind, hcheck, hclaimed]
  dsimp only
  rw [Circumstances.run_bind, Circumstances.run_resolveTenantSlugOpt, Circumstances.reading]
  cases hread : c.fails .placeSlug with
  | true => exact iff_of_true (usableOnly_of_none rfl) fun _ _ _ h => absurd h (by decide)
  | false =>
      cases hslug : db.resolveTenantSlugOpt slug with
      | none => exact iff_of_true (usableOnly_of_none rfl) fun _ _ _ _ h => absurd h (by simp)
      | some target =>
          cases hrole : mapGrantRole (claims.mokoshGrantRole.getD "") with
          | none => exact iff_of_true (usableOnly_of_none rfl) fun _ _ _ _ _ h => absurd h (by simp)
          | some role =>
              dsimp only
              rw [if_neg (by decide)]
              dsimp only
              rw [Circumstances.run_bind, Circumstances.run_findBunyipPrincipalInTenant, Circumstances.reading]
              have hprovision : c.fails .placePrincipal = true ∨ db.livePlacement sub target = none →
                  (UsableOnly c.now db (c.run texts (provisionGrantee sub hints target role) db) ↔
                    ∀ target' role' email, false = false → some target = some target' → some role = some role' →
                      c.fails .placePrincipal = true ∨ db.livePlacement sub target' = none →
                      Written texts c sub hints db target' role' email → PlaceUsable c.now db sub target') := by
                intro hunplaced
                rw [usableOnly_provisionGrantee]
                constructor
                · rintro h _ _ email - ⟨⟩ ⟨⟩ - hwritten
                  exact h email hwritten
                · exact fun h email hwritten => h target role email rfl rfl rfl hunplaced hwritten
              cases hunread : c.fails .placePrincipal with
              | true =>
                  rw [hunread] at hprovision
                  exact hprovision (.inl rfl)
              | false =>
                  rw [hunread] at hprovision
                  cases hlive : db.livePlacement sub target with
                  | none => exact hprovision (.inr hlive)
                  | some v =>
                      refine iff_of_true ?_ ?_
                      · rw [if_neg (by decide), Option.map_some]
                        dsimp only
                        rw [Circumstances.run_bind, Circumstances.run_ensurePrincipalUsable]
                        dsimp only
                        cases hgate : c.gate .placeGate db (db.principal texts c.now v).user with
                        | error e => exact usableOnly_of_none rfl
                        | ok _ =>
                            obtain ⟨hactive, -, hopen⟩ := (c.gate_eq_ok ..).mp hgate
                            exact usableOnly_authenticated hactive hopen (.of_users rfl) (backed_of_livePlacement hlive)
                      · rintro _ _ email - ⟨⟩ ⟨⟩ hunplaced
                        exact absurd (hunplaced.resolve_left (by decide)) (by simp [hlive])

/-! ### The whole request -/

/-- The userinfo is asked for: something could not be read, or there is no live row, or its address is a placeholder. -/
def Unresolved (c : Circumstances) (sub : Uuid) (db : PlacementDb) (target : Uuid) : Prop :=
  c.fails .resolveSlug = true ∨ c.fails .resolvePrincipal = true ∨
    ∀ v, db.livePlacement sub target = some v →
      isUnresolvedPlaceholderEmail v.email = true ∧ c.fails .resolveGate = false ∧ Usable c.now db v

/-- The request places the holder of a grant with `place_grantee_user`. -/
structure Provisions (settings : Settings) (c : Circumstances) (sub : Uuid) (claims : AtClaims) (db : PlacementDb)
    (slug : String) (target : Uuid) (role : UserRole) (email : String) : Prop where
  claimed : claims.mokoshGrantAccountId = some slug
  granted : c.grantActive .resolveGrant db (sub, slug) = .ok true
  unresolved : Unresolved c sub db target
  read : c.fails .placeSlug = false
  named : db.resolveTenantSlugOpt slug = some target
  mapped : mapGrantRole (claims.mokoshGrantRole.getD "") = some role
  unplaced : c.fails .placePrincipal = true ∨ db.livePlacement sub target = none
  written : Written settings.texts c sub (.ofUserinfo claims c.userinfo) db target role email

theorem run_resolveGranteeCaller (texts : Texts) (hclaimed : claims.mokoshGrantAccountId = some slug)
    (hgranted : c.grantActive .resolveGrant db (sub, slug) = .ok true) :
    c.run texts (resolveGranteeCaller sub slug claims) db =
      (match c.reading .resolveSlug (.ok (db.resolveTenantSlugOpt slug)) with
      | .error _ => .needed
      | .ok none => .rejected notActive
      | .ok (some target) =>
        match c.reading .resolvePrincipal (.ok ((db.livePlacement sub target).map (db.principal texts c.now))) with
        | .error _ | .ok none => .needed
        | .ok (some principal) =>
          match c.gate .resolveGate db principal.user with
          | .error e => .rejected e
          | .ok () => if isUnresolvedPlaceholderEmail principal.user.email then .needed else .skip principal,
        c.afterGrant .resolveGrant db (sub, slug)) := by
  obtain ⟨cache, hcache⟩ := afterGrant_eq c .resolveGrant db (sub, slug)
  unfold resolveGranteeCaller
  rw [Circumstances.run_bind, run_ensureGrantStillActive hclaimed, hgranted, hcache]
  dsimp only [Except.bind]
  rw [if_pos rfl]
  dsimp only
  rw [Circumstances.run_bind, Circumstances.run_resolveTenantSlugOpt]
  have hslug : ({ db with grantCache := cache } : PlacementDb).resolveTenantSlugOpt slug =
    db.resolveTenantSlugOpt slug := rfl
  rw [hslug]
  dsimp only
  generalize c.reading .resolveSlug _ = resolved
  obtain e | _ | target := resolved
  · rfl
  · rfl
  · dsimp only
    have hfound : (({ db with grantCache := cache } : PlacementDb).livePlacement sub target).map
        (({ db with grantCache := cache } : PlacementDb).principal texts c.now) =
      (db.livePlacement sub target).map (db.principal texts c.now) := rfl
    rw [Circumstances.run_bind, Circumstances.run_findBunyipPrincipalInTenant, hfound]
    dsimp only
    generalize c.reading .resolvePrincipal _ = found
    obtain e | _ | principal := found
    · rfl
    · rfl
    · dsimp only
      have hgate : c.gate .resolveGate { db with grantCache := cache } principal.user =
        c.gate .resolveGate db principal.user := rfl
      rw [Circumstances.run_bind, Circumstances.run_ensurePrincipalUsable, hgate]
      dsimp only
      generalize c.gate .resolveGate db principal.user = passed
      obtain e | _ := passed
      · rfl
      · rfl

theorem run_resolveGranteeCaller_of_inactive (texts : Texts) (hclaimed : claims.mokoshGrantAccountId = some slug)
    (hgranted : c.grantActive .resolveGrant db (sub, slug) ≠ .ok true) :
    ∃ e, (c.run texts (resolveGranteeCaller sub slug claims) db).1 = .rejected e := by
  unfold resolveGranteeCaller
  rw [Circumstances.run_bind, run_ensureGrantStillActive hclaimed]
  cases hactive : c.grantActive .resolveGrant db (sub, slug) with
  | error e => exact ⟨e, rfl⟩
  | ok active =>
      cases active with
      | true => exact absurd hactive hgranted
      | false => exact ⟨notActive, rfl⟩

/-- The holder of an active grant is placed with the userinfo. -/
theorem usableOnly_needed (settings : Settings) {db₁ : PlacementDb} (hclaimed : claims.mokoshGrantAccountId = some slug)
    (hgranted : c.grantActive .resolveGrant db (sub, slug) = .ok true)
    (hdb₁ : c.afterGrant .resolveGrant db (sub, slug) = db₁)
    (hunresolved : ∀ target, db.resolveTenantSlugOpt slug = some target → Unresolved c sub db target) :
    UsableOnly c.now db (c.run settings.texts (placeWithUserinfo settings sub claims) db₁) ↔
      ∀ slug target role email, Provisions settings c sub claims db slug target role email →
        PlaceUsable c.now db sub target := by
  have hcached := cachedGrant_afterGrant hgranted
  obtain ⟨cache, hcache⟩ := afterGrant_eq c .resolveGrant db (sub, slug)
  rw [hcache] at hcached hdb₁
  subst hdb₁
  have hplace := usableOnly_placeGranteeCaller settings.texts (.ofUserinfo claims c.userinfo) hclaimed
    hcached
  unfold placeWithUserinfo placeBunyipUserWithRejection
  rw [Circumstances.run_bind, Circumstances.run_userinfo, if_pos (Option.isSome_of_eq_some hclaimed)]
  refine Iff.trans hplace ⟨fun h slug' target role email hp => ?_, fun h target role email hr hn hm hu hw => ?_⟩
  · cases hclaimed.symm.trans hp.claimed
    exact h target role email hp.read hp.named hp.mapped hp.unplaced
      ⟨hp.written.verified, hp.written.blank, hp.written.accepted, hp.written.found⟩
  · exact h slug target role email ⟨hclaimed, hgranted, hunresolved target hn, hr, hn, hm, hu,
      ⟨hw.verified, hw.blank, hw.accepted, hw.found⟩⟩

/-- The holder of an active grant is not placed without the userinfo. -/
theorem usableOnly_absent (hclaimed : claims.mokoshGrantAccountId = some slug)
    (hgranted : c.grantActive .resolveGrant db (sub, slug) = .ok true) :
    UsableOnly c.now db
      (c.run texts (placeGranteeCaller sub .absent claims) (c.afterGrant .resolveGrant db (sub, slug))) := by
  have hcached := cachedGrant_afterGrant hgranted
  obtain ⟨cache, hcache⟩ := afterGrant_eq c .resolveGrant db (sub, slug)
  rw [hcache] at hcached ⊢
  refine (usableOnly_placeGranteeCaller texts .absent hclaimed hcached).mpr fun _ _ _ _ _ _ _ h => ?_
  cases h.verified

theorem unresolved_iff_of_live {v : UserRow} (hslug : c.fails .resolveSlug = false)
    (hread : c.fails .resolvePrincipal = false) (hlive : db.livePlacement sub target = some v) :
    Unresolved c sub db target ↔
      isUnresolvedPlaceholderEmail v.email = true ∧ c.fails .resolveGate = false ∧ Usable c.now db v := by
  simp [Unresolved, hslug, hread, hlive]

/-- The holder of an active grant. -/
theorem usableOnly_granted (hclaimed : claims.mokoshGrantAccountId = some slug)
    (hgranted : c.grantActive .resolveGrant db (sub, slug) = .ok true) :
    UsableOnly c.now db (c.run settings.texts (ensureUserFromBunyip settings sub claims) db) ↔
      ∀ slug target role email, Provisions settings c sub claims db slug target role email →
        PlaceUsable c.now db sub target := by
  have hresolver : resolveBunyipCaller settings sub claims = resolveGranteeCaller sub slug claims := by
    unfold resolveBunyipCaller
    rw [hclaimed]
  have hresolve := run_resolveGranteeCaller settings.texts hclaimed hgranted
  rw [← hresolver] at hresolve
  have hneeded := usableOnly_needed settings hclaimed hgranted rfl
  -- A request that is refused or goes on without the userinfo provisions nothing.
  have hunprovisioned : (∀ target, db.resolveTenantSlugOpt slug = some target → ¬Unresolved c sub db target) →
      ∀ slug target role email, Provisions settings c sub claims db slug target role email →
        PlaceUsable c.now db sub target := by
    intro hresolved slug' target role email h
    cases hclaimed.symm.trans h.claimed
    exact absurd h.unresolved (hresolved target h.named)
  unfold Circumstances.reading at hresolve
  cases hslug : c.fails .resolveSlug with
  | true =>
      rw [hslug] at hresolve
      rw [run_request_of_needed hresolve]
      exact hneeded fun _ _ => .inl hslug
  | false =>
      rw [hslug, if_neg (by decide)] at hresolve
      cases hnamed : db.resolveTenantSlugOpt slug with
      | none =>
          rw [hnamed] at hresolve hunprovisioned
          rw [run_request_of_rejected hresolve]
          exact iff_of_true (usableOnly_of_none rfl) (hunprovisioned fun _ h => absurd h (by simp))
      | some target =>
          rw [hnamed] at hresolve hneeded hunprovisioned
          cases hread : c.fails .resolvePrincipal with
          | true =>
              rw [hread] at hresolve
              rw [run_request_of_needed hresolve]
              exact hneeded fun _ _ => .inr (.inl hread)
          | false =>
              dsimp only at hresolve
              rw [hread, if_neg (by decide)] at hresolve
              cases hlive : db.livePlacement sub target with
              | none =>
                  rw [hlive] at hresolve
                  rw [run_request_of_needed hresolve]
                  refine hneeded ?_
                  rintro _ ⟨⟩
                  exact .inr (.inr fun v hv => absurd (hlive.symm.trans hv) (by simp))
              | some v =>
                  have hunresolved := unresolved_iff_of_live hslug hread hlive
                  rw [hlive, Option.map_some] at hresolve
                  dsimp only at hresolve
                  cases hgate : c.gate .resolveGate db (db.principal settings.texts c.now v).user with
                  | error e =>
                      rw [hgate] at hresolve
                      rw [run_request_of_rejected hresolve]
                      refine iff_of_true (usableOnly_of_none rfl) (hunprovisioned ?_)
                      rintro _ ⟨⟩ h
                      obtain ⟨-, hopen, husable⟩ := hunresolved.mp h
                      cases hgate.symm.trans ((c.gate_eq_ok ..).mpr ⟨husable.1, hopen, husable.2⟩)
                  | ok _ =>
                      obtain ⟨hactive, hopen, htenant⟩ := (c.gate_eq_ok ..).mp hgate
                      have haddress : (db.principal settings.texts c.now v).user.email = v.email := rfl
                      rw [hgate, haddress] at hresolve
                      cases hplaceholder : isUnresolvedPlaceholderEmail v.email with
                      | true =>
                          rw [hplaceholder] at hresolve
                          rw [run_request_of_needed hresolve]
                          refine hneeded ?_
                          rintro _ ⟨⟩
                          exact hunresolved.mpr ⟨hplaceholder, hopen, hactive, htenant⟩
                      | false =>
                          rw [hplaceholder] at hresolve
                          rw [run_request_of_skip hresolve, if_pos (Option.isSome_of_eq_some hclaimed)]
                          refine iff_of_true (usableOnly_absent hclaimed hgranted) (hunprovisioned ?_)
                          rintro _ ⟨⟩ h
                          exact absurd (hplaceholder.symm.trans (hunresolved.mp h).1) (by decide)

/-- **Only usable principals are authenticated if and only if those that `place_grantee_user` places are usable.** -/
theorem usable_principals :
    UsableOnly c.now db (c.run settings.texts (ensureUserFromBunyip settings sub claims) db) ↔
      ∀ slug target role email, Provisions settings c sub claims db slug target role email →
        PlaceUsable c.now db sub target := by
  cases hclaimed : claims.mokoshGrantAccountId with
  | none =>
      refine iff_of_true (usableOnly_owner hclaimed) fun slug _ _ _ h => ?_
      cases hclaimed.symm.trans h.claimed
  | some slug =>
      by_cases hgranted : c.grantActive .resolveGrant db (sub, slug) = .ok true
      · exact usableOnly_granted hclaimed hgranted
      · have hresolver : resolveBunyipCaller settings sub claims = resolveGranteeCaller sub slug claims := by
          unfold resolveBunyipCaller
          rw [hclaimed]
        obtain ⟨e, hrejected⟩ := run_resolveGranteeCaller_of_inactive settings.texts hclaimed hgranted
        rw [← hresolver] at hrejected
        rw [run_request_of_rejected (Prod.ext hrejected rfl)]
        refine iff_of_true (usableOnly_of_none rfl) fun slug' _ _ _ h => ?_
        cases hclaimed.symm.trans h.claimed
        exact absurd h.granted hgranted

/-- Acme is shared with Bob. -/
def bobsGrant : Grants.BunyipGrant :=
  { bunyipGrantId := 31, ownerBunyipUserId := 7, granteeBunyipUserId := 9, mokoshAccountId := "acme"
    role := some .technician, grantedAt := 2, revokedAt := none, revokedBy := none, granteeEmail := none, eventAt := 2
    coupled := rfl }

def bobsClaims : AtClaims :=
  { sub := "00000000-0000-0000-0000-000000000009", bunyipRole := none, givenName := none, familyName := none
    mokoshGrantAccountId := some "acme", mokoshGrantRole := some "technician" }

def bobsUserinfo : Userinfo :=
  { sub := bobsClaims.sub, email := some "bob@beta.test", emailVerified := some true, givenName := some "Bob"
    familyName := some "Ray" }

/-- Bob is placed at Acme, and authenticated, though it is suspended. -/
theorem grantee_of_suspended_tenant :
    let db : PlacementDb := { suspendedDeployment with grants := { rows := [bobsGrant], nodup := by decide } }
    let c : Circumstances := { calm with userinfo := some bobsUserinfo }
    let x := c.run standardSettings.texts (ensureUserFromBunyip standardSettings 9 bobsClaims) db
    (x.1.1.map fun s => s.tenantId) = some 2 ∧ ¬UsableOnly 5 db x := by
  intro db c x
  have htenant : (x.1.1.map fun s => s.tenantId) = some 2 := by decide +kernel
  have hsuspended : x.2.ensureTenantActive 5 2 ≠ .ok () := by decide +kernel
  refine ⟨htenant, fun h => ?_⟩
  obtain ⟨s, hs, hid⟩ := Option.map_eq_some_iff.mp htenant
  exact hsuspended (hid ▸ (h s hs).1)

end Mokosh.Placement
