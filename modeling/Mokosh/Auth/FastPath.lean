import Mokosh.Auth.Alone

/-! # The fast path

A caller that `resolve_bunyip_caller` has found is placed without the userinfo, with the principal that was read.  If
the userinfo says what the row and the token say, the full path reads the same row again: the two agree where the
fast path reads it again too, and where the full path finds no invitation. -/

namespace Mokosh.Placement

open Grants (UserRole)
open Identities (isUnresolvedPlaceholderEmail nameHint)

variable {settings : Settings} {c : Circumstances} {sub : Uuid} {claims : AtClaims} {db : PlacementDb}
  {principal : BunyipPrincipal} {u : UserRow}

/-- With the row as it is read again. -/
theorem run_full {hints : Hints} (hreads : ∀ r, c.fails r = false) (hu : db.liveUser sub = some u)
    (hs : Settled settings c.now db u) (hinvite : c.invite settings db hints = none) :
    c.run settings.texts (placeBunyipCaller settings sub hints claims none) db =
      c.run settings.texts (admitCaller sub hints claims none none (db.load u)) db := by
  have hplacement : c.run settings.texts (currentPlacement sub none) db = (some (u.tenantId, u.role), db) := by
    rw [run_currentPlacement, hu, Circumstances.reading, hreads]
    rfl
  have hload : c.run settings.texts (loadUser settings sub hints none u.tenantId .admin) db =
      (some (db.load u), db) := by
    unfold loadUser
    rw [Option.filter_none]
    dsimp only
    rw [Circumstances.run_bind, Circumstances.run_getUserById, getUserById_of_live hu, Circumstances.reading, hreads]
    rfl
  rw [run_stay hplacement hinvite hs.placed]
  unfold settleIn
  rw [Option.map_none, Option.getD_none, Circumstances.run_bind, hload]

/-! ### Admission -/

/-- A row whose names have drifted is read again. -/
theorem run_refreshDrifted (settings : Settings) {hints : Hints} (hreads : ∀ r, c.fails r = false)
    (hu : db.liveUser sub = some u) (hd : namesDrifted hints u = true) :
    ∃ refreshed db', OnlyUsers true db db' ∧ refreshed.status = u.status ∧ refreshed.tenantId = u.tenantId ∧
      ∀ user : User, user.toUserRow = u →
        c.run settings.texts (refreshDrifted hints user) db = (refreshed, db') := by
  obtain ⟨db', hrefresh, -, hrun⟩ := run_refreshDrifted_of_drifted settings.texts hu hd
  refine ⟨db'.load (withNames c.now (nameHint hints.givenName) (nameHint hints.familyName) u), db',
    OnlyUsers.updateUser hrefresh (fun _ => rfl) fun _ _ => rfl, rfl, rfl, fun user huser => ?_⟩
  rw [hrun user huser, hreads]
  rfl

theorem invitations_acceptInvite_ne {invite : PendingInvite} {i : Invitation}
    (hi : db.invitations.find invite.id = some i) (hpending : i.status = .pending) (now : ℕ) :
    (db.acceptInvite now invite sub).invitations ≠ db.invitations := by
  intro heq
  have hfind := congrArg (Keyed.find · invite.id) heq
  unfold PlacementDb.acceptInvite at hfind
  rw [if_pos (by rw [hi, Option.any_some, hpending]; rfl)] at hfind
  dsimp only at hfind
  rw [Keyed.find_update, if_pos rfl, hi, Option.map_some, Option.some.injEq] at hfind
  have hstatus := congrArg Invitation.status hfind
  dsimp only at hstatus
  rw [hpending] at hstatus
  cases hstatus

/-- An invitation that a caller is let in with is not pending any more. -/
theorem accepted_of_admitCaller {hints : Hints} {resolved : Option BunyipPrincipal} {invite : PendingInvite}
    {user : User} {i : Invitation} (hi : db.invitations.find invite.id = some i) (hpending : i.status = .pending)
    (h : (c.run settings.texts (admitCaller sub hints claims resolved (some invite) user) db).1.1.isSome = true) :
    (c.run settings.texts (admitCaller sub hints claims resolved (some invite) user) db).2.invitations ≠
      db.invitations := by
  have hheal : OnlyUsers true _ _ := (WritesOnlyUsers.healPlaceholder hints user).run c settings.texts db
  unfold admitCaller at h ⊢
  rw [Circumstances.run_bind] at h ⊢
  generalize c.run settings.texts (healPlaceholder hints user) db = healed at h hheal ⊢
  obtain ⟨user₁, db₁⟩ := healed
  dsimp only at h hheal ⊢
  have hrefresh : OnlyUsers true _ _ := (WritesOnlyUsers.refreshDrifted hints user₁).run c settings.texts db₁
  rw [Circumstances.run_bind] at h ⊢
  generalize c.run settings.texts (refreshDrifted hints user₁) db₁ = refreshed at h hrefresh ⊢
  obtain ⟨user₂, db₂⟩ := refreshed
  dsimp only at h hrefresh ⊢
  have hgate : OnlyUsers true _ _ := (WritesOnlyUsers.lateGate resolved user₂).run c settings.texts db₂
  rw [Circumstances.run_bind] at h ⊢
  generalize c.run settings.texts (lateGate resolved user₂) db₂ = gated at h hgate ⊢
  obtain ⟨e | _, db₃⟩ := gated
  · cases h
  have hsame := hheal.trans (hrefresh.trans hgate)
  have hassume : OnlyUsers true _ _ := (WritesOnlyUsers.assumeRole user₂
    (effectiveRoleFromBunyip claims user₂.role)).run c settings.texts (db₃.acceptInvite c.now invite sub)
  dsimp only at hsame ⊢
  rw [← hsame.invitations] at hi ⊢
  have haccept : c.run settings.texts (acceptConsumed sub (some invite)) db₃ =
    ((), db₃.acceptInvite c.now invite sub) := rfl
  rw [Circumstances.run_bind, haccept, Circumstances.run_bind]
  exact fun heq => invitations_acceptInvite_ne hi hpending c.now (hassume.invitations.symm.trans heq)

theorem pending_of_newest {texts : Texts} {now : ℕ} {email : String} {invite : PendingInvite}
    (h : db.newestPendingFor texts now email = some invite) :
    ∃ i, db.invitations.find invite.id = some i ∧ i.status = .pending := by
  obtain ⟨i, hi, rfl⟩ := Option.map_eq_some_iff.mp h
  obtain ⟨hmem, hi⟩ := List.mem_filter.mp (List.argmax_mem hi)
  exact ⟨i, Keyed.find_eq_some_iff.mpr ⟨hmem, rfl⟩, (of_decide_eq_true hi).2.1⟩

theorem pending_of_invite {hints : Hints} {invite : PendingInvite} (h : c.invite settings db hints = some invite) :
    ∃ i, db.invitations.find invite.id = some i ∧ i.status = .pending := by
  obtain ⟨em, -, h⟩ := Option.bind_eq_some_iff.mp h
  unfold Circumstances.reading at h
  split at h
  · cases h
  · exact pending_of_newest h

theorem accepted_of_invited {hints : Hints} {invite : PendingInvite} {i : Invitation}
    (hinvite : c.invite settings db hints = some invite) (hi : db.invitations.find invite.id = some i)
    (hpending : i.status = .pending)
    (h : (c.run settings.texts (placeBunyipCaller settings sub hints claims none) db).1.1.isSome = true) :
    (c.run settings.texts (placeBunyipCaller settings sub hints claims none) db).2.invitations ≠ db.invitations := by
  unfold placeBunyipCaller at h ⊢
  rw [Circumstances.run_bind, run_currentPlacement] at h ⊢
  generalize Option.join _ = placement at h ⊢
  have honboards : onboards settings hints claims placement (some invite) = true := by
    simp [onboards]
  have htarget : targetTenant settings sub placement (some invite) = pure (some invite.tenantId) := rfl
  dsimp only at h ⊢
  rw [Circumstances.run_bind, run_consumableInvite, hinvite] at h ⊢
  dsimp only at h ⊢
  rw [if_pos honboards, htarget, Circumstances.run_bind, Circumstances.run_pure] at h ⊢
  dsimp only at h ⊢
  unfold enterTenant settleIn at h ⊢
  have hrehome : OnlyUsers true _ _ := (WritesOnlyUsers.rehome sub placement invite.tenantId).run c settings.texts db
  rw [Circumstances.run_bind] at h ⊢
  generalize (c.run settings.texts (rehome sub placement invite.tenantId) db).2 = db₁ at h hrehome ⊢
  have hload : OnlyUsers true _ _ := (WritesOnlyUsers.loadUser settings sub hints none invite.tenantId
    (((some invite).map PendingInvite.role).getD .admin)).run c settings.texts db₁
  rw [Circumstances.run_bind] at h ⊢
  generalize c.run settings.texts (loadUser settings sub hints none invite.tenantId _) db₁ = loaded at h hload ⊢
  obtain ⟨_ | user, db₂⟩ := loaded
  · cases h
  · have hsame := (hrehome.trans hload).invitations
    dsimp only at h hsame ⊢
    rw [← hsame] at hi ⊢
    exact accepted_of_admitCaller hi hpending h

/-! ### Agreement -/

/-- The userinfo of a person about whom Bunyip says what the row and the token say. -/
def Hints.ofRow (claims : AtClaims) (u : UserRow) : Hints :=
  { email := some u.email, emailVerified := u.profile.emailVerifiedAt.isSome, givenName := claims.givenName
    familyName := claims.familyName }

/-- The same authentication or rejection, and the same is left. -/
def Agree (x y : Outcome × PlacementDb) : Prop :=
  x.1 = y.1 ∧ x.2.users = y.2.users ∧ x.2.tenants = y.2.tenants ∧ x.2.invitations = y.2.invitations

theorem invite_ofRow (claims : AtClaims) (hreads : ∀ r, c.fails r = false) :
    c.invite settings db (.ofRow claims u) = none ↔ (settings.invitations = true → u.profile.emailVerifiedAt.isSome = true →
      db.newestPendingFor settings.texts c.now u.email = none) := by
  unfold Circumstances.invite Hints.verifiedEmail Hints.ofRow Circumstances.reading
  rw [hreads]
  cases settings.invitations <;> cases u.profile.emailVerifiedAt.isSome <;> simp [Except.toOption]

theorem run_lateGate_none {user : User} (hreads : ∀ r, c.fails r = false) (hstatus : user.status = .active)
    (htenant : db.ensureTenantActive c.now user.tenantId = .ok ()) :
    c.run settings.texts (lateGate none user) db = (.ok (), db) := by
  unfold lateGate
  rw [if_neg (by simp), Circumstances.run_ensurePrincipalUsable, (c.gate_eq_ok ..).mpr ⟨hstatus, hreads _, htenant⟩]

/-- What the fast path comes to. -/
theorem run_fast_path (hreads : ∀ r, c.fails r = false) (hu : db.liveUser sub = some u)
    (hs : Settled settings c.now db u) : ∃ fast db', OnlyUsers true db db' ∧
      (namesDrifted (.ofClaims claims) u = false → fast = (db.principal settings.texts c.now u).user ∧ db' = db) ∧
      (namesDrifted (.ofClaims claims) u = true → fast.status = u.status ∧ fast.tenantId = u.tenantId ∧
        ∀ user : User, user.toUserRow = u →
          c.run settings.texts (refreshDrifted (.ofClaims claims) user) db = (fast, db')) ∧
      c.run settings.texts (placeBunyipCaller settings sub (.ofClaims claims) claims
          (some (db.principal settings.texts c.now u))) db =
        c.run settings.texts (do
          return authenticated (← assumeRole fast (effectiveRoleFromBunyip claims fast.role))) db' := by
  rw [run_fast hs]
  cases hd : namesDrifted (.ofClaims claims) u with
  | true =>
      obtain ⟨fast, db', hsame, hstatus, htenant, hrefresh⟩ := run_refreshDrifted settings hreads hu hd
      refine ⟨fast, db', hsame, fun h => absurd h (by decide), fun _ => ⟨hstatus, htenant, hrefresh⟩, ?_⟩
      exact run_admitCaller rfl (hrefresh _ rfl) rfl
  | false =>
      refine ⟨(db.principal settings.texts c.now u).user, db, .refl db, fun _ => ⟨rfl, rfl⟩,
        fun h => absurd h (by decide), run_admitCaller rfl ?_ rfl⟩
      rw [refreshDrifted_of_kept hd rfl]
      rfl

/-- What the full path comes to without an invitation. -/
theorem run_full_path (hreads : ∀ r, c.fails r = false) (hu : db.liveUser sub = some u)
    (hs : Settled settings c.now db u) (hinvite : c.invite settings db (.ofRow claims u) = none) {user : User}
    {db' : PlacementDb} (hsame : OnlyUsers true db db') (hstatus : user.status = u.status)
    (htenant : user.tenantId = u.tenantId)
    (hrefresh : c.run settings.texts (refreshDrifted (.ofClaims claims) (db.load u)) db = (user, db')) :
    c.run settings.texts (placeBunyipCaller settings sub (.ofRow claims u) claims none) db =
      c.run settings.texts (do
        return authenticated (← assumeRole user (effectiveRoleFromBunyip claims user.role))) db' := by
  have hheal : healPlaceholder (.ofRow claims u) (db.load u) = pure (db.load u) := by
    unfold healPlaceholder
    rw [show isUnresolvedPlaceholderEmail (db.load u).email = false from hs.address]
    cases (Hints.ofRow claims u).verifiedEmail <;> rfl
  rw [run_full hreads hu hs hinvite]
  refine run_admitCaller hheal hrefresh (run_lateGate_none hreads (hstatus.trans hs.status) ?_)
  rw [htenant, ensureTenantActive_congr hsame.tenants, hs.tenant]

/-- The kind of the tenant is part of the authentication. -/
theorem run_authenticated (user : User) (role : UserRole) :
    ((c.run settings.texts (do return authenticated (← assumeRole user role)) db).1.1.map
      fun s => s.user.tenantKind) = some user.tenantKind := by
  rw [Circumstances.run_bind, run_assumeRole]
  rfl

theorem tenantKind_load (hactive : db.ensureTenantActive c.now u.tenantId = .ok ()) : (db.load u).tenantKind ≠ "" := by
  unfold PlacementDb.ensureTenantActive at hactive
  dsimp only at hactive
  split at hactive
  · cases hactive
  · next t ht =>
      rw [PlacementDb.load, ht]
      exact t.kind.text_ne_empty

/-- **The paths agree if and only if the names have drifted, so that both read the row again, and the full path
finds no invitation.** -/
theorem fast_path_agrees (hgrant : claims.mokoshGrantAccountId = none) (hreads : ∀ r, c.fails r = false)
    (hskip : (c.run settings.texts (resolveBunyipCaller settings sub claims) db).1 = .skip principal) :
    Agree
      (c.run settings.texts (placeBunyipCaller settings sub (.ofClaims claims) claims (some principal)) db)
      (c.run settings.texts (placeBunyipUserWithRejection settings sub claims
        (.ofRow claims principal.user.toUserRow)) db) ↔
    namesDrifted (.ofClaims claims) principal.user.toUserRow = true ∧
      (settings.invitations = true → principal.user.profile.emailVerifiedAt.isSome = true →
        db.newestPendingFor settings.texts c.now principal.user.email = none) := by
  obtain ⟨u, hu, rfl, hs⟩ := settled_of_skip hgrant hskip
  have hplace : placeBunyipUserWithRejection settings sub claims (.ofRow claims u) =
      placeBunyipCaller settings sub (.ofRow claims u) claims none := by
    unfold placeBunyipUserWithRejection
    rw [hgrant]
    rfl
  show Agree _ (c.run settings.texts (placeBunyipUserWithRejection settings sub claims (.ofRow claims u)) db) ↔
    namesDrifted (.ofClaims claims) u = true ∧ (settings.invitations = true →
      u.profile.emailVerifiedAt.isSome = true → db.newestPendingFor settings.texts c.now u.email = none)
  rw [hplace, ← invite_ofRow claims hreads]
  obtain ⟨fast, db', hsame, hkept, hdrifted, hfast⟩ := run_fast_path hreads hu hs
  rw [hfast]
  cases hinvite : c.invite settings db (.ofRow claims u) with
  | none =>
      cases hd : namesDrifted (.ofClaims claims) u with
      | true =>
          obtain ⟨hstatus, htenant, hrefresh⟩ := hdrifted hd
          rw [run_full_path hreads hu hs hinvite hsame hstatus htenant (hrefresh _ rfl)]
          exact ⟨fun _ => ⟨rfl, rfl⟩, fun _ => ⟨rfl, rfl, rfl, rfl⟩⟩
      | false =>
          obtain ⟨hrow, hdb⟩ := hkept hd
          have hrefresh : c.run settings.texts (refreshDrifted (.ofClaims claims) (db.load u)) db =
              (db.load u, db) := by
            rw [refreshDrifted_of_kept hd rfl]
            rfl
          rw [run_full_path hreads hu hs hinvite (.refl db) rfl rfl hrefresh, hrow, hdb]
          refine ⟨fun h => ?_, fun h => absurd h.1 (by decide)⟩
          have hkind := congrArg (fun o : Outcome => o.1.map fun s => s.user.tenantKind) h.1
          rw [run_authenticated, run_authenticated, Option.some.injEq] at hkind
          exact absurd hkind.symm (tenantKind_load hs.tenant)
  | some invite =>
      refine ⟨fun h => ?_, fun h => absurd h.2 (by simp)⟩
      obtain ⟨i, hi, hpending⟩ := pending_of_invite hinvite
      have hauthenticated : (c.run settings.texts (placeBunyipCaller settings sub (.ofRow claims u) claims none)
          db).1.1.isSome = true := by
        rw [← h.1, Circumstances.run_bind]
        rfl
      refine absurd ?_ (accepted_of_invited hinvite hi hpending hauthenticated)
      have hassume : OnlyUsers true _ _ := (WritesOnlyUsers.assumeRole fast
        (effectiveRoleFromBunyip claims fast.role)).run c settings.texts db'
      rw [← h.2.2.2, Circumstances.run_bind]
      exact hassume.invitations.trans hsame.invitations

/-- Ann has become Anna. -/
def annasClaims : AtClaims := { annsClaims with givenName := some "Anna" }

theorem fast_path_agrees_renamed : Agree
    (calm.run standardSettings.texts (placeBunyipCaller standardSettings 7 (.ofClaims annasClaims) annasClaims
      (some (deployment.principal asciiTexts 5 ann))) deployment)
    (calm.run standardSettings.texts (placeBunyipUserWithRejection standardSettings 7 annasClaims
      (.ofRow annasClaims ann)) deployment) :=
  (fast_path_agrees rfl (fun _ => rfl) (by decide +kernel)).mpr
    ⟨by decide +kernel, fun _ _ => by decide +kernel⟩

/-- Nothing has changed, and the fast path forgets the kind of the tenant. -/
theorem fast_path_forgets_kind :
    (calm.run standardSettings.texts (resolveBunyipCaller standardSettings 7 annsClaims) deployment).1 =
      .skip (deployment.principal asciiTexts 5 ann) ∧
    ¬Agree
      (calm.run standardSettings.texts (placeBunyipCaller standardSettings 7 (.ofClaims annsClaims) annsClaims
        (some (deployment.principal asciiTexts 5 ann))) deployment)
      (calm.run standardSettings.texts (placeBunyipUserWithRejection standardSettings 7 annsClaims
        (.ofRow annsClaims ann)) deployment) := by
  refine ⟨by decide +kernel, fun h => ?_⟩
  exact absurd h.1 (by decide +kernel)

end Mokosh.Placement
