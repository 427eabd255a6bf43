import Mathlib.Logic.Function.Basic
import Mokosh.Lib.Requests
import Mokosh.Lib.Table
import Mokosh.Auth.Grants

/-! # Accepting a grant invitation

`auth/grant_invitations.rs`: the invitations of all accounts, the grants that Bunyip has registered, and the
mirror.  Any number of calls are in flight, one statement or remote call of one of them at a time.

* `accept_resolved` registers the grant at Bunyip, then marks the invitation accepted if it is still pending,
  and writes the mirror.  If it is not pending any more it takes the registration back, unless the invitation
  was accepted by then.
* `cancel`, `decline` and `expire_stale` end a pending invitation; `cancel` takes a registration back.

**`both_sides_agree`**: when no call is in flight, what Bunyip has registered, the invitation and the mirror
agree on whether there is a grant and whose it is, as long as (`InOrder`)

* the inviter does not register a grant to itself (the table refuses it as the invitee, after the
  registration), and nobody registers one for an invitation that somebody else has accepted;
* an invitation is accepted by the caller that was registered last;
* what the mirror has of a revoked grant is older than the acceptance that replaces it;
* every call runs to its end.

`both_sides_differ` has two callers with the token of one invitation that names an address only, and an inviter
that accepts its own. -/

namespace Mokosh.GrantInvitations

open Requests (Handlers World Event Keeps Rule)
open Grants (GrantRole BunyipGrant Mirror)

/-! ### Invitations -/

inductive InvitationStatus where
  | pending | accepted | declined | canceled | expired
deriving DecidableEq

/-- A row of `mokosh_grant_invitations`. -/
structure GrantInvitation where
  id : Uuid
  tenantId : Uuid
  inviterBunyipUserId : Uuid
  inviteeBunyipUserId : Option Uuid
  inviteeEmail : String
  role : GrantRole
  status : InvitationStatus
  expiresAt : ℕ
  acceptedAt : Option ℕ
  declinedAt : Option ℕ
  canceledAt : Option ℕ
deriving DecidableEq

inductive AcceptRefusal where
  | notFound | expired | canceled | alreadyAccepted | declined | wrongCaller
deriving DecidableEq

namespace GrantInvitation

variable (inv : GrantInvitation)

/-- It can be accepted or declined. -/
def isOpen (now : ℕ) : Bool := inv.status = .pending ∧ now < inv.expiresAt

def accept (now : ℕ) (caller : Uuid) : GrantInvitation :=
  { inv with status := .accepted, acceptedAt := some now, inviteeBunyipUserId := some caller }

def decline (now : ℕ) (caller : Uuid) : GrantInvitation :=
  { inv with status := .declined, declinedAt := some now, inviteeBunyipUserId := some caller }

def cancel (now : ℕ) : GrantInvitation := { inv with status := .canceled, canceledAt := some now }

def expire (now : ℕ) : GrantInvitation :=
  if inv.status = .pending ∧ inv.expiresAt ≤ now then { inv with status := .expired } else inv

theorem accept_id (now : ℕ) (caller : Uuid) : (inv.accept now caller).id = inv.id := rfl

theorem decline_id (now : ℕ) (caller : Uuid) : (inv.decline now caller).id = inv.id := rfl

theorem cancel_id (now : ℕ) : (inv.cancel now).id = inv.id := rfl

theorem expire_id (now : ℕ) : (inv.expire now).id = inv.id := by
  unfold expire
  split <;> rfl

/-- The checks that `accept_resolved` and `decline_resolved` make first. -/
def refusal (now : ℕ) (caller : Uuid) : Option AcceptRefusal :=
  match inv.status with
  | .canceled => some .canceled
  | .accepted => some .alreadyAccepted
  | .declined => some .declined
  | .expired => some .expired
  | .pending =>
    if inv.expiresAt ≤ now then some .expired
    else if inv.inviteeBunyipUserId.any (· ≠ caller) then some .wrongCaller
    else none

/-- What an `accept` answers that has come too late. -/
def lateRefusal : AcceptRefusal :=
  match inv.status with
  | .canceled => .canceled
  | .accepted => .alreadyAccepted
  | .declined => .declined
  | .pending | .expired => .expired

end GrantInvitation

/-- A row of Bunyip's `mokosh_account_grants`. -/
structure RemoteGrant where
  owner : Uuid
  grantee : Uuid
  mokoshAccountId : String
  role : GrantRole
  active : Bool
deriving DecidableEq

abbrev Outcome := AppResult (Except AcceptRefusal GrantInvitation)

/-- What the calls read of other tables: the slugs of the tenants, and the address of a Bunyip user. -/
structure Directory where
  slug : Uuid → Option String
  email : Uuid → Option String
  lower : String → String

/-- What is stored here and at Bunyip, and what the calls have answered. -/
structure GrantsDb where
  invitations : Table GrantInvitation.id
  remote : Uuid → Option RemoteGrant
  mirror : Mirror
  outcomes : List Outcome

namespace GrantsDb

variable (db : GrantsDb)

def answer (o : Outcome) : GrantsDb := { db with outcomes := o :: db.outcomes }

/-- `register_grant`. -/
def registerGrant (inv : GrantInvitation) (caller : Uuid) (slug : String) : GrantsDb :=
  { db with
    remote := Function.update db.remote inv.id (some
      { owner := inv.inviterBunyipUserId, grantee := caller, mokoshAccountId := slug, role := inv.role,
        active := true }) }

/-- `unregister_grant`: nothing registered is as good as revoked. -/
def unregisterGrant (id : Uuid) : GrantsDb :=
  { db with remote := Function.update db.remote id ((db.remote id).map fun g => { g with active := false }) }

def setInvitations (invitations : Table GrantInvitation.id) : GrantsDb := { db with invitations := invitations }

def accept (now : ℕ) (id caller : Uuid) : GrantsDb :=
  db.setInvitations (db.invitations.update id (·.accept now caller) fun inv => inv.accept_id now caller)

def decline (now : ℕ) (id caller : Uuid) : GrantsDb :=
  db.setInvitations (db.invitations.update id (·.decline now caller) fun inv => inv.decline_id now caller)

def cancel (now : ℕ) (id : Uuid) : GrantsDb :=
  db.setInvitations (db.invitations.update id (·.cancel now) fun inv => inv.cancel_id now)

def expire (now : ℕ) : GrantsDb :=
  db.setInvitations (db.invitations.map (·.expire now) fun inv => inv.expire_id now)

/-- The row that an accepted invitation writes to the mirror. -/
def mirrorRow (inv : GrantInvitation) (caller : Uuid) (slug : String) (acceptedAt : ℕ) : BunyipGrant :=
  { bunyipGrantId := inv.id, ownerBunyipUserId := inv.inviterBunyipUserId, granteeBunyipUserId := caller,
    mokoshAccountId := slug, role := some inv.role, grantedAt := acceptedAt, revokedAt := none,
    revokedBy := none, granteeEmail := some inv.inviteeEmail, eventAt := acceptedAt, coupled := rfl }

def writeMirror (g : BunyipGrant) : GrantsDb := { db with mirror := (db.mirror.upsertWithEmail g).1 }

end GrantsDb

/-! ### Calls -/

inductive Reply where
  | accept | decline
deriving DecidableEq

inductive Operation where
  /-- `accept` or `decline` by a caller that has the token. -/
  | byToken (reply : Reply) (id caller : Uuid)
  | byId (reply : Reply) (id caller : Uuid)
  | cancel (id tenantId : Uuid)
  | expireStale
deriving DecidableEq

inductive Point where
  | finding (reply : Reply) (byId : Bool) (id caller : Uuid)
  | resolving (inv : GrantInvitation) (caller : Uuid)
  | registering (inv : GrantInvitation) (caller : Uuid) (slug : String)
  | accepting (inv : GrantInvitation) (caller : Uuid) (slug : String)
  | late (id : Uuid)
  | unregistering (id : Uuid)
  | mirroring (inv : GrantInvitation) (caller : Uuid) (slug : String) (acceptedAt : ℕ)
  | declining (inv : GrantInvitation) (caller : Uuid)
  | canceling (id tenantId : Uuid)
  | expiring
deriving DecidableEq

def start : Operation → Point
  | .byToken reply id caller => .finding reply false id caller
  | .byId reply id caller => .finding reply true id caller
  | .cancel id tenantId => .canceling id tenantId
  | .expireStale => .expiring

section Advance

variable (dir : Directory)

/-- `find_by_id_for_grantee`: the invitation names the caller, or the caller's address. -/
def addressed (inv : GrantInvitation) (caller : Uuid) : Bool :=
  inv.inviteeBunyipUserId = some caller ∨
    inv.inviteeBunyipUserId = none ∧ (dir.email caller).map dir.lower = some (dir.lower inv.inviteeEmail)

/-- `find_by_token`, `find_by_id_for_grantee`. -/
def findInvitation (db : GrantsDb) (byId : Bool) (id caller : Uuid) : Option GrantInvitation :=
  (db.invitations.find id).filter fun inv => byId → addressed dir inv caller

/-- The check of the table that an owner does not invite itself. -/
def ownerIsNotInvitee : AppError := .database "mokosh_grant_invitations_check"

/-- The next statement of a call, or its next call of Bunyip. -/
def advance (now : ℕ) (_ : Unit) (db : GrantsDb) : Point → Option (GrantsDb × Option Point)
  | .finding reply byId id caller =>
    match findInvitation dir db byId id caller with
    | none => some (db.answer (.ok (.error .notFound)), none)
    | some inv =>
      match inv.refusal now caller with
      | some refusal => some (db.answer (.ok (.error refusal)), none)
      | none =>
        match reply with
        | .accept => some (db, some (.resolving inv caller))
        | .decline => some (db, some (.declining inv caller))
  | .resolving inv caller =>
    match dir.slug inv.tenantId with
    | none => some (db.answer (.error (.internal "Owner tenant vanished during accept")), none)
    | some slug => some (db, some (.registering inv caller slug))
  | .registering inv caller slug => some (db.registerGrant inv caller slug, some (.accepting inv caller slug))
  | .accepting inv caller slug =>
    if (db.invitations.find inv.id).any (·.isOpen now) then
      if caller = inv.inviterBunyipUserId then some (db.answer (.error ownerIsNotInvitee), none)
      else some (db.accept now inv.id caller, some (.mirroring inv caller slug now))
    else some (db, some (.late inv.id))
  | .late id =>
    match db.invitations.find id with
    | none => some (db.answer (.error (.internal "Invitation vanished during accept")), none)
    | some inv =>
      some (db.answer (.ok (.error inv.lateRefusal)),
        if inv.status = .accepted then none else some (.unregistering id))
  | .unregistering id => some (db.unregisterGrant id, none)
  | .mirroring inv caller slug acceptedAt =>
    some ((db.writeMirror (GrantsDb.mirrorRow inv caller slug acceptedAt)).answer
      (.ok (.ok (inv.accept acceptedAt caller))), none)
  | .declining inv caller =>
    if (db.invitations.find inv.id).any (·.isOpen now) then
      if caller = inv.inviterBunyipUserId then some (db.answer (.error ownerIsNotInvitee), none)
      else some ((db.decline now inv.id caller).answer (.ok (.ok (inv.decline now caller))), none)
    else some (db.answer (.ok (.error .expired)), none)
  | .canceling id tenantId =>
    if (db.invitations.find id).any (fun inv => inv.tenantId = tenantId ∧ inv.status = .pending) then
      some (db.cancel now id, some (.unregistering id))
    else some (db, none)
  | .expiring => some (db.expire now, none)

def handlers : Handlers Operation Unit GrantsDb Point Empty := .lockless start (advance dir)

abbrev step := Requests.step (handlers dir)

end Advance

/-! ### The condition -/

def InOrderAt (now : ℕ) (db : GrantsDb) : Point → Prop
  | .registering inv caller _ => caller ≠ inv.inviterBunyipUserId ∧
      ∀ row ∈ db.invitations.find inv.id, row.status = .accepted → row.inviteeBunyipUserId = some caller
  | .accepting inv caller _ => ∀ row ∈ db.invitations.find inv.id, row.isOpen now = true →
      (db.remote inv.id).any (·.grantee = caller) = true
  | .mirroring _ caller slug acceptedAt =>
      ∀ g ∈ db.mirror.find (caller, slug), g.active = false → g.eventAt < acceptedAt
  | _ => True

instance (now : ℕ) (db : GrantsDb) : ∀ p, Decidable (InOrderAt now db p)
  | .registering inv caller _ => inferInstanceAs (Decidable (caller ≠ inv.inviterBunyipUserId ∧
      ∀ row ∈ db.invitations.find inv.id, row.status = .accepted → row.inviteeBunyipUserId = some caller))
  | .accepting inv caller _ => inferInstanceAs (Decidable (∀ row ∈ db.invitations.find inv.id,
      row.isOpen now = true → (db.remote inv.id).any (·.grantee = caller) = true))
  | .mirroring _ caller slug acceptedAt => inferInstanceAs (Decidable (∀ g ∈ db.mirror.find (caller, slug),
      g.active = false → g.eventAt < acceptedAt))
  | .finding _ _ _ _ | .resolving _ _ | .late _ | .unregistering _ | .declining _ _
  | .canceling _ _ | .expiring => isTrue trivial

/-- One caller at a time claims an invitation, and calls run to their ends. -/
def InOrder (w : World GrantsDb Point) : Event Operation Unit → Prop
  | .step i _ => ∀ p ∈ w.requests[i]?, InOrderAt w.now w.store p
  | .crash _ => False
  | .wait _ | .arrive _ => True

instance (w : World GrantsDb Point) : ∀ e, Decidable (InOrder w e)
  | .step i _ => inferInstanceAs (Decidable (∀ p ∈ w.requests[i]?, InOrderAt w.now w.store p))
  | .crash _ => isFalse id
  | .wait _ | .arrive _ => isTrue trivial

/-! ### Agreement -/

/-- Bunyip, the invitation and the mirror agree. -/
structure Agreed (dir : Directory) (db : GrantsDb) (inv : GrantInvitation) : Prop where
  active : (db.remote inv.id).any (·.active) = true ↔ inv.status = .accepted
  grantee : inv.status = .accepted → ∃ caller ∈ inv.inviteeBunyipUserId,
    (db.remote inv.id).any (·.grantee = caller) = true ∧
      ∃ slug ∈ dir.slug inv.tenantId, (db.mirror.find (caller, slug)).any (·.active) = true
  only : ∀ g ∈ db.mirror.rows, g.bunyipGrantId = inv.id → g.active = true →
    inv.status = .accepted ∧ inv.inviteeBunyipUserId = some g.granteeBunyipUserId

instance (dir : Directory) (db : GrantsDb) (inv : GrantInvitation) : Decidable (Agreed dir db inv) :=
  decidable_of_iff (((db.remote inv.id).any (·.active) = true ↔ inv.status = .accepted) ∧
    (inv.status = .accepted → ∃ caller ∈ inv.inviteeBunyipUserId,
      (db.remote inv.id).any (·.grantee = caller) = true ∧
        ∃ slug ∈ dir.slug inv.tenantId, (db.mirror.find (caller, slug)).any (·.active) = true) ∧
    ∀ g ∈ db.mirror.rows, g.bunyipGrantId = inv.id → g.active = true →
      inv.status = .accepted ∧ inv.inviteeBunyipUserId = some g.granteeBunyipUserId)
    ⟨fun h => ⟨h.1, h.2.1, h.2.2⟩, fun h => ⟨h.active, h.grantee, h.only⟩⟩

/-! ### What a call leaves of an invitation -/

/-- What a statement at `p` makes of an invitation: its account and its inviter stay, an accepted one stays as it
is, one that is closed is not opened again, and a new acceptance is that of `p`. -/
structure Later (now : ℕ) (p : Point) (row row' : GrantInvitation) : Prop where
  tenantId : row'.tenantId = row.tenantId
  inviter : row'.inviterBunyipUserId = row.inviterBunyipUserId
  settled : row.status = .accepted → row' = row
  closed : row.isOpen now = false → row'.isOpen now = false ∧ (row'.status = .accepted → row.status = .accepted)
  accepted : row'.status = .accepted → row' = row ∨ ∃ inv caller slug, p = .accepting inv caller slug ∧
    inv.id = row.id ∧ row.isOpen now = true ∧ row' = row.accept now caller

variable {dir : Directory} {now : ℕ} {x : Unit} {db s : GrantsDb} {p : Point} {q : Option Point}
  {row row' : GrantInvitation} {id : Uuid}

theorem Later.refl (row : GrantInvitation) : Later now p row row where
  tenantId := rfl
  inviter := rfl
  settled _ := rfl
  closed h := ⟨h, fun ha => ha⟩
  accepted _ := .inl rfl

theorem isOpen_iff : row.isOpen now = true ↔ row.status = .pending ∧ now < row.expiresAt := by
  unfold GrantInvitation.isOpen
  rw [decide_eq_true_iff]

theorem isOpen_of_status (h : row.status ≠ .pending) : row.isOpen now = false := by
  rw [← Bool.not_eq_true, isOpen_iff]
  exact fun hopen => h hopen.1

theorem Later.accept {inv : GrantInvitation} {caller : Uuid} {slug : String} (hopen : row.isOpen now = true)
    (hid : inv.id = row.id) : Later now (.accepting inv caller slug) row (row.accept now caller) where
  tenantId := rfl
  inviter := rfl
  settled h := by
    rw [(isOpen_iff.mp hopen).1] at h
    cases h
  closed h := by
    rw [hopen] at h
    cases h
  accepted _ := .inr ⟨inv, caller, slug, rfl, hid, hopen, rfl⟩

/-- An invitation that was pending and is over without having been accepted. -/
theorem Later.of_over (hp : row.status = .pending) (ht : row'.tenantId = row.tenantId)
    (hi : row'.inviterBunyipUserId = row.inviterBunyipUserId) (hover : row'.status ≠ .pending)
    (hno : row'.status ≠ .accepted) : Later now p row row' where
  tenantId := ht
  inviter := hi
  settled h := by
    rw [hp] at h
    cases h
  closed _ := ⟨isOpen_of_status hover, fun h => absurd h hno⟩
  accepted h := absurd h hno

/-- Every invitation of `t` is in `t'`, and no other one. -/
def Laters (now : ℕ) (p : Point) (t t' : Table GrantInvitation.id) : Prop :=
  ∀ id, Option.Rel (Later now p) (t.find id) (t'.find id)

theorem Laters.refl (t : Table GrantInvitation.id) : Laters now p t t := by
  intro id
  cases t.find id with
  | none => exact .none
  | some row => exact .some (Later.refl row)

theorem Laters.of_find {t t' : Table GrantInvitation.id} (h : Laters now p t t') (hrow : t.find id = some row) :
    ∃ row', t'.find id = some row' ∧ Later now p row row' := by
  have hrel := h id
  rw [hrow] at hrel
  generalize t'.find id = o at hrel
  cases hrel with
  | some hl => exact ⟨_, rfl, hl⟩

theorem Laters.to_find {t t' : Table GrantInvitation.id} (h : Laters now p t t') (hrow : t'.find id = some row') :
    ∃ row, t.find id = some row ∧ Later now p row row' := by
  have hrel := h id
  rw [hrow] at hrel
  generalize t.find id = o at hrel
  cases hrel with
  | some hl => exact ⟨_, rfl, hl⟩

theorem laters_update {t : Table GrantInvitation.id} {f : GrantInvitation → GrantInvitation}
    (hf : ∀ row, (f row).id = row.id) (h : ∀ row, t.find id = some row → Later now p row (f row)) :
    Laters now p t (t.update id f hf) := by
  intro k
  rw [Table.find_update]
  split
  · next hk =>
      subst hk
      cases hrow : t.find k with
      | none => exact .none
      | some row => exact .some (h row hrow)
  · exact Laters.refl t k

theorem laters_expire (db : GrantsDb) : Laters now p db.invitations (db.expire now).invitations := by
  intro k
  unfold GrantsDb.expire GrantsDb.setInvitations
  dsimp only
  rw [Table.find_map]
  cases db.invitations.find k with
  | none => exact .none
  | some row =>
      refine .some ?_
      unfold GrantInvitation.expire
      dsimp only
      split
      · next h => exact .of_over h.1 rfl rfl (by simp) (by simp)
      · exact Later.refl row

theorem open_of_any (h : (db.invitations.find id).any (·.isOpen now) = true)
    (hrow : db.invitations.find id = some row) : row.isOpen now = true := by
  rwa [hrow, Option.any_some] at h

/-! ### Statements -/

theorem finding_cases {reply : Reply} {byId : Bool} {caller : Uuid}
    (ha : advance dir now x db (.finding reply byId id caller) = some (s, q)) :
    (∃ o, s = db.answer o ∧ q = none) ∨ ∃ inv, db.invitations.find id = some inv ∧ s = db ∧
      (q = some (.resolving inv caller) ∨ q = some (.declining inv caller)) := by
  simp only [advance] at ha
  split at ha
  · cases ha
    exact .inl ⟨_, rfl, rfl⟩
  · next inv hfind =>
      have hinv : db.invitations.find id = some inv := (Option.filter_eq_some_iff.mp hfind).1
      split at ha
      · cases ha
        exact .inl ⟨_, rfl, rfl⟩
      · cases reply with
        | accept =>
            cases ha
            exact .inr ⟨inv, hinv, rfl, .inl rfl⟩
        | decline =>
            cases ha
            exact .inr ⟨inv, hinv, rfl, .inr rfl⟩

theorem accepting_cases {inv : GrantInvitation} {caller : Uuid} {slug : String}
    (ha : advance dir now x db (.accepting inv caller slug) = some (s, q))
    (hcaller : caller ≠ inv.inviterBunyipUserId) :
    ((db.invitations.find inv.id).any (·.isOpen now) = true ∧ s = db.accept now inv.id caller ∧
      q = some (.mirroring inv caller slug now)) ∨
    ((db.invitations.find inv.id).any (·.isOpen now) = false ∧ s = db ∧ q = some (.late inv.id)) := by
  simp only [advance] at ha
  split at ha
  · next hopen =>
      cases ha
      exact .inl ⟨hopen, rfl, rfl⟩
  · next hopen =>
      cases ha
      exact .inr ⟨Bool.eq_false_of_not_eq_true hopen, rfl, rfl⟩

theorem declining_cases {inv : GrantInvitation} {caller : Uuid}
    (ha : advance dir now x db (.declining inv caller) = some (s, q)) : q = none ∧
      ((∃ o, s = db.answer o) ∨ (db.invitations.find inv.id).any (·.isOpen now) = true ∧
        ∃ o, s = (db.decline now inv.id caller).answer o) := by
  simp only [advance] at ha
  split at ha
  · next hopen =>
      split at ha
      · cases ha
        exact ⟨rfl, .inl ⟨_, rfl⟩⟩
      · cases ha
        exact ⟨rfl, .inr ⟨hopen, _, rfl⟩⟩
  · cases ha
    exact ⟨rfl, .inl ⟨_, rfl⟩⟩

theorem canceling_cases {tenantId : Uuid}
    (ha : advance dir now x db (.canceling id tenantId) = some (s, q)) : (s = db ∧ q = none) ∨
      ∃ row, db.invitations.find id = some row ∧ row.status = .pending ∧ s = db.cancel now id ∧
        q = some (.unregistering id) := by
  simp only [advance] at ha
  split at ha
  · next h =>
      cases ha
      obtain ⟨row, hrow, h⟩ := (Option.any_eq_true _ _).mp h
      exact .inr ⟨row, hrow, (of_decide_eq_true h).2, rfl, rfl⟩
  · cases ha
    exact .inl ⟨rfl, rfl⟩

theorem laters_advance (ha : advance dir now x db p = some (s, q)) :
    Laters now p db.invitations s.invitations := by
  cases p with
  | finding reply byId id caller =>
      obtain ⟨o, rfl, -⟩ | ⟨inv, -, rfl, -⟩ := finding_cases ha <;> exact Laters.refl _
  | resolving inv caller =>
      simp only [advance] at ha
      split at ha <;> cases ha <;> exact Laters.refl _
  | accepting inv caller slug =>
      simp only [advance] at ha
      split at ha
      · next hopen =>
          split at ha <;> cases ha
          · exact Laters.refl _
          · refine laters_update (fun row => row.accept_id now caller) fun row hrow => ?_
            exact .accept (open_of_any hopen hrow) (Table.key_of_find hrow).symm
      · cases ha
        exact Laters.refl _
  | late id =>
      simp only [advance] at ha
      split at ha <;> cases ha <;> exact Laters.refl _
  | declining inv caller =>
      obtain ⟨-, ⟨o, rfl⟩ | ⟨hopen, o, rfl⟩⟩ := declining_cases ha
      · exact Laters.refl _
      · refine laters_update (fun row => row.decline_id now caller) fun row hrow => ?_
        have hp := (isOpen_iff.mp (open_of_any hopen hrow)).1
        exact .of_over hp rfl rfl (by simp [GrantInvitation.decline]) (by simp [GrantInvitation.decline])
  | canceling id tenantId =>
      obtain ⟨rfl, -⟩ | ⟨row, hrow, hp, rfl, -⟩ := canceling_cases ha
      · exact Laters.refl _
      · refine laters_update (fun row => row.cancel_id now) fun row' hrow' => ?_
        rw [hrow, Option.some.injEq] at hrow'
        subst hrow'
        exact .of_over hp rfl rfl (by simp [GrantInvitation.cancel]) (by simp [GrantInvitation.cancel])
  | expiring =>
      cases ha
      exact laters_expire db
  | _ =>
      cases ha
      exact Laters.refl _

/-- What is registered and what is in the mirror changes with three kinds of statements. -/
theorem advance_data (ha : advance dir now x db p = some (s, q)) : (s.remote = db.remote ∧ s.mirror = db.mirror) ∨
    (∃ inv caller slug, p = .registering inv caller slug ∧ s = db.registerGrant inv caller slug) ∨
    (∃ id, p = .unregistering id ∧ s = db.unregisterGrant id) ∨
    ∃ inv caller slug acceptedAt o, p = .mirroring inv caller slug acceptedAt ∧
      s = (db.writeMirror (GrantsDb.mirrorRow inv caller slug acceptedAt)).answer o := by
  cases p with
  | finding reply byId id caller =>
      obtain ⟨o, rfl, -⟩ | ⟨inv, -, rfl, -⟩ := finding_cases ha <;> exact .inl ⟨rfl, rfl⟩
  | resolving inv caller =>
      simp only [advance] at ha
      split at ha <;> cases ha <;> exact .inl ⟨rfl, rfl⟩
  | registering inv caller slug =>
      cases ha
      exact .inr (.inl ⟨inv, caller, slug, rfl, rfl⟩)
  | accepting inv caller slug =>
      simp only [advance] at ha
      split at ha
      · split at ha <;> cases ha <;> exact .inl ⟨rfl, rfl⟩
      · cases ha
        exact .inl ⟨rfl, rfl⟩
  | late id =>
      simp only [advance] at ha
      split at ha <;> cases ha <;> exact .inl ⟨rfl, rfl⟩
  | unregistering id =>
      cases ha
      exact .inr (.inr (.inl ⟨id, rfl, rfl⟩))
  | mirroring inv caller slug acceptedAt =>
      cases ha
      exact .inr (.inr (.inr ⟨inv, caller, slug, acceptedAt, _, rfl, rfl⟩))
  | declining inv caller =>
      obtain ⟨-, ⟨o, rfl⟩ | ⟨-, o, rfl⟩⟩ := declining_cases ha <;> exact .inl ⟨rfl, rfl⟩
  | canceling id tenantId =>
      obtain ⟨rfl, -⟩ | ⟨row, -, -, rfl, -⟩ := canceling_cases ha <;> exact .inl ⟨rfl, rfl⟩
  | expiring =>
      cases ha
      exact .inl ⟨rfl, rfl⟩

/-- An active row of the mirror is only replaced by an active one. -/
theorem mirror_advance (ha : advance dir now x db p = some (s, q)) {k : Uuid × String}
    (hk : (db.mirror.find k).any (·.active) = true) : (s.mirror.find k).any (·.active) = true := by
  obtain ⟨-, hm⟩ | ⟨inv, caller, slug, -, rfl⟩ | ⟨id, -, rfl⟩ | ⟨inv, caller, slug, acceptedAt, o, -, rfl⟩ :=
    advance_data ha
  · rwa [hm]
  · exact hk
  · exact hk
  · change (((db.mirror.upsertWithEmail _).1).find k).any (·.active) = true
    by_cases hkey : k = (GrantsDb.mirrorRow inv caller slug acceptedAt).key
    · subst hkey
      obtain ⟨g, hg, ⟨email, rfl⟩ | ⟨hold, -⟩⟩ :=
        Mirror.exists_upsertWithEmail db.mirror (GrantsDb.mirrorRow inv caller slug acceptedAt)
      · rw [hg]
        rfl
      · rw [hold] at hk
        rwa [hg]
    · rwa [Mirror.find_upsertWithEmail_ne hkey]

/-! ### What every call relies on -/

def Has (db : GrantsDb) (id : Uuid) (P : GrantInvitation → Prop) : Prop :=
  ∃ row, db.invitations.find id = some row ∧ P row

def Registered (db : GrantsDb) (id : Uuid) : Prop := (db.remote id).any (·.active) = true

/-- The invitation that a call has read names its account and its inviter. -/
def Read (db : GrantsDb) (inv : GrantInvitation) : Prop :=
  Has db inv.id fun row => row.tenantId = inv.tenantId ∧ row.inviterBunyipUserId = inv.inviterBunyipUserId

/-- What a call relies on where it stands. -/
def Stands (dir : Directory) (now : ℕ) (db : GrantsDb) : Point → Prop
  | .resolving inv _ => Read db inv
  | .registering inv _ slug => Read db inv ∧ dir.slug inv.tenantId = some slug
  | .accepting inv caller slug => Read db inv ∧ dir.slug inv.tenantId = some slug ∧
      caller ≠ inv.inviterBunyipUserId ∧ (Registered db inv.id ∨ Has db inv.id fun row => row.isOpen now = false)
  | .late id => Has db id fun row => row.isOpen now = false
  | .unregistering id => Has db id fun row => row.isOpen now = false ∧ row.status ≠ .accepted
  | .mirroring inv caller slug _ => Has db inv.id fun row => row.status = .accepted ∧
      row.inviteeBunyipUserId = some caller ∧ dir.slug row.tenantId = some slug
  | _ => True

/-- What holds between the statements. -/
structure Kept (db : GrantsDb) : Prop where
  granted : ∀ id row, db.invitations.find id = some row → row.status = .accepted →
    ∃ g, db.remote id = some g ∧ g.active = true ∧ row.inviteeBunyipUserId = some g.grantee
  mirrored : ∀ g ∈ db.mirror.rows, g.active = true → ∀ row, db.invitations.find g.bunyipGrantId = some row →
    row.status = .accepted ∧ row.inviteeBunyipUserId = some g.granteeBunyipUserId

theorem Has.later {P P' : GrantInvitation → Prop} (h : Has db id P)
    (hl : Laters now p db.invitations s.invitations)
    (hP : ∀ row row', Later now p row row' → P row → P' row') : Has s id P' := by
  obtain ⟨row, hrow, hp⟩ := h
  obtain ⟨row', hrow', hlater⟩ := hl.of_find hrow
  exact ⟨row', hrow', hP row row' hlater hp⟩

theorem Read.later {inv : GrantInvitation} (h : Read db inv) (hl : Laters now p db.invitations s.invitations) :
    Read s inv :=
  Has.later h hl fun _ _ hlater hrow => ⟨hlater.tenantId.trans hrow.1, hlater.inviter.trans hrow.2⟩

/-- What is registered stays so, unless its invitation is closed. -/
theorem registered_advance (hp : Stands dir now db p) (ha : advance dir now x db p = some (s, q))
    (h : Registered db id) : Registered s id ∨ Has db id fun row => row.isOpen now = false := by
  unfold Registered at h ⊢
  obtain ⟨hr, -⟩ | ⟨inv, caller, slug, -, rfl⟩ | ⟨id', rfl, rfl⟩ | ⟨inv, caller, slug, acceptedAt, o, -, rfl⟩ :=
    advance_data ha
  · rw [hr]
    exact .inl h
  · refine .inl ?_
    unfold GrantsDb.registerGrant
    dsimp only
    rw [Function.update_apply]
    split
    · rfl
    · exact h
  · by_cases hid : id = id'
    · obtain ⟨row, hrow, hclosed, -⟩ := hp
      exact .inr ⟨row, hid ▸ hrow, hclosed⟩
    · refine .inl ?_
      unfold GrantsDb.unregisterGrant
      dsimp only
      rwa [Function.update_of_ne hid]
  · exact .inl h

theorem stands_others {p' : Point} (hp : Stands dir now db p) (ha : advance dir now x db p = some (s, q))
    (h : Stands dir now db p') : Stands dir now s p' := by
  have hl := laters_advance ha
  cases p' with
  | resolving inv caller => exact Read.later h hl
  | registering inv caller slug => exact ⟨Read.later h.1 hl, h.2⟩
  | accepting inv caller slug =>
      obtain ⟨hread, hslug, hcaller, hreg⟩ := h
      refine ⟨hread.later hl, hslug, hcaller, ?_⟩
      have hclosed : ∀ {id}, (Has db id fun row => row.isOpen now = false) →
          Has s id fun row => row.isOpen now = false :=
        fun h => h.later hl fun _ _ hlater hrow => (hlater.closed hrow).1
      obtain hreg | hreg := hreg
      · exact (registered_advance hp ha hreg).imp_right hclosed
      · exact .inr (hclosed hreg)
  | late id => exact Has.later h hl fun _ _ hlater hrow => (hlater.closed hrow).1
  | unregistering id =>
      refine Has.later h hl fun _ _ hlater hrow => ⟨(hlater.closed hrow.1).1, fun hacc => ?_⟩
      exact hrow.2 ((hlater.closed hrow.1).2 hacc)
  | mirroring inv caller slug acceptedAt =>
      refine Has.later h hl fun _ _ hlater hrow => ?_
      rwa [hlater.settled hrow.1]
  | _ => trivial

theorem find_accept {caller : Uuid} (hrow : db.invitations.find id = some row) :
    (db.accept now id caller).invitations.find id = some (row.accept now caller) := by
  unfold GrantsDb.accept GrantsDb.setInvitations
  dsimp only
  rw [Table.find_update_self, hrow]
  rfl

theorem find_cancel (hrow : db.invitations.find id = some row) :
    (db.cancel now id).invitations.find id = some (row.cancel now) := by
  unfold GrantsDb.cancel GrantsDb.setInvitations
  dsimp only
  rw [Table.find_update_self, hrow]
  rfl

/-- Where a call stands after a statement. -/
theorem stands_advance (hp : Stands dir now db p) (hC : InOrderAt now db p)
    (ha : advance dir now x db p = some (s, q)) : ∀ p' ∈ q, Stands dir now s p' := by
  cases p with
  | finding reply byId id caller =>
      obtain ⟨o, rfl, rfl⟩ | ⟨inv, hinv, rfl, rfl | rfl⟩ := finding_cases ha
      · simp
      · rintro _ ⟨⟩
        refine ⟨inv, ?_, rfl, rfl⟩
        rwa [Table.key_of_find hinv]
      · rintro _ ⟨⟩
        trivial
  | resolving inv caller =>
      simp only [advance] at ha
      split at ha
      · cases ha
        simp
      · next slug hslug =>
          cases ha
          rintro _ ⟨⟩
          exact ⟨hp, hslug⟩
  | registering inv caller slug =>
      cases ha
      rintro _ ⟨⟩
      refine ⟨hp.1, hp.2, hC.1, .inl ?_⟩
      unfold Registered GrantsDb.registerGrant
      dsimp only
      rw [Function.update_self]
      rfl
  | accepting inv caller slug =>
      obtain ⟨⟨row, hrow, hten, -⟩, hslug, hcaller, -⟩ := hp
      obtain ⟨-, rfl, rfl⟩ | ⟨hclosed, rfl, rfl⟩ := accepting_cases ha hcaller
      · rintro _ ⟨⟩
        exact ⟨_, find_accept hrow, rfl, rfl, hten ▸ hslug⟩
      · rintro _ ⟨⟩
        rw [hrow, Option.any_some] at hclosed
        exact ⟨row, hrow, hclosed⟩
  | late id =>
      obtain ⟨row, hrow, hclosed⟩ := hp
      simp only [advance, hrow] at ha
      cases ha
      split
      · simp
      · next hno =>
          rintro _ ⟨⟩
          exact ⟨row, hrow, hclosed, hno⟩
  | canceling id tenantId =>
      obtain ⟨rfl, rfl⟩ | ⟨row, hrow, -, rfl, rfl⟩ := canceling_cases ha
      · simp
      · rintro _ ⟨⟩
        exact ⟨_, find_cancel hrow, isOpen_of_status (by simp [GrantInvitation.cancel]), by simp [GrantInvitation.cancel]⟩
  | declining inv caller =>
      obtain ⟨rfl, -⟩ := declining_cases ha
      simp
  | _ =>
      cases ha
      simp

theorem kept_advance (hk : Kept db) (hp : Stands dir now db p) (hC : InOrderAt now db p)
    (ha : advance dir now x db p = some (s, q)) : Kept s where
  granted := by
    intro id row' hrow' hacc'
    obtain ⟨row, hrow, hlater⟩ := (laters_advance ha).to_find hrow'
    obtain rfl | ⟨inv, caller, slug, rfl, hid, hopen, rfl⟩ := hlater.accepted hacc'
    · obtain ⟨g, hg, hactive, hgrantee⟩ := hk.granted id row' hrow hacc'
      obtain ⟨hr, -⟩ | ⟨inv, caller, slug, rfl, rfl⟩ | ⟨id', rfl, rfl⟩ | ⟨_, _, _, _, o, -, rfl⟩ :=
        advance_data ha
      · exact ⟨g, hr ▸ hg, hactive, hgrantee⟩
      · unfold GrantsDb.registerGrant
        dsimp only
        by_cases hid : id = inv.id
        · subst hid
          rw [Function.update_self]
          exact ⟨_, rfl, rfl, hC.2 row' hrow hacc'⟩
        · rw [Function.update_of_ne hid]
          exact ⟨g, hg, hactive, hgrantee⟩
      · unfold GrantsDb.unregisterGrant
        dsimp only
        have hid : id ≠ id' := by
          rintro rfl
          obtain ⟨row, hrow₀, -, hno⟩ := hp
          rw [hrow, Option.some.injEq] at hrow₀
          exact hno (hrow₀ ▸ hacc')
        rw [Function.update_of_ne hid]
        exact ⟨g, hg, hactive, hgrantee⟩
      · exact ⟨g, hg, hactive, hgrantee⟩
    · -- The invitation is accepted now, by the caller that was registered last.
      obtain ⟨-, -, hcaller, hreg⟩ := hp
      obtain rfl : inv.id = id := hid.trans (Table.key_of_find hrow)
      have hgrantee := hC row hrow hopen
      have hremote : s.remote = db.remote := by
        obtain ⟨-, rfl, -⟩ | ⟨-, rfl, -⟩ := accepting_cases ha hcaller <;> rfl
      obtain hreg | ⟨row₀, hrow₀, hclosed⟩ := hreg
      · obtain ⟨g, hg, hg'⟩ := (Option.any_eq_true _ _).mp hgrantee
        unfold Registered at hreg
        rw [hg, Option.any_some] at hreg
        refine ⟨g, hremote ▸ hg, hreg, ?_⟩
        rw [of_decide_eq_true hg']
        rfl
      · rw [hrow, Option.some.injEq] at hrow₀
        rw [← hrow₀, hopen] at hclosed
        cases hclosed
  mirrored := by
    intro g hg hactive row' hrow'
    obtain ⟨row, hrow, hlater⟩ := (laters_advance ha).to_find hrow'
    have hold : g ∈ db.mirror.rows → row'.status = .accepted ∧
        row'.inviteeBunyipUserId = some g.granteeBunyipUserId := by
      intro hg
      have haccepted := hk.mirrored g hg hactive row hrow
      rwa [hlater.settled haccepted.1]
    obtain ⟨-, hm⟩ | ⟨_, _, _, -, rfl⟩ | ⟨_, -, rfl⟩ | ⟨inv, caller, slug, acceptedAt, o, rfl, rfl⟩ :=
      advance_data ha
    · exact hold (hm ▸ hg)
    · exact hold hg
    · exact hold hg
    · obtain hg | ⟨email, rfl⟩ := Mirror.mem_upsertWithEmail hg
      · exact hold hg
      · obtain ⟨row₀, hrow₀, hacc, hinvitee, -⟩ := hp
        have heq : row₀ = row := Option.some.inj (hrow₀.symm.trans hrow)
        subst heq
        rw [hlater.settled hacc]
        exact ⟨hacc, hinvitee⟩

theorem isOpen_mono {now : ℕ} (d : ℕ) (h : row.isOpen now = false) : row.isOpen (now + d) = false := by
  rw [← Bool.not_eq_true, isOpen_iff] at h ⊢
  rintro ⟨hp, hlt⟩
  exact h ⟨hp, by omega⟩

theorem Has.mono {P P' : GrantInvitation → Prop} (h : Has db id P) (hP : ∀ row, P row → P' row) : Has db id P' := by
  obtain ⟨row, hrow, hp⟩ := h
  exact ⟨row, hrow, hP row hp⟩

theorem Stands.wait (h : Stands dir now db p) (d : ℕ) : Stands dir (now + d) db p := by
  cases p with
  | accepting inv caller slug =>
      exact ⟨h.1, h.2.1, h.2.2.1, h.2.2.2.imp_right fun hc => hc.mono fun _ => isOpen_mono d⟩
  | late id => exact Has.mono h fun _ => isOpen_mono d
  | unregistering id => exact Has.mono h fun _ hrow => ⟨isOpen_mono d hrow.1, hrow.2⟩
  | _ => exact h

theorem rule : Rule (handlers dir) (fun _ => Kept) (Stands dir) InOrder where
  locks _ _ _ _ hb := absurd hb List.not_mem_nil
  unlocked _ := rfl
  wait h d := ⟨h, fun _ hp => hp.wait d⟩
  start {w op} _ _ := by cases op <;> trivial
  step hw hC hi ha := by
    have hp := hw.requests _ (List.mem_of_getElem? hi)
    refine ⟨kept_advance (x := ()) hw.store hp (hC _ hi) ha, stands_advance (x := ()) hp (hC _ hi) ha, ?_⟩
    exact fun p' _ _ h => stands_others (x := ()) hp ha h

/-! ### What is left open, and settled by a call in flight -/

/-- A grant is registered for an invitation that is not accepted. -/
def Orphan (id : Uuid) (db : GrantsDb) : Prop :=
  Registered db id ∧ Has db id fun row => row.status ≠ .accepted

/-- The invitation whose registration a call takes back, unless it is accepted. -/
def Point.undoes : Point → Option Uuid
  | .accepting inv _ _ => some inv.id
  | .late id | .unregistering id => some id
  | _ => none

theorem orphan_advance (hp : Stands dir now db p) (ha : advance dir now x db p = some (s, q))
    (h : Orphan id s) : (∃ p' ∈ q, p'.undoes = some id) ∨ Orphan id db ∧ p.undoes ≠ some id := by
  obtain ⟨hreg, row', hrow', hno'⟩ := h
  obtain ⟨row, hrow, hlater⟩ := (laters_advance ha).to_find hrow'
  have hno : row.status ≠ .accepted := fun h => hno' (hlater.settled h ▸ h)
  by_cases hundo : p.undoes = some id
  · -- The call itself goes on to take the registration back.
    cases p with
    | accepting inv caller slug =>
        cases hundo
        obtain ⟨-, rfl, rfl⟩ | ⟨-, rfl, rfl⟩ := accepting_cases ha hp.2.2.1
        · rw [find_accept hrow] at hrow'
          cases hrow'
          exact absurd rfl hno'
        · exact .inl ⟨_, rfl, rfl⟩
    | late id' =>
        cases hundo
        simp only [advance, hrow, if_neg hno] at ha
        cases ha
        exact .inl ⟨_, rfl, rfl⟩
    | unregistering id' =>
        cases hundo
        cases ha
        unfold Registered GrantsDb.unregisterGrant at hreg
        dsimp only at hreg
        rw [Function.update_self] at hreg
        cases hg : db.remote id <;> simp [hg] at hreg
    | _ => cases hundo
  · by_cases hold : Registered db id
    · exact .inr ⟨⟨hold, row, hrow, hno⟩, hundo⟩
    · refine .inl ?_
      unfold Registered at hreg hold
      obtain ⟨hr, -⟩ | ⟨inv, caller, slug, rfl, rfl⟩ | ⟨id', rfl, rfl⟩ | ⟨_, _, _, _, o, -, rfl⟩ := advance_data ha
      · exact absurd (hr ▸ hreg) hold
      · cases ha
        unfold GrantsDb.registerGrant at hreg
        dsimp only at hreg
        by_cases hid : id = inv.id
        · exact ⟨_, rfl, congrArg some hid.symm⟩
        · rw [Function.update_of_ne hid] at hreg
          exact absurd hreg hold
      · unfold GrantsDb.unregisterGrant at hreg
        dsimp only at hreg
        rw [Function.update_of_ne fun hid => hundo (congrArg some hid.symm)] at hreg
        exact absurd hreg hold
      · exact absurd hreg hold

/-- The mirror has an active row of the invitee. -/
def Mirrored (dir : Directory) (db : GrantsDb) (row : GrantInvitation) : Prop :=
  ∃ caller ∈ row.inviteeBunyipUserId, ∃ slug ∈ dir.slug row.tenantId,
    (db.mirror.find (caller, slug)).any (·.active) = true

def Unmirrored (dir : Directory) (id : Uuid) (db : GrantsDb) : Prop :=
  Has db id fun row => row.status = .accepted ∧ ¬Mirrored dir db row

/-- The invitation whose acceptance a call writes to the mirror. -/
def Point.mirrors : Point → Option Uuid
  | .mirroring inv _ _ _ => some inv.id
  | _ => none

theorem unmirrored_advance (hp : Stands dir now db p) (hC : InOrderAt now db p)
    (ha : advance dir now x db p = some (s, q)) (h : Unmirrored dir id s) :
    (∃ p' ∈ q, p'.mirrors = some id) ∨ Unmirrored dir id db ∧ p.mirrors ≠ some id := by
  obtain ⟨row', hrow', hacc', hno'⟩ := h
  obtain ⟨row, hrow, hlater⟩ := (laters_advance ha).to_find hrow'
  obtain rfl | ⟨inv, caller, slug, rfl, hid, hopen, rfl⟩ := hlater.accepted hacc'
  · refine .inr ⟨⟨row', hrow, hacc', ?_⟩, fun hm => hno' ?_⟩
    · rintro ⟨caller, hcaller, slug, hslug, hfind⟩
      exact hno' ⟨caller, hcaller, slug, hslug, mirror_advance ha hfind⟩
    · cases p with
      | mirroring inv caller slug acceptedAt =>
          cases hm
          cases ha
          obtain ⟨row₀, hrow₀, -, hinvitee, hslug⟩ := hp
          have heq : row₀ = row' := Option.some.inj (hrow₀.symm.trans hrow)
          subst heq
          refine ⟨caller, hinvitee, slug, hslug, ?_⟩
          obtain ⟨g, hg, ⟨email, rfl⟩ | ⟨hold, hnew⟩⟩ :=
            Mirror.exists_upsertWithEmail db.mirror (GrantsDb.mirrorRow inv caller slug acceptedAt)
          · exact congrArg (Option.any _) hg
          · refine (congrArg (Option.any _) hg).trans ?_
            rw [Option.any_some]
            by_contra hrevoked
            exact absurd (hC g hold (Bool.eq_false_of_not_eq_true hrevoked)) (Nat.not_lt.mpr hnew)
      | _ => cases hm
  · obtain ⟨-, -, rfl⟩ | ⟨hclosed, -, -⟩ := accepting_cases ha hp.2.2.1
    · exact .inl ⟨_, rfl, congrArg some (hid.trans (Table.key_of_find hrow))⟩
    · rw [show db.invitations.find inv.id = some row from hid ▸ Table.find_key (Table.find_mem hrow),
        Option.any_some, hopen] at hclosed
      cases hclosed

/-! ### Runs -/

theorem kept_of_agreed (h : ∀ inv ∈ db.invitations.rows, Agreed dir db inv) : Kept db where
  granted := by
    intro id row hrow hacc
    have hagreed := h row (Table.find_mem hrow)
    obtain rfl := Table.key_of_find hrow
    obtain ⟨g, hg, hactive⟩ := (Option.any_eq_true _ _).mp (hagreed.active.mpr hacc)
    obtain ⟨caller, hcaller, hgrantee, -⟩ := hagreed.grantee hacc
    rw [hg, Option.any_some] at hgrantee
    exact ⟨g, hg, hactive, hcaller.trans (congrArg some (of_decide_eq_true hgrantee).symm)⟩
  mirrored := by
    intro g hg hactive row hrow
    exact (h row (Table.find_mem hrow)).only g hg (Table.key_of_find hrow).symm hactive

theorem agreed_of_kept (hk : Kept db) (horphan : ∀ id, ¬Orphan id db) (hmirror : ∀ id, ¬Unmirrored dir id db) :
    ∀ inv ∈ db.invitations.rows, Agreed dir db inv := by
  intro inv hinv
  have hfind : db.invitations.find inv.id = some inv := Table.find_key hinv
  constructor
  · constructor
    · intro hreg
      by_contra hno
      exact horphan inv.id ⟨hreg, inv, hfind, hno⟩
    · intro hacc
      obtain ⟨g, hg, hactive, -⟩ := hk.granted inv.id inv hfind hacc
      rw [hg, Option.any_some, hactive]
  · intro hacc
    obtain ⟨g, hg, -, hinvitee⟩ := hk.granted inv.id inv hfind hacc
    obtain ⟨caller, hcaller, slug, hslug, hrow⟩ : Mirrored dir db inv := by
      by_contra hno
      exact hmirror inv.id ⟨inv, hfind, hacc, hno⟩
    refine ⟨caller, hcaller, ?_, slug, hslug, hrow⟩
    have heq : g.grantee = caller := Option.some.inj (hinvitee.symm.trans hcaller)
    rw [hg, Option.any_some, heq, decide_eq_true rfl]
  · intro g hg hid hactive
    exact hk.mirrored g hg hactive inv (hid ▸ hfind)

theorem both_sides_agree {dir : Directory} {now : ℕ} {db : GrantsDb} {es : List (Event Operation Unit)}
    {w : World GrantsDb Point} (hdb : ∀ inv ∈ db.invitations.rows, Agreed dir db inv)
    (hC : StepsMeet (step dir) InOrder (World.start now db) es)
    (hr : run (step dir) (World.start now db) es = some w) (hdone : w.requests = []) :
    ∀ inv ∈ w.store.invitations.rows, Agreed dir w.store inv := by
  have hstart : Keeps (handlers dir) (fun _ => Kept) (Stands dir) (World.start now db) :=
    Requests.keeps_start (kept_of_agreed hdb)
  have hnone : ∀ {P : Point → Prop}, ¬∃ p ∈ w.requests, P p := by
    rintro P ⟨p, hp, -⟩
    rw [hdone] at hp
    cases hp
  refine agreed_of_kept (rule.run hstart hC hr).store (fun id horphan => ?_) fun id hun => ?_
  · refine hnone (rule.debt (D := Orphan id) (P := fun p => p.undoes = some id) (fun hC _ => hC.elim) ?_
      hstart hC hr ?_ horphan)
    · intro w i x p s q hw hC hi ha hD
      exact (orphan_advance (x := ()) (hw.requests p (List.mem_of_getElem? hi)) ha hD).imp_right .inl
    · rintro ⟨hreg, row, hrow, hno⟩
      obtain rfl := Table.key_of_find hrow
      exact absurd ((hdb row (Table.find_mem hrow)).active.mp hreg) hno
  · refine hnone (rule.debt (D := Unmirrored dir id) (P := fun p => p.mirrors = some id) (fun hC _ => hC.elim) ?_
      hstart hC hr ?_ hun)
    · intro w i x p s q hw hC hi ha hD
      exact (unmirrored_advance (x := ()) (hw.requests p (List.mem_of_getElem? hi)) (hC p hi) ha hD).imp_right .inl
    · rintro ⟨row, hrow, hacc, hno⟩
      obtain ⟨caller, hcaller, -, hslug⟩ := (hdb row (Table.find_mem hrow)).grantee hacc
      exact absurd ⟨caller, hcaller, hslug⟩ hno

/-! ### Two callers with one token -/

def oneAccount : Directory := { slug := fun _ => some "acme", email := fun _ => none, lower := fun s => s }

/-- An invitation of user 1 that names an address only. -/
def invited : GrantsDb :=
  { invitations := (∅ : Table GrantInvitation.id).insert fun id =>
      { id := id, tenantId := 5, inviterBunyipUserId := 1, inviteeBunyipUserId := none,
        inviteeEmail := "ann@example.com", role := .technician, status := .pending, expiresAt := 100,
        acceptedAt := none, declinedAt := none, canceledAt := none },
    remote := fun _ => none, mirror := Keyed.empty, outcomes := [] }

/-- A caller has the invitation registered. -/
def register (i caller : ℕ) : List (Event Operation Unit) :=
  .arrive (.byToken .accept 0 caller) :: List.replicate 3 (.step i ())

/-- A caller accepts, and a cancel and a second call of it come too late. -/
def inTurn : List (Event Operation Unit) :=
  register 0 7 ++ register 1 7 ++ [.step 0 (), .step 0 (), .arrive (.cancel 0 5), .step 1 (), .step 0 (), .step 0 ()]

theorem both_sides_agree_inTurn : ∃ w, run (step oneAccount) (World.start 0 invited) inTurn = some w ∧
    ∀ inv ∈ w.store.invitations.rows, Agreed oneAccount w.store inv := by
  have h : (run (step oneAccount) (World.start 0 invited) inTurn).any (fun w => w.requests = []) = true := by
    decide +kernel
  obtain ⟨w, hr, hw⟩ := exists_run_of_any h
  exact ⟨w, hr, both_sides_agree (by decide +kernel) (by decide +kernel) hr (of_decide_eq_true hw)⟩

/-- Two callers register, and the first one accepts. -/
def twoCallers : List (Event Operation Unit) := register 0 7 ++ register 1 8 ++ List.replicate 4 (.step 0 ())

def byInviter : List (Event Operation Unit) := register 0 1 ++ [.step 0 ()]

theorem both_sides_differ :
    (∃ w ∈ run (step oneAccount) (World.start 0 invited) twoCallers, w.requests = [] ∧
      ¬∀ inv ∈ w.store.invitations.rows, Agreed oneAccount w.store inv) ∧
    ∃ w ∈ run (step oneAccount) (World.start 0 invited) byInviter, w.requests = [] ∧
      ¬∀ inv ∈ w.store.invitations.rows, Agreed oneAccount w.store inv := by
  decide +kernel

end Mokosh.GrantInvitations
