import Mokosh.Types
import Mokosh.Lib.Keyed

/-! # The mirror of Bunyip's grants

`auth/mokosh_bunyip_grants.rs`: one row of `mokosh_bunyip_grants` for each grantee and account, written by the
webhook and by an accepted invitation.  `upsert_with_email` replaces a row only by a strictly newer event.

`find_upsertWithEmail` says which row a grantee has for an account after an event. -/

namespace Mokosh.Grants

inductive GrantRole where
  | admin | manager | technician | finance | readOnly
deriving DecidableEq

/-- The roles that the table accepts. -/
def GrantRole.ofString : String → Option GrantRole
  | "admin" => some .admin
  | "manager" => some .manager
  | "technician" => some .technician
  | "finance" => some .finance
  | "read_only" => some .readOnly
  | _ => none

inductive UserRole where
  | superAdmin | admin | manager | technician | dispatcher | sales | finance
deriving DecidableEq

/-- `map_grant_role`. -/
def mapGrantRole (vocab : String) : Option UserRole :=
  (GrantRole.ofString vocab).map fun
    | .admin => .admin
    | .manager => .manager
    | .technician | .readOnly => .technician
    | .finance => .finance

/-- A row of `mokosh_bunyip_grants`.  It has a role or it is revoked. -/
structure BunyipGrant where
  bunyipGrantId : Uuid
  ownerBunyipUserId : Uuid
  granteeBunyipUserId : Uuid
  mokoshAccountId : String
  role : Option GrantRole
  grantedAt : ℕ
  revokedAt : Option ℕ
  revokedBy : Option String
  granteeEmail : Option String
  eventAt : ℕ
  coupled : role.isSome = revokedAt.isNone
deriving DecidableEq

namespace BunyipGrant

/-- The unique key. -/
def key (g : BunyipGrant) : Uuid × String := (g.granteeBunyipUserId, g.mokoshAccountId)

/-- The test of `is_grant_active`. -/
def active (g : BunyipGrant) : Bool := g.revokedAt.isNone && g.role.isSome

/-- The `COALESCE` of an update. -/
def keepEmail (e g : BunyipGrant) : BunyipGrant := { e with granteeEmail := e.granteeEmail <|> g.granteeEmail }

theorem keepEmail_key (e g : BunyipGrant) : (e.keepEmail g).key = e.key := rfl

end BunyipGrant

abbrev Mirror := Keyed BunyipGrant.key

namespace Mirror

variable (m : Mirror) (e : BunyipGrant)

/-- `upsert_with_email`, and whether a row was inserted or changed. -/
def upsertWithEmail : Mirror × Bool :=
  match m.find e.key with
  | none => (m.insert e, true)
  | some g => if g.eventAt < e.eventAt then (m.update e.key e.keepEmail fun g _ => e.keepEmail_key g, true) else (m, false)

variable {m e} {k : Uuid × String} {g : BunyipGrant}

/-- The row of a key after an event: what the event says, unless the row was as new, or of another key. -/
theorem find_upsertWithEmail (k : Uuid × String) : (m.upsertWithEmail e).1.find k =
    if k = e.key then some ((m.find e.key).elim e fun g => if g.eventAt < e.eventAt then e.keepEmail g else g)
    else m.find k := by
  unfold upsertWithEmail
  split
  · next h =>
      dsimp only
      rw [Keyed.find_insert, h]
      split
      · next hk =>
          rw [hk, h]
          rfl
      · rfl
  · next g h =>
      rw [h, Option.elim_some]
      split
      · dsimp only
        rw [Keyed.find_update, h]
        rfl
      · dsimp only
        split
        · next hk => rw [hk, h]
        · rfl

theorem find_upsertWithEmail_ne (h : k ≠ e.key) :
    (m.upsertWithEmail e).1.find k = m.find k := by
  rw [find_upsertWithEmail, if_neg h]

/-- The row of an event's own key is the event's, or as new as it. -/
theorem exists_upsertWithEmail (m : Mirror) (e : BunyipGrant) : ∃ g, (m.upsertWithEmail e).1.find e.key = some g ∧
    ((∃ email, g = { e with granteeEmail := email }) ∨ m.find e.key = some g ∧ e.eventAt ≤ g.eventAt) := by
  rw [find_upsertWithEmail, if_pos rfl]
  cases h : m.find e.key with
  | none => exact ⟨e, rfl, .inl ⟨e.granteeEmail, rfl⟩⟩
  | some g =>
      rw [Option.elim_some]
      split
      · exact ⟨_, rfl, .inl ⟨_, rfl⟩⟩
      · next hnew => exact ⟨g, rfl, .inr ⟨rfl, Nat.le_of_not_lt hnew⟩⟩

/-- A row only gets newer. -/
theorem find_upsertWithEmail_mono (e : BunyipGrant) (h : m.find k = some g) :
    ∃ g', (m.upsertWithEmail e).1.find k = some g' ∧ g.eventAt ≤ g'.eventAt := by
  by_cases hk : k = e.key
  · subst hk
    rw [find_upsertWithEmail, if_pos rfl, h, Option.elim_some]
    split
    · next hnew => exact ⟨_, rfl, hnew.le⟩
    · exact ⟨g, rfl, Nat.le_refl _⟩
  · exact ⟨g, (find_upsertWithEmail_ne hk).trans h, Nat.le_refl _⟩

/-- A row of the mirror after an event stood there before, or is the event's. -/
theorem mem_upsertWithEmail (hg : g ∈ (m.upsertWithEmail e).1.rows) :
    g ∈ m.rows ∨ ∃ email, g = { e with granteeEmail := email } := by
  have hf := Keyed.find_eq_some_iff.mpr ⟨hg, rfl⟩
  by_cases hk : g.key = e.key
  · obtain ⟨g', hf', hg'⟩ := exists_upsertWithEmail m e
    rw [← hk, hf, Option.some.injEq] at hf'
    subst hf'
    obtain hg' | ⟨hf', -⟩ := hg'
    · exact .inr hg'
    · exact .inl (Keyed.find_eq_some_iff.mp hf').1
  · rw [find_upsertWithEmail_ne hk] at hf
    exact .inl (Keyed.find_eq_some_iff.mp hf).1

theorem upsertWithEmail_unchanged (h : (m.upsertWithEmail e).2 = false) : (m.upsertWithEmail e).1 = m := by
  unfold upsertWithEmail at h ⊢
  split at h
  · cases h
  · split at h
    · cases h
    · next hold => rw [if_neg hold]

end Mirror

end Mokosh.Grants
