import Mokosh.Auth.SecondFactor

/-! # A second factor is spent once

The secret is one for all seats of the human, and each row has a watermark of its own; recovery codes are a
seat's own, and turning the second factor on or off from one seat leaves the others' in place.

**`spent_once`**: between two changes of the secret a time step completes one login, over all seats and
both ways to log in, and a recovery code completes one, unless it was minted before the last `enable_mfa` or
`disable_mfa`, as long as (`Alone`)

* a login that is about to record its step finds all watermarks below it, not only that of its row;
* the identity's watermark is not reset while it stands for a step that no seat's watermark covers;
* when `enable_mfa` or `disable_mfa` ends, no other seat has recovery codes.

`replayed` has runs without each of them. -/

namespace Mokosh.SecondFactor

open Requests (Handlers World Event Keeps Rule)

namespace Use

/-- The time step that a login was completed with, among those of the same secret. -/
def timeStep : Use → Option (ℕ × ℤ)
  | totp secretChanges step _ => some (secretChanges, step)
  | recoveryCode _ _ => none

def code : Use → Option ℕ
  | totp _ _ _ => none
  | recoveryCode code _ => some code

/-- The step of an identity-first login since the secret was last changed. -/
def identityStep (secretChanges : ℕ) : Use → Option ℤ
  | totp changes step .identity => if changes = secretChanges then some step else none
  | _ => none

/-- A recovery code was not minted before the last `enable_mfa` or `disable_mfa`. -/
def Current : Use → Prop
  | totp _ _ _ => True
  | recoveryCode code retired => retired ≤ code

end Use

/-- Each factor has completed one login at most. -/
structure SpentOnce (db : FactorDb) : Prop where
  steps : (db.uses.filterMap Use.timeStep).Nodup
  codes : (db.uses.filterMap Use.code).Nodup
  current : ∀ use ∈ db.uses, use.Current

instance : ∀ use : Use, Decidable use.Current
  | .totp _ _ _ => isTrue trivial
  | .recoveryCode code retired => inferInstanceAs (Decidable (retired ≤ code))

instance (db : FactorDb) : Decidable (SpentOnce db) :=
  decidable_of_iff ((db.uses.filterMap Use.timeStep).Nodup ∧ (db.uses.filterMap Use.code).Nodup ∧
    ∀ use ∈ db.uses, use.Current) ⟨fun h => ⟨h.1, h.2.1, h.2.2⟩, fun h => ⟨h.steps, h.codes, h.current⟩⟩

/-! ### The condition -/

/-- The watermark of a seat is at the step, or beyond it. -/
def FactorDb.Covers (db : FactorDb) (step : ℤ) : Prop := ∃ s ∈ db.seats.rows, s.accepts step = false

instance (db : FactorDb) (step : ℤ) : Decidable (db.Covers step) :=
  inferInstanceAs (Decidable (∃ s ∈ db.seats.rows, s.accepts step = false))

def FactorDb.CoversIdentity (db : FactorDb) : Prop :=
  ∀ use ∈ db.uses, ∀ step ∈ use.identityStep db.secretChanges, db.Covers step

instance (db : FactorDb) : Decidable db.CoversIdentity :=
  inferInstanceAs (Decidable (∀ use ∈ db.uses, ∀ step ∈ use.identityStep db.secretChanges, db.Covers step))

def AloneAt (db : FactorDb) : Point → Prop
  | .recording id step => (db.seat id).any (·.accepts step) = true →
      ¬db.Covers step ∧ db.identity.mfaLastTotpStep < step
  | .identityRecording step => db.identity.mfaLastTotpStep < step → ¬db.Covers step
  | .flagging _ _ | .unflagging _ _ => db.CoversIdentity
  | .storing id _ => ∀ s ∈ db.seats.rows, s.id ≠ id → s.mfaRecoveryCodesHashes = []
  | .forgetting _ => ∀ s ∈ db.seats.rows, s.mfaRecoveryCodesHashes = []
  | _ => True

instance (db : FactorDb) : ∀ p, Decidable (AloneAt db p)
  | .recording id step => inferInstanceAs (Decidable ((db.seat id).any (·.accepts step) = true →
      ¬db.Covers step ∧ db.identity.mfaLastTotpStep < step))
  | .identityRecording step =>
    inferInstanceAs (Decidable (db.identity.mfaLastTotpStep < step → ¬db.Covers step))
  | .flagging _ _ | .unflagging _ _ => inferInstanceAs (Decidable db.CoversIdentity)
  | .storing id _ => inferInstanceAs (Decidable
      (∀ s ∈ db.seats.rows, s.id ≠ id → s.mfaRecoveryCodesHashes = []))
  | .forgetting _ => inferInstanceAs (Decidable
      (∀ s ∈ db.seats.rows, s.mfaRecoveryCodesHashes = []))
  | .loggingIn _ _ | .checkingLock _ _ _ | .comparing _ _ _ | .clearing _ | .registering _
  | .identityLoggingIn _ | .identityComparing _ _ | .starting _ | .enrolling | .enabling _ _
  | .disabling _ | .dropping _ _ => isTrue trivial

/-- No other row knows of a step, or has codes, that the writes of this one overlook. -/
def Alone (w : World FactorDb Point) : Event Operation Answer → Prop
  | .step i _ => ∀ p ∈ w.requests[i]?, AloneAt w.store p
  | _ => True

instance (w : World FactorDb Point) : ∀ e, Decidable (Alone w e)
  | .step i _ => inferInstanceAs (Decidable (∀ p ∈ w.requests[i]?, AloneAt w.store p))
  | .wait _ => isTrue trivial
  | .arrive _ => isTrue trivial
  | .crash _ => isTrue trivial

variable {hotp : Secret → ℤ → ℕ} {now : ℕ} {x : Answer} {db s : FactorDb} {p : Point} {q : Option Point}

/-! ### Watermarks -/

/-- A step that was accepted since the secret was last changed is below a watermark: a seat's, or, after an
identity-first login, the identity's. -/
def Use.Below (db : FactorDb) : Use → Prop
  | .totp secretChanges step path => secretChanges = db.secretChanges →
      db.Covers step ∨ path = .identity ∧ step ≤ db.identity.mfaLastTotpStep
  | .recoveryCode _ _ => True

structure Watermarked (db : FactorDb) : Prop where
  changes : ∀ use ∈ db.uses, ∀ t ∈ use.timeStep, t.1 ≤ db.secretChanges
  once : (db.uses.filterMap Use.timeStep).Nodup
  below : ∀ use ∈ db.uses, use.Below db

/-- No seat's watermark goes back. -/
def FactorDb.NoLower (db s : FactorDb) : Prop := ∀ step, db.Covers step → s.Covers step

theorem noLower_of_seats (h : s.seats = db.seats) : db.NoLower s := by
  intro step hc
  rwa [FactorDb.Covers, h]

theorem noLower_of_update {id : Uuid} {f : Seat → Seat}
    (hs : s.seats.rows = db.seats.rows.map fun r => if r.id = id then f r else r)
    (h : ∀ r, db.seat id = some r → ∀ step, r.accepts step = false → (f r).accepts step = false) :
    db.NoLower s := by
  rintro step ⟨r, hr, ha⟩
  refine ⟨if r.id = id then f r else r, ?_, ?_⟩
  · rw [hs]
    exact List.mem_map_of_mem hr
  · split
    · next hid => exact h r (Table.find_eq_some_iff.mpr ⟨hr, hid⟩) step ha
    · exact ha

theorem noLower_of_map {f : Seat → Seat} (hs : s.seats.rows = db.seats.rows.map f)
    (h : ∀ r step, (f r).accepts step = r.accepts step) : db.NoLower s := by
  rintro step ⟨r, hr, ha⟩
  refine ⟨f r, ?_, (h r step).trans ha⟩
  rw [hs]
  exact List.mem_map_of_mem hr

/-- What was below a watermark is below one, if neither the secret nor a watermark has changed but for the
better. -/
theorem Watermarked.mono (h : Watermarked db) (huses : s.uses = db.uses)
    (hchanges : s.secretChanges = db.secretChanges) (hseats : db.NoLower s)
    (hidentity : db.identity.mfaLastTotpStep ≤ s.identity.mfaLastTotpStep) : Watermarked s where
  changes := by
    rw [huses, hchanges]
    exact h.changes
  once := by
    rw [huses]
    exact h.once
  below := by
    rw [huses]
    intro use huse
    have hbelow := h.below use huse
    cases use with
    | recoveryCode _ _ => trivial
    | totp changes step path =>
        intro he
        obtain hc | ⟨hpath, hle⟩ := hbelow (he.trans hchanges)
        · exact .inl (hseats step hc)
        · exact .inr ⟨hpath, hle.trans hidentity⟩

theorem Watermarked.attempted (h : Watermarked db) (path : Path) (outcome : Outcome) :
    Watermarked (db.attempted now path outcome) :=
  h.mono rfl rfl (noLower_of_seats rfl) (le_refl _)

/-- A change of one seat that leaves its watermark alone. -/
theorem Watermarked.update (h : Watermarked db) {id : Uuid} {f : Seat → Seat}
    (hs : s.seats.rows = db.seats.rows.map fun r => if r.id = id then f r else r)
    (huses : s.uses = db.uses) (hchanges : s.secretChanges = db.secretChanges)
    (hidentity : s.identity = db.identity)
    (hsame : ∀ r, (f r).mfaLastUsedStep = r.mfaLastUsedStep) : Watermarked s := by
  refine h.mono huses hchanges (noLower_of_update hs fun r _ step ha => ?_) (by rw [hidentity])
  rwa [Seat.accepts, hsame]

theorem Watermarked.usedCode (h : Watermarked db) (code retired : ℕ) :
    Watermarked (db.used (.recoveryCode code retired)) where
  changes := List.forall_mem_cons.mpr ⟨by simp [Use.timeStep], h.changes⟩
  once := h.once
  below := List.forall_mem_cons.mpr ⟨trivial, h.below⟩

/-- A step above all watermarks has not been used since the secret was last changed. -/
theorem Watermarked.usedStep (h : Watermarked db) {step : ℤ} {path : Path} (hseats : ¬db.Covers step)
    (hidentity : db.identity.mfaLastTotpStep < step) (huses : s.uses = db.uses)
    (hchanges : s.secretChanges = db.secretChanges) (hlower : db.NoLower s)
    (hle : db.identity.mfaLastTotpStep ≤ s.identity.mfaLastTotpStep)
    (hbelow : s.Covers step ∨ path = .identity ∧ step ≤ s.identity.mfaLastTotpStep) :
    Watermarked (s.used (.totp db.secretChanges step path)) := by
  have hs : Watermarked s := h.mono huses hchanges hlower hle
  have hnew : (db.secretChanges, step) ∉ db.uses.filterMap Use.timeStep := by
    intro hmem
    obtain ⟨use, huse, ht⟩ := List.mem_filterMap.mp hmem
    cases use with
    | recoveryCode _ _ => cases ht
    | totp changes k path' =>
        cases ht
        obtain hc | ⟨-, hc⟩ := h.below _ huse rfl
        · exact hseats hc
        · omega
  constructor
  · refine List.forall_mem_cons.mpr ⟨fun t ht => ?_, hs.changes⟩
    cases ht
    exact hchanges.ge
  · refine List.nodup_cons.mpr ⟨?_, hs.once⟩
    rwa [huses]
  · refine List.forall_mem_cons.mpr ⟨fun _ => hbelow, fun use huse => ?_⟩
    exact hs.below use huse

/-- A new secret: nothing was accepted with it. -/
theorem Watermarked.changed (h : Watermarked db) (huses : s.uses = db.uses)
    (hchanges : s.secretChanges = db.secretChanges + 1) : Watermarked s where
  changes := by
    rw [huses, hchanges]
    exact fun use huse t ht => (h.changes use huse t ht).trans (Nat.le_succ _)
  once := by
    rw [huses]
    exact h.once
  below := by
    rw [huses]
    intro use huse
    cases use with
    | recoveryCode _ _ => trivial
    | totp changes step path =>
        intro he
        have hle : changes ≤ db.secretChanges := h.changes _ huse _ rfl
        rw [hchanges] at he
        omega

/-- The identity's watermark is reset, while the seats' cover it. -/
theorem Watermarked.reset (h : Watermarked db) (hc : db.CoversIdentity) (enabled : Bool) :
    Watermarked (db.writeMfaEnabled enabled) where
  changes := h.changes
  once := h.once
  below := by
    have hlower : db.NoLower (db.writeMfaEnabled enabled) := noLower_of_map rfl fun _ _ => rfl
    intro use huse
    have hbelow := h.below use huse
    cases use with
    | recoveryCode _ _ => trivial
    | totp changes step path =>
        intro he
        obtain hseat | ⟨rfl, -⟩ := hbelow he
        · exact .inl (hlower step hseat)
        · refine .inl (hlower step (hc _ huse step ?_))
          have hchanges : changes = db.secretChanges := he
          simp [Use.identityStep, hchanges]

theorem watermarked_advance (h : Watermarked db) (hp : AloneAt db p)
    (ha : advance hotp now x db p = some (s, q)) : Watermarked s := by
  have hleaves := advance_leaves hotp ha
  cases hleaves with
  | read _ _ => exact h
  | compared _ => exact h.attempted _ _
  | popped _ _ =>
      refine Watermarked.usedCode ?_ _ _
      exact (h.attempted _ _).update rfl rfl rfl rfl fun _ => rfl
  | @recorded id step seat hs hacc =>
      have hany : (db.seat id).any (·.accepts step) = true := by
        rw [hs]
        exact hacc
      obtain ⟨hseats, hidentity⟩ := hp hany
      refine h.usedStep hseats hidentity rfl rfl ?_ (le_refl _) (.inl ?_)
      · refine noLower_of_update rfl fun r hr k hk => ?_
        obtain rfl : seat = r := Option.some.inj (hs.symm.trans hr)
        unfold Seat.accepts at hacc hk ⊢
        cases hlast : seat.mfaLastUsedStep with
        | none =>
            rw [hlast] at hk
            cases hk
        | some m =>
            rw [hlast] at hacc hk
            simp only [Option.all_some, decide_eq_true_eq, decide_eq_false_iff_not, not_lt] at hacc hk
            simp [Seat.recordMfaSuccess]
            omega
      · have hfind : (db.recordMfaSuccess id step).seats.find id = some (seat.recordMfaSuccess step) := by
          unfold FactorDb.seat at hs
          unfold FactorDb.recordMfaSuccess
          dsimp only
          rw [Table.find_update_self, hs, Option.map_some]
        exact ⟨_, Table.find_mem hfind, by simp [Seat.accepts, Seat.recordMfaSuccess]⟩
  | cleared =>
      refine Watermarked.attempted ?_ _ _
      exact h.update rfl rfl rfl rfl fun _ => rfl
  | registered =>
      refine Watermarked.attempted ?_ _ _
      exact h.update rfl rfl rfl rfl fun _ => rfl
  | identityCompared _ => exact h.attempted _ _
  | identityRefused _ => exact (h.attempted _ _).attempted _ _
  | identityRecorded hlt =>
      exact h.usedStep (hp hlt) hlt rfl rfl (noLower_of_seats rfl) hlt.le (.inr ⟨rfl, le_refl _⟩)
  | identityMissed _ => exact h.attempted _ _
  | enrolled => exact h.changed rfl rfl
  | minted => exact h.mono rfl rfl (noLower_of_seats rfl) (le_refl _)
  | flagged => exact h.reset hp _
  | stored => exact h.update rfl rfl rfl rfl fun _ => rfl
  | unflagged => exact h.reset hp _
  | dropped => exact h.update rfl rfl rfl rfl fun _ => rfl
  | forgotten => exact h.changed rfl rfl

/-! ### Recovery codes -/

/-- The codes of the seats were minted by the last `enable_mfa`, and so was each that was used when it was
used. -/
structure Unretired (db : FactorDb) : Prop where
  uses : ∀ use ∈ db.uses, use.Current
  seats : ∀ r ∈ db.seats.rows, ∀ c ∈ r.mfaRecoveryCodesHashes, db.retired ≤ c

/-- The first of the codes that a request has minted is the least. -/
def Ascending (p : Point) : Prop := ∀ c ∈ p.codes, ∀ d, p.codes.headD d ≤ c

theorem Unretired.map (h : Unretired db) {f : Seat → Seat} (hs : s.seats.rows = db.seats.rows.map f)
    (huses : s.uses = db.uses) (hretired : s.retired = db.retired)
    (hf : ∀ r, (f r).mfaRecoveryCodesHashes ⊆ r.mfaRecoveryCodesHashes) : Unretired s where
  uses := by
    rw [huses]
    exact h.uses
  seats := by
    rw [hs, hretired]
    intro r' hr' c hc
    obtain ⟨r, hr, rfl⟩ := List.mem_map.mp hr'
    exact h.seats r hr c (hf r hc)

theorem Unretired.update (h : Unretired db) {id : Uuid} {f : Seat → Seat}
    (hs : s.seats.rows = db.seats.rows.map fun r => if r.id = id then f r else r)
    (huses : s.uses = db.uses) (hretired : s.retired = db.retired)
    (hf : ∀ r, (f r).mfaRecoveryCodesHashes ⊆ r.mfaRecoveryCodesHashes) : Unretired s := by
  refine h.map hs huses hretired fun r => ?_
  split
  · exact hf r
  · exact List.Subset.refl _

theorem Unretired.used (h : Unretired db) {use : Use} (huse : use.Current) : Unretired (db.used use) where
  uses := List.forall_mem_cons.mpr ⟨huse, h.uses⟩
  seats := h.seats

/-- The new codes of a seat, when no other has any. -/
theorem Unretired.stored (h : Unretired db) {id : Uuid} {codes : List ℕ}
    (hothers : ∀ r ∈ db.seats.rows, r.id ≠ id → r.mfaRecoveryCodesHashes = [])
    (hcodes : ∀ c ∈ codes, ∀ d, codes.headD d ≤ c) :
    Unretired ((db.writeCodes id codes).retire (codes.headD db.retired)) where
  uses := h.uses
  seats := by
    intro r' hr' c hc
    obtain ⟨r, hr, rfl⟩ := List.mem_map.mp hr'
    split at hc
    · exact hcodes c hc _
    · next hid =>
        rw [hothers r hr hid] at hc
        cases hc

theorem unretired_advance (h : Unretired db) (hp : AloneAt db p) (hcodes : Ascending p)
    (ha : advance hotp now x db p = some (s, q)) : Unretired s := by
  have hleaves := advance_leaves hotp ha
  cases hleaves with
  | popped hs hc =>
      refine Unretired.used ?_ (h.seats _ (Table.find_mem hs) _ hc)
      exact h.update rfl rfl rfl fun r => List.filter_subset_self _
  | recorded _ _ =>
      refine Unretired.used ?_ trivial
      exact h.update rfl rfl rfl fun _ => List.Subset.refl _
  | identityRecorded _ =>
      refine Unretired.used ?_ trivial
      exact ⟨h.uses, h.seats⟩
  | cleared => exact h.update rfl rfl rfl fun _ => List.Subset.refl _
  | registered => exact h.update rfl rfl rfl fun _ => List.Subset.refl _
  | enrolled => exact h.map rfl rfl rfl fun _ => List.Subset.refl _
  | flagged => exact h.map rfl rfl rfl fun _ => List.Subset.refl _
  | unflagged => exact h.map rfl rfl rfl fun _ => List.Subset.refl _
  | stored => exact h.stored hp hcodes
  | dropped => exact h.update rfl rfl rfl fun _ => List.nil_subset _
  | forgotten =>
      refine ⟨h.uses, fun r' hr' c hc => ?_⟩
      obtain ⟨r, hr, rfl⟩ := List.mem_map.mp hr'
      have hnone : (r.withSecret none).mfaRecoveryCodesHashes = [] := hp r hr
      rw [hnone] at hc
      cases hc
  | _ => exact ⟨h.uses, h.seats⟩

theorem ascending_of_codes (h : p.codes = []) : Ascending p := by
  intro c hc
  rw [h] at hc
  cases hc

theorem ascending_newCodes (db : FactorDb) (id : Uuid) : Ascending (.flagging id db.newCodes) := by
  intro c hc d
  obtain ⟨i, -, rfl⟩ := List.mem_map.mp hc
  exact Nat.le_add_right db.minted i

theorem ascending_advance (hcodes : Ascending p) (ha : advance hotp now x db p = some (s, q)) :
    ∀ p' ∈ q, Ascending p' := by
  have hleaves := advance_leaves hotp ha
  cases hleaves with
  | read hq _ => exact fun p' hp' => ascending_of_codes (hq p' hp')
  | compared hq => exact fun p' hp' => ascending_of_codes (hq p' hp')
  | minted =>
      intro p' hp'
      cases hp'
      exact ascending_newCodes db _
  | flagged =>
      intro p' hp'
      cases hp'
      exact hcodes
  | _ =>
      intro p' hp'
      cases hp' <;> exact ascending_of_codes rfl

/-- Where a code is: with the logins that used it, and on the seats. -/
def FactorDb.tally (db : FactorDb) (c : ℕ) : ℕ :=
  (db.uses.filterMap Use.code).count c + db.seats.sum fun r => r.mfaRecoveryCodesHashes.count c

/-- A code that has been minted is there once. -/
def FactorDb.allowed (db : FactorDb) (c : ℕ) : ℕ := if c < db.minted then 1 else 0

theorem tally_le {c : ℕ} {f : Seat → Seat} (hs : s.seats.rows = db.seats.rows.map f)
    (huses : s.uses.filterMap Use.code = db.uses.filterMap Use.code)
    (hf : ∀ r, (f r).mfaRecoveryCodesHashes.count c ≤ r.mfaRecoveryCodesHashes.count c) :
    s.tally c ≤ db.tally c := by
  unfold FactorDb.tally Table.sum
  rw [huses, hs, List.map_map]
  exact Nat.add_le_add_left (List.sum_le_sum fun r _ => hf r) _

theorem tally_update_le {c : ℕ} {id : Uuid} {f : Seat → Seat}
    (hs : s.seats.rows = db.seats.rows.map fun r => if r.id = id then f r else r)
    (huses : s.uses.filterMap Use.code = db.uses.filterMap Use.code)
    (hf : ∀ r, (f r).mfaRecoveryCodesHashes.count c ≤ r.mfaRecoveryCodesHashes.count c) :
    s.tally c ≤ db.tally c := by
  refine tally_le hs huses fun r => ?_
  split
  · exact hf r
  · exact le_refl _

/-- What replaces the codes of a seat is all that is added. -/
theorem tally_writeCodes (db : FactorDb) (id : Uuid) (codes : List ℕ) (c : ℕ) :
    (db.writeCodes id codes).tally c ≤ db.tally c + codes.count c := by
  unfold FactorDb.tally FactorDb.writeCodes
  dsimp only
  cases hs : db.seats.find id with
  | none =>
      rw [Table.update_eq_self fun r hr hid => absurd hid (Table.find_eq_none_iff.mp hs r hr)]
      omega
  | some r =>
      obtain ⟨hr, rfl⟩ := Table.find_eq_some_iff.mp hs
      have hsum := Table.sum_update (f := fun r => r.withCodes codes) hr
        (fun r => r.mfaRecoveryCodesHashes.count c) fun r => r.withCodes_id codes
      have hnew : (r.withCodes codes).mfaRecoveryCodesHashes = codes := rfl
      rw [hnew] at hsum
      omega

/-- A code that is used is taken from its seat. -/
theorem tally_popped {id : Uuid} {seat : Seat} {code : ℕ} (hs : db.seat id = some seat)
    (hc : code ∈ seat.mfaRecoveryCodesHashes) (retired c : ℕ) :
    ((db.pop id code).used (.recoveryCode code retired)).tally c ≤ db.tally c := by
  unfold FactorDb.tally FactorDb.pop FactorDb.used
  dsimp only
  obtain ⟨hr, rfl⟩ := Table.find_eq_some_iff.mp hs
  have hsum := Table.sum_update (f := fun r => r.pop code) hr
    (fun r => r.mfaRecoveryCodesHashes.count c) fun r => r.pop_id code
  have hcode : (.recoveryCode code retired : Use).code = some code := rfl
  rw [List.filterMap_cons_some hcode, List.count_cons]
  have hpop : (seat.pop code).mfaRecoveryCodesHashes =
      seat.mfaRecoveryCodesHashes.filter (· ≠ code) := rfl
  rw [hpop] at hsum
  by_cases hsame : code = c
  · subst hsame
    have hgone : (seat.mfaRecoveryCodesHashes.filter (· ≠ code)).count code = 0 := by
      rw [List.count_eq_zero, List.mem_filter]
      simp
    have hthere : 0 < seat.mfaRecoveryCodesHashes.count code := List.count_pos_iff.mpr hc
    simp only [BEq.rfl, if_true]
    omega
  · have hle : (seat.mfaRecoveryCodesHashes.filter (· ≠ code)).count c ≤
        seat.mfaRecoveryCodesHashes.count c := List.filter_sublist.count_le c
    have hne : (code == c) = false := by simpa using hsame
    simp only [hne, Bool.false_eq_true, if_false]
    omega

theorem count_newCodes_le (db : FactorDb) (c : ℕ) :
    db.newCodes.count c + db.allowed c ≤ db.mint.allowed c := by
  have hnodup : db.newCodes.Nodup := List.nodup_range.map fun _ _ => Nat.add_left_cancel
  have hone := List.nodup_iff_count_le_one.mp hnodup c
  have hmint : db.mint.minted = db.minted + recoveryCodeCount := rfl
  unfold FactorDb.allowed
  rw [hmint]
  by_cases hmem : c ∈ db.newCodes
  · obtain ⟨i, hi, rfl⟩ := List.mem_map.mp hmem
    have hlt := List.mem_range.mp hi
    rw [if_neg (by omega), if_pos (by omega)]
    exact hone
  · rw [List.count_eq_zero_of_not_mem hmem]
    split <;> split <;> omega

/-- Codes are minted once, and from then on handed over, used or thrown away. -/
theorem advance_tally (c : ℕ) (ha : advance hotp now x db p = some (s, q)) :
    s.tally c + (q.map fun p => p.codes.count c).getD 0 + db.allowed c ≤
      db.tally c + p.codes.count c + s.allowed c := by
  have hnone : ∀ q : Option Point, (∀ p' ∈ q, p'.codes = []) →
      (q.map fun p => p.codes.count c).getD 0 = 0 := by
    intro q hq
    cases q with
    | none => rfl
    | some p' => simp [hq p' rfl]
  have hkept : s.tally c ≤ db.tally c → s.minted = db.minted →
      (q.map fun p => p.codes.count c).getD 0 ≤ p.codes.count c →
      s.tally c + (q.map fun p => p.codes.count c).getD 0 + db.allowed c ≤
        db.tally c + p.codes.count c + s.allowed c := by
    intro htally hminted hcodes
    have hallowed : s.allowed c = db.allowed c := by
      unfold FactorDb.allowed
      rw [hminted]
    omega
  have hleaves := advance_leaves hotp ha
  cases hleaves with
  | read hq hp =>
      rw [hnone q hq, hp]
      exact le_refl _
  | compared hq =>
      rw [hnone q hq]
      exact le_refl _
  | @popped id _ _ code seat hs hc =>
      have hs' : (db.attempted now (.seat id) .compared).seat id = some seat := hs
      exact hkept (tally_popped hs' hc db.retired c) rfl (le_refl _)
  | recorded _ _ => exact hkept (tally_update_le rfl rfl fun _ => le_refl _) rfl (le_refl _)
  | cleared => exact hkept (tally_update_le rfl rfl fun _ => le_refl _) rfl (le_refl _)
  | registered => exact hkept (tally_update_le rfl rfl fun _ => le_refl _) rfl (le_refl _)
  | enrolled => exact hkept (tally_le rfl rfl fun _ => le_refl _) rfl (le_refl _)
  | minted =>
      have hle := count_newCodes_le db c
      have hsame : db.mint.tally c = db.tally c := rfl
      rw [hsame]
      dsimp only [Option.map_some, Option.getD_some, Point.codes]
      rw [List.count_nil]
      omega
  | flagged => exact hkept (tally_le rfl rfl fun _ => le_refl _) rfl (le_refl _)
  | unflagged => exact hkept (tally_le rfl rfl fun _ => le_refl _) rfl (le_refl _)
  | @stored id codes => exact Nat.add_le_add_right (tally_writeCodes db id codes c) _
  | @dropped id minted => exact Nat.add_le_add_right (tally_writeCodes db id [] c) _
  | forgotten => exact hkept (tally_le rfl rfl fun _ => le_refl _) rfl (le_refl _)
  | _ => exact hkept (le_refl _) rfl (le_refl _)

/-! ### Runs -/

/-- The state that a run starts from: no factor has been used, and the codes of the seats are distinct. -/
structure Unused (db : FactorDb) : Prop where
  uses : db.uses = []
  codes : (db.seats.rows.flatMap (·.mfaRecoveryCodesHashes)).Nodup
  minted : ∀ r ∈ db.seats.rows, ∀ c ∈ r.mfaRecoveryCodesHashes, c < db.minted
  retired : ∀ r ∈ db.seats.rows, ∀ c ∈ r.mfaRecoveryCodesHashes, db.retired ≤ c

theorem Unused.watermarked (h : Unused db) : Watermarked db := by
  constructor <;> rw [h.uses]
  · exact List.forall_mem_nil _
  · exact List.nodup_nil
  · exact List.forall_mem_nil _

theorem Unused.unretired (h : Unused db) : Unretired db where
  uses := by
    rw [h.uses]
    exact List.forall_mem_nil _
  seats := h.retired

theorem Unused.tally_le (h : Unused db) (c : ℕ) : db.tally c ≤ db.allowed c := by
  have htally : db.tally c = (db.seats.rows.flatMap (·.mfaRecoveryCodesHashes)).count c := by
    unfold FactorDb.tally Table.sum
    rw [h.uses, List.filterMap_nil, List.count_nil, Nat.zero_add, List.count_flatMap]
    rfl
  rw [htally]
  unfold FactorDb.allowed
  split
  · exact List.nodup_iff_count_le_one.mp h.codes c
  · next hc =>
      rw [Nat.le_zero, List.count_eq_zero]
      intro hmem
      obtain ⟨r, hr, hcr⟩ := List.mem_flatMap.mp hmem
      exact hc (h.minted r hr c hcr)

theorem rule : Rule (handlers hotp) (fun _ db => Watermarked db ∧ Unretired db) (fun _ _ => Ascending)
    Alone where
  locks _ := fun _ _ b => b.elim
  unlocked _ := rfl
  wait hdb _ := ⟨hdb, fun _ hp => hp⟩
  start := by
    intro w op _ _
    cases op <;> exact ascending_of_codes rfl
  step := by
    intro w i x p s q hw hC hi ha
    have hp : Ascending p := hw.requests p (List.mem_of_getElem? hi)
    have hwater := watermarked_advance hw.store.1 (hC p hi) ha
    have hcurrent := unretired_advance hw.store.2 (hC p hi) hp ha
    exact ⟨⟨hwater, hcurrent⟩, ascending_advance hp ha, fun _ _ _ hp' => hp'⟩

theorem spent_once {hotp : Secret → ℤ → ℕ} {now : ℕ} {db : FactorDb} (hdb : Unused db)
    {es : List (Event Operation Answer)} {w : World FactorDb Point}
    (hC : StepsMeet (step hotp) Alone (World.start now db) es)
    (hr : run (step hotp) (World.start now db) es = some w) : SpentOnce w.store := by
  have hw := rule.run (Requests.keeps_start ⟨hdb.watermarked, hdb.unretired⟩) hC hr
  have hcodes : ∀ c, (w.store.uses.filterMap Use.code).count c ≤ 1 := by
    intro c
    have hstart : ∀ op, ((handlers hotp).start op).codes.count c = 0 := by
      intro op
      cases op <;> rfl
    have hbudget := Requests.run_budget (h := handlers hotp) (a := fun db => db.tally c)
      (b := fun db => db.allowed c) (f := fun p => p.codes.count c) hstart
      (fun ha => advance_tally c ha) (w := World.start now db) (hdb.tally_le c) hr
    have hallowed : w.store.allowed c ≤ 1 := by
      unfold FactorDb.allowed
      split <;> omega
    have htally : (w.store.uses.filterMap Use.code).count c ≤ w.store.tally c := Nat.le_add_right _ _
    omega
  exact ⟨hw.store.1.once, List.nodup_iff_count_le_one.mpr hcodes, hw.store.2.uses⟩

/-! ### A factor that is spent twice -/

theorem unused_twoSeats : Unused twoSeats :=
  ⟨rfl, by decide +kernel, by decide +kernel, by decide +kernel⟩

/-- The codes of two time steps, and a recovery code. -/
def threeLogins : List (Event Operation Answer) :=
  call (.login 0 (byCode "359152")) 4 ++ [.wait 30] ++ call (.authenticateIdentityFirst (byCode "969429")) 3 ++
    call (.login 1 (byRecoveryCode 1)) 4

theorem spent_once_threeLogins :
    ∃ w, run (step listed) (World.start 60 twoSeats) threeLogins = some w ∧ SpentOnce w.store := by
  have h : (run (step listed) (World.start 60 twoSeats) threeLogins).any
      (fun w => w.store.uses.length = 3) = true := by
    decide +kernel
  obtain ⟨w, hr, -⟩ := exists_run_of_any h
  exact ⟨w, hr, spent_once unused_twoSeats (by decide +kernel) hr⟩

/-- One code for two seats. -/
def acrossSeats : List (Event Operation Answer) :=
  call (.login 0 (byCode "359152")) 4 ++ call (.login 1 (byCode "359152")) 4

/-- `enable_mfa` once more, between two identity-first logins. -/
def enabledAgain : List (Event Operation Answer) :=
  call (.authenticateIdentityFirst (byCode "359152")) 3 ++ call (.enableMfa 0 "359152") 3 ++
    call (.authenticateIdentityFirst (byCode "359152")) 3

/-- The second factor is turned off and on again from one seat, and the other's codes still work. -/
def oldCode : List (Event Operation Answer) :=
  call (.disableMfa 0) 4 ++ [.arrive (.startMfaEnrollment 0), .step 0 .nothing, .step 0 (.generated listedSecret)] ++
    call (.enableMfa 0 "359152") 3 ++ call (.login 1 (byRecoveryCode 0)) 4

theorem replayed : Unused twoSeats ∧ ∀ es ∈ [acrossSeats, enabledAgain, oldCode],
    ∃ w, run (step listed) (World.start 60 twoSeats) es = some w ∧ ¬SpentOnce w.store := by
  have h : ∀ es ∈ [acrossSeats, enabledAgain, oldCode],
      (run (step listed) (World.start 60 twoSeats) es).any (fun w => ¬SpentOnce w.store) = true := by
    decide +kernel
  refine ⟨unused_twoSeats, fun es hes => ?_⟩
  obtain ⟨w, hr, hw⟩ := exists_run_of_any (h es hes)
  exact ⟨w, hr, of_decide_eq_true hw⟩

end Mokosh.SecondFactor
