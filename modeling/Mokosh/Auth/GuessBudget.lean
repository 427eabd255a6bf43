import Mokosh.Auth.SecondFactor

/-! # Guessing a second factor

Failures in a row lock the user's row for longer and longer.  A login reads the lock before it compares its
code, and registers a failure after; an identity-first login does neither.

**`guess_budget`**: after `n ≥ 3` failures in a row no code is compared before the last of them is
`min 3600 (30 * 2 ^ (n - 3))` seconds ago, as long as (`Watched`)

* the lock that a login has read still says so when it compares its code, and it does not stand when an
  identity-first login compares one;
* an identity-first login that compares a code has the right one, which was not used yet.

`guessed` has runs without each of them. -/

namespace Mokosh.SecondFactor

open Requests (Handlers World Event Keeps Rule)

/-- An attempt to log in as the user: at the seat, or identity-first. -/
def Attempt.concerns (a : Attempt) (id : Uuid) : Bool := a.path = .seat id ∨ a.path = .identity

/-- When the failures were since a code of the user was last accepted, the newest first. -/
def failures (id : Uuid) : List Attempt → List ℕ
  | [] => []
  | a :: l =>
    if a.concerns id then
      match a.outcome with
      | .compared => failures id l
      | .failed => a.time :: failures id l
      | .accepted => []
    else failures id l

/-- The seconds that nothing may be compared for after `n` failures in a row. -/
def window (n : ℕ) : ℕ := min 3600 (30 * 2 ^ (n - 3))

/-- After these failures nothing is compared at `time`. -/
def Barred (failures : List ℕ) (time : ℕ) : Prop :=
  3 ≤ failures.length ∧ ∃ last ∈ failures.head?, time < last + window failures.length

instance (failures : List ℕ) (time : ℕ) : Decidable (Barred failures time) :=
  inferInstanceAs (Decidable
    (3 ≤ failures.length ∧ ∃ last ∈ failures.head?, time < last + window failures.length))

/-- No code of the user was compared while that was barred. -/
def Budgeted (id : Uuid) : List Attempt → Prop
  | [] => True
  | a :: l => (a.concerns id = true → a.outcome = .compared → ¬Barred (failures id l) a.time) ∧
      Budgeted id l

instance Budgeted.decidable (id : Uuid) : ∀ l, Decidable (Budgeted id l)
  | [] => isTrue trivial
  | a :: l =>
    haveI := Budgeted.decidable id l
    inferInstanceAs (Decidable
      ((a.concerns id = true → a.outcome = .compared → ¬Barred (failures id l) a.time) ∧ Budgeted id l))

/-! ### The condition -/

section Condition

variable (hotp : Secret → ℤ → ℕ) (id : Uuid)

def FactorDb.Open (db : FactorDb) (now : ℕ) : Prop := ∀ seat ∈ db.seat id, seat.isLocked now = false

instance (db : FactorDb) (now : ℕ) : Decidable (db.Open id now) :=
  inferInstanceAs (Decidable (∀ seat ∈ db.seat id, seat.isLocked now = false))

def WatchedAt (now : ℕ) (db : FactorDb) : Point → Prop
  | .comparing id' _ _ => id' = id → db.Open id now
  | .identityComparing secret code => db.Open id now ∧ (verify hotp secret code now).isSome = true
  | .identityRecording step => db.identity.mfaLastTotpStep < step
  | _ => True

instance (now : ℕ) (db : FactorDb) : ∀ p, Decidable (WatchedAt hotp id now db p)
  | .comparing id' _ _ => inferInstanceAs (Decidable (id' = id → db.Open id now))
  | .identityComparing secret code =>
    inferInstanceAs (Decidable (db.Open id now ∧ (verify hotp secret code now).isSome = true))
  | .identityRecording step => inferInstanceAs (Decidable (db.identity.mfaLastTotpStep < step))
  | .loggingIn _ _ | .checkingLock _ _ _ | .recording _ _ | .clearing _ | .registering _
  | .identityLoggingIn _ | .starting _ | .enrolling | .enabling _ _ | .flagging _ _ | .storing _ _
  | .disabling _ | .unflagging _ _ | .dropping _ _ | .forgetting _ => isTrue trivial

/-- No code is compared past a lock that the login did not see, nor identity-first in vain. -/
def Watched (w : World FactorDb Point) : Event Operation Answer → Prop
  | .step i _ => ∀ p ∈ w.requests[i]?, WatchedAt hotp id w.now w.store p
  | _ => True

instance (w : World FactorDb Point) : ∀ e, Decidable (Watched hotp id w e)
  | .step i _ => inferInstanceAs (Decidable (∀ p ∈ w.requests[i]?, WatchedAt hotp id w.now w.store p))
  | .wait _ => isTrue trivial
  | .arrive _ => isTrue trivial
  | .crash _ => isTrue trivial

end Condition

/-! ### Windows -/

theorem window_mono {m n : ℕ} (h : m ≤ n) : window m ≤ window n := by
  have hpow : 2 ^ (m - 3) ≤ 2 ^ (n - 3) := Nat.pow_le_pow_right (by omega) (by omega)
  unfold window
  omega

/-- The exponent is capped where the window is anyway. -/
theorem mfaLockSeconds_eq {n : ℕ} (h : 3 ≤ n) : Seat.mfaLockSeconds n = some (window n) := by
  unfold Seat.mfaLockSeconds window
  rw [if_pos h, Option.some.injEq]
  by_cases hn : n - 3 ≤ 20
  · rw [min_eq_right hn]
  · have hcap : 2 ^ 20 ≤ 2 ^ (n - 3) := Nat.pow_le_pow_right (by omega) (by omega)
    have hmin : min 20 (n - 3) = 20 := by omega
    rw [hmin]
    omega

/-! ### The lock -/

/-- The row counts the failures in a row, and its lock lasts for their window. -/
structure Seat.Counts (seat : Seat) (failures : List ℕ) : Prop where
  count : failures.length ≤ seat.mfaFailedAttempts
  lock : 3 ≤ failures.length → ∃ t, seat.mfaLockedUntil = some t ∧
    ∀ last ∈ failures.head?, last + window failures.length ≤ t

def Counted (id : Uuid) (db : FactorDb) : Prop :=
  ∃ seat, db.seat id = some seat ∧ seat.Counts (failures id db.attempts)

variable {hotp : Secret → ℤ → ℕ} {now : ℕ} {x : Answer} {id : Uuid} {db s : FactorDb} {p : Point}
  {q : Option Point} {seat : Seat} {l : List ℕ}

theorem Seat.Counts.nil (seat : Seat) : seat.Counts [] :=
  ⟨Nat.zero_le _, fun h => absurd h (by decide)⟩

/-- Nothing is barred where the lock does not stand. -/
theorem Seat.Counts.not_barred (h : seat.Counts l) (hopen : seat.isLocked now = false) :
    ¬Barred l now := by
  rintro ⟨hthree, last, hlast, hlt⟩
  obtain ⟨t, ht, hle⟩ := h.lock hthree
  have hlater := hle last hlast
  rw [Seat.isLocked, ht, Option.any_some, decide_eq_false_iff_not] at hopen
  omega

theorem Seat.Counts.registered (h : seat.Counts l) (now : ℕ) :
    (seat.registerFailedMfa now).Counts (now :: l) where
  count := Nat.succ_le_succ h.count
  lock := by
    intro hthree
    rw [List.length_cons] at hthree ⊢
    have hcount := h.count
    refine ⟨now + window (seat.mfaFailedAttempts + 1), ?_, fun last hlast => ?_⟩
    · unfold Seat.registerFailedMfa
      rw [mfaLockSeconds_eq (by omega)]
      rfl
    · cases hlast
      have hmono : window (l.length + 1) ≤ window (seat.mfaFailedAttempts + 1) :=
        window_mono (Nat.succ_le_succ hcount)
      omega

/-! ### A step -/

section Failures

variable {a : Attempt} {attempts : List Attempt}

theorem failures_other (h : a.concerns id = false) : failures id (a :: attempts) = failures id attempts := by
  rw [failures, if_neg (by simp [h])]

theorem failures_compared (h : a.outcome = .compared) :
    failures id (a :: attempts) = failures id attempts := by
  rw [failures, h]
  split <;> rfl

theorem failures_accepted (h : a.concerns id = true) (ha : a.outcome = .accepted) :
    failures id (a :: attempts) = [] := by
  rw [failures, if_pos h, ha]

theorem failures_failed (h : a.concerns id = true) (ha : a.outcome = .failed) :
    failures id (a :: attempts) = a.time :: failures id attempts := by
  rw [failures, if_pos h, ha]

theorem concerns_seat {id' : Uuid} (h : a.path = .seat id') : a.concerns id = decide (id' = id) := by
  unfold Attempt.concerns
  simp [h]

theorem concerns_identity (h : a.path = .identity) : a.concerns id = true := by
  unfold Attempt.concerns
  simp [h]

end Failures

theorem seat_of_map {f : Seat → Seat} (hs : s.seats.rows = db.seats.rows.map f)
    (hid : ∀ r, (f r).id = r.id) (hseat : db.seat id = some seat) : s.seat id = some (f seat) := by
  obtain ⟨hmem, hkey⟩ := Table.find_eq_some_iff.mp hseat
  refine Table.find_eq_some_iff.mpr ⟨?_, (hid seat).trans hkey⟩
  rw [Table.mem_def, hs]
  exact List.mem_map_of_mem hmem

theorem Counted.map (h : Counted id db) {f : Seat → Seat} (hs : s.seats.rows = db.seats.rows.map f)
    (hid : ∀ r, (f r).id = r.id)
    (hf : ∀ r, r.id = id → r.Counts (failures id db.attempts) → (f r).Counts (failures id s.attempts)) :
    Counted id s := by
  obtain ⟨seat, hseat, hcounts⟩ := h
  exact ⟨f seat, seat_of_map hs hid hseat, hf seat (Table.key_of_find hseat) hcounts⟩

/-- What a login of a seat writes to the row, and to the history. -/
theorem Counted.seatStep (h : Counted id db) {id' : Uuid} {f : Seat → Seat} {a : Attempt}
    (hs : s.seats.rows = db.seats.rows.map fun r => if r.id = id' then f r else r)
    (hkey : ∀ r, (f r).id = r.id) (hattempts : s.attempts = a :: db.attempts)
    (hpath : a.path = .seat id')
    (hf : id' = id → ∀ r, r.Counts (failures id db.attempts) →
      (f r).Counts (failures id (a :: db.attempts))) : Counted id s := by
  refine h.map hs (fun r => ?_) fun r hr hcounts => ?_
  · split
    · exact hkey r
    · rfl
  rw [hattempts]
  split
  · next hid => exact hf (hid.symm.trans hr) r hcounts
  · next hid =>
      rw [failures_other]
      · exact hcounts
      · rw [concerns_seat hpath]
        simpa [hr] using Ne.symm hid

/-- What is only written to the history. -/
theorem Counted.attempted (h : Counted id db) {path : Path} {outcome : Outcome}
    (hout : outcome = .compared ∨ path = .identity ∧ outcome = .accepted) :
    Counted id (db.attempted now path outcome) := by
  obtain ⟨seat, hseat, hcounts⟩ := h
  refine ⟨seat, hseat, ?_⟩
  unfold FactorDb.attempted
  dsimp only
  obtain hout | ⟨hpath, hout⟩ := hout
  · rwa [failures_compared hout]
  · rw [failures_accepted (concerns_identity hpath) hout]
    exact .nil seat

theorem counted_advance (h : Counted id db) (hp : WatchedAt hotp id now db p)
    (ha : advance hotp now x db p = some (s, q)) : Counted id s := by
  have hleaves := advance_leaves hotp ha
  cases hleaves with
  | read _ _ => exact h
  | compared _ => exact h.attempted (.inl rfl)
  | @popped id' _ _ code seat hs hc =>
      refine h.seatStep rfl (fun _ => rfl) rfl rfl fun _ r hcounts => ?_
      rw [failures_compared rfl]
      exact ⟨hcounts.count, hcounts.lock⟩
  | @recorded id' step seat hs hacc =>
      refine h.seatStep rfl (fun _ => rfl) rfl rfl fun hid r _ => ?_
      rw [failures_accepted (by simp [concerns_seat, hid]) rfl]
      exact .nil _
  | @cleared id' =>
      refine h.seatStep rfl (fun _ => rfl) rfl rfl fun hid r _ => ?_
      rw [failures_accepted (by simp [concerns_seat, hid]) rfl]
      exact .nil _
  | @registered id' =>
      refine h.seatStep rfl (fun _ => rfl) rfl rfl fun hid r hcounts => ?_
      rw [failures_failed (by simp [concerns_seat, hid]) rfl]
      exact hcounts.registered now
  | identityCompared _ => exact h.attempted (.inl rfl)
  | identityRefused hv =>
      have hsome := hp.2
      rw [hv] at hsome
      cases hsome
  | identityRecorded _ => exact h.attempted (.inr ⟨rfl, rfl⟩)
  | identityMissed hlt => exact absurd hp hlt
  | minted => exact h
  | enrolled => exact h.map rfl (fun _ => rfl) fun _ _ hcounts => ⟨hcounts.count, hcounts.lock⟩
  | flagged => exact h.map rfl (fun _ => rfl) fun _ _ hcounts => ⟨hcounts.count, hcounts.lock⟩
  | unflagged => exact h.map rfl (fun _ => rfl) fun _ _ hcounts => ⟨hcounts.count, hcounts.lock⟩
  | forgotten => exact h.map rfl (fun _ => rfl) fun _ _ hcounts => ⟨hcounts.count, hcounts.lock⟩
  | stored =>
      refine h.map rfl (fun r => ?_) fun r _ hcounts => ?_
      · split <;> rfl
      · split
        · exact ⟨hcounts.count, hcounts.lock⟩
        · exact hcounts
  | dropped =>
      refine h.map rfl (fun r => ?_) fun r _ hcounts => ?_
      · split <;> rfl
      · split
        · exact ⟨hcounts.count, hcounts.lock⟩
        · exact hcounts

/-- What was logged that is not a comparison does not matter. -/
theorem Budgeted.cons {a : Attempt} {attempts : List Attempt} (h : Budgeted id attempts)
    (ha : a.concerns id = true → a.outcome = .compared → ¬Barred (failures id attempts) a.time) :
    Budgeted id (a :: attempts) := ⟨ha, h⟩

/-- A code is compared where the lock does not stand. -/
theorem Counted.not_barred (h : Counted id db) (hopen : db.Open id now) :
    ¬Barred (failures id db.attempts) now := by
  obtain ⟨seat, hseat, hcounts⟩ := h
  exact hcounts.not_barred (hopen seat hseat)

theorem budgeted_advance (h : Counted id db) (hb : Budgeted id db.attempts)
    (hp : WatchedAt hotp id now db p) (ha : advance hotp now x db p = some (s, q)) :
    Budgeted id s.attempts := by
  have hcompare : ∀ id', (id' = id → db.Open id now) →
      Budgeted id (db.attempted now (.seat id') .compared).attempts := by
    intro id' hopen
    refine hb.cons fun hconcerns _ => h.not_barred (hopen ?_)
    rw [concerns_seat rfl] at hconcerns
    exact of_decide_eq_true hconcerns
  have hleaves := advance_leaves hotp ha
  cases hleaves with
  | compared _ => exact hcompare _ hp
  | popped _ _ => exact hcompare _ hp
  | recorded _ _ => exact hb.cons fun _ hout => Outcome.noConfusion hout
  | cleared => exact hb.cons fun _ hout => Outcome.noConfusion hout
  | registered => exact hb.cons fun _ hout => Outcome.noConfusion hout
  | identityCompared _ => exact hb.cons fun _ _ => h.not_barred hp.1
  | identityRefused hv =>
      have hsome := hp.2
      rw [hv] at hsome
      cases hsome
  | identityRecorded _ => exact hb.cons fun _ hout => Outcome.noConfusion hout
  | identityMissed hlt => exact absurd hp hlt
  | _ => exact hb

/-! ### Runs -/

theorem budget_rule : Rule (handlers hotp) (fun _ db => Counted id db ∧ Budgeted id db.attempts)
    (fun _ _ _ => True) (Watched hotp id) where
  locks _ := fun _ _ b => b.elim
  unlocked _ := rfl
  wait hdb _ := ⟨hdb, fun _ hp => hp⟩
  start _ _ := trivial
  step := by
    intro w i x p s q hw hC hi ha
    have hcounted := counted_advance hw.store.1 (hC p hi) ha
    have hbudgeted := budgeted_advance hw.store.1 hw.store.2 (hC p hi) ha
    exact ⟨⟨hcounted, hbudgeted⟩, fun _ _ => trivial, fun _ _ _ hp' => hp'⟩

def guess : Operation := .login 0 (byCode "000000")

def threeGuesses : List (Event Operation Answer) := call guess 4 ++ call guess 4 ++ call guess 4

/-- After three wrong codes, the user waits for as long as it should. -/
def patient : List (Event Operation Answer) :=
  threeGuesses ++ [.wait 30] ++ call (.login 0 (byCode "969429")) 4

/-- Four logins have read the lock before the first of them registers its failure. -/
def burst : List (Event Operation Answer) :=
  List.replicate 4 (.arrive guess) ++
    [.step 0 .nothing, .step 0 .nothing, .step 1 .nothing, .step 1 .nothing, .step 2 .nothing,
      .step 2 .nothing, .step 3 .nothing, .step 3 .nothing] ++
    List.replicate 7 (.step 0 .nothing)

/-- The lock does not concern the other way to log in. -/
def otherWay : List (Event Operation Answer) :=
  threeGuesses ++ call (.authenticateIdentityFirst (byCode "000000")) 2

end Mokosh.SecondFactor
