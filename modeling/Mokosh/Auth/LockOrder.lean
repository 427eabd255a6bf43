import Mathlib.Data.Prod.Lex
import Mokosh.Lib.RowLocks
import Mokosh.Types

/-! # The row locks of a person

`auth/service.rs`, `db/identity.rs`, migrations 196 and 246: the transactions that write the `users` rows of one
person, and the identity.  Each is the sequence of the row locks that it takes, held to its end.

* An `UPDATE` of `users` locks its rows in the order of its scan.  The mirror trigger fires after the
  statement, once for each row, and locks the row's membership and the identity.
* `write_mfa_secret` updates `identities` first and `users` after it, each only where the guard finds the
  secret that is replaced.  All others update `users` first, or the identity alone.

**`no_deadlock`**: no transactions wait for each other in a cycle, as long as (`InOrder`)

* a `write_mfa_secret` does not hold locks at the same time as another transaction but
  `record_identity_mfa_success`;
* the updates of several rows go through them in one order.

`crossed` has a cycle of two transactions without each of them. -/

namespace Mokosh.LockOrder

open Requests (Handlers World Event Keeps Rule Waits Waiting Deadlocked)

/-- A `users` row of the person. -/
structure Seat where
  id : Uuid
  tenantId : Uuid
deriving DecidableEq

inductive RowLock where
  | user (id : Uuid)
  | membership (tenantId : Uuid)
  | identity
deriving DecidableEq

/-- The transactions on the person with these seats, with the rows of the statements in the order of the scan. -/
inductive Operation (seats : List Seat) where
  | updateUser (s : Seat) (h : s ∈ seats)
  | updateLastLogin (s : Seat) (h : s ∈ seats)
  | writeMfaEnabled (scan : List Seat) (h : scan.Perm seats)
  /-- With what the guard finds in each of the tables. -/
  | writeMfaSecret (identityMatches : Bool) (scan : List Seat) (h : scan.Subperm seats)
  | recordIdentityMfaSuccess (advances : Bool)

/-- What the mirror trigger locks. -/
def mirror (s : Seat) : List RowLock := [.membership s.tenantId, .identity]

/-- An `UPDATE` of `users`. -/
def updateUsers (scan : List Seat) : List RowLock := scan.map (fun s => .user s.id) ++ scan.flatMap mirror

def updateIdentity (found : Bool) : List RowLock := if found then [.identity] else []

namespace Operation

variable {seats : List Seat}

def locks : Operation seats → List RowLock
  | updateUser s _ | updateLastLogin s _ => updateUsers [s]
  | writeMfaEnabled scan _ => updateUsers scan ++ updateIdentity true
  | writeMfaSecret identityMatches scan _ => updateIdentity identityMatches ++ updateUsers scan
  | recordIdentityMfaSuccess advances => updateIdentity advances

def isWriteMfaSecret : Operation seats → Bool
  | writeMfaSecret _ _ _ => true
  | _ => false

def isRecord : Operation seats → Bool
  | recordIdentityMfaSuccess _ => true
  | _ => false

/-- Two transactions may hold locks at the same time. -/
def Compatible (op op' : Operation seats) : Prop :=
  (op.isWriteMfaSecret = true → op'.isRecord = true) ∧ (op'.isWriteMfaSecret = true → op.isRecord = true)

instance (op op' : Operation seats) : Decidable (Compatible op op') :=
  inferInstanceAs (Decidable ((op.isWriteMfaSecret = true → op'.isRecord = true) ∧
    (op'.isWriteMfaSecret = true → op.isRecord = true)))

/-- The rows are gone through in the order of `position`. -/
def InPlace (position : Uuid → ℕ) : Operation seats → Prop
  | writeMfaEnabled scan _ => scan.Pairwise fun s s' => position s.id < position s'.id
  | _ => True

instance (position : Uuid → ℕ) : ∀ op : Operation seats, Decidable (InPlace position op)
  | writeMfaEnabled scan _ => inferInstanceAs (Decidable (scan.Pairwise fun s s' => position s.id < position s'.id))
  | updateUser _ _ | updateLastLogin _ _ | writeMfaSecret _ _ _ | recordIdentityMfaSuccess _ => isTrue trivial

end Operation

structure Transaction (seats : List Seat) where
  op : Operation seats
  held : List RowLock
  /-- The locks that it has still to take. -/
  plan : List RowLock

variable {seats : List Seat} {position : Uuid → ℕ}

def start (op : Operation seats) : Transaction seats := { op := op, held := [], plan := op.locks }

/-- The next lock, or the commit. -/
def advance (_ : ℕ) (_ _ : Unit) (t : Transaction seats) : Option (Unit × Option (Transaction seats)) :=
  match t.plan with
  | [] => some ((), none)
  | b :: plan => some ((), some { t with held := b :: t.held, plan := plan })

def takes (_ : Unit) (t : Transaction seats) : List RowLock := t.plan.head?.toList

variable (seats) in
def handlers : Handlers (Operation seats) Unit Unit (Transaction seats) RowLock :=
  { start := start, advance := advance, takes := takes, holds := Transaction.held }

variable (seats) in
abbrev step := Requests.step (handlers seats)

/-! ### The condition -/

/-- A transaction takes its first lock only beside others that it is compatible with. -/
def FirstLock (w : World Unit (Transaction seats)) (t : Transaction seats) : Prop :=
  t.held = [] → t.plan ≠ [] → ∀ r ∈ w.requests, r.held ≠ [] → t.op.Compatible r.op

instance (w : World Unit (Transaction seats)) (t : Transaction seats) : Decidable (FirstLock w t) :=
  inferInstanceAs (Decidable (t.held = [] → t.plan ≠ [] → ∀ r ∈ w.requests, r.held ≠ [] → t.op.Compatible r.op))

def InOrder (position : Uuid → ℕ) (w : World Unit (Transaction seats)) : Event (Operation seats) Unit → Prop
  | .arrive op => op.InPlace position
  | .step i _ => ∀ t ∈ w.requests[i]?, FirstLock w t
  | .wait _ | .crash _ => True

instance (w : World Unit (Transaction seats)) : ∀ e, Decidable (InOrder position w e)
  | .arrive op => inferInstanceAs (Decidable (op.InPlace position))
  | .step i _ => inferInstanceAs (Decidable (∀ t ∈ w.requests[i]?, FirstLock w t))
  | .wait _ | .crash _ => isTrue trivial

/-! ### Transactions in flight -/

/-- A transaction holds what it has taken of its locks. -/
structure OnPlan (position : Uuid → ℕ) (t : Transaction seats) : Prop where
  locks : t.held.reverse ++ t.plan = t.op.locks
  inPlace : t.op.InPlace position

theorem advance_cases {n : ℕ} {x s s' : Unit} {t : Transaction seats} {q : Option (Transaction seats)}
    (ha : (handlers seats).advance n x s t = some (s', q)) : q = none ∨
      ∃ b plan, t.plan = b :: plan ∧ q = some { t with held := b :: t.held, plan := plan } := by
  replace ha : advance n x s t = some (s', q) := ha
  unfold advance at ha
  split at ha
  · cases ha
    exact .inl rfl
  · next b plan hplan =>
      cases ha
      exact .inr ⟨b, plan, hplan, rfl⟩

theorem rule : Rule (handlers seats) (fun _ _ => True) (fun _ _ => OnPlan position) (InOrder position) where
  locks {_ _ s p _ _} ha := by
    obtain rfl | ⟨b, plan, hplan, rfl⟩ := advance_cases ha
    · simp
    · rintro _ ⟨⟩ b' hb'
      obtain rfl | hb' := List.mem_cons.mp hb'
      · refine .inl ?_
        change b' ∈ p.plan.head?.toList
        rw [hplan]
        exact List.mem_singleton_self b'
      · exact .inr hb'
  unlocked _ := rfl
  wait _ _ := ⟨trivial, fun _ hp => hp⟩
  start _ hC := ⟨rfl, hC⟩
  step {w i x p s q} hw _ hi ha := by
    refine ⟨trivial, ?_, fun _ _ _ hp => hp⟩
    have hp := hw.requests p (List.mem_of_getElem? hi)
    obtain rfl | ⟨b, plan, hplan, rfl⟩ := advance_cases ha
    · simp
    · rintro _ ⟨⟩
      refine ⟨?_, hp.inPlace⟩
      have hlocks := hp.locks
      rw [hplan] at hlocks
      rw [List.reverse_cons, List.append_assoc]
      exact hlocks

/-- Two transactions that hold locks are compatible. -/
def Beside (t t' : Transaction seats) : Prop := t.held ≠ [] → t'.held ≠ [] → t.op.Compatible t'.op

theorem Beside.symm {t t' : Transaction seats} (h : Beside t t') : Beside t' t :=
  fun ht' ht => ⟨(h ht ht').2, (h ht ht').1⟩

theorem beside_advance {w : World Unit (Transaction seats)} {i : ℕ} {x s : Unit} {t : Transaction seats}
    {q : Option (Transaction seats)} (hC : FirstLock w t)
    (ha : (handlers seats).advance w.now x w.store t = some (s, q)) :
    ∀ t' ∈ q, ∀ r ∈ w.requests.eraseIdx i, Beside t r → Beside t' r := by
  obtain rfl | ⟨b, plan, hplan, rfl⟩ := advance_cases ha
  · simp
  · rintro _ ⟨⟩ r hr hbeside - hheld
    by_cases hfirst : t.held = []
    · exact hC hfirst (by rw [hplan]; exact List.cons_ne_nil b plan) r (List.mem_of_mem_eraseIdx hr) hheld
    · exact hbeside hfirst hheld

/-! ### The order of the locks -/

/-- `users`, by the position of the row, then `tenant_memberships`, then `identities`. -/
def rank (position : Uuid → ℕ) : RowLock → ℕ ×ₗ ℕ
  | .user id => toLex (0, position id)
  | .membership _ => toLex (1, 0)
  | .identity => toLex (2, 0)

/-- A `users` row of the scan is locked after those before it, and everything else after all of them. -/
theorem scan_cases {scan : List Seat} {held rest rest' : List RowLock} {b : RowLock}
    (h : held ++ b :: rest = scan.map (fun s => RowLock.user s.id) ++ rest') :
    (∃ before s after, scan = before ++ s :: after ∧ held = before.map (fun s => .user s.id) ∧ b = .user s.id) ∨
      ∃ more, held = scan.map (fun s => .user s.id) ++ more ∧ rest' = more ++ b :: rest := by
  obtain ⟨more, hheld, hrest⟩ | ⟨more, hscan, hrest⟩ := List.append_eq_append_iff.mp h.symm
  · exact .inr ⟨more, hheld, hrest⟩
  · cases more with
    | nil => exact .inr ⟨[], by simpa using hscan.symm, by simpa using hrest.symm⟩
    | cons c more =>
        obtain ⟨rfl, -⟩ := List.cons_eq_cons.mp hrest
        obtain ⟨before, tail, rfl, rfl, htail⟩ := List.map_eq_append_iff.mp hscan
        obtain ⟨s, after, rfl, rfl, -⟩ := List.map_eq_cons_iff.mp htail
        exact .inl ⟨before, s, after, rfl, rfl, rfl⟩

/-- A transaction that updates `users` first, by its scan: of one row, or of all of them. -/
structure UsersFirst (position : Uuid → ℕ) (op : Operation seats) (scan : List Seat) (rest : List RowLock) :
    Prop where
  locks : op.locks = scan.map (fun s => .user s.id) ++ rest
  sorted : scan.Pairwise fun s s' => position s.id < position s'.id
  mirrored : ∀ b ∈ rest, b = .identity ∨ ∃ s ∈ scan, b = .membership s.tenantId
  extent : (∃ s, scan = [s] ∧ rest = mirror s) ∨ scan.Perm seats

theorem mem_mirrors {scan : List Seat} {b : RowLock} (h : b ∈ scan.flatMap mirror) :
    b = .identity ∨ ∃ s ∈ scan, b = .membership s.tenantId := by
  obtain ⟨s, hs, hb⟩ := List.mem_flatMap.mp h
  obtain rfl | hb := List.mem_cons.mp hb
  · exact .inr ⟨s, hs, rfl⟩
  · exact .inl (List.mem_singleton.mp hb)

theorem usersFirst_single (s : Seat) {op : Operation seats} (h : op.locks = updateUsers [s]) :
    UsersFirst position op [s] (mirror s) where
  locks := h
  sorted := List.pairwise_singleton _ _
  mirrored b hb := mem_mirrors (by simpa using hb)
  extent := .inl ⟨s, rfl, rfl⟩

theorem usersFirst {op : Operation seats} (hin : op.InPlace position) (hsecret : op.isWriteMfaSecret = false)
    (hrecord : op.isRecord = false) : ∃ scan rest, UsersFirst position op scan rest ∧ ∀ s ∈ scan, s ∈ seats := by
  cases op with
  | updateUser s h => exact ⟨[s], mirror s, usersFirst_single s rfl, by simpa using h⟩
  | updateLastLogin s h => exact ⟨[s], mirror s, usersFirst_single s rfl, by simpa using h⟩
  | writeMfaEnabled scan h =>
      refine ⟨scan, scan.flatMap mirror ++ [.identity], ⟨?_, hin, ?_, .inr h⟩, fun s hs => h.subset hs⟩
      · exact List.append_assoc _ _ _
      · intro b hb
        obtain hb | hb := List.mem_append.mp hb
        · exact mem_mirrors hb
        · exact .inl (List.mem_singleton.mp hb)
  | writeMfaSecret identityMatches scan h => cases hsecret
  | recordIdentityMfaSuccess advances => cases hrecord

variable {t : Transaction seats} {scan : List Seat} {rest : List RowLock}

/-- Who holds a membership holds a `users` row of the person. -/
theorem UsersFirst.holds_user (h : UsersFirst position t.op scan rest) (ht : OnPlan position t) {tenantId : Uuid}
    (hm : .membership tenantId ∈ t.held) : ∃ s ∈ scan, .user s.id ∈ t.held := by
  have hlocks := ht.locks.trans h.locks
  have hm' := List.mem_reverse.mpr hm
  obtain ⟨more, hheld, hrest⟩ | ⟨more, hscan, -⟩ := List.append_eq_append_iff.mp hlocks.symm
  · rw [hheld] at hm'
    obtain hm' | hm' := List.mem_append.mp hm'
    · simp at hm'
    · obtain hid | ⟨s, hs, -⟩ := h.mirrored _ (hrest ▸ List.mem_append_left _ hm')
      · cases hid
      · refine ⟨s, hs, List.mem_reverse.mp ?_⟩
        rw [hheld]
        exact List.mem_append_left _ (List.mem_map_of_mem hs)
  · have hmem : RowLock.membership tenantId ∈ scan.map fun s => RowLock.user s.id :=
      hscan ▸ List.mem_append_left _ hm'
    simp at hmem

/-- A lock that somebody else holds, by whom a `users` row is held with each membership, ranks above all that a
transaction holds. -/
theorem UsersFirst.rank_lt (h : UsersFirst position t.op scan rest) (ht : OnPlan position t) {b : RowLock}
    {plan : List RowLock} (hplan : t.plan = b :: plan) (hb : b ∉ t.held)
    (hmember : ∀ tenantId, b = .membership tenantId → ∃ s ∈ seats, .user s.id ∉ t.held) :
    ∀ b' ∈ t.held, rank position b' < rank position b := by
  intro b' hb'
  have hlocks := ht.locks.trans h.locks
  rw [hplan] at hlocks
  replace hb' := List.mem_reverse.mpr hb'
  obtain ⟨before, s, after, rfl, hheld, rfl⟩ | ⟨more, hheld, hrest⟩ := scan_cases hlocks
  · rw [hheld] at hb'
    obtain ⟨s', hs', rfl⟩ := List.mem_map.mp hb'
    have hlt := (List.pairwise_append.mp h.sorted).2.2 s' hs' s List.mem_cons_self
    exact Prod.Lex.toLex_lt_toLex.mpr (.inr ⟨rfl, hlt⟩)
  · -- All the rows of the scan are held.
    have hrow : ∀ s ∈ scan, .user s.id ∈ t.held := by
      intro s hs
      rw [← List.mem_reverse, hheld]
      exact List.mem_append_left _ (List.mem_map_of_mem hs)
    obtain rfl | ⟨s, hs, rfl⟩ := h.mirrored b (hrest ▸ List.mem_append_right _ List.mem_cons_self)
    · cases b' with
      | user id => exact Prod.Lex.toLex_lt_toLex.mpr (.inl Nat.zero_lt_two)
      | membership tenantId => exact Prod.Lex.toLex_lt_toLex.mpr (.inl Nat.one_lt_two)
      | identity => exact absurd (List.mem_reverse.mp hb') hb
    · obtain ⟨s', hs', hfree⟩ := hmember _ rfl
      obtain ⟨s₀, rfl, rfl⟩ | hperm := h.extent
      · -- A single row has its membership locked next.
        obtain rfl : more = [] := by
          cases more with
          | nil => rfl
          | cons c more =>
              unfold mirror at hrest
              obtain ⟨rfl, hrest⟩ := List.cons_eq_cons.mp hrest
              cases more <;> simp at hrest
        rw [hheld, List.append_nil] at hb'
        obtain ⟨s', -, rfl⟩ := List.mem_map.mp hb'
        exact Prod.Lex.toLex_lt_toLex.mpr (.inl Nat.zero_lt_one)
      · exact absurd (hrow s' (hperm.mem_iff.mpr hs')) hfree

/-! ### Runs -/

theorem OnPlan.record (ht : OnPlan position t) (hrecord : t.op.isRecord = true) (hheld : t.held ≠ []) :
    t.plan = [] := by
  have hone : t.op.locks.length ≤ 1 := by
    cases hop : t.op with
    | recordIdentityMfaSuccess advances => cases advances <;> simp [Operation.locks, updateIdentity]
    | _ =>
        rw [hop] at hrecord
        cases hrecord
  rw [← ht.locks, List.length_append, List.length_reverse] at hone
  have hheld := List.length_pos_iff.mpr hheld
  exact List.length_eq_zero_iff.mp (by omega)

theorem plan_of_takes {t : Transaction seats} {u : Unit} {b : RowLock} (hb : b ∈ (handlers seats).takes u t) :
    ∃ plan, t.plan = b :: plan := by
  replace hb : b ∈ t.plan.head?.toList := hb
  cases hplan : t.plan with
  | nil => simp [hplan] at hb
  | cons c plan =>
      rw [hplan] at hb
      exact ⟨plan, by rw [List.mem_singleton.mp hb]⟩

theorem no_deadlock {seats : List Seat} {position : Uuid → ℕ} {now : ℕ} {es : List (Event (Operation seats) Unit)}
    {w : World Unit (Transaction seats)} (hC : StepsMeet (step seats) (InOrder position) (World.start now ()) es)
    (hr : run (step seats) (World.start now ()) es = some w) : ¬Deadlocked (handlers seats) w := by
  have hstart : Keeps (handlers seats) (fun _ _ => True) (fun _ _ => OnPlan position) (World.start now ()) :=
    Requests.keeps_start trivial
  have hkeeps := rule.run hstart hC hr
  have hbeside : w.requests.Pairwise Beside := by
    refine rule.pairwise Beside.symm (fun _ _ p _ _ hheld => absurd rfl hheld) ?_ hstart hC hr List.Pairwise.nil
    intro w i x t s q _ hC hi ha
    exact beside_advance (hC t hi) ha
  refine Requests.not_deadlocked (rank position) fun i j p p' hi hj hne hwaiting b hb hb' => ?_
  have hp := hkeeps.requests p (List.mem_of_getElem? hi)
  have hp' := hkeeps.requests p' (List.mem_of_getElem? hj)
  obtain ⟨plan, hplan⟩ := plan_of_takes hb
  obtain ⟨plan', c, hplan'⟩ : ∃ plan' c, p'.plan = c :: plan' := by
    obtain ⟨k, -, p₁, hp₁, _, _, c, hc, -⟩ := hwaiting
    obtain rfl : p' = p₁ := Option.some.inj (hj.symm.trans hp₁)
    obtain ⟨plan', hplan'⟩ := plan_of_takes hc
    exact ⟨plan', c, hplan'⟩
  by_cases hheld : p.held = []
  · intro b' hb'
    change b' ∈ p.held at hb'
    rw [hheld] at hb'
    cases hb'
  -- Neither is a `record_identity_mfa_success`, which waits for nothing once it holds its lock.
  have hrecord : p.op.isRecord = false := by
    rw [← Bool.not_eq_true]
    intro h
    rw [hp.record h hheld] at hplan
    cases hplan
  have hheld' : p'.held ≠ [] := List.ne_nil_of_mem hb'
  have hrecord' : p'.op.isRecord = false := by
    rw [← Bool.not_eq_true]
    intro h
    rw [hp'.record h hheld'] at hplan'
    cases hplan'
  have hcompatible := Requests.pairwise_getElem? Beside.symm hbeside hi hj hne hheld hheld'
  have hsecret : p.op.isWriteMfaSecret = false := by
    rw [← Bool.not_eq_true]
    intro h
    rw [hcompatible.1 h] at hrecord'
    cases hrecord'
  have hsecret' : p'.op.isWriteMfaSecret = false := by
    rw [← Bool.not_eq_true]
    intro h
    rw [hcompatible.2 h] at hrecord
    cases hrecord
  obtain ⟨scan, rest, hfirst, -⟩ := usersFirst hp.inPlace hsecret hrecord
  obtain ⟨scan', rest', hfirst', hseats⟩ := usersFirst hp'.inPlace hsecret' hrecord'
  have hapart := Requests.pairwise_getElem? Handlers.Apart.symm hkeeps.apart hj hi (Ne.symm hne)
  refine hfirst.rank_lt hp hplan (hapart b hb') ?_
  rintro tenantId rfl
  obtain ⟨s, hs, hheld⟩ := hfirst'.holds_user hp' hb'
  exact ⟨s, hseats s hs, hapart _ hheld⟩

def twoSeats : List Seat := [{ id := 1, tenantId := 5 }, { id := 2, tenantId := 6 }]

def signIn : Operation twoSeats := .updateLastLogin { id := 1, tenantId := 5 } (by decide)

def enroll : Operation twoSeats := .writeMfaSecret true twoSeats (List.Subperm.refl _)

def enable : Operation twoSeats := .writeMfaEnabled twoSeats (List.Perm.refl _)

def enableBackwards : Operation twoSeats :=
  .writeMfaEnabled [{ id := 2, tenantId := 6 }, { id := 1, tenantId := 5 }] (List.Perm.swap _ _ _)

/-- A sign-in that waits for the row that an `enable_mfa` has, and an enrollment after both. -/
def queued : List (Event (Operation twoSeats) Unit) :=
  [.arrive enable, .arrive signIn, .step 0 ()] ++ List.replicate 7 (.step 0 ()) ++ List.replicate 4 (.step 0 ()) ++
    [.arrive enroll, .step 0 (), .step 0 ()]

theorem no_deadlock_queued :
    ∃ w, run (step twoSeats) (World.start 0 ()) queued = some w ∧ ¬Deadlocked (handlers twoSeats) w := by
  have h : (run (step twoSeats) (World.start 0 ()) queued).any (fun w => w.requests.length = 1) = true := by
    decide +kernel
  obtain ⟨w, hr, -⟩ := exists_run_of_any h
  have hC : StepsMeet (step twoSeats) (InOrder id) (World.start 0 ()) queued := by decide +kernel
  exact ⟨w, hr, no_deadlock hC hr⟩

/-- An enrollment has the identity, and a sign-in the `users` row and the membership. -/
def enrollAndSignIn : List (Event (Operation twoSeats) Unit) :=
  [.arrive enroll, .arrive signIn, .step 0 (), .step 1 (), .step 1 ()]

def bothWays : List (Event (Operation twoSeats) Unit) :=
  [.arrive enable, .arrive enableBackwards, .step 0 (), .step 1 ()]

theorem crossed :
    (∃ w ∈ run (step twoSeats) (World.start 0 ()) enrollAndSignIn, Deadlocked (handlers twoSeats) w) ∧
      ∃ w ∈ run (step twoSeats) (World.start 0 ()) bothWays, Deadlocked (handlers twoSeats) w := by
  have h : ∀ es, (run (step twoSeats) (World.start 0 ()) es).any
      (fun w => Waits (handlers twoSeats) w 0 1 ∧ Waits (handlers twoSeats) w 1 0) = true →
      ∃ w ∈ run (step twoSeats) (World.start 0 ()) es, Deadlocked (handlers twoSeats) w := by
    intro es hes
    obtain ⟨w, hr, hw⟩ := exists_run_of_any hes
    obtain ⟨h₁, h₂⟩ := of_decide_eq_true hw
    exact ⟨w, hr, Requests.deadlocked_of_mutual h₁ h₂⟩
  exact ⟨h enrollAndSignIn (by decide +kernel), h bothWays (by decide +kernel)⟩

end Mokosh.LockOrder
