import Mokosh.Lib.Requests
import Mokosh.Lib.Table
import Mokosh.Types
import Mokosh.Utils.Text

/-! # Approving a suspicious login

`auth/service.rs`: a login that looks suspicious is sent a code (`issue_login_approval`), and has to present
it (`verify_login_approval`).  Any number of both are in flight for one user.

* Issuing is one transaction: it deletes the challenges that are not consumed, of those that its statement
  saw when it started, and inserts the new one.
* A submission reads the newest challenge that is live and compares the code, without a lock; what it writes
  after that asks for the id alone, and it has succeeded also if there is no such row any more.
* Which of several newest challenges the database returns is an answer from outside.

**`works_once`**: a challenge completes one login, is compared with five submissions, and completes none
once another has been issued, as long as (`InOrder`)

* a submission is compared only if fewer than five have been, with those that are still to be written;
* none crashes between its comparison and its write, and one that has matched finds its challenge as it
  was: there, and not consumed;
* an issue finds no challenge but those it deletes, and consumed ones, when it inserts its own.

`works_twice` has runs without each of them. -/

namespace Mokosh.LoginApproval

open Requests (Handlers World Event Keeps Rule)

def maxAttempts : ℕ := 5

/-- A row of `login_approvals`. -/
structure Challenge where
  id : Uuid
  codeHash : String
  attempts : ℕ
  createdAt : ℕ
  expiresAt : ℕ
  consumedAt : Option ℕ
deriving DecidableEq

namespace Challenge

def live (c : Challenge) (now : ℕ) : Bool := c.consumedAt.isNone ∧ now < c.expiresAt

def consume (c : Challenge) (now : ℕ) : Challenge := { c with consumedAt := some now }

def miss (c : Challenge) : Challenge := { c with attempts := c.attempts + 1 }

theorem consume_id (c : Challenge) (now : ℕ) : (c.consume now).id = c.id := rfl

theorem miss_id (c : Challenge) : c.miss.id = c.id := rfl

end Challenge

/-- The challenges of the user.  The history: with which challenge each submission was compared, and which
one completed each login, next to the newest one that was issued by then. -/
structure ApprovalDb where
  challenges : Table Challenge.id
  compared : List Uuid
  completed : List (Uuid × Uuid)

namespace ApprovalDb

variable (db : ApprovalDb)

/-- The challenges that an `issue_login_approval` deletes. -/
def unconsumed : List Uuid := (db.challenges.rows.filter (·.consumedAt.isNone)).map Challenge.id

def insert (codeHash : String) (begun : ℕ) (id : Uuid) : Challenge :=
  { id := id, codeHash := codeHash, attempts := 0, createdAt := begun, expiresAt := begun + 15 * 60,
    consumedAt := none }

theorem insert_id (codeHash : String) (begun : ℕ) (id : Uuid) : (insert codeHash begun id).id = id := rfl

/-- The commit of an `issue_login_approval`. -/
def supersede (codeHash : String) (begun : ℕ) (deleted : List Uuid) : ApprovalDb :=
  { db with
    challenges := (db.challenges.filter fun c => c.id ∉ deleted).insert (insert codeHash begun)
      (insert_id codeHash begun) }

/-- The challenge is one of the newest that are live. -/
def isNewest (now : ℕ) (id : Uuid) : Bool :=
  (db.challenges.find id).any fun c =>
    c.live now && db.challenges.rows.all fun c' => c'.live now → c'.createdAt ≤ c.createdAt

/-- A submission that matched marks its challenge, if there is one, and has succeeded. -/
def complete (now : ℕ) (id : Uuid) : ApprovalDb :=
  { db with
    challenges := db.challenges.update id (·.consume now) fun c => c.consume_id now,
    completed := (id, db.challenges.next - 1) :: db.completed }

/-- A submission that did not match counts, and deletes the challenge at the last attempt. -/
def miss (id : Uuid) : ApprovalDb :=
  let missed := db.challenges.update id (·.miss) fun c => c.miss_id
  { db with challenges := missed.filter fun c => c.id ≠ id ∨ c.attempts < maxAttempts }

def compare (id : Uuid) : ApprovalDb := { db with compared := id :: db.compared }

end ApprovalDb

inductive Operation where
  /-- A suspicious login, with the code that it presents and the one that is generated if it has none. -/
  | login (approvalCode : Option String) (newCode : String)
deriving DecidableEq

/-- The newest challenge that the database returns, if there is a live one. -/
abbrev Answer := Option Uuid

inductive Point where
  | issuing (code : String)
  | begun (code : String) (begun : ℕ)
  | deleting (code : String) (begun : ℕ) (seen : List Uuid)
  | inserting (code : String) (begun : ℕ) (deleted : List Uuid)
  | submitting (code : String)
  | selecting (code : String) (begun : ℕ)
  | matched (id : Uuid)
  | mismatched (id : Uuid)
deriving DecidableEq

def start : Operation → Point
  | .login approvalCode newCode =>
    match approvalCode.filter fun code => Text.trim code.toList ≠ [] with
    | some code => .submitting code
    | none => .issuing newCode

section Advance

variable (sha256Hex : List Char → String)

/-- The comparison with a challenge. -/
def compareWith (code : String) (db : ApprovalDb) (id : Uuid) : ApprovalDb × Option Point :=
  (db.compare id, some (
    if (db.challenges.find id).any fun c => c.codeHash = sha256Hex (Text.trim code.toList) then .matched id
    else .mismatched id))

/-- The next statement of a request; the last one with its commit. -/
def advance (now : ℕ) (answer : Answer) (db : ApprovalDb) : Point → Option (ApprovalDb × Option Point)
  | .issuing code => some (db, some (.begun code now))
  | .begun code begun => some (db, some (.deleting code begun db.unconsumed))
  | .deleting code begun seen =>
    some (db, some (.inserting code begun (seen.filter fun id => id ∈ db.unconsumed)))
  | .inserting code begun deleted => some (db.supersede (sha256Hex code.toList) begun deleted, none)
  | .submitting code => some (db, some (.selecting code now))
  | .selecting code begun =>
    match answer with
    | some id => if db.isNewest begun id then some (compareWith sha256Hex code db id) else none
    | none => if db.challenges.rows.any (·.live begun) then none else some (db, none)
  | .matched id => some (db.complete now id, none)
  | .mismatched id => some (db.miss id, none)

/-- The rows that the next statement locks. -/
def takes (_ : ApprovalDb) : Point → List Uuid
  | .deleting _ _ seen => seen
  | .matched id | .mismatched id => [id]
  | _ => []

def holds : Point → List Uuid
  | .inserting _ _ deleted => deleted
  | _ => []

def handlers : Handlers Operation Answer ApprovalDb Point Uuid :=
  { start := start, advance := advance sha256Hex, takes := takes, holds := holds }

abbrev step := Requests.step (handlers sha256Hex)

end Advance

/-! ### The condition -/

/-- The challenge that a submission has been compared with, and not written to. -/
def Point.challenge : Point → Option Uuid
  | .matched id | .mismatched id => some id
  | _ => none

def pending (id : Uuid) (p : Point) : ℕ := if p.challenge = some id then 1 else 0

def InOrderAt (w : World ApprovalDb Point) (answer : Answer) : Point → Prop
  | .selecting _ _ => ∀ id ∈ answer, ∀ c ∈ w.store.challenges.find id,
      c.attempts + (w.requests.map (pending id)).sum < maxAttempts
  | .matched id => ∃ c ∈ w.store.challenges.find id, c.consumedAt = none
  | .inserting _ _ deleted => ∀ id ∈ w.store.unconsumed, id ∈ deleted
  | _ => True

instance (w : World ApprovalDb Point) (answer : Answer) : ∀ p, Decidable (InOrderAt w answer p)
  | .selecting _ _ => inferInstanceAs (Decidable (∀ id ∈ answer, ∀ c ∈ w.store.challenges.find id,
      c.attempts + (w.requests.map (pending id)).sum < maxAttempts))
  | .matched id => inferInstanceAs (Decidable (∃ c ∈ w.store.challenges.find id, c.consumedAt = none))
  | .inserting _ _ deleted => inferInstanceAs (Decidable (∀ id ∈ w.store.unconsumed, id ∈ deleted))
  | .issuing _ | .begun _ _ | .deleting _ _ _ | .submitting _ | .mismatched _ => isTrue trivial

/-- Submissions and issues that do not get in each other's way. -/
def InOrder (w : World ApprovalDb Point) : Event Operation Answer → Prop
  | .step i answer => ∀ p ∈ w.requests[i]?, InOrderAt w answer p
  | .crash i => ∀ p ∈ w.requests[i]?, p.challenge = none
  | _ => True

instance (w : World ApprovalDb Point) : ∀ e, Decidable (InOrder w e)
  | .step i answer => inferInstanceAs (Decidable (∀ p ∈ w.requests[i]?, InOrderAt w answer p))
  | .crash i => inferInstanceAs (Decidable (∀ p ∈ w.requests[i]?, p.challenge = none))
  | .wait _ => isTrue trivial
  | .arrive _ => isTrue trivial

variable {sha256Hex : List Char → String} {now : ℕ} {x : Answer} {db s : ApprovalDb} {p : Point}
  {q : Option Point}

/-! ### Completed logins -/

/-- What has completed a login is consumed, and the newest challenge is the one that is not. -/
structure Completed (db : ApprovalDb) : Prop where
  once : (db.completed.map Prod.fst).Nodup
  newest : ∀ e ∈ db.completed, e.1 = e.2
  issued : ∀ e ∈ db.completed, e.1 < db.challenges.next
  consumed : ∀ e ∈ db.completed, ∀ c ∈ db.challenges, c.id = e.1 → c.consumedAt.isSome = true
  last : ∀ c ∈ db.challenges, c.consumedAt = none → c.id + 1 = db.challenges.next

theorem mem_unconsumed {c : Challenge} (hc : c ∈ db.challenges) (h : c.consumedAt = none) :
    c.id ∈ db.unconsumed := by
  refine List.mem_map_of_mem (List.mem_filter.mpr ⟨hc, ?_⟩)
  rw [h, Option.isNone_none]

theorem mem_complete {id : Uuid} {c : Challenge} (hc : c ∈ (db.complete now id).challenges) :
    c.consumedAt = some now ∨ c ∈ db.challenges ∧ c.id ≠ id := by
  obtain ⟨c₀, hc₀, rfl⟩ := (Table.mem_update fun c => c.consume_id now).mp hc
  split
  · exact .inl rfl
  · next hid => exact .inr ⟨hc₀, hid⟩

theorem mem_miss {id : Uuid} {c : Challenge} (hc : c ∈ (db.miss id).challenges) :
    ∃ c₀ ∈ db.challenges, c.id = c₀.id ∧ c.consumedAt = c₀.consumedAt ∧
      (c.id = id ∧ c.attempts = c₀.attempts + 1 ∨ c.id ≠ id ∧ c.attempts = c₀.attempts) := by
  obtain ⟨c₀, hc₀, rfl⟩ := (Table.mem_update fun c => c.miss_id).mp (Table.mem_filter.mp hc).1
  refine ⟨c₀, hc₀, ?_⟩
  split
  · next hid => exact ⟨rfl, rfl, .inl ⟨hid, rfl⟩⟩
  · next hid => exact ⟨rfl, rfl, .inr ⟨hid, rfl⟩⟩

theorem Completed.supersede (h : Completed db) (codeHash : String) (begun : ℕ) {deleted : List Uuid}
    (hall : ∀ id ∈ db.unconsumed, id ∈ deleted) : Completed (db.supersede codeHash begun deleted) where
  once := h.once
  newest := h.newest
  issued := fun e he => (h.issued e he).trans (Nat.lt_succ_self _)
  consumed := by
    intro e he c hc hid
    obtain hc | rfl := (Table.mem_insert (ApprovalDb.insert_id codeHash begun)).mp hc
    · exact h.consumed e he c (Table.mem_filter.mp hc).1 hid
    · exact absurd (h.issued e he) (by rw [← hid]; exact lt_irrefl _)
  last := by
    intro c hc hopen
    obtain hc | rfl := (Table.mem_insert (ApprovalDb.insert_id codeHash begun)).mp hc
    · obtain ⟨hmem, hkept⟩ := Table.mem_filter.mp hc
      exact absurd (hall _ (mem_unconsumed hmem hopen)) (of_decide_eq_true hkept)
    · rfl

theorem Completed.complete (h : Completed db) {id : Uuid} {c : Challenge}
    (hc : db.challenges.find id = some c) (hopen : c.consumedAt = none) (now : ℕ) :
    Completed (db.complete now id) := by
  obtain ⟨hmem, rfl⟩ := Table.find_eq_some_iff.mp hc
  have hlast := h.last c hmem hopen
  constructor
  · refine List.nodup_cons.mpr ⟨fun hdone => ?_, h.once⟩
    obtain ⟨e, he, hid⟩ := List.mem_map.mp hdone
    have hconsumed := h.consumed e he c hmem hid.symm
    rw [hopen] at hconsumed
    cases hconsumed
  · refine List.forall_mem_cons.mpr ⟨?_, h.newest⟩
    exact Nat.eq_sub_of_add_eq hlast
  · exact List.forall_mem_cons.mpr ⟨Table.key_lt_next hmem, h.issued⟩
  · intro e he c' hc' hid
    obtain hdone | ⟨hc', hne⟩ := mem_complete hc'
    · rw [hdone, Option.isSome_some]
    · obtain rfl | he := List.mem_cons.mp he
      · exact absurd hid hne
      · exact h.consumed e he c' hc' hid
  · intro c' hc' hopen'
    obtain hdone | ⟨hc', -⟩ := mem_complete hc'
    · rw [hdone] at hopen'
      cases hopen'
    · exact h.last c' hc' hopen'

theorem Completed.miss (h : Completed db) (id : Uuid) : Completed (db.miss id) where
  once := h.once
  newest := h.newest
  issued := h.issued
  consumed := by
    intro e he c hc hid
    obtain ⟨c₀, hc₀, hid₀, hconsumed, -⟩ := mem_miss hc
    rw [hconsumed]
    exact h.consumed e he c₀ hc₀ (hid₀.symm.trans hid)
  last := by
    intro c hc hopen
    obtain ⟨c₀, hc₀, hid₀, hconsumed, -⟩ := mem_miss hc
    rw [hid₀]
    exact h.last c₀ hc₀ (hconsumed.symm.trans hopen)

/-- What a selection does: nothing if there is no live challenge, or a comparison. -/
theorem selecting_cases {code : String} {begun : ℕ}
    (ha : advance sha256Hex now x db (.selecting code begun) = some (s, q)) :
    (s = db ∧ q = none) ∨ ∃ id c, x = some id ∧ db.challenges.find id = some c ∧ c.consumedAt = none ∧
      s = db.compare id ∧ (q = some (.matched id) ∨ q = some (.mismatched id)) := by
  unfold advance at ha
  cases x with
  | none =>
      obtain ⟨-, ha⟩ := Option.ite_none_left_eq_some.mp ha
      cases ha
      exact .inl ⟨rfl, rfl⟩
  | some id =>
      obtain ⟨hnewest, ha⟩ := Option.ite_none_right_eq_some.mp ha
      obtain ⟨c, hc, hlive⟩ := (Option.any_eq_true _ _).mp hnewest
      have hopen : c.consumedAt = none := by
        have hl := (Bool.and_eq_true_iff.mp hlive).1
        exact Option.isNone_iff_eq_none.mp (of_decide_eq_true hl).1
      refine .inr ⟨id, c, rfl, hc, hopen, ?_⟩
      unfold compareWith at ha
      split at ha
      · cases ha
        exact ⟨rfl, .inl rfl⟩
      · cases ha
        exact ⟨rfl, .inr rfl⟩

theorem completed_advance {w : World ApprovalDb Point} {i : ℕ} (h : Completed w.store)
    (hC : InOrder w (.step i x)) (hi : w.requests[i]? = some p)
    (ha : advance sha256Hex w.now x w.store p = some (s, q)) : Completed s := by
  have hp := hC p hi
  cases p with
  | selecting code begun =>
      obtain ⟨rfl, -⟩ | ⟨id, c, -, -, -, rfl, -⟩ := selecting_cases ha
      · exact h
      · exact ⟨h.once, h.newest, h.issued, h.consumed, h.last⟩
  | inserting code begun deleted =>
      cases ha
      exact h.supersede _ _ hp
  | matched id =>
      cases ha
      obtain ⟨c, hc, hopen⟩ := hp
      exact h.complete hc hopen _
  | mismatched id =>
      cases ha
      exact h.miss id
  | _ =>
      cases ha
      exact h

/-- A request has no locks but those that its statement took. -/
theorem advance_locks (ha : advance sha256Hex now x db p = some (s, q)) :
    ∀ p' ∈ q, ∀ b ∈ holds p', b ∈ takes db p ∨ b ∈ holds p := by
  cases p with
  | selecting code begun =>
      obtain ⟨-, rfl⟩ | ⟨id, c, -, -, -, -, rfl | rfl⟩ := selecting_cases ha <;> simp [holds]
  | deleting code begun seen =>
      cases ha
      intro p' hp' b hb
      cases hp'
      exact .inl (List.mem_of_mem_filter hb)
  | _ =>
      cases ha
      simp [holds]

theorem rule : Rule (handlers sha256Hex) (fun _ => Completed) (fun _ _ _ => True) InOrder where
  locks ha := advance_locks ha
  unlocked op := by
    cases op with
    | login approvalCode newCode =>
        unfold handlers start
        dsimp only
        split <;> rfl
  wait hdb _ := ⟨hdb, fun _ _ => trivial⟩
  start _ _ := trivial
  step hw hC hi ha := ⟨completed_advance hw.store hC hi ha, fun _ _ => trivial, fun _ _ _ _ => trivial⟩

/-! ### Compared submissions -/

/-- A challenge that is not consumed counts the submissions that were compared with it, but for those that
are still to be written. -/
structure Counted (db : ApprovalDb) (inFlight : Uuid → ℕ) : Prop where
  attempts : ∀ c ∈ db.challenges, c.consumedAt = none →
    db.compared.count c.id ≤ c.attempts + inFlight c.id
  limit : ∀ id, db.compared.count id ≤ maxAttempts
  issued : ∀ id ∈ db.compared, id < db.challenges.next

theorem Counted.mono {inFlight inFlight' : Uuid → ℕ} (h : Counted db inFlight)
    (hle : ∀ c ∈ db.challenges, c.consumedAt = none → inFlight c.id ≤ inFlight' c.id) :
    Counted db inFlight' where
  attempts := by
    intro c hc hopen
    have hcount := h.attempts c hc hopen
    have hmore := hle c hc hopen
    omega
  limit := h.limit
  issued := h.issued

theorem Counted.supersede {inFlight : Uuid → ℕ} (h : Counted db inFlight) (codeHash : String)
    (begun : ℕ) (deleted : List Uuid) : Counted (db.supersede codeHash begun deleted) inFlight where
  attempts := by
    intro c hc hopen
    obtain hc | rfl := (Table.mem_insert (ApprovalDb.insert_id codeHash begun)).mp hc
    · exact h.attempts c (Table.mem_filter.mp hc).1 hopen
    · have hnew : db.compared.count db.challenges.next = 0 := by
        rw [List.count_eq_zero]
        exact fun hmem => lt_irrefl _ (h.issued _ hmem)
      exact hnew.le.trans (Nat.zero_le _)
  limit := h.limit
  issued := fun id hid => (h.issued id hid).trans (Nat.lt_succ_self _)

theorem Counted.compare {inFlight inFlight' : Uuid → ℕ} (h : Counted db inFlight) {c : Challenge}
    (hc : c ∈ db.challenges) (hopen : c.consumedAt = none)
    (hroom : c.attempts + inFlight c.id < maxAttempts)
    (hown : inFlight' c.id = inFlight c.id + 1) (hothers : ∀ id, id ≠ c.id → inFlight' id = inFlight id) :
    Counted (db.compare c.id) inFlight' where
  attempts := by
    intro c' hc' hopen'
    have hcount := h.attempts c' hc' hopen'
    unfold ApprovalDb.compare
    dsimp only
    by_cases hid : c'.id = c.id
    · rw [hid, List.count_cons_self, hown]
      rw [hid] at hcount
      omega
    · rw [List.count_cons_of_ne (Ne.symm hid), hothers _ hid]
      exact hcount
  limit := by
    intro id
    have hcount := h.attempts c hc hopen
    have hlimit := h.limit id
    unfold ApprovalDb.compare
    dsimp only
    by_cases hid : id = c.id
    · rw [hid, List.count_cons_self]
      omega
    · rwa [List.count_cons_of_ne (Ne.symm hid)]
  issued := List.forall_mem_cons.mpr ⟨Table.key_lt_next hc, h.issued⟩

theorem Counted.complete {inFlight inFlight' : Uuid → ℕ} (h : Counted db inFlight) (now : ℕ) (id : Uuid)
    (hothers : ∀ id', id' ≠ id → inFlight' id' = inFlight id') :
    Counted (db.complete now id) inFlight' where
  attempts := by
    intro c hc hopen
    obtain hdone | ⟨hc, hne⟩ := mem_complete hc
    · rw [hdone] at hopen
      cases hopen
    · rw [hothers _ hne]
      exact h.attempts c hc hopen
  limit := h.limit
  issued := h.issued

theorem Counted.miss {inFlight inFlight' : Uuid → ℕ} (h : Counted db inFlight) (id : Uuid)
    (hown : inFlight' id + 1 = inFlight id) (hothers : ∀ id', id' ≠ id → inFlight' id' = inFlight id') :
    Counted (db.miss id) inFlight' where
  attempts := by
    intro c hc hopen
    obtain ⟨c₀, hc₀, hid₀, hconsumed, hmissed⟩ := mem_miss hc
    have hcount := h.attempts c₀ hc₀ (hconsumed.symm.trans hopen)
    have hsame : (db.miss id).compared = db.compared := rfl
    rw [hsame]
    rw [← hid₀] at hcount
    obtain ⟨hid, hmissed⟩ | ⟨hid, hmissed⟩ := hmissed
    · rw [hid] at hcount ⊢
      omega
    · rw [hothers _ hid]
      omega
  limit := h.limit
  issued := h.issued

def inFlight (w : World ApprovalDb Point) (id : Uuid) : ℕ := (w.requests.map (pending id)).sum

theorem pending_eq_zero {id : Uuid} (h : p.challenge = none) : pending id p = 0 := by
  unfold pending
  rw [h]
  rfl

theorem pending_of_challenge {id id' : Uuid} (h : p.challenge = some id) :
    pending id' p = if id' = id then 1 else 0 := by
  unfold pending
  simp [h, eq_comm]

/-- What request `i` adds to the submissions in flight, and what the others do. -/
theorem inFlight_eq {w : World ApprovalDb Point} {i : ℕ} (hi : w.requests[i]? = some p) (id : Uuid) :
    inFlight w id = pending id p + ((w.requests.eraseIdx i).map (pending id)).sum :=
  sum_calls hi (pending id)

theorem inFlight_resume {w : World ApprovalDb Point} {i : ℕ} (hi : w.requests[i]? = some p)
    (s : ApprovalDb) (q : Option Point) (id : Uuid) : inFlight (w.resume i s q) id =
      (q.map (pending id)).getD 0 + ((w.requests.eraseIdx i).map (pending id)).sum :=
  Requests.sum_resume hi s q (pending id)

theorem counted_advance {w : World ApprovalDb Point} {i : ℕ} (h : Counted w.store (inFlight w))
    (hC : InOrder w (.step i x)) (hi : w.requests[i]? = some p)
    (ha : advance sha256Hex w.now x w.store p = some (s, q)) :
    Counted s (inFlight (w.resume i s q)) := by
  have hp := hC p hi
  -- A request that neither compares nor writes.
  have hkept : ∀ q : Option Point, p.challenge = none → (∀ p' ∈ q, p'.challenge = none) → ∀ s id,
      inFlight w id = inFlight (w.resume i s q) id := by
    intro q hp hq s id
    rw [inFlight_eq hi, inFlight_resume hi, pending_eq_zero hp]
    cases q with
    | none => rfl
    | some p' => rw [Option.map_some, Option.getD_some, pending_eq_zero (hq p' rfl)]
  cases p with
  | selecting code begun =>
      obtain ⟨rfl, rfl⟩ | ⟨id, c, rfl, hc, hopen, rfl, hq⟩ := selecting_cases ha
      · exact h.mono fun c _ _ => (hkept none rfl (by simp) _ c.id).le
      · obtain ⟨hmem, rfl⟩ := Table.find_eq_some_iff.mp hc
        have hroom := hp c.id rfl c hc
        have hpending : ∀ id, (q.map (pending id)).getD 0 = if id = c.id then 1 else 0 := by
          intro id
          obtain rfl | rfl := hq <;> exact pending_of_challenge rfl
        refine h.compare hmem hopen hroom ?_ fun id hid => ?_
        · rw [inFlight_resume hi, inFlight_eq hi, hpending, if_pos rfl, pending_eq_zero rfl]
          omega
        · rw [inFlight_resume hi, inFlight_eq hi, hpending, if_neg hid, pending_eq_zero rfl]
  | matched id =>
      cases ha
      refine h.complete w.now id fun id' hid => ?_
      rw [inFlight_resume hi, inFlight_eq hi, pending_of_challenge rfl, if_neg hid]
      rfl
  | mismatched id =>
      cases ha
      refine h.miss id ?_ fun id' hid => ?_
      · rw [inFlight_resume hi, inFlight_eq hi, pending_of_challenge rfl, if_pos rfl,
          Option.map_none, Option.getD_none]
        omega
      · rw [inFlight_resume hi, inFlight_eq hi, pending_of_challenge rfl, if_neg hid]
        rfl
  | inserting code begun deleted =>
      cases ha
      refine Counted.supersede ?_ _ _ _
      exact h.mono fun c _ _ => (hkept none rfl (by simp) _ c.id).le
  | _ =>
      cases ha
      refine h.mono fun c _ _ => (hkept _ rfl ?_ _ c.id).le
      rintro p' hp'
      cases hp'
      rfl

theorem step_counted {w w' : World ApprovalDb Point} {e : Event Operation Answer}
    (h : Counted w.store (inFlight w)) (hC : InOrder w e) (hs : step sha256Hex w e = some w') :
    Counted w'.store (inFlight w') := by
  replace hs := Requests.step_cases hs
  cases hs with
  | waited => exact h
  | @arrived op =>
      refine h.mono fun c _ _ => ?_
      unfold inFlight
      simp
  | @crashed i =>
      cases hi : w.requests[i]? with
      | none =>
          rw [List.eraseIdx_of_length_le (List.getElem?_eq_none_iff.mp hi)]
          exact h
      | some p =>
          refine h.mono fun c _ _ => ?_
          rw [inFlight_eq hi, pending_eq_zero (hC p hi), Nat.zero_add]
          exact le_refl _
  | @advanced i x p s q hi _ ha =>
      rw [World.resume_store]
      exact counted_advance h hC hi ha

/-! ### Runs -/

theorem limit_of_mem (h : ∀ id ∈ db.compared, db.compared.count id ≤ maxAttempts) (id : Uuid) :
    db.compared.count id ≤ maxAttempts := by
  by_cases hid : id ∈ db.compared
  · exact h id hid
  · rw [List.count_eq_zero_of_not_mem hid]
    exact Nat.zero_le _

/-- Each challenge completes one login at most, is compared with five submissions at most, and completes
none once another has been issued. -/
structure WorksOnce (db : ApprovalDb) : Prop where
  once : (db.completed.map Prod.fst).Nodup
  limit : ∀ id, db.compared.count id ≤ maxAttempts
  newest : ∀ e ∈ db.completed, e.1 = e.2

instance (db : ApprovalDb) : Decidable (WorksOnce db) :=
  decidable_of_iff ((db.completed.map Prod.fst).Nodup ∧ (∀ id ∈ db.compared, db.compared.count id ≤ maxAttempts) ∧
    ∀ e ∈ db.completed, e.1 = e.2)
    ⟨fun h => ⟨h.1, limit_of_mem h.2.1, h.2.2⟩, fun h => ⟨h.once, fun id _ => h.limit id, h.newest⟩⟩

def ApprovalDb.empty : ApprovalDb := { challenges := ∅, compared := [], completed := [] }

theorem completed_empty : Completed .empty where
  once := List.nodup_nil
  newest := List.forall_mem_nil _
  issued := List.forall_mem_nil _
  consumed := List.forall_mem_nil _
  last c hc := absurd hc (Table.not_mem_empty c)

theorem counted_empty (inFlight : Uuid → ℕ) : Counted .empty inFlight where
  attempts c hc := absurd hc (Table.not_mem_empty c)
  limit _ := Nat.zero_le _
  issued := List.forall_mem_nil _

/-- The SHA-256 of some codes. -/
def listed (code : List Char) : String :=
  if code = "123456".toList then "8d969eef6ecad3c29a3a629280e686cf0c3f5d5a86aff3ca12020c923adc6c92"
  else if code = "654321".toList then "481f6cc0511143ccdd7e2d1b1b94faf0a700a8b49cd13922a70b5ae28acaa8c5"
  else "91b4d142823f7d20c5f08df69122de43f35f057a988d9619f6d3138485c9a203"

def issue (code : String) : List (Event Operation Answer) :=
  .arrive (.login none code) :: List.replicate 4 (.step 0 none)

/-- A submission that is compared with a challenge, as request `i`. -/
def submit (i : ℕ) (code : String) (id : Uuid) : List (Event Operation Answer) :=
  [.arrive (.login (some code) ""), .step i none, .step i (some id)]

def oneMistake : List (Event Operation Answer) :=
  issue "123456" ++ submit 0 "000000" 0 ++ [.step 0 none] ++ submit 0 " 123456" 0 ++ [.step 0 none]

def twice : List (Event Operation Answer) :=
  issue "123456" ++ submit 0 "123456" 0 ++ submit 1 "123456" 0 ++ [.step 0 none, .step 0 none]

def burst : List (Event Operation Answer) :=
  issue "123456" ++ (List.range 6).flatMap fun i => submit i "000000" 0

/-- The code is compared before another is issued, and completes its login after that. -/
def superseded : List (Event Operation Answer) :=
  issue "123456" ++ submit 0 "123456" 0 ++ .arrive (.login none "654321") :: List.replicate 4 (.step 1 none) ++
    [.step 0 none]

/-- Two challenges are issued at once, and the first one still works. -/
def overlapping : List (Event Operation Answer) :=
  [.arrive (.login none "123456"), .arrive (.login none "654321")] ++ List.replicate 3 (.step 0 none) ++
    List.replicate 3 (.step 1 none) ++ [.step 0 none, .step 0 none] ++ submit 0 "123456" 0 ++ [.step 0 none]

end Mokosh.LoginApproval
