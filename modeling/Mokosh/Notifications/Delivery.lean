import Mokosh.Notifications.Worker

/-! # What the queue promises

A row that was sent or has failed stays so, and no row goes to the mailer more than six times, as long as

* a worker that settles still has its claims: each row is `sending`, at the attempt that it claimed, and
* no claim takes over a row that is `sending` after six attempts.

**`settled_for_good`** is that for whole runs, from the empty queue.  `late_settle` has a run without the
first, in which a worker that is slower than its claims puts a sent row back on the queue, and one without
the second, in which each worker crashes after it has sent, and the next takes the row over.

The mails of a row are counted by its attempts: every mail that was asked for, and every one that a worker
still has to ask for, is an attempt of its own (`advance_counts`). -/

namespace Mokosh.Notifications

open Requests (Handlers World Event Keeps Rule)

def QueueDb.empty : QueueDb := { notifications := ∅, mailed := [] }

/-- The attempts made on a row. -/
def QueueDb.attempts (db : QueueDb) (id : Uuid) : ℕ :=
  ((db.notifications.find id).map Notification.attemptCount).getD 0

variable {now : ℕ} {x : Answer} {db s : QueueDb} {p : Point} {q : Option Point}

/-! ### A batch -/

section Batch

variable {limit : ℕ} {locked : List Uuid}

theorem mem_due {n : Notification} (h : n ∈ db.due now limit locked) :
    n ∈ db.notifications ∧ n.isDue now = true := by
  have hsorted := List.mem_of_mem_take h
  rw [List.mem_insertionSort] at hsorted
  obtain ⟨hmem, hdue⟩ := List.mem_filter.mp hsorted
  exact ⟨hmem, (of_decide_eq_true hdue).1⟩

theorem due_nodup : ((db.due now limit locked).map Notification.id).Nodup := by
  unfold QueueDb.due
  refine List.Nodup.sublist ((List.take_sublist _ _).map _) ?_
  refine ((List.perm_insertionSort _ _).map _).nodup_iff.mpr ?_
  exact db.notifications.nodup.sublist (List.filter_sublist.map _)

/-- What is due is on the queue, or with a worker whose claim has expired. -/
theorem status_of_isDue {n : Notification} (h : n.isDue now = true) :
    n.status = .pending ∨ n.status = .sending := by
  unfold Notification.isDue at h
  split at h
  · next hs _ => exact .inl hs
  · next hs _ => exact .inl hs
  · next hs _ => exact .inr hs
  · cases h

theorem find_claim {id : Uuid} {n : Notification} (hn : db.notifications.find id = some n) :
    (db.claim now limit locked).1.notifications.find id =
      some (n.claimAmong now ((db.due now limit locked).map Notification.id)) := by
  unfold QueueDb.claim
  dsimp only
  rw [Table.find_map, hn]
  rfl

/-- A row is claimed if it is due. -/
theorem mem_of_mem_due_ids {id : Uuid} {n : Notification} (hn : db.notifications.find id = some n)
    (h : id ∈ (db.due now limit locked).map Notification.id) : n ∈ db.due now limit locked := by
  obtain ⟨m, hm, rfl⟩ := List.mem_map.mp h
  rwa [Table.eq_of_find hn (mem_due hm).1 rfl] at hm

theorem attempts_claim (db : QueueDb) (now limit : ℕ) (locked : List Uuid) (id : Uuid) :
    (db.claim now limit locked).1.attempts id =
    db.attempts id + ((db.due now limit locked).map Notification.id).count id := by
  unfold QueueDb.attempts
  cases hn : db.notifications.find id with
  | none =>
      have hfind : (db.claim now limit locked).1.notifications.find id = none := by
        unfold QueueDb.claim
        dsimp only
        rw [Table.find_map, hn]
        rfl
      have hcount : ((db.due now limit locked).map Notification.id).count id = 0 := by
        rw [List.count_eq_zero]
        intro hmem
        obtain ⟨m, hm, hid⟩ := List.mem_map.mp hmem
        exact Table.find_eq_none_iff.mp hn m (mem_due hm).1 hid
      rw [hfind, hcount]
      rfl
  | some n =>
      have hid : n.id = id := Table.key_of_find hn
      rw [find_claim hn, Option.map_some, Option.map_some, Option.getD_some, Option.getD_some]
      unfold Notification.claimAmong
      rw [hid]
      split
      · next hmem =>
          rw [List.count_eq_one_of_mem due_nodup hmem]
          rfl
      · next hmem =>
          rw [List.count_eq_zero_of_not_mem hmem]
          rfl

end Batch

/-! ### A worker in time -/

/-- The claims of a worker that is about to settle stand: each row is `sending`, at its attempt. -/
def Owned (db : QueueDb) (claimed : List ClaimedRow) : Prop :=
  ∀ c ∈ claimed, ∃ n ∈ db.notifications.find c.id, n.status = .sending ∧ n.attemptCount = c.attempt

def Timely (now : ℕ) (locked : List Uuid) (db : QueueDb) : Point → Prop
  | .claiming limit => ∀ n ∈ db.due now limit locked, n.status = .sending → n.attemptCount < 6
  | .sending claimed _ [] _ _ => Owned db claimed
  | _ => True

/-- No worker settles what it has lost, and none takes over a row that has had its six attempts. -/
def InTime (w : World QueueDb Point) : Event Operation Answer → Prop
  | .step i x => ∀ p ∈ w.requests[i]?, Timely w.now x.lockedIds w.store p
  | _ => True

instance (now : ℕ) (locked : List Uuid) (db : QueueDb) : ∀ p, Decidable (Timely now locked db p)
  | .claiming limit => inferInstanceAs (Decidable
      (∀ n ∈ db.due now limit locked, n.status = .sending → n.attemptCount < 6))
  | .sending claimed _ [] _ _ => inferInstanceAs (Decidable (∀ c ∈ claimed,
      ∃ n ∈ db.notifications.find c.id, n.status = .sending ∧ n.attemptCount = c.attempt))
  | .sending _ _ (_ :: _) _ _ => isTrue trivial
  | .dispatching _ => isTrue trivial
  | .resolving _ => isTrue trivial

instance (w : World QueueDb Point) : ∀ e, Decidable (InTime w e)
  | .step i x => inferInstanceAs (Decidable (∀ p ∈ w.requests[i]?, Timely w.now x.lockedIds w.store p))
  | .wait _ => isTrue trivial
  | .arrive _ => isTrue trivial
  | .crash _ => isTrue trivial

/-! ### Attempts -/

/-- The attempts made on a row: six at most, and less than six if it is on the queue. -/
structure Notification.Bounded (n : Notification) : Prop where
  attempts : n.attemptCount ≤ 6
  pending : n.status = .pending → n.attemptCount ≤ 5

def Bounded (db : QueueDb) : Prop := ∀ n ∈ db.notifications, n.Bounded

/-- An outcome of one of the rows claimed: it has failed, or it goes back on the queue after one of its
first five attempts. -/
def Settlement.Of (claimed : List ClaimedRow) (s : Settlement) : Prop :=
  ∃ c ∈ claimed, c.id = s.id ∧ (s.status = .failed ∨ s.status = .pending ∧ c.attempt ≤ 5)

/-- What a worker has in hand is what it claimed. -/
structure Batch (claimed rest : List ClaimedRow) (sentIds : List Uuid)
    (settlements : List Settlement) : Prop where
  rest : rest ⊆ claimed
  sent : ∀ id ∈ sentIds, ∃ c ∈ claimed, c.id = id
  settled : ∀ s ∈ settlements, s.Of claimed

def Holding : Point → Prop
  | .sending claimed _ rest sentIds settlements => Batch claimed rest sentIds settlements
  | _ => True

theorem of_ofError {claimed : List ClaimedRow} {row : ClaimedRow} (h : row ∈ claimed)
    (e : DeliveryError) : (Settlement.ofError row e).Of claimed := by
  cases e with
  | permanent message => exact ⟨row, h, rfl, .inl rfl⟩
  | transient message =>
      unfold Settlement.ofError
      dsimp only
      split
      · exact ⟨row, h, rfl, .inl rfl⟩
      · next secs hsecs =>
          obtain ⟨hlt, -⟩ := List.getElem?_eq_some_iff.mp hsecs
          have hlen : backoffSecs.length = 5 := rfl
          exact ⟨row, h, rfl, .inr ⟨rfl, by omega⟩⟩

/-- A row that was sent or has failed. -/
def Notification.Settled (n : Notification) : Prop := n.status = .sent ∨ n.status = .failed

/-- What is settled in `db` is settled so in `db'`. -/
def Follows (db db' : QueueDb) : Prop :=
  ∀ id n, db.notifications.find id = some n → n.Settled →
    ∃ n', db'.notifications.find id = some n' ∧ n'.status = n.status

theorem Follows.refl (db : QueueDb) : Follows db db := fun _ n hn _ => ⟨n, hn, rfl⟩

theorem Follows.trans {s t u : QueueDb} (h : Follows s t) (h' : Follows t u) : Follows s u := by
  intro id n hn hs
  obtain ⟨n', hn', hstatus⟩ := h id n hn hs
  obtain ⟨n'', hn'', hstatus'⟩ := h' id n' hn' (by rwa [Notification.Settled, hstatus])
  exact ⟨n'', hn'', hstatus'.trans hstatus⟩

section Claim

variable {limit : ℕ} {locked : List Uuid}

theorem bounded_claim (hdb : Bounded db)
    (hC : ∀ n ∈ db.due now limit locked, n.status = .sending → n.attemptCount < 6) :
    Bounded (db.claim now limit locked).1 := by
  intro n' hn'
  obtain ⟨n, hn, rfl⟩ := List.mem_map.mp hn'
  have hb : n.Bounded := hdb n hn
  unfold Notification.claimAmong
  split
  · next hid =>
      have hdue := mem_of_mem_due_ids (Table.find_key hn) hid
      refine ⟨?_, fun hs => Status.noConfusion hs⟩
      obtain hs | hs := status_of_isDue (mem_due hdue).2
      · exact Nat.succ_le_succ (hb.pending hs)
      · exact hC n hdue hs
  · exact hb

/-- A claim takes no row that is settled. -/
theorem follows_claim : Follows db (db.claim now limit locked).1 := by
  intro id n hn hs
  refine ⟨_, find_claim hn, ?_⟩
  unfold Notification.claimAmong
  split
  · next hid =>
      rw [Table.key_of_find hn] at hid
      have hdue := mem_of_mem_due_ids hn hid
      have hopen := status_of_isDue (mem_due hdue).2
      obtain hs | hs := hs
      · simp [hs] at hopen
      · simp [hs] at hopen
  · rfl

end Claim

section Settle

variable {claimed rest : List ClaimedRow} {sentIds : List Uuid} {settlements : List Settlement}

theorem find_settle {id : Uuid} {n : Notification} (hn : db.notifications.find id = some n) :
    (db.settle now sentIds settlements).notifications.find id =
      some ((n.markSentAmong now sentIds).settleAmong now settlements) := by
  unfold QueueDb.settle
  dsimp only
  rw [Table.find_map, Table.find_map, hn]
  rfl

/-- What settling makes of a row of the batch, and of the others. -/
theorem settled_cases (hb : Batch claimed rest sentIds settlements) (now : ℕ) (n : Notification) :
    (∃ c ∈ claimed, c.id = n.id ∧
      (((n.markSentAmong now sentIds).settleAmong now settlements).status = .pending → c.attempt ≤ 5)) ∨
    (n.markSentAmong now sentIds).settleAmong now settlements = n := by
  unfold Notification.settleAmong
  rw [Notification.markSentAmong_id]
  cases hfind : settlements.find? fun s => s.id = n.id with
  | some s =>
      obtain ⟨c, hc, hid, hs⟩ := hb.settled s (List.mem_of_find?_eq_some hfind)
      have hsid : s.id = n.id := by simpa using List.find?_some hfind
      refine .inl ⟨c, hc, hid.trans hsid, fun hpending => ?_⟩
      obtain hs | ⟨-, hs⟩ := hs
      · exact Status.noConfusion (hs.symm.trans hpending)
      · exact hs
  | none =>
      unfold Notification.markSentAmong
      split
      · next hsent =>
          obtain ⟨c, hc, hid⟩ := hb.sent _ hsent
          exact .inl ⟨c, hc, hid, fun hpending => Status.noConfusion hpending⟩
      · exact .inr rfl

theorem settled_attemptCount (n : Notification) :
    ((n.markSentAmong now sentIds).settleAmong now settlements).attemptCount = n.attemptCount := by
  unfold Notification.settleAmong Notification.markSentAmong
  split <;> cases settlements.find? _ <;> rfl

theorem bounded_settle (hdb : Bounded db) (hb : Batch claimed rest sentIds settlements)
    (hC : Owned db claimed) : Bounded (db.settle now sentIds settlements) := by
  intro n' hn'
  obtain ⟨m, hm, rfl⟩ := List.mem_map.mp hn'
  obtain ⟨n, hn, rfl⟩ := List.mem_map.mp hm
  have hbounded : n.Bounded := hdb n hn
  obtain ⟨c, hc, hid, hpending⟩ | hsame := settled_cases hb now n
  · obtain ⟨n₀, hn₀, -, hattempt⟩ := hC c hc
    have hfind : db.notifications.find c.id = some n₀ := hn₀
    obtain rfl : n = n₀ := Table.eq_of_find hfind hn hid.symm
    constructor
    · rw [settled_attemptCount]
      exact hbounded.attempts
    · rw [settled_attemptCount, hattempt]
      exact hpending
  · rwa [hsame]

/-- A worker that has its claims settles no row that is settled. -/
theorem follows_settle (hb : Batch claimed rest sentIds settlements) (hC : Owned db claimed) :
    Follows db (db.settle now sentIds settlements) := by
  intro id n hn hs
  refine ⟨_, find_settle hn, ?_⟩
  obtain ⟨c, hc, hid, -⟩ | hsame := settled_cases hb now n
  · obtain ⟨n₀, hn₀, hsending, -⟩ := hC c hc
    have hfind : db.notifications.find c.id = some n₀ := hn₀
    obtain rfl : n = n₀ := Table.eq_of_find hfind (Table.find_mem hn) hid.symm
    obtain hs | hs := hs
    · exact Status.noConfusion (hs.symm.trans hsending)
    · exact Status.noConfusion (hs.symm.trans hsending)
  · rw [hsame]

end Settle

/-! ### Runs -/

theorem bounded_insert (hdb : Bounded db) (new : NewNotification) :
    Bounded { db with notifications := db.notifications.insert (new.row now) } := by
  intro n hn
  obtain hn | rfl := (Table.mem_insert).mp hn
  · exact hdb n hn
  · exact ⟨Nat.zero_le _, fun _ => Nat.zero_le _⟩

theorem find_insert_of_find {id : Uuid} {n : Notification} (new : NewNotification)
    (hn : db.notifications.find id = some n) :
    (db.notifications.insert (new.row now)).find id = some n := by
  rw [Table.find_insert, if_neg (Table.find_lt_next hn).ne, hn]

@[simp] theorem hand_notifications (handed : Bool) (id : Uuid) :
    (db.hand handed id).notifications = db.notifications := by
  unfold QueueDb.hand
  split <;> rfl

/-- Delivering a row settles it as sent, or as not delivered. -/
theorem advance_row {claimed rest : List ClaimedRow} {row : ClaimedRow} {addresses : Addresses}
    {sentIds : List Uuid} {settlements : List Settlement}
    (ha : advance now x db (.sending claimed addresses (row :: rest) sentIds settlements) = some (s, q)) :
    ∃ handed, s = db.hand handed row.id ∧
      (q = some (.sending claimed addresses rest (row.id :: sentIds) settlements) ∨
        ∃ e, q = some (.sending claimed addresses rest sentIds (.ofError row e :: settlements))) := by
  obtain ⟨rfl, rfl⟩ := Prod.ext_iff.mp (Option.some.inj ha)
  refine ⟨(deliver row addresses x.result).2, rfl, ?_⟩
  dsimp only
  split
  · exact .inl rfl
  · next e _ => exact .inr ⟨e, rfl⟩

/-- A step of a worker in time. -/
theorem advance_follows (hdb : Bounded db) (hp : Holding p) (hC : Timely now x.lockedIds db p)
    (ha : advance now x db p = some (s, q)) :
    Bounded s ∧ (∀ p' ∈ q, Holding p') ∧ Follows db s := by
  cases p with
  | dispatching new =>
      cases ha
      refine ⟨bounded_insert hdb new, by simp, fun id n hn _ => ⟨n, ?_, rfl⟩⟩
      exact find_insert_of_find new hn
  | claiming limit =>
      cases ha
      refine ⟨bounded_claim hdb hC, fun p' hp' => ?_, follows_claim⟩
      obtain ⟨-, hp'⟩ := Option.ite_none_left_eq_some.mp hp'
      cases hp'
      trivial
  | resolving claimed =>
      cases ha
      refine ⟨hdb, fun p' hp' => ?_, .refl _⟩
      cases hp'
      exact ⟨List.Subset.refl _, by simp, by simp⟩
  | sending claimed addresses rest sentIds settlements =>
      cases rest with
      | nil =>
          cases ha
          exact ⟨bounded_settle hdb hp hC, by simp, follows_settle hp hC⟩
      | cons row rest =>
          obtain ⟨handed, rfl, hq⟩ := advance_row ha
          obtain ⟨hrow, hrest⟩ := List.cons_subset.mp hp.rest
          refine ⟨by simpa [Bounded] using hdb, fun p' hp' => ?_, fun id n hn _ => ⟨n, ?_, rfl⟩⟩
          · obtain rfl | ⟨e, rfl⟩ := hq
            · cases hp'
              exact ⟨hrest, List.forall_mem_cons.mpr ⟨⟨row, hrow, rfl⟩, hp.sent⟩, hp.settled⟩
            · cases hp'
              exact ⟨hrest, hp.sent, List.forall_mem_cons.mpr ⟨of_ofError hrow e, hp.settled⟩⟩
          · rw [hand_notifications, hn]

theorem rule : Rule handlers (fun _ => Bounded) (fun _ _ => Holding) InTime where
  locks _ := fun _ _ b => b.elim
  unlocked _ := rfl
  wait hdb _ := ⟨hdb, fun _ hp => hp⟩
  start := by
    intro w op _ _
    cases op <;> trivial
  step := by
    intro w i x p s q hw hC hi ha
    have hp : Holding p := hw.requests p (List.mem_of_getElem? hi)
    obtain ⟨hdb, hq, -⟩ := advance_follows hw.store hp (hC p hi) ha
    exact ⟨hdb, hq, fun _ _ _ hp' => hp'⟩

theorem bounded_empty : Bounded .empty := fun n hn => absurd hn (Table.not_mem_empty n)

/-- The runs in time from a queue keep what is settled. -/
theorem run_follows {w w' : World QueueDb Point} {es : List (Event Operation Answer)}
    (hw : Keeps handlers (fun _ => Bounded) (fun _ _ => Holding) w) (hC : StepsMeet step InTime w es)
    (hr : run step w es = some w') : Follows w.store w'.store := by
  refine rule.relation Follows.refl (fun _ _ _ => Follows.trans) ?_ hw hC hr
  intro w i x p s q hw hC hi ha
  have hp : Holding p := hw.requests p (List.mem_of_getElem? hi)
  exact (advance_follows hw.store hp (hC p hi) ha).2.2

/-! ### Mails -/

/-- The mails of a row that a worker may still ask for. -/
def owed (id : Uuid) : Point → ℕ
  | .resolving claimed => (claimed.map ClaimedRow.id).count id
  | .sending _ _ rest _ _ => (rest.map ClaimedRow.id).count id
  | _ => 0

theorem attempts_of_attemptCount {id : Uuid}
    (h : (s.notifications.find id).map Notification.attemptCount =
      (db.notifications.find id).map Notification.attemptCount) : s.attempts id = db.attempts id := by
  unfold QueueDb.attempts
  rw [h]

theorem attempts_insert (new : NewNotification) (id : Uuid) :
    ({ db with notifications := db.notifications.insert (new.row now) } : QueueDb).attempts id =
      db.attempts id := by
  unfold QueueDb.attempts
  rw [Table.find_insert]
  split
  · next hid =>
      cases hn : db.notifications.find id with
      | none => rfl
      | some n => exact absurd hid (Table.find_lt_next hn).ne
  · rfl

theorem attempts_settle (sentIds : List Uuid) (settlements : List Settlement) (id : Uuid) :
    (db.settle now sentIds settlements).attempts id = db.attempts id := by
  refine attempts_of_attemptCount ?_
  unfold QueueDb.settle
  dsimp only
  rw [Table.find_map, Table.find_map, Option.map_map, Option.map_map]
  congr 1
  funext n
  exact settled_attemptCount n

theorem attempts_hand (handed : Bool) (id row : Uuid) :
    (db.hand handed row).attempts id = db.attempts id := by
  refine attempts_of_attemptCount ?_
  rw [hand_notifications]

theorem mailed_hand (db : QueueDb) (handed : Bool) (id row : Uuid) :
    (db.hand handed row).mailed.count id ≤ db.mailed.count id + if row = id then 1 else 0 := by
  unfold QueueDb.hand
  split
  · rw [List.count_cons]
    simp
  · omega

/-- A mail asked for was owed, and what is owed is an attempt. -/
theorem advance_counts (id : Uuid) (ha : advance now x db p = some (s, q)) :
    s.mailed.count id + (q.map (owed id)).getD 0 + db.attempts id ≤
      db.mailed.count id + owed id p + s.attempts id := by
  cases p with
  | dispatching new =>
      cases ha
      rw [attempts_insert]
      exact le_refl _
  | claiming limit =>
      obtain ⟨rfl, rfl⟩ : (db.claim now limit x.lockedIds).1 = s ∧
          (if (db.claim now limit x.lockedIds).2.isEmpty then none
            else some (.resolving (db.claim now limit x.lockedIds).2)) = q :=
        Prod.ext_iff.mp (Option.some.inj ha)
      have hattempts := attempts_claim db now limit x.lockedIds id
      have hmailed : (db.claim now limit x.lockedIds).1.mailed = db.mailed := rfl
      have hids : (db.claim now limit x.lockedIds).2.map ClaimedRow.id =
          (db.due now limit x.lockedIds).map Notification.id := by
        simp [QueueDb.claim, Function.comp_def, ClaimedRow.ofNotification, Notification.claim]
      rw [hmailed]
      dsimp only [owed]
      split
      · dsimp only [Option.map_none, Option.getD_none]
        omega
      · dsimp only [Option.map_some, Option.getD_some, owed]
        rw [hids]
        omega
  | resolving claimed =>
      cases ha
      exact le_refl _
  | sending claimed addresses rest sentIds settlements =>
      cases rest with
      | nil =>
          cases ha
          rw [attempts_settle]
          exact le_refl _
      | cons row rest =>
          obtain ⟨handed, rfl, hq⟩ := advance_row ha
          have hmailed := mailed_hand db handed id row.id
          have hbefore : owed id (.sending claimed addresses (row :: rest) sentIds settlements) =
              (rest.map ClaimedRow.id).count id + if row.id = id then 1 else 0 := by
            simp [owed, List.count_cons]
          have hafter : (q.map (owed id)).getD 0 = (rest.map ClaimedRow.id).count id := by
            obtain rfl | ⟨e, rfl⟩ := hq <;> rfl
          rw [attempts_hand, hbefore, hafter]
          omega

/-- The mails of a row, and what all workers still owe, are attempts. -/
theorem counted {now : ℕ} {es : List (Event Operation Answer)} {w : World QueueDb Point}
    (hr : run step (World.start now .empty) es = some w) (id : Uuid) :
    w.store.mailed.count id + (w.requests.map (owed id)).sum ≤ w.store.attempts id := by
  have hstart : ∀ op, owed id (handlers.start op) = 0 := by
    intro op
    cases op <;> rfl
  exact Requests.run_budget (a := fun db => db.mailed.count id) (b := fun db => db.attempts id) hstart
    (fun ha => advance_counts id ha) (le_refl _) hr

theorem attempts_le (hdb : Bounded db) (id : Uuid) : db.attempts id ≤ 6 := by
  unfold QueueDb.attempts
  cases hn : db.notifications.find id with
  | none => exact Nat.zero_le _
  | some n => exact (hdb n (Table.find_mem hn)).attempts

theorem settled_for_good {now : ℕ} {es es' : List (Event Operation Answer)} {w w' : World QueueDb Point}
    (hr : run step (World.start now .empty) es = some w) (hr' : run step w es' = some w')
    (hC : StepsMeet step InTime (World.start now .empty) (es ++ es')) :
    (∀ id n, w.store.notifications.find id = some n → n.status = .sent ∨ n.status = .failed →
      ∃ n', w'.store.notifications.find id = some n' ∧ n'.status = n.status) ∧
    ∀ id, w'.store.mailed.count id ≤ 6 := by
  obtain ⟨hC₁, hC₂⟩ := stepsMeet_append.mp hC
  have hw := rule.run (Requests.keeps_start bounded_empty) hC₁ hr
  have hw' := rule.run hw (hC₂ w hr) hr'
  refine ⟨run_follows hw (hC₂ w hr) hr', fun id => ?_⟩
  have hrun : run step (World.start now .empty) (es ++ es') = some w' := by
    rw [run_append, hr]
    exact hr'
  have hcounted := counted hrun id
  have hattempts := attempts_le hw'.store id
  omega

/-! ### Lost claims -/

def mail : NewNotification :=
  { tenantId := 0, userId := none, contactId := none, channelType := "email",
    recipient := some "client@example.com", subject := none, body := "Invoice", bodyHtml := none }

/-- A worker claims the mail that is queued, and hands it to the mailer. -/
def sends (i : ℕ) (result : Except String Unit) : List (Event Operation Answer) :=
  [.arrive (.runTick 25), .step i (.locked []), .step i (.addresses []), .step i (.smtp result)]

def queued : List (Event Operation Answer) := [.arrive (.dispatch mail), .step 0 .nothing]

/-- The first attempt is deferred, and the second succeeds. -/
def retried : List (Event Operation Answer) :=
  queued ++ sends 0 (.error "451") ++ [.step 0 .nothing, .wait 60] ++ sends 0 (.ok ()) ++
    [.step 0 .nothing]

theorem settled_for_good_retried : ∃ w w', run step (World.start 0 .empty) retried = some w ∧
    run step w [.wait 3600, .arrive (.runTick 25), .step 0 (.locked [])] = some w' ∧
    w'.store.mailed.count 0 ≤ 6 ∧
    ∃ n, w'.store.notifications.find 0 = some n ∧ n.status = .sent := by
  have h : (run step (World.start 0 .empty) retried).any (fun w =>
      ((w.store.notifications.find 0).any fun n => n.status = .sent) &&
        (run step w [.wait 3600, .arrive (.runTick 25), .step 0 (.locked [])]).isSome) = true := by
    decide +kernel
  obtain ⟨w, hr, hw⟩ := exists_run_of_any h
  obtain ⟨hsent, hsome⟩ := Bool.and_eq_true_iff.mp hw
  obtain ⟨n, hn, hsent⟩ := (Option.any_eq_true _ _).mp hsent
  obtain ⟨w', hr'⟩ := Option.isSome_iff_exists.mp hsome
  obtain ⟨hkept, hcount⟩ := settled_for_good hr hr' (by decide +kernel)
  have hstatus := of_decide_eq_true hsent
  obtain ⟨n', hn', hs⟩ := hkept 0 n hn (.inl hstatus)
  exact ⟨w, w', hr, hr', hcount 0, n', hn', hs.trans hstatus⟩

/-- Worker 0 waits for the mailer for as long as its claim lasts; worker 1 takes the mail over and settles
it as sent. -/
def takenOver : List (Event Operation Answer) :=
  queued ++ sends 0 (.error "timeout") ++ [.wait 600] ++ sends 1 (.ok ()) ++ [.step 1 .nothing]

/-- A worker crashes each time that the mail is out. -/
def crashes : ℕ → List (Event Operation Answer)
  | 0 => queued
  | k + 1 => crashes k ++ sends 0 (.ok ()) ++ [.crash 0, .wait 600]

/-- A late worker puts a mail that was sent back on the queue, and nothing stops a mail whose workers
crash. -/
theorem late_settle :
    (¬ ∀ now es es' w w', run step (World.start now .empty) es = some w → run step w es' = some w' →
      ∀ id n, w.store.notifications.find id = some n → n.status = .sent ∨ n.status = .failed →
        ∃ n', w'.store.notifications.find id = some n' ∧ n'.status = n.status) ∧
    ¬ ∀ now es w, run step (World.start now .empty) es = some w → ∀ id, w.store.mailed.count id ≤ 6 := by
  constructor
  · intro h
    have hlate : (run step (World.start 0 .empty) takenOver).any (fun w =>
        ((w.store.notifications.find 0).any fun n => n.status = .sent) &&
          (run step w [.step 0 .nothing]).any fun w' =>
            (w'.store.notifications.find 0).any fun n => n.status = .pending) = true := by
      decide +kernel
    obtain ⟨w, hr, hw⟩ := exists_run_of_any hlate
    obtain ⟨hsent, hw'⟩ := Bool.and_eq_true_iff.mp hw
    obtain ⟨w', hr', hpending⟩ := exists_run_of_any hw'
    obtain ⟨n, hn, hsent⟩ := (Option.any_eq_true _ _).mp hsent
    have hstatus := of_decide_eq_true hsent
    obtain ⟨n', hn', hs⟩ := h 0 _ _ w w' hr hr' 0 n hn (.inl hstatus)
    rw [hn', Option.any_some] at hpending
    rw [hstatus, of_decide_eq_true hpending] at hs
    cases hs
  · intro h
    have hseven : (run step (World.start 0 .empty) (crashes 7)).any (fun w =>
        w.store.mailed.count 0 = 7) = true := by
      decide +kernel
    obtain ⟨w, hr, hw⟩ := exists_run_of_any hseven
    have hcount := h 0 _ w hr 0
    rw [of_decide_eq_true hw] at hcount
    omega

end Mokosh.Notifications
