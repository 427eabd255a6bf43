import Mokosh.Lib.Transition

/-! # Transactions at read committed

Any number of transactions on one header row and the rows under it, statement by statement.

* A `Program` is a transaction: a statement, and what the transaction does next, given what the
  statement answered.
* Every statement sees what is committed when it starts, and what its own transaction has written.  An
  `UPDATE` of the header or a `SELECT … FOR UPDATE` waits until nobody else has the header locked, and
  goes on with the header that is committed then; so does an `UPDATE` or a `DELETE` of a row.  Nobody
  waits for a `SELECT`.
* `wp Q p l`: if the transaction `p` goes on from what it knows, `l`, and commits, then it knows what `Q`
  asks for.  What it knows of the header stands as long as it has it locked; what it knows of the rows,
  as long as no other transaction commits a change of them (`Uncounted`).

`step_commits` is the rule of the library: if all programs meet their `wp`, a step of the whole system
changes nothing committed, or it is a commit whose transaction knows what its `Q` asks for. -/

namespace Mokosh.ReadCommitted

variable {H R A Op : Type}

/-- A transaction on a header `H` and its rows `R`.  One that ends without a commit answers in `A`. -/
inductive Program (H R A : Type) where
  | select (k : H → Program H R A)
  | selectForUpdate (k : H → Program H R A)
  | update (f : H → H) (k : Program H R A)
  | selectRows (k : List R → Program H R A)
  /-- The rows that a statement on all of them finds, before it comes to the first. -/
  | findRows (k : List ℕ → Program H R A)
  | insertRow (r : R) (k : Program H R A)
  | updateRow (id : ℕ) (f : R → R) (k : Bool → Program H R A)
  | deleteRow (id : ℕ) (k : Bool → Program H R A)
  | commit
  | rollback (answer : A)

def Program.isCommit : Program H R A → Bool
  | commit => true
  | _ => false

inductive RowWrite (R : Type) where
  | insert (id : ℕ) (r : R)
  | update (id : ℕ) (r : R)
  | delete (id : ℕ)

namespace RowWrite

def apply : RowWrite R → List (ℕ × R) → List (ℕ × R)
  | insert id r, rows => rows ++ [(id, r)]
  | update id r, rows => rows.map fun row => if row.1 = id then (id, r) else row
  | delete id, rows => rows.filter fun row => row.1 ≠ id

/-- A row that was updated or deleted is locked; one that was inserted nobody else can see. -/
def locks (id : ℕ) : RowWrite R → Bool
  | insert _ _ => false
  | update id' _ => id' = id
  | delete id' => id' = id

end RowWrite

/-- A transaction in flight.  It has the header locked once it has a version of it. -/
structure Call (H R A Op : Type) where
  op : Op
  rest : Program H R A
  header : Option H
  writes : List (RowWrite R)
  /-- It has read the rows, and written none since. -/
  counted : Bool

namespace Call

def start (op : Op) (p : Program H R A) : Call H R A Op :=
  { op := op, rest := p, header := none, writes := [], counted := false }

/-- The rows as the transaction sees them. -/
def view (c : Call H R A Op) (rows : List (ℕ × R)) : List (ℕ × R) :=
  c.writes.foldl (fun rows write => write.apply rows) rows

def write (c : Call H R A Op) (write : RowWrite R) (rest : Program H R A) : Call H R A Op :=
  { c with rest := rest, writes := c.writes ++ [write], counted := false }

/-- A statement that finds `header` and `rows` committed: `free` says whether nobody else has the header
locked, and `rowFree` so for a row. -/
def advance (c : Call H R A Op) (header : H) (rows : List (ℕ × R)) (next : ℕ) (free : Bool)
    (rowFree : ℕ → Bool) : Option (Call H R A Op) :=
  let seen := c.header.getD header
  match c.rest with
  | .select k => some { c with rest := k seen }
  | .selectForUpdate k => if free then some { c with rest := k seen, header := some seen } else none
  | .update f k => if free then some { c with rest := k, header := some (f seen) } else none
  | .selectRows k => some { c with rest := k ((c.view rows).map Prod.snd), counted := true }
  | .findRows k => some { c with rest := k ((c.view rows).map Prod.fst) }
  | .insertRow r k => some (c.write (.insert next r) k)
  | .updateRow id f k =>
    if rowFree id then
      match (c.view rows).lookup id with
      | some r => some (c.write (.update id (f r)) (k true))
      | none => some { c with rest := k false }
    else none
  | .deleteRow id k =>
    if rowFree id then
      match (c.view rows).lookup id with
      | some _ => some (c.write (.delete id) (k true))
      | none => some { c with rest := k false }
    else none
  | .commit => none
  | .rollback _ => none

/-- What no two calls hold. -/
def holds (c : Call H R A Op) : List Unit := if c.header.isSome then [()] else []

end Call

/-- What is committed, and the calls in flight. -/
structure World (H R A Op : Type) where
  header : H
  rows : List (ℕ × R)
  next : ℕ
  calls : List (Call H R A Op)

inductive Event (Op : Type) where
  | start (op : Op)
  /-- The next statement of call `i`. -/
  | step (i : ℕ)
  /-- Call `i` fails: the database refuses a statement, or the connection is lost. -/
  | abort (i : ℕ)
deriving DecidableEq

namespace World

def start (header : H) (rows : List (ℕ × R)) (next : ℕ) : World H R A Op :=
  { header := header, rows := rows, next := next, calls := [] }

def headerFree (w : World H R A Op) (i : ℕ) : Bool :=
  (w.calls.eraseIdx i).all fun c => c.header.isNone

def rowFree (w : World H R A Op) (i id : ℕ) : Bool :=
  (w.calls.eraseIdx i).all fun c => c.writes.all fun write => !write.locks id

def drop (w : World H R A Op) (i : ℕ) : World H R A Op := { w with calls := w.calls.eraseIdx i }

def commit (w : World H R A Op) (i : ℕ) (c : Call H R A Op) : World H R A Op :=
  { w.drop i with header := c.header.getD w.header, rows := c.view w.rows }

def goOn (w : World H R A Op) (i : ℕ) (c : Call H R A Op) : World H R A Op :=
  { w with calls := w.calls.set i c, next := w.next + 1 }

/-- The next statement of `c`, which is call `i`. -/
def stepCall (w : World H R A Op) (i : ℕ) (c : Call H R A Op) : Option (World H R A Op) :=
  match c.rest with
  | .commit => some (w.commit i c)
  | .rollback _ => some (w.drop i)
  | _ => (c.advance w.header w.rows w.next (w.headerFree i) (w.rowFree i)).map (w.goOn i)

end World

variable (program : Op → Program H R A)

def step (w : World H R A Op) : Event Op → Option (World H R A Op)
  | .start op => some { w with calls := w.calls ++ [.start op (program op)] }
  | .abort i => if i < w.calls.length then some (w.drop i) else none
  | .step i => w.calls[i]?.bind (w.stepCall i)

/-- What a step can do. -/
inductive Stepped (w : World H R A Op) : Event Op → World H R A Op → Prop
  | started {op : Op} : Stepped w (.start op) { w with calls := w.calls ++ [.start op (program op)] }
  | dropped {e : Event Op} (i : ℕ) : Stepped w e (w.drop i)
  | advanced {i : ℕ} {c c' : Call H R A Op} (hi : w.calls[i]? = some c)
      (ha : c.advance w.header w.rows w.next (w.headerFree i) (w.rowFree i) = some c') :
      Stepped w (.step i) (w.goOn i c')
  | committed {i : ℕ} {c : Call H R A Op} (hi : w.calls[i]? = some c) (hc : c.rest = .commit) :
      Stepped w (.step i) (w.commit i c)

variable {program} in
theorem step_cases {w w' : World H R A Op} {e : Event Op} (h : step program w e = some w') :
    Stepped program w e w' := by
  cases e with
  | start op =>
      cases h
      exact .started
  | abort i =>
      obtain ⟨-, h⟩ := Option.ite_none_right_eq_some.mp h
      cases h
      exact .dropped i
  | step i =>
      obtain ⟨c, hi, h⟩ := Option.bind_eq_some_iff.mp h
      unfold World.stepCall at h
      split at h
      · next hc =>
          cases h
          exact .committed hi hc
      · cases h
        exact .dropped i
      · obtain ⟨c', ha, rfl⟩ := Option.map_eq_some_iff.mp h
        exact .advanced hi ha

/-! ### What a transaction knows -/

/-- The header as it was when the transaction locked it, and its version of it; whether it wrote rows;
and the rows, once it has read them. -/
structure Known (H R : Type) where
  header : Option (H × H)
  wrote : Bool
  counted : Option (List (ℕ × R))

namespace Known

def start : Known H R := { header := none, wrote := false, counted := none }

/-- The header may be committed as `base` while the transaction sees it as `seen`. -/
def Sees (l : Known H R) (base seen : H) : Prop :=
  match l.header with
  | some x => x = (base, seen)
  | none => seen = base

def Counts (l : Known H R) (rows : List (ℕ × R)) : Prop := ∀ rows', l.counted = some rows' → rows = rows'

def lock (l : Known H R) (base seen : H) : Known H R := { l with header := some (base, seen) }

def count (l : Known H R) (rows : List (ℕ × R)) : Known H R := { l with counted := some rows }

def write (l : Known H R) : Known H R := { l with wrote := true, counted := none }

end Known

/-- The weakest precondition of a commit with `Q`. -/
def wp (Q : Known H R → Prop) : Program H R A → Known H R → Prop
  | .select k, l => ∀ base seen, l.Sees base seen → wp Q (k seen) l
  | .selectForUpdate k, l => ∀ base seen, l.Sees base seen → wp Q (k seen) (l.lock base seen)
  | .update f k, l => ∀ base seen, l.Sees base seen → wp Q k (l.lock base (f seen))
  | .selectRows k, l => ∀ rows, l.Counts rows → wp Q (k (rows.map Prod.snd)) (l.count rows)
  | .findRows k, l => ∀ ids, wp Q (k ids) l
  | .insertRow _ k, l => wp Q k l.write
  | .updateRow _ _ k, l => wp Q (k true) l.write ∧ wp Q (k false) l
  | .deleteRow _ k, l => wp Q (k true) l.write ∧ wp Q (k false) l
  | .commit, l => Q l
  | .rollback _, _ => True

/-! ### The rule -/

/-- Call `c` stands as it knows, in the world `w`. -/
structure Stands (w : World H R A Op) (c : Call H R A Op) (l : Known H R) : Prop where
  header : c.header = l.header.map Prod.snd
  base : ∀ x, l.header = some x → w.header = x.1
  writes : l.wrote = false → c.writes = []
  rows : ∀ rows, l.counted = some rows → c.view w.rows = rows
  counted : c.counted = l.counted.isSome

namespace Stands

variable {w w' : World H R A Op} {c : Call H R A Op} {l : Known H R}

theorem sees (h : Stands w c l) : l.Sees w.header (c.header.getD w.header) := by
  have h1 := h.header
  unfold Known.Sees
  split
  · next x hx =>
      rw [h1, hx, h.base x hx]
      rfl
  · next hx =>
      rw [h1, hx]
      rfl

theorem counts (h : Stands w c l) : l.Counts (c.view w.rows) := h.rows

/-- A call that goes on with what it has. -/
theorem goOn (h : Stands w c l) (rest : Program H R A) : Stands w { c with rest := rest } l :=
  ⟨h.header, h.base, h.writes, h.rows, h.counted⟩

theorem lock (h : Stands w c l) (rest : Program H R A) (seen : H) :
    Stands w { c with rest := rest, header := some seen } (l.lock w.header seen) where
  header := rfl
  base x hx := by
    cases hx
    rfl
  writes := h.writes
  rows := h.rows
  counted := h.counted

theorem count (h : Stands w c l) (rest : Program H R A) :
    Stands w { c with rest := rest, counted := true } (l.count (c.view w.rows)) where
  header := h.header
  base := h.base
  writes := h.writes
  rows rows hr := by
    cases hr
    rfl
  counted := rfl

theorem write (h : Stands w c l) (write : RowWrite R) (rest : Program H R A) :
    Stands w (c.write write rest) l.write where
  header := h.header
  base := h.base
  writes hw := by cases hw
  rows rows hr := by cases hr
  counted := rfl

/-- What others commit leaves a call as it stands, unless it has locked the header that they change or
read the rows that they change. -/
theorem frame (h : Stands w c l) (hh : c.header.isSome = true → w'.header = w.header)
    (hr : c.counted = true → w'.rows = w.rows) : Stands w' c l where
  header := h.header
  base x hx := by
    rw [hh (by rw [h.header, hx]; rfl), h.base x hx]
  writes := h.writes
  rows rows hrows := by
    rw [hr (by rw [h.counted, hrows]; rfl), h.rows rows hrows]
  counted := h.counted

/-- One statement. -/
theorem advance {Q : Known H R → Prop} {c' : Call H R A Op} {free : Bool} {rowFree : ℕ → Bool}
    (h : Stands w c l) (hp : wp Q c.rest l)
    (ha : c.advance w.header w.rows w.next free rowFree = some c') :
    ∃ l', Stands w c' l' ∧ wp Q c'.rest l' := by
  unfold Call.advance at ha
  split at ha
  · next k hk =>
      cases ha
      rw [hk] at hp
      exact ⟨l, h.goOn _, hp _ _ h.sees⟩
  · next k hk =>
      obtain ⟨-, ha⟩ := Option.ite_none_right_eq_some.mp ha
      cases ha
      rw [hk] at hp
      exact ⟨_, h.lock _ _, hp _ _ h.sees⟩
  · next f k hk =>
      obtain ⟨-, ha⟩ := Option.ite_none_right_eq_some.mp ha
      cases ha
      rw [hk] at hp
      exact ⟨_, h.lock _ _, hp _ _ h.sees⟩
  · next k hk =>
      cases ha
      rw [hk] at hp
      exact ⟨_, h.count _, hp _ h.counts⟩
  · next k hk =>
      cases ha
      rw [hk] at hp
      exact ⟨l, h.goOn _, hp _⟩
  · next r k hk =>
      cases ha
      rw [hk] at hp
      exact ⟨_, h.write _ _, hp⟩
  · next id f k hk =>
      obtain ⟨-, ha⟩ := Option.ite_none_right_eq_some.mp ha
      rw [hk] at hp
      split at ha <;> cases ha
      · exact ⟨_, h.write _ _, hp.1⟩
      · exact ⟨l, h.goOn _, hp.2⟩
  · next id k hk =>
      obtain ⟨-, ha⟩ := Option.ite_none_right_eq_some.mp ha
      rw [hk] at hp
      split at ha <;> cases ha
      · exact ⟨_, h.write _ _, hp.1⟩
      · exact ⟨l, h.goOn _, hp.2⟩
  · cases ha
  · cases ha

end Stands

/-- A statement takes the lock on the header only if nobody else has it. -/
theorem Call.advance_header {c c' : Call H R A Op} {header : H} {rows : List (ℕ × R)} {next : ℕ}
    {free : Bool} {rowFree : ℕ → Bool} (ha : c.advance header rows next free rowFree = some c') :
    c'.op = c.op ∧ (c'.header = c.header ∨ free = true) := by
  unfold Call.advance at ha
  split at ha
  · cases ha
    exact ⟨rfl, .inl rfl⟩
  · obtain ⟨hf, ha⟩ := Option.ite_none_right_eq_some.mp ha
    cases ha
    exact ⟨rfl, .inr hf⟩
  · obtain ⟨hf, ha⟩ := Option.ite_none_right_eq_some.mp ha
    cases ha
    exact ⟨rfl, .inr hf⟩
  · cases ha
    exact ⟨rfl, .inl rfl⟩
  · cases ha
    exact ⟨rfl, .inl rfl⟩
  · cases ha
    exact ⟨rfl, .inl rfl⟩
  · obtain ⟨-, ha⟩ := Option.ite_none_right_eq_some.mp ha
    split at ha <;> cases ha <;> exact ⟨rfl, .inl rfl⟩
  · obtain ⟨-, ha⟩ := Option.ite_none_right_eq_some.mp ha
    split at ha <;> cases ha <;> exact ⟨rfl, .inl rfl⟩
  · cases ha
  · cases ha

/-- Every call in flight is on its way to a commit with `Q`, and at most one has the header locked. -/
structure Inv (Q : Op → Known H R → Prop) (w : World H R A Op) : Prop where
  safe : ∀ c ∈ w.calls, ∃ l, Stands w c l ∧ wp (Q c.op) c.rest l
  locked : (w.calls.flatMap Call.holds).Nodup

/-- No call commits a change of the rows while another is between its reading of them and its commit. -/
def Uncounted (w : World H R A Op) : Event Op → Prop
  | .step i => ∀ c ∈ w.calls[i]?, c.rest.isCommit = true → c.writes.isEmpty = false →
      ∀ d ∈ w.calls.eraseIdx i, d.counted = false
  | _ => True

instance (w : World H R A Op) : ∀ e, Decidable (Uncounted w e)
  | .start _ => isTrue trivial
  | .abort _ => isTrue trivial
  | .step i => inferInstanceAs (Decidable (∀ c ∈ w.calls[i]?, c.rest.isCommit = true →
      c.writes.isEmpty = false → ∀ d ∈ w.calls.eraseIdx i, d.counted = false))

/-- What the commit of a transaction that knows `l` makes of what is committed. -/
structure Commits (l : Known H R) (w w' : World H R A Op) : Prop where
  locked : ∀ x, l.header = some x → w.header = x.1 ∧ w'.header = x.2
  unlocked : l.header = none → w'.header = w.header
  kept : l.wrote = false → w'.rows = w.rows
  counted : ∀ rows, l.counted = some rows → w'.rows = rows

section Rule

variable {program} {Q : Op → Known H R → Prop} {w w' : World H R A Op} {e : Event Op}

theorem inv_start (header : H) (rows : List (ℕ × R)) (next : ℕ) :
    Inv Q (World.start header rows next : World H R A Op) where
  safe c hc := by cases hc
  locked := List.nodup_nil

theorem Inv.started (h : Inv Q w) (hp : ∀ op, wp (Q op) (program op) .start) (op : Op) :
    Inv Q { w with calls := w.calls ++ [.start op (program op)] } where
  safe c hc := by
    obtain hc | hc := List.mem_append.mp hc
    · obtain ⟨l, hl, hq⟩ := h.safe c hc
      exact ⟨l, hl.frame (fun _ => rfl) fun _ => rfl, hq⟩
    · rw [List.mem_singleton] at hc
      subst hc
      exact ⟨.start, ⟨rfl, nofun, fun _ => rfl, nofun, rfl⟩, hp op⟩
  locked := by
    rw [List.flatMap_append]
    simpa [Call.start, Call.holds] using h.locked

theorem Inv.dropped (h : Inv Q w) (i : ℕ) : Inv Q (w.drop i) where
  safe c hc := by
    obtain ⟨l, hl, hq⟩ := h.safe c (List.mem_of_mem_eraseIdx hc)
    exact ⟨l, hl.frame (fun _ => rfl) fun _ => rfl, hq⟩
  locked := nodup_holds_erase h.locked i

theorem Inv.advanced (h : Inv Q w) {i : ℕ} {c c' : Call H R A Op} (hi : w.calls[i]? = some c)
    (ha : c.advance w.header w.rows w.next (w.headerFree i) (w.rowFree i) = some c') :
    Inv Q (w.goOn i c') where
  safe d hd := by
    obtain rfl | hd := (mem_calls_set hi).mp hd
    · obtain ⟨l, hl, hq⟩ := h.safe c (List.mem_of_getElem? hi)
      obtain ⟨l', hl', hq'⟩ := hl.advance hq ha
      rw [← (Call.advance_header ha).1] at hq'
      exact ⟨l', hl'.frame (fun _ => rfl) fun _ => rfl, hq'⟩
    · obtain ⟨l, hl, hq⟩ := h.safe d (List.mem_of_mem_eraseIdx hd)
      exact ⟨l, hl.frame (fun _ => rfl) fun _ => rfl, hq⟩
  locked := by
    obtain hh | hf := (Call.advance_header ha).2
    · refine (holds_set_perm_self hi c' ?_).nodup_iff.mpr h.locked
      rw [Call.holds, Call.holds, hh]
    · refine nodup_holds_set hi h.locked ?_ ?_
      · unfold Call.holds
        split <;> simp
      · intro u _ d hd
        have hn := List.all_eq_true.mp hf d hd
        simp [Call.holds, Option.isNone_iff_eq_none.mp hn]

/-- The others stand after a commit. -/
theorem Inv.committed (h : Inv Q w) {i : ℕ} {c : Call H R A Op} (hi : w.calls[i]? = some c)
    (hu : c.writes.isEmpty = false → ∀ d ∈ w.calls.eraseIdx i, d.counted = false) : Inv Q (w.commit i c) where
  safe d hd := by
    obtain ⟨l, hl, hq⟩ := h.safe d (List.mem_of_mem_eraseIdx hd)
    refine ⟨l, hl.frame ?_ ?_, hq⟩
    · intro hlocked
      have hnot : () ∉ c.holds := fun hc =>
        not_mem_holds hi h.locked hc hd (by simp [Call.holds, hlocked])
      have hnone : c.header = none := by
        cases hc : c.header with
        | none => rfl
        | some x => exact absurd (by simp [Call.holds, hc]) hnot
      simp [World.commit, hnone]
    · intro hcounted
      have hnil : c.writes = [] := by
        by_contra hne
        rw [hu (List.isEmpty_eq_false_iff.mpr hne) d hd] at hcounted
        cases hcounted
      simp [World.commit, Call.view, hnil]
  locked := nodup_holds_erase h.locked i

theorem Stands.commits {c : Call H R A Op} {l : Known H R} (hl : Stands w c l) (i : ℕ) :
    Commits l w (w.commit i c) where
  locked x hx := ⟨hl.base x hx, by simp [World.commit, hl.header, hx]⟩
  unlocked hx := by simp [World.commit, hl.header, hx]
  kept hw := by simp [World.commit, Call.view, hl.writes hw]
  counted := hl.rows

/-- If every program meets its `wp`, then a step changes nothing that is committed, or a transaction
commits that knows what its `Q` asks for. -/
theorem step_commits (hp : ∀ op, wp (Q op) (program op) .start) (h : Inv Q w) (hu : Uncounted w e)
    (hs : step program w e = some w') :
    Inv Q w' ∧ (w'.header = w.header ∧ w'.rows = w.rows ∨
      ∃ i c l, e = .step i ∧ w.calls[i]? = some c ∧ c.rest = .commit ∧ Q c.op l ∧ Commits l w w') := by
  replace hs := step_cases hs
  cases hs with
  | started => exact ⟨h.started hp _, .inl ⟨rfl, rfl⟩⟩
  | dropped i => exact ⟨h.dropped i, .inl ⟨rfl, rfl⟩⟩
  | advanced hi ha => exact ⟨h.advanced hi ha, .inl ⟨rfl, rfl⟩⟩
  | @committed i c hi hc =>
      obtain ⟨l, hl, hq⟩ := h.safe c (List.mem_of_getElem? hi)
      rw [hc] at hq
      exact ⟨h.committed hi (hu c hi (by rw [hc]; rfl)), .inr ⟨i, c, l, rfl, hi, hc, hq, hl.commits i⟩⟩

end Rule

end Mokosh.ReadCommitted
