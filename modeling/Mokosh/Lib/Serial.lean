import Mokosh.Lib.ReadCommitted

/-! # Transactions one after the other

What a transaction at read committed leaves when no other is in flight.

* `Program.serve p s`: each statement of `p` on what the ones before it left of `s`; `none` if `p` does
  not commit.  `serve_runs`: the system does the same.
* `Identified`: no two rows have one id, and the rows that calls in flight have inserted have others.  It holds
  in every state of every interleaving (`identified_of_run`). -/

namespace Mokosh.ReadCommitted

variable {H R A Op : Type}

/-- What is stored, and the next id. -/
structure Stored (H R : Type) where
  header : H
  rows : List (ℕ × R)
  next : ℕ
deriving DecidableEq

namespace Stored

def lines (s : Stored H R) : List R := s.rows.map Prod.snd

def ids (s : Stored H R) : List ℕ := s.rows.map Prod.fst

def tick (s : Stored H R) : Stored H R := { s with next := s.next + 1 }

def write (s : Stored H R) (write : RowWrite R) : Stored H R :=
  { s.tick with rows := write.apply s.rows }

/-- Nobody is in flight. -/
def world (s : Stored H R) : World H R A Op := World.start s.header s.rows s.next

end Stored

/-- The transaction, from its first statement to its commit, with nobody else in flight. -/
def Program.serve : Program H R A → Stored H R → Option (Stored H R)
  | .select k, s => (k s.header).serve s.tick
  | .selectForUpdate k, s => (k s.header).serve s.tick
  | .update f k, s => k.serve { s.tick with header := f s.header }
  | .selectRows k, s => (k s.lines).serve s.tick
  | .findRows k, s => (k s.ids).serve s.tick
  | .insertRow r k, s => k.serve (s.write (.insert s.next r))
  | .updateRow id f k, s =>
    match s.rows.lookup id with
    | some r => (k true).serve (s.write (.update id (f r)))
    | none => (k false).serve s.tick
  | .deleteRow id k, s =>
    match s.rows.lookup id with
    | some _ => (k true).serve (s.write (.delete id))
    | none => (k false).serve s.tick
  | .commit, s => some s
  | .rollback _, _ => none

/-! ### The system with one call in flight -/

namespace Call

@[simp] theorem view_start (op : Op) (p : Program H R A) (rows : List (ℕ × R)) :
    (start op p).view rows = rows := rfl

@[simp] theorem view_write (c : Call H R A Op) (write : RowWrite R) (rest : Program H R A)
    (rows : List (ℕ × R)) : (c.write write rest).view rows = write.apply (c.view rows) := by
  simp [view, Call.write]

/-- What is stored, as the transaction sees it. -/
def sees (c : Call H R A Op) (s : Stored H R) : Stored H R :=
  { header := c.header.getD s.header, rows := c.view s.rows, next := s.next }

end Call

section Sole

variable {program : Op → Program H R A} {c c' : Call H R A Op} {s s' : Stored H R}

/-- One call is in flight. -/
def Stored.worldOf (s : Stored H R) (c : Call H R A Op) : World H R A Op :=
  { header := s.header, rows := s.rows, next := s.next, calls := [c] }

/-- Nobody else has anything locked. -/
theorem step_sole (ha : c.advance s.header s.rows s.next true (fun _ => true) = some c') :
    step program (s.worldOf c) (.step 0) = some (s.tick.worldOf c') := by
  have hs : step program (s.worldOf c) (.step 0) = (s.worldOf c).stepCall 0 c := rfl
  have hc : c.advance (s.worldOf c).header (s.worldOf c).rows (s.worldOf c).next
      ((s.worldOf c).headerFree 0) ((s.worldOf c).rowFree 0) = some c' := ha
  rw [hs, World.stepCall]
  split
  · next hr =>
      rw [Call.advance, hr] at ha
      cases ha
  · next hr =>
      rw [Call.advance, hr] at ha
      cases ha
  · rw [hc]
    rfl

theorem runs_sole (ha : c.advance s.header s.rows s.next true (fun _ => true) = some c')
    (hr : ∃ n, run (step program) (s.tick.worldOf c') (List.replicate n (.step 0)) = some s'.world) :
    ∃ n, run (step program) (s.worldOf c) (List.replicate n (.step 0)) = some s'.world := by
  obtain ⟨n, hn⟩ := hr
  refine ⟨n + 1, ?_⟩
  rw [List.replicate_succ]
  exact run_cons_eq_some.mpr ⟨_, step_sole ha, hn⟩

@[simp] theorem sees_write (c : Call H R A Op) (s : Stored H R) (write : RowWrite R)
    (rest : Program H R A) : (c.write write rest).sees s.tick = (c.sees s).write write := by
  rw [Call.sees, Call.view_write]
  rfl

/-- By the statements of the program: what the call sees after one is what `serve` goes on with. -/
theorem runs_of_serve (p : Program H R A) (hc : c.rest = p) (h : p.serve (c.sees s) = some s') :
    ∃ n, run (step program) (s.worldOf c) (List.replicate n (.step 0)) = some s'.world := by
  induction p generalizing s c with
  | select k ih =>
      have ha : c.advance s.header s.rows s.next true (fun _ => true) =
          some { c with rest := k (c.sees s).header } := by rw [Call.advance, hc]; rfl
      exact runs_sole ha (ih _ rfl h)
  | selectForUpdate k ih =>
      have ha : c.advance s.header s.rows s.next true (fun _ => true) =
          some { c with rest := k (c.sees s).header, header := some (c.sees s).header } := by
        rw [Call.advance, hc]
        rfl
      exact runs_sole ha (ih _ rfl h)
  | update f k ih =>
      have ha : c.advance s.header s.rows s.next true (fun _ => true) =
          some { c with rest := k, header := some (f (c.sees s).header) } := by
        rw [Call.advance, hc]
        rfl
      exact runs_sole ha (ih rfl h)
  | selectRows k ih =>
      have ha : c.advance s.header s.rows s.next true (fun _ => true) =
          some { c with rest := k (c.sees s).lines, counted := true } := by rw [Call.advance, hc]; rfl
      exact runs_sole ha (ih _ rfl h)
  | findRows k ih =>
      have ha : c.advance s.header s.rows s.next true (fun _ => true) =
          some { c with rest := k (c.sees s).ids } := by rw [Call.advance, hc]; rfl
      exact runs_sole ha (ih _ rfl h)
  | insertRow r k ih =>
      have ha : c.advance s.header s.rows s.next true (fun _ => true) =
          some (c.write (.insert s.next r) k) := by rw [Call.advance, hc]
      exact runs_sole ha (ih rfl (by rw [sees_write]; exact h))
  | updateRow id f k ih =>
      rw [Program.serve] at h
      split at h
      · next r hr =>
          have ha : c.advance s.header s.rows s.next true (fun _ => true) =
              some (c.write (.update id (f r)) (k true)) := by
            rw [Call.sees] at hr
            simp [Call.advance, hc, hr]
          exact runs_sole ha (ih _ rfl (by rw [sees_write]; exact h))
      · next hr =>
          have ha : c.advance s.header s.rows s.next true (fun _ => true) =
              some { c with rest := k false } := by
            rw [Call.sees] at hr
            simp [Call.advance, hc, hr]
          exact runs_sole ha (ih _ rfl h)
  | deleteRow id k ih =>
      rw [Program.serve] at h
      split at h
      · next r hr =>
          have ha : c.advance s.header s.rows s.next true (fun _ => true) =
              some (c.write (.delete id) (k true)) := by
            rw [Call.sees] at hr
            simp [Call.advance, hc, hr]
          exact runs_sole ha (ih _ rfl (by rw [sees_write]; exact h))
      · next hr =>
          have ha : c.advance s.header s.rows s.next true (fun _ => true) =
              some { c with rest := k false } := by
            rw [Call.sees] at hr
            simp [Call.advance, hc, hr]
          exact runs_sole ha (ih _ rfl h)
  | commit =>
      cases h
      have hs : step program (s.worldOf c) (.step 0) = (s.worldOf c).stepCall 0 c := rfl
      refine ⟨1, run_cons_eq_some.mpr ⟨_, ?_, rfl⟩⟩
      rw [hs, World.stepCall, hc]
      rfl
  | rollback answer => cases h

/-- **One call, from its start to its commit.**  With nobody else in flight the system goes where the
program says. -/
theorem serve_runs {op : Op} (h : (program op).serve s = some s') :
    ∃ n, run (step program) s.world (.start op :: List.replicate n (.step 0)) = some s'.world := by
  have hc : ((Call.start op (program op)).sees s) = s := rfl
  obtain ⟨n, hn⟩ : ∃ n, run (step program) (s.worldOf (.start op (program op)))
      (List.replicate n (.step 0)) = some s'.world := runs_of_serve _ rfl (by rw [hc]; exact h)
  exact ⟨n, run_cons_eq_some.mpr ⟨_, rfl, hn⟩⟩

end Sole

/-! ### Ids -/

/-- The id of a row that is inserted. -/
def RowWrite.inserts : RowWrite R → List ℕ
  | .insert id _ => [id]
  | .update _ _ => []
  | .delete _ => []

def Call.inserts (c : Call H R A Op) : List ℕ := c.writes.flatMap RowWrite.inserts

/-- No two rows have one id, and the next one is new. -/
structure Identified (w : World H R A Op) : Prop where
  distinct : (w.rows.map Prod.fst ++ w.calls.flatMap Call.inserts).Nodup
  fresh : ∀ id ∈ w.rows.map Prod.fst ++ w.calls.flatMap Call.inserts, id < w.next

theorem RowWrite.apply_ids (write : RowWrite R) (rows : List (ℕ × R)) :
    ((write.apply rows).map Prod.fst).Sublist (rows.map Prod.fst ++ write.inserts) := by
  cases write with
  | insert id r => simp [apply, inserts]
  | update id r =>
      have hids : ∀ row : ℕ × R, (if row.1 = id then (id, r) else row).1 = row.1 := by
        intro row
        split
        · next h => exact h.symm
        · rfl
      simp [apply, inserts, Function.comp_def, hids]
  | delete id =>
      rw [inserts, List.append_nil]
      exact List.filter_sublist.map Prod.fst

theorem Call.view_ids (c : Call H R A Op) (rows : List (ℕ × R)) :
    ((c.view rows).map Prod.fst).Sublist (rows.map Prod.fst ++ c.inserts) := by
  rw [view, inserts]
  generalize c.writes = writes
  induction writes generalizing rows with
  | nil => simp
  | cons write writes ih =>
      refine (ih (write.apply rows)).trans ?_
      rw [List.flatMap_cons, ← List.append_assoc]
      exact (write.apply_ids rows).append_right _

section Ids

variable {program : Op → Program H R A} {w w' : World H R A Op} {e : Event Op}

theorem Call.advance_inserts {c c' : Call H R A Op} {header : H} {rows : List (ℕ × R)} {next : ℕ}
    {free : Bool} {rowFree : ℕ → Bool} (ha : c.advance header rows next free rowFree = some c') :
    c'.inserts = c.inserts ∨ c'.inserts = c.inserts ++ [next] := by
  have hwrite : ∀ (write : RowWrite R) (rest : Program H R A),
      (c.write write rest).inserts = c.inserts ++ write.inserts := by
    intro write rest
    simp [inserts, Call.write]
  unfold Call.advance at ha
  split at ha
  · cases ha
    exact .inl rfl
  · obtain ⟨-, ha⟩ := Option.ite_none_right_eq_some.mp ha
    cases ha
    exact .inl rfl
  · obtain ⟨-, ha⟩ := Option.ite_none_right_eq_some.mp ha
    cases ha
    exact .inl rfl
  · cases ha
    exact .inl rfl
  · cases ha
    exact .inl rfl
  · cases ha
    exact .inr (hwrite _ _)
  · obtain ⟨-, ha⟩ := Option.ite_none_right_eq_some.mp ha
    split at ha <;> cases ha
    · exact .inl ((hwrite _ _).trans (List.append_nil _))
    · exact .inl rfl
  · obtain ⟨-, ha⟩ := Option.ite_none_right_eq_some.mp ha
    split at ha <;> cases ha
    · exact .inl ((hwrite _ _).trans (List.append_nil _))
    · exact .inl rfl
  · cases ha
  · cases ha

/-- Ids are only lost. -/
theorem Identified.of_sublist (h : Identified w) (hn : w.next ≤ w'.next)
    (hs : ∃ ids, (w'.rows.map Prod.fst ++ w'.calls.flatMap Call.inserts).Sublist ids ∧
      ids.Perm (w.rows.map Prod.fst ++ w.calls.flatMap Call.inserts)) : Identified w' := by
  obtain ⟨ids, hsub, hperm⟩ := hs
  refine ⟨hsub.nodup (hperm.nodup_iff.mpr h.distinct), fun id hid => ?_⟩
  exact Nat.lt_of_lt_of_le (h.fresh id (hperm.subset (hsub.subset hid))) hn

theorem identified_start {header : H} {rows : List (ℕ × R)} {next : ℕ} (hd : (rows.map Prod.fst).Nodup)
    (hf : ∀ id ∈ rows.map Prod.fst, id < next) :
    Identified (World.start header rows next : World H R A Op) where
  distinct := by simpa [World.start] using hd
  fresh := by simpa [World.start] using hf

theorem step_identified (h : Identified w) (hs : step program w e = some w') : Identified w' := by
  replace hs := step_cases hs
  cases hs with
  | started =>
      refine h.of_sublist (Nat.le_refl _) ⟨_, ?_, .refl _⟩
      simp [Call.inserts, Call.start]
  | dropped i =>
      refine h.of_sublist (Nat.le_refl _) ⟨_, ?_, .refl _⟩
      exact (holds_erase_sublist w.calls i Call.inserts).append_left _
  | @advanced i c c' hi ha =>
      have hperm := (holds_perm hi Call.inserts).append_left (w.rows.map Prod.fst)
      have hset := (holds_set_perm hi c' Call.inserts).append_left (w.rows.map Prod.fst)
      obtain hsame | hnew := Call.advance_inserts ha
      · refine h.of_sublist (Nat.le_succ _) ⟨_, .refl _, hset.trans ?_⟩
        rw [hsame]
        exact hperm.symm
      · -- the new id, and then what was there
        have hall : (w.rows.map Prod.fst ++ (w.goOn i c').calls.flatMap Call.inserts).Perm
            (w.next :: (w.rows.map Prod.fst ++ w.calls.flatMap Call.inserts)) := by
          refine hset.trans ?_
          rw [hnew]
          refine .trans ?_ (hperm.symm.cons w.next)
          simp only [List.append_assoc, List.singleton_append]
          rw [← List.append_assoc, ← List.append_assoc]
          exact List.perm_middle
        refine ⟨hall.nodup_iff.mpr (List.nodup_cons.mpr ⟨fun hm => ?_, h.distinct⟩), fun id hid => ?_⟩
        · exact Nat.lt_irrefl _ (h.fresh _ hm)
        · obtain rfl | hm := List.mem_cons.mp (hall.subset hid)
          · exact Nat.lt_succ_self _
          · exact Nat.lt_succ_of_lt (h.fresh id hm)
  | @committed i c hi hc =>
      have hperm := (holds_perm hi Call.inserts).append_left (w.rows.map Prod.fst)
      refine h.of_sublist (Nat.le_refl _) ⟨_, ?_, hperm.symm⟩
      rw [← List.append_assoc]
      exact (c.view_ids w.rows).append_right _

/-- **Ids.**  In every state of every interleaving, no two rows have one id. -/
theorem identified_of_run {es : List (Event Op)} (h : Identified w) (hr : run (step program) w es = some w') :
    Identified w' :=
  run_invariant Identified (fun _ _ _ => step_identified) h hr

end Ids

end Mokosh.ReadCommitted
