import Mokosh.TimeTracking.Service
import Mokosh.Contracts.Ledger

/-! # Overage within one period

Entries of one contract period, drawn one after the other in some order.  Every draw is rounded to
a hundredth of an hour before it is subtracted, so the row counts the *rounded* hours of the
entries: the hours applied in total are the least of their sum and the allotment, whatever the
order, and an overage is recorded exactly when that sum exceeds the allotment (`drawAll_spec`).

Hence, for a set of entries whose minutes are within the allotment, no order records an overage if
and only if the sum of the rounded hours is within it too (**`no_overage_iff`**).  Six entries of
ten minutes in an hour's allotment are a set for which it is not (`six_tens_exceed_an_hour`). -/

namespace Mokosh

namespace TimeDb

/-- Draw the hours of a list of entries, in its order. -/
def drawAll (db : TimeDb) : List Uuid → AppResult TimeDb
  | [] => .ok db
  | id :: ids => do
    let db' ← db.consumeForEntry id
    db'.drawAll ids

/-- The minutes of an entry. -/
def minutesOf (db : TimeDb) (id : Uuid) : ℤ := ((db.entries.find id).map (·.durationMinutes)).getD 0

/-- The `hours_consumed` of an entry; NULL counts as nothing. -/
def consumedOf (db : TimeDb) (id : Uuid) : Numeric 2 :=
  ((db.entries.find id).bind (·.hoursConsumed)).getD 0

/-- The entry records a positive overage. -/
def OverageAt (db : TimeDb) (id : Uuid) : Prop :=
  ∃ e o, db.entries.find id = some e ∧ e.overageHours = some o ∧ 0 < o

def totalMinutes (db : TimeDb) (ids : List Uuid) : ℤ := (ids.map db.minutesOf).sum

def totalApplied (db : TimeDb) (ids : List Uuid) : ℚ := (ids.map fun id => (db.consumedOf id).toRat).sum

/-- The hundredths of an hour of the entries, each rounded. -/
def totalCents (db : TimeDb) (ids : List Uuid) : ℤ := (ids.map fun id => centsOf (db.minutesOf id)).sum

/-- The entries have nothing drawn yet and are all dated in the period `k` of the contract. -/
structure InPeriod (db : TimeDb) (contractId : Uuid) (item : BlockItemRow) (k : BalanceKey)
    (ids : List Uuid) : Prop where
  nodup : ids.Nodup
  item_eq : fetchBlockItem db.book contractId = some item
  dated : ∀ id ∈ ids, ∃ e, db.entries.find id = some e ∧ e.drawsOn = some contractId ∧
    item.covers e.date ∧ balanceKey contractId item e.date = k

/-- `a` hundredths of an hour remain in the period, whether its row exists or not. -/
def Remains (db : TimeDb) (item : BlockItemRow) (k : BalanceKey) (a : ℤ) : Prop :=
  (findBalance db.balances k = none ∧ item.included.unscaled = a) ∨
    ∃ b, findBalance db.balances k = some b ∧ b.hoursRemaining.unscaled = a

variable {db : TimeDb} {contractId : Uuid} {item : BlockItemRow} {k : BalanceKey} {ids : List Uuid}

theorem commitStamp_find_self {id : Uuid} {e : TimeEntry} (he : db.entries.find id = some e)
    (r : ConsumeOutcome × Table HourBalance.id) :
    (db.commitStamp id r).entries.find id = some (e.stamp r.1) := by
  simp only [commitStamp, Table.find_update_self, he, Option.map_some]

theorem commitStamp_find_ne {id id' : Uuid} (h : id' ≠ id)
    (r : ConsumeOutcome × Table HourBalance.id) :
    (db.commitStamp id r).entries.find id' = db.entries.find id' := by
  unfold commitStamp
  rw [Table.find_update_ne h]

theorem findBalance_update {t : Table HourBalance.id} {b : HourBalance} {f : HourBalance → HourBalance}
    (hk : ∀ r, (f r).periodKey = r.periodKey) (hb : findBalance t k = some b)
    (hf : ∀ r, (f r).id = r.id := by intro _; exact Eq.trans rfl rfl) :
    findBalance (t.update b.id f hf) k = some (f b) := by
  unfold findBalance at hb ⊢
  simp only [Table.update, Table.map, List.find?_map]
  have h1 : ((fun x : HourBalance => decide (x.periodKey = k)) ∘
      fun r => if r.id = b.id then f r else r) = fun x => decide (x.periodKey = k) := by
    funext r
    by_cases h : r.id = b.id <;> simp [h, hk]
  rw [h1, hb]
  simp

theorem findBalance_insert {t : Table HourBalance.id} {mk : ℕ → HourBalance}
    (hn : findBalance t k = none) (hm : (mk t.next).periodKey = k)
    (hk : ∀ i, (mk i).id = i := by intro _; exact Eq.trans rfl rfl) :
    findBalance (t.insert mk hk) k = some (mk t.next) := by
  unfold findBalance at hn ⊢
  simp [Table.insert, List.find?_append, hn, hm]

/-- A draw from a row, fresh or not, that has `a` hundredths left. -/
theorem stamped_spec {id : Uuid} {e : TimeEntry} (item : BlockItemRow) (b : HourBalance) {a : ℤ}
    (he : db.entries.find id = some e) (ha : 0 ≤ a) (hb : b.hoursRemaining.unscaled = a)
    (t : Table HourBalance.id) :
    ((db.commitStamp id (drawOutcome item b (hoursOf e.durationMinutes), t)).consumedOf id).unscaled =
        min (centsOf e.durationMinutes) a ∧
      ((db.commitStamp id (drawOutcome item b (hoursOf e.durationMinutes), t)).OverageAt id ↔
        a < centsOf e.durationMinutes) := by
  have hf := commitStamp_find_self he (drawOutcome item b (hoursOf e.durationMinutes), t)
  have hd : b.drawnCents e.durationMinutes = min (centsOf e.durationMinutes) a := by
    rw [HourBalance.drawnCents, hb, max_eq_left ha]
  constructor
  · have h1 := e.drawn_hoursConsumed item b
    rw [TimeEntry.drawn] at h1
    simp only [consumedOf, hf, Option.bind_some, h1, Option.getD_some, hd]
  · have h1 := e.drawn_overage_pos_iff item b
    rw [TimeEntry.drawn, hd] at h1
    constructor
    · rintro ⟨e', o, he', ho, hpos⟩
      rw [hf, Option.some.injEq] at he'
      subst he'
      have h2 := h1.mp ⟨o, ho, hpos⟩
      omega
    · intro hlt
      obtain ⟨o, ho, hpos⟩ := h1.mpr (by omega)
      exact ⟨_, o, hf, ho, hpos⟩

/-- One draw of an entry of the period: it applies what remains of its rounded hours, and the
others wait as before. -/
theorem consume_step {id : Uuid} {a : ℤ} (hp : db.InPeriod contractId item k (id :: ids))
    (ha : 0 ≤ a) (hr : db.Remains item k a) :
    ∃ db', db.consumeForEntry id = .ok db' ∧ db'.InPeriod contractId item k ids ∧
      db'.Remains item k (a - min (centsOf (db.minutesOf id)) a) ∧
      (db'.consumedOf id).unscaled = min (centsOf (db.minutesOf id)) a ∧
      (db'.OverageAt id ↔ a < centsOf (db.minutesOf id)) ∧
      ∀ id', id' ≠ id → db'.entries.find id' = db.entries.find id' := by
  obtain ⟨e, he, hd, hc, rfl⟩ := hp.dated id List.mem_cons_self
  have hm : db.minutesOf id = e.durationMinutes := by simp [minutesOf, he]
  have hnodup := List.nodup_cons.mp hp.nodup
  obtain ⟨db', hdb⟩ := exists_consumeForEntry he hd hp.item_eq hc
  rw [hm]
  -- The draw leaves the other entries of the period as they were.
  have hrest : ∀ r, db' = db.commitStamp id r →
      db'.InPeriod contractId item (balanceKey contractId item e.date) ids := by
    rintro r rfl
    refine ⟨hnodup.2, hp.item_eq, ?_⟩
    intro id' hid'
    have hne : id' ≠ id := fun h => hnodup.1 (h ▸ hid')
    rw [commitStamp_find_ne hne]
    exact hp.dated id' (List.mem_cons_of_mem _ hid')
  rcases consumeForEntry_eq_ok hdb with ⟨-, hnone⟩ | hdraw
  · exact absurd (hnone e he) (by simp [hd])
  · cases hdraw with
    | @existing e' c' item' b he' hd' hi' hc' hb' =>
        rw [he, Option.some.injEq] at he'
        subst he'
        rw [hd, Option.some.injEq] at hd'
        subst hd'
        rw [hp.item_eq, Option.some.injEq] at hi'
        subst hi'
        have hba : b.hoursRemaining.unscaled = a := by
          rcases hr with ⟨h, -⟩ | ⟨b', h, h'⟩
          · exact absurd hb' (by simp [h])
          · rw [hb', Option.some.injEq] at h
            rwa [h]
        obtain ⟨h1, h2⟩ := stamped_spec item b he ha hba
          (db.balances.update b.id (·.afterDraw e.durationMinutes))
        have hb'' : findBalance (db.balances.update b.id (·.afterDraw e.durationMinutes))
            (balanceKey contractId item e.date) = some (b.afterDraw e.durationMinutes) :=
          findBalance_update (f := (·.afterDraw e.durationMinutes)) (fun _ => rfl) hb'
        refine ⟨_, hdb, hrest _ rfl, .inr ⟨_, hb'', ?_⟩, h1, h2, fun id' h => commitStamp_find_ne h _⟩
        simp only [HourBalance.afterDraw, HourBalance.drawnCents, hba, max_eq_left ha]
    | @fresh e' c' item' he' hd' hi' hc' hb' =>
        rw [he, Option.some.injEq] at he'
        subst he'
        rw [hd, Option.some.injEq] at hd'
        subst hd'
        rw [hp.item_eq, Option.some.injEq] at hi'
        subst hi'
        have hia : item.included.unscaled = a := by
          rcases hr with ⟨-, h⟩ | ⟨b', h, -⟩
          · exact h
          · exact absurd hb' (by simp [h])
        obtain ⟨h1, h2⟩ := stamped_spec item
          (newBalance (balanceKey contractId item e.date) item.included 0 db.balances.next)
          he ha hia (db.balances.insert fun i =>
            (newBalance (balanceKey contractId item e.date) item.included 0 i).afterDraw
              e.durationMinutes)
        refine ⟨_, hdb, hrest _ rfl, .inr ⟨_, findBalance_insert hb' rfl, ?_⟩, h1, h2,
          fun id' h => commitStamp_find_ne h _⟩
        simp only [HourBalance.afterDraw, HourBalance.drawnCents, newBalance, hia, max_eq_left ha]

/-- Draws of a list of entries of the period apply the least of their rounded hours and what
remains, and record an overage exactly when the former is larger. -/
theorem drawAll_spec {a : ℤ} (hp : db.InPeriod contractId item k ids) (ha : 0 ≤ a)
    (hr : db.Remains item k a) :
    ∃ db', db.drawAll ids = .ok db' ∧
      (ids.map fun id => (db'.consumedOf id).unscaled).sum = min (db.totalCents ids) a ∧
      ((∃ id ∈ ids, db'.OverageAt id) ↔ a < db.totalCents ids) ∧
      ∀ id', id' ∉ ids → db'.entries.find id' = db.entries.find id' := by
  induction ids generalizing db a with
  | nil => exact ⟨db, rfl, by simp [totalCents, ha], by simp [totalCents, ha], fun _ _ => rfl⟩
  | cons id ids ih =>
      obtain ⟨db1, h1, hp1, hr1, hc1, ho1, hf1⟩ := consume_step hp ha hr
      obtain ⟨e, he, hd, -, -⟩ := hp.dated id List.mem_cons_self
      have hpos : 0 ≤ centsOf (db.minutesOf id) := by
        apply centsOf_nonneg
        have h := (TimeEntry.drawsOn_eq_some.mp hd).2.2.2.1
        simp [minutesOf, he, h.le]
      have hid : id ∉ ids := (List.nodup_cons.mp hp.nodup).1
      obtain ⟨db2, h2, hs2, ho2, hf2⟩ := ih hp1 (by omega) hr1
      -- The later draws do not touch this entry, and this one did not touch the later entries.
      have hsame : db2.entries.find id = db1.entries.find id := hf2 id hid
      have hcents : db1.totalCents ids = db.totalCents ids := by
        unfold totalCents minutesOf
        congr 1
        apply List.map_congr_left
        intro id' hid'
        rw [hf1 id' (fun h => hid (h ▸ hid'))]
      have htotal : db.totalCents (id :: ids) = centsOf (db.minutesOf id) + db.totalCents ids := by
        simp [totalCents]
      have hnn : 0 ≤ db.totalCents ids := by
        apply List.sum_nonneg
        intro x hx
        obtain ⟨id', hid', rfl⟩ := List.mem_map.mp hx
        obtain ⟨e', he', hd', -, -⟩ := hp.dated id' (List.mem_cons_of_mem _ hid')
        have h := (TimeEntry.drawsOn_eq_some.mp hd').2.2.2.1
        exact centsOf_nonneg (by simp [minutesOf, he', h.le])
      have hover : db2.OverageAt id ↔ db1.OverageAt id := by
        unfold OverageAt
        rw [hsame]
      refine ⟨db2, by rw [drawAll, h1]; exact h2, ?_, ?_, ?_⟩
      · have hc2 : (db2.consumedOf id).unscaled = min (centsOf (db.minutesOf id)) a := by
          rw [← hc1, consumedOf, consumedOf, hsame]
        rw [List.map_cons, List.sum_cons, hs2, hc2, hcents, htotal]
        omega
      · rw [htotal]
        constructor
        · rintro ⟨id', hid', hov⟩
          rcases List.mem_cons.mp hid' with rfl | hid'
          · have h := ho1.mp (hover.mp hov)
            omega
          · have h := ho2.mp ⟨id', hid', hov⟩
            rw [hcents] at h
            omega
        · intro hlt
          by_cases hle : a < centsOf (db.minutesOf id)
          · exact ⟨id, List.mem_cons_self, hover.mpr (ho1.mpr hle)⟩
          · obtain ⟨id', hid', hov⟩ := ho2.mpr (by rw [hcents]; omega)
            exact ⟨id', List.mem_cons_of_mem _ hid', hov⟩
      · intro id' hid'
        rw [List.mem_cons, not_or] at hid'
        rw [hf2 id' hid'.2, hf1 id' hid'.1]

/-- Reordering the entries keeps them in the period. -/
theorem InPeriod.perm {order : List Uuid} (hp : db.InPeriod contractId item k ids)
    (h : order.Perm ids) : db.InPeriod contractId item k order :=
  ⟨h.nodup_iff.mpr hp.nodup, hp.item_eq, fun id hid => hp.dated id (h.mem_iff.mp hid)⟩

theorem totalCents_perm {order : List Uuid} (h : order.Perm ids) :
    db.totalCents order = db.totalCents ids :=
  (h.map _).sum_eq

theorem totalApplied_eq (ids : List Uuid) :
    db.totalApplied ids = ((ids.map fun id => (db.consumedOf id).unscaled).sum : ℤ) / 100 := by
  unfold totalApplied
  induction ids with
  | nil => simp
  | cons id ids ih =>
      rw [List.map_cons, List.sum_cons, ih, List.map_cons, List.sum_cons, Numeric.toRat]
      push_cast
      ring

theorem sum_rounded_le_iff {h : Numeric 2} :
    (ids.map fun id => (Numeric.ofRat 2 (hoursOf (db.minutesOf id))).toRat).sum ≤ h.toRat ↔
      db.totalCents ids ≤ h.unscaled := by
  have h1 : ∀ l : List Uuid,
      (l.map fun id => (Numeric.ofRat 2 (hoursOf (db.minutesOf id))).toRat).sum =
        (⟨db.totalCents l⟩ : Numeric 2).toRat := by
    intro l
    induction l with
    | nil => simp [totalCents, Numeric.toRat]
    | cons id l ih =>
        rw [List.map_cons, List.sum_cons, ih, ← Numeric.toRat_add]
        rfl
  rw [h1, Numeric.toRat_le_iff, Numeric.le_iff_unscaled]

theorem InPeriod.totalMinutes_nonneg (hp : db.InPeriod contractId item k ids) :
    0 ≤ db.totalMinutes ids := by
  apply List.sum_nonneg
  intro x hx
  obtain ⟨id, hid, rfl⟩ := List.mem_map.mp hx
  obtain ⟨e, he, hd, -, -⟩ := hp.dated id hid
  simp [minutesOf, he, (TimeEntry.drawsOn_eq_some.mp hd).2.2.2.1.le]

end TimeDb

/-- What is claimed of a set of entries in a fresh period: no order of drawing them records an
overage, and every order applies the same hours. -/
def OrderlyDraws (db : TimeDb) (ids : List Uuid) : Prop :=
  (∀ order : List Uuid, order.Perm ids → ∃ db', db.drawAll order = .ok db' ∧
      ∀ id ∈ ids, ¬ db'.OverageAt id) ∧
    ∃ total : ℚ, ∀ order : List Uuid, order.Perm ids → ∀ db', db.drawAll order = .ok db' →
      db'.totalApplied ids = total

/-- **Overage within the allotment.**  For entries of a fresh period whose minutes are within its
allotment, no overage is recorded and the total is the same in every order, exactly when the sum of
their hours, each rounded to two decimals, is within the allotment as well. -/
theorem no_overage_iff {db : TimeDb} {contractId : Uuid} {item : BlockItemRow} {k : BalanceKey}
    {ids : List Uuid} (hp : db.InPeriod contractId item k ids)
    (hfresh : findBalance db.balances k = none) :
    ((db.totalMinutes ids : ℚ) ≤ 60 * item.included.toRat → OrderlyDraws db ids) ↔
      ((db.totalMinutes ids : ℚ) ≤ 60 * item.included.toRat →
        (ids.map fun id => (Numeric.ofRat 2 (hoursOf (db.minutesOf id))).toRat).sum ≤
          item.included.toRat) := by
  rw [TimeDb.sum_rounded_le_iff]
  refine forall_congr' fun hm => ?_
  have ha : 0 ≤ item.included.unscaled := by
    rw [← Numeric.toRat_nonneg_iff]
    have h : (0 : ℚ) ≤ db.totalMinutes ids := by exact_mod_cast hp.totalMinutes_nonneg
    linarith
  have hr : db.Remains item k item.included.unscaled := .inl ⟨hfresh, rfl⟩
  constructor
  · rintro ⟨h, -⟩
    obtain ⟨db1, h1, hno⟩ := h ids (List.Perm.refl ids)
    obtain ⟨db2, h2, -, hover, -⟩ := TimeDb.drawAll_spec hp ha hr
    rw [h1, Except.ok.injEq] at h2
    subst h2
    by_contra hlt
    obtain ⟨id, hid, hov⟩ := hover.mpr (not_le.mp hlt)
    exact hno id hid hov
  · intro hle
    refine ⟨?_, (db.totalCents ids : ℚ) / 100, ?_⟩
    · intro order hperm
      obtain ⟨db1, h1, -, hover, -⟩ := TimeDb.drawAll_spec (hp.perm hperm) ha hr
      refine ⟨db1, h1, fun id hid hov => ?_⟩
      have h := hover.mp ⟨id, hperm.mem_iff.mpr hid, hov⟩
      rw [TimeDb.totalCents_perm hperm] at h
      omega
    · intro order hperm db1 h1
      obtain ⟨db2, h2, hsum, -, -⟩ := TimeDb.drawAll_spec (hp.perm hperm) ha hr
      rw [h1, Except.ok.injEq] at h2
      subst h2
      rw [(hperm.map _).sum_eq, TimeDb.totalCents_perm hperm, min_eq_left hle] at hsum
      rw [TimeDb.totalApplied_eq, hsum]

/-- Entries of ten minutes, logged in January and not drawn yet, in a contract of one hour. -/
def tenMinuteEntries (n : ℕ) : TimeDb :=
  (List.replicate n (sampleRequest 10 (sampleDay 1 10))).foldl
    (fun db request => ((db.insertTimeEntry request).toOption.map Prod.snd).getD db)
    (sampleTimeDb (sampleBook ⟨100⟩ none))

/-- The block-hours item of that contract and its January. -/
def hourItem : BlockItemRow where
  id := 0
  includedHours := some ⟨100⟩
  overageRate := some ⟨15000⟩
  rolloverEnabled := some true
  maxRolloverHours := none
  billingCycle := some .monthly
  startDate := sampleDay 1 1
  endDate := none

theorem tenMinuteEntries_inPeriod (n : ℕ) (ids : List Uuid) (hn : ids.Nodup)
    (hi : fetchBlockItem (tenMinuteEntries n).book 0 = some hourItem)
    (h : ∀ id ∈ ids, ((tenMinuteEntries n).entries.find id).any (fun e =>
      decide (e.drawsOn = some 0 ∧ hourItem.covers e.date ∧
        balanceKey 0 hourItem e.date = ⟨0, 0, sampleDay 1 1, sampleDay 1 31⟩)) = true) :
    (tenMinuteEntries n).InPeriod 0 hourItem ⟨0, 0, sampleDay 1 1, sampleDay 1 31⟩ ids := by
  refine ⟨hn, hi, fun id hid => ?_⟩
  obtain ⟨e, he, hd⟩ := (Option.any_eq_true _ _).mp (h id hid)
  exact ⟨e, he, by simpa using hd⟩

/-- Six entries of ten minutes are an hour, but `0.17` six times is `1.02`: the sixth is stamped
with an overage of `0.02` hours. -/
theorem six_tens_exceed_an_hour :
    (tenMinuteEntries 6).InPeriod 0 hourItem ⟨0, 0, sampleDay 1 1, sampleDay 1 31⟩
        [0, 1, 2, 3, 4, 5] ∧
      findBalance (tenMinuteEntries 6).balances ⟨0, 0, sampleDay 1 1, sampleDay 1 31⟩ = none ∧
      ((tenMinuteEntries 6).totalMinutes [0, 1, 2, 3, 4, 5] : ℚ) ≤ 60 * hourItem.included.toRat ∧
      ¬ OrderlyDraws (tenMinuteEntries 6) [0, 1, 2, 3, 4, 5] := by
  have hp := tenMinuteEntries_inPeriod 6 [0, 1, 2, 3, 4, 5] (by decide)
    (by decide +kernel) (by decide +kernel)
  have hfresh : findBalance (tenMinuteEntries 6).balances
      ⟨0, 0, sampleDay 1 1, sampleDay 1 31⟩ = none := by decide +kernel
  refine ⟨hp, hfresh, by decide +kernel, ?_⟩
  rintro ⟨h, -⟩
  obtain ⟨db1, h1, hno⟩ := h _ (List.Perm.refl _)
  obtain ⟨db2, h2, -, hover, -⟩ := TimeDb.drawAll_spec (a := 100) hp (by decide)
    (.inl ⟨hfresh, rfl⟩)
  rw [h1, Except.ok.injEq] at h2
  subst h2
  obtain ⟨id, hid, hov⟩ := hover.mpr (by decide +kernel)
  exact hno id hid hov

/-- Five entries of ten minutes stay within the hour in every order. -/
theorem no_overage_iff_five_tens :
    ((tenMinuteEntries 5).totalMinutes [0, 1, 2, 3, 4] : ℚ) ≤ 60 * hourItem.included.toRat ∧
      OrderlyDraws (tenMinuteEntries 5) [0, 1, 2, 3, 4] := by
  have hm : ((tenMinuteEntries 5).totalMinutes [0, 1, 2, 3, 4] : ℚ) ≤
      60 * hourItem.included.toRat := by decide +kernel
  have hp := tenMinuteEntries_inPeriod 5 [0, 1, 2, 3, 4] (by decide)
    (by decide +kernel) (by decide +kernel)
  exact ⟨hm, (no_overage_iff hp (by decide +kernel)).mpr (fun _ => by decide +kernel) hm⟩

end Mokosh
