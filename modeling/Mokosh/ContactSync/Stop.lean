import Mokosh.Lib.Transition
import Mokosh.ContactSync.Passes

/-! # A person's stop

A record that a person has unlinked is remembered by its link row, and one whose imported data was
removed by its digest in `contact_sync_suppressions` (`Stopped`).  A sync excludes both
(`stopped_not_written`), and no event takes the memory away but one: the deletion of a contact takes
its link rows along, the unlinked ones too.  Where a deleted contact holds no unlinked record that
is remembered nowhere else (`KeepsStops`), a stop lasts (`stop_wins`); without that it is forgotten
(`deleted_contact_forgets`). -/

namespace Mokosh.ContactSync

open Relation (ReflTransGen)

variable {rt : Runtime} {db db' : SyncDb}

/-- The outcome wrote a contact from the record. -/
def Outcome.writesContact : Outcome → Bool
  | created _ _ | linked _ _ | updated => true
  | unchanged | queued | awaitingReview | alreadyReviewed | notSelected | excluded
  | deletedInSource => false

namespace SyncDb

/-- A link row of the record says that a person stopped it. -/
def Unlinked (db : SyncDb) (connectionId : Uuid) (externalId : String) : Prop :=
  ∃ l ∈ db.links, l.connectionId = connectionId ∧ l.externalId = externalId ∧
    l.unlinkReason = some .unlinked

/-- The imported data of the record was removed. -/
def Suppressed (rt : Runtime) (db : SyncDb) (provider externalId : String) : Prop :=
  (provider, externalIdDigest rt externalId) ∈ db.suppressions

instance (provider externalId : String) : Decidable (db.Suppressed rt provider externalId) :=
  inferInstanceAs (Decidable (_ ∈ _))

/-- The link names the provider of its connection. -/
def NamesProvider (db : SyncDb) (l : Link) : Prop :=
  ∃ k ∈ db.connections, k.id = l.connectionId ∧ k.provider = l.provider

def LinkProviders (db : SyncDb) : Prop := ∀ l ∈ db.links, db.NamesProvider l

/-- The record of a link is stopped. -/
def Stopped (rt : Runtime) (db : SyncDb) (l : Link) : Prop :=
  db.NamesProvider l ∧
    (db.Unlinked l.connectionId l.externalId ∨ db.Suppressed rt l.provider l.externalId)

/-- No sync of the connection writes a contact from the record. -/
def NeverImports (rt : Runtime) (db : SyncDb) (connectionId : Uuid) (externalId : String) : Prop :=
  ∀ source opts st, passOf rt db connectionId source opts = some st →
    ∀ p ∈ st.outcomes, p.1.externalId = externalId → p.2.writesContact = false

end SyncDb

/-- What a run promises the people who stop a record: after an unlink no later sync of that
connection writes a contact from it, and after a removal none of that provider does. -/
def StopsWin (rt : Runtime) (db : SyncDb) (es : List SyncEvent) : Prop :=
  ∀ es₁ e es₂ es₃ s s' t, es = es₁ ++ e :: (es₂ ++ es₃) →
    run (SyncDb.step rt) db es₁ = some s → s.step rt e = some s' →
    run (SyncDb.step rt) s' es₂ = some t →
    (∀ contactId, e = .unlink contactId → ∀ l ∈ s.liveLinksOf contactId,
      t.NeverImports rt l.connectionId l.externalId) ∧
    (∀ contactId reason outside, e = .removeImportedData contactId reason outside →
      ∀ l ∈ s.linksOf contactId, ∀ k ∈ t.connections, k.provider = l.provider →
        t.NeverImports rt k.id l.externalId)

/-! ### One sync -/

theorem snapshot_excludes {connectionId : Uuid} {provider externalId : String} :
    (db.snapshot rt connectionId provider).excludes rt externalId = true ↔
      db.Unlinked connectionId externalId ∨ db.Suppressed rt provider externalId := by
  have h1 : externalId ∈ (db.snapshot rt connectionId provider).unlinked ↔
      db.Unlinked connectionId externalId := by
    simp only [SyncDb.snapshot, SyncDb.Unlinked, Table.mem_def, List.mem_map, List.mem_filter,
      decide_eq_true_eq]
    constructor
    · rintro ⟨l, ⟨hl, h1, h2⟩, h3⟩
      exact ⟨l, hl, h1, h3, h2⟩
    · rintro ⟨l, hl, h1, h3, h2⟩
      exact ⟨l, ⟨hl, h1, h2⟩, h3⟩
  have h2 : externalIdDigest rt externalId ∈ (db.snapshot rt connectionId provider).suppressed ↔
      db.Suppressed rt provider externalId := by
    simp [SyncDb.snapshot, SyncDb.Suppressed]
  rw [Snapshot.excludes, Bool.or_eq_true, decide_eq_true_eq, decide_eq_true_eq, h1, h2]

/-- A record that is stopped when a sync begins is excluded from it. -/
theorem stopped_not_written {connectionId : Uuid} {source : Source} {opts : RunOptions}
    {st : PassState} {externalId : String} (hst : passOf rt db connectionId source opts = some st)
    (hs : db.Unlinked connectionId externalId ∨ db.Suppressed rt source.provider externalId) :
    ∀ p ∈ st.outcomes, p.1.externalId = externalId → p.2.writesContact = false := by
  obtain ⟨connection, groups, changes, hstart, -, rfl⟩ := passOf_eq_some.mp hst
  obtain ⟨hfind, hprov, -⟩ := startRun_eq_ok.mp hstart
  have hid : connection.id = connectionId := Table.key_of_find hfind
  rw [passOver_outcomes]
  refine applyRecords_outcomes (P := fun st => st.snapshot.excludes rt externalId = true)
    (Q := fun r o => r.externalId = externalId → o.writesContact = false) ?_ ?_ ?_ ?_
  · intro refused st r _ h
    rcases applyOne_cases _ refused st r with he | ⟨db', o, -, he⟩
    · rw [he]
      exact h
    · rw [he]
      exact (Snapshot.after_excludes _).trans h
  · rintro st r - h db' o hok rfl
    have ha := applyRecord_cases hok
    rw [plan_excluded (show st.snapshot.excludes (passContext rt connection source groups
      changes).rt r.externalId = true from h)] at ha
    cases ha with
    | idle h => cases h; rfl
  · exact snapshot_excludes.mpr (hid ▸ hprov ▸ hs)
  · intro p hp
    exact absurd hp List.not_mem_nil

/-! ### What keeps a stop -/

theorem SyncWrite.unlinked {connectionId : Uuid} {externalId : String} (h : SyncWrite db db')
    (hu : db.Unlinked connectionId externalId) : db'.Unlinked connectionId externalId := by
  obtain ⟨l, hl, h1, h2, h3⟩ := hu
  cases h with
  | fields | candidates | importContact | setStatus | finish => exact ⟨l, hl, h1, h2, h3⟩
  | link => exact ⟨l, (Table.mem_insert).mpr (.inl hl), h1, h2, h3⟩
  | flagDeleted | touchLink =>
      refine ⟨_, (Table.mem_update).mpr ⟨l, hl, rfl⟩, ?_, ?_, ?_⟩ <;> split <;> assumption

/-- Connections keep their ids and their providers. -/
theorem namesProvider_mono {l : Link}
    (hc : ∀ k ∈ db.connections, ∃ k' ∈ db'.connections, k'.id = k.id ∧ k'.provider = k.provider)
    (h : db.NamesProvider l) : db'.NamesProvider l := by
  obtain ⟨k, hk, h1, h2⟩ := h
  obtain ⟨k', hk', h3, h4⟩ := hc k hk
  exact ⟨k', hk', h3.trans h1, h4.trans h2⟩

theorem SyncWrite.namesProvider {l : Link} (h : SyncWrite db db') (hl : db.NamesProvider l) :
    db'.NamesProvider l :=
  namesProvider_mono (fun k hk => h.hasConnection ⟨k, hk, rfl, rfl⟩) hl

theorem SyncWrite.linkProviders (h : SyncWrite db db') (hp : db.LinkProviders) :
    db'.LinkProviders := by
  intro l hl
  apply h.namesProvider
  cases h with
  | fields | candidates | importContact | setStatus | finish => exact hp l hl
  | link hc =>
      rcases (Table.mem_insert).mp hl with hl | rfl
      · exact hp l hl
      · exact hc
  | flagDeleted | touchLink =>
      obtain ⟨l', hl', rfl⟩ := (Table.mem_update).mp hl
      split <;> exact hp l' hl'

theorem SyncWrite.suppressed {provider externalId : String} (h : SyncWrite db db')
    (hs : db.Suppressed rt provider externalId) : db'.Suppressed rt provider externalId := by
  unfold SyncDb.Suppressed
  rw [h.frame.2.1]
  exact hs

/-- What a stop rests on, from one state to the next. -/
structure Keeps (rt : Runtime) (db db' : SyncDb) : Prop where
  providers : db'.LinkProviders
  suppressed : ∀ {provider externalId : String}, db.Suppressed rt provider externalId →
    db'.Suppressed rt provider externalId
  stopped : ∀ {l : Link}, db.Stopped rt l → db'.Stopped rt l

theorem writes_keep (hp : db.LinkProviders) (h : ReflTransGen SyncWrite db db') :
    Keeps rt db db' := by
  induction h with
  | refl => exact ⟨hp, id, id⟩
  | tail _ hw ih =>
      exact ⟨hw.linkProviders ih.providers, fun h => hw.suppressed (ih.suppressed h),
        fun h => (ih.stopped h).imp hw.namesProvider (Or.imp hw.unlinked hw.suppressed)⟩

theorem mem_suppress {suppressions : List (String × String)} {links : List Link}
    {s : String × String} : s ∈ SyncDb.suppress rt suppressions links ↔
      s ∈ suppressions ∨ ∃ l ∈ links, s = (l.provider, externalIdDigest rt l.externalId) := by
  unfold SyncDb.suppress
  induction links generalizing suppressions with
  | nil => simp
  | cons l links ih =>
      rw [List.foldl_cons, ih]
      split
      · next hm =>
        simp only [List.mem_cons, exists_eq_or_imp]
        constructor
        · rintro (h | h)
          · exact .inl h
          · exact .inr (.inr h)
        · rintro (h | rfl | h)
          · exact .inl h
          · exact .inl hm
          · exact .inr h
      · simp only [List.mem_append, List.mem_cons, exists_eq_or_imp, or_assoc, List.not_mem_nil,
          false_or]

/-- The unlinked records of a deleted contact are remembered by another row or by a suppression. -/
def KeepsStops (rt : Runtime) (db : SyncDb) : SyncEvent → Prop
  | .deleteContact contactId _ =>
    ∀ l ∈ db.links.rows, l.contactId = contactId → l.unlinkReason = some .unlinked →
      db.Suppressed rt l.provider l.externalId ∨
        ∃ l' ∈ db.links.rows, l'.contactId ≠ contactId ∧ l'.connectionId = l.connectionId ∧
          l'.externalId = l.externalId ∧ l'.unlinkReason = some .unlinked
  | _ => True

/-- The rule for an event that removes and closes links. -/
theorem Keeps.of (hp : db.LinkProviders)
    (hc : ∀ k ∈ db.connections, ∃ k' ∈ db'.connections, k'.id = k.id ∧ k'.provider = k.provider)
    (hl : ∀ l ∈ db'.links, ∃ l' ∈ db.links,
      l'.connectionId = l.connectionId ∧ l'.provider = l.provider)
    (hs : ∀ s ∈ db.suppressions, s ∈ db'.suppressions)
    (hu : ∀ l ∈ db.links, l.unlinkReason = some .unlinked →
      db'.Unlinked l.connectionId l.externalId ∨ db'.Suppressed rt l.provider l.externalId) :
    Keeps rt db db' := by
  refine ⟨?_, fun h => hs _ h, ?_⟩
  · intro l hm
    obtain ⟨l', hm', h1, h2⟩ := hl l hm
    obtain ⟨k, hk, h3, h4⟩ := namesProvider_mono hc (hp l' hm')
    exact ⟨k, hk, h3.trans h1, h4.trans h2⟩
  · rintro l ⟨hn, ⟨l', hm', h1, h2, h3⟩ | hsupp⟩
    · refine ⟨namesProvider_mono hc hn, ?_⟩
      -- The row and the link name one connection, so they name one provider.
      have hprov : l'.provider = l.provider := by
        obtain ⟨k, hk, h4, h5⟩ := hn
        obtain ⟨k', hk', h6, h7⟩ := hp l' hm'
        have he : k = k' := Table.eq_of_key_eq hk hk' (h4.trans (h1.symm.trans h6.symm))
        exact h7.symm.trans (he ▸ h5)
      rw [← h1, ← h2, ← hprov]
      exact hu l' hm' h3
    · exact ⟨namesProvider_mono hc hn, .inr (hs _ hsupp)⟩

theorem exists_mem_update {id : Uuid} {f : Connection → Connection}
    (hid : ∀ c, (f c).id = c.id) (hprov : ∀ c, (f c).provider = c.provider)
    {t : Table Connection.id} {k : Connection} (hk : k ∈ t) :
    ∃ k' ∈ t.update id f hid, k'.id = k.id ∧ k'.provider = k.provider := by
  refine ⟨_, (Table.mem_update hid).mpr ⟨k, hk, rfl⟩, ?_⟩
  split
  · exact ⟨hid k, hprov k⟩
  · exact ⟨rfl, rfl⟩

/-- Links that are closed name the connections they named. -/
theorem mem_close {reason : UnlinkReason} {p : Link → Bool} {t : Table Link.id} {l : Link}
    (hl : l ∈ t.map (Link.close reason p) (Link.close_id _ _)) :
    ∃ l' ∈ t, l'.connectionId = l.connectionId ∧ l'.provider = l.provider := by
  obtain ⟨l', hl', rfl⟩ := Table.mem_map.mp hl
  refine ⟨l', hl', ?_⟩
  unfold Link.close
  split <;> exact ⟨rfl, rfl⟩

theorem close_mem_map (reason : UnlinkReason) (p : Link → Bool) {t : Table Link.id} {l : Link}
    (hl : l ∈ t) : l.close reason p ∈ t.map (Link.close reason p) (Link.close_id _ _) :=
  Table.mem_map.mpr ⟨l, hl, rfl⟩

/-- A row that is closed already stays as it is. -/
theorem mem_close_of_unlinked {reason : UnlinkReason} {p : Link → Bool} {t : Table Link.id}
    {l : Link} (hl : l ∈ t) (h : l.unlinkReason = some .unlinked) :
    l ∈ t.map (Link.close reason p) (Link.close_id _ _) :=
  Table.mem_map.mpr ⟨l, hl, by simp [Link.close, Link.isLive, h]⟩

theorem unlink_keeps {contactId : Uuid} (hp : db.LinkProviders)
    (h : db.unlink contactId = .ok db') : Keeps rt db db' := by
  obtain rfl := unlink_eq_ok h
  exact .of hp (fun k hk => ⟨k, hk, rfl, rfl⟩) (fun l hl => mem_close hl) (fun _ h => h)
    fun l hl hu => .inl ⟨l, mem_close_of_unlinked hl hu, rfl, rfl, hu⟩

theorem disconnect_keeps {provider : String} (hp : db.LinkProviders)
    (h : db.disconnect provider = .ok db') : Keeps rt db db' := by
  obtain ⟨k, -, rfl⟩ := disconnect_eq_ok h
  exact .of hp (fun k hk => exists_mem_update (by intro _; rfl) (by intro _; rfl) hk)
    (fun l hl => mem_close hl) (fun _ h => h)
    fun l hl hu => .inl ⟨l, mem_close_of_unlinked hl hu, rfl, rfl, hu⟩

/-- The rule for an event that writes on connections only. -/
theorem Keeps.of_connections (hp : db.LinkProviders)
    (hc : ∀ k ∈ db.connections, ∃ k' ∈ db'.connections, k'.id = k.id ∧ k'.provider = k.provider)
    (hl : db'.links = db.links) (hs : db'.suppressions = db.suppressions) : Keeps rt db db' :=
  .of hp hc (fun l h => ⟨l, hl ▸ h, rfl, rfl⟩) (fun _ h => hs ▸ h)
    fun l h hu => .inl ⟨l, hl ▸ h, rfl, rfl, hu⟩

theorem setSelection_keeps {provider : String} {groupIds : List String} (hp : db.LinkProviders)
    (h : db.setSelection provider groupIds = .ok db') : Keeps rt db db' := by
  obtain ⟨k, -, rfl⟩ := setSelection_eq_ok h
  exact .of_connections hp
    (fun k hk => exists_mem_update (by intro _; rfl) (by intro _; rfl) hk) rfl rfl

theorem recordConnection_keeps {provider accountEmail : String} {neverSynced : Bool}
    (hp : db.LinkProviders) (h : db.recordConnection provider accountEmail neverSynced = .ok db') :
    Keeps rt db db' := by
  obtain ⟨k, -, rfl⟩ | ⟨-, rfl⟩ := recordConnection_eq_ok h
  · exact .of_connections hp
      (fun k hk => exists_mem_update (by intro _; rfl) (by intro _; rfl) hk) rfl rfl
  · exact .of_connections hp (fun k hk => ⟨k, (Table.mem_insert).mpr (.inl hk), rfl, rfl⟩) rfl rfl

/-- A removal forgets the contact's rows only with their records suppressed. -/
theorem removeImportedData_suppresses {contactId : Uuid} {reason : String}
    {outside : Option AppError}
    (h : db.removeImportedData rt contactId reason outside = .ok db') :
    db'.connections = db.connections ∧
      db'.suppressions = SyncDb.suppress rt db.suppressions (db.linksOf contactId) ∧
      ∀ l, l ∈ db'.links ↔ l ∈ db.links ∧ l.contactId ≠ contactId := by
  obtain rfl | rfl := removeImportedData_eq_ok h
  · exact ⟨rfl, rfl, fun l => by simp [SyncDb.forgetImport, Table.mem_filter]⟩
  · exact ⟨rfl, rfl, fun l => by
      simp [SyncDb.forgetImport, SyncDb.eraseContact, Table.mem_filter]⟩

theorem mem_linksOf {contactId : Uuid} {l : Link} :
    l ∈ db.linksOf contactId ↔ l ∈ db.links ∧ l.contactId = contactId := by
  simp [SyncDb.linksOf, Table.mem_def]

theorem removeImportedData_keeps {contactId : Uuid} {reason : String} {outside : Option AppError}
    (hp : db.LinkProviders) (h : db.removeImportedData rt contactId reason outside = .ok db') :
    Keeps rt db db' := by
  obtain ⟨h1, h2, h3⟩ := removeImportedData_suppresses h
  refine .of hp (fun k hk => ⟨k, h1 ▸ hk, rfl, rfl⟩) (fun l hl => ⟨l, ((h3 l).mp hl).1, rfl, rfl⟩)
    (fun s hs => by rw [h2]; exact mem_suppress.mpr (.inl hs)) ?_
  intro l hl hu
  by_cases hc : l.contactId = contactId
  · right
    unfold SyncDb.Suppressed
    rw [h2]
    exact mem_suppress.mpr (.inr ⟨l, mem_linksOf.mpr ⟨hl, hc⟩, rfl⟩)
  · exact .inl ⟨l, (h3 l).mpr ⟨hl, hc⟩, rfl, rfl, hu⟩

theorem deleteContact_keeps {contactId : Uuid} {outside : Option AppError} (hp : db.LinkProviders)
    (hk : KeepsStops rt db (.deleteContact contactId outside))
    (h : db.deleteContact contactId outside = .ok db') : Keeps rt db db' := by
  obtain rfl := deleteContact_eq_ok h
  refine .of hp (fun k hk => ⟨k, hk, rfl, rfl⟩)
    (fun l hl => ⟨l, (Table.mem_filter.mp hl).1, rfl, rfl⟩) (fun _ h => h) ?_
  intro l hl hu
  by_cases hc : l.contactId = contactId
  · rcases hk l hl hc hu with hs | ⟨l', hl', hne, h1, h2, h3⟩
    · exact .inr hs
    · exact .inl ⟨l', Table.mem_filter.mpr ⟨hl', by simpa using hne⟩, h1, h2, h3⟩
  · exact .inl ⟨l, Table.mem_filter.mpr ⟨hl, by simpa using hc⟩, rfl, rfl, hu⟩

theorem editContact_keeps {contactId : Uuid} {edit : ContactEdit} (hp : db.LinkProviders)
    (h : db.editContact contactId edit = .ok db') : Keeps rt db db' := by
  obtain ⟨c, -, ⟨-, rfl⟩ | ⟨-, rfl⟩⟩ := editContact_eq_ok h
  · exact .of_connections hp (fun k hk => ⟨k, hk, rfl, rfl⟩) rfl rfl
  · exact .of_connections hp (fun k hk => ⟨k, hk, rfl, rfl⟩) rfl rfl

/-- Every event that meets the condition keeps what a stop rests on. -/
theorem step_keeps {e : SyncEvent} (hp : db.LinkProviders) (hk : KeepsStops rt db e)
    (h : db.step rt e = some db') : Keeps rt db db' := by
  cases e with
  | sync connectionId source opts =>
      cases h
      exact writes_keep hp (runTracked_writes rt db connectionId source opts)
  | resolve enabled r => exact writes_keep hp (resolve_writes (toOption_eq_some h))
  | setSelection provider ids => exact setSelection_keeps hp (toOption_eq_some h)
  | connect provider email never => exact recordConnection_keeps hp (toOption_eq_some h)
  | disconnect provider => exact disconnect_keeps hp (toOption_eq_some h)
  | unlink contactId => exact unlink_keeps hp (toOption_eq_some h)
  | removeImportedData contactId reason outside =>
      exact removeImportedData_keeps hp (toOption_eq_some h)
  | deleteContact contactId outside => exact deleteContact_keeps hp hk (toOption_eq_some h)
  | releaseLock contactId field =>
      rw [releaseLock_eq_ok (toOption_eq_some h)]
      exact ⟨hp, id, id⟩
  | edit contactId edit => exact editContact_keeps hp (toOption_eq_some h)

/-! ### Whole runs -/

/-- The run rule: what a stop rests on is kept by every run whose steps meet the condition. -/
theorem run_keeps {es : List SyncEvent} (hp : db.LinkProviders)
    (hes : StepsMeet (SyncDb.step rt) (KeepsStops rt) db es)
    (hr : run (SyncDb.step rt) db es = some db') : Keeps rt db db' := by
  refine run_invariant_of_stepsMeet (fun s => Keeps rt db s) ?_ ⟨hp, id, id⟩ hes hr
  intro s e s' h hk hs
  have h' := step_keeps h.providers hk hs
  exact ⟨h'.providers, fun x => h'.suppressed (h.suppressed x), fun x => h'.stopped (h.stopped x)⟩

/-- The record of a link that an unlink closes is stopped. -/
theorem unlink_stops {contactId : Uuid} {l : Link} (hp : db.LinkProviders)
    (h : db.unlink contactId = .ok db') (hl : l ∈ db.liveLinksOf contactId) :
    db'.Stopped rt l := by
  obtain ⟨hm, hc⟩ := List.mem_filter.mp hl
  simp only [Bool.and_eq_true, decide_eq_true_eq] at hc
  obtain rfl := unlink_eq_ok h
  refine ⟨hp l hm, .inl ⟨_, close_mem_map _ _ hm, ?_⟩⟩
  simp [Link.close, hc.1, hc.2]

/-- The records of a removal are suppressed. -/
theorem removal_suppresses {contactId : Uuid} {reason : String} {outside : Option AppError}
    {l : Link} (h : db.removeImportedData rt contactId reason outside = .ok db')
    (hl : l ∈ db.linksOf contactId) : db'.Suppressed rt l.provider l.externalId := by
  unfold SyncDb.Suppressed
  rw [(removeImportedData_suppresses h).2.1]
  exact mem_suppress.mpr (.inr ⟨l, hl, rfl⟩)

/-- In every run in which no deleted contact takes the last memory of an unlinked record along, a
person's stop wins. -/
theorem stop_wins {es : List SyncEvent} (hp : db.LinkProviders)
    (hes : StepsMeet (SyncDb.step rt) (KeepsStops rt) db es) : StopsWin rt db es := by
  rintro es₁ e es₂ es₃ s s' t rfl hr hs hr'
  obtain ⟨h1, h2⟩ := stepsMeet_append.mp hes
  obtain ⟨he, h3⟩ := h2 s hr
  have hps := (run_keeps hp h1 hr).providers
  have hps' := (step_keeps hps he hs).providers
  have hk := run_keeps hps' (stepsMeet_append.mp (h3 s' hs)).1 hr'
  constructor
  · rintro contactId rfl l hl source opts st hst
    obtain ⟨⟨k, hkm, hid, hprov⟩, hstop⟩ :=
      hk.stopped (show s'.Stopped rt l from unlink_stops hps (toOption_eq_some hs) hl)
    refine stopped_not_written hst (hstop.imp id fun h => ?_)
    obtain ⟨connection, _, _, hstart, -, -⟩ := passOf_eq_some.mp hst
    obtain ⟨hfind, hp', -⟩ := startRun_eq_ok.mp hstart
    rwa [← hp', ← Table.eq_of_find hfind hkm hid, hprov]
  · rintro contactId reason outside rfl l hl k hkm hprov source opts st hst
    have hsupp := hk.suppressed (removal_suppresses (toOption_eq_some hs) hl)
    refine stopped_not_written hst (.inr ?_)
    obtain ⟨connection, _, _, hstart, -, -⟩ := passOf_eq_some.mp hst
    obtain ⟨hfind, hp', -⟩ := startRun_eq_ok.mp hstart
    rwa [← hp', ← Table.eq_of_find hfind hkm rfl, hprov]

/-! ### A stop that is forgotten -/

/-- An address book with one record in the group that is imported. -/
def oneRecordSource : Source :=
  clientsSource
    [{ externalId := "people/c1", givenName := some "Ada", groupIds := ["contactGroups/a"] }]

/-- A first import, and the stop of its only record. -/
def importAndUnlink : List SyncEvent :=
  [.connect "google" "admin@example.com" true, .setSelection "google" ["contactGroups/a"],
    .sync 0 oneRecordSource {}, .unlink 0]

/-- The contact of the unlinked record is deleted, and the next sync creates it anew. -/
theorem deleted_contact_forgets :
    ¬ StopsWin asciiRuntime .fresh (importAndUnlink ++ [.deleteContact 0 none]) := by
  intro h
  have hrun : ((run (SyncDb.step asciiRuntime) .fresh (importAndUnlink.take 3)).any fun s =>
      (s.step asciiRuntime (.unlink 0)).any fun s' =>
        (run (SyncDb.step asciiRuntime) s' [.deleteContact 0 none]).any fun t =>
          (s.liveLinksOf 0).any fun l =>
            (passOf asciiRuntime t l.connectionId oneRecordSource {}).any fun st =>
              st.outcomes.any fun p =>
                decide (p.1.externalId = l.externalId) && p.2.writesContact) = true := by
    decide +kernel
  simp only [Option.any_eq_true, List.any_eq_true, Bool.and_eq_true, decide_eq_true_eq] at hrun
  obtain ⟨s, hs, s', hs', t, ht, l, hl, st, hst, p, hp, hid, hw⟩ := hrun
  have hstop := (h _ (.unlink 0) _ [] s s' t rfl hs hs' ht).1 0 rfl l hl _ _ st hst p hp hid
  exact absurd (hw.symm.trans hstop) (by decide)

/-- Without the deletion the stop lasts. -/
theorem stop_wins_import : StopsWin asciiRuntime .fresh importAndUnlink :=
  stop_wins (fun l hl => absurd hl (Table.not_mem_empty l)) ⟨trivial, fun _ _ => ⟨trivial, fun _ _ =>
    ⟨trivial, fun _ _ => ⟨trivial, fun _ _ => trivial⟩⟩⟩⟩

end Mokosh.ContactSync
