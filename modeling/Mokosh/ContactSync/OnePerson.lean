import Mathlib.Data.List.Pairwise
import Mokosh.ContactSync.Passes

/-! # One person, one contact

A record is matched by all of its addresses, and what the pass has created is remembered by one address
of it, the one that the contact stores.  Two records that share another address are two contacts if
nothing else tells that they are one person, and whether something does depends on their order.

* `SharesAddress`: two records have an address of one key.
* `Finds`: the later record finds what the pass remembers of the earlier one, by its stored address, by
  a phone, or by name and company.

**`one_person_one_contact`**: whatever the server holds, a pass over an answer creates a contact from at
most one of two records that share an address, if and only if each record of the answer finds every
earlier one with which it shares an address.  `TwoAddresses.two_contacts` is a pass that creates both. -/

namespace Mokosh.ContactSync

/-- Some address of the one has the key of an address of the other. -/
def SharesAddress (rt : Runtime) (r r' : SourceContact) : Prop :=
  ∃ k ∈ r.emails.filterMap (emailKey rt), k ∈ r'.emails.filterMap (emailKey rt)

instance (rt : Runtime) (r r' : SourceContact) : Decidable (SharesAddress rt r r') :=
  inferInstanceAs (Decidable (∃ k ∈ _, _))

/-- What a pass remembers of a record from which it has created a contact. -/
def rememberedAs (rt : Runtime) (contactId : Uuid) (record : SourceContact) : LocalContact :=
  let mapped := mapContact rt record
  localFromValues rt contactId mapped.email (mapped.phones.map (·.number))
    (mapped.firstName ++ " " ++ mapped.lastName) mapped.companyName.toList true

/-- The later record `r'` finds what is remembered of `r`. -/
def Finds (rt : Runtime) (r r' : SourceContact) : Bool :=
  ((rememberedAs rt 0 r).reason (r'.incoming rt)).isSome

/-- A record that some selection of groups imports. -/
def SourceContact.Importable (r : SourceContact) : Prop := r.deleted = false ∧ r.groupIds ≠ []

instance (r : SourceContact) : Decidable r.Importable := inferInstanceAs (Decidable (_ ∧ _))

def Outcome.isCreated : Outcome → Bool
  | created _ _ => true
  | _ => false

/-- No two records that share an address were both made contacts. -/
def OnePerContact (rt : Runtime) (outcomes : List (SourceContact × Outcome)) : Prop :=
  outcomes.Pairwise fun p p' =>
    p.2.isCreated = true → p'.2.isCreated = true → ¬SharesAddress rt p.1 p'.1

instance (rt : Runtime) (outcomes : List (SourceContact × Outcome)) :
    Decidable (OnePerContact rt outcomes) :=
  inferInstanceAs (Decidable (outcomes.Pairwise _))

/-- Each record of the answer finds the earlier ones with which it shares an address. -/
def FindsShared (rt : Runtime) (records : List SourceContact) : Prop :=
  records.Pairwise fun r r' =>
    r.Importable → r'.Importable → SharesAddress rt r r' → Finds rt r r' = true

instance (rt : Runtime) (records : List SourceContact) : Decidable (FindsShared rt records) :=
  inferInstanceAs (Decidable (records.Pairwise _))

/-! ### What is created -/

section Plan

variable {rt : Runtime}

/-- The id of a contact is no reason to ask about it. -/
theorem reason_rememberedAs (contactId : Uuid) (r : SourceContact) (incoming : IncomingKeys) :
    (rememberedAs rt contactId r).reason incoming = (rememberedAs rt 0 r).reason incoming := rfl

/-- A contact without an address, a phone and a company is found by nobody. -/
theorem reason_eq_none {l : LocalContact} (he : l.emailKeys = []) (hp : l.phoneKeys = [])
    (hc : l.companyKeys = []) (incoming : IncomingKeys) : l.reason incoming = none := by
  simp [LocalContact.reason, LocalContact.sharesEmail, LocalContact.sharesPhone,
    LocalContact.sharesNameAndCompany, he, hp, hc]

theorem decideMatch_eq_create {incoming : IncomingKeys} {locals : List LocalContact} :
    decideMatch incoming locals = .create ↔ ∀ l ∈ locals, l.reason incoming = none := by
  rw [← proposals_eq_nil]
  obtain ⟨l, hl, -, he⟩ | ⟨he, hnil⟩ | ⟨he, hne⟩ := decideMatch_cases incoming locals
  · have hm : l ∈ locals.filter (·.sharesEmail incoming) := hl ▸ List.mem_singleton_self l
    obtain ⟨hmem, hshare⟩ := List.mem_filter.mp hm
    rw [he, proposals_eq_nil]
    refine ⟨nofun, fun h => ?_⟩
    have hreason := h l hmem
    rw [LocalContact.reason, if_pos hshare] at hreason
    cases hreason
  · simp [he, hnil]
  · simp [he, hne]

/-- A contact is created from a record that may be imported and finds nobody. -/
theorem plan_eq_create {record : SourceContact} {selected : List String} {s : Snapshot}
    {fullRead : Bool} : (∃ suggestion, plan rt record selected s fullRead = .create suggestion) ↔
      s.excludes rt record.externalId = false ∧ record.deleted = false ∧
      s.findLink record.externalId = none ∧ record.isSelected selected = true ∧
      record.externalId ∉ s.skipped ∧ ∀ l ∈ s.locals, l.reason (record.incoming rt) = none := by
  rw [← decideMatch_eq_create]
  unfold plan
  cases s.excludes rt record.externalId with
  | true => simp
  | false =>
      cases record.deleted with
      | true =>
          simp only [Bool.false_eq_true, if_false, if_true]
          split
          · split <;> simp
          · simp
      | false =>
          cases hl : s.findLink record.externalId with
          | some link =>
              simp only [Bool.false_eq_true, if_false]
              split
              · simp
              · split <;> simp
          | none =>
              cases hsel : record.isSelected selected with
              | false => simp [refusedBySelection, hsel]
              | true =>
                  by_cases hskip : record.externalId ∈ s.skipped
                  · simp [refusedBySelection, hsel, hskip]
                  · simp only [refusedBySelection, hsel, planMatch, hskip]
                    cases decideMatch (record.incoming rt) s.locals with
                    | link contactId => simp
                    | create => simp
                    | review pairs =>
                        simp
                        split <;> simp

end Plan

/-! ### A pass keeps persons apart -/

/-- What is remembered of all records from which a contact was created, none of which finds an earlier
one. -/
structure Remembered (rt : Runtime) (st : PassState) : Prop where
  locals : ∀ p ∈ st.outcomes, p.2.isCreated = true →
    ∃ l ∈ st.snapshot.locals, ∀ incoming, l.reason incoming = (rememberedAs rt 0 p.1).reason incoming
  apart : st.outcomes.Pairwise fun p p' =>
    p.2.isCreated = true → p'.2.isCreated = true → Finds rt p.1 p'.1 = false
  importable : ∀ p ∈ st.outcomes, p.2.isCreated = true → p.1.Importable

section Pass

variable {rt : Runtime} {ctx : RunContext}

theorem eq_create_of_isCreated {db db' : SyncDb} {s : Snapshot} {record : SourceContact} {o : Outcome}
    (h : applyRecord ctx db s record = .ok (db', o)) (ho : o.isCreated = true) :
    ∃ suggestion, plan ctx.rt record ctx.connection.selectedGroups s ctx.fullRead =
      .create suggestion := by
  have ha := applyRecord_cases h
  generalize plan ctx.rt record ctx.connection.selectedGroups s ctx.fullRead = p at ha
  cases ha with
  | @idle p o hp => cases p <;> cases hp <;> cases ho
  | flagDeleted link => cases ho
  | update link h1 => split at ho <;> cases ho
  | link contactId h1 hl => cases ho
  | review pairs => split at ho <;> cases ho
  | create suggestion hl => exact ⟨suggestion, rfl⟩

/-- The contacts that are there stay targets, and a created one becomes one. -/
theorem locals_after (s : Snapshot) (record : SourceContact) (o : Outcome) :
    (∀ l ∈ s.locals, ∃ l' ∈ (s.after rt record o).locals,
        ∀ incoming, l'.reason incoming = l.reason incoming) ∧
      (o.isCreated = true → ∃ l ∈ (s.after rt record o).locals,
        ∀ incoming, l.reason incoming = (rememberedAs rt 0 record).reason incoming) := by
  cases o with
  | created contactId link =>
      refine ⟨fun l hl => ⟨l, List.mem_append_left _ hl, fun _ => rfl⟩, fun _ => ?_⟩
      exact ⟨rememberedAs rt contactId record, List.mem_append_right _ (List.mem_singleton_self _),
        reason_rememberedAs contactId record⟩
  | linked contactId link =>
      refine ⟨fun l hl => ⟨_, List.mem_map_of_mem hl, fun incoming => ?_⟩, nofun⟩
      split <;> rfl
  | updated | unchanged | queued | awaitingReview | alreadyReviewed | notSelected | excluded
  | deletedInSource => exact ⟨fun l hl => ⟨l, hl, fun _ => rfl⟩, nofun⟩

theorem Remembered.applyOne {st : PassState} (h : Remembered ctx.rt st) (refused : Bool)
    (record : SourceContact) : Remembered ctx.rt (applyOne ctx refused st record) := by
  obtain he | ⟨db', o, hok, he⟩ := applyOne_cases ctx refused st record
  · rw [he]
    exact ⟨h.locals, h.apart, h.importable⟩
  rw [he]
  obtain ⟨hkeep, hnew⟩ := @locals_after ctx.rt st.snapshot record o
  constructor
  · intro p hp hc
    obtain hp | hp := List.mem_append.mp hp
    · obtain ⟨l, hl, hr⟩ := h.locals p hp hc
      obtain ⟨l', hl', hr'⟩ := hkeep l hl
      exact ⟨l', hl', fun incoming => (hr' incoming).trans (hr incoming)⟩
    · rw [List.mem_singleton] at hp
      subst hp
      exact hnew hc
  · rw [List.pairwise_append]
    refine ⟨h.apart, List.pairwise_singleton _ _, ?_⟩
    intro p hp p' hp' hc hc'
    rw [List.mem_singleton] at hp'
    subst hp'
    obtain ⟨-, -, -, -, -, hnone⟩ := plan_eq_create.mp (eq_create_of_isCreated hok hc')
    obtain ⟨l, hl, hr⟩ := h.locals p hp hc
    rw [Finds, ← hr, hnone l hl]
    rfl
  · intro p hp hc
    obtain hp | hp := List.mem_append.mp hp
    · exact h.importable p hp hc
    · rw [List.mem_singleton] at hp
      subst hp
      obtain ⟨-, hd, -, hs, -, -⟩ := plan_eq_create.mp (eq_create_of_isCreated hok hc)
      refine ⟨hd, fun hnil => ?_⟩
      replace hnil : record.groupIds = [] := hnil
      simp [SourceContact.isSelected, hnil] at hs

theorem Remembered.start {st : PassState} (h : st.outcomes = []) : Remembered rt st where
  locals p hp := by
    rw [h] at hp
    cases hp
  apart := by
    rw [h]
    exact .nil
  importable p hp := by
    rw [h] at hp
    cases hp

theorem applyRecords_remembered (ctx : RunContext) {fault : ℕ → Bool} {i : ℕ} {st : PassState}
    {records : List SourceContact} (h : Remembered ctx.rt st) :
    Remembered ctx.rt (applyRecords ctx fault i st records) :=
  applyRecords_invariant (Remembered ctx.rt) (fun refused _ r _ hst => hst.applyOne refused r) h

/-- The outcomes are of the records, in their order. -/
theorem applyRecords_sublist (ctx : RunContext) (fault : ℕ → Bool) (i : ℕ) (st : PassState)
    (records : List SourceContact) :
    ((applyRecords ctx fault i st records).outcomes.map Prod.fst).Sublist
      (st.outcomes.map Prod.fst ++ records) := by
  induction records generalizing i st with
  | nil =>
      rw [List.append_nil]
      exact .refl _
  | cons r records ih =>
      refine (ih (i + 1) (applyOne ctx (fault i) st r)).trans ?_
      obtain he | ⟨db', o, -, he⟩ := applyOne_cases ctx (fault i) st r
      · rw [he]
        exact (List.sublist_cons_self r records).append_left _
      · rw [he]
        simp

end Pass

/-- Records that are found keep one person in one contact, whatever the server holds. -/
theorem onePerContact_of_findsShared {rt : Runtime} {records : List SourceContact}
    (h : FindsShared rt records) (db : SyncDb) (connection : Connection) (source : Source)
    (groups : List SourceGroup) {changes : SourceChanges} (hc : changes.contacts = records)
    (opts : RunOptions) :
    OnePerContact rt (passOver rt db connection source groups changes opts).outcomes := by
  subst hc
  have ho := passOver_outcomes rt db connection source groups changes opts
  have hrem : Remembered rt (applyRecords (passContext rt connection source groups changes) opts.fault 0
      (passStart rt db connection source changes) (opts.applied changes.contacts)) :=
    applyRecords_remembered (passContext rt connection source groups changes) (.start rfl)
  have hsub : (opts.applied changes.contacts).Sublist changes.contacts := by
    unfold RunOptions.applied beforeCancel
    split
    · exact .refl _
    · split
      · exact List.take_sublist _ _
      · exact .refl _
  have hout := (applyRecords_sublist (passContext rt connection source groups changes) opts.fault 0
    (passStart rt db connection source changes) (opts.applied changes.contacts)).trans hsub
  have hfinds := List.pairwise_map.mp (h.sublist hout)
  unfold OnePerContact
  rw [ho]
  refine (hfinds.and hrem.apart).imp_of_mem ?_
  rintro p p' hp hp' ⟨hf, ha⟩ hc hc' hs
  have hfound := hf (hrem.importable p hp hc) (hrem.importable p' hp' hc') hs
  rw [ha hc hc'] at hfound
  cases hfound

/-! ### Every answer with a record that is not found -/

/-- The pass has made contacts of the records in `made`, in a database that holds nobody else whom a
record could find, and in which the records `others` are unlinked. -/
structure Alone (rt : Runtime) (others : List String) (made : List SourceContact) (db : SyncDb)
    (s : Snapshot) : Prop where
  excludes : ∀ e, s.excludes rt e = true ↔ e ∈ others
  skipped : s.skipped = []
  links : ∀ l ∈ s.links, ∃ r ∈ made, l.externalId = r.externalId
  live : ∀ l ∈ db.links.rows, l.isLive = true → ∃ r ∈ made, l.externalId = r.externalId
  locals : ∀ l ∈ s.locals, (∀ incoming, l.reason incoming = none) ∨
    ∃ r ∈ made, ∀ incoming, l.reason incoming = (rememberedAs rt 0 r).reason incoming

section Alone

variable {ctx : RunContext} {others : List String} {made : List SourceContact}

/-- Records that are excluded change nothing. -/
theorem Alone.pass {st : PassState} (h : Alone ctx.rt others made st.db st.snapshot) (i : ℕ)
    (fault : ℕ → Bool) {records : List SourceContact} (ho : ∀ r ∈ records, r.externalId ∈ others) :
    Alone ctx.rt others made (applyRecords ctx fault i st records).db
        (applyRecords ctx fault i st records).snapshot ∧
      st.outcomes.Sublist (applyRecords ctx fault i st records).outcomes := by
  refine applyRecords_invariant (fun st' => Alone ctx.rt others made st'.db st'.snapshot ∧
    st.outcomes.Sublist st'.outcomes) ?_ ⟨h, .refl _⟩
  rintro refused st' r hr ⟨hst, hsub⟩
  have hplan : plan ctx.rt r ctx.connection.selectedGroups st'.snapshot ctx.fullRead = .excluded :=
    plan_excluded ((hst.excludes _).mpr (ho r hr))
  obtain he | ⟨db', o, hok, he⟩ := applyOne_cases ctx refused st' r
  · rw [he]
    exact ⟨hst, hsub⟩
  · rw [he]
    unfold applyRecord at hok
    rw [hplan] at hok
    cases hok
    exact ⟨hst, hsub.trans (List.sublist_append_left _ _)⟩

/-- A selected record that finds nobody becomes a contact. -/
theorem Alone.make {st : PassState} (h : Alone ctx.rt others made st.db st.snapshot)
    {r : SourceContact} (ho : r.externalId ∉ others) (hd : r.deleted = false)
    (hs : r.isSelected ctx.connection.selectedGroups = true)
    (hm : ∀ m ∈ made, m.externalId ≠ r.externalId ∧ Finds ctx.rt m r = false) :
    Alone ctx.rt others (made ++ [r]) (applyOne ctx false st r).db (applyOne ctx false st r).snapshot ∧
      ∃ o, o.isCreated = true ∧ (applyOne ctx false st r).outcomes = st.outcomes ++ [(r, o)] := by
  obtain ⟨suggestion, hplan⟩ : ∃ suggestion, plan ctx.rt r ctx.connection.selectedGroups st.snapshot
      ctx.fullRead = .create suggestion := by
    refine plan_eq_create.mpr ⟨?_, hd, ?_, hs, by simp [h.skipped], ?_⟩
    · rw [← Bool.not_eq_true, h.excludes]
      exact ho
    · refine List.find?_eq_none.mpr fun l hl => ?_
      obtain ⟨m, hmem, he⟩ := h.links l hl
      simpa [he] using (hm m hmem).1
    · intro l hl
      obtain hr | ⟨m, hmem, hr⟩ := h.locals l hl
      · exact hr _
      · rw [hr]
        exact Option.isNone_iff_eq_none.mp (Option.isSome_eq_false_iff.mp (hm m hmem).2)
  have hlive : st.db.liveLink ctx.connection.id r.externalId = none := by
    refine List.find?_eq_none.mpr fun l hl => ?_
    cases hlv : l.isLive with
    | false => simp
    | true =>
        obtain ⟨m, hmem, he⟩ := h.live l hl hlv
        simp [he, (hm m hmem).1]
  obtain ⟨db', link, hl⟩ : ∃ db' link, (st.db.importContact (mapContact ctx.rt r)
      (labelsOf r ctx.connection.selectedGroups ctx.groups)).1.insertLink ctx.connection r
        st.db.contacts.next .created suggestion = .ok (db', link) :=
    ⟨_, _, insertLink_eq_ok.mpr ⟨hlive, rfl, rfl⟩⟩
  have hok : applyRecord ctx st.db st.snapshot r =
      .ok (db', .created st.db.contacts.next link) := by
    unfold applyRecord
    rw [hplan]
    exact bind_eq_ok.mpr ⟨_, hl, rfl⟩
  obtain ⟨-, hdb, hlk⟩ := insertLink_eq_ok.mp hl
  have hext : link.externalId = r.externalId := by
    rw [hlk]
    rfl
  have hrows : db'.links.rows = st.db.links.rows ++ [link] := by
    rw [hdb, hlk]
    rfl
  have he : applyOne ctx false st r =
      { db := db'
        snapshot := st.snapshot.remember ctx.rt st.db.contacts.next r link
        report := st.report.count (.created st.db.contacts.next link)
        outcomes := st.outcomes ++ [(r, .created st.db.contacts.next link)] } := by
    unfold applyOne
    rw [hok]
    rfl
  rw [he]
  refine ⟨⟨h.excludes, h.skipped, ?_, ?_, ?_⟩, _, rfl, rfl⟩
  · intro l hl
    obtain rfl | hl := List.mem_cons.mp hl
    · exact ⟨r, by simp, hext⟩
    · obtain ⟨m, hmem, hm⟩ := h.links l hl
      exact ⟨m, List.mem_append_left _ hmem, hm⟩
  · intro l hl hlv
    rw [hrows] at hl
    obtain hl | hl := List.mem_append.mp hl
    · obtain ⟨m, hmem, hm⟩ := h.live l hl hlv
      exact ⟨m, List.mem_append_left _ hmem, hm⟩
    · rw [List.mem_singleton.mp hl]
      exact ⟨r, by simp, hext⟩
  · intro l hl
    obtain hl | hl := List.mem_append.mp hl
    · obtain hr | ⟨m, hmem, hm⟩ := h.locals l hl
      · exact .inl hr
      · exact .inr ⟨m, List.mem_append_left _ hmem, hm⟩
    · rw [List.mem_singleton.mp hl]
      exact .inr ⟨r, by simp, reason_rememberedAs _ r⟩

end Alone

/-- Somebody without an address, a phone or a company. -/
def nobody : MappedContact :=
  { firstName := "Nobody"
    lastName := ""
    email := none
    phones := []
    companyName := none
    title := none
    department := none
    notes := none }

/-- The link of a record that a person has unlinked. -/
def cutLink (externalId : String) (id : Uuid) : Link :=
  { SyncDb.newLink clientsConnection externalId none 0 .linked none id with
    unlinkReason := some .unlinked }

theorem cutLink_id (externalId : String) (id : Uuid) : (cutLink externalId id).id = id := rfl

def groupsConnection (groups : List String) : Connection :=
  { clientsConnection with selectedGroups := groups }

theorem groupsConnection_id (groups : List String) (id : Uuid) :
    Connection.id { groupsConnection groups with id := id } = id := rfl

/-- One contact, of which no record is another source; a connection of the groups; and the records
`others`, unlinked. -/
def nobodyDb (others groups : List String) : SyncDb :=
  { (SyncDb.fresh.importContact nobody []).1 with
    links := (∅ : Table Link.id).insertEach cutLink others cutLink_id
    connections := (∅ : Table Connection.id).insert
      (fun id => { groupsConnection groups with id := id }) (groupsConnection_id groups) }

theorem mem_nobodyDb_links {others groups : List String} {l : Link}
    (h : l ∈ (nobodyDb others groups).links.rows) :
    ∃ e ∈ others, l.externalId = e ∧ l.unlinkReason = some .unlinked ∧ l.connectionId = 0 := by
  obtain h | ⟨e, he, i, -, rfl⟩ := Table.mem_insertEach h
  · cases h
  · exact ⟨e, he, rfl, rfl, rfl⟩

theorem alone_nobodyDb (rt : Runtime) (others groups : List String) :
    Alone rt others [] (nobodyDb others groups) ((nobodyDb others groups).snapshot rt 0 "google") where
  excludes e := by
    have hsupp : ((nobodyDb others groups).snapshot rt 0 "google").suppressed = [] := rfl
    rw [Snapshot.excludes, hsupp]
    simp only [List.not_mem_nil, decide_false, Bool.or_false, decide_eq_true_eq]
    constructor
    · intro h
      obtain ⟨l, hl, rfl⟩ := List.mem_map.mp h
      obtain ⟨e, he, rfl, -⟩ := mem_nobodyDb_links (List.mem_of_mem_filter hl)
      exact he
    · intro h
      have hmem : ∃ i, cutLink e i ∈ (nobodyDb others groups).links :=
        Table.exists_mem_insertEach _ h
      obtain ⟨i, hi⟩ := hmem
      exact List.mem_map.mpr ⟨cutLink e i, List.mem_filter.mpr ⟨hi, rfl⟩, rfl⟩
  skipped := rfl
  links l hl := by
    obtain ⟨hl, hlive⟩ := List.mem_filter.mp hl
    obtain ⟨-, -, -, hu, -⟩ := mem_nobodyDb_links hl
    simp [Link.isLive, hu] at hlive
  live l hl hlive := by
    obtain ⟨-, -, -, hu, -⟩ := mem_nobodyDb_links hl
    simp [Link.isLive, hu] at hlive
  locals l hl := by
    obtain rfl := List.mem_singleton.mp hl
    refine .inl fun incoming => reason_eq_none ?_ ?_ ?_ incoming <;> rfl

theorem applyRecords_append (ctx : RunContext) (fault : ℕ → Bool) (i : ℕ) (st : PassState)
    (l l' : List SourceContact) : applyRecords ctx fault i st (l ++ l') =
      applyRecords ctx fault (i + l.length) (applyRecords ctx fault i st l) l' := by
  induction l generalizing i st with
  | nil => rfl
  | cons r l ih =>
      rw [List.cons_append, applyRecords, ih, List.length_cons, Nat.add_right_comm, Nat.add_assoc]
      rfl

theorem outcomes_sublist (ctx : RunContext) (fault : ℕ → Bool) (i : ℕ) (st : PassState)
    (records : List SourceContact) :
    st.outcomes.Sublist (applyRecords ctx fault i st records).outcomes := by
  refine applyRecords_invariant (fun st' => st.outcomes.Sublist st'.outcomes) ?_ (.refl _)
  intro refused st' r _ h
  obtain he | ⟨db', o, -, he⟩ := applyOne_cases ctx refused st' r
  · rw [he]
    exact h
  · rw [he]
    exact h.trans (List.sublist_append_left _ _)

/-- Two records, the later of which does not find the earlier one, both become contacts. -/
theorem Alone.two {ctx : RunContext} {others : List String} {st : PassState}
    (h : Alone ctx.rt others [] st.db st.snapshot) {r r' : SourceContact}
    (hr : r.externalId ∉ others) (hr' : r'.externalId ∉ others) (hne : r.externalId ≠ r'.externalId)
    (hd : r.deleted = false) (hd' : r'.deleted = false)
    (hs : r.isSelected ctx.connection.selectedGroups = true)
    (hs' : r'.isSelected ctx.connection.selectedGroups = true) (hf : Finds ctx.rt r r' = false)
    {a b : List SourceContact} (c : List SourceContact) (ha : ∀ x ∈ a, x.externalId ∈ others)
    (hb : ∀ x ∈ b, x.externalId ∈ others) :
    ∃ o o', o.isCreated = true ∧ o'.isCreated = true ∧ [(r, o), (r', o')].Sublist
      (applyRecords ctx (fun _ => false) 0 st (a ++ r :: (b ++ r' :: c))).outcomes := by
  rw [applyRecords_append, applyRecords, applyRecords_append, applyRecords]
  obtain ⟨h₁, -⟩ := h.pass 0 (fun _ => false) ha
  obtain ⟨h₂, o, ho, hout⟩ := h₁.make hr hd hs fun m hm => absurd hm List.not_mem_nil
  obtain ⟨h₃, hsub⟩ := h₂.pass (0 + a.length + 1) (fun _ => false) hb
  obtain ⟨-, o', ho', hout'⟩ := h₃.make hr' hd' hs' (by
    intro m hm
    obtain rfl := List.mem_singleton.mp hm
    exact ⟨hne, hf⟩)
  refine ⟨o, o', ho, ho', List.Sublist.trans ?_ (outcomes_sublist ..)⟩
  rw [hout']
  have hfirst : [(r, o)].Sublist (applyRecords ctx (fun _ => false) (0 + a.length + 1)
      (applyOne ctx false (applyRecords ctx (fun _ => false) 0 st a) r) b).outcomes := by
    refine List.Sublist.trans ?_ hsub
    rw [hout]
    exact List.sublist_append_right _ _
  exact hfirst.append (.refl [(r', o')])

/-- A label of a record selects it. -/
theorem isSelected_of_subset {r : SourceContact} {selected : List String} (hr : r.groupIds ≠ [])
    (h : r.groupIds ⊆ selected) : r.isSelected selected = true := by
  obtain ⟨g, hg⟩ := List.exists_mem_of_ne_nil _ hr
  exact List.any_eq_true.mpr ⟨g, hg, decide_eq_true (h hg)⟩

/-- The ids of two records and those of the others. -/
theorem two_of_nodup {r r' : SourceContact} {a b c : List SourceContact}
    (h : ((a ++ r :: (b ++ r' :: c)).map (·.externalId)).Nodup) :
    r.externalId ∉ (a ++ b ++ c).map (·.externalId) ∧
      r'.externalId ∉ (a ++ b ++ c).map (·.externalId) ∧ r.externalId ≠ r'.externalId := by
  have hp : (a ++ r :: (b ++ r' :: c)).Perm (r :: r' :: (a ++ b ++ c)) := by
    refine List.perm_middle.trans (.cons r ?_)
    rw [← List.append_assoc]
    exact List.perm_middle
  have hn := (hp.map (·.externalId)).nodup_iff.mp h
  rw [List.map_cons, List.map_cons, List.nodup_cons, List.nodup_cons, List.mem_cons, not_or] at hn
  exact ⟨hn.1.2, hn.2.1, hn.1.1⟩

/-- All passes over an answer, whatever the server holds and whatever is selected. -/
def OnePersonOneContact (rt : Runtime) (records : List SourceContact) : Prop :=
  ∀ db connectionId source opts st,
    (∀ token changes, source.changesSince token = .ok changes → changes.contacts = records) →
    passOf rt db connectionId source opts = some st → OnePerContact rt st.outcomes

/-- A pass that makes contacts of two records, if the later one does not find the earlier. -/
theorem not_onePersonOneContact {rt : Runtime} {r r' : SourceContact} {a b c : List SourceContact}
    (hn : ((a ++ r :: (b ++ r' :: c)).map (·.externalId)).Nodup) (hi : r.Importable)
    (hi' : r'.Importable) (hs : SharesAddress rt r r') (hf : Finds rt r r' = false) :
    ¬OnePersonOneContact rt (a ++ r :: (b ++ r' :: c)) := by
  intro h
  let records := a ++ r :: (b ++ r' :: c)
  let others := (a ++ b ++ c).map (·.externalId)
  let groups := r.groupIds ++ r'.groupIds
  have hgroups : groups ≠ [] := by simp [groups, hi.2]
  have hpass : passOf rt (nobodyDb others groups) 0 (clientsSource records) {} =
      some (passOver rt (nobodyDb others groups) (groupsConnection groups) (clientsSource records)
        [⟨"contactGroups/a", "Clients"⟩] ⟨records, some 1, true⟩ {}) :=
    passOf_eq_some.mpr ⟨_, _, _, startRun_eq_ok.mpr ⟨rfl, rfl, rfl, rfl, hgroups⟩, rfl, rfl⟩
  have hone := h _ _ _ _ _ (fun token changes hc => by cases hc; rfl) hpass
  rw [passOver_outcomes] at hone
  have halone := alone_nobodyDb rt others groups
  obtain ⟨hr, hr', hne⟩ := two_of_nodup hn
  have ha : ∀ x ∈ a, x.externalId ∈ others := fun x hx =>
    List.mem_map_of_mem (List.mem_append_left c (List.mem_append_left b hx))
  have hb : ∀ x ∈ b, x.externalId ∈ others := fun x hx =>
    List.mem_map_of_mem (List.mem_append_left c (List.mem_append_right a hx))
  let ctx := passContext rt (groupsConnection groups) (clientsSource records)
    [⟨"contactGroups/a", "Clients"⟩] ⟨records, some 1, true⟩
  let st := passStart rt (nobodyDb others groups) (groupsConnection groups) (clientsSource records)
    ⟨records, some 1, true⟩
  have hstart : Alone ctx.rt others [] st.db st.snapshot :=
    ⟨halone.excludes, halone.skipped, halone.links, halone.live, halone.locals⟩
  have hsel : r.isSelected groups = true :=
    isSelected_of_subset hi.2 (List.subset_append_left _ _)
  have hsel' : r'.isSelected groups = true :=
    isSelected_of_subset hi'.2 (List.subset_append_right _ _)
  obtain ⟨o, o', ho, ho', hsub⟩ := hstart.two hr hr' hne hi.1 hi'.1 hsel hsel' hf c ha hb
  have htwo := hone.sublist hsub
  exact List.rel_of_pairwise_cons htwo (List.mem_singleton_self _) ho ho' hs

/-- **One person, one contact.**  A pass over the answer creates a contact from at most one of two
records that share an address, whatever the server holds, if and only if every record of the answer
finds the earlier ones with which it shares an address. -/
theorem one_person_one_contact {rt : Runtime} {records : List SourceContact}
    (hn : (records.map (·.externalId)).Nodup) :
    OnePersonOneContact rt records ↔ FindsShared rt records := by
  constructor
  · intro h
    unfold FindsShared
    rw [List.pairwise_iff_forall_sublist]
    intro r r' hsub hi hi' hs
    by_contra hf
    rw [Bool.not_eq_true] at hf
    obtain ⟨l, rest, rfl, hr, hr'⟩ := List.cons_sublist_iff.mp hsub
    obtain ⟨a, a', rfl⟩ := List.append_of_mem hr
    obtain ⟨b, c, rfl⟩ := List.append_of_mem (List.singleton_sublist.mp hr')
    have hlist : (a ++ r :: a') ++ (b ++ r' :: c) = a ++ r :: ((a' ++ b) ++ r' :: c) := by simp
    rw [hlist] at h hn
    exact not_onePersonOneContact hn hi hi' hs hf h
  · intro h db connectionId source opts st hsource hst
    obtain ⟨connection, groups, changes, -, hread, rfl⟩ := passOf_eq_some.mp hst
    exact onePerContact_of_findsShared h db connection source groups
      (hsource _ _ (readSource_eq_ok.mp hread).2) opts

namespace TwoAddresses

/-- Ann with two addresses; her contact stores the first one. -/
def ann : SourceContact :=
  { externalId := "people/c1"
    givenName := some "Ann"
    familyName := some "Lee"
    emails := ["ann@home.example", "lee@acme.example"]
    groupIds := ["contactGroups/a"] }

/-- The same person, under the second address only. -/
def lee : SourceContact :=
  { externalId := "people/c2"
    givenName := some "A."
    familyName := some "Lee"
    emails := ["lee@acme.example"]
    groupIds := ["contactGroups/a"] }

/-- In this order the second record finds the address that is stored. -/
theorem one_contact_reversed : OnePersonOneContact asciiRuntime [lee, ann] :=
  (one_person_one_contact (by decide)).mpr (by decide +kernel)

/-- In the other order two contacts are created. -/
theorem two_contacts : ∃ st, passOf asciiRuntime (nobodyDb [] ["contactGroups/a"]) 0
      (clientsSource [ann, lee]) {} = some st ∧
    SharesAddress asciiRuntime ann lee ∧ st.report.created = 2 ∧
    ¬OnePerContact asciiRuntime st.outcomes := by
  have hs : SharesAddress asciiRuntime ann lee := by decide +kernel
  have hrun : ((passOf asciiRuntime (nobodyDb [] ["contactGroups/a"]) 0
      (clientsSource [ann, lee]) {}).any fun st => decide (st.report.created = 2 ∧
        ¬OnePerContact asciiRuntime st.outcomes)) = true := by
    decide +kernel
  obtain ⟨st, hst, hp⟩ := (Option.any_eq_true ..).mp hrun
  obtain ⟨hc, ho⟩ := of_decide_eq_true hp
  exact ⟨st, hst, hs, hc, ho⟩

end TwoAddresses

end Mokosh.ContactSync
