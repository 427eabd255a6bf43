import Mokosh.Lib.Transition
import Mokosh.ContactSync.Passes

/-! # What a sync may do to a contact

`Kept` is everything a contact keeps while syncs and review answers write on it: what was not empty
stays so, an email stays itself, tags and phones are only added behind what is there, the primary
number stays primary, a locked field and a freeform company name beside a linked company do not
change.  One write keeps all of it (`write_kept`), and so does every run
(`run_syncs_keep`).  A first link does more for what was not empty before: it leaves it as it was,
but it adds to tags and phones that are there already (`first_link_fills`,
`first_link_adds_a_tag`). -/

namespace Mokosh.ContactSync

open Relation (ReflTransGen)

variable {rt : Runtime} {db db' : SyncDb}

/-! ### Fields and their values -/

/-- A phone without its flag. -/
def ContactPhone.entry (p : ContactPhone) : PhoneType × String × Option String :=
  (p.phoneType, p.number, p.extension)

namespace Contact

/-- The text of a field; the two collections have none. -/
def text (c : Contact) : Field → Option String
  | .firstName => some c.firstName
  | .lastName => some c.lastName
  | .email => c.email
  | .title => c.title
  | .department => c.department
  | .companyName => c.companyName
  | .notes => c.notes
  | .phones | .tags => none

/-- The two contacts have the same value in the field; NULL tags are no tags. -/
def SameField (c c' : Contact) : Field → Prop
  | .phones => c'.phones = c.phones
  | .tags => c'.currentTags = c.currentTags
  | f => c'.text f = c.text f

/-- The field holds nothing. -/
def IsBlank (c : Contact) : Field → Prop
  | .phones => c.phones = []
  | .tags => c.currentTags = []
  | f => (c.text f).getD "" = ""

/-- The company mirrors say what the company links say. -/
structure Mirrored (c : Contact) : Prop where
  companyId : c.companyId = (c.companies.find? (·.isPrimary)).map (·.companyId)
  companyName : c.hasPrimaryCompany = true → c.companyName = none

end Contact

/-- Every contact's company mirrors say what its company links say. -/
def SyncDb.Mirrored (db : SyncDb) : Prop := ∀ c ∈ db.contacts, c.Mirrored

/-- The text that is written in a field. -/
def FieldWrites.text (w : FieldWrites) : Field → Option String
  | .firstName => w.firstName
  | .lastName => w.lastName
  | .email => w.email
  | .title => w.title
  | .department => w.department
  | .companyName => w.companyName
  | .notes => w.notes
  | .phones | .tags => none

theorem sameField_refl (c : Contact) (f : Field) : c.SameField c f := by
  cases f <;> rfl

theorem sameField_trans {a b c : Contact} {f : Field} (h : a.SameField b f) (h' : b.SameField c f) :
    a.SameField c f := by
  cases f <;> exact Eq.trans h' h

/-- What a contact keeps while syncs write on it. -/
structure Kept (locked : Field → Bool) (c c' : Contact) : Prop where
  id : c'.id = c.id
  companies : c'.companies = c.companies
  nonblank : ∀ f, ¬ c.IsBlank f → ¬ c'.IsBlank f
  email : ¬ c.IsBlank .email → c'.email = c.email
  tags : c.currentTags <+: c'.currentTags
  phones : c.phones.map (·.entry) <+: c'.phones.map (·.entry)
  /-- The primary number stays primary, and no other becomes so. -/
  primary : c.phones.any (·.isPrimary) = true →
    c.phones <+: c'.phones ∧ c'.phones.filter (·.isPrimary) = c.phones.filter (·.isPrimary)
  locked : ∀ f, locked f = true → c.SameField c' f
  companyName : c.companies ≠ [] → c'.companyName = c.companyName

theorem Kept.refl (locked : Field → Bool) (c : Contact) : Kept locked c c where
  id := rfl
  companies := rfl
  nonblank _ h := h
  email _ := rfl
  tags := List.prefix_rfl
  phones := List.prefix_rfl
  primary _ := ⟨List.prefix_rfl, rfl⟩
  locked f _ := sameField_refl c f
  companyName _ := rfl

theorem Kept.trans {locked : Field → Bool} {a b c : Contact} (h : Kept locked a b)
    (h' : Kept locked b c) : Kept locked a c where
  id := h'.id.trans h.id
  companies := h'.companies.trans h.companies
  nonblank f ha := h'.nonblank f (h.nonblank f ha)
  email ha := (h'.email (h.nonblank _ ha)).trans (h.email ha)
  tags := h.tags.trans h'.tags
  phones := h.phones.trans h'.phones
  primary ha := by
    obtain ⟨h1, h2⟩ := h.primary ha
    have hb : b.phones.any (·.isPrimary) = true := by
      obtain ⟨p, hp, hprim⟩ := List.any_eq_true.mp ha
      exact List.any_eq_true.mpr ⟨p, h1.subset hp, hprim⟩
    obtain ⟨h3, h4⟩ := h'.primary hb
    exact ⟨h1.trans h3, h4.trans h2⟩
  locked f hf := sameField_trans (h.locked f hf) (h'.locked f hf)
  companyName ha := (h'.companyName (h.companies ▸ ha)).trans (h.companyName ha)

/-! ### One write -/

section Write

variable {c : Contact} {w : FieldWrites}

theorem scalarChange_eq_false (h : w.scalarChange = false) : w.firstName = none ∧
    w.lastName = none ∧ w.email = none ∧ w.title = none ∧ w.department = none ∧
    w.companyName = none ∧ w.notes = none ∧ w.newTags = [] := by
  simpa [FieldWrites.scalarChange, and_assoc] using h

/-- The columns after the writes, before the phones. -/
def Contact.scalarsWritten (c : Contact) (w : FieldWrites) : Contact :=
  if w.scalarChange then c.writeScalars w else c

theorem write_eq (c : Contact) (w : FieldWrites) : c.write w =
    if w.added.isEmpty then c.scalarsWritten w
    else replaceContactPhonesIn (c.scalarsWritten w) (c.phoneEntries w.added) := rfl

/-- Where nothing is to be written, writing nothing gives the same columns. -/
structure ScalarsAre (c c' : Contact) (w : FieldWrites) : Prop where
  text : ∀ f, c'.text f = (w.text f).or (c.text f)
  tags : c'.currentTags = c.currentTags ++ w.newTags
  companyId : c'.companyId = c.companyId
  companies : c'.companies = c.companies
  phones : c'.phones = c.phones

theorem scalarsWritten_are (c : Contact) (w : FieldWrites) :
    ScalarsAre c (c.scalarsWritten w) w := by
  unfold Contact.scalarsWritten
  cases h : w.scalarChange with
  | true =>
      refine ⟨fun f => ?_, rfl, rfl, rfl, rfl⟩
      cases f with
      | firstName => cases hw : w.firstName <;> simp [Contact.text, FieldWrites.text,
          Contact.writeScalars, hw]
      | lastName => cases hw : w.lastName <;> simp [Contact.text, FieldWrites.text,
          Contact.writeScalars, hw]
      | email | title | department | companyName | notes | phones | tags => rfl
  | false =>
      obtain ⟨h1, h2, h3, h4, h5, h6, h7, h8⟩ := scalarChange_eq_false h
      refine ⟨fun f => ?_, by simp [h8], rfl, rfl, rfl⟩
      cases f <;> simp [FieldWrites.text, *]

theorem write_currentTags : (c.write w).currentTags = c.currentTags ++ w.newTags := by
  rw [write_eq]
  split <;> exact (scalarsWritten_are c w).tags

theorem write_phones : (c.write w).phones =
    if w.added.isEmpty then c.phones else resolvePhoneList (c.phoneEntries w.added) := by
  rw [write_eq]
  split
  · exact (scalarsWritten_are c w).phones
  · rfl

theorem hasCompanyLink_of_primary (h : c.hasPrimaryCompany = true) : c.hasCompanyLink = true := by
  obtain ⟨l, hl, -⟩ := List.any_eq_true.mp h
  simp [Contact.hasCompanyLink, List.ne_nil_of_mem hl]

/-- The freeform name goes when the mirrors are recomputed beside a primary company, but there is
none then. -/
theorem write_text (hm : c.Mirrored) (hw : c.hasCompanyLink = true → w.companyName = none)
    (f : Field) : (c.write w).text f = (w.text f).or (c.text f) := by
  have hs := scalarsWritten_are c w
  rw [write_eq]
  split
  · exact hs.text f
  · have ht := hs.text f
    cases f with
    | companyName =>
        show (if (c.scalarsWritten w).hasPrimaryCompany then none
          else (c.scalarsWritten w).companyName) = _
        split
        · next hp =>
          have hp' : c.hasPrimaryCompany = true := by
            rw [← hp]
            unfold Contact.hasPrimaryCompany
            rw [hs.companies]
          show none = w.companyName.or c.companyName
          rw [hw (hasCompanyLink_of_primary hp'), hm.companyName hp']
          rfl
        · exact ht
    | firstName | lastName | email | title | department | notes | phones | tags => exact ht

theorem write_mirrored (hm : c.Mirrored) (hw : c.hasCompanyLink = true → w.companyName = none) :
    (c.write w).Mirrored := by
  have hs := scalarsWritten_are c w
  refine ⟨?_, ?_⟩
  · rw [write_companies, write_eq]
    split
    · rw [hs.companyId]
      exact hm.companyId
    · show ((c.scalarsWritten w).companies.find? (·.isPrimary)).map (·.companyId) = _
      rw [hs.companies]
  · intro hp
    have hp' : c.hasPrimaryCompany = true := by
      rw [← hp]
      unfold Contact.hasPrimaryCompany
      rw [write_companies]
    refine (write_text hm hw .companyName).trans ?_
    show w.companyName.or c.companyName = none
    rw [hw (hasCompanyLink_of_primary hp'), hm.companyName hp']
    rfl

end Write

/-! ### The field rules -/

section Rules

variable {current incoming : Option String} {isLocked fillOnly : Bool}

@[simp] theorem choose_locked : choose true current incoming fillOnly = none := by
  cases h : choose true current incoming fillOnly with
  | none => rfl
  | some v => exact absurd (choose_eq_some h).1 (by decide)

/-- A first link leaves what is not empty alone. -/
theorem choose_fillOnly (h : current.getD "" ≠ "") :
    choose isLocked current incoming true = none := by
  cases hc : choose isLocked current incoming true with
  | none => rfl
  | some v =>
      rcases (choose_eq_some hc).2.2.2.2 with h1 | h1
      · exact absurd h1 h
      · exact absurd h1 (by decide)

/-- Nothing is ever emptied. -/
theorem choose_or_ne (h : current.getD "" ≠ "") :
    ((choose isLocked current incoming fillOnly).or current).getD "" ≠ "" := by
  cases hc : choose isLocked current incoming fillOnly with
  | none => exact h
  | some v => exact (choose_eq_some hc).2.2.1

theorem resolvePhoneList_entries (l : List ContactPhone) :
    (resolvePhoneList l).map (·.entry) = l.map (·.entry) := by
  unfold resolvePhoneList
  split
  · rfl
  · split <;> rfl

theorem resolvePhoneList_of_primary {l : List ContactPhone} (h : l.any (·.isPrimary) = true) :
    resolvePhoneList l = l := by
  cases l with
  | nil => rfl
  | cons p ps => exact if_pos h

variable (c : Contact) (locked : Field → Bool) (record : SourceContact) (mapped : MappedContact)
  (labels : List String) (pass : Pass)

/-- Behind a primary number there is no new one. -/
theorem phoneEntries_primary (added : List MappedPhone) (h : c.phones.any (·.isPrimary) = true) :
    (c.phoneEntries added).any (·.isPrimary) = true ∧
      (c.phoneEntries added).filter (·.isPrimary) = c.phones.filter (·.isPrimary) := by
  have hne : c.phones.isEmpty = false := by
    obtain ⟨p, hp, -⟩ := List.any_eq_true.mp h
    cases hc : c.phones with
    | nil => rw [hc] at hp; cases hp
    | cons => rfl
  unfold Contact.phoneEntries
  constructor
  · rw [List.any_append, h, Bool.true_or]
  · rw [List.filter_append]
    simp [hne]

theorem fieldWrites_companyName (h : c.hasCompanyLink = true) :
    (fieldWrites c locked record mapped labels pass).companyName = none := if_pos h

/-- The tags and the phone list only grow at their end. -/
theorem write_phones_prefix (w : FieldWrites) :
    c.phones.map (·.entry) <+: (c.write w).phones.map (·.entry) := by
  rw [write_phones]
  split
  · exact List.prefix_rfl
  · rw [resolvePhoneList_entries, Contact.phoneEntries, List.map_append]
    exact List.prefix_append _ _

theorem write_phones_primary (w : FieldWrites) (h : c.phones.any (·.isPrimary) = true) :
    c.phones <+: (c.write w).phones ∧
      (c.write w).phones.filter (·.isPrimary) = c.phones.filter (·.isPrimary) := by
  rw [write_phones]
  split
  · exact ⟨List.prefix_rfl, rfl⟩
  · obtain ⟨h1, h2⟩ := phoneEntries_primary c w.added h
    rw [resolvePhoneList_of_primary h1]
    exact ⟨List.prefix_append _ _, h2⟩

/-- Every text that is written is chosen by the one rule, with the lock of its field. -/
theorem fieldWrites_text (f : Field) :
    (fieldWrites c locked record mapped labels pass).text f = none ∨
      ∃ incoming fillOnly, (pass = .firstLink → fillOnly = true) ∧
        (f = .email → fillOnly = true) ∧
        (fieldWrites c locked record mapped labels pass).text f =
          choose (locked f) (c.text f) incoming fillOnly := by
  cases f with
  | firstName | lastName =>
      by_cases h : record.isNamed = true
      · exact .inr ⟨_, decide (pass = .firstLink), decide_eq_true, nofun, if_pos h⟩
      · exact .inl (if_neg h)
  | companyName =>
      by_cases h : c.hasCompanyLink = true
      · exact .inl (if_pos h)
      · exact .inr ⟨_, decide (pass = .firstLink), decide_eq_true, nofun, if_neg h⟩
  | email => exact .inr ⟨_, true, fun _ => rfl, fun _ => rfl, rfl⟩
  | title | department | notes =>
      exact .inr ⟨_, decide (pass = .firstLink), decide_eq_true, nofun, rfl⟩
  | phones | tags => exact .inl rfl

/-- A locked field is left alone. -/
theorem write_locked (hm : c.Mirrored) {f : Field} (hf : locked f = true) :
    c.SameField (c.write (fieldWrites c locked record mapped labels pass)) f := by
  have ht : (c.write (fieldWrites c locked record mapped labels pass)).text f = c.text f := by
    rw [write_text hm (fieldWrites_companyName c locked record mapped labels pass)]
    rcases fieldWrites_text c locked record mapped labels pass f with h | ⟨_, _, -, -, h⟩
    · rw [h]
      rfl
    · rw [h, hf, choose_locked]
      rfl
  cases f with
  | phones =>
      refine write_phones.trans ?_
      simp [fieldWrites, hf]
  | tags =>
      refine write_currentTags.trans ?_
      simp [fieldWrites, hf]
  | firstName | lastName | email | title | department | companyName | notes => exact ht

theorem write_nonblank (hm : c.Mirrored) {f : Field} (hf : ¬ c.IsBlank f) :
    ¬ (c.write (fieldWrites c locked record mapped labels pass)).IsBlank f := by
  have ht : (c.text f).getD "" ≠ "" →
      ((c.write (fieldWrites c locked record mapped labels pass)).text f).getD "" ≠ "" := by
    intro hne
    rw [write_text hm (fieldWrites_companyName c locked record mapped labels pass)]
    rcases fieldWrites_text c locked record mapped labels pass f with h | ⟨_, _, -, -, h⟩
    · rw [h]
      exact hne
    · rw [h]
      exact choose_or_ne hne
  cases f with
  | phones =>
      intro hnil
      have hp := write_phones_prefix c (fieldWrites c locked record mapped labels pass)
      rw [show (c.write _).phones = [] from hnil, List.map_nil, List.prefix_nil,
        List.map_eq_nil_iff] at hp
      exact hf hp
  | tags =>
      intro hnil
      rw [Contact.IsBlank, write_currentTags, List.append_eq_nil_iff] at hnil
      exact hf hnil.1
  | firstName | lastName | email | title | department | companyName | notes => exact ht hf

/-- A text that is not blank and may only be filled stays. -/
theorem write_filled (hm : c.Mirrored) {f : Field} (hp : pass = .firstLink ∨ f = .email)
    (hf : (c.text f).getD "" ≠ "") :
    (c.write (fieldWrites c locked record mapped labels pass)).text f = c.text f := by
  rw [write_text hm (fieldWrites_companyName c locked record mapped labels pass)]
  rcases fieldWrites_text c locked record mapped labels pass f with h | ⟨_, fillOnly, h1, h2, h⟩
  · rw [h]
    rfl
  · obtain rfl : fillOnly = true := hp.elim h1 h2
    rw [h, choose_fillOnly hf]
    rfl

/-- One write of a sync. -/
theorem write_kept (hm : c.Mirrored) :
    Kept locked c (c.write (fieldWrites c locked record mapped labels pass)) where
  id := write_id ..
  companies := write_companies ..
  nonblank _ hf := write_nonblank c locked record mapped labels pass hm hf
  email h := write_filled c locked record mapped labels pass hm (.inr rfl) h
  tags := by
    rw [write_currentTags]
    exact List.prefix_append _ _
  phones := write_phones_prefix ..
  primary h := write_phones_primary c _ h
  locked _ hf := write_locked c locked record mapped labels pass hm hf
  companyName h := by
    have hl : c.hasCompanyLink = true := by simp [Contact.hasCompanyLink, h]
    have hw := fieldWrites_companyName c locked record mapped labels pass
    refine (write_text hm hw .companyName).trans ?_
    rw [FieldWrites.text, hw hl]
    rfl

end Rules

/-! ### Runs -/

theorem importedContact_mirrored (mapped : MappedContact) (labels : List String) (id : Uuid) :
    (importedContact mapped labels id).Mirrored := ⟨rfl, nofun⟩

theorem mem_write {t : Table Contact.id} {id : Uuid} {w : FieldWrites} {r : Contact} (hr : r ∈ t) :
    (if r.id = id then r.write w else r) ∈ t.update id (·.write w) (write_id · w) :=
  (Table.mem_update (write_id · w)).mpr ⟨r, hr, rfl⟩

/-- Every contact of the one state is in the other, with all that syncs must leave. -/
def ContactsKept (db db' : SyncDb) : Prop :=
  ∀ c ∈ db.contacts, ∃ c' ∈ db'.contacts, Kept (db.isLocked c.id) c c'

theorem SyncWrite.kept (h : SyncWrite db db') (hm : db.Mirrored) :
    db'.Mirrored ∧ ContactsKept db db' := by
  have hsame : ∀ c ∈ db.contacts, Kept (db.isLocked c.id) c c := fun c _ => .refl _ c
  cases h with
  | link | flagDeleted | touchLink | candidates | setStatus | finish =>
      exact ⟨hm, fun c hc => ⟨c, hc, hsame c hc⟩⟩
  | importContact mapped labels =>
      constructor
      · intro c hc
        rcases (Table.mem_insert).mp hc with hc | rfl
        · exact hm c hc
        · exact importedContact_mirrored ..
      · exact fun c hc => ⟨c, (Table.mem_insert).mpr (.inl hc), hsame c hc⟩
  | @fields contactId c record mapped labels pass hfind =>
      have hw := fieldWrites_companyName c (db.isLocked contactId) record mapped labels pass
      have hwrite : ∀ r ∈ db.contacts, r.id = contactId → r = c :=
        fun r hr hid => Table.eq_of_find hfind hr hid
      constructor
      · intro c' hc'
        obtain ⟨r, hr, rfl⟩ := (Table.mem_update (write_id · _)).mp hc'
        split
        · next hid =>
          obtain rfl := hwrite r hr hid
          exact write_mirrored (hm r hr) hw
        · exact hm r hr
      · intro r hr
        refine ⟨_, mem_write hr, ?_⟩
        split
        · next hid =>
          obtain rfl := hwrite r hr hid
          subst hid
          exact write_kept r _ record mapped labels pass (hm r hr)
        · exact hsame r hr

/-- The run lemma over statements. -/
theorem writes_kept (h : ReflTransGen SyncWrite db db') (hm : db.Mirrored) :
    db'.Mirrored ∧ ContactsKept db db' := by
  induction h with
  | refl => exact ⟨hm, fun c hc => ⟨c, hc, .refl _ c⟩⟩
  | @tail b c hb hw ih =>
      obtain ⟨hmb, hkb⟩ := ih
      obtain ⟨hmc, hkc⟩ := hw.kept hmb
      refine ⟨hmc, fun r hr => ?_⟩
      obtain ⟨r', hr', h1⟩ := hkb r hr
      obtain ⟨r'', hr'', h2⟩ := hkc r' hr'
      have hlocks : b.isLocked r'.id = db.isLocked r.id := by
        unfold SyncDb.isLocked
        rw [(writes_frame hb).1, h1.id]
      exact ⟨r'', hr'', h1.trans (hlocks ▸ h2)⟩

/-- The events that write on contacts for a source: syncs and review answers. -/
def SyncEvent.isImport : SyncEvent → Bool
  | sync _ _ _ | resolve _ _ => true
  | setSelection _ _ | connect _ _ _ | disconnect _ | unlink _ | removeImportedData _ _ _
  | deleteContact _ _ | releaseLock _ _ | edit _ _ => false

/-- Syncs and answers are sequences of statements. -/
theorem imports_write {es : List SyncEvent} (hes : ∀ e ∈ es, e.isImport = true)
    (hr : run (SyncDb.step rt) db es = some db') : ReflTransGen SyncWrite db db' := by
  refine run_invariant_of_stepsMeet (fun s => ReflTransGen SyncWrite db s) ?_ .refl
    (StepsMeet.and_events hes (stepsMeet_true db es)) hr
  rintro s e s' h ⟨he, -⟩ hs
  cases e with
  | sync connectionId source opts =>
      cases hs
      exact h.trans (runTracked_writes rt s connectionId source opts)
  | resolve enabled r =>
      cases hres : s.resolve rt enabled r with
      | error e => simp [SyncDb.step, hres, Except.toOption] at hs
      | ok s'' =>
          simp only [SyncDb.step, hres, Except.toOption, Option.some.injEq] at hs
          exact h.trans (hs ▸ resolve_writes hres)
  | setSelection | connect | disconnect | unlink | removeImportedData | deleteContact | releaseLock
  | edit => cases he

/-! ### First links -/

/-- The fields of the contact that satisfy `P` and hold something are as they were. -/
def FillsBlank (P : Field → Prop) (db db' : SyncDb) (contactId : Uuid) : Prop :=
  ∀ c c', db.contacts.find contactId = some c → db'.contacts.find contactId = some c' →
    ∀ f, P f → ¬ c.IsBlank f → c.SameField c' f

/-- Whatever links a record to a contact, a sync or an answer, fills blank fields only. -/
def FirstLinksFill (P : Field → Prop) (rt : Runtime) (db : SyncDb) : Prop :=
  (∀ ctx s record db' contactId l, ctx.rt = rt →
    applyRecord ctx db s record = .ok (db', .linked contactId l) → FillsBlank P db db' contactId) ∧
  (∀ connectionId externalId etag shown contactId db',
    db.linkReviewed rt connectionId externalId etag shown contactId = .ok db' →
      FillsBlank P db db' contactId)

theorem applyFields_fills {db₁ : SyncDb} {contactId : Uuid} {record : SourceContact}
    {mapped : MappedContact} {labels : List String} {b : Bool} (hm : db.Mirrored)
    (h : db.applyFields contactId record mapped labels .firstLink = .ok (db₁, b))
    (hd : db'.contacts = db₁.contacts) :
    FillsBlank (fun f => f ≠ .tags ∧ f ≠ .phones) db db' contactId := by
  rintro c c' hc hc' f ⟨htags, hphones⟩ hf
  rw [hd] at hc'
  obtain ⟨c₀, hc₀, ⟨-, rfl, -⟩ | ⟨-, rfl, -⟩⟩ := applyFields_eq_ok.mp h
  · obtain rfl := Option.some.inj (hc.symm.trans hc')
    exact sameField_refl c f
  · obtain rfl := Option.some.inj (hc.symm.trans hc₀)
    rw [Table.find_update_self, hc] at hc'
    obtain rfl := Option.some.inj hc'
    have hfill := write_filled c (db.isLocked contactId) record mapped labels .firstLink
      (hm c (Table.find_mem hc)) (f := f) (.inl rfl)
    cases f with
    | phones => exact absurd rfl hphones
    | tags => exact absurd rfl htags
    | firstName | lastName | email | title | department | companyName | notes => exact hfill hf

theorem first_links_fill (hm : db.Mirrored) :
    FirstLinksFill (fun f => f ≠ .tags ∧ f ≠ .phones) rt db := by
  constructor
  · intro ctx s record db' contactId l _ h
    have ha := applyRecord_cases h
    generalize plan ctx.rt record ctx.connection.selectedGroups s ctx.fullRead = p at ha
    generalize ho : Outcome.linked contactId l = o at ha
    cases ha with
    | link contactId' h1 hl =>
        cases ho
        obtain ⟨-, rfl, -⟩ := insertLink_eq_ok.mp hl
        exact applyFields_fills hm h1 rfl
    | idle h =>
        subst ho
        cases p <;> cases h
    | update link h1 => split at ho <;> cases ho
    | review pairs => split at ho <;> cases ho
    | flagDeleted | create => cases ho
  · intro connectionId externalId etag shown contactId db' h
    obtain ⟨connection, hc, h⟩ := bind_eq_ok.mp h
    obtain ⟨⟨db₁, changed⟩, h1, h⟩ := bind_eq_ok.mp h
    obtain ⟨⟨db₂, l⟩, h2, h⟩ := bind_eq_ok.mp h
    cases h
    obtain ⟨-, rfl, -⟩ := insertLink_eq_ok.mp h2
    exact applyFields_fills hm h1 rfl

/-- What syncs and review answers do to a contact that was there before, and what the first link of
a record may change at any point of them. -/
theorem syncs_respect_contacts {t : SyncDb} (es : List SyncEvent) (hm : db.Mirrored)
    (hes : ∀ e ∈ es, e.isImport = true) (hr : run (SyncDb.step rt) db es = some t) :
    ContactsKept db t ∧ ∀ u, ReflTransGen SyncWrite t u →
      FirstLinksFill (fun f => f ≠ .tags ∧ f ≠ .phones) rt u := by
  obtain ⟨hmt, hk⟩ := writes_kept (imports_write hes hr) hm
  exact ⟨hk, fun u hu => first_links_fill (writes_kept hu hmt).1⟩

/-! ### A first link that adds -/

/-- A contact with an address and tags of its own. -/
def taggedContact (tags : List String) (id : Uuid) : Contact :=
  { id := id, firstName := "Ada", lastName := "Lovelace", email := some "ada@example.com"
    title := none, department := none, companyName := none, notes := none, tags := some tags
    companyId := none, phone := none, mobile := none, fax := none, phones := [], companies := [] }

/-- The contact, before the first sync of a connection. -/
def taggedDb : SyncDb :=
  { SyncDb.fresh with
    contacts := (∅ : Table Contact.id).insert (taggedContact ["vip"])
    connections := (∅ : Table Connection.id).insert (fun id => { clientsConnection with id := id })
      clientsConnection_id }

/-- The contact in the address book, as a client. -/
def clientRecord : SourceContact :=
  { externalId := "people/c1", emails := ["ada@example.com"], groupIds := ["contactGroups/a"] }

theorem taggedDb_mirrored : taggedDb.Mirrored := by
  intro c hc
  rcases (Table.mem_insert).mp hc with hc | rfl
  · exact absurd hc (Table.not_mem_empty c)
  · exact ⟨rfl, nofun⟩

/-- A first link changes tags that were not empty: it adds the selected label. -/
theorem first_link_adds_a_tag : ¬ FirstLinksFill (fun _ => True) asciiRuntime taggedDb := by
  rintro ⟨h, -⟩
  have hrun : (match applyRecord ⟨asciiRuntime, clientsConnection,
        [⟨"contactGroups/a", "Clients"⟩], true⟩ taggedDb
        (taggedDb.snapshot asciiRuntime 0 "google") clientRecord with
      | .ok (db', .linked contactId _) => decide (contactId = 0) &&
          (db'.contacts.find 0).any fun c' => decide (c'.currentTags = ["vip", "Clients"])
      | _ => false) = true := by
    decide +kernel
  split at hrun
  · next db' contactId l hok =>
    simp only [Bool.and_eq_true, decide_eq_true_eq, Option.any_eq_true] at hrun
    obtain ⟨rfl, c', hc', htags⟩ := hrun
    have hsame : c'.currentTags = ["vip"] :=
      h _ _ _ _ _ _ rfl hok _ c' rfl hc' .tags trivial (List.cons_ne_nil _ _)
    exact absurd (htags.symm.trans hsame) (by decide)
  · cases hrun

/-- The sync that links the contact leaves it what it must. -/
theorem syncs_respect_tagged :
    ∃ t, run (SyncDb.step asciiRuntime) taggedDb [.sync 0 (clientsSource [clientRecord]) {}] =
        some t ∧ ContactsKept taggedDb t :=
  ⟨_, rfl, (syncs_respect_contacts [.sync 0 (clientsSource [clientRecord]) {}]
    taggedDb_mirrored (by simp [SyncEvent.isImport]) rfl).1⟩

end Mokosh.ContactSync
