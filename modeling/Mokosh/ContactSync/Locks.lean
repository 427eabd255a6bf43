import Mokosh.ContactSync.Fields

/-! # A person's edit survives

An edit of a contact with a live link locks the fields whose rendering as a text it changes
(`EditSnapshot.capture`), and a locked field is left alone by every later sync
(`locked_field_stays`).  So an edit survives if its changes show in the rendering
(`edits_survive`).  The texts always show (`capture_text`), and so do tags without a comma
(`capture_tags`); but two different sets of tags can read the same, and an edit from one to the other
is overwritten (`comma_edit_is_lost`). -/

namespace Mokosh.ContactSync

open Relation (ReflTransGen)

variable {rt : Runtime} {db db' : SyncDb}

/-! ### Stored values -/

/-- The two contacts store the same value in the field: NULL and an empty text are the same, tags
are a multiset, phones are typed numbers with their extensions. -/
def Contact.SameStored (c c' : Contact) : Field → Prop
  | .phones => c'.phones.map (fun p => (p.phoneType, p.number, p.extension.getD "")) =
      c.phones.map fun p => (p.phoneType, p.number, p.extension.getD "")
  | .tags => c'.currentTags.Perm c.currentTags
  | f => (c'.text f).getD "" = (c.text f).getD ""

/-- A text shows in the rendering as it is. -/
theorem capture_text {c : Contact} {f : Field} (hp : f ≠ .phones) (ht : f ≠ .tags) :
    EditSnapshot.capture c f = (c.text f).getD "" := by
  cases f with
  | phones => exact absurd rfl hp
  | tags => exact absurd rfl ht
  | firstName | lastName | email | title | department | companyName | notes => rfl

/-- Texts without a comma, none of them empty, can be read off their rendering. -/
theorem stringAgg_injective {l l' : List String} (hl : ∀ s ∈ l, s ≠ "" ∧ ',' ∉ s.toList)
    (hl' : ∀ s ∈ l', s ≠ "" ∧ ',' ∉ s.toList) (h : stringAgg l = stringAgg l') : l = l' := by
  have hchars : [','].intercalate (l.map (·.toList)) = [','].intercalate (l'.map (·.toList)) := by
    simpa [stringAgg] using congrArg String.toList h
  -- A rendering that splits into one empty piece comes from no texts at all.
  have hread : ∀ {l : List String}, (∀ s ∈ l, s ≠ "" ∧ ',' ∉ s.toList) →
      ([','].intercalate (l.map (·.toList))).splitOn ',' =
        if l = [] then [[]] else l.map (·.toList) := by
    intro l hl
    split
    · next h =>
      subst h
      rfl
    · next h =>
      refine List.splitOn_intercalate ',' ?_ (by simpa using h)
      intro cs hcs
      obtain ⟨s, hs, rfl⟩ := List.mem_map.mp hcs
      exact (hl s hs).2
  have hne : ∀ {l : List String}, (∀ s ∈ l, s ≠ "" ∧ ',' ∉ s.toList) →
      l.map (·.toList) ≠ [[]] := by
    intro l hl he
    obtain ⟨s, rfl, hs⟩ : ∃ s, l = [s] ∧ s.toList = [] := by
      simpa [List.map_eq_singleton_iff] using he
    exact (hl s List.mem_cons_self).1 (String.toList_eq_nil_iff.mp hs)
  have hsplit := congrArg (List.splitOn ',') hchars
  rw [hread hl, hread hl'] at hsplit
  split at hsplit <;> split at hsplit
  · next h1 h2 => rw [h1, h2]
  · exact absurd hsplit.symm (hne hl')
  · exact absurd hsplit (hne hl)
  · exact (List.map_injective_iff.mpr fun _ _ => String.toList_inj.mp) hsplit

/-- Different tags without commas read differently. -/
theorem capture_tags {c c' : Contact} (hc : ∀ s ∈ c.currentTags, s ≠ "" ∧ ',' ∉ s.toList)
    (hc' : ∀ s ∈ c'.currentTags, s ≠ "" ∧ ',' ∉ s.toList)
    (h : EditSnapshot.capture c .tags = EditSnapshot.capture c' .tags) :
    c.SameStored c' .tags := by
  have hsorted := stringAgg_injective (by simpa using hc) (by simpa using hc') h
  calc c'.currentTags.Perm (c'.currentTags.insertionSort (· ≤ ·)) :=
        (List.perm_insertionSort _ _).symm
    _ = c.currentTags.insertionSort (· ≤ ·) := hsorted.symm
    List.Perm _ c.currentTags := List.perm_insertionSort _ _

/-! ### The edit -/

theorem mem_changedFields {before after : EditSnapshot} {f : Field} :
    f ∈ before.changedFields after ↔ before f ≠ after f := by
  simp [EditSnapshot.changedFields, Field.mem_all]

/-- What an edit of a linked contact locks: what was locked, and what it changed visibly. -/
theorem editContact_locks {contactId : Uuid} {edit : ContactEdit} {c : Contact}
    (h : db.editContact contactId edit = .ok db') (hc : db.contacts.find contactId = some c)
    (hl : db.liveLinksOf contactId ≠ []) (f : Field) :
    (contactId, f) ∈ db'.locks ↔ (contactId, f) ∈ db.locks ∨
      EditSnapshot.capture c f ≠ EditSnapshot.capture (edit.apply c) f := by
  obtain ⟨c₀, hc₀, ⟨hnil, -⟩ | ⟨-, rfl⟩⟩ := editContact_eq_ok h
  · exact absurd hnil hl
  obtain rfl := Option.some.inj (hc.symm.trans hc₀)
  simp only [SyncDb.lockFields, SyncDb.writeEdit, SyncDb.isLocked, List.mem_append, List.mem_filter,
    List.mem_map, Prod.mk.injEq, true_and, exists_eq_right, mem_changedFields]
  by_cases hm : (contactId, f) ∈ db.locks <;> simp [hm]

/-- A lock there is stays in an edit. -/
theorem editContact_keeps_locks {contactId : Uuid} {edit : ContactEdit} {l : Uuid × Field}
    (h : db.editContact contactId edit = .ok db') (hl : l ∈ db.locks) : l ∈ db'.locks := by
  obtain ⟨c, -, ⟨-, rfl⟩ | ⟨-, rfl⟩⟩ := editContact_eq_ok h
  · exact hl
  · exact List.mem_append_left _ hl

theorem edit_mirrored {c : Contact} (edit : ContactEdit) (hm : c.Mirrored) :
    (edit.apply c).Mirrored := by
  cases edit with
  | staff row => exact ⟨rfl, fun h => if_pos h⟩
  | self => exact ⟨hm.companyId, hm.companyName⟩

/-! ### What a lock outlives -/

/-- The event neither releases the lock nor removes the contact's data. -/
def SyncEvent.leavesLock (contactId : Uuid) (f : Field) : SyncEvent → Prop
  | .releaseLock c f' => (c, f') ≠ (contactId, f)
  | .removeImportedData c _ _ | .deleteContact c _ => c ≠ contactId
  | .sync _ _ _ | .resolve _ _ | .setSelection _ _ | .connect _ _ _ | .disconnect _ | .unlink _
  | .edit _ _ => True

section Events

variable {contactId : Uuid} {f : Field}

/-- The events that are about connections and links leave contacts and locks alone. -/
theorem step_frame {e : SyncEvent} (h : db.step rt e = some db')
    (he : (∃ provider ids, e = .setSelection provider ids) ∨
      (∃ provider email never, e = .connect provider email never) ∨
      (∃ provider, e = .disconnect provider) ∨ ∃ c, e = .unlink c) :
    db'.contacts = db.contacts ∧ db'.locks = db.locks := by
  rcases he with ⟨provider, ids, rfl⟩ | ⟨provider, email, never, rfl⟩ | ⟨provider, rfl⟩ | ⟨c, rfl⟩
  · obtain ⟨k, -, rfl⟩ := setSelection_eq_ok (toOption_eq_some h)
    exact ⟨rfl, rfl⟩
  · obtain ⟨k, -, rfl⟩ | ⟨-, rfl⟩ := recordConnection_eq_ok (toOption_eq_some h) <;>
      exact ⟨rfl, rfl⟩
  · obtain ⟨k, -, rfl⟩ := disconnect_eq_ok (toOption_eq_some h)
    exact ⟨rfl, rfl⟩
  · obtain rfl := unlink_eq_ok (toOption_eq_some h)
    exact ⟨rfl, rfl⟩

/-- A sync or an answer is a sequence of statements. -/
theorem step_import {e : SyncEvent} (h : db.step rt e = some db') (he : e.isImport = true) :
    ReflTransGen SyncWrite db db' := by
  have hr : run (SyncDb.step rt) db [e] = some db' := by simp [run, h]
  exact imports_write (by simpa using he) hr

theorem eraseContact_mirrored {c : Uuid} (hm : db.Mirrored) : (db.eraseContact c).Mirrored :=
  fun r hr => hm r (Table.mem_erase.mp hr).1

theorem editContact_mirrored {c : Uuid} {edit : ContactEdit} (hm : db.Mirrored)
    (h : db.editContact c edit = .ok db') : db'.Mirrored := by
  have hw : (db.writeEdit c edit).Mirrored := by
    intro r hr
    obtain ⟨r', hr', rfl⟩ := (Table.mem_update edit.apply_id).mp hr
    split
    · exact edit_mirrored edit (hm r' hr')
    · exact hm r' hr'
  obtain ⟨_, -, ⟨-, rfl⟩ | ⟨-, rfl⟩⟩ := editContact_eq_ok h <;> exact hw

/-- The company mirrors stay right at every step. -/
theorem step_mirrored {e : SyncEvent} (hm : db.Mirrored) (h : db.step rt e = some db') :
    db'.Mirrored := by
  have hframe : db'.contacts = db.contacts → db'.Mirrored := fun hc r hr => hm r (hc ▸ hr)
  cases e with
  | sync | resolve => exact (writes_kept (step_import h rfl) hm).1
  | setSelection provider ids => exact hframe (step_frame h (by simp)).1
  | connect provider email never => exact hframe (step_frame h (by simp)).1
  | disconnect provider => exact hframe (step_frame h (by simp)).1
  | unlink c => exact hframe (step_frame h (by simp)).1
  | removeImportedData c reason outside =>
      obtain rfl | rfl := removeImportedData_eq_ok (toOption_eq_some h)
      · exact hm
      · exact eraseContact_mirrored (show (db.forgetImport rt c).Mirrored from hm)
  | deleteContact c outside =>
      obtain rfl := deleteContact_eq_ok (toOption_eq_some h)
      exact eraseContact_mirrored hm
  | releaseLock c f' =>
      obtain rfl := releaseLock_eq_ok (toOption_eq_some h)
      exact hm
  | edit c edit => exact editContact_mirrored hm (toOption_eq_some h)

/-- A lock outlives every event but its release and the removal of its contact. -/
theorem step_keeps_lock {e : SyncEvent} (he : e.leavesLock contactId f)
    (h : db.step rt e = some db') (hl : (contactId, f) ∈ db.locks) :
    (contactId, f) ∈ db'.locks := by
  have hframe : db'.locks = db.locks → (contactId, f) ∈ db'.locks := fun hs => hs ▸ hl
  have hfilter : ∀ {c : Uuid}, c ≠ contactId →
      (contactId, f) ∈ db.locks.filter fun l => decide (l.1 ≠ c) :=
    fun hne => List.mem_filter.mpr ⟨hl, by simpa using hne.symm⟩
  cases e with
  | sync | resolve => exact hframe (writes_frame (step_import h rfl)).1
  | setSelection provider ids => exact hframe (step_frame h (by simp)).2
  | connect provider email never => exact hframe (step_frame h (by simp)).2
  | disconnect provider => exact hframe (step_frame h (by simp)).2
  | unlink c => exact hframe (step_frame h (by simp)).2
  | removeImportedData c reason outside =>
      obtain rfl | rfl := removeImportedData_eq_ok (toOption_eq_some h)
      · exact hfilter he
      · exact List.mem_filter.mpr ⟨hfilter he, by simpa using Ne.symm he⟩
  | deleteContact c outside =>
      obtain rfl := deleteContact_eq_ok (toOption_eq_some h)
      exact hfilter he
  | releaseLock c f' =>
      obtain rfl := releaseLock_eq_ok (toOption_eq_some h)
      exact List.mem_filter.mpr ⟨hl, decide_eq_true (Ne.symm he)⟩
  | edit c edit => exact editContact_keeps_locks (toOption_eq_some h) hl

/-- The run lemma: a lock that nobody releases is there at the end. -/
theorem run_keeps_lock {es : List SyncEvent} (hes : ∀ e ∈ es, e.leavesLock contactId f)
    (hr : run (SyncDb.step rt) db es = some db') (hl : (contactId, f) ∈ db.locks) :
    (contactId, f) ∈ db'.locks := by
  refine run_invariant_of_stepsMeet (fun s => (contactId, f) ∈ s.locks) ?_ hl
    (StepsMeet.and_events hes (stepsMeet_true db es)) hr
  rintro s e s' h ⟨he, -⟩ hs
  exact step_keeps_lock he hs h

/-- A locked field is left alone by every sync. -/
theorem locked_field_stays {t : SyncDb} {c c' : Contact} (hm : db.Mirrored)
    (hl : (contactId, f) ∈ db.locks) (hw : ReflTransGen SyncWrite db t)
    (hc : db.contacts.find contactId = some c) (hc' : t.contacts.find contactId = some c') :
    c.SameField c' f := by
  have hid := Table.key_of_find hc
  obtain ⟨c'', hm'', hk⟩ := (writes_kept hw hm).2 c (Table.find_mem hc)
  obtain rfl := Table.eq_of_find hc' hm'' (hk.id.trans hid)
  exact hk.locked f (by simpa [SyncDb.isLocked, hid] using hl)

end Events

/-! ### Whole runs -/

/-- What a run promises the people who edit contacts: a field whose stored value an edit of a
linked contact has changed is not changed by a later sync, until its lock is released. -/
def EditsSurvive (rt : Runtime) (db : SyncDb) (es : List SyncEvent) : Prop :=
  ∀ es₁ contactId edit es₂ es₃ s s' t c f,
    es = es₁ ++ .edit contactId edit :: (es₂ ++ es₃) →
    run (SyncDb.step rt) db es₁ = some s → s.liveLinksOf contactId ≠ [] →
    s.contacts.find contactId = some c → ¬ c.SameStored (edit.apply c) f →
    s.step rt (.edit contactId edit) = some s' → run (SyncDb.step rt) s' es₂ = some t →
    (∀ e ∈ es₂, e.leavesLock contactId f) →
    ∀ connectionId source opts c₁ c₂, t.contacts.find contactId = some c₁ →
      (runTracked rt t connectionId source opts).1.contacts.find contactId = some c₂ →
      c₁.SameField c₂ f

/-- Every field that an edit of a linked contact changes is locked already, or the change shows in
its rendering. -/
def ShowsChanges (db : SyncDb) : SyncEvent → Prop
  | .edit contactId edit =>
    db.liveLinksOf contactId ≠ [] → ∀ c, db.contacts.find contactId = some c → ∀ f,
      ¬ c.SameStored (edit.apply c) f → (contactId, f) ∈ db.locks ∨
        EditSnapshot.capture c f ≠ EditSnapshot.capture (edit.apply c) f
  | _ => True

/-- In every run whose edits show their changes, the edits survive. -/
theorem edits_survive {es : List SyncEvent} (hm : db.Mirrored)
    (hes : StepsMeet (SyncDb.step rt) ShowsChanges db es) : EditsSurvive rt db es := by
  rintro es₁ contactId edit es₂ es₃ s s' t c f rfl hr hlinks hc hchange hs hr' hleave connectionId
    source opts c₁ c₂ hc₁ hc₂
  have hshow := ((stepsMeet_append.mp hes).2 s hr).1 hlinks c hc f hchange
  have hlock : (contactId, f) ∈ s'.locks :=
    (editContact_locks (toOption_eq_some hs) hc hlinks f).mpr hshow
  have hmt : t.Mirrored := by
    have hinv : ∀ s e s', s.Mirrored → SyncDb.step rt s e = some s' → s'.Mirrored :=
      fun _ _ _ h hs => step_mirrored h hs
    exact run_invariant SyncDb.Mirrored hinv
      (step_mirrored (run_invariant SyncDb.Mirrored hinv hm hr) hs) hr'
  exact locked_field_stays hmt (run_keeps_lock hleave hr' hlock) (runTracked_writes ..) hc₁ hc₂

/-- What portal contacts change on themselves always shows. -/
theorem self_edit_shows (contactId : Uuid) (firstName lastName phone mobile : Option String) :
    ShowsChanges db (.edit contactId (.self firstName lastName phone mobile)) := by
  intro _ c _ f hchange
  right
  cases f with
  | firstName | lastName =>
      rw [capture_text (by decide) (by decide), capture_text (by decide) (by decide)]
      exact Ne.symm hchange
  | email | title | department | companyName | notes => exact absurd rfl hchange
  | phones => exact absurd rfl hchange
  | tags => exact absurd (List.Perm.refl _) hchange

/-! ### An edit that is lost -/

/-- The contact has the tags of its owner and of the import; they are joined into one tag, which
reads as the two did, and the next sync tags the contact again. -/
theorem comma_edit_is_lost : ¬ EditsSurvive asciiRuntime taggedDb
    [.sync 0 (clientsSource [clientRecord]) {},
      .edit 0 (.staff (taggedContact ["Clients,vip"] 0))] := by
  intro h
  have hrun : ((run (SyncDb.step asciiRuntime) taggedDb
      [.sync 0 (clientsSource [clientRecord]) {}]).any fun s =>
        (s.contacts.find 0).any fun c =>
          (s.step asciiRuntime (.edit 0 (.staff (taggedContact ["Clients,vip"] 0)))).any fun t =>
            (t.contacts.find 0).any fun c₁ =>
              ((runTracked asciiRuntime t 0 (clientsSource [clientRecord]) {}).1.contacts.find
                0).any fun c₂ =>
                  decide (s.liveLinksOf 0 ≠ []) &&
                    decide (c.currentTags = ["vip", "Clients"]) &&
                    decide (c₁.currentTags = ["Clients,vip"]) &&
                    decide (c₂.currentTags = ["Clients,vip", "Clients"])) = true := by
    decide +kernel
  simp only [Option.any_eq_true, Bool.and_eq_true, decide_eq_true_eq] at hrun
  obtain ⟨s, hs, c, hc, t, ht, c₁, hc₁, c₂, hc₂, ⟨⟨hlinks, htags⟩, h1⟩, h2⟩ := hrun
  have hchange : ¬ c.SameStored
      ((ContactEdit.staff (taggedContact ["Clients,vip"] 0)).apply c) .tags := by
    intro hp
    have hlen : ["Clients,vip"].length = c.currentTags.length := List.Perm.length_eq hp
    rw [htags] at hlen
    exact absurd hlen (by decide)
  have hsame : c₂.currentTags = c₁.currentTags :=
    h _ 0 _ [] [] s t t c .tags rfl hs hlinks hc hchange ht rfl (by simp) _ _ _ c₁ c₂ hc₁ hc₂
  rw [h1, h2] at hsame
  exact absurd hsame (by decide)

/-- The contact's own change of its name survives. -/
theorem edits_survive_self : EditsSurvive asciiRuntime taggedDb
    [.sync 0 (clientsSource [clientRecord]) {}, .edit 0 (.self (some "Augusta") none none none)] :=
  edits_survive taggedDb_mirrored ⟨trivial, fun _ _ => ⟨self_edit_shows _ _ _ _ _, fun _ _ => trivial⟩⟩

end Mokosh.ContactSync
