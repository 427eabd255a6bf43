import Mathlib.Data.List.Forall2
import Mokosh.ContactSync.Passes

/-! # The preview is the import

A preview plans every record over a snapshot that grows with invented ids, a run over one that
grows with the ids of the rows it inserts.  The two snapshots stay similar (`Snapshot.Sim`): what a
record is compared with is the same on both sides, and an id differs only for a contact that this
pass created, which is linked and about which nobody can have answered a question.  Similar
snapshots give the same kind of plan (`plan_sim`), so a run none of whose records fails does what
the preview said (`preview_is_import`).

A preview leaves out the records the source reports as deleted; a run counts those too, an unlinked
one of them among the excluded (`deleted_record_not_previewed`). -/

namespace Mokosh.ContactSync

open List (Forall₂)
open Relation (ReflTransGen)

variable {rt : Runtime} {db db' : SyncDb} {s p : Snapshot} {record : SourceContact}

/-! ### Similar snapshots -/

/-- Two links of which a plan reads the same. -/
structure SameLink (a b : Link) : Prop where
  externalId : a.externalId = b.externalId
  etag : a.etag = b.etag
  deletedInSource : a.deletedInSource = b.deletedInSource

theorem SameLink.refl (a : Link) : SameLink a a := ⟨rfl, rfl, rfl⟩

/-- No question about the contact has been answered. -/
def NeverAnswered (answered : List (String × Uuid)) (contactId : Uuid) : Prop :=
  ∀ externalId, (externalId, contactId) ∉ answered

/-- Two contacts that are told apart by their ids at most, and only after they were created. -/
structure SameLocal (answered : List (String × Uuid)) (a b : LocalContact) : Prop where
  emailKeys : a.emailKeys = b.emailKeys
  phoneKeys : a.phoneKeys = b.phoneKeys
  nameKey : a.nameKey = b.nameKey
  companyKeys : a.companyKeys = b.companyKeys
  linked : a.linked = b.linked
  contactId : a.contactId = b.contactId ∨
    a.linked = true ∧ NeverAnswered answered a.contactId ∧ NeverAnswered answered b.contactId

theorem SameLocal.refl (answered : List (String × Uuid)) (a : LocalContact) :
    SameLocal answered a a :=
  ⟨rfl, rfl, rfl, rfl, rfl, .inl rfl⟩

namespace SameLocal

variable {answered : List (String × Uuid)} {a b : LocalContact}

theorem sharesEmail (h : SameLocal answered a b) (incoming : IncomingKeys) :
    a.sharesEmail incoming = b.sharesEmail incoming := by
  simp only [LocalContact.sharesEmail, h.emailKeys]

theorem reason (h : SameLocal answered a b) (incoming : IncomingKeys) :
    a.reason incoming = b.reason incoming := by
  unfold LocalContact.reason LocalContact.sharesEmail LocalContact.sharesPhone
    LocalContact.sharesNameAndCompany
  rw [h.emailKeys, h.phoneKeys, h.nameKey, h.companyKeys]

theorem answered_iff (h : SameLocal answered a b) (externalId : String) :
    (externalId, a.contactId) ∈ answered ↔ (externalId, b.contactId) ∈ answered := by
  rcases h.contactId with he | ⟨-, ha, hb⟩
  · rw [he]
  · exact iff_of_false (ha externalId) (hb externalId)

/-- Marking does nothing to a contact that the pass created: it is linked. -/
theorem mark (h : SameLocal answered a b) (contactId : Uuid) :
    SameLocal answered (if a.contactId = contactId then { a with linked := true } else a)
      (if b.contactId = contactId then { b with linked := true } else b) := by
  obtain ⟨h1, h2, h3, h4, h5, he | ⟨hl, hrest⟩⟩ := h
  · split
    · next ha =>
      rw [if_pos (he.symm.trans ha)]
      exact ⟨h1, h2, h3, h4, rfl, .inl he⟩
    · next ha =>
      rw [if_neg (he.symm.trans_ne ha)]
      exact ⟨h1, h2, h3, h4, h5, .inl he⟩
  · have hm : ∀ c : LocalContact, c.linked = true →
        (if c.contactId = contactId then { c with linked := true } else c) = c := by
      intro c hc
      split
      · rw [← hc]
      · rfl
    rw [hm a hl, hm b (h5.symm.trans hl)]
    exact ⟨h1, h2, h3, h4, h5, .inr ⟨hl, hrest⟩⟩

end SameLocal

/-- The snapshot of a run and the one of a preview of it. -/
structure Snapshot.Sim (s p : Snapshot) : Prop where
  locals : Forall₂ (SameLocal s.answered) s.locals p.locals
  links : Forall₂ SameLink s.links p.links
  answered : s.answered = p.answered
  skipped : s.skipped = p.skipped
  unlinked : s.unlinked = p.unlinked
  suppressed : s.suppressed = p.suppressed
  companies : s.companies = p.companies

theorem Snapshot.Sim.refl (s : Snapshot) : s.Sim s :=
  ⟨List.forall₂_same.mpr fun a _ => .refl _ a, List.forall₂_same.mpr fun a _ => .refl a, rfl, rfl,
    rfl, rfl, rfl⟩

/-! ### Similar snapshots, similar plans -/

/-- Two plans of one kind. -/
inductive SamePlan : Plan → Plan → Prop
  | excluded : SamePlan .excluded .excluded
  | flagDeleted (a b : Link) : SamePlan (.flagDeleted a) (.flagDeleted b)
  | notSelected : SamePlan .notSelected .notSelected
  | unchanged : SamePlan .unchanged .unchanged
  | update (a b : Link) : SamePlan (.update a) (.update b)
  | alreadyReviewed : SamePlan .alreadyReviewed .alreadyReviewed
  | link (contactId : Uuid) : SamePlan (.link contactId) (.link contactId)
  | review (a b : List (Uuid × MatchReason)) : SamePlan (.review a) (.review b)
  | create (suggestion : Option Uuid) : SamePlan (.create suggestion) (.create suggestion)

theorem SamePlan.preview {a b : Plan} (h : SamePlan a b) : a.preview = b.preview := by
  cases h <;> rfl

/-- What is found on one side is found on the other. -/
theorem forall₂_find {α β : Type} {R : α → β → Prop} {f : α → Bool} {g : β → Bool}
    (hfg : ∀ a b, R a b → f a = g b) {l : List α} {m : List β} (h : Forall₂ R l m) :
    Option.Rel R (l.find? f) (m.find? g) := by
  induction h with
  | nil => exact .none
  | @cons a b l m hab _ ih =>
      rw [List.find?_cons, List.find?_cons, hfg a b hab]
      cases g b with
      | true => exact .some hab
      | false => exact ih

theorem findLink_sim (h : s.Sim p) (externalId : String) :
    Option.Rel SameLink (s.findLink externalId) (p.findLink externalId) :=
  forall₂_find (fun a b hab => by rw [hab.externalId]) h.links

section Matching

variable {answered : List (String × Uuid)} {l m : List LocalContact} {incoming : IncomingKeys}

/-- Something is asked about on both sides or on neither. -/
theorem proposals_nil_sim (h : Forall₂ (SameLocal answered) l m) :
    proposals incoming l = [] ↔ proposals incoming m = [] := by
  rw [proposals_eq_nil, proposals_eq_nil]
  induction h with
  | nil => exact Iff.rfl
  | cons hab _ ih => rw [List.forall_mem_cons, List.forall_mem_cons, hab.reason incoming, ih]

theorem open_eq_nil {externalId : String} :
    ((proposals incoming l).filter fun q => (externalId, q.1) ∉ answered) = [] ↔
      ∀ a ∈ l, ∀ r, a.reason incoming = some r → (externalId, a.contactId) ∈ answered := by
  rw [List.filter_eq_nil_iff]
  constructor
  · intro h a ha r hr
    simpa using h (a.contactId, r) (mem_proposals.mpr ⟨a, ha, rfl, hr⟩)
  · rintro h ⟨id, r⟩ hq
    obtain ⟨a, ha, rfl, hr⟩ := mem_proposals.mp hq
    simpa using h a ha r hr

/-- A question is left on both sides or on neither. -/
theorem open_nil_sim (incoming : IncomingKeys) (externalId : String) (h : Forall₂ (SameLocal answered) l m) :
    ((proposals incoming l).filter fun q => (externalId, q.1) ∉ answered) = [] ↔
      ((proposals incoming m).filter fun q => (externalId, q.1) ∉ answered) = [] := by
  rw [open_eq_nil, open_eq_nil]
  induction h with
  | nil => exact Iff.rfl
  | cons hab _ ih =>
      rw [List.forall_mem_cons, List.forall_mem_cons, hab.reason incoming,
        hab.answered_iff externalId, ih]

theorem decideReview_sim (h : Forall₂ (SameLocal answered) l m) :
    decideReview incoming l = .create ∧ decideReview incoming m = .create ∨
      decideReview incoming l = .review (proposals incoming l) ∧
        decideReview incoming m = .review (proposals incoming m) := by
  rcases decideReview_cases incoming l with ⟨h1, hl⟩ | ⟨h1, hl⟩
  · rcases decideReview_cases incoming m with ⟨h2, -⟩ | ⟨-, hm⟩
    · exact .inl ⟨h1, h2⟩
    · exact absurd ((proposals_nil_sim h).mp hl) hm
  · rcases decideReview_cases incoming m with ⟨-, hm⟩ | ⟨h2, -⟩
    · exact absurd ((proposals_nil_sim h).mpr hm) hl
    · exact .inr ⟨h1, h2⟩

/-- The decisions are of one kind, and a contact that is linked is the same one. -/
theorem decideMatch_sim (incoming : IncomingKeys) (h : Forall₂ (SameLocal answered) l m) :
    (∃ contactId, decideMatch incoming l = .link contactId ∧
        decideMatch incoming m = .link contactId) ∨
      decideMatch incoming l = .create ∧ decideMatch incoming m = .create ∨
      decideMatch incoming l = .review (proposals incoming l) ∧
        decideMatch incoming m = .review (proposals incoming m) := by
  have hf : Forall₂ (SameLocal answered) (l.filter (·.sharesEmail incoming))
      (m.filter (·.sharesEmail incoming)) :=
    List.rel_filter (fun a b hab => by dsimp only; rw [hab.sharesEmail incoming]) h
  unfold decideMatch
  generalize l.filter (·.sharesEmail incoming) = fl at hf
  generalize m.filter (·.sharesEmail incoming) = fm at hf
  cases hf with
  | nil => exact .inr (decideReview_sim h)
  | @cons a b as bs hab hrest =>
      cases hrest with
      | nil =>
          dsimp only
          rw [← hab.linked]
          cases ha : a.linked with
          | true => exact .inr (decideReview_sim h)
          | false =>
              have hid := hab.contactId.resolve_right fun hl => by
                rw [ha] at hl
                cases hl.1
              exact .inl ⟨a.contactId, rfl, by rw [hid]; rfl⟩
      | cons => exact .inr (decideReview_sim h)

end Matching

theorem planMatch_sim (h : s.Sim p) : SamePlan (planMatch rt record s) (planMatch rt record p) := by
  unfold planMatch
  rcases decideMatch_sim (record.incoming rt) h.locals with
    ⟨contactId, h1, h2⟩ | ⟨h1, h2⟩ | ⟨h1, h2⟩
  · rw [h1, h2]
    exact .link contactId
  · rw [h1, h2, h.companies]
    exact .create _
  · rw [h1, h2, ← h.answered]
    dsimp only
    have hn := open_nil_sim (record.incoming rt) record.externalId h.locals
    split
    · next hs =>
      rw [hn.mp hs]
      exact .alreadyReviewed
    · next hs =>
      split
      · next hp => exact absurd (hn.mpr hp) hs
      · exact .review _ _

theorem plan_sim (rt : Runtime) (record : SourceContact) (h : s.Sim p) (selected : List String)
    (fullRead : Bool) :
    SamePlan (plan rt record selected s fullRead) (plan rt record selected p fullRead) := by
  have hx : p.excludes rt record.externalId = s.excludes rt record.externalId := by
    unfold Snapshot.excludes
    rw [h.unlinked, h.suppressed]
  have hlink := findLink_sim h record.externalId
  unfold plan
  rw [hx, ← h.skipped]
  generalize s.findLink record.externalId = sl at hlink
  generalize p.findLink record.externalId = pl at hlink
  split
  · exact .excluded
  · split
    · cases hlink with
      | none => exact .unchanged
      | @some a b hab =>
          dsimp only
          rw [← hab.deletedInSource]
          split
          · exact .unchanged
          · exact .flagDeleted a b
    · cases hlink with
      | none =>
          split
          · exact .notSelected
          · dsimp only
            split
            · exact .alreadyReviewed
            · exact planMatch_sim h
      | @some a b hab =>
          rw [show refusedBySelection record selected (some b) fullRead =
            refusedBySelection record selected (some a) fullRead from rfl]
          split
          · exact .notSelected
          · dsimp only
            rw [← hab.etag, ← hab.deletedInSource]
            split
            · exact .unchanged
            · exact .update a b

/-! ### One record -/

theorem localFromValues_sim {answered : List (String × Uuid)} {a b : Uuid} (email : Option String)
    (phones : List String) (name : String) (companies : List String) (ha : NeverAnswered answered a)
    (hb : NeverAnswered answered b) :
    SameLocal answered (localFromValues rt a email phones name companies true)
      (localFromValues rt b email phones name companies true) :=
  ⟨rfl, rfl, rfl, rfl, rfl, .inr ⟨rfl, ha, hb⟩⟩

theorem remember_sim (h : s.Sim p) {a b : Uuid} {la lb : Link} (ha : NeverAnswered s.answered a)
    (hb : NeverAnswered s.answered b) (hl : SameLink la lb) :
    (s.remember rt a record la).Sim (p.remember rt b record lb) :=
  { h with
    locals := List.rel_append h.locals (.cons (localFromValues_sim _ _ _ _ ha hb) .nil)
    links := .cons hl h.links }

theorem markLinked_sim (h : s.Sim p) (contactId : Uuid) {la lb : Link} (hl : SameLink la lb) :
    (s.markLinked contactId la).Sim (p.markLinked contactId lb) :=
  { h with
    locals := List.rel_map (fun _ _ hab => hab.mark contactId) h.locals
    links := .cons hl h.links }

/-- What a record does to the snapshot of the run, the preview does to its own. -/
theorem after_sim {ctx : RunContext} {pl pl' : Plan} {o : Outcome} {invent : ℕ → Uuid} {n : ℕ}
    (h : s.Sim p) (hp : SamePlan pl pl') (ha : Applied ctx db record pl db' o)
    (hnext : NeverAnswered s.answered db.contacts.next)
    (hinvent : NeverAnswered s.answered (invent n)) :
    (s.after ctx.rt record o).Sim
      (p.simulate ctx.rt ctx.connection invent n record pl').1 := by
  cases ha with
  | idle hi =>
      cases hp <;> cases hi <;> exact h
  | flagDeleted link =>
      cases hp
      exact h
  | update link _ =>
      cases hp
      split <;> exact h
  | link contactId h1 hl =>
      cases hp
      obtain ⟨-, -, rfl⟩ := insertLink_eq_ok.mp hl
      exact markLinked_sim h contactId ⟨rfl, rfl, rfl⟩
  | review pairs =>
      cases hp
      split <;> exact h
  | create suggestion hl =>
      cases hp
      obtain ⟨-, -, rfl⟩ := insertLink_eq_ok.mp hl
      exact remember_sim h hnext hinvent ⟨rfl, rfl, rfl⟩

/-- What the preview says of a record with the outcome. -/
def Outcome.preview : Outcome → Option PreviewOutcome
  | created _ _ => some .create
  | linked _ _ => some .link
  | updated | unchanged => some .imported
  | queued | awaitingReview => some .review
  | alreadyReviewed | excluded => some .excluded
  | notSelected | deletedInSource => none

/-- A plan comes out as the preview says. -/
theorem preview_of_applied {ctx : RunContext} {pl : Plan} {o : Outcome}
    (ha : Applied ctx db record pl db' o) : o.preview = pl.preview := by
  cases ha with
  | @idle pl o hi => cases pl <;> cases hi <;> rfl
  | flagDeleted | link | create => rfl
  | update | review => split <;> rfl

/-- A record that the source reports as deleted creates, links and asks nothing. -/
theorem plan_deleted (rt : Runtime) (s : Snapshot) (selected : List String) (fullRead : Bool)
    (hd : record.deleted = true) :
    plan rt record selected s fullRead = .excluded ∨
      plan rt record selected s fullRead = .unchanged ∨
      ∃ link, plan rt record selected s fullRead = .flagDeleted link := by
  unfold plan
  rw [if_pos hd]
  split
  · exact .inl rfl
  · split
    · next link _ =>
      split
      · exact .inr (.inl rfl)
      · exact .inr (.inr ⟨link, rfl⟩)
    · exact .inr (.inl rfl)

/-- The outcomes of a deleted record. -/
def Outcome.ofDeleted : Outcome → Bool
  | excluded | unchanged | deletedInSource => true
  | created _ _ | linked _ _ | updated | queued | awaitingReview | alreadyReviewed | notSelected =>
    false

theorem applied_deleted {ctx : RunContext} {selected : List String} {fullRead : Bool} {o : Outcome}
    (hd : record.deleted = true)
    (ha : Applied ctx db record (plan ctx.rt record selected s fullRead) db' o) :
    o.ofDeleted = true := by
  rcases plan_deleted ctx.rt s selected fullRead hd with he | he | ⟨link, he⟩
  · rw [he] at ha
    cases ha with
    | idle hi =>
        cases hi
        rfl
  · rw [he] at ha
    cases ha with
    | idle hi =>
        cases hi
        rfl
  · rw [he] at ha
    cases ha with
    | idle hi => cases hi
    | flagDeleted => rfl

theorem after_ofDeleted {o : Outcome} (h : o.ofDeleted = true) : s.after rt record o = s := by
  cases o <;> first | rfl | cases h

/-! ### All records -/

/-- Every id an answered question names is below the next contact's. -/
def AnswersBelow (answered : List (String × Uuid)) (next : Uuid) : Prop :=
  ∀ q ∈ answered, q.2 < next

theorem AnswersBelow.neverAnswered {answered : List (String × Uuid)} {next : Uuid}
    (h : AnswersBelow answered next) : NeverAnswered answered next :=
  fun _ hm => absurd (h _ hm) (lt_irrefl _)

theorem SyncWrite.contacts_next_le (h : SyncWrite db db') :
    db.contacts.next ≤ db'.contacts.next := by
  cases h with
  | importContact mapped labels => exact Nat.le_succ _
  | fields | link | flagDeleted | touchLink | candidates | setStatus | finish => exact le_rfl

theorem writes_contacts_next_le (h : ReflTransGen SyncWrite db db') :
    db.contacts.next ≤ db'.contacts.next := by
  induction h with
  | refl => exact le_rfl
  | tail _ hw ih => exact ih.trans hw.contacts_next_le

/-- The outcomes a preview speaks of, in its words. -/
def foretell (outcomes : List (SourceContact × Outcome)) : List PreviewOutcome :=
  (outcomes.filter fun q => !q.1.deleted).filterMap (·.2.preview)

def Outcome.isImported : Outcome → Bool
  | updated | unchanged => true
  | created _ _ | linked _ _ | queued | awaitingReview | alreadyReviewed | notSelected | excluded
  | deletedInSource => false

def Outcome.isExcluded : Outcome → Bool
  | alreadyReviewed | excluded => true
  | created _ _ | linked _ _ | updated | unchanged | queued | awaitingReview | notSelected
  | deletedInSource => false

/-- The totals of a preview are the report of the run, as far as they speak of the same records. -/
structure SameTotals (t : PreviewTotals) (r : SyncReport)
    (outcomes : List (SourceContact × Outcome)) : Prop where
  create : t.create = r.created
  link : t.link = r.linked
  review : t.review = r.queued + r.awaitingReview
  excluded : t.excluded = outcomes.countP fun q => !q.1.deleted && q.2.isExcluded
  imported : t.imported = outcomes.countP fun q => !q.1.deleted && q.2.isImported

theorem SameTotals.deleted {t : PreviewTotals} {r : SyncReport}
    {outcomes : List (SourceContact × Outcome)} {o : Outcome} (h : SameTotals t r outcomes)
    (hd : record.deleted = true) (ho : o.ofDeleted = true) :
    SameTotals t (r.count o) (outcomes ++ [(record, o)]) := by
  obtain ⟨h1, h2, h3, h4, h5⟩ := h
  have hc : ∀ f : Outcome → Bool, (outcomes ++ [(record, o)]).countP
      (fun q => !q.1.deleted && f q.2) = outcomes.countP fun q => !q.1.deleted && f q.2 := by
    intro f
    simp [List.countP_append, hd]
  cases o with
  | excluded | unchanged | deletedInSource =>
      exact ⟨h1, h2, h3, h4.trans (hc _).symm, h5.trans (hc _).symm⟩
  | created | linked | updated | queued | awaitingReview | alreadyReviewed | notSelected =>
      cases ho

theorem SameTotals.silent {t : PreviewTotals} {r : SyncReport}
    {outcomes : List (SourceContact × Outcome)} {o : Outcome} (h : SameTotals t r outcomes)
    (ho : o.preview = none) : SameTotals t (r.count o) (outcomes ++ [(record, o)]) := by
  obtain ⟨h1, h2, h3, h4, h5⟩ := h
  cases o with
  | notSelected | deletedInSource =>
      exact ⟨h1, h2, h3, by simpa [Outcome.isExcluded] using h4,
        by simpa [Outcome.isImported] using h5⟩
  | created | linked | updated | unchanged | queued | awaitingReview | alreadyReviewed
  | excluded => cases ho

theorem SameTotals.said {t : PreviewTotals} {r : SyncReport}
    {outcomes : List (SourceContact × Outcome)} {o : Outcome} {said : PreviewOutcome}
    (h : SameTotals t r outcomes) (hd : record.deleted = false) (ho : o.preview = some said) :
    SameTotals (t.add said) (r.count o) (outcomes ++ [(record, o)]) := by
  obtain ⟨h1, h2, h3, h4, h5⟩ := h
  cases o with
  | notSelected | deletedInSource => cases ho
  | created | linked | updated | unchanged | queued | awaitingReview | alreadyReviewed
  | excluded =>
      cases ho
      constructor <;>
        simp [PreviewTotals.add, SyncReport.count, List.countP_append, Outcome.isExcluded,
          Outcome.isImported, *]
      all_goals omega

/-- What a preview has said of the records so far is what has become of them. -/
structure Foretold (s : Snapshot) (r : SyncReport) (outs : List (SourceContact × Outcome))
    (st : PreviewState) : Prop where
  snapshot : s.Sim st.snapshot
  outcomes : st.records.map (·.outcome) = foretell outs
  totals : SameTotals st.totals r outs

section Foretold

variable {ctx : RunContext} {invent : ℕ → Uuid} {offered selected : List String} {r : SyncReport}
  {outs : List (SourceContact × Outcome)} {st : PreviewState} {o : Outcome}

/-- A deleted record is left out of the preview. -/
theorem Foretold.deleted (h : Foretold s r outs st) (hd : record.deleted = true)
    (ho : applyRecord ctx db s record = .ok (db', o)) :
    Foretold (s.after ctx.rt record o) (r.count o) (outs ++ [(record, o)]) st := by
  have hof := applied_deleted hd (applyRecord_cases ho)
  rw [after_ofDeleted hof]
  exact ⟨h.snapshot, by rw [h.outcomes]; simp [foretell, hd], h.totals.deleted hd hof⟩

/-- Any other record is planned as the run plans it. -/
theorem Foretold.previewOne (h : Foretold s r outs st) (hd : record.deleted = false)
    (ho : applyRecord ctx db s record = .ok (db', o))
    (hnext : NeverAnswered s.answered db.contacts.next)
    (hinvent : ∀ n, NeverAnswered s.answered (invent n)) :
    Foretold (s.after ctx.rt record o) (r.count o) (outs ++ [(record, o)])
      (previewOne ctx.rt ctx.connection invent offered ctx.connection.selectedGroups ctx.fullRead st
        record) := by
  have ha := applyRecord_cases ho
  have hp := plan_sim ctx.rt record h.snapshot ctx.connection.selectedGroups ctx.fullRead
  have hs := after_sim h.snapshot hp ha hnext (hinvent st.invented)
  have hpre := (preview_of_applied ha).trans hp.preview
  unfold ContactSync.previewOne
  generalize plan ctx.rt record ctx.connection.selectedGroups st.snapshot ctx.fullRead = pl at *
  dsimp only
  cases hsay : pl.preview with
  | none =>
      rw [hsay] at hpre
      exact ⟨hs, by simp [foretell, h.outcomes, hd, hpre], h.totals.silent hpre⟩
  | some said =>
      rw [hsay] at hpre
      exact ⟨hs, by simp [foretell, h.outcomes, hd, hpre], h.totals.said hd hpre⟩

/-- All records of a pass: the induction is over the records, and the ids that the run gives out
stay above those that answered questions name. -/
theorem Foretold.landed (offered : List String) {records : List SourceContact} {s' : Snapshot} {os : List Outcome}
    (hl : Landed ctx db s records db' s' os) (hk : db.HasConnection ctx.connection)
    (hb : AnswersBelow s.answered db.contacts.next)
    (hinvent : ∀ n, NeverAnswered s.answered (invent n)) (h : Foretold s r outs st) :
    Foretold s' (os.foldl SyncReport.count r) (outs ++ records.zip os)
      ((records.filter fun x => !x.deleted).foldl (ContactSync.previewOne ctx.rt ctx.connection
        invent offered ctx.connection.selectedGroups ctx.fullRead) st) := by
  induction hl generalizing r outs st with
  | nil db s => simpa using h
  | @cons db db₁ db' s s' record records o os ho hl ih =>
      have hw := applyRecord_writes hk ho
      have hb' : AnswersBelow (s.after ctx.rt record o).answered db₁.contacts.next := by
        rw [Snapshot.after_answered]
        exact fun q hq => (hb q hq).trans_le (writes_contacts_next_le hw)
      have hi' : ∀ n, NeverAnswered (s.after ctx.rt record o).answered (invent n) := by
        rw [Snapshot.after_answered]
        exact hinvent
      rw [List.zip_cons_cons, List.append_cons, List.foldl_cons]
      cases hd : record.deleted with
      | true =>
          rw [List.filter_cons_of_neg (by simp [hd])]
          exact ih (writes_hasConnection hw hk) hb' hi' (h.deleted hd ho)
      | false =>
          rw [List.filter_cons_of_pos (by simp [hd]), List.foldl_cons]
          exact ih (writes_hasConnection hw hk) hb' hi'
            (h.previewOne hd ho hb.neverAnswered hinvent)

end Foretold

/-! ### The preview and the run -/

namespace SyncDb

/-- The foreign key of `contact_sync_candidates.candidate_contact_id`. -/
def CandidateContacts (db : SyncDb) : Prop :=
  ∀ k ∈ db.candidates, ∃ c ∈ db.contacts, c.id = k.candidateContactId

theorem CandidateContacts.answered (h : db.CandidateContacts) {connectionId : Uuid}
    {provider : String} {q : String × Uuid} (hq : q ∈ (db.snapshot rt connectionId provider).answered) :
    ∃ c ∈ db.contacts, c.id = q.2 := by
  obtain ⟨k, hk, rfl⟩ := List.mem_map.mp hq
  exact h k (List.mem_filter.mp hk).1

end SyncDb

/-- The preview of a first import says what the run reports. -/
def PreviewHolds (rt : Runtime) (invent : ℕ → Uuid) (db : SyncDb) (connection : Connection)
    (source : Source) (opts : RunOptions) : Prop :=
  ∀ st shown, passOf rt db connection.id source opts = some st → st.report.failed = 0 →
    preview rt invent db connection.id source (some connection.selectedGroups) = .ok shown →
    shown.totals.create = st.report.created ∧ shown.totals.link = st.report.linked ∧
      shown.totals.review = st.report.queued + st.report.awaitingReview ∧
      shown.totals.excluded = st.report.excluded + st.report.alreadyReviewed ∧
      shown.totals.imported = (st.outcomes.countP fun q => !q.1.deleted && q.2.isImported) ∧
      shown.records.map (·.outcome) = foretell st.outcomes

/-- Where a preview of a selection of offered labels ends. -/
def previewPass (rt : Runtime) (invent : ℕ → Uuid) (db : SyncDb) (connection : Connection)
    (source : Source) (groups : List SourceGroup) (records : List SourceContact) : PreviewState :=
  (records.filter fun r => !r.deleted).foldl
    (previewOne rt connection invent (groups.map (·.id)) connection.selectedGroups
      source.listsEverything)
    { snapshot := db.snapshot rt connection.id connection.provider
      invented := 0
      records := []
      totals := {} }

theorem preview_eq {invent : ℕ → Uuid} {connection : Connection} {source : Source}
    {groups : List SourceGroup} {changes : SourceChanges}
    (hs : startRun db connection.id source = .ok connection)
    (hr : readSource source none = .ok (groups, changes))
    (hoffered : ∀ g ∈ connection.selectedGroups, g ∈ groups.map (·.id)) :
    preview rt invent db connection.id source (some connection.selectedGroups) =
      .ok { groups := groups
            selection := connection.selectedGroups
            records := (previewPass rt invent db connection source groups changes.contacts).records
            totals := (previewPass rt invent db connection source groups changes.contacts).totals } := by
  obtain ⟨hc, -, hlive, hactive, -⟩ := startRun_eq_ok.mp hs
  have hconsidered : (connection.selectedGroups.filter fun g => g ∈ groups.map (·.id)) =
      connection.selectedGroups :=
    List.filter_eq_self.mpr fun g hg => decide_eq_true (hoffered g hg)
  unfold preview previewPass
  rw [hc]
  dsimp only
  rw [if_neg (by simp [hlive, hactive]), hr]
  dsimp only
  rw [hconsidered]

/-- A run that applied all records has done what the preview says. -/
theorem previewPass_foretold {invent : ℕ → Uuid} {connection : Connection} {source : Source}
    {groups : List SourceGroup} {changes : SourceChanges} {pass : PassState} {os : List Outcome}
    (hfk : db.CandidateContacts) (hinvent : ∀ n, ∀ c ∈ db.contacts, c.id ≠ invent n)
    (hs : startRun db connection.id source = .ok connection) (hfirst : connection.syncToken = none)
    (hl : Landed (passContext rt connection source groups changes)
      (db.setStatus connection.id .inProgress) (db.snapshot rt connection.id connection.provider)
      changes.contacts pass.db pass.snapshot os)
    (ho : pass.outcomes = changes.contacts.zip os)
    (hr : pass.report = os.foldl SyncReport.count
      { fullRead := isFullRead source connection.syncToken changes
        total := changes.contacts.length }) :
    Foretold pass.snapshot pass.report pass.outcomes
      (previewPass rt invent db connection source groups changes.contacts) := by
  have hinv : ∀ n, NeverAnswered (db.snapshot rt connection.id connection.provider).answered
      (invent n) := by
    intro n externalId hm
    obtain ⟨c, hcm, hid⟩ := hfk.answered hm
    exact hinvent n c hcm hid
  have hbelow : AnswersBelow (db.snapshot rt connection.id connection.provider).answered
      (db.setStatus connection.id .inProgress).contacts.next := by
    intro q hq
    obtain ⟨c, hcm, hid⟩ := hfk.answered hq
    exact hid ▸ Table.key_lt_next hcm
  have hfull : (passContext rt connection source groups changes).fullRead =
      source.listsEverything := by
    simp [passContext, isFullRead, hfirst]
  have hk : (db.setStatus connection.id .inProgress).HasConnection connection :=
    (SyncWrite.setStatus ..).hasConnection (hasConnection_of_find (startRun_eq_ok.mp hs).1)
  have hstart : Foretold (db.snapshot rt connection.id connection.provider)
      { fullRead := isFullRead source connection.syncToken changes
        total := changes.contacts.length } []
      { snapshot := db.snapshot rt connection.id connection.provider
        invented := 0
        records := []
        totals := {} } :=
    ⟨.refl _, rfl, rfl, rfl, rfl, rfl, rfl⟩
  have hend := Foretold.landed (groups.map (·.id)) hl hk hbelow hinv hstart
  rw [hfull, List.nil_append, ← ho, ← hr] at hend
  exact hend

/-- A first import that is not cancelled and none of whose records fails does what its preview
said: over any local state whose questions name contacts, any answer of the source and any
selection of offered labels, with ids that are new. -/
theorem preview_is_import (invent : ℕ → Uuid) (connection : Connection) {source : Source}
    {opts : RunOptions} {st : PassState} (hfk : db.CandidateContacts)
    (hinvent : ∀ n, ∀ c ∈ db.contacts, c.id ≠ invent n)
    (hc : db.connections.find connection.id = some connection)
    (hfirst : connection.syncToken = none)
    (hoffered : ∀ groups, source.listGroups = .ok groups →
      ∀ g ∈ connection.selectedGroups, g ∈ groups.map (·.id))
    (hst : passOf rt db connection.id source opts = some st)
    (hcancel : st.report.cancelled = false) (hfail : st.report.failed = 0) :
    ∃ shown, preview rt invent db connection.id source (some connection.selectedGroups) =
        .ok shown ∧
      shown.totals.create = st.report.created ∧ shown.totals.link = st.report.linked ∧
      shown.totals.review = st.report.queued + st.report.awaitingReview ∧
      shown.totals.excluded = (st.outcomes.countP fun q => !q.1.deleted && q.2.isExcluded) ∧
      shown.totals.imported = (st.outcomes.countP fun q => !q.1.deleted && q.2.isImported) ∧
      shown.records.map (·.outcome) = foretell st.outcomes := by
  obtain ⟨connection', groups, changes, hs, hread, rfl⟩ := passOf_eq_some.mp hst
  cases hc.symm.trans (startRun_eq_ok.mp hs).1
  obtain ⟨pass, os, he, hl, ho, hr⟩ := passOver_landed hcancel hfail
  obtain ⟨houts, n, hn⟩ := endPass_report connection.id changes pass
  obtain ⟨-, hsaid, ht⟩ := previewPass_foretold hfk hinvent hs hfirst hl ho hr
  rw [hfirst] at hread
  refine ⟨_, preview_eq hs hread (hoffered groups (readSource_eq_ok.mp hread).1), ?_⟩
  rw [he, hn, houts]
  exact ⟨ht.create, ht.link, ht.review, ht.excluded, ht.imported, hsaid⟩

/-- A record whose imported data was removed, and no contact yet. -/
def removedDb : SyncDb :=
  { SyncDb.fresh with
    connections := SyncDb.fresh.connections.insert (fun id => { clientsConnection with id := id })
      clientsConnection_id
    suppressions := [("google", asciiRuntime.sha256 "people/c1")] }

/-- The preview of a removed and of a new record. -/
theorem preview_is_import_removed :
    ∃ st, passOf asciiRuntime removedDb 0 (clientsSource
        [{ externalId := "people/c1", groupIds := ["contactGroups/a"] },
          { externalId := "people/c2", groupIds := ["contactGroups/a"] }]) {} = some st ∧
      ∃ shown, preview asciiRuntime (· + 1) removedDb 0 (clientsSource
          [{ externalId := "people/c1", groupIds := ["contactGroups/a"] },
            { externalId := "people/c2", groupIds := ["contactGroups/a"] }])
          (some ["contactGroups/a"]) = .ok shown ∧
        shown.totals.create = st.report.created := by
  have hrun : ((passOf asciiRuntime removedDb 0 (clientsSource
      [{ externalId := "people/c1", groupIds := ["contactGroups/a"] },
        { externalId := "people/c2", groupIds := ["contactGroups/a"] }]) {}).any fun st =>
      decide (st.report.cancelled = false) && decide (st.report.failed = 0)) = true := by
    decide +kernel
  simp only [Option.any_eq_true, Bool.and_eq_true, decide_eq_true_eq] at hrun
  obtain ⟨st, hst, hcancel, hfail⟩ := hrun
  obtain ⟨shown, hshown, hcreate, -⟩ := preview_is_import (· + 1) clientsConnection
    (fun k hk => absurd hk List.not_mem_nil)
    (fun _ c hc => absurd hc List.not_mem_nil) rfl rfl
    (by rintro groups hg g hm; cases hg; exact hm) hst hcancel hfail
  exact ⟨st, hst, shown, hshown, hcreate⟩

/-! ### What the preview leaves out -/

/-- A run counts the removed record among the excluded when the source reports it as deleted, and a
run that is cancelled stops before the end; a preview does neither. -/
theorem deleted_record_not_previewed :
    ¬ PreviewHolds asciiRuntime (· + 1) removedDb clientsConnection
        (clientsSource [{ externalId := "people/c1", deleted := true }]) {} ∧
      ¬ PreviewHolds asciiRuntime (· + 1) removedDb clientsConnection
        (clientsSource (List.replicate 26
          { externalId := "people/c2", groupIds := ["contactGroups/a"] }))
        { cancelBefore := some 1 } := by
  constructor
  · intro h
    have hrun : ((passOf asciiRuntime removedDb 0
        (clientsSource [{ externalId := "people/c1", deleted := true }]) {}).any fun st =>
          (preview asciiRuntime (· + 1) removedDb 0
            (clientsSource [{ externalId := "people/c1", deleted := true }])
            (some ["contactGroups/a"])).toOption.any fun shown =>
              decide (st.report.failed = 0) && decide (shown.totals.excluded = 0) &&
                decide (st.report.excluded = 1)) = true := by
      decide +kernel
    simp only [Option.any_eq_true, Bool.and_eq_true, decide_eq_true_eq] at hrun
    obtain ⟨st, hst, shown, hshown, ⟨hf, h0⟩, h1⟩ := hrun
    obtain ⟨-, -, -, hex, -⟩ := h st shown hst hf (toOption_eq_some hshown)
    omega
  · intro h
    have hrun : ((passOf asciiRuntime removedDb 0
        (clientsSource (List.replicate 26
          { externalId := "people/c2", groupIds := ["contactGroups/a"] }))
        { cancelBefore := some 1 }).any fun st =>
          (preview asciiRuntime (· + 1) removedDb 0
            (clientsSource (List.replicate 26
              { externalId := "people/c2", groupIds := ["contactGroups/a"] }))
            (some ["contactGroups/a"])).toOption.any fun shown =>
              decide (st.report.failed = 0) && decide (shown.totals.imported = 25) &&
                decide ((st.outcomes.countP fun q => !q.1.deleted && q.2.isImported) = 24)) =
                  true := by
      decide +kernel
    simp only [Option.any_eq_true, Bool.and_eq_true, decide_eq_true_eq] at hrun
    obtain ⟨st, hst, shown, hshown, ⟨hf, h0⟩, h1⟩ := hrun
    obtain ⟨-, -, -, -, him, -⟩ := h st shown hst hf (toOption_eq_some hshown)
    omega

end Mokosh.ContactSync
