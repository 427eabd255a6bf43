import Mathlib.Data.List.Dedup
import Mokosh.ContactSync.ICloud
import Mokosh.ContactSync.Sync

/-! # The groups iCloud offers

`groups_from` and `apply_membership` of `icloud.rs`, with the number of members that each offered group shows.  The
first counts member lines and the contacts that no group card names; the second stamps contacts with the ids of cards.

**`offersCount_iff`**: a selection of any one group admits as many contacts as it shows, if and only if the lines that
repeat a member of a card are as many as its members that more than one contact has the id of and the contacts that
carry its id from elsewhere; and as many contacts carry `mokosh:ungrouped` as no card names. -/

namespace Mokosh.ContactSync

variable {rt : Runtime}

/-- A `SourceGroup`, with its count. -/
structure OfferedGroup extends SourceGroup where
  memberCount : ℕ
deriving DecidableEq, Repr

/-- `as u32`. -/
def asU32 (n : ℕ) : ℕ := n % 2 ^ 32

/-- The group of a card with an id, counting the members that are in the book. -/
def GroupCard.offered (known : List String) (card : GroupCard) : Option OfferedGroup :=
  card.id.map fun id =>
    { id := id
      name := card.name.getD "Untitled group"
      memberCount := asU32 (card.memberIds.countP fun member => member ∈ known) }

/-- `groups_from`. -/
def groupsOffered (rt : Runtime) (contacts : List SourceContact) (groupCards : List GroupCard) : List OfferedGroup :=
  let known := contacts.map (·.externalId)
  let groups := groupCards.filterMap (GroupCard.offered known)
  let grouped := groupCards.flatMap (·.memberIds)
  let ungrouped := contacts.countP fun c => c.externalId ∉ grouped
  (groups.insertionSort fun a b => (rt.toLowercase a.name).toList ≤ (rt.toLowercase b.name).toList) ++
    [{ id := ungroupedId, name := "Ungrouped", memberCount := asU32 ungrouped }]

/-- How many contacts a selection of just that group admits. -/
def admitted (contacts : List SourceContact) (groupCards : List GroupCard) (id : String) : ℕ :=
  (applyMembership contacts groupCards).countP fun record => record.isSelected [id]

/-- Every group that is offered admits as many contacts as it shows. -/
def OffersCount (rt : Runtime) (contacts : List SourceContact) (groupCards : List GroupCard) : Prop :=
  ∀ g ∈ groupsOffered rt contacts groupCards, admitted contacts groupCards g.id = g.memberCount

/-! ### When the counts are right -/

/-- A card with the id names the contact, or its own categories have the id. -/
def Carries (groupCards : List GroupCard) (id : String) (c : SourceContact) : Prop :=
  id ∈ c.groupIds ∨ ∃ card ∈ groupCards, card.id = some id ∧ c.externalId ∈ card.memberIds

instance (groupCards : List GroupCard) (id : String) : DecidablePred (Carries groupCards id) := fun _ =>
  inferInstanceAs (Decidable (_ ∨ _))

namespace GroupCard

variable (contacts : List SourceContact) (groupCards : List GroupCard) (card : GroupCard)

/-- The member lines that name a contact of the book. -/
def lines : List String := card.memberIds.filter fun member => member ∈ contacts.map (·.externalId)

/-- The contacts that the card names. -/
def named : List SourceContact := contacts.filter fun c => c.externalId ∈ card.memberIds

/-- The ids that the card names, each once. -/
def members : List String := (card.lines contacts).dedup

/-- How many lines repeat a member. -/
def repeatedLines : ℕ := (card.lines contacts).length - (card.members contacts).length

/-- How many contacts have the id of another one that the card names. -/
def sharedIds : ℕ := (card.named contacts).length - (card.members contacts).length

/-- How many contacts that the card does not name have its id from elsewhere. -/
def outsiders (id : String) : ℕ :=
  contacts.countP fun c => Carries groupCards id c ∧ c.externalId ∉ card.memberIds

/-- What a `u32` loses of the count. -/
def lost : ℕ := (card.lines contacts).length / 2 ^ 32 * 2 ^ 32

/-- As many lines too many as contacts. -/
def Balanced (id : String) : Prop :=
  card.repeatedLines contacts = card.sharedIds contacts + card.outsiders contacts groupCards id + card.lost contacts

end GroupCard

/-- As many contacts carry the id of the pseudo-group as no card names. -/
def UngroupedBalanced (contacts : List SourceContact) (groupCards : List GroupCard) : Prop :=
  let ungrouped := contacts.countP fun c => ∀ card ∈ groupCards, c.externalId ∉ card.memberIds
  contacts.countP (fun c => Carries groupCards ungroupedId c) = asU32 ungrouped

/-! ### What membership stamps -/

/-- What `apply_membership` makes of one contact for one card. -/
def stamp (card : GroupCard) (c : SourceContact) : SourceContact :=
  match card.id with
  | none => c
  | some groupId =>
    if c.externalId ∈ card.memberIds ∧ groupId ∉ c.groupIds then
      { c with groupIds := c.groupIds ++ [groupId] }
    else c

theorem externalId_stamp (card : GroupCard) (c : SourceContact) : (stamp card c).externalId = c.externalId := by
  unfold stamp
  split
  · rfl
  · split <;> rfl

theorem mem_stamp {card : GroupCard} {c : SourceContact} {id : String} :
    id ∈ (stamp card c).groupIds ↔ id ∈ c.groupIds ∨ card.id = some id ∧ c.externalId ∈ card.memberIds := by
  unfold stamp
  split
  · next hid => simp [hid]
  · next groupId hid =>
      rw [hid, Option.some.injEq]
      split
      · next hmember =>
          rw [List.mem_append, List.mem_singleton]
          exact or_congr_right ⟨fun h => ⟨h.symm, hmember.1⟩, fun h => h.1.symm⟩
      · next hmember =>
          refine ⟨.inl, fun h => h.elim (fun hin => hin) fun ⟨heq, hmem⟩ => ?_⟩
          by_contra hout
          exact hmember ⟨hmem, heq ▸ hout⟩

theorem applyMembership_eq (contacts : List SourceContact) (groupCards : List GroupCard) :
    applyMembership contacts groupCards = contacts.map fun c => groupCards.foldl (fun c card => stamp card c) c := by
  unfold applyMembership
  induction groupCards generalizing contacts with
  | nil => exact (List.map_id _).symm
  | cons card groupCards ih =>
      rw [List.foldl_cons, ih]
      cases hid : card.id with
      | none =>
          refine List.map_congr_left fun c _ => ?_
          rw [List.foldl_cons, stamp, hid]
      | some groupId =>
          rw [List.map_map]
          refine List.map_congr_left fun c _ => ?_
          rw [Function.comp_apply, List.foldl_cons, stamp, hid]

theorem mem_stamped {groupCards : List GroupCard} {c : SourceContact} {id : String} :
    id ∈ (groupCards.foldl (fun c card => stamp card c) c).groupIds ↔ Carries groupCards id c := by
  induction groupCards generalizing c with
  | nil => simp [Carries]
  | cons card groupCards ih =>
      rw [List.foldl_cons, ih, Carries, Carries, mem_stamp, externalId_stamp, List.exists_mem_cons_iff, or_assoc]

theorem admitted_eq (contacts : List SourceContact) (groupCards : List GroupCard) (id : String) :
    admitted contacts groupCards id = contacts.countP fun c => Carries groupCards id c := by
  unfold admitted
  rw [applyMembership_eq, List.countP_map]
  refine List.countP_congr fun c _ => ?_
  simp [SourceContact.isSelected, mem_stamped]

/-! ### One group -/

namespace GroupCard

variable {contacts : List SourceContact} {groupCards : List GroupCard} {card : GroupCard}

theorem length_members_le_lines : (card.members contacts).length ≤ (card.lines contacts).length :=
  (List.dedup_sublist _).length_le

theorem length_members_le_named : (card.members contacts).length ≤ (card.named contacts).length := by
  have hsub : card.members contacts ⊆ (card.named contacts).map (·.externalId) := by
    intro member hmember
    obtain ⟨hmem, hknown⟩ := List.mem_filter.mp (List.mem_dedup.mp hmember)
    obtain ⟨c, hc, rfl⟩ := List.mem_map.mp (of_decide_eq_true hknown)
    exact List.mem_map_of_mem (List.mem_filter.mpr ⟨hc, decide_eq_true hmem⟩)
  have hle := ((List.nodup_dedup _).subperm hsub).length_le
  rwa [List.length_map] at hle

theorem carries_eq (hcard : card ∈ groupCards) {id : String} (hid : card.id = some id) :
    (contacts.countP fun c => Carries groupCards id c) =
      (card.named contacts).length + card.outsiders contacts groupCards id := by
  have hnamed : ∀ c : SourceContact, c.externalId ∈ card.memberIds → Carries groupCards id c := fun c hc =>
    .inr ⟨card, hcard, hid, hc⟩
  rw [named, ← List.countP_eq_length_filter, outsiders]
  induction contacts with
  | nil => rfl
  | cons c contacts ih =>
      rw [List.countP_cons, List.countP_cons, List.countP_cons, ih]
      by_cases hc : c.externalId ∈ card.memberIds
      · simp [hc, hnamed c hc]
        omega
      · simp [hc]
        omega

/-- A group shows as many members as it admits, if its surplus of lines is its surplus of contacts. -/
theorem counts_iff (hcard : card ∈ groupCards) {id : String} (hid : card.id = some id) :
    admitted contacts groupCards id =
        asU32 (card.memberIds.countP fun member => member ∈ contacts.map (·.externalId)) ↔
      card.Balanced contacts groupCards id := by
  have hlines : (card.members contacts).length ≤ (card.lines contacts).length := length_members_le_lines
  have hnamed : (card.members contacts).length ≤ (card.named contacts).length := length_members_le_named
  have hcount : (card.memberIds.countP fun member => member ∈ contacts.map (·.externalId)) =
      (card.lines contacts).length := List.countP_eq_length_filter ..
  rw [admitted_eq, carries_eq hcard hid, hcount]
  unfold Balanced repeatedLines sharedIds lost asU32
  omega

end GroupCard

theorem offersCount_iff (rt : Runtime) (contacts : List SourceContact) (groupCards : List GroupCard) :
    OffersCount rt contacts groupCards ↔
      (∀ card ∈ groupCards, ∀ id, card.id = some id → card.Balanced contacts groupCards id) ∧
        UngroupedBalanced contacts groupCards := by
  have hgrouped : (contacts.countP fun c => c.externalId ∉ groupCards.flatMap (·.memberIds)) =
      contacts.countP fun c => ∀ card ∈ groupCards, c.externalId ∉ card.memberIds := by
    refine List.countP_congr fun c _ => ?_
    simp [List.mem_flatMap]
  unfold OffersCount groupsOffered UngroupedBalanced
  simp only [List.forall_mem_append, List.forall_mem_singleton, hgrouped, admitted_eq contacts groupCards ungroupedId]
  refine and_congr_left fun _ => ?_
  constructor
  · intro h card hcard id hid
    have hsome : card.offered (contacts.map (·.externalId)) = some _ := congrArg (Option.map _) hid
    have hoffered := List.mem_filterMap.mpr ⟨card, hcard, hsome⟩
    exact (GroupCard.counts_iff hcard hid).mp (h _ ((List.mem_insertionSort _).mpr hoffered))
  · intro h g hg
    obtain ⟨card, hcard, hsome⟩ := List.mem_filterMap.mp ((List.mem_insertionSort _).mp hg)
    obtain ⟨id, hid, rfl⟩ := Option.map_eq_some_iff.mp hsome
    exact (GroupCard.counts_iff hcard hid).mpr (h card hcard id hid)

/-- A contact in no group; and one whose group names it twice. -/
theorem not_offersCount : ¬ OffersCount asciiRuntime [{ externalId := "a" }] [] ∧
    ¬ OffersCount asciiRuntime [{ externalId := "a" }] [{ id := some "g", memberIds := ["a", "a"] }] := by
  constructor
  · intro h
    exact absurd (h { id := ungroupedId, name := "Ungrouped", memberCount := 1 } (by decide)) (by decide)
  · intro h
    exact absurd (h { id := "g", name := "Untitled group", memberCount := 2 } (by decide)) (by decide)

end Mokosh.ContactSync
