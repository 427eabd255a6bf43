import Mokosh.ContactSync.Matching
import Mokosh.Lib.SortedMap

/-! # The matching decision as it is computed

`decide` of `matching.rs` folds its questions into a `BTreeMap`: first one for every contact that shares an email, then
one for each further ground of each contact, where a contact that is in the map already keeps the stronger reason.
Whatever the questions are asked in, the map has each contact once, in the order of the ids, with the strongest reason
it was asked for (`strongest_foldl`).  With distinct ids that is a function of the set of the contacts and of the sets
of their keys (**`decide_spec`**), and it is the decision `decideMatch` states at once (`decide_eq_decideMatch`). -/

namespace Mokosh.ContactSync

namespace MatchReason

/-- The order of the variants, the strongest first. -/
def rank : MatchReason → ℕ
  | emailAmbiguous => 0
  | phone => 1
  | nameCompany => 2

/-- `Ord::min`. -/
def stronger (r r' : MatchReason) : MatchReason := if r'.rank < r.rank then r' else r

theorem rank_injective : Function.Injective rank := by
  intro r r' h
  cases r <;> cases r' <;> first | rfl | cases h

theorem rank_stronger (r r' : MatchReason) : (stronger r r').rank = min r.rank r'.rank := by
  unfold stronger
  split <;> omega

end MatchReason

/-- The map of the questions. -/
abbrev Pairs := List (Uuid × MatchReason)

/-- The closure `propose`: `entry(id).and_modify(|r| *r = (*r).min(reason)).or_insert(reason)`. -/
def propose (pairs : Pairs) (call : Uuid × MatchReason) : Pairs :=
  SortedMap.insert (call.1, (pairs.lookup call.1).elim call.2 (·.stronger call.2)) pairs

namespace Matching

/-- The body of the loop over all contacts. -/
def proposeGrounds (incoming : IncomingKeys) (pairs : Pairs) (l : LocalContact) : Pairs :=
  let pairs := if l.sharesPhone incoming then propose pairs (l.contactId, .phone) else pairs
  if l.sharesNameAndCompany incoming then propose pairs (l.contactId, .nameCompany) else pairs

/-- The questions about a record. -/
def pairs (incoming : IncomingKeys) (locals : List LocalContact) : Pairs :=
  locals.foldl (proposeGrounds incoming)
    ((locals.filter (·.sharesEmail incoming)).foldl (fun pairs l => propose pairs (l.contactId, .emailAmbiguous)) [])

/-- `decide`. -/
protected def decide (incoming : IncomingKeys) (locals : List LocalContact) : MatchDecision :=
  let review := if (pairs incoming locals).isEmpty then .create else .review (pairs incoming locals)
  match locals.filter (·.sharesEmail incoming) with
  | [only] => if only.linked then review else .link only.contactId
  | _ => review

end Matching

/-! ### The map keeps the strongest reason -/

/-- The map holds each contact that was asked about, once and in order, with its strongest reason. -/
structure Strongest (calls pairs : Pairs) : Prop where
  ascending : SortedMap.Ascending pairs
  asked : ∀ id r, pairs.lookup id = some r → (id, r) ∈ calls
  least : ∀ id r, (id, r) ∈ calls → ∃ r', pairs.lookup id = some r' ∧ r'.rank ≤ r.rank

theorem strongest_nil : Strongest [] [] where
  ascending := .nil
  asked := fun id r h => by cases h
  least := fun id r h => absurd h List.not_mem_nil

theorem lookup_propose (pairs : Pairs) (call : Uuid × MatchReason) (id : Uuid) :
    (propose pairs call).lookup id =
      if id = call.1 then some ((pairs.lookup call.1).elim call.2 (·.stronger call.2)) else pairs.lookup id := by
  have hself := SortedMap.lookup_insert_self (call.1, (pairs.lookup call.1).elim call.2 (·.stronger call.2)) pairs
  unfold propose
  split
  · next h =>
    rw [h]
    exact hself
  · next h =>
    rw [SortedMap.lookup_insert_of_ne]
    exact h

theorem Strongest.propose {calls pairs : Pairs} (h : Strongest calls pairs) (call : Uuid × MatchReason) :
    Strongest (calls ++ [call]) (propose pairs call) := by
  obtain ⟨id', r'⟩ := call
  refine ⟨SortedMap.ascending_insert h.ascending _, fun id r hr => ?_, fun id r hr => ?_⟩
  · rw [lookup_propose] at hr
    rw [List.mem_append, List.mem_singleton]
    split at hr
    · next hid =>
      have hid' : id' = id := hid.symm
      subst hid'
      dsimp only at hr
      -- The reason kept is the one there was or the new one.
      cases hold : pairs.lookup id' with
      | none =>
          rw [hold] at hr
          cases hr
          exact .inr rfl
      | some old =>
          rw [hold, Option.elim_some, Option.some.injEq] at hr
          unfold MatchReason.stronger at hr
          split at hr
          · exact .inr (by rw [hr])
          · exact .inl (h.asked id' r (by rw [hold, hr]))
    · exact .inl (h.asked id r hr)
  · rw [lookup_propose]
    rw [List.mem_append, List.mem_singleton, Prod.mk.injEq] at hr
    split
    · next hid =>
      have hid' : id' = id := hid.symm
      subst hid'
      refine ⟨_, rfl, ?_⟩
      dsimp only
      obtain hr | ⟨-, rfl⟩ := hr
      · obtain ⟨old, hold, hle⟩ := h.least id' r hr
        rw [hold, Option.elim_some, MatchReason.rank_stronger]
        omega
      · cases pairs.lookup id' with
        | none => exact le_rfl
        | some old =>
            rw [Option.elim_some, MatchReason.rank_stronger]
            omega
    · next hid =>
      obtain hr | ⟨heq, -⟩ := hr
      · exact h.least id r hr
      · exact absurd heq hid

theorem strongest_foldl {calls pairs : Pairs} (h : Strongest calls pairs) (more : Pairs) :
    Strongest (calls ++ more) (more.foldl propose pairs) := by
  induction more generalizing calls pairs with
  | nil =>
      rw [List.append_nil]
      exact h
  | cons call more ih =>
      have hnext := ih (h.propose call)
      rwa [List.append_assoc, List.singleton_append] at hnext

/-! ### The questions of a record -/

/-- What a contact and a record have in common. -/
def LocalContact.Ground (incoming : IncomingKeys) (l : LocalContact) : MatchReason → Prop
  | .emailAmbiguous => ∃ k ∈ l.emailKeys, k ∈ incoming.emailKeys
  | .phone => ∃ k ∈ l.phoneKeys, k ∈ incoming.phoneKeys
  | .nameCompany => (∃ name, incoming.nameKey = some name ∧ l.nameKey = some name) ∧
      ∃ company, incoming.companyKey = some company ∧ company ∈ l.companyKeys

section Questions

variable {incoming : IncomingKeys} {locals : List LocalContact} {l : LocalContact}

theorem sharesEmail_iff : l.sharesEmail incoming = true ↔ l.Ground incoming .emailAmbiguous := by
  simp [LocalContact.sharesEmail, LocalContact.Ground]

theorem sharesPhone_iff : l.sharesPhone incoming = true ↔ l.Ground incoming .phone := by
  simp [LocalContact.sharesPhone, LocalContact.Ground]

theorem sharesNameAndCompany_iff : l.sharesNameAndCompany incoming = true ↔ l.Ground incoming .nameCompany := by
  unfold LocalContact.sharesNameAndCompany LocalContact.Ground
  rw [Bool.and_eq_true, Bool.and_eq_true, Option.isSome_iff_exists, Option.any_eq_true]
  simp only [decide_eq_true_eq]
  constructor
  · rintro ⟨⟨⟨name, hname⟩, hsame⟩, hcompany⟩
    exact ⟨⟨name, hname, hsame.trans hname⟩, hcompany⟩
  · rintro ⟨⟨name, hname, hsame⟩, hcompany⟩
    exact ⟨⟨⟨name, hname⟩, hsame.trans hname.symm⟩, hcompany⟩

/-- The questions the loop asks about one contact. -/
def groundCalls (incoming : IncomingKeys) (l : LocalContact) : Pairs :=
  (if l.sharesPhone incoming then [(l.contactId, .phone)] else []) ++
    if l.sharesNameAndCompany incoming then [(l.contactId, .nameCompany)] else []

/-- All questions, in the order they are asked. -/
def allCalls (incoming : IncomingKeys) (locals : List LocalContact) : Pairs :=
  (locals.filter (·.sharesEmail incoming)).map (fun l => (l.contactId, .emailAmbiguous)) ++
    locals.flatMap (groundCalls incoming)

theorem proposeGrounds_eq (pairs : Pairs) (l : LocalContact) :
    Matching.proposeGrounds incoming pairs l = (groundCalls incoming l).foldl propose pairs := by
  unfold Matching.proposeGrounds groundCalls
  split <;> split <;> rfl

theorem pairs_eq_foldl : Matching.pairs incoming locals = (allCalls incoming locals).foldl propose [] := by
  unfold Matching.pairs allCalls
  rw [List.foldl_append, List.foldl_map, List.foldl_flatMap]
  congr 1
  funext pairs l
  exact proposeGrounds_eq pairs l

theorem mem_allCalls {id : Uuid} {r : MatchReason} :
    (id, r) ∈ allCalls incoming locals ↔ ∃ l ∈ locals, l.contactId = id ∧ l.Ground incoming r := by
  simp only [allCalls, List.mem_append, List.mem_map, List.mem_filter, sharesEmail_iff, List.mem_flatMap, groundCalls,
    List.mem_ite_nil_right, List.mem_singleton, sharesPhone_iff, sharesNameAndCompany_iff, Prod.mk.injEq]
  constructor
  · rintro (⟨l, ⟨hl, hg⟩, hid, rfl⟩ | ⟨l, hl, ⟨hg, hid, rfl⟩ | ⟨hg, hid, rfl⟩⟩)
    · exact ⟨l, hl, hid, hg⟩
    · exact ⟨l, hl, hid.symm, hg⟩
    · exact ⟨l, hl, hid.symm, hg⟩
  · rintro ⟨l, hl, hid, hg⟩
    cases r with
    | emailAmbiguous => exact .inl ⟨l, ⟨hl, hg⟩, hid, rfl⟩
    | phone => exact .inr ⟨l, hl, .inl ⟨hg, hid.symm, rfl⟩⟩
    | nameCompany => exact .inr ⟨l, hl, .inr ⟨hg, hid.symm, rfl⟩⟩

end Questions

/-! ### The decision -/

/-- The strongest thing a contact and a record have in common. -/
def LocalContact.StrongestGround (incoming : IncomingKeys) (l : LocalContact) (r : MatchReason) : Prop :=
  l.Ground incoming r ∧ ∀ r', l.Ground incoming r' → r.rank ≤ r'.rank

/-- `reason` looks at the grounds in the order of their strength. -/
theorem reason_eq_some_iff {incoming : IncomingKeys} {l : LocalContact} {r : MatchReason} :
    l.reason incoming = some r ↔ l.StrongestGround incoming r := by
  unfold LocalContact.reason LocalContact.StrongestGround
  constructor
  · intro h
    split at h
    · next he =>
      cases h
      exact ⟨sharesEmail_iff.mp he, fun r' _ => Nat.zero_le _⟩
    · next he =>
      split at h
      · next hp =>
        cases h
        refine ⟨sharesPhone_iff.mp hp, fun r' hr' => ?_⟩
        cases r' with
        | emailAmbiguous => exact absurd (sharesEmail_iff.mpr hr') he
        | phone => exact le_rfl
        | nameCompany => exact Nat.le_succ _
      · next hp =>
        split at h
        · next hn =>
          cases h
          refine ⟨sharesNameAndCompany_iff.mp hn, fun r' hr' => ?_⟩
          cases r' with
          | emailAmbiguous => exact absurd (sharesEmail_iff.mpr hr') he
          | phone => exact absurd (sharesPhone_iff.mpr hr') hp
          | nameCompany => exact le_rfl
        · cases h
  · rintro ⟨hg, hmin⟩
    cases r with
    | emailAmbiguous => rw [if_pos (sharesEmail_iff.mpr hg)]
    | phone =>
        have he : ¬ l.Ground incoming .emailAmbiguous := fun he => absurd (hmin _ he) (by decide)
        rw [if_neg (mt sharesEmail_iff.mp he), if_pos (sharesPhone_iff.mpr hg)]
    | nameCompany =>
        have he : ¬ l.Ground incoming .emailAmbiguous := fun he => absurd (hmin _ he) (by decide)
        have hp : ¬ l.Ground incoming .phone := fun hp => absurd (hmin _ hp) (by decide)
        rw [if_neg (mt sharesEmail_iff.mp he), if_neg (mt sharesPhone_iff.mp hp),
          if_pos (sharesNameAndCompany_iff.mpr hg)]

theorem reason_eq_none_iff {incoming : IncomingKeys} {l : LocalContact} :
    l.reason incoming = none ↔ ∀ r, ¬ l.Ground incoming r := by
  constructor
  · intro h r hg
    unfold LocalContact.reason at h
    split_ifs at h with he hp hn
    cases r with
    | emailAmbiguous => exact he (sharesEmail_iff.mpr hg)
    | phone => exact hp (sharesPhone_iff.mpr hg)
    | nameCompany => exact hn (sharesNameAndCompany_iff.mpr hg)
  · intro h
    by_contra hsome
    obtain ⟨r, hr⟩ := Option.ne_none_iff_exists'.mp hsome
    exact h r (reason_eq_some_iff.mp hr).1

/-- The contact is the only one that shares an email with the record, and it is not linked yet. -/
def LinksTo (incoming : IncomingKeys) (locals : List LocalContact) (contactId : Uuid) : Prop :=
  ∃ l ∈ locals, l.contactId = contactId ∧ l.linked = false ∧ l.Ground incoming .emailAmbiguous ∧
    ∀ l' ∈ locals, l'.Ground incoming .emailAmbiguous → l' = l

/-- The questions there are, each contact once, in the order of the ids. -/
def Asks (incoming : IncomingKeys) (locals : List LocalContact) (pairs : Pairs) : Prop :=
  SortedMap.Ascending pairs ∧
    ∀ id r, (id, r) ∈ pairs ↔ ∃ l ∈ locals, l.contactId = id ∧ l.StrongestGround incoming r

section Decision

variable {incoming : IncomingKeys} {locals : List LocalContact}

theorem eq_of_contactId (hd : (locals.map LocalContact.contactId).Nodup) {l l' : LocalContact} (hl : l ∈ locals)
    (hl' : l' ∈ locals) (h : l.contactId = l'.contactId) : l = l' :=
  List.inj_on_of_nodup_map hd hl hl' h

theorem asks_pairs (hd : (locals.map LocalContact.contactId).Nodup) :
    Asks incoming locals (Matching.pairs incoming locals) := by
  have hstrong : Strongest (allCalls incoming locals) (Matching.pairs incoming locals) := by
    rw [pairs_eq_foldl]
    exact strongest_foldl strongest_nil _
  refine ⟨hstrong.ascending, fun id r => ?_⟩
  constructor
  · intro hmem
    have hlookup := SortedMap.lookup_of_mem hstrong.ascending.nodup hmem
    obtain ⟨l, hl, hid, hg⟩ := mem_allCalls.mp (hstrong.asked id r hlookup)
    refine ⟨l, hl, hid, hg, fun r' hg' => ?_⟩
    obtain ⟨least, hleast, hle⟩ := hstrong.least id r' (mem_allCalls.mpr ⟨l, hl, hid, hg'⟩)
    have hsame : least = r := Option.some.inj (hleast.symm.trans hlookup)
    rw [← hsame]
    exact hle
  · rintro ⟨l, hl, hid, hg, hmin⟩
    obtain ⟨least, hleast, hle⟩ := hstrong.least id r (mem_allCalls.mpr ⟨l, hl, hid, hg⟩)
    obtain ⟨l', hl', hid', hg'⟩ := mem_allCalls.mp (hstrong.asked id least hleast)
    -- The reason that is kept is a ground of this contact: no other has the id.
    obtain rfl := eq_of_contactId hd hl hl' (hid.trans hid'.symm)
    have hsame : least = r := MatchReason.rank_injective (le_antisymm hle (hmin least hg'))
    exact SortedMap.mem_of_lookup (hsame ▸ hleast)

/-- There is only one list of the questions. -/
theorem Asks.unique {pairs pairs' : Pairs} (h : Asks incoming locals pairs) (h' : Asks incoming locals pairs') :
    pairs = pairs' := by
  have hperm : pairs.Perm pairs' := by
    rw [List.perm_ext_iff_of_nodup (List.Nodup.of_map _ h.1.nodup) (List.Nodup.of_map _ h'.1.nodup)]
    rintro ⟨id, r⟩
    rw [h.2, h'.2]
  exact hperm.eq_of_pairwise (fun e e' _ _ hlt hlt' => absurd hlt hlt'.asymm) h.1 h'.1

/-- `proposals` is that list as well. -/
theorem asks_proposals (hd : (locals.map LocalContact.contactId).Nodup) :
    Asks incoming locals (proposals incoming locals) := by
  refine ⟨?_, fun id r => ?_⟩
  · have hsorted : (proposals incoming locals).Pairwise (fun e e' => e.1 ≤ e'.1) :=
      List.pairwise_insertionSort _ _
    have hids : (proposals incoming locals).Pairwise (fun e e' => e.1 ≠ e'.1) := by
      unfold proposals
      rw [(List.perm_insertionSort _ _).pairwise_iff (fun h => Ne.symm h), List.pairwise_filterMap]
      refine (List.pairwise_map.mp hd).imp ?_
      rintro l l' hne e he e' he'
      obtain ⟨r, -, rfl⟩ := Option.map_eq_some_iff.mp he
      obtain ⟨r', -, rfl⟩ := Option.map_eq_some_iff.mp he'
      exact hne
    exact (hsorted.and hids).imp fun h => lt_of_le_of_ne h.1 h.2
  · simp only [mem_proposals, reason_eq_some_iff]

theorem Asks.eq_nil_iff {pairs : Pairs} (h : Asks incoming locals pairs) :
    pairs = [] ↔ ∀ l ∈ locals, ∀ r, ¬ l.Ground incoming r := by
  constructor
  · rintro rfl l hl r hg
    have hsome : l.reason incoming ≠ none := fun hnone => reason_eq_none_iff.mp hnone r hg
    obtain ⟨r, hr⟩ := Option.ne_none_iff_exists'.mp hsome
    exact absurd ((h.2 l.contactId r).mpr ⟨l, hl, rfl, reason_eq_some_iff.mp hr⟩) List.not_mem_nil
  · intro hall
    rw [List.eq_nil_iff_forall_not_mem]
    rintro ⟨id, r⟩ hmem
    obtain ⟨l, hl, -, hg, -⟩ := (h.2 id r).mp hmem
    exact hall l hl r hg

/-- What `decide` looks at first. -/
theorem filter_eq_singleton_iff (hd : (locals.map LocalContact.contactId).Nodup) {l : LocalContact} :
    locals.filter (·.sharesEmail incoming) = [l] ↔ l ∈ locals ∧ l.Ground incoming .emailAmbiguous ∧
      ∀ l' ∈ locals, l'.Ground incoming .emailAmbiguous → l' = l := by
  constructor
  · intro h
    have hmem : ∀ l', l' ∈ locals ∧ l'.sharesEmail incoming = true ↔ l' = l := by
      intro l'
      rw [← List.mem_filter, h, List.mem_singleton]
    obtain ⟨hl, hg⟩ := (hmem l).mpr rfl
    exact ⟨hl, sharesEmail_iff.mp hg, fun l' hl' hg' => (hmem l').mp ⟨hl', sharesEmail_iff.mpr hg'⟩⟩
  · rintro ⟨hl, hg, honly⟩
    have hnodup : (locals.filter (·.sharesEmail incoming)).Nodup := (List.Nodup.of_map _ hd).filter _
    rw [← List.perm_singleton, List.perm_ext_iff_of_nodup hnodup (List.nodup_singleton l)]
    intro l'
    rw [List.mem_filter, List.mem_singleton, sharesEmail_iff]
    constructor
    · exact fun h => honly l' h.1 h.2
    · rintro rfl
      exact ⟨hl, hg⟩

/-- Everything the decision can be. -/
theorem decide_cases (hd : (locals.map LocalContact.contactId).Nodup) :
    (∃ c, LinksTo incoming locals c ∧ Matching.decide incoming locals = .link c) ∨
      (¬ ∃ c, LinksTo incoming locals c) ∧ Matching.decide incoming locals =
        if (Matching.pairs incoming locals).isEmpty then .create else .review (Matching.pairs incoming locals) := by
  unfold Matching.decide
  dsimp only
  split
  · next l hl =>
    obtain ⟨hmem, hg, honly⟩ := (filter_eq_singleton_iff hd).mp hl
    cases hlinked : l.linked with
    | false => exact .inl ⟨l.contactId, ⟨l, hmem, rfl, hlinked, hg, honly⟩, rfl⟩
    | true =>
        refine .inr ⟨?_, rfl⟩
        rintro ⟨c, l', hl', -, hfree, hg', -⟩
        rw [honly l' hl' hg', hlinked] at hfree
        cases hfree
  · next hno =>
    refine .inr ⟨?_, rfl⟩
    rintro ⟨c, l, hl, -, -, hg, honly⟩
    exact hno l ((filter_eq_singleton_iff hd).mpr ⟨hl, hg, honly⟩)

theorem LinksTo.unique {c c' : Uuid} (h : LinksTo incoming locals c) (h' : LinksTo incoming locals c') : c = c' := by
  obtain ⟨l, -, hid, -, -, honly⟩ := h
  obtain ⟨l', hl', hid', -, hg', -⟩ := h'
  rw [← hid, ← hid', honly l' hl' hg']

/-- The same record, whatever the order of its keys and however often they are repeated. -/
structure IncomingKeys.Alike (k k' : IncomingKeys) : Prop where
  emails : ∀ key, key ∈ k.emailKeys ↔ key ∈ k'.emailKeys
  phones : ∀ key, key ∈ k.phoneKeys ↔ key ∈ k'.phoneKeys
  name : k.nameKey = k'.nameKey
  company : k.companyKey = k'.companyKey

/-- The same contact, whatever the order of its keys and however often they are repeated. -/
structure LocalContact.Alike (l l' : LocalContact) : Prop where
  id : l.contactId = l'.contactId
  emails : ∀ key, key ∈ l.emailKeys ↔ key ∈ l'.emailKeys
  phones : ∀ key, key ∈ l.phoneKeys ↔ key ∈ l'.phoneKeys
  name : l.nameKey = l'.nameKey
  companies : ∀ key, key ∈ l.companyKeys ↔ key ∈ l'.companyKeys
  linked : l.linked = l'.linked

/-- The same contacts, in whatever order. -/
def SameContacts (locals locals' : List LocalContact) : Prop :=
  (∀ l ∈ locals, ∃ l' ∈ locals', l.Alike l') ∧ ∀ l' ∈ locals', ∃ l ∈ locals, l.Alike l'

theorem LocalContact.Alike.ground_iff {incoming' : IncomingKeys} {l l' : LocalContact} (h : l.Alike l')
    (hk : incoming.Alike incoming') (r : MatchReason) : l.Ground incoming r ↔ l'.Ground incoming' r := by
  cases r with
  | emailAmbiguous => simp only [Ground, h.emails, hk.emails]
  | phone => simp only [Ground, h.phones, hk.phones]
  | nameCompany => simp only [Ground, h.name, h.companies, hk.name, hk.company]

theorem LocalContact.Alike.strongestGround_iff {incoming' : IncomingKeys} {l l' : LocalContact} (h : l.Alike l')
    (hk : incoming.Alike incoming') (r : MatchReason) :
    l.StrongestGround incoming r ↔ l'.StrongestGround incoming' r := by
  simp only [StrongestGround, h.ground_iff hk]

section Alike

variable {incoming' : IncomingKeys} {locals' : List LocalContact} (hk : incoming.Alike incoming')
  (hsame : SameContacts locals locals')
include hk hsame

/-- Two contacts that look alike to the same list are one. -/
theorem LinksTo.of_alike (hd' : (locals'.map LocalContact.contactId).Nodup) {c : Uuid}
    (h : LinksTo incoming locals c) : LinksTo incoming' locals' c := by
  obtain ⟨l, hl, hid, hfree, hg, honly⟩ := h
  obtain ⟨l', hl', halike⟩ := hsame.1 l hl
  refine ⟨l', hl', halike.id.symm.trans hid, halike.linked.symm.trans hfree, (halike.ground_iff hk _).mp hg, ?_⟩
  intro x' hx' hgx'
  obtain ⟨x, hx, hxalike⟩ := hsame.2 x' hx'
  have hxl := honly x hx ((hxalike.ground_iff hk _).mpr hgx')
  rw [hxl] at hxalike
  exact eq_of_contactId hd' hx' hl' (hxalike.id.symm.trans halike.id)

theorem Asks.of_alike {pairs : Pairs} (h : Asks incoming locals pairs) : Asks incoming' locals' pairs := by
  refine ⟨h.1, fun id r => (h.2 id r).trans ?_⟩
  constructor
  · rintro ⟨l, hl, hid, hg⟩
    obtain ⟨l', hl', halike⟩ := hsame.1 l hl
    exact ⟨l', hl', halike.id.symm.trans hid, (halike.strongestGround_iff hk r).mp hg⟩
  · rintro ⟨l', hl', hid, hg⟩
    obtain ⟨l, hl, halike⟩ := hsame.2 l' hl'
    exact ⟨l, hl, halike.id.trans hid, (halike.strongestGround_iff hk r).mpr hg⟩

end Alike

theorem IncomingKeys.Alike.symm {k k' : IncomingKeys} (h : k.Alike k') : k'.Alike k :=
  ⟨fun key => (h.emails key).symm, fun key => (h.phones key).symm, h.name.symm, h.company.symm⟩

theorem LocalContact.Alike.symm {l l' : LocalContact} (h : l.Alike l') : l'.Alike l :=
  ⟨h.id.symm, fun key => (h.emails key).symm, fun key => (h.phones key).symm, h.name.symm,
    fun key => (h.companies key).symm, h.linked.symm⟩

theorem SameContacts.symm {l l' : List LocalContact} (h : SameContacts l l') : SameContacts l' l := by
  refine ⟨fun x hx => ?_, fun x hx => ?_⟩
  · obtain ⟨y, hy, hxy⟩ := h.2 x hx
    exact ⟨y, hy, hxy.symm⟩
  · obtain ⟨y, hy, hxy⟩ := h.1 x hx
    exact ⟨y, hy, hxy.symm⟩

/-- The decision does not depend on the order of the contacts, nor on the order of keys or on repeated ones. -/
theorem decide_alike {incoming' : IncomingKeys} {locals' : List LocalContact}
    (hd : (locals.map LocalContact.contactId).Nodup) (hd' : (locals'.map LocalContact.contactId).Nodup)
    (hk : incoming.Alike incoming') (hsame : SameContacts locals locals') :
    Matching.decide incoming' locals' = Matching.decide incoming locals := by
  have hpairs : Matching.pairs incoming' locals' = Matching.pairs incoming locals :=
    (asks_pairs hd').unique ((asks_pairs hd).of_alike hk hsame)
  obtain ⟨c, hc, he⟩ | ⟨hno, he⟩ := @decide_cases incoming locals hd
  · have hc' : LinksTo incoming' locals' c := hc.of_alike hk hsame hd'
    obtain ⟨c', hlinks, he'⟩ | ⟨hno', -⟩ := @decide_cases incoming' locals' hd'
    · rw [he, he', hlinks.unique hc']
    · exact absurd ⟨c, hc'⟩ hno'
  · obtain ⟨c', hlinks, -⟩ | ⟨-, he'⟩ := @decide_cases incoming' locals' hd'
    · exact absurd ⟨c', hlinks.of_alike hk.symm hsame.symm hd⟩ hno
    · rw [he, he', hpairs]

/-- With distinct ids the decision is a function of the set of the contacts: it links the one contact that shares an
email if it is free, else it asks about every contact that has anything in common with the record, and it creates
a contact when there is none. -/
theorem decide_spec (hd : (locals.map LocalContact.contactId).Nodup) :
    (∀ c, Matching.decide incoming locals = .link c ↔ LinksTo incoming locals c) ∧
      (∀ pairs, Matching.decide incoming locals = .review pairs ↔
        (¬ ∃ c, LinksTo incoming locals c) ∧ pairs ≠ [] ∧ Asks incoming locals pairs) ∧
      (Matching.decide incoming locals = .create ↔ ∀ l ∈ locals, ∀ r, ¬ l.Ground incoming r) ∧
      ∀ incoming' locals', incoming.Alike incoming' → SameContacts locals locals' →
        (locals'.map LocalContact.contactId).Nodup →
          Matching.decide incoming' locals' = Matching.decide incoming locals := by
  have hasks := @asks_pairs incoming locals hd
  refine ⟨fun c => ?_, fun pairs => ?_, ?_, fun incoming' locals' hk hsame hd' => decide_alike hd hd' hk hsame⟩
  · obtain ⟨c', hc', he⟩ | ⟨hno, he⟩ := @decide_cases incoming locals hd
    · rw [he, MatchDecision.link.injEq]
      constructor
      · rintro rfl
        exact hc'
      · exact fun hc => hc'.unique hc
    · constructor
      · intro hlink
        rw [he] at hlink
        split at hlink <;> cases hlink
      · exact fun hc => absurd ⟨c, hc⟩ hno
  · obtain ⟨c', hc', he⟩ | ⟨hno, he⟩ := @decide_cases incoming locals hd
    · constructor
      · intro hreview
        rw [he] at hreview
        cases hreview
      · exact fun h => absurd ⟨c', hc'⟩ h.1
    · rw [he]
      split
      · next hempty =>
        constructor
        · intro h
          cases h
        · rintro ⟨-, hne, hpairs⟩
          exact absurd ((hpairs.unique hasks).trans (List.isEmpty_iff.mp hempty)) hne
      · next hsome =>
        rw [MatchDecision.review.injEq]
        constructor
        · rintro rfl
          exact ⟨hno, fun h => hsome (List.isEmpty_iff.mpr h), hasks⟩
        · exact fun h => hasks.unique h.2.2
  · rw [← hasks.eq_nil_iff]
    obtain ⟨c', hc', he⟩ | ⟨hno, he⟩ := @decide_cases incoming locals hd
    · constructor
      · intro hcreate
        rw [he] at hcreate
        cases hcreate
      · intro hnil
        obtain ⟨l, hl, -, -, hg, -⟩ := hc'
        exact absurd hg (hasks.eq_nil_iff.mp hnil l hl _)
    · rw [he]
      constructor
      · intro hcreate
        split at hcreate
        · next hempty => exact List.isEmpty_iff.mp hempty
        · cases hcreate
      · intro hnil
        rw [if_pos (List.isEmpty_iff.mpr hnil)]

/-- A linked contact that shares the email is asked about, and so is one that shares the phone. -/
theorem decide_spec_linked :
    let incoming : IncomingKeys :=
      { emailKeys := ["ada@example.com"], phoneKeys := ["5550100"], nameKey := none, companyKey := none }
    let locals : List LocalContact :=
      [{ contactId := 2, emailKeys := [], phoneKeys := ["5550100"], nameKey := none, companyKeys := [],
          linked := false },
        { contactId := 1, emailKeys := ["ada@example.com"], phoneKeys := ["5550100"], nameKey := none,
          companyKeys := [], linked := true }]
    (¬ ∃ c, LinksTo incoming locals c) ∧ Asks incoming locals [(1, .emailAmbiguous), (2, .phone)] := by
  intro incoming locals
  obtain ⟨-, hreview, -⟩ := @decide_spec incoming locals (by decide)
  obtain ⟨hlink, -, hasks⟩ := (hreview [(1, .emailAmbiguous), (2, .phone)]).mp (by decide)
  exact ⟨hlink, hasks⟩

/-- The map is the list `decideMatch` sorts at once. -/
theorem decide_eq_decideMatch (hd : (locals.map LocalContact.contactId).Nodup) :
    Matching.decide incoming locals = decideMatch incoming locals := by
  have hpairs : Matching.pairs incoming locals = proposals incoming locals :=
    (asks_pairs hd).unique (asks_proposals hd)
  have hreview : (if (Matching.pairs incoming locals).isEmpty then MatchDecision.create
      else .review (Matching.pairs incoming locals)) = decideReview incoming locals := by
    rw [hpairs]
    unfold decideReview
    cases proposals incoming locals <;> rfl
  cases hshared : locals.filter (·.sharesEmail incoming) with
  | nil => simp only [Matching.decide, decideMatch, hshared, hreview]
  | cons only others =>
      cases others <;> simp only [Matching.decide, decideMatch, hshared, hreview]

end Decision

end Mokosh.ContactSync
