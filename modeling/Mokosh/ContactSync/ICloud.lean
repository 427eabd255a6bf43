import Mokosh.Lib.Transition
import Mokosh.ContactSync.Vcard

/-! # iCloud

`contact_sync/icloud.rs`: a read of the address book is a few requests one after the other, and the
book may be edited between any two of them (`Visit`).  A delta report carries its own token; a read
of the whole book takes the cards first and the token with a request of its own.

What one read leaves out the next one has to be told of.  Every card that was not changed since the
stored token has been delivered (`KeepsUp`), and every visit keeps that but one that is told a token
naming edits its cards do not have (`edit_before_token_is_lost`).  Where no such edit stands when the
token is read (`CardsStand`), every card that is current when the edits stop is delivered
(`nothing_lost`). -/

namespace Mokosh.ContactSync

open ChangeLog (contents changedSince current)

variable {rt : Runtime}

/-! ### The cards -/

/-- `parse_cards`: a card that cannot be read is skipped. -/
def parseCards (rt : Runtime) (parser : CardParser) (cards : List String) :
    List SourceContact × List GroupCard :=
  let files := cards.filterMap fun card => (readVcards rt parser defaultLimits card).toOption
  (files.flatMap (·.contacts), files.flatMap (·.groupCardsRead))

/-- `groups_from`: the group cards that have an id, and the records without a group. -/
def groupsFrom (rt : Runtime) (groupCards : List GroupCard) : List SourceGroup :=
  let groups := groupCards.filterMap fun card =>
    card.id.map fun id => { id := id, name := card.name.getD "Untitled group" }
  (groups.insertionSort fun a b => (rt.toLowercase a.name).toList ≤ (rt.toLowercase b.name).toList) ++
    [⟨ungroupedId, "Ungrouped"⟩]

/-- `apply_membership`: the groups are stamped onto their members. -/
def applyMembership (contacts : List SourceContact) (groupCards : List GroupCard) :
    List SourceContact :=
  groupCards.foldl (fun contacts card =>
    match card.id with
    | none => contacts
    | some groupId => contacts.map fun c =>
      if c.externalId ∈ card.memberIds ∧ groupId ∉ c.groupIds then
        { c with groupIds := c.groupIds ++ [groupId] }
      else c) contacts

/-- Membership changes nothing but the groups. -/
theorem applyMembership_map {β : Type} (f : SourceContact → β)
    (hf : ∀ c ids, f { c with groupIds := ids } = f c) (contacts : List SourceContact)
    (groupCards : List GroupCard) :
    (applyMembership contacts groupCards).map f = contacts.map f := by
  unfold applyMembership
  induction groupCards generalizing contacts with
  | nil => rfl
  | cons card groupCards ih =>
      rw [List.foldl_cons, ih]
      cases card.id with
      | none => rfl
      | some groupId =>
          rw [List.map_map]
          refine List.map_congr_left fun c _ => ?_
          simp only [Function.comp_apply]
          split
          · exact hf c _
          · rfl

/-- The contacts of each card are among those of all. -/
theorem mem_parseCards {parser : CardParser} {cards : List String} {card : String}
    {c : SourceContact} (hm : card ∈ cards) (hc : c ∈ (parseCards rt parser [card]).1) :
    c ∈ (parseCards rt parser cards).1 := by
  obtain ⟨file, hf, hc⟩ := List.mem_flatMap.mp hc
  obtain ⟨card', h', hok⟩ := List.mem_filterMap.mp hf
  rw [List.mem_singleton.mp h'] at hok
  exact List.mem_flatMap.mpr ⟨file, List.mem_filterMap.mpr ⟨card, hm, hok⟩, hc⟩

theorem parseCards_live {parser : CardParser} {cards : List String} {c : SourceContact}
    (h : c ∈ (parseCards rt parser cards).1) : c.deleted = false := by
  obtain ⟨file, hf, hc⟩ := List.mem_flatMap.mp h
  obtain ⟨card, -, hok⟩ := List.mem_filterMap.mp hf
  cases hr : readVcards rt parser defaultLimits card with
  | error e =>
      rw [hr] at hok
      cases hok
  | ok file' =>
      rw [hr] at hok
      cases hok
      exact readVcards_live hr c hc

/-! ### The requests -/

def staleToken : String := "sync token is no longer valid"

/-- `is_stale_token`. -/
def isStaleToken (message : String) : Bool := decide (staleToken.toList <:+: message.toList)

/-- What the server answers to the requests of one read. -/
structure Replies where
  /-- The discovery of the address book. -/
  book : Except SourceError String
  /-- The report of the changes since a token. -/
  delta : String → Except SourceError XmlBody
  /-- The query of all cards. -/
  query : Except SourceError XmlBody
  /-- The read of the book's token. -/
  token : Except SourceError XmlBody

/-- The cards that a read found, and the token for the next one. -/
structure BookRead where
  cards : List String
  nextSyncToken : Option String
  wasFullResync : Bool

structure CardChanges where
  contacts : List SourceContact
  nextSyncToken : Option String
  wasFullResync : Bool

namespace Replies

def changedCards (rt : Runtime) (r : Replies) (token : String) : Except SourceError CardDelta :=
  match r.delta token with
  | .error e => .error e
  | .ok body => (parseMultistatus rt body).map (·.changedCards)

def allCards (rt : Runtime) (r : Replies) : Except SourceError (List String) :=
  match r.query with
  | .error e => .error e
  | .ok body => (parseMultistatus rt body).map (·.allCards)

def syncToken (rt : Runtime) (r : Replies) : Except SourceError (Option String) :=
  match r.token with
  | .error e => .error e
  | .ok body => (parseMultistatus rt body).map (·.bookToken)

/-- `sync_token(..).await.ok().flatten()`. -/
def tokenTold (rt : Runtime) (r : Replies) : Option String := (r.syncToken rt).toOption.join

/-- The whole book: its cards, then its token. -/
def readWhole (rt : Runtime) (r : Replies) (wasFullResync : Bool) : Except SourceError BookRead :=
  match r.allCards rt with
  | .error e => .error e
  | .ok cards => .ok ⟨cards, r.tokenTold rt, wasFullResync⟩

/-- The requests of `changes_since`. -/
def readBook (rt : Runtime) (r : Replies) (syncToken : Option String) :
    Except SourceError BookRead :=
  match r.book, syncToken with
  | .error e, _ => .error e
  | .ok _, none => r.readWhole rt false
  | .ok _, some token =>
    match r.changedCards rt token with
    | .ok delta =>
      -- a removal names no record, so the whole book is read to find the one that is gone
      if delta.removed = [] then .ok ⟨delta.cards, delta.nextSyncToken, false⟩
      else r.readWhole rt true
    | .error e =>
      match e with
      | .failed message => if isStaleToken message then r.readWhole rt true else .error e
      | .throttled | .unauthorized => .error e

end Replies

/-- `changes_since`. -/
def changesSince (rt : Runtime) (parser : CardParser) (r : Replies) (syncToken : Option String) :
    Except SourceError CardChanges :=
  (r.readBook rt syncToken).map fun read =>
    let (contacts, groupCards) := parseCards rt parser read.cards
    { contacts := applyMembership contacts groupCards
      nextSyncToken := read.nextSyncToken
      wasFullResync := read.wasFullResync }

/-- `list_groups`. -/
def listGroups (rt : Runtime) (parser : CardParser) (r : Replies) :
    Except SourceError (List SourceGroup) :=
  match r.book with
  | .error e => .error e
  | .ok _ => (r.allCards rt).map fun cards => groupsFrom rt (parseCards rt parser cards).2

/-- The delta does not tell the whole story, or there is none. -/
def Replies.needsWholeBook (rt : Runtime) (r : Replies) : Option String → Bool
  | none => true
  | some token =>
    match r.changedCards rt token with
    | .ok delta => !delta.removed.isEmpty
    | .error (.failed message) => isStaleToken message
    | .error .throttled | .error .unauthorized => false

/-- A read that ends is the whole book or a delta without a removal. -/
theorem readBook_cases {r : Replies} {syncToken : Option String} {b : BookRead}
    (h : r.readBook rt syncToken = .ok b) :
    r.needsWholeBook rt syncToken = true ∧ r.allCards rt = .ok b.cards ∧
        b.nextSyncToken = r.tokenTold rt ∧ b.wasFullResync = syncToken.isSome ∨
      r.needsWholeBook rt syncToken = false ∧ b.wasFullResync = false ∧
        ∃ token delta, syncToken = some token ∧ r.changedCards rt token = .ok delta ∧
          delta.removed = [] ∧ b.cards = delta.cards ∧ b.nextSyncToken = delta.nextSyncToken := by
  have hwhole : ∀ full, r.readWhole rt full = .ok b →
      r.allCards rt = .ok b.cards ∧ b.nextSyncToken = r.tokenTold rt ∧ b.wasFullResync = full := by
    intro full hw
    unfold Replies.readWhole at hw
    cases hc : r.allCards rt with
    | error e =>
        rw [hc] at hw
        cases hw
    | ok cards =>
        rw [hc] at hw
        cases hw
        exact ⟨rfl, rfl, rfl⟩
  unfold Replies.readBook at h
  unfold Replies.needsWholeBook
  cases hb : r.book with
  | error e =>
      rw [hb] at h
      cases h
  | ok book =>
      rw [hb] at h
      cases syncToken with
      | none => exact .inl ⟨rfl, hwhole false h⟩
      | some token =>
          dsimp only at h ⊢
          cases hd : r.changedCards rt token with
          | ok delta =>
              rw [hd] at h
              dsimp only at h ⊢
              split at h
              · next hr =>
                cases h
                exact .inr ⟨by simp [hr], rfl, token, delta, rfl, hd, hr, rfl, rfl⟩
              · next hr => exact .inl ⟨by simpa using hr, hwhole true h⟩
          | error e =>
              rw [hd] at h
              cases e with
              | throttled => cases h
              | unauthorized => cases h
              | failed message =>
                  dsimp only at h ⊢
                  split at h
                  · next hs => exact .inl ⟨hs, hwhole true h⟩
                  · cases h

/-! ### The server -/

/-- What can become of an answer on its way. -/
inductive Fault where
  | lost (e : SourceError)
  /-- The body ends early. -/
  | cut (length : ℕ)
  /-- The XML reader stops in the body. -/
  | broken (length : ℕ) (error : String)

/-- An answer as it arrives. -/
def answer (fault : Option Fault) (body : List XmlEvent) : Except SourceError XmlBody :=
  match fault with
  | none => .ok ⟨body, none⟩
  | some (.lost e) => .error e
  | some (.cut n) => .ok ⟨body.take n, none⟩
  | some (.broken n e) => .ok ⟨body.take n, some e⟩

/-- Texts by which a server names the states of a book. -/
structure TokenNames (name : ℕ → String) : Prop where
  trimmed : ∀ n, trim (name n) = name n
  ne_empty : ∀ n, name n ≠ ""
  injective : Function.Injective name

/-- The state a token names, among those the book has been in. -/
def namedState (name : ℕ → String) (log : ChangeLog String String) (token : String) : Option ℕ :=
  (List.range (log.length + 1)).find? fun n => name n = token

/-- The report of the cards that were changed after the state a token names: what they hold now, or
that they are gone. -/
def deltaReport (name : ℕ → String) (log : ChangeLog String String) (token : String) :
    Except SourceError (List XmlEvent) :=
  match namedState name log token with
  | none => .error (.failed ("The " ++ staleToken ++ ", so the next read is a full one."))
  | some n => .ok (multistatusBody
      ((changedSince n log).map fun href => (href, (current log href).map some))
      (some (name log.length)))

/-- The answer to the query of all cards; a server may leave out the data of some (`withheld`). -/
def queryReport (cards : List (String × String)) (withheld : String → Bool) : List XmlEvent :=
  multistatusBody (cards.map fun x => (x.1, some (if withheld x.1 then none else some x.2))) none

/-! ### Visits -/

/-- A run's read of the book, with the edits between its requests. -/
structure Visit where
  /-- The edits between the discovery and the delta report. -/
  afterDiscovery : ChangeLog String String := []
  afterReport : ChangeLog String String := []
  /-- The edits between the query of all cards and the read of the token. -/
  afterQuery : ChangeLog String String := []
  discovered : Except SourceError String := .ok "/book/"
  reportFault : Option Fault := none
  queryFault : Option Fault := none
  tokenFault : Option Fault := none
  /-- Every record landed, so that the run stores its token. -/
  landed : Bool := true

namespace Visit

variable (v : Visit) (log : ChangeLog String String)

/-- The edits when the delta report is answered. -/
def reportLog : ChangeLog String String := log ++ v.afterDiscovery

/-- The edits when the query of all cards is answered. -/
def queryLog : ChangeLog String String := v.reportLog log ++ v.afterReport

/-- The edits when the token is read. -/
def tokenLog : ChangeLog String String := v.queryLog log ++ v.afterQuery

def replies (name : ℕ → String) : Replies where
  book := v.discovered
  delta token :=
    match deltaReport name (v.reportLog log) token with
    | .error e => .error e
    | .ok body => answer v.reportFault body
  query := answer v.queryFault (queryReport (contents (v.queryLog log)) fun _ => false)
  token := answer v.tokenFault (tokenBody "/book/" (name (v.tokenLog log).length))

end Visit

/-- A book, and what one connection has of it. -/
structure BookReader where
  log : ChangeLog String String
  /-- The token that the last run stored. -/
  stored : Option String := none
  /-- The cards that some run has read. -/
  delivered : List String := []

inductive ReaderEvent where
  | edit (change : Change String String)
  | visit (v : Visit)

namespace BookReader

def visit (rt : Runtime) (name : ℕ → String) (st : BookReader) (v : Visit) : BookReader :=
  match (v.replies st.log name).readBook rt st.stored with
  | .error _ => { st with log := v.tokenLog st.log }
  | .ok b =>
    { log := v.tokenLog st.log
      stored := if v.landed then b.nextSyncToken else st.stored
      delivered := st.delivered ++ b.cards }

def step (rt : Runtime) (name : ℕ → String) (st : BookReader) : ReaderEvent → Option BookReader
  | .edit change => some { st with log := st.log ++ [change] }
  | .visit v => some (st.visit rt name v)

/-- The edits when the cards of a visit are answered. -/
def answeredLog (rt : Runtime) (name : ℕ → String) (st : BookReader) (v : Visit) :
    ChangeLog String String :=
  if (v.replies st.log name).needsWholeBook rt st.stored then v.queryLog st.log
  else v.reportLog st.log

end BookReader

/-- Every version of a card that is current when the edits stop is delivered by some run: at a visit
that reads the book and has no edit after its cards are answered, every current card has been
delivered. -/
def NothingLost (rt : Runtime) (name : ℕ → String) (start : BookReader) (es : List ReaderEvent) :
    Prop :=
  ∀ es₁ v es₂ st b, es = es₁ ++ .visit v :: es₂ → run (BookReader.step rt name) start es₁ = some st →
    (v.replies st.log name).readBook rt st.stored = .ok b →
    st.answeredLog rt name v = v.tokenLog st.log →
    ∀ href card, current (v.tokenLog st.log) href = some card →
      trim card ∈ (st.visit rt name v).delivered

/-- Where a run takes the whole book and stores the token it is told, the cards that stand when the
token is read are those of the query: no card was added or edited in between. -/
def CardsStand (rt : Runtime) (name : ℕ → String) (st : BookReader) : ReaderEvent → Prop
  | .edit _ => True
  | .visit v =>
    let r := v.replies st.log name
    r.book.toBool = true → r.needsWholeBook rt st.stored = true → (r.allCards rt).toBool = true →
      (r.tokenTold rt).isSome = true → v.landed = true →
      ∀ href card, current (v.tokenLog st.log) href = some card →
        current (v.queryLog st.log) href = some card

/-! ### What arrives -/

/-- A body that is read at all is read whole. -/
theorem read_multistatus (h : rt.KeepsLowercase) {fault : Option Fault}
    {responses : List (String × Option (Option String))} {token : Option String} {body : XmlBody}
    {m : MultiStatus} (ha : answer fault (multistatusBody responses token) = .ok body)
    (hp : parseMultistatus rt body = .ok m) :
    m = { resources := responses.map fun x => responseResource x.1 x.2
          syncToken := (token.map trim).filter (· ≠ "") } := by
  have hwhole := parse_multistatusBody h responses token
  rcases fault with _ | (e | n | ⟨n, e⟩)
  · cases ha
    exact Except.ok.inj (hp.symm.trans hwhole)
  · cases ha
  · cases ha
    rcases lt_or_ge n (multistatusBody responses token).length with hn | hn
    · obtain ⟨e, he⟩ := parse_truncated rt hn
      cases he.symm.trans hp
    · rw [List.take_of_length_le hn] at hp
      exact Except.ok.inj (hp.symm.trans hwhole)
  · cases ha
    cases hp

theorem read_token (h : rt.KeepsLowercase) {fault : Option Fault} {href token : String}
    (ht : trim token ≠ "") {body : XmlBody} {m : MultiStatus}
    (ha : answer fault (tokenBody href token) = .ok body) (hp : parseMultistatus rt body = .ok m) :
    m.bookToken = some (trim token) := by
  obtain ⟨m', hm', htok⟩ := parse_tokenBody h href ht
  rcases fault with _ | (e | n | ⟨n, e⟩)
  · cases ha
    rw [Except.ok.inj (hp.symm.trans hm'), htok]
  · cases ha
  · cases ha
    rcases lt_or_ge n (tokenBody href token).length with hn | hn
    · obtain ⟨e, he⟩ := parse_tokenBody_truncated rt hn
      cases he.symm.trans hp
    · rw [List.take_of_length_le hn] at hp
      rw [Except.ok.inj (hp.symm.trans hm'), htok]
  · cases ha
    cases hp

/-- The cards of a query are all those of the book whose data the server gives out. -/
theorem read_query (h : rt.KeepsLowercase) {r : Replies} {fault : Option Fault}
    (book : List (String × String)) {withheld : String → Bool} {cards : List String}
    (hq : r.query = answer fault (queryReport book withheld)) (hc : r.allCards rt = .ok cards) :
    cards = (book.filter fun x => !withheld x.1).map fun x => trim x.2 := by
  unfold Replies.allCards at hc
  cases hb : r.query with
  | error e =>
      rw [hb] at hc
      cases hc
  | ok body =>
      rw [hb] at hc
      dsimp only at hc
      cases hp : parseMultistatus rt body with
      | error e =>
          rw [hp] at hc
          cases hc
      | ok m =>
          rw [hp] at hc
          cases hc
          rw [read_multistatus h (hq.symm.trans hb) hp]
          unfold MultiStatus.allCards
          simp only [List.map_map, List.filterMap_map]
          rw [← List.filterMap_eq_map, List.filterMap_filter]
          refine List.filterMap_congr fun x _ => ?_
          cases hw : withheld x.1 <;> simp [responseResource, hw]

theorem isGone_responseResource (href : String) (card : Option (Option String)) :
    (responseResource href card).isGone = card.isNone := by
  rcases card with _ | _ | text
  · show decide (" 404".toList <:+: "HTTP/1.1 404 Not Found".toList) = true
    decide
  · show decide (" 404".toList <:+: "HTTP/1.1 200 OK".toList) = false
    decide
  · show decide (" 404".toList <:+: "HTTP/1.1 200 OK".toList) = false
    decide

variable {name : ℕ → String}

theorem namedState_name (hn : TokenNames name) {log : ChangeLog String String} {n : ℕ}
    (h : n ≤ log.length) : namedState name log (name n) = some n := by
  unfold namedState
  cases hf : (List.range (log.length + 1)).find? fun m => name m = name n with
  | none =>
      have := List.find?_eq_none.mp hf n (List.mem_range.mpr (Nat.lt_succ_of_le h))
      simp at this
  | some m =>
      have := List.find?_some hf
      rw [hn.injective (of_decide_eq_true this)]

/-- A delta without a removal has every card that was changed since its token. -/
theorem read_delta (h : rt.KeepsLowercase) (hn : TokenNames name) {v : Visit}
    {log : ChangeLog String String} {n : ℕ} (hle : n ≤ (v.reportLog log).length) {delta : CardDelta}
    (hd : (v.replies log name).changedCards rt (name n) = .ok delta) (hr : delta.removed = []) :
    delta.nextSyncToken = some (name (v.reportLog log).length) ∧
      ∀ href ∈ changedSince n (v.reportLog log), ∀ card,
        current (v.reportLog log) href = some card → trim card ∈ delta.cards := by
  unfold Replies.changedCards at hd
  cases hb : (v.replies log name).delta (name n) with
  | error e =>
      rw [hb] at hd
      cases hd
  | ok body =>
      rw [hb] at hd
      dsimp only at hd
      cases hp : parseMultistatus rt body with
      | error e =>
          rw [hp] at hd
          cases hd
      | ok m =>
          rw [hp] at hd
          cases hd
          simp only [Visit.replies, deltaReport, namedState_name hn hle] at hb
          rw [read_multistatus h hb hp]
          refine ⟨by simp [MultiStatus.changedCards, hn.trimmed, hn.ne_empty, Option.filter], ?_⟩
          intro href hh card hcur
          unfold MultiStatus.changedCards
          refine List.mem_filterMap.mpr ⟨responseResource href (some (some card)), ?_, rfl⟩
          refine List.mem_filter.mpr ⟨?_, by rw [isGone_responseResource]; rfl⟩
          exact List.mem_map.mpr ⟨_, List.mem_map.mpr ⟨href, hh, rfl⟩, by rw [hcur]; rfl⟩

/-- The token that is told after the cards names the state of the book at that moment. -/
theorem tokenTold_eq (h : rt.KeepsLowercase) (hn : TokenNames name) {v : Visit}
    {log : ChangeLog String String} {token : String}
    (ht : (v.replies log name).tokenTold rt = some token) :
    token = name (v.tokenLog log).length := by
  unfold Replies.tokenTold Replies.syncToken at ht
  cases hb : (v.replies log name).token with
  | error e =>
      rw [hb] at ht
      cases ht
  | ok body =>
      rw [hb] at ht
      dsimp only at ht
      cases hp : parseMultistatus rt body with
      | error e =>
          rw [hp] at ht
          cases ht
      | ok m =>
          rw [hp] at ht
          have htok := read_token h (by rw [hn.trimmed]; exact hn.ne_empty _) hb hp
          rw [hn.trimmed] at htok
          exact (Option.some.inj (htok.symm.trans ht)).symm

/-! ### The invariant -/

/-- Every card that was not changed since the stored token has been delivered. -/
def KeepsUp (name : ℕ → String) (st : BookReader) : Prop :=
  ∀ token, st.stored = some token → ∃ n, token = name n ∧ n ≤ st.log.length ∧
    ∀ href card, current st.log href = some card → href ∉ changedSince n st.log →
      trim card ∈ st.delivered

theorem KeepsUp.append {st : BookReader} (h : KeepsUp name st) (edits : ChangeLog String String) :
    KeepsUp name { st with log := st.log ++ edits } := by
  intro token ht
  obtain ⟨n, rfl, hle, hall⟩ := h token ht
  refine ⟨n, rfl, hle.trans (by simp), fun href card hcur hn => ?_⟩
  rw [ChangeLog.changedSince_append hle, not_or] at hn
  refine hall href card ?_ hn.1
  rwa [ChangeLog.current_append fun c hc he => hn.2 ⟨c, hc, he⟩] at hcur

/-- A read delivers every card that is current when it is answered. -/
theorem KeepsUp.read (h : rt.KeepsLowercase) (hn : TokenNames name) {st : BookReader}
    (hk : KeepsUp name st) {v : Visit} {b : BookRead}
    (hb : (v.replies st.log name).readBook rt st.stored = .ok b) {href card : String}
    (hcur : current (st.answeredLog rt name v) href = some card) :
    trim card ∈ st.delivered ++ b.cards := by
  unfold BookReader.answeredLog at hcur
  rcases readBook_cases hb with ⟨hw, hc, -, -⟩ | ⟨hw, -, token, delta, hs, hd, hr, hc, -⟩
  · rw [if_pos hw] at hcur
    have hcards := read_query h (contents (v.queryLog st.log)) rfl hc
    rw [hcards]
    refine List.mem_append_right _ (List.mem_map.mpr ⟨(href, card), ?_, rfl⟩)
    exact List.mem_filter.mpr ⟨ChangeLog.mem_contents.mpr hcur, rfl⟩
  · rw [if_neg (by simp [hw])] at hcur
    obtain ⟨n, rfl, hle, hall⟩ := hk.append v.afterDiscovery token hs
    by_cases hch : href ∈ changedSince n (v.reportLog st.log)
    · rw [hc]
      exact List.mem_append_right _ ((read_delta h hn hle hd hr).2 href hch card hcur)
    · exact List.mem_append_left _ (hall href card hcur hch)

/-- A reader that has every card of the state its token names keeps up with it. -/
theorem keepsUp_of_delivered (name : ℕ → String) {log : ChangeLog String String}
    (edits : ChangeLog String String) {delivered : List String}
    (h : ∀ href card, current log href = some card → trim card ∈ delivered) :
    KeepsUp name ⟨log ++ edits, some (name log.length), delivered⟩ := by
  have hnow : KeepsUp name ⟨log, some (name log.length), delivered⟩ := by
    rintro token ⟨⟩
    exact ⟨log.length, rfl, le_rfl, fun href card hcur _ => h href card hcur⟩
  exact hnow.append edits

theorem KeepsUp.deliver {st : BookReader} (h : KeepsUp name st) (cards : List String) :
    KeepsUp name { st with delivered := st.delivered ++ cards } := by
  intro token ht
  obtain ⟨n, hn, hle, hall⟩ := h token ht
  exact ⟨n, hn, hle, fun href card hcur hc => List.mem_append_left _ (hall href card hcur hc)⟩

theorem Visit.tokenLog_eq (v : Visit) (log : ChangeLog String String) :
    v.tokenLog log = log ++ (v.afterDiscovery ++ v.afterReport ++ v.afterQuery) := by
  simp [Visit.tokenLog, Visit.queryLog, Visit.reportLog]

theorem book_of_readBook {r : Replies} {syncToken : Option String} {b : BookRead}
    (h : r.readBook rt syncToken = .ok b) : r.book.toBool = true := by
  unfold Replies.readBook at h
  cases hb : r.book with
  | error e =>
      rw [hb] at h
      cases h
  | ok book => rfl

/-- Every visit keeps the invariant, unless a card was edited between the cards and the token. -/
theorem KeepsUp.visit (h : rt.KeepsLowercase) (hn : TokenNames name) {st : BookReader}
    (hk : KeepsUp name st) {v : Visit} (hs : CardsStand rt name st (.visit v)) :
    KeepsUp name (st.visit rt name v) := by
  unfold BookReader.visit
  have hlater : KeepsUp name { st with log := v.tokenLog st.log } := by
    rw [v.tokenLog_eq]
    exact hk.append _
  cases hb : (v.replies st.log name).readBook rt st.stored with
  | error e => exact hlater
  | ok b =>
      dsimp only
      cases hl : v.landed with
      | false => exact hlater.deliver b.cards
      | true =>
          have hread : ∀ href card, current (st.answeredLog rt name v) href = some card →
              trim card ∈ st.delivered ++ b.cards := fun href card => hk.read h hn hb
          rw [if_pos rfl]
          intro token ht
          dsimp only at ht
          rcases readBook_cases hb with ⟨hw, hc, htok, -⟩ | ⟨hw, -, t, delta, hst, hd, hr, -, htok⟩
          · -- the whole book: its cards are older than its token
            rw [BookReader.answeredLog, if_pos hw] at hread
            have htold := htok.symm.trans ht
            have hname := tokenTold_eq h hn htold
            have hup := keepsUp_of_delivered name [] fun href card hcur =>
              hread href card (hs (book_of_readBook hb) hw (by rw [hc]; rfl) (by rw [htold]; rfl)
                hl href card hcur)
            rw [List.append_nil] at hup
            exact hup token (by rw [hname])
          · -- a delta: its cards and its token are of one answer
            rw [BookReader.answeredLog, if_neg (by simp [hw])] at hread
            obtain ⟨n, rfl, hle, -⟩ := hk.append v.afterDiscovery t hst
            have hname := (read_delta h hn hle hd hr).1.symm.trans (htok.symm.trans ht)
            have hup := keepsUp_of_delivered name (v.afterReport ++ v.afterQuery) hread
            rw [← List.append_assoc] at hup
            exact hup token hname

theorem step_keepsUp (h : rt.KeepsLowercase) (hn : TokenNames name) {st st' : BookReader}
    {e : ReaderEvent} (hk : KeepsUp name st) (hc : CardsStand rt name st e)
    (hs : st.step rt name e = some st') : KeepsUp name st' := by
  cases e with
  | edit change =>
      cases hs
      exact hk.append [change]
  | visit v =>
      cases hs
      exact hk.visit h hn hc

/-- In every sequence of edits and visits none of which is told a token that is newer than a card it
read, no current card is lost. -/
theorem nothing_lost (h : rt.KeepsLowercase) (hn : TokenNames name) (log : ChangeLog String String)
    {es : List ReaderEvent}
    (hes : StepsMeet (BookReader.step rt name) (CardsStand rt name) ⟨log, none, []⟩ es) :
    NothingLost rt name ⟨log, none, []⟩ es := by
  rintro es₁ v es₂ st b rfl hr hb hquiet href card hcur
  have hk : KeepsUp name st := run_invariant_of_stepsMeet (KeepsUp name)
    (fun _ _ _ hk hc hs => step_keepsUp h hn hk hc hs) (fun _ ht => by cases ht)
    (stepsMeet_append.mp hes).1 hr
  have hread := hk.read h hn hb (hquiet ▸ hcur)
  unfold BookReader.visit
  rw [hb]
  exact hread

/-! ### An edit between the cards and the token -/

/-- The state after `n` edits is named by a word of `n + 1` letters. -/
def plainName (n : ℕ) : String := String.ofList (List.replicate (n + 1) 't')

theorem plainName_names : TokenNames plainName where
  trimmed n := by
    have ht : isWhitespace 't' = false := by decide
    simp [trim, plainName, ht]
  ne_empty n := by simp [plainName]
  injective n m h := by
    have hl := congrArg String.length h
    simpa [plainName] using hl

/-- A book with one card. -/
def oneCard : BookReader where
  log := [.put "/book/a.vcf" "A"]

/-- A card is added between the query of all cards and the read of the token: the token names the
edit, the cards do not have it, and the next delta does not report it. -/
theorem edit_before_token_is_lost :
    ¬ NothingLost asciiRuntime plainName oneCard
      [.visit { afterQuery := [.put "/book/b.vcf" "B"] }, .visit {}] := by
  intro h
  have hrun : ((run (BookReader.step asciiRuntime plainName) oneCard
      [.visit { afterQuery := [.put "/book/b.vcf" "B"] }]).any fun st =>
        ((Visit.replies {} st.log plainName).readBook asciiRuntime st.stored).toBool &&
          decide (st.answeredLog asciiRuntime plainName {} = Visit.tokenLog {} st.log) &&
          decide (current (Visit.tokenLog {} st.log) "/book/b.vcf" = some "B") &&
          decide (trim "B" ∉ (st.visit asciiRuntime plainName {}).delivered)) = true := by
    decide +kernel
  simp only [Option.any_eq_true, Bool.and_eq_true, decide_eq_true_eq] at hrun
  obtain ⟨st, hst, ⟨⟨h0, h1⟩, h2⟩, h3⟩ := hrun
  cases hb : (Visit.replies {} st.log plainName).readBook asciiRuntime st.stored with
  | error e =>
      rw [hb] at h0
      cases h0
  | ok b => exact h3 (h _ _ [] st b rfl hst hb h1 _ _ h2)

/-- Without an edit between the cards and the token they are of the same state. -/
theorem cardsStand_of_quiet {st : BookReader} {v : Visit} (hv : v.afterQuery = []) :
    CardsStand rt name st (.visit v) := by
  intro _ _ _ _ _ href card hcur
  rwa [Visit.tokenLog, hv, List.append_nil] at hcur

/-- A card is added while the first visit waits for its cards, another one between the visits. -/
theorem nothing_lost_two_visits :
    NothingLost asciiRuntime plainName oneCard
      [.visit { afterReport := [.put "/book/b.vcf" "B"] }, .edit (.put "/book/c.vcf" "C"),
        .visit {}] :=
  nothing_lost asciiRuntime_keepsLowercase plainName_names _
    ⟨cardsStand_of_quiet rfl, fun _ _ => ⟨trivial, fun _ _ => ⟨cardsStand_of_quiet rfl,
      fun _ _ => trivial⟩⟩⟩

end Mokosh.ContactSync
