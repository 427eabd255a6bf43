import Mokosh.Lib.ChangeLog
import Mokosh.ContactSync.Sync

/-! # CardDAV

`contact_sync/carddav.rs`: the `multistatus` body a server answers with, read from the events of the
XML reader (`parseMultistatus`), and what the client takes from it: every card of the book, the
cards and removals of a sync report, the sync token.

The server is a change log of cards (`addressbook-query` answers with what it holds,
`sync-collection` with what was changed since the state a token names), and its bodies are written
by `multistatusBody`.  Reading one gives what was written (`parse_multistatusBody`), and a body that
is cut off is refused and never read as a smaller address book (`parse_truncated`). -/

namespace Mokosh.ContactSync

open ChangeLog (contents changedSince current)

variable {rt : Runtime}

/-! ### The bodies -/

/-- An event of the XML reader; comments, declarations and the like are `other`. -/
inductive XmlEvent where
  | start (name : String)
  | empty (name : String)
  | text (value : String)
  /-- A character reference. -/
  | charRef (c : Char)
  | entityRef (name : String)
  | cdata (value : String)
  | close (name : String)
  | other
deriving DecidableEq, Repr

/-- One `<D:response>`. -/
structure DavResource where
  href : String := ""
  etag : Option String := none
  card : Option String := none
  resourceTypes : List String := []
  status : Option String := none
  /-- The first value of each property that is looked up by its name. -/
  properties : List (String × String) := []
deriving DecidableEq, Repr

namespace DavResource

def isAddressbook (r : DavResource) : Bool := r.resourceTypes.any fun t => t = "addressbook"

/-- A sync report's removal. -/
def isGone (r : DavResource) : Bool :=
  r.status.any fun s => decide (" 404".toList <:+: s.toList)

def property (r : DavResource) (name : String) : Option String :=
  (r.properties.find? fun p => p.1 = name).map (·.2)

/-- The first value of a property wins. -/
def addProperty (r : DavResource) (name value : String) : DavResource :=
  if (r.property name).isSome then r else { r with properties := r.properties ++ [(name, value)] }

end DavResource

structure MultiStatus where
  resources : List DavResource := []
  syncToken : Option String := none
deriving DecidableEq, Repr

/-- The name without its namespace prefix, in lowercase. -/
def localName (rt : Runtime) (raw : String) : String :=
  rt.toLowercase (String.ofList (raw.toList.reverse.takeWhile (· ≠ ':')).reverse)

/-- The five entities that every document knows. -/
def resolvePredefinedEntity (name : String) : Option String :=
  if name = "lt" then some "<"
  else if name = "gt" then some ">"
  else if name = "amp" then some "&"
  else if name = "apos" then some "'"
  else if name = "quot" then some "\""
  else none

/-- Where the reading of a body stands. -/
structure DavReader where
  out : MultiStatus := {}
  current : Option DavResource := none
  /-- The open elements, the innermost first. -/
  path : List String := []
  text : String := ""
  inResourceType : Bool := false
  depth : ℤ := 0
  sawMultistatus : Bool := false

/-- The property a nested `href` belongs to; `path` has the `href` itself first. -/
def parentProperty (path : List String) : Option String :=
  (path.drop 1).find? fun name =>
    decide (name ∉ ["href", "prop", "propstat", "response", "multistatus"])

def trimQuotes (s : String) : String := String.ofList (trimMatches (· = '"') s.toList)

namespace DavReader

/-- What the end of an element does to the response it is in. -/
def closeIn (path : List String) (name value : String) (r : DavResource) : DavResource :=
  if name = "sync-token" then
    if trim value = "" then r else r.addProperty "sync-token" (trim value)
  else if name = "href" then
    if r.href = "" then { r with href := trim value }
    else match parentProperty path with
      | some parent => r.addProperty parent (trim value)
      | none => r
  else if name = "getetag" then { r with etag := some (trimQuotes (trim value)) }
  else if name = "address-data" then { r with card := some (trim value) }
  else if name = "status" then
    if r.status.isNone then { r with status := some (trim value) } else r
  else if name = "resourcetype" ∨ trim value = "" then r
  else r.addProperty name (trim value)

/-- What the end of an element adds to the answer. -/
def closeOut (s : DavReader) (name : String) : MultiStatus :=
  match s.current with
  | some r => if name = "response" then { s.out with resources := s.out.resources ++ [r] } else s.out
  | none =>
    if name = "sync-token" ∧ trim s.text ≠ "" then { s.out with syncToken := some (trim s.text) }
    else s.out

/-- The end of an element. -/
def closeElement (s : DavReader) (name : String) : DavReader :=
  { out := s.closeOut name
    current := if name = "response" then none else s.current.map (closeIn s.path name s.text)
    path := s.path.drop 1
    text := ""
    inResourceType := s.inResourceType && decide (name ≠ "resourcetype")
    depth := s.depth - 1
    sawMultistatus := s.sawMultistatus }

/-- One event of the reader. -/
def step (rt : Runtime) (s : DavReader) : XmlEvent → DavReader
  | .start raw =>
    let name := localName rt raw
    { s with
      depth := s.depth + 1
      sawMultistatus := s.sawMultistatus || decide (name = "multistatus")
      current := if name = "response" then some {} else s.current
      inResourceType := s.inResourceType || decide (name = "resourcetype")
      path := name :: s.path
      text := "" }
  | .empty raw =>
    { s with
      current := if s.inResourceType then
          s.current.map fun r => { r with resourceTypes := r.resourceTypes ++ [localName rt raw] }
        else s.current }
  | .text value => { s with text := s.text ++ value }
  | .charRef c => { s with text := s.text ++ String.ofList [c] }
  | .entityRef name =>
    { s with text := s.text ++ (resolvePredefinedEntity name).getD ("&" ++ name ++ ";") }
  | .cdata value => { s with text := s.text ++ value }
  | .close raw => s.closeElement (localName rt raw)
  | .other => s

end DavReader

/-- A body as the XML reader gives it: its events, and the error it stopped at if there is one. -/
structure XmlBody where
  events : List XmlEvent
  error : Option String := none

/-- `parse_multistatus`. -/
def parseMultistatus (rt : Runtime) (body : XmlBody) : Except SourceError MultiStatus :=
  let s := body.events.foldl (DavReader.step rt) {}
  match body.error with
  | some e =>
    .error (.failed ("The contact server's response could not be read as CardDAV XML: " ++ e))
  | none =>
    if s.sawMultistatus = false then
      .error (.failed "The contact server's response was not a CardDAV multistatus document.")
    else if s.depth ≠ 0 then
      .error (.failed ("The contact server's CardDAV response ended mid-document, so it cannot be " ++
        "read as the whole address book."))
    else .ok s.out

/-! ### What the client takes from a body -/

/-- What a delta read answered. -/
structure CardDelta where
  cards : List String
  removed : List String
  nextSyncToken : Option String
deriving DecidableEq, Repr

namespace MultiStatus

/-- `all_cards`. -/
def allCards (m : MultiStatus) : List String := m.resources.filterMap (·.card)

/-- `sync_token`. -/
def bookToken (m : MultiStatus) : Option String :=
  m.syncToken.or (m.resources.head?.bind (·.property "sync-token"))

/-- `changed_cards`. -/
def changedCards (m : MultiStatus) : CardDelta :=
  { cards := (m.resources.filter fun r => !r.isGone).filterMap (·.card)
    removed := (m.resources.filter (·.isGone)).map (·.href)
    nextSyncToken := m.syncToken }

end MultiStatus

/-! ### What the server writes -/

/-- An element with a text. -/
def element (name value : String) : List XmlEvent := [.start name, .text value, .close name]

/-- The response about one card; a server may leave the card itself out, and a sync report says of a
card that is gone only that. -/
def responseBody (href : String) (card : Option (Option String)) : List XmlEvent :=
  [.start "D:response"] ++ element "D:href" href ++
    (match card with
      | some (some text) =>
        [.start "D:propstat", .start "D:prop"] ++ element "C:address-data" text ++
          [.close "D:prop"] ++ element "D:status" "HTTP/1.1 200 OK" ++ [.close "D:propstat"]
      | some none => element "D:status" "HTTP/1.1 200 OK"
      | none => element "D:status" "HTTP/1.1 404 Not Found") ++
    [.close "D:response"]

/-- The responses of an answer, and its token if it carries one. -/
def answerParts (responses : List (String × Option (Option String))) (token : Option String) :
    List XmlEvent :=
  (responses.flatMap fun x => responseBody x.1 x.2) ++ token.toList.flatMap (element "D:sync-token")

/-- A whole answer. -/
def multistatusBody (responses : List (String × Option (Option String))) (token : Option String) :
    List XmlEvent :=
  [.start "D:multistatus"] ++ answerParts responses token ++ [.close "D:multistatus"]

/-- The answer to a `PROPFIND` for the book's sync token. -/
def tokenBody (href token : String) : List XmlEvent :=
  [.start "D:multistatus", .start "D:response"] ++ element "D:href" href ++
    [.start "D:propstat", .start "D:prop"] ++ element "D:sync-token" token ++
    [.close "D:prop"] ++ element "D:status" "HTTP/1.1 200 OK" ++
    [.close "D:propstat", .close "D:response", .close "D:multistatus"]

/-- What a response says, as it is read. -/
def responseResource (href : String) : Option (Option String) → DavResource
  | some (some text) =>
    { href := trim href, card := some (trim text), status := some "HTTP/1.1 200 OK" }
  | some none => { href := trim href, status := some "HTTP/1.1 200 OK" }
  | none => { href := trim href, status := some "HTTP/1.1 404 Not Found" }

/-! ### What is written is read -/

/-- `str::to_lowercase` leaves names in lowercase alone. -/
def Runtime.KeepsLowercase (rt : Runtime) : Prop :=
  ∀ s : String, (∀ c ∈ s.toList, c.isLower = true ∨ c = '-') → rt.toLowercase s = s

theorem asciiRuntime_keepsLowercase : asciiRuntime.KeepsLowercase := by
  intro s hs
  have hmap : s.toList.map Char.toLower = s.toList := by
    conv_rhs => rw [← List.map_id s.toList]
    refine List.map_congr_left fun c hc => ?_
    rcases hs c hc with hl | rfl
    · unfold Char.toLower
      rw [dif_neg]
      · rfl
      · intro h
        have hlo : (97 : ℕ) ≤ c.val.toNat := by
          have hge : 97 ≤ c.val := of_decide_eq_true (Bool.and_eq_true_iff.mp hl).1
          exact UInt32.le_iff_toNat_le.mp hge
        have hhi : c.val.toNat ≤ 90 := UInt32.le_iff_toNat_le.mp h.2
        omega
    · rfl
  show String.ofList (s.toList.map Char.toLower) = s
  rw [hmap, String.ofList_toList]

theorem localName_of_keeps (h : rt.KeepsLowercase) {raw name : String}
    (hn : String.ofList (raw.toList.reverse.takeWhile (· ≠ ':')).reverse = name)
    (hl : (name.toList.all fun c => c.isLower || c == '-') = true) : localName rt raw = name := by
  unfold localName
  rw [hn, h name]
  simpa using hl

/-- The names that the server writes. -/
structure ReadsNames (rt : Runtime) : Prop where
  multistatus : localName rt "D:multistatus" = "multistatus"
  response : localName rt "D:response" = "response"
  href : localName rt "D:href" = "href"
  propstat : localName rt "D:propstat" = "propstat"
  prop : localName rt "D:prop" = "prop"
  addressData : localName rt "C:address-data" = "address-data"
  status : localName rt "D:status" = "status"
  syncToken : localName rt "D:sync-token" = "sync-token"

theorem readsNames (h : rt.KeepsLowercase) : ReadsNames rt := by
  constructor <;> exact localName_of_keeps h (by decide) (by decide)

theorem trim_found : trim "HTTP/1.1 200 OK" = "HTTP/1.1 200 OK" := by decide

theorem trim_gone : trim "HTTP/1.1 404 Not Found" = "HTTP/1.1 404 Not Found" := by decide

theorem trim_empty : trim "" = "" := by decide

/-- A response adds its resource and leaves the reader where it was. -/
theorem read_response (h : ReadsNames rt) (href : String) (card : Option (Option String))
    (s : DavReader) (hr : s.inResourceType = false) :
    (responseBody href card).foldl (DavReader.step rt) s =
      { s with
        out := { s.out with resources := s.out.resources ++ [responseResource href card] }
        current := none
        text := "" } := by
  obtain ⟨h1, h2, h3, h4, h5, h6, h7, h8⟩ := h
  rcases card with _ | _ | text <;>
    simp [responseBody, element, DavReader.step, DavReader.closeElement,
      DavReader.closeOut, DavReader.closeIn, h2, h3,
      h4, h5, h6, h7, hr, responseResource, trim_found, trim_gone, trim_empty]

theorem read_responses (h : ReadsNames rt) (responses : List (String × Option (Option String)))
    (s : DavReader) (hr : s.inResourceType = false) (hc : s.current = none) (ht : s.text = "") :
    (responses.flatMap fun x => responseBody x.1 x.2).foldl (DavReader.step rt) s =
      { s with
        out := { s.out with
          resources := s.out.resources ++ responses.map fun x => responseResource x.1 x.2 } } := by
  induction responses generalizing s with
  | nil => simp
  | cons x responses ih =>
      rw [List.flatMap_cons, List.foldl_append, read_response h x.1 x.2 s hr]
      rw [ih]
      · simp [hc, ht]
      · exact hr
      · rfl
      · rfl

/-- The reader after the start of the document. -/
theorem read_start (h : ReadsNames rt) :
    DavReader.step rt {} (.start "D:multistatus") =
      { path := ["multistatus"], depth := 1, sawMultistatus := true } := by
  simp [DavReader.step, h.multistatus]

/-- Reading a body gives what was written. -/
theorem parse_multistatusBody (h : rt.KeepsLowercase)
    (responses : List (String × Option (Option String))) (token : Option String) :
    parseMultistatus rt ⟨multistatusBody responses token, none⟩ =
      .ok { resources := responses.map fun x => responseResource x.1 x.2
            syncToken := (token.map trim).filter (· ≠ "") } := by
  have hn := readsNames h
  have hfold : (multistatusBody responses token).foldl (DavReader.step rt) {} =
      { out := { resources := responses.map fun x => responseResource x.1 x.2
                 syncToken := (token.map trim).filter (· ≠ "") }
        sawMultistatus := true } := by
    unfold multistatusBody answerParts
    simp only [List.foldl_append, List.foldl_cons, List.foldl_nil, read_start hn]
    rw [read_responses hn responses _ rfl rfl rfl]
    cases token with
    | none => simp [DavReader.step, DavReader.closeElement, DavReader.closeOut, hn.multistatus]
    | some t =>
        by_cases ht : trim t = "" <;>
          simp [element, DavReader.step, DavReader.closeElement, DavReader.closeOut, hn.multistatus, hn.syncToken, ht,
            Option.filter]
  unfold parseMultistatus
  simp only [hfold]
  simp

/-- The book's token is read from the answer to its `PROPFIND`. -/
theorem parse_tokenBody (h : rt.KeepsLowercase) (href : String) {token : String} (ht : trim token ≠ "") :
    ∃ m, parseMultistatus rt ⟨tokenBody href token, none⟩ = .ok m ∧
      m.bookToken = some (trim token) := by
  obtain ⟨h1, h2, h3, h4, h5, h6, h7, h8⟩ := readsNames h
  refine ⟨{ resources := [{ href := trim href, status := some "HTTP/1.1 200 OK"
                            properties := [("sync-token", trim token)] }] }, ?_,
    by simp [MultiStatus.bookToken, DavResource.property]⟩
  simp [parseMultistatus, tokenBody, element, DavReader.step, DavReader.closeElement,
    DavReader.closeOut, DavReader.closeIn, DavResource.addProperty, DavResource.property, h1, h2, h3, h4, h5, h7, h8,
    trim_found, trim_empty, ht]

/-! ### A body that is cut off -/

/-- How many elements are open after the events. -/
def openElements (events : List XmlEvent) : ℤ :=
  (events.map fun
    | .start _ => (1 : ℤ)
    | .close _ => -1
    | .empty _ | .text _ | .charRef _ | .entityRef _ | .cdata _ | .other => 0).sum

theorem openElements_append (es es' : List XmlEvent) :
    openElements (es ++ es') = openElements es + openElements es' := by
  simp [openElements]

theorem fold_depth (events : List XmlEvent) (s : DavReader) :
    (events.foldl (DavReader.step rt) s).depth = s.depth + openElements events := by
  induction events generalizing s with
  | nil => simp [openElements]
  | cons e events ih =>
      rw [List.foldl_cons, ih]
      cases e with
      | start => simp [DavReader.step, openElements, add_assoc]
      | close => simp [DavReader.step, DavReader.closeElement, openElements]; ring
      | empty | text | charRef | entityRef | cdata | other => simp [DavReader.step, openElements]

/-- Elements that are closed in the events, each after its start. -/
structure Nested (events : List XmlEvent) : Prop where
  closed : openElements events = 0
  prefixes : ∀ n, 0 ≤ openElements (events.take n)

namespace Nested

theorem nil : Nested [] := ⟨rfl, fun n => by simp [openElements]⟩

theorem text (value : String) : Nested [.text value] := by
  refine ⟨rfl, fun n => ?_⟩
  cases n <;> simp [openElements]

theorem append {es es' : List XmlEvent} (h : Nested es) (h' : Nested es') : Nested (es ++ es') := by
  refine ⟨by rw [openElements_append, h.closed, h'.closed, add_zero], fun n => ?_⟩
  rw [List.take_append, openElements_append]
  exact add_nonneg (h.prefixes n) (h'.prefixes _)

/-- A part of an element that is not all of it leaves the element open. -/
theorem take_wrap {es : List XmlEvent} (h : Nested es) (a b : String) {n : ℕ}
    (hn : n < (es.length + 1)) :
    1 ≤ openElements (([XmlEvent.start a] ++ es ++ [XmlEvent.close b]).take (n + 1)) := by
  rw [List.append_assoc, List.singleton_append, List.take_succ_cons,
    List.take_append_of_le_length (Nat.le_of_lt_succ hn)]
  have := h.prefixes n
  simp only [openElements, List.map_cons, List.sum_cons] at this ⊢
  omega

theorem wrap {es : List XmlEvent} (h : Nested es) (a b : String) :
    Nested ([.start a] ++ es ++ [.close b]) := by
  have hclosed : openElements ([.start a] ++ es ++ [.close b]) = 0 := by
    rw [openElements_append, openElements_append, h.closed]
    rfl
  refine ⟨hclosed, fun n => ?_⟩
  cases n with
  | zero => simp [openElements]
  | succ n =>
      by_cases hn : n < es.length + 1
      · exact le_trans (by decide) (h.take_wrap a b hn)
      · rw [List.take_of_length_le (by simp; omega), hclosed]

theorem element (name value : String) : Nested (element name value) :=
  (Nested.text value).wrap name name

theorem flatMap {α : Type} {f : α → List XmlEvent} (h : ∀ a, Nested (f a)) (l : List α) :
    Nested (l.flatMap f) := by
  induction l with
  | nil => exact .nil
  | cons a l ih =>
      rw [List.flatMap_cons]
      exact (h a).append ih

end Nested

theorem nested_responseBody (href : String) (card : Option (Option String)) :
    Nested (responseBody href card) := by
  unfold responseBody
  rw [List.append_assoc [XmlEvent.start "D:response"]]
  refine ((Nested.element "D:href" href).append ?_).wrap "D:response" "D:response"
  rcases card with _ | _ | text
  · exact .element ..
  · exact .element ..
  · have hprop := (Nested.element "C:address-data" text).wrap "D:prop" "D:prop"
    have hstat := (hprop.append (.element "D:status" "HTTP/1.1 200 OK")).wrap "D:propstat" "D:propstat"
    simpa using hstat

/-- A body that leaves an element open is refused. -/
theorem parse_open {events : List XmlEvent} (h : openElements events ≠ 0) :
    ∃ e, parseMultistatus rt ⟨events, none⟩ = .error e := by
  unfold parseMultistatus
  dsimp only
  rw [fold_depth events {}, zero_add, if_pos h]
  split <;> exact ⟨_, rfl⟩

theorem nested_answerParts (responses : List (String × Option (Option String)))
    (token : Option String) : Nested (answerParts responses token) := by
  have hresp : Nested (responses.flatMap fun x => responseBody x.1 x.2) :=
    .flatMap (fun x => nested_responseBody x.1 x.2) responses
  exact hresp.append (.flatMap (fun t => .element "D:sync-token" t) token.toList)

/-- A part of an element is no document. -/
theorem Nested.parse_take {es : List XmlEvent} (h : Nested es) (a b : String) {n : ℕ}
    (hn : n < ([XmlEvent.start a] ++ es ++ [XmlEvent.close b]).length) :
    ∃ e, parseMultistatus rt ⟨([XmlEvent.start a] ++ es ++ [XmlEvent.close b]).take n, none⟩ =
      .error e := by
  cases n with
  | zero => exact ⟨_, rfl⟩
  | succ n =>
      apply parse_open
      have hlt : n < es.length + 1 := by
        simp only [List.length_append, List.length_singleton] at hn
        omega
      have hopen := h.take_wrap a b hlt
      exact fun h => absurd (h ▸ hopen : (1 : ℤ) ≤ 0) (by decide)

/-- A body that is cut off is refused, never read as a smaller address book. -/
theorem parse_truncated (rt : Runtime) {responses : List (String × Option (Option String))} {token : Option String}
    {n : ℕ} (hn : n < (multistatusBody responses token).length) :
    ∃ e, parseMultistatus rt ⟨(multistatusBody responses token).take n, none⟩ = .error e :=
  (nested_answerParts responses token).parse_take "D:multistatus" "D:multistatus" hn

theorem parse_tokenBody_truncated (rt : Runtime) {href token : String} {n : ℕ}
    (hn : n < (tokenBody href token).length) :
    ∃ e, parseMultistatus rt ⟨(tokenBody href token).take n, none⟩ = .error e := by
  have hprop := (Nested.element "D:sync-token" token).wrap "D:prop" "D:prop"
  have hstat :=
    (hprop.append (.element "D:status" "HTTP/1.1 200 OK")).wrap "D:propstat" "D:propstat"
  have hresp := ((Nested.element "D:href" href).append hstat).wrap "D:response" "D:response"
  have heq : tokenBody href token = [.start "D:multistatus"] ++
      ([.start "D:response"] ++ (element "D:href" href ++ ([.start "D:propstat"] ++
        ([.start "D:prop"] ++ element "D:sync-token" token ++ [.close "D:prop"] ++
          element "D:status" "HTTP/1.1 200 OK") ++ [.close "D:propstat"])) ++
            [.close "D:response"]) ++ [.close "D:multistatus"] := by
    simp [tokenBody]
  rw [heq] at hn ⊢
  exact hresp.parse_take "D:multistatus" "D:multistatus" hn

end Mokosh.ContactSync
