import Mathlib.Data.String.Basic
import Mokosh.ContactSync.CardDav

/-! # vCards

`contact_sync/vcard.rs`: a file is split into its cards (`frame`), each card is parsed on its own and
becomes a contact, a group card or a failure (`finish`).

The parser of the properties is a library (`calcard`) and a parameter here: `CardParser`.  The photos
and the properties that are only listed in a preview are left out, but the lines of a binary property
are dropped as the source drops them.

`parse_cards` of `contact_sync/icloud.rs` reads the cards of an address book one by one and keeps the
contacts and the group cards; `apply_membership` stamps the groups onto their members. -/

namespace Mokosh.ContactSync

variable {rt : Runtime}

/-! ### What the parser gives -/

inductive VCardType where
  | work
  | home
  | cell
  | fax
  | voice
  | pager
  | text
  | video
  | textphone
  | mainNumber
  | billing
  | other
deriving DecidableEq, Repr

inductive CardParam where
  /-- `PREF`, with its number if it is one. -/
  | pref (rank : Option ℕ)
  | type (t : VCardType)
  | typeText (t : String)
  /-- A word without a value, as vCard 2.1 writes its types. -/
  | bare (name : String)
  | other
deriving DecidableEq, Repr

inductive CardValue where
  | text (t : String)
  /-- `KIND:group`. -/
  | kindGroup
  | other
deriving DecidableEq, Repr

/-- The properties that are read; every other one is `unread`. -/
inductive CardProperty where
  | uid
  | fn
  | n
  | email
  | tel
  | org
  | title
  | categories
  | note
  | kind
  /-- A property the parser has no name for. -/
  | extension (name : String)
  | unread
deriving DecidableEq, Repr

structure CardEntry where
  group : Option String := none
  name : CardProperty
  params : List CardParam := []
  values : List CardValue := []
deriving DecidableEq, Repr

/-- The first vCard that the parser finds in a text. -/
abbrev CardParser := String → Option (List CardEntry)

/-! ### Limits and reports -/

structure Limits where
  maxFileBytes : ℕ
  maxCards : ℕ
  maxCardBytes : ℕ

/-- `Limits::DEFAULT`. -/
def defaultLimits : Limits where
  maxFileBytes := 10 * 1024 * 1024
  maxCards := 5000
  maxCardBytes := 256 * 1024

inductive ReadError where
  | fileTooLarge (limitBytes : ℕ)
  | tooManyCards (limit : ℕ)
deriving DecidableEq, Repr

/-- Something wrong with one card. -/
structure CardProblem where
  /-- The card's place in the file, from 1. -/
  card : ℕ
  /-- The line of its `BEGIN:VCARD`, from 1. -/
  line : ℕ
  hint : String
  reason : String
deriving DecidableEq, Repr

structure GroupCard where
  id : Option String := none
  name : Option String := none
  memberIds : List String := []
deriving DecidableEq, Repr

structure VcardFile where
  contacts : List SourceContact := []
  /-- The cards that were not imported, and why. -/
  failures : List CardProblem := []
  groupCards : ℕ := 0
  groupCardsRead : List GroupCard := []
  /-- Every `BEGIN:VCARD` seen. -/
  cards : ℕ := 0
deriving DecidableEq, Repr

/-! ### Texts -/

/-- The bytes of a text in UTF-8. -/
def byteLength (l : List Char) : ℕ := (l.map fun c => c.utf8Size).sum

def asciiLower (l : List Char) : List Char := l.map Char.toLower

def asciiUpper (l : List Char) : List Char := l.map Char.toUpper

/-- `eq_ignore_ascii_case`. -/
def asciiCaseEq (a b : List Char) : Bool := asciiLower a = asciiLower b

/-- The lines of a text, each with its line feed; `line` is the line that is being read, last
character first. -/
def readLines : List Char → List Char → List (List Char)
  | line, [] => if line = [] then [] else [line.reverse]
  | line, c :: cs =>
    if c = '\n' then (c :: line).reverse :: readLines [] cs else readLines (c :: line) cs

def stripSuffix (c : Char) (l : List Char) : List Char :=
  if l.getLast? = some c then l.dropLast else l

def trimEol (line : List Char) : List Char := stripSuffix '\r' (stripSuffix '\n' line)

def trimAsciiEnd (line : List Char) : List Char :=
  (line.reverse.dropWhile fun c => decide (c ∈ [' ', '\t', '\n', '\r', Char.ofNat 12])).reverse

/-- A line that goes on with the one before it. -/
def isContinuation (line : List Char) : Bool := line.head?.any fun c => c = ' ' || c = '\t'

/-- The part behind the last dot. -/
def afterLastDot (l : List Char) : List Char := (l.reverse.takeWhile (· ≠ '.')).reverse

/-- `str::replace` of a text by nothing; the number is what is left of a match. -/
def removeAll (pattern : List Char) : ℕ → List Char → List Char
  | _, [] => []
  | skip + 1, _ :: cs => removeAll pattern skip cs
  | 0, c :: cs =>
    if pattern.isPrefixOf (c :: cs) then removeAll pattern (pattern.length - 1) cs
    else c :: removeAll pattern 0 cs

/-- `str::trim_start_matches`, at most so many times. -/
def trimStartMatches (pattern : List Char) : ℕ → List Char → List Char
  | 0, l => l
  | n + 1, l =>
    if pattern.isPrefixOf l then trimStartMatches pattern n (l.drop pattern.length) else l

def clean (value : String) : Option String :=
  let trimmed := trim (sanitizeInvisible value)
  if trimmed = "" then none else some trimmed

/-- `content_hash`: what a card says, whatever the order of its lines, their folding and the stamps
of an export. -/
def contentHash (rt : Runtime) (text : List Char) : String :=
  let unfolded := removeAll ['\n', '\t'] 0 (removeAll ['\n', ' '] 0
    (removeAll ['\r', '\n', '\t'] 0 (removeAll ['\r', '\n', ' '] 0 text)))
  let lines := (readLines [] unfolded).map fun l =>
    ((trimEol l).reverse.dropWhile (· = '\r')).reverse
  let kept := (lines.filter fun l => decide (trim (String.ofList l) ≠ "")).filter fun l =>
    let name := afterLastDot (l.takeWhile fun c => c ≠ ';' && c ≠ ':')
    !asciiCaseEq name ['r', 'e', 'v'] &&
      !asciiCaseEq name ['p', 'r', 'o', 'd', 'i', 'd']
  rt.sha256 (String.ofList (['\n'].intercalate (kept.insertionSort fun a b => a ≤ b)))

/-! ### One card as its lines arrive -/

structure CardBuilder where
  ordinal : ℕ
  line : ℕ
  text : List Char := []
  overCap : Bool := false
  /-- A binary property is being dropped; whether its value is an unindented block. -/
  binary : Option Bool := none
  /-- The line before was a soft break of quoted-printable. -/
  qpContinues : Bool := false
  firstProperty : Option String := none

namespace CardBuilder

def append (limits : Limits) (card : CardBuilder) (line : List Char) : CardBuilder :=
  if card.overCap then card
  else if byteLength card.text + byteLength line + 2 > limits.maxCardBytes then
    { card with overCap := true }
  else { card with text := card.text ++ line ++ ['\r', '\n'] }

def binaryProperties : List (List Char) :=
  [['P', 'H', 'O', 'T', 'O'], ['L', 'O', 'G', 'O'], ['S', 'O', 'U', 'N', 'D'], ['K', 'E', 'Y']]

/-- The rest of `push_line`, once no binary property is open. -/
def pushProperty (limits : Limits) (card : CardBuilder) (line : List Char) : CardBuilder :=
  if card.qpContinues || isContinuation line then
    { card with qpContinues := card.qpContinues && line.getLast? = some '=' }.append limits line
  else if ':' ∉ line then card.append limits line
  else
    let header := line.takeWhile (· ≠ ':')
    let name := afterLastDot (asciiUpper (header.takeWhile (· ≠ ';')))
    let params := asciiUpper (header.dropWhile (· ≠ ';'))
    if name ∈ binaryProperties then
      { card with
        binary := some (decide ("ENCODING=BASE64".toList <:+: params) ||
          decide ("ENCODING=B".toList <:+: params)) }
    else
      { card with
        firstProperty :=
          if name ≠ "VERSION".toList ∧ card.firstProperty.isNone then
            some (trim (sanitizeInvisible (String.ofList (line.take 80))))
          else card.firstProperty
        qpContinues :=
          decide ("QUOTED-PRINTABLE".toList <:+: params) && line.getLast? = some '=' }.append
            limits line

/-- `push_line`. -/
def pushLine (limits : Limits) (card : CardBuilder) (line : List Char) : CardBuilder :=
  match card.binary with
  | some block =>
    if isContinuation line then card
    else if block && !line.isEmpty && decide (':' ∉ line) then card
    else if line = [] then { card with binary := none }
    else { card with binary := none }.pushProperty limits line
  | none => card.pushProperty limits line

def problem (card : CardBuilder) (reason : String) : CardProblem where
  card := card.ordinal
  line := card.line
  hint := card.firstProperty.getD "(empty card)"
  reason := reason

end CardBuilder

/-! ### One card -/

namespace CardEntry

def texts (e : CardEntry) : List String :=
  e.values.filterMap fun
    | .text t => some t
    | .kindGroup | .other => none

def firstText (e : CardEntry) : Option String := e.texts.findSome? clean

def textAt (e : CardEntry) (index : ℕ) : Option String :=
  match e.values[index]? with
  | some (.text t) => clean t
  | _ => none

/-- The entry is an extension of this name. -/
def isExtension (e : CardEntry) (name : String) : Bool :=
  match e.name with
  | .extension n => asciiCaseEq n.toList name.toList
  | _ => false

/-- `u32::MAX`. -/
def unranked : ℕ := 4294967295

/-- How strongly a property is preferred: lower is stronger. -/
def prefRank (e : CardEntry) : ℕ :=
  e.params.foldl (fun rank p => match p with
    | .pref (some n) => min rank n
    | .pref none => min rank 1
    | .typeText t => if asciiCaseEq t.toList ['p', 'r', 'e', 'f'] then min rank 1 else rank
    | .bare name =>
      if asciiCaseEq name.toList ['p', 'r', 'e', 'f'] then min rank 1 else rank
    | .type _ | .other => rank) unranked

end CardEntry

def VCardType.word : VCardType → String
  | work => "work"
  | home => "home"
  | cell => "cell"
  | fax => "fax"
  | voice => "voice"
  | pager => "pager"
  | text => "text"
  | video => "video"
  | textphone => "textphone"
  | mainNumber => "main"
  | billing => "billing"
  | other => ""

/-- The `TYPE` words of a property in lowercase. -/
def typeWords (rt : Runtime) (e : CardEntry) : List String :=
  (e.params.flatMap fun
    | .type t => [t.word]
    | .typeText t => (t.toList.splitOn ',').map fun w => rt.toLowercase (trim (String.ofList w))
    | .bare name => [rt.toLowercase name]
    | .pref _ | .other => []).filter
      fun w => decide (w ∉ ["", "pref", "internet", "x400", "voice"])

def phoneLabel (types : List String) : Option String :=
  if "fax" ∈ types then
    if "home" ∈ types then some "home fax"
    else if "work" ∈ types then some "work fax"
    else some "fax"
  else if "cell" ∈ types then some "mobile"
  else if "work" ∈ types then some "work"
  else if "home" ∈ types then some "home"
  else types.head?

/-- Apple's own labels stand between marks, a person's are plain. -/
def appleLabel (rt : Runtime) (raw : String) : Option String :=
  let opening := "_$!<".toList
  let closing := ">!$_".toList
  let inner :=
    if opening.isPrefixOf raw.toList ∧ closing.isSuffixOf (raw.toList.drop opening.length) then
      String.ofList ((raw.toList.drop opening.length).take
        ((raw.toList.drop opening.length).length - closing.length))
    else raw
  (clean inner).map rt.toLowercase

def isGroupCard (card : List CardEntry) : Bool :=
  card.any fun e =>
    match e.name with
    | .kind => decide (CardValue.kindGroup ∈ e.values)
    | _ => e.isExtension "X-ADDRESSBOOKSERVER-KIND" &&
      e.texts.any fun t => asciiCaseEq (trim t).toList ['g', 'r', 'o', 'u', 'p']

def readGroupCard (card : List CardEntry) : GroupCard :=
  card.foldl (fun group e =>
    if e.name = .uid then { group with id := e.texts.head?.bind clean }
    else if e.name = .fn then { group with name := group.name.or (e.texts.head?.bind clean) }
    else if e.isExtension "X-ADDRESSBOOKSERVER-MEMBER" then
      { group with
        memberIds := group.memberIds ++ e.texts.filterMap fun value =>
          clean (String.ofList (trimStartMatches "urn:uuid:".toList value.length value.toList)) }
    else group) {}

def uidMax : ℕ := 200

/-- The external id of a card: its `UID`, or a digest. -/
def cardExternalId (rt : Runtime) (uid : Option String) (digest : String) : String :=
  match uid with
  | some uid => if uid.length ≤ uidMax then uid else "uid-sha256:" ++ rt.sha256 uid
  | none => "sha256:" ++ digest

/-- What a card is. -/
inductive Converted where
  | contact (contact : SourceContact)
  | groupCard (group : GroupCard)
  | empty

/-- The custom labels, by their group; the last one of a group stands. -/
def customLabels (rt : Runtime) (card : List CardEntry) : List (String × String) :=
  card.filterMap fun e =>
    if e.isExtension "X-ABLABEL" then
      e.group.bind fun g => (e.texts.findSome? (appleLabel rt)).map (rt.toLowercase g, ·)
    else none

def groupLabel (rt : Runtime) (labels : List (String × String)) (e : CardEntry) : Option String :=
  e.group.bind fun g => (labels.reverse.find? fun l => l.1 = rt.toLowercase g).map (·.2)

/-- The entries of a property. -/
def entriesOf (card : List CardEntry) (name : CardProperty) : List CardEntry :=
  card.filter fun e => decide (e.name = name)

def cardPhone (rt : Runtime) (labels : List (String × String)) (e : CardEntry) :
    Option SourcePhone :=
  e.firstText.map fun value =>
    { number :=
        if "tel:".toList.isPrefixOf value.toList ∨ "TEL:".toList.isPrefixOf value.toList then
          String.ofList (value.toList.drop 4)
        else value
      canonical := none
      label := (groupLabel rt labels e).or (phoneLabel (typeWords rt e))
      isPrimary := decide (e.prefRank ≠ CardEntry.unranked) }

/-- The categories of a card, each once. -/
def cardCategories (rt : Runtime) (card : List CardEntry) : List String :=
  ((entriesOf card .categories).flatMap fun e => e.texts.filterMap clean).foldl
    (fun cs c => if cs.any fun d => rt.toLowercase d = rt.toLowercase c then cs else cs ++ [c]) []

/-- `convert`. -/
def convert (rt : Runtime) (card : List CardEntry) (text : List Char) : Converted :=
  if isGroupCard card then .groupCard (readGroupCard card)
  else
    let labels := customLabels rt card
    let firstOf name := (entriesOf card name).findSome? CardEntry.firstText
    -- family name and given name, from the first `N` that has one of them
    let names := (entriesOf card .n).foldl
      (fun (p : Option String × Option String) e =>
        if p.1.isNone ∧ p.2.isNone then (e.textAt 0, e.textAt 1) else p) (none, none)
    -- organisation and department
    let units := (entriesOf card .org).foldl
      (fun (p : Option String × Option String) e =>
        if p.1.isNone then (e.textAt 0, e.textAt 1) else p) (none, none)
    let emails := (entriesOf card .email).filterMap fun e => e.firstText.map (e.prefRank, ·)
    let phones := (entriesOf card .tel).filterMap (cardPhone rt labels)
    let notes := (entriesOf card .note).flatMap fun e => e.texts.filterMap clean
    let digest := contentHash rt text
    if (firstOf .fn).isNone ∧ names.1.isNone ∧ names.2.isNone ∧ emails = [] ∧ phones = [] ∧
        units.1.isNone then
      .empty
    else
      .contact
        { externalId := cardExternalId rt (firstOf .uid) digest
          etag := some digest
          displayName := firstOf .fn
          givenName := names.2
          familyName := names.1
          emails := (emails.insertionSort fun a b => a.1 ≤ b.1).map (·.2)
          phones := phones
          organization := units.1
          title := firstOf .title
          department := units.2
          groupIds := cardCategories rt card
          note := if notes = [] then none else some ("\n\n".intercalate notes)
          deleted := false }

/-- `finish`: one complete card. -/
def finish (rt : Runtime) (parser : CardParser) (limits : Limits) (card : CardBuilder)
    (file : VcardFile) : VcardFile :=
  if card.overCap then
    { file with
      failures := file.failures ++ [card.problem ("The card is larger than " ++
        toString (limits.maxCardBytes / 1024) ++ " KB, not counting its photo, so it was skipped.")] }
  else
    match parser ("BEGIN:VCARD\r\n" ++ String.ofList card.text ++ "END:VCARD\r\n") with
    | none =>
      { file with
        failures := file.failures ++
          [card.problem "The card could not be read as a vCard, so it was skipped."] }
    | some vcard =>
      match convert rt vcard card.text with
      | .contact contact => { file with contacts := file.contacts ++ [contact] }
      | .groupCard group =>
        { file with
          groupCards := file.groupCards + 1
          groupCardsRead := if group.id.isSome ∨ group.name.isSome then
              file.groupCardsRead ++ [group] else file.groupCardsRead }
      | .empty =>
        { file with
          failures := file.failures ++ [card.problem ("The card has no name, email address, " ++
            "phone number or organisation, so it was skipped.")] }

/-! ### The file -/

/-- Where the splitting of a file stands. -/
structure Framer where
  opened : Option CardBuilder := none
  file : VcardFile := {}
  total : ℕ := 0
  lineNo : ℕ := 0

/-- The byte-order mark. -/
def byteOrderMark : Char := Char.ofNat 0xFEFF

namespace Framer

/-- The line between the marks of a card, or the marks themselves. -/
def place (rt : Runtime) (parser : CardParser) (limits : Limits) (s : Framer) (line : List Char) :
    Except ReadError Framer :=
  if !isContinuation line &&
      asciiCaseEq (trimAsciiEnd line) "BEGIN:VCARD".toList then
    let failures := match s.opened with
      | some unterminated => s.file.failures ++ [unterminated.problem
          "The card has no END:VCARD before the next card begins, so it was skipped."]
      | none => s.file.failures
    if s.file.cards + 1 > limits.maxCards then .error (.tooManyCards limits.maxCards)
    else .ok { s with
      opened := some { ordinal := s.file.cards + 1, line := s.lineNo }
      file := { s.file with failures := failures, cards := s.file.cards + 1 } }
  else
    match s.opened with
    | none => .ok s
    | some card =>
      if !isContinuation line && asciiCaseEq (trimAsciiEnd line) "END:VCARD".toList then
        .ok { s with opened := none, file := finish rt parser limits card s.file }
      else .ok { s with opened := some (card.pushLine limits line) }

/-- One line as it is read. -/
def step (rt : Runtime) (parser : CardParser) (limits : Limits) (s : Framer) (raw : List Char) :
    Except ReadError Framer :=
  if s.total + byteLength raw > limits.maxFileBytes then .error (.fileTooLarge limits.maxFileBytes)
  else
    let line := trimEol raw
    { s with total := s.total + byteLength raw, lineNo := s.lineNo + 1 }.place rt parser limits
      (if s.lineNo = 0 ∧ line.head? = some byteOrderMark then line.drop 1 else line)

/-- The end of the file. -/
def close (s : Framer) : VcardFile :=
  match s.opened with
  | some truncated =>
    { s.file with
      failures := s.file.failures ++ [truncated.problem ("The file ends before this card's " ++
        "END:VCARD, so it was skipped. The export may be incomplete.")] }
  | none => s.file

end Framer

/-- `frame`. -/
def frame (rt : Runtime) (parser : CardParser) (limits : Limits) (text : List Char) :
    Except ReadError VcardFile :=
  ((readLines [] text).foldlM (Framer.step rt parser limits) {}).map Framer.close

/-- One spelling for each category, the first that is seen. -/
def canonicalIds (rt : Runtime) :
    List (String × String) → List String → List (String × String) × List String
  | spelling, [] => (spelling, [])
  | spelling, id :: ids =>
    match spelling.find? fun s => s.1 = rt.toLowercase id with
    | some s =>
      let rest := canonicalIds rt spelling ids
      (rest.1, s.2 :: rest.2)
    | none =>
      let rest := canonicalIds rt (spelling ++ [(rt.toLowercase id, id)]) ids
      (rest.1, id :: rest.2)

/-- `canonicalise_groups`. -/
def canonicaliseGroups (rt : Runtime) :
    List (String × String) → List SourceContact → List SourceContact
  | _, [] => []
  | spelling, c :: cs =>
    let ids := canonicalIds rt spelling c.groupIds
    { c with groupIds := ids.2 } :: canonicaliseGroups rt ids.1 cs

/-- `read_vcards` of a text in UTF-8. -/
def readVcards (rt : Runtime) (parser : CardParser) (limits : Limits) (text : String) :
    Except ReadError VcardFile :=
  (frame rt parser limits text.toList).map fun file =>
    { file with contacts := canonicaliseGroups rt [] file.contacts }

/-! ### Line by line -/

section Lines

variable {parser : CardParser} {limits : Limits} {file : VcardFile} {s s' : Framer}

/-- What every line preserves holds after all of them. -/
theorem lines_invariant (P : Framer → Prop)
    (hstep : ∀ s raw s', P s → Framer.step rt parser limits s raw = .ok s' → P s')
    {lines : List (List Char)} (h : P s)
    (hr : lines.foldlM (Framer.step rt parser limits) s = .ok s') : P s' := by
  induction lines generalizing s with
  | nil =>
      cases hr
      exact h
  | cons raw lines ih =>
      rw [List.foldlM_cons] at hr
      cases h₁ : Framer.step rt parser limits s raw with
      | error e =>
          rw [h₁] at hr
          cases hr
      | ok s₁ =>
          rw [h₁] at hr
          exact ih (hstep s raw s₁ h h₁) hr

theorem readVcards_eq_ok {text : String} (h : readVcards rt parser limits text = .ok file) :
    ∃ s, (readLines [] text.toList).foldlM (Framer.step rt parser limits) {} = .ok s ∧
      file = { s.close with contacts := canonicaliseGroups rt [] s.close.contacts } := by
  unfold readVcards frame at h
  cases hf : (readLines [] text.toList).foldlM (Framer.step rt parser limits) {} with
  | error e =>
      rw [hf] at h
      cases h
  | ok s =>
      rw [hf] at h
      cases h
      exact ⟨s, rfl, rfl⟩

theorem canonicaliseGroups_map (rt : Runtime) {β : Type} (f : SourceContact → β)
    (hf : ∀ c ids, f { c with groupIds := ids } = f c) (spelling : List (String × String))
    (cs : List SourceContact) : (canonicaliseGroups rt spelling cs).map f = cs.map f := by
  induction cs generalizing spelling with
  | nil => rfl
  | cons c cs ih => simp only [canonicaliseGroups, List.map_cons, hf, ih]

end Lines

/-! ### A card is never a deletion -/

section Live

variable {parser : CardParser} {limits : Limits} {file : VcardFile} {s s' : Framer}

/-- No contact of the file says that it was deleted. -/
def VcardFile.Live (file : VcardFile) : Prop := ∀ c ∈ file.contacts, c.deleted = false

theorem convert_live {vcard : List CardEntry} {text : List Char} {c : SourceContact}
    (h : convert rt vcard text = .contact c) : c.deleted = false := by
  unfold convert at h
  split at h
  · cases h
  · dsimp only at h
    split at h
    · cases h
    · cases h
      rfl

theorem finish_live {card : CardBuilder} (h : file.Live) :
    (finish rt parser limits card file).Live := by
  unfold finish
  split
  · exact h
  · cases parser ("BEGIN:VCARD\r\n" ++ String.ofList card.text ++ "END:VCARD\r\n") with
    | none => exact h
    | some vcard =>
        dsimp only
        cases hc : convert rt vcard card.text with
        | contact c =>
            intro x hx
            rcases List.mem_append.mp hx with hx | hx
            · exact h x hx
            · rw [List.mem_singleton.mp hx]
              exact convert_live hc
        | groupCard group => exact h
        | empty => exact h

theorem place_live {line : List Char} (h : s.file.Live)
    (hs : s.place rt parser limits line = .ok s') : s'.file.Live := by
  unfold Framer.place at hs
  split at hs
  · dsimp only at hs
    split at hs
    · cases hs
    · cases hs
      exact h
  · cases ho : s.opened with
    | none =>
        simp only [ho] at hs
        cases hs
        exact h
    | some card =>
        simp only [ho] at hs
        split at hs
        · cases hs
          exact finish_live h
        · cases hs
          exact h

theorem step_live {raw : List Char} (h : s.file.Live)
    (hs : s.step rt parser limits raw = .ok s') : s'.file.Live := by
  unfold Framer.step at hs
  split at hs
  · cases hs
  · exact place_live (by exact h) hs

theorem close_contacts (s : Framer) : s.close.contacts = s.file.contacts := by
  unfold Framer.close
  cases s.opened <;> rfl

theorem readVcards_live {text : String} (h : readVcards rt parser limits text = .ok file) :
    file.Live := by
  obtain ⟨s, hs, rfl⟩ := readVcards_eq_ok h
  have hlive : s.file.Live :=
    lines_invariant (fun s => s.file.Live) (fun _ _ _ => step_live)
      (fun c hc => absurd hc List.not_mem_nil) hs
  intro c hc
  have hmem : c.deleted ∈ (canonicaliseGroups rt [] s.close.contacts).map (·.deleted) :=
    List.mem_map_of_mem hc
  rw [canonicaliseGroups_map rt (·.deleted) (fun _ _ => rfl), close_contacts] at hmem
  obtain ⟨c', hc', he⟩ := List.mem_map.mp hmem
  exact he ▸ hlive c' hc'

end Live

end Mokosh.ContactSync
