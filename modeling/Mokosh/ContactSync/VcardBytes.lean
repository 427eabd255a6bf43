import Mokosh.ContactSync.Offers
import Mokosh.Utils.Text

/-! # The bytes of a vCard file

`read_vcards` of `contact_sync/vcard.rs` on the bytes of a file: what marks its cards, what becomes of the lines of a
card, binary properties included, and how a card's bytes become a text.  The parser of the properties and the decoders
of `encoding_rs` are parameters (`Library`); the rest of a card is `convert`. -/

namespace Mokosh.ContactSync.VcardBytes

abbrev Bytes := List UInt8

/-! ### UTF-8 -/

/-- How many bytes a character has that begins with this one; no character begins with the others. -/
def charWidth (b : UInt8) : ℕ :=
  if b < 0x80 then 1
  else if 0xC2 ≤ b ∧ b ≤ 0xDF then 2
  else if 0xE0 ≤ b ∧ b ≤ 0xEF then 3
  else if 0xF0 ≤ b ∧ b ≤ 0xF4 then 4
  else 0

def isTail (b : UInt8) : Bool := 0x80 ≤ b && b ≤ 0xBF

/-- The second byte excludes longer spellings than needed, surrogates and what is beyond the last character. -/
def isSecond (b c : UInt8) : Bool :=
  isTail c && (b ≠ 0xE0 || 0xA0 ≤ c) && (b ≠ 0xED || c ≤ 0x9F) && (b ≠ 0xF0 || 0x90 ≤ c) && (b ≠ 0xF4 || c ≤ 0x8F)

/-- The bytes behind the first one that go on with its character. -/
def tailsOf (b : UInt8) (rest : Bytes) : Bytes :=
  match rest.take (charWidth b - 1) with
  | [] => []
  | c :: cs => if isSecond b c then c :: cs.takeWhile isTail else []

/-- The character at the beginning, if there is one, and how many bytes it or what is malformed takes. -/
def chunk (b : UInt8) (rest : Bytes) : Option Char × ℕ :=
  let tails := tailsOf b rest
  let lead := b.toNat - [0, 0, 0xC0, 0xE0, 0xF0].getD (charWidth b) 0
  if tails.length + 1 = charWidth b then
    (some (.ofNat (tails.foldl (fun n c => n * 64 + (c.toNat - 0x80)) lead)), charWidth b)
  else (none, tails.length + 1)

/-- `Utf8Chunks`; the number is what is left of a chunk. -/
def utf8Chunks : ℕ → Bytes → List (Option Char)
  | _, [] => []
  | skip + 1, _ :: bs => utf8Chunks skip bs
  | 0, b :: bs => (chunk b bs).1 :: utf8Chunks ((chunk b bs).2 - 1) bs

/-- `String::from_utf8_lossy`. -/
def fromUtf8Lossy (bytes : Bytes) : List Char := (utf8Chunks 0 bytes).map fun c => c.getD (.ofNat 0xFFFD)

/-- `str::from_utf8`. -/
def fromUtf8 (bytes : Bytes) : Option (List Char) := (utf8Chunks 0 bytes).mapM id

def toUtf8 (text : List Char) : Bytes := text.flatMap String.utf8EncodeChar

/-! ### Lines -/

def ascii (s : String) : Bytes := s.toList.map fun c => .ofNat c.toNat

def lowerByte (b : UInt8) : UInt8 := if 65 ≤ b && b ≤ 90 then b + 32 else b

/-- `eq_ignore_ascii_case`. -/
def bytesCaseEq (a b : Bytes) : Bool := a.map lowerByte = b.map lowerByte

def lineFeed : UInt8 := 10

/-- `read_until(b'\n', ..)` to the end of the file; `line` is the line that is being read, last byte first. -/
def readUntil : Bytes → Bytes → List Bytes
  | line, [] => if line = [] then [] else [line.reverse]
  | line, b :: bs => if b = lineFeed then (b :: line).reverse :: readUntil [] bs else readUntil (b :: line) bs

def stripSuffixByte (b : UInt8) (l : Bytes) : Bytes := if l.getLast? = some b then l.dropLast else l

def trimEolBytes (line : Bytes) : Bytes := stripSuffixByte 13 (stripSuffixByte lineFeed line)

def trimAsciiEndBytes (line : Bytes) : Bytes :=
  (line.reverse.dropWhile fun b => b = 32 || b = 9 || b = 10 || b = 13 || b = 12).reverse

/-- A line that goes on with the one before it. -/
def continues (line : Bytes) : Bool := line.head?.any fun b => b = 32 || b = 9

/-- The byte-order mark in front of the first line. -/
def stripBom (line : Bytes) : Bytes := if [0xEF, 0xBB, 0xBF].isPrefixOf line then line.drop 3 else line

def isBegin (line : Bytes) : Bool := !continues line && bytesCaseEq (trimAsciiEndBytes line) (ascii "BEGIN:VCARD")

def isEnd (line : Bytes) : Bool := !continues line && bytesCaseEq (trimAsciiEndBytes line) (ascii "END:VCARD")

/-! ### What a file gives -/

structure FileLimits extends Limits where
  maxPhotoBytes : ℕ

inductive SourcePhoto where
  | uri (link : String)
  | inline (mediaType : Option String) (byteLen : ℕ)
deriving DecidableEq, Repr

/-- A `SourceContact` with what only a preview reads. -/
structure FileContact extends SourceContact where
  emailLabels : List (Option String)
  photo : Option SourcePhoto
  droppedProperties : List String
deriving DecidableEq, Repr

/-- An entry with the parser's word for its property. -/
structure NamedEntry extends CardEntry where
  asStr : String

/-- The libraries that a reader calls. -/
structure Library extends Runtime where
  /-- The first vCard that the parser finds in a text. -/
  parser : String → Option (List NamedEntry)
  /-- `Encoding::for_label`, and how it decodes. -/
  forLabel : String → Option (Bytes → List Char)
  windows1252 : Bytes → List Char
  /-- UTF-16 with its byte-order mark, little endian or not. -/
  utf16 : Bool → Bytes → List Char

structure VcardFile where
  contacts : List FileContact := []
  /-- The distinct categories, with how many contacts carry each. -/
  groups : List OfferedGroup := []
  failures : List CardProblem := []
  warnings : List CardProblem := []
  groupCards : ℕ := 0
  groupCardsRead : List GroupCard := []
  cards : ℕ := 0
deriving DecidableEq, Repr

variable (lib : Library) (limits : FileLimits)

/-! ### Binary properties -/

/-- How much of a binary property's value is kept. -/
def uriKeep : ℕ := 2048

structure BinaryProperty where
  name : List Char
  params : List Char
  head : List Char := []
  base64Chars : ℕ := 0
  /-- 2.1 writes an unindented block ended by a blank line. -/
  block : Bool

def isBase64Char (c : Char) : Bool := c.isAlphanum || c = '+' || c = '/'

def trimQuotes (s : List Char) : List Char := ((s.dropWhile (· = '"')).reverse.dropWhile (· = '"')).reverse

/-- The media type that one parameter names. -/
def mediaTypeOf (param : List Char) : Option String :=
  if '=' ∉ param then
    if String.ofList param ∈ ["JPEG", "PNG", "GIF", "BMP"] then some ("image/" ++ String.ofList (asciiLower param))
    else none
  else
    let name := String.ofList (param.takeWhile (· ≠ '='))
    let value := trimQuotes ((param.dropWhile (· ≠ '=')).drop 1)
    if name = "MEDIATYPE" then some (String.ofList (asciiLower value))
    else if name = "TYPE" then
      if '/' ∉ value then some ("image/" ++ String.ofList (asciiLower value))
      else some (String.ofList (asciiLower value))
    else none

def mediaTypeFromParams (params : List Char) : Option String := (params.splitOn ';').findSome? mediaTypeOf

def hasText (needle : String) (text : List Char) : Bool := needle.toList <:+: text

namespace BinaryProperty

def absorb (b : BinaryProperty) (value : Bytes) : BinaryProperty :=
  { b with
    head :=
      if byteLength b.head < uriKeep then b.head ++ fromUtf8Lossy (value.take (uriKeep - byteLength b.head))
      else b.head
    base64Chars := b.base64Chars + value.countP fun v => v < 0x80 && isBase64Char (.ofNat v.toNat) }

/-- What the property says about the photo of the contact. -/
def classify (b : BinaryProperty) : Option SourcePhoto :=
  let value := Text.trim b.head
  let lower := asciiLower value
  let params := asciiUpper b.params
  if value = [] then none
  else if "data:".toList.isPrefixOf lower then
    let mediaType := (lower.drop 5).takeWhile fun c => c ≠ ';' && c ≠ ','
    let payload := (value.dropWhile (· ≠ ',')).drop 1
    let chars := max (payload.countP isBase64Char) (b.base64Chars - (byteLength value - byteLength payload))
    some (.inline (if mediaType = [] then none else some (String.ofList mediaType)) (chars * 3 / 4))
  else if "http://".toList.isPrefixOf lower || "https://".toList.isPrefixOf lower || hasText "VALUE=URI" params ||
      hasText "VALUE=URL" params then
    some (.uri (sanitizeInvisible (String.ofList value)))
  else some (.inline (mediaTypeFromParams params) (b.base64Chars * 3 / 4))

end BinaryProperty

/-! ### A card as its lines arrive -/

/-- What the lines of a card come to. -/
structure CardText where
  text : Bytes := []
  overCap : Bool := false
  binary : Option BinaryProperty := none
  /-- The line before was a soft break of quoted-printable. -/
  qpContinues : Bool := false
  photo : Option SourcePhoto := none
  photoTooLarge : Bool := false
  droppedBinary : List String := []
  firstProperty : Option String := none

namespace CardText

variable (card : CardText)

def append (line : Bytes) : CardText :=
  if card.overCap then card
  else if card.text.length + line.length + 2 > limits.maxCardBytes then { card with overCap := true }
  else { card with text := card.text ++ line ++ [13, 10] }

def endBinary : CardText :=
  match card.binary with
  | none => card
  | some b =>
    if b.name = "PHOTO".toList ∧ card.photo.isNone then
      { card with
        binary := none
        photo := b.classify
        photoTooLarge := match b.classify with
          | some (.inline _ byteLen) => decide (byteLen > limits.maxPhotoBytes)
          | some (.uri _) | none => card.photoTooLarge }
    else if b.name ≠ "PHOTO".toList ∧ Text.trim b.head ≠ [] then
      { card with binary := none, droppedBinary := card.droppedBinary.insert (String.ofList b.name) }
    else { card with binary := none }

def colon : UInt8 := 58

/-- The rest of `push_line`, once no binary property is open. -/
def pushProperty (line : Bytes) : CardText :=
  let soft : Bool := line.getLast? = some 61
  if card.qpContinues || continues line then
    { card with qpContinues := card.qpContinues && soft }.append limits line
  else if colon ∉ line then card.append limits line
  else
    let header := line.takeWhile (· ≠ colon)
    let name := afterLastDot (asciiUpper (fromUtf8Lossy (header.takeWhile (· ≠ 59))))
    let params := fromUtf8Lossy (header.dropWhile (· ≠ 59))
    let upper := asciiUpper params
    if CardBuilder.binaryProperties.contains name then
      let b : BinaryProperty :=
        { name := name, params := params, block := hasText "ENCODING=BASE64" upper || hasText "ENCODING=B" upper }
      { card with binary := some (b.absorb (line.drop (header.length + 1))) }
    else
      { card with
        firstProperty :=
          if name ≠ "VERSION".toList ∧ card.firstProperty.isNone then
            some (trim (sanitizeInvisible (String.ofList ((fromUtf8Lossy line).take 80))))
          else card.firstProperty
        qpContinues := hasText "QUOTED-PRINTABLE" upper && soft }.append limits line

def pushLine (line : Bytes) : CardText :=
  match card.binary with
  | some b =>
    if continues line then { card with binary := some (b.absorb (line.drop 1)) }
    else if b.block && !line.isEmpty && decide (colon ∉ line) then { card with binary := some (b.absorb line) }
    else if line = [] then card.endBinary limits
    else (card.endBinary limits).pushProperty limits line
  | none => card.pushProperty limits line

end CardText

/-- A card with its place in the file. -/
structure CardBuilder extends CardText where
  ordinal : ℕ
  line : ℕ

def CardBuilder.problem (card : CardBuilder) (reason : String) : CardProblem where
  card := card.ordinal
  line := card.line
  hint := card.firstProperty.getD "(empty card)"
  reason := reason

/-! ### One card -/

/-- The value of the first `CHARSET=` parameter. -/
def charsetLabel : Bytes → Option String
  | [] => none
  | b :: bs =>
    if bytesCaseEq ((b :: bs).take 8) (ascii "CHARSET=") then
      (fromUtf8 (((b :: bs).drop 8).takeWhile fun v => v ≠ 59 && v ≠ 58 && v ≠ 13 && v ≠ 10)).bind fun label =>
        let label := Text.trim (trimQuotes label)
        if label = [] then none else some (String.ofList label)
    else charsetLabel bs

/-- `decode_card`: as UTF-8, else by the card's own label, else as Windows-1252. -/
def decodeCard (bytes : Bytes) : List Char :=
  (fromUtf8 bytes).getD ((((charsetLabel bytes).bind lib.forLabel).getD lib.windows1252) bytes)

def emailLabels (rt : Runtime) (card : List CardEntry) : List (Option String) :=
  let labelled := (entriesOf card .email).filterMap fun e => e.firstText.map fun _ =>
    (e.prefRank, (groupLabel rt (customLabels rt card) e).or (typeWords rt e).head?)
  (labelled.insertionSort fun a b => a.1 ≤ b.1).map (·.2)

/-- The property of an entry that nothing reads, if a person should know. -/
def NamedEntry.dropped (e : NamedEntry) : Option String :=
  let upper := String.ofList (asciiUpper e.asStr.toList)
  match e.name with
  | .unread => if upper ∈ ["VERSION", "PRODID", "REV", "BEGIN", "END", "PHOTO"] then none else some upper
  | .extension name => if "X-".toList.isPrefixOf (asciiUpper name.toList) then none else some upper
  | .uid | .fn | .n | .email | .tel | .org | .title | .categories | .note | .kind => none

/-- What becomes of a complete card. -/
inductive Outcome where
  | contact (contact : FileContact) (photoTooLarge : Bool)
  | groupCard (group : GroupCard)
  | failure (reason : String)

def Outcome.contact? : Outcome → Option FileContact
  | .contact c _ => some c
  | .groupCard _ | .failure _ => none

namespace CardText

/-- A complete card, decoded, parsed and converted. -/
def outcome (raw : CardText) : Outcome :=
  let card := raw.endBinary limits
  if card.overCap then
    .failure ("The card is larger than " ++ toString (limits.maxCardBytes / 1024) ++
      " KB, not counting its photo, so it was skipped.")
  else
    let text := decodeCard lib card.text
    match lib.parser ("BEGIN:VCARD\r\n" ++ String.ofList text ++ "END:VCARD\r\n") with
    | none => .failure "The card could not be read as a vCard, so it was skipped."
    | some vcard =>
      match convert lib.toRuntime (vcard.map (·.toCardEntry)) text with
      | .contact c =>
        .contact
          { c with
            emailLabels := emailLabels lib.toRuntime (vcard.map (·.toCardEntry))
            photo := card.photo
            droppedProperties :=
              (card.droppedBinary ++ vcard.filterMap NamedEntry.dropped).dedup.insertionSort (· ≤ ·) }
          card.photoTooLarge
      | .groupCard group => .groupCard group
      | .empty =>
        .failure "The card has no name, email address, phone number or organisation, so it was skipped."

end CardText

/-- `finish`. -/
def finish (card : CardBuilder) (file : VcardFile) : VcardFile :=
  match card.toCardText.outcome lib limits with
  | .failure reason => { file with failures := file.failures ++ [card.problem reason] }
  | .contact contact tooLarge =>
    { file with
      contacts := file.contacts ++ [contact]
      warnings := if tooLarge then
          file.warnings ++ [card.problem ("The photo is larger than " ++
            toString (limits.maxPhotoBytes / (1024 * 1024)) ++ " MB and was ignored. Photos are not imported.")]
        else file.warnings }
  | .groupCard group =>
    { file with
      groupCards := file.groupCards + 1
      groupCardsRead := if group.id.isSome ∨ group.name.isSome then file.groupCardsRead ++ [group]
        else file.groupCardsRead }

/-! ### The file -/

/-- Where the splitting of a file stands. -/
structure Framer where
  opened : Option CardBuilder := none
  file : VcardFile := {}
  total : ℕ := 0
  lineNo : ℕ := 0

namespace Framer

/-- A card that another one cuts off. -/
def cut (s : Framer) : List CardProblem :=
  match s.opened with
  | some unterminated => s.file.failures ++
      [unterminated.problem "The card has no END:VCARD before the next card begins, so it was skipped."]
  | none => s.file.failures

/-- What a line does: it begins a card, ends one, belongs to one, or stands between two. -/
def place (s : Framer) (line : Bytes) : Except ReadError Framer :=
  if isBegin line then
    if s.file.cards + 1 > limits.maxCards then .error (.tooManyCards limits.maxCards)
    else .ok { s with
      opened := some { ordinal := s.file.cards + 1, line := s.lineNo }
      file := { s.file with failures := s.cut, cards := s.file.cards + 1 } }
  else
    match s.opened with
    | none => .ok s
    | some card =>
      if isEnd line then .ok { s with opened := none, file := finish lib limits card s.file }
      else .ok { s with opened := some { card with toCardText := card.toCardText.pushLine limits line } }

/-- One line as it is read. -/
def step (s : Framer) (raw : Bytes) : Except ReadError Framer :=
  if s.total + raw.length > limits.maxFileBytes then .error (.fileTooLarge limits.maxFileBytes)
  else
    let line := trimEolBytes raw
    { s with total := s.total + raw.length, lineNo := s.lineNo + 1 }.place lib limits
      (if s.lineNo = 0 then stripBom line else line)

/-- The end of the file. -/
def close (s : Framer) : VcardFile :=
  match s.opened with
  | some truncated =>
    { s.file with
      failures := s.file.failures ++ [truncated.problem ("The file ends before this card's " ++
        "END:VCARD, so it was skipped. The export may be incomplete.")] }
  | none => s.file

end Framer

/-- `frame`. -/
def frame (content : Bytes) : Except ReadError VcardFile :=
  ((readUntil [] content).foldlM (Framer.step lib limits) {}).map Framer.close

/-- The contacts with one spelling for each category, the first that is seen, and the spellings. -/
def canonicaliseContacts (rt : Runtime) :
    List (String × String) → List FileContact → List (String × String) × List FileContact
  | spelling, [] => (spelling, [])
  | spelling, c :: cs =>
    let ids := canonicalIds rt spelling c.groupIds
    let rest := canonicaliseContacts rt ids.1 cs
    (rest.1, { c with groupIds := ids.2 } :: rest.2)

/-- `canonicalise_groups`. -/
def canonicaliseGroups (rt : Runtime) (file : VcardFile) : VcardFile :=
  let spelled := canonicaliseContacts rt [] file.contacts
  { file with
    contacts := spelled.2
    groups := (spelled.1.insertionSort fun a b => a.1.toList ≤ b.1.toList).map fun s =>
      { id := s.2
        name := s.2
        memberCount := asU32 ((file.contacts.flatMap fun c => c.groupIds).countP fun id => rt.toLowercase id = s.1) } }

/-- The byte-order mark of UTF-16, little endian or not. -/
def utf16Mark (raw : Bytes) : Option Bool :=
  if [0xFF, 0xFE].isPrefixOf raw then some true
  else if [0xFE, 0xFF].isPrefixOf raw then some false
  else none

/-- What `frame` is given: the file, or a transcoded one. -/
def content (raw : Bytes) : Bytes :=
  match utf16Mark raw with
  | some littleEndian => toUtf8 (lib.utf16 littleEndian raw)
  | none => raw

/-- `read_vcards`. -/
def readVcards (raw : Bytes) : Except ReadError VcardFile :=
  if (utf16Mark raw).isSome ∧ raw.length > limits.maxFileBytes then .error (.fileTooLarge limits.maxFileBytes)
  else (frame lib limits (content lib raw)).map (canonicaliseGroups lib.toRuntime)

end Mokosh.ContactSync.VcardBytes
