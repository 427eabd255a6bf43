import Mathlib.Algebra.NeZero
import Mokosh.Utils.Text

/-! # The client's address behind proxies

`utils/client_ip.rs`.  Headers are bytes; text is a list of characters.  The networks of the trusted
proxies come from a library: `contains` says which addresses are in one.

Each proxy of a chain appends the address that it was reached from to what the client sent (`forward`).
**`recorded_iff`**: the client is recorded with its own address exactly if the last header that it sent can
be read, or the last address in its headers that is not trusted happens to be its own.  A header with a byte
that is not ASCII is skipped together with what the proxies have appended to it: `chosen_address` is a
client that chooses its address.  A proxy may write what it likes as long as it is read as the address
(`Element`); `Element.dotted` says that an IPv4 address in dotted text is. -/

namespace Mokosh.ClientIp

open Text (isWhiteSpace trim_eq_self)

inductive IpAddr where
  | v4 (address : BitVec 32)
  | v6 (address : BitVec 128)
deriving DecidableEq

/-! ### Addresses as text

The parser of the standard library: each reader takes what it reads off the front of the text. -/

variable {α : Type}

def toDigit (radix : ℕ) (c : Char) : Option ℕ :=
  let digit :=
    if '0' ≤ c ∧ c ≤ '9' then some (c.toNat - '0'.toNat)
    else if 'a' ≤ c ∧ c ≤ 'z' then some (c.toNat - 'a'.toNat + 10)
    else if 'A' ≤ c ∧ c ≤ 'Z' then some (c.toNat - 'A'.toNat + 10)
    else none
  digit.filter (· < radix)

/-- The digits that the text starts with, and the rest. -/
def readDigits (radix : ℕ) : List Char → List ℕ × List Char
  | [] => ([], [])
  | c :: s =>
    match toDigit radix c with
    | some d => (d :: (readDigits radix s).1, (readDigits radix s).2)
    | none => ([], c :: s)

/-- The number whose digits to the base `radix` are `digits`. -/
def fromDigits (radix : ℕ) (digits : List ℕ) : ℕ := digits.foldl (fun n d => n * radix + d) 0

/-- A number below `bound` of at most `maxDigits` digits. -/
def readNumber (radix maxDigits bound : ℕ) (allowZeroPrefix : Bool) (s : List Char) :
    Option (ℕ × List Char) :=
  let digits := (readDigits radix s).1
  let number := fromDigits radix digits
  if digits.length > maxDigits ∨ digits = [] ∨ bound ≤ number then none
  else if ¬allowZeroPrefix ∧ s.head? = some '0' ∧ 1 < digits.length then none
  else some (number, (readDigits radix s).2)

def readGivenChar (c : Char) : List Char → Option (List Char)
  | [] => none
  | d :: s => if d = c then some s else none

/-- What `inner` reads, after a separator unless it comes first. -/
def readSeparator (sep : Char) (index : ℕ) (inner : List Char → Option (α × List Char))
    (s : List Char) : Option (α × List Char) :=
  if index = 0 then inner s else (readGivenChar sep s).bind inner

def readOctet (index : ℕ) : List Char → Option (ℕ × List Char) :=
  readSeparator '.' index (readNumber 10 3 256 false)

def readIpv4Addr (s : List Char) : Option (BitVec 32 × List Char) := do
  let (a, s) ← readOctet 0 s
  let (b, s) ← readOctet 1 s
  let (c, s) ← readOctet 2 s
  let (d, s) ← readOctet 3 s
  return (.ofNat 32 (fromDigits 256 [a, b, c, d]), s)

/-- At most `limit` groups of an IPv6 address, and whether the last two of them were written as an IPv4
address; `index` groups have been read before. -/
def readGroups : ℕ → ℕ → List Char → List ℕ × Bool × List Char
  | 0, _, s => ([], false, s)
  | limit + 1, index, s =>
    match if 0 < limit then readSeparator ':' index readIpv4Addr s else none with
    | some (address, s) => ([address.toNat / 65536, address.toNat % 65536], true, s)
    | none =>
      match readSeparator ':' index (readNumber 16 4 65536 true) s with
      | some (group, s) =>
        let (groups, ipv4, s) := readGroups limit (index + 1) s
        (group :: groups, ipv4, s)
      | none => ([], false, s)

def readIpv6Addr (s : List Char) : Option (BitVec 128 × List Char) :=
  let (head, headIpv4, s) := readGroups 8 0 s
  if head.length = 8 then some (.ofNat 128 (fromDigits 65536 head), s)
  else if headIpv4 then none
  else do
    let s ← readGivenChar ':' s
    let s ← readGivenChar ':' s
    let (tail, _, s) := readGroups (8 - (head.length + 1)) 0 s
    let zeros := List.replicate (8 - (head.length + tail.length)) 0
    return (.ofNat 128 (fromDigits 65536 (head ++ zeros ++ tail)), s)

def readIpAddr (s : List Char) : Option (IpAddr × List Char) :=
  ((readIpv4Addr s).map fun r => (.v4 r.1, r.2)).or ((readIpv6Addr s).map fun r => (.v6 r.1, r.2))

/-- `str::parse::<IpAddr>`: nothing may be left over. -/
def parseIpAddr (s : List Char) : Option IpAddr :=
  ((readIpAddr s).filter fun r => r.2.isEmpty).map Prod.fst

/-! ### Headers -/

/-- What a header may carry: no control characters but the tab. -/
def isHeaderByte (b : UInt8) : Bool := 32 ≤ b ∧ b ≠ 127 ∨ b = 9

def isVisibleAscii (b : UInt8) : Bool := 32 ≤ b ∧ b < 127 ∨ b = 9

structure HeaderValue where
  bytes : List UInt8
  valid : ∀ b ∈ bytes, isHeaderByte b = true

def toText (bytes : List UInt8) : List Char := bytes.map fun b => Char.ofNat b.toNat

/-- `HeaderValue::to_str`. -/
def HeaderValue.toStr (v : HeaderValue) : Option (List Char) :=
  if v.bytes.all isVisibleAscii then some (toText v.bytes) else none

/-- What stands in brackets, if the text starts with one. -/
def inBrackets : List Char → Option (List Char)
  | '[' :: rest => if ']' ∈ rest then some (rest.takeWhile (· ≠ ']')) else none
  | _ => none

/-- What stands before the last colon. -/
def beforePort (s : List Char) : Option (List Char) :=
  if ':' ∈ s then some (s.rdropWhile (· ≠ ':')).dropLast else none

def parseForwardedIp (element : List Char) : Option IpAddr :=
  (parseIpAddr element).or
    (((inBrackets element).bind parseIpAddr).or ((beforePort element).bind parseIpAddr))

section Extract

variable {Net : Type} (contains : Net → IpAddr → Bool)

def isTrusted (ip : IpAddr) (trusted : List Net) : Bool := trusted.any fun net => contains net ip

/-- `extract_client_ip`, with the values of the header `X-Forwarded-For`. -/
def extractClientIp (peer : IpAddr) (forwardedFor : List HeaderValue) (trusted : List Net) : IpAddr :=
  if isTrusted contains peer trusted then
    (forwardedFor.reverse.findSome? fun value => value.toStr.bind fun list =>
      (list.splitOn ',').reverse.findSome? fun element =>
        (parseForwardedIp (Text.trim element)).filter fun ip => !isTrusted contains ip trusted).getD peer
  else peer

end Extract

/-! ### What proxies append -/

/-- An element of the header, and the address that it is read as. -/
structure Element where
  ip : IpAddr
  bytes : List UInt8
  visible : ∀ b ∈ bytes, isVisibleAscii b = true
  single : ',' ∉ toText bytes
  names : parseForwardedIp (Text.trim (toText bytes)) = some ip

theorem isHeaderByte_of_isVisibleAscii {b : UInt8} (h : isVisibleAscii b = true) :
    isHeaderByte b = true := by
  unfold isVisibleAscii at h
  unfold isHeaderByte
  rw [decide_eq_true_iff] at h ⊢
  obtain ⟨h32, h127⟩ | h := h
  · exact .inl ⟨h32, fun h => absurd h127 (by rw [h]; decide)⟩
  · exact .inr h

def Element.value (e : Element) : HeaderValue :=
  ⟨e.bytes, fun b hb => isHeaderByte_of_isVisibleAscii (e.visible b hb)⟩

theorem isHeaderByte_comma : isHeaderByte 44 = true := by decide

/-- A comma, and the element. -/
def HeaderValue.append (v : HeaderValue) (e : Element) : HeaderValue :=
  ⟨v.bytes ++ 44 :: e.bytes, List.forall_mem_append.mpr
    ⟨v.valid, List.forall_mem_cons.mpr ⟨isHeaderByte_comma, e.value.valid⟩⟩⟩

/-- A proxy appends the address that it was reached from to the last header, or adds a header. -/
def forward (sent : List HeaderValue) (e : Element) : List HeaderValue :=
  match sent.getLast? with
  | some v => sent.dropLast ++ [v.append e]
  | none => [e.value]

/-! ### The walk -/

section Walk

variable {Net : Type} {contains : Net → IpAddr → Bool} {trusted : List Net} {peer : IpAddr}

/-- The addresses that the elements of a text are read as. -/
def addressesOf (list : List Char) : List IpAddr :=
  (list.splitOn ',').filterMap fun element => parseForwardedIp (Text.trim element)

/-- The addresses in the headers that can be read. -/
def addresses (forwardedFor : List HeaderValue) : List IpAddr :=
  forwardedFor.flatMap fun value => (value.toStr.map addressesOf).getD []

/-- The last address that is not trusted. -/
def lastUntrusted (contains : Net → IpAddr → Bool) (trusted : List Net) (ips : List IpAddr) :
    Option IpAddr := (ips.filter fun ip => !isTrusted contains ip trusted).getLast?

theorem lastUntrusted_append (l l' : List IpAddr) : lastUntrusted contains trusted (l ++ l') =
    (lastUntrusted contains trusted l').or (lastUntrusted contains trusted l) := by
  unfold lastUntrusted
  rw [List.filter_append, List.getLast?_append]

theorem walk_eq (list : List Char) :
    ((list.splitOn ',').reverse.findSome? fun element =>
      (parseForwardedIp (Text.trim element)).filter fun ip => !isTrusted contains ip trusted) =
    lastUntrusted contains trusted (addressesOf list) := by
  unfold lastUntrusted addressesOf
  rw [List.filter_filterMap, List.getLast?_filterMap]

theorem walk_headers_eq (forwardedFor : List HeaderValue) :
    (forwardedFor.reverse.findSome? fun value => value.toStr.bind fun list =>
      (list.splitOn ',').reverse.findSome? fun element =>
        (parseForwardedIp (Text.trim element)).filter fun ip => !isTrusted contains ip trusted) =
    lastUntrusted contains trusted (addresses forwardedFor) := by
  induction forwardedFor with
  | nil => rfl
  | cons value rest ih =>
      have hcons : addresses (value :: rest) =
          (value.toStr.map addressesOf).getD [] ++ addresses rest := rfl
      rw [hcons, lastUntrusted_append, ← ih, List.reverse_cons, List.findSome?_append,
        List.findSome?_singleton]
      cases value.toStr with
      | none => rfl
      | some list => exact congrArg _ (walk_eq list)

theorem extractClientIp_eq (hpeer : isTrusted contains peer trusted = true)
    (forwardedFor : List HeaderValue) : extractClientIp contains peer forwardedFor trusted =
      (lastUntrusted contains trusted (addresses forwardedFor)).getD peer := by
  unfold extractClientIp
  rw [if_pos hpeer, walk_headers_eq]

/-! ### Behind a chain of proxies -/

/-- The last header can be read, if there is one. -/
def LastReadable (sent : List HeaderValue) : Prop := ∀ v ∈ sent.getLast?, v.toStr.isSome = true

instance (sent : List HeaderValue) : Decidable (LastReadable sent) :=
  inferInstanceAs (Decidable (∀ v ∈ sent.getLast?, v.toStr.isSome = true))

theorem toText_append (bytes bytes' : List UInt8) :
    toText (bytes ++ 44 :: bytes') = toText bytes ++ ',' :: toText bytes' := by
  unfold toText
  rw [List.map_append, List.map_cons]
  rfl

theorem Element.toStr_value (e : Element) : e.value.toStr = some (toText e.bytes) :=
  if_pos (List.all_eq_true.mpr e.visible)

/-- A header can be read exactly as far as the client's part of it can. -/
theorem toStr_append (v : HeaderValue) (e : Element) :
    (v.append e).toStr = v.toStr.map fun list => list ++ ',' :: toText e.bytes := by
  have he : e.bytes.all isVisibleAscii = true := List.all_eq_true.mpr e.visible
  have hcomma : isVisibleAscii 44 = true := by decide
  unfold HeaderValue.toStr HeaderValue.append
  dsimp only
  rw [List.all_append, List.all_cons, he, hcomma, Bool.and_true, Bool.and_true]
  split
  · rw [toText_append, Option.map_some]
  · rfl

theorem addressesOf_element (e : Element) : addressesOf (toText e.bytes) = [e.ip] := by
  unfold addressesOf
  rw [List.splitOn_eq_singleton e.single]
  simp [e.names]

theorem addressesOf_append (list : List Char) (e : Element) :
    addressesOf (list ++ ',' :: toText e.bytes) = addressesOf list ++ [e.ip] := by
  rw [← addressesOf_element e]
  unfold addressesOf
  rw [List.splitOn_append_cons_self, List.filterMap_append]

theorem addresses_append (l l' : List HeaderValue) :
    addresses (l ++ l') = addresses l ++ addresses l' := List.flatMap_append

theorem addresses_singleton (v : HeaderValue) :
    addresses [v] = (v.toStr.map addressesOf).getD [] := List.flatMap_singleton _ _

theorem forward_cases (sent : List HeaderValue) (e : Element) :
    sent = [] ∧ forward sent e = [e.value] ∨
      ∃ earlier v, sent = earlier ++ [v] ∧ forward sent e = earlier ++ [v.append e] := by
  unfold forward
  cases hlast : sent.getLast? with
  | none => exact .inl ⟨List.getLast?_eq_none_iff.mp hlast, rfl⟩
  | some v =>
      refine .inr ⟨sent.dropLast, v, ?_, rfl⟩
      exact (List.dropLast_append_getLast? v hlast).symm

theorem lastReadable_append_singleton (earlier : List HeaderValue) (v : HeaderValue) :
    LastReadable (earlier ++ [v]) ↔ v.toStr.isSome = true := by
  unfold LastReadable
  rw [List.getLast?_append, List.getLast?_singleton, Option.some_or]
  simp

/-- Behind a header that can be read, a proxy is heard. -/
theorem forward_readable {sent : List HeaderValue} (h : LastReadable sent) (e : Element) :
    LastReadable (forward sent e) ∧ addresses (forward sent e) = addresses sent ++ [e.ip] := by
  obtain ⟨rfl, hf⟩ | ⟨earlier, v, rfl, hf⟩ := forward_cases sent e
  · rw [hf, addresses_singleton, e.toStr_value, Option.map_some, addressesOf_element]
    refine ⟨(lastReadable_append_singleton [] _).mpr ?_, rfl⟩
    rw [e.toStr_value, Option.isSome_some]
  · rw [lastReadable_append_singleton] at h
    obtain ⟨list, hlist⟩ := Option.isSome_iff_exists.mp h
    have happend := toStr_append v e
    rw [hlist, Option.map_some] at happend
    rw [hf, lastReadable_append_singleton, addresses_append, addresses_append, addresses_singleton,
      addresses_singleton, happend, hlist]
    refine ⟨rfl, ?_⟩
    rw [Option.map_some, Option.map_some, Option.getD_some, Option.getD_some, addressesOf_append,
      List.append_assoc]

/-- Behind one that cannot, it is not. -/
theorem forward_unreadable {sent : List HeaderValue} (h : ¬LastReadable sent) (e : Element) :
    ¬LastReadable (forward sent e) ∧ addresses (forward sent e) = addresses sent := by
  obtain ⟨rfl, -⟩ | ⟨earlier, v, rfl, hf⟩ := forward_cases sent e
  · exact absurd (by simp [LastReadable]) h
  · rw [lastReadable_append_singleton, Option.not_isSome_iff_eq_none] at h
    have happend := toStr_append v e
    rw [h, Option.map_none] at happend
    rw [hf, lastReadable_append_singleton, addresses_append, addresses_append, addresses_singleton,
      addresses_singleton, happend, h]
    exact ⟨Bool.noConfusion, rfl⟩

theorem addresses_forwarded_readable {sent : List HeaderValue} (h : LastReadable sent)
    (hops : List Element) :
    addresses (hops.foldl forward sent) = addresses sent ++ hops.map Element.ip := by
  induction hops generalizing sent with
  | nil => exact (List.append_nil _).symm
  | cons e hops ih =>
      obtain ⟨hreadable, hsent⟩ := forward_readable h e
      rw [List.foldl_cons, ih hreadable, hsent, List.append_assoc]
      rfl

theorem addresses_forwarded_unreadable {sent : List HeaderValue} (h : ¬LastReadable sent)
    (hops : List Element) : addresses (hops.foldl forward sent) = addresses sent := by
  induction hops generalizing sent with
  | nil => rfl
  | cons e hops ih =>
      obtain ⟨hunreadable, hsent⟩ := forward_unreadable h e
      rw [List.foldl_cons, ih hunreadable, hsent]

/-- The hops after the client's are skipped. -/
theorem lastUntrusted_hops {client : Element} {hops : List Element}
    (hclient : isTrusted contains client.ip trusted = false)
    (hhops : ∀ e ∈ hops, isTrusted contains e.ip trusted = true) (sent : List IpAddr) :
    lastUntrusted contains trusted (sent ++ (client :: hops).map Element.ip) = some client.ip := by
  have hskipped : (hops.map Element.ip).filter (fun ip => !isTrusted contains ip trusted) = [] := by
    rw [List.filter_eq_nil_iff]
    rintro ip hip
    obtain ⟨e, he, rfl⟩ := List.mem_map.mp hip
    simp [hhops e he]
  have hown : lastUntrusted contains trusted ((client :: hops).map Element.ip) = some client.ip := by
    unfold lastUntrusted
    rw [List.map_cons, List.filter_cons_of_pos (by simp [hclient]), hskipped]
    rfl
  rw [lastUntrusted_append, hown, Option.some_or]

theorem recorded_iff (hpeer : isTrusted contains peer trusted = true) {client : Element}
    (hclient : isTrusted contains client.ip trusted = false) {hops : List Element}
    (hhops : ∀ e ∈ hops, isTrusted contains e.ip trusted = true) (sent : List HeaderValue) :
    extractClientIp contains peer ((client :: hops).foldl forward sent) trusted = client.ip ↔
      LastReadable sent ∨ lastUntrusted contains trusted (addresses sent) = some client.ip := by
  rw [extractClientIp_eq hpeer]
  by_cases h : LastReadable sent
  · rw [addresses_forwarded_readable h, lastUntrusted_hops hclient hhops, Option.getD_some]
    exact iff_of_true rfl (.inl h)
  · rw [addresses_forwarded_unreadable h, or_iff_right h]
    cases hown : lastUntrusted contains trusted (addresses sent) with
    | some ip => rw [Option.getD_some, Option.some.injEq]
    | none =>
        refine iff_of_false (fun hsame => ?_) (Option.some_ne_none client.ip).symm
        rw [Option.getD_none] at hsame
        rw [hsame, hclient] at hpeer
        cases hpeer

end Walk

/-! ### IPv4 addresses as text -/

/-- An octet in decimal. -/
def octet (n : Fin 256) : List Char := Nat.toDigits 10 n

def dotted (a b c d : Fin 256) : List Char :=
  octet a ++ '.' :: (octet b ++ '.' :: (octet c ++ '.' :: octet d))

def isAddressChar (c : Char) : Bool := c ∈ "0123456789.".toList

theorem octet_chars (n : Fin 256) : (octet n).all (fun c => (toDigit 10 c).isSome && isAddressChar c) =
    true := by
  revert n
  decide +kernel

/-- The digits of an octet, as numbers. -/
def octetDigits (n : Fin 256) : List ℕ := (octet n).filterMap (toDigit 10)

theorem octet_value (n : Fin 256) :
    octet n ≠ [] ∧ fromDigits 10 (octetDigits n) = n ∧
      ¬((octetDigits n).length > 3 ∨ octetDigits n = []) ∧
      ¬((octet n).head? = some '0' ∧ 1 < (octetDigits n).length) := by
  revert n
  decide +kernel

theorem readDigits_append {radix : ℕ} {digits rest : List Char}
    (h : ∀ c ∈ digits, (toDigit radix c).isSome = true)
    (hrest : ∀ c ∈ rest.head?, toDigit radix c = none) :
    readDigits radix (digits ++ rest) = (digits.filterMap (toDigit radix), rest) := by
  induction digits with
  | nil =>
      cases rest with
      | nil => rfl
      | cons c rest =>
          have hc := hrest c rfl
          simp [readDigits, hc]
  | cons c digits ih =>
      obtain ⟨hc, hdigits⟩ := List.forall_mem_cons.mp h
      obtain ⟨d, hd⟩ := Option.isSome_iff_exists.mp hc
      simp [readDigits, hd, ih hdigits]

theorem readNumber_octet (n : Fin 256) {rest : List Char}
    (hrest : ∀ c ∈ rest.head?, toDigit 10 c = none) :
    readNumber 10 3 256 false (octet n ++ rest) = some ((n : ℕ), rest) := by
  obtain ⟨hne, hvalue, hlength, hzero⟩ := octet_value n
  have hdigit : ∀ c ∈ octet n, (toDigit 10 c).isSome = true := fun c hc =>
    (Bool.and_eq_true_iff.mp (List.all_eq_true.mp (octet_chars n) c hc)).1
  have hread : readDigits 10 (octet n ++ rest) = (octetDigits n, rest) :=
    readDigits_append hdigit hrest
  have hbound : ¬256 ≤ (n : ℕ) := by omega
  unfold readNumber
  rw [hread]
  dsimp only
  rw [hvalue, if_neg (by tauto), if_neg (by rw [List.head?_append_of_ne_nil _ hne]; tauto)]

theorem readOctet_dot {index : ℕ} (hindex : index ≠ 0) (n : Fin 256) {rest : List Char}
    (hrest : ∀ c ∈ rest.head?, toDigit 10 c = none) :
    readOctet index ('.' :: (octet n ++ rest)) = some ((n : ℕ), rest) := by
  unfold readOctet readSeparator
  rw [if_neg hindex]
  exact readNumber_octet n hrest

theorem toDigit_dot : toDigit 10 '.' = none := by decide

/-- What the parser reads dotted text as. -/
def dottedAddress (a b c d : Fin 256) : IpAddr := .v4 (.ofNat 32 (fromDigits 256 [a, b, c, d]))

theorem parseIpAddr_dotted (a b c d : Fin 256) :
    parseIpAddr (dotted a b c d) = some (dottedAddress a b c d) := by
  have hdot : ∀ s : List Char, ∀ c ∈ ('.' :: s).head?, toDigit 10 c = none := by
    rintro s c hc
    cases hc
    exact toDigit_dot
  have ha : readOctet 0 (dotted a b c d) = _ :=
    readNumber_octet a (hdot (octet b ++ '.' :: (octet c ++ '.' :: octet d)))
  have hb := readOctet_dot one_ne_zero b (hdot (octet c ++ '.' :: octet d))
  have hc := readOctet_dot two_ne_zero c (hdot (octet d))
  have hend : ∀ c ∈ ([] : List Char).head?, toDigit 10 c = none := by simp
  have hd := readOctet_dot three_ne_zero d hend
  rw [List.append_nil] at hd
  have hread : readIpv4Addr (dotted a b c d) = some (.ofNat 32 (fromDigits 256 [a, b, c, d]), []) := by
    unfold readIpv4Addr
    rw [ha]
    dsimp only [Option.bind_eq_bind, Option.bind_some]
    rw [hb]
    dsimp only [Option.bind_some]
    rw [hc]
    dsimp only [Option.bind_some]
    rw [hd]
    rfl
  unfold parseIpAddr readIpAddr
  rw [hread]
  rfl

theorem dotted_chars (a b c d : Fin 256) : ∀ x ∈ dotted a b c d, isAddressChar x = true := by
  have hoctet : ∀ n : Fin 256, ∀ x ∈ octet n, isAddressChar x = true := fun n x hx =>
    (Bool.and_eq_true_iff.mp (List.all_eq_true.mp (octet_chars n) x hx)).2
  have hdot : isAddressChar '.' = true := by decide
  intro x hx
  unfold dotted at hx
  simp only [List.mem_append, List.mem_cons] at hx
  obtain hx | rfl | hx | rfl | hx | rfl | hx := hx
  · exact hoctet a x hx
  · exact hdot
  · exact hoctet b x hx
  · exact hdot
  · exact hoctet c x hx
  · exact hdot
  · exact hoctet d x hx

theorem of_isAddressChar {c : Char} (h : isAddressChar c = true) :
    isVisibleAscii (UInt8.ofNat c.toNat) = true ∧ Char.ofNat (UInt8.ofNat c.toNat).toNat = c ∧
      c ≠ ',' ∧ isWhiteSpace c = false := by
  have hall : "0123456789.".toList.all (fun c => isVisibleAscii (UInt8.ofNat c.toNat) ∧
      Char.ofNat (UInt8.ofNat c.toNat).toNat = c ∧ c ≠ ',' ∧ isWhiteSpace c = false) = true := by
    decide +kernel
  exact of_decide_eq_true (List.all_eq_true.mp hall c (of_decide_eq_true h))

def dottedBytes (a b c d : Fin 256) : List UInt8 := (dotted a b c d).map fun x => UInt8.ofNat x.toNat

theorem toText_dotted (a b c d : Fin 256) : toText (dottedBytes a b c d) = dotted a b c d := by
  unfold toText dottedBytes
  rw [List.map_map]
  refine (List.map_congr_left fun x hx => ?_).trans (List.map_id _)
  exact (of_isAddressChar (dotted_chars a b c d x hx)).2.1

theorem dotted_visible (a b c d : Fin 256) : ∀ x ∈ dottedBytes a b c d, isVisibleAscii x = true := by
  intro x hx
  obtain ⟨y, hy, rfl⟩ := List.mem_map.mp hx
  exact (of_isAddressChar (dotted_chars a b c d y hy)).1

theorem dotted_single (a b c d : Fin 256) : ',' ∉ toText (dottedBytes a b c d) := by
  rw [toText_dotted]
  intro h
  exact (of_isAddressChar (dotted_chars a b c d ',' h)).2.2.1 rfl

theorem dotted_names (a b c d : Fin 256) :
    parseForwardedIp (Text.trim (toText (dottedBytes a b c d))) = some (dottedAddress a b c d) := by
  rw [toText_dotted, trim_eq_self fun x hx => (of_isAddressChar (dotted_chars a b c d x hx)).2.2.2]
  unfold parseForwardedIp
  rw [parseIpAddr_dotted, Option.some_or]

/-- The element that says an IPv4 address in dotted text. -/
def Element.dotted (a b c d : Fin 256) : Element :=
  { ip := dottedAddress a b c d, bytes := dottedBytes a b c d, visible := dotted_visible a b c d,
    single := dotted_single a b c d, names := dotted_names a b c d }

/-! ### A header that cannot be read -/

structure Ipv4Network where
  address : BitVec 32
  length : ℕ

def Ipv4Network.contains (net : Ipv4Network) : IpAddr → Bool
  | .v4 address => address >>> (32 - net.length) = net.address >>> (32 - net.length)
  | .v6 _ => false

/-- 10.0.0.0/8. -/
def privateNet : Ipv4Network := { address := .ofNat 32 (fromDigits 256 [10, 0, 0, 0]), length := 8 }

theorem header_valid : ∀ b ∈ [49, 46, 50, 46, 51, 46, 52], isHeaderByte b = true := by decide +kernel

/-- "1.2.3.4". -/
def spoofed : HeaderValue := ⟨[49, 46, 50, 46, 51, 46, 52], header_valid⟩

theorem obscure_valid : ∀ b ∈ [233], isHeaderByte b = true := by decide +kernel

/-- A byte that is not ASCII. -/
def obscure : HeaderValue := ⟨[233], obscure_valid⟩

theorem recorded_twoProxies :
    extractClientIp Ipv4Network.contains (dottedAddress 10 0 0 1)
      ([Element.dotted 203 0 113 7, Element.dotted 10 0 0 9].foldl forward [obscure, spoofed])
      [privateNet] = dottedAddress 203 0 113 7 :=
  (recorded_iff (by decide +kernel) (by decide +kernel) (by decide +kernel) _).mpr
    (.inl (by decide +kernel))

/-- A client chooses its address: the proxy appends to a header that is then skipped as a whole. -/
theorem chosen_address : ¬ ∀ (trusted : List Ipv4Network) (peer : IpAddr) (client : Element)
    (hops : List Element) (sent : List HeaderValue),
    isTrusted Ipv4Network.contains peer trusted = true →
    isTrusted Ipv4Network.contains client.ip trusted = false →
    (∀ e ∈ hops, isTrusted Ipv4Network.contains e.ip trusted = true) →
      extractClientIp Ipv4Network.contains peer ((client :: hops).foldl forward sent) trusted =
        client.ip := by
  intro h
  have hrecorded := h [privateNet] (dottedAddress 10 0 0 1) (Element.dotted 203 0 113 7) []
    [spoofed, obscure] (by decide +kernel) (by decide +kernel) (by decide)
  have hspoofed : extractClientIp Ipv4Network.contains (dottedAddress 10 0 0 1)
      ([Element.dotted 203 0 113 7].foldl forward [spoofed, obscure]) [privateNet] =
      dottedAddress 1 2 3 4 := by
    decide +kernel
  rw [hspoofed] at hrecorded
  revert hrecorded
  decide +kernel

end Mokosh.ClientIp
