import Mokosh.Lib.Bits

/-! # Base32 secrets

`base32_encode` and `base32_decode` of `utils/totp.rs`.  Both run over a `u32`, from whose top the old bits fall, and
the number of bits that are pending at its low end: between two steps these are the bits that have come in and not gone
out (`bits_encodeBytes`, `digits_decodeChars`).

**`round_trip`**: what was encoded decodes to itself, whatever the case of its letters and whatever white space and
`=` stand in it; and a text that is accepted encodes back to itself, up to bits at its end that are not in any byte. -/

namespace Mokosh.Totp

/-! ### The two functions -/

inductive TotpError where
  | base32
deriving DecidableEq

/-- `ALPHABET`. -/
def alphabet : List Char := "ABCDEFGHIJKLMNOPQRSTUVWXYZ234567".toList

def symbol (idx : UInt32) : Char := alphabet.getD idx.toNat '\x00'

/-- The inner loop of `base32_encode`: what it pushes, and the bits that are left. -/
def flush (buf : UInt32) : ℕ → List Char × ℕ
  | bits + 5 =>
    let (out, left) := flush buf bits
    (symbol (buf >>> .ofNat bits &&& 0x1f) :: out, left)
  | bits => ([], bits)

def encodeBytes (buf : UInt32) (bits : ℕ) : List UInt8 → List Char
  | [] => if 0 < bits then [symbol (buf <<< .ofNat (5 - bits) &&& 0x1f)] else []
  | b :: bytes =>
    let buf := buf <<< 8 ||| b.toUInt32
    let (out, bits) := flush buf (bits + 8)
    out ++ encodeBytes buf bits bytes

def base32Encode (bytes : List UInt8) : List Char := encodeBytes 0 0 bytes

/-- `char::is_ascii_whitespace`. -/
def isAsciiWhitespace (c : Char) : Bool := c = ' ' ∨ c = '\t' ∨ c = '\n' ∨ c = '\x0c' ∨ c = '\r'

def isIgnored (c : Char) : Bool := isAsciiWhitespace c || c = '='

def value (c : Char) : Except TotpError UInt32 :=
  let upper := c.toUpper
  if 'A' ≤ upper ∧ upper ≤ 'Z' then .ok (upper.val - 'A'.val)
  else if '2' ≤ upper ∧ upper ≤ '7' then .ok (26 + c.val - '2'.val)
  else .error .base32

def decodeChars (buf : UInt32) (bits : ℕ) : List Char → Except TotpError (List UInt8)
  | [] => .ok []
  | c :: cs => do
    let v ← value c
    let buf := buf <<< 5 ||| v
    let bits := bits + 5
    if 8 ≤ bits then
      let bits := bits - 8
      let out ← decodeChars buf bits cs
      return (buf >>> .ofNat bits &&& 0xff).toUInt8 :: out
    else decodeChars buf bits cs

def base32Decode (s : List Char) : Except TotpError (List UInt8) :=
  decodeChars 0 0 (s.filter fun c => !isIgnored c)

example : base32Encode [0x1a, 0x2b, 0x3c, 0x4d, 0x5e] = "DIVTYTK6".toList := by decide

/-! ### The bits of a text -/

/-- What is left of a text: its letters and digits, in upper case. -/
def canonical (s : List Char) : List Char := (s.filter fun c => !isIgnored c).map Char.toUpper

/-- Five bits for each character. -/
def textBits (cs : List Char) : List Bool := cs.flatMap fun c => bits 5 (alphabet.idxOf c)

/-- Eight bits for each byte. -/
def byteBits (bytes : List UInt8) : List Bool := bytes.flatMap fun b => bits 8 b.toNat

theorem textBits_append (cs cs' : List Char) : textBits (cs ++ cs') = textBits cs ++ textBits cs' :=
  List.flatMap_append

theorem textBits_cons (c : Char) (cs : List Char) : textBits (c :: cs) = bits 5 (alphabet.idxOf c) ++ textBits cs :=
  List.flatMap_cons

theorem byteBits_cons (b : UInt8) (bytes : List UInt8) : byteBits (b :: bytes) = bits 8 b.toNat ++ byteBits bytes :=
  List.flatMap_cons

theorem symbol_mem {idx : UInt32} (h : idx.toNat < 32) : symbol idx ∈ alphabet := by
  have hall : ∀ i < 32, alphabet.getD i '\x00' ∈ alphabet := by decide
  exact hall _ h

theorem idxOf_symbol {idx : UInt32} (h : idx.toNat < 32) : alphabet.idxOf (symbol idx) = idx.toNat := by
  have hall : ∀ i < 32, alphabet.idxOf (alphabet.getD i '\x00') = i := by decide
  exact hall _ h

theorem toUpper_of_mem {c : Char} (h : c ∈ alphabet) : c.toUpper = c := by
  have hall : alphabet.all (fun c => c.toUpper = c) = true := by decide
  exact of_decide_eq_true (List.all_eq_true.mp hall c h)

/-- The letters are the first 26 of the alphabet. -/
theorem letter_place {c : Char} (h : 'A' ≤ c ∧ c ≤ 'Z') : c ∈ alphabet ∧ alphabet.idxOf c = c.toNat - 65 := by
  have hall : ∀ i < 26, Char.ofNat (65 + i) ∈ alphabet ∧ alphabet.idxOf (Char.ofNat (65 + i)) = i := by decide
  have hlow : 65 ≤ c.toNat := h.1
  have hhigh : c.toNat ≤ 90 := h.2
  have hplace := hall (c.toNat - 65) (by omega)
  rwa [Nat.add_sub_cancel' hlow, Char.ofNat_toNat] at hplace

/-- The digits follow the letters. -/
theorem digit_place {c : Char} (h : '2' ≤ c ∧ c ≤ '7') : c ∈ alphabet ∧ alphabet.idxOf c = 26 + (c.toNat - 50) := by
  have hall : ∀ i < 6, Char.ofNat (50 + i) ∈ alphabet ∧ alphabet.idxOf (Char.ofNat (50 + i)) = 26 + i := by decide
  have hlow : 50 ≤ c.toNat := h.1
  have hhigh : c.toNat ≤ 55 := h.2
  have hplace := hall (c.toNat - 50) (by omega)
  rwa [Nat.add_sub_cancel' hlow, Char.ofNat_toNat] at hplace

/-- Upper case makes no digits. -/
theorem toUpper_eq_self_of_digit {c : Char} (h : '2' ≤ c.toUpper ∧ c.toUpper ≤ '7') : c.toUpper = c := by
  have hhigh : c.toUpper.val.toNat ≤ 55 := h.2
  unfold Char.toUpper at hhigh ⊢
  split
  · next hlower =>
      rw [dif_pos hlower] at hhigh
      have hlow : 97 ≤ c.val.toNat := hlower.1
      have hup : c.val.toNat ≤ 122 := hlower.2
      have hoffset : ('A'.val - 'a'.val).toNat = 4294967264 := by decide
      rw [UInt32.toNat_add, hoffset] at hhigh
      omega
  · rfl

/-- A character has the value that is its place in the alphabet. -/
theorem value_eq_ok_iff {c : Char} {v : UInt32} :
    value c = .ok v ↔ c.toUpper ∈ alphabet ∧ v.toNat = alphabet.idxOf c.toUpper := by
  unfold value
  dsimp only
  split
  · next hletter =>
      obtain ⟨hmem, hidx⟩ := letter_place hletter
      have hlow : 'A'.val ≤ c.toUpper.val := hletter.1
      have hval : (c.toUpper.val - 'A'.val).toNat = c.toUpper.toNat - 65 := UInt32.toNat_sub_of_le _ _ hlow
      rw [Except.ok.injEq, hidx, ← hval]
      exact ⟨fun h => ⟨hmem, by rw [h]⟩, fun h => UInt32.toNat_inj.mp h.2.symm⟩
  · next hletter =>
      split
      · next hdigit =>
          obtain ⟨hmem, hidx⟩ := digit_place hdigit
          have hlow : 50 ≤ c.toUpper.toNat := hdigit.1
          have hhigh : c.toUpper.toNat ≤ 55 := hdigit.2
          rw [toUpper_eq_self_of_digit hdigit] at hmem hidx hlow hhigh ⊢
          have hval : (26 + c.val - '2'.val).toNat = 26 + (c.toNat - 50) := by
            have hc : c.val.toNat = c.toNat := rfl
            have hadd : (26 + c.val).toNat = 26 + c.toNat := by
              rw [UInt32.toNat_add, hc]
              exact Nat.mod_eq_of_lt (by change 26 + c.toNat < 2 ^ 32; omega)
            have hle : '2'.val ≤ 26 + c.val := by
              rw [UInt32.le_iff_toNat_le, hadd]
              change 50 ≤ 26 + c.toNat
              omega
            rw [UInt32.toNat_sub_of_le _ _ hle, hadd]
            change 26 + c.toNat - 50 = _
            omega
          rw [Except.ok.injEq, hidx, ← hval]
          exact ⟨fun h => ⟨hmem, by rw [h]⟩, fun h => UInt32.toNat_inj.mp h.2.symm⟩
      · next hdigit =>
          have hall : alphabet.all (fun c => 'A' ≤ c ∧ c ≤ 'Z' ∨ '2' ≤ c ∧ c ≤ '7') = true := by decide
          refine ⟨fun h => ?_, fun h => ?_⟩
          · cases h
          · exact ((of_decide_eq_true (List.all_eq_true.mp hall _ h.1)).elim hletter hdigit).elim

theorem isIgnored_of_mem {c : Char} (h : c.toUpper ∈ alphabet) : isIgnored c = false := by
  have hall : [' ', '\t', '\n', '\x0c', '\r', '='].all (fun c => c.toUpper ∉ alphabet) = true := by decide
  rw [Bool.eq_false_iff]
  intro hignored
  refine of_decide_eq_true (List.all_eq_true.mp hall c ?_) h
  simpa [isIgnored, isAsciiWhitespace, or_assoc] using hignored

/-! ### The register -/

theorem toNat_mask_five (x : UInt32) : (x &&& 0x1f).toNat = x.toNat % 2 ^ 5 := by
  rw [UInt32.toNat_and]
  exact Nat.and_two_pow_sub_one_eq_mod x.toNat 5

theorem toNat_mask_eight (x : UInt32) : (x &&& 0xff).toUInt8.toNat = x.toNat % 2 ^ 8 := by
  rw [UInt32.toNat_toUInt8, UInt32.toNat_and]
  change (x.toNat &&& 2 ^ 8 - 1) % 2 ^ 8 = _
  rw [Nat.and_two_pow_sub_one_eq_mod, Nat.mod_mod]

theorem toNat_shiftLeft (buf : UInt32) {w : ℕ} (hw : w < 32) :
    (buf <<< UInt32.ofNat w).toNat = (buf.toNat <<< w) % 2 ^ 32 := by
  rw [UInt32.toNat_shiftLeft]
  simp [Nat.mod_eq_of_lt hw]

/-- The lowest bits of the register, once a digit was shifted in. -/
theorem bits_push {w n : ℕ} {buf d : UInt32} (hw : w < 32) (hn : n + w ≤ 32) (hd : d.toNat < 2 ^ w) :
    bits (n + w) (buf <<< .ofNat w ||| d).toNat = bits n buf.toNat ++ bits w d.toNat := by
  have hnat : (buf <<< .ofNat w ||| d).toNat = (buf.toNat <<< w ||| d.toNat) % 2 ^ 32 := by
    rw [UInt32.toNat_or, toNat_shiftLeft buf hw, Nat.or_mod_two_pow, Nat.mod_eq_of_lt d.toNat_lt]
  rw [hnat, bits_mod_two_pow hn, bits_shiftLeft_lor hd]

/-- The digit above the lowest `n` bits. -/
theorem bits_pop {w n : ℕ} (buf : UInt32) (hn : n < 32) :
    bits (w + n) buf.toNat = bits w ((buf >>> .ofNat n).toNat % 2 ^ w) ++ bits n buf.toNat := by
  have hnat : (buf >>> UInt32.ofNat n).toNat = buf.toNat >>> n := by
    rw [UInt32.toNat_shiftRight]
    simp [Nat.mod_eq_of_lt hn]
  rw [bits_mod_two_pow le_rfl, hnat, bits_add]

/-! ### base32_encode -/

theorem flush_spec (buf : UInt32) {n : ℕ} (hn : n ≤ 32) :
    (flush buf n).2 < 5 ∧ (∀ c ∈ (flush buf n).1, c ∈ alphabet) ∧
      textBits (flush buf n).1 ++ bits (flush buf n).2 buf.toNat = bits n buf.toNat := by
  fun_induction flush buf n with
  | case1 n out left hflush ih =>
      rw [hflush] at ih
      obtain ⟨hleft, hout, hbits⟩ := ih (by omega)
      have hidx : (buf >>> UInt32.ofNat n &&& 0x1f).toNat < 32 := by
        rw [toNat_mask_five]
        exact Nat.mod_lt _ (by decide)
      refine ⟨hleft, ?_, ?_⟩
      · intro c hc
        rcases List.mem_cons.mp hc with rfl | hc
        · exact symbol_mem hidx
        · exact hout c hc
      · have hpop := bits_pop (w := 5) (n := n) buf (by omega)
        rw [Nat.add_comm] at hpop
        rw [textBits_cons, idxOf_symbol hidx, toNat_mask_five, List.append_assoc, hbits]
        exact hpop.symm
  | case2 n hlt =>
      have hlt : n < 5 := by
        by_contra hge
        exact hlt (n - 5) (by omega)
      exact ⟨hlt, fun c hc => absurd hc List.not_mem_nil, rfl⟩

theorem encodeBytes_spec (bytes : List UInt8) (buf : UInt32) {n : ℕ} (hn : n < 5) :
    (∀ c ∈ encodeBytes buf n bytes, c ∈ alphabet) ∧ ∃ fill < 5,
      textBits (encodeBytes buf n bytes) = bits n buf.toNat ++ byteBits bytes ++ List.replicate fill false := by
  induction bytes generalizing buf n with
  | nil =>
      unfold encodeBytes
      split
      · next hpos =>
          have hidx : (buf <<< UInt32.ofNat (5 - n) &&& 0x1f).toNat < 32 := by
            rw [toNat_mask_five]
            exact Nat.mod_lt _ (by decide)
          have hshift : bits 5 (buf <<< UInt32.ofNat (5 - n)).toNat =
              bits n buf.toNat ++ List.replicate (5 - n) false := by
            have hfive : n + (5 - n) = 5 := by omega
            have hzeros := bits_shiftLeft n (5 - n) buf.toNat
            rw [hfive] at hzeros
            rw [toNat_shiftLeft buf (by omega), bits_mod_two_pow (by decide), hzeros]
          refine ⟨fun c hc => List.mem_singleton.mp hc ▸ symbol_mem hidx, 5 - n, by omega, ?_⟩
          rw [textBits_cons, idxOf_symbol hidx, toNat_mask_five, bits_mod_two_pow le_rfl, hshift]
          simp [textBits, byteBits]
      · next hpos =>
          obtain rfl : n = 0 := by omega
          exact ⟨fun c hc => absurd hc List.not_mem_nil, 0, by decide, rfl⟩
  | cons b bytes ih =>
      have hpush : bits (n + 8) (buf <<< 8 ||| b.toUInt32).toNat = bits n buf.toNat ++ bits 8 b.toNat :=
        bits_push (by decide) (by omega) b.toNat_lt
      obtain ⟨hleft, hout, hbits⟩ := flush_spec (buf <<< 8 ||| b.toUInt32) (n := n + 8) (by omega)
      obtain ⟨hrest, fill, hfill, hfilled⟩ := ih (buf <<< 8 ||| b.toUInt32) hleft
      unfold encodeBytes
      refine ⟨fun c hc => (List.mem_append.mp hc).elim (hout c) (hrest c), fill, hfill, ?_⟩
      rw [textBits_append, hfilled, byteBits_cons, ← List.append_assoc, ← List.append_assoc, hbits, hpush]
      simp only [List.append_assoc]

/-! ### base32_decode -/

theorem decodeChars_ok {cs : List Char} (h : ∀ c ∈ cs, c.toUpper ∈ alphabet) (buf : UInt32) (n : ℕ) :
    ∃ out, decodeChars buf n cs = .ok out := by
  induction cs generalizing buf n with
  | nil => exact ⟨[], rfl⟩
  | cons c cs ih =>
      have hcs : ∀ c ∈ cs, c.toUpper ∈ alphabet := fun c hc => h c (List.mem_cons_of_mem _ hc)
      have hlt : alphabet.idxOf c.toUpper < 32 := List.idxOf_lt_length_of_mem (h c List.mem_cons_self)
      have hvalue : value c = .ok (.ofNat (alphabet.idxOf c.toUpper)) := by
        refine value_eq_ok_iff.mpr ⟨h c List.mem_cons_self, ?_⟩
        exact UInt32.toNat_ofNat_of_lt' (hlt.trans (by decide))
      unfold decodeChars
      rw [hvalue]
      dsimp only [bind, Except.bind]
      split
      · obtain ⟨out, hout⟩ := ih hcs (buf <<< 5 ||| .ofNat (alphabet.idxOf c.toUpper)) (n + 5 - 8)
        exact ⟨_, by rw [hout]; rfl⟩
      · exact ih hcs _ _

theorem decodeChars_spec {cs : List Char} {buf : UInt32} {n : ℕ} {out : List UInt8} (hn : n < 8)
    (h : decodeChars buf n cs = .ok out) : (∀ c ∈ cs, c.toUpper ∈ alphabet) ∧ ∃ rest,
      rest.length < 8 ∧ bits n buf.toNat ++ textBits (cs.map Char.toUpper) = byteBits out ++ rest := by
  induction cs generalizing buf n out with
  | nil =>
      obtain rfl : [] = out := Except.ok.inj h
      refine ⟨fun c hc => absurd hc List.not_mem_nil, bits n buf.toNat, by rwa [length_bits], ?_⟩
      simp [textBits, byteBits]
  | cons c cs ih =>
      unfold decodeChars at h
      cases hvalue : value c with
      | error e => rw [hvalue] at h; exact absurd h (by simp [bind, Except.bind])
      | ok v =>
          obtain ⟨hmem, hv⟩ := value_eq_ok_iff.mp hvalue
          have hvlt : v.toNat < 2 ^ 5 := hv ▸ List.idxOf_lt_length_of_mem hmem
          have hpush : bits (n + 5) (buf <<< 5 ||| v).toNat = bits n buf.toNat ++ bits 5 v.toNat :=
            bits_push (by decide) (by omega) hvlt
          have hall {rest : List Char} (hrest : ∀ c ∈ rest, c.toUpper ∈ alphabet) :
              ∀ d ∈ c :: rest, d.toUpper ∈ alphabet := fun d hd =>
            (List.mem_cons.mp hd).elim (fun heq => heq ▸ hmem) (hrest d)
          rw [hvalue] at h
          dsimp only [bind, Except.bind] at h
          rw [List.map_cons, textBits_cons, ← hv, ← List.append_assoc, ← hpush]
          split at h
          · next hge =>
              cases hrec : decodeChars (buf <<< 5 ||| v) (n + 5 - 8) cs with
              | error e => rw [hrec] at h; exact absurd h (by simp)
              | ok out' =>
                  rw [hrec] at h
                  obtain rfl := Except.ok.inj h
                  obtain ⟨hcs, rest, hrest, heq⟩ := ih (by omega) hrec
                  refine ⟨hall hcs, rest, hrest, ?_⟩
                  have hpop := bits_pop (w := 8) (n := n + 5 - 8) (buf <<< 5 ||| v) (by omega)
                  rw [show 8 + (n + 5 - 8) = n + 5 by omega] at hpop
                  rw [byteBits_cons, List.append_assoc, ← heq, hpop, List.append_assoc, toNat_mask_eight]
          · obtain ⟨hcs, rest, hrest, heq⟩ := ih (by omega) h
            exact ⟨hall hcs, rest, hrest, heq⟩

/-! ### There and back -/

/-- The text with the letters in any case, and with white space and `=` anywhere. -/
inductive Dressed : List Char → List Char → Prop where
  | nil : Dressed [] []
  | ignored {cs cs' : List Char} {c : Char} (hc : isIgnored c = true) (h : Dressed cs cs') : Dressed cs (c :: cs')
  | char {cs cs' : List Char} {c c' : Char} (hc : c'.toUpper = c.toUpper) (h : Dressed cs cs') :
      Dressed (c :: cs) (c' :: cs')

theorem Dressed.refl (cs : List Char) : Dressed cs cs := by
  induction cs with
  | nil => exact .nil
  | cons c cs ih => exact .char rfl ih

/-- Under its dress the text is the same. -/
theorem Dressed.canonical_eq {cs cs' : List Char} (h : Dressed cs cs') (hcs : ∀ c ∈ cs, c ∈ alphabet) :
    canonical cs' = cs := by
  induction h with
  | nil => rfl
  | @ignored cs cs' c hc h ih =>
      rw [← ih hcs]
      unfold canonical
      rw [List.filter_cons_of_neg (by simp [hc])]
  | @char cs cs' c c' hc h ih =>
      have hupper : c.toUpper = c := toUpper_of_mem (hcs c List.mem_cons_self)
      have hmem : c'.toUpper ∈ alphabet := by
        rw [hc, hupper]
        exact hcs c List.mem_cons_self
      have hrec := ih fun d hd => hcs d (List.mem_cons_of_mem _ hd)
      unfold canonical at hrec ⊢
      rw [List.filter_cons_of_pos (by simp [isIgnored_of_mem hmem]), List.map_cons, hrec, hc, hupper]

theorem base32Encode_spec (bytes : List UInt8) : (∀ c ∈ base32Encode bytes, c ∈ alphabet) ∧
    ∃ fill < 5, textBits (base32Encode bytes) = byteBits bytes ++ List.replicate fill false :=
  encodeBytes_spec bytes 0 (by decide)

theorem base32Decode_spec {s : List Char} {out : List UInt8} (h : base32Decode s = .ok out) :
    ∃ rest, rest.length < 8 ∧ textBits (canonical s) = byteBits out ++ rest :=
  (decodeChars_spec (by decide) h).2

theorem digits_byteBits {stream rest : List Bool} {bytes : List UInt8} (hrest : rest.length < 8)
    (heq : stream = byteBits bytes ++ rest) : Digits 8 stream (bytes.map UInt8.toNat) rest where
  eq := by rw [heq, List.flatMap_map]; rfl
  lt := by
    intro d hd
    obtain ⟨b, -, rfl⟩ := List.mem_map.mp hd
    exact b.toNat_lt
  rest_lt := hrest

theorem base32Decode_of_canonical {bytes : List UInt8} {s : List Char} (h : canonical s = base32Encode bytes) :
    base32Decode s = .ok bytes := by
  obtain ⟨hmem, fill, hfill, henc⟩ := base32Encode_spec bytes
  obtain ⟨out, hout⟩ : ∃ out, base32Decode s = .ok out := by
    refine decodeChars_ok (fun c hc => hmem _ ?_) 0 0
    rw [← h]
    exact List.mem_map_of_mem hc
  obtain ⟨rest, hrest, hdec⟩ := base32Decode_spec hout
  rw [h] at hdec
  have hfill : (List.replicate fill false).length < 8 := by
    rw [List.length_replicate]
    omega
  have hbytes := ((digits_byteBits hrest hdec).unique (digits_byteBits hfill henc)).1
  rw [hout, List.map_injective_iff.mpr (fun _ _ => UInt8.toNat_inj.mp) hbytes]

/-! ### Texts that are accepted -/

theorem mem_canonical {s : List Char} {out : List UInt8} (h : base32Decode s = .ok out) :
    ∀ c ∈ canonical s, c ∈ alphabet := by
  intro c hc
  obtain ⟨d, hd, rfl⟩ := List.mem_map.mp hc
  exact (decodeChars_spec (by decide) h).1 d hd

/-- The bits of a text name it. -/
theorem textBits_injective {cs cs' : List Char} (hcs : ∀ c ∈ cs, c ∈ alphabet) (hcs' : ∀ c ∈ cs', c ∈ alphabet)
    (h : textBits cs = textBits cs') : cs = cs' := by
  have hdigits {ds : List Char} (hds : ∀ c ∈ ds, c ∈ alphabet) :
      Digits 5 (textBits ds) (ds.map alphabet.idxOf) [] := by
    refine ⟨?_, fun d hd => ?_, by decide⟩
    · rw [List.append_nil, List.flatMap_map]
      rfl
    · obtain ⟨c, hc, rfl⟩ := List.mem_map.mp hd
      exact List.idxOf_lt_length_of_mem (hds c hc)
  have hback {ds : List Char} (hds : ∀ c ∈ ds, c ∈ alphabet) :
      (ds.map alphabet.idxOf).map (fun i => alphabet.getD i '\x00') = ds := by
    rw [List.map_map]
    refine (List.map_congr_left fun c hc => ?_).trans (List.map_id _)
    have hlt := List.idxOf_lt_length_of_mem (hds c hc)
    rw [Function.comp_apply, List.getD_eq_getElem _ _ hlt, List.getElem_idxOf hlt, id]
  have hplaces := ((hdigits hcs).unique (h ▸ hdigits hcs')).1
  rw [← hback hcs, hplaces, hback hcs']

theorem textBits_take (cs : List Char) (k : ℕ) : (textBits cs).take (k * 5) = textBits (cs.take k) := by
  induction k generalizing cs with
  | zero => simp [textBits]
  | succ k ih =>
      cases cs with
      | nil => simp [textBits]
      | cons c cs =>
          have hlen : (bits 5 (alphabet.idxOf c)).length = 5 := length_bits ..
          rw [List.take_succ_cons, textBits_cons, textBits_cons, List.take_append, hlen,
            List.take_of_length_le (by omega), Nat.succ_mul, Nat.add_sub_cancel, ih]

/-- Two texts whose bits begin with those of the same bytes have the same whole characters of them. -/
theorem take_eq_of_prefix {cs cs' : List Char} {bytes : List UInt8} {rest rest' : List Bool}
    (hcs : ∀ c ∈ cs, c ∈ alphabet) (hcs' : ∀ c ∈ cs', c ∈ alphabet) (h : textBits cs = byteBits bytes ++ rest)
    (h' : textBits cs' = byteBits bytes ++ rest') :
    cs.take (bytes.length * 8 / 5) = cs'.take (bytes.length * 8 / 5) := by
  have hlen : bytes.length * 8 / 5 * 5 ≤ (byteBits bytes).length := by
    have hbytes : (byteBits bytes).length = bytes.length * 8 := by
      have := length_flatMap_bits 8 (bytes.map UInt8.toNat)
      rwa [List.flatMap_map, List.length_map] at this
    rw [hbytes]
    exact Nat.div_mul_le_self _ _
  refine textBits_injective (fun c hc => hcs c (List.mem_of_mem_take hc))
    (fun c hc => hcs' c (List.mem_of_mem_take hc)) ?_
  rw [← textBits_take, ← textBits_take, h, h', List.take_append_of_le_length hlen, List.take_append_of_le_length hlen]

theorem round_trip :
    (∀ bytes, base32Decode (base32Encode bytes) = .ok bytes) ∧
      (∀ bytes s, Dressed (base32Encode bytes) s → base32Decode s = .ok bytes) ∧
      ∀ s out, base32Decode s = .ok out → ∃ unused fill,
        textBits (canonical s) = byteBits out ++ unused ∧ unused.length < 8 ∧
          textBits (base32Encode out) = byteBits out ++ List.replicate fill false ∧ fill < 5 ∧
          (canonical s).take (out.length * 8 / 5) = (base32Encode out).take (out.length * 8 / 5) ∧
          (unused = List.replicate fill false → canonical s = base32Encode out) := by
  have hdressed : ∀ bytes s, Dressed (base32Encode bytes) s → base32Decode s = .ok bytes := fun bytes s h =>
    base32Decode_of_canonical (h.canonical_eq (base32Encode_spec bytes).1)
  refine ⟨fun bytes => hdressed bytes _ (.refl _), hdressed, fun s out h => ?_⟩
  obtain ⟨hmem, fill, hfill, henc⟩ := base32Encode_spec out
  obtain ⟨unused, hunused, hdec⟩ := base32Decode_spec h
  refine ⟨unused, fill, hdec, hunused, henc, hfill, take_eq_of_prefix (mem_canonical h) hmem hdec henc, ?_⟩
  rintro rfl
  exact textBits_injective (mem_canonical h) hmem (hdec.trans henc.symm)

/-- One byte in two characters, of whose ten bits two are not used. -/
theorem round_trip_seven : base32Decode "a =4".toList = .ok [7] ∧ ∃ unused fill,
    textBits (canonical "a5".toList) = byteBits [7] ++ unused ∧ unused.length < 8 ∧
      textBits (base32Encode [7]) = byteBits [7] ++ List.replicate fill false ∧ fill < 5 := by
  obtain ⟨-, hdressed, hback⟩ := round_trip
  refine ⟨hdressed [7] _ ?_, ?_⟩
  · exact .char rfl (.ignored rfl (.ignored rfl (.char rfl .nil)))
  · obtain ⟨unused, fill, hdec, hunused, henc, hfill, -⟩ := hback "a5".toList [7] rfl
    exact ⟨unused, fill, hdec, hunused, henc, hfill⟩

end Mokosh.Totp
