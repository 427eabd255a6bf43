import Mokosh.ContactSync.Source

/-! # Three readings of a phone number

`storable_phone` of `mapping.rs`, `phone_key` of `normalize.rs`, and the reading of a number in a request to
`contacts`: `de_phone_opt` with `normalize_phone`, then `validate_phone_e164` (`mokosh-types`).

**`readAlike_iff`**: the sync stores a number as a request would, and finds it again by its key, if and only if the
number has no character that a request loses as invisible, or is no phone number anyway, and nothing stands before the
`+` of a storable number but blanks. -/

namespace Mokosh.ContactSync

/-! ### Requests -/

def isFormatting (c : Char) : Bool := c ∈ [' ', '\t', Char.ofNat 0xA0, '-', '(', ')', '.']

def stripFormatting (s : List Char) : List Char := s.filter fun c => !isFormatting c

def normalizePhone (raw : String) : String := .ofList (stripFormatting (sanitizeInvisible raw).toList)

structure ValidationError where
  code : String
  message : Option String
deriving DecidableEq, Repr

/-- `strip_prefix('+')`, if there is one. -/
def withoutPlus (value : List Char) : List Char := if ['+'].isPrefixOf value then value.drop 1 else value

/-- Two to fifteen digits, the first of them not 0, with a `+` or without. -/
structure E164 (value : List Char) : Prop where
  count : 2 ≤ (withoutPlus value).length ∧ (withoutPlus value).length ≤ 15
  digits : (withoutPlus value).all Char.isDigit = true
  head : (withoutPlus value).head? ≠ some '0'

instance (value : List Char) : Decidable (E164 value) :=
  decidable_of_iff (_ ∧ _ ∧ _) ⟨fun ⟨h₁, h₂, h₃⟩ => ⟨h₁, h₂, h₃⟩, fun h => ⟨h.1, h.2, h.3⟩⟩

def validatePhoneE164 (value : String) : Except ValidationError Unit :=
  if value = "" then .ok ()
  else if E164 value.toList then .ok ()
  else .error ⟨"invalid_phone", some "must be a valid phone number (E.164, e.g. +14155551234)"⟩

/-- `de_phone_opt`. -/
def dePhoneOpt (raw : Option String) : Option String := (raw.map normalizePhone).filter fun s => s ≠ ""

/-- The number that a request stores for the text. -/
def requestedPhone (raw : String) : Option String :=
  (dePhoneOpt (some raw)).filter fun number => validatePhoneE164 number = .ok ()

/-- What the three readings are to agree on. -/
structure ReadAlike (raw : String) : Prop where
  stored : storablePhone raw = requestedPhone raw
  key : ∀ number, storablePhone raw = some number → 7 ≤ (raw.toList.filter Char.isDigit).length →
    phoneKey raw = phoneKey number

/-- A digit, a `+` or formatting. -/
def isPhoneChar (c : Char) : Bool := c.isDigit || c = '+' || isFormatting c

/-- A text that is a phone number without its invisible characters has none; and the `+` of one that is a number of
seven digits or more comes first. -/
structure Plain (raw : String) : Prop where
  visible : E164 (stripFormatting (sanitizeInvisible raw).toList) → ∀ c ∈ raw.toList, isPhoneChar c = true
  plusFirst : E164 (stripFormatting raw.toList) → 7 ≤ (raw.toList.filter Char.isDigit).length →
    '+' ∈ raw.toList → (trim raw).toList.head? = some '+'

/-! ### What is stored -/

theorem storablePhone_eq (raw : String) :
    storablePhone raw =
      if E164 (stripFormatting raw.toList) then some (.ofList (stripFormatting raw.toList)) else none := by
  have hstrip : (raw.toList.filter fun c => c ∉ [' ', '\t', Char.ofNat 0xA0, '-', '(', ')', '.']) =
      stripFormatting raw.toList := List.filter_congr fun c _ => decide_not
  unfold storablePhone
  dsimp only
  rw [hstrip]
  refine if_congr ⟨?_, ?_⟩ rfl rfl
  · rintro ⟨hlow, hhigh, hdigits, hhead, -⟩
    exact ⟨⟨hlow, hhigh⟩, hdigits, hhead⟩
  · rintro ⟨⟨hlow, hhigh⟩, hdigits, hhead⟩
    refine ⟨hlow, hhigh, hdigits, hhead, ?_⟩
    have hlen : (stripFormatting raw.toList).length ≤ (withoutPlus (stripFormatting raw.toList)).length + 1 := by
      unfold withoutPlus
      split
      · rw [List.length_drop]
        omega
      · omega
    exact hlen.trans ((Nat.add_le_add_right hhigh 1).trans (by decide))

theorem E164.ne_nil {value : List Char} (h : E164 value) : value ≠ [] := by
  rintro rfl
  exact absurd h.count.1 (by decide)

theorem requestedPhone_eq (raw : String) :
    requestedPhone raw =
      if E164 (stripFormatting (sanitizeInvisible raw).toList) then some (normalizePhone raw) else none := by
  have hlist : (normalizePhone raw).toList = stripFormatting (sanitizeInvisible raw).toList := String.toList_ofList
  unfold requestedPhone dePhoneOpt
  rw [Option.map_some]
  split
  · next hnumber =>
      have hne : normalizePhone raw ≠ "" := by
        intro h
        rw [h] at hlist
        exact hnumber.ne_nil hlist.symm
      have hvalid : validatePhoneE164 (normalizePhone raw) = .ok () := by
        unfold validatePhoneE164
        rw [if_neg hne, if_pos (hlist ▸ hnumber)]
      rw [Option.filter_some, if_pos (by simpa using hne), Option.filter_some, if_pos (by simpa using hvalid)]
  · next hnot =>
      by_cases hne : normalizePhone raw = ""
      · rw [Option.filter_some, if_neg (by simpa using hne), Option.filter_none]
      · have hvalid : validatePhoneE164 (normalizePhone raw) ≠ .ok () := by
          unfold validatePhoneE164
          rw [if_neg hne, if_neg (hlist ▸ hnot)]
          exact fun h => by cases h
        rw [Option.filter_some, if_pos (by simpa using hne), Option.filter_some, if_neg (by simpa using hvalid)]

/-! ### Visible texts -/

theorem filter_dropWhile {p q : Char → Bool} {s : List Char} (h : ∀ c ∈ s, p c = true → q c = false) :
    (s.dropWhile p).filter q = s.filter q := by
  induction s with
  | nil => rfl
  | cons c s ih =>
      have hs : ∀ d ∈ s, p d = true → q d = false := fun d hd => h d (List.mem_cons_of_mem _ hd)
      by_cases hc : p c = true
      · rw [List.dropWhile_cons_of_pos hc, ih hs, List.filter_cons_of_neg (by simp [h c List.mem_cons_self hc])]
      · rw [List.dropWhile_cons_of_neg hc]

theorem filter_trimMatches {p q : Char → Bool} {s : List Char} (h : ∀ c ∈ s, p c = true → q c = false) :
    (trimMatches p s).filter q = s.filter q := by
  unfold trimMatches
  rw [List.filter_reverse, filter_dropWhile, List.filter_reverse, List.reverse_reverse, filter_dropWhile h]
  intro c hc
  exact h c ((List.dropWhile_sublist p).mem (List.mem_reverse.mp hc))

theorem trimMatches_sublist (p : Char → Bool) (s : List Char) : (trimMatches p s).Sublist s := by
  have hdrop := ((s.dropWhile p).reverse.dropWhile_sublist p).reverse
  rw [List.reverse_reverse] at hdrop
  exact hdrop.trans (List.dropWhile_sublist p)

theorem toNat_of_isDigit {c : Char} (h : c.isDigit = true) : 48 ≤ c.toNat ∧ c.toNat ≤ 57 := by
  rw [Char.isDigit, Bool.and_eq_true, decide_eq_true_iff, decide_eq_true_iff] at h
  exact h

/-- No digit, and not `+` either, is blank or invisible. -/
theorem visible_of_toNat {c : Char} (h : 43 ≤ c.toNat ∧ c.toNat ≤ 57) :
    isWhitespace c = false ∧ isRemoved c = false ∧ isEdgeTrim c = false ∧ isExoticSpace c = false := by
  simp only [isEdgeTrim, isExoticSpace, isWhitespace, isRemoved, Bool.or_eq_false_iff, Bool.and_eq_false_iff,
    decide_eq_false_iff_not]
  omega

/-- What a number is written with is visible, and what of it a request may lose or rewrite is formatting. -/
theorem isPhoneChar_cases {c : Char} (h : isPhoneChar c = true) : isRemoved c = false ∧
    (isFormatting c = true ∨ isWhitespace c = false ∧ isEdgeTrim c = false ∧ isExoticSpace c = false) := by
  rw [isPhoneChar, Bool.or_eq_true, Bool.or_eq_true, decide_eq_true_iff] at h
  rcases h with (hdigit | rfl) | hformatting
  · have hrange := toNat_of_isDigit hdigit
    obtain ⟨hspace, hremoved, hedge, hexotic⟩ := visible_of_toNat (c := c) (by omega)
    exact ⟨hremoved, .inr ⟨hspace, hedge, hexotic⟩⟩
  · exact ⟨by decide, .inr (by decide)⟩
  · refine ⟨?_, .inl hformatting⟩
    have hall : [' ', '\t', Char.ofNat 0xA0, '-', '(', ')', '.'].all (fun c => !isRemoved c) = true := by decide
    simpa using List.all_eq_true.mp hall c (of_decide_eq_true hformatting)

/-- The sanitizer takes nothing but formatting from a visible text. -/
theorem stripFormatting_sanitize {raw : String} (h : ∀ c ∈ raw.toList, isPhoneChar c = true) :
    stripFormatting (sanitizeInvisible raw).toList = stripFormatting raw.toList := by
  have hkept : (raw.toList.filter fun c => !isRemoved c) = raw.toList :=
    List.filter_eq_self.mpr fun c hc => by rw [(isPhoneChar_cases (h c hc)).1]; rfl
  unfold sanitizeInvisible stripFormatting
  rw [String.toList_ofList, hkept, filter_trimMatches]
  · generalize raw.toList = s at h
    induction s with
    | nil => rfl
    | cons c s ih =>
        rw [List.map_cons, List.filter_cons, List.filter_cons, ih fun d hd => h d (List.mem_cons_of_mem _ hd)]
        rcases (isPhoneChar_cases (h c List.mem_cons_self)).2 with hformatting | ⟨-, -, hexotic⟩
        · have hspace : isFormatting (if isExoticSpace c then ' ' else c) = true := by
            split
            · decide
            · exact hformatting
          rw [hspace, hformatting]
          rfl
        · rw [hexotic]
          rfl
  · intro c hc hedge
    obtain ⟨d, hd, rfl⟩ := List.mem_map.mp hc
    rcases (isPhoneChar_cases (h d hd)).2 with hformatting | ⟨-, hnot, hexotic⟩
    · split
      · decide
      · rw [hformatting]
        rfl
    · rw [hexotic] at hedge
      exact absurd (hnot.symm.trans hedge) Bool.false_ne_true

theorem mem_withoutPlus_or {value : List Char} {c : Char} (h : c ∈ value) : c = '+' ∨ c ∈ withoutPlus value := by
  unfold withoutPlus
  split
  · next hplus =>
      obtain ⟨rest, rfl⟩ := List.isPrefixOf_iff_prefix.mp hplus
      exact (List.mem_cons.mp h).imp id id
  · exact .inr h

/-- Nothing of a storable text is invisible. -/
theorem isPhoneChar_of_e164 {s : List Char} (h : E164 (stripFormatting s)) : ∀ c ∈ s, isPhoneChar c = true := by
  intro c hc
  rw [isPhoneChar, Bool.or_eq_true, Bool.or_eq_true, decide_eq_true_iff]
  by_cases hformatting : isFormatting c = true
  · exact .inr hformatting
  · have hmem : c ∈ stripFormatting s := List.mem_filter.mpr ⟨hc, by simpa using hformatting⟩
    rcases mem_withoutPlus_or hmem with rfl | hdigit
    · exact .inl (.inr rfl)
    · exact .inl (.inl (List.all_eq_true.mp h.digits c hdigit))

theorem stored_iff (raw : String) : storablePhone raw = requestedPhone raw ↔
    (E164 (stripFormatting (sanitizeInvisible raw).toList) → ∀ c ∈ raw.toList, isPhoneChar c = true) := by
  rw [storablePhone_eq, requestedPhone_eq]
  constructor
  · intro h hnumber
    rw [if_pos hnumber] at h
    by_contra hnot
    rw [if_neg fun hraw => hnot (isPhoneChar_of_e164 hraw)] at h
    exact Option.some_ne_none _ h.symm
  · intro hvisible
    by_cases hnumber : E164 (stripFormatting (sanitizeInvisible raw).toList)
    · have hsame := stripFormatting_sanitize (hvisible hnumber)
      have hraw : E164 (stripFormatting raw.toList) := by rwa [hsame] at hnumber
      rw [if_pos hnumber, if_pos hraw, normalizePhone, hsame]
    · rw [if_neg hnumber, if_neg]
      intro hraw
      have hsame := stripFormatting_sanitize (isPhoneChar_of_e164 hraw)
      exact hnumber (by rwa [hsame])

/-! ### Keys -/

/-- The blanks around a visible text are formatting. -/
theorem stripFormatting_trim {raw : String} (h : ∀ c ∈ raw.toList, isPhoneChar c = true) :
    stripFormatting (trim raw).toList = stripFormatting raw.toList := by
  unfold trim stripFormatting
  rw [String.toList_ofList]
  refine filter_trimMatches fun c hc hspace => ?_
  rcases (isPhoneChar_cases (h c hc)).2 with hformatting | ⟨hnot, -⟩
  · rw [hformatting]
    rfl
  · exact absurd (hnot.symm.trans hspace) Bool.false_ne_true

theorem filter_isDigit_stripFormatting (s : List Char) :
    (stripFormatting s).filter Char.isDigit = s.filter Char.isDigit := by
  have hall : [' ', '\t', Char.ofNat 0xA0, '-', '(', ')', '.'].all (fun c => !c.isDigit) = true := by decide
  unfold stripFormatting
  rw [List.filter_filter]
  refine List.filter_congr fun c _ => ?_
  cases hformatting : isFormatting c with
  | false => exact Bool.and_true _
  | true =>
      have hdigit := List.all_eq_true.mp hall c (of_decide_eq_true hformatting)
      rw [(Bool.not_eq_true' _).mp hdigit]
      rfl

theorem trim_eq_self {s : List Char} (h : ∀ c ∈ s, isWhitespace c = false) : (trim (.ofList s)).toList = s := by
  have hdrop {t : List Char} (ht : ∀ c ∈ t, isWhitespace c = false) : t.dropWhile isWhitespace = t := by
    cases t with
    | nil => rfl
    | cons c t => exact List.dropWhile_cons_of_neg (by simp [ht c List.mem_cons_self])
  unfold trim
  rw [String.toList_ofList, String.toList_ofList, hdrop h, hdrop fun c hc => h c (List.mem_reverse.mp hc),
    List.reverse_reverse]

/-- A number has its `+` in the first place or not at all. -/
theorem E164.plus_mem_iff {value : List Char} (h : E164 value) : '+' ∈ value ↔ value.head? = some '+' := by
  constructor
  · intro hmem
    by_contra hhead
    have hwithout : withoutPlus value = value := by
      unfold withoutPlus
      rw [if_neg]
      intro hprefix
      obtain ⟨rest, rfl⟩ := List.isPrefixOf_iff_prefix.mp hprefix
      exact hhead rfl
    exact absurd (List.all_eq_true.mp h.digits '+' (by rwa [hwithout])) (by decide)
  · exact List.mem_of_mem_head?

/-- The key of a text whose number does not begin with a 0. -/
theorem phoneKey_eq {raw : String} (h : E164 (stripFormatting raw.toList))
    (hseven : 7 ≤ (raw.toList.filter Char.isDigit).length) :
    phoneKey raw = some (.ofList
      (if (trim raw).toList.head? = some '+' then '+' :: raw.toList.filter Char.isDigit
        else raw.toList.filter Char.isDigit)) := by
  have hstrip := stripFormatting_trim (isPhoneChar_of_e164 h)
  have hdigits : (trim raw).toList.filter Char.isDigit = raw.toList.filter Char.isDigit := by
    rw [← filter_isDigit_stripFormatting, hstrip, filter_isDigit_stripFormatting]
  have hzero : ['0', '0'].isPrefixOf (trim raw).toList = false := by
    rw [Bool.eq_false_iff]
    intro hprefix
    obtain ⟨rest, hrest⟩ := List.isPrefixOf_iff_prefix.mp hprefix
    rw [← hstrip, ← hrest] at h
    exact h.head rfl
  have hplus : ['+'].isPrefixOf (trim raw).toList = true ↔ (trim raw).toList.head? = some '+' := by
    rw [List.isPrefixOf_iff_prefix]
    constructor
    · rintro ⟨rest, hrest⟩
      rw [← hrest]
      rfl
    · intro hhead
      obtain ⟨rest, hrest⟩ := List.head?_eq_some_iff.mp hhead
      exact ⟨rest, hrest.symm⟩
  unfold phoneKey
  dsimp only
  rw [hzero, Bool.or_false, Bool.false_and, if_neg Bool.false_ne_true, hdigits, if_neg (not_lt.mpr hseven)]
  exact congrArg (fun s => some (String.ofList s)) (if_congr hplus rfl rfl)

theorem key_iff {raw number : String} (hstored : storablePhone raw = some number)
    (hseven : 7 ≤ (raw.toList.filter Char.isDigit).length) :
    phoneKey raw = phoneKey number ↔ ('+' ∈ raw.toList → (trim raw).toList.head? = some '+') := by
  rw [storablePhone_eq, Option.ite_none_right_eq_some, Option.some.injEq] at hstored
  obtain ⟨hnumber, rfl⟩ := hstored
  have hvisible := isPhoneChar_of_e164 hnumber
  have hbare : ∀ c ∈ stripFormatting raw.toList, isWhitespace c = false := by
    intro c hc
    obtain ⟨hc, hformatting⟩ := List.mem_filter.mp hc
    rcases (isPhoneChar_cases (hvisible c hc)).2 with hyes | hno
    · rw [hyes] at hformatting
      exact absurd hformatting Bool.false_ne_true
    · exact hno.1
  have hagain : stripFormatting (String.ofList (stripFormatting raw.toList)).toList = stripFormatting raw.toList := by
    rw [String.toList_ofList]
    unfold stripFormatting
    rw [List.filter_filter]
    exact List.filter_congr fun c _ => Bool.and_self _
  have hdigits : (String.ofList (stripFormatting raw.toList)).toList.filter Char.isDigit =
      raw.toList.filter Char.isDigit := by
    rw [String.toList_ofList, filter_isDigit_stripFormatting]
  have hplus : '+' ∈ stripFormatting raw.toList ↔ '+' ∈ raw.toList :=
    List.mem_filter.trans (and_iff_left (by decide))
  have hhead : (stripFormatting raw.toList).head? = some '+' ↔ '+' ∈ raw.toList := hnumber.plus_mem_iff.symm.trans hplus
  have hfirst : (trim raw).toList.head? = some '+' → '+' ∈ raw.toList := fun h => by
    have hmem := List.mem_of_mem_head? h
    unfold trim at hmem
    rw [String.toList_ofList] at hmem
    exact (trimMatches_sublist isWhitespace raw.toList).mem hmem
  rw [phoneKey_eq hnumber hseven, phoneKey_eq (by rwa [hagain]) (by rwa [hdigits]), hdigits, trim_eq_self hbare,
    Option.some.injEq, String.ofList_inj]
  by_cases hmem : '+' ∈ raw.toList
  · rw [if_pos (hhead.mpr hmem)]
    constructor
    · intro heq _
      by_contra hnot
      rw [if_neg hnot] at heq
      have hlen := congrArg List.length heq
      rw [List.length_cons] at hlen
      omega
    · exact fun himp => if_pos (himp hmem)
  · rw [if_neg (fun h => hmem (hhead.mp h)), if_neg (fun h => hmem (hfirst h))]
    exact ⟨fun _ h => absurd h hmem, fun _ => rfl⟩

theorem readAlike_iff (raw : String) : ReadAlike raw ↔ Plain raw := by
  constructor
  · rintro ⟨hstored, hkey⟩
    refine ⟨(stored_iff raw).mp hstored, fun hnumber hseven => ?_⟩
    have hsome : storablePhone raw = _ := (storablePhone_eq raw).trans (if_pos hnumber)
    exact (key_iff hsome hseven).mp (hkey _ hsome hseven)
  · rintro ⟨hvisible, hplus⟩
    refine ⟨(stored_iff raw).mpr hvisible, fun number hsome hseven => (key_iff hsome hseven).mpr ?_⟩
    rw [storablePhone_eq, Option.ite_none_right_eq_some] at hsome
    exact hplus hsome.1 hseven

/-- A number with a zero-width space at its end, and one with its country code in brackets. -/
theorem not_readAlike : ¬ ReadAlike "+14155551234\u200b" ∧ ¬ ReadAlike "(+1) 415 555 1234" := by
  constructor
  · intro h
    have hvisible := (stored_iff _).mp h.stored (by decide) '\u200b' (by decide)
    exact absurd hvisible (by decide)
  · intro h
    have hkey := h.key "+14155551234" rfl (by decide)
    have hraw : phoneKey "(+1) 415 555 1234" = some "14155551234" := rfl
    have hnumber : phoneKey "+14155551234" = some "+14155551234" := rfl
    rw [hraw, hnumber, Option.some.injEq] at hkey
    exact absurd hkey (by decide)

end Mokosh.ContactSync
