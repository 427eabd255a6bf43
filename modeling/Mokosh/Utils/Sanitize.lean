import Mathlib.Data.String.Basic
import Mokosh.Lib.SortedMap
import Mokosh.Utils.Json
import Mokosh.Utils.Text

/-! # Request bodies

`sanitize_invisible` of `mokosh-types` and `sanitize_json_tree` of `utils/text.rs`, which cleans the strings and the
keys of a JSON tree, except below a key that names a secret.  The members of an object are a `BTreeMap`, so they are
in the order of their keys (`Ordered`). -/

namespace Mokosh.Sanitizer

open Workflows (Json)
open SortedMap (Ascending insertAll)

/-! ### sanitize_invisible -/

def isRemoved (c : Char) : Bool :=
  let n := c.toNat
  n = 0xAD ∨ n = 0x200B ∨ n = 0x200E ∨ n = 0x200F ∨ 0x202A ≤ n ∧ n ≤ 0x202E ∨ 0x2060 ≤ n ∧ n ≤ 0x2064 ∨
    0x2066 ≤ n ∧ n ≤ 0x2069 ∨ n = 0xFEFF

def isExoticSpace (c : Char) : Bool := 128 ≤ c.toNat ∧ Text.isWhiteSpace c

def isEdgeTrim (c : Char) : Bool := Text.isWhiteSpace c ∨ c.toNat = 0x200C ∨ c.toNat = 0x200D

/-- `str::trim_matches`. -/
def trimMatches (p : Char → Bool) (s : List Char) : List Char := (s.dropWhile p).rdropWhile p

def rewritten (value : List Char) : List Char :=
  (value.filter fun c => !isRemoved c).map fun c => if isExoticSpace c then ' ' else c

def sanitizeChars (value : List Char) : List Char :=
  if !value.any fun c => isRemoved c || isExoticSpace c then trimMatches isEdgeTrim value
  else
    let trimmed := trimMatches isEdgeTrim (rewritten value)
    if trimmed.length = (rewritten value).length then rewritten value else trimmed

def sanitizeInvisible (value : String) : String := .ofList (sanitizeChars value.toList)

/-- No character that is removed or rewritten, and nothing to trim. -/
structure CleanChars (s : List Char) : Prop where
  kept : ∀ c ∈ s, isRemoved c = false ∧ isExoticSpace c = false
  head : ∀ c, s.head? = some c → isEdgeTrim c = false
  last : ∀ c, s.getLast? = some c → isEdgeTrim c = false

def CleanText (s : String) : Prop := CleanChars s.toList

theorem isInfix_trimMatches (p : Char → Bool) (s : List Char) : trimMatches p s <:+: s :=
  (List.rdropWhile_prefix p _).isInfix.trans (List.dropWhile_suffix p).isInfix

theorem trimMatches_eq_self {p : Char → Bool} {s : List Char} (hhead : ∀ c, s.head? = some c → p c = false)
    (hlast : ∀ c, s.getLast? = some c → p c = false) : trimMatches p s = s := by
  have hdrop : s.dropWhile p = s := by
    cases s with
    | nil => rfl
    | cons c s => exact List.dropWhile_cons_of_neg (by simp [hhead c rfl])
  unfold trimMatches
  rw [hdrop, List.rdropWhile_eq_self_iff]
  intro hne
  rw [hlast _ (List.getLast?_eq_some_getLast hne)]
  exact Bool.false_ne_true

theorem head_trimMatches {p : Char → Bool} {s : List Char} {c : Char} (h : (trimMatches p s).head? = some c) :
    p c = false := by
  obtain ⟨t, ht⟩ := List.rdropWhile_prefix p (s.dropWhile p)
  have hnot := List.head?_dropWhile_not p s
  rw [← ht, List.head?_append, show (List.rdropWhile p (s.dropWhile p)).head? = some c from h] at hnot
  exact hnot

theorem last_trimMatches {p : Char → Bool} {s : List Char} {c : Char} (h : (trimMatches p s).getLast? = some c) :
    p c = false := by
  have hne : trimMatches p s ≠ [] := List.ne_nil_of_mem (List.mem_of_getLast? h)
  obtain rfl := Option.some.inj ((List.getLast?_eq_some_getLast hne).symm.trans h)
  exact Bool.eq_false_iff.mpr (List.rdropWhile_last_not p _ hne)

theorem rewritten_eq_self {value : List Char} (h : ∀ c ∈ value, isRemoved c = false ∧ isExoticSpace c = false) :
    rewritten value = value := by
  unfold rewritten
  rw [List.filter_eq_self.mpr fun c hc => by rw [(h c hc).1]; rfl]
  exact (List.map_congr_left fun c hc => by rw [(h c hc).2]; rfl).trans (List.map_id _)

theorem kept_of_mem_rewritten {value : List Char} {c : Char} (h : c ∈ rewritten value) :
    isRemoved c = false ∧ isExoticSpace c = false := by
  obtain ⟨d, hd, rfl⟩ := List.mem_map.mp h
  split
  · decide
  · next hspace => exact ⟨by simpa using (List.mem_filter.mp hd).2, Bool.eq_false_iff.mpr hspace⟩

/-- The two ways out of the function come to the same. -/
theorem sanitizeChars_eq (value : List Char) : sanitizeChars value = trimMatches isEdgeTrim (rewritten value) := by
  unfold sanitizeChars
  split
  · next h =>
      rw [rewritten_eq_self]
      simpa using h
  · dsimp only
    split
    · next h => exact ((isInfix_trimMatches _ _).eq_of_length h).symm
    · rfl

theorem cleanChars_sanitizeChars (value : List Char) : CleanChars (sanitizeChars value) := by
  rw [sanitizeChars_eq]
  exact ⟨fun c hc => kept_of_mem_rewritten ((isInfix_trimMatches _ _).mem hc), fun c => head_trimMatches,
    fun c => last_trimMatches⟩

theorem sanitizeChars_eq_self {value : List Char} (h : CleanChars value) : sanitizeChars value = value := by
  rw [sanitizeChars_eq, rewritten_eq_self h.kept, trimMatches_eq_self h.head h.last]

theorem cleanText_sanitizeInvisible (value : String) : CleanText (sanitizeInvisible value) := by
  unfold CleanText sanitizeInvisible
  rw [String.toList_ofList]
  exact cleanChars_sanitizeChars _

theorem sanitizeInvisible_eq_self {value : String} (h : CleanText value) : sanitizeInvisible value = value := by
  unfold sanitizeInvisible
  rw [sanitizeChars_eq_self h, String.ofList_toList]

theorem cleanText_iff {value : String} : CleanText value ↔ sanitizeInvisible value = value :=
  ⟨sanitizeInvisible_eq_self, fun h => h ▸ cleanText_sanitizeInvisible value⟩

/-! ### sanitize_json_tree -/

def secretFieldNames : List String :=
  ["access_token", "api_key", "api_keys", "api_secret", "app_password", "approval_code", "backup_code",
    "backup_codes", "client_secret", "code", "confirm_password", "current_password", "mfa_code", "mfa_secret",
    "new_password", "old_password", "otp", "otp_code", "password", "password_hash", "portal_password",
    "portal_password_hash", "private_key", "recovery_code", "recovery_codes", "refresh_token", "reset_token",
    "secret", "secret_key", "signature", "signing_secret", "token", "token_hash", "totp_code", "totp_secret",
    "value", "webhook_secret"]

example : secretFieldNames.IsChain (· < ·) := by decide

/-- `str::to_ascii_lowercase`. -/
def toAsciiLowercase (key : String) : List Char := key.toList.map Char.toLower

/-- The names are in order, so a binary search finds what is among them. -/
def isSecretField (key : String) : Bool := secretFieldNames.any fun name => name.toList = toAsciiLowercase key

mutual

/-- The tree, and whether it was changed. -/
def sanitizeJsonTree : Json → Json × Bool
  | .string s => (.string (sanitizeInvisible s), sanitizeInvisible s ≠ s)
  | .array items =>
    let (items', changed) := sanitizeItems items
    (.array items', changed)
  | .object map =>
    let (rebuilt, changed) := sanitizeMembers map []
    (.object rebuilt, changed)
  | value => (value, false)

def sanitizeItems : List Json → List Json × Bool
  | [] => ([], false)
  | item :: items =>
    let (item', changed) := sanitizeJsonTree item
    let (items', changed') := sanitizeItems items
    (item' :: items', changed || changed')

def sanitizeMembers : List (String × Json) → List (String × Json) → List (String × Json) × Bool
  | [], rebuilt => (rebuilt, false)
  | (key, item) :: taken, rebuilt =>
    let (item', changed) := if isSecretField key then (item, false) else sanitizeJsonTree item
    let clean := sanitizeInvisible key
    let (rebuilt', changed') := sanitizeMembers taken (SortedMap.insert (clean, item') rebuilt)
    (rebuilt', changed || clean ≠ key || changed')

end

/-- What becomes of a member. -/
def sanitizeMember (m : String × Json) : String × Json :=
  (sanitizeInvisible m.1, if isSecretField m.1 then m.2 else (sanitizeJsonTree m.2).1)

def memberChanged (m : String × Json) : Bool :=
  (!isSecretField m.1 && (sanitizeJsonTree m.2).2) || sanitizeInvisible m.1 ≠ m.1

theorem sanitizeItems_eq (items : List Json) :
    sanitizeItems items = (items.map fun v => (sanitizeJsonTree v).1, items.any fun v => (sanitizeJsonTree v).2) := by
  induction items with
  | nil => rfl
  | cons v items ih =>
      unfold sanitizeItems
      rw [ih]
      rfl

theorem sanitizeMembers_eq (taken rebuilt : List (String × Json)) :
    sanitizeMembers taken rebuilt = (insertAll rebuilt (taken.map sanitizeMember), taken.any memberChanged) := by
  induction taken generalizing rebuilt with
  | nil => rfl
  | cons m taken ih =>
      obtain ⟨key, item⟩ := m
      unfold sanitizeMembers
      cases hsecret : isSecretField key with
      | true => simp [ih, sanitizeMember, memberChanged, hsecret, insertAll]
      | false => simp [ih, sanitizeMember, memberChanged, hsecret, insertAll]

@[simp] theorem sanitizeJsonTree_array (items : List Json) :
    sanitizeJsonTree (.array items) =
      (.array (items.map fun v => (sanitizeJsonTree v).1), items.any fun v => (sanitizeJsonTree v).2) := by
  rw [sanitizeJsonTree, sanitizeItems_eq]

@[simp] theorem sanitizeJsonTree_object (map : List (String × Json)) :
    sanitizeJsonTree (.object map) = (.object (insertAll [] (map.map sanitizeMember)), map.any memberChanged) := by
  rw [sanitizeJsonTree, sanitizeMembers_eq]

/-! ### Trees -/

/-- A tree whose objects are maps. -/
inductive Ordered : Json → Prop where
  | null : Ordered .null
  | bool (b : Bool) : Ordered (.bool b)
  | number (t : String) : Ordered (.number t)
  | string (s : String) : Ordered (.string s)
  | array {items : List Json} (h : ∀ v ∈ items, Ordered v) : Ordered (.array items)
  | object {map : List (String × Json)} (hkeys : Ascending map) (h : ∀ m ∈ map, Ordered m.2) : Ordered (.object map)

/-- A tree that is clean outside of its secrets. -/
inductive Clean : Json → Prop where
  | null : Clean .null
  | bool (b : Bool) : Clean (.bool b)
  | number (t : String) : Clean (.number t)
  | string {s : String} (h : CleanText s) : Clean (.string s)
  | array {items : List Json} (h : ∀ v ∈ items, Clean v) : Clean (.array items)
  | object {map : List (String × Json)} (hkeys : ∀ m ∈ map, CleanText m.1)
      (h : ∀ m ∈ map, isSecretField m.1 = false → Clean m.2) : Clean (.object map)

/-- Every member of the request is in the result, under its cleaned key. -/
inductive Kept : Json → Json → Prop where
  | same (v : Json) : Kept v v
  | string (s s' : String) : Kept (.string s) (.string s')
  | array {items items' : List Json} (hlen : items'.length = items.length)
      (h : ∀ p ∈ items.zip items', Kept p.1 p.2) : Kept (.array items) (.array items')
  | object {map map' : List (String × Json)} (hlen : map'.length = map.length)
      (hkeys : ∀ m ∈ map, ∃ m' ∈ map', m'.1 = sanitizeInvisible m.1)
      (h : ∀ m ∈ map, ∀ m' ∈ map', m'.1 = sanitizeInvisible m.1 → Kept m.2 m'.2) : Kept (.object map) (.object map')

/-- What the result has under the name of a secret is what the request has for it. -/
inductive SecretsAsSent : Json → Json → Prop where
  | same (v : Json) : SecretsAsSent v v
  | string (s s' : String) : SecretsAsSent (.string s) (.string s')
  | array {items items' : List Json} (h : ∀ p ∈ items.zip items', SecretsAsSent p.1 p.2) :
      SecretsAsSent (.array items) (.array items')
  | object {map map' : List (String × Json)}
      (hsecret : ∀ m' ∈ map', isSecretField m'.1 = true → ∃ m ∈ map, m'.1 = sanitizeInvisible m.1 ∧ m'.2 = m.2)
      (h : ∀ m' ∈ map', isSecretField m'.1 = false → ∀ m ∈ map, m'.1 = sanitizeInvisible m.1 →
        SecretsAsSent m.2 m'.2) : SecretsAsSent (.object map) (.object map')

/-- No two keys of an object come to the same, and what a key that only comes to the name of a secret holds is clean
already. -/
inductive Unambiguous : Json → Prop where
  | null : Unambiguous .null
  | bool (b : Bool) : Unambiguous (.bool b)
  | number (t : String) : Unambiguous (.number t)
  | string (s : String) : Unambiguous (.string s)
  | array {items : List Json} (h : ∀ v ∈ items, Unambiguous v) : Unambiguous (.array items)
  | object {map : List (String × Json)} (hkeys : (map.map fun m => sanitizeInvisible m.1).Nodup)
      (hsecret : ∀ m ∈ map, isSecretField m.1 = false → isSecretField (sanitizeInvisible m.1) = true → Clean m.2)
      (h : ∀ m ∈ map, isSecretField m.1 = false → Unambiguous m.2) : Unambiguous (.object map)

/-! ### Names of secrets -/

theorem toNat_of_plain_toLower {c : Char} (h : 95 ≤ c.toLower.toNat ∧ c.toLower.toNat ≤ 122) :
    65 ≤ c.toNat ∧ c.toNat ≤ 122 := by
  unfold Char.toLower at h
  split at h
  · next hupper =>
      obtain ⟨hge, hle⟩ := hupper
      exact ⟨hge, (show c.toNat ≤ 90 from hle).trans (by decide)⟩
  · exact ⟨by omega, h.2⟩

theorem cleanText_of_plain {s : String} (h : ∀ c ∈ s.toList, 65 ≤ c.toNat ∧ c.toNat ≤ 122) : CleanText s := by
  have hedge : ∀ c ∈ s.toList, isEdgeTrim c = false := fun c hc => by
    have := h c hc
    simp only [isEdgeTrim, Text.isWhiteSpace, decide_eq_false_iff_not, decide_eq_true_eq]
    omega
  refine ⟨fun c hc => ?_, fun c hc => hedge c (List.mem_of_head? hc), fun c hc => hedge c (List.mem_of_getLast? hc)⟩
  have := h c hc
  simp only [isRemoved, isExoticSpace, decide_eq_false_iff_not, Bool.decide_and, Bool.and_eq_false_iff]
  exact ⟨by omega, .inl (by omega)⟩

/-- A name of a secret has nothing to clean. -/
theorem cleanText_of_isSecretField {key : String} (h : isSecretField key = true) : CleanText key := by
  have hall : (secretFieldNames.map String.toList).all
      (fun name => name.all fun c => decide (95 ≤ c.toNat ∧ c.toNat ≤ 122)) = true := by
    simp only [secretFieldNames, List.map_cons, List.map_nil, String.reduceToList]
    rfl
  have hplain : ∀ name ∈ secretFieldNames, ∀ c ∈ name.toList, 95 ≤ c.toNat ∧ c.toNat ≤ 122 := by
    intro name hname c hc
    have hchars := List.all_eq_true.mp hall _ (List.mem_map_of_mem hname)
    exact of_decide_eq_true (List.all_eq_true.mp hchars c hc)
  obtain ⟨name, hname, heq⟩ := List.any_eq_true.mp h
  refine cleanText_of_plain fun c hc => toNat_of_plain_toLower (hplain name hname _ ?_)
  rw [of_decide_eq_true heq]
  exact List.mem_map_of_mem hc

theorem isSecretField_sanitizeInvisible {key : String} (h : isSecretField key = true) :
    isSecretField (sanitizeInvisible key) = true := by
  rw [sanitizeInvisible_eq_self (cleanText_of_isSecretField h)]
  exact h

/-! ### The result -/

theorem ordered_sanitizeJsonTree {t : Json} (h : Ordered t) : Ordered (sanitizeJsonTree t).1 := by
  induction h with
  | null => exact .null
  | bool b => exact .bool b
  | number t => exact .number t
  | string s => exact .string _
  | array h ih =>
      rw [sanitizeJsonTree_array]
      exact .array fun v' hv' => by
        obtain ⟨v, hv, rfl⟩ := List.mem_map.mp hv'
        exact ih v hv
  | object hkeys h ih =>
      rw [sanitizeJsonTree_object]
      refine .object (SortedMap.ascending_insertAll .nil _) fun m hm => ?_
      obtain ⟨m, hin, rfl⟩ := List.mem_map.mp ((SortedMap.mem_of_mem_insertAll hm).resolve_left List.not_mem_nil)
      unfold sanitizeMember
      split
      · exact h m hin
      · exact ih m hin

theorem clean_sanitizeJsonTree (t : Json) : Clean (sanitizeJsonTree t).1 := by
  induction t using Json.induct with
  | null => exact .null
  | bool b => exact .bool b
  | number t => exact .number t
  | string s => exact .string (cleanText_sanitizeInvisible s)
  | array items ih =>
      rw [sanitizeJsonTree_array]
      exact .array fun v' hv' => by
        obtain ⟨v, hv, rfl⟩ := List.mem_map.mp hv'
        exact ih v hv
  | object map ih =>
      rw [sanitizeJsonTree_object]
      have hmem : ∀ {m'}, m' ∈ insertAll [] (map.map sanitizeMember) → ∃ m ∈ map, sanitizeMember m = m' := fun hm' =>
        List.mem_map.mp ((SortedMap.mem_of_mem_insertAll hm').resolve_left List.not_mem_nil)
      refine .object (fun m' hm' => ?_) fun m' hm' hplain => ?_
      · obtain ⟨m, -, rfl⟩ := hmem hm'
        exact cleanText_sanitizeInvisible m.1
      · obtain ⟨m, hm, rfl⟩ := hmem hm'
        have hnot : ¬isSecretField m.1 = true := fun hsecret =>
          Bool.false_ne_true (hplain.symm.trans (isSecretField_sanitizeInvisible hsecret))
        rw [sanitizeMember, if_neg hnot]
        exact ih m hm

/-- A clean tree is left alone. -/
theorem sanitizeJsonTree_eq_self {t : Json} (hclean : Clean t) (hordered : Ordered t) :
    sanitizeJsonTree t = (t, false) := by
  induction hclean with
  | null => rfl
  | bool b => rfl
  | number t => rfl
  | string h =>
      unfold sanitizeJsonTree
      simp [sanitizeInvisible_eq_self h]
  | array h ih =>
      cases hordered with
      | array hitems =>
          have hitem : ∀ v, v ∈ _ → sanitizeJsonTree v = (v, false) := fun v hv => ih v hv (hitems v hv)
          rw [sanitizeJsonTree_array, (List.map_congr_left fun v hv => by rw [hitem v hv]; rfl).trans (List.map_id _),
            List.any_eq_false.mpr fun v hv => by simp [hitem v hv]]
  | object hkeys h ih =>
      cases hordered with
      | object hmap hvalues =>
          have hmember : ∀ m, m ∈ _ → sanitizeMember m = m ∧ memberChanged m = false := fun m hm => by
            have hkey := sanitizeInvisible_eq_self (hkeys m hm)
            cases hsecret : isSecretField m.1 with
            | true => simp [sanitizeMember, memberChanged, hsecret, hkey]
            | false => simp [sanitizeMember, memberChanged, hsecret, hkey, ih m hm hsecret (hvalues m hm)]
          rw [sanitizeJsonTree_object, (List.map_congr_left fun m hm => (hmember m hm).1).trans (List.map_id _),
            SortedMap.insertAll_eq_self hmap, List.any_eq_false.mpr fun m hm => by simp [(hmember m hm).2]]

theorem clean_of_unchanged {t : Json} (h : (sanitizeJsonTree t).2 = false) : Clean t := by
  induction t using Json.induct with
  | null => exact .null
  | bool b => exact .bool b
  | number t => exact .number t
  | string s => exact .string (cleanText_iff.mpr (by simpa [sanitizeJsonTree] using h))
  | array items ih =>
      rw [sanitizeJsonTree_array] at h
      exact .array fun v hv => ih v hv (by simpa using List.any_eq_false.mp h v hv)
  | object map ih =>
      rw [sanitizeJsonTree_object] at h
      have hmember : ∀ m ∈ map, memberChanged m = false := fun m hm => by simpa using List.any_eq_false.mp h m hm
      refine .object (fun m hm => cleanText_iff.mpr ?_) fun m hm hplain => ih m hm ?_
      · simpa [memberChanged] using (Bool.or_eq_false_iff.mp (hmember m hm)).2
      · simpa [memberChanged, hplain] using (Bool.or_eq_false_iff.mp (hmember m hm)).1

/-- The answer is whether the tree was changed. -/
theorem changed_iff {t : Json} (h : Ordered t) : (sanitizeJsonTree t).2 = true ↔ (sanitizeJsonTree t).1 ≠ t := by
  constructor
  · intro hchanged heq
    have hself := sanitizeJsonTree_eq_self (heq ▸ clean_sanitizeJsonTree t) h
    rw [hself] at hchanged
    exact Bool.false_ne_true hchanged
  · intro hne
    by_contra hunchanged
    exact hne (by rw [sanitizeJsonTree_eq_self (clean_of_unchanged (Bool.eq_false_iff.mpr hunchanged)) h])

/-! ### Members and secrets -/

theorem unambiguous_of_clean {t : Json} (hclean : Clean t) (hordered : Ordered t) : Unambiguous t := by
  induction hclean with
  | null => exact .null
  | bool b => exact .bool b
  | number t => exact .number t
  | string h => exact .string _
  | array h ih =>
      cases hordered with
      | array hitems => exact .array fun v hv => ih v hv (hitems v hv)
  | object hkeys h ih =>
      cases hordered with
      | object hmap hvalues =>
          refine .object ?_ (fun m hm hplain _ => h m hm hplain) fun m hm hplain => ih m hm hplain (hvalues m hm)
          rw [List.map_congr_left fun m hm => sanitizeInvisible_eq_self (hkeys m hm)]
          exact hmap.nodup

section

variable {map : List (String × Json)}

theorem map_fst_sanitizeMember : (map.map sanitizeMember).map Prod.fst = map.map fun m => sanitizeInvisible m.1 :=
  List.map_map

variable (hkeys : (map.map fun m => sanitizeInvisible m.1).Nodup)

include hkeys

theorem eq_of_sanitizeInvisible_eq {m m' : String × Json} (hm : m ∈ map) (hm' : m' ∈ map)
    (h : sanitizeInvisible m.1 = sanitizeInvisible m'.1) : m = m' :=
  List.inj_on_of_nodup_map hkeys hm hm' h

theorem perm_rebuilt : (insertAll [] (map.map sanitizeMember)).Perm (map.map sanitizeMember) := by
  refine SortedMap.perm_insertAll_nil ?_
  rw [map_fst_sanitizeMember]
  exact hkeys

theorem mem_rebuilt_iff {m' : String × Json} :
    m' ∈ insertAll [] (map.map sanitizeMember) ↔ ∃ m ∈ map, sanitizeMember m = m' := by
  rw [(perm_rebuilt hkeys).mem_iff, List.mem_map]

end

theorem kept_sanitizeJsonTree {t : Json} (h : Unambiguous t) : Kept t (sanitizeJsonTree t).1 := by
  induction h with
  | null => exact .same _
  | bool b => exact .same _
  | number t => exact .same _
  | string s => exact .string _ _
  | array h ih =>
      rw [sanitizeJsonTree_array]
      refine .array (List.length_map _) fun p hp => ?_
      rw [← List.map_prod_left_eq_zip] at hp
      obtain ⟨v, hv, rfl⟩ := List.mem_map.mp hp
      exact ih v hv
  | object hkeys hsecret h ih =>
      rw [sanitizeJsonTree_object]
      refine .object (by rw [(perm_rebuilt hkeys).length_eq, List.length_map])
        (fun m hm => ⟨_, (mem_rebuilt_iff hkeys).mpr ⟨m, hm, rfl⟩, rfl⟩) fun m hm m' hm' hkey => ?_
      obtain ⟨m₀, hm₀, rfl⟩ := (mem_rebuilt_iff hkeys).mp hm'
      obtain rfl := eq_of_sanitizeInvisible_eq hkeys hm₀ hm hkey
      unfold sanitizeMember
      split
      · exact .same _
      · next hplain => exact ih m₀ hm (Bool.eq_false_iff.mpr hplain)

theorem secretsAsSent_sanitizeJsonTree {t : Json} (h : Unambiguous t) (hordered : Ordered t) :
    SecretsAsSent t (sanitizeJsonTree t).1 := by
  induction h with
  | null => exact .same _
  | bool b => exact .same _
  | number t => exact .same _
  | string s => exact .string _ _
  | array h ih =>
      cases hordered with
      | array hitems =>
          rw [sanitizeJsonTree_array]
          refine .array fun p hp => ?_
          rw [← List.map_prod_left_eq_zip] at hp
          obtain ⟨v, hv, rfl⟩ := List.mem_map.mp hp
          exact ih v hv (hitems v hv)
  | object hkeys hsecret h ih =>
      cases hordered with
      | object hmap hvalues =>
          rw [sanitizeJsonTree_object]
          refine .object (fun m' hm' hname => ?_) fun m' hm' hname m hm hkey => ?_
          · obtain ⟨m, hm, rfl⟩ := (mem_rebuilt_iff hkeys).mp hm'
            refine ⟨m, hm, rfl, ?_⟩
            unfold sanitizeMember
            split
            · rfl
            · next hplain =>
                -- The name came out of the cleaning, so only a clean value is still the one that was sent.
                rw [sanitizeJsonTree_eq_self (hsecret m hm (Bool.eq_false_iff.mpr hplain) hname) (hvalues m hm)]
          · obtain ⟨m₀, hm₀, rfl⟩ := (mem_rebuilt_iff hkeys).mp hm'
            obtain rfl := eq_of_sanitizeInvisible_eq hkeys hm₀ hm hkey
            unfold sanitizeMember
            split
            · exact .same _
            · next hplain => exact ih m₀ hm (Bool.eq_false_iff.mpr hplain) (hvalues m₀ hm)

theorem Kept.of_array {items items' : List Json} (h : Kept (.array items) (.array items')) :
    items' = items ∨ ∀ p ∈ items.zip items', Kept p.1 p.2 := by
  cases h with
  | same => exact .inl rfl
  | array _ h => exact .inr h

theorem Kept.of_object {map map' : List (String × Json)} (h : Kept (.object map) (.object map')) :
    map' = map ∨ map'.length = map.length ∧ ∀ m ∈ map, ∀ m' ∈ map', m'.1 = sanitizeInvisible m.1 → Kept m.2 m'.2 := by
  cases h with
  | same => exact .inl rfl
  | object hlen _ h => exact .inr ⟨hlen, h⟩

theorem SecretsAsSent.of_array {items items' : List Json} (h : SecretsAsSent (.array items) (.array items')) :
    items' = items ∨ ∀ p ∈ items.zip items', SecretsAsSent p.1 p.2 := by
  cases h with
  | same => exact .inl rfl
  | array h => exact .inr h

theorem SecretsAsSent.of_object {map map' : List (String × Json)} (h : SecretsAsSent (.object map) (.object map')) :
    map' = map ∨
      (∀ m' ∈ map', isSecretField m'.1 = true → ∃ m ∈ map, m'.1 = sanitizeInvisible m.1 ∧ m'.2 = m.2) ∧
      ∀ m' ∈ map', isSecretField m'.1 = false → ∀ m ∈ map, m'.1 = sanitizeInvisible m.1 → SecretsAsSent m.2 m'.2 := by
  cases h with
  | same => exact .inl rfl
  | object hsecret h => exact .inr ⟨hsecret, h⟩

/-- A tree that is what it was before is clean. -/
theorem unambiguous_of_eq {t : Json} (hordered : Ordered t) (h : (sanitizeJsonTree t).1 = t) : Unambiguous t :=
  unambiguous_of_clean (h ▸ clean_sanitizeJsonTree t) hordered

theorem unambiguous_of_kept {t : Json} (hordered : Ordered t) (hkept : Kept t (sanitizeJsonTree t).1)
    (hsent : SecretsAsSent t (sanitizeJsonTree t).1) : Unambiguous t := by
  induction t using Json.induct with
  | null => exact .null
  | bool b => exact .bool b
  | number t => exact .number t
  | string s => exact .string s
  | array items ih =>
      by_cases heq : (sanitizeJsonTree (.array items)).1 = .array items
      · exact unambiguous_of_eq hordered heq
      rw [sanitizeJsonTree_array] at hkept hsent heq
      have hne : ¬_ := fun h => heq (congrArg Json.array h)
      have hkept := hkept.of_array.resolve_left hne
      have hsent := hsent.of_array.resolve_left hne
      rw [← List.map_prod_left_eq_zip] at hkept hsent
      cases hordered with
      | array hitems =>
          refine .array fun v hv => ih v hv (hitems v hv) ?_ ?_
          · exact hkept _ (List.mem_map.mpr ⟨v, hv, rfl⟩)
          · exact hsent _ (List.mem_map.mpr ⟨v, hv, rfl⟩)
  | object map ih =>
      by_cases heq : (sanitizeJsonTree (.object map)).1 = .object map
      · exact unambiguous_of_eq hordered heq
      rw [sanitizeJsonTree_object] at hkept hsent heq
      have hne : ¬_ := fun h => heq (congrArg Json.object h)
      obtain ⟨hlen, hkept⟩ := hkept.of_object.resolve_left hne
      obtain ⟨hsecret, hsent⟩ := hsent.of_object.resolve_left hne
      have hkeys : (map.map fun m => sanitizeInvisible m.1).Nodup := by
        rw [← map_fst_sanitizeMember]
        exact SortedMap.nodup_of_length_insertAll (hlen.trans (List.length_map _).symm)
      cases hordered with
      | object hmap hvalues =>
          have hin : ∀ m ∈ map, isSecretField m.1 = false →
              (sanitizeInvisible m.1, (sanitizeJsonTree m.2).1) ∈ insertAll [] (map.map sanitizeMember) :=
            fun m hm hplain => (mem_rebuilt_iff hkeys).mpr ⟨m, hm, by simp [sanitizeMember, hplain]⟩
          have hclean : ∀ m ∈ map, isSecretField m.1 = false → isSecretField (sanitizeInvisible m.1) = true →
              Clean m.2 := fun m hm hplain hname => by
            obtain ⟨m', hm', hkey, hvalue⟩ := hsecret _ (hin m hm hplain) hname
            obtain rfl := eq_of_sanitizeInvisible_eq hkeys hm hm' hkey
            rw [← show (sanitizeJsonTree m.2).1 = m.2 from hvalue]
            exact clean_sanitizeJsonTree m.2
          refine .object hkeys hclean fun m hm hplain => ?_
          cases hname : isSecretField (sanitizeInvisible m.1) with
          | true => exact unambiguous_of_clean (hclean m hm hplain hname) (hvalues m hm)
          | false =>
              exact ih m hm (hvalues m hm) (hkept m hm _ (hin m hm hplain) rfl)
                (hsent _ (hin m hm hplain) hname m hm rfl)

/-! ### Requests -/

/-- A parsed request. -/
abbrev Tree : Type := { t : Json // Ordered t }

def Tree.sanitize (t : Tree) : Tree × Bool :=
  (⟨(sanitizeJsonTree t.1).1, ordered_sanitizeJsonTree t.2⟩, (sanitizeJsonTree t.1).2)

/-- What is expected of the sanitizer. -/
structure Sanitized (t : Tree) : Prop where
  idempotent : t.sanitize.1.sanitize = (t.sanitize.1, false)
  changed : t.sanitize.2 = true ↔ t.sanitize.1 ≠ t
  clean : Clean t.sanitize.1.1
  kept : Kept t.1 t.sanitize.1.1
  secrets : SecretsAsSent t.1 t.sanitize.1.1

/-- **Request sanitizing.**  A tree is sanitized as expected if and only if no two keys of one object come to the same,
and a key that only comes to the name of a secret holds nothing to clean. -/
theorem sanitized_iff (t : Tree) : Sanitized t ↔ Unambiguous t.1 := by
  constructor
  · intro h
    exact unambiguous_of_kept t.2 h.kept h.secrets
  · intro h
    refine ⟨?_, ?_, clean_sanitizeJsonTree t.1, kept_sanitizeJsonTree h, secretsAsSent_sanitizeJsonTree h t.2⟩
    · have hself := sanitizeJsonTree_eq_self (clean_sanitizeJsonTree t.1) (ordered_sanitizeJsonTree t.2)
      unfold Tree.sanitize
      simp only [hself]
    · have hne : (sanitizeJsonTree t.1).1 ≠ t.1 ↔ t.sanitize.1 ≠ t :=
        not_congr ⟨fun h => Subtype.ext h, fun h => congrArg Subtype.val h⟩
      exact (changed_iff t.2).trans hne

/-- A request with a key twice, once with a zero width space. -/
def twice : Json := .object [("a", .number "1"), ("a\u200b", .number "2")]

theorem ordered_twice : Ordered twice :=
  .object (List.pairwise_pair.mpr (by decide)) (by simp [Ordered.number])

/-- A password, whose key has a zero width space. -/
def hidden : Json := .object [("pass\u200bword", .string " x ")]

theorem ordered_hidden : Ordered hidden :=
  .object (List.pairwise_singleton _ _) (by simp [Ordered.string])

/-- Of two keys that come to the same one is dropped, and a password is trimmed before its key is cleaned. -/
theorem not_sanitized : ¬Sanitized ⟨twice, ordered_twice⟩ ∧ ¬Sanitized ⟨hidden, ordered_hidden⟩ := by
  constructor
  · intro h
    have hkept : Kept twice (.object [("a", .number "2")]) := h.kept
    rcases hkept.of_object with heq | ⟨hlen, -⟩
    · simp at heq
    · simp at hlen
  · intro h
    have hsent : SecretsAsSent hidden (.object [("password", .string "x")]) := h.secrets
    rcases hsent.of_object with heq | ⟨hsecret, -⟩
    · simp at heq
    · obtain ⟨m, hm, -, hvalue⟩ := hsecret _ (List.mem_singleton_self _) (by decide)
      obtain rfl := List.mem_singleton.mp hm
      simp at hvalue

end Mokosh.Sanitizer
