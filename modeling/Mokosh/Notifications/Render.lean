import Mathlib.Data.List.Infix
import Mokosh.Utils.Json
import Mokosh.Utils.Text

/-! # Templates of notifications

`render_template_as` of `notifications/service.rs` and `html_escape` of `utils/html.rs`.

The scanner looks for two opening braces, then for two closing ones, and goes on behind them.  `Pieces` is the grammar
of a template: literal text and placeholders, cut at the first braces.  A template is cut in one way
(`pieces_unique`), and **`render_single_pass`** says that what is rendered is its pieces, each written on its own. -/

namespace Mokosh.Notifications

open Workflows (Json)

/-! ### html_escape -/

/-- `str::replace` of a character. -/
def replaceChar (c : Char) (by' : List Char) (s : List Char) : List Char :=
  s.flatMap fun d => if d = c then by' else [d]

def htmlEscape (s : List Char) : List Char :=
  replaceChar '"' "&quot;".toList
    (replaceChar '>' "&gt;".toList (replaceChar '<' "&lt;".toList (replaceChar '&' "&amp;".toList s)))

/-- What `html_escape` makes of one character. -/
def escaped (c : Char) : List Char :=
  if c = '&' then "&amp;".toList
  else if c = '<' then "&lt;".toList
  else if c = '>' then "&gt;".toList
  else if c = '"' then "&quot;".toList
  else [c]

/-- No later replacement touches what an earlier one wrote. -/
theorem htmlEscape_eq_flatMap (s : List Char) : htmlEscape s = s.flatMap escaped := by
  unfold htmlEscape replaceChar
  rw [List.flatMap_assoc, List.flatMap_assoc, List.flatMap_assoc]
  refine congrArg (s.flatMap ·) (funext fun c => ?_)
  unfold escaped
  split
  · next h =>
      subst h
      rfl
  · split
    · next h =>
        subst h
        rfl
    · split
      · next h =>
          subst h
          rfl
      · simp [*]

/-- Text without `&`, `<`, `>` and `"`, and entities. -/
inductive Escaped : List Char → Prop where
  | nil : Escaped []
  | char {c : Char} {s : List Char} (hc : c ∉ ['&', '<', '>', '"']) (hs : Escaped s) : Escaped (c :: s)
  | entity {e s : List Char} (he : e ∈ ["&amp;", "&lt;", "&gt;", "&quot;"].map String.toList) (hs : Escaped s) :
      Escaped (e ++ s)

theorem escaped_htmlEscape (s : List Char) : Escaped (htmlEscape s) := by
  rw [htmlEscape_eq_flatMap]
  induction s with
  | nil => exact .nil
  | cons c s ih =>
      rw [List.flatMap_cons]
      unfold escaped
      split
      · exact .entity (by simp) ih
      · split
        · exact .entity (by simp) ih
        · split
          · exact .entity (by simp) ih
          · split
            · exact .entity (by simp) ih
            · exact .char (by simp_all) ih

/-! ### The scanner -/

/-- `str::find` of a character twice: what is before it, and what is after. -/
def findPair (c : Char) : List Char → Option (List Char × List Char)
  | a :: b :: rest =>
    if a = c ∧ b = c then some ([], rest)
    else (findPair c (b :: rest)).map fun (before, after) => (a :: before, after)
  | _ => none

/-- Two of the character, one after the other. -/
def HasPair (c : Char) (s : List Char) : Prop := [c, c] <:+: s

theorem not_hasPair_nil (c : Char) : ¬HasPair c [] := fun h => by
  cases List.infix_nil.mp h

theorem not_hasPair_single (c a : Char) : ¬HasPair c [a] := fun h => by
  have := h.length_le
  simp at this

theorem hasPair_cons_cons {c a b : Char} {s : List Char} :
    HasPair c (a :: b :: s) ↔ a = c ∧ b = c ∨ HasPair c (b :: s) := by
  unfold HasPair
  rw [List.infix_cons_iff, List.cons_prefix_cons, List.cons_prefix_cons]
  simp [eq_comm]

/-- What a text starts with up to the first pair starts with its first character. -/
theorem exists_cons_of_append {c b : Char} {before after s : List Char} (h : b :: s = before ++ c :: after) :
    ∃ t, before ++ [c] = b :: t := by
  cases before with
  | nil =>
      cases h
      exact ⟨[], rfl⟩
  | cons d before =>
      cases h
      exact ⟨_, rfl⟩

theorem findPair_eq_some_iff {c : Char} {s before after : List Char} :
    findPair c s = some (before, after) ↔ s = before ++ c :: c :: after ∧ ¬HasPair c (before ++ [c]) := by
  induction s generalizing before with
  | nil =>
      refine iff_of_false (by simp [findPair]) fun h => ?_
      have := congrArg List.length h.1
      simp at this
  | cons a s ih =>
      cases s with
      | nil =>
          refine iff_of_false (by simp [findPair]) fun h => ?_
          have := congrArg List.length h.1
          simp at this
          omega
      | cons b rest =>
          unfold findPair
          split
          · next hab =>
              obtain ⟨rfl, rfl⟩ := hab
              constructor
              · intro h
                cases h
                exact ⟨rfl, not_hasPair_single _ _⟩
              · rintro ⟨heq, hno⟩
                cases before with
                | nil =>
                    cases heq
                    rfl
                | cons d before =>
                    obtain ⟨hhead, htail⟩ := List.cons.inj heq
                    obtain ⟨t, ht⟩ := exists_cons_of_append htail
                    rw [List.cons_append, ht] at hno
                    exact absurd (hasPair_cons_cons.mpr (.inl ⟨hhead.symm, rfl⟩)) hno
          · next hab =>
              constructor
              · intro h
                obtain ⟨⟨before', after'⟩, hfind, heq⟩ := Option.map_eq_some_iff.mp h
                cases heq
                obtain ⟨heq, hno⟩ := ih.mp hfind
                obtain ⟨t, ht⟩ := exists_cons_of_append heq
                refine ⟨by rw [heq]; rfl, fun hpair => ?_⟩
                rw [List.cons_append, ht, hasPair_cons_cons, ← ht] at hpair
                exact hpair.elim hab hno
              · rintro ⟨heq, hno⟩
                cases before with
                | nil =>
                    cases heq
                    exact absurd ⟨rfl, rfl⟩ hab
                | cons d before =>
                    obtain ⟨rfl, htail⟩ := List.cons.inj heq
                    obtain ⟨t, ht⟩ := exists_cons_of_append htail
                    refine Option.map_eq_some_iff.mpr ⟨(before, after), ih.mpr ⟨htail, fun hpair => hno ?_⟩, rfl⟩
                    rw [List.cons_append, ht, hasPair_cons_cons, ← ht]
                    exact .inr hpair

theorem findPair_eq_none_iff {c : Char} {s : List Char} : findPair c s = none ↔ ¬HasPair c s := by
  induction s with
  | nil => exact iff_of_true rfl (not_hasPair_nil c)
  | cons a s ih =>
      cases s with
      | nil => exact iff_of_true rfl (not_hasPair_single c a)
      | cons b rest =>
          unfold findPair
          rw [hasPair_cons_cons]
          split
          · next hab => exact iff_of_false (by simp) (not_not.mpr (.inl hab))
          · next hab => rw [Option.map_eq_none_iff, ih, or_iff_right hab]

theorem length_of_findPair {c : Char} {s before after : List Char} (h : findPair c s = some (before, after)) :
    after.length < s.length := by
  obtain ⟨rfl, -⟩ := findPair_eq_some_iff.mp h
  rw [List.length_append, List.length_cons, List.length_cons]
  omega

/-! ### render_template_as -/

inductive Escape where
  | text
  | html
deriving DecidableEq, Repr

def markupKeys : List (List Char) :=
  ["logo_html", "abuse_notice_html", "msp_footer_line_html"].map String.toList

/-- `emit`. -/
def emit (escape : Escape) (key value : List Char) : List Char :=
  if escape = .html ∧ !markupKeys.contains key then htmlEscape value else value

theorem emit_eq (escape : Escape) (key value : List Char) :
    emit escape key value = if escape = .html ∧ key ∉ markupKeys then htmlEscape value else value := by
  simp [emit]

/-- A string is written as it is, and any other value as its JSON. -/
def valueText : Json → List Char
  | .string s => s.toList
  | v => v.text

/-- `context.get(key)`. -/
def contextValue (context : Json) (key : List Char) : Option (List Char) :=
  (context.get (.ofList key)).map valueText

def braces : List Char × List Char := (['{', '{'], ['}', '}'])

/-- `unresolved` with the key, if it is not in it yet. -/
def note (noted : List (List Char)) (key : List Char) : List (List Char) :=
  if noted.contains key then noted else noted ++ [key]

section

variable (context : Json) (escape : Escape)

/-- The loop. -/
def renderLoop (rest out : List Char) (unresolved : List (List Char)) : List Char × List (List Char) :=
  match _h : findPair '{' rest with
  | none => (out ++ rest, unresolved)
  | some (before, after) =>
    match _h' : findPair '}' after with
    | none => (out ++ before ++ braces.1 ++ after, unresolved)
    | some (inner, rest') =>
      let key := Text.trim inner
      match contextValue context key with
      | some value => renderLoop rest' (out ++ before ++ emit escape key value) unresolved
      | none =>
        renderLoop rest' (out ++ before ++ braces.1 ++ inner ++ braces.2)
          (note unresolved key)
termination_by rest.length
decreasing_by
  all_goals exact (length_of_findPair _h').trans (length_of_findPair _h)

def renderTemplateAs (input : List Char) : List Char × List (List Char) := renderLoop context escape input [] []

end

/-! ### Templates -/

inductive Piece where
  | literal (text : List Char)
  | placeholder (inner : List Char)

namespace Piece

/-- The key of a placeholder. -/
def key : Piece → Option (List Char)
  | literal _ => none
  | placeholder inner => some (Text.trim inner)

/-- What a piece is in the template. -/
def source : Piece → List Char
  | literal text => text
  | placeholder inner => braces.1 ++ inner ++ braces.2

/-- What a piece is in the output. -/
def written (context : Json) (escape : Escape) : Piece → List Char
  | literal text => text
  | placeholder inner =>
    match contextValue context (Text.trim inner) with
    | some value => emit escape (Text.trim inner) value
    | none => source (placeholder inner)

/-- The key of a placeholder that the context does not have. -/
def missing (context : Json) (p : Piece) : Option (List Char) :=
  p.key.filter fun key => (contextValue context key).isNone

section

variable {context : Json} {escape : Escape} {inner value : List Char}

theorem written_of_some (h : contextValue context (Text.trim inner) = some value) :
    written context escape (placeholder inner) = emit escape (Text.trim inner) value := by
  dsimp only [written]
  rw [h]

theorem written_of_none (h : contextValue context (Text.trim inner) = none) :
    written context escape (placeholder inner) = source (placeholder inner) := by
  dsimp only [written]
  rw [h]

theorem missing_of_some (h : contextValue context (Text.trim inner) = some value) :
    missing context (placeholder inner) = none := by
  simp [missing, key, h]

theorem missing_of_none (h : contextValue context (Text.trim inner) = none) :
    missing context (placeholder inner) = some (Text.trim inner) := by
  simp [missing, key, h]

end

end Piece

/-- The pieces of a template: up to the first two opening braces it is literal, and from there to the first two
closing ones it is a placeholder, if they come. -/
inductive Pieces : List Char → List Piece → Prop where
  | rest {text : List Char} (h : ¬HasPair '{' text) : Pieces text [.literal text]
  | unclosed {before after : List Char} (hopen : ¬HasPair '{' (before ++ ['{'])) (hclose : ¬HasPair '}' after) :
      Pieces (before ++ braces.1 ++ after) [.literal (before ++ braces.1 ++ after)]
  | placeholder {before inner after : List Char} {ps : List Piece} (hopen : ¬HasPair '{' (before ++ ['{']))
      (hclose : ¬HasPair '}' (inner ++ ['}'])) (h : Pieces after ps) :
      Pieces (before ++ Piece.source (.placeholder inner) ++ after) (.literal before :: .placeholder inner :: ps)

/-- The pieces, by the first pairs of braces. -/
def cut (text : List Char) : List Piece :=
  match _h : findPair '{' text with
  | none => [.literal text]
  | some (before, after) =>
    match _h' : findPair '}' after with
    | none => [.literal text]
    | some (inner, rest) => .literal before :: .placeholder inner :: cut rest
termination_by text.length
decreasing_by exact (length_of_findPair _h').trans (length_of_findPair _h)

theorem cut_of_none {text : List Char} (h : findPair '{' text = none) : cut text = [.literal text] := by
  unfold cut
  split
  · rfl
  · next heq =>
      rw [h] at heq
      cases heq

theorem cut_of_unclosed {text before after : List Char} (h : findPair '{' text = some (before, after))
    (h' : findPair '}' after = none) : cut text = [.literal text] := by
  unfold cut
  split
  · rfl
  · next heq =>
      rw [h] at heq
      cases heq
      split
      · rfl
      · next heq' =>
          rw [h'] at heq'
          cases heq'

theorem cut_of_placeholder {text before after inner rest : List Char} (h : findPair '{' text = some (before, after))
    (h' : findPair '}' after = some (inner, rest)) :
    cut text = .literal before :: .placeholder inner :: cut rest := by
  rw [cut]
  split
  · next heq =>
      rw [h] at heq
      cases heq
  · next heq =>
      rw [h] at heq
      cases heq
      split
      · next heq' =>
          rw [h'] at heq'
          cases heq'
      · next heq' =>
          rw [h'] at heq'
          cases heq'
          rfl

theorem pieces_cut (text : List Char) : Pieces text (cut text) := by
  fun_induction cut text with
  | case1 text h => exact .rest (findPair_eq_none_iff.mp h)
  | case2 text before after h h' =>
      obtain ⟨rfl, hopen⟩ := findPair_eq_some_iff.mp h
      simpa [braces] using Pieces.unclosed hopen (findPair_eq_none_iff.mp h')
  | case3 text before after h inner rest h' ih =>
      obtain ⟨rfl, hopen⟩ := findPair_eq_some_iff.mp h
      obtain ⟨rfl, hclose⟩ := findPair_eq_some_iff.mp h'
      simpa [Piece.source, braces] using Pieces.placeholder hopen hclose ih

/-- A template is cut in one way. -/
theorem Pieces.eq_cut {text : List Char} {ps : List Piece} (h : Pieces text ps) : ps = cut text := by
  induction h with
  | rest h => exact (cut_of_none (findPair_eq_none_iff.mpr h)).symm
  | @unclosed before after hopen hclose =>
      refine (cut_of_unclosed (findPair_eq_some_iff.mpr ⟨?_, hopen⟩) (findPair_eq_none_iff.mpr hclose)).symm
      simp [braces]
  | @placeholder before inner after ps hopen hclose h ih =>
      rw [ih]
      refine (cut_of_placeholder (findPair_eq_some_iff.mpr ⟨?_, hopen⟩)
        (findPair_eq_some_iff.mpr ⟨rfl, hclose⟩)).symm
      simp [Piece.source, braces]

/-! ### Keys that are missing -/

/-- The noted keys are those of the list, in the order in which they come first. -/
structure FirstOccurrences (keys noted : List (List Char)) : Prop where
  mem : ∀ k, k ∈ noted ↔ k ∈ keys
  order : noted.Pairwise fun k k' => keys.idxOf k < keys.idxOf k'

theorem FirstOccurrences.note {keys noted : List (List Char)} (h : FirstOccurrences keys noted) (key : List Char) :
    FirstOccurrences (keys ++ [key]) (note noted key) := by
  have hidx : ∀ {k}, k ∈ noted → (keys ++ [key]).idxOf k = keys.idxOf k := fun hk =>
    List.idxOf_append_of_mem ((h.mem _).mp hk)
  have horder : noted.Pairwise fun k k' => (keys ++ [key]).idxOf k < (keys ++ [key]).idxOf k' := by
    refine h.order.imp_of_mem fun hk hk' hlt => ?_
    rw [hidx hk, hidx hk']
    exact hlt
  unfold Notifications.note
  split
  · next hin =>
      have hin : key ∈ noted := List.contains_iff_mem.mp hin
      refine ⟨fun k => ?_, horder⟩
      rw [h.mem, List.mem_append, List.mem_singleton]
      exact ⟨.inl, fun hk => hk.elim id fun heq => heq ▸ (h.mem key).mp hin⟩
  · next hout =>
      have hout : key ∉ noted := fun hin => hout (List.contains_iff_mem.mpr hin)
      refine ⟨fun k => by rw [List.mem_append, List.mem_append, h.mem], ?_⟩
      refine List.pairwise_append.mpr ⟨horder, List.pairwise_singleton _ _, fun k hk k' hk' => ?_⟩
      obtain rfl := List.mem_singleton.mp hk'
      rw [hidx hk, List.idxOf_append_of_notMem (fun hin => hout ((h.mem _).mpr hin))]
      exact (List.idxOf_lt_length_of_mem ((h.mem k).mp hk)).trans_le (Nat.le_add_right _ _)

theorem firstOccurrences_foldl {keys noted : List (List Char)} (h : FirstOccurrences keys noted)
    (more : List (List Char)) : FirstOccurrences (keys ++ more) (more.foldl note noted) := by
  induction more generalizing keys noted with
  | nil =>
      rw [List.append_nil]
      exact h
  | cons key more ih =>
      rw [List.append_cons]
      exact ih (h.note key)

/-! ### The output -/

section

variable (context : Json) (escape : Escape)

/-- The loop writes the pieces of what is left, and notes their missing keys. -/
theorem renderLoop_eq (rest out : List Char) (unresolved : List (List Char)) :
    renderLoop context escape rest out unresolved =
      (out ++ (cut rest).flatMap (Piece.written context escape),
        ((cut rest).filterMap (Piece.missing context)).foldl note unresolved) := by
  fun_induction renderLoop context escape rest out unresolved with
  | case1 rest out unresolved h =>
      rw [cut_of_none h, List.flatMap_singleton]
      rfl
  | case2 rest out unresolved before after h h' =>
      rw [cut_of_unclosed h h', List.flatMap_singleton, (findPair_eq_some_iff.mp h).1]
      refine Prod.ext ?_ rfl
      simp [Piece.written, braces]
  | case3 rest out unresolved before after h inner rest' h' key value hvalue ih =>
      rw [ih, cut_of_placeholder h h', List.flatMap_cons, List.flatMap_cons, List.filterMap_cons,
        List.filterMap_cons, Piece.written_of_some hvalue, Piece.missing_of_some hvalue]
      refine Prod.ext ?_ rfl
      simp [Piece.written, key]
  | case4 rest out unresolved before after h inner rest' h' key hvalue ih =>
      rw [ih, cut_of_placeholder h h', List.flatMap_cons, List.flatMap_cons, List.filterMap_cons,
        List.filterMap_cons, Piece.written_of_none hvalue, Piece.missing_of_none hvalue]
      refine Prod.ext ?_ rfl
      simp [Piece.written, Piece.source, braces]

/-- **Rendering is a single pass over the pieces of the template.**  Every piece is written on its own: a literal as it
is, a placeholder as its value, escaped in HTML unless its key is one of markup, or as it stands if the context has
none.  Escaped values have no markup, and `unresolved` has the missing keys, each once, in the order of their first
placeholders. -/
theorem render_single_pass (input : List Char) :
    ∃ ps, Pieces input ps ∧ (∀ ps', Pieces input ps' → ps' = ps) ∧
      (renderTemplateAs context escape input).1 = ps.flatMap (Piece.written context escape) ∧
      (∀ p ∈ ps, ∀ key value, p.key = some key → contextValue context key = some value →
        p.written context escape = (if escape = .html ∧ key ∉ markupKeys then htmlEscape value else value) ∧
        (escape = .html → key ∉ markupKeys → Escaped (p.written context escape))) ∧
      (∀ p ∈ ps, (∀ key, p.key = some key → contextValue context key = none) →
        p.written context escape = p.source) ∧
      FirstOccurrences (ps.filterMap (Piece.missing context)) (renderTemplateAs context escape input).2 := by
  have heq : renderTemplateAs context escape input = _ := renderLoop_eq context escape input [] []
  refine ⟨cut input, pieces_cut input, fun ps' h => h.eq_cut, by rw [heq, List.nil_append], ?_, ?_, ?_⟩
  · rintro (text | inner) - key value hkey hvalue
    · cases hkey
    · obtain rfl := Option.some.inj hkey
      rw [Piece.written_of_some hvalue]
      refine ⟨emit_eq .., fun hhtml hmarkup => ?_⟩
      rw [emit_eq, if_pos ⟨hhtml, hmarkup⟩]
      exact escaped_htmlEscape value
  · rintro (text | inner) - hnone
    · rfl
    · exact Piece.written_of_none (hnone _ rfl)
  · rw [heq]
    exact firstOccurrences_foldl ⟨fun _ => Iff.rfl, List.Pairwise.nil⟩ _

end

end Mokosh.Notifications
