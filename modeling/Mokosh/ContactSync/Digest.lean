import Mokosh.ContactSync.Vcard

/-! # The digest of a card

`content_hash` of `vcard.rs`, over every way to lay out the lines of a card: the break that folds a line, CR LF or LF
and a space or a tab, may stand anywhere in it, and more than once.

`Laid` reads a text as its lines.  Each of the four replacements takes one kind of break out and leaves the rest as it
is (`Laid.removeAll`), because no line begins with a blank.

**`contentHash_laid`**: the digest depends on the lines that are not `REV` or `PRODID`, in any order, and on nothing
else. -/

namespace Mokosh.ContactSync

/-- The breaks that fold a line, in the order in which they are taken out. -/
def folds : List (List Char) := [['\r', '\n', ' '], ['\r', '\n', '\t'], ['\n', ' '], ['\n', '\t']]

def lineEnds : List (List Char) := [['\r', '\n'], ['\n']]

/-- A text of lines: of the first of them, `line` is left, and `lines` follow it. -/
inductive Laid (folds : List (List Char)) : List Char → List (List Char) → List Char → Prop where
  | stop : Laid folds [] [] []
  | last {e : List Char} (he : e ∈ lineEnds) : Laid folds [] [] e
  | char {line text : List Char} {lines : List (List Char)} {c : Char} (hc : c ≠ '\r' ∧ c ≠ '\n')
      (h : Laid folds line lines text) : Laid folds (c :: line) lines (c :: text)
  | fold {line text b : List Char} {lines : List (List Char)} (hb : b ∈ folds) (h : Laid folds line lines text) :
      Laid folds line lines (b ++ text)
  | next {line text e : List Char} {lines : List (List Char)} (he : e ∈ lineEnds) (h : Laid folds line lines text) :
      Laid folds [] (line :: lines) (e ++ text)

/-- A text of lines, each of them folded anywhere and ended by CR LF or LF. -/
def LaidOut (lines : List (List Char)) (text : List Char) : Prop :=
  match lines with
  | [] => text = []
  | line :: lines => Laid folds line lines text

def startsBlank (line : List Char) : Bool := line.head?.any fun c => c = ' ' || c = '\t'

/-- A line of a card. -/
structure Logical (line : List Char) : Prop where
  nonblank : trim (String.ofList line) ≠ ""
  start : startsBlank line = false

/-- The name of a line's property, without its group. -/
def lineName (line : List Char) : List Char := afterLastDot (line.takeWhile fun c => c ≠ ';' && c ≠ ':')

/-- What an exporter stamps on every export. -/
def isStamp (line : List Char) : Bool :=
  asciiCaseEq (lineName line) ['r', 'e', 'v'] || asciiCaseEq (lineName line) ['p', 'r', 'o', 'd', 'i', 'd']

/-! ### Taking breaks out -/

theorem removeAll_cons_of_ne {p : List Char} {c d : Char} (h : d ≠ c) (text : List Char) :
    removeAll (d :: p) 0 (c :: text) = c :: removeAll (d :: p) 0 text := by
  rw [removeAll, if_neg]
  simp [List.isPrefixOf, h]

/-- What is to be removed is removed. -/
theorem removeAll_append_self {c : Char} (p text : List Char) :
    removeAll (c :: p) 0 (c :: p ++ text) = removeAll (c :: p) 0 text := by
  have hskip (q : List Char) : removeAll (c :: p) q.length (q ++ text) = removeAll (c :: p) 0 text := by
    induction q with
    | nil => rfl
    | cons d q ih => exact ih
  have hprefix : (c :: p).isPrefixOf (c :: p ++ text) = true := List.isPrefixOf_iff_prefix.mpr ⟨text, rfl⟩
  rw [List.cons_append, removeAll, if_pos (by rwa [← List.cons_append])]
  exact hskip p

/-- The text of a line does not begin with a blank, unless the line does. -/
theorem Laid.startsBlank {fs : List (List Char)} {line text : List Char} {lines : List (List Char)}
    (hfs : fs ⊆ folds) (h : Laid fs line lines text) (hline : ContactSync.startsBlank line = false) :
    ContactSync.startsBlank text = false := by
  have hends : ∀ e ∈ lineEnds, ∀ text, ContactSync.startsBlank (e ++ text) = false := by
    simp [lineEnds, ContactSync.startsBlank]
  have hfolds : ∀ b ∈ folds, ∀ text, ContactSync.startsBlank (b ++ text) = false := by
    simp [folds, ContactSync.startsBlank]
  cases h with
  | stop => rfl
  | last he => exact List.append_nil text ▸ hends text he []
  | char hc h => exact hline
  | fold hb h => exact hfolds _ (hfs hb) _
  | next he h => exact hends _ he _

/-- Taking out one kind of break leaves the lines as they are, and their other breaks. -/
theorem Laid.removeAll {fs : List (List Char)} {c : Char} {p line text : List Char} {lines : List (List Char)}
    (hc : c = '\r' ∨ c = '\n') (hfs : (c :: p) :: fs ⊆ folds)
    (hother : ∀ b ∈ fs, ∀ text, ContactSync.removeAll (c :: p) 0 (b ++ text) =
      b ++ ContactSync.removeAll (c :: p) 0 text)
    (hends : ∀ e ∈ lineEnds, ∀ text, ContactSync.startsBlank text = false →
      ContactSync.removeAll (c :: p) 0 (e ++ text) = e ++ ContactSync.removeAll (c :: p) 0 text)
    (h : Laid ((c :: p) :: fs) line lines text) (hlines : ∀ l ∈ lines, ContactSync.startsBlank l = false) :
    Laid fs line lines (ContactSync.removeAll (c :: p) 0 text) := by
  induction h with
  | stop => exact .stop
  | @last e he =>
      have heq := hends e he [] rfl
      rw [List.append_nil] at heq
      rw [heq]
      exact .last (by simpa [ContactSync.removeAll] using he)
  | @char line text lines d hd h ih =>
      have hne : c ≠ d := by
        rcases hc with rfl | rfl
        · exact hd.1.symm
        · exact hd.2.symm
      rw [removeAll_cons_of_ne hne]
      exact .char hd (ih hlines)
  | @fold line text b lines hb h ih =>
      rcases List.mem_cons.mp hb with rfl | hb
      · rw [removeAll_append_self]
        exact ih hlines
      · rw [hother b hb]
        exact .fold hb (ih hlines)
  | @next line text e lines he h ih =>
      have hblank := h.startsBlank hfs (hlines line List.mem_cons_self)
      rw [hends e he text hblank]
      exact .next he (ih fun l hl => hlines l (List.mem_cons_of_mem _ hl))

/-- No line end is taken for a break when no blank follows it. -/
theorem removeAll_lineEnd {p : List Char} (hp : p ∈ folds) :
    ∀ e ∈ lineEnds, ∀ text, startsBlank text = false → removeAll p 0 (e ++ text) = e ++ removeAll p 0 text := by
  intro e he text htext
  have hspace : ∀ rest, text ≠ ' ' :: rest := fun rest h => by simp [h, startsBlank] at htext
  have htab : ∀ rest, text ≠ '\t' :: rest := fun rest h => by simp [h, startsBlank] at htext
  simp only [folds, lineEnds, List.mem_cons, List.not_mem_nil, or_false] at hp he
  rcases hp with rfl | rfl | rfl | rfl <;> rcases he with rfl | rfl <;> cases text with
  | nil => simp [removeAll, List.isPrefixOf]
  | cons c text => 
      have hc : ' ' ≠ c := fun h => hspace text (h ▸ rfl)
      have hc' : '\t' ≠ c := fun h => htab text (h ▸ rfl)
      simp [removeAll, List.isPrefixOf, hc, hc']

/-- What is taken out first is not part of what is taken out later. -/
theorem folds_pairwise :
    folds.Pairwise fun p b => ∀ text, removeAll p 0 (b ++ text) = b ++ removeAll p 0 text := by
  simp [folds, removeAll, List.isPrefixOf]

/-- The replacements of `content_hash`. -/
def unfolded (text : List Char) : List Char := folds.foldl (fun text p => removeAll p 0 text) text

theorem Laid.foldl_removeAll {fs : List (List Char)} {line text : List Char} {lines : List (List Char)}
    (hfs : fs ⊆ folds)
    (hpair : fs.Pairwise fun p b => ∀ text, ContactSync.removeAll p 0 (b ++ text) =
      b ++ ContactSync.removeAll p 0 text)
    (h : Laid fs line lines text) (hlines : ∀ l ∈ lines, ContactSync.startsBlank l = false) :
    Laid [] line lines (fs.foldl (fun text p => ContactSync.removeAll p 0 text) text) := by
  induction fs generalizing text with
  | nil => exact h
  | cons p fs ih =>
      obtain ⟨hp, hrest⟩ := List.pairwise_cons.mp hpair
      have hmem : p ∈ folds := hfs List.mem_cons_self
      obtain ⟨c, p, rfl, hc⟩ : ∃ c p', p = c :: p' ∧ (c = '\r' ∨ c = '\n') := by
        simp only [folds, List.mem_cons, List.not_mem_nil, or_false] at hmem
        rcases hmem with rfl | rfl | rfl | rfl <;> simp
      exact ih (fun b hb => hfs (List.mem_cons_of_mem _ hb)) hrest
        (h.removeAll hc hfs hp (removeAll_lineEnd hmem) hlines)

/-! ### The lines of a text without breaks -/

/-- What `content_hash` takes of a line: no line end and no carriage return before it. -/
def stripEnd (line : List Char) : List Char := ((trimEol line).reverse.dropWhile (· = '\r')).reverse

theorem stripEnd_append {line e : List Char} (hline : ∀ c ∈ line, c ≠ '\r' ∧ c ≠ '\n') (he : e ∈ [] :: lineEnds) :
    stripEnd (line ++ e) = line := by
  have hdrop : line.reverse.dropWhile (· = '\r') = line.reverse := by
    cases hrev : line.reverse with
    | nil => rfl
    | cons c rest =>
        have hmem : c ∈ line := List.mem_reverse.mp (hrev ▸ List.mem_cons_self)
        exact List.dropWhile_cons_of_neg (by simpa using (hline c hmem).1)
  have hlast {c : Char} (hc : c = '\r' ∨ c = '\n') : line.getLast? ≠ some c := by
    intro h
    have hmem := hline c (List.mem_of_getLast? h)
    exact hc.elim hmem.1 hmem.2
  have hstrip : trimEol (line ++ e) = line := by
    unfold trimEol stripSuffix
    simp only [lineEnds, List.mem_cons, List.not_mem_nil, or_false] at he
    rcases he with rfl | rfl | rfl
    · rw [List.append_nil, if_neg (hlast (.inr rfl)), if_neg (hlast (.inl rfl))]
    · simp
    · simp [hlast (.inl rfl)]
  rw [stripEnd, hstrip, hdrop, List.reverse_reverse]

/-- The lines of a text without breaks, of whose first line `read` has been read, last character first. -/
theorem Laid.readLines {line text : List Char} {lines : List (List Char)} (h : Laid [] line lines text)
    (read : List Char) (hread : ∀ c ∈ read, c ≠ '\r' ∧ c ≠ '\n') (hline : read.reverse ++ line ≠ [])
    (hlines : ∀ l ∈ lines, l ≠ []) :
    (ContactSync.readLines read text).map stripEnd = (read.reverse ++ line) :: lines := by
  have hback {e : List Char} (read : List Char) (hread : ∀ c ∈ read, c ≠ '\r' ∧ c ≠ '\n') (he : e ∈ [] :: lineEnds) :
      stripEnd (read.reverse ++ e) = read.reverse :=
    stripEnd_append (fun c hc => hread c (List.mem_reverse.mp hc)) he
  have hend {e : List Char} (he : e ∈ lineEnds) (read text : List Char) :
      ContactSync.readLines read (e ++ text) = (read.reverse ++ e) :: ContactSync.readLines [] text := by
    simp only [lineEnds, List.mem_cons, List.not_mem_nil, or_false] at he
    rcases he with rfl | rfl <;> simp [ContactSync.readLines]
  generalize hfs : [] = fs at h
  induction h generalizing read with
  | stop =>
      rw [List.append_nil] at hline ⊢
      have hne : read ≠ [] := fun h => hline (by rw [h]; rfl)
      have hstrip := hback read hread (List.mem_cons_self (a := []))
      rw [List.append_nil] at hstrip
      rw [ContactSync.readLines, if_neg hne, List.map_singleton, hstrip]
  | @last e he =>
      have hlast := hend he read []
      rw [List.append_nil] at hlast
      rw [hlast, List.map_cons, hback read hread (List.mem_cons_of_mem _ he), List.append_nil]
      rfl
  | @char line text lines c hc h ih =>
      have hread' : ∀ d ∈ c :: read, d ≠ '\r' ∧ d ≠ '\n' := List.forall_mem_cons.mpr ⟨hc, hread⟩
      have hshift : (c :: read).reverse ++ line = read.reverse ++ c :: line := by simp
      rw [ContactSync.readLines, if_neg hc.2, ← hshift]
      exact ih (c :: read) hread' (by simp) hlines
  | fold hb h =>
      subst hfs
      exact absurd hb List.not_mem_nil
  | @next line text e lines he h ih =>
      have hne : line ≠ [] := hlines line List.mem_cons_self
      have hrest := ih [] (fun _ h => absurd h List.not_mem_nil) hne
        (fun l hl => hlines l (List.mem_cons_of_mem _ hl))
      rw [hend he, List.map_cons, hback read hread (List.mem_cons_of_mem _ he), hrest, List.append_nil]
      rfl

/-! ### The digest -/

/-- The lines that count, in order. -/
def counted (lines : List (List Char)) : List (List Char) :=
  ((lines.filter fun l => decide (trim (String.ofList l) ≠ "")).filter fun l => !isStamp l).insertionSort
    fun a b => a ≤ b

theorem contentHash_eq (rt : Runtime) (text : List Char) :
    contentHash rt text =
      rt.sha256 (String.ofList (['\n'].intercalate (counted ((readLines [] (unfolded text)).map stripEnd)))) := by
  have hstamp : ∀ l : List Char, (!isStamp l) = (!asciiCaseEq (lineName l) ['r', 'e', 'v'] &&
      !asciiCaseEq (lineName l) ['p', 'r', 'o', 'd', 'i', 'd']) := fun l => Bool.not_or ..
  unfold counted
  simp only [hstamp]
  rfl

/-- The text of the lines of a card is read as these lines. -/
theorem readLines_unfolded {lines : List (List Char)} {text : List Char} (hlines : ∀ l ∈ lines, Logical l)
    (h : LaidOut lines text) : (readLines [] (unfolded text)).map stripEnd = lines := by
  cases lines with
  | nil =>
      obtain rfl : text = [] := h
      rfl
  | cons line lines =>
      have hne : ∀ l ∈ line :: lines, l ≠ [] := fun l hl hnil => (hlines l hl).nonblank (hnil ▸ rfl)
      have hstart : ∀ l ∈ lines, startsBlank l = false := fun l hl => (hlines l (List.mem_cons_of_mem _ hl)).start
      have hbare := Laid.foldl_removeAll (List.Subset.refl _) folds_pairwise h hstart
      exact hbare.readLines [] (fun _ h => absurd h List.not_mem_nil) (hne line List.mem_cons_self)
        fun l hl => hne l (List.mem_cons_of_mem _ hl)

theorem counted_perm {lines lines' : List (List Char)} (hlines : ∀ l ∈ lines, Logical l)
    (hlines' : ∀ l ∈ lines', Logical l)
    (hsame : (lines.filter fun l => !isStamp l).Perm (lines'.filter fun l => !isStamp l)) :
    counted lines = counted lines' := by
  have hall {ls : List (List Char)} (h : ∀ l ∈ ls, Logical l) :
      (ls.filter fun l => decide (trim (String.ofList l) ≠ "")) = ls :=
    List.filter_eq_self.mpr fun l hl => decide_eq_true (h l hl).nonblank
  unfold counted
  rw [hall hlines, hall hlines']
  exact List.Perm.eq_of_pairwise (fun _ _ _ _ => le_antisymm) (List.pairwise_insertionSort _ _)
    (List.pairwise_insertionSort _ _)
    ((List.perm_insertionSort _ _).trans (hsame.trans (List.perm_insertionSort _ _).symm))

theorem contentHash_laid (rt : Runtime) {lines lines' : List (List Char)} {text text' : List Char}
    (hlines : ∀ l ∈ lines, Logical l) (hlines' : ∀ l ∈ lines', Logical l) (h : LaidOut lines text)
    (h' : LaidOut lines' text')
    (hsame : (lines.filter fun l => !isStamp l).Perm (lines'.filter fun l => !isStamp l)) :
    contentHash rt text = contentHash rt text' := by
  rw [contentHash_eq, contentHash_eq, readLines_unfolded hlines h, readLines_unfolded hlines' h',
    counted_perm hlines hlines' hsame]

theorem Laid.chars {fs : List (List Char)} {line text : List Char} {lines : List (List Char)} (read : List Char)
    (hread : read.all fun c => c ≠ '\r' ∧ c ≠ '\n') (h : Laid fs line lines text) :
    Laid fs (read ++ line) lines (read ++ text) := by
  induction read with
  | nil => exact h
  | cons c read ih =>
      rw [List.all_cons, Bool.and_eq_true, decide_eq_true_iff] at hread
      exact .char hread.1 (ih hread.2)

/-- A line with its line end; and again after the stamp of an export, folded before a blank of it, in the middle, twice
at one place and at its end. -/
theorem contentHash_reexported : contentHash asciiRuntime "N:a b\n".toList =
    contentHash asciiRuntime "item1.REV:1\r\nN\n :a\r\n\t\n  b\r\n ".toList := by
  have hline : Logical "N:a b".toList := ⟨by decide, by decide⟩
  have hstamp : Logical "item1.REV:1".toList := ⟨by decide, by decide⟩
  have hplain : LaidOut ["N:a b".toList] "N:a b\n".toList := .chars "N:a b".toList rfl (.last (by decide))
  have hfolded : LaidOut ["item1.REV:1".toList, "N:a b".toList]
      "item1.REV:1\r\nN\n :a\r\n\t\n  b\r\n ".toList := by
    refine .chars "item1.REV:1".toList rfl (.next (e := ['\r', '\n']) (by decide) ?_)
    refine .chars ['N'] rfl (.fold (b := ['\n', ' ']) (by decide) (.chars [':', 'a'] rfl ?_))
    refine .fold (b := ['\r', '\n', '\t']) (by decide) (.fold (b := ['\n', ' ']) (by decide) ?_)
    exact .chars [' ', 'b'] rfl (.fold (b := ['\r', '\n', ' ']) (by decide) .stop)
  exact contentHash_laid asciiRuntime (List.forall_mem_singleton.mpr hline)
    (List.forall_mem_cons.mpr ⟨hstamp, List.forall_mem_singleton.mpr hline⟩) hplain hfolded (by decide)

end Mokosh.ContactSync
