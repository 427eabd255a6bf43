import Mokosh.ContactSync.VcardBytes
import Mokosh.Lib.Blocks

/-! # No card is lost

What `frame` makes of a file is read off its blocks: the lines between `BEGIN:VCARD` and the next mark.

**`readVcards_loses_no_card`**: every card of a file that is read is a contact, a group card or a failure; the failures
have the numbers of different cards; and where no card is open, lines without `BEGIN:VCARD` may be inserted, and so may
a card without `END:VCARD` that another card follows: the contacts stay what they are. -/

namespace Mokosh.ContactSync.VcardBytes

variable (lib : Library) (limits : FileLimits)

/-! ### Every card is accounted for -/

section Accounts

variable {lib : Library} {limits : FileLimits} {file : VcardFile} {s s' : Framer}

def VcardFile.accounted (file : VcardFile) : ℕ :=
  file.contacts.length + file.groupCards + file.failures.length

/-- The failures have the numbers of different cards, each of which has begun. -/
structure VcardFile.Numbered (file : VcardFile) : Prop where
  ascending : (file.failures.map (·.card)).Pairwise (· < ·)
  begun : ∀ p ∈ file.failures, 1 ≤ p.card ∧ p.card ≤ file.cards

/-- A card more has failed, with a number beyond those of the others. -/
theorem VcardFile.Numbered.concat (h : file.Numbered) {p : CardProblem} {cards : ℕ} (hfirst : 1 ≤ p.card)
    (hlast : p.card ≤ cards) (hcards : file.cards ≤ cards) (hbefore : ∀ q ∈ file.failures, q.card < p.card) :
    ((file.failures ++ [p]).map (·.card)).Pairwise (· < ·) ∧
      ∀ q ∈ file.failures ++ [p], 1 ≤ q.card ∧ q.card ≤ cards := by
  constructor
  · rw [List.map_append, List.pairwise_append]
    refine ⟨h.ascending, List.pairwise_singleton _ _, fun a ha b hb => ?_⟩
    obtain ⟨q, hq, rfl⟩ := List.mem_map.mp ha
    obtain rfl := List.mem_singleton.mp hb
    exact hbefore q hq
  · intro q hq
    rcases List.mem_append.mp hq with hq | hq
    · exact ⟨(h.begun q hq).1, (h.begun q hq).2.trans hcards⟩
    · obtain rfl := List.mem_singleton.mp hq
      exact ⟨hfirst, hlast⟩

/-- Between two lines every card that has begun is accounted for or open, and the open one is the last. -/
structure Framer.Accounts (s : Framer) : Prop where
  numbered : s.file.Numbered
  accounted : s.file.accounted + s.opened.toList.length = s.file.cards
  last : ∀ card ∈ s.opened, card.ordinal = s.file.cards ∧ ∀ p ∈ s.file.failures, p.card < card.ordinal

/-- The number of an open card is at least one. -/
theorem Framer.Accounts.one_le (h : s.Accounts) {card : CardBuilder} (hc : s.opened = some card) :
    1 ≤ card.ordinal := by
  have hacc := h.accounted
  rw [hc, Option.toList_some, List.length_singleton] at hacc
  rw [(h.last card hc).1]
  omega

/-- The open card fails. -/
theorem Framer.Accounts.fail (h : s.Accounts) {card : CardBuilder} (hc : s.opened = some card) (reason : String) :
    VcardFile.Numbered { s.file with failures := s.file.failures ++ [card.problem reason] } ∧
      VcardFile.accounted { s.file with failures := s.file.failures ++ [card.problem reason] } = s.file.cards := by
  obtain ⟨hlast, hbefore⟩ := h.last card hc
  obtain ⟨hascending, hbegun⟩ := h.numbered.concat (p := card.problem reason) (h.one_le hc) hlast.le le_rfl hbefore
  refine ⟨⟨hascending, hbegun⟩, ?_⟩
  have hacc := h.accounted
  rw [hc, Option.toList_some, List.length_singleton] at hacc
  rw [← hacc]
  simp only [VcardFile.accounted, List.length_append, List.length_singleton]
  omega

/-- The open card becomes something. -/
theorem finish_accounts (h : s.Accounts) {card : CardBuilder} (hc : s.opened = some card) :
    (finish lib limits card s.file).Numbered ∧ (finish lib limits card s.file).accounted = s.file.cards ∧
      (finish lib limits card s.file).cards = s.file.cards := by
  have hacc := h.accounted
  rw [hc, Option.toList_some, List.length_singleton] at hacc
  unfold finish
  split
  · next reason _ =>
      obtain ⟨hnumbered, haccounted⟩ := h.fail hc reason
      exact ⟨hnumbered, haccounted, rfl⟩
  · refine ⟨⟨h.numbered.ascending, h.numbered.begun⟩, ?_, rfl⟩
    rw [← hacc]
    simp only [VcardFile.accounted, List.length_append, List.length_singleton]
    omega
  · refine ⟨⟨h.numbered.ascending, h.numbered.begun⟩, ?_, rfl⟩
    rw [← hacc]
    simp only [VcardFile.accounted]
    omega

theorem cut_accounts (h : s.Accounts) :
    VcardFile.Numbered { s.file with failures := s.cut } ∧
      VcardFile.accounted { s.file with failures := s.cut } = s.file.cards := by
  unfold Framer.cut
  cases hc : s.opened with
  | none =>
      have hacc := h.accounted
      rw [hc] at hacc
      exact ⟨h.numbered, hacc⟩
  | some unterminated => exact h.fail hc _

theorem place_accounts {line : Bytes} (h : s.Accounts) (hs : s.place lib limits line = .ok s') : s'.Accounts := by
  unfold Framer.place at hs
  split at hs
  · split at hs
    · cases hs
    · cases hs
      obtain ⟨hnumbered, haccounted⟩ := cut_accounts h
      refine ⟨⟨hnumbered.ascending, fun p hp => ?_⟩, ?_, ?_⟩
      · exact ⟨(hnumbered.begun p hp).1, (hnumbered.begun p hp).2.trans (Nat.le_succ _)⟩
      · show VcardFile.accounted { s.file with failures := s.cut } + 1 = s.file.cards + 1
        rw [haccounted]
      · rintro card ⟨⟩
        exact ⟨rfl, fun p hp => Nat.lt_succ_of_le (hnumbered.begun p hp).2⟩
  · split at hs
    · cases hs
      exact h
    · next card hc =>
        split at hs
        · cases hs
          obtain ⟨hnumbered, haccounted, hcards⟩ := @finish_accounts lib limits s h card hc
          refine ⟨hnumbered, haccounted.trans hcards.symm, ?_⟩
          rintro card ⟨⟩
        · cases hs
          refine ⟨h.numbered, ?_, ?_⟩
          · have hacc := h.accounted
            rw [hc] at hacc
            exact hacc
          · rintro card' ⟨⟩
            exact h.last card hc

theorem step_accounts {raw : Bytes} (h : s.Accounts) (hs : s.step lib limits raw = .ok s') : s'.Accounts := by
  unfold Framer.step at hs
  split at hs
  · cases hs
  · have hread : Framer.Accounts { s with total := s.total + raw.length, lineNo := s.lineNo + 1 } :=
      ⟨h.numbered, h.accounted, h.last⟩
    exact place_accounts hread hs

theorem close_accounts (h : s.Accounts) : s.close.Numbered ∧ s.close.accounted = s.close.cards := by
  unfold Framer.close
  split
  · next truncated hc => exact h.fail hc _
  · next hc =>
      have hacc := h.accounted
      rw [hc] at hacc
      exact ⟨h.numbered, hacc⟩

end Accounts

/-! ### The blocks of a file -/

section Framing

variable {lib limits} {file file' : VcardFile} {s s' : Framer}

open Blocks (Block openAfter closedAt next)

/-- What a line is to the cards. -/
def mark (line : Bytes) : Blocks.Mark := if isBegin line then .begins else if isEnd line then .ends else .plain

/-- What the lines of a card come to. -/
def cardText (limits : FileLimits) (lines : List Bytes) : CardText := lines.foldl (CardText.pushLine limits) {}

/-- The contact that the lines of an ended block become, if they become one. -/
def contactOf (lib : Library) (limits : FileLimits) (b : Block Bytes) : Option FileContact :=
  ((cardText limits b.lines).outcome lib limits).contact?

/-- The lines as they are placed; the number is that of the lines before. -/
def cleaned : ℕ → List Bytes → List Bytes
  | _, [] => []
  | n, raw :: raws => (if n = 0 then stripBom (trimEolBytes raw) else trimEolBytes raw) :: cleaned (n + 1) raws

def linesOf (content : Bytes) : List Bytes := cleaned 0 (readUntil [] content)

/-- The framer has the block that is open and the contacts of those that are ended. -/
structure Framer.Reads (lib : Library) (limits : FileLimits) (s : Framer) (lines : List Bytes) : Prop where
  opened : s.opened.map (·.toCardText) = (openAfter mark none lines).map (cardText limits)
  contacts : s.file.contacts = ((Blocks.closed mark none lines).filter (·.ended)).filterMap (contactOf lib limits)

theorem finish_contacts (card : CardBuilder) (file : VcardFile) {lines : List Bytes}
    (h : card.toCardText = cardText limits lines) :
    (finish lib limits card file).contacts = file.contacts ++ (contactOf lib limits ⟨lines, true⟩).toList := by
  unfold finish contactOf
  rw [h]
  cases (cardText limits lines).outcome lib limits with
  | contact c tooLarge => rfl
  | groupCard group => exact (List.append_nil _).symm
  | failure reason => exact (List.append_nil _).symm

theorem mark_of_begin {line : Bytes} (h : isBegin line = true) : mark line = .begins := if_pos h

theorem mark_of_end {line : Bytes} (h : isBegin line ≠ true) (h' : isEnd line = true) : mark line = .ends := by
  rw [mark, if_neg h, if_pos h']

theorem mark_of_plain {line : Bytes} (h : isBegin line ≠ true) (h' : isEnd line ≠ true) : mark line = .plain := by
  rw [mark, if_neg h, if_neg h']

/-- A line more. -/
theorem place_reads {lines : List Bytes} {line : Bytes} (h : s.Reads lib limits lines)
    (hs : s.place lib limits line = .ok s') : s'.Reads lib limits (lines ++ [line]) := by
  obtain ⟨hopened, hcontacts⟩ := h
  have hopen : openAfter mark none (lines ++ [line]) = next mark (openAfter mark none lines) line := by
    rw [openAfter, openAfter, List.foldl_concat]
  have hclosed : ((Blocks.closed mark none (lines ++ [line])).filter (·.ended)).filterMap (contactOf lib limits) =
      s.file.contacts ++ ((closedAt mark (openAfter mark none lines) line).toList.filter (·.ended)).filterMap
        (contactOf lib limits) := by
    rw [Blocks.closed_concat, List.filter_append, List.filterMap_append, hcontacts]
  unfold Framer.place at hs
  split at hs
  · next hbegin =>
      split at hs
      · cases hs
      · cases hs
        constructor
        · rw [hopen, next, mark_of_begin hbegin]
          rfl
        · rw [hclosed, closedAt, mark_of_begin hbegin]
          cases openAfter mark none lines <;> exact (List.append_nil _).symm
  · next hbegin =>
      split at hs
      · next hnone =>
          cases hs
          -- A line between two cards.
          have hout : openAfter mark none lines = none := by
            rw [hnone] at hopened
            exact Option.map_eq_none_iff.mp hopened.symm
          have hstill : next mark none line = none ∧ closedAt mark none line = none := by
            unfold next closedAt
            by_cases hend : isEnd line = true
            · rw [mark_of_end hbegin hend]
              exact ⟨rfl, rfl⟩
            · rw [mark_of_plain hbegin hend]
              exact ⟨rfl, rfl⟩
          constructor
          · rw [hopen, hout, hstill.1, hnone]
            rfl
          · rw [hclosed, hout, hstill.2]
            exact (List.append_nil _).symm
      · next card hcard =>
          obtain ⟨body, hbody, htext⟩ : ∃ body, openAfter mark none lines = some body ∧
              card.toCardText = cardText limits body := by
            rw [hcard] at hopened
            obtain ⟨body, hbody, htext⟩ := Option.map_eq_some_iff.mp hopened.symm
            exact ⟨body, hbody, htext.symm⟩
          split at hs
          · next hend =>
              cases hs
              constructor
              · rw [hopen, next, mark_of_end hbegin hend]
                rfl
              · rw [hclosed, hbody, closedAt, mark_of_end hbegin hend]
                show (finish lib limits card s.file).contacts = _
                rw [finish_contacts card s.file htext]
                refine congrArg (s.file.contacts ++ ·) ?_
                show _ = [(⟨body, true⟩ : Block Bytes)].filterMap (contactOf lib limits)
                rw [List.filterMap_cons, List.filterMap_nil]
                cases contactOf lib limits ⟨body, true⟩ <;> rfl
          · next hend =>
              cases hs
              constructor
              · rw [hopen, hbody, next, mark_of_plain hbegin hend]
                show some (card.toCardText.pushLine limits line) = some (cardText limits (body ++ [line]))
                rw [htext, cardText, cardText, List.foldl_concat]
              · rw [hclosed, closedAt, mark_of_plain hbegin hend]
                exact (List.append_nil _).symm

theorem place_lineNo {line : Bytes} (hs : s.place lib limits line = .ok s') : s'.lineNo = s.lineNo := by
  unfold Framer.place at hs
  split at hs
  · split at hs
    · cases hs
    · cases hs
      rfl
  · split at hs
    · cases hs
      rfl
    · split at hs
      · cases hs
        rfl
      · cases hs
        rfl

/-- All the lines. -/
theorem lines_reads {raws lines : List Bytes} (h : s.Reads lib limits lines) (hacc : s.Accounts)
    (hr : raws.foldlM (Framer.step lib limits) s = .ok s') :
    s'.Reads lib limits (lines ++ cleaned s.lineNo raws) ∧ s'.Accounts := by
  induction raws generalizing s lines with
  | nil =>
      cases hr
      exact ⟨by rw [cleaned, List.append_nil]; exact h, hacc⟩
  | cons raw raws ih =>
      rw [List.foldlM_cons] at hr
      obtain ⟨s₁, hs₁, hrest⟩ : ∃ s₁, s.step lib limits raw = .ok s₁ ∧
          raws.foldlM (Framer.step lib limits) s₁ = .ok s' := by
        cases hs₁ : s.step lib limits raw with
        | error e =>
            rw [hs₁] at hr
            cases hr
        | ok s₁ =>
            rw [hs₁] at hr
            exact ⟨s₁, rfl, hr⟩
      have hacc₁ := step_accounts hacc hs₁
      unfold Framer.step at hs₁
      split at hs₁
      · cases hs₁
      · have hread : Framer.Reads lib limits
            { s with total := s.total + raw.length, lineNo := s.lineNo + 1 } lines := ⟨h.opened, h.contacts⟩
        have hline : s₁.lineNo = s.lineNo + 1 := place_lineNo hs₁
        have hall := ih (place_reads hread hs₁) hacc₁ hrest
        rw [hline, List.append_assoc] at hall
        exact hall

theorem readVcards_eq_ok {raw : Bytes} (h : readVcards lib limits raw = .ok file) :
    ∃ s : Framer, s.Accounts ∧ s.Reads lib limits (linesOf (content lib raw)) ∧
      file = canonicaliseGroups lib.toRuntime s.close := by
  unfold readVcards frame at h
  split at h
  · cases h
  · cases hf : (readUntil [] (content lib raw)).foldlM (Framer.step lib limits) {} with
    | error e =>
        rw [hf] at h
        cases h
    | ok s =>
        rw [hf] at h
        cases h
        have hstart : Framer.Reads lib limits {} [] := ⟨rfl, rfl⟩
        have hnumbered : VcardFile.Numbered {} := ⟨List.Pairwise.nil, fun _ hp => absurd hp List.not_mem_nil⟩
        obtain ⟨hreads, hacc⟩ := lines_reads hstart ⟨hnumbered, rfl, fun _ hc => absurd hc (by simp)⟩ hf
        exact ⟨s, hacc, hreads, rfl⟩

end Framing

/-! ### What is inserted between two cards -/

section Insert

variable {lib limits} {file file' : VcardFile}

open Blocks (openAfter)

def plainLines (bytes : Bytes) : List Bytes := (readUntil [] bytes).map trimEolBytes

/-- Whole lines, behind which no card is open. -/
structure Gap (before : Bytes) : Prop where
  whole : before.getLast? = some lineFeed
  out : openAfter mark none (linesOf before) = none

/-- Whole lines that begin no card; or that end none, where the next mark, if there is one, begins a card. -/
structure Harmless (inserted after : Bytes) : Prop where
  whole : inserted = [] ∨ inserted.getLast? = some lineFeed
  marks : (∀ line ∈ plainLines inserted, isBegin line = false) ∨
    (∀ line ∈ plainLines inserted, isEnd line = false) ∧ Blocks.BeginsFirst mark (plainLines after)

theorem readUntil_append {before : Bytes} (h : before.getLast? = some lineFeed) (line after : Bytes) :
    readUntil line (before ++ after) = readUntil line before ++ readUntil [] after := by
  induction before generalizing line with
  | nil => cases h
  | cons b before ih =>
      by_cases hnil : before = []
      · subst hnil
        obtain rfl : b = lineFeed := Option.some.inj h
        rfl
      · have hlast : before.getLast? = some lineFeed := by
          rw [List.getLast?_cons_of_ne_nil hnil] at h
          exact h
        rw [List.cons_append, readUntil, readUntil]
        split
        · rw [ih hlast, List.cons_append]
        · exact ih hlast _

theorem readUntil_ne_nil {line bytes : Bytes} (h : bytes ≠ []) : readUntil line bytes ≠ [] := by
  induction bytes generalizing line with
  | nil => exact absurd rfl h
  | cons b bytes ih =>
      rw [readUntil]
      split
      · exact List.cons_ne_nil _ _
      · by_cases hnil : bytes = []
        · subst hnil
          rw [readUntil, if_neg (List.cons_ne_nil _ _)]
          exact List.cons_ne_nil _ _
        · exact ih hnil

theorem cleaned_succ (n : ℕ) (raws : List Bytes) : cleaned (n + 1) raws = raws.map trimEolBytes := by
  induction raws generalizing n with
  | nil => rfl
  | cons raw raws ih => rw [cleaned, ih, List.map_cons, if_neg (Nat.succ_ne_zero n)]

/-- Behind the first line the lines of a file are those of its parts. -/
theorem linesOf_append {before : Bytes} (h : before.getLast? = some lineFeed) (after : Bytes) :
    linesOf (before ++ after) = linesOf before ++ plainLines after := by
  rw [linesOf, readUntil_append h, linesOf]
  cases hr : readUntil [] before with
  | nil =>
      refine absurd hr (readUntil_ne_nil ?_)
      rintro rfl
      cases h
  | cons raw raws =>
      rw [List.cons_append, cleaned, cleaned, cleaned_succ, cleaned_succ, List.map_append, List.cons_append]
      rfl

theorem plainLines_append {inserted : Bytes} (h : inserted = [] ∨ inserted.getLast? = some lineFeed)
    (after : Bytes) : plainLines (inserted ++ after) = plainLines inserted ++ plainLines after := by
  rcases h with rfl | h
  · rfl
  · rw [plainLines, readUntil_append h, List.map_append]
    rfl

/-- The ended blocks stay what they are. -/
theorem ended_inserted {before inserted after : Bytes} (hgap : Gap before) (h : Harmless inserted after) :
    (Blocks.closed mark none (linesOf (before ++ (inserted ++ after)))).filter (·.ended) =
      (Blocks.closed mark none (linesOf (before ++ after))).filter (·.ended) := by
  rw [linesOf_append hgap.whole, linesOf_append hgap.whole, plainLines_append h.whole]
  rcases h.marks with hbegin | ⟨hend, hafter⟩
  · rw [Blocks.closed_insert_plain hgap.out fun line hline heq => ?_]
    have hfalse := hbegin line hline
    rw [mark] at heq
    split at heq
    · next htrue => exact absurd (htrue.symm.trans hfalse) Bool.noConfusion
    · split at heq <;> cases heq
  · refine Blocks.ended_insert hgap.out (fun line hline heq => ?_) hafter
    have hfalse := hend line hline
    rw [mark] at heq
    split at heq
    · cases heq
    · split at heq
      · next htrue => exact absurd (htrue.symm.trans hfalse) Bool.noConfusion
      · cases heq

theorem contacts_of_reads {s : Framer} {lines : List Bytes} (h : s.Reads lib limits lines) :
    (canonicaliseGroups lib.toRuntime s.close).contacts = (canonicaliseContacts lib.toRuntime []
      (((Blocks.closed mark none lines).filter (·.ended)).filterMap (contactOf lib limits))).2 := by
  have hclose : s.close.contacts = s.file.contacts := by
    unfold Framer.close
    cases s.opened <;> rfl
  rw [canonicaliseGroups, hclose, h.contacts]

theorem length_canonicaliseContacts (rt : Runtime) (spelling : List (String × String)) (cs : List FileContact) :
    (canonicaliseContacts rt spelling cs).2.length = cs.length := by
  induction cs generalizing spelling with
  | nil => rfl
  | cons c cs ih => rw [canonicaliseContacts, List.length_cons, ih, List.length_cons]

/-- No card of a file that is read is lost. -/
theorem readVcards_loses_no_card {raw : Bytes} (h : readVcards lib limits raw = .ok file) :
    file.contacts.length + file.groupCards + file.failures.length = file.cards ∧
      (file.failures.map (·.card)).Nodup ∧ (∀ p ∈ file.failures, 1 ≤ p.card ∧ p.card ≤ file.cards) ∧
      ∀ (before inserted after raw' : Bytes) (file' : VcardFile), content lib raw = before ++ after →
        content lib raw' = before ++ (inserted ++ after) → Gap before → Harmless inserted after →
        readVcards lib limits raw' = .ok file' → file'.contacts = file.contacts := by
  obtain ⟨s, hacc, hreads, rfl⟩ := readVcards_eq_ok h
  obtain ⟨hnumbered, haccounted⟩ := close_accounts hacc
  refine ⟨?_, hnumbered.ascending.imp fun hlt => hlt.ne, hnumbered.begun, ?_⟩
  · rw [← show s.close.accounted = (canonicaliseGroups lib.toRuntime s.close).cards from haccounted,
      VcardFile.accounted, canonicaliseGroups, length_canonicaliseContacts]
  · intro before inserted after raw' file' hcontent hcontent' hgap hharmless h'
    obtain ⟨s', -, hreads', rfl⟩ := readVcards_eq_ok h'
    rw [contacts_of_reads hreads, contacts_of_reads hreads', hcontent, hcontent', ended_inserted hgap hharmless]

end Insert

/-! ### Samples -/

/-- A parser that reads a name and a category. -/
def nameParser (text : String) : Option (List NamedEntry) :=
  let fn (name : String) : NamedEntry := { name := .fn, values := [.text name], asStr := "FN" }
  let categories (c : String) : NamedEntry := { name := .categories, values := [.text c], asStr := "CATEGORIES" }
  if text = "BEGIN:VCARD\r\nFN:A\r\nEND:VCARD\r\n" then some [fn "A"]
  else if text = "BEGIN:VCARD\r\nFN:B\r\nCATEGORIES:Staff\r\nEND:VCARD\r\n" then some [fn "B", categories "Staff"]
  else if text = "BEGIN:VCARD\r\nFN:U\r\nCATEGORIES:staff\r\nEND:VCARD\r\n" then some [fn "U", categories "staff"]
  else none

def sampleLibrary : Library where
  toRuntime := asciiRuntime
  parser := nameParser
  forLabel _ := none
  windows1252 bytes := bytes.map fun b => .ofNat b.toNat
  utf16 _ _ := []

def sampleLimits : FileLimits := { defaultLimits with maxPhotoBytes := 1024 * 1024 }

def asLines (ls : List String) : Bytes := ls.flatMap fun l => ascii l ++ [13, 10]

def cardA : Bytes := asLines ["BEGIN:VCARD", "FN:A", "END:VCARD"]

def cardB : Bytes := asLines ["BEGIN:VCARD", "FN:B", "CATEGORIES:Staff", "END:VCARD"]

/-- A card that nothing ends. -/
def cardU : Bytes := asLines ["BEGIN:VCARD", "FN:U", "CATEGORIES:staff"]

/-- The names and the categories of the contacts of a file. -/
def peopleIn (raw : Bytes) : Option (List (Option String × List String)) :=
  (readVcards sampleLibrary sampleLimits raw).toOption.map fun file =>
    file.contacts.map fun c => (c.displayName, c.groupIds)

theorem exists_file {raw : Bytes} (h : (peopleIn raw).isSome = true) :
    ∃ file, readVcards sampleLibrary sampleLimits raw = .ok file := by
  unfold peopleIn at h
  cases hr : readVcards sampleLibrary sampleLimits raw with
  | error e =>
      rw [hr] at h
      cases h
  | ok file => exact ⟨file, rfl⟩

theorem loses_no_card_inserted : ∃ file file' : VcardFile,
    readVcards sampleLibrary sampleLimits (cardA ++ cardB) = .ok file ∧
    readVcards sampleLibrary sampleLimits (cardA ++ (cardU ++ cardB)) = .ok file' ∧
    file.contacts.length + file.groupCards + file.failures.length = file.cards ∧
    file'.contacts = file.contacts := by
  have hread : (peopleIn (cardA ++ cardB)).isSome = true := by decide +kernel
  have hread' : (peopleIn (cardA ++ (cardU ++ cardB))).isSome = true := by decide +kernel
  obtain ⟨file, h⟩ := exists_file hread
  obtain ⟨file', h'⟩ := exists_file hread'
  obtain ⟨haccounted, -, -, hinsert⟩ := readVcards_loses_no_card h
  have hharmless : Harmless cardU cardB := by
    refine ⟨.inr (by decide +kernel), .inr ⟨by decide +kernel, ?_⟩⟩
    unfold Blocks.BeginsFirst
    decide +kernel
  exact ⟨file, file', h, h', haccounted, hinsert cardA cardU cardB _ file' (by decide +kernel) (by decide +kernel)
    ⟨by decide +kernel, by decide +kernel⟩ hharmless h'⟩

/-- A line that ends a card, between one that nothing ends and the next; a card that nothing ends, before a line that
would; and a text that is no whole line. -/
theorem not_loses_no_card :
    (peopleIn (asLines ["BEGIN:VCARD", "FN:A"] ++ cardB) = some [(some "B", ["Staff"])] ∧
      peopleIn (asLines ["BEGIN:VCARD", "FN:A"] ++ (asLines ["END:VCARD"] ++ cardB)) =
        some [(some "A", []), (some "B", ["Staff"])]) ∧
    (peopleIn (cardA ++ (asLines ["END:VCARD"] ++ cardB)) = some [(some "A", []), (some "B", ["Staff"])] ∧
      peopleIn (cardA ++ (cardU ++ (asLines ["END:VCARD"] ++ cardB))) =
        some [(some "A", []), (some "U", ["staff"]), (some "B", ["staff"])]) ∧
    peopleIn (cardA ++ cardB) = some [(some "A", []), (some "B", ["Staff"])] ∧
      peopleIn (cardA ++ (ascii "x" ++ cardB)) = some [(some "A", [])] := by
  refine ⟨⟨?_, ?_⟩, ⟨?_, ?_⟩, ?_, ?_⟩ <;> decide +kernel

end Mokosh.ContactSync.VcardBytes
