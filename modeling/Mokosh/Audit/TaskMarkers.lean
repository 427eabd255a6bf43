import Mathlib.Data.List.Sort
import Mokosh.KnowledgeBase.ExecutionSteps
import Mokosh.Utils.Sanitize

/-! # Checkbox toggles in the audit log

`field_changes` and `is_task_marker_only_change` of `audit/service.rs`: an update whose only change is that boxes of the
description were ticked or unticked writes no entry.  The code brings every `[x]` and `[X]` to `[ ]`, wherever it
stands; the rule (`OnlyTaskBoxes`) has the boxes at the beginning of list items.

**`skips_iff`**: it goes by the rule if and only if every box that was changed is one of a list item, whenever nothing
but boxes was changed (and no column has gone from the row). -/

namespace Mokosh.Audit

open Workflows (Json)
open Workflows.Json (same asStr)
open Sanitizer (Ordered)
open SortedMap (Ascending)
open ExecutionSteps (Line ListMarker)

/-! ### The diff of two snapshots -/

structure FieldChange where
  field : String
  old : Option Json
  new : Option Json

def historyNoiseFields : List String := ["updated_at", "created_at", "id", "tenant_id", "last_updated_by_id"]

def fieldChanges (old new : Option Json) : List FieldChange :=
  match old, new with
  | some (.object o), some (.object n) =>
    let changed := (n.filter fun m => !(o.lookup m.1).any fun v => same v m.2).filter fun m =>
      !historyNoiseFields.contains m.1
    (changed.map fun m => { field := m.1, old := o.lookup m.1, new := some m.2 : FieldChange }).insertionSort
      fun a b => a.field ≤ b.field
  | _, _ => []

/-- `str::replace`; the number is what is left of a match. -/
def replace (pattern by' : List Char) : ℕ → List Char → List Char
  | _, [] => []
  | skip + 1, _ :: cs => replace pattern by' skip cs
  | 0, c :: cs =>
    if pattern.isPrefixOf (c :: cs) then by' ++ replace pattern by' (pattern.length - 1) cs
    else c :: replace pattern by' 0 cs

def normalizeTaskMarkers (s : List Char) : List Char :=
  replace ['[', 'X', ']'] ['[', ' ', ']'] 0 (replace ['[', 'x', ']'] ['[', ' ', ']'] 0 s)

def isTaskMarkerOnlyChange (old new : Option Json) : Bool :=
  match fieldChanges old new with
  | [c] =>
    if c.field = "description" then
      match c.old.bind asStr, c.new.bind asStr with
      | some a, some b => normalizeTaskMarkers a.toList = normalizeTaskMarkers b.toList
      | _, _ => false
    else false
  | _ => false

/-! ### The rule -/

def boxStates : List Char := [' ', 'x', 'X']

/-- The same line, but for the checkbox of its list item. -/
inductive SameItem : Line → Line → Prop where
  | refl (l : Line) : SameItem l l
  | toggled {indent marker spaces rest : Line} {s s' : Char} (hindent : ∀ c ∈ indent, c = ' ' ∨ c = '\t')
      (hmarker : ListMarker marker) (hne : spaces ≠ []) (hspaces : ∀ c ∈ spaces, c = ' ' ∨ c = '\t')
      (hs : s ∈ boxStates) (hs' : s' ∈ boxStates) :
      SameItem (indent ++ (marker ++ (spaces ++ '[' :: s :: ']' :: rest)))
        (indent ++ (marker ++ (spaces ++ '[' :: s' :: ']' :: rest)))

/-- Line by line, the two texts differ in the checkboxes of list items only. -/
def OnlyBoxes (a b : List Char) : Prop := List.Forall₂ SameItem (ExecutionSteps.lines a) (ExecutionSteps.lines b)

/-- The two rows have the same in the column. -/
def sameColumn (o n : List (String × Json)) (k : String) : Bool :=
  match o.lookup k, n.lookup k with
  | some v, some w => same v w
  | none, none => true
  | _, _ => false

/-- The rows differ in the column, and it is no bookkeeping. -/
def Differs (o n : List (String × Json)) (k : String) : Prop := k ∉ historyNoiseFields ∧ sameColumn o n k = false

/-- The description of the two rows. -/
structure Described (old new : Option Json) (o n : List (String × Json)) (a b : String) : Prop where
  old : old = some (.object o)
  new : new = some (.object n)
  before : o.lookup "description" = some (.string a)
  after : n.lookup "description" = some (.string b)

/-- The rows differ in the description alone, and there in the checkboxes of list items only. -/
def OnlyTaskBoxes (old new : Option Json) : Prop :=
  ∃ o n a b, Described old new o n a b ∧ (∀ k, Differs o n k ↔ k = "description") ∧ OnlyBoxes a.toList b.toList

/-! ### When the code goes by it -/

/-- The two texts differ in what stands in `[ ]`, `[x]` and `[X]` only. -/
inductive BoxFlips : List Char → List Char → Prop where
  | nil : BoxFlips [] []
  | char (c : Char) {a b : List Char} (h : BoxFlips a b) : BoxFlips (c :: a) (c :: b)
  | box {a b : List Char} {s s' : Char} (hs : s ∈ boxStates) (hs' : s' ∈ boxStates) (h : BoxFlips a b) :
      BoxFlips ('[' :: s :: ']' :: a) ('[' :: s' :: ']' :: b)

/-- Where the description is the only column of the new row that differs, and boxes are all that was changed in it, no
column has gone and the boxes are those of list items. -/
def BoxesInItems (old new : Option Json) : Prop :=
  ∀ o n a b, Described old new o n a b → (∀ k ∈ n.map Prod.fst, Differs o n k ↔ k = "description") →
    BoxFlips a.toList b.toList →
      (∀ k ∈ o.map Prod.fst, k ∉ historyNoiseFields → k ∈ n.map Prod.fst) ∧ OnlyBoxes a.toList b.toList

/-! ### Boxes -/

/-- A character of a box loses its tick. -/
def untick (ticks : List Char) (behind before : Bool) (c : Char) : Char :=
  if behind && before && ticks.contains c then ' ' else c

/-- The text with the boxes unticked that have one of the ticks; the flag is set behind a `[`. -/
def unticked (ticks : List Char) : Bool → List Char → List Char
  | _, [] => []
  | behind, c :: cs => untick ticks behind (cs.head? = some ']') c :: unticked ticks (c = '[') cs

/-- Only a tick is turned into another character. -/
theorem untick_eq_iff {ticks : List Char} {behind before : Bool} {c d : Char} (hspace : d ≠ ' ') (hd : d ∉ ticks) :
    untick ticks behind before c = d ↔ c = d := by
  unfold untick
  split
  · next h =>
      refine ⟨fun heq => absurd heq.symm hspace, ?_⟩
      rintro rfl
      simp [hd] at h
  · rfl

theorem head_unticked {ticks : List Char} (hticks : ']' ∉ ticks) (behind : Bool) (s : List Char) :
    (unticked ticks behind s).head? = some ']' ↔ s.head? = some ']' := by
  cases s with
  | nil => rfl
  | cons c cs =>
      rw [unticked, List.head?_cons, List.head?_cons, Option.some.injEq, Option.some.injEq]
      exact untick_eq_iff (by decide) hticks

/-- Behind a `[` that begins no box it does not matter that it stands there. -/
theorem unticked_flag {ticks s : List Char} (h : ∀ t ∈ ticks, ¬ [t, ']'] <+: s) :
    unticked ticks true s = unticked ticks false s := by
  cases s with
  | nil => rfl
  | cons c cs =>
      rw [unticked, unticked]
      congr 1
      unfold untick
      rw [if_neg, if_neg (by simp)]
      rw [Bool.true_and, Bool.and_eq_true, decide_eq_true_iff, List.contains_iff_mem]
      rintro ⟨hhead, hc⟩
      obtain ⟨rest, rfl⟩ := List.head?_eq_some_iff.mp hhead
      exact h c hc ⟨rest, rfl⟩

theorem replace_box (t : Char) (ht : t ∉ ['[', ']']) (s : List Char) :
    replace ['[', t, ']'] ['[', ' ', ']'] 0 s = unticked [t] false s := by
  rw [List.mem_cons, List.mem_singleton, not_or] at ht
  induction hn : s.length using Nat.strong_induction_on generalizing s with
  | _ n ih =>
    cases s with
    | nil => rfl
    | cons c cs =>
        have hlen : cs.length < n := hn ▸ Nat.lt_succ_self _
        rw [replace]
        split
        · next hbox =>
            obtain ⟨rest, hrest⟩ := List.isPrefixOf_iff_prefix.mp hbox
            obtain ⟨rfl, rfl⟩ := List.cons.inj hrest
            have hshort : rest.length < n := by
              rw [← hn]
              exact Nat.lt_add_of_pos_right (Nat.succ_pos 2)
            have hskip : replace ['[', t, ']'] ['[', ' ', ']'] 2 (t :: ']' :: rest) =
                replace ['[', t, ']'] ['[', ' ', ']'] 0 rest := rfl
            simp [hskip, ih _ hshort rest rfl, unticked, untick, ht.1]
        · next hbox =>
            have hno : c = '[' → ∀ t' ∈ [t], ¬ [t', ']'] <+: cs := by
              rintro rfl t' ht' ⟨rest, rfl⟩
              rw [List.mem_singleton.mp ht'] at hbox
              exact hbox (List.isPrefixOf_iff_prefix.mpr ⟨rest, rfl⟩)
            rw [ih _ hlen cs rfl, unticked, untick, if_neg (by simp)]
            by_cases hc : c = '['
            · rw [decide_eq_true hc, unticked_flag (hno hc)]
            · rw [decide_eq_false hc]

theorem unticked_unticked (s : List Char) (behind : Bool) :
    unticked ['X'] behind (unticked ['x'] behind s) = unticked ['x', 'X'] behind s := by
  induction s generalizing behind with
  | nil => rfl
  | cons c cs ih =>
      have hhead : ((unticked ['x'] (decide (c = '[')) cs).head? = some ']') = (cs.head? = some ']') :=
        propext (head_unticked (by decide) _ cs)
      have hflag (before : Bool) : decide (untick ['x'] behind before c = '[') = decide (c = '[') :=
        decide_eq_decide.mpr (untick_eq_iff (by decide) (by decide))
      have htwice (before : Bool) : untick ['X'] behind before (untick ['x'] behind before c) =
          untick ['x', 'X'] behind before c := by
        by_cases hx : c = 'x' <;> by_cases hX : c = 'X' <;> cases behind <;> cases before <;> simp [untick, hx, hX]
      rw [unticked, unticked, unticked, hflag, ih]
      simp only [hhead, htwice]

theorem normalizeTaskMarkers_eq (s : List Char) : normalizeTaskMarkers s = unticked ['x', 'X'] false s := by
  unfold normalizeTaskMarkers
  rw [replace_box 'x' (by decide), replace_box 'X' (by decide), unticked_unticked]

/-- What comes out like a box behind a `[` was one. -/
theorem box_of_unticked {a b : List Char} {s : Char} (hs : s ∈ boxStates)
    (h : unticked ['x', 'X'] true (s :: ']' :: a) = unticked ['x', 'X'] true b) :
    ∃ s' ∈ boxStates, ∃ b', b = s' :: ']' :: b' ∧ unticked ['x', 'X'] false a = unticked ['x', 'X'] false b' := by
  have hbox : ∀ t ∈ boxStates, ∀ r, unticked ['x', 'X'] true (t :: ']' :: r) =
      ' ' :: ']' :: unticked ['x', 'X'] false r := by
    simp [boxStates, unticked, untick]
  rw [hbox s hs] at h
  cases b with
  | nil => cases h
  | cons s' b =>
      rw [unticked] at h
      obtain ⟨hhead, htail⟩ := List.cons.inj h
      cases b with
      | nil => cases htail
      | cons d b =>
          rw [unticked] at htail
          obtain ⟨hd, hrest⟩ := List.cons.inj htail
          obtain rfl := (untick_eq_iff (by decide) (by decide)).mp hd.symm
          refine ⟨s', ?_, b, rfl, hrest⟩
          unfold untick at hhead
          split at hhead
          · next htick =>
              rw [Bool.and_eq_true, List.contains_iff_mem] at htick
              exact List.mem_cons_of_mem _ htick.2
          · exact hhead ▸ List.mem_cons_self

theorem BoxFlips.head {a b : List Char} (h : BoxFlips a b) : a.head? = some ']' ↔ b.head? = some ']' := by
  cases h with
  | nil => rfl
  | char c h => rfl
  | box hs hs' h => exact Iff.rfl

theorem BoxFlips.unticked {a b : List Char} (h : BoxFlips a b) (behind : Bool) :
    Audit.unticked ['x', 'X'] behind a = Audit.unticked ['x', 'X'] behind b := by
  induction h generalizing behind with
  | nil => rfl
  | char c h ih => rw [Audit.unticked, Audit.unticked, ih, decide_eq_decide.mpr h.head]
  | @box a b s s' hs hs' h ih => 
      have hbox : ∀ t ∈ boxStates, ∀ r, Audit.unticked ['x', 'X'] behind ('[' :: t :: ']' :: r) =
          '[' :: ' ' :: ']' :: Audit.unticked ['x', 'X'] false r := by
        simp [boxStates, Audit.unticked, untick]
      rw [hbox s hs, hbox s' hs', ih]

theorem boxFlips_of_unticked (a b : List Char)
    (h : unticked ['x', 'X'] false a = unticked ['x', 'X'] false b) : BoxFlips a b := by
  induction hn : a.length using Nat.strong_induction_on generalizing a b with
  | _ n ih =>
    cases a with
    | nil =>
        cases b with
        | nil => exact .nil
        | cons d b => cases h
    | cons c a =>
        cases b with
        | nil => cases h
        | cons d b =>
            have hlen : a.length < n := hn ▸ Nat.lt_succ_self _
            have hticks : ∀ t ∈ ['x', 'X'], t ∈ boxStates := fun t ht => List.mem_cons_of_mem _ ht
            rw [unticked, unticked] at h
            obtain ⟨hhead, htail⟩ := List.cons.inj h
            obtain rfl : c = d := hhead
            by_cases hc : c = '['
            · obtain rfl := hc
              rw [decide_eq_true rfl] at htail
              by_cases ha : ∃ t ∈ ['x', 'X'], [t, ']'] <+: a
              · obtain ⟨t, ht, a, rfl⟩ := ha
                obtain ⟨s', hs', b, rfl, hrest⟩ := box_of_unticked (hticks t ht) htail
                exact .box (hticks t ht) hs' (ih _ (lt_trans (Nat.lt_add_of_pos_right Nat.two_pos) hlen) a b hrest rfl)
              · by_cases hb : ∃ t ∈ ['x', 'X'], [t, ']'] <+: b
                · obtain ⟨t, ht, b, rfl⟩ := hb
                  obtain ⟨s', hs', a, rfl, hrest⟩ := box_of_unticked (hticks t ht) htail.symm
                  exact .box hs' (hticks t ht)
                    (ih _ (lt_trans (Nat.lt_add_of_pos_right Nat.two_pos) hlen) a b hrest.symm rfl)
                · rw [unticked_flag fun t ht hp => ha ⟨t, ht, hp⟩, unticked_flag fun t ht hp => hb ⟨t, ht, hp⟩] at htail
                  exact .char _ (ih _ hlen a b htail rfl)
            · rw [decide_eq_false hc] at htail
              exact .char c (ih _ hlen a b htail rfl)

theorem normalizeTaskMarkers_eq_iff {a b : List Char} :
    normalizeTaskMarkers a = normalizeTaskMarkers b ↔ BoxFlips a b := by
  rw [normalizeTaskMarkers_eq, normalizeTaskMarkers_eq]
  exact ⟨boxFlips_of_unticked a b, fun h => h.unticked false⟩

/-! ### List items -/

theorem BoxFlips.refl (a : List Char) : BoxFlips a a := by
  induction a with
  | nil => exact .nil
  | cons c a ih => exact .char c ih

theorem BoxFlips.append_left (p : List Char) {a b : List Char} (h : BoxFlips a b) : BoxFlips (p ++ a) (p ++ b) := by
  induction p with
  | nil => exact h
  | cons c p ih => exact .char c ih

theorem BoxFlips.append {a b c d : List Char} (h : BoxFlips a b) (h' : BoxFlips c d) :
    BoxFlips (a ++ c) (b ++ d) := by
  induction h with
  | nil => exact h'
  | char e _ ih => exact .char e ih
  | box hs hs' _ ih => exact .box hs hs' ih

theorem SameItem.boxFlips {l l' : Line} (h : SameItem l l') : BoxFlips l l' := by
  cases h with
  | refl => exact .refl l
  | @toggled indent marker spaces rest s s' _ _ _ _ hs hs' =>
      exact .append_left _ (.append_left _ (.append_left _ (.box hs hs' (.refl rest))))

/-- An item that is toggled begins with the marker of a list. -/
theorem SameItem.start {l l' : Line} (h : SameItem l l') (hne : l ≠ l') :
    ∃ c rest, l.dropWhile (fun c => c = ' ' ∨ c = '\t') = c :: rest ∧ (c ∈ ['-', '*', '+'] ∨ c.isDigit = true) := by
  cases h with
  | refl => exact absurd rfl hne
  | @toggled indent marker spaces rest s s' hindent hmarker _ _ _ _ =>
      obtain ⟨c, more, rfl, hc⟩ : ∃ c more, marker = c :: more ∧ (c ∈ ['-', '*', '+'] ∨ c.isDigit = true) := by
        cases hmarker with
        | @bullet c hc => exact ⟨c, [], rfl, .inl hc⟩
        | @ordered ds d hne' hds _ =>
            obtain ⟨c, ds, rfl⟩ := List.exists_cons_of_ne_nil hne'
            exact ⟨c, ds ++ [d], rfl, .inr (hds c List.mem_cons_self)⟩
      have hblank : ¬ (c = ' ' ∨ c = '\t') := by
        rintro (rfl | rfl)
        · exact absurd hc (by decide)
        · exact absurd hc (by decide)
      refine ⟨c, more ++ (spaces ++ '[' :: s :: ']' :: rest), ?_, hc⟩
      rw [List.dropWhile_append_of_pos fun d hd => decide_eq_true (hindent d hd), List.cons_append,
        List.dropWhile_cons_of_neg (by simpa using hblank)]

/-- The rule allows nothing but boxes to change. -/
theorem OnlyBoxes.boxFlips {a b : List Char} (h : OnlyBoxes a b) : BoxFlips a b := by
  have hjoin {la lb : List Line} (h : List.Forall₂ SameItem la lb) :
      BoxFlips (['\n'].intercalate la) (['\n'].intercalate lb) := by
    induction h with
    | nil => exact .nil
    | cons hl hls ih =>
        cases hls with
        | nil => simpa using hl.boxFlips
        | cons hl' hls =>
            rw [List.intercalate_cons_cons, List.intercalate_cons_cons]
            exact (hl.boxFlips.append (.refl _)).append ih
  have htext := hjoin h
  rwa [ExecutionSteps.lines, ExecutionSteps.lines, List.intercalate_splitOn, List.intercalate_splitOn] at htext

/-! ### The diff -/

variable {o n : List (String × Json)}

/-- The columns of the new row that differ. -/
def changed (o n : List (String × Json)) : List (String × Json) :=
  (n.filter fun m => !(o.lookup m.1).any fun v => same v m.2).filter fun m => !historyNoiseFields.contains m.1

theorem mem_changed (hn : Ascending n) {m : String × Json} : m ∈ changed o n ↔ m ∈ n ∧ Differs o n m.1 := by
  unfold changed
  rw [List.mem_filter, List.mem_filter, and_assoc]
  refine and_congr_right fun hm => ?_
  rw [Differs, sameColumn, SortedMap.lookup_of_mem hn.nodup hm, and_comm]
  refine and_congr ?_ ?_
  · simp
  · cases o.lookup m.1 with
    | none => simp
    | some v => simp

theorem fieldChanges_eq_singleton {c : FieldChange} :
    fieldChanges (some (.object o)) (some (.object n)) = [c] ↔
      ∃ m, changed o n = [m] ∧ c = { field := m.1, old := o.lookup m.1, new := some m.2 } := by
  have hsort (l : List FieldChange) : (l.insertionSort fun a b => a.field ≤ b.field) = [c] ↔ l = [c] := by
    rw [← List.perm_singleton, ← List.perm_singleton]
    exact ⟨(List.perm_insertionSort _ _).symm.trans, (List.perm_insertionSort _ _).trans⟩
  change List.insertionSort _ ((changed o n).map _) = [c] ↔ _
  rw [hsort, List.map_eq_singleton_iff]
  exact exists_congr fun m => and_congr_right fun _ => eq_comm

theorem objects_of_fieldChanges {old new : Option Json} {c : FieldChange} (h : fieldChanges old new = [c]) :
    ∃ o n, old = some (.object o) ∧ new = some (.object n) := by
  unfold fieldChanges at h
  split at h
  · next o n => exact ⟨o, n, rfl, rfl⟩
  · cases h

theorem eq_string_of_asStr {v : Json} {s : String} (h : v.asStr = some s) : v = .string s := by
  cases v <;> cases h
  rfl

theorem ascending_of_ordered (h : Ordered (.object n)) : Ascending n := by
  cases h with
  | object hkeys _ => exact hkeys

/-- What the code goes by. -/
theorem isTaskMarkerOnlyChange_iff {old new : Option Json} (hnew : ∀ v ∈ new, Ordered v) :
    isTaskMarkerOnlyChange old new = true ↔ ∃ o n a b, Described old new o n a b ∧
      (∀ k ∈ n.map Prod.fst, Differs o n k ↔ k = "description") ∧ BoxFlips a.toList b.toList := by
  constructor
  · intro h
    unfold isTaskMarkerOnlyChange at h
    split at h
    · next c hc =>
        split at h
        · next hfield =>
            split at h
            · next a b ha hb =>
                obtain ⟨o, n, rfl, rfl⟩ := objects_of_fieldChanges hc
                have hn := ascending_of_ordered (hnew _ rfl)
                obtain ⟨⟨k, v⟩, hm, rfl⟩ := fieldChanges_eq_singleton.mp hc
                obtain rfl : k = "description" := hfield
                obtain ⟨w, hw, hwa⟩ := Option.bind_eq_some_iff.mp ha
                obtain rfl := eq_string_of_asStr hwa
                obtain rfl := eq_string_of_asStr (v := v) hb
                obtain ⟨hin, hdiffers⟩ := (mem_changed hn).mp (hm ▸ List.mem_cons_self)
                refine ⟨o, n, a, b, ⟨rfl, rfl, hw, SortedMap.lookup_of_mem hn.nodup hin⟩,
                  fun k hk => ⟨fun hk' => ?_, ?_⟩,
                  normalizeTaskMarkers_eq_iff.mp (of_decide_eq_true h)⟩
                · obtain ⟨⟨_, v⟩, hkv, rfl⟩ := List.mem_map.mp hk
                  have hone := (mem_changed hn).mpr ⟨hkv, hk'⟩
                  rw [hm, List.mem_singleton] at hone
                  exact congrArg Prod.fst hone
                · rintro rfl
                  exact hdiffers
            · exact absurd h Bool.false_ne_true
        · exact absurd h Bool.false_ne_true
    · exact absurd h Bool.false_ne_true
  · rintro ⟨o, n, a, b, ⟨rfl, rfl, hbefore, hafter⟩, hkeys, hflips⟩
    have hn := ascending_of_ordered (hnew _ rfl)
    have hnodup : n.Nodup := hn.nodup.of_map
    have hone : changed o n = [("description", .string b)] := by
      refine List.perm_singleton.mp ((List.perm_ext_iff_of_nodup ((hnodup.filter _).filter _)
        (List.nodup_singleton _)).mpr fun ⟨k, v⟩ => ?_)
      rw [← changed, mem_changed hn, List.mem_singleton]
      constructor
      · rintro ⟨hin, hdiffers⟩
        obtain rfl := (hkeys k (List.mem_map_of_mem hin)).mp hdiffers
        have hsame := (SortedMap.lookup_of_mem hn.nodup hin).symm.trans hafter
        exact congrArg (Prod.mk _) (Option.some.inj hsame)
      · intro heq
        obtain ⟨rfl, rfl⟩ := Prod.mk.inj heq
        have hin := SortedMap.mem_of_lookup hafter
        exact ⟨hin, (hkeys _ (List.mem_map_of_mem hin)).mpr rfl⟩
    have hchanges := fieldChanges_eq_singleton.mpr ⟨_, hone, rfl⟩
    unfold isTaskMarkerOnlyChange
    rw [hchanges]
    simpa [hbefore, asStr] using normalizeTaskMarkers_eq_iff.mpr hflips

theorem Described.unique {old new : Option Json} {o o' n n' : List (String × Json)} {a a' b b' : String}
    (h : Described old new o n a b) (h' : Described old new o' n' a' b') : o = o' ∧ n = n' ∧ a = a' ∧ b = b' := by
  obtain rfl := Json.object.inj (Option.some.inj (h.old.symm.trans h'.old))
  obtain rfl := Json.object.inj (Option.some.inj (h.new.symm.trans h'.new))
  exact ⟨rfl, rfl, Json.string.inj (Option.some.inj (h.before.symm.trans h'.before)),
    Json.string.inj (Option.some.inj (h.after.symm.trans h'.after))⟩

theorem skips_iff {old new : Option Json} (hnew : ∀ v ∈ new, Ordered v) :
    (isTaskMarkerOnlyChange old new = true ↔ OnlyTaskBoxes old new) ↔ BoxesInItems old new := by
  rw [isTaskMarkerOnlyChange_iff hnew]
  constructor
  · intro hiff o n a b hd hkeys hflips
    obtain ⟨o', n', a', b', hd', hall, honly⟩ := hiff.mp ⟨o, n, a, b, hd, hkeys, hflips⟩
    obtain ⟨rfl, rfl, rfl, rfl⟩ := hd.unique hd'
    refine ⟨fun k hk hnoise => ?_, honly⟩
    by_contra hgone
    have hdiffers : Differs o n k := by
      refine ⟨hnoise, ?_⟩
      obtain ⟨v, hv⟩ := Option.ne_none_iff_exists'.mp fun hnone => SortedMap.lookup_eq_none.mp hnone hk
      rw [sameColumn, hv, SortedMap.lookup_eq_none.mpr hgone]
    obtain rfl := (hall k).mp hdiffers
    exact hgone (List.mem_map_of_mem (SortedMap.mem_of_lookup hd.after))
  · intro hcond
    constructor
    · rintro ⟨o, n, a, b, hd, hkeys, hflips⟩
      obtain ⟨hstay, honly⟩ := hcond o n a b hd hkeys hflips
      refine ⟨o, n, a, b, hd, fun k => ?_, honly⟩
      by_cases hk : k ∈ n.map Prod.fst
      · exact hkeys k hk
      · constructor
        · rintro ⟨hnoise, hdiffers⟩
          have hnone : k ∉ o.map Prod.fst := fun hin => hk (hstay k hin hnoise)
          rw [sameColumn, SortedMap.lookup_eq_none.mpr hnone, SortedMap.lookup_eq_none.mpr hk] at hdiffers
          exact absurd hdiffers Bool.noConfusion
        · rintro rfl
          exact absurd (List.mem_map_of_mem (SortedMap.mem_of_lookup hd.after)) hk
    · rintro ⟨o, n, a, b, hd, hall, honly⟩
      exact ⟨o, n, a, b, hd, fun k _ => hall k, honly.boxFlips⟩

def described (text : String) : Option Json := some (.object [("description", .string text)])

theorem ordered_described (text : String) : ∀ v ∈ described text, Ordered v := by
  rintro v ⟨⟩
  exact .object (List.pairwise_singleton _ _) (List.forall_mem_singleton.mpr (.string text))

theorem skips_iff_ticked : (isTaskMarkerOnlyChange (described "- [ ] a") (described "- [x] a") = true ↔
    OnlyTaskBoxes (described "- [ ] a") (described "- [x] a")) ↔
      BoxesInItems (described "- [ ] a") (described "- [x] a") :=
  skips_iff (ordered_described _)

/-- An edit within a sentence. -/
theorem not_skips : ¬ (isTaskMarkerOnlyChange (described "Write [x]") (described "Write [ ]") = true ↔
    OnlyTaskBoxes (described "Write [x]") (described "Write [ ]")) := by
  intro h
  obtain ⟨o, n, a, b, hd, -, honly⟩ := h.mp (by decide)
  have hrows : Described (described "Write [x]") (described "Write [ ]") [("description", .string "Write [x]")]
      [("description", .string "Write [ ]")] "Write [x]" "Write [ ]" := ⟨rfl, rfl, rfl, rfl⟩
  obtain ⟨-, -, rfl, rfl⟩ := hd.unique hrows
  have hitem : SameItem "Write [x]".toList "Write [ ]".toList := by
    have hlines : ExecutionSteps.lines "Write [x]".toList = ["Write [x]".toList] := by decide
    have hlines' : ExecutionSteps.lines "Write [ ]".toList = ["Write [ ]".toList] := by decide
    rw [OnlyBoxes, hlines, hlines'] at honly
    exact (List.forall₂_cons.mp honly).1
  obtain ⟨c, rest, hstart, hc⟩ := hitem.start (by decide)
  obtain ⟨rfl, -⟩ := List.cons.inj (hstart : 'W' :: "rite [x]".toList = c :: rest)
  exact absurd hc (by decide)

end Mokosh.Audit
