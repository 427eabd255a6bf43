import Mokosh.Lib.Binary64

/-! # Pages of a list

`utils/pagination.rs`: the page that a query string asks for, the rows that `LIMIT` and `OFFSET` take of an
ordered list, and what the answer says about the pages.

The offset is computed in 32 bits, and the number of pages in floating point.  **`right_iff_fits`**: the
answer is right if and only if the offsets of the page and of the last page fit, the number of the pages does,
and the page is not page 0 of a list of one page, whose answer promises a next page. -/

namespace Mokosh

structure PaginationParams where
  page : UInt32
  perPage : UInt32
deriving DecidableEq, Repr

structure PaginationMeta where
  page : UInt32
  perPage : UInt32
  total : UInt64
  totalPages : UInt32
  hasNext : Bool
  hasPrev : Bool
deriving DecidableEq, Repr

structure PaginatedResponse (α : Type) where
  data : List α
  metadata : PaginationMeta

namespace PaginationParams

def maxPerPage : UInt32 := 100

def defaultPage : UInt32 := 1

def defaultPerPage : UInt32 := 25

/-- `deserialize_per_page`. -/
def deserializePerPage (value : UInt32) : Except String UInt32 :=
  if maxPerPage < value then
    .error ("per_page " ++ toString value ++ " exceeds the maximum of " ++ toString maxPerPage)
  else .ok value

/-- The `page` and `per_page` of a query string, each where it has one. -/
def deserialize (page perPage : Option UInt32) : Except String PaginationParams := do
  let perPage ← (perPage.map deserializePerPage).getD (.ok defaultPerPage)
  pure { page := page.getD defaultPage, perPage := perPage }

variable (params : PaginationParams)

/-- `per_page`, clamped between 1 and the maximum. -/
def clampedPerPage : UInt32 := max 1 (min params.perPage maxPerPage)

/-- `page.saturating_sub(1)`. -/
def pagesBefore : UInt32 := if params.page = 0 then 0 else params.page - 1

/-- `offset`.  The product of two `u32` wraps. -/
def offset : UInt32 := params.pagesBefore * params.clampedPerPage

def limit : UInt32 := params.clampedPerPage

/-- The rows that `LIMIT` and `OFFSET` take of an ordered list. -/
def slice {α : Type} (rows : List α) : List α := (rows.drop params.offset.toNat).take params.limit.toNat

end PaginationParams

/-- `((total as f64) / (per_page as f64)).ceil() as u32`; the last cast saturates. -/
def totalPages (total : UInt64) (perPage : UInt32) : UInt32 :=
  .ofNat (min ⌈Binary64.div (Binary64.ofNat total.toNat) (Binary64.ofNat perPage.toNat)⌉.toNat (2 ^ 32 - 1))

/-- `PaginatedResponse::new`. -/
def PaginatedResponse.new {α : Type} (data : List α) (page perPage : UInt32) (total : UInt64) :
    PaginatedResponse α :=
  let perPage := max perPage 1
  let pages := totalPages total perPage
  { data := data
    metadata :=
      { page := page
        perPage := perPage
        total := total
        totalPages := pages
        hasNext := decide (page < pages)
        hasPrev := decide (1 < page) } }

def PaginatedResponse.fromParams {α : Type} (data : List α) (params : PaginationParams) (total : UInt64) :
    PaginatedResponse α :=
  .new data params.page params.clampedPerPage total

namespace PaginationParams

variable (params : PaginationParams) {α : Type} (rows : List α)

/-- The answer to the request where `rows` is all that there is. -/
def answer : PaginatedResponse α := .fromParams (params.slice rows) params (.ofNat rows.length)

/-- The pages that the answer counts, one after the other. -/
def everyPage : List α :=
  (List.range (params.answer rows).metadata.totalPages.toNat).flatMap fun i =>
    { params with page := .ofNat (i + 1) }.slice rows

/-- What a list of a length is due: `k` counts as a page that holds a row if its first row exists. -/
structure Right (total : UInt64) : Prop where
  offset : params.offset.toNat = (params.page.toNat - 1) * params.clampedPerPage.toNat
  everyPage : ∀ (α : Type) (rows : List α), rows.length = total.toNat → params.everyPage rows = rows
  hasNext : ∀ (α : Type) (rows : List α), rows.length = total.toNat →
    ((params.answer rows).metadata.hasNext = true ↔
      ∃ k : UInt32, max 1 params.page.toNat < k.toNat ∧
        (k.toNat - 1) * params.clampedPerPage.toNat < rows.length)
  beyond : ∀ (α : Type) (rows : List α), rows.length = total.toNat →
    (params.answer rows).metadata.totalPages < params.page → (params.answer rows).data = []

/-- The number of pages that a list of a length has. -/
def pages (total : ℕ) : ℕ := (total + params.clampedPerPage.toNat - 1) / params.clampedPerPage.toNat

/-- The offsets of the page and of the last page fit in 32 bits, and the number of the last page does. -/
structure Fits (total : ℕ) : Prop where
  offset : (params.page.toNat - 1) * params.clampedPerPage.toNat < 2 ^ 32
  lastOffset : (params.pages total - 1) * params.clampedPerPage.toNat < 2 ^ 32
  lastPage : params.pages total < 2 ^ 32
  first : params.page = 0 → params.pages total ≠ 1

/-! ### Arithmetic of the pages -/

section

variable {params} {total : ℕ}

theorem clampedPerPage_toNat : params.clampedPerPage.toNat = max 1 (min params.perPage.toNat 100) := by
  unfold clampedPerPage maxPerPage
  rw [UInt32.max_def, UInt32.min_def]
  split <;> split <;> simp_all [UInt32.le_iff_toNat_le]
  omega

theorem clampedPerPage_pos : 0 < params.clampedPerPage.toNat := by
  rw [clampedPerPage_toNat]
  omega

theorem clampedPerPage_le : params.clampedPerPage.toNat ≤ 100 := by
  rw [clampedPerPage_toNat]
  omega

theorem pagesBefore_toNat : params.pagesBefore.toNat = params.page.toNat - 1 := by
  unfold pagesBefore
  split
  · next h =>
      rw [h]
      rfl
  · next h =>
      refine UInt32.toNat_sub_of_le _ _ (UInt32.le_iff_toNat_le.mpr ?_)
      exact Nat.one_le_iff_ne_zero.mpr fun h0 => h (UInt32.toNat_inj.mp h0)

/-- The offset is right up to what does not fit. -/
theorem offset_toNat :
    params.offset.toNat = (params.page.toNat - 1) * params.clampedPerPage.toNat % 2 ^ 32 := by
  unfold offset
  rw [UInt32.toNat_mul, pagesBefore_toNat]

theorem offset_iff : params.offset.toNat = (params.page.toNat - 1) * params.clampedPerPage.toNat ↔
    (params.page.toNat - 1) * params.clampedPerPage.toNat < 2 ^ 32 := by
  rw [offset_toNat, Nat.mod_eq_iff_lt (by decide)]

/-- A page is one of the list's if its first row is. -/
theorem lt_pages_iff {k : ℕ} : k < params.pages total ↔ k * params.clampedPerPage.toNat < total := by
  have h := params.clampedPerPage_pos
  unfold pages
  rw [← Nat.succ_le_iff, Nat.le_div_iff_mul_le h, Nat.succ_mul]
  omega

theorem le_pages_mul : total ≤ params.pages total * params.clampedPerPage.toNat :=
  not_lt.mp fun h => lt_irrefl _ (lt_pages_iff.mpr h)

/-- A list of so many rows has more pages than 32 bits can count. -/
theorem lt_pages_of_le (h : 2 ^ 46 ≤ total) : 2 ^ 32 < params.pages total := by
  rw [lt_pages_iff]
  calc 2 ^ 32 * params.clampedPerPage.toNat ≤ 2 ^ 32 * 100 := Nat.mul_le_mul_left _ params.clampedPerPage_le
    _ < total := by omega

/-- Short of that, the division in floating point counts them right. -/
theorem totalPages_toNat {total : UInt64} (h : total.toNat < 2 ^ 46) :
    (totalPages total params.clampedPerPage).toNat = min (params.pages total.toNat) (2 ^ 32 - 1) := by
  have hp := params.clampedPerPage_le
  unfold totalPages
  rw [Binary64.ceil_div_ofNat params.clampedPerPage_pos (by omega) (by omega) h (by omega), Int.toNat_natCast,
    UInt32.toNat_ofNat_of_lt' (show _ < 2 ^ 32 by omega)]
  rfl

/-- The answer never counts a page too many. -/
theorem totalPages_le {total : UInt64} :
    (totalPages total params.clampedPerPage).toNat ≤ params.pages total.toNat := by
  obtain h | h := Nat.lt_or_ge total.toNat (2 ^ 46)
  · rw [totalPages_toNat h]
    exact min_le_left _ _
  · have := UInt32.toNat_lt (totalPages total params.clampedPerPage)
    have := params.lt_pages_of_le h
    omega

theorem totalPages_eq {total : UInt64} (h : params.pages total.toNat < 2 ^ 32) :
    (totalPages total params.clampedPerPage).toNat = params.pages total.toNat := by
  rw [totalPages_toNat (not_le.mp fun hle => absurd (params.lt_pages_of_le hle) (by omega))]
  omega

variable {α : Type} {rows : List α}

theorem answer_perPage : max params.clampedPerPage 1 = params.clampedPerPage := by
  have hpos := params.clampedPerPage_pos
  rw [UInt32.max_def]
  split
  · next h => exact UInt32.toNat_inj.mp (le_antisymm hpos (UInt32.le_iff_toNat_le.mp h))
  · rfl

theorem answer_totalPages : (params.answer rows).metadata.totalPages =
    totalPages (.ofNat rows.length) params.clampedPerPage := by
  show totalPages _ (max params.clampedPerPage 1) = _
  rw [answer_perPage]

/-! ### The slices -/

/-- The first slices of a length, one after the other. -/
theorem flatMap_slices (rows : List α) (p n : ℕ) :
    ((List.range n).flatMap fun i => (rows.drop (i * p)).take p) = rows.take (n * p) := by
  induction n with
  | zero => simp
  | succ n ih =>
      rw [List.range_succ, List.flatMap_append, ih, List.flatMap_singleton, Nat.succ_mul, List.take_add]

theorem slice_of_lt {i : ℕ} (hi : i + 1 < 2 ^ 32) :
    { params with page := .ofNat (i + 1) }.slice rows =
      (rows.drop (i * params.clampedPerPage.toNat % 2 ^ 32)).take params.clampedPerPage.toNat := by
  unfold slice
  rw [offset_toNat]
  show List.take params.clampedPerPage.toNat (List.drop (((UInt32.ofNat (i + 1)).toNat - 1) *
    params.clampedPerPage.toNat % 2 ^ 32) rows) = _
  rw [UInt32.toNat_ofNat_of_lt' hi, Nat.add_sub_cancel]

/-- Where every offset fits, the pages are the list. -/
theorem everyPage_eq {total : UInt64} (hrows : rows.length = total.toNat)
    (hlast : (params.pages total.toNat - 1) * params.clampedPerPage.toNat < 2 ^ 32)
    (hpages : params.pages total.toNat < 2 ^ 32) : params.everyPage rows = rows := by
  have hn : UInt64.ofNat rows.length = total := by rw [hrows, UInt64.ofNat_toNat]
  have hslice : ∀ i ∈ List.range (params.pages total.toNat), { params with page := .ofNat (i + 1) }.slice rows =
      (rows.drop (i * params.clampedPerPage.toNat)).take params.clampedPerPage.toNat := by
    intro i hi
    rw [List.mem_range] at hi
    have hoff : i * params.clampedPerPage.toNat ≤ (params.pages total.toNat - 1) * params.clampedPerPage.toNat :=
      Nat.mul_le_mul_right _ (by omega)
    rw [slice_of_lt (by omega), Nat.mod_eq_of_lt (hoff.trans_lt hlast)]
  unfold everyPage
  rw [answer_totalPages, hn, totalPages_eq hpages, List.flatMap_congr hslice, flatMap_slices,
    List.take_of_length_le (hrows ▸ le_pages_mul)]

theorem mem_slice_range {n a p x : ℕ} (h : x ∈ ((List.range n).drop a).take p) : a ≤ x ∧ x < a + p := by
  obtain ⟨i, hi, rfl⟩ := List.mem_iff_getElem.mp h
  rw [List.getElem_take, List.getElem_drop, List.getElem_range]
  rw [List.length_take] at hi
  omega

/-- Where the pages are the list, the first row of the last page is on that page. -/
theorem fits_of_everyPage {total : UInt64} (h : params.everyPage (List.range total.toNat) = List.range total.toNat) :
    (params.pages total.toNat - 1) * params.clampedPerPage.toNat < 2 ^ 32 ∧ params.pages total.toNat < 2 ^ 32 := by
  have hp := params.clampedPerPage_le
  obtain h0 | hpos := (params.pages total.toNat).eq_zero_or_pos
  · rw [h0]
    simp
  have hfirst : (params.pages total.toNat - 1) * params.clampedPerPage.toNat < total.toNat :=
    lt_pages_iff.mp (by omega)
  have hmem := List.mem_range.mpr hfirst
  rw [← h] at hmem
  unfold everyPage at hmem
  rw [answer_totalPages, List.length_range, UInt64.ofNat_toNat] at hmem
  obtain ⟨i, hi, hx⟩ := List.mem_flatMap.mp hmem
  rw [List.mem_range] at hi
  have hcount := UInt32.toNat_lt (totalPages total params.clampedPerPage)
  have hle : (totalPages total params.clampedPerPage).toNat ≤ params.pages total.toNat := totalPages_le
  rw [slice_of_lt (by omega)] at hx
  obtain ⟨-, hlt⟩ := mem_slice_range hx
  have hmod := Nat.mod_le (i * params.clampedPerPage.toNat) (2 ^ 32)
  -- an earlier page ends before that row
  have hi' : i = params.pages total.toNat - 1 := by
    have hmul : (params.pages total.toNat - 1) * params.clampedPerPage.toNat <
        (i + 1) * params.clampedPerPage.toNat := by
      rw [Nat.succ_mul]
      omega
    have := Nat.lt_of_mul_lt_mul_right hmul
    omega
  subst hi'
  omega

/-- A page is followed by one of the list's if it is not the last. -/
theorem exists_later_iff (h : params.pages total < 2 ^ 32) :
    (∃ k : UInt32, max 1 params.page.toNat < k.toNat ∧ (k.toNat - 1) * params.clampedPerPage.toNat < total) ↔
      max 1 params.page.toNat < params.pages total := by
  constructor
  · rintro ⟨k, hk, hrow⟩
    have := lt_pages_iff.mpr hrow
    omega
  · intro hlt
    refine ⟨.ofNat (max 1 params.page.toNat + 1), ?_, ?_⟩
    all_goals rw [UInt32.toNat_ofNat_of_lt' (show _ < 2 ^ 32 by omega)]
    · omega
    · exact lt_pages_iff.mp (by omega)

theorem hasNext_iff {total : UInt64} (hrows : rows.length = total.toNat) (h : params.pages total.toNat < 2 ^ 32) :
    (params.answer rows).metadata.hasNext = true ↔ params.page.toNat < params.pages total.toNat := by
  show decide (params.page < totalPages _ (max params.clampedPerPage 1)) = true ↔ _
  rw [decide_eq_true_iff, answer_perPage, hrows, UInt64.ofNat_toNat, UInt32.lt_iff_toNat_lt, totalPages_eq h]

/-- A page after the last is empty. -/
theorem slice_eq_nil (hoff : (params.page.toNat - 1) * params.clampedPerPage.toNat < 2 ^ 32)
    (hlt : params.pages rows.length < params.page.toNat) : params.slice rows = [] := by
  unfold slice
  rw [offset_iff.mpr hoff, List.drop_of_length_le, List.take_nil]
  calc rows.length ≤ params.pages rows.length * params.clampedPerPage.toNat := le_pages_mul
    _ ≤ (params.page.toNat - 1) * params.clampedPerPage.toNat := Nat.mul_le_mul_right _ (by omega)

end

/-- **Pages of a list.**  The answers to a request are right for the lists of a length if and only if the offsets
fit, and a list of one page was not asked for its page 0. -/
theorem right_iff_fits (total : UInt64) : params.Right total ↔ params.Fits total.toNat := by
  constructor
  · intro h
    obtain ⟨hlast, hpages⟩ := fits_of_everyPage (h.everyPage ℕ (List.range total.toNat) List.length_range)
    refine ⟨offset_iff.mp h.offset, hlast, hpages, fun h0 h1 => ?_⟩
    have hnext := h.hasNext ℕ (List.range total.toNat) List.length_range
    rw [hasNext_iff List.length_range hpages, List.length_range, exists_later_iff hpages, h0, h1] at hnext
    exact absurd (hnext.mp Nat.one_pos) (lt_irrefl 1)
  · intro h
    refine ⟨offset_iff.mpr h.offset, fun α rows hrows => everyPage_eq hrows h.lastOffset h.lastPage,
      fun α rows hrows => ?_, fun α rows hrows hlt => ?_⟩
    · rw [hasNext_iff hrows h.lastPage, hrows, exists_later_iff h.lastPage]
      have hfirst : params.page.toNat = 0 → params.pages total.toNat ≠ 1 :=
        fun h0 => h.first (UInt32.toNat_inj.mp h0)
      omega
    · rw [answer_totalPages, hrows, UInt64.ofNat_toNat, UInt32.lt_iff_toNat_lt, totalPages_eq h.lastPage] at hlt
      exact slice_eq_nil h.offset (hrows ▸ hlt)

/-- The offset of page 42949674 wraps: it is 4, and the page has rows of the first one. -/
theorem not_right_farOut : ∃ params, deserialize (some 42949674) (some 100) = .ok params ∧
    params.slice (List.range 25) = List.range' 4 21 ∧ ¬params.Right 25 :=
  ⟨{ page := 42949674, perPage := 100 }, rfl, by decide, fun h => absurd h.offset (by decide)⟩

end PaginationParams

end Mokosh
