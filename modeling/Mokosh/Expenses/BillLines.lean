import Mokosh.Expenses.Ledger
import Mokosh.Utils.Text

/-! # The lines of a bill

`insert_bill_lines` and `BillTotals::from_lines` of `expenses/service.rs`, which compute the rows of a bill and its
header from the same request, each with sums that stop at the ends of an `i64`.

**`totalsMatch_iff`**: header and rows agree, and the rows have the totals of their lines, if and only if no product
comes to more than a hundredth of the largest `i64` once it is divided, and the bill as a whole fits an `i64`. -/

namespace Mokosh.Expenses

/-- `BillLineInput`, with what only its row reads. -/
structure BillLineRequest extends BillLineInput where
  categoryId : Option Uuid
  description : String
  position : ℤ

/-- A row of `bill_lines`. -/
structure BillLine where
  categoryId : Option Uuid
  description : String
  quantityHundredths : ℤ
  unitPriceMinor : ℤ
  taxMinor : ℤ
  totalMinor : ℤ
  position : ℤ
deriving DecidableEq, Repr

def i64Max : ℤ := 2 ^ 63 - 1

/-- What a request with these lines passes: the types of its fields and the checks of `CreateBillRequest`. -/
structure Accepted (lines : List BillLineRequest) : Prop where
  count : 1 ≤ lines.length ∧ lines.length ≤ 200
  valid : ∀ line ∈ lines, line.Valid
  i64 : ∀ line ∈ lines,
    line.quantityHundredths ≤ i64Max ∧ line.unitPriceMinor ≤ i64Max ∧ line.taxMinor ≤ i64Max
  i32 : ∀ line ∈ lines, -2 ^ 31 ≤ line.position ∧ line.position < 2 ^ 31
  description : ∀ line ∈ lines, 1 ≤ line.description.length ∧ line.description.length ≤ 500

/-- `line_total`, in both functions. -/
def BillLineInput.lineTotal (line : BillLineInput) : ℤ :=
  (saturate (line.unitPriceMinor * line.quantityHundredths)).tdiv 100

def BillLineRequest.row (idx : ℕ) (line : BillLineRequest) : BillLine where
  categoryId := line.categoryId
  description := .ofList (Text.trim line.description.toList)
  quantityHundredths := line.quantityHundredths
  unitPriceMinor := line.unitPriceMinor
  taxMinor := line.taxMinor
  totalMinor := saturate (line.lineTotal + line.taxMinor)
  position := if line.position = 0 then idx else line.position

def insertBillLines (lines : List BillLineRequest) : List BillLine := lines.mapIdx BillLineRequest.row

def billTotals (lines : List BillLineRequest) : BillTotals :=
  .fromLines (lines.map BillLineRequest.toBillLineInput)

/-- The price of a line over the integers, rounded down. -/
def BillLineInput.price (line : BillLineInput) : ℤ := line.unitPriceMinor * line.quantityHundredths / 100

/-- The header has the sums of the rows, and each row the total of its line. -/
structure TotalsMatch (lines : List BillLineRequest) : Prop where
  subtotal : (billTotals lines).subtotalMinor = ((insertBillLines lines).map fun r => r.totalMinor - r.taxMinor).sum
  tax : (billTotals lines).taxMinor = ((insertBillLines lines).map (·.taxMinor)).sum
  total : (billTotals lines).totalMinor = ((insertBillLines lines).map (·.totalMinor)).sum
  rows : (insertBillLines lines).map (·.totalMinor) = lines.map fun line => line.price + line.taxMinor

/-- Nothing is cut off: no price that is above that of the largest product, and no bill above the largest `i64`. -/
structure LinesFit (lines : List BillLineRequest) : Prop where
  price : ∀ line ∈ lines, line.price ≤ i64Max / 100
  bill : (lines.map fun line => line.price + line.taxMinor).sum ≤ i64Max

instance (lines : List BillLineRequest) : Decidable (TotalsMatch lines) :=
  decidable_of_iff (_ ∧ _ ∧ _ ∧ _) ⟨fun ⟨h₁, h₂, h₃, h₄⟩ => ⟨h₁, h₂, h₃, h₄⟩, fun h => ⟨h.1, h.2, h.3, h.4⟩⟩

/-! ### Sums that stop -/

theorem saturate_le {x : ℤ} (h : 0 ≤ x) : saturate x ≤ x := by
  unfold saturate
  omega

theorem saturate_le_i64Max (x : ℤ) : saturate x ≤ i64Max := by
  unfold saturate i64Max
  omega

theorem saturate_of_le {x : ℤ} (h : 0 ≤ x) (hle : x ≤ i64Max) : saturate x = x :=
  saturate_eq (by omega) (by unfold i64Max at hle; omega)

/-- A sum of terms that are not negative stops at the end if the sum is beyond it, and not before. -/
theorem foldl_saturate (xs : List ℤ) (h : ∀ x ∈ xs, 0 ≤ x) {s : ℤ} (hs : 0 ≤ s) :
    xs.foldl (fun s x => saturate (s + x)) (saturate s) = saturate (s + xs.sum) := by
  induction xs generalizing s with
  | nil => rw [List.foldl_nil, List.sum_nil, add_zero]
  | cons x xs ih =>
      have hx : 0 ≤ x := h x List.mem_cons_self
      have hstep : saturate (saturate s + x) = saturate (s + x) := by
        unfold saturate
        omega
      rw [List.foldl_cons, hstep, ih (fun y hy => h y (List.mem_cons_of_mem _ hy)) (add_nonneg hs hx), List.sum_cons,
        add_assoc]

namespace BillLineInput

variable {line : BillLineInput}

theorem product_nonneg (h : line.Valid) : 0 ≤ line.unitPriceMinor * line.quantityHundredths :=
  mul_nonneg h.2.1 (by have := h.1; omega)

theorem price_nonneg (h : line.Valid) : 0 ≤ line.price := Int.ediv_nonneg (product_nonneg h) (by decide)

theorem lineTotal_nonneg (h : line.Valid) : 0 ≤ line.lineTotal :=
  Int.tdiv_nonneg (saturate_nonneg (product_nonneg h)) (by decide)

/-- The total of a line is its price, as long as that is not above the largest product's. -/
theorem lineTotal_eq (h : line.Valid) : line.lineTotal = min line.price (i64Max / 100) := by
  have hnonneg := product_nonneg h
  unfold lineTotal price
  rw [Int.tdiv_eq_ediv_of_nonneg (saturate_nonneg hnonneg)]
  unfold saturate i64Max
  omega

end BillLineInput

/-! ### The header -/

/-- The two sums do not meet before the end of the loop. -/
theorem foldl_sums (lines : List BillLineInput) (s t : ℤ) :
    lines.foldl
        (fun (s : ℤ × ℤ) line =>
          (saturate (s.1 + (saturate (line.unitPriceMinor * line.quantityHundredths)).tdiv 100),
            saturate (s.2 + line.taxMinor))) (s, t) =
      ((lines.map BillLineInput.lineTotal).foldl (fun s x => saturate (s + x)) s,
        (lines.map BillLineInput.taxMinor).foldl (fun s x => saturate (s + x)) t) := by
  induction lines generalizing s t with
  | nil => rfl
  | cons line lines ih =>
      rw [List.foldl_cons, ih]
      rfl

theorem fromLines_eq {lines : List BillLineInput} (h : ∀ line ∈ lines, line.Valid) :
    BillTotals.fromLines lines =
      { subtotalMinor := saturate (lines.map BillLineInput.lineTotal).sum
        taxMinor := saturate (lines.map BillLineInput.taxMinor).sum
        totalMinor := saturate (saturate (lines.map BillLineInput.lineTotal).sum +
          saturate (lines.map BillLineInput.taxMinor).sum) } := by
  have hzero : saturate 0 = 0 := by decide
  have hlines := foldl_saturate (lines.map BillLineInput.lineTotal)
    (List.forall_mem_map.mpr fun line hline => BillLineInput.lineTotal_nonneg (h line hline)) le_rfl
  have htax := foldl_saturate (lines.map BillLineInput.taxMinor)
    (List.forall_mem_map.mpr fun line hline => (h line hline).2.2) le_rfl
  rw [hzero, zero_add] at hlines htax
  unfold BillTotals.fromLines
  rw [foldl_sums, hlines, htax]

/-! ### The rows -/

theorem map_insertBillLines {β : Type} (f : BillLine → β) (g : BillLineRequest → β)
    (h : ∀ idx line, f (BillLineRequest.row idx line) = g line) (lines : List BillLineRequest) :
    (insertBillLines lines).map f = lines.map g := by
  refine List.ext_getElem? fun i => ?_
  unfold insertBillLines
  rw [List.getElem?_map, List.getElem?_mapIdx, Option.map_map, List.getElem?_map]
  exact congrArg (Option.map · lines[i]?) (funext fun line => h i line)

theorem totalsMatch_iff {lines : List BillLineRequest} (h : Accepted lines) : TotalsMatch lines ↔ LinesFit lines := by
  have hvalid : ∀ line ∈ lines.map BillLineRequest.toBillLineInput, line.Valid := List.forall_mem_map.mpr h.valid
  have hheader : billTotals lines = _ := fromLines_eq hvalid
  rw [List.map_map, List.map_map] at hheader
  have hrows : (insertBillLines lines).map (·.totalMinor) =
      lines.map fun line => saturate (line.lineTotal + line.taxMinor) :=
    map_insertBillLines _ _ (fun _ _ => rfl) lines
  have htaxes : (insertBillLines lines).map (·.taxMinor) = lines.map fun line => line.taxMinor :=
    map_insertBillLines _ _ (fun _ _ => rfl) lines
  have hnets : ((insertBillLines lines).map fun r => r.totalMinor - r.taxMinor) =
      lines.map fun line => saturate (line.lineTotal + line.taxMinor) - line.taxMinor :=
    map_insertBillLines _ _ (fun _ _ => rfl) lines
  constructor
  · intro hm
    have heach : ∀ line ∈ lines, saturate (line.lineTotal + line.taxMinor) = line.price + line.taxMinor :=
      List.map_inj_left.mp (hrows.symm.trans hm.rows)
    refine ⟨fun line hline => ?_, ?_⟩
    · have htax : 0 ≤ line.taxMinor := (h.valid line hline).2.2
      have htotal := BillLineInput.lineTotal_eq (h.valid line hline)
      have hnonneg := BillLineInput.lineTotal_nonneg (h.valid line hline)
      have hsat := saturate_le (add_nonneg hnonneg htax)
      rw [heach line hline] at hsat
      omega
    · rw [← hm.rows, ← hm.total, hheader]
      exact saturate_le_i64Max _
  · intro hfit
    have hprice : ∀ line ∈ lines, line.lineTotal = line.price := fun line hline => by
      rw [BillLineInput.lineTotal_eq (h.valid line hline), min_eq_left (hfit.price line hline)]
    have hamount : ∀ line ∈ lines, 0 ≤ line.price + line.taxMinor := fun line hline =>
      add_nonneg (BillLineInput.price_nonneg (h.valid line hline)) (h.valid line hline).2.2
    have hrow : ∀ line ∈ lines, saturate (line.lineTotal + line.taxMinor) = line.price + line.taxMinor := by
      intro line hline
      rw [hprice line hline]
      refine saturate_of_le (hamount line hline) (le_trans ?_ hfit.bill)
      exact List.single_le_sum (List.forall_mem_map.mpr hamount) _ (List.mem_map_of_mem hline)
    have hbill := hfit.bill
    rw [List.sum_map_add] at hbill
    have hprices : 0 ≤ (lines.map fun line => line.price).sum :=
      List.sum_nonneg (List.forall_mem_map.mpr fun line hline => BillLineInput.price_nonneg (h.valid line hline))
    have htax : 0 ≤ (lines.map fun line => line.taxMinor).sum :=
      List.sum_nonneg (List.forall_mem_map.mpr fun line hline => (h.valid line hline).2.2)
    have htotals : lines.map (BillLineInput.lineTotal ∘ BillLineRequest.toBillLineInput) =
        lines.map fun line => line.price := List.map_congr_left hprice
    have htaxMap : lines.map (BillLineInput.taxMinor ∘ BillLineRequest.toBillLineInput) =
        lines.map fun line => line.taxMinor := rfl
    rw [htotals, htaxMap, saturate_of_le hprices (by omega), saturate_of_le htax (by omega),
      saturate_of_le (add_nonneg hprices htax) hbill] at hheader
    refine ⟨?_, ?_, ?_, ?_⟩
    · rw [hnets, hheader]
      exact congrArg List.sum (List.map_congr_left fun line hline => by rw [hrow line hline, add_sub_cancel_right])
    · rw [htaxes, hheader]
    · rw [hrows, List.map_congr_left hrow, List.sum_map_add, hheader]
    · rw [hrows, List.map_congr_left hrow]

/-- One line of the largest price there is, a hundred hundredths of it. -/
def largest : List BillLineRequest :=
  [{ quantityHundredths := 100, unitPriceMinor := i64Max, taxMinor := 0, categoryId := none,
     description := "Server", position := 0 }]

theorem accepted_largest : Accepted largest where
  count := by decide
  valid := List.forall_mem_singleton.mpr ⟨by decide, by decide, by decide⟩
  i64 := List.forall_mem_singleton.mpr (by decide)
  i32 := List.forall_mem_singleton.mpr (by decide)
  description := List.forall_mem_singleton.mpr (by decide)

theorem not_totalsMatch_largest : Accepted largest ∧ ¬ TotalsMatch largest :=
  ⟨accepted_largest, by decide⟩

theorem totalsMatch_iff_largest : TotalsMatch largest ↔ LinesFit largest := totalsMatch_iff accepted_largest

end Mokosh.Expenses
