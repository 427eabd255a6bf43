import Mathlib.Data.List.Basic
import Mathlib.Data.Nat.Bitwise

/-! # Digits in a stream of bits

The lowest `w` bits of a number, the highest first.  A buffer that takes a digit in at its low end and gives digits off
at its high end holds the bits in between (`bits_shiftLeft_lor`, `bits_add`).  A stream falls into digits of one width
and a rest that is shorter than a digit in one way only (`Digits.unique`). -/

namespace Mokosh

def bits : ℕ → ℕ → List Bool
  | 0, _ => []
  | w + 1, n => n.testBit w :: bits w n

@[simp] theorem length_bits (w n : ℕ) : (bits w n).length = w := by
  induction w with
  | zero => rfl
  | succ w ih => rw [bits, List.length_cons, ih]

theorem bits_congr {w m n : ℕ} (h : ∀ i < w, m.testBit i = n.testBit i) : bits w m = bits w n := by
  induction w with
  | zero => rfl
  | succ w ih => rw [bits, bits, h w w.lt_succ_self, ih fun i hi => h i (hi.trans w.lt_succ_self)]

theorem testBit_of_bits_eq {w m n : ℕ} (h : bits w m = bits w n) : ∀ i < w, m.testBit i = n.testBit i := by
  induction w with
  | zero => exact fun i hi => absurd hi (Nat.not_lt_zero i)
  | succ w ih =>
      intro i hi
      obtain ⟨hw, hrest⟩ := List.cons.inj h
      rcases Nat.lt_succ_iff_lt_or_eq.mp hi with hi | rfl
      · exact ih hrest i hi
      · exact hw

/-- The bits of a digit name it. -/
theorem bits_injective {w m n : ℕ} (hm : m < 2 ^ w) (hn : n < 2 ^ w) (h : bits w m = bits w n) : m = n := by
  refine Nat.eq_of_testBit_eq fun i => ?_
  by_cases hi : i < w
  · exact testBit_of_bits_eq h i hi
  · have hw : 2 ^ w ≤ 2 ^ i := Nat.pow_le_pow_right Nat.two_pos (not_lt.mp hi)
    rw [Nat.testBit_lt_two_pow (hm.trans_le hw), Nat.testBit_lt_two_pow (hn.trans_le hw)]

/-- The highest `v` of `v + w` bits are those of the number shifted by `w`. -/
theorem bits_add (v w n : ℕ) : bits (v + w) n = bits v (n >>> w) ++ bits w n := by
  induction v with
  | zero => rw [Nat.zero_add, bits, List.nil_append]
  | succ v ih => rw [Nat.succ_add, bits, bits, ih, Nat.testBit_shiftRight, Nat.add_comm w v, List.cons_append]

/-- A digit that is shifted in follows the bits that were there. -/
theorem bits_shiftLeft_lor {v w n d : ℕ} (hd : d < 2 ^ w) : bits (v + w) (n <<< w ||| d) = bits v n ++ bits w d := by
  rw [bits_add]
  congr 1
  · refine bits_congr fun i _ => ?_
    rw [Nat.testBit_shiftRight, Nat.testBit_lor, Nat.testBit_shiftLeft,
      Nat.testBit_lt_two_pow (hd.trans_le (Nat.pow_le_pow_right Nat.two_pos (Nat.le_add_right w i)))]
    simp
  · refine bits_congr fun i hi => ?_
    rw [Nat.testBit_lor, Nat.testBit_shiftLeft]
    simp [hi]

/-- A shift fills up with zeros. -/
theorem bits_shiftLeft (v w n : ℕ) : bits (v + w) (n <<< w) = bits v n ++ List.replicate w false := by
  have hzero : ∀ w, bits w 0 = List.replicate w false := by
    intro w
    induction w with
    | zero => rfl
    | succ w ih => rw [bits, ih, Nat.zero_testBit, List.replicate_succ]
  rw [← hzero, ← bits_shiftLeft_lor (Nat.two_pow_pos w), Nat.or_zero]

/-- What a register of `k` bits drops is not among the lowest `w`. -/
theorem bits_mod_two_pow {w k : ℕ} (hw : w ≤ k) (n : ℕ) : bits w (n % 2 ^ k) = bits w n :=
  bits_congr fun i hi => by rw [Nat.testBit_mod_two_pow, decide_eq_true (hi.trans_le hw), Bool.true_and]

/-- The stream is the digits, one after the other, and a rest that is shorter than a digit. -/
structure Digits (w : ℕ) (stream : List Bool) (digits : List ℕ) (rest : List Bool) : Prop where
  eq : stream = digits.flatMap (bits w) ++ rest
  lt : ∀ d ∈ digits, d < 2 ^ w
  rest_lt : rest.length < w

theorem length_flatMap_bits (w : ℕ) (digits : List ℕ) : (digits.flatMap (bits w)).length = digits.length * w := by
  induction digits with
  | nil => simp
  | cons d digits ih => rw [List.flatMap_cons, List.length_append, ih, length_bits, List.length_cons, Nat.succ_mul,
      Nat.add_comm]

theorem Digits.unique {w : ℕ} {stream : List Bool} {digits digits' : List ℕ} {rest rest' : List Bool}
    (h : Digits w stream digits rest) (h' : Digits w stream digits' rest') : digits = digits' ∧ rest = rest' := by
  induction digits generalizing digits' stream with
  | nil =>
      cases digits' with
      | nil => exact ⟨rfl, List.append_cancel_left (h.eq.symm.trans h'.eq)⟩
      | cons d' digits' =>
          have hlen := congrArg List.length (h.eq.symm.trans h'.eq)
          have hrest := h.rest_lt
          simp only [List.flatMap_cons, List.flatMap_nil, List.length_append, List.length_nil, length_bits] at hlen
          omega
  | cons d digits ih =>
      cases digits' with
      | nil =>
          have hlen := congrArg List.length (h.eq.symm.trans h'.eq)
          have hrest := h'.rest_lt
          simp only [List.flatMap_cons, List.flatMap_nil, List.length_append, List.length_nil, length_bits] at hlen
          omega
      | cons d' digits' =>
          have heq := h.eq.symm.trans h'.eq
          rw [List.flatMap_cons, List.flatMap_cons, List.append_assoc, List.append_assoc] at heq
          obtain ⟨hd, heq⟩ := List.append_inj heq (by rw [length_bits, length_bits])
          obtain ⟨hdigits, hrest⟩ := ih ⟨rfl, fun e he => h.lt e (List.mem_cons_of_mem _ he), h.rest_lt⟩
            ⟨heq, fun e he => h'.lt e (List.mem_cons_of_mem _ he), h'.rest_lt⟩
          exact ⟨by rw [bits_injective (h.lt d List.mem_cons_self) (h'.lt d' List.mem_cons_self) hd, hdigits], hrest⟩

end Mokosh
