import Mathlib.Algebra.Group.Nat.Defs
import Mathlib.Logic.Function.Iterate

/-!
# Maps that keep exclusive or

A register that shifts, and feeds back the exclusive or of some of its bits, is such a map. It is
given by its columns, the images of the words with one bit. The columns of its square are computed
from them, and so a long run of the register takes a number of steps that is logarithmic in its
length.

* `IsXorLinear`: the map keeps exclusive or.
* `combine_columns`: a map is given by its columns.
* `jump_columns`: `n` steps of the map, by repeated squaring.

Columns are natural numbers, so that a run can be evaluated.
-/

namespace Iax.XorLinear

variable {w : ℕ}

/-- The map keeps exclusive or. -/
def IsXorLinear (f : BitVec w → BitVec w) : Prop := ∀ x y, f (x ^^^ y) = f x ^^^ f y

/-- The images of the words with one bit. -/
def columns (f : BitVec w → BitVec w) : List ℕ := (List.range w).map fun i => (f (1#w <<< i)).toNat

/-- The exclusive or of `acc` and the columns at the bits of `x`. -/
def combine : List ℕ → ℕ → ℕ → ℕ
  | [], _, acc => acc
  | c :: cols, x, acc => combine cols (x / 2) (acc ^^^ (x % 2 * c))

/-- The columns of the square. -/
def square (cols : List ℕ) : List ℕ := cols.map fun c => combine cols c 0

/-- The image of `x` after `n` steps, for `n` with at most `bits` bits. -/
def jump : ℕ → List ℕ → ℕ → ℕ → ℕ
  | 0, _, _, x => x
  | bits + 1, cols, n, x =>
    jump bits (square cols) (n / 2) (if n % 2 = 1 then combine cols x 0 else x)

namespace IsXorLinear

variable {f g : BitVec w → BitVec w}

theorem map_zero (hf : IsXorLinear f) : f 0 = 0 := by
  have h := hf 0 0
  rwa [BitVec.xor_self, BitVec.xor_self] at h

theorem comp (hf : IsXorLinear f) (hg : IsXorLinear g) : IsXorLinear (f ∘ g) := by
  intro x y
  rw [Function.comp_apply, hg, hf]
  rfl

end IsXorLinear

/-- The bits of a word from `k` on, split after the first. -/
theorem shiftLeft_ushiftRight_eq (x : BitVec w) (k : ℕ) :
    x >>> k <<< k = (if x.getLsbD k then 1#w <<< k else 0) ^^^ (x >>> (k + 1) <<< (k + 1)) := by
  ext j hj
  have hbit : ∀ n, (x >>> n <<< n)[j] = (decide (n ≤ j) && x[j]) := by
    intro n
    rcases Nat.lt_or_ge j n with h | h
    · simp [h, Nat.not_le.2 h]
    · have hadd : n + (j - n) = j := by omega
      simp [h, Nat.not_lt.2 h, hadd, BitVec.getLsbD_eq_getElem hj]
  rw [BitVec.getElem_xor, hbit, hbit]
  rcases Nat.lt_trichotomy j k with h | rfl | h
  · have hone : (if x.getLsbD k then 1#w <<< k else 0)[j] = false := by
      split <;> simp [h]
    rw [hone, decide_eq_false (by omega), decide_eq_false (by omega)]
    rfl
  · rw [BitVec.getLsbD_eq_getElem hj]
    cases x[j] <;> simp
  · have hone : (if x.getLsbD k then 1#w <<< k else 0)[j] = false := by
      split <;> simp [Nat.not_lt.2 (Nat.le_of_lt h)]
      omega
    rw [hone, decide_eq_true (by omega), decide_eq_true (by omega)]
    simp

/-- A bit of a word as a number. -/
theorem toNat_div_mod_two (x : BitVec w) (k : ℕ) :
    x.toNat / 2 ^ k % 2 = if x.getLsbD k then 1 else 0 := by
  rw [BitVec.getLsbD, Nat.testBit_eq_decide_div_mod_eq]
  rcases Nat.mod_two_eq_zero_or_one (x.toNat / 2 ^ k) with h | h <;> simp [h]

section Columns

variable {f : BitVec w → BitVec w}

theorem combine_columns_from (hf : IsXorLinear f) (x : BitVec w) (n k : ℕ) (hk : k + n = w)
    (acc : ℕ) :
    combine ((List.range' k n).map fun i => (f (1#w <<< i)).toNat) (x.toNat / 2 ^ k) acc =
      acc ^^^ (f (x >>> k <<< k)).toNat := by
  induction n generalizing k acc with
  | zero =>
    have hzero : x >>> k <<< k = 0 := by
      rw [BitVec.ushiftRight_eq_zero (by omega)]
      simp
    rw [hzero, hf.map_zero]
    simp [combine]
  | succ n ih =>
    rw [List.range'_succ, List.map_cons, combine, Nat.div_div_eq_div_mul, ← Nat.pow_succ,
      ih (k + 1) (by omega), shiftLeft_ushiftRight_eq x k, hf, BitVec.toNat_xor, ← Nat.xor_assoc]
    rw [toNat_div_mod_two]
    have hzero : f 0#w = 0#w := hf.map_zero
    cases x.getLsbD k
    · simp [hzero]
    · simp

/-- **A map is given by its columns.** -/
theorem combine_columns (hf : IsXorLinear f) (x : BitVec w) :
    combine (columns f) x.toNat 0 = (f x).toNat := by
  have h := combine_columns_from hf x w 0 (Nat.zero_add w) 0
  simpa [columns, List.range_eq_range'] using h

theorem square_columns (hf : IsXorLinear f) : square (columns f) = columns (f ∘ f) := by
  rw [square, columns, List.map_map, columns]
  refine List.map_congr_left fun i _ => ?_
  exact combine_columns hf _

/-- **A run in few steps.** -/
theorem jump_columns (hf : IsXorLinear f) (bits n : ℕ) (hn : n < 2 ^ bits) (x : BitVec w) :
    jump bits (columns f) n x.toNat = (f^[n] x).toNat := by
  induction bits generalizing f n x with
  | zero =>
    obtain rfl : n = 0 := by omega
    rfl
  | succ bits ih =>
    have hfirst : (if n % 2 = 1 then combine (columns f) x.toNat 0 else x.toNat) =
        (f^[n % 2] x).toNat := by
      rcases Nat.mod_two_eq_zero_or_one n with h | h
      · rw [h]
        rfl
      · rw [h, if_pos rfl, combine_columns hf]
        rfl
    have hhalf : n / 2 < 2 ^ bits := by omega
    have hsplit : f^[n] = (f ∘ f)^[n / 2] ∘ f^[n % 2] := by
      have hsq : f ∘ f = f^[2] := rfl
      rw [hsq, ← Function.iterate_mul, ← Function.iterate_add, Nat.div_add_mod]
    rw [jump, square_columns hf, hfirst, ih (hf.comp hf) (n / 2) hhalf, hsplit]
    rfl

end Columns

end Iax.XorLinear
