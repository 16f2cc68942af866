import Mathlib.Data.BitVec

/-!
# Words made of fields

`place w pos v` is the word of `w` bits that has the field `v` at bit `pos` and zeros elsewhere. A
word is masked by the ones of a field (`and_eq_place`), its fields are shifted to other places
(`place_ushiftRight`, `place_move`), and the result is read field by field: each field of an or
of placed fields is an or of parts of them (`extractLsb'_place`, `getLsbD_place`).
-/

namespace Iax.BitField

variable {w n : ℕ}

/-- The field `v` at bit `pos` of a word of zeros. -/
def place (w pos : ℕ) (v : BitVec n) : BitVec w := v.setWidth w <<< pos

theorem getLsbD_place (pos : ℕ) (v : BitVec n) (i : ℕ) :
    (place w pos v).getLsbD i = (decide (i < w) && decide (pos ≤ i) && v.getLsbD (i - pos)) := by
  rw [place, BitVec.getLsbD_shiftLeft, BitVec.getLsbD_setWidth]
  by_cases hi : i < w
  · have hlt : i - pos < w := by omega
    by_cases hpos : pos ≤ i
    · simp [hi, hpos, hlt, Nat.not_lt.2 hpos]
    · simp [hi, hpos, Nat.lt_of_not_le hpos]
  · simp [hi]

/-- A bit inside the word and not below the field. -/
theorem getLsbD_place_of_le {pos : ℕ} (v : BitVec n) {i : ℕ} (hi : i < w) (h : pos ≤ i) :
    (place w pos v).getLsbD i = v.getLsbD (i - pos) := by
  rw [getLsbD_place, decide_eq_true hi, decide_eq_true h, Bool.true_and, Bool.true_and]

/-- A bit below the field. -/
theorem getLsbD_place_of_lt {pos : ℕ} (v : BitVec n) {i : ℕ} (h : i < pos) :
    (place w pos v).getLsbD i = false := by
  rw [getLsbD_place, decide_eq_false (Nat.not_le.2 h), Bool.and_false, Bool.false_and]

/-- A window that starts inside the field or above it. -/
theorem extractLsb'_place {pos : ℕ} (v : BitVec n) {start len : ℕ} (h : pos ≤ start)
    (hw : start + len ≤ w) :
    (place w pos v).extractLsb' start len = v.extractLsb' (start - pos) len := by
  refine BitVec.eq_of_getLsbD_eq fun i hi => ?_
  rw [BitVec.getLsbD_extractLsb', BitVec.getLsbD_extractLsb',
    getLsbD_place_of_le v (by omega) (by omega), Nat.sub_add_comm h]

/-- A window that starts with the field. -/
theorem extractLsb'_place_start {pos : ℕ} (v : BitVec n) {len : ℕ} (hw : pos + len ≤ w) :
    (place w pos v).extractLsb' pos len = v.setWidth len := by
  rw [extractLsb'_place v le_rfl hw, Nat.sub_self]
  refine BitVec.eq_of_getLsbD_eq fun i hi => ?_
  rw [BitVec.getLsbD_extractLsb', BitVec.getLsbD_setWidth, Nat.zero_add]

/-- The window that is the field. -/
theorem extractLsb'_place_self {pos : ℕ} (v : BitVec n) (hw : pos + n ≤ w) :
    (place w pos v).extractLsb' pos n = v := by
  rw [extractLsb'_place_start v hw, BitVec.setWidth_eq]

/-- A window below the field. -/
theorem extractLsb'_place_of_le {pos : ℕ} (v : BitVec n) {start m : ℕ} (h : start + m ≤ pos) :
    (place w pos v).extractLsb' start m = 0#m := by
  refine BitVec.eq_of_getLsbD_eq fun i hi => ?_
  rw [BitVec.getLsbD_extractLsb', getLsbD_place_of_lt v (by omega), Bool.and_false]
  exact BitVec.getLsbD_zero.symm

/-- A window above what there is. -/
theorem extractLsb'_of_le (v : BitVec n) {start m : ℕ} (h : n ≤ start) :
    v.extractLsb' start m = 0#m := by
  refine BitVec.eq_of_getLsbD_eq fun i hi => ?_
  rw [BitVec.getLsbD_extractLsb', BitVec.getLsbD_of_ge v _ (by omega), Bool.and_false]
  exact BitVec.getLsbD_zero.symm

@[simp] theorem place_zero (pos : ℕ) : place w pos 0#n = 0#w := by simp [place]

/-- A field is as wide as one likes. -/
theorem place_setWidth {m : ℕ} (pos : ℕ) (v : BitVec n) (h : n ≤ m) :
    place w pos (v.setWidth m) = place w pos v := by
  refine BitVec.eq_of_getLsbD_eq fun i hi => ?_
  rw [getLsbD_place, getLsbD_place, BitVec.getLsbD_setWidth]
  by_cases hlt : i - pos < m
  · simp [hlt]
  · rw [BitVec.getLsbD_of_ge v _ (by omega)]
    simp

/-- Masking with the ones of a field. -/
theorem and_eq_place (x m : BitVec w) (pos len : ℕ) (hm : m = place w pos (BitVec.allOnes len)) :
    x &&& m = place w pos (x.extractLsb' pos len) := by
  refine BitVec.eq_of_getLsbD_eq fun i hi => ?_
  rw [hm, BitVec.getLsbD_and, getLsbD_place, getLsbD_place, BitVec.getLsbD_extractLsb',
    BitVec.getLsbD_allOnes]
  by_cases hpos : pos ≤ i
  · rw [Nat.add_sub_cancel' hpos, Bool.and_comm]
    simp [hi, hpos]
  · simp [hpos]

/-- The field of a masked word, shifted to the bottom. -/
theorem place_ushiftRight {pos : ℕ} (v : BitVec n) (h : pos + n ≤ w) :
    place w pos v >>> pos = v.setWidth w := by
  refine BitVec.eq_of_getLsbD_eq fun i hi => ?_
  rw [BitVec.getLsbD_ushiftRight, getLsbD_place, BitVec.getLsbD_setWidth, Nat.add_sub_cancel_left]
  by_cases hlt : pos + i < w
  · simp [hi, hlt]
  · rw [BitVec.getLsbD_of_ge v i (by omega)]
    simp

theorem place_inj {pos : ℕ} {u v : BitVec n} (h : pos + n ≤ w) :
    place w pos u = place w pos v ↔ u = v := by
  refine ⟨fun heq => ?_, congrArg _⟩
  rw [← extractLsb'_place_self u h, heq, extractLsb'_place_self v h]

/-- A field that is shifted to the bottom and to another place. -/
theorem place_move {pos : ℕ} (pos' : ℕ) (v : BitVec n) (h : pos + n ≤ w) :
    place w pos v >>> pos <<< pos' = place w pos' v := by
  rw [place_ushiftRight v h]
  rfl

/-! ## Single bits -/

theorem extractLsb'_one (x : BitVec w) (pos : ℕ) :
    x.extractLsb' pos 1 = if x.getLsbD pos then 1#1 else 0#1 := by
  refine BitVec.eq_of_getLsbD_eq fun i hi => ?_
  obtain rfl : i = 0 := by omega
  rw [BitVec.getLsbD_extractLsb', Nat.add_zero]
  cases x.getLsbD pos <;> rfl

/-- Testing one bit. -/
theorem and_bit_ne_zero (x m : BitVec w) (pos : ℕ) (hpos : pos < w)
    (hm : m = place w pos 1#1) : x &&& m ≠ 0 ↔ x.getLsbD pos = true := by
  have hzero : (0 : BitVec w) = place w pos 0#1 := (place_zero pos).symm
  rw [and_eq_place x m pos 1 hm, hzero, Ne, place_inj (by omega), extractLsb'_one]
  cases x.getLsbD pos <;> decide

theorem and_bit_eq_zero (x m : BitVec w) (pos : ℕ) (hpos : pos < w)
    (hm : m = place w pos 1#1) : x &&& m = 0 ↔ x.getLsbD pos = false := by
  rw [← Bool.not_eq_true, ← and_bit_ne_zero x m pos hpos hm, not_not]

/-- Copying one bit to another place. -/
theorem ite_and_bit (x m m' : BitVec w) (pos pos' : ℕ) (hpos : pos < w)
    (hm : m = place w pos 1#1) (hm' : m' = place w pos' 1#1) :
    (if x &&& m ≠ 0 then m' else 0) = place w pos' (x.extractLsb' pos 1) := by
  rw [if_congr (and_bit_ne_zero x m pos hpos hm) rfl rfl, extractLsb'_one, hm']
  cases x.getLsbD pos
  · exact (place_zero pos').symm
  · rfl

end Iax.BitField
