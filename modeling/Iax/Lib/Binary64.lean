import Mathlib.Algebra.Order.Field.Rat
import Mathlib.Algebra.Order.Ring.Abs
import Mathlib.Data.Rat.Cast.Order
import Mathlib.Order.Monotone.Basic
import Mathlib.Tactic.Linarith
import Mathlib.Tactic.NormNum
import Mathlib.Tactic.Ring

/-!
# Doubles as bit patterns

The value of a pattern of 64 bits, and the order of doubles: it is the order of the patterns as
numbers with a sign.

* `toRat`: the value of a finite double, `toRat_lt_iff`: the patterns in order.
* `gt`: the comparison `a > b`, `gt_iff`: on finite doubles it compares the values.
* `toRat_two_pow`: the powers of two.
-/

namespace Iax.Binary64

/-- A pattern without its sign. -/
def magnitude (u : BitVec 64) : ℕ := u.toNat % 2 ^ 63

/-- The exponent, with its bias of 1023. -/
def exponent (u : BitVec 64) : ℕ := magnitude u / 2 ^ 52

/-- Neither infinite nor a NaN. -/
def IsFinite (u : BitVec 64) : Prop := exponent u < 2047

def IsNan (u : BitVec 64) : Prop := 2047 * 2 ^ 52 < magnitude u

instance (u : BitVec 64) : Decidable (IsFinite u) := inferInstanceAs (Decidable (_ < _))

instance (u : BitVec 64) : Decidable (IsNan u) := inferInstanceAs (Decidable (_ < _))

/-- The value of a magnitude, as a multiple of `2 ^ -1074`. -/
def scaled (n : ℕ) : ℕ :=
  if n / 2 ^ 52 = 0 then n % 2 ^ 52 else (2 ^ 52 + n % 2 ^ 52) * 2 ^ (n / 2 ^ 52 - 1)

/-- The value of a finite double. -/
def toRat (u : BitVec 64) : ℚ :=
  (if u.msb then -(scaled (magnitude u) : ℚ) else scaled (magnitude u)) / 2 ^ 1074

/-- The place of a pattern in the order of doubles. -/
def key (u : BitVec 64) : ℤ := if u.msb then -(magnitude u : ℤ) else magnitude u

/-- `a > b`. -/
def gt (a b : BitVec 64) : Bool := decide (¬ IsNan a ∧ ¬ IsNan b ∧ key b < key a)

/-! ## The order -/

theorem scaled_lt_succ (n : ℕ) : scaled n < scaled (n + 1) := by
  unfold scaled
  rcases Nat.lt_or_ge (n % 2 ^ 52 + 1) (2 ^ 52) with hin | hcarry
  · -- the exponent stays
    have hdiv : (n + 1) / 2 ^ 52 = n / 2 ^ 52 := by omega
    have hmod : (n + 1) % 2 ^ 52 = n % 2 ^ 52 + 1 := by omega
    rw [hdiv, hmod]
    split_ifs
    · exact Nat.lt_succ_self _
    · exact Nat.mul_lt_mul_of_pos_right (Nat.lt_succ_self _) (Nat.two_pow_pos _)
  · -- the next pattern has the next exponent, and no fraction
    have hdiv : (n + 1) / 2 ^ 52 = n / 2 ^ 52 + 1 := by omega
    have hmod : (n + 1) % 2 ^ 52 = 0 := by omega
    have hlast : n % 2 ^ 52 = 2 ^ 52 - 1 := by omega
    rw [hdiv, hmod, if_neg (Nat.succ_ne_zero _), Nat.add_sub_cancel, hlast, Nat.add_zero]
    split_ifs with hzero
    · rw [hzero, Nat.pow_zero]
      omega
    · obtain ⟨e, he⟩ := Nat.exists_eq_succ_of_ne_zero hzero
      have hpow := Nat.two_pow_pos e
      rw [he, Nat.succ_sub_one, Nat.pow_succ]
      omega

theorem strictMono_scaled : StrictMono scaled := strictMono_nat_of_lt_succ scaled_lt_succ

theorem scaled_pos_iff {n : ℕ} : 0 < scaled n ↔ 0 < n := by
  have hzero : scaled 0 = 0 := rfl
  rw [← hzero, strictMono_scaled.lt_iff_lt, hzero]

/-- **The order of doubles** is that of their patterns. -/
theorem toRat_lt_iff (a b : BitVec 64) : toRat a < toRat b ↔ key a < key b := by
  have hmono : ∀ m n, (scaled m : ℚ) < scaled n ↔ m < n := fun m n => by
    rw [Nat.cast_lt, strictMono_scaled.lt_iff_lt]
  unfold toRat key
  rw [div_lt_div_iff_of_pos_right (by positivity)]
  cases a.msb
  · cases b.msb
    · simp [hmono]
    · have hrat : ¬ (scaled (magnitude a) : ℚ) < -scaled (magnitude b) := by
        have ha := Nat.cast_nonneg (α := ℚ) (scaled (magnitude a))
        have hb := Nat.cast_nonneg (α := ℚ) (scaled (magnitude b))
        linarith
      exact iff_of_false hrat (by simp only [if_true, Bool.false_eq_true, if_false]; omega)
  · cases b.msb
    · have hsum : 0 < scaled (magnitude a) + scaled (magnitude b) ↔
          0 < magnitude a + magnitude b := by
        rw [Nat.add_pos_iff_pos_or_pos, Nat.add_pos_iff_pos_or_pos, scaled_pos_iff,
          scaled_pos_iff]
      simp only [if_true, Bool.false_eq_true, if_false]
      rw [neg_lt_iff_pos_add', neg_lt_iff_pos_add']
      exact_mod_cast hsum
    · simp [hmono]

theorem toRat_le_iff (a b : BitVec 64) : toRat a ≤ toRat b ↔ key a ≤ key b := by
  rw [← not_lt, ← not_lt, toRat_lt_iff]

/-- On finite doubles the comparison is that of the values. -/
theorem gt_iff {a b : BitVec 64} (ha : IsFinite a) (hb : IsFinite b) :
    gt a b = true ↔ toRat b < toRat a := by
  have hnan : ∀ {u : BitVec 64}, IsFinite u → ¬ IsNan u := by
    intro u hu
    unfold IsFinite exponent at hu
    unfold IsNan
    omega
  rw [gt, decide_eq_true_iff, toRat_lt_iff, and_iff_right (hnan ha), and_iff_right (hnan hb)]

/-! ## Doubles without a sign -/

section Positive

variable {u v : BitVec 64}

theorem toNat_lt_of_msb (h : u.msb = false) : u.toNat < 2 ^ 63 := by
  rw [BitVec.msb_eq_decide, decide_eq_false_iff_not] at h
  exact Nat.lt_of_not_le h

theorem magnitude_of_msb (h : u.msb = false) : magnitude u = u.toNat :=
  Nat.mod_eq_of_lt (toNat_lt_of_msb h)

/-- They are in the order of their patterns. -/
theorem toRat_le_iff_of_msb (hu : u.msb = false) (hv : v.msb = false) :
    toRat u ≤ toRat v ↔ u.toNat ≤ v.toNat := by
  rw [toRat_le_iff, key, key, hu, hv, magnitude_of_msb hu, magnitude_of_msb hv]
  exact Nat.cast_le

theorem msb_of_toRat_pos (h : 0 < toRat u) : u.msb = false := by
  cases hu : u.msb with
  | false => rfl
  | true =>
    have hnonneg : (0 : ℚ) ≤ scaled (magnitude u) / 2 ^ 1074 :=
      div_nonneg (Nat.cast_nonneg _) (pow_nonneg (by norm_num) _)
    rw [toRat, hu, if_pos rfl, neg_div, neg_pos] at h
    exact absurd h (not_lt.2 hnonneg)

/-- A power of two. -/
theorem toRat_two_pow {e : ℕ} (hpos : 0 < e) (he : e < 2048) :
    toRat (BitVec.ofNat 64 (e * 2 ^ 52)) = 2 ^ ((e : ℤ) - 1023) := by
  have htoNat : (BitVec.ofNat 64 (e * 2 ^ 52)).toNat = e * 2 ^ 52 := by
    rw [BitVec.toNat_ofNat]
    omega
  have hmsb : (BitVec.ofNat 64 (e * 2 ^ 52)).msb = false := by
    rw [BitVec.msb_eq_decide, htoNat]
    simp only [decide_eq_false_iff_not]
    omega
  have hscaled : scaled (e * 2 ^ 52) = 2 ^ (52 + (e - 1)) := by
    rw [scaled, Nat.mul_div_cancel _ (by decide), Nat.mul_mod_left, if_neg (by omega),
      Nat.add_zero, pow_add]
  have hexp : ((52 + (e - 1) : ℕ) : ℤ) - (1074 : ℕ) = (e : ℤ) - 1023 := by omega
  rw [toRat, hmsb, if_neg Bool.false_ne_true, magnitude_of_msb hmsb, htoNat, hscaled, ← hexp,
    zpow_sub₀ two_ne_zero, zpow_natCast, zpow_natCast, Nat.cast_pow, Nat.cast_ofNat]

end Positive

end Iax.Binary64
