import Mathlib.Analysis.Matrix.PosDef

/-!
# Determinants of a Gram matrix with a scaled identity

For a positive semidefinite matrix `G` and `0 ≤ s`, what the determinant of `G + s I` and its
principal minors have to do with each other.

* `det_add_scaledIdentity`: the determinant is `s` times a principal minor and the determinant of the
  matrix that has no `s` at that place.
* `smul_minor_le_det`: so it is at least `s` times each minor.
* `minor_pos`: for `0 < s` the minors are positive.
-/

namespace Iax

open Matrix ComplexOrder

variable {𝕜 : Type*} [RCLike 𝕜] {n : ℕ}

/-- The principal minor without row and column `i`. -/
def principalMinor {R : Type*} [CommRing R] (M : Matrix (Fin (n + 1)) (Fin (n + 1)) R)
    (i : Fin (n + 1)) : R := (M.submatrix i.succAbove i.succAbove).det

/-- The scaled identity. -/
def scaledIdentity (s : 𝕜) : Matrix (Fin n) (Fin n) 𝕜 := diagonal fun _ => s

@[simp] theorem scaledIdentity_zero : (scaledIdentity 0 : Matrix (Fin n) (Fin n) 𝕜) = 0 :=
  diagonal_zero

/-- The scaled identity without the entry of row `i`. -/
def diagonalExcept (s : 𝕜) (i : Fin (n + 1)) : Matrix (Fin (n + 1)) (Fin (n + 1)) 𝕜 :=
  diagonal fun j => if j = i then 0 else s

theorem posSemidef_diagonalExcept {s : 𝕜} (hs : 0 ≤ s) (i : Fin (n + 1)) :
    (diagonalExcept s i).PosSemidef := by
  refine PosSemidef.diagonal fun j => ?_
  dsimp only
  split_ifs
  · exact le_rfl
  · exact hs

/-- The matrix with the unit row in place of row `i`. -/
theorem det_updateRow_single (M : Matrix (Fin (n + 1)) (Fin (n + 1)) 𝕜) (i : Fin (n + 1)) :
    (M.updateRow i (Pi.single i 1)).det = principalMinor M i := by
  rw [← adjugate_apply, adjugate_fin_succ_eq_det_submatrix, ← two_mul, pow_mul, neg_one_sq,
    one_pow, one_mul, principalMinor]

/-- **The determinant, along row `i`.** -/
theorem det_add_scaledIdentity (G : Matrix (Fin (n + 1)) (Fin (n + 1)) 𝕜) (s : 𝕜) (i : Fin (n + 1)) :
    (G + scaledIdentity s).det =
      (G + diagonalExcept s i).det + s * principalMinor (G + scaledIdentity s) i := by
  have hrow : (G + scaledIdentity s : Matrix (Fin (n + 1)) (Fin (n + 1)) 𝕜) i =
      (G + diagonalExcept s i) i + s • Pi.single i 1 := by
    ext j
    rcases eq_or_ne j i with rfl | hne
    · simp [scaledIdentity, diagonalExcept]
    · simp [scaledIdentity, diagonalExcept, hne, diagonal_apply_ne _ hne.symm]
  have hrest : (G + scaledIdentity s).updateRow i ((G + diagonalExcept s i) i) =
      G + diagonalExcept s i := by
    ext j k
    rcases eq_or_ne j i with rfl | hne
    · simp
    · rw [updateRow_ne hne, Matrix.add_apply, Matrix.add_apply, scaledIdentity,
        diagonalExcept]
      rcases eq_or_ne j k with rfl | hjk
      · simp [hne]
      · simp [diagonal_apply_ne _ hjk]
  calc (G + scaledIdentity s).det
      = ((G + scaledIdentity s).updateRow i
          ((G + diagonalExcept s i) i + s • Pi.single i 1)).det := by
        rw [← hrow, updateRow_eq_self]
    _ = (G + diagonalExcept s i).det + s * principalMinor (G + scaledIdentity s) i := by
        rw [det_updateRow_add, det_updateRow_smul, hrest, det_updateRow_single]

/-- **The determinant is at least `s` times each principal minor.** -/
theorem smul_minor_le_det {G : Matrix (Fin (n + 1)) (Fin (n + 1)) 𝕜} (hG : G.PosSemidef) {s : 𝕜}
    (hs : 0 ≤ s) (i : Fin (n + 1)) :
    s * principalMinor (G + scaledIdentity s) i ≤ (G + scaledIdentity s).det := by
  rw [det_add_scaledIdentity G s i]
  exact le_add_of_nonneg_left (hG.add (posSemidef_diagonalExcept hs i)).det_nonneg

/-- **The principal minors are positive.** -/
theorem minor_pos {G : Matrix (Fin (n + 1)) (Fin (n + 1)) 𝕜} (hG : G.PosSemidef) {s : 𝕜}
    (hs : 0 < s) (i : Fin (n + 1)) : 0 < principalMinor (G + scaledIdentity s) i := by
  have hdef : (G + scaledIdentity s).PosDef := PosDef.posSemidef_add hG (PosDef.diagonal fun _ => hs)
  exact (hdef.submatrix i.succAbove_right_injective).det_pos

end Iax
