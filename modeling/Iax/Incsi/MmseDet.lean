import Iax.Incsi.BfToEff
import Iax.Lib.CheckedInt
import Iax.Lib.GramDet
import Mathlib.NumberTheory.Zsqrtd.GaussianInt
import Mathlib.LinearAlgebra.Matrix.Notation

/-!
# The determinants of the effective SNR computation

`snr_32_calc` and `snr_33_calc` of `bf_to_eff.c` compute the determinant of `Aᴴ A + s I` and its
principal minors on integers: the first in 32 bits, the second, from the sums of products on, in 64.
The floating point part, which divides by the minors, is left out.

* `holds_dotRe`, `holds_dotIm`: the entries of `Aᴴ A`, within their bound.
* `snr33_exact`: for three streams nothing overflows, the results are the exact ones, and with `s` a
  minor is positive and at most the determinant divided by `s`.
* `snr32_exact_iff`: for two streams that is so if and only if the product of the two diagonal
  entries fits in 32 bits.
-/

namespace Iax.Incsi

open CInt Matrix

/-! ## The functions -/

/-- The integers that `snr_32_calc` turns into the SNRs. -/
structure Snr32 where
  det : CInt 32
  x11r : CInt 32
  x22r : CInt 32
  deriving DecidableEq

/-- `snr_32_calc` -/
def snr32Calc (ar ac br bc cr cc dr dc er ec fr fc scaleInv : CInt 32) : Snr32 :=
  -- first, compute A^H * A
  let x11r := ar*ar + ac*ac + cr*cr + cc*cc + er*er + ec*ec
  let x12r := ar*br + ac*bc + cr*dr + cc*dc + er*fr + ec*fc
  let x12c := ar*bc - ac*br + cr*dc - cc*dr + er*fc - ec*fr
  let x21r := x12r
  let x21c := -x12c
  let x22r := br*br + bc*bc + dr*dr + dc*dc + fr*fr + fc*fc
  -- for MMSE, add in the inverse scaling factor
  let x11r := x11r + scaleInv
  let x22r := x22r + scaleInv
  let det := x11r * x22r - x21r * x12r + x21c * x12c
  { det := det, x11r := x11r, x22r := x22r }

/-- The integers that `snr_33_calc` turns into the SNRs. -/
structure Snr33 where
  det : CInt 64
  det11 : CInt 64
  det22 : CInt 64
  det33 : CInt 64
  deriving DecidableEq

/-- The second half of `snr_33_calc`, from the matrix with the inverse scaling factor on. -/
def snr33Dets (x11r x22r x33r x12r x12c x13r x13c x23r x23c : CInt 64) : Snr33 :=
  let x21r := x12r
  let x21c := -x12c
  let x31r := x13r
  let x31c := -x13c
  let x32r := x23r
  let x32c := -x23c
  let det11r := x22r*x33r - x23r*x32r + x23c*x32c
  let det12r := x21r*x33r - x23r*x31r + x23c*x31c
  let det12c := x21c*x33r - x23r*x31c - x23c*x31r
  let det13r := x21r*x32r - x21c*x32c - x22r*x31r
  let det13c := x21r*x32c + x21c*x32r - x22r*x31c
  let det22r := x11r*x33r - x13r*x31r + x13c*x31c
  let det33r := x11r*x22r - x12r*x21r + x12c*x21c
  let detr := x11r*det11r + -x12r*det12r + x12c*det12c + x13r*det13r - x13c*det13c
  { det := detr, det11 := det11r, det22 := det22r, det33 := det33r }

/-- `snr_33_calc`: the sums are of 32 bits, and widened when they are assigned. -/
def snr33Calc (ar ac br bc cr cc dr dc er ec fr fc gr gc hr hc ir ic scaleInv : CInt 32) : Snr33 :=
  -- diagonals
  let x11r := (ar*ar + ac*ac + dr*dr + dc*dc + gr*gr + gc*gc).widen 64
  let x22r := (br*br + bc*bc + er*er + ec*ec + hr*hr + hc*hc).widen 64
  let x33r := (cr*cr + cc*cc + fr*fr + fc*fc + ir*ir + ic*ic).widen 64
  -- 12
  let x12r := (ar*br + ac*bc + dr*er + dc*ec + gr*hr + gc*hc).widen 64
  let x12c := (ar*bc - ac*br + dr*ec - dc*er + gr*hc - gc*hr).widen 64
  -- 13
  let x13r := (ar*cr + ac*cc + dr*fr + dc*fc + gr*ir + gc*ic).widen 64
  let x13c := (ar*cc - ac*cr + dr*fc - dc*fr + gr*ic - gc*ir).widen 64
  -- 23
  let x23r := (br*cr + bc*cc + er*fr + ec*fc + hr*ir + hc*ic).widen 64
  let x23c := (br*cc - bc*cr + er*fc - ec*fr + hr*ic - hc*ir).widen 64
  -- now add I * 1/scale
  let x11r := x11r + scaleInv.widen 64
  let x22r := x22r + scaleInv.widen 64
  let x33r := x33r + scaleInv.widen 64
  snr33Dets x11r x22r x33r x12r x12c x13r x13c x23r x23c

/-- `snr_32`, on a row of `compute_32`. -/
def snr32 (row : List ℤ) (scaleInv : ℤ) : Snr32 :=
  let array i := ofInt 32 (row.getD i 0)
  snr32Calc (array 0) (array 1) (array 2) (array 3) (array 4) (array 5) (array 6) (array 7)
    (array 8) (array 9) (array 10) (array 11) (ofInt 32 scaleInv)

/-- `snr_32_in_33`, on a row of `compute_33`: the columns A and B, A and C, B and C. -/
def snr32In33 (row : List ℤ) (scaleInv : ℤ) : List Snr32 :=
  let array i := ofInt 32 (row.getD i 0)
  let s := ofInt 32 scaleInv
  [snr32Calc (array 0) (array 1) (array 2) (array 3) (array 6) (array 7) (array 8) (array 9)
      (array 12) (array 13) (array 14) (array 15) s,
    snr32Calc (array 0) (array 1) (array 4) (array 5) (array 6) (array 7) (array 10) (array 11)
      (array 12) (array 13) (array 16) (array 17) s,
    snr32Calc (array 2) (array 3) (array 4) (array 5) (array 8) (array 9) (array 10) (array 11)
      (array 14) (array 15) (array 16) (array 17) s]

/-- `snr_33`, on a row of `compute_33`. -/
def snr33 (row : List ℤ) (scaleInv : ℤ) : Snr33 :=
  let array i := ofInt 32 (row.getD i 0)
  snr33Calc (array 0) (array 1) (array 2) (array 3) (array 4) (array 5) (array 6) (array 7)
    (array 8) (array 9) (array 10) (array 11) (array 12) (array 13) (array 14) (array 15)
    (array 16) (array 17) (ofInt 32 scaleInv)

/-! ## Matrices -/

/-- The matrix of a row with `cols` columns. -/
def rowMatrix (cols : ℕ) (row : List ℤ) : Matrix (Fin 3) (Fin cols) GaussianInt :=
  of fun i j => ⟨row.getD (2 * (cols * i + j)) 0, row.getD (2 * (cols * i + j) + 1) 0⟩

/-- The row of a matrix. -/
def matrixRow {cols : ℕ} (A : Matrix (Fin 3) (Fin cols) GaussianInt) : List ℤ :=
  (List.ofFn fun i => (List.ofFn fun j => [(A i j).re, (A i j).im]).flatten).flatten

/-- `snr_32` on a matrix. -/
def snr32Of (A : Matrix (Fin 3) (Fin 2) GaussianInt) (s : ℤ) : Snr32 := snr32 (matrixRow A) s

/-- `snr_33` on a matrix. -/
def snr33Of (A : Matrix (Fin 3) (Fin 3) GaussianInt) (s : ℤ) : Snr33 := snr33 (matrixRow A) s

/-- The callers, on their rows. -/
theorem snr32_eq (row : List ℤ) (s : ℤ) : snr32 row s = snr32Of (rowMatrix 2 row) s := rfl

theorem snr33_eq (row : List ℤ) (s : ℤ) : snr33 row s = snr33Of (rowMatrix 3 row) s := rfl

theorem snr32In33_eq (row : List ℤ) (s : ℤ) : snr32In33 row s =
    [snr32Of ((rowMatrix 3 row).submatrix id ![0, 1]) s,
      snr32Of ((rowMatrix 3 row).submatrix id ![0, 2]) s,
      snr32Of ((rowMatrix 3 row).submatrix id ![1, 2]) s] := rfl

/-- The entries are pairs of signed bytes. -/
def ByteEntries {cols : ℕ} (A : Matrix (Fin 3) (Fin cols) GaussianInt) : Prop :=
  ∀ i j, InRange 8 (A i j).re ∧ InRange 8 (A i j).im

/-- The range of `scale_inv` for a packet with an SNR of at least one. -/
def ScaleRange (s : ℤ) : Prop := 0 ≤ s ∧ s < 2 ^ 20

/-- `Aᴴ A + s I`. -/
def mmseGram {cols : ℕ} (A : Matrix (Fin 3) (Fin cols) GaussianInt) (s : ℤ) :
    Matrix (Fin cols) (Fin cols) GaussianInt := Aᴴ * A + (s : GaussianInt) • 1

/-! ## Sums of products -/

section Columns

variable (u v : Fin 3 → GaussianInt)

/-- The real part of an entry of `Aᴴ A`, as it is computed from two columns. -/
def dotRe : CInt 32 :=
  ofInt 32 (u 0).re * ofInt 32 (v 0).re + ofInt 32 (u 0).im * ofInt 32 (v 0).im +
    ofInt 32 (u 1).re * ofInt 32 (v 1).re + ofInt 32 (u 1).im * ofInt 32 (v 1).im +
    ofInt 32 (u 2).re * ofInt 32 (v 2).re + ofInt 32 (u 2).im * ofInt 32 (v 2).im

/-- The imaginary part. -/
def dotIm : CInt 32 :=
  ofInt 32 (u 0).re * ofInt 32 (v 0).im - ofInt 32 (u 0).im * ofInt 32 (v 0).re +
    ofInt 32 (u 1).re * ofInt 32 (v 1).im - ofInt 32 (u 1).im * ofInt 32 (v 1).re +
    ofInt 32 (u 2).re * ofInt 32 (v 2).im - ofInt 32 (u 2).im * ofInt 32 (v 2).re

/-- A column of pairs of signed bytes. -/
def ByteColumn : Prop := ∀ i, InRange 8 (u i).re ∧ InRange 8 (u i).im

variable {u v}

/-- A product of two signed bytes. -/
theorem holds_product {x y : ℤ} (hx : InRange 8 x) (hy : InRange 8 y) :
    Holds (ofInt 32 x * ofInt 32 y) (x * y) 16384 := by
  have hbyte : ∀ z : ℤ, InRange 8 z → Holds (ofInt 32 z) z 128 := by
    intro z hz
    obtain ⟨hlow, hhigh⟩ := hz
    exact holds_ofInt (abs_le.2 ⟨by norm_num at hlow ⊢; exact hlow, by norm_num at hhigh ⊢; omega⟩)
      (by norm_num)
  exact (hbyte x hx).mul (hbyte y hy) (by norm_num)

/-- **The real part** fits. -/
theorem holds_dotRe (hu : ByteColumn u) (hv : ByteColumn v) :
    Holds (dotRe u v) (star u ⬝ᵥ v).re 98304 := by
  have hvalue : (star u ⬝ᵥ v).re = (u 0).re * (v 0).re + (u 0).im * (v 0).im +
      (u 1).re * (v 1).re + (u 1).im * (v 1).im + (u 2).re * (v 2).re + (u 2).im * (v 2).im := by
    simp [dotProduct, Fin.sum_univ_three]
    ring
  rw [hvalue]
  have hre : ∀ i, Holds (ofInt 32 (u i).re * ofInt 32 (v i).re) ((u i).re * (v i).re) 16384 :=
    fun i => holds_product (hu i).1 (hv i).1
  have him : ∀ i, Holds (ofInt 32 (u i).im * ofInt 32 (v i).im) ((u i).im * (v i).im) 16384 :=
    fun i => holds_product (hu i).2 (hv i).2
  exact (((((hre 0).add (him 0) (by norm_num)).add (hre 1) (by norm_num)).add (him 1)
    (by norm_num)).add (hre 2) (by norm_num)).add (him 2) (by norm_num)

/-- **The imaginary part** fits. -/
theorem holds_dotIm (hu : ByteColumn u) (hv : ByteColumn v) :
    Holds (dotIm u v) (star u ⬝ᵥ v).im 98304 := by
  have hvalue : (star u ⬝ᵥ v).im = (u 0).re * (v 0).im - (u 0).im * (v 0).re +
      (u 1).re * (v 1).im - (u 1).im * (v 1).re + (u 2).re * (v 2).im - (u 2).im * (v 2).re := by
    simp [dotProduct, Fin.sum_univ_three]
    ring
  rw [hvalue]
  have hplus : ∀ i, Holds (ofInt 32 (u i).re * ofInt 32 (v i).im) ((u i).re * (v i).im) 16384 :=
    fun i => holds_product (hu i).1 (hv i).2
  have hminus : ∀ i, Holds (ofInt 32 (u i).im * ofInt 32 (v i).re) ((u i).im * (v i).re) 16384 :=
    fun i => holds_product (hu i).2 (hv i).1
  exact (((((hplus 0).sub (hminus 0) (by norm_num)).add (hplus 1) (by norm_num)).sub (hminus 1)
    (by norm_num)).add (hplus 2) (by norm_num)).sub (hminus 2) (by norm_num)

end Columns

section Gram

variable {cols : ℕ} (A : Matrix (Fin 3) (Fin cols) GaussianInt) (s : ℤ)

/-- An entry of `Aᴴ A`. -/
theorem conjTranspose_mul_apply (i j : Fin cols) :
    (Aᴴ * A) i j = star (A.col i) ⬝ᵥ A.col j := rfl

/-- The diagonal of `Aᴴ A` is real. -/
theorem im_star_dotProduct (u : Fin 3 → GaussianInt) : (star u ⬝ᵥ u).im = 0 := by
  simp [dotProduct, Fin.sum_univ_three]
  ring

/-- The entries of `Aᴴ A` on the two sides of the diagonal. -/
theorem star_dotProduct_comm (u v : Fin 3 → GaussianInt) :
    star u ⬝ᵥ v = star (star v ⬝ᵥ u) := by
  rw [star_dotProduct]

/-- Over the complex numbers the matrix is a Gram matrix with a scaled identity. -/
theorem map_mmseGram : (mmseGram A s).map GaussianInt.toComplex =
    (A.map GaussianInt.toComplex)ᴴ * A.map GaussianInt.toComplex + scaledIdentity (s : ℂ) := by
  rw [mmseGram, Matrix.map_add _ (map_add _), Matrix.map_mul,
    conjTranspose_map _ GaussianInt.toComplex_star]
  congr 1
  ext i j
  rcases eq_or_ne i j with rfl | hne
  · simp [scaledIdentity]
  · simp [scaledIdentity, one_apply_ne hne, diagonal_apply_ne _ hne]

/-- An entry of the matrix. -/
theorem mmseGram_apply (i j : Fin cols) :
    mmseGram A s i j = star (A.col i) ⬝ᵥ A.col j + if i = j then (s : GaussianInt) else 0 := by
  rw [mmseGram, Matrix.add_apply, conjTranspose_mul_apply, Matrix.smul_apply, one_apply]
  congr 1
  split_ifs <;> simp

/-- A diagonal entry. -/
theorem mmseGram_diag (i : Fin cols) :
    mmseGram A s i i = (((star (A.col i) ⬝ᵥ A.col i).re + s : ℤ) : GaussianInt) := by
  rw [mmseGram_apply, if_pos rfl]
  refine Zsqrtd.ext ?_ ?_
  · simp
  · simp [im_star_dotProduct]

/-- The entries across the diagonal. -/
theorem mmseGram_star (i j : Fin cols) : star (mmseGram A s i j) = mmseGram A s j i := by
  rw [mmseGram_apply, mmseGram_apply, star_add, ← star_dotProduct_comm]
  rcases eq_or_ne i j with rfl | hne
  · simp
  · simp [hne, hne.symm]

end Gram

/-! ## Three streams -/

section Three

/-- The hermitian matrix of the diagonal and what is above it. -/
def hermitian (x y z : ℤ) (p q r : GaussianInt) : Matrix (Fin 3) (Fin 3) GaussianInt :=
  !![(x : GaussianInt), p, q; star p, (y : GaussianInt), r; star q, star r, (z : GaussianInt)]

/-- The determinant of a hermitian matrix, as `snr_33_calc` expands it. -/
def hermitianDet (x y z : ℤ) (p q r : GaussianInt) : ℤ :=
  x * (y * z - r.re * r.re + r.im * -r.im) +
    -p.re * (p.re * z - r.re * q.re + r.im * -q.im) +
    p.im * (-p.im * z - r.re * -q.im - r.im * q.re) +
    q.re * (p.re * r.re - -p.im * -r.im - y * q.re) -
    q.im * (p.re * -r.im + -p.im * r.re - y * -q.im)

/-- A minor. -/
def hermitianMinor (x y : ℤ) (p : GaussianInt) : ℤ := x * y - p.re * p.re + p.im * -p.im

theorem det_hermitian (x y z : ℤ) (p q r : GaussianInt) :
    (hermitian x y z p q r).det = (hermitianDet x y z p q r : GaussianInt) := by
  refine Zsqrtd.ext ?_ ?_
  · simp [hermitian, hermitianDet, det_fin_three]
    ring
  · simp [hermitian, det_fin_three]
    ring

theorem principalMinor_hermitian (x y z : ℤ) (p q r : GaussianInt) (i : Fin 3) :
    principalMinor (hermitian x y z p q r) i =
      ((![hermitianMinor y z r, hermitianMinor x z q, hermitianMinor x y p] i : ℤ) :
        GaussianInt) := by
  fin_cases i
  all_goals
    refine Zsqrtd.ext ?_ ?_
    · simp [principalMinor, hermitian, hermitianMinor, det_fin_two, Fin.succAbove, Fin.lt_def]
      ring
    · simp [principalMinor, hermitian, det_fin_two, Fin.succAbove, Fin.lt_def]
      ring

/-- `Aᴴ A + s I` is hermitian. -/
theorem mmseGram_eq_hermitian (A : Matrix (Fin 3) (Fin 3) GaussianInt) (s : ℤ) :
    mmseGram A s = hermitian ((star (A.col 0) ⬝ᵥ A.col 0).re + s)
      ((star (A.col 1) ⬝ᵥ A.col 1).re + s) ((star (A.col 2) ⬝ᵥ A.col 2).re + s)
      (star (A.col 0) ⬝ᵥ A.col 1) (star (A.col 0) ⬝ᵥ A.col 2) (star (A.col 1) ⬝ᵥ A.col 2) := by
  have habove : ∀ i j, i ≠ j → mmseGram A s i j = star (A.col i) ⬝ᵥ A.col j := by
    intro i j hne
    rw [mmseGram_apply, if_neg hne, add_zero]
  have hbelow : ∀ i j, i ≠ j → mmseGram A s j i = star (star (A.col i) ⬝ᵥ A.col j) := by
    intro i j hne
    rw [← mmseGram_star, habove i j hne]
  refine Matrix.ext fun i j => ?_
  fin_cases i <;> fin_cases j
  · exact mmseGram_diag A s 0
  · exact habove 0 1 (by decide)
  · exact habove 0 2 (by decide)
  · exact hbelow 0 1 (by decide)
  · exact mmseGram_diag A s 1
  · exact habove 1 2 (by decide)
  · exact hbelow 0 2 (by decide)
  · exact hbelow 1 2 (by decide)
  · exact mmseGram_diag A s 2

/-- **The second half of `snr_33_calc`** is exact, for entries off the diagonal up to 98304 and
diagonal ones that are larger by less than `2 ^ 20`. -/
theorem snr33Dets_eq {x11r x22r x33r x12r x12c x13r x13c x23r x23c : CInt 64} {x y z : ℤ}
    {p q r : GaussianInt} (hx : Holds x11r x 1146880) (hy : Holds x22r y 1146880)
    (hz : Holds x33r z 1146880) (hpr : Holds x12r p.re 98304) (hpc : Holds x12c p.im 98304)
    (hqr : Holds x13r q.re 98304) (hqc : Holds x13c q.im 98304) (hrr : Holds x23r r.re 98304)
    (hrc : Holds x23c r.im 98304) :
    snr33Dets x11r x22r x33r x12r x12c x13r x13c x23r x23c =
      { det := ofSome (hermitianDet x y z p q r)
        det11 := ofSome (hermitianMinor y z r)
        det22 := ofSome (hermitianMinor x z q)
        det33 := ofSome (hermitianMinor x y p) } := by
  have hpc' := hpc.neg (by norm_num)
  have hqc' := hqc.neg (by norm_num)
  have hrc' := hrc.neg (by norm_num)
  have hdet11 := ((hy.mul hz (by norm_num)).sub (hrr.mul hrr (by norm_num)) (by norm_num)).add
    (hrc.mul hrc' (by norm_num)) (by norm_num)
  have hdet12r := ((hpr.mul hz (by norm_num)).sub (hrr.mul hqr (by norm_num)) (by norm_num)).add
    (hrc.mul hqc' (by norm_num)) (by norm_num)
  have hdet12c := ((hpc'.mul hz (by norm_num)).sub (hrr.mul hqc' (by norm_num)) (by norm_num)).sub
    (hrc.mul hqr (by norm_num)) (by norm_num)
  have hdet13r := ((hpr.mul hrr (by norm_num)).sub (hpc'.mul hrc' (by norm_num)) (by norm_num)).sub
    (hy.mul hqr (by norm_num)) (by norm_num)
  have hdet13c := ((hpr.mul hrc' (by norm_num)).add (hpc'.mul hrr (by norm_num)) (by norm_num)).sub
    (hy.mul hqc' (by norm_num)) (by norm_num)
  have hdet22 := ((hx.mul hz (by norm_num)).sub (hqr.mul hqr (by norm_num)) (by norm_num)).add
    (hqc.mul hqc' (by norm_num)) (by norm_num)
  have hdet33 := ((hx.mul hy (by norm_num)).sub (hpr.mul hpr (by norm_num)) (by norm_num)).add
    (hpc.mul hpc' (by norm_num)) (by norm_num)
  have hdet := ((((hx.mul hdet11 (by norm_num)).add
    ((hpr.neg (by norm_num)).mul hdet12r (by norm_num)) (by norm_num)).add
    (hpc.mul hdet12c (by norm_num)) (by norm_num)).add
    (hqr.mul hdet13r (by norm_num)) (by norm_num)).sub
    (hqc.mul hdet13c (by norm_num)) (by norm_num)
  rw [hermitianDet, hermitianMinor, hermitianMinor, hermitianMinor, ← hdet.eq, ← hdet11.eq,
    ← hdet22.eq, ← hdet33.eq]
  rfl

/-- `scale_inv` -/
theorem holds_scale {s : ℤ} (hs : ScaleRange s) : Holds (ofInt 32 s) s 1048576 := by
  obtain ⟨hpos, hlt⟩ := hs
  refine holds_ofInt ?_ (by norm_num)
  rw [abs_of_nonneg hpos]
  norm_num at hlt ⊢
  omega

/-- A diagonal entry with `scale_inv`. -/
theorem holds_diag {u : Fin 3 → GaussianInt} (hu : ByteColumn u) {s : ℤ} (hs : ScaleRange s) :
    Holds ((dotRe u u).widen 64 + (ofInt 32 s).widen 64) ((star u ⬝ᵥ u).re + s) 1146880 :=
  ((holds_dotRe hu hu).widen (by norm_num)).add ((holds_scale hs).widen (by norm_num))
    (by norm_num)

/-- **What `snr_33_calc` computes.** -/
theorem snr33Of_eq {A : Matrix (Fin 3) (Fin 3) GaussianInt} (hA : ByteEntries A) {s : ℤ}
    (hs : ScaleRange s) : ∃ (det : ℤ) (minor : Fin 3 → ℤ),
      snr33Of A s = ⟨ofSome det, ofSome (minor 0), ofSome (minor 1), ofSome (minor 2)⟩ ∧
      (mmseGram A s).det = (det : GaussianInt) ∧
      ∀ i, principalMinor (mmseGram A s) i = (minor i : GaussianInt) := by
  have hcol : ∀ j, ByteColumn (A.col j) := fun j i => hA i j
  have hre : ∀ i j, Holds ((dotRe (A.col i) (A.col j)).widen 64)
      (star (A.col i) ⬝ᵥ A.col j).re 98304 :=
    fun i j => (holds_dotRe (hcol i) (hcol j)).widen (by norm_num)
  have him : ∀ i j, Holds ((dotIm (A.col i) (A.col j)).widen 64)
      (star (A.col i) ⬝ᵥ A.col j).im 98304 :=
    fun i j => (holds_dotIm (hcol i) (hcol j)).widen (by norm_num)
  have hdiag := fun j => holds_diag (hcol j) hs
  have hcomputed := snr33Dets_eq (hdiag 0) (hdiag 1) (hdiag 2) (hre 0 1) (him 0 1) (hre 0 2)
    (him 0 2) (hre 1 2) (him 1 2)
  rw [mmseGram_eq_hermitian]
  exact ⟨_, ![_, _, _], hcomputed, det_hermitian .., fun i => principalMinor_hermitian ..⟩

/-! ## Positive minors -/

/-- A ring homomorphism takes a minor to the minor. -/
theorem map_principalMinor {R S : Type*} [CommRing R] [CommRing S] (f : R →+* S) {n : ℕ}
    (M : Matrix (Fin (n + 1)) (Fin (n + 1)) R) (i : Fin (n + 1)) :
    f (principalMinor M i) = principalMinor (M.map f) i := by
  rw [principalMinor, RingHom.map_det]
  rfl

open ComplexOrder in
/-- **The minors** are positive with a positive `s`, and `s` times each of them is at most the
determinant. -/
theorem minor_bounds {cols : ℕ} (A : Matrix (Fin 3) (Fin (cols + 1)) GaussianInt) {s det : ℤ}
    (hs : 0 < s) (hdet : (mmseGram A s).det = (det : GaussianInt)) {i : Fin (cols + 1)} {minor : ℤ}
    (hminor : principalMinor (mmseGram A s) i = (minor : GaussianInt)) :
    0 < minor ∧ s * minor ≤ det := by
  have hG := posSemidef_conjTranspose_mul_self (A.map GaussianInt.toComplex)
  have hscale : (0 : ℂ) < (s : ℂ) := Int.cast_pos.2 hs
  have hdetC := congrArg GaussianInt.toComplex hdet
  have hminorC := congrArg GaussianInt.toComplex hminor
  rw [RingHom.map_det, RingHom.mapMatrix_apply, map_mmseGram, map_intCast] at hdetC
  rw [map_principalMinor, map_mmseGram, map_intCast] at hminorC
  constructor
  · have hpos := minor_pos hG hscale i
    rw [hminorC] at hpos
    exact Int.cast_pos.1 hpos
  · have hle := smul_minor_le_det hG hscale.le i
    rw [hminorC, hdetC, ← Int.cast_mul] at hle
    exact Int.cast_le.1 hle

/-- The determinant arithmetic of a matrix is exact: nothing overflows, the determinant is that of
`Aᴴ A + s I`, which is an integer, the minors are its principal minors, and with a positive `s` they
are positive and `s` times each of them is at most the determinant. -/
structure Exact33 (A : Matrix (Fin 3) (Fin 3) GaussianInt) (s det : ℤ) (minor : Fin 3 → ℤ) :
    Prop where
  computed : snr33Of A s =
    ⟨ofSome det, ofSome (minor 0), ofSome (minor 1), ofSome (minor 2)⟩
  det_eq : (mmseGram A s).det = (det : GaussianInt)
  minor_eq : ∀ i, principalMinor (mmseGram A s) i = (minor i : GaussianInt)
  minor_pos : 0 < s → ∀ i, 0 < minor i
  le_det : 0 < s → ∀ i, s * minor i ≤ det

/-- **Three streams.** The determinant arithmetic is exact for every matrix of pairs of signed
bytes. -/
theorem snr33_exact {A : Matrix (Fin 3) (Fin 3) GaussianInt} (hA : ByteEntries A) {s : ℤ}
    (hs : ScaleRange s) : ∃ det minor, Exact33 A s det minor := by
  obtain ⟨det, minor, hcomputed, hdet, hminor⟩ := snr33Of_eq hA hs
  refine ⟨det, minor, hcomputed, hdet, hminor, fun hpos i => ?_, fun hpos i => ?_⟩
  · exact (minor_bounds A hpos hdet (hminor i)).1
  · exact (minor_bounds A hpos hdet (hminor i)).2

/-- A matrix of entries at the ends of the range. -/
def extremes : Matrix (Fin 3) (Fin 3) GaussianInt := of fun i j => ⟨-128, if i = j then 127 else 0⟩

theorem snr33_exact_extremes : ∃ det minor, Exact33 extremes 1 det minor := by
  refine snr33_exact ?_ ?_
  · unfold ByteEntries
    decide
  · unfold ScaleRange
    decide

end Three

/-! ## Two streams -/

section Two

variable (A : Matrix (Fin 3) (Fin 2) GaussianInt) (s : ℤ)

/-- The squared norm of a column. -/
def colNorm (j : Fin 2) : ℤ := ∑ i, ((A i j).re ^ 2 + (A i j).im ^ 2)

theorem colNorm_nonneg (j : Fin 2) : 0 ≤ colNorm A j := by
  unfold colNorm
  positivity

theorem re_star_dotProduct (j : Fin 2) : (star (A.col j) ⬝ᵥ A.col j).re = colNorm A j := by
  simp [dotProduct, colNorm, Fin.sum_univ_three]
  ring

/-- The determinant for two streams. -/
theorem det_mmseGram_two : (mmseGram A s).det =
    (hermitianMinor (colNorm A 0 + s) (colNorm A 1 + s) (star (A.col 0) ⬝ᵥ A.col 1) :
      GaussianInt) := by
  have habove : mmseGram A s 0 1 = star (A.col 0) ⬝ᵥ A.col 1 := by
    rw [mmseGram_apply, if_neg (by decide), add_zero]
  rw [det_fin_two, mmseGram_diag, mmseGram_diag, re_star_dotProduct, re_star_dotProduct,
    ← mmseGram_star A s 0 1, habove]
  refine Zsqrtd.ext ?_ ?_
  · simp [hermitianMinor]
    ring
  · simp
    ring

open ComplexOrder in
/-- The entry off the diagonal is bounded by the diagonal. -/
theorem dotProduct_le : (star (A.col 0) ⬝ᵥ A.col 1).re * (star (A.col 0) ⬝ᵥ A.col 1).re +
    (star (A.col 0) ⬝ᵥ A.col 1).im * (star (A.col 0) ⬝ᵥ A.col 1).im ≤
      colNorm A 0 * colNorm A 1 := by
  have hG := posSemidef_conjTranspose_mul_self (A.map GaussianInt.toComplex)
  have hdet := congrArg GaussianInt.toComplex (det_mmseGram_two A 0)
  rw [RingHom.map_det, RingHom.mapMatrix_apply, map_mmseGram, map_intCast, Int.cast_zero,
    scaledIdentity_zero, add_zero, add_zero, add_zero] at hdet
  have hnonneg := hG.det_nonneg
  rw [hdet] at hnonneg
  have hminor := Int.cast_nonneg_iff.1 hnonneg
  rw [hermitianMinor] at hminor
  linarith

/-- The determinant arithmetic of a matrix is exact: nothing overflows, the determinant and the
diagonal terms are those of `Aᴴ A + s I`. -/
structure Exact32 (det x11 x22 : ℤ) : Prop where
  computed : snr32Of A s = ⟨ofSome det, ofSome x11, ofSome x22⟩
  det_eq : (mmseGram A s).det = (det : GaussianInt)
  diag₁ : mmseGram A s 0 0 = (x11 : GaussianInt)
  diag₂ : mmseGram A s 1 1 = (x22 : GaussianInt)

variable {A s}

/-- A diagonal entry with `scale_inv`, in 32 bits. -/
theorem holds_diag₃₂ (hA : ByteEntries A) (hs : ScaleRange s) (j : Fin 2) :
    Holds (dotRe (A.col j) (A.col j) + ofInt 32 s) (colNorm A j + s) 1146880 := by
  have hcol : ByteColumn (A.col j) := fun i => hA i j
  rw [← re_star_dotProduct]
  exact (holds_dotRe hcol hcol).add (holds_scale hs) (by norm_num)

/-- A product that does not fit overflows, and so do the differences and sums made of it. -/
theorem snr32Of_det_eq_overflow (hA : ByteEntries A) (hs : ScaleRange s)
    (hge : ¬ (colNorm A 0 + s) * (colNorm A 1 + s) < 2 ^ 31) : (snr32Of A s).det = overflow := by
  have hover : ¬ InRange 32 ((colNorm A 0 + s) * (colNorm A 1 + s)) := fun hin => hge hin.2
  have hprod := mul_eq_overflow (holds_diag₃₂ hA hs 0).eq (holds_diag₃₂ hA hs 1).eq hover
  exact overflow_add (overflow_sub hprod (dotRe (A.col 0) (A.col 1) * dotRe (A.col 0) (A.col 1)))
    (-dotIm (A.col 0) (A.col 1) * dotIm (A.col 0) (A.col 1))

/-- A product that fits: so does everything that is subtracted from it. -/
theorem exact32_of_lt (hA : ByteEntries A) (hs : ScaleRange s)
    (hlt : (colNorm A 0 + s) * (colNorm A 1 + s) < 2 ^ 31) :
    Exact32 A s (hermitianMinor (colNorm A 0 + s) (colNorm A 1 + s) (star (A.col 0) ⬝ᵥ A.col 1))
      (colNorm A 0 + s) (colNorm A 1 + s) := by
  have hx := holds_diag₃₂ hA hs 0
  have hy := holds_diag₃₂ hA hs 1
  have hpr : Holds (dotRe (A.col 0) (A.col 1)) _ 98304 :=
    holds_dotRe (fun i => hA i 0) (fun i => hA i 1)
  have hpc : Holds (dotIm (A.col 0) (A.col 1)) _ 98304 :=
    holds_dotIm (fun i => hA i 0) (fun i => hA i 1)
  have hle := dotProduct_le A
  have hx₀ := colNorm_nonneg A 0
  have hy₀ := colNorm_nonneg A 1
  have hs₀ := hs.1
  set p := star (A.col 0) ⬝ᵥ A.col 1
  set x := colNorm A 0
  set y := colNorm A 1
  have hmono : x * y ≤ (x + s) * (y + s) :=
    mul_le_mul (by linarith) (by linarith) hy₀ (by linarith)
  have hre := mul_self_nonneg p.re
  have him := mul_self_nonneg p.im
  -- every part of the sum is between zero and the product
  have hpos : ∀ v : ℤ, 0 ≤ v → v ≤ (x + s) * (y + s) → InRange 32 v :=
    fun v hlow hhigh => ⟨by norm_num; linarith, lt_of_le_of_lt hhigh hlt⟩
  have hneg : InRange 32 (p.im * -p.im) := ⟨by norm_num; linarith, by norm_num; linarith⟩
  have hprod := mul_eq_some hx.eq hy.eq (hpos _ (by positivity) le_rfl)
  have hsq := mul_eq_some hpr.eq hpr.eq (hpos _ hre (by linarith))
  have hdiff := sub_eq_some hprod hsq (hpos _ (by linarith) (by linarith))
  have hneg' := mul_eq_some (hpc.neg (by norm_num)).eq hpc.eq (by rwa [mul_comm])
  have hdet := add_eq_some hdiff hneg' (hpos _ (by linarith) (by linarith))
  refine ⟨?_, det_mmseGram_two A s, ?_, ?_⟩
  · rw [hermitianMinor, mul_comm p.im, ← hdet, ← hx.eq, ← hy.eq]
    rfl
  · rw [mmseGram_diag, re_star_dotProduct]
  · rw [mmseGram_diag, re_star_dotProduct]

/-- **Two streams.** The determinant arithmetic is exact if and only if the product of the two
diagonal entries is a signed integer of 32 bits. -/
theorem snr32_exact_iff (hA : ByteEntries A) (hs : ScaleRange s) :
    (∃ det x11 x22, Exact32 A s det x11 x22) ↔
      (colNorm A 0 + s) * (colNorm A 1 + s) < 2 ^ 31 := by
  constructor
  · rintro ⟨det, x11, x22, hexact⟩
    by_contra hge
    have hdet := congrArg Snr32.det hexact.computed
    exact ofSome_ne_overflow det (hdet.symm.trans (snr32Of_det_eq_overflow hA hs hge))
  · intro hlt
    exact ⟨_, _, _, exact32_of_lt hA hs hlt⟩

/-- A matrix of two streams that do not interfere, with entries that are small. -/
def quiet : Matrix (Fin 3) (Fin 2) GaussianInt := !![⟨3, 4⟩, ⟨3, 4⟩; ⟨3, 4⟩, ⟨-3, -4⟩; 0, 0]

/-- The same with entries at the end of the range. -/
def loud : Matrix (Fin 3) (Fin 2) GaussianInt :=
  !![⟨127, 127⟩, ⟨127, 127⟩; ⟨127, 127⟩, ⟨-127, -127⟩; 0, 0]

theorem snr32_exact_iff_quiet : ∃ det x11 x22, Exact32 quiet 7 det x11 x22 := by
  refine (snr32_exact_iff ?_ ?_).2 ?_
  · unfold ByteEntries
    decide
  · unfold ScaleRange
    decide
  · unfold colNorm
    decide

/-- **A determinant that does not fit**: the product overflows, and the determinant itself has more
than 32 bits. -/
theorem not_snr32_exact : ByteEntries loud ∧ ScaleRange 0 ∧ (snr32Of loud 0).det = overflow ∧
    (mmseGram loud 0).det = 4162314256 ∧ ¬ ∃ det x11 x22, Exact32 loud 0 det x11 x22 := by
  have hnone : (snr32Of loud 0).det = overflow := by decide
  refine ⟨?_, ?_, hnone, ?_, ?_⟩
  · unfold ByteEntries
    decide
  · unfold ScaleRange
    decide
  · rw [det_mmseGram_two]
    refine congrArg (Int.cast : ℤ → GaussianInt) ?_
    simp [hermitianMinor, colNorm, dotProduct, Fin.sum_univ_three, loud]
  · rintro ⟨det, x11, x22, hexact⟩
    have hdet := congrArg Snr32.det hexact.computed
    exact ofSome_ne_overflow det (hdet.symm.trans hnone)

end Two

end Iax.Incsi
