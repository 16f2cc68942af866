import Iax.Incsi.ReadBfBuf
import Mathlib.Algebra.BigOperators.Group.List.Basic
import Mathlib.Data.List.Permutation

/-!
# The receive antennas behind the permutation

`read_bf_file` and `read_bf_buf` take the antenna selection of a record for a permutation when the
sum of its three entries is the one of `1 .. Nrx`, and move the receive rows of the CSI by it.

* `rxRows_permuteCsi`: the rows of the permuted array, by the row that each one is taken from.
* `keepsAntennas_bfOf_iff`: the selections and the contents for which no row is lost.
* `permStep_keeps_iff`: so for the two readers, of which `read_bf_buf` fails where it should warn.
-/

namespace Iax.Incsi

open Bytes Matlab

/-! ## Rows -/

/-- Row `c` of an array with `cols` receive rows: the entries of all subcarriers. -/
def rxRow (cols ntx : ℕ) (csi : List (ℤ × ℤ)) (c : ℕ) : List (ℤ × ℤ) :=
  (List.range 30).flatMap fun i =>
    (List.range ntx).map fun tx => csi.getD (mxIndex cols ntx tx c i) (0, 0)

/-- The receive rows. -/
def rxRows (cols ntx : ℕ) (csi : List (ℤ × ℤ)) : List (List (ℤ × ℤ)) :=
  (List.range cols).map (rxRow cols ntx csi)

/-- `perm`, by the byte `antenna_sel`. -/
def antennaPerm (antennaSel : ℕ) : List ℕ :=
  [(antennaSel &&& 0x3) + 1, ((antennaSel >>> 2) &&& 0x3) + 1, ((antennaSel >>> 4) &&& 0x3) + 1]

/-- A row of the array that `read_bfee` has filled. -/
def Bfee.row (b : Bfee) (c : ℕ) : List (ℤ × ℤ) := rxRow b.nrx b.ntx b.csi c

/-- No antenna is lost: the array has `Nrx` rows, which are those of the record, each of them once,
and when the selection is a permutation they are where it says. -/
structure KeepsAntennas (b : Bfee) (bf : Bf) : Prop where
  cols : bf.cols = b.nrx
  rows : (rxRows bf.cols b.ntx bf.bfee.csi).Perm (rxRows b.nrx b.ntx b.csi)
  placed : (b.perm.take b.nrx).Perm (List.range' 1 b.nrx) →
    ∀ i < b.nrx, rxRow bf.cols b.ntx bf.bfee.csi (b.perm.getD i 0 - 1) = b.row i

/-- The end of the loop body has a struct in which no antenna is lost. -/
def StepKeeps (filename : Except BfErr Unit) (brokenPerm : Bool) (b : Bfee) : Prop :=
  ∃ bf brokenPerm', permStep filename brokenPerm b = .ok (bf, brokenPerm') ∧ KeepsAntennas b bf

/-- The condition on a record. With two antennas, the selections 1, 1, 1, which passes the test, and
2, 1, which never does, want two equal rows; with three, 2, 2, 2 wants two equal rows and a selection
of the first antenna twice and the fourth is lost anyway. -/
structure SelectionFits (b : Bfee) : Prop where
  two : b.nrx = 2 → b.perm = [1, 1, 1] ∨ b.perm.take 2 = [2, 1] → b.row 0 = b.row 1
  three : b.nrx = 3 → b.perm = [2, 2, 2] → b.row 1 = b.row 2
  fourth : b.nrx = 3 → b.perm ∉ [[1, 1, 4], [1, 4, 1], [4, 1, 1]]

/-! ## The permuted array -/

/-- The number of columns after the assignment. -/
def permCols (b : Bfee) : ℕ := (b.perm.take b.nrx).foldl max b.nrx

@[simp] theorem permuteCsi_cols (b : Bfee) : (permuteCsi b).cols = permCols b := rfl

/-- A row that is taken from a row of the record. -/
theorem rxRow_permuteCsi {b : Bfee} {c r : ℕ} (hc : c < permCols b)
    (hr : permSource b.perm b.nrx c = some r) :
    rxRow (permCols b) b.ntx (permuteCsi b).bfee.csi c = b.row r := by
  rw [Bfee.row, rxRow, rxRow]
  refine List.flatMap_congr fun i hi => List.map_congr_left fun tx htx => ?_
  rw [List.mem_range] at hi htx
  rw [List.getD_eq_getElem?_getD]
  simp only [permuteCsi, List.range_eq_range']
  rw [← permCols]
  have hindex : mxIndex (permCols b) b.ntx tx c i = permCols b * b.ntx * i + (b.ntx * c + tx) := by
    rw [mxIndex]
    ring
  have hlt : b.ntx * c + tx < permCols b * b.ntx := by
    have hmul := Nat.mul_le_mul_left b.ntx (Nat.succ_le_of_lt hc)
    rw [Nat.mul_succ] at hmul
    rw [Nat.mul_comm (permCols b)]
    omega
  rw [hindex, getElem?_flatMap_range' _ ?_ hi hlt, getElem?_flatMap_range' _ ?_ hc htx]
  · simp [hr, htx]
  · simp
  · simp [List.length_flatMap, Nat.mul_comm]

/-- **The rows of the permuted array**, by the rows that they are taken from. -/
theorem rxRows_permuteCsi {b : Bfee} {sources : List ℕ}
    (h : (List.range (permCols b)).map (permSource b.perm b.nrx) = sources.map some) :
    rxRows (permCols b) b.ntx (permuteCsi b).bfee.csi = sources.map b.row := by
  have hlen : sources.length = permCols b := by simpa using (congrArg List.length h).symm
  refine List.ext_getElem (by simp [rxRows, hlen]) fun c hc _ => ?_
  have hlt : c < permCols b := by simpa [rxRows] using hc
  have hsource : permSource b.perm b.nrx c = some sources[c] := by
    have hget := congrArg (fun l => l[c]?) h
    simpa [hlt, hlen] using hget
  simp [rxRows, rxRow_permuteCsi hlt hsource]

/-- With a permutation the rows are the same ones. -/
theorem perm_rxRows_permuteCsi {b : Bfee} {sources : List ℕ}
    (h : (List.range (permCols b)).map (permSource b.perm b.nrx) = sources.map some)
    (hsources : sources.Perm (List.range b.nrx)) :
    (rxRows (permCols b) b.ntx (permuteCsi b).bfee.csi).Perm (rxRows b.nrx b.ntx b.csi) := by
  rw [rxRows_permuteCsi h]
  exact hsources.map _

/-! ## The selections -/

/-- The three entries of a selection are antennas from 1 to 4. -/
theorem antennaPerm_eq (antennaSel : ℕ) : ∃ p q r, antennaPerm antennaSel = [p, q, r] ∧
    (1 ≤ p ∧ p ≤ 4) ∧ (1 ≤ q ∧ q ≤ 4) ∧ (1 ≤ r ∧ r ≤ 4) := by
  have hmask : ∀ n, n &&& 3 ≤ 3 := fun n => Nat.and_le_right
  exact ⟨_, _, _, rfl, ⟨by omega, Nat.succ_le_succ (hmask _)⟩,
    ⟨by omega, Nat.succ_le_succ (hmask _)⟩, ⟨by omega, Nat.succ_le_succ (hmask _)⟩⟩

/-- `read_bfee` takes the permutation from the byte at offset 15. -/
theorem perm_readBfee {body : Bytes} {b : Bfee} (h : readBfee body = .ok b) :
    ∃ antennaSel, b.perm = antennaPerm antennaSel := by
  simp only [readBfee, bind, bind_eq_ok] at h
  obtain ⟨head, -, h⟩ := h
  split_ifs at h
  · cases h
  · obtain ⟨csi, -, h⟩ := bind_eq_ok.1 h
    refine ⟨head.getD 15 0, ?_⟩
    rw [← Except.ok.inj h, antennaPerm]

/-- A record that is not permuted. -/
theorem keepsAntennas_unchanged_iff (b : Bfee) :
    KeepsAntennas b { bfee := b, cols := b.nrx } ↔
      ((b.perm.take b.nrx).Perm (List.range' 1 b.nrx) →
        ∀ i < b.nrx, b.row (b.perm.getD i 0 - 1) = b.row i) :=
  ⟨fun h => h.placed, fun h => ⟨rfl, List.Perm.refl _, h⟩⟩

section Cases

variable {b : Bfee} {p q r : ℕ}

/-- One antenna. -/
theorem keepsAntennas_one (hnrx : b.nrx = 1) (hperm : b.perm = [p, q, r]) :
    KeepsAntennas b (bfOf b) := by
  rw [bfOf, if_neg (by simp [hnrx]), keepsAntennas_unchanged_iff]
  simp only [hnrx, hperm, Nat.lt_one_iff, forall_eq]
  intro hplaced
  obtain rfl : p = 1 := by simpa using hplaced
  rfl

/-- The test is about the sum of the three entries. -/
theorem hasPerm_iff (hperm : b.perm = [p, q, r]) :
    HasPerm b ↔ p + q + r = b.nrx * (b.nrx + 1) / 2 := by
  simp [HasPerm, hperm, Nat.add_assoc]

/-- A permuted record of `n` antennas whose selection `perm` is no permutation of them. -/
theorem keepsAntennas_permuted_iff {n : ℕ} {perm sources : List ℕ} (hnrx : b.nrx = n)
    (hperm : b.perm = perm) (hcols : (perm.take n).foldl max n = n)
    (h : (List.range n).map (permSource perm n) = sources.map some)
    (hno : ¬ (perm.take n).Perm (List.range' 1 n)) :
    KeepsAntennas b (permuteCsi b) ↔ (sources.map b.row).Perm ((List.range n).map b.row) := by
  subst hnrx hperm
  have hwidth : permCols b = b.nrx := hcols
  rw [← rxRows_permuteCsi (by rwa [hwidth])]
  exact ⟨fun hkeeps => hkeeps.rows,
    fun hrows => ⟨hwidth, hrows, fun hplaced => absurd hplaced hno⟩⟩

/-- One row twice is the two rows only if these are equal. -/
theorem perm_pair_iff {α : Type*} (x y : α) : [y, y].Perm [x, y] ↔ x = y := by
  constructor
  · intro h
    have hmem : x ∈ [y, y] := h.mem_iff.2 List.mem_cons_self
    simpa using hmem
  · rintro rfl
    exact List.Perm.refl _

/-- Two antennas and the selection 1, 1, 1: the first row is lost. -/
theorem keepsAntennas_ones_iff (hnrx : b.nrx = 2) (hperm : b.perm = [1, 1, 1]) :
    KeepsAntennas b (permuteCsi b) ↔ b.row 0 = b.row 1 := by
  have hsources : (List.range 2).map (permSource [1, 1, 1] 2) = [1, 1].map some := rfl
  rw [keepsAntennas_permuted_iff hnrx hperm rfl hsources (by decide)]
  exact perm_pair_iff (b.row 0) (b.row 1)

/-- The permutations of two antennas. -/
theorem eq_or_swap_of_perm (h : [p, q].Perm [1, 2]) : p = 1 ∧ q = 2 ∨ p = 2 ∧ q = 1 := by
  have hsum := h.sum_eq
  have hmem : p ∈ [1, 2] := h.subset List.mem_cons_self
  simp only [List.sum_cons, List.sum_nil] at hsum
  simp only [List.mem_cons, List.not_mem_nil, or_false] at hmem
  omega

/-- Two antennas: a selection with the sum 3 moves both rows to the first, and any other leaves
them where they are. -/
theorem keepsAntennas_two_iff (hnrx : b.nrx = 2) (hperm : b.perm = [p, q, r]) (hp : 1 ≤ p)
    (hq : 1 ≤ q) (hr : 1 ≤ r) : KeepsAntennas b (bfOf b) ↔ SelectionFits b := by
  have hfits : SelectionFits b ↔
      (b.perm = [1, 1, 1] ∨ b.perm.take 2 = [2, 1] → b.row 0 = b.row 1) :=
    ⟨fun h => h.two hnrx, fun h => ⟨fun _ => h, by omega, by omega⟩⟩
  have hhas : HasPerm b ↔ p + q + r = 3 := by rw [hasPerm_iff hperm, hnrx]
  rw [hfits]
  by_cases hsum : p + q + r = 3
  · obtain ⟨rfl, rfl, rfl⟩ : p = 1 ∧ q = 1 ∧ r = 1 := by omega
    rw [bfOf, if_pos ⟨by omega, hhas.2 hsum⟩, keepsAntennas_ones_iff hnrx hperm]
    exact ⟨fun h _ => h, fun h => h (.inl hperm)⟩
  · rw [bfOf, if_neg fun hboth => hsum (hhas.1 hboth.2), keepsAntennas_unchanged_iff, hperm, hnrx]
    constructor
    · rintro h (hones | hswap)
      · simp only [List.cons.injEq, and_true] at hones
        omega
      · simp only [List.take_succ_cons, List.take_zero, List.cons.injEq, and_true] at hswap
        obtain ⟨rfl, rfl⟩ := hswap
        have hplaced : ([2, 1] : List ℕ).Perm (List.range' 1 2) := by decide
        exact (h hplaced 0 (by decide)).symm
    · intro h hplaced i hi
      -- of the two permutations one leaves the rows, and the other is not carried out
      rcases eq_or_swap_of_perm hplaced with ⟨rfl, rfl⟩ | ⟨rfl, rfl⟩
      · interval_cases i <;> rfl
      · have heq := h (.inr rfl)
        interval_cases i
        · exact heq.symm
        · exact heq

/-- The selections of antennas from 1 to 4 that pass the test for three antennas. -/
theorem selection_of_sum (hp : 1 ≤ p ∧ p ≤ 4) (hq : 1 ≤ q ∧ q ≤ 4) (hr : 1 ≤ r ∧ r ≤ 4)
    (hsum : p + q + r = 6) : [p, q, r].Perm [1, 2, 3] ∨ [p, q, r] = [2, 2, 2] ∨
      [p, q, r] ∈ [[1, 1, 4], [1, 4, 1], [4, 1, 1]] := by
  obtain rfl : r = 6 - p - q := by omega
  obtain ⟨hp₁, hp₄⟩ := hp
  obtain ⟨hq₁, hq₄⟩ := hq
  interval_cases p <;> interval_cases q <;> first | omega | decide

/-- A permutation of three antennas moves each row to its place. -/
theorem permSource_of_perm {perm : List ℕ} (h : perm.Perm [1, 2, 3]) :
    (perm.take 3).foldl max 3 = 3 ∧
      (∃ sources : List ℕ, (List.range 3).map (permSource perm 3) = sources.map some ∧
        sources.Perm (List.range 3)) ∧
      ∀ i < 3, perm.getD i 0 - 1 < 3 ∧ permSource perm 3 (perm.getD i 0 - 1) = some i := by
  have hall : ∀ perm ∈ [1, 2, 3].permutations', (perm.take 3).foldl max 3 = 3 ∧
      ((List.range 3).map (permSource perm 3) =
          ((List.range 3).map fun c => perm.idxOf (c + 1)).map some ∧
        ((List.range 3).map fun c => perm.idxOf (c + 1)).Perm (List.range 3)) ∧
      ∀ i < 3, perm.getD i 0 - 1 < 3 ∧ permSource perm 3 (perm.getD i 0 - 1) = some i := by
    decide
  obtain ⟨hcols, hsources, hplaced⟩ := hall perm (List.mem_permutations'.2 h)
  exact ⟨hcols, ⟨_, hsources⟩, hplaced⟩

/-- Three antennas and a permutation. -/
theorem keepsAntennas_permuteCsi (hnrx : b.nrx = 3) (hperm : b.perm.Perm [1, 2, 3]) :
    KeepsAntennas b (permuteCsi b) := by
  obtain ⟨hfold, ⟨sources, hsources, hrange⟩, hplaced⟩ := permSource_of_perm hperm
  have hcols : permCols b = 3 := by rwa [permCols, hnrx]
  refine ⟨hcols.trans hnrx.symm, ?_, fun _ i hi => ?_⟩
  · exact perm_rxRows_permuteCsi (by rwa [hcols, hnrx]) (by rwa [hnrx])
  · rw [hnrx] at hi
    obtain ⟨hlt, hsource⟩ := hplaced i hi
    exact rxRow_permuteCsi (by rwa [hcols]) (by rwa [hnrx])

/-- Three antennas and the selection 2, 2, 2: the second row is lost. -/
theorem keepsAntennas_twos_iff (hnrx : b.nrx = 3) (hperm : b.perm = [2, 2, 2]) :
    KeepsAntennas b (permuteCsi b) ↔ b.row 1 = b.row 2 := by
  have hsources : (List.range 3).map (permSource [2, 2, 2] 3) = [0, 2, 2].map some := rfl
  rw [keepsAntennas_permuted_iff hnrx hperm rfl hsources (by decide)]
  exact (List.perm_cons (b.row 0)).trans (perm_pair_iff (b.row 1) (b.row 2))

/-- Three antennas and a selection with the fourth: there is a fourth row. -/
theorem not_keepsAntennas_fourth (hnrx : b.nrx = 3)
    (hperm : b.perm ∈ [[1, 1, 4], [1, 4, 1], [4, 1, 1]]) : ¬ KeepsAntennas b (permuteCsi b) := by
  intro h
  have hfour : ∀ perm ∈ [[1, 1, 4], [1, 4, 1], [4, 1, 1]], (perm.take 3).foldl max 3 = 4 := by
    decide
  have hcols := h.cols
  rw [permuteCsi_cols, permCols, hnrx, hfour _ hperm] at hcols
  exact absurd hcols (by decide)

/-- Three antennas. -/
theorem keepsAntennas_three_iff (hnrx : b.nrx = 3) (hperm : b.perm = [p, q, r])
    (hp : 1 ≤ p ∧ p ≤ 4) (hq : 1 ≤ q ∧ q ≤ 4) (hr : 1 ≤ r ∧ r ≤ 4) :
    KeepsAntennas b (bfOf b) ↔ SelectionFits b := by
  have hfits : SelectionFits b ↔ (b.perm = [2, 2, 2] → b.row 1 = b.row 2) ∧
      b.perm ∉ [[1, 1, 4], [1, 4, 1], [4, 1, 1]] :=
    ⟨fun h => ⟨h.three hnrx, h.fourth hnrx⟩, fun h => ⟨by omega, fun _ => h.1, fun _ => h.2⟩⟩
  have hhas : HasPerm b ↔ p + q + r = 6 := by rw [hasPerm_iff hperm, hnrx]
  rw [hfits]
  by_cases hsum : p + q + r = 6
  · rw [bfOf, if_pos ⟨by omega, hhas.2 hsum⟩]
    rcases selection_of_sum hp hq hr hsum with hthree | htwos | hfour
    · rw [← hperm] at hthree
      refine iff_of_true (keepsAntennas_permuteCsi hnrx hthree) ⟨fun heq => ?_, fun hmem => ?_⟩
      · rw [heq] at hthree
        exact absurd hthree (by decide)
      · have hno : ∀ perm ∈ [[1, 1, 4], [1, 4, 1], [4, 1, 1]], ¬ perm.Perm [1, 2, 3] := by decide
        exact absurd hthree (hno _ hmem)
    · rw [← hperm] at htwos
      rw [keepsAntennas_twos_iff hnrx htwos, htwos]
      exact ⟨fun h => ⟨fun _ => h, by decide⟩, fun h => h.1 rfl⟩
    · rw [← hperm] at hfour
      exact iff_of_false (not_keepsAntennas_fourth hnrx hfour) fun h => h.2 hfour
  · -- a selection that does not pass the test is neither a permutation nor one of the bad ones
    rw [bfOf, if_neg fun hboth => hsum (hhas.1 hboth.2), keepsAntennas_unchanged_iff, hperm, hnrx]
    refine iff_of_true (fun hplaced => absurd ?_ hsum) ⟨fun heq => absurd ?_ hsum, fun hmem => ?_⟩
    · have hsum' := hplaced.sum_eq
      have hvalue : (List.range' 1 3).sum = 6 := rfl
      simp only [List.take_succ_cons, List.take_zero, List.sum_cons, List.sum_nil] at hsum'
      omega
    · simp only [List.cons.injEq, and_true] at heq
      omega
    · simp only [List.mem_cons, List.cons.injEq, and_true, List.not_mem_nil, or_false] at hmem
      omega

end Cases

/-- **The struct of a record** has all antennas if and only if the selection fits. -/
theorem keepsAntennas_bfOf_iff {b : Bfee} {antennaSel : ℕ}
    (hperm : b.perm = antennaPerm antennaSel) (h : 1 ≤ b.nrx) (hle : b.nrx ≤ 3) :
    KeepsAntennas b (bfOf b) ↔ SelectionFits b := by
  obtain ⟨p, q, r, hentries, hp, hq, hr⟩ := antennaPerm_eq antennaSel
  rw [hentries] at hperm
  obtain hnrx | hnrx | hnrx : b.nrx = 1 ∨ b.nrx = 2 ∨ b.nrx = 3 := by omega
  · exact iff_of_true (keepsAntennas_one hnrx hperm) ⟨by omega, by omega, by omega⟩
  · exact keepsAntennas_two_iff hnrx hperm hp.1 hq.1 hr.1
  · exact keepsAntennas_three_iff hnrx hperm hp hq hr

/-! ## The two readers -/

/-- A step keeps the antennas if and only if the selection fits and no warning is given that
fails. -/
theorem stepKeeps_iff (filename : Except BfErr Unit) (brokenPerm : Bool) {b : Bfee}
    {antennaSel : ℕ} (hperm : b.perm = antennaPerm antennaSel) (h : 1 ≤ b.nrx) (hle : b.nrx ≤ 3) :
    StepKeeps filename brokenPerm b ↔ SelectionFits b ∧
      (b.nrx = 1 ∨ HasPerm b ∨ brokenPerm = true ∨ filename = .ok ()) := by
  rw [StepKeeps, permStep_eq filename brokenPerm h hle, ← keepsAntennas_bfOf_iff hperm h hle]
  split_ifs with hnone hbroken
  · simp [or_assoc.symm, hnone]
  · simp [hbroken]
  · obtain ⟨hone, hhas⟩ := not_or.1 hnone
    cases filename with
    | error e => simp [Except.map, hone, hhas, hbroken]
    | ok _ => simp [Except.map]

/-- **The permutation** of `read_bf_file`, whether or not it has given its warning, keeps the
antennas if and only if the selection fits. That of `read_bf_buf`, of which each call begins with one
record, does if moreover the record has one antenna or passes the test. -/
theorem permStep_keeps_iff {b : Bfee} {antennaSel : ℕ} (hperm : b.perm = antennaPerm antennaSel)
    (h : 1 ≤ b.nrx) (hle : b.nrx ≤ 3) :
    (∀ brokenPerm, StepKeeps (.ok ()) brokenPerm b ↔ SelectionFits b) ∧
      (StepKeeps (.error .undefined) false b ↔
        SelectionFits b ∧ (b.nrx = 1 ∨ HasPerm b)) := by
  constructor
  · intro brokenPerm
    rw [stepKeeps_iff _ _ hperm h hle]
    simp
  · rw [stepKeeps_iff _ _ hperm h hle]
    simp

/-- A record of two receive antennas, of which the first has zeros and the second ones. -/
def twoAntennas (antennaSel : ℕ) : Bfee where
  timestampLow := 0
  bfeeCount := 0
  nrx := 2
  ntx := 1
  rssiA := 0
  rssiB := 0
  rssiC := 0
  noise := 0
  agc := 0
  perm := antennaPerm antennaSel
  rate := 0
  csi := (List.range 30).flatMap fun _ => [(0, 0), (1, 0)]

theorem permStep_keeps_iff_default :
    StepKeeps (.ok ()) false (twoAntennas 0x24) ∧
      ¬ StepKeeps (.error .undefined) false (twoAntennas 0x24) := by
  have hkeeps := permStep_keeps_iff (b := twoAntennas 0x24) rfl (by decide) (by decide)
  refine ⟨(hkeeps.1 false).2 ⟨fun _ h => ?_, fun h => ?_, fun h => ?_⟩, fun h => ?_⟩
  · exact absurd h (by decide)
  · exact absurd h (by decide)
  · exact absurd h (by decide)
  · exact absurd (hkeeps.2.1 h).2 (by decide)

/-- **Lost antennas**: the selection 2, 1, 3 is not carried out for two antennas, the selection 1, 1,
1 moves both rows to the first, and `read_bf_buf` fails at the selection 1, 2, 3. -/
theorem not_permStep_keeps : ¬ StepKeeps (.ok ()) false (twoAntennas 0x21) ∧
    ¬ StepKeeps (.ok ()) false (twoAntennas 0) ∧
    ¬ StepKeeps (.error .undefined) false (twoAntennas 0x24) := by
  have hrows : ∀ sel, (twoAntennas sel).row 0 ≠ (twoAntennas sel).row 1 := by
    intro sel
    change rxRow 2 1 (twoAntennas 0).csi 0 ≠ rxRow 2 1 (twoAntennas 0).csi 1
    decide
  refine ⟨fun h => ?_, fun h => ?_, fun h => ?_⟩
  · rw [stepKeeps_iff (.ok ()) false (b := twoAntennas 0x21) rfl (by decide) (by decide)] at h
    exact hrows _ (h.1.two rfl (.inr rfl))
  · rw [stepKeeps_iff (.ok ()) false (b := twoAntennas 0) rfl (by decide) (by decide)] at h
    exact hrows _ (h.1.two rfl (.inl rfl))
  · rw [stepKeeps_iff _ false (b := twoAntennas 0x24) rfl (by decide) (by decide)] at h
    exact absurd h.2 (by decide)

end Iax.Incsi
