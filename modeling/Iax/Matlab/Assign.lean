import Iax.Matlab.Index
import Mathlib.Data.List.Nodup
import Mathlib.Tactic.SplitIfs

/-!
# MATLAB assignment

`assign` is `A(idx) = vals` for a row vector: positions past its end make it longer, filled with
zeros, and a single value goes to all positions.

* `assign_eq`: what is at each position then, when the indices are distinct.
-/

namespace Iax.Matlab

variable {κ : Type*} (zero : κ)

/-- `A(i) = v`. -/
def setElem (A : List κ) (i : ℤ) (v : κ) : List κ :=
  let k := (i - 1).toNat
  if k < A.length then A.set k v else A ++ List.replicate (k - A.length) zero ++ [v]

/-- `A(idx) = vals`. -/
def assign (A : List κ) (idx : List ℤ) (vals : List κ) : Except MatErr (List κ) :=
  if vals.length ≠ idx.length ∧ vals.length ≠ 1 then .error .numelMismatch
  else if ∃ i ∈ idx, i < 1 then .error .badSubscript
  else
    let vals := if vals.length = 1 then idx.map fun _ => vals.headD zero else vals
    .ok ((idx.zip vals).foldl (fun A p => setElem zero A p.1 p.2) A)

theorem length_setElem (A : List κ) (i : ℤ) (v : κ) :
    (setElem zero A i v).length = max A.length ((i - 1).toNat + 1) := by
  simp only [setElem]
  split_ifs with h
  · rw [List.length_set]
    omega
  · simp only [List.length_append, List.length_replicate, List.length_singleton]
    omega

theorem getD_setElem (A : List κ) {i : ℤ} (hi : 1 ≤ i) (v : κ) (p : ℕ) :
    (setElem zero A i v).getD p zero = if (p : ℤ) + 1 = i then v else A.getD p zero := by
  have hk : (p : ℤ) + 1 = i ↔ p = (i - 1).toNat := by omega
  simp only [setElem, hk]
  split_ifs with hlt hp hp
  · rw [hp, List.getD_eq_getElem?_getD, List.getElem?_set_self hlt, Option.getD_some]
  · rw [List.getD_eq_getElem?_getD, List.getElem?_set_ne (Ne.symm hp), List.getD_eq_getElem?_getD]
  all_goals
    simp only [List.getD_eq_getElem?_getD, List.getElem?_append, List.getElem?_replicate,
      List.length_append, List.length_replicate, List.getElem?_singleton]
    grind

/-- The positions of the pairs are set, and the others are as before. -/
theorem foldl_setElem (ps : List (ℤ × κ)) (A : List κ) (hpos : ∀ q ∈ ps, 1 ≤ q.1)
    (hnodup : (ps.map Prod.fst).Nodup) (p : ℕ) :
    (ps.foldl (fun A q => setElem zero A q.1 q.2) A).getD p zero =
      (ps.lookup ((p : ℤ) + 1)).getD (A.getD p zero) := by
  induction ps generalizing A with
  | nil => rfl
  | cons q ps ih =>
    obtain ⟨hq, hpos⟩ := List.forall_mem_cons.1 hpos
    rw [List.map_cons, List.nodup_cons] at hnodup
    rw [List.foldl_cons, ih _ hpos hnodup.2, getD_setElem zero A hq, List.lookup_cons]
    by_cases heq : (p : ℤ) + 1 = q.1
    · have hnone : ps.lookup ((p : ℤ) + 1) = none := by
        refine List.lookup_eq_none_iff.2 fun q' hq' => ?_
        rw [heq, bne_iff_ne]
        exact fun h => hnodup.1 (h ▸ List.mem_map_of_mem hq')
      rw [hnone, if_pos heq, beq_iff_eq.2 heq]
      rfl
    · rw [if_neg heq, beq_eq_false_iff_ne.2 heq]

/-- The vector grows as far as the positions ask for. -/
theorem length_foldl_setElem (ps : List (ℤ × κ)) (A : List κ) (N : ℕ)
    (hN : ∀ q ∈ ps, q.1 ≤ N) (hpos : ∀ q ∈ ps, 1 ≤ q.1) (hA : A.length ≤ N) :
    let A' := ps.foldl (fun A q => setElem zero A q.1 q.2) A
    A'.length ≤ N ∧ A.length ≤ A'.length ∧ ∀ q ∈ ps, q.1 ≤ A'.length := by
  induction ps generalizing A with
  | nil => simp [hA]
  | cons q ps ih =>
    obtain ⟨hqN, hN⟩ := List.forall_mem_cons.1 hN
    obtain ⟨hq, hpos⟩ := List.forall_mem_cons.1 hpos
    have hlen := length_setElem zero A q.1 q.2
    obtain ⟨h₁, h₂, h₃⟩ := ih (setElem zero A q.1 q.2) hN hpos (by omega)
    refine ⟨h₁, by rw [List.foldl_cons]; omega, List.forall_mem_cons.2 ⟨?_, h₃⟩⟩
    rw [List.foldl_cons]
    omega

/-- **An assignment** to distinct positions of an array of at most `N` elements. -/
theorem assign_eq (A : List κ) {idx : List ℤ} {vals : List κ} (N : ℕ)
    (hlen : vals.length = idx.length) (hnodup : idx.Nodup) (hidx : ∀ i ∈ idx, 1 ≤ i ∧ i ≤ N)
    (hA : A.length ≤ N) :
    ∃ A', assign zero A idx vals = .ok A' ∧ A'.length ≤ N ∧ A.length ≤ A'.length ∧
      (∀ i ∈ idx, i ≤ A'.length) ∧
      ∀ p : ℕ, A'.getD p zero = ((idx.zip vals).lookup ((p : ℤ) + 1)).getD (A.getD p zero) := by
  have hvals : (if vals.length = 1 then idx.map fun _ => vals.headD zero else vals) = vals := by
    split_ifs with hone
    · obtain ⟨v, rfl⟩ := List.length_eq_one_iff.1 hone
      obtain ⟨i, rfl⟩ := List.length_eq_one_iff.1 (hlen.symm.trans hone)
      rfl
    · rfl
  have hsmall : ¬∃ i ∈ idx, i < 1 := by
    rintro ⟨i, hi, hlt⟩
    have := (hidx i hi).1
    omega
  have hfst : (idx.zip vals).map Prod.fst = idx := List.map_fst_zip (Nat.le_of_eq hlen.symm)
  have hmem : ∀ q ∈ idx.zip vals, 1 ≤ q.1 ∧ q.1 ≤ N := fun q hq => hidx q.1 (List.of_mem_zip hq).1
  obtain ⟨h₁, h₂, h₃⟩ := length_foldl_setElem zero (idx.zip vals) A N (fun q hq => (hmem q hq).2)
    (fun q hq => (hmem q hq).1) hA
  refine ⟨_, ?_, h₁, h₂, fun i hi => ?_,
    foldl_setElem zero _ A (fun q hq => (hmem q hq).1) (hfst.symm ▸ hnodup)⟩
  · rw [assign, if_neg (by simp [hlen]), if_neg hsmall, hvals]
  · rw [← hfst] at hi
    obtain ⟨q, hq, rfl⟩ := List.mem_map.1 hi
    exact h₃ q hq

end Iax.Matlab
