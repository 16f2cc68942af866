import Mathlib.Algebra.BigOperators.Group.Finset.Piecewise
import Mathlib.Algebra.BigOperators.Group.Finset.Basic
import Mathlib.Algebra.Order.BigOperators.Group.Finset
import Mathlib.Data.Fintype.Basic

/-!
# Counting the entries of a table

`tally p` is the number of entries of a finite table that meet `p`. An update of one entry changes
it by that entry alone (`tally_update`), so a counter that is kept along with the table can be
compared with it one update at a time.
-/

namespace Iax

variable {ι : Type*} [Fintype ι]

/-- How many entries meet `p`. -/
def tally (p : ι → Bool) : ℕ := ∑ i, (p i).toNat

@[simp] theorem tally_false : tally (fun _ : ι => false) = 0 := Finset.sum_const_zero

theorem toNat_le_tally (p : ι → Bool) (i : ι) : (p i).toNat ≤ tally p :=
  Finset.single_le_sum (f := fun i => (p i).toNat) (fun _ _ => Nat.zero_le _) (Finset.mem_univ i)

variable [DecidableEq ι]

theorem tally_update (p : ι → Bool) (i : ι) (b : Bool) :
    tally (Function.update p i b) + (p i).toNat = tally p + b.toNat := by
  have hother : ∑ j ∈ Finset.univ.erase i, (Function.update p i b j).toNat =
      ∑ j ∈ Finset.univ.erase i, (p j).toNat :=
    Finset.sum_congr rfl fun j hj => by rw [Function.update_of_ne (Finset.ne_of_mem_erase hj)]
  rw [tally, tally, ← Finset.add_sum_erase _ _ (Finset.mem_univ i), hother, Function.update_self,
    ← Finset.add_sum_erase Finset.univ (fun j => (p j).toNat) (Finset.mem_univ i)]
  omega

end Iax
