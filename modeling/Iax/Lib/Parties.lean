import Mathlib.Algebra.BigOperators.Group.Finset.Basic
import Mathlib.Data.Fintype.Basic

/-!
# Totals over parties

Finitely many parties each have a state, and `total g` adds up what `g` says of each. A step of one
party changes the total by that party's part alone (`total_update`), so a sum over all parties can
be followed one step at a time.
-/

namespace Iax

variable {ι α M : Type*} [Fintype ι] [AddCommMonoid M]

/-- What `g` says of the parties, added up. -/
def total (g : α → M) (s : ι → α) : M := ∑ i, g (s i)

theorem total_congr {g h : α → M} {s : ι → α} (heq : ∀ i, g (s i) = h (s i)) :
    total g s = total h s :=
  Finset.sum_congr rfl fun i _ => heq i

variable [DecidableEq ι]

/-- **One party's step**: its old part goes, its new part comes. -/
theorem total_update (g : α → M) (s : ι → α) (i : ι) (a : α) :
    total g (Function.update s i a) + g (s i) = total g s + g a := by
  have hother : ∑ j ∈ Finset.univ.erase i, g (Function.update s i a j) =
      ∑ j ∈ Finset.univ.erase i, g (s j) :=
    Finset.sum_congr rfl fun j hj => by rw [Function.update_of_ne (Finset.ne_of_mem_erase hj)]
  rw [total, total, ← Finset.add_sum_erase _ _ (Finset.mem_univ i), hother, Function.update_self,
    ← Finset.add_sum_erase Finset.univ (fun j => g (s j)) (Finset.mem_univ i),
    add_comm (g a + _) (g (s i)), add_comm (g a), add_assoc]

/-- A step that adds to its part adds to the total. -/
theorem total_update_of_add [IsRightCancelAdd M] {g : α → M} {s : ι → α} {i : ι} {a : α} {d : M}
    (heq : g a = g (s i) + d) : total g (Function.update s i a) = total g s + d := by
  refine add_right_cancel (b := g (s i)) ?_
  rw [total_update, heq, add_comm (g (s i)), add_assoc]

/-- A step that takes from its part takes from the total. -/
theorem total_update_of_sub [IsRightCancelAdd M] {g : α → M} {s : ι → α} {i : ι} {a : α} {d : M}
    (heq : g (s i) = g a + d) : total g (Function.update s i a) + d = total g s := by
  refine add_right_cancel (b := g a) ?_
  rw [← total_update g s i a, heq, add_assoc, add_comm d]

/-- A step that leaves its part as it was leaves the total. -/
theorem total_update_of_eq {g : α → M} {s : ι → α} {i : ι} {a : α} (heq : g a = g (s i)) :
    total g (Function.update s i a) = total g s := by
  refine Finset.sum_congr rfl fun j _ => ?_
  by_cases hj : j = i
  · subst hj
    rw [Function.update_self, heq]
  · rw [Function.update_of_ne hj]

end Iax
