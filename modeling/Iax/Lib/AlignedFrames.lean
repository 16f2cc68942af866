import Mathlib.Data.List.Basic
import Mathlib.Algebra.Order.Group.Nat

/-!
# Frames at aligned offsets

Frames of different lengths stand one behind another in a buffer, each at the next multiple of an
alignment. What stands in the gaps is left open, so a buffer may have been used before.

* `alignUp` rounds a length up.
* `Laid` says that frames stand in a buffer in this way, and where the last one ends.
* `laid_pad`: the frames padded and put together are laid.
-/

namespace Iax

/-- `n` rounded up to a multiple of `a`. -/
def alignUp (a n : ℕ) : ℕ := (n + (a - 1)) / a * a

variable {a n : ℕ}

theorem le_alignUp (ha : 0 < a) (n : ℕ) : n ≤ alignUp a n := by
  have hmod := Nat.div_add_mod (n + (a - 1)) a
  have hlt := Nat.mod_lt (n + (a - 1)) ha
  rw [alignUp, mul_comm]
  omega

theorem dvd_alignUp (a n : ℕ) : a ∣ alignUp a n := Nat.dvd_mul_left a _

theorem alignUp_pos (ha : 0 < a) (hn : 0 < n) : 0 < alignUp a n :=
  hn.trans_le (le_alignUp ha n)

variable {α : Type*} {mem : List α} {off fin : ℕ} {f : List α} {fs : List (List α)}

/-- From the offset `off` on the frames stand in `mem`, and `fin` is the next offset behind the
last. -/
inductive Laid (a : ℕ) (mem : List α) : ℕ → List (List α) → ℕ → Prop
  | nil (off : ℕ) : Laid a mem off [] off
  | cons {off fin : ℕ} {f : List α} {fs : List (List α)} (frame : f <+: mem.drop off)
      (rest : Laid a mem (off + alignUp a f.length) fs fin) : Laid a mem off (f :: fs) fin

namespace Laid

theorem le (h : Laid a mem off fs fin) : off ≤ fin := by
  induction h with
  | nil off => exact le_rfl
  | cons _ _ ih => exact (Nat.le_add_right _ _).trans ih

/-- Before the buffer that is read, other bytes may stand. -/
theorem append_left (h : Laid a mem off fs fin) (mem' : List α) :
    Laid a (mem' ++ mem) (mem'.length + off) fs (mem'.length + fin) := by
  induction h with
  | nil off => exact .nil _
  | @cons off fin f fs frame _ ih =>
    refine .cons ?_ ?_
    · rwa [List.drop_length_add_append]
    · rwa [Nat.add_assoc]

end Laid

/-- A frame filled up to the alignment. -/
def pad (a : ℕ) (z : α) (f : List α) : List α :=
  f ++ List.replicate (alignUp a f.length - f.length) z

theorem length_pad (ha : 0 < a) (z : α) (f : List α) : (pad a z f).length = alignUp a f.length := by
  rw [pad, List.length_append, List.length_replicate]
  exact Nat.add_sub_of_le (le_alignUp ha _)

/-- Padded frames put together are laid, whatever follows. -/
theorem laid_pad (ha : 0 < a) (z : α) (fs : List (List α)) (rest : List α) :
    Laid a (fs.flatMap (pad a z) ++ rest) 0 fs (fs.flatMap (pad a z)).length := by
  induction fs with
  | nil => exact .nil 0
  | cons f fs ih =>
    have hrest := ih.append_left (pad a z f)
    rw [length_pad ha, Nat.add_zero, ← List.append_assoc] at hrest
    rw [List.flatMap_cons, List.length_append, length_pad ha]
    refine .cons ?_ (by rwa [Nat.zero_add])
    rw [List.drop_zero, pad, List.append_assoc, List.append_assoc]
    exact List.prefix_append _ _

end Iax
