import Mathlib.Data.List.Basic
import Mathlib.Data.Int.Order.Basic

/-!
# MATLAB indexing

Arrays are indexed from 1. `range x a b` is `x(a:b)` and `elem x i` is `x(i)`; both end the call
with an error when an index is not one of the array, and a range that runs backwards is empty.

* `range_middle`, `range_head`, `range_tail`: the parts of a concatenation.
* `range_eq_ok_iff`: when a range is read without an error, and what it is then.
-/

namespace Iax.Matlab

/-- The errors that end a MATLAB call: an index outside the array, an assignment of the wrong
number of elements, and a call of `error`. -/
inductive MatErr
  | badSubscript
  | numelMismatch
  | raised
  deriving DecidableEq

variable {α : Type*}

/-- `x(a:b)`. -/
def range (x : List α) (a b : ℤ) : Except MatErr (List α) :=
  if b < a then .ok []
  else if 1 ≤ a ∧ b ≤ x.length then .ok ((x.drop (a - 1).toNat).take (b - a + 1).toNat)
  else .error .badSubscript

/-- `x(i)`. -/
def elem (x : List α) (i : ℤ) : Except MatErr α :=
  if h : 1 ≤ i ∧ (i - 1).toNat < x.length then .ok (x.get ⟨(i - 1).toNat, h.2⟩)
  else .error .badSubscript

/-- A call that returns has returned from each of its steps. -/
theorem bind_eq_ok {ε β γ : Type*} {x : Except ε β} {f : β → Except ε γ} {c : γ} :
    (x.bind f) = .ok c ↔ ∃ b, x = .ok b ∧ f b = .ok c := by
  cases x with
  | error e => simp [Except.bind]
  | ok b => simp [Except.bind]

theorem map_eq_ok {ε β γ : Type*} {x : Except ε β} {f : β → γ} {c : γ} :
    x.map f = .ok c ↔ ∃ b, x = .ok b ∧ f b = c := by
  cases x with
  | error e => simp [Except.map]
  | ok b => simp [Except.map]

theorem mapM_isOk_iff {ε β γ : Type*} (f : β → Except ε γ) (xs : List β) :
    (∃ ys, xs.mapM f = .ok ys) ↔ ∀ x ∈ xs, ∃ y, f x = .ok y := by
  induction xs with
  | nil => simp [pure, Except.pure]
  | cons x xs ih =>
    rw [List.forall_mem_cons, ← ih]
    simp only [List.mapM_cons, bind, bind_eq_ok, pure, Except.pure, Except.ok.injEq]
    constructor
    · rintro ⟨_, y, hy, ys, hys, -⟩
      exact ⟨⟨y, hy⟩, ys, hys⟩
    · rintro ⟨⟨y, hy⟩, ys, hys⟩
      exact ⟨_, y, hy, ys, hys, rfl⟩

theorem range_eq_ok_iff {x y : List α} {a b : ℤ} :
    range x a b = .ok y ↔ (b < a ∧ y = []) ∨
      (a ≤ b ∧ 1 ≤ a ∧ b ≤ x.length ∧ y = (x.drop (a - 1).toNat).take (b - a + 1).toNat) := by
  unfold range
  split
  · rename_i h
    simp only [Except.ok.injEq, h, true_and, Int.not_le.2 h, false_and, or_false]
    exact eq_comm
  · rename_i h
    have hab : a ≤ b := by omega
    split
    · rename_i hin
      simp only [Except.ok.injEq, h, false_and, hab, hin.1, hin.2, true_and, false_or]
      exact eq_comm
    · rename_i hin
      simp only [reduceCtorEq, h, false_and, hab, true_and, false_or, false_iff]
      exact fun hall => hin ⟨hall.1, hall.2.1⟩

theorem range_eq_error {x : List α} {a b : ℤ} (hab : a ≤ b) (h : a < 1 ∨ (x.length : ℤ) < b) :
    range x a b = .error .badSubscript := by
  unfold range
  rw [if_neg (by omega), if_neg (by omega)]

/-- The middle part of a concatenation. -/
theorem range_middle (pre mid post : List α) {a b : ℤ} (ha : a = pre.length + 1)
    (hb : b = pre.length + mid.length) : range (pre ++ mid ++ post) a b = .ok mid := by
  subst ha hb
  rw [range_eq_ok_iff]
  rcases Nat.eq_zero_or_pos mid.length with h0 | hpos
  · left
    exact ⟨by omega, List.length_eq_zero_iff.1 h0⟩
  · right
    refine ⟨by omega, by omega, by simp only [List.length_append]; omega, ?_⟩
    rw [show ((pre.length : ℤ) + 1 - 1).toNat = pre.length by omega,
      show ((pre.length : ℤ) + mid.length - (pre.length + 1) + 1).toNat = mid.length by omega,
      List.append_assoc, List.drop_left, List.take_left]

theorem range_head (mid post : List α) {b : ℤ} (hb : b = mid.length) :
    range (mid ++ post) 1 b = .ok mid := by
  simpa using range_middle [] mid post (by simp) (by simpa using hb)

theorem range_tail (pre mid : List α) {a b : ℤ} (ha : a = pre.length + 1)
    (hb : b = pre.length + mid.length) : range (pre ++ mid) a b = .ok mid := by
  simpa using range_middle pre mid [] ha hb

/-- `x(o+1:o+n)` inside the array. -/
theorem range_slice {x : List α} {o n : ℕ} {a b : ℤ} (ha : a = o + 1) (hb : b = o + n)
    (h : o + n ≤ x.length) : range x a b = .ok ((x.drop o).take n) := by
  have hx : x = x.take o ++ (x.drop o).take n ++ (x.drop o).drop n := by
    rw [List.append_assoc, List.take_append_drop, List.take_append_drop]
  have hlen : (x.take o).length = o := by
    rw [List.length_take]
    omega
  have hlen' : ((x.drop o).take n).length = n := by
    rw [List.length_take, List.length_drop]
    omega
  conv_lhs => rw [hx]
  exact range_middle _ _ _ (by rw [ha, hlen]) (by rw [hb, hlen, hlen'])

/-- `x(1:b)` for a number of elements that the array has. -/
theorem range_take {x : List α} {n : ℕ} (h : n ≤ x.length) : range x 1 n = .ok (x.take n) := by
  have := range_head (x.take n) (x.drop n) (b := n) (by simp [h])
  rwa [List.take_append_drop] at this

/-- `x(a+1:end)`. -/
theorem range_drop {x : List α} {n : ℕ} (h : n ≤ x.length) :
    range x (n + 1) x.length = .ok (x.drop n) := by
  have := range_tail (x.take n) (x.drop n) (a := n + 1) (b := x.length) (by simp [h])
    (by simp only [List.length_take, List.length_drop]; omega)
  rwa [List.take_append_drop] at this

theorem elem_eq_ok {x : List α} {i : ℕ} (h : i < x.length) : elem x (i + 1) = .ok x[i] := by
  unfold elem
  have hi : ((i : ℤ) + 1 - 1).toNat = i := by omega
  rw [dif_pos ⟨by omega, by omega⟩]
  simp only [hi, List.get_eq_getElem]

theorem elem_eq_error {x : List α} {i : ℤ} (h : i < 1 ∨ (x.length : ℤ) < i) :
    elem x i = .error .badSubscript := by
  unfold elem
  exact dif_neg (by omega)

end Iax.Matlab
