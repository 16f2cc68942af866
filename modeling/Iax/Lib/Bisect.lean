import Mathlib.Order.Bounds.Basic
import Mathlib.Order.Nat

/-!
# Binary search

The loop that looks for the first place at which a test fails, when the test succeeds up to some
place and fails from there on.

* `bisect p lo hi`: the place, between `lo` and `hi`. `p` may refuse an answer, as a table does
  outside of its entries.
* `bisect_isSome`, `bisect_spec`: it is found, and the test is asked below `hi` only.
-/

namespace Iax

/-- The first place from `lo` on at which `p` is false, or `hi`. -/
def bisect (p : ℕ → Option Bool) (lo hi : ℕ) : Option ℕ :=
  if h : lo < hi then
    match p ((lo + hi) / 2) with
    | none => none
    | some true => bisect p ((lo + hi) / 2 + 1) hi
    | some false => bisect p lo ((lo + hi) / 2)
  else some ((lo + hi) / 2)
termination_by hi - lo

variable {p : ℕ → Option Bool} {f : ℕ → Bool} {lo hi : ℕ}

/-- There is a place when the test answers below `hi`. -/
theorem bisect_isSome (hp : ∀ i < hi, (p i).isSome) : (bisect p lo hi).isSome := by
  induction lo, hi using bisect.induct p with
  | case1 lo hi hlt hnone =>
    have hsome := hp ((lo + hi) / 2) (by omega)
    rw [hnone] at hsome
    cases hsome
  | case2 lo hi hlt htrue ih =>
    rw [bisect, dif_pos hlt, htrue]
    exact ih hp
  | case3 lo hi hlt hfalse ih =>
    rw [bisect, dif_pos hlt, hfalse]
    exact ih fun i hi' => hp i (by omega)
  | case4 lo hi hge =>
    rw [bisect, dif_neg hge]
    rfl

/-- What the loop finds: the test succeeds before the place, and fails at it. -/
theorem bisect_spec (hle : lo ≤ hi) (hp : ∀ i < hi, p i = some (f i))
    (hf : ∀ i j, i ≤ j → j < hi → f j = true → f i = true) :
    ∃ n, bisect p lo hi = some n ∧ lo ≤ n ∧ n ≤ hi ∧ (∀ i, lo ≤ i → i < n → f i = true) ∧
      (n < hi → f n = false) := by
  induction lo, hi using bisect.induct p with
  | case1 lo hi hlt hnone =>
    rw [hp _ (by omega)] at hnone
    cases hnone
  | case2 lo hi hlt htrue ih =>
    rw [bisect, dif_pos hlt, htrue]
    have hmid : f ((lo + hi) / 2) = true := by
      rw [hp _ (by omega)] at htrue
      exact Option.some.inj htrue
    obtain ⟨n, hn, hlo, hhi, hbefore, hat⟩ := ih (by omega) hp hf
    refine ⟨n, hn, by omega, hhi, fun i hi' hin => ?_, hat⟩
    rcases Nat.lt_or_ge ((lo + hi) / 2) i with habove | hbelow
    · exact hbefore i habove hin
    · exact hf i _ hbelow (by omega) hmid
  | case3 lo hi hlt hfalse ih =>
    rw [bisect, dif_pos hlt, hfalse]
    have hmid : f ((lo + hi) / 2) = false := by
      rw [hp _ (by omega)] at hfalse
      exact Option.some.inj hfalse
    obtain ⟨n, hn, hlo, hhi, hbefore, hat⟩ := ih (by omega) (fun i hi' => hp i (by omega))
      fun i j hij hj => hf i j hij (by omega)
    refine ⟨n, hn, hlo, by omega, hbefore, fun _ => ?_⟩
    rcases Nat.lt_or_ge n ((lo + hi) / 2) with hbelow | habove
    · exact hat hbelow
    · obtain rfl : n = (lo + hi) / 2 := Nat.le_antisymm hhi habove
      exact hmid
  | case4 lo hi hge =>
    obtain rfl : lo = hi := by omega
    rw [bisect, dif_neg hge]
    exact ⟨(lo + lo) / 2, rfl, by omega, by omega, fun i hi hin => absurd hin (by omega),
      fun h => absurd h (by omega)⟩

/-- **The least place at which a test fails**, when it fails at the last one. -/
theorem bisect_isLeast (hp : ∀ i ≤ hi, p i = some (f i))
    (hf : ∀ i j, i ≤ j → j ≤ hi → f j = true → f i = true) (hlast : f hi = false) :
    ∃ n, bisect p 0 hi = some n ∧ IsLeast {i | p i = some false} n := by
  obtain ⟨n, hn, -, hhi, hbefore, hat⟩ := bisect_spec (Nat.zero_le hi) (fun i h => hp i h.le)
    fun i j hij hj => hf i j hij hj.le
  have hfail : f n = false := by
    rcases Nat.lt_or_eq_of_le hhi with hlt | rfl
    · exact hat hlt
    · exact hlast
  refine ⟨n, hn, (hp n hhi).trans (congrArg some hfail), fun i hi' => ?_⟩
  by_contra hlt
  have hlt' : i < n := Nat.lt_of_not_le hlt
  have htrue := hbefore i (Nat.zero_le i) hlt'
  change p i = some false at hi'
  rw [hp i (by omega), htrue] at hi'
  cases hi'

end Iax
