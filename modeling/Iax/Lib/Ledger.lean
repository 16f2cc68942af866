import Iax.Lib.Lts
import Mathlib.Logic.Function.Basic

/-!
# Ledgers of references

References to resources are taken and dropped by holders, each of which can hold one at a time. A
list of such operations is legal when nobody takes a second reference and nobody drops one that he
does not hold.

* `run` is what the holders hold after the operations, `none` when one of them is not legal.
* `run_dropAll`: some holders drop what they hold.
* `held_of_run`: of the references that a holder has taken in a legal list, each was dropped exactly
  once, before the next was taken, but for the one that he holds (`Held`).
-/

namespace Iax.Ledger

/-- An operation of the holder `h` on a reference to the resource `r`. -/
inductive Op (η ρ : Type*)
  | take (h : η) (r : ρ)
  | drop (h : η) (r : ρ)
  deriving DecidableEq

variable {η ρ : Type*}

/-- Who takes or drops. -/
def Op.holder : Op η ρ → η
  | .take h _ => h
  | .drop h _ => h

/-- Each reference that `h` has taken was dropped before the next, but for the last one, if he still
holds it. -/
def Held [DecidableEq η] (ops : List (Op η ρ)) (h : η) (held : Option ρ) : Prop :=
  ∃ rs : List ρ, ops.filter (fun op => op.holder = h) =
    (rs.flatMap fun r => [.take h r, .drop h r]) ++ held.toList.map (.take h)

variable [DecidableEq η] [DecidableEq ρ]

/-- One operation. -/
def apply (L : η → Option ρ) : Op η ρ → Option (η → Option ρ)
  | .take h r => if L h = none then some (Function.update L h (some r)) else none
  | .drop h r => if L h = some r then some (Function.update L h none) else none

/-- A list of operations. -/
def run (L : η → Option ρ) (ops : List (Op η ρ)) : Option (η → Option ρ) := Lts.exec apply L ops

theorem run_append (L : η → Option ρ) (ops ops' : List (Op η ρ)) :
    run L (ops ++ ops') = (run L ops).bind fun L' => run L' ops' :=
  Lts.exec_append apply L ops ops'

theorem run_take {L : η → Option ρ} {h : η} (r : ρ) (hfree : L h = none) :
    run L [.take h r] = some (Function.update L h (some r)) := by
  simp [run, apply, hfree]

theorem run_drop {L : η → Option ρ} {h : η} {r : ρ} (hheld : L h = some r) :
    run L [.drop h r] = some (Function.update L h none) := by
  simp [run, apply, hheld]

/-- **Dropping all**: what distinct holders hold is dropped. -/
theorem run_dropAll (L : η → Option ρ) {hs : List η} (hnodup : hs.Nodup) :
    run L (hs.filterMap fun h => (L h).map (.drop h)) =
      some fun h => if h ∈ hs then none else L h := by
  induction hs generalizing L with
  | nil => simp [run]
  | cons h hs ih =>
    obtain ⟨hnot, hnodup⟩ := List.nodup_cons.1 hnodup
    cases hheld : L h with
    | none =>
      rw [List.filterMap_cons_none (by rw [hheld]; rfl), ih L hnodup]
      congr 1
      funext h'
      by_cases heq : h' = h
      · subst heq
        simp [hheld]
      · simp [heq]
    | some r =>
      -- the other holders hold the same after `h` has dropped
      have hrest : (hs.filterMap fun h' => (L h').map (Op.drop h')) =
          hs.filterMap fun h' => (Function.update L h none h').map (Op.drop h') := by
        refine List.filterMap_congr fun h' hmem => ?_
        rw [Function.update_of_ne]
        exact fun heq => hnot (heq ▸ hmem)
      rw [List.filterMap_cons_some (by rw [hheld]; rfl), ← List.singleton_append, run_append,
        run_drop hheld, Option.bind_some, hrest, ih _ hnodup]
      congr 1
      funext h'
      by_cases heq : h' = h
      · subst heq
        simp
      · simp [heq]

/-- What the operations of one holder are, from what he holds at the beginning. -/
theorem filter_of_run {L L' : η → Option ρ} {ops : List (Op η ρ)} (hrun : run L ops = some L')
    (h : η) : ∃ rs : List ρ, (L h).toList.map (.take h) ++ ops.filter (fun op => op.holder = h) =
      (rs.flatMap fun r => [.take h r, .drop h r]) ++ (L' h).toList.map (.take h) := by
  induction ops generalizing L with
  | nil =>
    cases hrun
    exact ⟨[], by simp⟩
  | cons op ops ih =>
    obtain ⟨L₁, hop, hrest⟩ := (Lts.exec_cons_eq_some apply).1 hrun
    obtain ⟨rs, hrs⟩ := ih hrest
    cases op with
    | take h' r =>
      obtain ⟨hfree, rfl⟩ : L h' = none ∧ Function.update L h' (some r) = L₁ := by
        simpa [apply] using hop
      by_cases heq : h' = h
      · subst heq
        rw [Function.update_self] at hrs
        exact ⟨rs, by simpa [hfree, Op.holder] using hrs⟩
      · rw [Function.update_of_ne (Ne.symm heq)] at hrs
        exact ⟨rs, by simpa [Op.holder, heq] using hrs⟩
    | drop h' r =>
      obtain ⟨hheld, rfl⟩ : L h' = some r ∧ Function.update L h' none = L₁ := by
        simpa [apply] using hop
      by_cases heq : h' = h
      · subst heq
        rw [Function.update_self] at hrs
        refine ⟨r :: rs, ?_⟩
        simpa [hheld, Op.holder] using hrs
      · rw [Function.update_of_ne (Ne.symm heq)] at hrs
        exact ⟨rs, by simpa [Op.holder, heq] using hrs⟩

/-- **The account of a legal list** that begins with nothing held. -/
theorem held_of_run {L : η → Option ρ} {ops : List (Op η ρ)}
    (hrun : run (fun _ => none) ops = some L) (h : η) : Held ops h (L h) := by
  obtain ⟨rs, hrs⟩ := filter_of_run hrun h
  exact ⟨rs, hrs⟩

end Iax.Ledger
