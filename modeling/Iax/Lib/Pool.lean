import Mathlib.Logic.Function.Basic
import Mathlib.Logic.ExistsUnique

/-!
# Pools of resources

A pool marks the resources that are allocated, and each party keeps the resource that it holds. The
two are separate data: `Owned` says that they fit, that is, that an allocated resource is held by
exactly one party and a free one by none.

Taking a free resource and giving one back keep this (`Owned.take`, `Owned.release`). What does not
is a resource that is marked and not given to anyone (`not_owned_leak`), one that a party holds
without taking it (`not_owned_seize`), and one that is freed while somebody holds it
(`not_owned_steal`).
-/

namespace Iax

variable {ι ρ : Type*}

/-- Which resources are allocated, and what each party holds. -/
structure Pool (ι ρ : Type*) where
  alloc : ρ → Bool
  owner : ι → Option ρ

namespace Pool

/-- An allocated resource has exactly one owner, a free one has none. -/
def Owned (p : Pool ι ρ) : Prop :=
  ∀ q, (p.alloc q = true → ∃! x, p.owner x = some q) ∧ ∀ x, p.owner x = some q → p.alloc q = true

variable {p : Pool ι ρ}

/-- What is held is allocated. -/
theorem Owned.alloc_eq (h : p.Owned) {x : ι} {q : ρ} (hx : p.owner x = some q) : p.alloc q = true :=
  (h q).2 x hx

/-- Two parties hold different resources. -/
theorem Owned.eq (h : p.Owned) {x y : ι} {q : ρ} (hx : p.owner x = some q)
    (hy : p.owner y = some q) : x = y :=
  ((h q).1 (h.alloc_eq hx)).unique hx hy

/-- Nobody holds a free resource. -/
theorem Owned.owner_ne (h : p.Owned) {q : ρ} (hq : p.alloc q = false) (x : ι) :
    p.owner x ≠ some q := by
  intro hx
  rw [h.alloc_eq hx] at hq
  cases hq

section

variable [DecidableEq ρ]

/-- A free resource is marked, and nobody holds it. -/
theorem not_owned_leak (h : p.Owned) {q : ρ} (hq : p.alloc q = false) :
    ¬Owned ⟨Function.update p.alloc q true, p.owner⟩ := by
  intro hleak
  obtain ⟨x, hx, -⟩ := (hleak q).1 (Function.update_self ..)
  exact h.owner_ne hq x hx

/-- A resource is freed while somebody holds it. -/
theorem not_owned_steal (h : p.Owned) {q : ρ} (hq : p.alloc q = true) :
    ¬Owned ⟨Function.update p.alloc q false, p.owner⟩ := by
  intro hsteal
  obtain ⟨x, hx, -⟩ := (h q).1 hq
  exact hsteal.owner_ne (Function.update_self ..) x hx

end

variable [DecidableEq ι]

/-- A party that holds nothing holds a resource without taking it. -/
theorem not_owned_seize (h : p.Owned) {x : ι} (q : ρ) (hx : p.owner x = none) :
    ¬Owned ⟨p.alloc, Function.update p.owner x (some q)⟩ := by
  intro hseize
  have hself : Function.update p.owner x (some q) x = some q := Function.update_self ..
  obtain ⟨y, hy, -⟩ := (h q).1 (hseize.alloc_eq hself)
  have hyx : y ≠ x := by
    rintro rfl
    rw [hx] at hy
    cases hy
  have hother : Function.update p.owner x (some q) y = some q := by
    rw [Function.update_of_ne hyx, hy]
  exact hyx (hseize.eq hother hself)

/-- What one party holds before and after is not `q`: `q` is held by the same parties. -/
theorem update_owner_eq_iff {x : ι} {q : ρ} {o : Option ρ} (hx : p.owner x ≠ some q)
    (ho : o ≠ some q) (y : ι) :
    Function.update p.owner x o y = some q ↔ p.owner y = some q := by
  by_cases hy : y = x
  · subst hy
    rw [Function.update_self]
    exact iff_of_false ho hx
  · rw [Function.update_of_ne hy]

variable [DecidableEq ρ]

/-- A party takes a free resource. -/
theorem Owned.take (h : p.Owned) {x : ι} {q : ρ} (hx : p.owner x = none)
    (hq : p.alloc q = false) :
    Owned ⟨Function.update p.alloc q true, Function.update p.owner x (some q)⟩ := by
  intro q'
  dsimp only
  by_cases heq : q' = q
  · subst heq
    refine ⟨fun _ => ⟨x, Function.update_self .., fun y hy => ?_⟩, fun _ _ =>
      Function.update_self ..⟩
    have hy : Function.update p.owner x (some q') y = some q' := hy
    by_contra hne
    rw [Function.update_of_ne hne] at hy
    exact h.owner_ne hq y hy
  · have howner := update_owner_eq_iff (p := p) (x := x) (o := some q) (q := q')
      (by simp [hx]) (by simp [Ne.symm heq])
    rw [Function.update_of_ne heq]
    simpa only [howner] using h q'

/-- A party gives back what it holds. -/
theorem Owned.release (h : p.Owned) {x : ι} {q : ρ} (hx : p.owner x = some q) :
    Owned ⟨Function.update p.alloc q false, Function.update p.owner x none⟩ := by
  intro q'
  dsimp only
  by_cases heq : q' = q
  · subst heq
    rw [Function.update_self]
    refine ⟨fun hfalse => Bool.noConfusion hfalse, fun y hy => ?_⟩
    by_cases hyx : y = x
    · subst hyx
      rw [Function.update_self] at hy
      cases hy
    · rw [Function.update_of_ne hyx] at hy
      exact absurd (h.eq hy hx) hyx
  · have howner := update_owner_eq_iff (p := p) (x := x) (o := none) (q := q')
      (by simp [hx, Ne.symm heq]) (by simp)
    rw [Function.update_of_ne heq]
    simpa only [howner] using h q'

end Pool

end Iax
