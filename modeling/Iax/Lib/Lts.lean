import Mathlib.Logic.Basic
import Mathlib.Data.List.Basic

/-!
# Runs of labelled transition systems

A system is a partial step function `step : σ → α → Option σ`: the action `a` leads from `s` to
`s'` when `step s a = some s'`, and is not enabled when it is `none`. Every interleaving of the
parties of a program is one list of actions, and `exec` runs it.

* `exec_invariant` is the induction rule: what every step preserves, every run preserves. The
  steps may be asked to meet a side condition `C` on the state before them (`Meets`).
* `exec_iff` is its exact form: when a step keeps `P` if and only if it meets `C`, a run keeps
  `P` if and only if each of its steps does.
* `always_iff` is the same about every state that a run goes through.
-/

namespace Iax.Lts

variable {σ α : Type*} (step : σ → α → Option σ)

/-- The state after a list of actions, `none` when one of them is not enabled. -/
def exec : σ → List α → Option σ
  | s, [] => some s
  | s, a :: as => (step s a).bind fun s' => exec s' as

@[simp] theorem exec_nil (s : σ) : exec step s [] = some s := rfl

@[simp] theorem exec_cons (s : σ) (a : α) (as : List α) :
    exec step s (a :: as) = (step s a).bind fun s' => exec step s' as := rfl

theorem exec_append (s : σ) (as bs : List α) :
    exec step s (as ++ bs) = (exec step s as).bind fun s' => exec step s' bs := by
  induction as generalizing s with
  | nil => rfl
  | cons a as ih =>
    simp only [List.cons_append, exec_cons, ih, Option.bind_assoc]

/-- A run begins with its first step. -/
theorem exec_cons_eq_some {s s' : σ} {a : α} {as : List α} :
    exec step s (a :: as) = some s' ↔ ∃ s₁, step s a = some s₁ ∧ exec step s₁ as = some s' := by
  simp [Option.bind_eq_some_iff]

/-- Every step of the run from `s` along the actions meets `C` in the state before it. -/
def Meets (C : σ → α → Prop) : σ → List α → Prop
  | _, [] => True
  | s, a :: as => C s a ∧ ∀ s', step s a = some s' → Meets C s' as

@[simp] theorem meets_nil (C : σ → α → Prop) (s : σ) : Meets step C s [] := trivial

theorem meets_cons_iff {C : σ → α → Prop} {s s₁ : σ} {a : α} {as : List α}
    (h : step s a = some s₁) : Meets step C s (a :: as) ↔ C s a ∧ Meets step C s₁ as := by
  simp [Meets, h]

instance decidableMeets (C : σ → α → Prop) [∀ s a, Decidable (C s a)] :
    ∀ (s : σ) (as : List α), Decidable (Meets step C s as)
  | _, [] => isTrue trivial
  | s, a :: as =>
    match h : step s a with
    | none => decidable_of_iff (C s a) (by simp [Meets, h])
    | some s₁ =>
      have := decidableMeets C s₁ as
      decidable_of_iff (C s a ∧ Meets step C s₁ as) (meets_cons_iff step h).symm

theorem meets_of_forall {C : σ → α → Prop} (h : ∀ s a, C s a) (s : σ) (as : List α) :
    Meets step C s as := by
  induction as generalizing s with
  | nil => trivial
  | cons a as ih => exact ⟨h s a, fun s' _ => ih s'⟩

theorem meets_of_mem {C : α → Prop} {as : List α} (h : ∀ a ∈ as, C a) (s : σ) :
    Meets step (fun _ a => C a) s as := by
  induction as generalizing s with
  | nil => trivial
  | cons a as ih =>
    obtain ⟨ha, has⟩ := List.forall_mem_cons.1 h
    exact ⟨ha, fun s' _ => ih has s'⟩

/-- A condition that does not look at the state is one on the actions of the run. -/
theorem meets_iff_forall_mem {C : α → Prop} {s s' : σ} {as : List α}
    (hrun : exec step s as = some s') : Meets step (fun _ a => C a) s as ↔ ∀ a ∈ as, C a := by
  refine ⟨fun hC => ?_, fun h => meets_of_mem step h s⟩
  induction as generalizing s with
  | nil => simp
  | cons a as ih =>
    obtain ⟨s₁, h₁, hrest⟩ := (exec_cons_eq_some step).1 hrun
    exact List.forall_mem_cons.2 ⟨hC.1, ih hrest (hC.2 s₁ h₁)⟩

theorem Meets.and {C D : σ → α → Prop} {s : σ} {as : List α} (hC : Meets step C s as)
    (hD : Meets step D s as) : Meets step (fun s a => C s a ∧ D s a) s as := by
  induction as generalizing s with
  | nil => trivial
  | cons a as ih => exact ⟨⟨hC.1, hD.1⟩, fun s' hs' => ih (hC.2 s' hs') (hD.2 s' hs')⟩

theorem Meets.mono {C D : σ → α → Prop} (h : ∀ s a, C s a → D s a) {s : σ} {as : List α}
    (hC : Meets step C s as) : Meets step D s as := by
  induction as generalizing s with
  | nil => trivial
  | cons a as ih => exact ⟨h s a hC.1, fun s' hs' => ih (hC.2 s' hs')⟩

theorem Meets.initial {C : σ → α → Prop} {s : σ} {as bs : List α} (hC : Meets step C s as)
    (hbs : bs <+: as) : Meets step C s bs := by
  induction bs generalizing s as with
  | nil => trivial
  | cons b bs ih =>
    cases as with
    | nil => simp at hbs
    | cons a as =>
      obtain ⟨rfl, hbs'⟩ := List.cons_prefix_cons.1 hbs
      exact ⟨hC.1, fun s' hs' => ih (hC.2 s' hs') hbs'⟩

theorem Meets.right {C : σ → α → Prop} {s t : σ} {as bs : List α} (hC : Meets step C s (as ++ bs))
    (ht : exec step s as = some t) : Meets step C t bs := by
  induction as generalizing s with
  | nil =>
    obtain rfl : s = t := by simpa using ht
    exact hC
  | cons a as ih =>
    obtain ⟨s₁, h₁, hrest⟩ := (exec_cons_eq_some step).1 ht
    exact ih (hC.2 s₁ h₁) hrest

/-- **The invariant rule**: what a step meeting `C` preserves, a run of such steps preserves. -/
theorem exec_invariant {I : σ → Prop} {C : σ → α → Prop}
    (hstep : ∀ s a s', I s → C s a → step s a = some s' → I s') {s s' : σ} {as : List α}
    (hI : I s) (hC : Meets step C s as) (hrun : exec step s as = some s') : I s' := by
  induction as generalizing s with
  | nil =>
    obtain rfl : s = s' := by simpa using hrun
    exact hI
  | cons a as ih =>
    obtain ⟨s₁, h₁, hrest⟩ := (exec_cons_eq_some step).1 hrun
    obtain ⟨hCa, hCas⟩ := (meets_cons_iff step h₁).1 hC
    exact ih (hstep s a s₁ hI hCa h₁) hCas hrest

/-- **The exact rule**: when, in the states of an invariant, a step keeps `P` if and only if it
meets `C`, a run from such a state keeps `P` if and only if all its steps meet `C`. -/
theorem exec_iff {I P : σ → Prop} {C : σ → α → Prop}
    (hinv : ∀ s a s', I s → step s a = some s' → I s')
    (hstep : ∀ s a s', I s → step s a = some s' → (P s' ↔ P s ∧ C s a)) {s s' : σ} {as : List α}
    (hI : I s) (hrun : exec step s as = some s') : P s' ↔ P s ∧ Meets step C s as := by
  induction as generalizing s with
  | nil =>
    obtain rfl : s = s' := by simpa using hrun
    simp
  | cons a as ih =>
    obtain ⟨s₁, h₁, hrest⟩ := (exec_cons_eq_some step).1 hrun
    rw [ih (hinv s a s₁ hI h₁) hrest, hstep s a s₁ hI h₁, meets_cons_iff step h₁, and_assoc]

/-- **The exact rule for every state on the way**: when a step from a state with `P` leads to one
with `P` if and only if it meets `C`, all states of a run have `P` if and only if all steps meet
`C`. -/
theorem always_iff {I P : σ → Prop} {C : σ → α → Prop}
    (hinv : ∀ s a s', I s → step s a = some s' → I s')
    (hstep : ∀ s a s', I s → P s → step s a = some s' → (P s' ↔ C s a)) {s s' : σ} {as : List α}
    (hI : I s) (hP : P s) (hrun : exec step s as = some s') :
    (∀ bs t, bs <+: as → exec step s bs = some t → P t) ↔ Meets step C s as := by
  induction as generalizing s with
  | nil =>
    refine iff_of_true (fun bs t hbs ht => ?_) trivial
    obtain rfl := List.prefix_nil.1 hbs
    obtain rfl : s = t := by simpa using ht
    exact hP
  | cons a as ih =>
    obtain ⟨s₁, h₁, hrest⟩ := (exec_cons_eq_some step).1 hrun
    have hC := hstep s a s₁ hI hP h₁
    rw [meets_cons_iff step h₁]
    constructor
    · intro hall
      have hP₁ : P s₁ := hall [a] s₁ ((List.prefix_cons_inj a).2 List.nil_prefix) (by simp [h₁])
      refine ⟨hC.1 hP₁, (ih (hinv s a s₁ hI h₁) hP₁ hrest).1 fun bs t hbs ht => ?_⟩
      exact hall (a :: bs) t ((List.prefix_cons_inj a).2 hbs)
        ((exec_cons_eq_some step).2 ⟨s₁, h₁, ht⟩)
    · rintro ⟨hCa, hCas⟩ bs t hbs ht
      cases bs with
      | nil =>
        obtain rfl : s = t := by simpa using ht
        exact hP
      | cons b bs =>
        obtain ⟨rfl, hbs'⟩ := List.cons_prefix_cons.1 hbs
        obtain ⟨s₂, h₂, ht⟩ := (exec_cons_eq_some step).1 ht
        obtain rfl : s₁ = s₂ := Option.some.inj (h₁.symm.trans h₂)
        exact (ih (hinv s b s₁ hI h₁) (hC.2 hCa) hrest).2 hCas bs t hbs' ht

/-- A system that every action is enabled in runs as the left fold of its step. -/
theorem exec_total (f : σ → α → σ) (s : σ) (as : List α) :
    exec (fun s a => some (f s a)) s as = some (as.foldl f s) := by
  induction as generalizing s with
  | nil => rfl
  | cons a as ih => simp only [exec_cons, Option.bind_some, ih, List.foldl_cons]

end Iax.Lts
