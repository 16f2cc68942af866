import Mathlib.Data.List.Forall2
import Mathlib.Data.List.Perm.Basic

/-!
# Lists related entry by entry

A list that is put together from parts is related to a list with parts to match.

* `exists_append`, `exists_flatten`: the parts of a concatenation.
* `exists_perm`: a list in another order.
* `comp`: a chain of relations.
-/

namespace Iax.Related

variable {α β γ : Type*} {R : α → β → Prop}

theorem exists_append {as as' : List α} {bs : List β} (h : List.Forall₂ R (as ++ as') bs) :
    ∃ cs cs', bs = cs ++ cs' ∧ List.Forall₂ R as cs ∧ List.Forall₂ R as' cs' := by
  induction as generalizing bs with
  | nil => exact ⟨[], bs, rfl, .nil, h⟩
  | cons a as ih =>
    cases h with
    | cons hab h =>
      obtain ⟨cs, cs', rfl, hcs, hcs'⟩ := ih h
      exact ⟨_ :: cs, cs', rfl, .cons hab hcs, hcs'⟩

/-- The parts of a concatenation of many, of which each is that of an `x`. -/
theorem exists_flatten {S : γ → List α → Prop} {xs : List γ} {ass : List (List α)}
    (hS : List.Forall₂ S xs ass) {bs : List β} (h : List.Forall₂ R ass.flatten bs) :
    ∃ bss, bs = bss.flatten ∧
      List.Forall₂ (fun x cs => ∃ as, S x as ∧ List.Forall₂ R as cs) xs bss := by
  induction hS generalizing bs with
  | nil =>
    cases h
    exact ⟨[], rfl, .nil⟩
  | cons hx _ ih =>
    rw [List.flatten_cons] at h
    obtain ⟨cs, cs', rfl, hcs, hcs'⟩ := exists_append h
    obtain ⟨bss, rfl, hbss⟩ := ih hcs'
    exact ⟨cs :: bss, rfl, .cons ⟨_, hx, hcs⟩ hbss⟩

/-- Lists put together from related parts are related. -/
theorem flatten {ass : List (List α)} {bss : List (List β)}
    (h : List.Forall₂ (List.Forall₂ R) ass bss) : List.Forall₂ R ass.flatten bss.flatten := by
  induction h with
  | nil => exact .nil
  | cons hab _ ih =>
    rw [List.flatten_cons, List.flatten_cons]
    exact List.rel_append hab ih

/-- In another order. -/
theorem exists_perm {as as' : List α} {bs : List β} (hperm : as.Perm as')
    (h : List.Forall₂ R as bs) : ∃ bs', bs'.Perm bs ∧ List.Forall₂ R as' bs' := by
  obtain ⟨bs', hbs', hp⟩ := List.perm_comp_forall₂ hperm.symm h
  exact ⟨bs', hp, hbs'⟩

/-- What holds of each entry because of the one it is related to. -/
theorem forall_mem_right {P : β → Prop} {as : List α} {bs : List β} (h : List.Forall₂ R as bs)
    (hP : ∀ a ∈ as, ∀ b, R a b → P b) : ∀ b ∈ bs, P b := by
  induction h with
  | nil => exact fun b hb => absurd hb List.not_mem_nil
  | cons hab _ ih =>
    obtain ⟨ha, has⟩ := List.forall_mem_cons.1 hP
    exact List.forall_mem_cons.2 ⟨ha _ hab, ih has⟩

/-- One relation after another. -/
theorem comp {S : β → γ → Prop} {T : α → γ → Prop} {as : List α} {bs : List β} {cs : List γ}
    (hR : List.Forall₂ R as bs) (hS : List.Forall₂ S bs cs)
    (hT : ∀ a ∈ as, ∀ b c, R a b → S b c → T a c) : List.Forall₂ T as cs := by
  induction hR generalizing cs with
  | nil =>
    cases hS
    exact .nil
  | cons hab _ ih =>
    obtain ⟨ha, has⟩ := List.forall_mem_cons.1 hT
    cases hS with
    | cons hbc hS => exact .cons (ha _ _ hab hbc) (ih hS has)

end Iax.Related
