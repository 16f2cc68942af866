import Mathlib.Data.List.Infix
import Mathlib.Data.List.Flatten

/-!
# Streams of frames

What a stream may carry of a list of frames that were handed over one after another, when some may
have been dropped.

* `Whole fs bs`: `bs` is a concatenation of frames of `fs`, in their order.
* `Cut fs bs`: so it is up to the last frame, of which only the beginning is there.
* `whole_or_cut_of_isPrefix`: what is lost at the end of a stream leaves it of one of these forms.
* `take_flatMap`: the beginning of a stream of records is the records that lie in it (`recordsIn`)
  and what is left of the next one (`leftover`).
-/

namespace Iax.Streams

variable {α : Type*} {fs fs' : List (List α)} {f part bs bs' : List α}

/-- A concatenation of some of the frames. -/
def Whole (fs : List (List α)) (bs : List α) : Prop :=
  ∃ gs : List (List α), gs.Sublist fs ∧ bs = gs.flatten

/-- A concatenation of some of the frames, and the beginning of a later one. -/
def Cut (fs : List (List α)) (bs : List α) : Prop :=
  ∃ (gs : List (List α)) (f part : List α), (gs ++ [f]).Sublist fs ∧ part <+: f ∧
    bs = gs.flatten ++ part

theorem whole_nil (fs : List (List α)) : Whole fs [] := ⟨[], List.nil_sublist fs, rfl⟩

theorem Whole.mono (h : Whole fs bs) (hsub : fs.Sublist fs') : Whole fs' bs := by
  obtain ⟨gs, hgs, rfl⟩ := h
  exact ⟨gs, hgs.trans hsub, rfl⟩

theorem Cut.mono (h : Cut fs bs) (hsub : fs.Sublist fs') : Cut fs' bs := by
  obtain ⟨gs, f, part, hgs, hpart, rfl⟩ := h
  exact ⟨gs, f, part, hgs.trans hsub, hpart, rfl⟩

/-- A frame more. -/
theorem Whole.concat (h : Whole fs bs) (f : List α) : Whole (fs ++ [f]) (bs ++ f) := by
  obtain ⟨gs, hgs, rfl⟩ := h
  exact ⟨gs ++ [f], hgs.append (List.Sublist.refl [f]), by simp⟩

/-- The beginning of a frame more. -/
theorem Whole.cut (h : Whole fs bs) (hpart : part <+: f) : Cut (fs ++ [f]) (bs ++ part) := by
  obtain ⟨gs, hgs, rfl⟩ := h
  exact ⟨gs, f, part, hgs.append (List.Sublist.refl [f]), hpart, rfl⟩

section Map

variable {β : Type*} {g : β → List α} {xs : List β}

theorem whole_map_iff :
    Whole (xs.map g) bs ↔ ∃ ys : List β, ys.Sublist xs ∧ bs = ys.flatMap g := by
  constructor
  · rintro ⟨gs, hgs, rfl⟩
    obtain ⟨ys, hys, rfl⟩ := List.sublist_map_iff.1 hgs
    exact ⟨ys, hys, (List.flatMap_def ..).symm⟩
  · rintro ⟨ys, hys, rfl⟩
    exact ⟨ys.map g, hys.map g, List.flatMap_def ..⟩

theorem cut_map_iff :
    Cut (xs.map g) bs ↔ ∃ (ys : List β) (y : β) (part : List α), (ys ++ [y]).Sublist xs ∧
      part <+: g y ∧ bs = ys.flatMap g ++ part := by
  constructor
  · rintro ⟨gs, f, part, hgs, hpart, rfl⟩
    obtain ⟨ys, hys, heq⟩ := List.sublist_map_iff.1 hgs
    obtain ⟨ys, ys', rfl, rfl, heq'⟩ := List.append_eq_map_iff.1 heq
    obtain ⟨y, zs, rfl, rfl, hzs⟩ := List.map_eq_cons_iff.1 heq'
    obtain rfl := List.map_eq_nil_iff.1 hzs
    exact ⟨ys, y, part, hys, hpart, by rw [List.flatMap_def]⟩
  · rintro ⟨ys, y, part, hys, hpart, rfl⟩
    refine ⟨ys.map g, g y, part, ?_, hpart, by rw [List.flatMap_def]⟩
    simpa using hys.map g

end Map

/-- The beginning of a concatenation ends between two of its parts or inside one. -/
theorem isPrefix_flatten {gs : List (List α)} (h : bs <+: gs.flatten) :
    (∃ hs, hs <+: gs ∧ bs = hs.flatten) ∨
      ∃ hs f part, hs ++ [f] <+: gs ∧ part <+: f ∧ bs = hs.flatten ++ part := by
  induction gs generalizing bs with
  | nil => exact .inl ⟨[], List.prefix_rfl, List.prefix_nil.1 h⟩
  | cons g gs ih =>
    rw [List.flatten_cons] at h
    rcases List.prefix_or_prefix_of_prefix h (List.prefix_append g gs.flatten) with hg | ⟨bs', rfl⟩
    · exact .inr ⟨[], g, bs, by simp, hg, rfl⟩
    · rw [List.prefix_append_right_inj] at h
      rcases ih h with ⟨hs, hhs, rfl⟩ | ⟨hs, f, part, hhs, hpart, rfl⟩
      · exact .inl ⟨g :: hs, by simpa using hhs, rfl⟩
      · exact .inr ⟨g :: hs, f, part, by simpa using hhs, hpart, by simp⟩

/-- **What is left of a stream** when its end is lost. -/
theorem whole_or_cut_of_isPrefix (h : Whole fs bs ∨ Cut fs bs) (hpre : bs' <+: bs) :
    Whole fs bs' ∨ Cut fs bs' := by
  -- in both cases the stream is the beginning of a concatenation of frames
  obtain ⟨gs, hgs, hbs⟩ : ∃ gs : List (List α), gs.Sublist fs ∧ bs' <+: gs.flatten := by
    rcases h with ⟨gs, hgs, rfl⟩ | ⟨gs, f, part, hgs, hpart, rfl⟩
    · exact ⟨gs, hgs, hpre⟩
    · refine ⟨gs ++ [f], hgs, hpre.trans ?_⟩
      simpa using hpart
  rcases isPrefix_flatten hbs with ⟨hs, hhs, rfl⟩ | ⟨hs, f, part, hhs, hpart, rfl⟩
  · exact .inl ⟨hs, hhs.sublist.trans hgs, rfl⟩
  · exact .inr ⟨hs, f, part, hhs.sublist.trans hgs, hpart, rfl⟩

section Prefix

variable {β : Type*} (g : β → List α)

/-- The records that lie in the first `n` elements of the stream. -/
def recordsIn : ℕ → List β → List β
  | _, [] => []
  | n, x :: xs => if (g x).length ≤ n then x :: recordsIn (n - (g x).length) xs else []

/-- What the first `n` elements of the stream hold of the record behind those. -/
def leftover : ℕ → List β → List α
  | _, [] => []
  | n, x :: xs => if (g x).length ≤ n then leftover (n - (g x).length) xs else (g x).take n

theorem recordsIn_isPrefix (n : ℕ) (xs : List β) : recordsIn g n xs <+: xs := by
  induction xs generalizing n with
  | nil => exact List.prefix_rfl
  | cons x xs ih =>
    rw [recordsIn]
    split
    · exact List.cons_prefix_cons.2 ⟨rfl, ih _⟩
    · exact List.nil_prefix

/-- **The beginning of a stream of records.** -/
theorem take_flatMap (n : ℕ) (xs : List β) :
    (xs.flatMap g).take n = (recordsIn g n xs).flatMap g ++ leftover g n xs := by
  induction xs generalizing n with
  | nil => simp [recordsIn, leftover]
  | cons x xs ih =>
    rw [List.flatMap_cons, recordsIn, leftover]
    split
    · rename_i hle
      rw [List.take_append, List.take_of_length_le hle, ih, List.flatMap_cons, List.append_assoc]
    · rename_i hlt
      rw [List.take_append_of_le_length (by omega)]
      rfl

/-- What is left is the beginning of a record, and not all of it. -/
theorem leftover_cut (n : ℕ) (xs : List β) :
    leftover g n xs = [] ∨
      ∃ x ∈ xs, ∃ k < (g x).length, leftover g n xs = (g x).take k := by
  induction xs generalizing n with
  | nil => exact .inl rfl
  | cons x xs ih =>
    rw [leftover]
    split
    · rcases ih (n - (g x).length) with hnil | ⟨y, hy, hcut⟩
      · exact .inl hnil
      · exact .inr ⟨y, List.mem_cons_of_mem x hy, hcut⟩
    · rename_i hlt
      exact .inr ⟨x, List.mem_cons_self, n, by omega, rfl⟩

/-- A stream that is all there has nothing left over. -/
theorem recordsIn_of_length_le {n : ℕ} {xs : List β} (h : (xs.flatMap g).length ≤ n) :
    recordsIn g n xs = xs ∧ leftover g n xs = [] := by
  induction xs generalizing n with
  | nil => exact ⟨rfl, rfl⟩
  | cons x xs ih =>
    rw [List.flatMap_cons, List.length_append] at h
    obtain ⟨hin, hleft⟩ := ih (n := n - (g x).length) (by omega)
    rw [recordsIn, leftover, if_pos (by omega), if_pos (by omega), hin]
    exact ⟨rfl, hleft⟩

end Prefix

end Iax.Streams
