import Mathlib.Data.BitVec
import Mathlib.Data.List.Perm.Basic
import Mathlib.Data.List.Range
import Mathlib.Logic.Function.Iterate
import Mathlib.Algebra.Order.Group.Nat

/-!
# Windows of sequence numbers in slots

Sequence numbers of `w` bits are read relative to a head: `ahead h s` is how far `s` is ahead of
`h`, around the end if it has to be. Items that carry such a number wait in slots, a list for each,
until the head comes to their number: `pop` passes on what is in the head's slot and moves the head
by one.

A slot is shared by many numbers. `Ordered` says that the items are in their slots, less than
`size` ahead of the head, and that no number between the head and an item has the item's slot. A
`pop` then passes on exactly the items of the head (`Ordered.eq_head`) and leaves the others
`Ordered`.

* `Advance`: the head moves by `n`, and the items that it passes are passed on in the order of
  their numbers; `Advance.trans` composes two moves.
* `Ordered.advance_iterate`: `n` times `pop` is an `Advance` by `n`.
* `Accounted`: what was put into the slots is, up to order, what was passed on and what is left.
-/

namespace Iax

/-! ## Sequence numbers -/

section SeqNum

variable {w : ℕ} {h s : BitVec w} {n : ℕ}

/-- How far `s` is ahead of `h`. -/
def ahead (h s : BitVec w) : ℕ := (s - h).toNat

theorem ahead_lt (h s : BitVec w) : ahead h s < 2 ^ w := (s - h).isLt

theorem add_ahead (h s : BitVec w) : h + BitVec.ofNat w (ahead h s) = s := by
  rw [ahead, BitVec.ofNat_toNat, BitVec.setWidth_eq, BitVec.add_comm, BitVec.sub_add_cancel]

theorem ahead_add_ofNat (hn : n < 2 ^ w) : ahead h (h + BitVec.ofNat w n) = n := by
  rw [ahead, BitVec.add_comm, BitVec.add_sub_cancel, BitVec.toNat_ofNat, Nat.mod_eq_of_lt hn]

@[simp] theorem ahead_self (h : BitVec w) : ahead h h = 0 := by simp [ahead]

theorem ahead_eq_zero : ahead h s = 0 ↔ s = h := by
  refine ⟨fun h0 => ?_, fun hs => by rw [hs, ahead_self]⟩
  have hs := add_ahead h s
  rw [h0] at hs
  simpa using hs.symm

/-- Seen from `n` further on. -/
theorem ahead_add (hn : n ≤ ahead h s) : ahead (h + BitVec.ofNat w n) s = ahead h s - n := by
  have hs : s = h + BitVec.ofNat w n + BitVec.ofNat w (ahead h s - n) := by
    rw [BitVec.add_assoc, ← BitVec.ofNat_add, Nat.add_sub_cancel' hn, add_ahead]
  conv_lhs => rw [hs]
  exact ahead_add_ofNat ((Nat.sub_le ..).trans_lt (ahead_lt h s))

/-- Seen from `n` further back. -/
theorem ahead_of_add (hn : n + ahead (h + BitVec.ofNat w n) s < 2 ^ w) :
    ahead h s = n + ahead (h + BitVec.ofNat w n) s := by
  have hs : s = h + BitVec.ofNat w (n + ahead (h + BitVec.ofNat w n) s) := by
    rw [BitVec.ofNat_add, ← BitVec.add_assoc, add_ahead]
  conv_lhs => rw [hs]
  exact ahead_add_ofNat hn

end SeqNum

/-! ## Slots -/

/-- Items in slots, and what has been passed on. -/
structure SlotWindow (w : ℕ) (φ : Type*) where
  head : BitVec w
  slots : ℕ → List φ
  out : List φ

namespace SlotWindow

variable {w : ℕ} {φ : Type*} (key : φ → BitVec w) (slot : BitVec w → ℕ) (size : ℕ)

/-- The items that wait. -/
def stored (b : SlotWindow w φ) : List φ := (List.range size).flatMap b.slots

/-- The items of the head's slot are passed on. -/
def pop (b : SlotWindow w φ) : SlotWindow w φ where
  head := b.head + 1
  slots := Function.update b.slots (slot b.head) []
  out := b.out ++ b.slots (slot b.head)

/-- An item is put into its slot. -/
def put (b : SlotWindow w φ) (f : φ) : SlotWindow w φ :=
  { b with slots := Function.update b.slots (slot (key f)) (b.slots (slot (key f)) ++ [f]) }

/-- The items are in their slots and less than `size` ahead, and each is the next one that the
head finds in its slot. -/
structure Ordered (b : SlotWindow w φ) : Prop where
  slot_eq : ∀ i, ∀ f ∈ b.slots i, slot (key f) = i
  ahead_lt : ∀ i, ∀ f ∈ b.slots i, ahead b.head (key f) < size
  next : ∀ i, ∀ f ∈ b.slots i, ∀ k < ahead b.head (key f), slot (b.head + BitVec.ofNat w k) ≠ i

variable {key slot size} {b b' b'' : SlotWindow w φ}

theorem mem_stored {f : φ} : f ∈ b.stored size ↔ ∃ i < size, f ∈ b.slots i := by
  simp [stored, List.mem_flatMap]

theorem Ordered.of_empty (hb : ∀ i, b.slots i = []) : Ordered key slot size b where
  slot_eq i f hf := by simp [hb i] at hf
  ahead_lt i f hf := by simp [hb i] at hf
  next i f hf := by simp [hb i] at hf

/-- What is in the head's slot belongs to the head. -/
theorem Ordered.eq_head (h : Ordered key slot size b) {f : φ} (hf : f ∈ b.slots (slot b.head)) :
    key f = b.head := by
  rw [← ahead_eq_zero]
  by_contra hne
  refine h.next _ f hf 0 (Nat.pos_of_ne_zero hne) ?_
  simp

theorem Ordered.put (h : Ordered key slot size b) {f : φ} (hlt : ahead b.head (key f) < size)
    (hnext : ∀ k < ahead b.head (key f), slot (b.head + BitVec.ofNat w k) ≠ slot (key f)) :
    Ordered key slot size (b.put key slot f) := by
  have hcases {i : ℕ} {g : φ} (hg : g ∈ (b.put key slot f).slots i) :
      g ∈ b.slots i ∨ g = f ∧ i = slot (key f) := by
    simp only [SlotWindow.put] at hg
    by_cases hi : i = slot (key f)
    · subst hi
      rw [Function.update_self, List.mem_append, List.mem_singleton] at hg
      exact hg.imp_right fun hgf => ⟨hgf, rfl⟩
    · rw [Function.update_of_ne hi] at hg
      exact .inl hg
  constructor
  · intro i g hg
    obtain hg | ⟨rfl, rfl⟩ := hcases hg
    · exact h.slot_eq i g hg
    · rfl
  · intro i g hg
    obtain hg | ⟨rfl, rfl⟩ := hcases hg
    · exact h.ahead_lt i g hg
    · exact hlt
  · intro i g hg
    obtain hg | ⟨rfl, rfl⟩ := hcases hg
    · exact h.next i g hg
    · exact hnext

/-- What a `pop` leaves is what is ahead of the head. -/
theorem Ordered.slots_pop (h : Ordered key slot size b) (i : ℕ) :
    (b.pop slot).slots i = (b.slots i).filter fun f => 0 < ahead b.head (key f) := by
  simp only [SlotWindow.pop]
  by_cases hi : i = slot b.head
  · subst hi
    rw [Function.update_self, eq_comm, List.filter_eq_nil_iff]
    intro f hf
    simp [h.eq_head hf]
  · rw [Function.update_of_ne hi, eq_comm, List.filter_eq_self]
    intro f hf
    rw [decide_eq_true_iff]
    refine Nat.pos_of_ne_zero fun h0 => hi ?_
    rw [← h.slot_eq i f hf, ahead_eq_zero.1 h0]

theorem Ordered.mem_pop (h : Ordered key slot size b) {i : ℕ} {f : φ} :
    f ∈ (b.pop slot).slots i ↔ f ∈ b.slots i ∧ 0 < ahead b.head (key f) := by
  rw [h.slots_pop, List.mem_filter, decide_eq_true_iff]

theorem Ordered.ahead_pop {f : φ} (hpos : 0 < ahead b.head (key f)) :
    ahead (b.pop slot).head (key f) = ahead b.head (key f) - 1 := ahead_add hpos

theorem Ordered.pop (h : Ordered key slot size b) : Ordered key slot size (b.pop slot) := by
  constructor
  · intro i f hf
    exact h.slot_eq i f (h.mem_pop.1 hf).1
  · intro i f hf
    obtain ⟨hf, hpos⟩ := h.mem_pop.1 hf
    rw [ahead_pop hpos]
    exact (Nat.sub_le ..).trans_lt (h.ahead_lt i f hf)
  · intro i f hf k hk
    obtain ⟨hf, hpos⟩ := h.mem_pop.1 hf
    rw [ahead_pop hpos] at hk
    have hnext := h.next i f hf (1 + k) (by omega)
    rwa [BitVec.ofNat_add, ← BitVec.add_assoc] at hnext

theorem Ordered.iterate (h : Ordered key slot size b) (n : ℕ) :
    Ordered key slot size ((SlotWindow.pop slot)^[n] b) := by
  induction n with
  | zero => exact h
  | succ n ih =>
    rw [Function.iterate_succ_apply']
    exact ih.pop

theorem head_iterate (n : ℕ) (b : SlotWindow w φ) :
    ((SlotWindow.pop slot)^[n] b).head = b.head + BitVec.ofNat w n := by
  induction n with
  | zero => simp
  | succ n ih =>
    rw [Function.iterate_succ_apply', BitVec.ofNat_add, ← BitVec.add_assoc, ← ih]
    rfl

/-- What is left after `n` times `pop`. -/
theorem Ordered.slots_iterate (h : Ordered key slot size b) (n i : ℕ) :
    ((SlotWindow.pop slot)^[n] b).slots i =
      (b.slots i).filter fun f => n ≤ ahead b.head (key f) := by
  induction n with
  | zero => simp
  | succ n ih =>
    rw [Function.iterate_succ_apply', (h.iterate n).slots_pop, ih, List.filter_filter,
      head_iterate]
    refine List.filter_congr fun f _ => ?_
    rw [← Bool.decide_and, decide_eq_decide]
    refine ⟨fun ⟨hpos, hle⟩ => ?_, fun hlt => ⟨?_, by omega⟩⟩
    · rw [ahead_add hle] at hpos
      omega
    · rw [ahead_add (by omega)]
      omega

/-- What `n` times `pop` pass on: at each place of the head what is in its slot by then. -/
theorem Ordered.out_iterate (h : Ordered key slot size b) (n : ℕ) :
    ((SlotWindow.pop slot)^[n] b).out = b.out ++ (List.range n).flatMap fun i =>
      (b.slots (slot (b.head + BitVec.ofNat w i))).filter fun f => i ≤ ahead b.head (key f) := by
  induction n with
  | zero => simp
  | succ n ih =>
    have hhead : ((SlotWindow.pop slot)^[n] b).head = _ := head_iterate n b
    rw [Function.iterate_succ_apply', List.range_succ, List.flatMap_append, ← List.append_assoc,
      ← ih, List.flatMap_singleton, ← h.slots_iterate, ← hhead]
    rfl

/-! ## Moving on -/

variable (key)

/-- The head moves by `n`, and the items before its new place are passed on in their order. -/
structure Advance (b b' : SlotWindow w φ) (n : ℕ) : Prop where
  head : b'.head = b.head + BitVec.ofNat w n
  out : ∃ passed, b'.out = b.out ++ passed ∧
    passed.Pairwise (fun f g => ahead b.head (key f) ≤ ahead b.head (key g)) ∧
    ∀ f ∈ passed, ahead b.head (key f) < n

variable {key} {n m : ℕ}

theorem Advance.of_out_eq (hhead : b'.head = b.head + BitVec.ofNat w n) (hout : b'.out = b.out) :
    Advance key b b' n :=
  ⟨hhead, [], by rw [hout, List.append_nil], .nil, fun f hf => absurd hf List.not_mem_nil⟩

theorem Advance.refl (key : φ → BitVec w) (b : SlotWindow w φ) : Advance key b b 0 :=
  .of_out_eq (by simp) rfl

theorem Advance.trans (h : Advance key b b' n) (h' : Advance key b' b'' m) (hnm : n + m ≤ 2 ^ w) :
    Advance key b b'' (n + m) := by
  obtain ⟨passed, hout, hsorted, hlt⟩ := h.out
  obtain ⟨passed', hout', hsorted', hlt'⟩ := h'.out
  have hahead {f : φ} (hf : f ∈ passed') : ahead b.head (key f) = n + ahead b'.head (key f) := by
    have hm := hlt' f hf
    rw [h.head] at hm ⊢
    exact ahead_of_add (by omega)
  refine ⟨?_, passed ++ passed', ?_, ?_, ?_⟩
  · rw [h'.head, h.head, BitVec.ofNat_add, BitVec.add_assoc]
  · rw [hout', hout, List.append_assoc]
  · rw [List.pairwise_append]
    refine ⟨hsorted, hsorted'.imp_of_mem fun hf hg hle => ?_, fun f hf g hg => ?_⟩
    · rw [hahead hf, hahead hg]
      omega
    · rw [hahead hg]
      have hfn := hlt f hf
      omega
  · intro f hf
    obtain hf | hf := List.mem_append.1 hf
    · exact (hlt f hf).trans_le (Nat.le_add_right ..)
    · rw [hahead hf]
      have hfm := hlt' f hf
      omega

theorem Ordered.advance_pop (h : Ordered key slot size b) : Advance key b (b.pop slot) 1 := by
  refine ⟨rfl, b.slots (slot b.head), rfl, ?_, fun f hf => ?_⟩
  · refine List.pairwise_of_forall_mem_list fun f hf g hg => ?_
    rw [h.eq_head hf, h.eq_head hg]
  · rw [h.eq_head hf, ahead_self]
    exact Nat.one_pos

theorem Ordered.advance_iterate (h : Ordered key slot size b) (hn : n ≤ 2 ^ w) :
    Advance key b ((SlotWindow.pop slot)^[n] b) n := by
  induction n with
  | zero => exact .refl key b
  | succ n ih =>
    rw [Function.iterate_succ_apply']
    exact (ih (by omega)).trans (h.iterate n).advance_pop hn

/-- **Order.** What is passed on comes before what stays, when the window fits behind the move. -/
theorem Advance.lt_stored (h : Advance key b b' n) (h' : Ordered key slot size b')
    (hn : n + size ≤ 2 ^ w) {i : ℕ} {f : φ} (hf : f ∈ b'.slots i) : n ≤ ahead b.head (key f) := by
  have hsize := h'.ahead_lt i f hf
  rw [h.head] at hsize
  rw [ahead_of_add (n := n) (by omega)]
  exact Nat.le_add_right ..

/-! ## Accounting -/

/-- What was put in is what was passed on and what is left. -/
def Accounted (size : ℕ) (put : List φ) (b : SlotWindow w φ) : Prop :=
  put.Perm (b.out ++ b.stored size)

theorem flatMap_update {size i : ℕ} (hi : i < size) (slots : ℕ → List φ) (l : List φ) :
    ((List.range size).flatMap (Function.update slots i l)).Perm
      (l ++ ((List.range size).erase i).flatMap slots) := by
  have hperm := List.perm_cons_erase (List.mem_range.2 hi)
  refine (hperm.flatMap_right _).trans ?_
  rw [List.flatMap_cons, Function.update_self]
  refine List.Perm.append_left l (List.Perm.of_eq ?_)
  refine List.flatMap_congr fun j hj => ?_
  have hne : j ≠ i := (List.nodup_range.mem_erase_iff.1 hj).1
  rw [Function.update_of_ne hne]

theorem stored_perm {size i : ℕ} (hi : i < size) (b : SlotWindow w φ) :
    (b.stored size).Perm (b.slots i ++ ((List.range size).erase i).flatMap b.slots) := by
  have hperm := flatMap_update hi b.slots (b.slots i)
  rwa [Function.update_eq_self] at hperm

theorem Accounted.pop {put : List φ} (h : Accounted size put b) (hslot : slot b.head < size) :
    Accounted size put (b.pop slot) := by
  refine h.trans ?_
  have hrest := flatMap_update hslot b.slots []
  have hall := stored_perm hslot b
  simp only [stored, SlotWindow.pop, List.append_assoc] at hrest hall ⊢
  refine List.Perm.append_left _ (hall.trans (List.Perm.append_left _ ?_))
  exact hrest.symm

theorem Accounted.iterate {put : List φ} (h : Accounted size put b) (hslot : ∀ s, slot s < size)
    (n : ℕ) : Accounted size put ((SlotWindow.pop slot)^[n] b) := by
  induction n with
  | zero => exact h
  | succ n ih =>
    rw [Function.iterate_succ_apply']
    exact ih.pop (hslot _)

theorem Accounted.put {put : List φ} (h : Accounted size put b) (f : φ)
    (hslot : slot (key f) < size) : Accounted size (put ++ [f]) (b.put key slot f) := by
  have hrest := flatMap_update hslot b.slots (b.slots (slot (key f)) ++ [f])
  have hall := stored_perm hslot b
  refine (h.append_right [f]).trans ?_
  simp only [stored, SlotWindow.put, List.append_assoc] at hrest hall ⊢
  refine List.Perm.append_left _ ?_
  refine (hall.append_right [f]).trans (List.Perm.trans ?_ hrest.symm)
  rw [List.append_assoc]
  exact List.Perm.append_left _ List.perm_append_comm

end SlotWindow

end Iax
