import Mathlib.Data.List.Range
import Mathlib.Data.List.Nodup
import Mathlib.Data.List.Rotate

/-!
# Indices into a ring

A ring of `N` slots with a read index and a write index, both of which go round: slot `k % N` is
the place of the `k`-th entry. While the entries between the two are fewer than `N`, the two
indices say everything about the two counts `R ≤ W` of what was read and written.

* `slots N start stop`: the slots from `start` up to `stop`, as a loop visits them
  (`slots_self`, `slots_cons`).
* `slots_mod`: from `R % N` up to `W % N` these are the slots of the entries `R` up to `W`.
* `eq_mod_iff`, `succ_mod_iff`: the ring is empty when the indices agree, and full when the write
  index is one behind the read index.
* `around_window_perm`: whoever reads a list round and round reads each entry once a round.
-/

namespace Iax.Ring

/-- The slots from `start` up to `stop`, going round at `N`. -/
def slots (N start stop : ℕ) : List ℕ :=
  (List.range ((stop + N - start) % N)).map fun k => (start + k) % N

variable {N R W : ℕ}

@[simp] theorem slots_self (N i : ℕ) : slots N i i = [] := by
  simp [slots]

theorem add_mod_eq {d : ℕ} (hd : d < N) :
    (R + d) % N = if R % N + d < N then R % N + d else R % N + d - N := by
  have hR : R % N < N := Nat.mod_lt _ (by omega)
  rw [← Nat.mod_add_mod]
  split
  · exact Nat.mod_eq_of_lt (by assumption)
  · rw [Nat.mod_eq_sub_mod (by omega), Nat.mod_eq_of_lt (by omega)]

/-- The number of entries between the two indices. -/
theorem dist_mod (hle : R ≤ W) (hlt : W < R + N) : (W % N + N - R % N) % N = W - R := by
  obtain ⟨d, rfl⟩ := Nat.exists_eq_add_of_le hle
  have hR : R % N < N := Nat.mod_lt _ (by omega)
  rw [add_mod_eq (by omega)]
  split
  · rw [show R % N + d + N - R % N = d + N by omega, Nat.add_mod_right, Nat.mod_eq_of_lt (by omega)]
    omega
  · rw [show R % N + d - N + N - R % N = d by omega, Nat.mod_eq_of_lt (by omega)]
    omega

/-- **The slots between the indices** are those of the entries between the counts. -/
theorem slots_mod (hle : R ≤ W) (hlt : W < R + N) :
    slots N (R % N) (W % N) = (List.range' R (W - R)).map (· % N) := by
  rw [slots, dist_mod hle hlt, List.range'_eq_map_range, List.map_map]
  exact List.map_congr_left fun k _ => Nat.mod_add_mod ..

/-- Two entries less than a round apart have different slots. -/
theorem mod_inj {k l : ℕ} (hk : R ≤ k) (hk' : k < R + N) (hl : R ≤ l) (hl' : l < R + N)
    (h : k % N = l % N) : k = l := by
  obtain ⟨a, rfl⟩ := Nat.exists_eq_add_of_le hk
  obtain ⟨b, rfl⟩ := Nat.exists_eq_add_of_le hl
  have hR : R % N < N := Nat.mod_lt _ (by omega)
  rw [add_mod_eq (by omega), add_mod_eq (by omega)] at h
  split at h <;> split at h <;> omega

theorem eq_mod_iff (hle : R ≤ W) (hlt : W < R + N) : R % N = W % N ↔ R = W :=
  ⟨mod_inj le_rfl (by omega) hle hlt, congrArg (· % N)⟩

/-- The ring is full when there is room for no entry besides the one slot kept free. -/
theorem succ_mod_iff (hle : R ≤ W) (hlt : W < R + N) : (W % N + 1) % N = R % N ↔ W + 1 = R + N := by
  rw [Nat.mod_add_mod]
  constructor
  · intro h
    rcases Nat.lt_or_ge (W + 1) (R + N) with h' | h'
    · have := mod_inj (R := R) le_rfl (by omega) (by omega) h' h.symm
      omega
    · omega
  · intro h
    rw [h, Nat.add_mod_right]

theorem mem_slots_mod {i : ℕ} (hle : R ≤ W) (hlt : W < R + N) :
    i ∈ slots N (R % N) (W % N) ↔ ∃ k, R ≤ k ∧ k < W ∧ k % N = i := by
  rw [slots_mod hle hlt, List.mem_map]
  simp only [List.mem_range'_1, Nat.add_sub_cancel' hle, and_assoc]

/-- Two indices are those of two counts less than a round apart. -/
theorem exists_count {start stop : ℕ} (hstart : start < N) (hstop : stop < N) :
    ∃ W, start ≤ W ∧ W < start + N ∧ W % N = stop := by
  rcases Nat.lt_or_ge stop start with h | h
  · exact ⟨stop + N, by omega, by omega, by rw [Nat.add_mod_right, Nat.mod_eq_of_lt hstop]⟩
  · exact ⟨stop, h, by omega, Nat.mod_eq_of_lt hstop⟩

/-- A loop over the slots visits its first one, and goes on behind it. -/
theorem slots_cons {start stop : ℕ} (hstart : start < N) (hstop : stop < N) (hne : start ≠ stop) :
    slots N start stop = start :: slots N ((start + 1) % N) stop := by
  obtain ⟨W, hle, hlt, rfl⟩ := exists_count hstart hstop
  have hlt' : start < W := by
    refine lt_of_le_of_ne hle ?_
    rintro rfl
    exact hne (Nat.mod_eq_of_lt hstart).symm
  have hfirst : slots N start (W % N) = slots N (start % N) (W % N) := by
    rw [Nat.mod_eq_of_lt hstart]
  rw [hfirst, slots_mod hle hlt, slots_mod hlt' (by omega),
    show W - start = (W - (start + 1)) + 1 by omega, List.range'_succ, List.map_cons,
    Nat.mod_eq_of_lt hstart]

/-- The slot at the write index comes last when the index moves on. -/
theorem slots_concat {start stop : ℕ} (hstart : start < N) (hstop : stop < N)
    (hne : (stop + 1) % N ≠ start) :
    slots N start ((stop + 1) % N) = slots N start stop ++ [stop] := by
  obtain ⟨W, hle, hlt, rfl⟩ := exists_count hstart hstop
  have hstart' : start % N = start := Nat.mod_eq_of_lt hstart
  have hroom : W + 1 ≠ start + N := fun h =>
    hne (((succ_mod_iff hle hlt).2 h).trans hstart')
  rw [Nat.mod_add_mod, ← hstart', slots_mod (by omega) (by omega), slots_mod hle hlt,
    show W + 1 - start = W - start + 1 by omega, List.range'_1_concat, List.map_append,
    show start + (W - start) = W by omega]
  rfl

/-- The slot at the write index is free. -/
theorem stop_notMem_slots {start stop : ℕ} (hstart : start < N) (hstop : stop < N) :
    stop ∉ slots N start stop := by
  obtain ⟨W, hle, hlt, rfl⟩ := exists_count hstart hstop
  intro hmem
  rw [← Nat.mod_eq_of_lt hstart, mem_slots_mod hle hlt] at hmem
  obtain ⟨k, hk, hkW, hmod⟩ := hmem
  exact hkW.ne (mod_inj hk (by omega) hle hlt hmod)

/-! ## Going round a list -/

section Around

variable {α : Type*}

/-- The first `n` entries that are read when a ring of `N` slots that holds `xs` is read round and
round. -/
def around (N : ℕ) (xs : List α) (n : ℕ) : List (Option α) :=
  (List.range n).map fun j => xs[j % N]?

@[simp] theorem length_around (N : ℕ) (xs : List α) (n : ℕ) : (around N xs n).length = n := by
  simp [around]

theorem around_succ (N : ℕ) (xs : List α) (n : ℕ) :
    around N xs (n + 1) = around N xs n ++ [xs[n % N]?] := by
  simp [around, List.range_succ]

/-- **One round reads everything once**, wherever it begins. -/
theorem around_window_perm {xs : List α} {n : ℕ} {window : List (Option α)}
    (h : window <:+: around xs.length xs n) (hlen : window.length = xs.length) :
    window.Perm (xs.map some) := by
  obtain ⟨before, after, h⟩ := h
  have hlength := congrArg List.length h
  simp only [List.length_append, length_around] at hlength
  suffices hrotate : window = (xs.map some).rotate before.length from
    hrotate ▸ List.rotate_perm _ _
  refine List.ext_getElem (by simp [hlen]) fun k hk hk' => ?_
  have hin : before.length + k < (around xs.length xs n).length := by
    rw [length_around]
    omega
  have hread : window[k] = (around xs.length xs n)[before.length + k] := by
    simp only [← h]
    rw [List.getElem_append_left (by simp; omega), List.getElem_append_right (by omega)]
    simp
  rw [hread, List.getElem_rotate]
  simp [around, Nat.add_comm]

end Around

end Iax.Ring
