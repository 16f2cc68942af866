import Iax.Lib.XorLinear
import Mathlib.Tactic.Linarith
import Mathlib.Tactic.Ring

/-!
# The payload of the injected packets

`random_packets` (`injection/random_packets.c`) fills a buffer with the bytes of a shift register and
sends packets whose payloads are to run through the buffer again and again. The place of a packet in
the buffer is computed with unsigned integers of 32 bits, and `2 ^ 32` is no multiple of the length
of the buffer.

* `sentPayload`: all payloads of a run, `stream`: the buffer repeated.
* `sentPayload_eq_stream_iff`: they are the same as long as neither product nor sum wraps around.
  That a wrap-around is seen rests on the bytes in the buffer, and so on the period of the register.
-/

namespace Iax.Injection

open XorLinear (IsXorLinear columns jump jump_columns)

/-! ## The generated buffer -/

/-- One step of the shift register. -/
def advanceLfsr (lfsr : BitVec 32) : BitVec 32 :=
  (lfsr <<< 1) |||
    (((lfsr >>> 31) ^^^ (lfsr >>> 29) ^^^ (lfsr >>> 25) ^^^ (lfsr >>> 24)) &&& 1#32)

/-- The loop of `generate_payloads`: the low byte after every eight steps. -/
def generatePayloads : ℕ → BitVec 32 → List (BitVec 8)
  | 0, _ => []
  | n + 1, lfsr => (advanceLfsr^[8] lfsr).setWidth 8 :: generatePayloads n (advanceLfsr^[8] lfsr)

/-- What the register starts from. -/
def seed : BitVec 32 := 0x1f3d5b79#32

/-- The register after byte `k`. -/
def registerAfter (k : ℕ) : BitVec 32 := advanceLfsr^[8 * (k + 1)] seed

/-- `payload_buffer`, of `PAYLOAD_SIZE` bytes. -/
def payloadBuffer : List (BitVec 8) := generatePayloads 2000000 seed

/-! ## The payloads -/

/-- `payload_memcpy`: `length` bytes of the buffer from `offset` on. -/
def payloadMemcpy (length offset : BitVec 32) : List (BitVec 8) :=
  (List.range length.toNat).map fun i =>
    payloadBuffer.getD ((offset + BitVec.ofNat 32 i) % 2000000#32).toNat 0

/-- The payload of packet `i`. -/
def packetPayload (packetSize i : BitVec 32) : List (BitVec 8) :=
  payloadMemcpy packetSize (i * packetSize % 2000000#32)

/-- The payloads of a run, one after the other, as they are copied into the packets. Not modelled is
`plen`, an `int` that holds `sizeof(*packet) + packet_size`: from `2 ^ 31 - 24` up it is negative,
and the first packet is not sent. -/
def sentPayload (numPackets packetSize : BitVec 32) : List (BitVec 8) :=
  (List.range numPackets.toNat).flatMap fun i => packetPayload packetSize (BitVec.ofNat 32 i)

/-- The first `n` bytes of the buffer repeated. -/
def stream (n : ℕ) : List (BitVec 8) :=
  (List.range n).map fun k => payloadBuffer.getD (k % 2000000) 0

/-! ## The shift register -/

section Register

theorem getLsbD_advanceLfsr_zero (x : BitVec 32) : (advanceLfsr x).getLsbD 0 =
    (((x.getLsbD 31 ^^ x.getLsbD 29) ^^ x.getLsbD 25) ^^ x.getLsbD 24) := by
  simp [advanceLfsr]

theorem getLsbD_advanceLfsr_succ (x : BitVec 32) (j : ℕ) (hj : j + 1 < 32) :
    (advanceLfsr x).getLsbD (j + 1) = x.getLsbD j := by
  have hlt : j < 32 := by omega
  simp [advanceLfsr, hj, BitVec.getLsbD_eq_getElem hlt]

theorem isXorLinear_advanceLfsr : IsXorLinear advanceLfsr := by
  intro x y
  apply BitVec.eq_of_getLsbD_eq
  intro j hj
  cases j with
  | zero =>
    simp only [BitVec.getLsbD_xor, getLsbD_advanceLfsr_zero, Bool.xor_assoc, Bool.xor_left_comm]
  | succ j => simp only [BitVec.getLsbD_xor, getLsbD_advanceLfsr_succ _ j hj]

/-- The step can be undone. -/
theorem advanceLfsr_injective : Function.Injective advanceLfsr := by
  intro x y h
  have hlow : ∀ j, j + 1 < 32 → x.getLsbD j = y.getLsbD j := by
    intro j hj
    rw [← getLsbD_advanceLfsr_succ x j hj, h, getLsbD_advanceLfsr_succ y j hj]
  have hzero : (advanceLfsr x).getLsbD 0 = (advanceLfsr y).getLsbD 0 := by rw [h]
  rw [getLsbD_advanceLfsr_zero, getLsbD_advanceLfsr_zero, hlow 29 (by omega), hlow 25 (by omega),
    hlow 24 (by omega)] at hzero
  apply BitVec.eq_of_getLsbD_eq
  intro j hj
  rcases Nat.lt_or_ge (j + 1) 32 with hlt | hge
  · exact hlow j hlt
  · obtain rfl : j = 31 := by omega
    simpa using hzero

/-- A run of the register moves the bits up. -/
theorem getLsbD_iterate_add (x : BitVec 32) (n j : ℕ) (hj : j + n < 32) :
    (advanceLfsr^[n] x).getLsbD (j + n) = x.getLsbD j := by
  induction n with
  | zero => rfl
  | succ n ih =>
    rw [Function.iterate_succ_apply', ← Nat.add_assoc,
      getLsbD_advanceLfsr_succ _ (j + n) (by omega), ih (by omega)]

theorem registerAfter_add (k n : ℕ) :
    registerAfter (k + n) = advanceLfsr^[8 * n] (registerAfter k) := by
  rw [registerAfter, registerAfter, ← Function.iterate_add_apply]
  congr 1
  ring

/-- Four bytes give the register. -/
theorem registerAfter_eq_of_bytes {a b : ℕ}
    (h : ∀ q < 4, (registerAfter (a + q)).setWidth 8 = (registerAfter (b + q)).setWidth 8) :
    registerAfter (a + 3) = registerAfter (b + 3) := by
  apply BitVec.eq_of_getLsbD_eq
  intro j hj
  -- bit `j` was bit `j % 8` when its byte was written
  have hbit : ∀ k, (registerAfter (k + 3)).getLsbD j =
      ((registerAfter (k + (3 - j / 8))).setWidth 8).getLsbD (j % 8) := by
    intro k
    have hback : k + 3 = k + (3 - j / 8) + j / 8 := by omega
    have hmoved := getLsbD_iterate_add (registerAfter (k + (3 - j / 8))) (8 * (j / 8)) (j % 8)
      (by omega)
    rw [← registerAfter_add, ← hback, Nat.mod_add_div] at hmoved
    rw [hmoved, BitVec.getLsbD_setWidth]
    simp [Nat.mod_lt]
  rw [hbit, hbit, h _ (by omega)]

/-- The register comes back after a number of bytes only if it comes back to the seed. -/
theorem iterate_seed_eq {a n : ℕ} (h : registerAfter (a + n) = registerAfter a) :
    advanceLfsr^[8 * n] seed = seed := by
  apply (advanceLfsr_injective.iterate (8 * (a + 1)))
  rw [← Function.iterate_add_apply]
  have hsum : 8 * (a + 1) + 8 * n = 8 * (a + n + 1) := by ring
  rw [hsum]
  exact h

end Register

/-! ## Two long runs of the register -/

section Jumps

/-- The number of bytes by which a wrap-around moves the place in the buffer: `2 ^ 32 % 2000000`. -/
def wrapShift : ℕ := 967296

theorem iterate_wrapShift : advanceLfsr^[8 * wrapShift] seed = 0x0e4d7e42#32 := by
  apply BitVec.eq_of_toNat_eq
  rw [← jump_columns isXorLinear_advanceLfsr 23 _ (by decide)]
  decide +kernel

/-- The same place, counted from the end of the buffer. -/
theorem iterate_sub_wrapShift :
    advanceLfsr^[8 * (2000000 - wrapShift)] seed = 0xeb989334#32 := by
  have hsplit : 8 * (2000000 - wrapShift) = 8 * 65408 + 8 * wrapShift := by decide
  rw [hsplit, Function.iterate_add_apply, iterate_wrapShift]
  apply BitVec.eq_of_toNat_eq
  rw [← jump_columns isXorLinear_advanceLfsr 19 _ (by decide)]
  decide +kernel

theorem registerAfter_wrapShift_add_ne (a : ℕ) :
    registerAfter (a + wrapShift) ≠ registerAfter a := by
  intro h
  have hseed := iterate_seed_eq h
  rw [iterate_wrapShift] at hseed
  exact absurd hseed (by decide)

theorem registerAfter_sub_wrapShift_add_ne (a : ℕ) :
    registerAfter (a + (2000000 - wrapShift)) ≠ registerAfter a := by
  intro h
  have hseed := iterate_seed_eq h
  rw [iterate_sub_wrapShift] at hseed
  exact absurd hseed (by decide)

end Jumps

/-! ## The buffer -/

section Buffer

theorem generatePayloads_getElem? (n k : ℕ) (hk : k < n) (lfsr : BitVec 32) :
    (generatePayloads n lfsr)[k]? = some ((advanceLfsr^[8 * (k + 1)] lfsr).setWidth 8) := by
  induction n generalizing k lfsr with
  | zero => omega
  | succ n ih =>
    cases k with
    | zero => rfl
    | succ k =>
      have hsum : 8 * (k + 1 + 1) = 8 * (k + 1) + 8 := by ring
      rw [generatePayloads, List.getElem?_cons_succ, ih k (by omega), hsum,
        Function.iterate_add_apply]

theorem payloadBuffer_getD (k : ℕ) (hk : k < 2000000) :
    payloadBuffer.getD k 0 = (registerAfter k).setWidth 8 := by
  rw [List.getD_eq_getElem?_getD, payloadBuffer, generatePayloads_getElem? _ _ hk]
  rfl

/-- Byte `k` after a wrap-around, from the register there. -/
theorem registerAfter_add_wrapShift (k : ℕ) :
    registerAfter (k + wrapShift) = advanceLfsr^[8 * (k + 1)] 0x0e4d7e42#32 := by
  have hsum : 8 * (k + wrapShift + 1) = 8 * (k + 1) + 8 * wrapShift := by ring
  rw [registerAfter, hsum, Function.iterate_add_apply, iterate_wrapShift]

/-- The first bytes of the buffer are not the same after a wrap-around. -/
theorem payloadBuffer_first_ne {k : ℕ} (hk : k = 0 ∨ k = 2) :
    payloadBuffer.getD k 0 ≠ payloadBuffer.getD (k + wrapShift) 0 := by
  rcases hk with rfl | rfl <;>
  · rw [payloadBuffer_getD _ (by decide), payloadBuffer_getD _ (by decide),
      registerAfter_add_wrapShift, registerAfter]
    decide

/-- Four bytes of the buffer, from `a` on, are not all the same after a wrap-around. -/
theorem payloadBuffer_window_ne {a b : ℕ} (ha : a + 3 < 2000000) (hb : b + 3 < 2000000)
    (hab : b = a + wrapShift ∨ a = b + (2000000 - wrapShift)) :
    ∃ q < 4, payloadBuffer.getD (a + q) 0 ≠ payloadBuffer.getD (b + q) 0 := by
  by_contra hall
  push Not at hall
  have hregister : registerAfter (a + 3) = registerAfter (b + 3) := by
    refine registerAfter_eq_of_bytes fun q hq => ?_
    rw [← payloadBuffer_getD _ (by omega), hall q hq, payloadBuffer_getD _ (by omega)]
  rcases hab with rfl | rfl
  · refine registerAfter_wrapShift_add_ne (a + 3) ?_
    rw [Nat.add_right_comm, hregister]
  · refine registerAfter_sub_wrapShift_add_ne (b + 3) ?_
    rw [Nat.add_right_comm, hregister]

end Buffer

/-! ## The payloads by bytes -/

section Bytes

/-- The place in the buffer of byte `j` of packet `i`, as it is computed. -/
def place (packetSize i j : ℕ) : ℕ := (i * packetSize % 2 ^ 32 % 2000000 + j) % 2 ^ 32 % 2000000

theorem packetPayload_eq (packetSize : BitVec 32) (i : ℕ) :
    packetPayload packetSize (BitVec.ofNat 32 i) = (List.range packetSize.toNat).map fun j =>
      payloadBuffer.getD (place packetSize.toNat i j) 0 := by
  rw [packetPayload, payloadMemcpy]
  refine List.map_congr_left fun j _ => ?_
  congr 1
  rw [BitVec.toNat_umod, BitVec.toNat_add, BitVec.toNat_ofNat, BitVec.toNat_umod, BitVec.toNat_mul,
    BitVec.toNat_ofNat, Nat.mod_mul_mod, Nat.add_mod_mod]
  rfl

/-- A list of `n * m` entries in `n` blocks. -/
theorem map_range_mul {α : Type*} (g : ℕ → α) (n m : ℕ) : (List.range (n * m)).map g =
    (List.range n).flatMap fun i => (List.range m).map fun j => g (i * m + j) := by
  induction n with
  | zero => simp
  | succ n ih =>
    rw [Nat.succ_mul, List.range_add, List.map_append, ih, List.range_succ, List.flatMap_append,
      List.map_map, List.flatMap_singleton]
    rfl

/-- Blocks of one length are the same when they are the same one by one. -/
theorem flatMap_range_eq_iff {α : Type*} {f g : ℕ → List α} (n : ℕ)
    (hlen : ∀ i, (f i).length = (g i).length) :
    (List.range n).flatMap f = (List.range n).flatMap g ↔ ∀ i < n, f i = g i := by
  induction n with
  | zero => simp
  | succ n ih =>
    rw [List.range_succ, List.flatMap_append, List.flatMap_append, List.flatMap_singleton,
      List.flatMap_singleton]
    constructor
    · intro h i hi
      obtain ⟨hinit, hlast⟩ := List.append_inj' h (hlen n)
      rcases Nat.lt_succ_iff_lt_or_eq.1 hi with hlt | rfl
      · exact (ih.1 hinit) i hlt
      · exact hlast
    · intro h
      rw [ih.2 fun i hi => h i (by omega), h n (Nat.lt_succ_self n)]

theorem sentPayload_eq_stream_iff_bytes (numPackets packetSize : BitVec 32) :
    sentPayload numPackets packetSize = stream (numPackets.toNat * packetSize.toNat) ↔
      ∀ i < numPackets.toNat, ∀ j < packetSize.toNat,
        payloadBuffer.getD (place packetSize.toNat i j) 0 =
          payloadBuffer.getD ((i * packetSize.toNat + j) % 2000000) 0 := by
  rw [sentPayload, stream, map_range_mul, flatMap_range_eq_iff _ fun i => by
    rw [packetPayload_eq, List.length_map, List.length_map]]
  refine forall₂_congr fun i _ => ?_
  rw [packetPayload_eq, List.map_inj_left]
  simp only [List.mem_range]

end Bytes

/-! ## Wrap-around -/

section WrapAround

variable {num size : ℕ}

/-- Neither the place of the last packet nor, in any packet but the first, the place of its last byte
is `2 ^ 32` or more before it is reduced. -/
def NoWrapAround (num size : ℕ) : Prop :=
  num ≤ 1 ∨ (num - 1) * size < 2 ^ 32 ∧ size % 2000000 + size ≤ 2 ^ 32

/-- Without a wrap-around the place is right. -/
theorem place_eq (h : NoWrapAround num size) (hsize : size < 2 ^ 32) {i j : ℕ} (hi : i < num)
    (hj : j < size) : place size i j = (i * size + j) % 2000000 := by
  have hfits : i * size < 2 ^ 32 ∧ i * size % 2000000 + j < 2 ^ 32 := by
    rcases h with hone | ⟨hlast, hsum⟩
    · obtain rfl : i = 0 := by omega
      omega
    · have hle : i * size ≤ (num - 1) * size := Nat.mul_le_mul_right _ (by omega)
      refine ⟨by omega, ?_⟩
      -- only a packet of half the range can come near its end, and then there are two at most
      rcases Nat.lt_or_ge i 2 with hfew | hmany
      · obtain rfl | rfl : i = 0 ∨ i = 1 := by omega
        · omega
        · rw [Nat.one_mul]
          omega
      · have htwo : 2 * size ≤ i * size := Nat.mul_le_mul_right _ hmany
        omega
  rw [place, Nat.mod_eq_of_lt hfits.1, Nat.mod_eq_of_lt hfits.2, Nat.mod_add_mod]

/-- The first packet whose place wraps around starts less than its length into the buffer. -/
theorem exists_first_wrapped (h : 2 ^ 32 ≤ (num - 1) * size) :
    ∃ i < num, ∃ start < size, i * size = 2 ^ 32 + start := by
  have hpos : 0 < size := by
    by_contra hzero
    obtain rfl : size = 0 := by omega
    omega
  -- the quotient rounded up
  obtain ⟨q, r, hr, hdiv⟩ : ∃ q r, r < size ∧ q * size + r = 2 ^ 32 - 1 :=
    ⟨_, _, Nat.mod_lt (2 ^ 32 - 1) hpos, Nat.div_add_mod' (2 ^ 32 - 1) size⟩
  have hlt : q < num - 1 := by
    by_contra hge
    have hle : (num - 1) * size ≤ q * size := Nat.mul_le_mul_right _ (Nat.not_lt.1 hge)
    omega
  have hsucc := Nat.succ_mul q size
  exact ⟨q + 1, by omega, size - 1 - r, by omega, by rw [hsucc]; omega⟩

/-- In such a packet the place is off by `wrapShift`. -/
theorem place_wrapped {i start j : ℕ} (hsize : size < 2 ^ 32) (hstart : start < size)
    (hi : i * size = 2 ^ 32 + start) (hj : j < 12) :
    place size i j = (start + j) % 2000000 ∧
      (i * size + j) % 2000000 = (start + j + wrapShift) % 2000000 := by
  rw [place, hi, wrapShift]
  omega

/-- Of three runs of four bytes, one has an end of the buffer inside it at neither place; in a short
packet that is the first. -/
theorem exists_window {start : ℕ} (hsize : 4 ≤ size) (hstart : start < size) :
    ∃ j ≤ 8, j + 3 < size ∧ (start + j) % 2000000 + 3 < 2000000 ∧
      (start + j + wrapShift) % 2000000 + 3 < 2000000 := by
  rw [wrapShift]
  rcases Nat.lt_or_ge size 12 with hshort | hlong
  · exact ⟨0, by omega, by omega, by omega, by omega⟩
  · by_contra hnone
    push Not at hnone
    have h0 := hnone 0 (by omega) (by omega)
    have h4 := hnone 4 (by omega) (by omega)
    have h8 := hnone 8 (by omega) (by omega)
    omega

/-- The payload of such a packet is wrong. -/
theorem exists_ne_of_wrapped {i start : ℕ} (hi : i < 2 ^ 32) (hsize : size < 2 ^ 32)
    (hstart : start < size) (hplace : i * size = 2 ^ 32 + start) :
    ∃ j < size, payloadBuffer.getD (place size i j) 0 ≠
      payloadBuffer.getD ((i * size + j) % 2000000) 0 := by
  rcases Nat.lt_or_ge size 4 with hshort | hlong
  · -- then it starts at the first or the third byte
    have hfirst : start = 0 ∨ start = 2 := by
      obtain rfl | rfl | rfl | rfl : size = 0 ∨ size = 1 ∨ size = 2 ∨ size = 3 := by omega
      all_goals omega
    obtain ⟨hcomputed, hright⟩ := place_wrapped hsize hstart hplace (show 0 < 12 by omega)
    refine ⟨0, by omega, ?_⟩
    rw [hcomputed, hright, Nat.add_zero, Nat.mod_eq_of_lt (by omega),
      Nat.mod_eq_of_lt (by rw [wrapShift]; omega)]
    exact payloadBuffer_first_ne hfirst
  · obtain ⟨j, hj, hjsize, ha, hb⟩ := exists_window hlong hstart
    have hshift : (start + j + wrapShift) % 2000000 = (start + j) % 2000000 + wrapShift ∨
        (start + j) % 2000000 = (start + j + wrapShift) % 2000000 + (2000000 - wrapShift) := by
      rw [wrapShift]
      omega
    obtain ⟨q, hq, hne⟩ := payloadBuffer_window_ne ha hb hshift
    refine ⟨j + q, by omega, ?_⟩
    obtain ⟨hcomputed, hright⟩ := place_wrapped hsize hstart hplace (show j + q < 12 by omega)
    have hcomputed' : place size i (j + q) = (start + j) % 2000000 + q := by
      rw [hcomputed]
      omega
    have hright' : (i * size + (j + q)) % 2000000 = (start + j + wrapShift) % 2000000 + q := by
      rw [hright]
      omega
    rwa [hcomputed', hright']

/-- In the second packet the sum wraps around. -/
theorem exists_ne_of_sum_wrapped (hsize : size < 2 ^ 32) (h : 2 ^ 32 < size % 2000000 + size) :
    ∃ j < size, payloadBuffer.getD (place size 1 j) 0 ≠
      payloadBuffer.getD ((1 * size + j) % 2000000) 0 := by
  refine ⟨2 ^ 32 - size % 2000000, by omega, ?_⟩
  have hcomputed : place size 1 (2 ^ 32 - size % 2000000) = 0 := by
    rw [place]
    omega
  have hright : (1 * size + (2 ^ 32 - size % 2000000)) % 2000000 = 0 + wrapShift := by
    rw [wrapShift]
    omega
  rw [hcomputed, hright]
  exact payloadBuffer_first_ne (.inl rfl)

end WrapAround

/-- **The payload of a run** is the buffer repeated exactly when no place wraps around. -/
theorem sentPayload_eq_stream_iff (numPackets packetSize : BitVec 32) :
    sentPayload numPackets packetSize = stream (numPackets.toNat * packetSize.toNat) ↔
      NoWrapAround numPackets.toNat packetSize.toNat := by
  rw [sentPayload_eq_stream_iff_bytes]
  constructor
  · intro h
    by_contra hwrap
    unfold NoWrapAround at hwrap
    push Not at hwrap
    obtain ⟨hmany, hlast⟩ := hwrap
    rcases Nat.lt_or_ge ((numPackets.toNat - 1) * packetSize.toNat) (2 ^ 32) with hlt | hge
    · obtain ⟨j, hj, hne⟩ := exists_ne_of_sum_wrapped packetSize.isLt (hlast hlt)
      exact hne (h 1 hmany j hj)
    · obtain ⟨i, hi, start, hstart, hplace⟩ := exists_first_wrapped hge
      have hi32 : i < 2 ^ 32 := hi.trans numPackets.isLt
      obtain ⟨j, hj, hne⟩ := exists_ne_of_wrapped hi32 packetSize.isLt hstart hplace
      exact hne (h i hi j hj)
  · intro h i hi j hj
    rw [place_eq h packetSize.isLt hi hj]

/-- The last of 2097153 packets of 2048 bytes starts `2 ^ 32` bytes into the stream. -/
theorem sentPayload_wrapped :
    sentPayload 2097153#32 2048#32 ≠ stream (2097153 * 2048) := by
  intro h
  have hbytes := (sentPayload_eq_stream_iff_bytes 2097153#32 2048#32).1 h 2097152 (by decide) 0
    (by decide)
  exact payloadBuffer_first_ne (.inl rfl) hbytes

end Iax.Injection
