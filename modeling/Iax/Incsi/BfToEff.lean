import Iax.Incsi.Bfee

/-!
# The unpackers of the effective SNR computation

`bf_to_eff.c` unpacks the same payload as `read_bfee`, with one function for each supported number
of antennas. Each loads a window of words at the current byte, shifts it down by the current bit
remainder and takes the entries as the bytes of the window.

* `slide` is their common loop; `compute11Csi`, `compute31Csi`, `compute32Csi`, `compute33Csi` are
  its instances, up to the array `csi` that they fill. The floating point part is left out.
* `slide_eq`: the byte and bit position of row `i` are those of the `i`-th subcarrier.
* `computeCsi_append`, `computeCsi_agrees`: every entry is that of `read_bfee`, whatever bytes the
  loads find behind the payload.
-/

namespace Iax.Incsi

open Bytes BitWindow

/-! ## The unpackers -/

/-- The loop over `k` subcarriers: a window of `words` words of `b` bytes at byte `indexByte`,
shifted down by `indexRem` bits, gives `entries` signed bytes. -/
def slide (b words sizeByte sizeRem entries : ℕ) (payload : Bytes) :
    ℕ → ℕ → ℕ → Option (List (List ℤ))
  | 0, _, _ => some []
  | k + 1, indexByte, indexRem => do
    let cur ← load b payload words indexByte
    let cur := if indexRem ≠ 0 then shiftDown indexRem cur else cur
    let row := (List.range entries).map fun j => signed 8 ((memory cur).getD j 0).toNat
    let rest ←
      if indexRem + sizeRem > 7 then
        slide b words sizeByte sizeRem entries payload k (indexByte + sizeByte + 1)
          (indexRem + sizeRem - 8)
      else
        slide b words sizeByte sizeRem entries payload k (indexByte + sizeByte)
          (indexRem + sizeRem)
    return row :: rest

/-- The common shape of the unpackers: `size` bits for a subcarrier, beginning behind its 3 bits
of padding. -/
def slideCsi (b words entries : ℕ) (payload : Bytes) : Option (List (List ℤ)) :=
  let size := entries * 8 + 3
  slide b words (size / 8) (size % 8) entries payload 30 0 3

/-- `compute_11`: get 4 bytes, need 2. -/
def compute11Csi (payload : Bytes) : Option (List (List ℤ)) := slideCsi 4 1 (1 * 1 * 2) payload

/-- `compute_31`: get 8 bytes, need 6. -/
def compute31Csi (payload : Bytes) : Option (List (List ℤ)) := slideCsi 8 1 (3 * 1 * 2) payload

/-- `compute_32`: get 16 bytes, need 12. -/
def compute32Csi (payload : Bytes) : Option (List (List ℤ)) := slideCsi 8 2 (3 * 2 * 2) payload

/-- `compute_33`: get 24 bytes, need 18. -/
def compute33Csi (payload : Bytes) : Option (List (List ℤ)) := slideCsi 8 3 (3 * 3 * 2) payload

/-- The unpacker that `calc_eff_snrs` chooses: with a number of antennas that it does not support
there is none. -/
def computeCsi (nrx ntx : ℕ) (payload : Bytes) : Option (List (List ℤ)) :=
  if ¬ (nrx = 3 ∨ nrx = 1 ∧ ntx = 1) then none
  else if nrx = 1 ∧ ntx = 1 then compute11Csi payload
  else if ntx = 1 then compute31Csi payload
  else if ntx = 2 then compute32Csi payload
  else if ntx = 3 then compute33Csi payload
  else none

/-- The length that an unpacker's loads reach: its window at the byte of the last subcarrier. -/
def slideLen (windowBytes entries : ℕ) : ℕ := (29 * (entries * 8 + 3) + 3) / 8 + windowBytes

/-! ## What the loop reads -/

/-- The row of subcarrier `i`. -/
def slideRow (payload : Bytes) (entries i : ℕ) : List ℤ :=
  (List.range entries).map fun j =>
    signed 8 (bitsAt payload (i * (entries * 8 + 3) + 3 + 8 * j))

/-- **All subcarriers.** The invariant of the loop: `indexByte` and `indexRem` are the byte and the
bit of the first entry of subcarrier `i`. -/
theorem slide_eq {b words entries : ℕ} (hb : 0 < b) (hwin : 8 * entries + 7 ≤ 8 * (words * b))
    (payload : Bytes) (k i indexByte indexRem : ℕ) (hrem : indexRem < 8)
    (hpos : 8 * indexByte + indexRem = i * (entries * 8 + 3) + 3)
    (hlen : k = 0 ∨
      ((i + (k - 1)) * (entries * 8 + 3) + 3) / 8 + words * b ≤ payload.length) :
    slide b words ((entries * 8 + 3) / 8) ((entries * 8 + 3) % 8) entries payload k indexByte
        indexRem =
      some ((List.range' i k).map (slideRow payload entries)) := by
  induction k generalizing i indexByte indexRem with
  | zero => rfl
  | succ k ih =>
    have hlast : ((i + k) * (entries * 8 + 3) + 3) / 8 + words * b ≤ payload.length := by
      simpa using hlen
    have hmono : i * (entries * 8 + 3) ≤ (i + k) * (entries * 8 + 3) :=
      Nat.mul_le_mul_right _ (by omega)
    have hsucc : (i + 1) * (entries * 8 + 3) = i * (entries * 8 + 3) + (entries * 8 + 3) :=
      Nat.succ_mul ..
    obtain ⟨cs, hload, hcslen, hcs⟩ := load_eq_some (b := b) payload words indexByte (by omega)
    have hrow : (List.range entries).map (fun j => signed 8 ((memory
          (if indexRem ≠ 0 then shiftDown indexRem cs else cs)).getD j 0).toNat) =
        slideRow payload entries i := by
      refine List.map_congr_left fun j hj => ?_
      rw [List.mem_range] at hj
      rw [← hpos]
      congr 1
      refine bitsAt_of_window (n := words) payload ?_ ?_ (by omega)
      · by_cases h0 : indexRem = 0
        · rw [if_neg (by omega), hcs, h0, pow_zero, Nat.div_one]
        · rw [if_pos h0, toNat_shiftDown (by omega), hcs]
      · rw [← hcslen]
        split
        · exact length_shiftDown indexRem cs
        · rfl
    have hnext : k = 0 ∨
        ((i + 1 + (k - 1)) * (entries * 8 + 3) + 3) / 8 + words * b ≤ payload.length := by
      rcases Nat.eq_zero_or_pos k with hk | hk
      · exact .inl hk
      · right
        rwa [show i + 1 + (k - 1) = i + k by omega]
    have hcarry := ih (i + 1) (indexByte + (entries * 8 + 3) / 8 + 1)
      (indexRem + (entries * 8 + 3) % 8 - 8)
    have hplain := ih (i + 1) (indexByte + (entries * 8 + 3) / 8)
      (indexRem + (entries * 8 + 3) % 8)
    simp only [slide, hload, Option.bind_eq_bind, Option.bind_some, hrow, List.range'_succ,
      List.map_cons]
    split
    · rw [hcarry (by omega) (by omega) hnext]
      rfl
    · rw [hplain (by omega) (by omega) hnext]
      rfl

/-- **What an unpacker fills**: row `i` holds the signed bytes from the first entry of subcarrier
`i` on. -/
theorem slideCsi_eq (b words entries : ℕ) (hb : 0 < b)
    (hwin : 8 * entries + 7 ≤ 8 * (words * b)) (payload : Bytes)
    (hlen : slideLen (words * b) entries ≤ payload.length) :
    slideCsi b words entries payload = some ((List.range 30).map (slideRow payload entries)) := by
  have hlast : ((0 + (30 - 1)) * (entries * 8 + 3) + 3) / 8 + words * b ≤ payload.length := hlen
  rw [slideCsi, slide_eq hb hwin payload 30 0 0 3 (by omega) (by omega) (.inr hlast),
    List.range_eq_range']

/-! ## The agreement -/

/-- The antenna configurations that have an unpacker, with the bytes of its window. -/
def supported : List (ℕ × ℕ × ℕ) := [(1, 1, 4), (3, 1, 8), (3, 2, 16), (3, 3, 24)]

theorem computeCsi_eq {nrx ntx window : ℕ} (h : (nrx, ntx, window) ∈ supported) (payload : Bytes)
    (hlen : slideLen window (nrx * ntx * 2) ≤ payload.length) :
    computeCsi nrx ntx payload =
      some ((List.range 30).map (slideRow payload (nrx * ntx * 2))) := by
  simp only [supported, List.mem_cons, Prod.mk.injEq, List.not_mem_nil, or_false] at h
  rcases h with ⟨rfl, rfl, rfl⟩ | ⟨rfl, rfl, rfl⟩ | ⟨rfl, rfl, rfl⟩ | ⟨rfl, rfl, rfl⟩
  · exact slideCsi_eq 4 1 (1 * 1 * 2) (by omega) (by omega) payload hlen
  · exact slideCsi_eq 8 1 (3 * 1 * 2) (by omega) (by omega) payload hlen
  · exact slideCsi_eq 8 2 (3 * 2 * 2) (by omega) (by omega) payload hlen
  · exact slideCsi_eq 8 3 (3 * 3 * 2) (by omega) (by omega) payload hlen

/-- The unpackers' loads may go on behind the payload that `read_bfee` reads: whatever bytes `rest`
are there, each entry is that of `read_bfee`. -/
theorem computeCsi_append {nrx ntx window : ℕ} (h : (nrx, ntx, window) ∈ supported)
    (payload rest : Bytes) (hcalc : bfeeCalcLen nrx ntx ≤ payload.length)
    (hlen : slideLen window (nrx * ntx * 2) ≤ (payload ++ rest).length) :
    ∃ rows csi, computeCsi nrx ntx (payload ++ rest) = some rows ∧
      readBfeeCsi payload nrx ntx = .ok csi ∧
      ∀ i < 30, ∀ rx < nrx, ∀ tx < ntx, ∃ row re im, rows[i]? = some row ∧
        csi[mxIndex nrx ntx tx rx i]? = some (re, im) ∧
        row[2 * (rx * ntx + tx)]? = some re ∧ row[2 * (rx * ntx + tx) + 1]? = some im := by
  obtain ⟨csi, hcsi, hentry⟩ := readBfeeCsi_eq payload nrx ntx hcalc
  refine ⟨_, csi, computeCsi_eq h (payload ++ rest) hlen, hcsi, fun i hi rx hrx tx htx => ?_⟩
  have hj : rx * ntx + tx < nrx * ntx := by
    have := Nat.mul_le_mul_right ntx (show rx + 1 ≤ nrx by omega)
    rw [Nat.succ_mul] at this
    omega
  have hbit : ∀ c, i * (nrx * ntx * 2 * 8 + 3) + 3 + 8 * (2 * (rx * ntx + tx) + c) =
      bfeeBit (nrx * ntx) i (rx * ntx + tx) + 8 * c := by
    intro c
    rw [bfeeBit]
    ring
  -- the last bit of the entry is a bit of the payload
  have hinside : ∀ c < 2,
      bfeeBit (nrx * ntx) i (rx * ntx + tx) + 8 * c + 8 ≤ 8 * payload.length := by
    intro c hc
    have hrow : i * (16 * (nrx * ntx) + 3) ≤ 29 * (16 * (nrx * ntx) + 3) :=
      Nat.mul_le_mul_right _ (by omega)
    simp only [bfeeCalcLen] at hcalc
    simp only [bfeeBit]
    omega
  have hrow : ∀ c < 2,
      (slideRow (payload ++ rest) (nrx * ntx * 2) i)[2 * (rx * ntx + tx) + c]? =
        some (signed 8 (bitsAt payload (bfeeBit (nrx * ntx) i (rx * ntx + tx) + 8 * c))) := by
    intro c hc
    rw [← bitsAt_append payload rest (hinside c hc), ← hbit, slideRow, List.getElem?_map,
      List.getElem?_range (by omega)]
    rfl
  refine ⟨slideRow (payload ++ rest) (nrx * ntx * 2) i, _, _, ?_, hentry i hi rx hrx tx htx,
    hrow 0 (by omega), hrow 1 (by omega)⟩
  rw [List.getElem?_map, List.getElem?_range hi]
  rfl

theorem bfeeCalcLen_le_slideLen {nrx ntx window : ℕ} (h : (nrx, ntx, window) ∈ supported) :
    bfeeCalcLen nrx ntx ≤ slideLen window (nrx * ntx * 2) := by
  simp only [supported, List.mem_cons, Prod.mk.injEq, List.not_mem_nil, or_false] at h
  rcases h with ⟨rfl, rfl, rfl⟩ | ⟨rfl, rfl, rfl⟩ | ⟨rfl, rfl, rfl⟩ | ⟨rfl, rfl, rfl⟩ <;> decide

/-- **The unpackers agree.** On every payload that their loads stay inside, each supported
configuration gives, for every subcarrier, receive and transmit antenna, the real and imaginary
part that `read_bfee` gives. -/
theorem computeCsi_agrees {nrx ntx window : ℕ} (h : (nrx, ntx, window) ∈ supported)
    (payload : Bytes) (hlen : slideLen window (nrx * ntx * 2) ≤ payload.length) :
    ∃ rows csi, computeCsi nrx ntx payload = some rows ∧ readBfeeCsi payload nrx ntx = .ok csi ∧
      ∀ i < 30, ∀ rx < nrx, ∀ tx < ntx, ∃ row re im, rows[i]? = some row ∧
        csi[mxIndex nrx ntx tx rx i]? = some (re, im) ∧
        row[2 * (rx * ntx + tx)]? = some re ∧ row[2 * (rx * ntx + tx) + 1]? = some im := by
  have hcalc : bfeeCalcLen nrx ntx ≤ payload.length := (bfeeCalcLen_le_slideLen h).trans hlen
  simpa only [List.append_nil] using
    computeCsi_append h payload [] hcalc (by rwa [List.append_nil])

theorem computeCsi_agrees_33 :
    ∃ rows csi, computeCsi 3 3 (List.replicate 557 0xa5) = some rows ∧
      readBfeeCsi (List.replicate 557 0xa5) 3 3 = .ok csi ∧
      ∀ i < 30, ∀ rx < 3, ∀ tx < 3, ∃ row re im, rows[i]? = some row ∧
        csi[mxIndex 3 3 tx rx i]? = some (re, im) ∧
        row[2 * (rx * 3 + tx)]? = some re ∧ row[2 * (rx * 3 + tx) + 1]? = some im :=
  @computeCsi_agrees 3 3 24 (by decide) _ (by rw [List.length_replicate]; decide)

end Iax.Incsi
