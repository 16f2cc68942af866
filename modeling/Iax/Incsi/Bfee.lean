import Iax.Lib.BitWindow

/-!
# The 5300 beamforming record

`read_bfee` of `read_bfee.c`: a record is a header of 20 bytes and a payload with the channel
matrices of 30 subcarriers. The payload is a bit string: each subcarrier begins with 3 bits of
padding, then come its entries, a signed byte for the real part and one for the imaginary part.

* `readBfeeCsi` is the loop over the payload with its running bit index.
* `readBfeeCsi_eq`: on a payload of the computed length it reads entry `j` of subcarrier `i` from
  bit `bfeeBit (Nrx * Ntx) i j` on.
-/

namespace Iax.Incsi

open Bytes

/-! ## The record -/

/-- Why `read_bfee` has no result: the length check fails, or it reads outside its input. -/
inductive BfeeError
  | wrongSize
  | outside
  deriving DecidableEq

/-- The fields of the struct that `read_bfee` fills, in its order. `csi` is the data of the complex
array of size `Ntx` by `Nrx` by 30. -/
structure Bfee where
  timestampLow : ℕ
  bfeeCount : ℕ
  nrx : ℕ
  ntx : ℕ
  rssiA : ℕ
  rssiB : ℕ
  rssiC : ℕ
  noise : ℤ
  agc : ℕ
  perm : List ℕ
  rate : ℕ
  csi : List (ℤ × ℤ)
  deriving DecidableEq

/-- A byte of the input. A read behind the input is undefined in the program, and a failure here. -/
def bfeeByte (bytes : Bytes) (i : ℕ) : Except BfeeError ℕ :=
  if h : i < bytes.length then .ok bytes[i].toNat else .error .outside

/-- The `char` joined from the bytes `i` and `i + 1`. -/
def bfeeChar (payload : Bytes) (i remainder : ℕ) : Except BfeeError ℤ := do
  let lo ← bfeeByte payload i
  let hi ← bfeeByte payload (i + 1)
  return signed 8 (lo >>> remainder ||| hi <<< (8 - remainder))

/-- The loop over the entries of one subcarrier: the entries and the bit index after them. -/
def bfeeEntries (payload : Bytes) (remainder : ℕ) : ℕ → ℕ → Except BfeeError (List (ℤ × ℤ) × ℕ)
  | 0, index => return ([], index)
  | n + 1, index => do
    let re ← bfeeChar payload (index / 8) remainder
    let im ← bfeeChar payload (index / 8 + 1) remainder
    let (entries, index) ← bfeeEntries payload remainder n (index + 16)
    return ((re, im) :: entries, index)

/-- The loop over the subcarriers. -/
def bfeeSubcarriers (payload : Bytes) (nrxNtx : ℕ) : ℕ → ℕ → Except BfeeError (List (ℤ × ℤ))
  | 0, _ => return []
  | k + 1, index => do
    let index := index + 3
    let remainder := index % 8
    let (entries, index) ← bfeeEntries payload remainder nrxNtx index
    let rest ← bfeeSubcarriers payload nrxNtx k index
    return entries ++ rest

/-- The CSI array that `read_bfee` fills from the payload. -/
def readBfeeCsi (payload : Bytes) (nrx ntx : ℕ) : Except BfeeError (List (ℤ × ℤ)) :=
  bfeeSubcarriers payload (nrx * ntx) 30 0

/-- `calc_len`, the length that the payload should have. -/
def bfeeCalcLen (nrx ntx : ℕ) : ℕ := (30 * (nrx * ntx * 8 * 2 + 3) + 7) / 8

/-- `read_bfee`. -/
def readBfee (inBytes : Bytes) : Except BfeeError Bfee := do
  let head ← (List.range 20).mapM (bfeeByte inBytes)
  let byte i := head.getD i 0
  let nrx := byte 8
  let ntx := byte 9
  let antennaSel := byte 15
  let len := byte 16 + byte 17 <<< 8
  if len ≠ bfeeCalcLen nrx ntx then throw .wrongSize
  let csi ← readBfeeCsi (inBytes.drop 20) nrx ntx
  return {
    timestampLow := byte 0 + byte 1 <<< 8 + byte 2 <<< 16 + byte 3 <<< 24
    bfeeCount := byte 4 + byte 5 <<< 8
    nrx := nrx
    ntx := ntx
    rssiA := byte 10
    rssiB := byte 11
    rssiC := byte 12
    noise := signed 8 (byte 13)
    agc := byte 14
    perm := [(antennaSel &&& 0x3) + 1, ((antennaSel >>> 2) &&& 0x3) + 1,
      ((antennaSel >>> 4) &&& 0x3) + 1]
    rate := byte 18 + byte 19 <<< 8
    csi := csi }

/-- The position of entry `(tx, rx, i)`, counted from 0, in an array of `ntx` by `nrx` by 30. -/
def mxIndex (nrx ntx tx rx i : ℕ) : ℕ := tx + ntx * (rx + nrx * i)

/-! ## What the loops read -/

/-- The bit at which entry `j` of subcarrier `i` begins, with `n` entries a subcarrier. -/
def bfeeBit (n i j : ℕ) : ℕ := i * (16 * n + 3) + 3 + 16 * j

/-- The entry at a bit offset. -/
def bfeeEntryAt (payload : Bytes) (k : ℕ) : ℤ × ℤ :=
  (signed 8 (bitsAt payload k), signed 8 (bitsAt payload (k + 8)))

theorem signed_mod (n : ℕ) : signed 8 (n % 256) = signed 8 n := by
  rw [signed, signed]
  congr 1
  apply BitVec.eq_of_toNat_eq
  simp

theorem bfeeChar_eq (payload : Bytes) {i r : ℕ} (hr : r < 8) (h : i + 1 < payload.length) :
    bfeeChar payload i r = .ok (signed 8 (bitsAt payload (8 * i + r))) := by
  have hlo : bfeeByte payload i = .ok payload[i].toNat := dif_pos (by omega)
  have hhi : bfeeByte payload (i + 1) = .ok payload[i + 1].toNat := dif_pos h
  rw [← bitsAt_of_bytes payload hr h, signed_mod]
  simp only [bfeeChar, hlo, hhi]
  rfl

/-- **One subcarrier.** The remainder stays that of the running index, which grows by 16. -/
theorem bfeeEntries_eq (payload : Bytes) (n index : ℕ)
    (h : n = 0 ∨ (index + 16 * (n - 1)) / 8 + 2 < payload.length) :
    bfeeEntries payload (index % 8) n index =
      .ok ((List.range n).map fun j => bfeeEntryAt payload (index + 16 * j), index + 16 * n) := by
  induction n generalizing index with
  | zero => rfl
  | succ n ih =>
    have hre : bfeeChar payload (index / 8) (index % 8) =
        .ok (signed 8 (bitsAt payload index)) := by
      rw [bfeeChar_eq payload (Nat.mod_lt _ (by omega)) (by omega), Nat.div_add_mod]
    have him : bfeeChar payload (index / 8 + 1) (index % 8) =
        .ok (signed 8 (bitsAt payload (index + 8))) := by
      rw [bfeeChar_eq payload (Nat.mod_lt _ (by omega)) (by omega)]
      congr 3
      omega
    have hrest := ih (index + 16) (by omega)
    rw [show (index + 16) % 8 = index % 8 by omega] at hrest
    have hshift : ∀ j, index + 16 + 16 * j = index + 16 * (j + 1) := fun j => by omega
    simp only [bfeeEntries, hre, him, hrest, hshift, List.range_succ_eq_map, List.map_cons,
      List.map_map]
    rfl

/-- The entries of the subcarriers from `i` on. -/
def bfeeEntriesFrom (payload : Bytes) (n i k : ℕ) : List (ℤ × ℤ) :=
  (List.range' i k).flatMap fun i => (List.range n).map fun j => bfeeEntryAt payload (bfeeBit n i j)

/-- **All subcarriers.** The bit index at the head of the loop is that of the subcarrier's
padding. -/
theorem bfeeSubcarriers_eq (payload : Bytes) (n i k : ℕ)
    (h : (i + k) * (16 * n + 3) < 8 * payload.length) :
    bfeeSubcarriers payload n k (i * (16 * n + 3)) = .ok (bfeeEntriesFrom payload n i k) := by
  induction k generalizing i with
  | zero => rfl
  | succ k ih =>
    have hnext : i * (16 * n + 3) + 3 + 16 * n = (i + 1) * (16 * n + 3) := by ring
    have hlast : (i + 1) * (16 * n + 3) ≤ (i + (k + 1)) * (16 * n + 3) :=
      Nat.mul_le_mul_right _ (by omega)
    have hrow := bfeeEntries_eq payload n (i * (16 * n + 3) + 3) (by omega)
    have hrest := ih (i + 1) (by rwa [Nat.add_right_comm, Nat.add_assoc])
    rw [bfeeSubcarriers, hrow, hnext]
    simp only [bind, Except.bind, hrest, bfeeEntriesFrom, List.range'_succ, List.flatMap_cons]
    rfl

/-- Indexing into the concatenation of blocks of one length. -/
theorem getElem?_flatMap_range' {α : Type*} (f : ℕ → List α) {n : ℕ} (hf : ∀ i, (f i).length = n)
    {i j k a : ℕ} (hi : i < k) (hj : j < n) :
    ((List.range' a k).flatMap f)[n * i + j]? = (f (a + i))[j]? := by
  induction k generalizing a i with
  | zero => omega
  | succ k ih =>
    rw [List.range'_succ, List.flatMap_cons]
    cases i with
    | zero => rw [List.getElem?_append_left (by rw [hf]; omega), Nat.mul_zero, Nat.zero_add]; rfl
    | succ i =>
      rw [List.getElem?_append_right (by rw [hf, Nat.mul_succ]; omega), hf,
        show n * (i + 1) + j - n = n * i + j by rw [Nat.mul_succ]; omega, ih (by omega),
        Nat.add_assoc, Nat.add_comm 1]

/-- **The array that `read_bfee` fills**: on a payload of the computed length, entry `(tx, rx, i)`
begins at the bit of entry `rx * Ntx + tx` of subcarrier `i`. -/
theorem readBfeeCsi_eq (payload : Bytes) (nrx ntx : ℕ)
    (h : bfeeCalcLen nrx ntx ≤ payload.length) :
    ∃ csi, readBfeeCsi payload nrx ntx = .ok csi ∧
      ∀ i < 30, ∀ rx < nrx, ∀ tx < ntx,
        csi[mxIndex nrx ntx tx rx i]? =
          some (bfeeEntryAt payload (bfeeBit (nrx * ntx) i (rx * ntx + tx))) := by
  have hrun := bfeeSubcarriers_eq payload (nrx * ntx) 0 30 (by
    simp only [bfeeCalcLen] at h
    omega)
  rw [Nat.zero_mul] at hrun
  refine ⟨_, hrun, fun i hi rx hrx tx htx => ?_⟩
  have hj : rx * ntx + tx < nrx * ntx := by
    have := Nat.mul_le_mul_right ntx (show rx + 1 ≤ nrx by omega)
    rw [Nat.succ_mul] at this
    omega
  have hindex : mxIndex nrx ntx tx rx i = nrx * ntx * i + (rx * ntx + tx) := by
    rw [mxIndex]
    ring
  rw [hindex, bfeeEntriesFrom, getElem?_flatMap_range' _ (by simp) hi hj, Nat.zero_add]
  simp [hj]

end Iax.Incsi
