import Iax.Incsi.ReadBfFile
import Iax.Lib.Memory

/-!
# Which bytes `read_bfee` reads

`read_bf_file` hands every record to `read_bfee` as it is, and `read_bfee` compares two fields of
its header: the length of the payload with the one that the numbers of antennas give. Neither is
compared with the number of bytes that there are.

* `payloadReads`: the indices into the payload, in the order of the loops; `readBfeeCsi_ok_iff`: the
  loops of `readBfeeCsi` read these.
* `lt_of_mem_payloadReads`, `last_mem_payloadReads`: they end with the last byte of the computed
  length.
* `readsInside_iff`: so a record is not left if and only if it fails the check, has no entries, or
  has a payload of the computed length.
-/

namespace Iax.Incsi

open Bytes Matlab

/-! ## The indices -/

/-- The loop over the entries of one subcarrier: the payload indices and the bit index after
them. -/
def entryReads : ℕ → ℕ → List ℕ × ℕ
  | 0, index => ([], index)
  | n + 1, index =>
    let (reads, last) := entryReads n (index + 16)
    ([index / 8, index / 8 + 1] ++ [index / 8 + 1, index / 8 + 2] ++ reads, last)

/-- The loop over the subcarriers. -/
def subcarrierReads (nrxNtx : ℕ) : ℕ → ℕ → List ℕ
  | 0, _ => []
  | k + 1, index =>
    let index := index + 3
    let (reads, index) := entryReads nrxNtx index
    reads ++ subcarrierReads nrxNtx k index

/-- The indices into the payload that the loops read. -/
def payloadReads (nrx ntx : ℕ) : List ℕ := subcarrierReads (nrx * ntx) 30 0

/-- The input of `read_bfee`: the bytes of the record, and what is behind them. -/
def recordMem (behind : Memory) (body : Bytes) : Memory := behind.write 0 body

/-- `Nrx` -/
def memNrx (mem : Memory) : ℕ := (mem 8).toNat

/-- `Ntx` -/
def memNtx (mem : Memory) : ℕ := (mem 9).toNat

/-- `len` -/
def memLen (mem : Memory) : ℕ := (mem 16).toNat + (mem 17).toNat <<< 8

/-- The indices into the payload that `read_bfee` reads. -/
def bfeeReads (mem : Memory) : List ℕ :=
  if memLen mem ≠ bfeeCalcLen (memNrx mem) (memNtx mem) then []
  else payloadReads (memNrx mem) (memNtx mem)

/-- The decoding of a record of `size` bytes stays inside it, and inside the payload of the declared
length if that is the computed one. -/
structure ReadsInside (mem : Memory) (size : ℕ) : Prop where
  record : ∀ i ∈ bfeeReads mem, 20 + i < size
  payload : memLen mem = bfeeCalcLen (memNrx mem) (memNtx mem) →
    ∀ i ∈ bfeeReads mem, i < memLen mem

/-! ## What the loops read -/

@[simp] theorem entryReads_snd (n index : ℕ) : (entryReads n index).2 = index + 16 * n := by
  induction n generalizing index with
  | zero => rfl
  | succ n ih =>
    rw [entryReads, ih]
    omega

/-- An entry is read from three bytes. -/
theorem mem_entryReads {n index i : ℕ} : i ∈ (entryReads n index).1 ↔
    ∃ j < n, (index + 16 * j) / 8 ≤ i ∧ i ≤ (index + 16 * j) / 8 + 2 := by
  induction n generalizing index with
  | zero => simp [entryReads]
  | succ n ih =>
    have hshift : ∀ j, index + 16 + 16 * j = index + 16 * (j + 1) := fun j => by omega
    simp only [entryReads, List.mem_append, List.mem_cons, List.not_mem_nil, or_false, ih, hshift]
    constructor
    · rintro (h | ⟨j, hj, hi⟩)
      · exact ⟨0, n.succ_pos, by omega⟩
      · exact ⟨j + 1, Nat.succ_lt_succ hj, hi⟩
    · rintro ⟨j, hj, hi⟩
      cases j with
      | zero => exact .inl (by omega)
      | succ j => exact .inr ⟨j, Nat.lt_of_succ_lt_succ hj, hi⟩

/-- What is read for the subcarriers from `a` on. -/
theorem mem_subcarrierReads {n k a i : ℕ} : i ∈ subcarrierReads n k (a * (16 * n + 3)) ↔
    ∃ s, a ≤ s ∧ s < a + k ∧ ∃ j < n, bfeeBit n s j / 8 ≤ i ∧ i ≤ bfeeBit n s j / 8 + 2 := by
  induction k generalizing a with
  | zero =>
    simp only [subcarrierReads, List.not_mem_nil, false_iff]
    rintro ⟨s, hle, hlt, -⟩
    omega
  | succ k ih =>
    have hnext : a * (16 * n + 3) + 3 + 16 * n = (a + 1) * (16 * n + 3) := by ring
    rw [subcarrierReads]
    simp only [entryReads_snd, hnext, List.mem_append, mem_entryReads, ih]
    constructor
    · rintro (⟨j, hj, hi⟩ | ⟨s, hle, hlt, h⟩)
      · exact ⟨a, le_rfl, by omega, j, hj, hi⟩
      · exact ⟨s, by omega, by omega, h⟩
    · rintro ⟨s, hle, hlt, h⟩
      rcases hle.eq_or_lt with rfl | hlt'
      · exact .inl h
      · exact .inr ⟨s, hlt', by omega, h⟩

theorem mem_payloadReads {nrx ntx i : ℕ} : i ∈ payloadReads nrx ntx ↔
    ∃ s < 30, ∃ j < nrx * ntx,
      bfeeBit (nrx * ntx) s j / 8 ≤ i ∧ i ≤ bfeeBit (nrx * ntx) s j / 8 + 2 := by
  have h := mem_subcarrierReads (n := nrx * ntx) (k := 30) (a := 0) (i := i)
  rw [Nat.zero_mul] at h
  rw [payloadReads, h]
  simp

/-- The computed length, of which the last three bits of padding do not matter. -/
theorem bfeeCalcLen_eq (nrx ntx : ℕ) : bfeeCalcLen nrx ntx = 60 * (nrx * ntx) + 12 := by
  rw [bfeeCalcLen]
  omega

/-- **No index is behind the payload** of the computed length. -/
theorem lt_of_mem_payloadReads {nrx ntx i : ℕ} (h : i ∈ payloadReads nrx ntx) :
    i < bfeeCalcLen nrx ntx := by
  obtain ⟨s, hs, j, hj, -, hi⟩ := mem_payloadReads.1 h
  have hrow : s * (16 * (nrx * ntx) + 3) ≤ 29 * (16 * (nrx * ntx) + 3) :=
    Nat.mul_le_mul_right _ (Nat.le_of_lt_succ hs)
  rw [bfeeCalcLen_eq]
  rw [bfeeBit] at hi
  omega

/-- **The last byte** of a payload of the computed length is read, when there are entries. -/
theorem last_mem_payloadReads {nrx ntx : ℕ} (h : 0 < nrx * ntx) :
    bfeeCalcLen nrx ntx - 1 ∈ payloadReads nrx ntx := by
  refine mem_payloadReads.2 ⟨29, by decide, nrx * ntx - 1, by omega, ?_⟩
  rw [bfeeCalcLen_eq, bfeeBit]
  omega

theorem payloadReads_eq_nil {nrx ntx : ℕ} (h : nrx * ntx = 0) : payloadReads nrx ntx = [] := by
  refine List.eq_nil_iff_forall_not_mem.2 fun i hi => ?_
  obtain ⟨-, -, j, hj, -⟩ := mem_payloadReads.1 hi
  omega

/-! ## The loops of the model -/

section Loops

variable (payload : Bytes)

theorem bfeeByte_ok_iff (i : ℕ) : (∃ b, bfeeByte payload i = .ok b) ↔ i < payload.length := by
  rw [bfeeByte]
  split_ifs with h <;> simp [h]

theorem bfeeChar_ok_iff (i remainder : ℕ) : (∃ c, bfeeChar payload i remainder = .ok c) ↔
    ∀ a ∈ [i, i + 1], a < payload.length := by
  simp only [List.forall_mem_cons, List.not_mem_nil, false_implies, implies_true, and_true,
    ← bfeeByte_ok_iff]
  simp only [bfeeChar, bind, bind_eq_ok, pure, Except.pure, Except.ok.injEq]
  constructor
  · rintro ⟨c, lo, hlo, hi, hhi, -⟩
    exact ⟨⟨lo, hlo⟩, hi, hhi⟩
  · rintro ⟨⟨lo, hlo⟩, hi, hhi⟩
    exact ⟨_, lo, hlo, hi, hhi, rfl⟩

/-- The bit index after the entries of a subcarrier. -/
theorem bfeeEntries_snd {remainder n index last : ℕ} {entries : List (ℤ × ℤ)}
    (h : bfeeEntries payload remainder n index = .ok (entries, last)) :
    last = (entryReads n index).2 := by
  induction n generalizing index entries with
  | zero =>
    cases h
    rfl
  | succ n ih =>
    simp only [bfeeEntries, bind, bind_eq_ok, pure, Except.pure, Except.ok.injEq] at h
    obtain ⟨re, -, im, -, ⟨rest, last'⟩, hrest, h⟩ := h
    cases h
    rw [ih hrest]
    rfl

theorem bfeeEntries_ok_iff (remainder n index : ℕ) :
    (∃ x, bfeeEntries payload remainder n index = .ok x) ↔
      ∀ i ∈ (entryReads n index).1, i < payload.length := by
  induction n generalizing index with
  | zero => simp [bfeeEntries, entryReads, pure, Except.pure]
  | succ n ih =>
    rw [entryReads]
    dsimp only
    rw [List.forall_mem_append, List.forall_mem_append, ← ih, ← bfeeChar_ok_iff payload _ remainder,
      ← bfeeChar_ok_iff payload _ remainder]
    simp only [bfeeEntries, bind, bind_eq_ok, pure, Except.pure, Except.ok.injEq]
    constructor
    · rintro ⟨x, re, hre, im, him, rest, hrest, -⟩
      exact ⟨⟨⟨re, hre⟩, im, him⟩, rest, hrest⟩
    · rintro ⟨⟨⟨re, hre⟩, im, him⟩, rest, hrest⟩
      exact ⟨_, re, hre, im, him, rest, hrest, rfl⟩

theorem bfeeSubcarriers_ok_iff (nrxNtx k index : ℕ) :
    (∃ csi, bfeeSubcarriers payload nrxNtx k index = .ok csi) ↔
      ∀ i ∈ subcarrierReads nrxNtx k index, i < payload.length := by
  induction k generalizing index with
  | zero => simp [bfeeSubcarriers, subcarrierReads, pure, Except.pure]
  | succ k ih =>
    rw [subcarrierReads]
    dsimp only
    rw [List.forall_mem_append, ← ih, ← bfeeEntries_ok_iff payload ((index + 3) % 8)]
    simp only [bfeeSubcarriers, bind, bind_eq_ok, pure, Except.pure, Except.ok.injEq]
    constructor
    · rintro ⟨csi, ⟨entries, last⟩, hentries, rest, hrest, -⟩
      rw [bfeeEntries_snd payload hentries] at hrest
      exact ⟨⟨_, hentries⟩, rest, hrest⟩
    · rintro ⟨⟨⟨entries, last⟩, hentries⟩, rest, hrest⟩
      rw [← bfeeEntries_snd payload hentries] at hrest
      exact ⟨_, _, hentries, rest, hrest, rfl⟩

/-- **The loops read these bytes**: they have a result if and only if all of them are there. -/
theorem readBfeeCsi_ok_iff (nrx ntx : ℕ) : (∃ csi, readBfeeCsi payload nrx ntx = .ok csi) ↔
    ∀ i ∈ payloadReads nrx ntx, i < payload.length :=
  bfeeSubcarriers_ok_iff payload (nrx * ntx) 30 0

end Loops

/-! ## The record -/

/-- **Inside the record.** Whatever is behind a record, the decoding stays inside it if and only if
it fails the length check, has no entries, or has a payload of the computed length. -/
theorem readsInside_iff (behind : Memory) (body : Bytes) :
    ReadsInside (recordMem behind body) body.length ↔
      memLen (recordMem behind body) ≠
          bfeeCalcLen (memNrx (recordMem behind body)) (memNtx (recordMem behind body)) ∨
        memNrx (recordMem behind body) * memNtx (recordMem behind body) = 0 ∨
        20 + bfeeCalcLen (memNrx (recordMem behind body)) (memNtx (recordMem behind body)) ≤
          body.length := by
  set mem := recordMem behind body
  have hpayload : memLen mem = bfeeCalcLen (memNrx mem) (memNtx mem) →
      ∀ i ∈ bfeeReads mem, i < memLen mem := by
    intro hlen i hi
    rw [bfeeReads, if_neg (not_not.2 hlen)] at hi
    rw [hlen]
    exact lt_of_mem_payloadReads hi
  by_cases hlen : memLen mem = bfeeCalcLen (memNrx mem) (memNtx mem)
  · have hreads : bfeeReads mem = payloadReads (memNrx mem) (memNtx mem) :=
      if_neg (not_not.2 hlen)
    rcases Nat.eq_zero_or_pos (memNrx mem * memNtx mem) with hzero | hpos
    · refine iff_of_true ⟨?_, hpayload⟩ (.inr (.inl hzero))
      simp [hreads, payloadReads_eq_nil hzero]
    · have hlast := last_mem_payloadReads hpos
      have hcalc := bfeeCalcLen_eq (memNrx mem) (memNtx mem)
      constructor
      · rintro ⟨hrecord, -⟩
        rw [hreads] at hrecord
        have hlt := hrecord _ hlast
        exact .inr (.inr (by omega))
      · intro h
        have hle := (h.resolve_left (not_not.2 hlen)).resolve_left hpos.ne'
        refine ⟨fun i hi => ?_, hpayload⟩
        rw [hreads] at hi
        exact (Nat.add_lt_add_left (lt_of_mem_payloadReads hi) 20).trans_le hle
  · refine iff_of_true ⟨?_, hpayload⟩ (.inl hlen)
    simp [bfeeReads, hlen]

/-- The header of a record for one antenna on each side, without a payload. -/
def bareHeader : Bytes :=
  [0, 0, 0, 0, 0, 0, 0, 0, 1, 1, 0, 0, 0, 0, 0, 0, 72, 0, 0, 0]

/-- **A record without its payload**: `read_bf_file` hands it on, it passes the length check, and
indices outside of it are read. -/
theorem not_readsInside :
    (∃ s, bfTurn (bfInit (logFile [bfeeCode :: bareHeader])) =
      (bfOutput s 21 bareHeader).map fun s => (s, false)) ∧
    ¬ ReadsInside (recordMem (fun _ => 0) bareHeader) bareHeader.length := by
  constructor
  · have hrest : (bfInit (logFile [bfeeCode :: bareHeader])).file.rest =
        logRecord (bfeeCode :: bareHeader) ++ [] := rfl
    exact ⟨_, bfTurn_bfee (by decide) hrest⟩
  · intro h
    have hlt := h.record 0 (by decide)
    exact absurd hlt (by decide)

end Iax.Incsi
