import Iax.Dvm.Notif
import Iax.Incsi.AntennaRows

/-!
# What the driver stamps and what MATLAB reads

`iwlagn_bfee_notif` writes into the bytes of a beamforming report what the driver knows of the
frame, and `read_bfee` takes the report apart.

* `bfeeIn` is the struct that the bytes of a report stand for, and `readBfee_read` says that
  `read_bfee` finds it.
* `stamped` is what the driver does, said of the struct.
* `bfeeIn_stampIfValid`: to stamp the bytes is to stamp the struct.
-/

namespace Iax.Incsi

open Bytes Dvm

/-! ## The struct of a report -/

/-- The struct that the bytes of a report stand for, with the entries of the matrices as the payload
has them in its bits. -/
def bfeeIn (pkt : DvmPacket) : Bfee where
  timestampLow := pkt.data.readLe 0 4
  bfeeCount := pkt.data.readLe 4 2
  nrx := (pkt.data 8).toNat
  ntx := (pkt.data 9).toNat
  rssiA := (pkt.data 10).toNat
  rssiB := (pkt.data 11).toNat
  rssiC := (pkt.data 12).toNat
  noise := signed 8 (pkt.data 13).toNat
  agc := (pkt.data 14).toNat
  perm := antennaPerm (pkt.data 15).toNat
  rate := pkt.data.readLe 18 2
  csi := bfeeEntriesFrom (pkt.data.read sizeofBfeeNotif pkt.bfeeLen)
    ((pkt.data 8).toNat * (pkt.data 9).toNat) 0 30

/-- The length field says what follows from the numbers of antennas. -/
def HasCalcLen (pkt : DvmPacket) : Prop :=
  pkt.bfeeLen = bfeeCalcLen (bfeeIn pkt).nrx (bfeeIn pkt).ntx

instance (pkt : DvmPacket) : Decidable (HasCalcLen pkt) := by
  unfold HasCalcLen
  infer_instance

/-- What `iwlagn_bfee_notif` stamps, on the struct. -/
def stamped (priv : DvmPriv) (b : Bfee) : Bfee :=
  let phy := priv.lastPhyRes
  let word (i : ℕ) : ℕ := phy.nonCfg.getD i 0
  if priv.lastPhyResValid then
    { b with
      timestampLow := phy.timestamp % 2 ^ 32
      bfeeCount := (priv.bfeeCount + 1) % 2 ^ 16
      rssiA := word 2 &&& 0x00ff
      rssiB := (word 2 &&& 0xff0000) >>> 16
      rssiC := word 3 &&& 0x00ff
      noise := (BitVec.ofInt 8 priv.lastRxNoise).toInt
      agc := (word 1 &&& 0xfe00) >>> 9
      perm := if 0 < phy.cfgPhyCnt then antennaPerm (priv.lastCfgPhyBuf % 2 ^ 8) else b.perm
      rate := phy.rateNFlags &&& 0x3fff }
  else b

/-! ## Reading a report -/

theorem bfeeByte_read (mem : Memory) {n i : ℕ} (h : i < n) :
    bfeeByte (mem.read 0 n) i = .ok (mem i).toNat := by
  have hi : i < (mem.read 0 n).length := (mem.length_read 0 n).symm ▸ h
  rw [bfeeByte, dif_pos hi, Memory.getElem_read, Nat.zero_add]

/-- The bytes of the header. -/
theorem mapM_bfeeByte (mem : Memory) {n : ℕ} {is : List ℕ} (h : ∀ i ∈ is, i < n) :
    is.mapM (bfeeByte (mem.read 0 n)) = .ok (is.map fun i => (mem i).toNat) := by
  induction is with
  | nil => rfl
  | cons i is ih =>
    obtain ⟨hi, his⟩ := List.forall_mem_cons.1 h
    rw [List.mapM_cons, bfeeByte_read mem hi, ih his]
    rfl

theorem readLe_two (mem : Memory) (pos : ℕ) :
    mem.readLe pos 2 = (mem pos).toNat + (mem (pos + 1)).toNat <<< 8 := by
  simp only [Memory.readLe, Memory.read, List.range_succ, List.range_zero, List.nil_append,
    List.cons_append, List.map_cons, List.map_nil, leNat_cons, leNat_nil, Nat.shiftLeft_eq,
    Nat.add_zero]
  omega

theorem readLe_four (mem : Memory) (pos : ℕ) :
    mem.readLe pos 4 = (mem pos).toNat + (mem (pos + 1)).toNat <<< 8 +
      (mem (pos + 2)).toNat <<< 16 + (mem (pos + 3)).toNat <<< 24 := by
  simp only [Memory.readLe, Memory.read, List.range_succ, List.range_zero, List.nil_append,
    List.cons_append, List.map_cons, List.map_nil, leNat_cons, leNat_nil, Nat.shiftLeft_eq,
    Nat.add_zero]
  omega

/-- **`read_bfee` finds the struct** of a report with the right length. -/
theorem readBfee_read {pkt : DvmPacket} (h : HasCalcLen pkt) :
    readBfee (pkt.data.read 0 (pkt.bfeeLen + sizeofBfeeNotif)) = .ok (bfeeIn pkt) := by
  have hhead : (List.range 20).mapM (bfeeByte (pkt.data.read 0 (pkt.bfeeLen + sizeofBfeeNotif))) =
      .ok ((List.range 20).map fun i => (pkt.data i).toNat) :=
    mapM_bfeeByte pkt.data fun i hi => by
      have hlt := List.mem_range.1 hi
      simp only [sizeofBfeeNotif]
      omega
  have hlen : (pkt.data 16).toNat + (pkt.data 17).toNat <<< 8 = pkt.bfeeLen :=
    (readLe_two pkt.data 16).symm
  have hpayload : (pkt.data.read 0 (pkt.bfeeLen + sizeofBfeeNotif)).drop 20 =
      pkt.data.read sizeofBfeeNotif pkt.bfeeLen := by
    rw [Nat.add_comm, Memory.read_add, Nat.zero_add]
    exact List.drop_left' (pkt.data.length_read ..)
  have hcsi : readBfeeCsi (pkt.data.read sizeofBfeeNotif pkt.bfeeLen) (pkt.data 8).toNat
      (pkt.data 9).toNat = (.ok (bfeeIn pkt).csi : Except BfeeError _) := by
    have hrun := bfeeSubcarriers_eq (pkt.data.read sizeofBfeeNotif pkt.bfeeLen)
      ((pkt.data 8).toNat * (pkt.data 9).toNat) 0 30 (by
        rw [Memory.length_read, h, bfeeCalcLen, bfeeIn]
        dsimp only
        omega)
    rwa [Nat.zero_mul] at hrun
  have hcalc : (pkt.data 16).toNat + (pkt.data 17).toNat <<< 8 =
      bfeeCalcLen (pkt.data 8).toNat (pkt.data 9).toNat := hlen.trans h
  simp only [readBfee, hhead, hpayload, bind, Except.bind]
  simp only [List.range_succ, List.range_zero, List.nil_append, List.cons_append, List.map_cons,
    List.map_nil, List.getD_cons_zero, List.getD_cons_succ, hcalc, ne_eq, not_true_eq_false,
    if_false, hcsi]
  simp only [bfeeIn, readLe_two, readLe_four]
  rfl

/-! ## Stamping a report -/

/-- A masked field of a word that fits a byte. -/
theorem toNat_masked (w : ℕ) {mask k : ℕ} (h : mask >>> k < 2 ^ 8) :
    (UInt8.ofNat ((w &&& mask) >>> k)).toNat = (w &&& mask) >>> k := by
  refine UInt8.toNat_ofNat_of_lt' (lt_of_le_of_lt ?_ h)
  rw [Nat.shiftRight_eq_div_pow, Nat.shiftRight_eq_div_pow]
  exact Nat.div_le_div_right Nat.and_le_right

section Stamp

variable (priv : DvmPriv) (data : Memory)

/-- The bytes that the driver leaves alone: the numbers of antennas, the length and the payload. -/
theorem stampBfee_of_disjoint {a : ℕ} (h : a = 8 ∨ a = 9 ∨ a = 16 ∨ a = 17 ∨ 20 ≤ a) :
    stampBfee priv data a = data a := by
  unfold stampBfee
  dsimp only
  split <;> simp (disch := simp; omega) only [Memory.write_of_disjoint]

/-- The bytes that it writes. -/
theorem stampBfee_byte : let word (i : ℕ) : ℕ := priv.lastPhyRes.nonCfg.getD i 0
    (stampBfee priv data 10).toNat = word 2 &&& 0x00ff ∧
    (stampBfee priv data 11).toNat = (word 2 &&& 0xff0000) >>> 16 ∧
    (stampBfee priv data 12).toNat = word 3 &&& 0x00ff ∧
    stampBfee priv data 13 = UInt8.ofBitVec (BitVec.ofInt 8 priv.lastRxNoise) ∧
    (stampBfee priv data 14).toNat = (word 1 &&& 0xfe00) >>> 9 ∧
    stampBfee priv data 15 =
      if 0 < priv.lastPhyRes.cfgPhyCnt then UInt8.ofNat priv.lastCfgPhyBuf else data 15 := by
  have hlow (w : ℕ) : (UInt8.ofNat (w &&& 0x00ff)).toNat = w &&& 0x00ff :=
    toNat_masked w (k := 0) (by decide)
  have hmid (w : ℕ) : (UInt8.ofNat ((w &&& 0xff0000) >>> 16)).toNat = (w &&& 0xff0000) >>> 16 :=
    toNat_masked w (by decide)
  have hagc (w : ℕ) : (UInt8.ofNat ((w &&& 0xfe00) >>> 9)).toNat = (w &&& 0xfe00) >>> 9 :=
    toNat_masked w (by decide)
  unfold stampBfee
  dsimp only
  split <;>
    simp (disch := simp) only [Memory.write_of_disjoint, Memory.write_singleton_self, hlow, hmid,
      hagc, and_self]

/-- The words that it writes. -/
theorem stampBfee_word : (stampBfee priv data).readLe 0 4 = priv.lastPhyRes.timestamp % 2 ^ 32 ∧
    (stampBfee priv data).readLe 4 2 = (priv.bfeeCount + 1) % 2 ^ 16 ∧
    (stampBfee priv data).readLe 18 2 = priv.lastPhyRes.rateNFlags &&& 0x3fff := by
  have hrate : (priv.lastPhyRes.rateNFlags &&& 0x3fff) % 256 ^ 2 =
      priv.lastPhyRes.rateNFlags &&& 0x3fff :=
    Nat.mod_eq_of_lt (Nat.and_le_right.trans_lt (by decide))
  have hword (mem : Memory) (pos n v : ℕ) :
      (mem.write pos (leBytes n v)).readLe pos n = v % 256 ^ n := mem.readLe_writeLe pos n v
  unfold stampBfee
  dsimp only
  split <;>
    simp (disch := simp) only [Memory.readLe_write_of_disjoint, hword, hrate] <;> trivial

/-- **To stamp the bytes is to stamp the struct.** -/
theorem bfeeIn_stampIfValid (pkt : DvmPacket) :
    bfeeIn (stampIfValid priv pkt).2 = stamped priv (bfeeIn pkt) := by
  rw [stampIfValid]
  by_cases hvalid : priv.lastPhyResValid = true
  · rw [if_pos hvalid]
    obtain ⟨hrssiA, hrssiB, hrssiC, hnoise, hagc, hsel⟩ := stampBfee_byte priv pkt.data
    obtain ⟨htime, hcount, hrate⟩ := stampBfee_word priv pkt.data
    have hlen : (stampBfee priv pkt.data).read 16 2 = pkt.data.read 16 2 :=
      Memory.read_congr fun i hi => stampBfee_of_disjoint priv pkt.data (by omega)
    have hpayload (n : ℕ) : (stampBfee priv pkt.data).read sizeofBfeeNotif n =
        pkt.data.read sizeofBfeeNotif n :=
      Memory.read_congr fun i _ => stampBfee_of_disjoint priv pkt.data (by
        simp only [sizeofBfeeNotif]
        omega)
    have hnoise' : signed 8 (UInt8.ofBitVec (BitVec.ofInt 8 priv.lastRxNoise)).toNat =
        (BitVec.ofInt 8 priv.lastRxNoise).toInt := by
      rw [UInt8.toNat_ofBitVec, signed, BitVec.ofNat_toNat, BitVec.setWidth_eq]
    rw [stamped, if_pos hvalid]
    simp only [bfeeIn, DvmPacket.bfeeLen, hlen, hpayload, htime, hcount, hrate, hrssiA, hrssiB,
      hrssiC, hnoise, hnoise', hagc, hsel, stampBfee_of_disjoint, true_or, or_true]
    split <;> simp only [UInt8.toNat_ofNat']
  · rw [if_neg hvalid, stamped, if_neg hvalid]

/-- A stamped report still has the right length. -/
theorem hasCalcLen_stampIfValid {pkt : DvmPacket} (h : HasCalcLen pkt) :
    (stampIfValid priv pkt).2.bfeeLen = pkt.bfeeLen ∧ HasCalcLen (stampIfValid priv pkt).2 := by
  have hlen : (stampIfValid priv pkt).2.bfeeLen = pkt.bfeeLen := by
    unfold stampIfValid
    split
    · exact congrArg leNat (Memory.read_congr fun i hi =>
        stampBfee_of_disjoint priv pkt.data (by omega))
    · rfl
  have hstamped : (bfeeIn (stampIfValid priv pkt).2).nrx = (bfeeIn pkt).nrx ∧
      (bfeeIn (stampIfValid priv pkt).2).ntx = (bfeeIn pkt).ntx := by
    rw [bfeeIn_stampIfValid, stamped]
    split <;> exact ⟨rfl, rfl⟩
  refine ⟨hlen, ?_⟩
  rw [HasCalcLen, hlen, hstamped.1, hstamped.2]
  exact h

end Stamp

end Iax.Incsi
