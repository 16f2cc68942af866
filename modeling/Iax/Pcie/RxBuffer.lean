import Iax.Lib.AlignedFrames
import Iax.Mvm.CsiSlots

/-!
# The packets of a receive buffer

The firmware puts as many packets into a receive buffer as there is room for, each at a multiple of
64 bytes, and `iwl_pcie_rx_handle_rb` (`pcie/rx.c`) hands them to the op mode one by one. The length
that a packet announces decides where the next one is looked for.

* `handlePackets` is the loop, `RxCall` what one turn of it does, `iwlPcieRxHandleRb` what the
  function does.
* `rx_buffer_inside`: whatever the buffer holds, the packets that are handed on lie inside it and do
  not overlap.
* `rx_buffer_exact`: the packets of the firmware are handed on, all of them, in order and once each;
  from the AX210 on, a buffer has one.
-/

namespace Iax.Pcie

open Bytes Mvm

/-- `FH_RSCSR_FRAME_INVALID`. -/
def fhRscsrFrameInvalid : BitVec 32 := 0x55550000#32

/-- `FH_RSCSR_FRAME_ALIGN`. -/
def fhRscsrFrameAlign : ℕ := 0x40

/-- `sizeof(struct iwl_rx_packet)`, which is `sizeof(u32) + sizeof(struct iwl_cmd_header)`. -/
def sizeofRxPacket : ℕ := 8

/-- `SEQ_RX_FRAME`, as a number of the processor. -/
def seqRxFrame : ℕ := 0x8000

/-- `struct iwl_cmd_header`. -/
structure CmdHeader where
  cmd : ℕ
  groupId : ℕ
  sequence : ℕ
  deriving DecidableEq

/-- The packet that stands at an offset of the buffer. -/
def rxbAddr (mem : Bytes) (offset : ℕ) : RxPacket where
  lenNFlags := BitVec.ofNat 32 (leNat ((mem.drop offset).take 4))
  data := mem.drop (offset + sizeofRxPacket)

/-- `pkt->hdr` of that packet. -/
def rxbHdr (mem : Bytes) (offset : ℕ) : CmdHeader where
  cmd := leNat ((mem.drop (offset + 4)).take 1)
  groupId := leNat ((mem.drop (offset + 5)).take 1)
  sequence := leNat ((mem.drop (offset + 6)).take 2)

/-- What the function reads of the transport; `ax210` says that the device is of this family or a
later one. -/
structure RbConfig where
  rxBufBytes : ℕ
  noReclaimCmds : List ℕ
  ax210 : Bool

/-- One call of the op mode: the packet's offset and its length, with the status word, and whether
it answers a command, whose buffer is then given back. -/
structure RxCall where
  offset : ℕ
  len : ℕ
  reclaim : Bool
  deriving DecidableEq

/-- The firmware should set `SEQ_RX_FRAME` in what it sends by itself, and forgets it in a few
legacy commands. -/
def RbConfig.reclaim (cfg : RbConfig) (hdr : CmdHeader) : Bool :=
  hdr.sequence &&& seqRxFrame = 0 ∧ ¬(hdr.groupId = 0 ∧ hdr.cmd ∈ cfg.noReclaimCmds)

/-- The `while` loop of `iwl_pcie_rx_handle_rb`, from an offset on. -/
def handlePackets (cfg : RbConfig) (mem : Bytes) (offset : ℕ) : List RxCall :=
  if offset + sizeofRxPacket < cfg.rxBufBytes then
    let pkt := rxbAddr mem offset
    if pkt.lenNFlags = fhRscsrFrameInvalid then []
    else
      -- account for the status word
      let len := (iwlRxPacketLen pkt).toNat + 4
      let next := offset + alignUp fhRscsrFrameAlign len
      if len < sizeofRxPacket ∨ cfg.rxBufBytes < next then []
      else
        ⟨offset, len, cfg.reclaim (rxbHdr mem offset)⟩ ::
          if cfg.ax210 then [] else handlePackets cfg mem next
  else []
termination_by cfg.rxBufBytes - offset
decreasing_by
  have hpos := alignUp_pos (a := fhRscsrFrameAlign) (by decide) (Nat.add_pos_right
    (iwlRxPacketLen (rxbAddr mem offset)).toNat (show 0 < 4 by decide))
  omega

/-- What `iwl_pcie_rx_handle_rb` does: the calls of the op mode, the sequence numbers of the
commands whose buffers are given back, the calls that `iwl_pcie_hcmd_complete` is told of, and
whether the buffer lost its page. -/
structure RbResult where
  calls : List RxCall
  freeBufs : List ℕ
  completed : List RxCall
  pageStolen : Bool

/-- `iwl_pcie_rx_handle_rb`, up to what becomes of the buffer; `steals` says of which packets the op
mode keeps the page. -/
def iwlPcieRxHandleRb (cfg : RbConfig) (steals : RxCall → Bool) (mem : Bytes) : RbResult :=
  let calls := handlePackets cfg mem 0
  { calls := calls
    freeBufs := (calls.filter RxCall.reclaim).map fun c => (rxbHdr mem c.offset).sequence
    completed := calls.filter fun c => c.reclaim && !steals c
    pageStolen := calls.any steals }

/-! ## Any buffer -/

variable {cfg : RbConfig} {mem : Bytes} {offset : ℕ}

/-- One turn of the loop: it ends, or hands a packet on that lies inside the buffer. -/
theorem handlePackets_cases (cfg : RbConfig) (mem : Bytes) (offset : ℕ) :
    handlePackets cfg mem offset = [] ∨
      ∃ len reclaim, len = (iwlRxPacketLen (rxbAddr mem offset)).toNat + 4 ∧ sizeofRxPacket ≤ len ∧
        offset + alignUp fhRscsrFrameAlign len ≤ cfg.rxBufBytes ∧
        handlePackets cfg mem offset = ⟨offset, len, reclaim⟩ ::
          if cfg.ax210 then []
          else handlePackets cfg mem (offset + alignUp fhRscsrFrameAlign len) := by
  rw [handlePackets]
  split
  · dsimp only
    split
    · exact .inl rfl
    · split
      · exact .inl rfl
      · rename_i hok
        rw [not_or, not_lt, not_lt] at hok
        exact .inr ⟨_, _, rfl, hok.1, hok.2, rfl⟩
  · exact .inl rfl

/-- A packet that is handed on stands at an aligned offset, has a whole header and ends inside the
buffer. -/
structure RxCall.Inside (cfg : RbConfig) (mem : Bytes) (c : RxCall) : Prop where
  aligned : fhRscsrFrameAlign ∣ c.offset
  header : sizeofRxPacket ≤ c.len
  announced : c.len = (iwlRxPacketLen (rxbAddr mem c.offset)).toNat + 4
  inside : c.offset + c.len ≤ cfg.rxBufBytes

theorem handlePackets_inside (k : ℕ) (hk : cfg.rxBufBytes - offset ≤ k)
    (halign : fhRscsrFrameAlign ∣ offset) :
    (∀ c ∈ handlePackets cfg mem offset, c.Inside cfg mem ∧ offset ≤ c.offset) ∧
      (handlePackets cfg mem offset).Pairwise fun c d => c.offset + c.len ≤ d.offset := by
  induction k generalizing offset with
  | zero =>
    have hend : handlePackets cfg mem offset = [] := by
      rw [handlePackets, if_neg (by omega)]
    rw [hend]
    exact ⟨fun c hc => absurd hc List.not_mem_nil, .nil⟩
  | succ k ih =>
    rcases handlePackets_cases cfg mem offset with hend | ⟨len, reclaim, hlen, hhdr, hin, heq⟩
    · rw [hend]
      exact ⟨fun c hc => absurd hc List.not_mem_nil, .nil⟩
    · have hle := le_alignUp (a := fhRscsrFrameAlign) (by decide) len
      have hfirst : RxCall.Inside cfg mem ⟨offset, len, reclaim⟩ :=
        ⟨halign, hhdr, hlen, by dsimp only; omega⟩
      rw [sizeofRxPacket] at hhdr
      rw [heq]
      split
      · exact ⟨by simpa using hfirst, by simp⟩
      · have hnext : fhRscsrFrameAlign ∣ offset + alignUp fhRscsrFrameAlign len :=
          Nat.dvd_add halign (dvd_alignUp _ _)
        obtain ⟨hall, hpair⟩ := ih (by omega) hnext
        refine ⟨List.forall_mem_cons.2 ⟨⟨hfirst, le_rfl⟩, fun c hc => ⟨(hall c hc).1, ?_⟩⟩,
          List.pairwise_cons.2 ⟨fun c hc => ?_, hpair⟩⟩
        · have := (hall c hc).2
          omega
        · have := (hall c hc).2
          dsimp only
          omega

/-- A packet of the firmware: the flags of `len_n_flags`, above the size, the command header and the
payload. -/
structure FwPacket where
  flags : BitVec 18
  cmd : UInt8
  groupId : UInt8
  sequence : BitVec 16
  payload : Bytes

namespace FwPacket

/-- `len_n_flags`; the size counts the command header. -/
def lenNFlags (p : FwPacket) : ℕ := p.flags.toNat * 2 ^ 14 + (4 + p.payload.length)

/-- The packet as it stands in the buffer. -/
def bytes (p : FwPacket) : Bytes :=
  leBytes 4 p.lenNFlags ++ ([p.cmd, p.groupId] ++ (leBytes 2 p.sequence.toNat ++ p.payload))

/-- The size fits its field. -/
def Fits (p : FwPacket) : Prop := 4 + p.payload.length < 2 ^ 14

instance (p : FwPacket) : Decidable p.Fits := inferInstanceAs (Decidable (_ < _))

theorem length_bytes (p : FwPacket) : p.bytes.length = sizeofRxPacket + p.payload.length := by
  simp only [bytes, List.length_append, length_leBytes, List.length_cons, List.length_nil,
    sizeofRxPacket]
  omega

theorem lenNFlags_lt {p : FwPacket} (h : p.Fits) : p.lenNFlags < 2 ^ 32 := by
  have hflags := p.flags.isLt
  rw [Fits] at h
  rw [lenNFlags]
  omega

end FwPacket

/-- The call is about this packet of the firmware: the same bytes, header and payload, and it
completes a command unless the firmware marked it as its own, or forgot to. -/
structure RxCall.IsOf (cfg : RbConfig) (mem : Bytes) (c : RxCall) (p : FwPacket) : Prop where
  bytes : (mem.drop c.offset).take c.len = p.bytes
  word : (rxbAddr mem c.offset).lenNFlags = BitVec.ofNat 32 p.lenNFlags
  payload : p.payload <+: (rxbAddr mem c.offset).data
  payloadLen : iwlRxPacketPayloadLen (rxbAddr mem c.offset) = p.payload.length
  hdr : rxbHdr mem c.offset = ⟨p.cmd.toNat, p.groupId.toNat, p.sequence.toNat⟩
  reclaim : c.reclaim = cfg.reclaim ⟨p.cmd.toNat, p.groupId.toNat, p.sequence.toNat⟩

section Packet

variable {p : FwPacket} (hp : p.Fits) (hat : p.bytes <+: mem.drop offset)
include hp hat

theorem rxbAddr_word : (rxbAddr mem offset).lenNFlags = BitVec.ofNat 32 p.lenNFlags := by
  obtain ⟨rest, hrest⟩ := hat
  have htake : (mem.drop offset).take 4 = leBytes 4 p.lenNFlags := by
    rw [← hrest, FwPacket.bytes, List.append_assoc, List.take_left' (length_leBytes 4 _)]
  rw [rxbAddr]
  dsimp only
  rw [htake, leNat_leBytes_of_lt (by simpa using FwPacket.lenNFlags_lt hp)]

theorem iwlRxPacketLen_rxbAddr :
    (iwlRxPacketLen (rxbAddr mem offset)).toNat = 4 + p.payload.length := by
  have hword := rxbAddr_word hp hat
  have hlt := FwPacket.lenNFlags_lt hp
  rw [FwPacket.Fits] at hp
  have hmask : (0x3fff#32).toNat = 2 ^ 14 - 1 := rfl
  rw [iwlRxPacketLen, hword, BitVec.toNat_and, BitVec.toNat_ofNat, Nat.mod_eq_of_lt hlt, hmask,
    Nat.and_two_pow_sub_one_eq_mod, FwPacket.lenNFlags]
  omega

theorem isOf_of_drop_eq : RxCall.IsOf cfg mem
    ⟨offset, 4 + p.payload.length + 4, cfg.reclaim (rxbHdr mem offset)⟩ p := by
  have hword := rxbAddr_word hp hat
  have hlen := iwlRxPacketLen_rxbAddr hp hat
  obtain ⟨rest, hrest⟩ := hat
  have hdrop : ∀ k, mem.drop (offset + k) = (p.bytes ++ rest).drop k := fun k => by
    rw [← List.drop_drop, hrest]
  have hdata : (rxbAddr mem offset).data = p.payload ++ rest := by
    rw [rxbAddr]
    dsimp only
    rw [hdrop]
    rfl
  have hhdr : rxbHdr mem offset = ⟨p.cmd.toNat, p.groupId.toNat, p.sequence.toNat⟩ := by
    have hseq : ((mem.drop (offset + 6)).take 2) = leBytes 2 p.sequence.toNat := by
      rw [hdrop]
      rfl
    have hlt : p.sequence.toNat < 256 ^ 2 := by simpa using p.sequence.isLt
    rw [rxbHdr, hseq, leNat_leBytes_of_lt hlt, hdrop, hdrop]
    simp [FwPacket.bytes, leBytes]
  refine ⟨?_, hword, ?_, ?_, hhdr, by rw [hhdr]⟩
  · have hsize : 4 + p.payload.length + 4 = p.bytes.length := by
      rw [FwPacket.length_bytes, sizeofRxPacket]
      omega
    dsimp only
    rw [← hrest, hsize, List.take_left]
  · rw [hdata]
    exact List.prefix_append _ _
  · rw [FwPacket.Fits] at hp
    rw [iwlRxPacketPayloadLen, BitVec.toNat_sub, hlen]
    simp only [BitVec.toNat_ofNat]
    omega

/-- A turn of the loop at a packet of the firmware. -/
theorem handlePackets_packet
    (hfit : offset + alignUp fhRscsrFrameAlign p.bytes.length ≤ cfg.rxBufBytes) :
    handlePackets cfg mem offset =
      ⟨offset, 4 + p.payload.length + 4, cfg.reclaim (rxbHdr mem offset)⟩ ::
        if cfg.ax210 then []
        else handlePackets cfg mem (offset + alignUp fhRscsrFrameAlign p.bytes.length) := by
  have hlen := iwlRxPacketLen_rxbAddr hp hat
  have hsize : 4 + p.payload.length + 4 = p.bytes.length := by
    rw [FwPacket.length_bytes, sizeofRxPacket]
    omega
  have hround : fhRscsrFrameAlign ≤ alignUp fhRscsrFrameAlign p.bytes.length :=
    Nat.le_of_dvd (alignUp_pos (by decide) (by omega)) (dvd_alignUp _ _)
  have hvalid : (rxbAddr mem offset).lenNFlags ≠ fhRscsrFrameInvalid := fun hinvalid => by
    have hzero : (iwlRxPacketLen (rxbAddr mem offset)).toNat = 0 := by
      rw [iwlRxPacketLen, hinvalid]
      rfl
    omega
  rw [fhRscsrFrameAlign] at hround
  rw [handlePackets, if_pos (by rw [sizeofRxPacket]; rw [fhRscsrFrameAlign] at hfit; omega)]
  dsimp only
  rw [if_neg hvalid, hlen, hsize, if_neg]
  rw [not_or, not_lt, not_lt]
  exact ⟨by rw [sizeofRxPacket]; omega, hfit⟩

end Packet

/-- Behind the last packet there is no room for another, or the firmware's end marker. -/
def RbEnds (cfg : RbConfig) (mem : Bytes) (fin : ℕ) : Prop :=
  cfg.rxBufBytes ≤ fin + sizeofRxPacket ∨ (rxbAddr mem fin).lenNFlags = fhRscsrFrameInvalid

theorem handlePackets_of_ends (h : RbEnds cfg mem offset) : handlePackets cfg mem offset = [] := by
  rw [handlePackets]
  split
  · rcases h with hroom | hmarker
    · omega
    · exact if_pos hmarker
  · rfl

theorem handlePackets_laid {packets : List FwPacket} {fin : ℕ} (hfits : ∀ p ∈ packets, p.Fits)
    (hlaid : Laid fhRscsrFrameAlign mem offset (packets.map FwPacket.bytes) fin)
    (hfin : fin ≤ cfg.rxBufBytes) (hend : RbEnds cfg mem fin) :
    List.Forall₂ (RxCall.IsOf cfg mem) (handlePackets cfg mem offset)
      (if cfg.ax210 then packets.take 1 else packets) := by
  induction packets generalizing offset with
  | nil =>
    cases hlaid
    rw [handlePackets_of_ends hend]
    split <;> exact .nil
  | cons p packets ih =>
    obtain ⟨hp, hrest⟩ := List.forall_mem_cons.1 hfits
    rw [List.map_cons] at hlaid
    cases hlaid with
    | cons frame rest =>
      rw [handlePackets_packet hp frame (rest.le.trans hfin)]
      have hih := ih hrest rest
      cases hax : cfg.ax210 with
      | true =>
        simp only [if_true, List.take_succ_cons, List.take_zero]
        exact .cons (isOf_of_drop_eq hp frame) .nil
      | false =>
        simp only [hax, Bool.false_eq_true, if_false] at hih ⊢
        exact .cons (isOf_of_drop_eq hp frame) hih

/-- **The firmware's packets**: when they stand in the buffer at multiples of 64, with anything in
between, and the last is followed by the end marker or by no room, the op mode gets exactly these
packets, in their order and once each. From the AX210 on it gets the first. -/
theorem rx_buffer_exact (steals : RxCall → Bool) {packets : List FwPacket} {fin : ℕ}
    (hfits : ∀ p ∈ packets, p.Fits)
    (hlaid : Laid fhRscsrFrameAlign mem 0 (packets.map FwPacket.bytes) fin)
    (hfin : fin ≤ cfg.rxBufBytes) (hend : RbEnds cfg mem fin) :
    List.Forall₂ (RxCall.IsOf cfg mem) (iwlPcieRxHandleRb cfg steals mem).calls
      (if cfg.ax210 then packets.take 1 else packets) :=
  handlePackets_laid hfits hlaid hfin hend

/-- Two packets in a buffer of 256 bytes, the second a command's answer. -/
theorem rx_buffer_exact_two :
    List.Forall₂ (RxCall.IsOf ⟨256, [0x1c], false⟩
        (([⟨0, 0xfa, 8, 0x8000, [1, 2]⟩, ⟨0, 3, 0, 1, []⟩].map FwPacket.bytes).flatMap (pad 64 0) ++
          leBytes 4 0x55550000 ++ List.replicate 124 0))
      (iwlPcieRxHandleRb ⟨256, [0x1c], false⟩ (fun _ => false)
        (([⟨0, 0xfa, 8, 0x8000, [1, 2]⟩, ⟨0, 3, 0, 1, []⟩].map FwPacket.bytes).flatMap (pad 64 0) ++
          leBytes 4 0x55550000 ++ List.replicate 124 0)).calls
      [⟨0, 0xfa, 8, 0x8000, [1, 2]⟩, ⟨0, 3, 0, 1, []⟩] := by
  have hlaid := laid_pad (a := 64) (by decide) (0 : UInt8)
    ([⟨0, 0xfa, 8, 0x8000, [1, 2]⟩, ⟨0, 3, 0, 1, []⟩].map FwPacket.bytes)
    (leBytes 4 0x55550000 ++ List.replicate 124 0)
  rw [← List.append_assoc] at hlaid
  exact rx_buffer_exact (fun _ => false) (by simp [FwPacket.Fits]) hlaid (by decide +kernel)
    (.inr (by decide +kernel))

end Iax.Pcie
