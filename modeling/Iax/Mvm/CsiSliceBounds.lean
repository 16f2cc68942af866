import Iax.Mvm.CsiReassembly
import Mathlib.Algebra.Order.BigOperators.Group.List

/-!
# The slices of a CSI event

`iwl_mvm_csi_complete` collects one entry `(data, len)` for each parked chunk, and
`iwl_mvm_send_csi_event` adds the lengths up and copies the bytes into one netlink attribute, whose
length field has 16 bits.

* `SendsAll`: the entries lie inside their packets, the attribute holds all of them, and its length
  fits.
* `sendsAll_iff`: that is so if and only if the collected packets have room for their own header, no
  chunk of size zero comes before one with data, and the sizes sum up to at most 65531.

The check of `iwl_mvm_csi_complete` alone gives the first for packets that are as long as their
header (`chunkFits_iff`): `iwl_rx_packet_payload_len` of a shorter one wraps around.
-/

namespace Iax.Mvm

open Bytes

/-! ## The payload of a packet -/

/-- `sizeof(pkt->hdr)`, as `iwl_rx_packet_payload_len` subtracts it. -/
def sizeofPktHdr : ℕ := 4

/-- The bytes that the packet has after its header, none if it is shorter than that. -/
def RxPacket.payloadSize (pkt : RxPacket) : ℕ := (iwlRxPacketLen pkt).toNat - sizeofPktHdr

theorem iwlRxPacketLen_lt (pkt : RxPacket) : (iwlRxPacketLen pkt).toNat < 2 ^ 14 := by
  have hle := Nat.and_le_right (n := pkt.lenNFlags.toNat) (m := 0x3fff)
  rw [iwlRxPacketLen, BitVec.toNat_and]
  exact Nat.lt_of_le_of_lt hle (by decide)

/-- The subtraction is exact for packets as long as their header. -/
theorem iwlRxPacketPayloadLen_eq {pkt : RxPacket} (h : sizeofPktHdr ≤ (iwlRxPacketLen pkt).toNat) :
    iwlRxPacketPayloadLen pkt = pkt.payloadSize := by
  have hle : 4#32 ≤ iwlRxPacketLen pkt := h
  rw [iwlRxPacketPayloadLen, BitVec.toNat_sub_of_le hle]
  rfl

/-- For such packets the check is about the packet's own bytes. -/
theorem chunkFits_iff {pkt : RxPacket} (h : sizeofPktHdr ≤ (iwlRxPacketLen pkt).toNat) :
    pkt.ChunkFits ↔ sizeofCsiChunkNotification + pkt.chunk.size ≤ pkt.payloadSize := by
  rw [RxPacket.ChunkFits, iwlRxPacketPayloadLen_eq h]

/-! ## The data attribute -/

/-- The entries that `iwl_mvm_send_csi_event` gets to: its loops run while `len[i] && data[i]`. -/
def CsiEvent.sent (e : CsiEvent) : List CsiSlice := e.slices.takeWhile fun s => s.len ≠ 0

/-- `data_len` -/
def CsiEvent.dataLen (e : CsiEvent) : BitVec 32 :=
  e.sent.foldl (fun dataLen s => dataLen + BitVec.ofNat 32 s.len) 0

/-- `NLA_HDRLEN` -/
def nlaHdrlen : ℕ := 4

/-- Every entry lies inside the payload of its packet, the attribute is all entries in order, and
`nla_len`, which counts the attribute's header, fits in 16 bits. -/
structure SendsAll (e : CsiEvent) : Prop where
  inside : ∀ s ∈ e.slices, sizeofCsiChunkNotification + s.len ≤ s.buf.pkt.payloadSize
  whole : e.sendData = e.slices.flatMap CsiSlice.bytes
  fits : nlaHdrlen + e.dataLen.toNat < 2 ^ 16

/-- The sizes of the chunks before the first one of size zero. -/
def sizesSent (chunks : List RxCmdBuffer) : List ℕ :=
  (chunks.map fun c => c.pkt.chunk.size).takeWhile (· ≠ 0)

/-- What the collected chunks have to meet. -/
structure Sendable (chunks : List RxCmdBuffer) : Prop where
  hdr : ∀ c ∈ chunks, sizeofPktHdr ≤ (iwlRxPacketLen c.pkt).toNat
  noGap : NoGap chunks
  total : (sizesSent chunks).sum ≤ 65531

/-- The sum in 32 bits. -/
theorem toNat_foldl_add {α : Type*} (f : α → ℕ) (l : List α) (n : BitVec 32) :
    (l.foldl (fun n a => n + BitVec.ofNat 32 (f a)) n).toNat =
      (n.toNat + (l.map f).sum) % 2 ^ 32 := by
  induction l generalizing n with
  | nil => exact (Nat.mod_eq_of_lt n.isLt).symm
  | cons a l ih =>
    rw [List.foldl_cons, ih, BitVec.toNat_add, BitVec.toNat_ofNat, List.map_cons, List.sum_cons]
    omega

/-- The lengths that are added up for an event are the sizes of its chunks. -/
theorem toNat_dataLen (env : CsiEnv) (hdr : RxCmdBuffer) (chunks : List RxCmdBuffer) :
    (csiEvent env hdr (chunks.map chunkSlice)).dataLen.toNat = (sizesSent chunks).sum % 2 ^ 32 := by
  have hlens : (csiEvent env hdr (chunks.map chunkSlice)).sent.map CsiSlice.len =
      sizesSent chunks := by
    simp only [CsiEvent.sent, csiEvent, sizesSent, List.takeWhile_map, List.map_map]
    rfl
  rw [CsiEvent.dataLen, toNat_foldl_add, hlens]
  simp

/-! ## What is collected -/

theorem length_occupied_le (s : CsiDataEntries) (is : List ℕ) :
    (occupied s is).length ≤ is.length := by
  induction is with
  | nil => exact Nat.le_refl 0
  | cons i is ih =>
    cases hi : s.entry i with
    | none => simp [occupied, hi]
    | some buf => simpa [occupied, hi] using ih

/-- At most 16 chunks that fit packets of less than `2 ^ 14` bytes: their sum does not wrap
around. -/
theorem sum_sizesSent_lt {chunks : List RxCmdBuffer} (hlen : chunks.length ≤ iwlCsiMaxExpectedChunks)
    (h : ∀ c ∈ chunks, sizeofCsiChunkNotification + c.pkt.chunk.size ≤ c.pkt.payloadSize) :
    (sizesSent chunks).sum < 2 ^ 32 := by
  have hsize : ∀ n ∈ sizesSent chunks, n ≤ 2 ^ 14 := by
    intro n hn
    obtain ⟨c, hc, rfl⟩ := List.mem_map.1 ((List.takeWhile_sublist _).subset hn)
    have hlt := iwlRxPacketLen_lt c.pkt
    have hfit := h c hc
    rw [RxPacket.payloadSize] at hfit
    omega
  have hshort : (sizesSent chunks).length ≤ iwlCsiMaxExpectedChunks := by
    have hle :=
      (List.takeWhile_sublist (· ≠ 0) (l := chunks.map fun c => c.pkt.chunk.size)).length_le
    rw [List.length_map] at hle
    exact hle.trans hlen
  calc (sizesSent chunks).sum ≤ (sizesSent chunks).length * 2 ^ 14 := by
        simpa using List.sum_le_card_nsmul _ _ hsize
    _ ≤ 16 * 2 ^ 14 := Nat.mul_le_mul_right _ hshort
    _ < 2 ^ 32 := by decide

/-- **The event of chunks that passed the check.** -/
theorem sendsAll_csiEvent_iff (env : CsiEnv) (hdr : RxCmdBuffer) {chunks : List RxCmdBuffer}
    (hlen : chunks.length ≤ iwlCsiMaxExpectedChunks) (hfits : ∀ c ∈ chunks, c.pkt.ChunkFits) :
    SendsAll (csiEvent env hdr (chunks.map chunkSlice)) ↔ Sendable chunks := by
  have hwhole : (csiEvent env hdr (chunks.map chunkSlice)).sendData =
      (csiEvent env hdr (chunks.map chunkSlice)).slices.flatMap CsiSlice.bytes ↔ NoGap chunks := by
    rw [← sendData_eq_iff env hdr chunks, csiEvent, List.flatMap_map]
    rfl
  have hin : (∀ s ∈ (csiEvent env hdr (chunks.map chunkSlice)).slices,
      sizeofCsiChunkNotification + s.len ≤ s.buf.pkt.payloadSize) ↔
        ∀ c ∈ chunks, sizeofCsiChunkNotification + c.pkt.chunk.size ≤ c.pkt.payloadSize := by
    rw [csiEvent, List.forall_mem_map]
    rfl
  -- inside the packets the sum of the lengths is exact
  have hsum : (∀ c ∈ chunks, sizeofCsiChunkNotification + c.pkt.chunk.size ≤ c.pkt.payloadSize) →
      (csiEvent env hdr (chunks.map chunkSlice)).dataLen.toNat = (sizesSent chunks).sum :=
    fun h => by rw [toNat_dataLen, Nat.mod_eq_of_lt (sum_sizesSent_lt hlen h)]
  constructor
  · intro h
    have hinside := hin.1 h.inside
    have hfit := h.fits
    rw [hsum hinside, nlaHdrlen] at hfit
    refine ⟨fun c hc => ?_, hwhole.1 h.whole, by omega⟩
    have hroom := hinside c hc
    rw [RxPacket.payloadSize, sizeofCsiChunkNotification] at hroom
    omega
  · intro h
    have hinside : ∀ c ∈ chunks,
        sizeofCsiChunkNotification + c.pkt.chunk.size ≤ c.pkt.payloadSize :=
      fun c hc => (chunkFits_iff (h.hdr c hc)).1 (hfits c hc)
    refine ⟨hin.2 hinside, hwhole.2 h.noGap, ?_⟩
    have htotal := h.total
    rw [hsum hinside, nlaHdrlen]
    omega

/-! ## Completing -/

/-- **Slices.** Whatever is parked, an event that completing hands over has all its slices inside
their packets, all of them in its data attribute, and an attribute length that fits, if and only if
the collected chunks meet the condition. -/
theorem sendsAll_iff {m : IwlMvm} {env : CsiEnv} {e : CsiEvent}
    (h : (iwlMvmCsiComplete m env).csiEvents = m.csiEvents ++ [e]) :
    SendsAll e ↔ Sendable (occupied m.csiDataEntries chunkSlots) := by
  rw [complete_csiEvents, List.append_cancel_left_eq] at h
  split at h
  · split at h
    · rename_i hdrBuf _ hok
      obtain rfl := List.singleton_inj.1 h
      exact sendsAll_csiEvent_iff env hdrBuf (length_occupied_le _ _) hok.2
    · cases h
  · cases h

/-- The header and the chunks of a measurement, parked. -/
def IwlMvm.parked (M : Measurement) : IwlMvm where
  csiDataEntries := fun i => (M.hdr :: M.chunks)[i.val]?
  csiNotif := 2
  csiEvents := []

theorem sendsAll_iff_full :
    SendsAll (csiEvent default (Measurement.produce 1 [7] [[1, 2], [3]]).hdr
      ((Measurement.produce 1 [7] [[1, 2], [3]]).chunks.map chunkSlice)) := by
  refine (@sendsAll_iff (.parked (.produce 1 [7] [[1, 2], [3]])) default _ ?_).2 ?_
  · decide +kernel
  · exact ⟨by decide +kernel, by decide +kernel, by decide +kernel⟩

/-- The chunk of size zero hides the data of the next one. -/
theorem not_sendsAll :
    (iwlMvmCsiComplete (.parked (.produce 1 [7] [[], [5]])) default).csiEvents =
        [csiEvent default (Measurement.produce 1 [7] [[], [5]]).hdr
          ((Measurement.produce 1 [7] [[], [5]]).chunks.map chunkSlice)] ∧
      ¬ SendsAll (csiEvent default (Measurement.produce 1 [7] [[], [5]]).hdr
        ((Measurement.produce 1 [7] [[], [5]]).chunks.map chunkSlice)) := by
  refine ⟨by decide +kernel, fun h => ?_⟩
  have hwhole := h.whole
  revert hwhole
  decide +kernel

end Iax.Mvm
