import Iax.Mvm.CsiChannel
import Iax.Mvm.CsiSliceBounds

/-!
# The bytes of an expanded CSI header

`flq_expand_csi_hdr` stores the time and a channel at fixed offsets of the header packet. It knows
neither the length of the packet's payload, which `iwl_mvm_rx_csi_header` is called without a check
of, nor the device family, on which the layout of the recorded MPDU descriptor depends.

* `flqExpandWrites` are its stores, one byte each, and `flqExpandCsiHdr_eq` says that they are all it
  does.
* `touchesOwn_iff`: on the way from a header to its event the stores stay inside the payload, and all
  other bytes are the firmware's, if and only if the payload is longer than the last offset.
* `channelStored_iff`: the channel stored is the one that `iwl_mvm_rx_mpdu_mq` reads from the
  recorded MPDU if and only if the device is from AX210 on or the two layouts agree by chance.
-/

namespace Iax.Mvm

open Bytes

/-! ## Stores -/

/-- Single bytes are stored, each at its offset, in order. -/
def stores (mem : Bytes) (ws : List (UInt8 × ℕ)) : Bytes :=
  ws.foldl (fun mem w => mem.set w.2 w.1) mem

theorem stores_append (mem : Bytes) (ws ws' : List (UInt8 × ℕ)) :
    stores mem (ws ++ ws') = stores (stores mem ws) ws' :=
  List.foldl_append

/-- What is not stored to stays. -/
theorem getElem?_stores_of_ne {mem : Bytes} {ws : List (UInt8 × ℕ)} {i : ℕ}
    (h : ∀ w ∈ ws, w.2 ≠ i) : (stores mem ws)[i]? = mem[i]? := by
  induction ws generalizing mem with
  | nil => rfl
  | cons w ws ih =>
    obtain ⟨hw, hws⟩ := List.forall_mem_cons.1 h
    rw [stores, List.foldl_cons]
    exact (ih hws).trans (List.getElem?_set_ne hw)

theorem memcpyAt_cons (mem : Bytes) (pos : ℕ) (b : UInt8) (src : Bytes) :
    memcpyAt mem pos (b :: src) = memcpyAt (mem.set pos b) (pos + 1) src := by
  refine List.ext_getElem? fun i => ?_
  rw [getElem?_memcpyAt, getElem?_memcpyAt, List.getElem?_set, List.length_set, List.length_cons]
  rcases Nat.lt_trichotomy i pos with hlt | rfl | hgt
  · rw [if_neg (by omega), if_neg (by omega), if_neg (by omega)]
  · by_cases hi : i < mem.length
    · simp [hi]
    · simp [hi]
  · rw [if_neg (Nat.ne_of_lt hgt), show i - pos = i - (pos + 1) + 1 by omega,
      List.getElem?_cons_succ]
    refine if_congr ?_ rfl rfl
    omega

/-- A copy stores its bytes one after the other. -/
theorem memcpyAt_eq_stores (mem : Bytes) (pos : ℕ) (src : Bytes) :
    memcpyAt mem pos src = stores mem (src.zipIdx pos) := by
  induction src generalizing mem pos with
  | nil => simp [memcpyAt, stores]
  | cons b src ih =>
    rw [memcpyAt_cons, ih]
    rfl

/-- The stores of `flq_expand_csi_hdr`. -/
def flqExpandWrites (env : CsiEnv) : List (UInt8 × ℕ) :=
  (leBytes 8 env.unixTs.toNat).zipIdx 208 ++ [(env.flqRes.desc3Channel, csiHdrChannel)]

theorem flqExpandCsiHdr_eq (env : CsiEnv) (csiHdr : Bytes) :
    flqExpandCsiHdr env csiHdr = stores csiHdr (flqExpandWrites env) := by
  rw [flqExpandCsiHdr, memcpyAt_eq_stores, memcpyAt_eq_stores, flqExpandWrites, stores_append]
  rfl

/-- The offsets are the nine from 208 on. -/
theorem map_snd_flqExpandWrites (env : CsiEnv) :
    (flqExpandWrites env).map Prod.snd = List.range' 208 9 := by
  rw [flqExpandWrites, List.map_append, List.zipIdx_map_snd, length_leBytes]
  rfl

theorem mem_range_of_mem_writes {env : CsiEnv} {w : UInt8 × ℕ} (h : w ∈ flqExpandWrites env) :
    208 ≤ w.2 ∧ w.2 ≤ csiHdrChannel := by
  have hmem := List.mem_map_of_mem (f := Prod.snd) h
  rw [map_snd_flqExpandWrites, List.mem_range'_1] at hmem
  exact ⟨hmem.1, Nat.le_of_lt_succ hmem.2⟩

/-! ## From a header to its event -/

/-- The event of the notifications `as`, expanded in the environment `env`: its header packet is one
that arrived, the stores lie inside the packet's payload and only at the offsets 208 to 216, and
elsewhere the receive buffer and the header attribute are as the firmware wrote them. -/
structure TouchesOwn (as : List (CsiNotif × CsiEnv)) (env : CsiEnv) (e : CsiEvent) : Prop where
  received : .header e.hdrBuf ∈ as.map Prod.fst
  region : ∀ w ∈ flqExpandWrites env, 208 ≤ w.2 ∧ w.2 ≤ csiHdrChannel
  inside : ∀ w ∈ flqExpandWrites env, w.2 < e.hdrBuf.pkt.payloadSize
  buffer : ∀ i, i < 208 ∨ csiHdrChannel < i →
    (flqExpandCsiHdr env e.hdrBuf.pkt.data)[i]? = e.hdrBuf.pkt.data[i]?
  sent : ∀ i, i < 208 ∨ csiHdrChannel < i →
    e.hdr[i]? = (e.hdrBuf.pkt.data.take e.hdrBuf.pkt.payloadSize)[i]?

/-- Slot 0 holds what it held before or a header that has arrived. -/
theorem entry_zero_foldl_csiStep {m : IwlMvm} {as : List (CsiNotif × CsiEnv)} {b : RxCmdBuffer}
    (h : (as.foldl csiStep m).csiDataEntries.entry 0 = some b) :
    m.csiDataEntries.entry 0 = some b ∨ .header b ∈ as.map Prod.fst := by
  induction as generalizing m with
  | nil => exact .inl h
  | cons a as ih =>
    rcases ih h with hstep | hin
    · obtain ⟨rxb | rxb, env⟩ := a
      · obtain rfl := csiStep_header_entry_zero env hstep
        exact .inr List.mem_cons_self
      · exact .inl (csiStep_chunk_entry_zero hstep)
    · exact .inr (List.mem_cons_of_mem _ hin)

/-- Outside the offsets nothing is stored. -/
theorem getElem?_flqExpandCsiHdr (env : CsiEnv) (csiHdr : Bytes) {i : ℕ}
    (h : i < 208 ∨ csiHdrChannel < i) : (flqExpandCsiHdr env csiHdr)[i]? = csiHdr[i]? := by
  rw [flqExpandCsiHdr_eq]
  refine getElem?_stores_of_ne fun w hw => ?_
  have hrange := mem_range_of_mem_writes hw
  omega

/-- **Only its own bytes.** Along every run from empty slots, an event's header is expanded inside
its own payload and agrees with the firmware's elsewhere if and only if that payload is longer than
the offset of the channel. -/
theorem touchesOwn_iff {csiNotif : ℕ} {as : List (CsiNotif × CsiEnv)} {rxb : RxCmdBuffer}
    {env : CsiEnv} {e : CsiEvent}
    (h : (csiStep (as.foldl csiStep (.init csiNotif)) (.chunk rxb, env)).csiEvents =
      (as.foldl csiStep (.init csiNotif)).csiEvents ++ [e]) :
    TouchesOwn as env e ↔ csiHdrChannel < e.hdrBuf.pkt.payloadSize := by
  have hlast : (env.flqRes.desc3Channel, csiHdrChannel) ∈ flqExpandWrites env :=
    List.mem_append_right _ (List.mem_singleton_self _)
  refine ⟨fun htouch => htouch.inside _ hlast, fun hsize => ?_⟩
  -- the event is made from what slot 0 holds
  obtain ⟨hdr, hslot, slices, rfl⟩ : ∃ hdr,
      (as.foldl csiStep (.init csiNotif)).csiDataEntries.entry 0 = some hdr ∧
        ∃ slices, e = csiEvent env hdr slices := by
    rcases csiStep_chunk_csiEvents (as.foldl csiStep (.init csiNotif)) rxb env with
      ⟨hnone, -⟩ | ⟨hdr, chunks, idx, hover, hone⟩
    · rw [hnone, List.self_eq_append_right] at h
      cases h
    · rw [hone, List.append_cancel_left_eq, List.singleton_inj] at h
      exact ⟨hdr, hover.header, _, h.symm⟩
  refine ⟨?_, fun w hw => mem_range_of_mem_writes hw,
    fun w hw => Nat.lt_of_le_of_lt (mem_range_of_mem_writes hw).2 hsize,
    fun i hi => getElem?_flqExpandCsiHdr env _ hi, fun i hi => ?_⟩
  · rcases entry_zero_foldl_csiStep hslot with hinit | hin
    · rw [IwlMvm.init, entry_none] at hinit
      cases hinit
    · exact hin
  · -- such a payload is that of a packet as long as its header
    have hlong : sizeofPktHdr ≤ (iwlRxPacketLen hdr.pkt).toNat := by
      have hpos : csiHdrChannel < (iwlRxPacketLen hdr.pkt).toNat - sizeofPktHdr := hsize
      omega
    simp only [csiEvent, iwlRxPacketPayloadLen_eq hlong, List.getElem?_take,
      getElem?_flqExpandCsiHdr env _ hi]

theorem touchesOwn_iff_produce :
    TouchesOwn [(.header (Measurement.produce 1 (.replicate 272 0) [[1]]).hdr, default)] default
      (csiEvent default (Measurement.produce 1 (.replicate 272 0) [[1]]).hdr
        ((Measurement.produce 1 (.replicate 272 0) [[1]]).chunks.map chunkSlice)) := by
  refine (@touchesOwn_iff 2 [(.header (Measurement.produce 1 (.replicate 272 0) [[1]]).hdr, default)]
    (Measurement.produce 1 (.replicate 272 0) [[1]]).chunks[0] default _ ?_).2 ?_
  · decide +kernel
  · decide +kernel

/-- A header packet of 100 bytes at the start of a receive buffer. -/
def shortHdr : RxCmdBuffer := ⟨0, 0, 0, ⟨BitVec.ofNat 32 (sizeofPktHdr + 100), .replicate 272 0⟩⟩

/-- The record of an MPDU on channel 6 of AX210. -/
def shortEnv : CsiEnv := ⟨1, flqMvmRecord (.ofMpdu 6)⟩

/-- Behind its 100 bytes the buffer is changed, at offset 216 from 0 to 6. -/
theorem not_touchesOwn :
    ∃ e, ([(.header shortHdr, shortEnv),
          (.chunk (Measurement.produce 1 [] [[1]]).chunks[0], shortEnv)].foldl csiStep
            (IwlMvm.init 2)).csiEvents = [e] ∧ e.hdrBuf = shortHdr ∧
      shortHdr.pkt.payloadSize = 100 ∧ shortHdr.pkt.data[216]? = some 0 ∧
      (flqExpandCsiHdr shortEnv shortHdr.pkt.data)[216]? = some 6 ∧
      ¬ TouchesOwn [(.header shortHdr, shortEnv)] shortEnv e := by
  refine ⟨csiEvent shortEnv shortHdr ((Measurement.produce 1 [] [[1]]).chunks.map chunkSlice),
    by decide +kernel, rfl, by decide +kernel, by decide +kernel, by decide +kernel, fun h => ?_⟩
  have hinside := h.inside
  revert hinside
  decide +kernel

/-! ## The layouts of the descriptor -/

/-- The members of `struct iwl_rx_mpdu_desc`, the first of each union for all of it. -/
inductive RxMpduDescField
  | mpduLen | macFlags1 | macFlags2 | amsduInfo | phyInfo | macPhyIdx | phyEhtData4 | status
  | reorderData | rssHash | filterMatch | partialHash | rawXsum | reservedXsum | rateNFlags | energyA
  | energyB | channel | macContext | gp2OnAirRise | tsfOnAirRise | phyData5 | reserved
  deriving DecidableEq

/-- A packed structure: its members and their sizes. -/
abbrev PackedStruct := List (RxMpduDescField × ℕ)

/-- `offsetof` -/
def PackedStruct.offsetof (s : PackedStruct) (f : RxMpduDescField) : ℕ :=
  ((s.takeWhile fun m => m.1 ≠ f).map Prod.snd).sum

/-- `struct iwl_rx_mpdu_desc` up to the union of the versions. -/
def rxMpduDesc : PackedStruct :=
  [(.mpduLen, 2), (.macFlags1, 1), (.macFlags2, 1), (.amsduInfo, 1), (.phyInfo, 2), (.macPhyIdx, 1),
    (.phyEhtData4, 4), (.status, 4), (.reorderData, 4)]

/-- With `struct iwl_rx_mpdu_desc_v1`. -/
def rxMpduDescV1 : PackedStruct := rxMpduDesc ++
  [(.rssHash, 4), (.filterMatch, 4), (.rateNFlags, 4), (.energyA, 1), (.energyB, 1), (.channel, 1),
    (.macContext, 1), (.gp2OnAirRise, 4), (.tsfOnAirRise, 8)]

/-- With `struct iwl_rx_mpdu_desc_v3`. -/
def rxMpduDescV3 : PackedStruct := rxMpduDesc ++
  [(.filterMatch, 4), (.rssHash, 4), (.partialHash, 4), (.rawXsum, 2), (.reservedXsum, 2),
    (.rateNFlags, 4), (.energyA, 1), (.energyB, 1), (.channel, 1), (.macContext, 1),
    (.gp2OnAirRise, 4), (.tsfOnAirRise, 8), (.phyData5, 4), (.reserved, 4)]

/-- `flq_mvm_record` copies the longer layout. -/
example : (rxMpduDescV3.map Prod.snd).sum = sizeofRxMpduDesc := rfl

/-- The receive path reads the channel at its place in the layout of the device. -/
theorem mpduChannel_eq (family : DeviceFamily) (pkt : RxPacket) :
    mpduChannel family pkt = pkt.data.getD
      ((if .ax210 ≤ family then rxMpduDescV3 else rxMpduDescV1).offsetof .channel) 0 := by
  rw [mpduChannel]
  split_ifs <;> rfl

/-- `flq_expand_csi_hdr` reads it at its place in version 3. -/
theorem recordedChannel_eq (pkt : RxPacket) :
    (flqMvmRecord pkt).desc3Channel = pkt.data.getD (rxMpduDescV3.offsetof .channel) 0 :=
  desc3Channel_flqMvmRecord pkt

/-- The channel is the one byte that is stored at its offset. -/
theorem mem_flqExpandWrites_channel {env : CsiEnv} {c : UInt8} :
    (c, csiHdrChannel) ∈ flqExpandWrites env ↔ c = env.flqRes.desc3Channel := by
  rw [flqExpandWrites, List.mem_append, List.mem_singleton, Prod.mk.injEq, and_iff_left rfl,
    or_iff_right_iff_imp]
  intro hmem
  have hlt := (List.mem_zipIdx hmem).2.1
  rw [length_leBytes] at hlt
  exact absurd hlt (Nat.lt_irrefl _)

/-- **The channel of both layouts.** The byte that is stored as the channel is the channel of the
recorded MPDU, as the receive path reads it, if and only if the device has version 3 of the
descriptor or the byte at the place of that version's channel happens to be the same. -/
theorem channelStored_iff (family : DeviceFamily) (pkt : RxPacket) (unixTs : BitVec 64) :
    (∀ c, (c, csiHdrChannel) ∈ flqExpandWrites ⟨unixTs, flqMvmRecord pkt⟩ ↔
        c = mpduChannel family pkt) ↔
      .ax210 ≤ family ∨ pkt.data.getD (rxMpduDescV3.offsetof .channel) 0 =
        pkt.data.getD (rxMpduDescV1.offsetof .channel) 0 := by
  simp only [mem_flqExpandWrites_channel, recordedChannel_eq, mpduChannel_eq]
  set c3 := pkt.data.getD (rxMpduDescV3.offsetof .channel) 0
  constructor
  · intro h
    have heq := (h c3).1 rfl
    split_ifs at heq with hfam
    · exact .inl hfam
    · exact .inr heq
  · rintro (hfam | heq) c
    · rw [if_pos hfam]
    · split_ifs
      · exact Iff.rfl
      · rw [heq]

/-- An MPDU with a version 1 descriptor on channel 6. -/
def mpduV1 : RxPacket where
  lenNFlags := BitVec.ofNat 32 (sizeofPktHdr + sizeofRxMpduDesc)
  data := List.replicate 34 0 ++ 6 :: List.replicate 29 0

/-- Before AX210 a byte of another member is stored, 0 for channel 6. -/
theorem not_channelStored : ¬ (DeviceFamily.ax210 ≤ .f22000) ∧ mpduChannel .f22000 mpduV1 = 6 ∧
    (0, csiHdrChannel) ∈ flqExpandWrites ⟨1, flqMvmRecord mpduV1⟩ ∧
    ¬ ∀ c, (c, csiHdrChannel) ∈ flqExpandWrites ⟨1, flqMvmRecord mpduV1⟩ ↔
      c = mpduChannel .f22000 mpduV1 := by
  have hstored : (0, csiHdrChannel) ∈ flqExpandWrites ⟨1, flqMvmRecord mpduV1⟩ := by decide +kernel
  refine ⟨by decide, by decide, hstored, fun h => ?_⟩
  have heq := (h 0).1 hstored
  revert heq
  decide

end Iax.Mvm
