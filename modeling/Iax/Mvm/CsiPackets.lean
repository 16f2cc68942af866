import Iax.Lib.Related
import Iax.Mvm.CsiFlow
import Iax.Pcie.RxBuffer

/-!
# From the firmware's packets to its measurements

The firmware reports a measurement in packets of the location group, which stand in receive buffers
among others.

* `csiNotifOf` is what `iwl_mvm_rx_mq` and `iwl_mvm_rx_common` make of a packet, `notifs` of a
  buffer.
* `FwMeasurement` is a measurement as the firmware has it, and `SentAs` its packets.
* `Filled.notifs`: the notifications of a buffer are those of the packets that it was filled with.
* `exists_measurement`: the notifications of a measurement's packets are a measurement that can be
  delivered, with the same bytes.
-/

namespace Iax.Mvm

open Bytes Pcie

/-! ## Dispatch -/

/-- `WIDE_ID`. -/
def wideId (grp opcode : ℕ) : ℕ := grp <<< 8 ||| opcode

/-- `LOCATION_GROUP`. -/
def locationGroup : ℕ := 0x8

/-- `CSI_HEADER_NOTIFICATION`. -/
def csiHeaderNotification : ℕ := 0xfa

/-- `CSI_CHUNKS_NOTIFICATION`. -/
def csiChunksNotification : ℕ := 0xfb

/-- The CSI notification that a packet is, by its command (`iwl_mvm_rx_handlers`). -/
def csiNotifOf (hdr : CmdHeader) (rxb : RxCmdBuffer) : Option CsiNotif :=
  let cmd := wideId hdr.groupId hdr.cmd
  if cmd = wideId locationGroup csiHeaderNotification then some (.header rxb)
  else if cmd = wideId locationGroup csiChunksNotification then some (.chunk rxb)
  else none

/-- A receive buffer: its page and what the hardware wrote there. -/
structure ReceiveBuffer where
  page : ℕ
  rxPageOrder : ℕ
  offset : ℕ
  mem : Bytes

/-- The `struct iwl_rx_cmd_buffer` of a call that `iwl_pcie_rx_handle_rb` makes. -/
def ReceiveBuffer.rxcb (rb : ReceiveBuffer) (c : RxCall) : RxCmdBuffer where
  page := rb.page
  rxPageOrder := rb.rxPageOrder
  offset := rb.offset + c.offset
  pkt := rxbAddr rb.mem c.offset

/-- What the call brings. -/
def ReceiveBuffer.notif (rb : ReceiveBuffer) (c : RxCall) : Option CsiNotif :=
  csiNotifOf (rxbHdr rb.mem c.offset) (rb.rxcb c)

/-- The CSI notifications of a buffer. -/
def ReceiveBuffer.notifs (cfg : RbConfig) (rb : ReceiveBuffer) : List CsiNotif :=
  (handlePackets cfg rb.mem 0).filterMap rb.notif

/-- The firmware filled the buffer with these packets. -/
structure ReceiveBuffer.Filled (cfg : RbConfig) (rb : ReceiveBuffer) (packets : List FwPacket) :
    Prop where
  fits : ∀ p ∈ packets, p.Fits
  laid : ∃ fin, Laid fhRscsrFrameAlign rb.mem 0 (packets.map FwPacket.bytes) fin ∧
    fin ≤ cfg.rxBufBytes ∧ RbEnds cfg rb.mem fin
  one : cfg.ax210 = true → packets.length ≤ 1

/-- The packet is a CSI notification. -/
def isCsiPacket (p : FwPacket) : Bool :=
  p.groupId.toNat = locationGroup ∧
    (p.cmd.toNat = csiHeaderNotification ∨ p.cmd.toNat = csiChunksNotification)

/-- The notification is this packet. -/
structure NotifIs (p : FwPacket) (n : CsiNotif) : Prop where
  payload : p.payload <+: n.rxb.pkt.data
  payloadLen : iwlRxPacketPayloadLen n.rxb.pkt = p.payload.length
  kind : csiNotifOf ⟨p.cmd.toNat, p.groupId.toNat, p.sequence.toNat⟩ n.rxb = some n

theorem wideId_inj {grp grp' opcode opcode' : ℕ} (h : opcode < 256) (h' : opcode' < 256) :
    wideId grp opcode = wideId grp' opcode' ↔ grp = grp' ∧ opcode = opcode' := by
  rw [wideId, wideId, ← Nat.shiftLeft_add_eq_or_of_lt (i := 8) (by simpa using h),
    ← Nat.shiftLeft_add_eq_or_of_lt (i := 8) (by simpa using h'), Nat.shiftLeft_eq,
    Nat.shiftLeft_eq]
  omega

theorem csiNotifOf_eq (p : FwPacket) (rxb : RxCmdBuffer) :
    csiNotifOf ⟨p.cmd.toNat, p.groupId.toNat, p.sequence.toNat⟩ rxb =
      if p.groupId.toNat = locationGroup then
        if p.cmd.toNat = csiHeaderNotification then some (.header rxb)
        else if p.cmd.toNat = csiChunksNotification then some (.chunk rxb) else none
      else none := by
  have hcmd := p.cmd.toNat_lt
  simp only [csiNotifOf, wideId_inj hcmd (show csiHeaderNotification < 256 by decide),
    wideId_inj hcmd (show csiChunksNotification < 256 by decide)]
  by_cases hgroup : p.groupId.toNat = locationGroup
  · simp only [hgroup, true_and, if_true]
  · simp only [hgroup, false_and, if_false]

theorem csiNotifOf_isSome (p : FwPacket) (rxb : RxCmdBuffer) :
    (csiNotifOf ⟨p.cmd.toNat, p.groupId.toNat, p.sequence.toNat⟩ rxb).isSome = isCsiPacket p := by
  rw [csiNotifOf_eq, isCsiPacket]
  split
  · rename_i hgroup
    split
    · rename_i hcmd
      simp [hgroup, hcmd]
    · rename_i hcmd
      split
      · rename_i hcmd'
        simp [hgroup, hcmd']
      · rename_i hcmd'
        simp [hgroup, hcmd, hcmd']
  · rename_i hgroup
    simp [hgroup]

theorem rxb_of_csiNotifOf {hdr : CmdHeader} {rxb : RxCmdBuffer} {n : CsiNotif}
    (h : csiNotifOf hdr rxb = some n) : n.rxb = rxb := by
  simp only [csiNotifOf] at h
  split at h
  · obtain rfl := Option.some.inj h
    rfl
  · split at h
    · obtain rfl := Option.some.inj h
      rfl
    · cases h

/-- **The notifications of a buffer** are the CSI packets that it was filled with, in order. -/
theorem ReceiveBuffer.Filled.notifs {cfg : RbConfig} {rb : ReceiveBuffer} {packets : List FwPacket}
    (h : rb.Filled cfg packets) :
    List.Forall₂ NotifIs (packets.filter isCsiPacket) (rb.notifs cfg) := by
  obtain ⟨fin, hlaid, hfin, hend⟩ := h.laid
  have hcalls := handlePackets_laid h.fits hlaid hfin hend
  have hall : (if cfg.ax210 then packets.take 1 else packets) = packets := by
    split
    · rename_i hax
      exact List.take_of_length_le (h.one hax)
    · rfl
  rw [hall] at hcalls
  rw [ReceiveBuffer.notifs]
  clear hlaid hall h
  generalize handlePackets cfg rb.mem 0 = calls at hcalls
  induction hcalls with
  | nil => exact .nil
  | @cons c p calls packets hc _ ih =>
    have hsome := csiNotifOf_isSome p (rb.rxcb c)
    rw [← hc.hdr] at hsome
    cases hn : rb.notif c with
    | none =>
      rw [List.filterMap_cons_none hn, List.filter_cons_of_neg]
      · exact ih
      · rw [← hsome, ← ReceiveBuffer.notif, hn]
        exact Bool.false_ne_true
    | some n =>
      rw [List.filterMap_cons_some hn, List.filter_cons_of_pos]
      · have hrxb : n.rxb = rb.rxcb c := rxb_of_csiNotifOf hn
        refine .cons ⟨?_, ?_, ?_⟩ ih
        · rw [hrxb]
          exact hc.payload
        · rw [hrxb]
          exact hc.payloadLen
        · rw [hrxb, ← hc.hdr]
          exact hn
      · rw [← hsome, ← ReceiveBuffer.notif, hn]
        rfl

/-! ## Measurements -/

/-- A measurement as the firmware has it: the header's payload and the data, cut into pieces. -/
structure FwMeasurement where
  hdr : Bytes
  pieces : List Bytes

namespace FwMeasurement

/-- The packet of the header. -/
structure HdrPacket (F : FwMeasurement) (p : FwPacket) : Prop where
  group : p.groupId.toNat = locationGroup
  cmd : p.cmd.toNat = csiHeaderNotification
  payload : p.payload = F.hdr

/-- The packet of piece `k`: the control word has the number of pieces and the index. -/
structure ChunkPacket (csiNotif : ℕ) (F : FwMeasurement) (k : ℕ) (p : FwPacket) : Prop where
  group : p.groupId.toNat = locationGroup
  cmd : p.cmd.toNat = csiChunksNotification
  payload : ∃ token seq ctl piece, ctl < 2 ^ 16 ∧
    csiChunkNumIdx csiNotif ctl = some (F.pieces.length, k + 1) ∧ F.pieces[k]? = some piece ∧
    p.payload =
      leBytes 4 token ++ (leBytes 2 seq ++ (leBytes 2 ctl ++ (leBytes 4 piece.length ++ piece)))

/-- The packets of a measurement: the header first, then the pieces, the last of them last. -/
def SentAs (csiNotif : ℕ) (F : FwMeasurement) (ps : List FwPacket) : Prop :=
  ∃ p cs last order, F.HdrPacket p ∧ (cs ++ [last]).length = F.pieces.length ∧
    (∀ k (h : k < (cs ++ [last]).length), ChunkPacket csiNotif F k (cs ++ [last])[k]) ∧
    order.Perm cs ∧ ps = p :: (order ++ [last])

/-- There are not too many pieces, and none is empty. -/
structure Sendable (F : FwMeasurement) : Prop where
  room : F.pieces.length < iwlCsiMaxExpectedChunks
  nonempty : ∀ piece ∈ F.pieces, piece ≠ []

end FwMeasurement

/-- What a chunk's notification says when it is the packet of a piece. -/
structure ChunkIs (csiNotif : ℕ) (F : FwMeasurement) (k : ℕ) (b : RxCmdBuffer) : Prop where
  ctl : csiChunkNumIdx csiNotif b.pkt.chunk.ctl = some (F.pieces.length, k + 1)
  bytes : F.pieces[k]? = some (chunkSlice b).bytes
  size : b.pkt.chunk.size = (chunkSlice b).bytes.length
  fits : b.pkt.ChunkFits

theorem chunkIs_of_packet {csiNotif : ℕ} {F : FwMeasurement} {k : ℕ} {p : FwPacket}
    {b : RxCmdBuffer}
    (hp : FwMeasurement.ChunkPacket csiNotif F k p) (hn : NotifIs p (.chunk b)) :
    ChunkIs csiNotif F k b := by
  obtain ⟨token, seq, ctl, piece, hctl, hnum, hpiece, hpayload⟩ := hp.payload
  have hlen : iwlRxPacketPayloadLen b.pkt = p.payload.length := hn.payloadLen
  have hlt : p.payload.length < 2 ^ 32 := by
    rw [← hlen, iwlRxPacketPayloadLen]
    exact BitVec.isLt _
  obtain ⟨rest, hrest⟩ : p.payload <+: b.pkt.data := hn.payload
  have hplen : p.payload.length = sizeofCsiChunkNotification + piece.length := by
    rw [hpayload]
    simp only [List.length_append, length_leBytes, sizeofCsiChunkNotification]
    omega
  have hdata : b.pkt.data = leBytes 4 token ++ (leBytes 2 seq ++ (leBytes 2 ctl ++
      (leBytes 4 piece.length ++ (piece ++ rest)))) := by
    rw [← hrest, hpayload]
    simp only [List.append_assoc]
  have hchunk : b.pkt.chunk.ctl = ctl ∧ b.pkt.chunk.size = piece.length ∧
      b.pkt.chunk.data = piece ++ rest := by
    have hctl' : leNat (leBytes 2 ctl) = ctl := leNat_leBytes_of_lt (by simpa using hctl)
    have hsize' : leNat (leBytes 4 piece.length) = piece.length :=
      leNat_leBytes_of_lt (by rw [sizeofCsiChunkNotification] at hplen; norm_num at hlt ⊢; omega)
    simp only [RxPacket.chunk, hdata]
    exact ⟨hctl', hsize', rfl⟩
  obtain ⟨hctl', hsize, hbytes⟩ := hchunk
  have hslice : (chunkSlice b).bytes = piece := by
    rw [chunkSlice, CsiSlice.bytes]
    dsimp only
    rw [hbytes, hsize, List.take_left]
  refine ⟨by rw [hctl']; exact hnum, by rw [hslice]; exact hpiece, by rw [hslice, hsize], ?_⟩
  rw [RxPacket.ChunkFits, hsize, hlen, hplen]

theorem header_of_packet {F : FwMeasurement} {p : FwPacket} {n : CsiNotif} (hp : F.HdrPacket p)
    (hn : NotifIs p n) : n = .header n.rxb := by
  have hkind := hn.kind
  rw [csiNotifOf_eq, if_pos hp.group, if_pos hp.cmd] at hkind
  exact (Option.some.inj hkind).symm

theorem chunks_of_packets {csiNotif : ℕ} {F : FwMeasurement} {ps : List FwPacket}
    {ns : List CsiNotif} (hps : ∀ p ∈ ps, ∃ k, F.ChunkPacket csiNotif k p)
    (hns : List.Forall₂ NotifIs ps ns) :
    ∃ bs : List RxCmdBuffer, ns = bs.map .chunk ∧
      List.Forall₂ (fun p b => NotifIs p (.chunk b)) ps bs := by
  induction hns with
  | nil => exact ⟨[], rfl, .nil⟩
  | @cons p n ps ns hn _ ih =>
    obtain ⟨⟨k, hp⟩, hrest⟩ := List.forall_mem_cons.1 hps
    obtain ⟨bs, rfl, hbs⟩ := ih hrest
    have hkind := hn.kind
    have hcmd : ¬p.cmd.toNat = csiHeaderNotification := by
      rw [hp.cmd]
      decide
    rw [csiNotifOf_eq, if_pos hp.group, if_neg hcmd, if_pos hp.cmd] at hkind
    have hchunk : n = .chunk n.rxb := (Option.some.inj hkind).symm
    exact ⟨n.rxb :: bs, by rw [List.map_cons, ← hchunk], .cons (hchunk ▸ hn) hbs⟩

/-- **A measurement arrives**: the notifications of its packets are a measurement that is delivered,
with the firmware's header and data. -/
theorem exists_measurement {csiNotif : ℕ} {F : FwMeasurement} {ps : List FwPacket}
    {ns : List CsiNotif} (hsent : F.SentAs csiNotif ps) (hF : F.Sendable)
    (hns : List.Forall₂ NotifIs ps ns) :
    ∃ M : Measurement, M.ArrivesAs ns ∧ M.Sound csiNotif ∧ NoGap M.chunks ∧
      M.data = F.pieces.flatten ∧ F.hdr <+: M.hdr.pkt.data ∧
      iwlRxPacketPayloadLen M.hdr.pkt = F.hdr.length := by
  obtain ⟨p, cs, last, order, hp, hlen, hcs, hperm, rfl⟩ := hsent
  cases hns with
  | @cons _ n _ ns hn hns =>
  have hmem : ∀ p ∈ order ++ [last], ∃ k, F.ChunkPacket csiNotif k p := by
    intro p hp
    have hp' : p ∈ cs ++ [last] := (hperm.append_right [last]).mem_iff.1 hp
    obtain ⟨k, hk, rfl⟩ := List.getElem_of_mem hp'
    exact ⟨k, hcs k hk⟩
  obtain ⟨bs, rfl, hbs⟩ := chunks_of_packets hmem hns
  obtain ⟨arrived, final, rfl, harrived, hfinal⟩ := Related.exists_append hbs
  obtain ⟨b, rfl⟩ : ∃ b, final = [b] := by
    cases hfinal with
    | cons _ hnil =>
      cases hnil
      exact ⟨_, rfl⟩
  -- the chunks in the order of their index
  obtain ⟨inits, hinits, hrel⟩ := Related.exists_perm hperm harrived
  have hall : List.Forall₂ (fun p b => NotifIs p (.chunk b)) (cs ++ [last]) (inits ++ [b]) :=
    List.rel_append hrel hfinal
  have hcount : (inits ++ [b]).length = F.pieces.length := hall.length_eq.symm.trans hlen
  have hchunks : ∀ k (h : k < (inits ++ [b]).length), ChunkIs csiNotif F k (inits ++ [b])[k] := by
    intro k hk
    exact chunkIs_of_packet (hcs k (hall.length_eq ▸ hk))
      (List.Forall₂.get hall (hall.length_eq ▸ hk) hk)
  have hbytes : (inits ++ [b]).map (fun c => (chunkSlice c).bytes) = F.pieces := by
    refine List.ext_getElem? fun k => ?_
    rcases Nat.lt_or_ge k (inits ++ [b]).length with hk | hk
    · rw [List.getElem?_map, List.getElem?_eq_getElem hk, Option.map_some]
      exact (hchunks k hk).bytes.symm
    · rw [List.getElem?_eq_none (by rw [List.length_map]; exact hk),
        List.getElem?_eq_none (by rw [← hcount]; exact hk)]
  have heach : ∀ c ∈ inits ++ [b], ∃ k, ChunkIs csiNotif F k c := fun c hc => by
    obtain ⟨k, hk, rfl⟩ := List.getElem_of_mem hc
    exact ⟨k, hchunks k hk⟩
  refine ⟨⟨n.rxb, inits ++ [b]⟩, ⟨arrived ++ [b], hinits.symm.append_right [b], by simp, ?_⟩,
    ⟨⟨by simp, fun k hk => ?_⟩, ?_, fun c hc => ?_⟩, ?_, ?_, ?_, ?_⟩
  · rw [← header_of_packet hp hn]
  · have hctl := (hchunks k hk).ctl
    rwa [← hcount] at hctl
  · rw [hcount]
    exact hF.room
  · obtain ⟨k, hk⟩ := heach c hc
    exact hk.fits
  · refine noGap_of_pos fun c hc => ?_
    obtain ⟨k, hk⟩ := heach c hc
    rw [hk.size]
    exact List.length_pos_of_ne_nil (hF.nonempty _ (List.mem_of_getElem? hk.bytes))
  · rw [Measurement.data, ← hbytes, List.flatMap_def]
    rfl
  · rw [← hp.payload]
    exact hn.payload
  · rw [← hp.payload]
    exact hn.payloadLen

end Iax.Mvm
