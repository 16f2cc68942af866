import Iax.Mvm.AsyncHandlers
import Iax.Mvm.CsiReassembly
import Iax.Mvm.DeviceFamily

/-!
# The channel in a CSI event

`flq_mvm_record` keeps the descriptor of an MPDU in `mvm->flq_res`, where the next MPDU overwrites
it. A header waits for the worker and then, in slot 0, for its chunks, and `flq_expand_csi_hdr`
writes the channel into it only when the last of them is handled.

* `mpduChannel` is the channel of an MPDU as the receive path reads it (`rxmq.c`).
* `ChannelInv` relates the record to the MPDU received last, and slot 0 to the entry whose header it
  holds.
* `csi_channel_iff`: along a run all events carry the channel of the MPDU received last before their
  header arrived if and only if, whenever an event is handed over, the byte that is read from the
  MPDU received last by then is that channel.
-/

namespace Iax.Mvm

open Bytes

/-! ## Channels -/

/-- `phy_data.channel` in `iwl_mvm_rx_mpdu_mq`: `desc->v3.channel` from AX210 on, `desc->v1.channel`
before. -/
def mpduChannel (family : DeviceFamily) (pkt : RxPacket) : UInt8 :=
  if .ax210 ≤ family then pkt.data.getD 42 0 else pkt.data.getD 34 0

/-- The offset of the channel in an expanded header. -/
def csiHdrChannel : ℕ := 208 + 8

/-- The event carries the channel of the MPDU received last before the header arrived from which it
was made, if there was one and the header is long enough to carry it. -/
def ChannelRight (family : DeviceFamily) (p : CsiEvent × Option AsyncEntry) : Prop :=
  ∃ e ∈ p.2, e.notif = .header p.1.hdrBuf ∧
    ∀ pkt ∈ e.lastMpdu, ∀ c ∈ p.1.hdr[csiHdrChannel]?, c = mpduChannel family pkt

/-- All events do. -/
def ChannelsRight (family : DeviceFamily) (s : AsyncRx) : Prop :=
  ∀ p ∈ s.sent, ChannelRight family p

instance (family : DeviceFamily) (p : CsiEvent × Option AsyncEntry) :
    Decidable (ChannelRight family p) := by
  have (pkt : RxPacket) :
      Decidable (∀ c ∈ p.1.hdr[csiHdrChannel]?, c = mpduChannel family pkt) :=
    Option.decidableForallMem _
  unfold ChannelRight
  infer_instance

instance (family : DeviceFamily) (s : AsyncRx) : Decidable (ChannelsRight family s) := by
  unfold ChannelsRight
  infer_instance

/-- What a step has to meet: when it hands an event over whose header has room for the channel, the
byte at the place of `desc.v3.channel` in the MPDU received last is the channel of the MPDU received
last before the header arrived. -/
def ChannelKept (family : DeviceFamily) (s : AsyncRx) : AsyncAct → Prop
  | .handle _ => ∀ e ∈ s.localList.head?, ∀ rxb, e.notif = .chunk rxb →
      ∀ hdr chunks idx, HandsOver s.mvm rxb hdr chunks idx →
        csiHdrChannel < iwlRxPacketPayloadLen hdr.pkt → csiHdrChannel < hdr.pkt.data.length →
          ∀ h ∈ s.hdrEntry, ∀ pkt ∈ h.lastMpdu, ∀ last ∈ s.lastMpdu,
            last.data.getD 42 0 = mpduChannel family pkt
  | _ => True

/-! ## The expanded header -/

@[simp] theorem length_memcpyAt (mem : Bytes) (pos : ℕ) (src : Bytes) :
    (memcpyAt mem pos src).length = mem.length := by
  simp only [memcpyAt, List.length_take, List.length_append, List.length_drop]
  omega

/-- A copy inside `mem` changes the bytes from `pos` on. -/
theorem getElem?_memcpyAt (mem : Bytes) (pos : ℕ) (src : Bytes) (i : ℕ) :
    (memcpyAt mem pos src)[i]? =
      if pos ≤ i ∧ i < pos + src.length ∧ i < mem.length then src[i - pos]? else mem[i]? := by
  by_cases hi : i < mem.length
  · rw [memcpyAt, List.getElem?_take_of_lt hi, List.append_assoc]
    by_cases hlow : i < pos
    · rw [List.getElem?_append_left (by rw [List.length_take]; omega), List.getElem?_take_of_lt hlow,
        if_neg (by omega)]
    · have htake : (mem.take pos).length = pos := List.length_take_of_le (by omega)
      rw [List.getElem?_append_right (by omega), htake]
      by_cases hsrc : i < pos + src.length
      · rw [List.getElem?_append_left (by omega), if_pos (by omega)]
      · rw [List.getElem?_append_right (by omega), List.getElem?_drop, if_neg (by omega)]
        congr 1
        omega
  · rw [if_neg (by omega), List.getElem?_eq_none (Nat.not_lt.1 hi), List.getElem?_eq_none]
    rw [length_memcpyAt]
    exact Nat.not_lt.1 hi

/-- The channel that an event carries. -/
theorem csiEvent_channel (env : CsiEnv) (hdr : RxCmdBuffer) (slices : List CsiSlice) :
    (csiEvent env hdr slices).hdr[csiHdrChannel]? =
      if csiHdrChannel < iwlRxPacketPayloadLen hdr.pkt ∧ csiHdrChannel < hdr.pkt.data.length then
        some env.flqRes.desc3Channel
      else none := by
  rw [csiEvent, flqExpandCsiHdr]
  split
  · rename_i hroom
    rw [List.getElem?_take_of_lt hroom.1, getElem?_memcpyAt, length_memcpyAt,
      if_pos ⟨Nat.le_refl _, Nat.lt_succ_self _, hroom.2⟩]
    rfl
  · rename_i hroom
    rw [List.getElem?_eq_none]
    simp only [List.length_take, length_memcpyAt]
    omega

/-- The record keeps the byte. -/
theorem desc3Channel_flqMvmRecord (pkt : RxPacket) :
    (flqMvmRecord pkt).desc3Channel = pkt.data.getD 42 0 := by
  rw [FlqIwlMvmRes.desc3Channel, flqMvmRecord, List.getD_eq_getElem?_getD,
    List.getElem?_take_of_lt (by decide), List.getD_eq_getElem?_getD]

/-! ## Slot 0 -/

theorem csiStep_header_entry_zero {m : IwlMvm} {rxb b : RxCmdBuffer} (env : CsiEnv)
    (h : (csiStep m (.header rxb, env)).csiDataEntries.entry 0 = some b) : b = rxb := by
  change (iwlMvmCsiSteal m ⟨0, by decide⟩ rxb).csiDataEntries.entry 0 = some b at h
  cases hfree : m.csiDataEntries.entry 0 with
  | some b' =>
    rw [steal_of_taken _ _ hfree, freePages_csiDataEntries, entry_none] at h
    cases h
  | none =>
    rw [steal_entry_of_free _ _ hfree, if_pos rfl] at h
    exact (Option.some.inj h).symm

/-- A chunk does not put anything into slot 0. -/
theorem csiStep_chunk_entry_zero {m : IwlMvm} {rxb b : RxCmdBuffer} {env : CsiEnv}
    (h : (csiStep m (.chunk rxb, env)).csiDataEntries.entry 0 = some b) :
    m.csiDataEntries.entry 0 = some b := by
  simp only [csiStep, iwlMvmRxCsiChunk] at h
  split at h
  · exact h
  · rename_i num idx hctl
    split at h
    · exact h
    · split at h
      · rw [complete_csiDataEntries, entry_none] at h
        cases h
      · rcases steal_entry_eq_some h with ⟨hzero, -⟩ | hold
        · have hpos := idx_pos hctl
          simp only at hzero
          omega
        · exact hold

/-! ## The invariant -/

/-- The record is of the MPDU received last, which is there since the first one; slot 0 holds the
header of its entry. -/
structure ChannelInv (s : AsyncRx) : Prop where
  recorded : ∀ pkt ∈ s.lastMpdu, s.flqRes = flqMvmRecord pkt
  received : ∀ e ∈ s.hdrEntry.toList ++ (s.localList ++ s.asyncHandlersList),
    e.lastMpdu.isSome → s.lastMpdu.isSome
  header : ∀ b ∈ s.mvm.csiDataEntries.entry 0, ∃ e ∈ s.hdrEntry, e.notif = .header b

theorem channelInv_init (csiNotif : ℕ) : ChannelInv (.init csiNotif) where
  recorded := fun pkt h => by cases h
  received := fun e he => absurd he (by simp [AsyncRx.init])
  header := fun b hb => by
    rw [AsyncRx.init, IwlMvm.init, entry_none] at hb
    cases hb

namespace ChannelInv

variable {s : AsyncRx}

/-- With fewer entries. -/
theorem received_of_subset (h : ChannelInv s) {es : List AsyncEntry}
    (hes : es ⊆ s.hdrEntry.toList ++ (s.localList ++ s.asyncHandlersList)) :
    ∀ e ∈ es, e.lastMpdu.isSome → s.lastMpdu.isSome :=
  fun e he => h.received e (hes he)

theorem rx (h : ChannelInv s) (n : CsiNotif) (alloc : Bool) :
    ChannelInv (iwlMvmRxCommon s n alloc) := by
  rw [iwlMvmRxCommon]
  split_ifs
  · exact h
  · refine ⟨h.recorded, fun e he => ?_, h.header⟩
    rw [queueEntry, ← List.append_assoc, ← List.append_assoc, List.mem_append,
      List.mem_singleton] at he
    rcases he with hold | rfl
    · exact h.received e (by rwa [← List.append_assoc])
    · exact id
  · exact h

theorem mpdu (h : ChannelInv s) (pkt : RxPacket) :
    ChannelInv { s with flqRes := flqMvmRecord pkt, lastMpdu := some pkt } where
  recorded := fun pkt' hpkt' => by rw [Option.some.inj hpkt']
  received := fun _ _ _ => rfl
  header := h.header

/-- The byte that `flq_expand_csi_hdr` reads. -/
theorem desc3Channel (h : ChannelInv s) {last : RxPacket} (hlast : last ∈ s.lastMpdu) :
    s.flqRes.desc3Channel = last.data.getD 42 0 := by
  rw [h.recorded last hlast, desc3Channel_flqMvmRecord]

/-- The handler of the first entry is called. -/
theorem handle (h : ChannelInv s) (unixTs : BitVec 64) {e : AsyncEntry} {es : List AsyncEntry}
    (first : s.localList = e :: es) : ChannelInv (callHandler s e unixTs) := by
  obtain ⟨num, notif, lastMpdu⟩ := e
  cases notif with
  | header rxb =>
    refine ⟨h.recorded, fun e' he' => ?_, fun b hb => ?_⟩
    · refine h.received e' (List.mem_append_right _ ?_)
      rcases List.mem_append.1 he' with hnew | hold
      · rw [List.mem_singleton.1 hnew, first]
        exact List.mem_cons_self
      · exact hold
    · obtain rfl : b = rxb := csiStep_header_entry_zero (s.env unixTs) hb
      exact ⟨_, rfl, rfl⟩
  | chunk rxb =>
    exact ⟨h.recorded, h.received, fun b hb => h.header b (csiStep_chunk_entry_zero hb)⟩

end ChannelInv

theorem channelInv_step {s s' : AsyncRx} {a : AsyncAct} (h : ChannelInv s)
    (hstep : asyncStep s a = some s') : ChannelInv s' := by
  cases asyncStep_cases hstep with
  | rx n alloc => exact h.rx n alloc
  | mpdu pkt => exact h.mpdu pkt
  | purge =>
    refine ⟨h.recorded, h.received_of_subset fun e he => ?_, h.header⟩
    simp only [iwlMvmAsyncHandlersPurge, List.append_nil, List.mem_append] at he ⊢
    tauto
  | start pending idle =>
    refine ⟨h.recorded, h.received_of_subset fun e he => ?_, h.header⟩
    simp only [List.append_nil, List.mem_append] at he ⊢
    tauto
  | handle unixTs e es first fresh => exact h.handle unixTs first
  | free e es first done =>
    refine ⟨h.recorded, h.received_of_subset fun e' he' => ?_, h.header⟩
    simp only [first, List.mem_append, List.mem_cons] at he' ⊢
    tauto
  | finish ran none_left => exact ⟨h.recorded, h.received, h.header⟩

/-! ## One step -/

/-- What the handler of an entry sends goes with the entry of the header. -/
theorem callHandler_sent {s : AsyncRx} {e : AsyncEntry} {unixTs : BitVec 64} {evs : List CsiEvent}
    (h : (csiStep s.mvm (e.notif, s.env unixTs)).csiEvents = s.mvm.csiEvents ++ evs) :
    (callHandler s e unixTs).sent = s.sent ++ evs.map fun ev => (ev, s.hdrEntry) := by
  simp only [callHandler, h, List.drop_left]

theorem callHandler_sent_of_eq {s : AsyncRx} {e : AsyncEntry} {unixTs : BitVec 64}
    (h : (csiStep s.mvm (e.notif, s.env unixTs)).csiEvents = s.mvm.csiEvents) :
    (callHandler s e unixTs).sent = s.sent := by
  have hsent := callHandler_sent (h.trans (List.append_nil _).symm)
  rwa [List.map_nil, List.append_nil] at hsent

theorem channelsRight_concat {family : DeviceFamily} {s s' : AsyncRx}
    {p : CsiEvent × Option AsyncEntry} (h : s'.sent = s.sent ++ [p]) :
    ChannelsRight family s' ↔ ChannelsRight family s ∧ ChannelRight family p := by
  simp only [ChannelsRight, h, List.forall_mem_append, List.forall_mem_singleton]

/-- **The event of a hand-over** carries the channel byte of the MPDU received last. -/
theorem channelRight_iff {family : DeviceFamily} {s : AsyncRx} (hinv : ChannelInv s)
    {hdr : RxCmdBuffer} (hslot : s.mvm.csiDataEntries.entry 0 = some hdr) (unixTs : BitVec 64)
    (slices : List CsiSlice) :
    ChannelRight family (csiEvent (s.env unixTs) hdr slices, s.hdrEntry) ↔
      (csiHdrChannel < iwlRxPacketPayloadLen hdr.pkt → csiHdrChannel < hdr.pkt.data.length →
        ∀ h ∈ s.hdrEntry, ∀ pkt ∈ h.lastMpdu, ∀ last ∈ s.lastMpdu,
          last.data.getD 42 0 = mpduChannel family pkt) := by
  obtain ⟨e, he, hnotif⟩ := hinv.header hdr hslot
  have hchannel := csiEvent_channel (s.env unixTs) hdr slices
  constructor
  · rintro ⟨e', he', -, hright⟩ hpay hdata h hh pkt hpkt last hlast
    obtain rfl : e' = h := Option.some.inj (he'.symm.trans hh)
    rw [if_pos ⟨hpay, hdata⟩] at hchannel
    rw [← hinv.desc3Channel hlast]
    exact hright pkt hpkt _ hchannel
  · intro hkept
    refine ⟨e, he, hnotif, fun pkt hpkt c hc => ?_⟩
    have hsome : e.lastMpdu.isSome := Option.isSome_of_mem hpkt
    have hmem : e ∈ s.hdrEntry.toList := Option.mem_toList.2 he
    obtain ⟨last, hlast⟩ := Option.isSome_iff_exists.1
      (hinv.received e (List.mem_append_left _ hmem) hsome)
    rw [hchannel] at hc
    split at hc
    · rename_i hroom
      rw [← Option.some.inj hc, ← hkept hroom.1 hroom.2 e he pkt hpkt last hlast]
      exact hinv.desc3Channel hlast
    · cases hc

/-- **A handler's call** keeps all channels right if and only if it meets the condition. -/
theorem channelsRight_handle {family : DeviceFamily} {s : AsyncRx} (hinv : ChannelInv s)
    (unixTs : BitVec 64) {e : AsyncEntry} {es : List AsyncEntry} (first : s.localList = e :: es) :
    ChannelsRight family (callHandler s e unixTs) ↔
      ChannelsRight family s ∧ ChannelKept family s (.handle unixTs) := by
  have hkept : ChannelKept family s (.handle unixTs) ↔ ∀ rxb, e.notif = .chunk rxb →
      ∀ hdr chunks idx, HandsOver s.mvm rxb hdr chunks idx →
        csiHdrChannel < iwlRxPacketPayloadLen hdr.pkt → csiHdrChannel < hdr.pkt.data.length →
          ∀ h ∈ s.hdrEntry, ∀ pkt ∈ h.lastMpdu, ∀ last ∈ s.lastMpdu,
            last.data.getD 42 0 = mpduChannel family pkt := by
    simp [ChannelKept, first]
  rw [hkept]
  cases hnotif : e.notif with
  | header rxb =>
    -- a header sends nothing
    have hsent : (callHandler s e unixTs).sent = s.sent :=
      callHandler_sent_of_eq (by rw [hnotif, csiStep_header_csiEvents])
    simp [ChannelsRight, hsent]
  | chunk rxb =>
    rcases csiStep_chunk_csiEvents s.mvm rxb (s.env unixTs) with
      ⟨hnone, hno⟩ | ⟨hdr, chunks, idx, hover, hone⟩
    · have hsent : (callHandler s e unixTs).sent = s.sent :=
        callHandler_sent_of_eq (by rw [hnotif, hnone])
      simp only [ChannelsRight, hsent, iff_self_and]
      rintro - rxb' heq hdr chunks idx hover
      obtain rfl := CsiNotif.chunk.inj heq
      exact absurd hover (hno hdr chunks idx)
    · have hsent := callHandler_sent (by rw [hnotif, hone])
      rw [channelsRight_concat hsent, channelRight_iff hinv hover.header]
      refine and_congr_right fun _ => ⟨?_, fun h => h rxb rfl hdr chunks idx hover⟩
      intro h rxb' heq hdr' chunks' idx' hover'
      obtain rfl := CsiNotif.chunk.inj heq
      obtain rfl : hdr = hdr' := Option.some.inj (hover.header.symm.trans hover'.header)
      exact h

/-- **One step.** -/
theorem channelsRight_step {family : DeviceFamily} {s s' : AsyncRx} {a : AsyncAct}
    (hinv : ChannelInv s) (hstep : asyncStep s a = some s') :
    ChannelsRight family s' ↔ ChannelsRight family s ∧ ChannelKept family s a := by
  cases asyncStep_cases hstep with
  | rx n alloc =>
    have hsent : (iwlMvmRxCommon s n alloc).sent = s.sent := by
      rw [iwlMvmRxCommon]
      split_ifs <;> rfl
    simp only [ChannelsRight, hsent, ChannelKept, and_true]
  | handle unixTs e es first fresh => exact channelsRight_handle hinv unixTs first
  | mpdu | purge | start | free | finish => exact (and_iff_left trivial).symm

/-! ## Every run -/

/-- **The channel of an event.** Along every run, all events carry the channel of the MPDU received
last before their header arrived if and only if at each hand-over the byte at the place of
`desc.v3.channel` in the MPDU received last by then is that channel. -/
theorem csi_channel_iff (family : DeviceFamily) {csiNotif : ℕ} {acts : List AsyncAct} {s : AsyncRx}
    (hrun : Lts.exec asyncStep (.init csiNotif) acts = some s) :
    ChannelsRight family s ↔ Lts.Meets asyncStep (ChannelKept family) (.init csiNotif) acts := by
  rw [Lts.exec_iff asyncStep (fun _ _ _ h hstep => channelInv_step h hstep)
    (fun _ _ _ h hstep => channelsRight_step h hstep) (channelInv_init csiNotif) hrun]
  exact and_iff_right fun p hp => absurd hp (by simp [AsyncRx.init])

/-- An MPDU with a descriptor of AX210 and nothing else. -/
def RxPacket.ofMpdu (channel : UInt8) : RxPacket where
  lenNFlags := BitVec.ofNat 32 (4 + sizeofRxMpduDesc)
  data := List.replicate 42 0 ++ channel :: List.replicate 21 0

/-- Without an MPDU in between. -/
theorem csi_channel_iff_prompt :
    ∃ s, Lts.exec asyncStep (.init 2)
        [.mpdu (.ofMpdu 6), .rx (.header (Measurement.produce 1 (.replicate 272 0) [[1]]).hdr) true,
          .rx (.chunk (Measurement.produce 1 (.replicate 272 0) [[1]]).chunks[0]) true, .start,
          .handle 0, .free, .handle 1, .mpdu (.ofMpdu 11)] = some s ∧
      s.sent.map (fun p => p.1.hdr[csiHdrChannel]?) = [some 6] ∧
      Lts.Meets asyncStep (ChannelKept .ax210) (.init 2)
        [.mpdu (.ofMpdu 6), .rx (.header (Measurement.produce 1 (.replicate 272 0) [[1]]).hdr) true,
          .rx (.chunk (Measurement.produce 1 (.replicate 272 0) [[1]]).chunks[0]) true, .start,
          .handle 0, .free, .handle 1, .mpdu (.ofMpdu 11)] := by
  have hview : (Lts.exec asyncStep (.init 2)
      [.mpdu (.ofMpdu 6), .rx (.header (Measurement.produce 1 (.replicate 272 0) [[1]]).hdr) true,
        .rx (.chunk (Measurement.produce 1 (.replicate 272 0) [[1]]).chunks[0]) true, .start,
        .handle 0, .free, .handle 1, .mpdu (.ofMpdu 11)]).map
        (fun s =>
          (s.sent.map (fun p => p.1.hdr[csiHdrChannel]?), decide (ChannelsRight .ax210 s))) =
      some ([some 6], true) := by
    decide +kernel
  obtain ⟨s, hs, heq⟩ := Option.map_eq_some_iff.1 hview
  simp only [Prod.mk.injEq, decide_eq_true_eq] at heq
  exact ⟨s, hs, heq.1, (csi_channel_iff .ax210 hs).1 heq.2⟩

/-- The MPDU that is received while the header waits gives the event its channel, 11 in place of
6. -/
theorem csi_channel_overwritten :
    ∃ s, Lts.exec asyncStep (.init 2)
        [.mpdu (.ofMpdu 6), .rx (.header (Measurement.produce 1 (.replicate 272 0) [[1]]).hdr) true,
          .mpdu (.ofMpdu 11),
          .rx (.chunk (Measurement.produce 1 (.replicate 272 0) [[1]]).chunks[0]) true, .start,
          .handle 0, .free, .handle 1] = some s ∧
      s.sent.map (fun p => p.1.hdr[csiHdrChannel]?) = [some 11] ∧ ¬ ChannelsRight .ax210 s := by
  have hview : (Lts.exec asyncStep (.init 2)
      [.mpdu (.ofMpdu 6), .rx (.header (Measurement.produce 1 (.replicate 272 0) [[1]]).hdr) true,
        .mpdu (.ofMpdu 11),
        .rx (.chunk (Measurement.produce 1 (.replicate 272 0) [[1]]).chunks[0]) true, .start,
        .handle 0, .free, .handle 1]).map
        (fun s =>
          (s.sent.map (fun p => p.1.hdr[csiHdrChannel]?), decide (ChannelsRight .ax210 s))) =
      some ([some 11], false) := by
    decide +kernel
  obtain ⟨s, hs, heq⟩ := Option.map_eq_some_iff.1 hview
  simp only [Prod.mk.injEq, decide_eq_false_iff_not] at heq
  exact ⟨s, hs, heq⟩

end Iax.Mvm
