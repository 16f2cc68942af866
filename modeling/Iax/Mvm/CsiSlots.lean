import Iax.Lib.Bytes
import Mathlib.Logic.Function.Basic
import Mathlib.Data.Fintype.Pi

/-!
# The CSI slots of the mvm driver

The firmware reports a channel measurement as one header notification and `num` chunk
notifications. The driver parks the receive buffers of both in `mvm->csi_data_entries`, the header
in slot 0 and the chunk with index `idx` in slot `idx + 1`, and hands the lot to user space when
the chunk with the last index arrives (`vendor-cmd.c`).

* `iwlMvmRxCsiHeader`, `iwlMvmRxCsiChunk` are the two notification handlers, `csiStep` runs the
  one of a notification.
* `iwlMvmCsiComplete` collects the parked chunks (`csiSlices`) and hands a `CsiEvent` to
  `iwl_mvm_send_csi_event`; `IwlMvm.csiEvents` is the log of these calls.
* `csiSlices_eq` says what the collecting loop reads: the slots up to the first empty one
  (`occupied`), provided that each holds a chunk that fits its packet.

Each notification is kept with the bytes of its own packet; packets do not overlap.
-/

namespace Iax.Mvm

open Bytes

/-! ## Packets -/

/-- `IWL_CSI_MAX_EXPECTED_CHUNKS`. -/
def iwlCsiMaxExpectedChunks : ℕ := 16

/-- `ARRAY_SIZE(mvm->csi_data_entries)`: the chunks plus the first notification. -/
def csiDataEntriesSize : ℕ := iwlCsiMaxExpectedChunks + 1

/-- `struct iwl_rx_packet`: `data` is the receive buffer from `pkt->data` on. -/
structure RxPacket where
  lenNFlags : BitVec 32
  data : Bytes
  deriving DecidableEq

/-- `iwl_rx_packet_len`: the frame size, bits 13-0. -/
def iwlRxPacketLen (pkt : RxPacket) : BitVec 32 := pkt.lenNFlags &&& 0x3fff#32

/-- `iwl_rx_packet_payload_len`: without `sizeof(pkt->hdr)`, in 32-bit arithmetic. -/
def iwlRxPacketPayloadLen (pkt : RxPacket) : ℕ := (iwlRxPacketLen pkt - 4#32).toNat

/-- `struct iwl_csi_chunk_notification`. -/
structure CsiChunkNotification where
  token : ℕ
  seq : ℕ
  ctl : ℕ
  size : ℕ
  data : Bytes
  deriving DecidableEq

/-- `sizeof(struct iwl_csi_chunk_notification)`. -/
def sizeofCsiChunkNotification : ℕ := 12

/-- The packet's payload read as a chunk notification. -/
def RxPacket.chunk (pkt : RxPacket) : CsiChunkNotification where
  token := leNat (pkt.data.take 4)
  seq := leNat ((pkt.data.drop 4).take 2)
  ctl := leNat ((pkt.data.drop 6).take 2)
  size := leNat ((pkt.data.drop 8).take 4)
  data := pkt.data.drop sizeofCsiChunkNotification

/-- The `num` and `idx` that `iwl_mvm_rx_csi_chunk` decodes from `chunk->ctl`, for the supported
notification versions. The index counts from 1: slot 0 is the header's. -/
def csiChunkNumIdx (csiNotif ctl : ℕ) : Option (ℕ × ℕ) :=
  match csiNotif with
  | 1 => some (ctl &&& 0x0003, ((ctl &&& 0x000c) >>> 2) + 1)
  | 2 => some (ctl &&& 0x00ff, ((ctl &&& 0xff00) >>> 8) + 1)
  | _ => none

/-- `struct iwl_rx_cmd_buffer`, with the packet that `rxb_addr` points to. A slot keeps the page,
its order and the offset, so the same packet. -/
structure RxCmdBuffer where
  page : ℕ
  rxPageOrder : ℕ
  offset : ℕ
  pkt : RxPacket
  deriving DecidableEq

/-- `struct flq_iwl_mvm_res`: the descriptor of the MPDU recorded last. -/
structure FlqIwlMvmRes where
  desc : Bytes
  deriving DecidableEq, Inhabited

/-- `flq_res->desc.v3.channel`. -/
def FlqIwlMvmRes.desc3Channel (flqRes : FlqIwlMvmRes) : UInt8 := flqRes.desc.getD 42 0

/-- `memcpy(mem + pos, src, n)`, as far as it stays inside `mem`. -/
def memcpyAt (mem : Bytes) (pos : ℕ) (src : Bytes) : Bytes :=
  (mem.take pos ++ src ++ mem.drop (pos + src.length)).take mem.length

/-- What `flq_expand_csi_hdr` reads when a notification completes a measurement: the clock, and
`mvm->flq_res`, which the MPDUs received in between overwrite. -/
structure CsiEnv where
  unixTs : BitVec 64
  flqRes : FlqIwlMvmRes
  deriving DecidableEq, Inhabited

/-- `flq_expand_csi_hdr`: the time in nanoseconds at offset 208 of the header, the channel of the
recorded MPDU after it. -/
def flqExpandCsiHdr (env : CsiEnv) (csiHdr : Bytes) : Bytes :=
  memcpyAt (memcpyAt csiHdr 208 (leBytes 8 env.unixTs.toNat)) (208 + 8) [env.flqRes.desc3Channel]

/-! ## Events -/

/-- One entry of the `data` and `len` arrays: `len` bytes of the chunk in a parked packet. -/
structure CsiSlice where
  buf : RxCmdBuffer
  len : ℕ
  deriving DecidableEq

/-- The bytes that an entry points to. -/
def CsiSlice.bytes (s : CsiSlice) : Bytes := s.buf.pkt.chunk.data.take s.len

/-- The arguments of one call of `iwl_mvm_send_csi_event`: the packet that `hdr` points into and
the `hdr_len` bytes there, and the entries of `data` and `len` before the terminating one. -/
structure CsiEvent where
  hdrBuf : RxCmdBuffer
  hdr : Bytes
  slices : List CsiSlice
  deriving DecidableEq

/-- What `iwl_mvm_send_csi_event` copies into `IWL_MVM_VENDOR_ATTR_CSI_DATA`: its loop runs while
`len[i] && data[i]`. -/
def CsiEvent.sendData (e : CsiEvent) : Bytes :=
  (e.slices.takeWhile fun s => s.len ≠ 0).flatMap CsiSlice.bytes

/-! ## The slot array -/

/-- `mvm->csi_data_entries`; an empty slot has no page. -/
abbrev CsiDataEntries := Fin csiDataEntriesSize → Option RxCmdBuffer

/-- What `struct iwl_mvm` holds for CSI. `csiEvents` is not a field of the source: it records the
calls of `iwl_mvm_send_csi_event`, oldest first. -/
structure IwlMvm where
  csiDataEntries : CsiDataEntries
  csiNotif : ℕ
  csiEvents : List CsiEvent

/-- The driver after loading: every slot is empty and nothing was sent. -/
def IwlMvm.init (csiNotif : ℕ) : IwlMvm where
  csiDataEntries := fun _ => none
  csiNotif := csiNotif
  csiEvents := []

/-- Slot `i`, empty outside the array. -/
def CsiDataEntries.entry (s : CsiDataEntries) (i : ℕ) : Option RxCmdBuffer :=
  if h : i < csiDataEntriesSize then s ⟨i, h⟩ else none

/-- `iwl_mvm_csi_free_pages`: every slot that holds a page is freed and cleared. -/
def iwlMvmCsiFreePages (m : IwlMvm) : IwlMvm := { m with csiDataEntries := fun _ => none }

/-- `iwl_mvm_csi_steal`: park the buffer in its slot. If the slot is taken the firmware is
confused: everything is freed and the buffer in hand is not kept. -/
def iwlMvmCsiSteal (m : IwlMvm) (idx : Fin csiDataEntriesSize) (rxb : RxCmdBuffer) : IwlMvm :=
  if (m.csiDataEntries idx).isSome then iwlMvmCsiFreePages m
  else { m with csiDataEntries := Function.update m.csiDataEntries idx (some rxb) }

/-- `iwl_mvm_rx_csi_header`. -/
def iwlMvmRxCsiHeader (m : IwlMvm) (rxb : RxCmdBuffer) : IwlMvm :=
  iwlMvmCsiSteal m ⟨0, by decide⟩ rxb

/-- The chunk's data lies inside its packet's payload. -/
def RxPacket.ChunkFits (pkt : RxPacket) : Prop :=
  sizeofCsiChunkNotification + pkt.chunk.size ≤ iwlRxPacketPayloadLen pkt

instance (pkt : RxPacket) : Decidable pkt.ChunkFits := by
  unfold RxPacket.ChunkFits
  infer_instance

/-- The `for` loop of `iwl_mvm_csi_complete` over the given slots: it breaks at the first empty
one, and leaves for `free` (`none`) at a chunk that does not fit its packet. -/
def csiSlices (s : CsiDataEntries) : List ℕ → Option (List CsiSlice)
  | [] => some []
  | i :: is =>
    match s.entry i with
    | none => some []
    | some buf =>
      if buf.pkt.ChunkFits then
        (csiSlices s is).map fun slices => ⟨buf, buf.pkt.chunk.size⟩ :: slices
      else none

/-- The slots of the chunks, `1` to `ARRAY_SIZE(mvm->csi_data_entries) - 1`. -/
def chunkSlots : List ℕ := List.range' 1 iwlCsiMaxExpectedChunks

/-- The event of a header packet: its payload, expanded in place. -/
def csiEvent (env : CsiEnv) (hdrBuf : RxCmdBuffer) (slices : List CsiSlice) : CsiEvent where
  hdrBuf := hdrBuf
  hdr := (flqExpandCsiHdr env hdrBuf.pkt.data).take (iwlRxPacketPayloadLen hdrBuf.pkt)
  slices := slices

/-- `iwl_mvm_csi_complete`: it needs at least the header and the first
fragment, and frees every slot whether an event was sent or not. -/
def iwlMvmCsiComplete (m : IwlMvm) (env : CsiEnv) : IwlMvm :=
  match m.csiDataEntries.entry 0, m.csiDataEntries.entry 1 with
  | some hdrBuf, some _ =>
    match csiSlices m.csiDataEntries chunkSlots with
    | some slices =>
      iwlMvmCsiFreePages
        { m with csiEvents := m.csiEvents ++ [csiEvent env hdrBuf slices] }
    | none => iwlMvmCsiFreePages m
  | _, _ => iwlMvmCsiFreePages m

/-- `iwl_mvm_rx_csi_chunk`. -/
def iwlMvmRxCsiChunk (m : IwlMvm) (env : CsiEnv) (rxb : RxCmdBuffer) : IwlMvm :=
  match csiChunkNumIdx m.csiNotif rxb.pkt.chunk.ctl with
  | none => m
  | some (num, idx) =>
    -- -1 to account for the header we also store there
    if h : csiDataEntriesSize - 1 ≤ idx then m
    else
      let m := iwlMvmCsiSteal m ⟨idx, by omega⟩ rxb
      if num = idx then iwlMvmCsiComplete m env else m

/-- A CSI notification. -/
inductive CsiNotif
  | header (rxb : RxCmdBuffer)
  | chunk (rxb : RxCmdBuffer)
  deriving DecidableEq

/-- One notification is handled. -/
def csiStep (m : IwlMvm) : CsiNotif × CsiEnv → IwlMvm
  | (.header rxb, _) => iwlMvmRxCsiHeader m rxb
  | (.chunk rxb, env) => iwlMvmRxCsiChunk m env rxb

/-! ## Frame lemmas -/

@[simp] theorem entry_none (i : ℕ) : CsiDataEntries.entry (fun _ => none) i = none := by
  simp [CsiDataEntries.entry]

@[simp] theorem freePages_csiDataEntries (m : IwlMvm) :
    (iwlMvmCsiFreePages m).csiDataEntries = fun _ => none := rfl

@[simp] theorem freePages_csiEvents (m : IwlMvm) :
    (iwlMvmCsiFreePages m).csiEvents = m.csiEvents := rfl

@[simp] theorem steal_csiNotif (m : IwlMvm) (idx : Fin csiDataEntriesSize) (rxb : RxCmdBuffer) :
    (iwlMvmCsiSteal m idx rxb).csiNotif = m.csiNotif := by
  unfold iwlMvmCsiSteal; split <;> rfl

@[simp] theorem steal_csiEvents (m : IwlMvm) (idx : Fin csiDataEntriesSize) (rxb : RxCmdBuffer) :
    (iwlMvmCsiSteal m idx rxb).csiEvents = m.csiEvents := by
  unfold iwlMvmCsiSteal; split <;> rfl

@[simp] theorem complete_csiNotif (m : IwlMvm) (env : CsiEnv) :
    (iwlMvmCsiComplete m env).csiNotif = m.csiNotif := by
  unfold iwlMvmCsiComplete; split <;> [split <;> rfl; rfl]

/-- Whatever it finds, `iwl_mvm_csi_complete` leaves every slot empty. -/
@[simp] theorem complete_csiDataEntries (m : IwlMvm) (env : CsiEnv) :
    (iwlMvmCsiComplete m env).csiDataEntries = fun _ => none := by
  unfold iwlMvmCsiComplete; split <;> [split <;> rfl; rfl]

theorem csiStep_csiNotif (m : IwlMvm) (a : CsiNotif × CsiEnv) :
    (csiStep m a).csiNotif = m.csiNotif := by
  obtain ⟨_ | rxb, env⟩ := a
  · simp [csiStep, iwlMvmRxCsiHeader]
  · simp only [csiStep, iwlMvmRxCsiChunk]
    split <;> [rfl; split <;> [rfl; split <;> simp]]

theorem foldl_csiStep_csiNotif (m : IwlMvm) (as : List (CsiNotif × CsiEnv)) :
    (as.foldl csiStep m).csiNotif = m.csiNotif := by
  induction as generalizing m with
  | nil => rfl
  | cons a as ih => rw [List.foldl_cons, ih, csiStep_csiNotif]

/-! ## Stealing -/

theorem entry_of_lt {s : CsiDataEntries} {i : ℕ} (h : i < csiDataEntriesSize) :
    s.entry i = s ⟨i, h⟩ := by
  simp [CsiDataEntries.entry, h]

theorem entry_eq_none_of_le {s : CsiDataEntries} {i : ℕ} (h : csiDataEntriesSize ≤ i) :
    s.entry i = none := by
  simp [CsiDataEntries.entry, Nat.not_lt.2 h]

/-- Into a free slot the buffer goes, and the other slots keep theirs. -/
theorem steal_entry_of_free {m : IwlMvm} (idx : Fin csiDataEntriesSize) (rxb : RxCmdBuffer)
    (h : m.csiDataEntries.entry idx = none) (i : ℕ) :
    (iwlMvmCsiSteal m idx rxb).csiDataEntries.entry i =
      if i = idx then some rxb else m.csiDataEntries.entry i := by
  rw [entry_of_lt idx.isLt] at h
  simp only [iwlMvmCsiSteal, h, Option.isSome_none, Bool.false_eq_true, if_false]
  by_cases hi : i < csiDataEntriesSize
  · rw [entry_of_lt hi, entry_of_lt hi, Function.update_apply]
    simp only [Fin.ext_iff]
  · have hne : i ≠ idx := fun e => hi (e ▸ idx.isLt)
    rw [if_neg hne, entry_eq_none_of_le (Nat.not_lt.1 hi), entry_eq_none_of_le (Nat.not_lt.1 hi)]

/-- On a taken slot everything is dropped. -/
theorem steal_of_taken {m : IwlMvm} (idx : Fin csiDataEntriesSize) (rxb : RxCmdBuffer)
    {b : RxCmdBuffer} (h : m.csiDataEntries.entry idx = some b) :
    iwlMvmCsiSteal m idx rxb = iwlMvmCsiFreePages m := by
  rw [entry_of_lt idx.isLt] at h
  simp [iwlMvmCsiSteal, h]

/-- What a slot holds after stealing is the buffer in hand or what it held before. -/
theorem steal_entry_eq_some {m : IwlMvm} {idx : Fin csiDataEntriesSize} {rxb b : RxCmdBuffer} {i : ℕ}
    (h : (iwlMvmCsiSteal m idx rxb).csiDataEntries.entry i = some b) :
    (i = idx ∧ b = rxb) ∨ m.csiDataEntries.entry i = some b := by
  cases hfree : m.csiDataEntries.entry idx with
  | some b' =>
    rw [steal_of_taken _ _ hfree, freePages_csiDataEntries, entry_none] at h
    cases h
  | none =>
    rw [steal_entry_of_free _ _ hfree] at h
    split at h
    · exact .inl ⟨by assumption, by simpa using h.symm⟩
    · exact .inr h

/-! ## The collecting loop -/

/-- The buffers in the given slots, up to the first empty one. -/
def occupied (s : CsiDataEntries) : List ℕ → List RxCmdBuffer
  | [] => []
  | i :: is =>
    match s.entry i with
    | none => []
    | some buf => buf :: occupied s is

/-- The slice of a parked chunk. -/
def chunkSlice (buf : RxCmdBuffer) : CsiSlice := ⟨buf, buf.pkt.chunk.size⟩

@[simp] theorem chunkSlice_buf (buf : RxCmdBuffer) : (chunkSlice buf).buf = buf := rfl

/-- **What the collecting loop reads**: the slots up to the first empty one, provided that every
chunk there fits its packet. -/
theorem csiSlices_eq (s : CsiDataEntries) (is : List ℕ) :
    csiSlices s is =
      if ∀ buf ∈ occupied s is, buf.pkt.ChunkFits then some ((occupied s is).map chunkSlice)
      else none := by
  induction is with
  | nil => simp [csiSlices, occupied]
  | cons i is ih =>
    cases hi : s.entry i with
    | none => simp [csiSlices, occupied, hi]
    | some buf =>
      simp only [csiSlices, occupied, hi, ih, List.forall_mem_cons]
      by_cases hfit : buf.pkt.ChunkFits
      · by_cases hrest : ∀ b ∈ occupied s is, b.pkt.ChunkFits <;>
          simp [hfit, hrest, chunkSlice]
      · simp [hfit]

/-- The slots from `a` on hold a buffer and others when slot `a` holds the former and those from
the next on the latter. -/
theorem forall_slot_cons (slot : ℕ → Option RxCmdBuffer) (a : ℕ) (b : RxCmdBuffer)
    (bs : List RxCmdBuffer) :
    (∀ k (h : k < (b :: bs).length), slot (a + k) = some (b :: bs)[k]) ↔
      slot a = some b ∧ ∀ k (h : k < bs.length), slot (a + 1 + k) = some bs[k] := by
  constructor
  · intro hall
    refine ⟨hall 0 (Nat.succ_pos _), fun k hk => ?_⟩
    rw [Nat.add_right_comm]
    exact hall (k + 1) (Nat.succ_lt_succ hk)
  · rintro ⟨h0, hall⟩ (_ | k) hk
    · exact h0
    · have hk' := hall k (Nat.lt_of_succ_lt_succ hk)
      rw [Nat.add_right_comm] at hk'
      exact hk'

/-- The buffers read from consecutive slots are `bs` exactly when these slots hold them in order
and the slot after them, if it is one of the array, is empty. -/
theorem occupied_range'_eq_iff (s : CsiDataEntries) (a n : ℕ) (bs : List RxCmdBuffer) :
    occupied s (List.range' a n) = bs ↔
      bs.length ≤ n ∧ (∀ k (h : k < bs.length), s.entry (a + k) = some bs[k]) ∧
        (bs.length < n → s.entry (a + bs.length) = none) := by
  induction n generalizing a bs with
  | zero =>
    simp only [List.range'_zero, occupied, Nat.le_zero, Nat.not_lt_zero, IsEmpty.forall_iff,
      and_true, List.length_eq_zero_iff]
    constructor
    · rintro rfl
      exact ⟨rfl, by simp⟩
    · rintro ⟨rfl, -⟩
      rfl
  | succ n ih =>
    rw [List.range'_succ]
    cases ha : s.entry a with
    | none =>
      simp only [occupied, ha]
      constructor
      · rintro rfl
        exact ⟨by simp, by simp, by simpa using ha⟩
      · rintro ⟨-, hall, -⟩
        cases bs with
        | nil => rfl
        | cons b bs =>
          have h0 := hall 0 (by simp)
          simp [ha] at h0
    | some b =>
      simp only [occupied, ha]
      cases bs with
      | nil =>
        constructor
        · simp
        · rintro ⟨-, -, hend⟩
          have := hend (by simp)
          simp [ha] at this
      | cons c bs =>
        have hnext : a + (bs.length + 1) = a + 1 + bs.length := by omega
        rw [List.cons.injEq, ih, forall_slot_cons, ha, Option.some.injEq, List.length_cons,
          Nat.add_le_add_iff_right, Nat.add_lt_add_iff_right, hnext]
        tauto

/-- From slot 1 on the slots hold `bs`, and the slot after these is empty. -/
def ReadsAs (slot : ℕ → Option RxCmdBuffer) (bs : List RxCmdBuffer) : Prop :=
  (∀ k (h : k < bs.length), slot (k + 1) = some bs[k]) ∧ slot (bs.length + 1) = none

theorem ReadsAs.unique {slot : ℕ → Option RxCmdBuffer} {bs cs : List RxCmdBuffer}
    (hb : ReadsAs slot bs) (hc : ReadsAs slot cs) : bs = cs := by
  have hlen : bs.length = cs.length := by
    rcases Nat.lt_trichotomy bs.length cs.length with hlt | heq | hgt
    · cases (hc.1 _ hlt).symm.trans hb.2
    · exact heq
    · cases (hb.1 _ hgt).symm.trans hc.2
  refine List.ext_getElem hlen fun k hk hk' => ?_
  exact Option.some.inj ((hb.1 k hk).symm.trans (hc.1 k hk'))

/-- What `iwl_mvm_csi_complete` collects is what the slots read as. -/
theorem occupied_chunkSlots_eq_iff (s : CsiDataEntries) (bs : List RxCmdBuffer) :
    occupied s chunkSlots = bs ↔ ReadsAs s.entry bs := by
  rw [chunkSlots, occupied_range'_eq_iff, ReadsAs]
  constructor
  · rintro ⟨hlen, hall, hend⟩
    refine ⟨fun k hk => by rw [Nat.add_comm]; exact hall k hk, ?_⟩
    by_cases hlt : bs.length < iwlCsiMaxExpectedChunks
    · rw [Nat.add_comm]
      exact hend hlt
    · exact entry_eq_none_of_le (by simp only [csiDataEntriesSize]; omega)
  · rintro ⟨hall, hend⟩
    refine ⟨?_, fun k hk => by rw [Nat.add_comm]; exact hall k hk,
      fun _ => by rw [Nat.add_comm]; exact hend⟩
    -- a longer list would need a slot past the end of the array
    by_contra hlen
    have := hall iwlCsiMaxExpectedChunks (by omega)
    rw [entry_eq_none_of_le (by simp [csiDataEntriesSize])] at this
    cases this

/-- **What completing does**: with a header and chunks that fit, exactly one event, of the header
and the collected chunks; otherwise none. -/
theorem complete_csiEvents (m : IwlMvm) (env : CsiEnv) :
    (iwlMvmCsiComplete m env).csiEvents =
      m.csiEvents ++
        match m.csiDataEntries.entry 0 with
        | some hdrBuf =>
          if occupied m.csiDataEntries chunkSlots ≠ [] ∧
              ∀ buf ∈ occupied m.csiDataEntries chunkSlots, buf.pkt.ChunkFits then
            [csiEvent env hdrBuf
              ((occupied m.csiDataEntries chunkSlots).map chunkSlice)]
          else []
        | none => [] := by
  have hslots : chunkSlots = 1 :: List.range' 2 15 := rfl
  have hne : occupied m.csiDataEntries chunkSlots ≠ [] ↔ (m.csiDataEntries.entry 1).isSome := by
    rw [hslots, occupied]
    cases m.csiDataEntries.entry 1 <;> simp
  simp only [hne]
  unfold iwlMvmCsiComplete
  rw [csiSlices_eq]
  cases h0 : m.csiDataEntries.entry 0 with
  | none => simp [iwlMvmCsiFreePages]
  | some hdrBuf =>
    cases h1 : m.csiDataEntries.entry 1 with
    | none => simp [iwlMvmCsiFreePages]
    | some b =>
      by_cases hfit : ∀ buf ∈ occupied m.csiDataEntries chunkSlots, buf.pkt.ChunkFits
      · simp only [if_pos hfit, iwlMvmCsiFreePages, Option.isSome_some, true_and]
      · simp only [if_neg hfit, iwlMvmCsiFreePages, Option.isSome_some, true_and,
          List.append_nil]

end Iax.Mvm
