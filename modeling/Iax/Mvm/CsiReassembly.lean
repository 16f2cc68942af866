import Iax.Lib.Lts
import Iax.Mvm.CsiSlots
import Mathlib.Data.List.TakeWhile

/-!
# Reassembly of CSI measurements

The firmware produces measurements: a header packet and the chunk packets `1..num` (`Measurement`).
Any of their notifications may be lost and they may arrive in any order. This module relates the
events that the driver hands to user space to the measurements they come from.

* `csi_events_exact_iff`: along any run, every event is exactly one measurement if and only if each
  chunk whose arrival hands an event over finds its own measurement `Pending`: header and earlier
  chunks parked, the slot behind them empty. The driver compares neither `token` nor `seq` nor the
  number of parked chunks, so a loss can make other steps hand over mixed or short measurements.
-/

namespace Iax.Mvm

open Bytes

/-! ## Measurements -/

/-- A measurement as the firmware produced it: the header packet and the chunk packets, in the
order of their index. -/
structure Measurement where
  hdr : RxCmdBuffer
  chunks : List RxCmdBuffer
  deriving DecidableEq

/-- Each chunk announces its index and the number of chunks. -/
structure Measurement.WellFormed (csiNotif : ℕ) (M : Measurement) : Prop where
  chunks_ne_nil : M.chunks ≠ []
  ctl : ∀ k (h : k < M.chunks.length),
    csiChunkNumIdx csiNotif M.chunks[k].pkt.chunk.ctl = some (M.chunks.length, k + 1)

/-- The firmware's stream for the measurement. -/
def Measurement.notifs (M : Measurement) : List CsiNotif := .header M.hdr :: M.chunks.map .chunk

/-- The data of the whole measurement, in index order: of each chunk as much as its `size` says. -/
def Measurement.data (M : Measurement) : Bytes :=
  M.chunks.flatMap fun c => c.pkt.chunk.data.take c.pkt.chunk.size

/-- The event is exactly the measurement: its header bytes are the payload of the measurement's
header packet, expanded; its entries are the measurement's chunks, all of them and no others, with
the sizes that they announce; and the bytes that reach user space are the data of these chunks. -/
structure CsiEvent.IsOf (e : CsiEvent) (M : Measurement) : Prop where
  hdrBuf : e.hdrBuf = M.hdr
  hdr : ∃ env, e.hdr = (flqExpandCsiHdr env M.hdr.pkt.data).take (iwlRxPacketPayloadLen M.hdr.pkt)
  bufs : e.slices.map CsiSlice.buf = M.chunks
  lens : e.slices.map CsiSlice.len = M.chunks.map fun c => c.pkt.chunk.size
  data : e.sendData = M.data

/-- After an empty chunk there are only empty ones. `iwl_mvm_send_csi_event` takes the first
length of zero for the terminating entry. -/
def NoGap (chunks : List RxCmdBuffer) : Prop :=
  ∀ c ∈ chunks.dropWhile fun c => c.pkt.chunk.size ≠ 0, c.pkt.chunk.data.take c.pkt.chunk.size = []

instance (chunks : List RxCmdBuffer) : Decidable (NoGap chunks) := by
  unfold NoGap
  infer_instance

/-- The slices of a list of chunks reach user space in full when no empty one hides a later one. -/
theorem sendData_eq_iff (env : CsiEnv) (hdr : RxCmdBuffer)
    (chunks : List RxCmdBuffer) :
    (csiEvent env hdr (chunks.map chunkSlice)).sendData =
        (chunks.flatMap fun c => c.pkt.chunk.data.take c.pkt.chunk.size) ↔ NoGap chunks := by
  change _ = (chunks.flatMap fun c => (chunkSlice c).bytes) ↔ _
  set p : RxCmdBuffer → Bool := fun c => c.pkt.chunk.size ≠ 0 with hp
  have hsent : (csiEvent env hdr (chunks.map chunkSlice)).sendData =
      (chunks.takeWhile p).flatMap fun c => (chunkSlice c).bytes := by
    simp only [CsiEvent.sendData, csiEvent, List.takeWhile_map, List.flatMap_map]
    rfl
  have hsplit : (chunks.flatMap fun c => (chunkSlice c).bytes) =
      ((chunks.takeWhile p).flatMap fun c => (chunkSlice c).bytes) ++
        (chunks.dropWhile p).flatMap fun c => (chunkSlice c).bytes := by
    rw [← List.flatMap_append, List.takeWhile_append_dropWhile]
  rw [hsent, hsplit, List.self_eq_append_right, List.flatMap_eq_nil_iff]
  rfl

/-- What the driver hands over, as it builds it, is exactly the measurement. -/
theorem isOf_iff {e : CsiEvent} {M : Measurement} :
    e.IsOf M ↔
      (∃ env, e = csiEvent env M.hdr (M.chunks.map chunkSlice)) ∧ e.sendData = M.data := by
  constructor
  · intro h
    obtain ⟨env, hhdr⟩ := h.hdr
    have hslices : e.slices = M.chunks.map chunkSlice := by
      apply List.ext_getElem?
      intro k
      have hbuf := congrArg (·[k]?) h.bufs
      have hlen := congrArg (·[k]?) h.lens
      simp only [List.getElem?_map] at hbuf hlen ⊢
      rw [← hbuf] at hlen ⊢
      cases hk : e.slices[k]? with
      | none => rfl
      | some slice =>
        rw [hk] at hlen
        have hsize : slice.len = slice.buf.pkt.chunk.size := Option.some.inj hlen
        exact congrArg some (congrArg (CsiSlice.mk slice.buf) hsize)
    refine ⟨⟨env, ?_⟩, h.data⟩
    rw [CsiEvent.mk.injEq]
    exact ⟨h.hdrBuf, hhdr, hslices⟩
  · rintro ⟨⟨env, rfl⟩, hdata⟩
    refine ⟨rfl, ⟨env, rfl⟩, ?_, ?_, hdata⟩
    · rw [csiEvent, List.map_map]
      exact List.map_id _
    · rw [csiEvent, List.map_map]
      rfl

/-- The event that the driver builds from a measurement without a gap. -/
theorem isOf_csiEvent {M : Measurement} (h : NoGap M.chunks) (env : CsiEnv) :
    (csiEvent env M.hdr (M.chunks.map chunkSlice)).IsOf M :=
  isOf_iff.2 ⟨⟨env, rfl⟩, (sendData_eq_iff ..).2 h⟩

/-! ## What the firmware sends -/

/-- A chunk packet. -/
def RxPacket.ofChunk (token seq ctl : ℕ) (data : Bytes) : RxPacket where
  lenNFlags := BitVec.ofNat 32 (4 + sizeofCsiChunkNotification + data.length)
  data := leBytes 4 token ++ leBytes 2 seq ++ leBytes 2 ctl ++ leBytes 4 data.length ++ data

/-- The version 2 notifications of one measurement, with the data in the given pieces. -/
def Measurement.produce (token : ℕ) (hdr : Bytes) (pieces : List Bytes) : Measurement where
  hdr := ⟨0, 0, 0, ⟨BitVec.ofNat 32 (4 + hdr.length), hdr⟩⟩
  chunks := pieces.mapIdx fun k data =>
    ⟨k + 1, 0, 0, .ofChunk token k (pieces.length + 256 * k) data⟩

theorem ofChunk_chunk {token seq ctl : ℕ} {data : Bytes} (htoken : token < 2 ^ 32)
    (hseq : seq < 2 ^ 16) (hctl : ctl < 2 ^ 16) (hlen : data.length < 2 ^ 32) :
    (RxPacket.ofChunk token seq ctl data).chunk = ⟨token, seq, ctl, data.length, data⟩ := by
  have h4 : ∀ n < 2 ^ 32, leNat (leBytes 4 n) = n :=
    fun n h => leNat_leBytes_of_lt (by simpa using h)
  have h2 : ∀ n < 2 ^ 16, leNat (leBytes 2 n) = n :=
    fun n h => leNat_leBytes_of_lt (by simpa using h)
  rw [CsiChunkNotification.mk.injEq]
  exact ⟨h4 _ htoken, h2 _ hseq, h2 _ hctl, h4 _ hlen, rfl⟩

/-- The control word carries the number of chunks and the index. -/
theorem csiChunkNumIdx_two {num k : ℕ} (hnum : num < 256) (hk : k < 256) :
    csiChunkNumIdx 2 (num + 256 * k) = some (num, k + 1) := by
  have hlow : (num + 256 * k) &&& 0x00ff = num := by
    rw [show 0x00ff = 2 ^ 8 - 1 from rfl, Nat.and_two_pow_sub_one_eq_mod]
    omega
  have hhigh : ((num + 256 * k) &&& 0xff00) >>> 8 = k := by
    rw [Nat.shiftRight_and_distrib, show 0xff00 >>> 8 = 2 ^ 8 - 1 from rfl,
      Nat.and_two_pow_sub_one_eq_mod, Nat.shiftRight_eq_div_pow]
    omega
  simp only [csiChunkNumIdx, hlow, hhigh]

theorem produce_wellFormed {token : ℕ} {hdr : Bytes} {pieces : List Bytes}
    (htoken : token < 2 ^ 32) (hne : pieces ≠ []) (hnum : pieces.length < 256)
    (hlen : ∀ p ∈ pieces, p.length < 2 ^ 32) :
    (Measurement.produce token hdr pieces).WellFormed 2 := by
  refine ⟨by simpa [Measurement.produce] using hne, fun k hk => ?_⟩
  simp only [Measurement.produce, List.length_mapIdx] at hk ⊢
  have hctl : pieces.length + 256 * k < 2 ^ 16 := by omega
  rw [List.getElem_mapIdx,
    ofChunk_chunk htoken (by omega) hctl (hlen _ (List.getElem_mem _))]
  exact csiChunkNumIdx_two hnum (by omega)

/-! ## What one arrival hands over -/

/-- The arrival of `rxb` completes: its chunk is the last one by its own count, its slot is free
and inside the checked bound, and with it in place the slots hold `hdr` and, up to the first empty
slot, the chunks `chunks`, which all fit their packets. -/
structure HandsOver (m : IwlMvm) (rxb hdr : RxCmdBuffer) (chunks : List RxCmdBuffer) (idx : ℕ) :
    Prop where
  last : csiChunkNumIdx m.csiNotif rxb.pkt.chunk.ctl = some (idx, idx)
  bound : idx < csiDataEntriesSize - 1
  free : m.csiDataEntries.entry idx = none
  header : m.csiDataEntries.entry 0 = some hdr
  collected : ReadsAs (fun i => if i = idx then some rxb else m.csiDataEntries.entry i) chunks
  nonempty : chunks ≠ []
  fits : ∀ c ∈ chunks, c.pkt.ChunkFits

theorem idx_pos {csiNotif ctl num idx : ℕ} (h : csiChunkNumIdx csiNotif ctl = some (num, idx)) :
    0 < idx := by
  unfold csiChunkNumIdx at h
  split at h
  · simp only [Option.some.injEq, Prod.mk.injEq] at h
    omega
  · simp only [Option.some.injEq, Prod.mk.injEq] at h
    omega
  · cases h

/-- The events when the last chunk has taken its slot. -/
theorem complete_steal_csiEvents (m : IwlMvm) (rxb : RxCmdBuffer) (env : CsiEnv)
    {idx : Fin csiDataEntriesSize} (hpos : 0 < idx.val) (hbound : idx.val < csiDataEntriesSize - 1)
    (hctl : csiChunkNumIdx m.csiNotif rxb.pkt.chunk.ctl = some (idx.val, idx.val))
    (hfree : m.csiDataEntries.entry idx = none) :
    ((iwlMvmCsiComplete (iwlMvmCsiSteal m idx rxb) env).csiEvents = m.csiEvents ∧
        ∀ hdr chunks idx', ¬ HandsOver m rxb hdr chunks idx') ∨
      ∃ hdr chunks idx', HandsOver m rxb hdr chunks idx' ∧
        (iwlMvmCsiComplete (iwlMvmCsiSteal m idx rxb) env).csiEvents =
          m.csiEvents ++ [csiEvent env hdr (chunks.map chunkSlice)] := by
  have hentry := steal_entry_of_free idx rxb hfree
  have h0 : (iwlMvmCsiSteal m idx rxb).csiDataEntries.entry 0 = m.csiDataEntries.entry 0 := by
    rw [hentry, if_neg hpos.ne]
  -- the collected chunks, in the vocabulary of `HandsOver`
  have hcol := occupied_chunkSlots_eq_iff (iwlMvmCsiSteal m idx rxb).csiDataEntries
  rw [funext hentry] at hcol
  rw [complete_csiEvents]
  set cs := occupied (iwlMvmCsiSteal m idx rxb).csiDataEntries chunkSlots
  rw [h0, steal_csiEvents]
  cases hhdr : m.csiDataEntries.entry 0 with
  | none =>
    refine .inl ⟨by simp, fun hdr chunks idx' h => ?_⟩
    cases hhdr.symm.trans h.header
  | some hdrBuf =>
    by_cases hcs : cs ≠ [] ∧ ∀ buf ∈ cs, buf.pkt.ChunkFits
    · refine .inr ⟨hdrBuf, cs, idx, ⟨hctl, hbound, hfree, hhdr, (hcol cs).1 rfl, hcs.1, hcs.2⟩, ?_⟩
      simp only [if_pos hcs]
    · refine .inl ⟨by simp only [if_neg hcs, List.append_nil], fun hdr chunks idx' h => ?_⟩
      obtain ⟨-, rfl⟩ : idx.val = idx' ∧ idx.val = idx' := by simpa [hctl] using h.last
      obtain rfl := (hcol chunks).2 h.collected
      exact hcs ⟨h.nonempty, h.fits⟩

/-- **The events of a chunk's arrival**: the one that the arrival hands over, if any. -/
theorem csiStep_chunk_csiEvents (m : IwlMvm) (rxb : RxCmdBuffer) (env : CsiEnv) :
    ((csiStep m (.chunk rxb, env)).csiEvents = m.csiEvents ∧
        ∀ hdr chunks idx, ¬ HandsOver m rxb hdr chunks idx) ∨
      ∃ hdr chunks idx, HandsOver m rxb hdr chunks idx ∧
        (csiStep m (.chunk rxb, env)).csiEvents =
          m.csiEvents ++ [csiEvent env hdr (chunks.map chunkSlice)] := by
  simp only [csiStep, iwlMvmRxCsiChunk]
  cases hctl : csiChunkNumIdx m.csiNotif rxb.pkt.chunk.ctl with
  | none =>
    refine .inl ⟨rfl, fun hdr chunks idx h => ?_⟩
    cases hctl.symm.trans h.last
  | some ni =>
    obtain ⟨num, idx⟩ := ni
    -- what an arrival that hands over would have decoded
    have hlast : ∀ {hdr chunks idx'}, HandsOver m rxb hdr chunks idx' → num = idx' ∧ idx = idx' :=
      fun h => by simpa [hctl] using h.last
    by_cases hbound : csiDataEntriesSize - 1 ≤ idx
    · simp only [dif_pos hbound]
      refine .inl ⟨True.intro, fun hdr chunks idx' h => ?_⟩
      obtain ⟨-, rfl⟩ := hlast h
      exact absurd h.bound (by omega)
    · simp only [dif_neg hbound]
      by_cases hnum : num = idx
      · simp only [if_pos hnum]
        cases hfree : m.csiDataEntries.entry idx with
        | some b =>
          rw [complete_csiEvents, steal_of_taken ⟨idx, by omega⟩ rxb hfree]
          refine .inl ⟨by simp, fun hdr chunks idx' h => ?_⟩
          obtain ⟨-, rfl⟩ := hlast h
          cases hfree.symm.trans h.free
        | none =>
          exact complete_steal_csiEvents m rxb env (idx_pos hctl) (Nat.lt_of_not_le hbound)
            (hctl.trans (by rw [hnum])) hfree
      · simp only [if_neg hnum, steal_csiEvents]
        refine .inl ⟨True.intro, fun hdr chunks idx' h => ?_⟩
        obtain ⟨h1, h2⟩ := hlast h
        exact hnum (h1.trans h2.symm)

/-- An arrival that hands over hands over that one event. -/
theorem HandsOver.csiEvents {m : IwlMvm} {rxb hdr : RxCmdBuffer} {chunks : List RxCmdBuffer}
    {idx : ℕ} (h : HandsOver m rxb hdr chunks idx) (env : CsiEnv) :
    (csiStep m (.chunk rxb, env)).csiEvents =
      m.csiEvents ++ [csiEvent env hdr (chunks.map chunkSlice)] := by
  rcases csiStep_chunk_csiEvents m rxb env with ⟨-, hno⟩ | ⟨hdr', chunks', idx', h', heq⟩
  · exact absurd h (hno hdr chunks idx)
  · obtain rfl : idx' = idx := by
      have := h'.last.symm.trans h.last
      simp only [Option.some.injEq, Prod.mk.injEq] at this
      exact this.1
    obtain rfl : hdr' = hdr := Option.some.inj (h'.header.symm.trans h.header)
    rw [heq, h'.collected.unique h.collected]

theorem csiStep_header_csiEvents (m : IwlMvm) (rxb : RxCmdBuffer) (env : CsiEnv) :
    (csiStep m (.header rxb, env)).csiEvents = m.csiEvents :=
  steal_csiEvents ..

/-! ## No slot ever keeps a last chunk -/

/-- A parked chunk sits in the slot of its index and is not the last of its measurement: the last
one completes, and completing empties the slots. -/
def NoLast (m : IwlMvm) : Prop :=
  ∀ i b, 0 < i → m.csiDataEntries.entry i = some b →
    ∃ num, num ≠ i ∧ csiChunkNumIdx m.csiNotif b.pkt.chunk.ctl = some (num, i)

theorem noLast_of_empty {m : IwlMvm} (h : m.csiDataEntries = fun _ => none) : NoLast m := by
  intro i b _ hb
  simp [h, CsiDataEntries.entry] at hb

theorem noLast_csiStep {m : IwlMvm} (hm : NoLast m) (a : CsiNotif × CsiEnv) :
    NoLast (csiStep m a) := by
  obtain ⟨rxb | rxb, env⟩ := a
  · intro i b hi hb
    rcases steal_entry_eq_some hb with ⟨rfl, -⟩ | hold
    · exact absurd hi (by simp)
    · simpa [csiStep, iwlMvmRxCsiHeader] using hm i b hi hold
  · simp only [csiStep, iwlMvmRxCsiChunk]
    cases hctl : csiChunkNumIdx m.csiNotif rxb.pkt.chunk.ctl with
    | none => exact hm
    | some ni =>
      obtain ⟨num, idx⟩ := ni
      by_cases hbound : csiDataEntriesSize - 1 ≤ idx
      · simpa only [dif_pos hbound] using hm
      · simp only [dif_neg hbound]
        by_cases hnum : num = idx
        · simp only [if_pos hnum]
          exact noLast_of_empty (complete_csiDataEntries _ _)
        · simp only [if_neg hnum]
          intro i b hi hb
          rw [steal_csiNotif]
          rcases steal_entry_eq_some hb with ⟨rfl, rfl⟩ | hold
          · exact ⟨num, hnum, hctl⟩
          · exact hm i b hi hold

/-! ## When events are exact -/

/-- When `rxb` arrives, its measurement `M` is all there: the header and the earlier chunks are
parked, `rxb` is the last chunk, and no stale chunk sits behind them. -/
def Pending (m : IwlMvm) (M : Measurement) (rxb : RxCmdBuffer) : Prop :=
  m.csiDataEntries.entry 0 = some M.hdr ∧
    (∀ k (h : k + 1 < M.chunks.length), m.csiDataEntries.entry (k + 1) = some M.chunks[k]) ∧
    M.chunks.getLast? = some rxb ∧
    m.csiDataEntries.entry (M.chunks.length + 1) = none ∧
    NoGap M.chunks

/-- Every arrival that hands an event over finds one of the firmware's measurements pending. -/
def HandsOverPending (fw : Set Measurement) (m : IwlMvm) : CsiNotif × CsiEnv → Prop
  | (.header _, _) => True
  | (.chunk rxb, _) =>
    ∀ hdr chunks idx, HandsOver m rxb hdr chunks idx → ∃ M ∈ fw, Pending m M rxb

theorem getLast?_eq_getElem {M : Measurement} {rxb : RxCmdBuffer}
    (h : M.chunks.getLast? = some rxb) :
    ∃ hlt : M.chunks.length - 1 < M.chunks.length, M.chunks[M.chunks.length - 1] = rxb := by
  rw [List.getLast?_eq_getElem?] at h
  exact List.getElem?_eq_some_iff.1 h

/-- The event that an arrival hands over is the measurement `M` exactly when `M` is pending. -/
theorem isOf_iff_pending {m : IwlMvm} (hm : NoLast m) {rxb hdr : RxCmdBuffer}
    {chunks : List RxCmdBuffer} {idx : ℕ} (h : HandsOver m rxb hdr chunks idx) {M : Measurement}
    (hM : M.WellFormed m.csiNotif) (env : CsiEnv) :
    (csiEvent env hdr (chunks.map chunkSlice)).IsOf M ↔ Pending m M rxb := by
  have hidx := idx_pos h.last
  have hpos : 0 < M.chunks.length := List.length_pos_of_ne_nil hM.chunks_ne_nil
  constructor
  · intro hof
    obtain rfl : hdr = M.hdr := hof.hdrBuf
    obtain rfl : chunks = M.chunks := by
      simpa [csiEvent, Function.comp_def] using hof.bufs
    -- the arrival's index is the number of collected chunks
    have hlen : idx = M.chunks.length := by
      rcases Nat.lt_or_ge M.chunks.length idx with hlt | hle
      · -- else the last chunk of `M` would have been parked before
        have hstale := h.collected.1 (M.chunks.length - 1) (by omega)
        simp only [Nat.sub_add_cancel hpos, if_neg (Nat.ne_of_lt hlt)] at hstale
        obtain ⟨num, hne, hctl⟩ := hm _ _ hpos hstale
        rw [hM.ctl, Nat.sub_add_cancel hpos] at hctl
        simp only [Option.some.injEq, Prod.mk.injEq] at hctl
        exact absurd hctl.1.symm hne
      · have hself := h.collected.1 (idx - 1) (by omega)
        simp only [Nat.sub_add_cancel hidx, if_pos] at hself
        have hctl := hM.ctl (idx - 1) (by omega)
        rw [← Option.some.inj hself, h.last] at hctl
        simp only [Option.some.injEq, Prod.mk.injEq] at hctl
        exact hctl.1
    refine ⟨h.header, ?_, ?_, ?_, (sendData_eq_iff ..).1 hof.data⟩
    · intro k hk
      simpa only [if_neg (show k + 1 ≠ idx by omega)] using h.collected.1 k (by omega)
    · have := h.collected.1 (M.chunks.length - 1) (by omega)
      simp only [if_pos (show M.chunks.length - 1 + 1 = idx by omega)] at this
      rw [List.getLast?_eq_getElem?, this]
      exact List.getElem?_eq_getElem _
    · simpa only [if_neg (show M.chunks.length + 1 ≠ idx by omega)] using h.collected.2
  · rintro ⟨hhdr, hparked, hlast, hbehind, hgap⟩
    obtain ⟨hlt, hrxb⟩ := getLast?_eq_getElem hlast
    have hlen : idx = M.chunks.length := by
      have hctl := hM.ctl _ hlt
      rw [hrxb, h.last, Nat.sub_add_cancel hpos] at hctl
      simp only [Option.some.injEq, Prod.mk.injEq] at hctl
      exact hctl.1
    -- the chunks of `M` are what the collecting loop reads, too
    obtain rfl : M.chunks = chunks := by
      refine ReadsAs.unique ⟨fun k hk => ?_, ?_⟩ h.collected
      · by_cases hk' : k + 1 = idx
        · obtain rfl : k = M.chunks.length - 1 := by omega
          simp only [if_pos hk', hrxb]
        · simpa only [if_neg hk'] using hparked k (by omega)
      · simpa only [if_neg (show M.chunks.length + 1 ≠ idx by omega)] using hbehind
    obtain rfl : hdr = M.hdr := Option.some.inj (h.header.symm.trans hhdr)
    exact isOf_csiEvent hgap env

/-- **Exact events.** Along any run from empty slots, in any order and with any losses, every event
handed to `iwl_mvm_send_csi_event` is exactly one measurement of the firmware if and only if every
arrival that hands one over finds its measurement pending. -/
theorem csi_events_exact_iff (csiNotif : ℕ) (fw : Set Measurement)
    (hfw : ∀ M ∈ fw, M.WellFormed csiNotif) (as : List (CsiNotif × CsiEnv)) :
    (∀ e ∈ (as.foldl csiStep (IwlMvm.init csiNotif)).csiEvents, ∃ M ∈ fw, e.IsOf M) ↔
      Lts.Meets (fun m a => some (csiStep m a)) (HandsOverPending fw)
        (IwlMvm.init csiNotif) as := by
  have hrun := Lts.exec_total csiStep (IwlMvm.init csiNotif) as
  have key := Lts.exec_iff (fun m a => some (csiStep m a))
    (I := fun m => NoLast m ∧ m.csiNotif = csiNotif)
    (P := fun m => ∀ e ∈ m.csiEvents, ∃ M ∈ fw, e.IsOf M) (C := HandsOverPending fw)
    (fun m a m' hI h => by
      obtain rfl : csiStep m a = m' := by simpa using h
      exact ⟨noLast_csiStep hI.1 a, (csiStep_csiNotif m a).trans hI.2⟩)
    (fun m a m' hI h => by
      obtain rfl : csiStep m a = m' := by simpa using h
      obtain ⟨rxb | rxb, env⟩ := a
      · simp only [csiStep_header_csiEvents, HandsOverPending, and_true]
      · rcases csiStep_chunk_csiEvents m rxb env with ⟨heq, hno⟩ | ⟨hdr, chunks, idx, hover, heq⟩
        · rw [heq]
          refine ⟨fun h => ⟨h, fun hdr chunks idx hc => absurd hc (hno hdr chunks idx)⟩, And.left⟩
        · rw [heq]
          simp only [List.mem_append, List.mem_singleton, or_imp, forall_and, forall_eq]
          have hpend : (∃ M ∈ fw, (csiEvent env hdr (chunks.map chunkSlice)).IsOf M) ↔
              ∃ M ∈ fw, Pending m M rxb :=
            exists_congr fun M => and_congr_right fun hM =>
              isOf_iff_pending hI.1 hover (hI.2 ▸ hfw M hM) env
          rw [hpend]
          exact and_congr_right fun _ => ⟨fun h _ _ _ _ => h, fun h => h hdr chunks idx hover⟩)
    ⟨noLast_of_empty rfl, rfl⟩ hrun
  rw [key]
  simp [IwlMvm.init]

/-- A measurement in two chunks. -/
def twoChunks : Measurement := .produce 1 [7] [[1], [2, 3]]

/-- A measurement in one chunk. -/
def oneChunk : Measurement := .produce 2 [8] [[4]]

/-- Both measurements arrive; then a header like the first one's, and only the last chunk. -/
def lossyRun : List (CsiNotif × CsiEnv) :=
  (twoChunks.notifs ++ oneChunk.notifs ++
    [CsiNotif.header twoChunks.hdr, .chunk twoChunks.chunks[1]]).map (·, default)

/-- The two measurements that arrive in full are the events, so their last chunks find them
pending; what is left of the third is no event. -/
theorem csi_events_exact_iff_produce :
    (∀ M ∈ ({twoChunks, oneChunk} : Set Measurement), M.WellFormed 2) ∧
      (lossyRun.foldl csiStep (IwlMvm.init 2)).csiEvents.length = 2 ∧
      Lts.Meets (fun m a => some (csiStep m a)) (HandsOverPending {twoChunks, oneChunk})
        (IwlMvm.init 2) lossyRun := by
  have hfw : ∀ M ∈ ({twoChunks, oneChunk} : Set Measurement), M.WellFormed 2 := by
    rintro M (rfl | rfl) <;>
      exact produce_wellFormed (by simp) (by simp) (by simp) (by simp)
  have hevents : (lossyRun.foldl csiStep (IwlMvm.init 2)).csiEvents =
      [csiEvent default twoChunks.hdr (twoChunks.chunks.map chunkSlice),
        csiEvent default oneChunk.hdr (oneChunk.chunks.map chunkSlice)] := by
    decide +kernel
  refine ⟨hfw, by rw [hevents]; rfl, (csi_events_exact_iff 2 _ hfw _).1 ?_⟩
  rw [hevents]
  intro e he
  rcases List.mem_pair.1 he with rfl | rfl
  · exact ⟨_, .inl rfl, isOf_csiEvent (by decide +kernel) _⟩
  · exact ⟨_, .inr rfl, isOf_csiEvent (by decide +kernel) _⟩

/-- Of two measurements of one chunk each, the first chunk and the second header are lost. -/
theorem csi_events_mixed :
    (∀ M ∈ ({.produce 1 [7] [[1]], .produce 2 [8] [[2]]} : Set Measurement), M.WellFormed 2) ∧
      List.Sublist [.header (Measurement.produce 1 [7] [[1]]).hdr,
          .chunk (Measurement.produce 2 [8] [[2]]).chunks[0]]
        ((Measurement.produce 1 [7] [[1]]).notifs ++ (Measurement.produce 2 [8] [[2]]).notifs) ∧
      ∃ e ∈ ([(.header (Measurement.produce 1 [7] [[1]]).hdr, default),
          (.chunk (Measurement.produce 2 [8] [[2]]).chunks[0], default)].foldl csiStep
            (IwlMvm.init 2)).csiEvents,
        ∀ M ∈ ({.produce 1 [7] [[1]], .produce 2 [8] [[2]]} : Set Measurement), ¬ e.IsOf M := by
  refine ⟨?_, by decide +kernel,
    csiEvent default (Measurement.produce 1 [7] [[1]]).hdr
      ((Measurement.produce 2 [8] [[2]]).chunks.map chunkSlice), by decide +kernel, ?_⟩
  · rintro M (rfl | rfl) <;>
      exact produce_wellFormed (by simp) (by simp) (by simp) (by simp)
  · rintro M (rfl | rfl) hof
    · have hbufs : (Measurement.produce 2 [8] [[2]]).chunks =
          (Measurement.produce 1 [7] [[1]]).chunks := hof.bufs
      revert hbufs
      decide +kernel
    · have hhdr : (Measurement.produce 1 [7] [[1]]).hdr = (Measurement.produce 2 [8] [[2]]).hdr :=
        hof.hdrBuf
      revert hhdr
      decide +kernel

end Iax.Mvm
