import Iax.Mvm.CsiReassembly

/-!
# Delivery of a whole measurement

What happens when no notification of a measurement is lost: its header comes first and its last
chunk last, the chunks between them in any order.

* `parked_chunks`: until the last chunk, the slots hold the header and the chunks seen so far.
* `csi_delivery_iff`: of the measurements the slot array was dimensioned for, those with all
  `IWL_CSI_MAX_EXPECTED_CHUNKS` chunks are not delivered.
* `csi_resync`: two measurements delivered without loss are enough to get back in step, from any
  state; the first empties the slots, the second arrives as it is.
-/

namespace Iax.Mvm

open Bytes

/-! ## The chunks before the last -/

/-- From `m` to `m'` exactly one event was handed over, of `M`, and the slots are empty. -/
def Delivered (M : Measurement) (m m' : IwlMvm) : Prop :=
  (∃ e, m'.csiEvents = m.csiEvents ++ [e] ∧ e.IsOf M) ∧ m'.csiDataEntries = fun _ => none

/-- The chunks of a measurement differ, as their indices do. -/
theorem Measurement.WellFormed.getElem_inj {csiNotif : ℕ} {M : Measurement}
    (hM : M.WellFormed csiNotif) {j k : ℕ} {hj : j < M.chunks.length} {hk : k < M.chunks.length}
    (h : M.chunks[j] = M.chunks[k]) : j = k := by
  have := hM.ctl k hk
  rw [← h, hM.ctl j hj] at this
  simpa using this

theorem Measurement.WellFormed.nodup {csiNotif : ℕ} {M : Measurement}
    (hM : M.WellFormed csiNotif) : M.chunks.Nodup :=
  List.nodup_iff_injective_get.2 fun _ _ h => Fin.ext (hM.getElem_inj h)

/-- The slots hold the header of `M`, those chunks of `M` that are in `cs`, and nothing else. -/
def Parked (M : Measurement) (cs : List RxCmdBuffer) (m : IwlMvm) : Prop :=
  m.csiDataEntries.entry 0 = some M.hdr ∧
    (∀ k (h : k < M.chunks.length),
      m.csiDataEntries.entry (k + 1) = if M.chunks[k] ∈ cs then some M.chunks[k] else none) ∧
    ∀ i, M.chunks.length < i → m.csiDataEntries.entry i = none

/-- A chunk whose slot is free and that is not the last of its measurement is parked. -/
theorem csiStep_park {m : IwlMvm} {rxb : RxCmdBuffer} {num idx : ℕ}
    (hctl : csiChunkNumIdx m.csiNotif rxb.pkt.chunk.ctl = some (num, idx))
    (hbound : idx < csiDataEntriesSize - 1) (hne : num ≠ idx)
    (hfree : m.csiDataEntries.entry idx = none) (env : CsiEnv) (i : ℕ) :
    (csiStep m (.chunk rxb, env)).csiDataEntries.entry i =
      if i = idx then some rxb else m.csiDataEntries.entry i := by
  simp only [csiStep, iwlMvmRxCsiChunk, hctl, dif_neg (Nat.not_le.2 hbound), if_neg hne]
  exact steal_entry_of_free ⟨idx, by omega⟩ rxb hfree i

/-- A chunk that is not the last of its measurement hands nothing over. -/
theorem csiStep_csiEvents_of_ne {m : IwlMvm} {rxb : RxCmdBuffer} {num idx : ℕ}
    (hctl : csiChunkNumIdx m.csiNotif rxb.pkt.chunk.ctl = some (num, idx)) (hne : num ≠ idx)
    (env : CsiEnv) : (csiStep m (.chunk rxb, env)).csiEvents = m.csiEvents := by
  rcases csiStep_chunk_csiEvents m rxb env with ⟨heq, -⟩ | ⟨hdr, chunks, idx', h, -⟩
  · exact heq
  · have := h.last.symm.trans hctl
    simp only [Option.some.injEq, Prod.mk.injEq] at this
    exact absurd (this.1.symm.trans this.2) hne

/-- A chunk with an index past the checked bound is ignored. -/
theorem csiStep_of_bound {m : IwlMvm} {rxb : RxCmdBuffer} {num idx : ℕ}
    (hctl : csiChunkNumIdx m.csiNotif rxb.pkt.chunk.ctl = some (num, idx))
    (hbound : csiDataEntriesSize - 1 ≤ idx) (env : CsiEnv) :
    csiStep m (.chunk rxb, env) = m := by
  simp only [csiStep, iwlMvmRxCsiChunk, hctl, dif_pos hbound]

/-- The last chunk of a measurement empties the slots, whatever it finds there. -/
theorem csiStep_last_csiDataEntries {m : IwlMvm} {rxb : RxCmdBuffer} {idx : ℕ}
    (hctl : csiChunkNumIdx m.csiNotif rxb.pkt.chunk.ctl = some (idx, idx))
    (hbound : idx < csiDataEntriesSize - 1) (env : CsiEnv) :
    (csiStep m (.chunk rxb, env)).csiDataEntries = fun _ => none := by
  simp only [csiStep, iwlMvmRxCsiChunk, hctl, dif_neg (Nat.not_le.2 hbound), if_pos]
  exact complete_csiDataEntries _ _

theorem parked_header {m : IwlMvm} (h : m.csiDataEntries = fun _ => none) (M : Measurement)
    (env : CsiEnv) : Parked M [] (csiStep m (.header M.hdr, env)) := by
  have hentry : ∀ i, (csiStep m (.header M.hdr, env)).csiDataEntries.entry i =
      if i = 0 then some M.hdr else none := by
    intro i
    have hfree : m.csiDataEntries.entry 0 = none := by rw [h, entry_none]
    have := steal_entry_of_free ⟨0, by decide⟩ M.hdr hfree i
    rwa [h, entry_none] at this
  refine ⟨by simp [hentry], fun k _ => by simp [hentry], fun i hi => ?_⟩
  rw [hentry, if_neg (by omega)]

/-- **One chunk of a delivery** that is not the last and was not there yet. -/
theorem parked_chunk {M : Measurement} {m : IwlMvm} {cs : List RxCmdBuffer}
    (hM : M.WellFormed m.csiNotif) (hlen : M.chunks.length ≤ iwlCsiMaxExpectedChunks)
    (hm : Parked M cs m) {c : RxCmdBuffer} (hc : c ∈ M.chunks.dropLast) (hnew : c ∉ cs)
    (env : CsiEnv) :
    Parked M (c :: cs) (csiStep m (.chunk c, env)) ∧
      (csiStep m (.chunk c, env)).csiEvents = m.csiEvents := by
  obtain ⟨j, hj, rfl⟩ := List.getElem_of_mem hc
  rw [List.length_dropLast] at hj
  rw [List.getElem_dropLast] at hnew ⊢
  have hctl := hM.ctl j (by omega)
  have hbound : j + 1 < csiDataEntriesSize - 1 := by
    simp only [csiDataEntriesSize]
    omega
  have hfree : m.csiDataEntries.entry (j + 1) = none := by
    rw [hm.2.1 j (by omega), if_neg hnew]
  have hentry := csiStep_park hctl hbound (by omega) hfree env
  refine ⟨⟨?_, fun k hk => ?_, fun i hi => ?_⟩, csiStep_csiEvents_of_ne hctl (by omega) env⟩
  · rw [hentry, if_neg (by omega), hm.1]
  · rw [hentry]
    by_cases hkj : k = j
    · subst hkj
      simp
    · have hdiff : M.chunks[k] ≠ M.chunks[j] := fun h => hkj (hM.getElem_inj h)
      rw [if_neg (by omega), hm.2.1 k hk]
      simp only [List.mem_cons, hdiff, false_or]
  · rw [hentry, if_neg (by omega), hm.2.2 i hi]

/-- **The chunks before the last**, in any order. -/
theorem parked_chunks {M : Measurement} (hlen : M.chunks.length ≤ iwlCsiMaxExpectedChunks)
    (bs : List RxCmdBuffer) (hbs : ∀ b ∈ bs, b ∈ M.chunks.dropLast) (as : List (CsiNotif × CsiEnv))
    (has : as.map Prod.fst = bs.map .chunk) {m : IwlMvm} {cs : List RxCmdBuffer}
    (hM : M.WellFormed m.csiNotif) (hm : Parked M cs m) (hnew : (bs ++ cs).Nodup) :
    Parked M (bs.reverse ++ cs) (as.foldl csiStep m) ∧
      (as.foldl csiStep m).csiEvents = m.csiEvents := by
  induction bs generalizing m cs as with
  | nil =>
    obtain rfl : as = [] := by simpa using has
    exact ⟨hm, rfl⟩
  | cons b bs ih =>
    rw [List.map_cons] at has
    obtain ⟨⟨n, env⟩, as, rfl, rfl, hrest⟩ := List.map_eq_cons_iff.1 has
    rw [List.cons_append, List.nodup_cons, List.mem_append, not_or] at hnew
    obtain ⟨hpark, hev⟩ := parked_chunk hM hlen hm (hbs b (by simp)) hnew.1.2 env
    have hmid : (bs ++ b :: cs).Nodup :=
      List.nodup_middle.2 (List.nodup_cons.2 ⟨by simpa using hnew.1, hnew.2⟩)
    obtain ⟨hpark', hev'⟩ := ih (fun b' hb' => hbs b' (by simp [hb'])) as hrest
      (by rwa [csiStep_csiNotif]) hpark hmid
    refine ⟨?_, hev'.trans hev⟩
    simpa using hpark'

/-- **A delivery up to its last chunk.** From empty slots, the header and then the chunks in any
order with the last one at the end: before the last arrives all the others are parked. -/
theorem delivery_before_last {M : Measurement} {m : IwlMvm} (hM : M.WellFormed m.csiNotif)
    (hlen : M.chunks.length ≤ iwlCsiMaxExpectedChunks) (hempty : m.csiDataEntries = fun _ => none)
    {order : List RxCmdBuffer} (hperm : order.Perm M.chunks)
    (hlast : order.getLast? = M.chunks.getLast?) {as : List (CsiNotif × CsiEnv)}
    (has : as.map Prod.fst = .header M.hdr :: order.map .chunk) :
    ∃ pre env last cs, as = pre ++ [(.chunk last, env)] ∧ M.chunks.getLast? = some last ∧
      (pre.foldl csiStep m).csiEvents = m.csiEvents ∧ Parked M cs (pre.foldl csiStep m) ∧
      ∀ c, c ∈ cs ↔ c ∈ M.chunks.dropLast := by
  have hsplit := List.dropLast_append_getLast hM.chunks_ne_nil
  set last := M.chunks.getLast hM.chunks_ne_nil with hlastdef
  have hlast' : M.chunks.getLast? = some last := List.getLast?_eq_some_getLast hM.chunks_ne_nil
  obtain ⟨init, rfl⟩ : ∃ init, order = init ++ [last] := by
    rw [hlast', List.getLast?_eq_some_iff] at hlast
    exact hlast
  have hinit : init.Perm M.chunks.dropLast := by
    rw [← hsplit] at hperm
    exact (List.perm_append_right_iff _).1 hperm
  rw [List.map_append, ← List.cons_append] at has
  obtain ⟨pre, final, rfl, hpre, hfinal⟩ := List.map_eq_append_iff.1 has
  obtain ⟨⟨n, env⟩, rfl, rfl⟩ := List.map_eq_singleton_iff.1 hfinal
  obtain ⟨⟨n, env₀⟩, as, rfl, rfl, hmid⟩ := List.map_eq_cons_iff.1 hpre
  have hnodup : init.Nodup :=
    hinit.nodup_iff.2 (hM.nodup.sublist (List.dropLast_sublist _))
  obtain ⟨hpark, hev⟩ := parked_chunks hlen init (fun b hb => hinit.mem_iff.1 hb) as hmid
    (by rwa [csiStep_csiNotif]) (parked_header hempty M env₀) (by simpa using hnodup)
  refine ⟨_, env, last, _, rfl, hlast', hev.trans (csiStep_header_csiEvents ..), hpark, ?_⟩
  intro c
  simpa using hinit.mem_iff

/-- The last chunk of a delivery hands the measurement over. -/
theorem handsOver_of_parked {M : Measurement} {m : IwlMvm} (hM : M.WellFormed m.csiNotif)
    (hlen : M.chunks.length < iwlCsiMaxExpectedChunks) (hfits : ∀ c ∈ M.chunks, c.pkt.ChunkFits)
    {cs : List RxCmdBuffer} (hm : Parked M cs m) (hcs : ∀ c, c ∈ cs ↔ c ∈ M.chunks.dropLast)
    {last : RxCmdBuffer} (hlast : M.chunks.getLast? = some last) :
    HandsOver m last M.hdr M.chunks M.chunks.length := by
  obtain ⟨hlt, rfl⟩ := getLast?_eq_getElem hlast
  have hpos : 0 < M.chunks.length := List.length_pos_of_ne_nil hM.chunks_ne_nil
  have hparked : ∀ k (hk : k < M.chunks.length), M.chunks[k] ∈ cs ↔ k + 1 < M.chunks.length := by
    intro k hk
    rw [hcs, List.mem_iff_getElem]
    constructor
    · rintro ⟨j, hj, hjk⟩
      rw [List.length_dropLast] at hj
      rw [List.getElem_dropLast] at hjk
      have := hM.getElem_inj hjk
      omega
    · intro hk'
      exact ⟨k, by rw [List.length_dropLast]; omega, by rw [List.getElem_dropLast]⟩
  refine ⟨?_, ?_, ?_, hm.1, ⟨fun k hk => ?_, ?_⟩, hM.chunks_ne_nil, hfits⟩
  · rw [hM.ctl _ hlt, Nat.sub_add_cancel hpos]
  · simpa only [csiDataEntriesSize, Nat.add_sub_cancel] using hlen
  · have := hm.2.1 _ hlt
    rwa [if_neg (by rw [hparked]; omega), Nat.sub_add_cancel hpos] at this
  · by_cases hk' : k + 1 = M.chunks.length
    · obtain rfl : k = M.chunks.length - 1 := by omega
      simp only [if_pos hk']
    · simp only [if_neg hk']
      rw [hm.2.1 k hk, if_pos ((hparked k hk).2 (by omega))]
  · simp only [if_neg (Nat.succ_ne_self M.chunks.length)]
    exact hm.2.2 _ (by omega)

/-- **A delivery of at most fifteen chunks** hands over one event and leaves the slots empty. -/
theorem delivery {M : Measurement} {m : IwlMvm} (hM : M.WellFormed m.csiNotif)
    (hlen : M.chunks.length < iwlCsiMaxExpectedChunks) (hfits : ∀ c ∈ M.chunks, c.pkt.ChunkFits)
    (hempty : m.csiDataEntries = fun _ => none) {order : List RxCmdBuffer}
    (hperm : order.Perm M.chunks) (hlast : order.getLast? = M.chunks.getLast?)
    {as : List (CsiNotif × CsiEnv)}
    (has : as.map Prod.fst = .header M.hdr :: order.map .chunk) :
    (∃ env, (as.foldl csiStep m).csiEvents =
        m.csiEvents ++ [csiEvent env M.hdr (M.chunks.map chunkSlice)]) ∧
      (as.foldl csiStep m).csiDataEntries = fun _ => none := by
  obtain ⟨pre, env, last, cs, rfl, hl, hev, hpark, hcs⟩ :=
    delivery_before_last hM hlen.le hempty hperm hlast has
  have hover := handsOver_of_parked (by rwa [foldl_csiStep_csiNotif]) hlen hfits hpark hcs hl
  rw [List.foldl_append, List.foldl_cons, List.foldl_nil]
  exact ⟨⟨env, by rw [hover.csiEvents, hev]⟩,
    csiStep_last_csiDataEntries hover.last hover.bound env⟩

/-- **A delivery of sixteen chunks** hands nothing over: the bound ignores the last of them. -/
theorem delivery_max {M : Measurement} {m : IwlMvm} (hM : M.WellFormed m.csiNotif)
    (hlen : M.chunks.length = iwlCsiMaxExpectedChunks) (hempty : m.csiDataEntries = fun _ => none)
    {order : List RxCmdBuffer} (hperm : order.Perm M.chunks)
    (hlast : order.getLast? = M.chunks.getLast?) {as : List (CsiNotif × CsiEnv)}
    (has : as.map Prod.fst = .header M.hdr :: order.map .chunk) :
    (as.foldl csiStep m).csiEvents = m.csiEvents := by
  obtain ⟨pre, env, last, cs, rfl, hl, hev, -, -⟩ :=
    delivery_before_last hM hlen.le hempty hperm hlast has
  obtain ⟨hlt, rfl⟩ := getLast?_eq_getElem hl
  have hctl := hM.ctl _ hlt
  rw [← foldl_csiStep_csiNotif m pre] at hctl
  rw [List.foldl_append, List.foldl_cons, List.foldl_nil, csiStep_of_bound hctl, hev]
  simp only [csiDataEntriesSize]
  omega

/-! ## Which measurements are delivered -/

/-- **Sizes that are delivered.** Of the measurements of up to `IWL_CSI_MAX_EXPECTED_CHUNKS` chunks
that the slots were dimensioned for, delivered from empty slots with the last chunk last, exactly
those with fewer chunks than that and no empty chunk before a non-empty one arrive. -/
theorem csi_delivery_iff (M : Measurement) (m : IwlMvm) (hM : M.WellFormed 2)
    (hlen : M.chunks.length ≤ iwlCsiMaxExpectedChunks) (hfits : ∀ c ∈ M.chunks, c.pkt.ChunkFits)
    (hnotif : m.csiNotif = 2) (hempty : m.csiDataEntries = fun _ => none)
    (order : List RxCmdBuffer) (hperm : order.Perm M.chunks)
    (hlast : order.getLast? = M.chunks.getLast?) (as : List (CsiNotif × CsiEnv))
    (has : as.map Prod.fst = .header M.hdr :: order.map .chunk) :
    Delivered M m (as.foldl csiStep m) ↔
      M.chunks.length < iwlCsiMaxExpectedChunks ∧ NoGap M.chunks := by
  rw [← hnotif] at hM
  rcases Nat.lt_or_eq_of_le hlen with hlt | hmax
  · obtain ⟨⟨env, hev⟩, hfree⟩ := delivery hM hlt hfits hempty hperm hlast has
    constructor
    · rintro ⟨⟨e, he, hof⟩, -⟩
      rw [hev, List.append_cancel_left_eq, List.singleton_inj] at he
      subst he
      exact ⟨hlt, (sendData_eq_iff ..).1 hof.data⟩
    · rintro ⟨-, hgap⟩
      exact ⟨⟨_, hev, isOf_csiEvent hgap env⟩, hfree⟩
  · have hev := delivery_max hM hmax hempty hperm hlast has
    constructor
    · rintro ⟨⟨e, he, -⟩, -⟩
      simp [hev] at he
    · rintro ⟨hlt, -⟩
      omega

theorem csi_delivery_two :
    Delivered (.produce 0 [7] [[1], [2]]) (IwlMvm.init 2)
      ((Measurement.produce 0 [7] [[1], [2]]).notifs.map (·, default) |>.foldl csiStep
        (IwlMvm.init 2)) :=
  (csi_delivery_iff (.produce 0 [7] [[1], [2]]) (IwlMvm.init 2)
    (produce_wellFormed (by simp) (by simp) (by simp) (by simp)) (by decide) (by decide +kernel)
    rfl rfl _ (.refl _) rfl _ rfl).2 ⟨by decide, by decide +kernel⟩

/-- A measurement of sixteen chunks of one byte each is lost. -/
theorem csi_delivery_sixteen :
    (Measurement.produce 0 [7] (List.replicate 16 [1])).WellFormed 2 ∧
      (Measurement.produce 0 [7] (List.replicate 16 [1])).chunks.length = iwlCsiMaxExpectedChunks ∧
      (∀ c ∈ (Measurement.produce 0 [7] (List.replicate 16 [1])).chunks, c.pkt.ChunkFits) ∧
      ¬ Delivered (.produce 0 [7] (List.replicate 16 [1])) (IwlMvm.init 2)
        ((Measurement.produce 0 [7] (List.replicate 16 [1])).notifs.map (·, default) |>.foldl
          csiStep (IwlMvm.init 2)) := by
  have hM : (Measurement.produce 0 [7] (List.replicate 16 [1])).WellFormed 2 :=
    produce_wellFormed (by simp) (by simp) (by simp) (by simp)
  refine ⟨hM, rfl, by decide +kernel, ?_⟩
  rintro ⟨⟨e, he, -⟩, -⟩
  rw [delivery_max (m := IwlMvm.init 2) hM rfl rfl (.refl _) rfl rfl] at he
  cases he

/-! ## Resynchronisation -/

theorem noGap_of_pos {chunks : List RxCmdBuffer} (h : ∀ c ∈ chunks, 0 < c.pkt.chunk.size) :
    NoGap chunks := by
  have hall : chunks.dropWhile (fun c => c.pkt.chunk.size ≠ 0) = [] := by
    rw [List.dropWhile_eq_nil_iff]
    intro c hc
    simpa using Nat.ne_of_gt (h c hc)
  rw [NoGap, hall]
  simp

/-- **Resynchronisation.** Whatever the slots hold, after a whole measurement `B` of at most
fifteen chunks they are empty, and the next one, `C`, is handed over as it is. -/
theorem csi_resync (m : IwlMvm) (B C : Measurement) (hB : B.WellFormed m.csiNotif)
    (hC : C.WellFormed m.csiNotif) (hlenB : B.chunks.length ≤ 15) (hlenC : C.chunks.length ≤ 15)
    (hsize : ∀ c ∈ C.chunks, c.pkt.ChunkFits ∧ 0 < c.pkt.chunk.size)
    (bs cs : List (CsiNotif × CsiEnv)) (hbs : bs.map Prod.fst = B.notifs)
    (hcs : cs.map Prod.fst = C.notifs) :
    (bs.foldl csiStep m).csiDataEntries = (fun _ => none) ∧
      Delivered C (bs.foldl csiStep m) (cs.foldl csiStep (bs.foldl csiStep m)) := by
  have hempty : (bs.foldl csiStep m).csiDataEntries = fun _ => none := by
    -- only the last chunk matters
    have hsplit := List.dropLast_append_getLast hB.chunks_ne_nil
    rw [Measurement.notifs, ← hsplit, List.map_append, ← List.cons_append] at hbs
    obtain ⟨pre, final, rfl, -, hfinal⟩ := List.map_eq_append_iff.1 hbs
    obtain ⟨⟨n, env⟩, rfl, rfl⟩ := List.map_eq_singleton_iff.1 hfinal
    rw [List.foldl_append, List.foldl_cons, List.foldl_nil]
    have hpos : 0 < B.chunks.length := List.length_pos_of_ne_nil hB.chunks_ne_nil
    have hctl := hB.ctl (B.chunks.length - 1) (by omega)
    rw [Nat.sub_add_cancel hpos, ← List.getLast_eq_getElem hB.chunks_ne_nil] at hctl
    have hbound : B.chunks.length < csiDataEntriesSize - 1 := by
      simp only [csiDataEntriesSize, iwlCsiMaxExpectedChunks]
      omega
    exact csiStep_last_csiDataEntries (by rw [foldl_csiStep_csiNotif]; exact hctl) hbound env
  refine ⟨hempty, ?_⟩
  have hgap := noGap_of_pos fun c hc => (hsize c hc).2
  obtain ⟨⟨env, hev⟩, hfree⟩ := delivery (by rwa [foldl_csiStep_csiNotif])
    (show C.chunks.length < 16 by omega) (fun c hc => (hsize c hc).1) hempty (.refl _) rfl hcs
  exact ⟨⟨_, hev, isOf_csiEvent hgap env⟩, hfree⟩

theorem csi_resync_stray :
    Delivered (.produce 2 [9] [[1], [2]])
      ((Measurement.produce 1 [8] [[3]]).notifs.map (·, default) |>.foldl csiStep
        (csiStep (IwlMvm.init 2) (.chunk (Measurement.produce 0 [7] [[4], [5]]).chunks[0],
          default)))
      ((Measurement.produce 2 [9] [[1], [2]]).notifs.map (·, default) |>.foldl csiStep
        ((Measurement.produce 1 [8] [[3]]).notifs.map (·, default) |>.foldl csiStep
          (csiStep (IwlMvm.init 2) (.chunk (Measurement.produce 0 [7] [[4], [5]]).chunks[0],
            default)))) := by
  have hnotif := csiStep_csiNotif (IwlMvm.init 2)
    (.chunk (Measurement.produce 0 [7] [[4], [5]]).chunks[0], default)
  refine (csi_resync _ (.produce 1 [8] [[3]]) (.produce 2 [9] [[1], [2]]) ?_ ?_ (by decide)
    (by decide) (by decide +kernel) _ _ rfl rfl).2 <;>
  · rw [hnotif]
    exact produce_wellFormed (by simp) (by simp) (by simp) (by simp)

end Iax.Mvm
