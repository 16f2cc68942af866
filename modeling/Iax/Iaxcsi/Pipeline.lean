import Iax.Iaxcsi.RoundTrip
import Iax.Mvm.CsiHeaderBytes
import Iax.Mvm.CsiPackets

/-!
# From the receive buffers to the structs

A measurement passes through the receive buffers of the driver, its list of notifications and its
slots, a message to the listener, the capture file and the reader.

* `csiHdr_flqExpandCsiHdr`: on the way the driver stores the time and a channel in the header, and
  changes nothing else of what is read there.
* `csi_pipeline`: whatever happens in between, when nothing is dropped the reader returns one struct
  for each measurement, in order, with the firmware's header fields and matrix.
-/

namespace Iax.Iaxcsi

open Bytes Mvm Pcie Matlab

/-! ## The expanded header -/

theorem wordAt_congr {hdr hdr' : Bytes} {off n : ℕ}
    (h : ∀ i, off ≤ i → i < off + n → hdr[i]? = hdr'[i]?) :
    wordAt hdr off n = wordAt hdr' off n := by
  have hslice : (hdr.drop off).take n = (hdr'.drop off).take n := by
    refine List.ext_getElem? fun i => ?_
    rw [List.getElem?_take, List.getElem?_take]
    split
    · rw [List.getElem?_drop, List.getElem?_drop]
      exact h _ (Nat.le_add_right _ _) (by omega)
    · rfl
  rw [wordAt, wordAt, hslice]

variable (env : CsiEnv) {hdr : Bytes}

@[simp] theorem length_flqExpandCsiHdr (hdr : Bytes) :
    (flqExpandCsiHdr env hdr).length = hdr.length := by
  rw [flqExpandCsiHdr, length_memcpyAt, length_memcpyAt]

/-- What is read of the expanded header: the firmware's fields, the driver's time and channel. -/
theorem csiHdr_flqExpandCsiHdr (hlen : hdr.length = 272) :
    csiHdr (flqExpandCsiHdr env hdr) = { csiHdr hdr with
      ts := env.unixTs.toNat
      channel := env.flqRes.desc3Channel.toNat } := by
  have hkeep : ∀ off n, off + n ≤ 208 →
      wordAt (flqExpandCsiHdr env hdr) off n = wordAt hdr off n := fun off n h =>
    wordAt_congr fun i _ hi => getElem?_flqExpandCsiHdr env hdr (.inl (by omega))
  have hmac : ((flqExpandCsiHdr env hdr).drop 68).take 6 = (hdr.drop 68).take 6 := by
    refine List.ext_getElem? fun i => ?_
    rw [List.getElem?_take, List.getElem?_take]
    split
    · rw [List.getElem?_drop, List.getElem?_drop,
        getElem?_flqExpandCsiHdr env hdr (.inl (by omega))]
    · rfl
  have hts : wordAt (flqExpandCsiHdr env hdr) 208 8 = env.unixTs.toNat := by
    have hslice : ((flqExpandCsiHdr env hdr).drop 208).take 8 = leBytes 8 env.unixTs.toNat := by
      refine List.ext_getElem? fun i => ?_
      rw [List.getElem?_take]
      split
      · rename_i hi
        have hbehind : ¬(208 + 8 ≤ 208 + i ∧ 208 + i < 208 + 8 + [env.flqRes.desc3Channel].length ∧
            208 + i < (memcpyAt hdr 208 (leBytes 8 env.unixTs.toNat)).length) := by
          omega
        have hthere : 208 ≤ 208 + i ∧ 208 + i < 208 + (leBytes 8 env.unixTs.toNat).length ∧
            208 + i < hdr.length := by
          rw [length_leBytes]
          omega
        rw [List.getElem?_drop, flqExpandCsiHdr, getElem?_memcpyAt, if_neg hbehind,
          getElem?_memcpyAt, if_pos hthere, Nat.add_sub_cancel_left]
      · rw [List.getElem?_eq_none]
        rw [length_leBytes]
        omega
    rw [wordAt, hslice, leNat_leBytes_of_lt (by simpa using env.unixTs.isLt)]
  have hchannel : wordAt (flqExpandCsiHdr env hdr) 216 1 = env.flqRes.desc3Channel.toNat := by
    have hlt : 216 < (flqExpandCsiHdr env hdr).length := by
      rw [length_flqExpandCsiHdr]
      omega
    have hbyte : (flqExpandCsiHdr env hdr)[216]? = some env.flqRes.desc3Channel := by
      rw [flqExpandCsiHdr, getElem?_memcpyAt, if_pos]
      · rfl
      · rw [length_memcpyAt, hlen]
        exact ⟨le_rfl, Nat.lt_succ_self 216, by omega⟩
    rw [wordAt_one hlt, Option.some.inj ((List.getElem?_eq_getElem hlt).symm.trans hbyte)]
  simp only [csiHdr, hkeep _ _ (show 0 + 4 ≤ 208 by decide), hkeep _ _ (show 8 + 4 ≤ 208 by decide),
    hkeep _ _ (show 46 + 1 ≤ 208 by decide), hkeep _ _ (show 47 + 1 ≤ 208 by decide),
    hkeep _ _ (show 52 + 4 ≤ 208 by decide), hkeep _ _ (show 60 + 1 ≤ 208 by decide),
    hkeep _ _ (show 64 + 1 ≤ 208 by decide), hkeep _ _ (show 76 + 1 ≤ 208 by decide),
    hkeep _ _ (show 88 + 4 ≤ 208 by decide), hkeep _ _ (show 92 + 4 ≤ 208 by decide), hmac, hts,
    hchannel]

/-- Behind the header, the packet may go on. -/
theorem take_flqExpandCsiHdr {rest : Bytes} (hlen : hdr.length = 272) :
    (flqExpandCsiHdr env (hdr ++ rest)).take hdr.length = flqExpandCsiHdr env hdr := by
  refine List.ext_getElem? fun i => ?_
  rw [List.getElem?_take]
  split
  · rename_i hi
    simp only [flqExpandCsiHdr, getElem?_memcpyAt, length_memcpyAt, List.length_append,
      List.getElem?_append_left hi]
    have hin : ∀ P : Prop, (P ∧ i < hdr.length + rest.length) ↔ (P ∧ i < hdr.length) := fun P =>
      and_congr_right fun _ => ⟨fun _ => hi, fun _ => by omega⟩
    simp only [← and_assoc, hin]
  · rw [List.getElem?_eq_none]
    rw [length_flqExpandCsiHdr]
    omega

/-- The driver's changes leave a record valid. -/
theorem ValidRecord.expand {data : Bytes} (h : ValidRecord hdr data) :
    ValidRecord (flqExpandCsiHdr env hdr) data := by
  have hfields := csiHdr_flqExpandCsiHdr env h.hdrLen
  have hrnf : hdrRnf (flqExpandCsiHdr env hdr) = hdrRnf hdr := by
    rw [hdrRnf, hfields, hdrRnf]
  refine ⟨?_, ?_, ?_, ?_, ?_, ?_⟩
  · rw [length_flqExpandCsiHdr, h.hdrLen]
  · rw [hfields]
    exact h.count
  · rw [hrnf]
    exact h.modType
  · rw [hrnf]
    exact h.width
  · rw [hrnf, hfields]
    exact h.plan
  · have hfit := h.fits
    rw [length_frame] at hfit ⊢
    rwa [length_flqExpandCsiHdr]

/-! ## From the slots to the listener -/

/-- `iwl_mvm_send_csi_event`: what it puts into the header and the data attribute, once a listener
has registered. -/
def iwlMvmSendCsiEvent (csiPortid : BitVec 32) (e : CsiEvent) : Option (Bytes × Bytes) :=
  if csiPortid = 0 then none else some (e.hdr, e.sendData)

/-- The message arrives with these attributes. -/
def VendorEvent.Carries (ev : VendorEvent) (r : Bytes × Bytes) : Prop :=
  ev.csiHdr.map Nlattr.payload = some r.1 ∧ ev.csiData.map Nlattr.payload = some r.2

theorem VendorEvent.Carries.accepted {ev : VendorEvent} {r : Bytes × Bytes} (h : ev.Carries r)
    (hlen : r.1.length = 272) : ev.accepted = some r := by
  obtain ⟨hdr, data⟩ := r
  obtain ⟨_ | csiHdr, _ | csiData⟩ := ev
  · cases h.1
  · cases h.1
  · cases h.2
  · obtain rfl : csiHdr.payload = hdr := Option.some.inj h.1
    obtain rfl : csiData.payload = data := Option.some.inj h.2
    exact if_pos hlen

theorem filterMap_accepted {evs : List VendorEvent} {records : List (Bytes × Bytes)}
    (h : List.Forall₂ VendorEvent.Carries evs records) (hlen : ∀ r ∈ records, r.1.length = 272) :
    evs.filterMap VendorEvent.accepted = records := by
  induction h with
  | nil => rfl
  | cons hev _ ih =>
    obtain ⟨hr, hrs⟩ := List.forall_mem_cons.1 hlen
    rw [List.filterMap_cons_some (hev.accepted hr), ih hrs]

/-- The record of a measurement, with its header expanded. -/
def IsRecordOf (F : FwMeasurement) (r : Bytes × Bytes) : Prop :=
  ∃ env, r = (flqExpandCsiHdr env F.hdr, F.pieces.flatten)

/-- The event of a measurement carries its record. -/
theorem isRecordOf_event {F : FwMeasurement} {M : Measurement} {e : CsiEvent}
    (hlen : F.hdr.length = 272) (hgap : NoGap M.chunks) (hdata : M.data = F.pieces.flatten)
    (hhdr : F.hdr <+: M.hdr.pkt.data) (hsize : iwlRxPacketPayloadLen M.hdr.pkt = F.hdr.length)
    (he : M.HandedOver e) : IsRecordOf F (e.hdr, e.sendData) := by
  obtain ⟨env, rfl⟩ := he
  obtain ⟨rest, hrest⟩ := hhdr
  have hsend : (csiEvent env M.hdr (M.chunks.map chunkSlice)).sendData = M.data :=
    (sendData_eq_iff env M.hdr M.chunks).2 hgap
  refine ⟨env, ?_⟩
  rw [hsend, hdata]
  simp only [csiEvent]
  rw [hsize, ← hrest, take_flqExpandCsiHdr env hlen]

/-! ## The whole way -/

variable {κ : Type} (itp : ComplexInterp κ) (debug : Bool)

theorem ReadsBack.forall₂ {h h' : FileHandler} {records : List (Bytes × Bytes)} {sts : List (St κ)}
    (hback : ReadsBack itp debug h records sts h') :
    List.Forall₂ (fun r st => Decodes itp debug r.1 r.2 st) records sts := by
  induction hback with
  | nil _ => exact .nil
  | cons _ _ hdecodes _ ih => exact .cons hdecodes ih

/-- The struct is the measurement's: decoded from its data and its header, in which the driver has
stored a time and a channel, and nothing else. -/
def DecodedFrom (F : FwMeasurement) (st : St κ) : Prop :=
  ∃ env : CsiEnv, Decodes itp debug (flqExpandCsiHdr env F.hdr) F.pieces.flatten st ∧
    csiHdr (flqExpandCsiHdr env F.hdr) = { csiHdr F.hdr with
      ts := env.unixTs.toNat
      channel := env.flqRes.desc3Channel.toNat }

/-- Nothing is dropped: there is memory for the entries, and the list is not purged. -/
def Undropped : AsyncAct → Prop
  | .rx _ alloc => alloc = true
  | .purge => False
  | _ => True

/-- A chunk of a measurement is long enough for its handler. -/
theorem kept_of_arrives {csiNotif : ℕ} {M : Measurement} {ns : List CsiNotif}
    (harrive : M.ArrivesAs ns) (hsound : M.Sound csiNotif) {n : CsiNotif} (hn : n ∈ ns) :
    n.minSize ≤ iwlRxPacketPayloadLen n.rxb.pkt := by
  obtain ⟨order, hperm, -, rfl⟩ := harrive
  rcases List.mem_cons.1 hn with rfl | hmem
  · exact Nat.zero_le _
  · obtain ⟨c, hc, rfl⟩ := List.mem_map.1 hmem
    exact (Nat.le_add_right _ _).trans (hsound.fits c (hperm.mem_iff.1 hc))

/-- What is known of a measurement and of what the driver has of it. -/
structure Tracked (csiNotif : ℕ) (F : FwMeasurement) (M : Measurement) : Prop where
  sound : M.Sound csiNotif
  gap : NoGap M.chunks
  data : M.data = F.pieces.flatten
  hdr : F.hdr <+: M.hdr.pkt.data
  size : iwlRxPacketPayloadLen M.hdr.pkt = F.hdr.length

/-- The measurements of a list of notifications. -/
theorem exists_measurements {csiNotif : ℕ} {Fs : List FwMeasurement} {nss : List (List CsiNotif)}
    (hFs : ∀ F ∈ Fs, F.Sendable)
    (h : List.Forall₂ (fun F ns => ∃ ps, F.SentAs csiNotif ps ∧ List.Forall₂ NotifIs ps ns)
      Fs nss) :
    ∃ Ms, List.Forall₂ Measurement.ArrivesAs Ms nss ∧ List.Forall₂ (Tracked csiNotif) Fs Ms := by
  induction h with
  | nil => exact ⟨[], .nil, .nil⟩
  | cons hF _ ih =>
    obtain ⟨hsend, hrest⟩ := List.forall_mem_cons.1 hFs
    obtain ⟨ps, hsent, hns⟩ := hF
    obtain ⟨M, harrive, hsound, hgap, hdata, hhdr, hsize⟩ := exists_measurement hsent hsend hns
    obtain ⟨Ms, harrives, htracked⟩ := ih hrest
    exact ⟨M :: Ms, .cons harrive harrives, .cons ⟨hsound, hgap, hdata, hhdr, hsize⟩ htracked⟩

theorem notifs_of_filled {cfg : RbConfig} {rbs : List ReceiveBuffer}
    {packetss : List (List FwPacket)}
    (h : List.Forall₂ (ReceiveBuffer.Filled cfg) rbs packetss) :
    List.Forall₂ NotifIs (packetss.flatten.filter isCsiPacket)
      (rbs.flatMap fun rb => rb.notifs cfg) := by
  rw [List.filter_flatten, List.flatMap_def]
  refine Related.flatten ?_
  induction h with
  | nil => exact .nil
  | cons hrb _ ih => exact .cons hrb.notifs ih

/-- The records that the driver sends to a registered listener. -/
theorem records_of_events {csiNotif : ℕ} {csiPortid : BitVec 32} (hport : csiPortid ≠ 0)
    {Fs : List FwMeasurement} {Ms : List Measurement} {es : List CsiEvent}
    (hlen : ∀ F ∈ Fs, F.hdr.length = 272) (htracked : List.Forall₂ (Tracked csiNotif) Fs Ms)
    (hover : List.Forall₂ Measurement.HandedOver Ms es) :
    List.Forall₂ IsRecordOf Fs (es.filterMap (iwlMvmSendCsiEvent csiPortid)) := by
  induction htracked generalizing es with
  | nil =>
    cases hover
    exact .nil
  | cons hM _ ih =>
    cases hover with
    | @cons _ e _ es he hrest =>
      obtain ⟨hF, hFs⟩ := List.forall_mem_cons.1 hlen
      have hsend : iwlMvmSendCsiEvent csiPortid e = some (e.hdr, e.sendData) := if_neg hport
      rw [List.filterMap_cons_some hsend]
      exact .cons (isRecordOf_event hF hM.gap hM.data hM.hdr hM.size he) (ih hFs hrest)

section Run

variable {csiNotif : ℕ} {cfg : RbConfig} {Fs : List FwMeasurement} {rbs : List ReceiveBuffer}
  {packetss pss : List (List FwPacket)} {acts : List AsyncAct} {s : AsyncRx} {csiPortid : BitVec 32}

/-- **The driver's part**: the records that it sends are those of the measurements. -/
theorem records_of_run (hsendable : ∀ F ∈ Fs, F.Sendable) (hlen : ∀ F ∈ Fs, F.hdr.length = 272)
    (hfilled : List.Forall₂ (ReceiveBuffer.Filled cfg) rbs packetss)
    (hsent : List.Forall₂ (FwMeasurement.SentAs csiNotif) Fs pss)
    (hcsi : packetss.flatten.filter isCsiPacket = pss.flatten)
    (hrun : Lts.exec asyncStep (.init csiNotif) acts = some s) (hacts : ∀ a ∈ acts, Undropped a)
    (harrived : acts.filterMap AsyncAct.arrival = rbs.flatMap fun rb => rb.notifs cfg)
    (hlocal : s.localList = []) (hlist : s.asyncHandlersList = []) (hport : csiPortid ≠ 0) :
    List.Forall₂ IsRecordOf Fs (s.mvm.csiEvents.filterMap (iwlMvmSendCsiEvent csiPortid)) := by
  -- the notifications are those of the measurements
  have hnotifs := notifs_of_filled hfilled
  rw [hcsi] at hnotifs
  obtain ⟨nss, hnss, hFn⟩ := Related.exists_flatten hsent hnotifs
  obtain ⟨Ms, harrive, htracked⟩ := exists_measurements hsendable hFn
  have hsound : ∀ M ∈ Ms, M.Sound csiNotif :=
    Related.forall_mem_right htracked fun _ _ _ hM => hM.sound
  rw [hnss] at harrived
  have hsize : ∀ ns ∈ nss, ∀ n ∈ ns, n.minSize ≤ iwlRxPacketPayloadLen n.rxb.pkt :=
    Related.forall_mem_right harrive fun M hM ns harr n hn => kept_of_arrives harr (hsound M hM) hn
  have hkept : ∀ a ∈ acts, a.Kept := fun a ha => by
    have hundropped := hacts a ha
    cases a with
    | rx n alloc =>
      have hn : n ∈ nss.flatten := by
        rw [← harrived]
        exact List.mem_filterMap.2 ⟨_, ha, rfl⟩
      obtain ⟨ns, hns, hn'⟩ := List.mem_flatten.1 hn
      exact ⟨hsize ns hns n hn', hundropped⟩
    | purge => exact hundropped
    | mpdu pkt => trivial
    | start => trivial
    | handle unixTs => trivial
    | free => trivial
    | finish => trivial
  -- so are the events, and what is sent of them
  exact records_of_events hport hlen htracked
    (events_of_run hrun hkept hlocal hlist harrive hsound harrived)

/-- **The listener's and the reader's part**: the records come back as structs. -/
theorem structs_of_records (hvalid : ∀ F ∈ Fs, ValidRecord F.hdr F.pieces.flatten)
    {records : List (Bytes × Bytes)} (hrecords : List.Forall₂ IsRecordOf Fs records)
    {evs : List VendorEvent} (hevs : List.Forall₂ VendorEvent.Carries evs records) (blockLen : ℕ)
    (hpos : 0 < blockLen) :
    ∃ l sts, runEvents .init evs = some l ∧
      read itp debug (FileHandler.ofFile blockLen hpos l.fpCsi) = .ok sts ∧
      List.Forall₂ (DecodedFrom itp debug) Fs sts := by
  have hrecord : ∀ r ∈ records, ValidRecord r.1 r.2 :=
    Related.forall_mem_right hrecords fun F hF r hr => by
      obtain ⟨env, rfl⟩ := hr
      exact (hvalid F hF).expand env
  obtain ⟨buf, hlisten⟩ := runListener_eq records .init List.length_replicate
    fun r hr => (hrecord r hr).fits
  have haccepted := filterMap_accepted hevs fun r hr => (hrecord r hr).hdrLen
  rw [← haccepted, ← runEvents_eq, haccepted] at hlisten
  obtain ⟨sts, h', hback, hs', hrest, hread⟩ := readsBack_frames itp debug records hrecord
    (FileHandler.ofFile_settled blockLen hpos (records.flatMap fun r => frame r.1 r.2))
    [] (by rw [FileHandler.ofFile_contents, List.append_nil])
  rw [read_of_isEnd itp debug hs' hrest, Except.map, List.append_nil] at hread
  refine ⟨_, sts, hlisten, hread, Related.comp hrecords hback.forall₂ fun F hF r st hr hst => ?_⟩
  obtain ⟨env, rfl⟩ := hr
  exact ⟨env, hst, csiHdr_flqExpandCsiHdr env (hvalid F hF).hdrLen⟩

end Run

/-! ### A measurement of one piece -/

/-- Nothing waits and the worker is not running. -/
structure Idle (s : AsyncRx) : Prop where
  localList : s.localList = []
  list : s.asyncHandlersList = []
  running : s.running = false
  handled : s.handled = false

/-- One notification is handled before the next arrives. -/
theorem Idle.handle {s : AsyncRx} (h : Idle s) (n : CsiNotif) :
    ∃ acts s', Lts.exec asyncStep s acts = some s' ∧ (∀ a ∈ acts, Undropped a) ∧
      acts.filterMap AsyncAct.arrival = [n] ∧ Idle s' := by
  by_cases hsize : iwlRxPacketPayloadLen n.rxb.pkt < n.minSize
  · refine ⟨[.rx n true], s, ?_, by simp [Undropped], rfl, h⟩
    simp [asyncStep, iwlMvmRxCommon, hsize]
  · obtain ⟨hlocal, hlist, hrunning, hhandled⟩ := h
    set e : AsyncEntry := ⟨s.queuedLog.length, n, s.lastMpdu⟩
    set s₁ : AsyncRx := { queueEntry s n with
      workPending := false
      running := true
      localList := [e]
      asyncHandlersList := [] } with hs₁
    set s₂ := callHandler s₁ e 0 with hs₂
    have hrx : asyncStep s (.rx n true) = some (queueEntry s n) := by
      simp [asyncStep, iwlMvmRxCommon, hsize]
    have hstart : asyncStep (queueEntry s n) .start = some s₁ := by
      simp [asyncStep, queueEntry, hlist, hrunning, hs₁, e]
    have hhandle : asyncStep s₁ (.handle 0) = some s₂ := by
      simp [asyncStep, queueEntry, hhandled, hs₁, hs₂]
    refine ⟨[.rx n true, .start, .handle 0, .free, .finish],
      { s₂ with
        localList := [], handled := false, pageOps := s₂.pageOps ++ [e.freeOp], running := false },
      ?_, by simp [Undropped], rfl, rfl, rfl, rfl, rfl⟩
    simp only [Lts.exec_cons, hrx, hstart, hhandle, Option.bind_some]
    rfl

/-- The notifications can be handled one at a time. -/
theorem exists_handled (csiNotif : ℕ) (ns : List CsiNotif) :
    ∃ acts s, Lts.exec asyncStep (.init csiNotif) acts = some s ∧ (∀ a ∈ acts, Undropped a) ∧
      acts.filterMap AsyncAct.arrival = ns ∧ Idle s := by
  induction ns using List.reverseRecOn with
  | nil => exact ⟨[], _, rfl, by simp, rfl, rfl, rfl, rfl, rfl⟩
  | append_singleton ns n ih =>
    obtain ⟨acts, s, hrun, hacts, harr, hidle⟩ := ih
    obtain ⟨acts', s', hrun', hacts', harr', hidle'⟩ := hidle.handle n
    refine ⟨acts ++ acts', s', ?_, ?_, ?_, hidle'⟩
    · rw [Lts.exec_append, hrun]
      exact hrun'
    · exact List.forall_mem_append.2 ⟨hacts, hacts'⟩
    · rw [List.filterMap_append, harr, harr']

/-- A message for each record that fits its attributes. -/
theorem exists_carries {records : List (Bytes × Bytes)}
    (h : ∀ r ∈ records, r.1.length + 4 < 2 ^ 16 ∧ r.2.length + 4 < 2 ^ 16) :
    ∃ evs, List.Forall₂ VendorEvent.Carries evs records := by
  induction records with
  | nil => exact ⟨[], .nil⟩
  | cons r records ih =>
    obtain ⟨hr, hrs⟩ := List.forall_mem_cons.1 h
    obtain ⟨evs, hevs⟩ := ih hrs
    exact ⟨⟨some ⟨r.1, hr.1⟩, some ⟨r.2, hr.2⟩⟩ :: evs, .cons ⟨rfl, rfl⟩ hevs⟩

/-- A measurement of one antenna on each side, in three pieces. -/
def nohtMeasurement : FwMeasurement :=
  ⟨nohtHdr, [List.replicate 104 1, List.replicate 52 2, List.replicate 52 3]⟩

/-- The packet of its header. -/
def nohtHdrPacket : FwPacket := ⟨0, 0xfa, 8, 0x8000, nohtHdr⟩

/-- The packet of piece `k`. -/
def nohtChunk (k : ℕ) : FwPacket :=
  let piece := nohtMeasurement.pieces.getD k []
  ⟨0, 0xfb, 8, 0x8000, leBytes 4 7 ++ (leBytes 2 0 ++ (leBytes 2 (k * 2 ^ 8 + 3) ++
    (leBytes 4 piece.length ++ piece)))⟩

/-- Three buffers with two measurements and the packet of a frame among them. The pieces of the
second measurement come in another order. -/
def nohtBuffers : List (List FwPacket) :=
  [[nohtHdrPacket, nohtChunk 0, ⟨0, 0xc1, 0, 0x8000, [1, 2, 3, 4]⟩], [nohtChunk 1],
    [nohtChunk 2, nohtHdrPacket, nohtChunk 1, nohtChunk 0, nohtChunk 2]]

/-- A buffer with these packets and the end marker. -/
def bufferOf (packets : List FwPacket) : ReceiveBuffer where
  page := 0
  rxPageOrder := 0
  offset := 0
  mem := (packets.map FwPacket.bytes).flatMap (pad fhRscsrFrameAlign 0) ++
    (leBytes 4 0x55550000 ++ List.replicate 60 0)

theorem bufferOf_filled {packets : List FwPacket} (hfits : ∀ p ∈ packets, p.Fits)
    (hlen : ((packets.map FwPacket.bytes).flatMap (pad fhRscsrFrameAlign 0)).length ≤ 4096) :
    (bufferOf packets).Filled ⟨4096, [], false⟩ packets := by
  refine ⟨hfits, ⟨_, laid_pad (by decide) 0 _ _, hlen, .inr ?_⟩, by simp⟩
  rw [rxbAddr]
  dsimp only
  rw [bufferOf]
  dsimp only
  rw [List.drop_left]
  decide +kernel

theorem nohtBuffers_filled :
    List.Forall₂ (ReceiveBuffer.Filled ⟨4096, [], false⟩) (nohtBuffers.map bufferOf)
      nohtBuffers := by
  have hfits : ∀ packets ∈ nohtBuffers, (∀ p ∈ packets, p.Fits) ∧
      ((packets.map FwPacket.bytes).flatMap (pad fhRscsrFrameAlign 0)).length ≤ 4096 := by
    decide +kernel
  rw [List.forall₂_map_left_iff, List.forall₂_same]
  exact fun packets hmem => bufferOf_filled (hfits packets hmem).1 (hfits packets hmem).2

theorem nohtChunk_packet {k : ℕ} (hk : k < 3) :
    FwMeasurement.ChunkPacket 2 nohtMeasurement k (nohtChunk k) := by
  refine ⟨rfl, rfl, 7, 0, k * 2 ^ 8 + 3, nohtMeasurement.pieces.getD k [], by omega, ?_, ?_, rfl⟩
  · interval_cases k <;> rfl
  · interval_cases k <;> rfl

/-- The packets of the measurement, with the first two pieces in any order. -/
theorem nohtMeasurement_sentAs {order : List FwPacket}
    (h : order.Perm [nohtChunk 0, nohtChunk 1]) :
    nohtMeasurement.SentAs 2 (nohtHdrPacket :: (order ++ [nohtChunk 2])) := by
  refine ⟨_, [nohtChunk 0, nohtChunk 1], nohtChunk 2, order, ⟨rfl, rfl, rfl⟩, rfl, fun k hk => ?_,
    h, rfl⟩
  change k < 3 at hk
  have hchunk := nohtChunk_packet hk
  interval_cases k <;> exact hchunk

end Iax.Iaxcsi
