import Iax.Dvm.ConnectorOrder
import Iax.Incsi.BfeeStamp
import Iax.Incsi.LogFormat
import Mathlib.Data.List.NodupEquivFin

/-!
# From the reports of the 5300 to the structs of MATLAB

The handlers of the driver make messages, one after the other, of what comes from the firmware. The
connector hands them to `incsi`, which writes a log, and `read_bf_file` reads the log.

* `Arrival` is what comes from the firmware, `messages` are the messages that are made of it, and
  `reports` the stamped beamforming reports.
* `message_spec`: what the file reader makes of one message.
* `structs_of_delivered`: what it makes of those that the connector has delivered.
* `bfee_pipeline` and `bfee_count_gaps` are about the chain as a whole, for every interleaving of
  the handlers with the work item of the connector.
-/

namespace Iax.Incsi

open Bytes Dvm

/-! ## The handlers -/

/-- The three words of `struct statistics_rx_non_phy` that `iwlagn_rx_calc_noise` reads. -/
structure BeaconSilence where
  rssiA : ℕ
  rssiB : ℕ
  rssiC : ℕ

/-- `IWL_CONN_NOISE`. -/
def iwlConnNoise : UInt8 := 0xd0

/-- `last_rx_noise` of `iwlagn_rx_calc_noise`, when an antenna is active. -/
def lastRxNoise (silence : BeaconSilence) : Option ℤ :=
  let active := [silence.rssiA &&& 0xff, silence.rssiB &&& 0xff, silence.rssiC &&& 0xff].filter
    fun bcnSilence => bcnSilence ≠ 0
  if active.length ≠ 0 then some (((active.sum / active.length : ℕ) : ℤ) - 107) else none

/-- `iwlagn_rx_calc_noise` as far as its message. -/
def iwlagnRxCalcNoise (priv : DvmPriv) (alloc : Bool) (silence : BeaconSilence) :
    Option CnMessage :=
  match lastRxNoise silence with
  | some noise =>
    if priv.connectorLog &&& 16 ≠ 0 then
      connectorSendMsg alloc
        (Memory.write (fun _ => 0) 0 (leBytes 4 (BitVec.ofInt 32 noise).toNat)) 0 4 iwlConnNoise
    else none
  | none => none

/-- What comes from the firmware. `priv` is how the other handlers have left the driver, up to the
counter of the reports, and `alloc` is whether `kmalloc` finds memory. -/
inductive Arrival
  | notif (priv : DvmPriv) (alloc : Bool) (n : Notification)
  | statistics (priv : DvmPriv) (alloc : Bool) (silence : BeaconSilence)

/-- The handler: the counter after it, and the message. -/
def Arrival.handle (bfeeCount : ℕ) : Arrival → ℕ × Option CnMessage
  | .notif priv alloc n =>
    let (priv, _, msg) := n.handle { priv with bfeeCount := bfeeCount } alloc
    (priv.bfeeCount, msg)
  | .statistics priv alloc silence => (bfeeCount, iwlagnRxCalcNoise priv alloc silence)

/-- The messages, in the order in which they are enqueued. -/
def messages : ℕ → List Arrival → List CnMessage
  | _, [] => []
  | bfeeCount, a :: as => (a.handle bfeeCount).2.toList ++ messages (a.handle bfeeCount).1 as

/-! ## The reports -/

/-- The report of an arrival, with the stamps. -/
def Arrival.report (bfeeCount : ℕ) : Arrival → Option Bfee
  | .notif priv _ (.bfee pkt) => some (stamped { priv with bfeeCount := bfeeCount } (bfeeIn pkt))
  | _ => none

/-- The reports of the firmware. -/
def reports : ℕ → List Arrival → List Bfee
  | _, [] => []
  | bfeeCount, a :: as => (a.report bfeeCount).toList ++ reports (a.handle bfeeCount).1 as

/-- What is asked of the firmware: the message fits the buffer of `incsi`, and a report has up to
three antennas and the length that they need. -/
def Arrival.WellFormed : Arrival → Prop
  | .notif _ _ (.bfee pkt) => HasCalcLen pkt ∧ 1 ≤ (bfeeIn pkt).nrx ∧ (bfeeIn pkt).nrx ≤ 3 ∧
    (bfeeIn pkt).ntx ≤ 3
  | .notif _ _ (.mpdu pkt) => dataOffset + (pkt.byteCount + 1) ≤ bufSize
  | .statistics _ _ _ => True

/-- A report that is logged. -/
def Arrival.IsLogged : Arrival → Prop
  | .notif priv alloc (.bfee _) => priv.connectorLog &&& 1 ≠ 0 ∧ alloc = true
  | _ => True

/-- A report that comes behind the PHY data of its frame. -/
def Arrival.HasPhy : Arrival → Prop
  | .notif priv _ (.bfee _) => priv.lastPhyResValid = true
  | _ => True

/-! ## One message -/

/-- What the file reader makes of the data of a message. -/
structure Becomes (msg : CnMessage) (bfs : List Bf) : Prop where
  len : msg.len.toNat = msg.data.length
  fits : dataOffset + msg.data.length ≤ bufSize
  isRecord : IsRecord msg.data
  acceptable : Acceptable msg.data
  structs : structsOf msg.data = bfs

section Sent

variable {msg : CnMessage} {mem : Memory} {pos size : ℕ} {code : UInt8}

/-- A message of a code and bytes that fits the buffer is a record. -/
theorem becomes_of_sent {bfs : List Bf}
    (hmsg : msg = { len := BitVec.ofNat 16 (size + 1), data := code :: mem.read pos size })
    (hfits : dataOffset + (size + 1) ≤ bufSize) (hacc : Acceptable (code :: mem.read pos size))
    (hstructs : structsOf (code :: mem.read pos size) = bfs) : Becomes msg bfs := by
  have hlt : size + 1 < 2 ^ 16 := by
    simp only [dataOffset, bufSize] at hfits
    omega
  have hlength : msg.data.length = size + 1 := by
    rw [hmsg, List.length_cons, Memory.length_read]
  refine ⟨?_, hlength.symm ▸ hfits, ⟨?_, hlength.symm ▸ hlt⟩, hmsg ▸ hacc, hmsg ▸ hstructs⟩
  · rw [hlength, hmsg, BitVec.toNat_ofNat, Nat.mod_eq_of_lt hlt]
  · exact hlength.symm ▸ Nat.succ_pos size

/-- A message of another code has no struct. -/
theorem becomes_of_code_ne
    (hmsg : msg = { len := BitVec.ofNat 16 (size + 1), data := code :: mem.read pos size })
    (hfits : dataOffset + (size + 1) ≤ bufSize) (hcode : code ≠ bfeeCode) : Becomes msg [] := by
  have hhead : (code :: mem.read pos size).head? ≠ some bfeeCode :=
    fun h => hcode (Option.some.inj h)
  exact becomes_of_sent hmsg hfits (fun h => absurd h hhead) (if_neg hhead)

end Sent

/-- With up to three antennas a report fits the buffer. -/
theorem bfeeCalcLen_le {nrx ntx : ℕ} (hnrx : nrx ≤ 3) (hntx : ntx ≤ 3) :
    bfeeCalcLen nrx ntx ≤ 552 := by
  have hmul : nrx * ntx ≤ 3 * 3 := Nat.mul_le_mul hnrx hntx
  simp only [bfeeCalcLen]
  omega

/-- The message of a report becomes the struct with the stamps. -/
theorem becomes_bfee {priv priv' : DvmPriv} {alloc : Bool} {pkt pkt' : DvmPacket} {msg : CnMessage}
    (h : Notification.handle (.bfee pkt) priv alloc = (priv', pkt', some msg))
    (hcalc : HasCalcLen pkt) (hnrx : 1 ≤ (bfeeIn pkt).nrx) (hnrx' : (bfeeIn pkt).nrx ≤ 3)
    (hntx : (bfeeIn pkt).ntx ≤ 3) : Becomes msg [bfOf (stamped priv (bfeeIn pkt))] := by
  have hmsg := Notification.handle_msg h
  obtain rfl : (stampIfValid priv pkt).2 = pkt' := by
    simp only [Notification.handle, iwlagnBfeeNotif, Prod.mk.injEq] at h
    exact h.2.1
  obtain ⟨hlen, hcalc'⟩ := hasCalcLen_stampIfValid priv hcalc
  have hread := readBfee_read hcalc'
  rw [hlen, bfeeIn_stampIfValid] at hread
  have hsame : (stamped priv (bfeeIn pkt)).nrx = (bfeeIn pkt).nrx := by
    rw [stamped]
    split <;> rfl
  have hle := bfeeCalcLen_le hnrx' hntx
  rw [← hcalc] at hle
  refine becomes_of_sent hmsg ?_ (fun _ => ⟨_, hread, hsame.symm ▸ hnrx, hsame.symm ▸ hnrx'⟩) ?_
  · simp only [Notification.size, dataOffset, sizeofBfeeNotif, bufSize]
    omega
  · refine (if_pos rfl).trans ?_
    rw [List.tail_cons, Notification.size, Notification.start, hread]

/-- **One message**: that of a report becomes the report's struct, any other one is passed over. -/
theorem message_spec {bfeeCount : ℕ} {a : Arrival} {msg : CnMessage} (hwf : a.WellFormed)
    (h : (a.handle bfeeCount).2 = some msg) :
    Becomes msg ((a.report bfeeCount).toList.map bfOf) := by
  cases a with
  | notif priv alloc n =>
    cases n with
    | bfee pkt =>
      obtain ⟨hcalc, hnrx, hnrx', hntx⟩ := hwf
      exact becomes_bfee (Prod.ext rfl (Prod.ext rfl h)) hcalc hnrx hnrx' hntx
    | mpdu pkt =>
      have hhandle : Notification.handle (.mpdu pkt) { priv with bfeeCount := bfeeCount } alloc =
          ({ priv with bfeeCount := bfeeCount }, pkt, some msg) :=
        Prod.ext rfl (Prod.ext rfl h)
      exact becomes_of_code_ne (Notification.handle_msg hhandle) hwf
        (show iwlConnRxMpdu ≠ bfeeCode by decide)
  | statistics priv alloc silence =>
    simp only [Arrival.handle, iwlagnRxCalcNoise] at h
    split at h
    case h_1 noise hnoise =>
      split at h
      · exact becomes_of_code_ne (Notification.connectorSendMsg_eq_some h) (by decide) (by decide)
      · cases h
    case h_2 => cases h

/-! ## The messages of a run -/

/-- The structs that the file reader makes of messages. -/
def structsOfMessages (msgs : List CnMessage) : List Bf :=
  msgs.flatMap fun msg => structsOf msg.data

variable {bfeeCount : ℕ} {arrivals : List Arrival}

theorem becomes_of_mem (hwf : ∀ a ∈ arrivals, a.WellFormed) :
    ∀ msg ∈ messages bfeeCount arrivals, ∃ bfs, Becomes msg bfs := by
  induction arrivals generalizing bfeeCount with
  | nil => exact fun msg hmsg => absurd hmsg List.not_mem_nil
  | cons a as ih =>
    obtain ⟨ha, has⟩ := List.forall_mem_cons.1 hwf
    intro msg hmsg
    rcases List.mem_append.1 hmsg with hmsg | hmsg
    · exact ⟨_, message_spec ha (Option.mem_toList.1 hmsg)⟩
    · exact ih has msg hmsg

/-- The messages of one arrival become its report, or nothing. -/
theorem structs_handle {a : Arrival} (hwf : a.WellFormed) :
    (structsOfMessages (a.handle bfeeCount).2.toList).Sublist
      ((a.report bfeeCount).toList.map bfOf) := by
  cases hmsg : (a.handle bfeeCount).2 with
  | none => exact List.nil_sublist _
  | some msg =>
    have hstructs := (message_spec hwf hmsg).structs
    simp only [structsOfMessages, Option.toList_some, List.flatMap_singleton, hstructs]
    exact List.Sublist.refl _

/-- And its report, when it is logged. -/
theorem structs_handle_logged {a : Arrival} (hwf : a.WellFormed) (hlogged : a.IsLogged) :
    structsOfMessages (a.handle bfeeCount).2.toList = (a.report bfeeCount).toList.map bfOf := by
  cases hmsg : (a.handle bfeeCount).2 with
  | some msg =>
    have hstructs := (message_spec hwf hmsg).structs
    simp only [structsOfMessages, Option.toList_some, List.flatMap_singleton, hstructs]
  | none =>
    cases a with
    | notif priv alloc n =>
      cases n with
      | bfee pkt =>
        obtain ⟨hlog, rfl⟩ := hlogged
        have hkeeps (priv : DvmPriv) :
            (stampIfValid priv pkt).1.connectorLog = priv.connectorLog := by
          unfold stampIfValid
          split <;> rfl
        simp only [Arrival.handle, Notification.handle, iwlagnBfeeNotif, hkeeps] at hmsg
        rw [if_pos hlog] at hmsg
        cases hmsg
      | mpdu pkt => rfl
    | statistics priv alloc silence => rfl

/-- The structs of all messages are some of the reports. -/
theorem structs_sublist (hwf : ∀ a ∈ arrivals, a.WellFormed) :
    (structsOfMessages (messages bfeeCount arrivals)).Sublist
      ((reports bfeeCount arrivals).map bfOf) := by
  induction arrivals generalizing bfeeCount with
  | nil => exact List.Sublist.refl _
  | cons a as ih =>
    obtain ⟨ha, has⟩ := List.forall_mem_cons.1 hwf
    rw [messages, reports, structsOfMessages, List.flatMap_append, List.map_append]
    exact (structs_handle ha).append (ih has)

/-- And all of them, when they are logged. -/
theorem structs_logged (hwf : ∀ a ∈ arrivals, a.WellFormed) (hlogged : ∀ a ∈ arrivals, a.IsLogged) :
    structsOfMessages (messages bfeeCount arrivals) = (reports bfeeCount arrivals).map bfOf := by
  induction arrivals generalizing bfeeCount with
  | nil => rfl
  | cons a as ih =>
    obtain ⟨ha, has⟩ := List.forall_mem_cons.1 hwf
    obtain ⟨hla, hlas⟩ := List.forall_mem_cons.1 hlogged
    rw [messages, reports, structsOfMessages, List.flatMap_append, List.map_append]
    exact congrArg₂ _ (structs_handle_logged ha hla) (ih has hlas)

/-- The counters of the reports: every report has the next one. -/
theorem bfeeCount_reports (hphy : ∀ a ∈ arrivals, a.HasPhy) {i : ℕ} {b : Bfee}
    (h : (reports bfeeCount arrivals)[i]? = some b) :
    b.bfeeCount = (bfeeCount + i + 1) % 2 ^ 16 := by
  induction arrivals generalizing bfeeCount i with
  | nil => cases h
  | cons a as ih =>
    obtain ⟨ha, has⟩ := List.forall_mem_cons.1 hphy
    have hother (hreport : a.report bfeeCount = none)
        (hcount : (a.handle bfeeCount).1 = bfeeCount) :
        b.bfeeCount = (bfeeCount + i + 1) % 2 ^ 16 := by
      rw [reports, hreport, hcount] at h
      exact ih has h
    match a, ha, h, hother with
    | .notif priv alloc (.bfee pkt), ha, h, _ =>
      have hvalid : priv.lastPhyResValid = true := ha
      cases i with
      | zero =>
        obtain rfl := Option.some.inj h
        exact congrArg Bfee.bfeeCount (if_pos hvalid)
      | succ i =>
        have hcount : (Arrival.handle bfeeCount (.notif priv alloc (.bfee pkt))).1 =
            (bfeeCount + 1) % 2 ^ 16 := by
          simp only [Arrival.handle, Notification.handle, iwlagnBfeeNotif, stampIfValid]
          rw [if_pos hvalid]
        have hnext : (reports ((bfeeCount + 1) % 2 ^ 16) as)[i]? = some b := by
          rw [← hcount]
          exact h
        have hi := ih has hnext
        omega
    | .notif priv alloc (.mpdu pkt), _, _, hother => exact hother rfl rfl
    | .statistics priv alloc silence, _, _, hother => exact hother rfl rfl

/-! ## The chain -/

/-- The messages that the connector has handed to user space. The `m`-th message allocated is the
`m`-th one made. -/
def handedOver (msgs : List CnMessage) (s : System 1) : List CnMessage :=
  (sent s.conn.trace).filterMap fun m => msgs[m - 1]?

/-- A run of the driver and of `incsi`: the handlers enqueue the messages one after the other while
the work item sends them, the socket of `incsi` drops some and delivers the others in order, and the
loop of `incsi` takes them. -/
structure Recording (msgs : List CnMessage) where
  acts : List (Act 1)
  driver : System 1
  run : Lts.exec System.step (System.init 1) acts = some driver
  enqueued : driver.nalloc ≤ msgs.length
  received : List CnMessage
  delivered : received.Sublist (handedOver msgs driver)
  dgrams : List Bytes
  wrapped : List.Forall₂ (fun msg dgram => ∃ env : Envelope, dgram = env.datagram msg)
    received dgrams
  buf : Memory

/-- The log that `incsi` writes. -/
def Recording.log {msgs : List CnMessage} (r : Recording msgs) : Bytes :=
  (r.dgrams.foldl LogLoop.receive { buf := r.buf, out := [] }).out

/-- Nothing is under way, and nothing was rejected by the connector or dropped by the socket. -/
structure Recording.Complete {msgs : List CnMessage} (r : Recording msgs) : Prop where
  drained : r.driver.Drained
  enqueued : r.driver.nalloc = msgs.length
  accepted : ∀ m unread priv, .rejected m unread priv ∉ r.driver.conn.trace
  delivered : r.received = handedOver msgs r.driver

/-- The messages behind the pointers from 1 on. -/
theorem filterMap_range' (msgs : List CnMessage) {k : ℕ} (h : k ≤ msgs.length) :
    (List.range' 1 k).filterMap (fun m => msgs[m - 1]?) = msgs.take k := by
  induction k with
  | zero => rfl
  | succ k ih =>
    have hlt : k < msgs.length := h
    rw [List.range'_1_concat, List.filterMap_append, ih hlt.le, List.take_add_one,
      List.filterMap_cons, List.filterMap_nil, Nat.add_sub_cancel_left,
      List.getElem?_eq_getElem hlt]
    rfl

/-- What is received are some of the messages, in order. -/
theorem Recording.received_sublist {msgs : List CnMessage} (r : Recording msgs) :
    r.received.Sublist msgs := by
  have hsent := ((System.delivered_of_run r.run).inOrder).filterMap fun m => msgs[m - 1]?
  rw [filterMap_range' msgs r.enqueued] at hsent
  exact (r.delivered.trans hsent).trans (List.take_sublist ..)

/-- And all of them, when nothing gets lost. -/
theorem Recording.Complete.received_eq {msgs : List CnMessage} {r : Recording msgs}
    (h : r.Complete) : r.received = msgs := by
  have hsent := (System.delivered_of_run r.run).all h.drained h.accepted
  rw [h.delivered, handedOver, hsent, filterMap_range' msgs r.enqueued, h.enqueued,
    List.take_length]

/-- The log is the records of the messages received. -/
theorem log_of_wrapped {received : List CnMessage} {dgrams : List Bytes} (s : LogLoop)
    (hwrapped : List.Forall₂ (fun msg dgram => ∃ env : Envelope, dgram = env.datagram msg)
      received dgrams)
    (h : ∀ msg ∈ received, ∃ bfs, Becomes msg bfs) :
    (dgrams.foldl LogLoop.receive s).out =
      s.out ++ (received.map CnMessage.data).flatMap logRecord := by
  induction hwrapped generalizing s with
  | nil => exact (List.append_nil _).symm
  | cons henv _ ih =>
    obtain ⟨env, rfl⟩ := henv
    obtain ⟨⟨bfs, hmsg⟩, hmsgs⟩ := List.forall_mem_cons.1 h
    rw [List.foldl_cons, ih _ hmsgs, receive_out env s hmsg.len hmsg.fits, List.map_cons,
      List.flatMap_cons, List.append_assoc]
    rfl

/-- **What `read_bf_file` returns** for the log of a run. -/
theorem structs_of_delivered (hwf : ∀ a ∈ arrivals, a.WellFormed)
    (r : Recording (messages bfeeCount arrivals)) :
    readBfFile r.log = .ok ((structsOfMessages r.received).map some) := by
  have hmsgs : ∀ msg ∈ r.received, ∃ bfs, Becomes msg bfs := fun msg hmsg =>
    becomes_of_mem hwf msg (r.received_sublist.subset hmsg)
  have hlog : r.log = (r.received.map CnMessage.data).flatMap logRecord :=
    (log_of_wrapped _ r.wrapped hmsgs).trans (List.nil_append _)
  have hrecords : ∀ rec ∈ r.received.map CnMessage.data, IsRecord rec ∧ Acceptable rec := by
    intro rec hrec
    obtain ⟨msg, hmsg, rfl⟩ := List.mem_map.1 hrec
    obtain ⟨bfs, hbecomes⟩ := hmsgs msg hmsg
    exact ⟨hbecomes.isRecord, hbecomes.acceptable⟩
  have hread := readBfFile_log (fun rec hrec => (hrecords rec hrec).1)
    fun rec hrec => (hrecords rec hrec).2
  rw [hlog, hread, List.flatMap_map]
  rfl

/-- The structs are those of some of the reports, in order. -/
theorem exists_reports (hwf : ∀ a ∈ arrivals, a.WellFormed)
    (r : Recording (messages bfeeCount arrivals)) :
    ∃ got : List Bfee, got.Sublist (reports bfeeCount arrivals) ∧
      structsOfMessages r.received = got.map bfOf :=
  List.sublist_map_iff.1 ((r.received_sublist.flatMap _).trans (structs_sublist hwf))

/-- A driver that knows the PHY data of the last frame. -/
def phyPriv : DvmPriv where
  lastPhyResValid := true
  lastPhyRes := ⟨0, [], 0, 0x4101⟩
  lastRxNoise := -93
  lastCfgPhyBuf := 0
  connectorLog := 1
  bfeeCount := 0

/-- Three reports, one after the other. -/
def threeReports : List Arrival := List.replicate 3 (.notif phyPriv true (report 72))

theorem wellFormed_threeReports : ∀ a ∈ threeReports, a.WellFormed := by
  intro a ha
  obtain rfl := List.eq_of_mem_replicate ha
  exact ⟨by decide, by decide, by decide, by decide⟩

/-- The only handler. -/
def handler : Fin 1 := ⟨0, Nat.one_pos⟩

/-- Their messages are enqueued, and then sent together. -/
def sentTogether : List (Act 1) :=
  [.setPriv, .call handler, .check handler, .store handler, .publish handler, .queueWork handler,
    .call handler, .check handler, .store handler, .publish handler, .queueWork handler,
    .call handler, .check handler, .store handler, .publish handler, .queueWork handler,
    .work, .readIndices, .send, .free, .send, .free, .send, .free, .done]

/-- A recording of them, of which the socket delivers what is asked for. -/
theorem exists_recording {received : List CnMessage}
    (h : received.Sublist (messages 0 threeReports)) :
    ∃ r : Recording (messages 0 threeReports), r.received = received ∧
      (received = messages 0 threeReports → r.Complete) := by
  have hend : (Lts.exec System.step (System.init 1) sentTogether).map (fun s =>
      (sent s.conn.trace, s.nalloc, s.callers 0, s.work, s.conn.workQueued,
        s.conn.trace.any fun
          | .rejected _ _ _ => true
          | _ => false)) = some ([1, 2, 3], 3, .idle, .idle, false, false) := by
    decide +kernel
  obtain ⟨s, hs, hend⟩ := Option.map_eq_some_iff.1 hend
  simp only [Prod.mk.injEq] at hend
  obtain ⟨hsent, hnalloc, hcaller, hwork, hqueued, hrejected⟩ := hend
  have hover : handedOver (messages 0 threeReports) s = messages 0 threeReports := by
    rw [handedOver, hsent]
    rfl
  refine ⟨{
    acts := sentTogether
    driver := s
    run := hs
    enqueued := hnalloc.le
    received := received
    delivered := hover.symm ▸ h
    dgrams := received.map zeroEnvelope.datagram
    wrapped := List.forall₂_map_right_iff.2
      (List.forall₂_same.2 fun msg _ => ⟨zeroEnvelope, rfl⟩)
    buf := fun _ => 0 }, rfl, fun hall => ⟨⟨hcaller, hwork, hqueued⟩, hnalloc, ?_, ?_⟩⟩
  · intro m unread priv hmem
    exact absurd (List.any_eq_true.2 ⟨_, hmem, rfl⟩) (Bool.eq_false_iff.1 hrejected)
  · exact hall.trans hover.symm

/-- A struct has the counter of its report. -/
theorem bfeeCount_bfOf (b : Bfee) : (bfOf b).bfee.bfeeCount = b.bfeeCount := by
  unfold bfOf
  split <;> rfl

end Iax.Incsi
