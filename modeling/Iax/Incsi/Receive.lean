import Iax.Dvm.Notif

/-!
# From a notification to a record of the log

The receive loop of `incsi.cpp` takes one netlink datagram after another into a buffer of 4096 bytes
and writes a record to the log for each: the length of the message, big-endian, and its data.

* `LogLoop.receive`: one turn of the loop, `receive_log` the log of a run.
* `Exact`: the record of a notification is what the firmware has reported.
* `record_exact_iff`: when it is, for any packet and whatever the buffer held before.
-/

namespace Iax.Incsi

open Bytes Dvm

/-! ## Datagrams -/

/-- What the kernel puts around a message: the netlink header, `id`, `seq` and `ack` before `len` in
`struct cn_msg`, and `flags` behind it. -/
structure Envelope where
  nlh : Bytes
  ids : Bytes
  flags : Bytes
  length_nlh : nlh.length = 16
  length_ids : ids.length = 16
  length_flags : flags.length = 2

/-- `NLMSG_DATA` of a buffer and `sizeof(struct cn_msg)`: where the data of the message begins. -/
def dataOffset : ℕ := 16 + 20

/-- The datagram of a message: `cn_netlink_send` copies `len` bytes behind the struct. -/
def Envelope.datagram (env : Envelope) (msg : CnMessage) : Bytes :=
  env.nlh ++ (env.ids ++ (leBytes 2 msg.len.toNat ++ (env.flags ++ msg.data.take msg.len.toNat)))

/-! ## The loop -/

/-- `sizeof(buf)`. -/
def bufSize : ℕ := 4096

/-- The loop of `main`: the memory from `buf` on, and the log. -/
structure LogLoop where
  buf : Memory
  out : Bytes

/-- The bytes of a datagram that `recv` delivers. -/
def recvBytes (dgram : Bytes) : Bytes := dgram.take bufSize

/-- `l`, the length of the message in the buffer. -/
def msgLen (buf : Memory) : ℕ := leNat (buf.read 32 2)

/-- What `fwrite` writes to the log for the message in the buffer. -/
def recordOf (buf : Memory) : Bytes :=
  beBytes 2 (msgLen buf) ++ buf.read dataOffset (msgLen buf)

/-- One turn of the loop. -/
def LogLoop.receive (s : LogLoop) (dgram : Bytes) : LogLoop :=
  let buf := s.buf.write 0 (recvBytes dgram)
  { buf := buf, out := s.out ++ recordOf buf }

/-! ## The record of a notification -/

/-- A message that has a record: its length fits the 16-bit fields, and its datagram the buffer. -/
def Representable (msg : CnMessage) : Prop :=
  msg.data.length < 2 ^ 16 ∧ dataOffset + msg.data.length ≤ bufSize

instance (msg : CnMessage) : Decidable (Representable msg) := by
  unfold Representable
  infer_instance

/-- The record of a notification is exact. `pkt` is its packet as the driver leaves it, `msg` the
message, `buf` the buffer after `recv` and `record` what was written for it. -/
structure Exact (n : Notification) (pkt : DvmPacket) (msg : CnMessage) (dgram : Bytes)
    (buf : Memory) (record : Bytes) : Prop where
  /-- The message is the code and bytes of the packet. -/
  data : ∃ start size, start + size ≤ pkt.payloadLen ∧
    msg.data = n.code :: pkt.data.read start size
  len : msg.len.toNat = msg.data.length
  record : record =
    if Representable msg then beBytes 2 msg.len.toNat ++ msg.data else []
  /-- The bytes read from the buffer were received. -/
  received : dataOffset + msgLen buf ≤ (recvBytes dgram).length

/-- The condition on a notification: the bytes that are sent of it are inside its packet, and the
datagram fits the buffer. -/
def Fits (n : Notification) : Prop :=
  n.start + n.size ≤ n.pkt.payloadLen ∧ dataOffset + (n.size + 1) ≤ bufSize

section Loop

variable (env : Envelope) {msg : CnMessage} (buf : Memory)

theorem length_datagram (hlen : msg.len.toNat ≤ msg.data.length) :
    (env.datagram msg).length = dataOffset + msg.len.toNat := by
  simp only [Envelope.datagram, List.length_append, env.length_nlh, env.length_ids,
    env.length_flags, length_leBytes, List.length_take, Nat.min_eq_left hlen, dataOffset]
  omega

theorem drop_datagram : (env.datagram msg).drop 32 =
    leBytes 2 msg.len.toNat ++ (env.flags ++ msg.data.take msg.len.toNat) := by
  rw [Envelope.datagram, ← List.append_assoc]
  exact List.drop_left' (by rw [List.length_append, env.length_nlh, env.length_ids])

/-- The length that the loop finds is that of the message, as long as any datagram is. -/
theorem msgLen_write (hlen : msg.len.toNat ≤ msg.data.length) :
    msgLen (buf.write 0 (recvBytes (env.datagram msg))) = msg.len.toNat := by
  have hin : 32 + 2 ≤ (recvBytes (env.datagram msg)).length := by
    rw [recvBytes, List.length_take, length_datagram env hlen, bufSize, dataOffset]
    omega
  have hread := Memory.read_write buf 0 hin
  rw [Nat.zero_add] at hread
  rw [msgLen, hread, recvBytes, List.drop_take, List.take_take, drop_datagram,
    show min 2 (bufSize - 32) = 2 from rfl, List.take_left' (length_leBytes ..),
    leNat_leBytes_of_lt msg.len.isLt]

/-- The data that the loop finds, when the datagram fits the buffer. -/
theorem read_write_data (hlen : msg.len.toNat = msg.data.length)
    (hfits : dataOffset + msg.data.length ≤ bufSize) :
    (buf.write 0 (recvBytes (env.datagram msg))).read dataOffset msg.data.length = msg.data := by
  have hlength := length_datagram env hlen.le
  have hrecv : recvBytes (env.datagram msg) = env.datagram msg :=
    List.take_of_length_le (by omega)
  have hin : dataOffset + msg.data.length ≤ (env.datagram msg).length := by omega
  have hread := Memory.read_write buf 0 hin
  rw [Nat.zero_add] at hread
  have hdrop : (env.datagram msg).drop dataOffset = msg.data := by
    rw [show dataOffset = 32 + (2 + 2) from rfl, ← List.drop_drop, drop_datagram,
      ← List.append_assoc, List.drop_left' (by simp [env.length_flags]), hlen, List.take_length]
  rw [hrecv, hread, hdrop, List.take_length]

/-- The record that a message gets when its datagram fits the buffer. -/
theorem receive_out (s : LogLoop) (hlen : msg.len.toNat = msg.data.length)
    (hfits : dataOffset + msg.data.length ≤ bufSize) :
    (s.receive (env.datagram msg)).out = s.out ++ (beBytes 2 msg.data.length ++ msg.data) := by
  rw [LogLoop.receive, recordOf, msgLen_write env s.buf hlen.le, hlen,
    read_write_data env s.buf hlen hfits]

/-- The log of a run of the loop: one record for each message, in order. -/
theorem receive_log {msgs : List CnMessage} (s : LogLoop)
    (h : ∀ msg ∈ msgs, msg.len.toNat = msg.data.length ∧ dataOffset + msg.data.length ≤ bufSize) :
    ((msgs.map env.datagram).foldl LogLoop.receive s).out =
      s.out ++ msgs.flatMap fun msg => beBytes 2 msg.data.length ++ msg.data := by
  induction msgs generalizing s with
  | nil => exact (List.append_nil _).symm
  | cons msg msgs ih =>
    obtain ⟨hlen, hfits⟩ := h msg (List.mem_cons_self ..)
    rw [List.map_cons, List.foldl_cons, ih _ fun m hm => h m (List.mem_cons_of_mem _ hm),
      receive_out env s hlen hfits, List.append_assoc, List.flatMap_cons]

end Loop

variable {n : Notification} {priv priv' : DvmPriv} {alloc : Bool} {pkt : DvmPacket}
  {msg : CnMessage}

/-- A message that is logged has the length of its data, unless this wraps round. -/
theorem len_of_fits (hlogged : n.handle priv alloc = (priv', pkt, some msg))
    (hfits : dataOffset + (n.size + 1) ≤ bufSize) : msg.len.toNat = n.size + 1 := by
  have hlt : n.size + 1 < 2 ^ 16 := by
    simp only [dataOffset, bufSize] at hfits
    omega
  rw [Notification.handle_msg hlogged, BitVec.toNat_ofNat, Nat.mod_eq_of_lt hlt]

/-- The record that is written for a datagram in one turn of the loop. -/
def writtenFor (s : LogLoop) (dgram : Bytes) : Bytes := (s.receive dgram).out.drop s.out.length

variable (env : Envelope) (s : LogLoop)

theorem fits_of_exact (hlogged : n.handle priv alloc = (priv', pkt, some msg))
    (h : Exact n pkt msg (env.datagram msg) (s.receive (env.datagram msg)).buf
      (writtenFor s (env.datagram msg))) : Fits n := by
  obtain ⟨start, size, hin, hdata⟩ := h.data
  have hlen := h.len
  have hreceived := h.received
  have hsize : msg.data.length = n.size + 1 := by
    rw [Notification.handle_msg hlogged, List.length_cons, Memory.length_read]
  have hn : size = n.size := by
    have hlength := congrArg List.length hdata
    rw [hsize, List.length_cons, Memory.length_read] at hlength
    omega
  constructor
  · cases n with
    | bfee p =>
      rw [← Notification.handle_payloadLen hlogged, ← hn]
      exact (Nat.add_le_add_right (Nat.zero_le start) size).trans hin
    | mpdu p => exact Notification.mpdu_inside hlogged
  · have hfound := msgLen_write env s.buf hlen.le
    have hbuf : (recvBytes (env.datagram msg)).length ≤ bufSize := List.length_take_le ..
    rw [LogLoop.receive, hfound, hlen, hsize] at hreceived
    exact hreceived.trans hbuf

theorem exact_of_fits (hlogged : n.handle priv alloc = (priv', pkt, some msg)) (h : Fits n) :
    Exact n pkt msg (env.datagram msg) (s.receive (env.datagram msg)).buf
      (writtenFor s (env.datagram msg)) := by
  have hmsg := Notification.handle_msg hlogged
  have hsize : msg.data.length = n.size + 1 := by
    rw [hmsg, List.length_cons, Memory.length_read]
  have hlen : msg.len.toNat = msg.data.length := (len_of_fits hlogged h.2).trans hsize.symm
  have hfits : dataOffset + msg.data.length ≤ bufSize := hsize ▸ h.2
  have hlt : msg.data.length < 2 ^ 16 := hlen ▸ msg.len.isLt
  have hfound := msgLen_write env s.buf hlen.le
  refine ⟨⟨n.start, n.size, ?_, congrArg CnMessage.data hmsg⟩, hlen, ?_, ?_⟩
  · exact Notification.handle_payloadLen hlogged ▸ h.1
  · rw [writtenFor, receive_out env s hlen hfits, List.drop_left, if_pos ⟨hlt, hfits⟩, hlen]
  · rw [LogLoop.receive, hfound, recvBytes, List.length_take, length_datagram env hlen.le, hlen]
    exact (Nat.min_eq_right hfits).ge

/-- **The record chain.** The record of a notification that is logged is exact if and only if what
is sent lies inside the packet and its datagram fits the receive buffer. -/
theorem record_exact_iff (hlogged : n.handle priv alloc = (priv', pkt, some msg)) :
    Exact n pkt msg (env.datagram msg) (s.receive (env.datagram msg)).buf
        (writtenFor s (env.datagram msg)) ↔
      Fits n :=
  ⟨fits_of_exact env s hlogged, exact_of_fits env s hlogged⟩

/-! ## Two reports -/

/-- A report of one receive and one transmit antenna that says that it has `len` bytes, in a packet
with room for 100. -/
def report (len : UInt8) : Notification :=
  .bfee
    { lenNFlags := 124#32
      data := fun i => if i = 16 then len else if i = 8 ∨ i = 9 then 1 else 0 }

def quietPriv : DvmPriv where
  lastPhyResValid := false
  lastPhyRes := ⟨0, [], 0, 0⟩
  lastRxNoise := 0
  lastCfgPhyBuf := 0
  connectorLog := 1
  bfeeCount := 0

def zeroEnvelope : Envelope where
  nlh := List.replicate 16 0
  ids := List.replicate 16 0
  flags := [0, 0]
  length_nlh := rfl
  length_ids := rfl
  length_flags := rfl

/-- The message of a report. -/
def reportMsg (len : UInt8) : CnMessage where
  len := BitVec.ofNat 16 ((report len).size + 1)
  data := iwlConnBfeeNotif :: (report len).pkt.data.read 0 (report len).size

theorem handle_report (len : UInt8) :
    (report len).handle quietPriv true = (quietPriv, (report len).pkt, some (reportMsg len)) := by
  simp only [report, Notification.handle, iwlagnBfeeNotif, stampIfValid, quietPriv,
    Bool.false_eq_true, if_false, connectorSendMsg, reduceCtorEq, Nat.and_self, ne_eq, one_ne_zero,
    not_false_eq_true, if_true]
  rfl

/-- The loop at its start. -/
def emptyLoop : LogLoop where
  buf := fun _ => 0
  out := []

/-- A report of 72 bytes. -/
theorem record_exact_iff_report :
    Exact (report 72) (report 72).pkt (reportMsg 72) (zeroEnvelope.datagram (reportMsg 72))
      (emptyLoop.receive (zeroEnvelope.datagram (reportMsg 72))).buf
      (writtenFor emptyLoop (zeroEnvelope.datagram (reportMsg 72))) :=
  (record_exact_iff zeroEnvelope emptyLoop (handle_report 72)).2 (by unfold Fits; decide)

/-- **A report that says too much**: bytes behind its packet are logged. -/
theorem record_not_exact :
    ¬ Exact (report 200) (report 200).pkt (reportMsg 200) (zeroEnvelope.datagram (reportMsg 200))
      (emptyLoop.receive (zeroEnvelope.datagram (reportMsg 200))).buf
      (writtenFor emptyLoop (zeroEnvelope.datagram (reportMsg 200))) := by
  intro h
  have hfits := fits_of_exact zeroEnvelope emptyLoop (handle_report 200) h
  revert hfits
  unfold Fits
  decide

end Iax.Incsi
