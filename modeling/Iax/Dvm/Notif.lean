import Iax.Lib.Memory

/-!
# The messages of the dvm driver

What the driver passes to user space about a notification of the firmware: a message of the kernel
connector, a one-byte code and bytes of the packet.

* `iwlagnBfeeNotif` (`lib.c`) stamps fields of a beamforming report in place, and sends as many
  bytes as the report itself says.
* `iwlagnRxReplyRx` (`rx.c`) sends the frame of an MPDU notification.
* `connectorSendMsg` (`connector.c`) makes the message.

The buffer of a packet is part of a memory, which goes on behind the packet. The host is
little-endian.
-/

namespace Iax.Dvm

open Bytes

/-! ## Packets and the driver -/

/-- `struct iwl_rx_packet`: `data` is the memory from `pkt->data` on. -/
structure DvmPacket where
  lenNFlags : BitVec 32
  data : Memory

/-- `iwl_rx_packet_len`: the frame size, bits 13-0. -/
def iwlRxPacketLen (pkt : DvmPacket) : ℕ := (pkt.lenNFlags &&& 0x3fff#32).toNat

/-- The number of bytes of the packet from `pkt->data` on: the frame without `sizeof(pkt->hdr)`. -/
def DvmPacket.payloadLen (pkt : DvmPacket) : ℕ := iwlRxPacketLen pkt - 4

/-- `struct iwl_rx_phy_res`; `nonCfg` are the words of `non_cfg_phy_buf`. -/
structure PhyRes where
  timestamp : ℕ
  nonCfg : List ℕ
  cfgPhyCnt : ℕ
  rateNFlags : ℕ

/-- The parts of `struct iwl_priv` that are read, and the static `bfee_count`. -/
structure DvmPriv where
  lastPhyResValid : Bool
  lastPhyRes : PhyRes
  lastRxNoise : ℤ
  lastCfgPhyBuf : ℕ
  connectorLog : ℕ
  bfeeCount : ℕ

/-- `struct cn_msg`: `len`, and the bytes behind the struct. -/
structure CnMessage where
  len : BitVec 16
  data : Bytes
  deriving DecidableEq

/-- `connector_send_msg`, the message it enqueues: `size` bytes of `mem` from `pos` on. `alloc`
tells whether `kmalloc` finds memory. -/
def connectorSendMsg (alloc : Bool) (mem : Memory) (pos size : ℕ) (code : UInt8) :
    Option CnMessage :=
  if alloc = false then none
  else some { len := BitVec.ofNat 16 (size + 1), data := code :: mem.read pos size }

/-! ## Beamforming reports -/

/-- `sizeof(struct iwl_bfee_notif)`. -/
def sizeofBfeeNotif : ℕ := 20

/-- `bfee_notif->len`. -/
def DvmPacket.bfeeLen (pkt : DvmPacket) : ℕ := leNat (pkt.data.read 16 2)

/-- The fields that `iwlagn_bfee_notif` stamps: `timestamp_low`, `rssiA`, `rssiB`, `rssiC`, `noise`,
`agc`, `antenna_sel`, `fake_rate_n_flags` and `bfee_count`. -/
def stampBfee (priv : DvmPriv) (data : Memory) : Memory :=
  let phy := priv.lastPhyRes
  let word (i : ℕ) : ℕ := phy.nonCfg.getD i 0
  let data := data.write 0 (leBytes 4 phy.timestamp)
  let data := data.write 10 [UInt8.ofNat (word 2 &&& 0x00ff)]
  let data := data.write 11 [UInt8.ofNat ((word 2 &&& 0xff0000) >>> 16)]
  let data := data.write 12 [UInt8.ofNat (word 3 &&& 0x00ff)]
  let data := data.write 13 [UInt8.ofBitVec (BitVec.ofInt 8 priv.lastRxNoise)]
  let data := data.write 14 [UInt8.ofNat ((word 1 &&& 0xfe00) >>> 9)]
  let data := if 0 < phy.cfgPhyCnt then data.write 15 [UInt8.ofNat priv.lastCfgPhyBuf] else data
  let data := data.write 18 (leBytes 2 (phy.rateNFlags &&& 0x3fff))
  data.write 4 (leBytes 2 (priv.bfeeCount + 1))

/-- `IWL_CONN_BFEE_NOTIF`. -/
def iwlConnBfeeNotif : UInt8 := 0xbb

/-- The stamps, when there is PHY data, and the counter. -/
def stampIfValid (priv : DvmPriv) (pkt : DvmPacket) : DvmPriv × DvmPacket :=
  if priv.lastPhyResValid then
    ({ priv with bfeeCount := (priv.bfeeCount + 1) % 2 ^ 16 },
      { pkt with data := stampBfee priv pkt.data })
  else (priv, pkt)

/-- `iwlagn_bfee_notif`: the packet as it stands after the stamps, and the message. -/
def iwlagnBfeeNotif (priv : DvmPriv) (alloc : Bool) (pkt : DvmPacket) :
    DvmPriv × DvmPacket × Option CnMessage :=
  let len := pkt.bfeeLen
  let (priv, pkt) := stampIfValid priv pkt
  (priv, pkt,
    if priv.connectorLog &&& 1 ≠ 0 then
      connectorSendMsg alloc pkt.data 0 (len + sizeofBfeeNotif) iwlConnBfeeNotif
    else none)

theorem stampIfValid_payloadLen (priv : DvmPriv) (pkt : DvmPacket) :
    (stampIfValid priv pkt).2.payloadLen = pkt.payloadLen := by
  unfold stampIfValid
  split <;> rfl

/-! ## MPDUs -/

/-- `sizeof(struct iwl_rx_mpdu_res_start)`. -/
def sizeofMpduResStart : ℕ := 4

/-- `amsdu->byte_count`. -/
def DvmPacket.byteCount (pkt : DvmPacket) : ℕ := leNat (pkt.data.read 0 2)

/-- `IWL_CONN_RX_MPDU`. -/
def iwlConnRxMpdu : UInt8 := 0xc1

/-- `iwlagn_rx_reply_rx` as far as its message. -/
def iwlagnRxReplyRx (priv : DvmPriv) (alloc : Bool) (pkt : DvmPacket) : Option CnMessage :=
  if priv.lastPhyResValid = false then none
  else if iwlRxPacketLen pkt < sizeofMpduResStart then none
  else if iwlRxPacketLen pkt < pkt.byteCount + sizeofMpduResStart + 4 then none
  else if priv.connectorLog &&& 4 ≠ 0 then
    connectorSendMsg alloc pkt.data sizeofMpduResStart pkt.byteCount iwlConnRxMpdu
  else none

/-! ## Notifications -/

/-- A notification that the driver may log. -/
inductive Notification
  | bfee (pkt : DvmPacket)
  | mpdu (pkt : DvmPacket)

namespace Notification

def pkt : Notification → DvmPacket
  | .bfee pkt => pkt
  | .mpdu pkt => pkt

/-- The code of its message. -/
def code : Notification → UInt8
  | .bfee _ => iwlConnBfeeNotif
  | .mpdu _ => iwlConnRxMpdu

/-- The handler of a notification. -/
def handle (n : Notification) (priv : DvmPriv) (alloc : Bool) :
    DvmPriv × DvmPacket × Option CnMessage :=
  match n with
  | .bfee pkt => iwlagnBfeeNotif priv alloc pkt
  | .mpdu pkt => (priv, pkt, iwlagnRxReplyRx priv alloc pkt)

/-- Where the bytes of its message begin in the packet. -/
def start : Notification → ℕ
  | .bfee _ => 0
  | .mpdu _ => sizeofMpduResStart

/-- How many bytes the message has besides the code. -/
def size : Notification → ℕ
  | .bfee pkt => pkt.bfeeLen + sizeofBfeeNotif
  | .mpdu pkt => pkt.byteCount

variable {n : Notification} {priv priv' : DvmPriv} {alloc : Bool} {pkt : DvmPacket}
  {msg : CnMessage}

/-- The handlers leave the frame size alone. -/
theorem handle_payloadLen (h : n.handle priv alloc = (priv', pkt, some msg)) :
    pkt.payloadLen = n.pkt.payloadLen := by
  cases n with
  | bfee p =>
    simp only [handle, iwlagnBfeeNotif, Prod.mk.injEq] at h
    obtain ⟨-, rfl, -⟩ := h
    exact stampIfValid_payloadLen priv p
  | mpdu p =>
    simp only [handle, Prod.mk.injEq] at h
    obtain ⟨-, rfl, -⟩ := h
    rfl

theorem connectorSendMsg_eq_some {mem : Memory} {pos size : ℕ} {code : UInt8}
    (h : connectorSendMsg alloc mem pos size code = some msg) :
    msg = { len := BitVec.ofNat 16 (size + 1), data := code :: mem.read pos size } := by
  unfold connectorSendMsg at h
  split at h
  · cases h
  · exact (Option.some.inj h).symm

/-- **The message** of a notification that is logged. -/
theorem handle_msg (h : n.handle priv alloc = (priv', pkt, some msg)) :
    msg =
      { len := BitVec.ofNat 16 (n.size + 1), data := n.code :: pkt.data.read n.start n.size } := by
  cases n with
  | bfee p =>
    simp only [handle, iwlagnBfeeNotif, Prod.mk.injEq] at h
    obtain ⟨-, rfl, hmsg⟩ := h
    split at hmsg
    · exact connectorSendMsg_eq_some hmsg
    · cases hmsg
  | mpdu p =>
    simp only [handle, Prod.mk.injEq] at h
    obtain ⟨-, rfl, hmsg⟩ := h
    unfold iwlagnRxReplyRx at hmsg
    split at hmsg
    · cases hmsg
    · split at hmsg
      · cases hmsg
      · split at hmsg
        · cases hmsg
        · split at hmsg
          · exact connectorSendMsg_eq_some hmsg
          · cases hmsg

/-- The frame of an MPDU that is logged lies inside its packet. -/
theorem mpdu_inside {p : DvmPacket} (h : (mpdu p).handle priv alloc = (priv', pkt, some msg)) :
    sizeofMpduResStart + p.byteCount ≤ p.payloadLen := by
  simp only [handle, iwlagnRxReplyRx, Prod.mk.injEq] at h
  obtain ⟨-, -, hmsg⟩ := h
  split at hmsg
  · cases hmsg
  · split at hmsg
    · cases hmsg
    · split at hmsg
      · cases hmsg
      · simp only [DvmPacket.payloadLen]
        omega

end Notification

end Iax.Dvm
