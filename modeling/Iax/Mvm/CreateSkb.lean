import Iax.Lib.Memory
import Iax.Mvm.CsiSliceBounds
import Iax.Mvm.DeviceFamily
import Iax.Mvm.TxCmd
import Mathlib.Data.List.Range

/-!
# The frame of a received MPDU

`iwl_mvm_rx_mpdu_mq` (`rxmq.c`) checks the length that the descriptor gives against the length of
the packet, and `iwl_mvm_create_skb` copies the header of the frame to the skb and leaves the rest
of a long frame in the page.

* `Skb.frame`: the frame that an skb holds, as the places in the page of its bytes.
* `toNat_reducedLen`, `le_reducedLen`: the length of the frame, and what it is when the padding is
  longer than the packet.
* `createSkb_short`, `createSkb_eq_none`, `createSkb_frame`: what is built, by the length of the
  frame and the room in the skb.
* `create_skb_keeps_frame_iff`: exactly the frame is built if and only if there is no more padding
  than packet, and the skb has room for the frame or for its header.
-/

namespace Iax.Mvm

/-! ## Received packets -/

/-- `struct iwl_rx_cmd_buffer`: a page with a packet at an offset. The transport passes on packets
that have at least a header only. -/
structure RxPage where
  page : Memory
  offset : ℕ
  pageStolen : Bool
  truesize : ℕ
  header_le : 4 ≤ (BitVec.ofNat 32 (page.readLe offset 4) &&& 0x3fff#32).toNat

namespace RxPage

variable (rxb : RxPage)

/-- The place of `pkt->data`, where the descriptor is. -/
def data : ℕ := rxb.offset + 8

def lenNFlags : BitVec 32 := BitVec.ofNat 32 (rxb.page.readLe rxb.offset 4)

/-- What `rxb_addr` points to. -/
def packet : RxPacket where
  lenNFlags := rxb.lenNFlags
  data := rxb.page.read rxb.data ((rxb.lenNFlags &&& 0x3fff#32).toNat - 4)

theorem sizeofPktHdr_le : sizeofPktHdr ≤ (iwlRxPacketLen rxb.packet).toNat := rxb.header_le

/-! ### The descriptor -/

def mpduLen : BitVec 16 := BitVec.ofNat 16 (rxb.page.readLe rxb.data 2)
def macFlags1 : UInt8 := rxb.page (rxb.data + 2)
def macFlags2 : UInt8 := rxb.page (rxb.data + 3)

/-- `IWL_RX_MPDU_MFLG1_MIC_CRC_LEN_MASK`, which counts words of two bytes, in bytes. -/
def micCrcLen : UInt8 := ((rxb.macFlags1 &&& 0xf0) >>> 4) <<< 1

/-- `IWL_RX_MPDU_MFLG2_PAD` -/
def isPadded : Bool := rxb.macFlags2 &&& 0x20 != 0

/-- The bytes of padding behind the header. -/
def padLen : ℕ := if rxb.isPadded then 2 else 0

end RxPage

/-- `sizeof(*desc)` from AX210 on, `IWL_RX_DESC_SIZE_V1` before. -/
def descSize (family : DeviceFamily) : ℕ := if .ax210 ≤ family then 64 else 48

/-- The place of the frame, behind the descriptor. -/
def RxPage.hdr (rxb : RxPage) (family : DeviceFamily) : ℕ := rxb.data + descSize family

/-- `hdr->frame_control` -/
def RxPage.frameControl (rxb : RxPage) (hdr : ℕ) : BitVec 16 :=
  BitVec.ofNat 16 (rxb.page.readLe hdr 2)

/-- The length checks of `iwl_mvm_rx_mpdu_mq`. -/
def rxMpduChecks (family : DeviceFamily) (rxb : RxPage) : Bool :=
  if iwlRxPacketPayloadLen rxb.packet < descSize family then false
  else if rxb.mpduLen.toNat + descSize family > iwlRxPacketPayloadLen rxb.packet then false
  else true

/-! ## The skb -/

/-- `skb->ip_summed` -/
inductive IpSummed
  | checksumNone | checksumUnnecessary | checksumComplete | checksumPartial
  deriving DecidableEq

/-- `struct sk_buff`, with the places in the page of the bytes that were copied to it, behind the
`len` bytes it had, and of its fragment. -/
structure Skb where
  len : ℕ
  tailroom : ℕ
  macHeader : ℕ
  copied : List ℕ
  /-- Offset and size. -/
  frag : Option (ℕ × ℕ)
  truesize : ℕ
  ipSummed : IpSummed
  csum : BitVec 32
  deriving DecidableEq

namespace Skb

variable (skb : Skb)

/-- The frame: the places of its bytes. -/
def frame : List ℕ := skb.copied ++ skb.frag.elim [] fun f => List.range' f.1 f.2

/-- There is nothing of a frame in it yet. -/
def IsNew : Prop := skb.copied = [] ∧ skb.frag = none

instance : Decidable skb.IsNew := inferInstanceAs (Decidable (_ ∧ _))

/-- `skb_put_data`, from a place in the page. Without room the kernel panics. -/
def putData (src n : ℕ) : Option Skb :=
  if n ≤ skb.tailroom then
    some { skb with
      len := skb.len + n
      tailroom := skb.tailroom - n
      copied := skb.copied ++ List.range' src n }
  else none

/-- `skb_add_rx_frag`, as the first fragment. -/
def addRxFrag (off size truesize : ℕ) : Skb :=
  { skb with
    len := skb.len + size
    frag := some (off, size)
    truesize := skb.truesize + truesize }

end Skb

/-! ## `iwl_mvm_create_skb` -/

/-- `struct iwl_mvm`, as far as it is read: `RX_INCLUDES_FCS` is set for a monitor. -/
structure RxMvm where
  family : DeviceFamily
  rxIncludesFcs : Bool

def rfc1042Header : Bytes := [0xaa, 0xaa, 0x03, 0x00, 0x00, 0x00]

/-- The protocols for which the hardware computes the checksum: IP, ARP, IPv6, 802.1Q, PAE and
TDLS. -/
def csumTypes : List Bytes :=
  [[0x08, 0x00], [0x08, 0x06], [0x86, 0xdd], [0x81, 0x00], [0x88, 0x8e], [0x89, 0x0d]]

variable (csumPartial : Bytes → BitVec 32 → BitVec 32) (mvm : RxMvm) (rxb : RxPage) (skb : Skb)

/-- The part for `CHECKSUM_COMPLETE`: `n` bytes of payload at the place `shdr`. -/
def fixCsum (shdr n : ℕ) : Skb :=
  if skb.ipSummed = .checksumComplete then
    if n < 8 ∨ rxb.page.read shdr 6 ≠ rfc1042Header ∨ rxb.page.read (shdr + 6) 2 ∉ csumTypes then
      { skb with ipSummed := .checksumNone }
    else if ¬ .bz ≤ mvm.family then
      -- mac80211 assumes full CSUM including SNAP header
      { skb with csum := csumPartial (rxb.page.read shdr 8) skb.csum }
    else skb
  else skb

/-- The length without the padding. -/
def unpaddedLen (len : BitVec 16) : BitVec 16 := if rxb.isPadded then len - 2 else len

/-- The length of the frame, without the padding and what is to be stripped. -/
def reducedLen (len : BitVec 16) : BitVec 16 :=
  let len := unpaddedLen rxb len
  if rxb.micCrcLen.toNat < len.toNat ∧ mvm.rxIncludesFcs = false then
    len - rxb.micCrcLen.toBitVec.setWidth 16
  else len

/-- The part that copies: `hdrlen` bytes of header and IV, and behind the padding what `headlen` has
more. -/
def putHead (hdr hdrlen headlen : ℕ) : Option Skb := do
  let skb := { skb with macHeader := skb.len }
  let skb ← skb.putData hdr hdrlen
  let skb ← skb.putData (hdr + hdrlen + rxb.padLen) (headlen - hdrlen)
  return fixCsum csumPartial mvm rxb skb (hdr + hdrlen + rxb.padLen) (headlen - hdrlen)

/-- The part that leaves the rest of the frame in the page. -/
def addRest (hdr headlen len : ℕ) : Skb × RxPage :=
  let fraglen := (BitVec.ofNat 32 len - BitVec.ofNat 32 headlen).toNat
  if fraglen ≠ 0 then
    let offset := hdr + headlen + rxb.padLen - rxb.offset + rxb.offset
    (skb.addRxFrag offset fraglen rxb.truesize, { rxb with pageStolen := true })
  else (skb, rxb)

/-- `iwl_mvm_create_skb`, where `hdr` is a place in the page. There is no result when the kernel
panics. -/
def iwlMvmCreateSkb (hdr : ℕ) (len : BitVec 16) (cryptLen : BitVec 8) :
    Option (ℤ × Skb × RxPage) := do
  let hdrlen := ieee80211Hdrlen (rxb.frameControl hdr)
  let len := (reducedLen mvm rxb len).toNat
  -- if the frame is small enough to fit, pull it completely
  let headlen := if len ≤ skb.tailroom then len else hdrlen + cryptLen.toNat + 8
  let hdrlen := hdrlen + cryptLen.toNat
  if headlen < hdrlen then
    return (-22, skb, rxb)
  let skb ← putHead csumPartial mvm rxb skb hdr hdrlen headlen
  return (0, addRest rxb skb hdr headlen len)

/-! ## The length -/

/-- The MIC and CRC bytes that are stripped outside monitor mode, when the frame is longer. -/
def strippedLen (len : BitVec 16) : ℕ :=
  if mvm.rxIncludesFcs then 0
  else if rxb.micCrcLen.toNat < len.toNat - rxb.padLen then rxb.micCrcLen.toNat else 0

theorem strippedLen_le (len : BitVec 16) :
    strippedLen mvm rxb len ≤ len.toNat - rxb.padLen := by
  unfold strippedLen
  split_ifs <;> omega

theorem toNat_micCrcLen_lt : rxb.micCrcLen.toNat < 256 := rxb.micCrcLen.toNat_lt

theorem toNat_sub_micCrcLen {len : BitVec 16} (h : rxb.micCrcLen.toNat < len.toNat) :
    (len - rxb.micCrcLen.toBitVec.setWidth 16).toNat = len.toNat - rxb.micCrcLen.toNat := by
  have hmic := toNat_micCrcLen_lt rxb
  have hwide : (rxb.micCrcLen.toBitVec.setWidth 16).toNat = rxb.micCrcLen.toNat := by
    rw [BitVec.toNat_setWidth]
    exact Nat.mod_eq_of_lt (hmic.trans (by decide))
  rw [BitVec.toNat_sub_of_le (BitVec.le_def.2 (hwide.trans_le h.le)), hwide]

theorem toNat_unpaddedLen {len : BitVec 16} (h : rxb.padLen ≤ len.toNat) :
    (unpaddedLen rxb len).toNat = len.toNat - rxb.padLen := by
  unfold RxPage.padLen at h ⊢
  unfold unpaddedLen
  split_ifs at h ⊢
  · exact BitVec.toNat_sub_of_le h
  · rfl

/-- With more padding than packet the length wraps. -/
theorem le_unpaddedLen {len : BitVec 16} (h : len.toNat < rxb.padLen) :
    65534 ≤ (unpaddedLen rxb len).toNat := by
  unfold RxPage.padLen at h
  unfold unpaddedLen
  split_ifs at h ⊢
  · rw [BitVec.toNat_sub]
    change 65534 ≤ (2 ^ 16 - 2 + len.toNat) % 2 ^ 16
    omega
  · exact absurd h (Nat.not_lt_zero _)

/-- The length of the frame, when it does not wrap. -/
theorem toNat_reducedLen {len : BitVec 16} (h : rxb.padLen ≤ len.toNat) :
    (reducedLen mvm rxb len).toNat = len.toNat - rxb.padLen - strippedLen mvm rxb len := by
  have hunpadded := toNat_unpaddedLen rxb h
  unfold reducedLen strippedLen
  rw [← hunpadded]
  cases mvm.rxIncludesFcs with
  | true => simp
  | false =>
    by_cases hmic : rxb.micCrcLen.toNat < (unpaddedLen rxb len).toNat
    · simpa [hmic] using toNat_sub_micCrcLen rxb hmic
    · simp [hmic]

theorem le_reducedLen {len : BitVec 16} (h : len.toNat < rxb.padLen) :
    65279 ≤ (reducedLen mvm rxb len).toNat := by
  have hmic := toNat_micCrcLen_lt rxb
  have hwrap := le_unpaddedLen rxb h
  unfold reducedLen
  dsimp only
  split_ifs with hlong
  · rw [toNat_sub_micCrcLen rxb hlong.1]
    omega
  · omega

/-! ## What is built -/

section Build

variable (shdr n : ℕ)

@[simp] theorem fixCsum_copied : (fixCsum csumPartial mvm rxb skb shdr n).copied = skb.copied := by
  unfold fixCsum
  split_ifs <;> rfl

@[simp] theorem fixCsum_frag : (fixCsum csumPartial mvm rxb skb shdr n).frag = skb.frag := by
  unfold fixCsum
  split_ifs <;> rfl

@[simp] theorem fixCsum_len : (fixCsum csumPartial mvm rxb skb shdr n).len = skb.len := by
  unfold fixCsum
  split_ifs <;> rfl

@[simp] theorem fixCsum_macHeader :
    (fixCsum csumPartial mvm rxb skb shdr n).macHeader = skb.macHeader := by
  unfold fixCsum
  split_ifs <;> rfl

variable (hdr : ℕ) {hdrlen headlen : ℕ}

theorem putHead_eq_none (hroom : skb.tailroom < headlen) :
    putHead csumPartial mvm rxb skb hdr hdrlen headlen = none := by
  unfold putHead Skb.putData
  by_cases hheader : hdrlen ≤ skb.tailroom
  · simp [hheader, hroom]
  · simp [hheader]

/-- The bytes that are copied. -/
theorem putHead_copied (hle : hdrlen ≤ headlen) (hroom : headlen ≤ skb.tailroom) :
    ∃ skb', putHead csumPartial mvm rxb skb hdr hdrlen headlen = some skb' ∧
      skb'.copied = skb.copied ++ (List.range' hdr hdrlen ++
        List.range' (hdr + hdrlen + rxb.padLen) (headlen - hdrlen)) ∧
      skb'.frag = skb.frag ∧ skb'.macHeader = skb.len ∧ skb'.len = skb.len + headlen := by
  have hheader : hdrlen ≤ skb.tailroom := hle.trans hroom
  have hsum : skb.len + hdrlen + (headlen - hdrlen) = skb.len + headlen := by omega
  unfold putHead Skb.putData
  simp [hheader, hroom, hsum]

/-- The rest of the frame. -/
theorem addRest_frame {len : ℕ} (hfrag : skb.frag = none) (hhdr : rxb.offset ≤ hdr)
    (hle : headlen ≤ len) (hlen : len < 2 ^ 32) :
    (addRest rxb skb hdr headlen len).1.frame =
        skb.copied ++ List.range' (hdr + headlen + rxb.padLen) (len - headlen) ∧
      (addRest rxb skb hdr headlen len).1.macHeader = skb.macHeader ∧
      (addRest rxb skb hdr headlen len).1.len = skb.len + (len - headlen) := by
  have hfraglen : (BitVec.ofNat 32 len - BitVec.ofNat 32 headlen).toNat = len - headlen := by
    rw [BitVec.toNat_sub, BitVec.toNat_ofNat, BitVec.toNat_ofNat]
    omega
  have hoff : hdr + headlen + rxb.padLen - rxb.offset + rxb.offset =
      hdr + headlen + rxb.padLen := by omega
  unfold addRest
  simp only [hfraglen, hoff]
  split_ifs with hzero
  · exact ⟨rfl, rfl, rfl⟩
  · have hnil : len - headlen = 0 := not_not.1 hzero
    simp [Skb.frame, hfrag, hnil]

end Build

/-- The length of the header and the IV. -/
def headerLen (hdr : ℕ) (cryptLen : BitVec 8) : ℕ :=
  ieee80211Hdrlen (rxb.frameControl hdr) + cryptLen.toNat

/-- `headlen`: what is copied of a frame. -/
def headLen (hdr : ℕ) (len : BitVec 16) (cryptLen : BitVec 8) : ℕ :=
  if (reducedLen mvm rxb len).toNat ≤ skb.tailroom then (reducedLen mvm rxb len).toNat
  else headerLen rxb hdr cryptLen + 8

section Create

variable (hdr : ℕ) {len : BitVec 16} (cryptLen : BitVec 8)

theorem createSkb_eq :
    iwlMvmCreateSkb csumPartial mvm rxb skb hdr len cryptLen =
      if headLen mvm rxb skb hdr len cryptLen < headerLen rxb hdr cryptLen then
        some (-22, skb, rxb)
      else (putHead csumPartial mvm rxb skb hdr (headerLen rxb hdr cryptLen)
          (headLen mvm rxb skb hdr len cryptLen)).map fun skb' =>
        (0, addRest rxb skb' hdr (headLen mvm rxb skb hdr len cryptLen)
          (reducedLen mvm rxb len).toNat) := by
  unfold iwlMvmCreateSkb headLen headerLen
  simp only [Option.map_eq_bind]
  split_ifs <;> rfl

/-- A frame that fits is copied. -/
theorem headLen_of_le (h : (reducedLen mvm rxb len).toNat ≤ skb.tailroom) :
    headLen mvm rxb skb hdr len cryptLen = (reducedLen mvm rxb len).toNat := if_pos h

/-- Of another frame the header and 8 bytes are copied. -/
theorem headLen_of_lt (h : skb.tailroom < (reducedLen mvm rxb len).toNat) :
    headLen mvm rxb skb hdr len cryptLen = headerLen rxb hdr cryptLen + 8 :=
  if_neg (Nat.not_le.2 h)

/-- A frame that fits and is shorter than its header is refused. -/
theorem createSkb_short (hfit : (reducedLen mvm rxb len).toNat ≤ skb.tailroom)
    (hshort : (reducedLen mvm rxb len).toNat < headerLen rxb hdr cryptLen) :
    iwlMvmCreateSkb csumPartial mvm rxb skb hdr len cryptLen = some (-22, skb, rxb) := by
  rw [createSkb_eq, headLen_of_le mvm rxb skb hdr cryptLen hfit, if_pos hshort]

/-- Without room for the frame, and for its header and 8 bytes, the kernel panics. -/
theorem createSkb_eq_none (hlong : skb.tailroom < (reducedLen mvm rxb len).toNat)
    (hroom : skb.tailroom < headerLen rxb hdr cryptLen + 8) :
    iwlMvmCreateSkb csumPartial mvm rxb skb hdr len cryptLen = none := by
  rw [createSkb_eq, headLen_of_lt mvm rxb skb hdr cryptLen hlong, if_neg (by omega),
    putHead_eq_none csumPartial mvm rxb skb hdr hroom, Option.map_none]

/-- A frame whose head is copied, and whose rest stays in the page. -/
theorem createSkb_frame (hnew : skb.IsNew) (hhdr : rxb.offset ≤ hdr)
    (hroom : headLen mvm rxb skb hdr len cryptLen ≤ skb.tailroom)
    (hlow : headerLen rxb hdr cryptLen ≤ headLen mvm rxb skb hdr len cryptLen)
    (hhigh : headLen mvm rxb skb hdr len cryptLen ≤ (reducedLen mvm rxb len).toNat) :
    ∃ skb' rxb', iwlMvmCreateSkb csumPartial mvm rxb skb hdr len cryptLen =
        some (0, skb', rxb') ∧
      skb'.frame = List.range' hdr (headerLen rxb hdr cryptLen) ++
        List.range' (hdr + headerLen rxb hdr cryptLen + rxb.padLen)
          ((reducedLen mvm rxb len).toNat - headerLen rxb hdr cryptLen) ∧
      skb'.macHeader = skb.len ∧ skb'.len = skb.len + (reducedLen mvm rxb len).toNat := by
  have hres := @createSkb_eq csumPartial mvm rxb skb hdr len cryptLen
  generalize headLen mvm rxb skb hdr len cryptLen = headlen at *
  obtain ⟨skb₁, hput, hcopied, hfrag, hmac, hlen⟩ :=
    putHead_copied csumPartial mvm rxb skb hdr hlow hroom
  obtain ⟨hframe, hmac', hlen'⟩ := addRest_frame rxb skb₁ hdr (hfrag.trans hnew.2) hhdr hhigh
    ((reducedLen mvm rxb len).isLt.trans (by decide))
  rw [if_neg (Nat.not_lt.2 hlow), hput, Option.map_some] at hres
  have htotal : skb₁.len + ((reducedLen mvm rxb len).toNat - headlen) =
      skb.len + (reducedLen mvm rxb len).toNat := by omega
  refine ⟨_, _, hres, hframe.trans ?_, hmac'.trans hmac, hlen'.trans htotal⟩
  -- the copied part of the payload and the rest meet
  have hmeet : hdr + headlen + rxb.padLen = hdr + headerLen rxb hdr cryptLen + rxb.padLen +
      (headlen - headerLen rxb hdr cryptLen) := by omega
  have hsum : headlen - headerLen rxb hdr cryptLen + ((reducedLen mvm rxb len).toNat - headlen) =
      (reducedLen mvm rxb len).toNat - headerLen rxb hdr cryptLen := by omega
  rw [hcopied, hnew.1, List.nil_append, List.append_assoc, hmeet, List.range'_append_1, hsum]

end Create

/-! ## Keeping the frame -/

section Keep

variable (cryptLen : BitVec 8)

/-- The skb holds the MPDU: header and IV, and behind the padding the payload, as long as the
descriptor says without the padding and what is stripped, and within the packet. -/
structure FrameBuilt (skb' : Skb) : Prop where
  bytes : ∃ n, skb'.frame =
    List.range' (rxb.hdr mvm.family) (headerLen rxb (rxb.hdr mvm.family) cryptLen) ++
      List.range' (rxb.hdr mvm.family + headerLen rxb (rxb.hdr mvm.family) cryptLen + rxb.padLen) n
  length : (skb'.frame.length : ℤ) =
    rxb.mpduLen.toNat - rxb.padLen - strippedLen mvm rxb rxb.mpduLen
  inside : ∀ p ∈ skb'.frame, rxb.data ≤ p ∧ p < rxb.data + rxb.packet.payloadSize
  placed : skb'.macHeader = skb.len ∧ skb'.len = skb.len + skb'.frame.length

/-- Either the skb is left as it is, with an error, or it holds the MPDU. -/
def KeepsFrame : Prop :=
  ∃ ret skb' rxb', iwlMvmCreateSkb csumPartial mvm rxb skb (rxb.hdr mvm.family) rxb.mpduLen
      cryptLen = some (ret, skb', rxb') ∧
    if ret = 0 then FrameBuilt mvm rxb skb cryptLen skb' else skb' = skb

theorem hdrlen_le (fc : BitVec 16) : ieee80211Hdrlen fc ≤ 36 := by
  unfold ieee80211Hdrlen
  split_ifs <;> omega

theorem headerLen_le (hdr : ℕ) : headerLen rxb hdr cryptLen ≤ 36 + cryptLen.toNat :=
  Nat.add_le_add_right (hdrlen_le _) _

/-- More padding than packet: the length wraps, and there is no such frame. -/
theorem not_keepsFrame_of_lt (h : rxb.mpduLen.toNat < rxb.padLen) :
    ¬ KeepsFrame csumPartial mvm rxb skb cryptLen := by
  rintro ⟨ret, skb', rxb', hres, hkeep⟩
  have hwrap := le_reducedLen mvm rxb h
  have hheader := headerLen_le rxb cryptLen (rxb.hdr mvm.family)
  have hcrypt := cryptLen.isLt
  -- it is not refused as too short
  have hlow : ¬ headLen mvm rxb skb (rxb.hdr mvm.family) rxb.mpduLen cryptLen <
      headerLen rxb (rxb.hdr mvm.family) cryptLen := by
    unfold headLen
    split_ifs <;> omega
  rw [createSkb_eq, if_neg hlow, Option.map_eq_some_iff] at hres
  obtain ⟨skb₁, -, heq⟩ := hres
  obtain rfl : (0 : ℤ) = ret := congrArg Prod.fst heq
  rw [if_pos rfl] at hkeep
  have hlength := hkeep.length
  omega

/-- The bytes are within the packet. -/
theorem inside_of_checks (hchecks : rxMpduChecks mvm.family rxb = true) {n len p : ℕ} (hn : n ≤ len)
    (hlen : len + rxb.padLen ≤ rxb.mpduLen.toNat)
    (hp : p ∈ List.range' (rxb.hdr mvm.family) n ++
      List.range' (rxb.hdr mvm.family + n + rxb.padLen) (len - n)) :
    rxb.data ≤ p ∧ p < rxb.data + rxb.packet.payloadSize := by
  have hfits : rxb.mpduLen.toNat + descSize mvm.family ≤ rxb.packet.payloadSize := by
    rw [rxMpduChecks, iwlRxPacketPayloadLen_eq rxb.sizeofPktHdr_le] at hchecks
    split_ifs at hchecks with hshort hlie
    exact Nat.not_lt.1 hlie
  rw [RxPage.hdr, List.mem_append, List.mem_range'_1, List.mem_range'_1] at hp
  omega

/-- What is copied and what stays in the page are the frame. -/
theorem keepsFrame_of_headLen (hnew : skb.IsNew) (hchecks : rxMpduChecks mvm.family rxb = true)
    (hpad : rxb.padLen ≤ rxb.mpduLen.toNat)
    (hroom : headLen mvm rxb skb (rxb.hdr mvm.family) rxb.mpduLen cryptLen ≤ skb.tailroom)
    (hlow : headerLen rxb (rxb.hdr mvm.family) cryptLen ≤
      headLen mvm rxb skb (rxb.hdr mvm.family) rxb.mpduLen cryptLen)
    (hhigh : headLen mvm rxb skb (rxb.hdr mvm.family) rxb.mpduLen cryptLen ≤
      (reducedLen mvm rxb rxb.mpduLen).toNat) :
    KeepsFrame csumPartial mvm rxb skb cryptLen := by
  have hlen := toNat_reducedLen mvm rxb hpad
  have hstripped := strippedLen_le mvm rxb rxb.mpduLen
  have hhdr : rxb.offset ≤ rxb.hdr mvm.family := by
    unfold RxPage.hdr RxPage.data
    omega
  obtain ⟨skb', rxb', hres, hframe, hmac, htotal⟩ :=
    createSkb_frame csumPartial mvm rxb skb _ cryptLen hnew hhdr hroom hlow hhigh
  have hlength : skb'.frame.length = (reducedLen mvm rxb rxb.mpduLen).toNat := by
    rw [hframe, List.length_append, List.length_range', List.length_range']
    exact Nat.add_sub_cancel' (hlow.trans hhigh)
  refine ⟨0, skb', rxb', hres, ?_⟩
  rw [if_pos rfl]
  exact
    { bytes := ⟨_, hframe⟩
      length := by omega
      inside := fun p hp =>
        inside_of_checks mvm rxb hchecks (hlow.trans hhigh) (by omega) (hframe ▸ hp)
      placed := ⟨hmac, by omega⟩ }

/-- With room for the frame, or for its header and 8 bytes, the skb holds it. -/
theorem keepsFrame_of_room (hnew : skb.IsNew) (hchecks : rxMpduChecks mvm.family rxb = true)
    (hpad : rxb.padLen ≤ rxb.mpduLen.toNat)
    (hroom : (reducedLen mvm rxb rxb.mpduLen).toNat ≤ skb.tailroom ∨
      headerLen rxb (rxb.hdr mvm.family) cryptLen + 8 ≤ skb.tailroom) :
    KeepsFrame csumPartial mvm rxb skb cryptLen := by
  rcases Nat.lt_or_ge skb.tailroom (reducedLen mvm rxb rxb.mpduLen).toNat with hlong | hfit
  · have hhead := hroom.resolve_left (Nat.not_le.2 hlong)
    have hheadLen := headLen_of_lt mvm rxb skb (rxb.hdr mvm.family) cryptLen hlong
    exact keepsFrame_of_headLen csumPartial mvm rxb skb cryptLen hnew hchecks hpad
      (hheadLen.trans_le hhead) (by omega) (by omega)
  · rcases Nat.lt_or_ge (reducedLen mvm rxb rxb.mpduLen).toNat
      (headerLen rxb (rxb.hdr mvm.family) cryptLen) with hshort | hlow
    · exact ⟨-22, skb, rxb, createSkb_short csumPartial mvm rxb skb _ cryptLen hfit hshort, rfl⟩
    · have hheadLen := headLen_of_le mvm rxb skb (rxb.hdr mvm.family) cryptLen hfit
      exact keepsFrame_of_headLen csumPartial mvm rxb skb cryptLen hnew hchecks hpad
        (hheadLen.trans_le hfit) (hlow.trans_eq hheadLen.symm) hheadLen.le

/-- The IVs of `iwl_mvm_rx_crypto` have at most 8 bytes: with 52 bytes of room only the padding
matters. -/
theorem keepsFrame_iff_padLen_le (hnew : skb.IsNew) (hchecks : rxMpduChecks mvm.family rxb = true)
    (hcrypt : cryptLen.toNat ≤ 8) (hroom : 52 ≤ skb.tailroom) :
    KeepsFrame csumPartial mvm rxb skb cryptLen ↔ rxb.padLen ≤ rxb.mpduLen.toNat := by
  have hheader := headerLen_le rxb cryptLen (rxb.hdr mvm.family)
  refine ⟨fun hkeep => ?_, fun hpad => keepsFrame_of_room csumPartial mvm rxb skb cryptLen hnew
    hchecks hpad (.inr (by omega))⟩
  by_contra hlt
  exact not_keepsFrame_of_lt csumPartial mvm rxb skb cryptLen (Nat.lt_of_not_le hlt) hkeep

/-- **Exactly the frame is built** if and only if there is no more padding than packet, and room for
the frame or for its header and 8 bytes. -/
theorem create_skb_keeps_frame_iff (hnew : skb.IsNew)
    (hchecks : rxMpduChecks mvm.family rxb = true) :
    KeepsFrame csumPartial mvm rxb skb cryptLen ↔
      rxb.padLen ≤ rxb.mpduLen.toNat ∧
        (rxb.mpduLen.toNat - rxb.padLen - strippedLen mvm rxb rxb.mpduLen ≤ skb.tailroom ∨
          headerLen rxb (rxb.hdr mvm.family) cryptLen + 8 ≤ skb.tailroom) := by
  rcases Nat.lt_or_ge rxb.mpduLen.toNat rxb.padLen with hlt | hpad
  · exact iff_of_false (not_keepsFrame_of_lt csumPartial mvm rxb skb cryptLen hlt) fun h =>
      Nat.not_le.2 hlt h.1
  · rw [and_iff_right hpad, ← toNat_reducedLen mvm rxb hpad]
    refine ⟨?_, keepsFrame_of_room csumPartial mvm rxb skb cryptLen hnew hchecks hpad⟩
    rintro ⟨ret, skb', rxb', hres, -⟩
    by_contra hno
    rw [not_or, Nat.not_le, Nat.not_le] at hno
    rw [createSkb_eq_none csumPartial mvm rxb skb _ cryptLen hno.1 hno.2] at hres
    cases hres

/-- A page with a padded MPDU of `len` bytes behind a descriptor of 48: a data frame. -/
def paddedPage (len : UInt8) : Memory := fun a =>
  if a = 0 then 52 + len else if a = 8 then len else if a = 11 then 0x20
  else if a = 56 then 0x08 else 0

theorem header_le_paddedPage :
    4 ≤ (BitVec.ofNat 32 ((paddedPage 40).readLe 0 4) &&& 0x3fff#32).toNat ∧
      4 ≤ (BitVec.ofNat 32 ((paddedPage 0).readLe 0 4) &&& 0x3fff#32).toNat := by decide

def paddedPacket : RxPage := ⟨paddedPage 40, 0, false, 4096, header_le_paddedPage.1⟩

/-- There is padding, and nothing else. -/
def emptyPacket : RxPage := ⟨paddedPage 0, 0, false, 4096, header_le_paddedPage.2⟩

/-- The skb for a padded frame. -/
def newSkb : Skb := ⟨0, 126, 0, [], none, 0, .checksumNone, 0⟩

theorem create_skb_keeps_frame_padded :
    KeepsFrame (fun _ csum => csum) ⟨.f22000, false⟩ paddedPacket newSkb 8 :=
  (create_skb_keeps_frame_iff _ _ _ _ _ (by decide) (by decide)).2 ⟨by decide, .inl (by decide)⟩

/-- With padding in an empty MPDU the frame reaches far out of the packet. -/
theorem not_keepsFrame_empty :
    rxMpduChecks .f22000 emptyPacket = true ∧ newSkb.IsNew ∧
      ¬ KeepsFrame (fun _ csum => csum) ⟨.f22000, false⟩ emptyPacket newSkb 0 ∧
      (iwlMvmCreateSkb (fun _ csum => csum) ⟨.f22000, false⟩ emptyPacket newSkb 56 0 0).map
        (fun r => (r.1, r.2.1.frag)) = some (0, some (90, 65502)) :=
  ⟨by decide, by decide, not_keepsFrame_of_lt _ _ _ _ _ (by decide), by decide⟩

end Keep

end Iax.Mvm
