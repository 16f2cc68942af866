import Iax.Lib.Lts
import Iax.Lib.SlotWindow
import Iax.Mvm.TxCmd

/-!
# The reorder buffer of the mvm driver

The frames of a block ack session may come in any order. `iwl_mvm_reorder` (`mvm/rxmq.c`) stores
what comes early and passes it on when the head of the window, `head_sn`, comes to it: the firmware
says with each frame and in notifications up to where (`nssn`), and after a time without progress
the timer goes on by itself. This is the buffer of one session and one receive queue.

Sequence numbers are words of 12 bits. The code keeps them in wider words, but each is masked to
its 12 bits before it is compared, stored or used as an index.

* `iwlMvmReleaseFrames`, `iwlMvmReorderTimerExpired`, `iwlMvmReorder`: the functions of the source.
* `reorderStep`: the events of a session.
-/

namespace Iax.Mvm

/-! ## Sequence numbers -/

/-- `ieee80211_sn_less`. -/
def snLess (sn1 sn2 : BitVec 12) : Bool := decide (2048 < (sn1 - sn2).toNat)

/-- `iwl_mvm_is_sn_less`. -/
def iwlMvmIsSnLess (sn1 sn2 : BitVec 12) (bufferSize : ℕ) : Bool :=
  snLess sn1 sn2 && !snLess sn1 (sn2 - BitVec.ofNat 12 bufferSize)

/-! ## Frames -/

/-- What `iwl_mvm_reorder` reads of a frame: its descriptor, its header and the stations that its
sender is known as, `none` when there is no station yet. -/
structure RxMpdu where
  reorder : BitVec 32
  macFlags2 : BitVec 8
  amsduInfo : BitVec 8
  deviceTimestamp : BitVec 32
  frameControl : BitVec 16
  multicast : Bool
  tid : ℕ
  staMask : Option (BitVec 32)
  payload : ℕ
  deriving DecidableEq

def iwlRxReorderDataInvalidBaid : BitVec 7 := 0x7f

namespace RxMpdu

variable (p : RxMpdu)

def nssn : BitVec 12 := (p.reorder &&& 0x00000fff).setWidth 12

def sn : BitVec 12 := ((p.reorder &&& 0x00fff000) >>> 12).setWidth 12

def baid : BitVec 7 := ((p.reorder &&& 0x7f000000) >>> 24).setWidth 7

def baOldSn : Bool := decide (p.reorder &&& 0x80000000 ≠ 0)

def amsdu : Bool := decide (p.macFlags2 &&& 0x40 ≠ 0)

def lastSubframe : Bool := decide (p.amsduInfo &&& 0x80 ≠ 0)

def subFrameIdx : BitVec 8 := p.amsduInfo &&& 0x7f

/-- A frame of its own, or the last of its A-MSDU. -/
def closes : Bool := !p.amsdu || p.lastSubframe

end RxMpdu

/-- `ieee80211_is_data_present`. -/
def isDataPresent (fc : BitVec 16) : Bool := fc &&& 0x004c#16 == 0x0008#16

/-! ## The buffer -/

/-- `struct iwl_mvm_baid_data`. The buffer size is what mac80211 agreed on with the peer, at most
`IEEE80211_MAX_AMPDU_BUF_EHT`. -/
structure BaidData where
  baid : BitVec 7
  tid : ℕ
  staMask : BitVec 32
  bufSize : ℕ
  bufSize_pos : 0 < bufSize
  bufSize_le : bufSize ≤ 0x400
  /-- `RX_REORDER_BUF_TIMEOUT_MQ`. -/
  timeoutMq : BitVec 64

/-- The entry that a sequence number has. -/
def BaidData.slot (data : BaidData) (sn : BitVec 12) : ℕ := sn.toNat % data.bufSize

/-- `struct _iwl_mvm_reorder_buf_entry`. -/
structure ReorderEntry where
  frames : List RxMpdu
  reorderTime : BitVec 64

/-- What the buffer tells the others. -/
inductive ReorderNotice
  | syncNssn (nssn : BitVec 12)
  | stopRxBaSession
  | frameTimeout
  deriving DecidableEq

/-- `struct iwl_mvm_reorder_buffer` with its entries. The timer is the time it is set to. `queued`
are the frames that were ever stored, and `passed` those that the buffer handed to
`iwl_mvm_pass_packet_to_mac80211`, which drops those among them that fail its check of the packet
number. -/
structure ReorderBuffer where
  headSn : BitVec 12
  numStored : BitVec 16
  lastAmsdu : BitVec 12
  lastSubIndex : BitVec 8
  timer : Option (BitVec 64)
  removed : Bool
  valid : Bool
  consecOldsnDrops : BitVec 32
  consecOldsnAmpduGp2 : BitVec 32
  consecOldsnPrevDrop : Bool
  entries : ℕ → ReorderEntry
  queued : List RxMpdu
  passed : List RxMpdu
  notices : List ReorderNotice

namespace ReorderBuffer

/-- `iwl_mvm_init_reorder_buffer`. -/
def init (ssn : BitVec 12) : ReorderBuffer where
  headSn := ssn
  numStored := 0
  lastAmsdu := 0
  lastSubIndex := 0
  timer := none
  removed := false
  valid := false
  consecOldsnDrops := 0
  consecOldsnAmpduGp2 := 0
  consecOldsnPrevDrop := false
  entries _ := ⟨[], 0⟩
  queued := []
  passed := []
  notices := []

variable (buf : ReorderBuffer)

def setFrames (i : ℕ) (frames : List RxMpdu) : ReorderBuffer :=
  { buf with entries := Function.update buf.entries i { buf.entries i with frames := frames } }

def notify (n : ReorderNotice) : ReorderBuffer := { buf with notices := buf.notices ++ [n] }

/-- `iwl_mvm_sync_nssn` when a sequence number is at one of the two marks. -/
def syncAt (mark nssn : BitVec 12) : ReorderBuffer :=
  if mark = 2048 ∨ mark = 0 then buf.notify (.syncNssn nssn) else buf

end ReorderBuffer

/-! ## Release -/

/-- The frames of an entry are handed to `iwl_mvm_pass_packet_to_mac80211`. Its check of the packet
number comes after this point. -/
def releaseEntry (data : BaidData) (sendRssSync : Bool) (ssn : BitVec 12) (buf : ReorderBuffer) :
    ReorderBuffer :=
  let i := data.slot ssn
  let buf := if sendRssSync then buf.syncAt (ssn + 1) (ssn + 1) else buf
  let frames := (buf.entries i).frames
  { buf.setFrames i [] with
    passed := buf.passed ++ frames
    numStored := buf.numStored - BitVec.ofNat 16 frames.length }

/-- The loop of `iwl_mvm_release_frames`, with at most `n` rounds. -/
def releaseLoop (data : BaidData) (nssn : BitVec 12) (sendRssSync : Bool) :
    ℕ → BitVec 12 → ReorderBuffer → ReorderBuffer
  | 0, _, buf => buf
  | n + 1, ssn, buf =>
    if iwlMvmIsSnLess ssn nssn data.bufSize then
      releaseLoop data nssn sendRssSync n (ssn + 1) (releaseEntry data sendRssSync ssn buf)
    else buf

/-- The first entry from the head on that has frames. -/
def nextStored (data : BaidData) (buf : ReorderBuffer) : Option ℕ :=
  ((List.range data.bufSize).map fun i => (buf.headSn.toNat + i) % data.bufSize).find?
    fun i => !(buf.entries i).frames.isEmpty

/-- `set_timer` of `iwl_mvm_release_frames`. -/
def setTimer (data : BaidData) (buf : ReorderBuffer) : ReorderBuffer :=
  if buf.numStored ≠ 0 ∧ buf.removed = false then
    { buf with timer := (nextStored data buf).map fun i =>
        (buf.entries i).reorderTime + 1 + data.timeoutMq }
  else { buf with timer := none }

/-- `iwl_mvm_release_frames`. -/
def iwlMvmReleaseFrames (data : BaidData) (buf : ReorderBuffer) (nssn : BitVec 12)
    (sendRssSync fromRssSync : Bool) : ReorderBuffer :=
  let ssn := buf.headSn
  if fromRssSync && snLess nssn ssn then setTimer data buf
  else if iwlMvmIsSnLess nssn ssn data.bufSize then setTimer data buf
  else
    let buf := releaseLoop data nssn sendRssSync (nssn - ssn).toNat ssn buf
    setTimer data { buf with headSn := nssn }

/-! ## The timer -/

/-- `time_after`. -/
def timeAfter (a b : BitVec 64) : Bool := (b - a).msb

/-- The loop of `iwl_mvm_reorder_timer_expired`: the last round that found an expired frame, and the
entry that the loop stopped at. -/
def expiredScan (data : BaidData) (buf : ReorderBuffer) (jiffies : BitVec 64) :
    List ℕ → Bool → Option ℕ → ℕ → Option ℕ × ℕ
  | [], _, last, index => (last, index)
  | i :: is, cont, last, _ =>
    let index := (buf.headSn.toNat + i) % data.bufSize
    if (buf.entries index).frames.isEmpty then expiredScan data buf jiffies is false last index
    else if !cont && !timeAfter jiffies ((buf.entries index).reorderTime + data.timeoutMq) then
      (last, index)
    else expiredScan data buf jiffies is true (some i) index

/-- `iwl_mvm_reorder_timer_expired`. -/
def iwlMvmReorderTimerExpired (data : BaidData) (buf : ReorderBuffer) (jiffies : BitVec 64) :
    ReorderBuffer :=
  if buf.numStored = 0 ∨ buf.removed = true then buf
  else
    match expiredScan data buf jiffies (List.range data.bufSize) false none 0 with
    | (some i, _) =>
      let sn := buf.headSn + BitVec.ofNat 12 (i + 1)
      iwlMvmReleaseFrames data (buf.notify .frameTimeout) sn true false
    | (none, index) =>
      { buf with timer := some ((buf.entries index).reorderTime + 1 + data.timeoutMq) }

/-- `iwl_mvm_del_ba`. -/
def iwlMvmDelBa (data : BaidData) (buf : ReorderBuffer) : ReorderBuffer :=
  { iwlMvmReleaseFrames data buf (buf.headSn + BitVec.ofNat 12 data.bufSize) false false with
    timer := none }

/-! ## Frames that arrive -/

def iwlMvmAmpduConsecDropsDelba : BitVec 32 := 20

/-- `iwl_mvm_oldsn_workaround`. -/
def iwlMvmOldsnWorkaround (buf : ReorderBuffer) (baOldSn : Bool) (gp2 : BitVec 32) :
    ReorderBuffer :=
  if gp2 = buf.consecOldsnAmpduGp2 ∧ buf.consecOldsnPrevDrop = true then buf
  else
    let drops := if gp2 ≠ buf.consecOldsnAmpduGp2 ∧ buf.consecOldsnPrevDrop = false then 0
      else buf.consecOldsnDrops
    let buf := { buf with consecOldsnDrops := drops, consecOldsnAmpduGp2 := gp2 }
    if baOldSn = false then buf
    else if drops + 1 = iwlMvmAmpduConsecDropsDelba then
      { buf.notify .stopRxBaSession with consecOldsnPrevDrop := false, consecOldsnDrops := 0 }
    else { buf with consecOldsnPrevDrop := true, consecOldsnDrops := drops + 1 }

/-- A significant jump of `nssn`, or a frame beyond the window. -/
def jumps (data : BaidData) (head sn nssn : BitVec 12) : Bool :=
  !iwlMvmIsSnLess nssn (head + BitVec.ofNat 12 data.bufSize) data.bufSize ||
    !snLess sn (head + BitVec.ofNat 12 data.bufSize)

def minSn (sn nssn : BitVec 12) : BitVec 12 := if snLess sn nssn then sn else nssn

/-- Whether a frame is stored already, by the last frame of its entry. -/
def isRetransmission (buf : ReorderBuffer) (i : ℕ) (p : RxMpdu) : Bool :=
  !(buf.entries i).frames.isEmpty &&
    (!p.amsdu || decide (p.sn ≠ buf.lastAmsdu) || decide (p.subFrameIdx.toNat ≤
      buf.lastSubIndex.toNat))

/-- A frame is put into the reorder buffer. -/
def storeFrame (data : BaidData) (buf : ReorderBuffer) (p : RxMpdu) (jiffies : BitVec 64) :
    ReorderBuffer :=
  let i := data.slot p.sn
  { buf with
    entries := Function.update buf.entries i ⟨(buf.entries i).frames ++ [p], jiffies⟩
    numStored := buf.numStored + 1
    queued := buf.queued ++ [p]
    lastAmsdu := if p.amsdu then p.sn else buf.lastAmsdu
    lastSubIndex := if p.amsdu then p.subFrameIdx else buf.lastSubIndex }

/-- The part of `iwl_mvm_reorder` after the adjustment of the window. -/
def placeFrame (data : BaidData) (buf : ReorderBuffer) (p : RxMpdu) (jiffies : BitVec 64) :
    Bool × ReorderBuffer :=
  if snLess p.sn buf.headSn then (true, buf)
  else if buf.numStored = 0 ∧ snLess p.sn p.nssn = true then
    (false, if iwlMvmIsSnLess buf.headSn p.nssn data.bufSize && p.closes then
      { buf.syncAt p.sn p.sn with headSn := p.nssn } else buf)
  else if buf.numStored = 0 ∧ p.sn = buf.headSn then
    (false, if p.closes then { buf.syncAt p.sn p.sn with headSn := buf.headSn + 1 } else buf)
  else if isRetransmission buf (data.slot p.sn) p then (true, buf)
  else
    let buf := storeFrame data buf p jiffies
    (true, if p.closes then iwlMvmReleaseFrames data buf p.nssn true false else buf)

/-- The part of `iwl_mvm_reorder` that holds the lock of the buffer. -/
def reorderLocked (data : BaidData) (buf : ReorderBuffer) (p : RxMpdu) (jiffies : BitVec 64) :
    Bool × ReorderBuffer :=
  if buf.valid = false ∧ p.baOldSn = true then (false, buf)
  else
    let buf := { buf with valid := true }
    if isBackReq p.frameControl then (true, iwlMvmReleaseFrames data buf p.nssn false false)
    else
      let buf := if jumps data buf.headSn p.sn p.nssn then
        iwlMvmReleaseFrames data buf (minSn p.sn p.nssn) true false else buf
      placeFrame data (iwlMvmOldsnWorkaround buf p.baOldSn p.deviceTimestamp) p jiffies

/-- The checks of `iwl_mvm_reorder` that come before the buffer. Frames of other sessions have
buffers of their own. -/
def reachesBuffer (data : BaidData) (p : RxMpdu) : Bool :=
  p.baid ≠ iwlRxReorderDataInvalidBaid &&
    p.staMask.any fun staMask =>
      (isBackReq p.frameControl || (isDataQos p.frameControl && !p.multicast)) &&
        isDataPresent p.frameControl && p.baid = data.baid && p.tid = data.tid &&
        staMask &&& data.staMask ≠ 0

/-- `iwl_mvm_reorder`: whether the frame was buffered or dropped, and the buffer after it. -/
def iwlMvmReorder (data : BaidData) (buf : ReorderBuffer) (p : RxMpdu) (jiffies : BitVec 64) :
    Bool × ReorderBuffer :=
  if reachesBuffer data p then reorderLocked data buf p jiffies else (false, buf)

/-! ## Runs -/

inductive ReorderEvent
  | mpdu (p : RxMpdu) (jiffies : BitVec 64)
  /-- `iwl_mvm_rx_frame_release` and `iwl_mvm_rx_bar_frame_release`. -/
  | frameRelease (nssn : BitVec 12)
  /-- `iwl_mvm_nssn_sync`. -/
  | nssnSync (nssn : BitVec 12)
  | timerExpired (jiffies : BitVec 64)
  | delBa

/-- The buffer after an event. -/
def reorderNext (data : BaidData) (buf : ReorderBuffer) : ReorderEvent → ReorderBuffer
  | .mpdu p jiffies => (iwlMvmReorder data buf p jiffies).2
  | .frameRelease nssn => iwlMvmReleaseFrames data buf nssn false false
  | .nssnSync nssn => iwlMvmReleaseFrames data buf nssn false true
  | .timerExpired jiffies => iwlMvmReorderTimerExpired data buf jiffies
  | .delBa => iwlMvmDelBa data buf

def reorderStep (data : BaidData) (buf : ReorderBuffer) (e : ReorderEvent) : Option ReorderBuffer :=
  some (reorderNext data buf e)

end Iax.Mvm
