import Iax.Lib.RingQueue
import Mathlib.Data.Nat.Bitwise

/-!
# Transmit queues

A transmit queue (`queue/tx.c`, `queue/tx.h`) is a ring of `max_tfd_queue_size` descriptors of which
at most `n_window` are in use; the frames stand in an array of `n_window` entries. A frame that does
not fit waits in `overflow_q`, and `iwl_txq_reclaim` sends these frames when the firmware has given
back enough descriptors.

* `iwlTxqInit`, `iwlTxqGen2Tx`, `iwlTxqReclaim`, `iwlTxqGen2Unmap`, `iwlTransTxqFreezeTimer`: the
  functions of the source, on a transport with one data queue. `iwl_txq_reclaim` drops its lock
  while it transmits the frames of `overflow_q`, so it is cut there: `iwlTxqReclaim` goes up to that
  place, and `endOverflow` is the rest.
-/

namespace Iax.Queue

/-! ## State -/

/-- `struct timer_list`, as far as the watchdog of a queue uses it. -/
structure TimerList where
  expires : ℕ
  pending : Bool
  deriving DecidableEq

/-- `struct iwl_txq` of a data queue; `entries` are the `skb` fields of its entries, and a frame
stands for an skb with its device command. -/
structure Txq (F : Type*) where
  id : ℕ
  nWindow : ℕ
  lowMark : ℕ
  highMark : ℕ
  writePtr : ℕ
  readPtr : ℕ
  entries : ℕ → Option F
  overflowQ : List F
  overflowTx : Bool
  wdTimeout : ℕ
  frozen : Bool
  frozenExpiryRemainder : ℕ
  stuckTimer : TimerList

/-- What the transport tells the op mode. -/
inductive OpModeCall (F : Type*)
  | queueFull
  | queueNotFull
  | freeSkb (skb : F)
  deriving DecidableEq

/-- The transport with one data queue and the bits of that queue in `queue_used` and
`queue_stopped`. -/
structure Trans (F : Type*) where
  maxTfdQueueSize : ℕ
  queueUsed : Bool
  queueStopped : Bool
  txq : Txq F
  opMode : List (OpModeCall F)

/-- A queue as it is allocated. -/
def Txq.blank {F : Type*} (id wdTimeout : ℕ) : Txq F :=
  ⟨id, 0, 0, 0, 0, 0, fun _ => none, [], false, wdTimeout, false, 0, ⟨0, false⟩⟩

/-- `iwl_queue_init` and `iwl_txq_init`: `none` when one of the sizes is refused (`-EINVAL`). -/
def iwlTxqInit {F : Type*} (maxTfdQueueSize slotsNum : ℕ) (txq : Txq F) : Option (Txq F) :=
  if maxTfdQueueSize &&& (maxTfdQueueSize - 1) ≠ 0 then none
  else if slotsNum = 0 ∨ slotsNum &&& (slotsNum - 1) ≠ 0 then none
  else some { txq with
    nWindow := slotsNum
    lowMark := if slotsNum / 4 < 4 then 4 else slotsNum / 4
    highMark := if slotsNum / 8 < 2 then 2 else slotsNum / 8
    writePtr := 0
    readPtr := 0
    overflowQ := [] }

def einval : ℤ := 22

def enomem : ℤ := 12

def eio : ℤ := 5

/-- `IWL_MAX_TVQM_QUEUES`. -/
def iwlMaxTvqmQueues : ℕ := 512

/-! ## Indices -/

namespace Trans

variable {F : Type*} (trans : Trans F)

/-- `iwl_txq_get_cmd_index`, a `u16`. -/
def iwlTxqGetCmdIndex (index : ℕ) : ℕ := (index &&& (trans.txq.nWindow - 1)) % 2 ^ 16

/-- `iwl_txq_inc_wrap`. -/
def iwlTxqIncWrap (index : ℕ) : ℕ := (index + 1) &&& (trans.maxTfdQueueSize - 1)

/-- `iwl_txq_dec_wrap`, on 32 bits. -/
def iwlTxqDecWrap (index : ℕ) : ℕ := (index + (2 ^ 32 - 1)) % 2 ^ 32 &&& (trans.maxTfdQueueSize - 1)

/-- `iwl_txq_used`. -/
def iwlTxqUsed (i : ℕ) : Prop :=
  let index := trans.iwlTxqGetCmdIndex i
  let r := trans.iwlTxqGetCmdIndex trans.txq.readPtr
  let w := trans.iwlTxqGetCmdIndex trans.txq.writePtr
  if r ≤ w then r ≤ index ∧ index < w else ¬(index < r ∧ w ≤ index)

instance (i : ℕ) : Decidable (trans.iwlTxqUsed i) := by
  unfold iwlTxqUsed
  infer_instance

/-- `iwl_txq_space`. -/
def iwlTxqSpace : ℕ :=
  let max := if trans.txq.nWindow < trans.maxTfdQueueSize then trans.txq.nWindow
    else trans.maxTfdQueueSize - 1
  let used := (trans.txq.writePtr + 2 ^ 32 - trans.txq.readPtr) % 2 ^ 32 &&&
    (trans.maxTfdQueueSize - 1)
  if max < used then 0 else max - used

/-! ## Stopping and waking -/

/-- `iwl_txq_stop`. -/
def iwlTxqStop : Trans F :=
  if trans.queueStopped then trans
  else { trans with queueStopped := true, opMode := trans.opMode ++ [.queueFull] }

/-- `iwl_wake_queue`. -/
def iwlWakeQueue : Trans F :=
  if trans.queueStopped then
    { trans with queueStopped := false, opMode := trans.opMode ++ [.queueNotFull] }
  else trans

/-! ## Transmission -/

def setEntry (idx : ℕ) (skb : Option F) : Trans F :=
  { trans with txq.entries := Function.update trans.txq.entries idx skb }

/-- `mod_timer`. -/
def modTimer (expires : ℕ) : Trans F :=
  { trans with txq.stuckTimer := ⟨expires, true⟩ }

/-- `del_timer`. -/
def delTimer : Trans F :=
  { trans with txq.stuckTimer.pending := false }

end Trans

/-- A frame to transmit, with what the rest of the kernel answers: `fwAlive` when the firmware runs
and has reported no error, `linear` when the skb has few enough fragments or can be linearised, and
`mapped` when its descriptor can be built. -/
structure TxRequest (F : Type*) where
  skb : F
  fwAlive : Bool
  linear : Bool
  mapped : Bool

namespace Trans

variable {F : Type*} (trans : Trans F)

/-- The frame goes on the ring. -/
def txOnRing (r : TxRequest F) (jiffies : ℕ) : ℤ × Trans F :=
  let trans := trans.setEntry (trans.iwlTxqGetCmdIndex trans.txq.writePtr) (some r.skb)
  if !r.mapped then (-1, trans)
  else
    let trans := if trans.txq.readPtr = trans.txq.writePtr ∧ trans.txq.wdTimeout ≠ 0 then
      trans.modTimer (jiffies + trans.txq.wdTimeout) else trans
    (0, { trans with txq.writePtr := trans.iwlTxqIncWrap trans.txq.writePtr })

/-- `iwl_txq_gen2_tx`. -/
def iwlTxqGen2Tx (r : TxRequest F) (jiffies : ℕ) : ℤ × Trans F :=
  if iwlMaxTvqmQueues ≤ trans.txq.id then (-einval, trans)
  else if !trans.queueUsed then (-einval, trans)
  else if !r.linear then (-enomem, trans)
  else if trans.iwlTxqSpace < trans.txq.highMark then
    let trans := trans.iwlTxqStop
    if trans.iwlTxqSpace < 3 then
      (0, { trans with txq.overflowQ := trans.txq.overflowQ ++ [r.skb] })
    else trans.txOnRing r jiffies
  else trans.txOnRing r jiffies

/-- `iwl_trans_tx`. -/
def iwlTransTx (r : TxRequest F) (jiffies : ℕ) : ℤ × Trans F :=
  if !r.fwAlive then (-eio, trans) else trans.iwlTxqGen2Tx r jiffies

/-! ## Reclaim -/

/-- `iwl_txq_free_tfd` and `iwl_txq_gen2_free_tfd`: a frame that still stands in the entry is freed.
-/
def iwlTxqFreeTfd : Trans F :=
  let idx := trans.iwlTxqGetCmdIndex trans.txq.readPtr
  match trans.txq.entries idx with
  | none => trans
  | some skb => { trans.setEntry idx none with opMode := trans.opMode ++ [.freeSkb skb] }

/-- `txq->read_ptr = iwl_txq_inc_wrap(trans, txq->read_ptr)`. -/
def incReadPtr : Trans F :=
  { trans with txq.readPtr := trans.iwlTxqIncWrap trans.txq.readPtr }

/-- `iwl_txq_progress`. -/
def iwlTxqProgress (jiffies : ℕ) : Trans F :=
  if trans.txq.wdTimeout = 0 then trans
  else if trans.txq.frozen then trans
  else if trans.txq.readPtr = trans.txq.writePtr then trans.delTimer
  else trans.modTimer (jiffies + trans.txq.wdTimeout)

/-- The body of the loop of `iwl_txq_reclaim`, which takes the frame at `readPtr` out of its entry.
-/
def reclaimEntry (readPtr : ℕ) (skbs : List F) : Trans F × List F :=
  match trans.txq.entries readPtr with
  | none => (trans, skbs)
  | some skb => ((trans.setEntry readPtr none).iwlTxqFreeTfd, skbs ++ [skb])

/-- The loop of `iwl_txq_reclaim`, `none` when `fuel` turns are not enough. -/
def reclaimLoop (tfdNum : ℕ) : ℕ → Trans F → ℕ → List F → Option (Trans F × List F)
  | fuel, trans, readPtr, skbs =>
    if readPtr = tfdNum then some (trans, skbs)
    else match fuel with
      | 0 => none
      | fuel + 1 =>
        let (trans, skbs) := trans.reclaimEntry readPtr skbs
        let trans := trans.incReadPtr
        reclaimLoop tfdNum fuel trans (trans.iwlTxqGetCmdIndex trans.txq.readPtr) skbs

/-- What `iwl_txq_reclaim` leaves: the frames that it hands back, and `overflow_skbs` when it goes
on to transmit these. -/
structure Reclaimed (F : Type*) where
  trans : Trans F
  skbs : List F
  overflowSkbs : Option (List F)

/-- The end of `iwl_txq_reclaim` up to the place where it drops the lock. -/
def spliceOverflow (skbs : List F) : Reclaimed F :=
  if trans.txq.lowMark < trans.iwlTxqSpace ∧ trans.queueStopped then
    ⟨{ trans with txq.overflowQ := [], txq.overflowTx := true }, skbs, some trans.txq.overflowQ⟩
  else ⟨trans, skbs, none⟩

/-- `iwl_txq_reclaim` up to the place where it drops the lock. -/
def iwlTxqReclaim (ssn jiffies : ℕ) (skbs : List F) : Option (Reclaimed F) :=
  let tfdNum := trans.iwlTxqGetCmdIndex ssn
  let readPtr := trans.iwlTxqGetCmdIndex trans.txq.readPtr
  if !trans.queueUsed then some ⟨trans, skbs, none⟩
  else if readPtr = tfdNum then some ⟨trans, skbs, none⟩
  else if ¬trans.iwlTxqUsed (trans.iwlTxqDecWrap tfdNum) then some ⟨trans, skbs, none⟩
  else if skbs ≠ [] then some ⟨trans, skbs, none⟩
  else (reclaimLoop tfdNum trans.txq.nWindow trans readPtr skbs).map fun (trans, skbs) =>
    (trans.iwlTxqProgress jiffies).spliceOverflow skbs

/-- `iwl_txq_reclaim` after the last frame of `overflow_skbs`. -/
def endOverflow : Trans F :=
  let trans := if trans.txq.lowMark < trans.iwlTxqSpace then trans.iwlWakeQueue else trans
  { trans with txq.overflowTx := false }

/-! ## Teardown and the watchdog -/

/-- The loop of `iwl_txq_gen2_unmap`, `none` when `fuel` turns are not enough. -/
def unmapLoop : ℕ → Trans F → Option (Trans F)
  | fuel, trans =>
    if trans.txq.writePtr = trans.txq.readPtr then some trans
    else match fuel with
      | 0 => none
      | fuel + 1 => unmapLoop fuel trans.iwlTxqFreeTfd.incReadPtr

/-- `iwl_txq_gen2_unmap`. -/
def iwlTxqGen2Unmap : Option (Trans F) :=
  (unmapLoop trans.maxTfdQueueSize trans).map fun trans =>
    iwlWakeQueue { trans with
      txq.overflowQ := []
      opMode := trans.opMode ++ trans.txq.overflowQ.map .freeSkb }

/-- `iwl_trans_txq_freeze_timer`, for this queue. -/
def iwlTransTxqFreezeTimer (freeze : Bool) (now : ℕ) : Trans F :=
  if trans.txq.frozen = freeze then trans
  else
    let trans := { trans with txq.frozen := freeze }
    if trans.txq.readPtr = trans.txq.writePtr then trans
    else if freeze then
      if trans.txq.stuckTimer.expires < now then trans
      else delTimer { trans with
        txq.frozenExpiryRemainder := trans.txq.stuckTimer.expires - now }
    else trans.modTimer (now + trans.txq.frozenExpiryRemainder)

end Trans

end Iax.Queue
