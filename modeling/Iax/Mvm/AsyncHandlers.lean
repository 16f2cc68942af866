import Iax.Lib.Ledger
import Iax.Mvm.CsiSlots

/-!
# The async handlers of the mvm driver

A CSI notification is not handled where it is received. `iwl_mvm_rx_common` takes a reference to its
page and puts an entry on `mvm->async_handlers_list`; the work item `iwl_mvm_async_handlers_wk`
takes the whole list over and calls the handlers one by one. Meanwhile notifications and MPDUs are
received, and of an MPDU `flq_mvm_record` keeps the descriptor (`ops.c`, `flq-mvm.c`).

* `asyncStep` is one step of the receive path, of the worker or of
  `iwl_mvm_async_handlers_purge`; a run is a list of such steps in any order.
* `handlerPageOps` are the page operations of the handlers, beside the functions of
  `Iax.Mvm.CsiSlots`, which do the rest.
* `asyncStep_cases` says all that a step can do.

The worker holds `mvm->mutex` while it handles an entry, and so does the caller of purge; here purge
may come at any time.
-/

namespace Iax.Mvm

open Bytes Ledger

/-! ## Pages -/

/-- What holds a reference to a page: an entry of the list, by its number, or a CSI slot. -/
inductive PageHolder
  | entry (num : ℕ)
  | slot (i : Fin csiDataEntriesSize)
  deriving DecidableEq

/-- `get_page` and `__free_pages`, with the field that the page is kept in. -/
abbrev PageOp := Ledger.Op PageHolder ℕ

/-- The pages that the slots hold. -/
def slotPages (m : IwlMvm) (i : Fin csiDataEntriesSize) : Option ℕ :=
  (m.csiDataEntries i).map RxCmdBuffer.page

/-- The page operations of `iwl_mvm_csi_free_pages`. -/
def freePagesOps (m : IwlMvm) : List PageOp :=
  (List.finRange csiDataEntriesSize).filterMap fun i => (slotPages m i).map (.drop (.slot i))

/-- The page operations of `iwl_mvm_csi_steal`: `rxb_steal_page` unless the slot is taken. -/
def stealPageOps (m : IwlMvm) (idx : Fin csiDataEntriesSize) (rxb : RxCmdBuffer) : List PageOp :=
  if (m.csiDataEntries idx).isSome then freePagesOps m else [.take (.slot idx) rxb.page]

/-- The page operations of `iwl_mvm_csi_complete`: every path ends with `iwl_mvm_csi_free_pages`. -/
def completePageOps (m : IwlMvm) : List PageOp := freePagesOps m

/-- The check of `iwl_mvm_rx_csi_chunk` keeps the index inside the array. -/
theorem idx_lt_size {idx : ℕ} (h : ¬ csiDataEntriesSize - 1 ≤ idx) : idx < csiDataEntriesSize := by
  omega

/-- The page operations of `iwl_mvm_rx_csi_chunk`. -/
def chunkPageOps (m : IwlMvm) (rxb : RxCmdBuffer) : List PageOp :=
  match csiChunkNumIdx m.csiNotif rxb.pkt.chunk.ctl with
  | none => []
  | some (num, idx) =>
    if h : csiDataEntriesSize - 1 ≤ idx then []
    else
      stealPageOps m ⟨idx, idx_lt_size h⟩ rxb ++
        if num = idx then completePageOps (iwlMvmCsiSteal m ⟨idx, idx_lt_size h⟩ rxb) else []

theorem size_pos : 0 < csiDataEntriesSize := by decide

/-- The page operations of a handler. -/
def handlerPageOps (m : IwlMvm) : CsiNotif → List PageOp
  | .header rxb => stealPageOps m ⟨0, size_pos⟩ rxb
  | .chunk rxb => chunkPageOps m rxb

/-! ## The state -/

/-- The buffer of a notification. -/
def CsiNotif.rxb : CsiNotif → RxCmdBuffer
  | .header rxb => rxb
  | .chunk rxb => rxb

/-- `min_size` in `iwl_mvm_rx_handlers`. -/
def CsiNotif.minSize : CsiNotif → ℕ
  | .header _ => 0
  | .chunk _ => sizeofCsiChunkNotification

/-- `struct iwl_async_handler_entry`; `fn` and `context` are those of the notification. `num` counts
the entries that were ever queued, and `lastMpdu` is the MPDU received last before the notification
arrived; they are not fields of the source. -/
structure AsyncEntry where
  num : ℕ
  notif : CsiNotif
  lastMpdu : Option RxPacket
  deriving DecidableEq

/-- `sizeof(struct iwl_rx_mpdu_desc)`. -/
def sizeofRxMpduDesc : ℕ := 64

/-- `flq_mvm_record`: the descriptor is copied, whatever the device's version of it is. -/
def flqMvmRecord (pkt : RxPacket) : FlqIwlMvmRes where
  desc := pkt.data.take sizeofRxMpduDesc

/-- The driver. `localList` is the list of the running worker, `handled` says that the handler of
its first entry has been called, and `workPending` that the work item is scheduled. The last fields
are not in the source: what was queued and what was handled, the page operations, the MPDU received
last, the entry whose buffer went to slot 0, and the events with the entry of their header. -/
structure AsyncRx where
  mvm : IwlMvm
  flqRes : FlqIwlMvmRes
  asyncHandlersList : List AsyncEntry
  localList : List AsyncEntry
  handled : Bool
  running : Bool
  workPending : Bool
  queuedLog : List CsiNotif
  handledLog : List AsyncEntry
  pageOps : List PageOp
  lastMpdu : Option RxPacket
  hdrEntry : Option AsyncEntry
  sent : List (CsiEvent × Option AsyncEntry)

/-- The driver after loading. -/
def AsyncRx.init (csiNotif : ℕ) : AsyncRx where
  mvm := .init csiNotif
  flqRes := { desc := List.replicate sizeofRxMpduDesc 0 }
  asyncHandlersList := []
  localList := []
  handled := false
  running := false
  workPending := false
  queuedLog := []
  handledLog := []
  pageOps := []
  lastMpdu := none
  hdrEntry := none
  sent := []

/-! ## The steps -/

/-- What can happen. -/
inductive AsyncAct
  /-- A CSI notification is received; `alloc` says whether `kzalloc` succeeds. -/
  | rx (n : CsiNotif) (alloc : Bool)
  /-- An MPDU is received. -/
  | mpdu (pkt : RxPacket)
  /-- `iwl_mvm_async_handlers_purge`. -/
  | purge
  /-- The worker begins: it takes the list over. -/
  | start
  /-- The worker calls the handler of its first entry, at the given time. -/
  | handle (unixTs : BitVec 64)
  /-- The worker frees the entry. -/
  | free
  /-- The worker ends. -/
  | finish

/-- The notification is queued: its page is stolen and the work item scheduled. -/
def queueEntry (s : AsyncRx) (n : CsiNotif) : AsyncRx :=
  { s with
    asyncHandlersList := s.asyncHandlersList ++ [⟨s.queuedLog.length, n, s.lastMpdu⟩]
    workPending := true
    queuedLog := s.queuedLog ++ [n]
    pageOps := s.pageOps ++ [.take (.entry s.queuedLog.length) n.rxb.page] }

/-- `iwl_mvm_rx_common`, for a CSI notification. -/
def iwlMvmRxCommon (s : AsyncRx) (n : CsiNotif) (alloc : Bool) : AsyncRx :=
  if iwlRxPacketPayloadLen n.rxb.pkt < n.minSize then s
  else if alloc then queueEntry s n
  -- we can't do much...
  else s

/-- The page that an entry gives up in `iwl_free_rxb`. -/
def AsyncEntry.freeOp (e : AsyncEntry) : PageOp := .drop (.entry e.num) e.notif.rxb.page

/-- `iwl_mvm_async_handlers_purge`. -/
def iwlMvmAsyncHandlersPurge (s : AsyncRx) : AsyncRx :=
  { s with
    asyncHandlersList := []
    pageOps := s.pageOps ++ s.asyncHandlersList.map AsyncEntry.freeOp }

/-- What a handler reads besides its notification. -/
def AsyncRx.env (s : AsyncRx) (unixTs : BitVec 64) : CsiEnv where
  unixTs := unixTs
  flqRes := s.flqRes

/-- The handler of an entry is called. -/
def callHandler (s : AsyncRx) (e : AsyncEntry) (unixTs : BitVec 64) : AsyncRx :=
  let mvm := csiStep s.mvm (e.notif, s.env unixTs)
  { s with
    mvm := mvm
    handled := true
    handledLog := s.handledLog ++ [e]
    pageOps := s.pageOps ++ handlerPageOps s.mvm e.notif
    hdrEntry := match e.notif with
      | .header _ => some e
      | .chunk _ => s.hdrEntry
    sent := s.sent ++ (mvm.csiEvents.drop s.mvm.csiEvents.length).map fun ev => (ev, s.hdrEntry) }

/-- One step; `none` when the worker is not there. -/
def asyncStep (s : AsyncRx) : AsyncAct → Option AsyncRx
  | .rx n alloc => some (iwlMvmRxCommon s n alloc)
  | .mpdu pkt => some { s with flqRes := flqMvmRecord pkt, lastMpdu := some pkt }
  | .purge => some (iwlMvmAsyncHandlersPurge s)
  | .start =>
    if s.workPending ∧ ¬ s.running then
      some { s with
        workPending := false
        running := true
        localList := s.asyncHandlersList
        asyncHandlersList := [] }
    else none
  | .handle unixTs =>
    match s.localList with
    | e :: _ => if s.handled then none else some (callHandler s e unixTs)
    | [] => none
  | .free =>
    match s.localList with
    | e :: es =>
      if s.handled then
        some { s with
          localList := es
          handled := false
          pageOps := s.pageOps ++ [e.freeOp] }
      else none
    | [] => none
  | .finish => if s.running ∧ s.localList = [] then some { s with running := false } else none

/-- The steps, case by case. -/
inductive AsyncStep (s : AsyncRx) : AsyncAct → AsyncRx → Prop
  | rx (n : CsiNotif) (alloc : Bool) : AsyncStep s (.rx n alloc) (iwlMvmRxCommon s n alloc)
  | mpdu (pkt : RxPacket) :
      AsyncStep s (.mpdu pkt) { s with flqRes := flqMvmRecord pkt, lastMpdu := some pkt }
  | purge : AsyncStep s .purge (iwlMvmAsyncHandlersPurge s)
  | start (pending : s.workPending = true) (idle : s.running = false) : AsyncStep s .start { s with
      workPending := false
      running := true
      localList := s.asyncHandlersList
      asyncHandlersList := [] }
  | handle (unixTs : BitVec 64) (e : AsyncEntry) (es : List AsyncEntry)
      (first : s.localList = e :: es) (fresh : s.handled = false) :
      AsyncStep s (.handle unixTs) (callHandler s e unixTs)
  | free (e : AsyncEntry) (es : List AsyncEntry) (first : s.localList = e :: es)
      (done : s.handled = true) : AsyncStep s .free { s with
        localList := es
        handled := false
        pageOps := s.pageOps ++ [e.freeOp] }
  | finish (ran : s.running = true) (none_left : s.localList = []) :
      AsyncStep s .finish { s with running := false }

/-- **All that a step can do.** -/
theorem asyncStep_cases {s s' : AsyncRx} {a : AsyncAct} (h : asyncStep s a = some s') :
    AsyncStep s a s' := by
  cases a with
  | rx n alloc =>
    cases h
    exact .rx n alloc
  | mpdu pkt =>
    cases h
    exact .mpdu pkt
  | purge =>
    cases h
    exact .purge
  | start =>
    simp only [asyncStep] at h
    split at h
    · rename_i hgo
      cases h
      exact .start hgo.1 (by simpa using hgo.2)
    · cases h
  | handle unixTs =>
    simp only [asyncStep] at h
    split at h
    · rename_i e es hfirst
      split at h
      · cases h
      · rename_i hfresh
        cases h
        exact .handle unixTs e es hfirst (by simpa using hfresh)
    · cases h
  | free =>
    simp only [asyncStep] at h
    split at h
    · rename_i e es hfirst
      split at h
      · rename_i hdone
        cases h
        exact .free e es hfirst hdone
      · cases h
    · cases h
  | finish =>
    simp only [asyncStep] at h
    split at h
    · rename_i hgo
      cases h
      exact .finish hgo.1 hgo.2
    · cases h

end Iax.Mvm
