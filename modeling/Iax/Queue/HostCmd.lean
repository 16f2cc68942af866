import Iax.Lib.Lts
import Iax.Queue.CmdReclaim
import Iax.Queue.HcmdFragments

/-!
# Synchronous host commands

The op mode sends commands to the firmware over the command queue and waits for the answers.
`iwl_trans_send_cmd` (`iwl-trans.c`) and `iwl_trans_txq_send_hcmd` (`queue/tx.c`) are the side of the
caller, `iwl_pcie_gen2_enqueue_hcmd` (`pcie/tx-gen2.c`) puts the command into the queue, and
`iwl_pcie_hcmd_complete` (`pcie/tx.c`) takes its answer, in the thread of the interrupt.

* `HostCmds.step` interleaves the statements of a synchronous caller with those of the handler of
  the answers, with asynchronous commands and with what else changes the bits of `trans->status`. The
  op mode holds its mutex around a synchronous command, so that there is one such caller at a time.
  The handler holds the lock of the queue, which the caller takes to enqueue its command and not when
  it gives up.
* `step_cases` says once what a step does.

The firmware answers the commands in the order of the queue, each at most once, and may be late.
-/

namespace Iax.Queue

/-! ## State -/

/-- The bits `CMD_*`. -/
structure CmdFlags where
  async : Bool
  wantSkb : Bool
  sendInRfkill : Bool
  wantAsyncCallback : Bool
  sendInD3 : Bool
  deriving DecidableEq

/-- No bit. -/
def CmdFlags.zero : CmdFlags := ⟨false, false, false, false, false⟩

/-- A pointer to a `struct iwl_host_cmd`, which is on the stack of its caller: a new one for each
call. -/
abbrev CmdPtr := ℕ

/-- `struct iwl_cmd_meta`. -/
structure CmdMeta where
  source : Option CmdPtr
  flags : CmdFlags
  deriving DecidableEq

/-- The bits of `trans->status` and the states that decide about a command. -/
structure HcmdStatus where
  syncHcmdActive : Bool
  fwError : Bool
  rfkillOpmode : Bool
  transDead : Bool
  fwAlive : Bool
  pmModeD3 : Bool
  deriving DecidableEq

/-- Where the synchronous caller is. -/
inductive HcmdPc
  | idle
  /-- In `iwl_trans_send_cmd`. -/
  | called (flags : CmdFlags)
  /-- In `iwl_trans_txq_send_hcmd_sync`. -/
  | ready (flags : CmdFlags)
  /-- It has set `STATUS_SYNC_HCMD_ACTIVE`. -/
  | active (flags : CmdFlags)
  /-- In `wait_event_timeout`, with its command in entry `cmdIdx`. -/
  | waiting (flags : CmdFlags) (cmdIdx : ℕ)
  | woken (flags : CmdFlags) (cmdIdx : ℕ)
  /-- The bits of `trans->status` are tested. -/
  | tested (flags : CmdFlags) (cmdIdx : ℕ)
  | expired (flags : CmdFlags) (cmdIdx : ℕ)
  /-- At `cancel`. -/
  | failed (flags : CmdFlags) (cmdIdx : ℕ) (ret : ℤ)
  /-- `CMD_WANT_SKB` is cleared in the entry. -/
  | cancelled (flags : CmdFlags) (ret : ℤ)
  deriving DecidableEq

/-- Where the handler is inside `iwl_pcie_hcmd_complete`, with the index of the answer. -/
inductive HandlerPc
  | idle
  /-- It has the lock. -/
  | locked (index : ℕ)
  /-- It has found `CMD_WANT_SKB` and has stolen the page. -/
  | stealing (index : ℕ)
  | reclaiming (index : ℕ)
  | finishing (index : ℕ)
  /-- About to clear the flags of the entry. -/
  | clearing (index : ℕ)
  deriving DecidableEq

/-- What happens. -/
inductive HcmdEvent
  /-- The page of answer `k` is stored through the pointer, whose caller is still there. -/
  | stored (cmd : CmdPtr) (k : ℕ)
  /-- It is stored although the caller has returned. -/
  | stale (cmd : CmdPtr) (k : ℕ)
  /-- It is stored through `NULL`. -/
  | crashed
  /-- The caller frees the page. -/
  | freed (k : ℕ)
  /-- A synchronous command returns. -/
  | returned (cmd : CmdPtr) (flags : CmdFlags) (ret : ℤ)
  | queueFull
  | nmi
  deriving DecidableEq

/-- A command in the queue: its caller, when this is a synchronous one. -/
structure SentCmd where
  caller : Option CmdPtr
  flags : CmdFlags
  sequence : ℕ

/-- The transport. `resp` is `resp_pkt` of each command, of which the page is known by the number of
the answer. `sent` and `answered` are not in the source: the commands that were put into the queue,
oldest first, and how many answers the handler has taken; nor is `trace`, oldest first. -/
structure HostCmds where
  status : HcmdStatus
  queue : Trans CmdMeta
  pc : HcmdPc
  cmd : CmdPtr
  resp : CmdPtr → Option ℕ
  handler : HandlerPc
  sent : List SentCmd
  answered : ℕ
  trace : List HcmdEvent

def enospc : ℤ := 28

def etimedout : ℤ := 110

def erfkill : ℤ := 132

def enodev : ℤ := 19

def ehostdown : ℤ := 112

/-- `SEQ_TO_QUEUE`. -/
def seqToQueue (s : ℕ) : ℕ := (s >>> 8) &&& 0x1f

/-- `SEQ_TO_INDEX`. -/
def seqToIndex (s : ℕ) : ℕ := s &&& 0xff

/-- The checks of `iwl_trans_send_cmd` and of `iwl_trans_txq_send_hcmd`: the error, if one fails. -/
def checkHcmd (status : HcmdStatus) (flags : CmdFlags) : Option ℤ :=
  if !flags.sendInRfkill && status.rfkillOpmode then some (-erfkill)
  else if status.pmModeD3 && !flags.sendInD3 then some (-ehostdown)
  else if status.fwError then some (-eio)
  else if !status.fwAlive then some (-eio)
  else if flags.wantAsyncCallback && !flags.async then some (-einval)
  else if status.transDead then some (-enodev)
  else if flags.async && flags.wantSkb then some (-einval)
  else none

/-- The bits that a synchronous command tests when it has been woken. -/
def statusError (status : HcmdStatus) (flags : CmdFlags) : Option ℤ :=
  if status.fwError then some (-eio)
  else if !flags.sendInRfkill && status.rfkillOpmode then some (-erfkill)
  else none

namespace HostCmds

variable (s : HostCmds)

/-! ## The statements -/

def log (e : HcmdEvent) : HostCmds := { s with trace := s.trace ++ [e] }

def setActive (b : Bool) : HostCmds := { s with status.syncHcmdActive := b }

/-- `txq->entries[idx].meta`; before it is written it is zero. -/
def metaAt (idx : ℕ) : CmdMeta := (s.queue.txq.entries idx).getD ⟨none, .zero⟩

def setMeta (idx : ℕ) (out : CmdMeta) : HostCmds :=
  { s with queue := s.queue.setEntry idx (some out) }

/-- The entry of the next command. -/
def cmdIdx : ℕ := s.queue.iwlTxqGetCmdIndex s.queue.txq.writePtr

/-- A synchronous caller returns. `iwl_trans_send_cmd` makes an error of a missing response. -/
def finishCall (flags : CmdFlags) (ret : ℤ) : HostCmds :=
  { s.log (.returned s.cmd flags
      (if flags.wantSkb && ret = 0 && (s.resp s.cmd).isNone then -eio else ret)) with pc := .idle }

/-- The part of `iwl_pcie_gen2_enqueue_hcmd` under the lock: `mapped` tells whether the fragments of
the command can be mapped. The value is negative, or the index of the entry. -/
def putHcmd (caller : Option CmdPtr) (flags : CmdFlags) (mapped : Bool) (jiffies : ℕ) :
    ℤ × HostCmds :=
  if s.queue.iwlTxqSpace < (if flags.async then 2 else 1) then (-enospc, s.log .queueFull)
  else
    let source := if flags.wantSkb then caller else none
    if !mapped then (-enomem, s.setMeta s.cmdIdx ⟨source, .zero⟩)
    else
      let queue := s.queue.setEntry s.cmdIdx (some ⟨source, flags⟩)
      let queue := if queue.txq.readPtr = queue.txq.writePtr ∧ queue.txq.wdTimeout ≠ 0 then
        queue.modTimer (jiffies + queue.txq.wdTimeout) else queue
      (s.cmdIdx, { s with
        queue := { queue with txq.writePtr := queue.iwlTxqIncWrap queue.txq.writePtr }
        sent := s.sent ++ [⟨caller, flags,
          queueToSeq s.queue.txq.id ||| indexToSeq s.queue.txq.writePtr⟩] })

/-- `iwl_pcie_gen2_enqueue_hcmd` of a command with the given chunks; its header is a
`struct iwl_cmd_header_wide`. -/
def enqueueHcmd (caller : Option CmdPtr) (flags : CmdFlags) (chunks : List HcmdChunk)
    (alloc mapped : Bool) (jiffies : ℕ) : ℤ × HostCmds :=
  match scanChunks alloc ⟨hcmdHeaderSize true, hcmdHeaderSize true, false, none, []⟩ chunks with
  | .error err => (err, s)
  | .ok scan =>
    if tfdMaxPayloadSize < scan.copySize then (-einval, s)
    else s.putHcmd caller flags mapped jiffies

/-- The synchronous caller goes on: it clears the bit when its command is not in the queue. -/
def enqueued (flags : CmdFlags) (ret : ℤ) : HostCmds :=
  if ret < 0 then (s.setActive false).finishCall flags ret
  else { s with pc := .waiting flags ret.toNat }

/-- The page of the answer goes to the caller: `meta->source->resp_pkt = pkt`. -/
def storeResp (index : ℕ) : HostCmds :=
  let k := s.answered - 1
  match (s.metaAt (s.queue.iwlTxqGetCmdIndex index)).source with
  | none => s.log .crashed
  | some p =>
    { s.log (if p = s.cmd ∧ s.pc ≠ .idle then .stored p k else .stale p k) with
      resp := Function.update s.resp p (some k) }

/-- The flags of an entry without `CMD_WANT_SKB`. -/
def dropWantSkb (idx : ℕ) : HostCmds :=
  s.setMeta idx { s.metaAt idx with flags.wantSkb := false }

/-- `iwl_free_resp`, if there is a response, at the end of `cancel`. -/
def freeResp : HostCmds :=
  match s.resp s.cmd with
  | none => s
  | some k => { s.log (.freed k) with resp := Function.update s.resp s.cmd none }

/-- `iwl_pcie_cmdq_reclaim` in the handler. -/
def reclaim (index jiffies : ℕ) : Option HostCmds :=
  (s.queue.iwlPcieCmdqReclaim index jiffies).map fun (queue, nmis) =>
    { s with queue := queue, trace := s.trace ++ List.replicate nmis .nmi }

end HostCmds

/-! ## The statements interleaved -/

/-- The steps. -/
inductive HcmdAct
  /-- A synchronous caller calls `iwl_trans_send_cmd`. -/
  | call (flags : CmdFlags)
  | check
  /-- It sets `STATUS_SYNC_HCMD_ACTIVE`. -/
  | begin
  | enqueue (chunks : List HcmdChunk) (alloc mapped : Bool) (jiffies : ℕ)
  /-- `wait_event_timeout` finds the bit clear. -/
  | wake
  /-- It times out. -/
  | expire
  | giveUp
  | testStatus
  | testResp
  /-- The flag is cleared in the entry. -/
  | cancel
  | dropResp
  /-- An asynchronous command, of which the checks have seen the given status. -/
  | async (status : HcmdStatus) (flags : CmdFlags) (chunks : List HcmdChunk)
      (alloc mapped : Bool) (jiffies : ℕ)
  /-- The handler takes the next answer and the lock. -/
  | rx
  | testSkb
  | store
  | reclaim (jiffies : ℕ)
  | finish
  | clear
  /-- An interrupt clears `STATUS_SYNC_HCMD_ACTIVE`. -/
  | clearActive
  /-- The other bits change. -/
  | setStatus (status : HcmdStatus)

namespace HostCmds

/-- One step, `none` when it is not enabled. -/
def step (s : HostCmds) : HcmdAct → Option HostCmds
  | .call flags =>
    if s.pc = .idle ∧ flags.async = false then
      some { s with
        cmd := s.cmd + 1
        resp := Function.update s.resp (s.cmd + 1) none
        pc := .called flags }
    else none
  | .check => match s.pc with
    | .called flags => some (match checkHcmd s.status flags with
      | some ret => s.finishCall flags ret
      | none => { s with pc := .ready flags })
    | _ => none
  | .begin => match s.pc with
    | .ready flags => some (if s.status.syncHcmdActive then s.finishCall flags (-eio)
      else { s.setActive true with pc := .active flags })
    | _ => none
  | .enqueue chunks alloc mapped jiffies => match s.pc, s.handler with
    | .active flags, .idle =>
      let (ret, t) := s.enqueueHcmd (some s.cmd) flags chunks alloc mapped jiffies
      some (t.enqueued flags ret)
    | _, _ => none
  | .wake => match s.pc with
    | .waiting flags cmdIdx =>
      if s.status.syncHcmdActive then none else some { s with pc := .woken flags cmdIdx }
    | _ => none
  | .expire => match s.pc with
    | .waiting flags cmdIdx =>
      if s.status.syncHcmdActive then some { s with pc := .expired flags cmdIdx } else none
    | _ => none
  | .giveUp => match s.pc with
    | .expired flags cmdIdx =>
      some { s.setActive false with pc := .failed flags cmdIdx (-etimedout) }
    | _ => none
  | .testStatus => match s.pc with
    | .woken flags cmdIdx => some { s with
      pc := match statusError s.status flags with
        | some ret => .failed flags cmdIdx ret
        | none => .tested flags cmdIdx }
    | _ => none
  | .testResp => match s.pc with
    | .tested flags cmdIdx => some (if flags.wantSkb ∧ s.resp s.cmd = none then
        { s with pc := .failed flags cmdIdx (-eio) }
      else s.finishCall flags 0)
    | _ => none
  | .cancel => match s.pc with
    | .failed flags cmdIdx ret =>
      some { (if flags.wantSkb then s.dropWantSkb cmdIdx else s) with pc := .cancelled flags ret }
    | _ => none
  | .dropResp => match s.pc with
    | .cancelled flags ret => some (s.freeResp.finishCall flags ret)
    | _ => none
  | .async status flags chunks alloc mapped jiffies => match s.handler with
    | .idle =>
      if flags.async = true ∧ checkHcmd status flags = none then
        some (s.enqueueHcmd none flags chunks alloc mapped jiffies).2
      else none
    | _ => none
  | .rx => match s.handler, s.sent[s.answered]? with
    | .idle, some c => some { s with
      answered := s.answered + 1
      handler := if seqToQueue c.sequence = s.queue.txq.id then .locked (seqToIndex c.sequence)
        else .idle }
    | _, _ => none
  | .testSkb => match s.handler with
    | .locked index => some { s with
      handler := if (s.metaAt (s.queue.iwlTxqGetCmdIndex index)).flags.wantSkb then .stealing index
        else .reclaiming index }
    | _ => none
  | .store => match s.handler with
    | .stealing index => some { s.storeResp index with handler := .reclaiming index }
    | _ => none
  | .reclaim jiffies => match s.handler with
    | .reclaiming index =>
      (s.reclaim index jiffies).map fun t => { t with handler := .finishing index }
    | _ => none
  | .finish => match s.handler with
    | .finishing index => some {
      (if (s.metaAt (s.queue.iwlTxqGetCmdIndex index)).flags.async then s
        else s.setActive false) with handler := .clearing index }
    | _ => none
  | .clear => match s.handler with
    | .clearing index =>
      let idx := s.queue.iwlTxqGetCmdIndex index
      some { s.setMeta idx { s.metaAt idx with flags := .zero } with handler := .idle }
    | _ => none
  | .clearActive => some (s.setActive false)
  | .setStatus status =>
    some { s with status := { status with syncHcmdActive := s.status.syncHcmdActive } }

/-- The transport with a queue of commands that has just been set up. -/
def start (status : HcmdStatus) (queue : Trans CmdMeta) : HostCmds :=
  ⟨status, queue, .idle, 0, fun _ => none, .idle, [], 0, []⟩

/-! ## What a step does -/

/-- What `iwl_pcie_gen2_enqueue_hcmd` leaves, with the value it returns. -/
inductive Put (s : HostCmds) (caller : Option CmdPtr) (flags : CmdFlags) : ℤ → HostCmds → Prop
  | refused {ret : ℤ} (hret : ret < 0) : Put s caller flags ret s
  | full {ret : ℤ} (hret : ret < 0) : Put s caller flags ret (s.log .queueFull)
  | unmapped {ret : ℤ} (hret : ret < 0) (hspace : 0 < s.queue.iwlTxqSpace) :
    Put s caller flags ret (s.setMeta s.cmdIdx ⟨if flags.wantSkb then caller else none, .zero⟩)
  | put (timer : TimerList) (hspace : 0 < s.queue.iwlTxqSpace) :
    Put s caller flags s.cmdIdx { s with
      queue := { s.queue with
        txq.entries := Function.update s.queue.txq.entries s.cmdIdx
          (some ⟨if flags.wantSkb then caller else none, flags⟩)
        txq.stuckTimer := timer
        txq.writePtr := s.queue.iwlTxqIncWrap s.queue.txq.writePtr }
      sent := s.sent ++ [⟨caller, flags,
        queueToSeq s.queue.txq.id ||| indexToSeq s.queue.txq.writePtr⟩] }

variable {s}

theorem scanChunk_error_neg {alloc : Bool} {scan : HcmdScan} {c : HcmdChunk} {err : ℤ}
    (h : scanChunk alloc scan c = .error err) : err < 0 := by
  unfold scanChunk at h
  dsimp only at h
  split at h
  · cases h
  · split at h <;> split at h
    all_goals (try split at h)
    all_goals (try split at h)
    all_goals
      cases h
      try decide

theorem scanChunks_error_neg {alloc : Bool} {scan : HcmdScan} {cs : List HcmdChunk} {err : ℤ}
    (h : scanChunks alloc scan cs = .error err) : err < 0 := by
  induction cs generalizing scan with
  | nil => cases h
  | cons c cs ih =>
    rw [scanChunks] at h
    split at h
    · rename_i e he
      cases h
      exact scanChunk_error_neg he
    · exact ih h

/-- Only the timer is started. -/
theorem startTimer_eq (queue : Trans CmdMeta) (jiffies : ℕ) :
    ∃ timer, (if queue.txq.readPtr = queue.txq.writePtr ∧ queue.txq.wdTimeout ≠ 0 then
      queue.modTimer (jiffies + queue.txq.wdTimeout) else queue) =
        { queue with txq.stuckTimer := timer } := by
  split
  · exact ⟨_, rfl⟩
  · exact ⟨_, rfl⟩

theorem putHcmd_cases (caller : Option CmdPtr) (flags : CmdFlags) (mapped : Bool) (jiffies : ℕ) :
    Put s caller flags (s.putHcmd caller flags mapped jiffies).1
      (s.putHcmd caller flags mapped jiffies).2 := by
  unfold putHcmd
  by_cases hfull : s.queue.iwlTxqSpace < if flags.async then 2 else 1
  · rw [if_pos hfull]
    exact .full (show -enospc < 0 by decide)
  · have hspace : 0 < s.queue.iwlTxqSpace := by
      cases hasync : flags.async <;>
        simp only [hasync, if_true, if_false, Bool.false_eq_true] at hfull <;> omega
    rw [if_neg hfull]
    cases mapped with
    | false => exact .unmapped (show -enomem < 0 by decide) hspace
    | true =>
      obtain ⟨timer, htimer⟩ := startTimer_eq (s.queue.setEntry s.cmdIdx
        (some ⟨if flags.wantSkb then caller else none, flags⟩)) jiffies
      simp only [Bool.not_true, Bool.false_eq_true, if_false, htimer]
      exact .put timer hspace

theorem enqueueHcmd_cases (caller : Option CmdPtr) (flags : CmdFlags) (chunks : List HcmdChunk)
    (alloc mapped : Bool) (jiffies : ℕ) :
    Put s caller flags (s.enqueueHcmd caller flags chunks alloc mapped jiffies).1
      (s.enqueueHcmd caller flags chunks alloc mapped jiffies).2 := by
  unfold enqueueHcmd
  split
  · rename_i herr
    exact .refused (scanChunks_error_neg herr)
  · split
    · exact .refused (show -einval < 0 by decide)
    · exact putHcmd_cases caller flags mapped jiffies

/-- What each step does, with the condition under which it is enabled. -/
inductive Step (s : HostCmds) : HcmdAct → HostCmds → Prop
  | call {flags : CmdFlags} (hpc : s.pc = .idle) (hsync : flags.async = false) :
    Step s (.call flags) { s with
      cmd := s.cmd + 1
      resp := Function.update s.resp (s.cmd + 1) none
      pc := .called flags }
  | dropped {flags : CmdFlags} {ret : ℤ} (hpc : s.pc = .called flags)
      (hcheck : checkHcmd s.status flags = some ret) : Step s .check (s.finishCall flags ret)
  | checked {flags : CmdFlags} (hpc : s.pc = .called flags)
      (hcheck : checkHcmd s.status flags = none) : Step s .check { s with pc := .ready flags }
  | alreadyActive {flags : CmdFlags} (hpc : s.pc = .ready flags)
      (hactive : s.status.syncHcmdActive = true) : Step s .begin (s.finishCall flags (-eio))
  | begun {flags : CmdFlags} (hpc : s.pc = .ready flags)
      (hactive : s.status.syncHcmdActive = false) :
    Step s .begin { s.setActive true with pc := .active flags }
  | enqueue {flags : CmdFlags} {chunks : List HcmdChunk} {alloc mapped : Bool} {jiffies : ℕ}
      {ret : ℤ} {t : HostCmds} (hpc : s.pc = .active flags) (hidle : s.handler = .idle)
      (hput : Put s (some s.cmd) flags ret t) :
    Step s (.enqueue chunks alloc mapped jiffies) (t.enqueued flags ret)
  | wake {flags : CmdFlags} {cmdIdx : ℕ} (hpc : s.pc = .waiting flags cmdIdx)
      (hactive : s.status.syncHcmdActive = false) : Step s .wake { s with pc := .woken flags cmdIdx }
  | expire {flags : CmdFlags} {cmdIdx : ℕ} (hpc : s.pc = .waiting flags cmdIdx)
      (hactive : s.status.syncHcmdActive = true) :
    Step s .expire { s with pc := .expired flags cmdIdx }
  | giveUp {flags : CmdFlags} {cmdIdx : ℕ} (hpc : s.pc = .expired flags cmdIdx) :
    Step s .giveUp { s.setActive false with pc := .failed flags cmdIdx (-etimedout) }
  | statusBad {flags : CmdFlags} {cmdIdx : ℕ} {ret : ℤ} (hpc : s.pc = .woken flags cmdIdx)
      (herror : statusError s.status flags = some ret) :
    Step s .testStatus { s with pc := .failed flags cmdIdx ret }
  | statusGood {flags : CmdFlags} {cmdIdx : ℕ} (hpc : s.pc = .woken flags cmdIdx) :
    Step s .testStatus { s with pc := .tested flags cmdIdx }
  | noResp {flags : CmdFlags} {cmdIdx : ℕ} (hpc : s.pc = .tested flags cmdIdx)
      (hwant : flags.wantSkb = true) (hresp : s.resp s.cmd = none) :
    Step s .testResp { s with pc := .failed flags cmdIdx (-eio) }
  | done {flags : CmdFlags} {cmdIdx : ℕ} (hpc : s.pc = .tested flags cmdIdx)
      (hresp : flags.wantSkb = true → s.resp s.cmd ≠ none) : Step s .testResp (s.finishCall flags 0)
  | cancel {flags : CmdFlags} {cmdIdx : ℕ} {ret : ℤ} (hpc : s.pc = .failed flags cmdIdx ret) :
    Step s .cancel
      { (if flags.wantSkb then s.dropWantSkb cmdIdx else s) with pc := .cancelled flags ret }
  | dropResp {flags : CmdFlags} {ret : ℤ} (hpc : s.pc = .cancelled flags ret) :
    Step s .dropResp (s.freeResp.finishCall flags ret)
  | async {status : HcmdStatus} {flags : CmdFlags} {chunks : List HcmdChunk}
      {alloc mapped : Bool} {jiffies : ℕ} {ret : ℤ} {t : HostCmds} (hidle : s.handler = .idle)
      (hasync : flags.async = true) (hwant : flags.wantSkb = false)
      (hput : Put s none flags ret t) : Step s (.async status flags chunks alloc mapped jiffies) t
  | rx {c : SentCmd} (hidle : s.handler = .idle) (hsent : s.sent[s.answered]? = some c) :
    Step s .rx { s with
      answered := s.answered + 1
      handler := if seqToQueue c.sequence = s.queue.txq.id then .locked (seqToIndex c.sequence)
        else .idle }
  | wantSkb {index : ℕ} (hlocked : s.handler = .locked index)
      (hwant : (s.metaAt (s.queue.iwlTxqGetCmdIndex index)).flags.wantSkb = true) :
    Step s .testSkb { s with handler := .stealing index }
  | noSkb {index : ℕ} (hlocked : s.handler = .locked index)
      (hwant : (s.metaAt (s.queue.iwlTxqGetCmdIndex index)).flags.wantSkb = false) :
    Step s .testSkb { s with handler := .reclaiming index }
  | store {index : ℕ} (hstealing : s.handler = .stealing index) :
    Step s .store { s.storeResp index with handler := .reclaiming index }
  | reclaim {index jiffies : ℕ} {t : HostCmds} (hreclaiming : s.handler = .reclaiming index)
      (ht : s.reclaim index jiffies = some t) :
    Step s (.reclaim jiffies) { t with handler := .finishing index }
  | finishAsync {index : ℕ} (hfinishing : s.handler = .finishing index)
      (hasync : (s.metaAt (s.queue.iwlTxqGetCmdIndex index)).flags.async = true) :
    Step s .finish { s with handler := .clearing index }
  | finishSync {index : ℕ} (hfinishing : s.handler = .finishing index)
      (hasync : (s.metaAt (s.queue.iwlTxqGetCmdIndex index)).flags.async = false) :
    Step s .finish { s.setActive false with handler := .clearing index }
  | clear {index : ℕ} (hclearing : s.handler = .clearing index) :
    Step s .clear
      { s.setMeta (s.queue.iwlTxqGetCmdIndex index)
          { s.metaAt (s.queue.iwlTxqGetCmdIndex index) with flags := .zero } with handler := .idle }
  | clearActive : Step s .clearActive (s.setActive false)
  | setStatus (status : HcmdStatus) : Step s (.setStatus status)
      { s with status := { status with syncHcmdActive := s.status.syncHcmdActive } }

/-- An asynchronous command that passes the checks does not want the answer's page. -/
theorem wantSkb_of_checkHcmd {status : HcmdStatus} {flags : CmdFlags} (hasync : flags.async = true)
    (hcheck : checkHcmd status flags = none) : flags.wantSkb = false := by
  by_contra hwant
  rw [Bool.not_eq_false] at hwant
  unfold checkHcmd at hcheck
  repeat' split at hcheck
  all_goals simp_all

/-- **Every step** is one of these. -/
theorem step_cases {a : HcmdAct} {s' : HostCmds} (h : step s a = some s') : Step s a s' := by
  cases a with
  | call flags =>
    simp only [step] at h
    split at h
    · rename_i hpc
      cases h
      exact .call hpc.1 hpc.2
    · cases h
  | check =>
    simp only [step] at h
    split at h
    · rename_i flags hpc
      cases h
      split
      · exact .dropped hpc (by assumption)
      · exact .checked hpc (by assumption)
    · cases h
  | begin =>
    simp only [step] at h
    split at h
    · rename_i flags hpc
      cases h
      split
      · exact .alreadyActive hpc (by assumption)
      · exact .begun hpc (Bool.not_eq_true _ ▸ (by assumption))
    · cases h
  | enqueue chunks alloc mapped jiffies =>
    simp only [step] at h
    split at h
    · rename_i flags hpc hidle
      cases h
      exact .enqueue hpc hidle (enqueueHcmd_cases ..)
    · cases h
  | wake =>
    simp only [step] at h
    split at h
    · rename_i flags cmdIdx hpc
      split at h
      · cases h
      · cases h
        exact .wake hpc (Bool.not_eq_true _ ▸ (by assumption))
    · cases h
  | expire =>
    simp only [step] at h
    split at h
    · split at h
      · cases h
        exact .expire (by assumption) (by assumption)
      · cases h
    · cases h
  | giveUp =>
    simp only [step] at h
    split at h
    · cases h
      exact .giveUp (by assumption)
    · cases h
  | testStatus =>
    simp only [step] at h
    split at h
    · rename_i flags cmdIdx hpc
      cases h
      split
      · exact .statusBad hpc (by assumption)
      · exact .statusGood hpc
    · cases h
  | testResp =>
    simp only [step] at h
    split at h
    · rename_i flags cmdIdx hpc
      cases h
      split
      · rename_i hnone
        exact .noResp hpc hnone.1 hnone.2
      · rename_i hresp
        exact .done hpc fun hwant hnone => hresp ⟨hwant, hnone⟩
    · cases h
  | cancel =>
    simp only [step] at h
    split at h
    · cases h
      exact .cancel (by assumption)
    · cases h
  | dropResp =>
    simp only [step] at h
    split at h
    · cases h
      exact .dropResp (by assumption)
    · cases h
  | async status flags chunks alloc mapped jiffies =>
    simp only [step] at h
    split at h
    · rename_i hidle
      split at h
      · rename_i hasync
        cases h
        exact .async hidle hasync.1 (wantSkb_of_checkHcmd hasync.1 hasync.2)
          (enqueueHcmd_cases ..)
      · cases h
    · cases h
  | rx =>
    simp only [step] at h
    split at h
    · cases h
      exact .rx (by assumption) (by assumption)
    · cases h
  | testSkb =>
    simp only [step] at h
    split at h
    · rename_i index hlocked
      cases h
      split
      · exact .wantSkb hlocked (by assumption)
      · exact .noSkb hlocked (Bool.not_eq_true _ ▸ (by assumption))
    · cases h
  | store =>
    simp only [step] at h
    split at h
    · cases h
      exact .store (by assumption)
    · cases h
  | reclaim jiffies =>
    simp only [step] at h
    split at h
    · obtain ⟨t, ht, rfl⟩ := Option.map_eq_some_iff.1 h
      exact .reclaim (by assumption) ht
    · cases h
  | finish =>
    simp only [step] at h
    split at h
    · rename_i index hfinishing
      cases h
      split
      · exact .finishAsync hfinishing (by assumption)
      · exact .finishSync hfinishing (Bool.not_eq_true _ ▸ (by assumption))
    · cases h
  | clear =>
    simp only [step] at h
    split at h
    · cases h
      exact .clear (by assumption)
    · cases h
  | clearActive =>
    cases h
    exact .clearActive
  | setStatus status =>
    cases h
    exact .setStatus status

end HostCmds

end Iax.Queue
