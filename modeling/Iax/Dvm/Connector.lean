import Iax.Lib.Lts
import Iax.Lib.Ring
import Mathlib.Logic.Function.Basic
import Mathlib.Data.List.Basic

/-!
# The connector of the dvm driver

The driver passes messages to user space over the kernel connector (`connector.c`):
`connector_enqueue_msg` puts a message into the ring `cn_msg_buf` and queues a work item, and
`connector_send_all`, which the work item runs, sends and frees what is in the ring.

* `connectorEnqueueMsg`, `connectorSendAll`, `iwlagnRegisterConnector` and
  `iwlagnUnregisterConnector` are the functions run from start to end.
* `System.step` interleaves the statements of any number of callers of `connector_enqueue_msg` with
  those of the work item. Both functions hold the lock only while they read or write the indices.
* `step_cases` says once what a step does.
* `exec_enqueueMsg`, `exec_sendAll`: whoever is not interrupted runs the whole function.

What a message says is left to `Notif.lean`; here it is known by its pointer.
-/

namespace Iax.Dvm

/-- `CN_BUF_SIZE`. -/
def cnBufSize : ℕ := 1024

/-- A pointer to a `struct cn_msg`: a new one from each `kmalloc`, and `0` for `NULL`. -/
abbrev CnMsg := ℕ

/-- What happens to a message. -/
inductive MsgEvent
  /-- It passed the checks of `connector_enqueue_msg`. -/
  | accepted (m : CnMsg)
  /-- It did not: `unread` are the messages that were in the ring when the indices were read, `priv`
  is whether `priv` was known. -/
  | rejected (m : CnMsg) (unread : List CnMsg) (priv : Bool)
  /-- `cn_buf_write` has moved behind it. -/
  | published (m : CnMsg)
  | sent (m : CnMsg)
  | freed (m : CnMsg)
  deriving DecidableEq

/-- The messages that passed the checks. -/
def accepted (trace : List MsgEvent) : List CnMsg :=
  trace.filterMap fun
    | .accepted m => some m
    | _ => none

/-- The messages that were put into the ring. -/
def published (trace : List MsgEvent) : List CnMsg :=
  trace.filterMap fun
    | .published m => some m
    | _ => none

/-- The messages that were handed to `cn_netlink_send`. -/
def sent (trace : List MsgEvent) : List CnMsg :=
  trace.filterMap fun
    | .sent m => some m
    | _ => none

/-- The messages that were handed to `kfree`. -/
def freed (trace : List MsgEvent) : List CnMsg :=
  trace.filterMap fun
    | .freed m => some m
    | _ => none

theorem accepted_append (t u : List MsgEvent) : accepted (t ++ u) = accepted t ++ accepted u :=
  List.filterMap_append

theorem published_append (t u : List MsgEvent) : published (t ++ u) = published t ++ published u :=
  List.filterMap_append

theorem sent_append (t u : List MsgEvent) : sent (t ++ u) = sent t ++ sent u :=
  List.filterMap_append

/-- The static variables of `connector.c`, and whether `connector_work_s` is on the queue. `trace`
is not in the source: it records what happens to the messages, oldest first. -/
structure Connector where
  cnMsgBuf : ℕ → CnMsg
  cnBufRead : ℕ
  cnBufWrite : ℕ
  priv : Bool
  workQueued : Bool
  trace : List MsgEvent

/-- The variables when the module is loaded. -/
def Connector.init : Connector where
  cnMsgBuf := fun _ => 0
  cnBufRead := 0
  cnBufWrite := 0
  priv := false
  workQueued := false
  trace := []

/-- The test for space, on the indices read. -/
def isFull (start stop : ℕ) : Prop := (stop + 1) % cnBufSize = start

instance (start stop : ℕ) : Decidable (isFull start stop) := by
  unfold isFull
  infer_instance

namespace Connector

/-- The slots between `cn_buf_read` and `cn_buf_write`. -/
def occupied (s : Connector) : List ℕ := Ring.slots cnBufSize s.cnBufRead s.cnBufWrite

/-- The messages in these slots. -/
def unread (s : Connector) : List CnMsg := s.occupied.map s.cnMsgBuf

/-! ## The statements -/

def log (s : Connector) (e : MsgEvent) : Connector := { s with trace := s.trace ++ [e] }

/-- `kfree`, which ignores `NULL`. -/
def kfree (s : Connector) (m : CnMsg) : Connector := if m = 0 then s else s.log (.freed m)

/-- `cn_netlink_send`. -/
def cnNetlinkSend (s : Connector) (m : CnMsg) : Connector := s.log (.sent m)

/-- A message does not pass the checks. -/
def reject (s : Connector) (m : CnMsg) (unread : List CnMsg) : Connector :=
  (s.log (.rejected m unread s.priv)).kfree m

/-- `cn_msg_buf[end] = m`. -/
def storeMsg (s : Connector) (stop : ℕ) (m : CnMsg) : Connector :=
  { s with cnMsgBuf := Function.update s.cnMsgBuf stop m }

/-- `cn_buf_write = (end + 1) % CN_BUF_SIZE`. -/
def publish (s : Connector) (stop : ℕ) (m : CnMsg) : Connector :=
  { s.log (.published m) with cnBufWrite := (stop + 1) % cnBufSize }

/-- `queue_work`: nothing changes when the work item is on the queue. -/
def queueWork (s : Connector) : Connector := { s with workQueued := true }

/-! ## What they leave alone -/

section Frame

variable (s : Connector) (m : CnMsg) (unread : List CnMsg)

@[simp] theorem kfree_cnMsgBuf : (s.kfree m).cnMsgBuf = s.cnMsgBuf := by
  unfold kfree; split <;> rfl

@[simp] theorem kfree_cnBufRead : (s.kfree m).cnBufRead = s.cnBufRead := by
  unfold kfree; split <;> rfl

@[simp] theorem kfree_cnBufWrite : (s.kfree m).cnBufWrite = s.cnBufWrite := by
  unfold kfree; split <;> rfl

@[simp] theorem kfree_workQueued : (s.kfree m).workQueued = s.workQueued := by
  unfold kfree; split <;> rfl

@[simp] theorem accepted_kfree : accepted (s.kfree m).trace = accepted s.trace := by
  unfold kfree
  split
  · rfl
  · exact (accepted_append ..).trans (List.append_nil _)

@[simp] theorem published_kfree : published (s.kfree m).trace = published s.trace := by
  unfold kfree
  split
  · rfl
  · exact (published_append ..).trans (List.append_nil _)

@[simp] theorem sent_kfree : sent (s.kfree m).trace = sent s.trace := by
  unfold kfree
  split
  · rfl
  · exact (sent_append ..).trans (List.append_nil _)

@[simp] theorem accepted_reject : accepted (s.reject m unread).trace = accepted s.trace := by
  rw [reject, accepted_kfree]
  exact (accepted_append ..).trans (List.append_nil _)

@[simp] theorem published_reject : published (s.reject m unread).trace = published s.trace := by
  rw [reject, published_kfree]
  exact (published_append ..).trans (List.append_nil _)

@[simp] theorem sent_reject : sent (s.reject m unread).trace = sent s.trace := by
  rw [reject, sent_kfree]
  exact (sent_append ..).trans (List.append_nil _)

theorem mem_trace_reject {e : MsgEvent} (hm : m ≠ 0) :
    e ∈ (s.reject m unread).trace ↔ e ∈ s.trace ∨ e = .rejected m unread s.priv ∨ e = .freed m := by
  simp [reject, kfree, log, hm]

end Frame

end Connector

/-! ## The functions -/

open Connector

/-- `connector_enqueue_msg`. -/
def connectorEnqueueMsg (s : Connector) (m : CnMsg) : Connector :=
  let start := s.cnBufRead
  let stop := s.cnBufWrite
  if isFull start stop then s.reject m s.unread
  else if s.priv = false then s.reject m s.unread
  else (((s.log (.accepted m)).storeMsg stop m).publish stop m).queueWork

/-- The body of the loop of `connector_send_all`. -/
def sendSlot (s : Connector) (i : ℕ) : Connector :=
  (s.cnNetlinkSend (s.cnMsgBuf i)).kfree (s.cnMsgBuf i)

/-- `connector_send_all`. -/
def connectorSendAll (s : Connector) : Connector :=
  let start := s.cnBufRead
  let stop := s.cnBufWrite
  { (Ring.slots cnBufSize start stop).foldl sendSlot s with cnBufRead := stop }

/-- `iwlagn_register_connector`: `ret` is what `cn_add_callback` returns. -/
def iwlagnRegisterConnector (s : Connector) (ret : ℤ) : Connector × ℤ :=
  if ret ≠ 0 then (s, ret) else ({ s with cnBufRead := 0, cnBufWrite := 0 }, 0)

/-- `iwlagn_unregister_connector`: the messages in the ring are freed. -/
def iwlagnUnregisterConnector (s : Connector) : Connector :=
  s.occupied.foldl (fun s i => s.kfree (s.cnMsgBuf i)) s

/-! ## The statements interleaved -/

/-- Where a caller of `connector_enqueue_msg` is. -/
inductive EnqueuePc
  | idle
  /-- It has read the indices. -/
  | read (m : CnMsg) (start stop : ℕ) (unread : List CnMsg)
  /-- Its message passed the checks. -/
  | checked (m : CnMsg) (stop : ℕ)
  /-- Its message is in its slot, and not yet published. -/
  | stored (m : CnMsg) (stop : ℕ)
  /-- `cn_buf_write` is written. -/
  | published
  deriving DecidableEq

/-- The message that a caller holds: it is not published yet. -/
def EnqueuePc.msg : EnqueuePc → Option CnMsg
  | .read m _ _ _ => some m
  | .checked m _ => some m
  | .stored m _ => some m
  | .idle => none
  | .published => none

/-- Where the work item is inside `connector_send_all`. -/
inductive WorkPc
  | idle
  | begun
  /-- At the head of the loop. -/
  | sending (i stop : ℕ)
  /-- Between `cn_netlink_send` and `kfree`. -/
  | freeing (i stop : ℕ)
  deriving DecidableEq

/-- The connector with `n` callers and the work item. `nalloc` counts the messages allocated. -/
structure System (n : ℕ) where
  conn : Connector
  callers : Fin n → EnqueuePc
  work : WorkPc
  nalloc : ℕ

/-- The steps. -/
inductive Act (n : ℕ)
  /-- A caller allocates a message and reads the indices. -/
  | call (c : Fin n)
  | check (c : Fin n)
  | store (c : Fin n)
  | publish (c : Fin n)
  | queueWork (c : Fin n)
  /-- The work item is taken from the queue. -/
  | work
  /-- The work item reads the indices. -/
  | readIndices
  | send
  | free
  /-- The work item writes `cn_buf_read`. -/
  | done
  /-- `iwl_connector_set_priv`. -/
  | setPriv
  deriving DecidableEq

namespace System

variable {n : ℕ}

/-- The callers are idle, and so is the work item. -/
def init (n : ℕ) : System n where
  conn := .init
  callers := fun _ => .idle
  work := .idle
  nalloc := 0

/-- A caller goes on to `pc` and leaves the variables as `conn`. -/
def move (s : System n) (c : Fin n) (pc : EnqueuePc) (conn : Connector) : System n :=
  { s with conn := conn, callers := Function.update s.callers c pc }

/-- A caller allocates a message and reads the indices. -/
def call (s : System n) (c : Fin n) : System n :=
  { s.move c (.read (s.nalloc + 1) s.conn.cnBufRead s.conn.cnBufWrite s.conn.unread) s.conn with
    nalloc := s.nalloc + 1 }

/-- The checks of `connector_enqueue_msg`. -/
def check (s : System n) (c : Fin n) (m : CnMsg) (start stop : ℕ) (unread : List CnMsg) :
    System n :=
  if isFull start stop then s.move c .idle (s.conn.reject m unread)
  else if s.conn.priv = false then s.move c .idle (s.conn.reject m unread)
  else s.move c (.checked m stop) (s.conn.log (.accepted m))

/-- A step, of a caller or of the work item. -/
def step (s : System n) (a : Act n) : Option (System n) :=
  match a with
  | .call c => if s.callers c = .idle then some (s.call c) else none
  | .check c =>
    match s.callers c with
    | .read m start stop unread => some (s.check c m start stop unread)
    | _ => none
  | .store c =>
    match s.callers c with
    | .checked m stop => some (s.move c (.stored m stop) (s.conn.storeMsg stop m))
    | _ => none
  | .publish c =>
    match s.callers c with
    | .stored m stop => some (s.move c .published (s.conn.publish stop m))
    | _ => none
  | .queueWork c =>
    if s.callers c = .published then some (s.move c .idle s.conn.queueWork) else none
  | .work =>
    if s.work = .idle ∧ s.conn.workQueued = true then
      some { s with conn := { s.conn with workQueued := false }, work := .begun }
    else none
  | .readIndices =>
    if s.work = .begun then
      some { s with work := .sending s.conn.cnBufRead s.conn.cnBufWrite }
    else none
  | .send =>
    match s.work with
    | .sending i stop =>
      if i ≠ stop then
        some { s with conn := s.conn.cnNetlinkSend (s.conn.cnMsgBuf i), work := .freeing i stop }
      else none
    | _ => none
  | .free =>
    match s.work with
    | .freeing i stop =>
      some { s with
        conn := s.conn.kfree (s.conn.cnMsgBuf i)
        work := .sending ((i + 1) % cnBufSize) stop }
    | _ => none
  | .done =>
    match s.work with
    | .sending i stop =>
      if i = stop then
        some { s with conn := { s.conn with cnBufRead := stop }, work := .idle }
      else none
    | _ => none
  | .setPriv => some { s with conn := { s.conn with priv := true } }

/-- The steps, as a relation: one rule for each way that a statement can go. -/
inductive Step (s : System n) : Act n → System n → Prop
  | call {c : Fin n} : s.callers c = .idle → Step s (.call c) (s.call c)
  | full {c : Fin n} {m : CnMsg} {start stop : ℕ} {unread : List CnMsg} :
      s.callers c = .read m start stop unread → isFull start stop →
      Step s (.check c) (s.move c .idle (s.conn.reject m unread))
  | noPriv {c : Fin n} {m : CnMsg} {start stop : ℕ} {unread : List CnMsg} :
      s.callers c = .read m start stop unread → s.conn.priv = false →
      Step s (.check c) (s.move c .idle (s.conn.reject m unread))
  | accept {c : Fin n} {m : CnMsg} {start stop : ℕ} {unread : List CnMsg} :
      s.callers c = .read m start stop unread → ¬ isFull start stop →
      Step s (.check c) (s.move c (.checked m stop) (s.conn.log (.accepted m)))
  | store {c : Fin n} {m : CnMsg} {stop : ℕ} : s.callers c = .checked m stop →
      Step s (.store c) (s.move c (.stored m stop) (s.conn.storeMsg stop m))
  | publish {c : Fin n} {m : CnMsg} {stop : ℕ} : s.callers c = .stored m stop →
      Step s (.publish c) (s.move c .published (s.conn.publish stop m))
  | queueWork {c : Fin n} : s.callers c = .published →
      Step s (.queueWork c) (s.move c .idle s.conn.queueWork)
  | work : s.work = .idle → s.conn.workQueued = true →
      Step s .work { s with conn := { s.conn with workQueued := false }, work := .begun }
  | readIndices : s.work = .begun →
      Step s .readIndices { s with work := .sending s.conn.cnBufRead s.conn.cnBufWrite }
  | send {i stop : ℕ} : s.work = .sending i stop → i ≠ stop →
      Step s .send { s with
        conn := s.conn.cnNetlinkSend (s.conn.cnMsgBuf i), work := .freeing i stop }
  | free {i stop : ℕ} : s.work = .freeing i stop →
      Step s .free { s with
        conn := s.conn.kfree (s.conn.cnMsgBuf i), work := .sending ((i + 1) % cnBufSize) stop }
  | done {stop : ℕ} : s.work = .sending stop stop →
      Step s .done { s with conn := { s.conn with cnBufRead := stop }, work := .idle }
  | setPriv : Step s .setPriv { s with conn := { s.conn with priv := true } }

/-- **What a step does**, by the action. -/
theorem step_cases {s s' : System n} {a : Act n} (h : s.step a = some s') : Step s a s' := by
  cases a with
  | call c =>
    simp only [step, Option.ite_none_right_eq_some, Option.some.injEq] at h
    obtain ⟨hpc, rfl⟩ := h
    exact .call hpc
  | check c =>
    simp only [step] at h
    split at h
    case h_1 m start stop unread hpc =>
      simp only [check, Option.some.injEq] at h
      split at h
      · subst h
        exact .full hpc (by assumption)
      · split at h
        · subst h
          exact .noPriv hpc (by assumption)
        · subst h
          exact .accept hpc (by assumption)
    case h_2 => cases h
  | store c =>
    simp only [step] at h
    split at h
    case h_1 m stop hpc => cases h; exact .store hpc
    case h_2 => cases h
  | publish c =>
    simp only [step] at h
    split at h
    case h_1 m stop hpc => cases h; exact .publish hpc
    case h_2 => cases h
  | queueWork c =>
    simp only [step, Option.ite_none_right_eq_some, Option.some.injEq] at h
    obtain ⟨hpc, rfl⟩ := h
    exact .queueWork hpc
  | work =>
    simp only [step, Option.ite_none_right_eq_some, Option.some.injEq] at h
    obtain ⟨⟨hpc, hqueued⟩, rfl⟩ := h
    exact .work hpc hqueued
  | readIndices =>
    simp only [step, Option.ite_none_right_eq_some, Option.some.injEq] at h
    obtain ⟨hpc, rfl⟩ := h
    exact .readIndices hpc
  | send =>
    simp only [step] at h
    split at h
    case h_1 i stop hpc =>
      simp only [Option.ite_none_right_eq_some, Option.some.injEq] at h
      obtain ⟨hne, rfl⟩ := h
      exact .send hpc hne
    case h_2 => cases h
  | free =>
    simp only [step] at h
    split at h
    case h_1 i stop hpc => cases h; exact .free hpc
    case h_2 => cases h
  | done =>
    simp only [step] at h
    split at h
    case h_1 i stop hpc =>
      simp only [Option.ite_none_right_eq_some, Option.some.injEq] at h
      obtain ⟨rfl, rfl⟩ := h
      exact .done hpc
    case h_2 => cases h
  | setPriv => cases h; exact .setPriv

/-! ## Without interruption -/

/-- The loop of `connector_send_all`, statement by statement. -/
theorem exec_sendLoop {i stop : ℕ} (hi : i < cnBufSize) (hstop : stop < cnBufSize) {s : System n}
    (hwork : s.work = .sending i stop) :
    ∃ acts, Lts.exec step s acts = some { s with
      conn := (Ring.slots cnBufSize i stop).foldl sendSlot s.conn
      work := .sending stop stop } := by
  induction hslots : Ring.slots cnBufSize i stop generalizing i s with
  | nil =>
    obtain rfl : i = stop := by
      by_contra hne
      rw [Ring.slots_cons hi hstop hne] at hslots
      cases hslots
    exact ⟨[], by rw [List.foldl_nil, ← hwork]; rfl⟩
  | cons j js ih =>
    have hne : i ≠ stop := by
      rintro rfl
      rw [Ring.slots_self] at hslots
      cases hslots
    rw [Ring.slots_cons hi hstop hne] at hslots
    obtain ⟨rfl, hrest⟩ := List.cons.inj hslots
    obtain ⟨acts, hacts⟩ := ih (Nat.mod_lt _ (by decide))
      (s := { s with conn := sendSlot s.conn i, work := .sending ((i + 1) % cnBufSize) stop })
      rfl hrest
    refine ⟨.send :: .free :: acts, ?_⟩
    simp only [Lts.exec_cons, step, hwork, if_pos hne, Option.bind_some]
    exact hacts

/-- The work item, when no caller comes between, runs `connector_send_all`. -/
theorem exec_sendAll {s : System n} (hread : s.conn.cnBufRead < cnBufSize)
    (hwrite : s.conn.cnBufWrite < cnBufSize) (hwork : s.work = .idle)
    (hqueued : s.conn.workQueued = true) :
    ∃ acts, Lts.exec step s acts = some { s with
      conn := connectorSendAll { s.conn with workQueued := false } } := by
  obtain ⟨acts, hacts⟩ := exec_sendLoop hread hwrite (s := { s with
    conn := { s.conn with workQueued := false }
    work := .sending s.conn.cnBufRead s.conn.cnBufWrite }) rfl
  refine ⟨.work :: .readIndices :: (acts ++ [.done]), ?_⟩
  have hbegin : step s .work =
      some { s with conn := { s.conn with workQueued := false }, work := .begun } :=
    if_pos ⟨hwork, hqueued⟩
  rw [Lts.exec_cons, hbegin, Option.bind_some, Lts.exec_cons, step, if_pos rfl, Option.bind_some,
    Lts.exec_append, hacts, Option.bind_some, Lts.exec_cons, step]
  simp only [if_pos, Option.bind_some, Lts.exec_nil]
  rw [← hwork]
  rfl

section Caller

variable (s : System n) (c : Fin n) (conn : Connector) {m : CnMsg} {start stop : ℕ}
  {unread : List CnMsg}

theorem move_move (pc pc' : EnqueuePc) (conn' : Connector) :
    (s.move c pc conn).move c pc' conn' = s.move c pc' conn' := by
  simp [move]

theorem step_check : step (s.move c (.read m start stop unread) conn) (.check c) =
    some ((s.move c (.read m start stop unread) conn).check c m start stop unread) := by
  simp [step, move]

theorem step_store : step (s.move c (.checked m stop) conn) (.store c) =
    some (s.move c (.stored m stop) (conn.storeMsg stop m)) := by
  simp [step, move]

theorem step_publish : step (s.move c (.stored m stop) conn) (.publish c) =
    some (s.move c .published (conn.publish stop m)) := by
  simp [step, move]

theorem step_queueWork : step (s.move c .published conn) (.queueWork c) =
    some (s.move c .idle conn.queueWork) := by
  simp [step, move]

end Caller

/-- A caller that nobody interrupts runs `connector_enqueue_msg`. -/
theorem exec_enqueueMsg {s : System n} {c : Fin n} (hpc : s.callers c = .idle) :
    ∃ acts, Lts.exec step s acts = some { s with
      conn := connectorEnqueueMsg s.conn (s.nalloc + 1), nalloc := s.nalloc + 1 } := by
  let alloc : System n := { s with nalloc := s.nalloc + 1 }
  have hback : ∀ conn, alloc.move c .idle conn = { alloc with conn := conn } := by
    intro conn
    rw [move, ← hpc, Function.update_eq_self]
  have hcall : step s (.call c) = some (alloc.move c
      (.read (s.nalloc + 1) s.conn.cnBufRead s.conn.cnBufWrite s.conn.unread) s.conn) :=
    if_pos hpc
  unfold connectorEnqueueMsg
  dsimp only
  split
  · refine ⟨[.call c, .check c], ?_⟩
    rw [Lts.exec_cons, hcall, Option.bind_some, Lts.exec_cons, step_check, check,
      if_pos (by assumption), move_move, hback]
    rfl
  · split
    · refine ⟨[.call c, .check c], ?_⟩
      rw [Lts.exec_cons, hcall, Option.bind_some, Lts.exec_cons, step_check, check,
        if_neg (by assumption), if_pos (by assumption), move_move, hback]
      rfl
    · refine ⟨[.call c, .check c, .store c, .publish c, .queueWork c], ?_⟩
      rw [Lts.exec_cons, hcall, Option.bind_some, Lts.exec_cons, step_check, check,
        if_neg (by assumption), if_neg (by assumption), move_move, Option.bind_some,
        Lts.exec_cons, step_store, Option.bind_some, Lts.exec_cons, step_publish, Option.bind_some,
        Lts.exec_cons, step_queueWork, hback]
      rfl

end System

end Iax.Dvm
