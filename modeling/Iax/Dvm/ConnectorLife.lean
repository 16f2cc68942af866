import Iax.Dvm.Connector
import Mathlib.Data.List.Nodup

/-!
# The life of the messages of the connector

Whether every message is freed exactly once, over the whole life of the module: the functions of
`connector.c` run one after another, in any order, with the work item at any time after it was
queued.

* `Life.step`: one call of a function.
* `Ledger`: which messages are in the ring, and which of them were freed already. Each function
  changes it in one way (`Ledger.accept`, `Ledger.reject`, `Ledger.send`, `Ledger.sweep`,
  `Ledger.drop`).
* `life_safe_iff`: the messages are freed exactly once if and only if each step finds the ring
  `Clean`.
-/

namespace Iax.Dvm

open Connector

/-! ## What the functions do to the messages -/

theorem freed_append (t u : List MsgEvent) : freed (t ++ u) = freed t ++ freed u :=
  List.filterMap_append

theorem mem_freed {t : List MsgEvent} {m : CnMsg} : m ∈ freed t ↔ .freed m ∈ t := by
  rw [freed, List.mem_filterMap]
  constructor
  · rintro ⟨e, he, hm⟩
    cases e with
    | freed m' => cases hm; exact he
    | _ => cases hm
  · exact fun h => ⟨_, h, rfl⟩

/-- `kfree` of one message. -/
def freeEvents (m : CnMsg) : List MsgEvent := if m = 0 then [] else [.freed m]

/-- `cn_netlink_send` and `kfree` of one message. -/
def sendEvents (m : CnMsg) : List MsgEvent := .sent m :: freeEvents m

namespace Connector

variable (s : Connector)

theorem kfree_trace (m : CnMsg) : (s.kfree m).trace = s.trace ++ freeEvents m := by
  unfold kfree freeEvents
  split
  · exact (List.append_nil _).symm
  · rfl

theorem sendSlot_trace (i : ℕ) : (sendSlot s i).trace = s.trace ++ sendEvents (s.cnMsgBuf i) := by
  rw [sendSlot, kfree_trace, cnNetlinkSend, log, List.append_assoc]
  rfl

theorem sendSlot_cnBufWrite (i : ℕ) : (sendSlot s i).cnBufWrite = s.cnBufWrite :=
  kfree_cnBufWrite ..

/-- The loop over the ring appends the events of each message, when its body does. -/
theorem foldl_trace {body : Connector → ℕ → Connector} {events : CnMsg → List MsgEvent}
    (htrace : ∀ s i, (body s i).trace = s.trace ++ events (s.cnMsgBuf i))
    (hbuf : ∀ s i, (body s i).cnMsgBuf = s.cnMsgBuf) (is : List ℕ) (s : Connector) :
    (is.foldl body s).trace = s.trace ++ (is.map s.cnMsgBuf).flatMap events := by
  induction is generalizing s with
  | nil => exact (List.append_nil _).symm
  | cons i is ih =>
    rw [List.foldl_cons, ih, htrace, hbuf, List.append_assoc, List.map_cons, List.flatMap_cons]

/-- The loop over the ring leaves a variable alone, when its body does. -/
theorem foldl_frame {β : Type} {body : Connector → ℕ → Connector} {get : Connector → β}
    (hbody : ∀ s i, get (body s i) = get s) (is : List ℕ) (s : Connector) :
    get (is.foldl body s) = get s := by
  induction is generalizing s with
  | nil => rfl
  | cons i is ih => rw [List.foldl_cons, ih, hbody]

theorem connectorSendAll_trace :
    (connectorSendAll s).trace = s.trace ++ s.unread.flatMap sendEvents :=
  foldl_trace sendSlot_trace (fun _ _ => kfree_cnMsgBuf ..) _ s

theorem connectorSendAll_cnBufWrite : (connectorSendAll s).cnBufWrite = s.cnBufWrite :=
  foldl_frame sendSlot_cnBufWrite _ s

/-- The ring is empty afterwards. -/
theorem connectorSendAll_unread : (connectorSendAll s).unread = [] := by
  rw [unread, occupied, connectorSendAll_cnBufWrite]
  exact congrArg (List.map _) (Ring.slots_self _ _)

theorem unregister_trace :
    (iwlagnUnregisterConnector s).trace = s.trace ++ s.unread.flatMap freeEvents :=
  foldl_trace (fun s _ => kfree_trace s _) (fun s _ => kfree_cnMsgBuf s _) _ s

theorem unregister_cnBufRead : (iwlagnUnregisterConnector s).cnBufRead = s.cnBufRead :=
  foldl_frame (fun s _ => kfree_cnBufRead s _) _ s

theorem unregister_cnBufWrite : (iwlagnUnregisterConnector s).cnBufWrite = s.cnBufWrite :=
  foldl_frame (fun s _ => kfree_cnBufWrite s _) _ s

theorem unregister_cnMsgBuf : (iwlagnUnregisterConnector s).cnMsgBuf = s.cnMsgBuf :=
  foldl_frame (fun s _ => kfree_cnMsgBuf s _) _ s

/-- The messages stay in the ring. -/
theorem unregister_unread : (iwlagnUnregisterConnector s).unread = s.unread := by
  rw [unread, occupied, unregister_cnBufRead, unregister_cnBufWrite, unregister_cnMsgBuf]
  rfl

/-- Both indices are inside the ring. -/
structure InRing : Prop where
  read_lt : s.cnBufRead < cnBufSize
  write_lt : s.cnBufWrite < cnBufSize

/-- **What `connector_enqueue_msg` does**: the message is freed, or it is the last one in the
ring. -/
theorem connectorEnqueueMsg_cases {m : CnMsg} (hm : m ≠ 0) (h : s.InRing) :
    (connectorEnqueueMsg s m).InRing ∧
    (((connectorEnqueueMsg s m).trace = s.trace ++ [.rejected m s.unread s.priv, .freed m] ∧
        (connectorEnqueueMsg s m).unread = s.unread) ∨
      ((connectorEnqueueMsg s m).trace = s.trace ++ [.accepted m, .published m] ∧
        (connectorEnqueueMsg s m).unread = s.unread ++ [m])) := by
  have hreject : (s.reject m s.unread).InRing ∧
      (s.reject m s.unread).trace = s.trace ++ [.rejected m s.unread s.priv, .freed m] ∧
      (s.reject m s.unread).unread = s.unread := by
    refine ⟨⟨?_, ?_⟩, ?_, ?_⟩
    · rw [reject, kfree_cnBufRead]
      exact h.read_lt
    · rw [reject, kfree_cnBufWrite]
      exact h.write_lt
    · rw [reject, kfree_trace, freeEvents, if_neg hm, log, List.append_assoc]
      rfl
    · rw [reject, unread, occupied, kfree_cnBufRead, kfree_cnBufWrite, kfree_cnMsgBuf]
      rfl
  unfold connectorEnqueueMsg
  dsimp only
  split
  · exact ⟨hreject.1, .inl hreject.2⟩
  · split
    · exact ⟨hreject.1, .inl hreject.2⟩
    · rename_i hnotFull _
      refine ⟨⟨h.read_lt, Nat.mod_lt _ (by decide)⟩, .inr ⟨List.append_assoc .., ?_⟩⟩
      -- The new slot was free, so that the others keep their messages.
      have hfree := Ring.stop_notMem_slots h.read_lt h.write_lt
      have hslots := Ring.slots_concat h.read_lt h.write_lt hnotFull
      change (Ring.slots cnBufSize s.cnBufRead ((s.cnBufWrite + 1) % cnBufSize)).map
        (Function.update s.cnMsgBuf s.cnBufWrite m) = _
      rw [hslots, List.map_append, unread, occupied]
      refine congrArg₂ (· ++ ·) (List.map_congr_left fun i hi => ?_) ?_
      · exact Function.update_of_ne (ne_of_mem_of_not_mem hi hfree) _ _
      · exact congrArg (fun m => [m]) (Function.update_self ..)

end Connector

/-! ## The calls -/

/-- The connector over the life of the module, with a record of what became of the messages. -/
structure Life where
  conn : Connector
  /-- How many messages were allocated. -/
  nalloc : ℕ
  /-- How many messages at the front of the ring `iwlagn_unregister_connector` has freed. -/
  swept : ℕ
  /-- Whether `iwlagn_register_connector` has dropped a message that was not freed. -/
  dropped : Bool
  /-- The accepted messages that each `iwlagn_unregister_connector` has left unfreed. -/
  left : List (List CnMsg)

inductive LifeAct
  /-- `iwlagn_register_connector`, with the result of `cn_add_callback`. -/
  | register (ret : ℤ)
  /-- `connector_enqueue_msg`, with a new message. -/
  | enqueue
  /-- The work item runs. -/
  | work
  | unregister
  | setPriv
  deriving DecidableEq

/-- The accepted messages that are not freed. -/
def unfreed (trace : List MsgEvent) : List CnMsg :=
  (accepted trace).filter (· ∉ freed trace)

namespace Life

def init : Life where
  conn := .init
  nalloc := 0
  swept := 0
  dropped := false
  left := []

def register (s : Life) (ret : ℤ) : Life :=
  if ret ≠ 0 then { s with conn := (iwlagnRegisterConnector s.conn ret).1 }
  else { s with
    conn := (iwlagnRegisterConnector s.conn ret).1
    swept := 0
    dropped := s.dropped || decide (s.swept < s.conn.unread.length) }

def enqueue (s : Life) : Life :=
  { s with conn := connectorEnqueueMsg s.conn (s.nalloc + 1), nalloc := s.nalloc + 1 }

def work (s : Life) : Life :=
  { s with conn := connectorSendAll { s.conn with workQueued := false }, swept := 0 }

def unregister (s : Life) : Life :=
  { s with
    conn := iwlagnUnregisterConnector s.conn
    swept := s.conn.unread.length
    left := s.left ++ [unfreed (iwlagnUnregisterConnector s.conn).trace] }

/-- A call. The work item runs when it is queued. -/
def step (s : Life) : LifeAct → Option Life
  | .register ret => some (s.register ret)
  | .enqueue => some s.enqueue
  | .work => if s.conn.workQueued = true then some s.work else none
  | .unregister => some s.unregister
  | .setPriv => some { s with conn := { s.conn with priv := true } }

end Life

/-- Nothing happens to a message after it was freed. -/
def FreedOnce (trace : List MsgEvent) : Prop :=
  trace.Pairwise fun e e' => ∀ m, e = .freed m → e' ≠ .sent m ∧ e' ≠ .freed m

/-- The messages are sent at most once and freed once. -/
structure Life.Safe (s : Life) : Prop where
  freedOnce : FreedOnce s.conn.trace
  sentOnce : (sent s.conn.trace).Nodup
  freedAll : ∀ l ∈ s.left, l = []

/-! ## The ledger -/

/-- The messages: `acc` were accepted, `snt` sent, `frd` freed, and `ring` are in the ring, the
first `swept` of them freed. -/
structure Ledger (acc snt frd ring : List CnMsg) (nalloc swept : ℕ) (dropped : Bool) : Prop where
  alloc : ∀ m, m ∈ acc ∨ m ∈ frd → m ≠ 0 ∧ m ≤ nalloc
  ringAcc : ∀ m ∈ ring, m ∈ acc
  sentAcc : ∀ m ∈ snt, m ∈ acc
  notSent : ∀ m ∈ ring, m ∉ snt
  nodup : ring.Nodup
  sweptLe : swept ≤ ring.length
  sweptFreed : ∀ m ∈ ring.take swept, m ∈ frd
  keptUnfreed : ∀ m ∈ ring.drop swept, m ∉ frd
  dropped_iff : dropped = true ↔ ∃ m ∈ acc, m ∉ frd ∧ m ∉ ring

namespace Ledger

variable {acc snt frd ring : List CnMsg} {nalloc swept : ℕ} {dropped : Bool}

theorem init : Ledger [] [] [] [] 0 0 false where
  alloc := fun m h => absurd h (by simp)
  ringAcc := fun m h => absurd h List.not_mem_nil
  sentAcc := fun m h => absurd h List.not_mem_nil
  notSent := fun m h => absurd h List.not_mem_nil
  nodup := List.nodup_nil
  sweptLe := le_rfl
  sweptFreed := fun m h => absurd h List.not_mem_nil
  keptUnfreed := fun m h => absurd h List.not_mem_nil
  dropped_iff := by simp

/-- The ring is emptied without a look at it. -/
theorem drop (h : Ledger acc snt frd ring nalloc swept dropped) :
    Ledger acc snt frd [] nalloc 0 (dropped || decide (swept < ring.length)) := by
  refine { h with
    ringAcc := fun m hm => absurd hm List.not_mem_nil
    notSent := fun m hm => absurd hm List.not_mem_nil
    nodup := List.nodup_nil
    sweptLe := le_rfl
    sweptFreed := fun m hm => absurd hm List.not_mem_nil
    keptUnfreed := fun m hm => absurd hm List.not_mem_nil
    dropped_iff := ?_ }
  rw [Bool.or_eq_true, h.dropped_iff, decide_eq_true_iff]
  constructor
  · rintro (⟨m, hacc, hfrd, -⟩ | hlt)
    · exact ⟨m, hacc, hfrd, List.not_mem_nil⟩
    · have hmem : ring[swept] ∈ ring.drop swept :=
        List.mem_drop_iff_getElem.2 ⟨0, by omega, rfl⟩
      exact ⟨ring[swept], h.ringAcc _ (List.getElem_mem hlt), h.keptUnfreed _ hmem,
        List.not_mem_nil⟩
  · rintro ⟨m, hacc, hfrd, -⟩
    by_cases hring : m ∈ ring
    · refine .inr ?_
      by_contra hge
      rw [← List.take_of_length_le (Nat.le_of_not_lt hge)] at hring
      exact hfrd (h.sweptFreed m hring)
    · exact .inl ⟨m, hacc, hfrd, hring⟩

/-- A new message is freed. -/
theorem reject (h : Ledger acc snt frd ring nalloc swept dropped) :
    Ledger acc snt (frd ++ [nalloc + 1]) ring (nalloc + 1) swept dropped := by
  have hold : ∀ m, m ∈ acc → m ≠ nalloc + 1 := by
    rintro m hm rfl
    exact Nat.not_succ_le_self _ (h.alloc _ (.inl hm)).2
  refine { h with alloc := ?_, sweptFreed := ?_, keptUnfreed := ?_, dropped_iff := ?_ }
  · rintro m (hm | hm)
    · exact (h.alloc m (.inl hm)).imp_right Nat.le_succ_of_le
    · rcases List.mem_append.1 hm with hm | hm
      · exact (h.alloc m (.inr hm)).imp_right Nat.le_succ_of_le
      · rw [List.mem_singleton.1 hm]
        exact ⟨Nat.succ_ne_zero _, le_rfl⟩
  · exact fun m hm => List.mem_append_left _ (h.sweptFreed m hm)
  · intro m hm hfrd
    rcases List.mem_append.1 hfrd with hfrd | hfrd
    · exact h.keptUnfreed m hm hfrd
    · exact hold m (h.ringAcc m (List.mem_of_mem_drop hm)) (List.mem_singleton.1 hfrd)
  · rw [h.dropped_iff]
    refine exists_congr fun m => and_congr_right fun hm => and_congr_left fun _ => ?_
    rw [List.mem_append, List.mem_singleton, or_iff_left (hold m hm)]

/-- A new message is put into the ring. -/
theorem accept (h : Ledger acc snt frd ring nalloc swept dropped) :
    Ledger (acc ++ [nalloc + 1]) snt frd (ring ++ [nalloc + 1]) (nalloc + 1) swept dropped := by
  have hnotAcc : nalloc + 1 ∉ acc := fun hm =>
    Nat.not_succ_le_self _ (h.alloc _ (.inl hm)).2
  have hnotFrd : nalloc + 1 ∉ frd := fun hm =>
    Nat.not_succ_le_self _ (h.alloc _ (.inr hm)).2
  refine ⟨?_, ?_, ?_, ?_, ?_, ?_, ?_, ?_, ?_⟩
  · rintro m (hm | hm)
    · rcases List.mem_append.1 hm with hm | hm
      · exact (h.alloc m (.inl hm)).imp_right Nat.le_succ_of_le
      · rw [List.mem_singleton.1 hm]
        exact ⟨Nat.succ_ne_zero _, le_rfl⟩
    · exact (h.alloc m (.inr hm)).imp_right Nat.le_succ_of_le
  · intro m hm
    rw [List.mem_append] at hm ⊢
    exact hm.imp_left (h.ringAcc m)
  · exact fun m hm => List.mem_append_left _ (h.sentAcc m hm)
  · intro m hm hsnt
    rcases List.mem_append.1 hm with hm | hm
    · exact h.notSent m hm hsnt
    · exact hnotAcc (List.mem_singleton.1 hm ▸ h.sentAcc m hsnt)
  · exact h.nodup.append (List.nodup_singleton _)
      (List.disjoint_singleton.2 fun hm => hnotAcc (h.ringAcc _ hm))
  · exact h.sweptLe.trans (List.length_append ▸ Nat.le_add_right ..)
  · rw [List.take_append_of_le_length h.sweptLe]
    exact h.sweptFreed
  · rw [List.drop_append_of_le_length h.sweptLe]
    intro m hm
    rcases List.mem_append.1 hm with hm | hm
    · exact h.keptUnfreed m hm
    · rwa [List.mem_singleton.1 hm]
  · rw [h.dropped_iff]
    constructor
    · rintro ⟨m, hacc, hfrd, hring⟩
      refine ⟨m, List.mem_append_left _ hacc, hfrd, fun hm => ?_⟩
      rcases List.mem_append.1 hm with hm | hm
      · exact hring hm
      · exact hnotAcc (List.mem_singleton.1 hm ▸ hacc)
    · rintro ⟨m, hacc, hfrd, hring⟩
      rw [List.mem_append, not_or] at hring
      exact ⟨m, (List.mem_append.1 hacc).resolve_right hring.2, hfrd, hring.1⟩

/-- The messages in the ring are freed, and stay in it. -/
theorem sweep (h : Ledger acc snt frd ring nalloc swept dropped) :
    Ledger acc snt (frd ++ ring) ring nalloc ring.length dropped := by
  refine { h with
    alloc := ?_, sweptLe := le_rfl, sweptFreed := ?_, keptUnfreed := ?_, dropped_iff := ?_ }
  · intro m hm
    rw [List.mem_append] at hm
    exact h.alloc m (hm.elim .inl fun hm => hm.elim .inr fun hm => .inl (h.ringAcc m hm))
  · exact fun m hm => List.mem_append_right _ (List.mem_of_mem_take hm)
  · rw [List.drop_length]
    exact fun m hm => absurd hm List.not_mem_nil
  · rw [h.dropped_iff]
    simp only [List.mem_append, not_or, and_assoc, and_self]

/-- The messages in the ring are sent, freed and gone. -/
theorem send (h : Ledger acc snt frd ring nalloc swept dropped) :
    Ledger acc (snt ++ ring) (frd ++ ring) [] nalloc 0 dropped := by
  have hsweep := h.sweep.drop
  rw [decide_eq_false (Nat.lt_irrefl _), Bool.or_false] at hsweep
  refine { hsweep with sentAcc := ?_, notSent := fun m hm => absurd hm List.not_mem_nil }
  intro m hm
  exact (List.mem_append.1 hm).elim (h.sentAcc m) (h.ringAcc m)

/-- The ring holds no message that was freed exactly when none of them was swept. -/
theorem unfreed_iff (h : Ledger acc snt frd ring nalloc swept dropped) :
    (∀ m ∈ ring, m ∉ frd) ↔ swept = 0 := by
  constructor
  · intro hunfreed
    by_contra hne
    obtain ⟨m, hm⟩ : ∃ m, m ∈ ring.take swept := by
      refine List.exists_mem_of_length_pos ?_
      have hle := h.sweptLe
      rw [List.length_take]
      omega
    exact hunfreed m (List.mem_of_mem_take hm) (h.sweptFreed m hm)
  · rintro rfl
    exact h.keptUnfreed

end Ledger

/-! ## The events of a loop over the ring -/

section Events

variable {ms : List CnMsg} (hms : ∀ m ∈ ms, m ≠ 0)
include hms

theorem flatMap_freeEvents : ms.flatMap freeEvents = ms.map .freed := by
  rw [← List.flatMap_singleton' (ms.map _), List.flatMap_map]
  exact List.flatMap_congr fun m hm => if_neg (hms m hm)

theorem flatMap_sendEvents :
    ms.flatMap sendEvents = ms.flatMap fun m => [.sent m, .freed m] :=
  List.flatMap_congr fun m hm => congrArg (_ :: ·) (if_neg (hms m hm))

end Events

theorem accepted_frees (ms : List CnMsg) : accepted (ms.map .freed) = [] := by
  induction ms with
  | nil => rfl
  | cons m ms ih => exact ih

theorem sent_frees (ms : List CnMsg) : sent (ms.map .freed) = [] := by
  induction ms with
  | nil => rfl
  | cons m ms ih => exact ih

theorem freed_frees (ms : List CnMsg) : freed (ms.map .freed) = ms := by
  induction ms with
  | nil => rfl
  | cons m ms ih => exact congrArg (m :: ·) ih

theorem accepted_sends (ms : List CnMsg) :
    accepted (ms.flatMap fun m => [.sent m, .freed m]) = [] := by
  induction ms with
  | nil => rfl
  | cons m ms ih => exact ih

theorem sent_sends (ms : List CnMsg) : sent (ms.flatMap fun m => [.sent m, .freed m]) = ms := by
  induction ms with
  | nil => rfl
  | cons m ms ih => exact congrArg (m :: ·) ih

theorem freed_sends (ms : List CnMsg) : freed (ms.flatMap fun m => [.sent m, .freed m]) = ms := by
  induction ms with
  | nil => rfl
  | cons m ms ih => exact congrArg (m :: ·) ih

theorem freedOnce_append {t u : List MsgEvent} :
    FreedOnce (t ++ u) ↔ FreedOnce t ∧ FreedOnce u ∧ ∀ m ∈ freed t, .sent m ∉ u ∧ .freed m ∉ u := by
  rw [FreedOnce, List.pairwise_append]
  refine and_congr_right fun _ => and_congr_right fun _ =>
    ⟨fun h m hm => ?_, fun h e he e' he' => ?_⟩
  · rw [mem_freed] at hm
    exact ⟨fun hs => (h _ hm _ hs m rfl).1 rfl, fun hf => (h _ hm _ hf m rfl).2 rfl⟩
  · rintro m rfl
    have hm := h m (mem_freed.2 he)
    exact ⟨fun hs => hm.1 (hs ▸ he'), fun hf => hm.2 (hf ▸ he')⟩

theorem freedOnce_frees {ms : List CnMsg} (hnodup : ms.Nodup) : FreedOnce (ms.map .freed) := by
  rw [FreedOnce, List.pairwise_map]
  refine hnodup.imp fun hne m h => ⟨nofun, fun h' => hne ?_⟩
  cases h
  cases h'
  rfl

theorem freedOnce_sends {ms : List CnMsg} (hnodup : ms.Nodup) :
    FreedOnce (ms.flatMap fun m => [.sent m, .freed m]) := by
  rw [FreedOnce, List.pairwise_flatMap]
  refine ⟨fun m _ => by simp, hnodup.imp fun hne e he e' he' m h => ?_⟩
  simp only [List.mem_cons, List.not_mem_nil, or_false] at he he'
  rcases he with rfl | rfl
  · cases h
  · cases h
    rcases he' with rfl | rfl <;> simpa using hne.symm

namespace Life

/-- Where the messages are. -/
def Inv (s : Life) : Prop :=
  s.conn.InRing ∧ Ledger (accepted s.conn.trace) (sent s.conn.trace) (freed s.conn.trace)
    s.conn.unread s.nalloc s.swept s.dropped

theorem inv_init : Inv init :=
  ⟨⟨by decide, by decide⟩, Ledger.init⟩

variable {s : Life}

/-- The messages in the ring are none of them `NULL`. -/
theorem Inv.ne_zero (h : s.Inv) (m : CnMsg) (hm : m ∈ s.conn.unread) : m ≠ 0 :=
  (h.2.alloc m (.inl (h.2.ringAcc m hm))).1

theorem Inv.register_trace (ret : ℤ) : (s.register ret).conn.trace = s.conn.trace := by
  unfold register iwlagnRegisterConnector
  split <;> rfl

theorem Inv.work_trace (h : s.Inv) :
    s.work.conn.trace = s.conn.trace ++ s.conn.unread.flatMap fun m => [.sent m, .freed m] := by
  rw [work, connectorSendAll_trace]
  exact congrArg (s.conn.trace ++ ·) (flatMap_sendEvents h.ne_zero)

theorem Inv.unregister_trace (h : s.Inv) :
    s.unregister.conn.trace = s.conn.trace ++ s.conn.unread.map .freed := by
  rw [unregister, Connector.unregister_trace, flatMap_freeEvents h.ne_zero]

theorem inv_register (h : s.Inv) (ret : ℤ) : (s.register ret).Inv := by
  unfold register iwlagnRegisterConnector
  split
  · exact h
  · have hpos : 0 < cnBufSize := by decide
    refine ⟨⟨hpos, hpos⟩, ?_⟩
    have hring : unread { s.conn with cnBufRead := 0, cnBufWrite := 0 } = [] :=
      congrArg (List.map _) (Ring.slots_self _ _)
    rw [hring]
    exact h.2.drop

theorem inv_enqueue (h : s.Inv) : s.enqueue.Inv := by
  obtain ⟨hin, hcases⟩ := connectorEnqueueMsg_cases s.conn (Nat.succ_ne_zero s.nalloc) h.1
  refine ⟨hin, ?_⟩
  rcases hcases with ⟨htrace, hring⟩ | ⟨htrace, hring⟩
  · rw [enqueue, htrace, hring, accepted_append, sent_append, freed_append]
    exact (List.append_nil (accepted _)).symm ▸ (List.append_nil (sent _)).symm ▸ h.2.reject
  · rw [enqueue, htrace, hring, accepted_append, sent_append, freed_append]
    exact (List.append_nil (freed _)).symm ▸ (List.append_nil (sent _)).symm ▸ h.2.accept

theorem inv_work (h : s.Inv) : s.work.Inv := by
  have hread : s.work.conn.cnBufRead = s.conn.cnBufWrite := rfl
  have hwrite : s.work.conn.cnBufWrite = s.conn.cnBufWrite := connectorSendAll_cnBufWrite _
  have hring : s.work.conn.unread = [] := connectorSendAll_unread _
  refine ⟨⟨hread ▸ h.1.write_lt, hwrite ▸ h.1.write_lt⟩, ?_⟩
  rw [h.work_trace, hring, accepted_append, sent_append, freed_append, accepted_sends, sent_sends,
    freed_sends, List.append_nil]
  exact h.2.send

theorem inv_unregister (h : s.Inv) : s.unregister.Inv := by
  have hring : s.unregister.conn.unread = s.conn.unread := unregister_unread _
  refine ⟨⟨?_, ?_⟩, ?_⟩
  · exact (unregister_cnBufRead s.conn).trans_lt h.1.read_lt
  · exact (unregister_cnBufWrite s.conn).trans_lt h.1.write_lt
  · rw [h.unregister_trace, hring, accepted_append, sent_append, freed_append, accepted_frees,
      sent_frees, freed_frees, List.append_nil, List.append_nil]
    exact h.2.sweep

/-- A call keeps the ledger. -/
theorem inv_step {s' : Life} {a : LifeAct} (h : s.Inv) (hstep : s.step a = some s') : s'.Inv := by
  cases a with
  | register ret => cases hstep; exact inv_register h ret
  | enqueue => cases hstep; exact inv_enqueue h
  | work =>
    simp only [step, Option.ite_none_right_eq_some, Option.some.injEq] at hstep
    obtain ⟨-, rfl⟩ := hstep
    exact inv_work h
  | unregister => cases hstep; exact inv_unregister h
  | setPriv => cases hstep; exact ⟨⟨h.1.read_lt, h.1.write_lt⟩, h.2⟩

/-! ## When the messages are safe -/

/-- The condition on a call: when the work item runs and when the connector is unregistered, no
message in the ring was freed by an earlier `iwlagn_unregister_connector`, and when it is
unregistered, `iwlagn_register_connector` has not dropped any. -/
def Clean (s : Life) : LifeAct → Prop
  | .work => s.swept = 0
  | .unregister => s.swept = 0 ∧ s.dropped = false
  | _ => True

instance (s : Life) (a : LifeAct) : Decidable (s.Clean a) := by
  unfold Clean
  split <;> infer_instance

theorem safe_enqueue_iff (h : s.Inv) : s.enqueue.Safe ↔ s.Safe := by
  have hnotFrd : ∀ m ∈ freed s.conn.trace, m ≠ s.nalloc + 1 := by
    rintro m hm rfl
    exact Nat.not_succ_le_self _ (h.2.alloc _ (.inr hm)).2
  obtain ⟨-, hcases⟩ := connectorEnqueueMsg_cases s.conn (Nat.succ_ne_zero s.nalloc) h.1
  suffices htrace : (FreedOnce s.enqueue.conn.trace ↔ FreedOnce s.conn.trace) ∧
      sent s.enqueue.conn.trace = sent s.conn.trace by
    constructor
    · exact fun hsafe => ⟨htrace.1.1 hsafe.freedOnce, htrace.2 ▸ hsafe.sentOnce, hsafe.freedAll⟩
    · exact fun hsafe => ⟨htrace.1.2 hsafe.freedOnce, htrace.2.symm ▸ hsafe.sentOnce,
        hsafe.freedAll⟩
  rcases hcases with ⟨htrace, -⟩ | ⟨htrace, -⟩
  · rw [enqueue, htrace, freedOnce_append, sent_append]
    refine ⟨and_iff_left ⟨?_, fun m hm => ⟨?_, ?_⟩⟩, List.append_nil _⟩
    · simp [FreedOnce]
    · simp
    · simpa using hnotFrd m hm
  · rw [enqueue, htrace, freedOnce_append, sent_append]
    refine ⟨and_iff_left ⟨?_, fun m hm => ⟨?_, ?_⟩⟩, List.append_nil _⟩
    · simp [FreedOnce]
    · simp
    · simp

theorem safe_work_iff (h : s.Inv) : s.work.Safe ↔ s.Safe ∧ s.swept = 0 := by
  have htrace : FreedOnce s.work.conn.trace ↔ FreedOnce s.conn.trace ∧ s.swept = 0 := by
    rw [h.work_trace, freedOnce_append, ← h.2.unfreed_iff]
    refine and_congr_right fun _ => (and_iff_right (freedOnce_sends h.2.nodup)).trans ?_
    simp only [List.mem_flatMap, List.mem_cons, List.not_mem_nil, or_false, not_exists, not_and]
    constructor
    · exact fun hfrd m hring hm => (hfrd m hm).1 m hring (.inl rfl)
    · refine fun hring m hm => ⟨fun m' hm' he => ?_, fun m' hm' he => ?_⟩
      · rcases he with he | he <;> cases he
        exact hring m hm' hm
      · rcases he with he | he <;> cases he
        exact hring m hm' hm
  have hsent : (sent s.work.conn.trace).Nodup ↔ (sent s.conn.trace).Nodup := by
    rw [h.work_trace, sent_append, sent_sends, List.nodup_append']
    refine and_iff_left ⟨h.2.nodup, fun m hm hring => h.2.notSent m hring hm⟩
  constructor
  · intro hsafe
    obtain ⟨hfreed, hswept⟩ := htrace.1 hsafe.freedOnce
    exact ⟨⟨hfreed, hsent.1 hsafe.sentOnce, hsafe.freedAll⟩, hswept⟩
  · rintro ⟨hsafe, hswept⟩
    exact ⟨htrace.2 ⟨hsafe.freedOnce, hswept⟩, hsent.2 hsafe.sentOnce, hsafe.freedAll⟩

/-- Nothing accepted is left unfreed when nothing was dropped. -/
theorem Inv.unfreed_eq_nil_iff (h : s.Inv) :
    unfreed s.unregister.conn.trace = [] ↔ s.dropped = false := by
  rw [← Bool.not_eq_true, h.2.dropped_iff, h.unregister_trace, unfreed, accepted_append,
    accepted_frees, freed_append, freed_frees, List.append_nil, List.filter_eq_nil_iff]
  simp

theorem safe_unregister_iff (h : s.Inv) :
    s.unregister.Safe ↔ s.Safe ∧ s.swept = 0 ∧ s.dropped = false := by
  have htrace : FreedOnce s.unregister.conn.trace ↔ FreedOnce s.conn.trace ∧ s.swept = 0 := by
    rw [h.unregister_trace, freedOnce_append, ← h.2.unfreed_iff]
    refine and_congr_right fun _ => (and_iff_right (freedOnce_frees h.2.nodup)).trans ?_
    constructor
    · exact fun hfrd m hring hm => (hfrd m hm).2 (List.mem_map_of_mem hring)
    · refine fun hring m hm => ⟨by simp, fun hm' => ?_⟩
      obtain ⟨m', hm', he⟩ := List.mem_map.1 hm'
      cases he
      exact hring m hm' hm
  have hsent : sent s.unregister.conn.trace = sent s.conn.trace := by
    rw [h.unregister_trace, sent_append, sent_frees, List.append_nil]
  have hleft : (∀ l ∈ s.unregister.left, l = []) ↔ (∀ l ∈ s.left, l = []) ∧ s.dropped = false := by
    rw [← h.unfreed_eq_nil_iff]
    exact List.forall_mem_append.trans (and_congr_right fun _ => List.forall_mem_singleton)
  constructor
  · rintro ⟨hfreed, hsnt, hall⟩
    obtain ⟨hfreed, hswept⟩ := htrace.1 hfreed
    obtain ⟨hall, hdropped⟩ := hleft.1 hall
    exact ⟨⟨hfreed, hsent ▸ hsnt, hall⟩, hswept, hdropped⟩
  · rintro ⟨⟨hfreed, hsnt, hall⟩, hswept, hdropped⟩
    exact ⟨htrace.2 ⟨hfreed, hswept⟩, hsent.symm ▸ hsnt, hleft.2 ⟨hall, hdropped⟩⟩

/-- A call keeps the messages safe exactly when it meets the condition. -/
theorem safe_step {s' : Life} {a : LifeAct} (h : s.Inv) (hstep : s.step a = some s') :
    s'.Safe ↔ s.Safe ∧ s.Clean a := by
  cases a with
  | register ret =>
    cases hstep
    refine Iff.trans ?_ (and_iff_left trivial).symm
    have htrace := Inv.register_trace (s := s) ret
    have hleft : (s.register ret).left = s.left := by
      unfold register
      split <;> rfl
    constructor
    · exact fun hs => ⟨htrace ▸ hs.freedOnce, htrace ▸ hs.sentOnce, hleft ▸ hs.freedAll⟩
    · exact fun hs => ⟨htrace.symm ▸ hs.freedOnce, htrace.symm ▸ hs.sentOnce,
        hleft.symm ▸ hs.freedAll⟩
  | enqueue =>
    cases hstep
    exact (safe_enqueue_iff h).trans (and_iff_left trivial).symm
  | work =>
    simp only [step, Option.ite_none_right_eq_some, Option.some.injEq] at hstep
    obtain ⟨-, rfl⟩ := hstep
    exact safe_work_iff h
  | unregister => cases hstep; exact safe_unregister_iff h
  | setPriv =>
    cases hstep
    exact ⟨fun hs => ⟨⟨hs.freedOnce, hs.sentOnce, hs.freedAll⟩, trivial⟩,
      fun hs => ⟨hs.1.freedOnce, hs.1.sentOnce, hs.1.freedAll⟩⟩

theorem safe_init : init.Safe :=
  ⟨List.Pairwise.nil, List.nodup_nil, fun _ h => absurd h List.not_mem_nil⟩

/-- **Freed exactly once.** In a run from the loading of the module, the messages are safe if and
only if the work item and `iwlagn_unregister_connector` never meet a message in the ring that was
freed by an earlier `iwlagn_unregister_connector`, and nothing is dropped before an
unregistering. -/
theorem life_safe_iff {acts : List LifeAct} (hrun : Lts.exec step init acts = some s) :
    s.Safe ↔ Lts.Meets step Clean init acts := by
  rw [Lts.exec_iff step (I := Inv) (P := Safe) (fun _ _ _ => inv_step) (fun _ _ _ => safe_step)
    inv_init hrun]
  exact and_iff_right safe_init

/-- The module is loaded, a message is passed on, and the module is unloaded. -/
def loadUnload : List LifeAct := [.register 0, .setPriv, .enqueue, .work, .enqueue, .unregister]

theorem life_safe_loadUnload :
    ∃ s, Lts.exec step init loadUnload = some s ∧ s.Safe ∧
      s.conn.trace = [.accepted 1, .published 1, .sent 1, .freed 1, .accepted 2, .published 2,
        .freed 2] := by
  have htrace : (Lts.exec step init loadUnload).map (fun s => s.conn.trace) =
      some [.accepted 1, .published 1, .sent 1, .freed 1, .accepted 2, .published 2,
        .freed 2] := by decide +kernel
  obtain ⟨s, hs, htrace⟩ := Option.map_eq_some_iff.1 htrace
  exact ⟨s, hs, (life_safe_iff hs).2 (by decide +kernel), htrace⟩

/-- The work item runs after the connector was unregistered. -/
def workAfter : List LifeAct := [.register 0, .setPriv, .enqueue, .unregister, .work]

/-- **A message is sent and freed after it was freed.** -/
theorem sent_after_freed : ∃ s, Lts.exec step init workAfter = some s ∧ ¬ s.Safe := by
  have htrace : (Lts.exec step init workAfter).map (fun s => s.conn.trace) =
      some [.accepted 1, .published 1, .freed 1, .sent 1, .freed 1] := by decide +kernel
  obtain ⟨s, hs, htrace⟩ := Option.map_eq_some_iff.1 htrace
  refine ⟨s, hs, fun h => ?_⟩
  have hfreed := h.freedOnce
  rw [htrace] at hfreed
  simp [FreedOnce] at hfreed

end Life

end Iax.Dvm
