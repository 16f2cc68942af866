import Iax.Lib.Lts
import Iax.Queue.TxqRing
import Mathlib.Algebra.Order.Group.Multiset
import Mathlib.Tactic.Abel

/-!
# Runs of a transmit queue

The op mode transmits, the firmware gives descriptors back, and `iwl_txq_reclaim` sends the frames
of `overflow_q` without the lock, so that other calls come in between; it is not called again before
it is done. Such a run is a list of actions.

* `txq_accounted`: every frame that was accepted is on the ring, waits, was handed back, was freed
  or was lost, and is so exactly once; every call returns.
* `txq_never_stuck`: frames wait only while the queue is stopped, and a stopped queue has frames on
  its ring whose return sends the waiting ones.
* `txq_fifo`: when the op mode heeds a stopped queue, the frames keep their order.
* `txq_watchdog`: the watchdog runs while frames are on the ring.
-/

namespace Iax.Queue

variable {F : Type*}

/-! ## The op mode's view -/

/-- The op mode is told in turn that the queue is full and that it has room again. -/
def hear : Bool → OpModeCall F → Option Bool
  | false, .queueFull => some true
  | true, .queueNotFull => some false
  | stopped, .freeSkb _ => some stopped
  | _, _ => none

/-- The frames that were freed. -/
def freed (calls : List (OpModeCall F)) : List F :=
  calls.filterMap fun
    | .freeSkb skb => some skb
    | _ => none

@[simp] theorem freed_append (calls calls' : List (OpModeCall F)) :
    freed (calls ++ calls') = freed calls ++ freed calls' :=
  List.filterMap_append

@[simp] theorem freed_map_freeSkb (skbs : List F) : freed (skbs.map .freeSkb) = skbs := by
  simp [freed, List.filterMap_map]

/-- The op mode's view after the calls agrees with the bit of the queue. -/
def Heard (trans : Trans F) : Prop := Lts.exec hear false trans.opMode = some trans.queueStopped

theorem Heard.iwlTxqStop {trans : Trans F} (h : Heard trans) : Heard trans.iwlTxqStop := by
  unfold Heard at *
  rw [Trans.iwlTxqStop]
  split
  · exact h
  · rename_i hstopped
    rw [Bool.not_eq_true] at hstopped
    rw [Lts.exec_append, h, hstopped]
    rfl

theorem Heard.iwlWakeQueue {trans : Trans F} (h : Heard trans) : Heard trans.iwlWakeQueue := by
  unfold Heard at *
  rw [Trans.iwlWakeQueue]
  split
  · rename_i hstopped
    rw [Lts.exec_append, h, hstopped]
    rfl
  · exact h

theorem exec_hear_freeSkb (stopped : Bool) (skbs : List F) :
    Lts.exec hear stopped (skbs.map .freeSkb) = some stopped := by
  induction skbs with
  | nil => rfl
  | cons skb skbs ih => cases stopped <;> simpa [hear] using ih

theorem Heard.freeSkb {trans : Trans F} (h : Heard trans) (skbs : List F) :
    Heard { trans with opMode := trans.opMode ++ skbs.map .freeSkb } := by
  unfold Heard at *
  rw [Lts.exec_append, h, Option.bind_some, exec_hear_freeSkb]

namespace Trans

@[simp] theorem iwlTxqStop_freed (trans : Trans F) :
    freed trans.iwlTxqStop.opMode = freed trans.opMode := by
  unfold iwlTxqStop
  split
  · rfl
  · simp [freed]

@[simp] theorem iwlWakeQueue_freed (trans : Trans F) :
    freed trans.iwlWakeQueue.opMode = freed trans.opMode := by
  unfold iwlWakeQueue
  split
  · simp [freed]
  · rfl

/-! ## The invariant of the transport -/

/-- The invariant: there is room for one more frame, frames wait only in a stopped queue, and a
stopped queue has little room, unless `overflow_q` is being sent (`flushing`); while it is sent,
frames wait again only when there is no room. -/
structure Inv (trans : Trans F) (flushing : Bool) (xs : List F) : Prop where
  fifo : trans.Fifo xs
  room : xs.length < trans.capacity
  waits : trans.txq.overflowQ ≠ [] → trans.queueStopped = true
  again : trans.txq.overflowQ ≠ [] → flushing = true →
    trans.capacity - xs.length < min trans.txq.highMark 3
  low : trans.queueStopped = true → flushing = false →
    trans.capacity - xs.length ≤ trans.txq.lowMark
  heard : Heard trans
  used : trans.queueUsed = true

variable {trans : Trans F} {flushing : Bool} {xs : List F}

/-- Stopping a queue that has no room keeps the invariant. -/
theorem Inv.iwlTxqStop (h : trans.Inv flushing xs)
    (hroom : trans.iwlTxqSpace < trans.txq.highMark) : trans.iwlTxqStop.Inv flushing xs := by
  have hcap : trans.iwlTxqStop.capacity = trans.capacity := by simp [capacity]
  have hfifo : trans.iwlTxqStop.Fifo xs := h.fifo.of_ring_eq (by simp [sizes]) (by simp [ring])
  have hspace := h.fifo.space_eq
  have hle := h.fifo.high_le
  refine ⟨hfifo, hcap ▸ h.room, fun _ => iwlTxqStop_queueStopped, ?_, ?_, h.heard.iwlTxqStop,
    iwlTxqStop_queueUsed.trans h.used⟩
  · rw [hcap, iwlTxqStop_txq]
    exact h.again
  · rw [hcap, iwlTxqStop_txq]
    omega

/-- What a call that transmits `skb` and returns `ret` does: the frame comes on the ring (`onRing`),
or it waits (`waits`), or it is not taken. -/
structure Sends (trans trans' : Trans F) (ret : ℤ) (skb : F) (onRing waits : List F) : Prop where
  taken : ret = 0 → onRing ++ waits = [skb]
  refused : ret ≠ 0 → onRing ++ waits = []
  stopped : trans.queueStopped = true → trans'.queueStopped = true
  overflowQ_eq : trans'.txq.overflowQ = trans.txq.overflowQ ++ waits
  freed_eq : freed trans'.opMode = freed trans.opMode

/-- The frame goes on the ring of a queue with room. -/
theorem Inv.txOnRing (h : trans.Inv flushing xs)
    (hroom : min trans.txq.highMark 3 ≤ trans.iwlTxqSpace)
    (r : TxRequest F) (jiffies : ℕ) : ∃ onRing,
      (trans.txOnRing r jiffies).2.Inv flushing (xs ++ onRing) ∧
      Sends trans (trans.txOnRing r jiffies).2 (trans.txOnRing r jiffies).1 r.skb onRing [] := by
  have hspace := h.fifo.space_eq
  have hhigh := h.fifo.high_ge
  rcases h.fifo.txOnRing (by omega) r jiffies with
    ⟨-, entries, heq, hfifo⟩ | ⟨-, entries, timer, writePtr, heq, hfifo⟩
  · rw [heq] at hfifo ⊢
    refine ⟨[], ?_, ⟨by simp, by simp, id, (List.append_nil _).symm, rfl⟩⟩
    rw [List.append_nil]
    exact ⟨hfifo, h.room, h.waits, h.again, h.low, h.heard, h.used⟩
  · rw [heq] at hfifo ⊢
    refine ⟨[r.skb], ⟨hfifo, ?_, h.waits, ?_, ?_, h.heard, h.used⟩,
      ⟨by simp, by simp, id, (List.append_nil _).symm, rfl⟩⟩
    · change (xs ++ [r.skb]).length < trans.capacity
      rw [List.length_append, List.length_singleton]
      omega
    · intro hwaits hflush
      have := h.again hwaits hflush
      omega
    · intro hstop hflush
      have := h.low hstop hflush
      change trans.capacity - (xs ++ [r.skb]).length ≤ trans.txq.lowMark
      rw [List.length_append]
      omega

/-- **Transmission keeps the invariant**; while `overflow_q` is sent and frames wait again, nothing
comes on the ring. -/
theorem Inv.iwlTransTx (h : trans.Inv flushing xs) (r : TxRequest F) (jiffies : ℕ) :
    ∃ onRing waits, (trans.iwlTransTx r jiffies).2.Inv flushing (xs ++ onRing) ∧
      Sends trans (trans.iwlTransTx r jiffies).2 (trans.iwlTransTx r jiffies).1 r.skb onRing waits ∧
      (flushing = true → trans.txq.overflowQ ≠ [] → onRing = []) := by
  have hspace := h.fifo.space_eq
  rcases iwlTransTx_cases trans r jiffies with ⟨hret, heq⟩ | ⟨hroom, heq⟩ | ⟨hroom, heq⟩
  · refine ⟨[], [], ?_, ⟨fun h0 => absurd h0 hret, fun _ => rfl, ?_, ?_, ?_⟩,
      fun _ _ => rfl⟩
    · rw [heq, List.append_nil]
      exact h
    · rw [heq]
      exact id
    · rw [heq, List.append_nil]
    · rw [heq]
  · have hstop := h.iwlTxqStop (by omega)
    have hcap : trans.iwlTxqStop.capacity = trans.capacity := by simp [capacity]
    refine ⟨[], [r.skb], ?_, ⟨?_, ?_, ?_, ?_, ?_⟩, fun _ _ => rfl⟩
    · rw [heq, List.append_nil]
      refine ⟨hstop.fifo.of_ring_eq rfl rfl, hstop.room, fun _ => iwlTxqStop_queueStopped, ?_,
        hstop.low, hstop.heard, hstop.used⟩
      intro _ _
      change trans.iwlTxqStop.capacity - xs.length < min trans.iwlTxqStop.txq.highMark 3
      rw [hcap, iwlTxqStop_txq]
      omega
    · exact fun _ => rfl
    · rw [heq]
      exact fun hret => absurd rfl hret
    · rw [heq]
      exact fun _ => iwlTxqStop_queueStopped
    · rw [heq]
    · rw [heq]
      exact iwlTxqStop_freed trans
  · rw [heq]
    have hfull : flushing = true → trans.txq.overflowQ ≠ [] → False := fun hflush hwaits => by
      have := h.again hwaits hflush
      omega
    split
    · rename_i hlow
      obtain ⟨onRing, hinv, hsends⟩ := (h.iwlTxqStop hlow).txOnRing (by simpa using hroom)
        r jiffies
      refine ⟨onRing, [], hinv, ⟨hsends.taken, hsends.refused,
        fun _ => hsends.stopped iwlTxqStop_queueStopped, ?_, ?_⟩,
        fun hflush hwaits => (hfull hflush hwaits).elim⟩
      · rw [hsends.overflowQ_eq, iwlTxqStop_txq]
      · rw [hsends.freed_eq, iwlTxqStop_freed]
    · obtain ⟨onRing, hinv, hsends⟩ := h.txOnRing hroom r jiffies
      exact ⟨onRing, [], hinv, hsends, fun hflush hwaits => (hfull hflush hwaits).elim⟩

/-- Frames are taken off the ring. -/
theorem Inv.setRead (h : trans.Inv flushing xs) {ys : List F} {entries : ℕ → Option F} {readPtr : ℕ}
    (hfifo : (trans.setRead entries readPtr).Fifo ys) (hlen : ys.length ≤ xs.length)
    (timer : TimerList) :
    Fifo { trans.setRead entries readPtr with txq.stuckTimer := timer } ys ∧
      ys.length < trans.capacity :=
  ⟨hfifo.of_ring_eq rfl rfl, hlen.trans_lt h.room⟩

/-- What a call of `iwl_txq_reclaim` does: it hands back `skbs`, and takes over the waiting frames
when the queue is stopped and there is room again. -/
structure Reclaims (trans : Trans F) (r : Reclaimed F) (xs ys : List F) : Prop where
  split : xs = r.skbs ++ ys
  inv : r.trans.Inv r.overflowSkbs.isSome ys
  waiting : trans.txq.overflowQ = r.overflowSkbs.getD [] ++ r.trans.txq.overflowQ
  stopped : r.trans.queueStopped = trans.queueStopped
  taken : r.overflowSkbs.isSome = true → r.trans.queueStopped = true ∧ r.trans.txq.overflowQ = []
  freed_eq : freed r.trans.opMode = freed trans.opMode

/-- **Reclaim keeps the invariant**, and comes to its end. -/
theorem Inv.iwlTxqReclaim (h : trans.Inv false xs) (ssn jiffies : ℕ) :
    ∃ r ys, trans.iwlTxqReclaim ssn jiffies [] = some r ∧ Reclaims trans r xs ys := by
  rcases h.fifo.iwlTxqReclaim_eq ssn jiffies
    with ⟨-, heq⟩ | ⟨-, -, hin, entries, readPtr, heq, hfifo⟩
  · exact ⟨_, xs, heq, ⟨rfl, h, rfl, rfl, fun hnone => absurd hnone Bool.false_ne_true, rfl⟩⟩
  · obtain ⟨timer, htimer⟩ := iwlTxqProgress_eq (trans.setRead entries readPtr) jiffies
    obtain ⟨hfifo', hroom⟩ := h.setRead hfifo (by simp) timer
    have hspace := hfifo'.space_eq
    rw [htimer] at heq
    refine ⟨_, xs.drop (trans.ahead ssn), heq, ?_⟩
    unfold spliceOverflow
    split
    · rename_i hflush
      refine ⟨(List.take_append_drop ..).symm, ⟨hfifo'.of_ring_eq rfl rfl, hroom,
        fun hwaits => absurd rfl hwaits, fun hwaits => absurd rfl hwaits,
        fun _ hflush' => absurd hflush' (Bool.false_ne_true ∘ Eq.symm), h.heard, h.used⟩,
        (List.append_nil _).symm, rfl, fun _ => ⟨hflush.2, rfl⟩, rfl⟩
    · rename_i hflush
      refine ⟨(List.take_append_drop ..).symm, ⟨hfifo', hroom, h.waits,
        fun _ hsome => absurd hsome Bool.false_ne_true, ?_, h.heard, h.used⟩,
        rfl, rfl, fun hsome => absurd hsome Bool.false_ne_true, rfl⟩
      intro hstopped _
      have hlow := (not_and_or.1 hflush).resolve_right (not_not.2 hstopped)
      exact hspace ▸ Nat.le_of_not_lt hlow

/-- **The end of `iwl_txq_reclaim`** wakes the queue when there is room. -/
theorem Inv.endOverflow (h : trans.Inv true xs) : trans.endOverflow.Inv false xs := by
  have hspace := h.fifo.space_eq
  unfold Trans.endOverflow
  split
  · rename_i hroom
    have hfifo : trans.iwlWakeQueue.Fifo xs := h.fifo.of_ring_eq (by simp [sizes]) (by simp [ring])
    have hcap : trans.iwlWakeQueue.capacity = trans.capacity := by simp [capacity]
    have hempty : trans.txq.overflowQ = [] := by
      by_contra hwaits
      have := h.again hwaits rfl
      have := h.fifo.high_le
      omega
    refine ⟨hfifo.of_ring_eq rfl rfl, hcap ▸ h.room, ?_, ?_, ?_, h.heard.iwlWakeQueue,
      iwlWakeQueue_queueUsed.trans h.used⟩
    · exact fun hwaits => absurd (by simpa using hempty) hwaits
    · exact fun hwaits => absurd (by simpa using hempty) hwaits
    · exact fun hstopped => absurd (iwlWakeQueue_queueStopped.symm.trans hstopped) (by simp)
  · rename_i hroom
    refine ⟨h.fifo.of_ring_eq rfl rfl, h.room, h.waits,
      fun _ hflush => absurd hflush Bool.false_ne_true, fun _ _ => ?_, h.heard, h.used⟩
    exact hspace ▸ Nat.le_of_not_lt hroom

/-- **Teardown keeps the invariant**, and comes to its end. -/
theorem Inv.iwlTxqGen2Unmap (h : trans.Inv flushing xs) : ∃ t, trans.iwlTxqGen2Unmap = some t ∧
    t.Inv flushing [] ∧ t.txq.overflowQ = [] ∧
    freed t.opMode = freed trans.opMode ++ (xs ++ trans.txq.overflowQ) := by
  obtain ⟨entries, readPtr, heq, hfifo⟩ := h.fifo.iwlTxqGen2Unmap_eq
  refine ⟨_, heq, ⟨hfifo.of_ring_eq (by simp [sizes]) (by simp [ring]), ?_, ?_, ?_, ?_, ?_, ?_⟩,
    ?_, ?_⟩
  · have hroom := Nat.zero_lt_of_lt h.room
    simpa [capacity, Trans.setRead] using hroom
  · simp
  · simp
  · simp
  · have hfreed : Heard { trans.setRead entries readPtr with
        txq.overflowQ := []
        opMode := trans.opMode ++ (xs ++ trans.txq.overflowQ).map .freeSkb } := h.heard.freeSkb _
    exact hfreed.iwlWakeQueue
  · exact iwlWakeQueue_queueUsed.trans h.used
  · simp
  · rw [iwlWakeQueue_freed, freed_append, freed_map_freeSkb]

/-- The watchdog is not about the frames. -/
theorem Inv.iwlTransTxqFreezeTimer (h : trans.Inv flushing xs) (freeze : Bool) (now : ℕ) :
    (trans.iwlTransTxqFreezeTimer freeze now).Inv flushing xs ∧
      (trans.iwlTransTxqFreezeTimer freeze now).txq.overflowQ = trans.txq.overflowQ ∧
      (trans.iwlTransTxqFreezeTimer freeze now).opMode = trans.opMode ∧
      (trans.iwlTransTxqFreezeTimer freeze now).queueStopped = trans.queueStopped := by
  have hframe : ∀ (b : Bool) (remainder : ℕ) (timer : TimerList), Inv { trans with
      txq.frozen := b, txq.frozenExpiryRemainder := remainder, txq.stuckTimer := timer }
        flushing xs :=
    fun b remainder timer =>
      ⟨h.fifo.of_ring_eq rfl rfl, h.room, h.waits, h.again, h.low, h.heard, h.used⟩
  unfold Trans.iwlTransTxqFreezeTimer
  split
  · exact ⟨h, rfl, rfl, rfl⟩
  · dsimp only
    split
    · exact ⟨hframe _ _ _, rfl, rfl, rfl⟩
    · split
      · split
        · exact ⟨hframe _ _ _, rfl, rfl, rfl⟩
        · exact ⟨hframe _ _ _, rfl, rfl, rfl⟩
      · exact ⟨hframe _ _ _, rfl, rfl, rfl⟩

end Trans

/-! ## Runs -/

/-- The transport, the frames that a call of `iwl_txq_reclaim` which is under way has still to
transmit, and what has become of the frames: those that `iwl_trans_tx` took, those that were handed
back, and those that `iwl_txq_reclaim` could not transmit and has dropped. -/
structure World (F : Type*) where
  trans : Trans F
  overflowSkbs : Option (List F)
  sent : List F
  reclaimed : List F
  lost : List F

/-- A queue that was just set up. -/
def World.start (maxTfdQueueSize : ℕ) (txq : Txq F) : World F :=
  ⟨⟨maxTfdQueueSize, true, false, txq, []⟩, none, [], [], []⟩

/-- What can happen: a call of the op mode, the steps of `iwl_txq_reclaim`, the end of the queue,
and what is done to its watchdog. -/
inductive Action (F : Type*)
  | tx (r : TxRequest F) (jiffies : ℕ)
  | reclaim (ssn jiffies : ℕ)
  | overflow (fwAlive linear mapped : Bool) (jiffies : ℕ)
  | endOverflow
  | unmap
  | freezeTimer (freeze : Bool) (now : ℕ)
  | stuckTimer

/-- One action, `none` when it is not enabled. -/
def step (w : World F) : Action F → Option (World F)
  | .tx r jiffies =>
    let (ret, t) := w.trans.iwlTransTx r jiffies
    some { w with trans := t, sent := if ret = 0 then w.sent ++ [r.skb] else w.sent }
  | .reclaim ssn jiffies =>
    match w.overflowSkbs with
    | some _ => none
    | none => (w.trans.iwlTxqReclaim ssn jiffies []).map fun r => { w with
        trans := r.trans, overflowSkbs := r.overflowSkbs, reclaimed := w.reclaimed ++ r.skbs }
  | .overflow fwAlive linear mapped jiffies =>
    match w.overflowSkbs with
    | some (skb :: skbs) =>
      let (ret, t) := w.trans.iwlTransTx ⟨skb, fwAlive, linear, mapped⟩ jiffies
      some { w with
        trans := t
        overflowSkbs := some skbs
        lost := if ret = 0 then w.lost else w.lost ++ [skb] }
    | _ => none
  | .endOverflow =>
    match w.overflowSkbs with
    | some [] => some { w with trans := w.trans.endOverflow, overflowSkbs := none }
    | _ => none
  | .unmap => w.trans.iwlTxqGen2Unmap.map fun t => { w with trans := t }
  | .freezeTimer freeze now =>
    some { w with trans := w.trans.iwlTransTxqFreezeTimer freeze now }
  | .stuckTimer =>
    if w.trans.txq.stuckTimer.pending then
      some { w with trans.txq.stuckTimer.pending := false }
    else none

namespace World

/-- The frames that `iwl_txq_reclaim` has still to transmit. -/
def flushing (w : World F) : List F := w.overflowSkbs.getD []

/-- Where the frames are. -/
def frames (w : World F) (xs : List F) : Multiset F :=
  ↑(w.reclaimed ++ xs ++ w.trans.txq.overflowQ ++ w.flushing ++ w.lost ++ freed w.trans.opMode)

/-- The invariant of a run, in which the ring holds `xs`. -/
structure Inv (w : World F) (xs : List F) : Prop where
  inv : w.trans.Inv w.overflowSkbs.isSome xs
  accounted : (w.sent : Multiset F) = w.frames xs

/-- The frames that were handed back and those that are still to come are in the order in which they
were sent; while `iwl_txq_reclaim` transmits, the queue is stopped. -/
structure Ordered (w : World F) (xs : List F) : Prop where
  sublist : (w.reclaimed ++ xs ++ w.trans.txq.overflowQ ++ w.flushing).Sublist w.sent
  stopped : w.overflowSkbs.isSome = true → w.trans.queueStopped = true

/-- The op mode heeds a stopped queue, and does not tear the queue down while `iwl_txq_reclaim`
transmits. -/
def Heeds (w : World F) : Action F → Prop
  | .tx _ _ => w.trans.queueStopped = false
  | .unmap => w.overflowSkbs = none
  | _ => True

instance (w : World F) (a : Action F) : Decidable (w.Heeds a) := by
  cases a <;> unfold Heeds <;> infer_instance

variable {w w' : World F} {xs : List F}

/-- What is kept by an action that leads to `w'`. -/
def Keeps (w : World F) (xs : List F) (a : Action F) (w' : World F) (ys : List F) : Prop :=
  w'.Inv ys ∧ (w.Heeds a → w.Ordered xs → w'.Ordered ys)

theorem Inv.tx (h : w.Inv xs) {r : TxRequest F} {jiffies : ℕ}
    (hstep : step w (.tx r jiffies) = some w') : ∃ ys, w.Keeps xs (.tx r jiffies) w' ys := by
  obtain ⟨onRing, waits, hinv, hsends, -⟩ := h.inv.iwlTransTx r jiffies
  simp only [step, Option.some.injEq] at hstep
  subst hstep
  have hacc := h.accounted
  simp only [frames, flushing] at hacc
  refine ⟨xs ++ onRing, ⟨hinv, ?_⟩, fun hheeds hord => ⟨?_, fun hsome => ?_⟩⟩
  · simp only [frames, flushing, hsends.overflowQ_eq, hsends.freed_eq]
    split
    · rename_i hret
      have htaken := hsends.taken hret
      simp only [← Multiset.coe_add, hacc, ← htaken]
      abel
    · rename_i hret
      obtain ⟨rfl, rfl⟩ := List.append_eq_nil_iff.1 (hsends.refused hret)
      simpa using hacc
  · -- the queue is not stopped, so that nothing waits and the frame comes last
    have hfree : w.trans.txq.overflowQ = [] := by
      by_contra hwaits
      exact Bool.false_ne_true (hheeds.symm.trans (h.inv.waits hwaits))
    have hnone : w.overflowSkbs = none := by
      rw [← Option.not_isSome_iff_eq_none]
      exact fun hsome => Bool.false_ne_true (hheeds.symm.trans (hord.stopped hsome))
    have hsub := hord.sublist
    simp only [flushing, hfree, hnone, Option.getD_none, List.append_nil] at hsub
    simp only [flushing, hsends.overflowQ_eq, hfree, hnone, Option.getD_none, List.nil_append,
      List.append_nil]
    split
    · rename_i hret
      rw [← hsends.taken hret, ← List.append_assoc, ← List.append_assoc]
      exact (hsub.append_right _).append_right _
    · rename_i hret
      rw [← List.append_assoc, List.append_assoc, hsends.refused hret, List.append_nil]
      exact hsub
  · exact hsends.stopped (hord.stopped hsome)

theorem Inv.reclaim (h : w.Inv xs) {ssn jiffies : ℕ}
    (hstep : step w (.reclaim ssn jiffies) = some w') :
    ∃ ys, w.Keeps xs (.reclaim ssn jiffies) w' ys := by
  have hacc := h.accounted
  cases hnone : w.overflowSkbs with
  | some skbs => simp [step, hnone] at hstep
  | none =>
    have hinv := h.inv
    rw [hnone] at hinv
    obtain ⟨r, ys, heq, hr⟩ := hinv.iwlTxqReclaim ssn jiffies
    simp only [step, hnone, heq, Option.map_some, Option.some.injEq] at hstep
    subst hstep
    refine ⟨ys, ⟨hr.inv, ?_⟩, fun _ hord => ⟨?_, fun hsome => (hr.taken hsome).1⟩⟩
    · simp only [frames, flushing, hnone, Option.getD_none, hr.waiting, hr.split] at hacc
      simp only [frames, flushing, hacc, hr.freed_eq, ← Multiset.coe_add]
      rw [Multiset.coe_nil]
      abel
    · have hsub := hord.sublist
      rw [flushing, hnone, Option.getD_none, List.append_nil, hr.split, hr.waiting] at hsub
      simp only [flushing]
      -- the waiting frames are either all taken over, or none is
      cases hover : r.overflowSkbs with
      | none => simpa [hover] using hsub
      | some skbs =>
        have hempty := (hr.taken (by rw [hover]; rfl)).2
        simpa [hover, hempty] using hsub

theorem Inv.overflow (h : w.Inv xs) {fwAlive linear mapped : Bool} {jiffies : ℕ}
    (hstep : step w (.overflow fwAlive linear mapped jiffies) = some w') :
    ∃ ys, w.Keeps xs (.overflow fwAlive linear mapped jiffies) w' ys := by
  have hacc := h.accounted
  rcases hflush : w.overflowSkbs with - | - | ⟨skb, skbs⟩
  · simp [step, hflush] at hstep
  · simp [step, hflush] at hstep
  · obtain ⟨onRing, waits, hinv, hsends, hfull⟩ :=
      h.inv.iwlTransTx ⟨skb, fwAlive, linear, mapped⟩ jiffies
    rw [hflush] at hfull hinv
    simp only [step, hflush, Option.some.injEq] at hstep
    subst hstep
    simp only [frames, flushing, hflush, Option.getD_some] at hacc
    refine ⟨xs ++ onRing, ⟨hinv, ?_⟩, fun _ hord => ⟨?_, fun _ => ?_⟩⟩
    · simp only [frames, flushing, hsends.overflowQ_eq, hsends.freed_eq, Option.getD_some]
      rw [hacc, ← List.singleton_append]
      split
      · rename_i hret
        simp only [← Multiset.coe_add, ← hsends.taken hret]
        abel
      · rename_i hret
        obtain ⟨rfl, rfl⟩ := List.append_eq_nil_iff.1 (hsends.refused hret)
        simp only [← Multiset.coe_add, Multiset.coe_nil]
        abel
    · have hsub := hord.sublist
      simp only [flushing, hflush, Option.getD_some] at hsub
      simp only [flushing, hsends.overflowQ_eq, Option.getD_some]
      rcases eq_or_ne (w.trans.iwlTransTx ⟨skb, fwAlive, linear, mapped⟩ jiffies).1 0
        with hret | hret
      · -- the frame comes before the others of `overflow_skbs`, and on the ring only when no
        -- frame waits again
        have htaken := hsends.taken hret
        rcases eq_or_ne w.trans.txq.overflowQ [] with hwaits | hwaits
        · rw [hwaits] at hsub ⊢
          rw [← List.singleton_append, ← htaken] at hsub
          simpa using hsub
        · obtain rfl := hfull rfl hwaits
          rw [← List.singleton_append, ← htaken] at hsub
          simpa using hsub
      · obtain ⟨rfl, rfl⟩ := List.append_eq_nil_iff.1 (hsends.refused hret)
        rw [List.append_nil, List.append_nil]
        exact ((List.Sublist.refl _).append_left _ |>.trans
          ((List.sublist_cons_self skb skbs).append_left _)).trans hsub
    · exact hsends.stopped (hord.stopped (by rw [hflush]; rfl))

theorem Inv.endOverflow (h : w.Inv xs) (hstep : step w .endOverflow = some w') :
    w.Keeps xs .endOverflow w' xs := by
  have hacc := h.accounted
  rcases hflush : w.overflowSkbs with - | - | ⟨skb, skbs⟩
  · simp [step, hflush] at hstep
  · have hinv := h.inv
    rw [hflush] at hinv
    simp only [step, hflush, Option.some.injEq] at hstep
    subst hstep
    have hqueue : w.trans.endOverflow.txq.overflowQ = w.trans.txq.overflowQ := by
      unfold Trans.endOverflow
      split
      · simp
      · rfl
    have hfreed : freed w.trans.endOverflow.opMode = freed w.trans.opMode := by
      unfold Trans.endOverflow
      split
      · simp
      · rfl
    refine ⟨⟨hinv.endOverflow, ?_⟩, fun _ hord => ⟨?_, fun hsome => ?_⟩⟩
    · simpa only [frames, flushing, hflush, hqueue, hfreed, Option.getD_some, Option.getD_none]
        using hacc
    · simpa [flushing, hflush, hqueue] using hord.sublist
    · exact absurd hsome Bool.false_ne_true
  · simp [step, hflush] at hstep

theorem Inv.unmap (h : w.Inv xs) (hstep : step w .unmap = some w') : w.Keeps xs .unmap w' [] := by
  have hacc := h.accounted
  obtain ⟨t, heq, hinv, hempty, hfreed⟩ := h.inv.iwlTxqGen2Unmap
  simp only [step, heq, Option.map_some, Option.some.injEq] at hstep
  subst hstep
  refine ⟨⟨hinv, ?_⟩, fun hheeds hord => ⟨?_, fun hsome => ?_⟩⟩
  · simp only [frames, flushing] at hacc
    simp only [frames, flushing, hempty, hfreed, hacc, ← Multiset.coe_add, Multiset.coe_nil]
    abel
  · have hsub := hord.sublist
    change w.overflowSkbs = none at hheeds
    simp only [flushing, hheeds, hempty, Option.getD_none, List.append_nil] at hsub ⊢
    exact ((List.sublist_append_left _ xs).trans (List.sublist_append_left _ _)).trans hsub
  · change w.overflowSkbs = none at hheeds
    rw [hheeds] at hsome
    exact absurd hsome Bool.false_ne_true

theorem Inv.freezeTimer (h : w.Inv xs) {freeze : Bool} {now : ℕ}
    (hstep : step w (.freezeTimer freeze now) = some w') :
    w.Keeps xs (.freezeTimer freeze now) w' xs := by
  obtain ⟨hinv, hqueue, hcalls, hstopped⟩ := h.inv.iwlTransTxqFreezeTimer freeze now
  simp only [step, Option.some.injEq] at hstep
  subst hstep
  refine ⟨⟨hinv, ?_⟩, fun _ hord => ⟨?_, ?_⟩⟩
  · simpa only [frames, flushing, hqueue, hcalls] using h.accounted
  · simpa only [flushing, hqueue] using hord.sublist
  · simpa only [hstopped] using hord.stopped

theorem Inv.stuckTimer (h : w.Inv xs) (hstep : step w .stuckTimer = some w') :
    w.Keeps xs .stuckTimer w' xs := by
  simp only [step, Option.ite_none_right_eq_some, Option.some.injEq] at hstep
  obtain ⟨-, rfl⟩ := hstep
  exact ⟨⟨⟨h.inv.fifo.of_ring_eq rfl rfl, h.inv.room, h.inv.waits, h.inv.again, h.inv.low,
    h.inv.heard, h.inv.used⟩, h.accounted⟩, fun _ hord => ⟨hord.sublist, hord.stopped⟩⟩

/-- **One action** keeps the invariant, and the order when it heeds the queue. -/
theorem Inv.step (h : w.Inv xs) {a : Action F} (hstep : step w a = some w') :
    ∃ ys, w.Keeps xs a w' ys := by
  cases a with
  | tx r jiffies => exact h.tx hstep
  | reclaim ssn jiffies => exact h.reclaim hstep
  | overflow fwAlive linear mapped jiffies => exact h.overflow hstep
  | endOverflow => exact ⟨xs, h.endOverflow hstep⟩
  | unmap => exact ⟨[], h.unmap hstep⟩
  | freezeTimer freeze now => exact ⟨xs, h.freezeTimer hstep⟩
  | stuckTimer => exact ⟨xs, h.stuckTimer hstep⟩

theorem Inv.start {size slots : ℕ} {txq₀ txq : Txq F}
    (hinit : iwlTxqInit size slots txq₀ = some txq)
    (hslots : 8 ≤ slots) (hle : slots ≤ size) (hsize : size ≤ 2 ^ 16) :
    (World.start size txq).Inv [] ∧ (World.start size txq).Ordered [] := by
  have hsized : (World.start size txq).trans.Sized := Trans.sized_of_init hinit hslots hle hsize ..
  have hptr : txq.readPtr = 0 ∧ txq.writePtr = 0 ∧ txq.overflowQ = [] := by
    unfold iwlTxqInit at hinit
    split at hinit
    · cases hinit
    · split at hinit
      · cases hinit
      · obtain rfl := Option.some.inj hinit
        exact ⟨rfl, rfl, rfl⟩
  obtain ⟨hread, hwrite, hqueue⟩ := hptr
  have hwindow : 8 ≤ txq.nWindow := hsized.window_ge
  have hwindow' : txq.nWindow ≤ size := hsized.window_le
  have hlow : txq.lowMark < (World.start size txq).trans.capacity := hsized.low_lt
  have hfifo : (World.start size txq).trans.Fifo [] := by
    refine ⟨hsized, ?_⟩
    simp only [World.start, hread, hwrite]
    exact RingQueue.holds_nil _ (by omega) (by omega)
  refine ⟨⟨⟨hfifo, Nat.zero_lt_of_lt hlow, ?_, ?_, ?_, rfl, rfl⟩, ?_⟩, ⟨?_, ?_⟩⟩
  · exact fun hwaits => absurd hqueue hwaits
  · exact fun hwaits => absurd hqueue hwaits
  · exact fun hstopped => absurd hstopped Bool.false_ne_true
  · simp [frames, flushing, World.start, hqueue, freed]
  · simp [flushing, World.start, hqueue]
  · exact fun hsome => absurd hsome Bool.false_ne_true

end World

/-- The watchdog fires only when the ring is empty: no frame stays on it for too long. -/
def NotStuck (w : World F) : Action F → Prop
  | .stuckTimer => w.trans.txq.readPtr = w.trans.txq.writePtr
  | _ => True

instance (w : World F) (a : Action F) : Decidable (NotStuck w a) := by
  cases a <;> unfold NotStuck <;> infer_instance

/-- Eight frames are sent on a queue of eight entries, of which the last one has to wait. -/
def stoppedRun : List (Action ℕ) :=
  (List.range 8).map fun i => .tx ⟨i, true, true, true⟩ i

/-- The firmware gives five of them back, and the waiting one and another one go on the ring. -/
def wokenRun : List (Action ℕ) :=
  stoppedRun ++ [.reclaim 5 9, .overflow true true true 9, .endOverflow, .tx ⟨8, true, true, true⟩ 9]

theorem exists_stoppedRun : ∃ txq : Txq ℕ, iwlTxqInit 256 8 (Txq.blank 5 10) = some txq ∧
    ∃ w ∈ Lts.exec step (World.start 256 txq) stoppedRun, w.sent = List.range 8 ∧
      w.overflowSkbs = none ∧ w.trans.txq.overflowQ = [7] ∧ w.trans.queueStopped = true := by
  refine ⟨_, rfl, ?_⟩
  decide +kernel

theorem exists_wokenRun : ∃ txq : Txq ℕ, iwlTxqInit 256 8 (Txq.blank 5 10) = some txq ∧
    Lts.Meets step World.Heeds (World.start 256 txq) wokenRun ∧
    Lts.Meets step NotStuck (World.start 256 txq) wokenRun ∧
    ∃ w ∈ Lts.exec step (World.start 256 txq) wokenRun, w.sent = List.range 9 ∧
      w.reclaimed = List.range 5 ∧ w.lost = [] ∧ freed w.trans.opMode = [] ∧
      w.trans.txq.readPtr ≠ w.trans.txq.writePtr ∧ w.trans.txq.wdTimeout ≠ 0 ∧
      w.trans.txq.frozen = false := by
  refine ⟨_, rfl, ?_, ?_, ?_⟩
  · decide +kernel
  · decide +kernel
  · decide +kernel

section Runs

variable {size slots : ℕ} {txq₀ txq : Txq F} {as : List (Action F)} {w : World F}

/-- **A run** keeps the invariant. -/
theorem exists_inv (hinit : iwlTxqInit size slots txq₀ = some txq) (hslots : 8 ≤ slots)
    (hle : slots ≤ size) (hsize : size ≤ 2 ^ 16)
    (hrun : Lts.exec step (World.start size txq) as = some w) : ∃ xs, w.Inv xs :=
  Lts.exec_invariant step (I := fun w => ∃ xs, w.Inv xs) (C := fun _ _ => True)
    (fun _ _ _ ⟨_, hinv⟩ _ hstep => by
      obtain ⟨ys, hkeeps⟩ := hinv.step hstep
      exact ⟨ys, hkeeps.1⟩)
    ⟨[], (World.Inv.start hinit hslots hle hsize).1⟩
    (Lts.meets_of_forall step (fun _ _ => trivial) _ _) hrun

/-- **Every frame is accounted for**: in every state that a run reaches, the frames that
`iwl_trans_tx` took are those that were handed back, those on the ring, those that wait, those that
`iwl_txq_reclaim` is about to transmit or could not transmit, and those that were freed. The ring
never fills up, and the loops of `iwl_txq_reclaim` and `iwl_txq_gen2_unmap` come to their end. -/
theorem txq_accounted (hinit : iwlTxqInit size slots txq₀ = some txq) (hslots : 8 ≤ slots)
    (hle : slots ≤ size) (hsize : size ≤ 2 ^ 16)
    (hrun : Lts.exec step (World.start size txq) as = some w) :
    ∃ xs, w.trans.Fifo xs ∧ xs.length < w.trans.capacity ∧ (w.sent : Multiset F) = w.frames xs ∧
      (w.overflowSkbs = none → ∀ ssn jiffies, (step w (.reclaim ssn jiffies)).isSome) ∧
      (step w .unmap).isSome := by
  obtain ⟨xs, hinv⟩ := exists_inv hinit hslots hle hsize hrun
  refine ⟨xs, hinv.inv.fifo, hinv.inv.room, hinv.accounted, fun hnone ssn jiffies => ?_, ?_⟩
  · have hinv' := hinv.inv
    rw [hnone] at hinv'
    obtain ⟨r, ys, heq, -⟩ := hinv'.iwlTxqReclaim ssn jiffies
    simp [step, hnone, heq]
  · obtain ⟨t, heq, -⟩ := hinv.inv.iwlTxqGen2Unmap
    simp [step, heq]

theorem txq_accounted_run : ∃ (w : World ℕ) (xs : List ℕ), w.trans.Fifo xs ∧
    xs.length < w.trans.capacity ∧ w.sent = List.range 8 ∧ w.trans.txq.overflowQ = [7] ∧
    (w.sent : Multiset ℕ) = w.frames xs ∧ (∀ ssn jiffies, (step w (.reclaim ssn jiffies)).isSome) ∧
    (step w .unmap).isSome := by
  obtain ⟨_, hinit, w, hrun, hsent, hnone, hwaits, -⟩ := exists_stoppedRun
  obtain ⟨xs, hfifo, hlt, hframes, hreclaim, hunmap⟩ :=
    txq_accounted hinit (by omega) (by omega) (by omega) hrun
  exact ⟨w, xs, hfifo, hlt, hsent, hwaits, hframes, hreclaim hnone, hunmap⟩

/-- The firmware gives back all the frames on the ring of a stopped queue. -/
theorem reclaim_all {xs : List F} (h : w.Inv xs) (hstopped : w.trans.queueStopped = true)
    (hnone : w.overflowSkbs = none) (jiffies : ℕ) :
    xs ≠ [] ∧ ∃ w', step w (.reclaim w.trans.txq.writePtr jiffies) = some w' ∧
      w'.reclaimed = w.reclaimed ++ xs ∧ w'.overflowSkbs = some w.trans.txq.overflowQ := by
  have hinv := h.inv
  rw [hnone] at hinv
  have hfifo := hinv.fifo
  have hlow := hinv.low hstopped rfl
  have hlt := hfifo.low_lt
  have hcap := hfifo.capacity_le
  have hroom := hinv.room
  have hlen : xs.length ≠ 0 := by omega
  have hahead : w.trans.ahead w.trans.txq.writePtr = xs.length := by
    rw [Trans.ahead, hfifo.holds.write_mod hfifo.window_dvd, RingQueue.ahead_add (by omega)]
  refine ⟨fun hnil => hlen (hnil ▸ rfl), ?_⟩
  rcases hfifo.iwlTxqReclaim_eq w.trans.txq.writePtr jiffies with
    ⟨hcases, -⟩ | ⟨-, -, -, entries, readPtr, heq, hfifo'⟩
  · rw [hinv.used, hahead] at hcases
    simp [hlen] at hcases
  · rw [hahead, List.take_length] at heq
    rw [hahead, List.drop_length] at hfifo'
    obtain ⟨timer, htimer⟩ :=
      Trans.iwlTxqProgress_eq (w.trans.setRead entries readPtr) jiffies
    have hspace := (hfifo'.of_ring_eq (t := { w.trans.setRead entries readPtr with
      txq.stuckTimer := timer }) rfl rfl).space_eq
    rw [htimer, Trans.spliceOverflow, if_pos ⟨by rw [hspace]; exact hlt, hstopped⟩] at heq
    refine ⟨_, by simp only [step, hnone, heq, Option.map_some]; rfl, rfl, rfl⟩

/-- **The order of frames**: in a run in which the op mode transmits only while the queue is not
stopped, the frames are handed back in the order in which they were sent, and those on the ring come
before the waiting ones; when none was lost or freed, these are all the frames that were sent. -/
theorem txq_fifo (hinit : iwlTxqInit size slots txq₀ = some txq) (hslots : 8 ≤ slots)
    (hle : slots ≤ size) (hsize : size ≤ 2 ^ 16)
    (hrun : Lts.exec step (World.start size txq) as = some w)
    (hheeds : Lts.Meets step World.Heeds (World.start size txq) as) :
    ∃ xs, w.trans.Fifo xs ∧
      (w.reclaimed ++ xs ++ w.trans.txq.overflowQ ++ w.flushing).Sublist w.sent ∧
      (w.lost = [] → freed w.trans.opMode = [] →
        w.reclaimed ++ xs ++ w.trans.txq.overflowQ ++ w.flushing = w.sent) := by
  obtain ⟨hstart, hstart'⟩ := World.Inv.start hinit hslots hle hsize
  obtain ⟨xs, hinv, hord⟩ := Lts.exec_invariant step (I := fun w => ∃ xs, w.Inv xs ∧ w.Ordered xs)
    (fun _ _ _ ⟨_, hinv, hord⟩ hheeds hstep => by
      obtain ⟨ys, hkeeps⟩ := hinv.step hstep
      exact ⟨ys, hkeeps.1, hkeeps.2 hheeds hord⟩)
    ⟨[], hstart, hstart'⟩ hheeds hrun
  refine ⟨xs, hinv.inv.fifo, hord.sublist, fun hlost hfreed => hord.sublist.eq_of_length ?_⟩
  have hacc := congrArg Multiset.card hinv.accounted
  simp only [World.frames, hlost, hfreed, List.append_nil, Multiset.coe_card] at hacc
  exact hacc.symm

theorem txq_fifo_run : ∃ (w : World ℕ) (xs : List ℕ), w.trans.Fifo xs ∧
    w.reclaimed = List.range 5 ∧
    w.reclaimed ++ xs ++ w.trans.txq.overflowQ ++ w.flushing = List.range 9 := by
  obtain ⟨_, hinit, hheeds, -, w, hrun, hsent, hback, hlost, hfreed, -⟩ := exists_wokenRun
  obtain ⟨xs, hfifo, -, hall⟩ := txq_fifo hinit (by omega) (by omega) (by omega) hrun hheeds
  exact ⟨w, xs, hfifo, hback, hsent ▸ hall hlost hfreed⟩

end Runs

/-! ## The watchdog -/

namespace Trans

/-- The watchdog runs while there are frames on the ring, unless the queue has none or is frozen. -/
def Watched (trans : Trans F) : Prop :=
  trans.txq.readPtr ≠ trans.txq.writePtr → trans.txq.wdTimeout ≠ 0 → trans.txq.frozen = false →
    trans.txq.stuckTimer.pending = true

variable {trans : Trans F} {xs : List F}

theorem Watched.of_txq_eq {t : Trans F} (h : trans.Watched) (heq : t.txq = trans.txq) :
    t.Watched := by
  unfold Watched at *
  rw [heq]
  exact h

theorem Watched.txOnRing (h : trans.Watched) (r : TxRequest F) (jiffies : ℕ) :
    (trans.txOnRing r jiffies).2.Watched := by
  unfold Trans.txOnRing
  dsimp only
  split
  · exact h
  · split
    · exact fun _ _ _ => rfl
    · rename_i hidle
      intro _ htimeout hfrozen
      exact h (fun hempty => hidle ⟨hempty, htimeout⟩) htimeout hfrozen

theorem Watched.iwlTransTx (h : trans.Watched) (r : TxRequest F) (jiffies : ℕ) :
    (trans.iwlTransTx r jiffies).2.Watched := by
  rcases iwlTransTx_cases trans r jiffies with ⟨-, heq⟩ | ⟨-, heq⟩ | ⟨-, heq⟩
  · rwa [heq]
  · rw [heq]
    have hstop : trans.iwlTxqStop.Watched := h.of_txq_eq iwlTxqStop_txq
    exact hstop
  · rw [heq]
    split
    · exact (h.of_txq_eq iwlTxqStop_txq).txOnRing r jiffies
    · exact h.txOnRing r jiffies

/-- `iwl_txq_progress` makes the watchdog fit the ring, whatever it did before. -/
theorem watched_iwlTxqProgress (trans : Trans F) (jiffies : ℕ) :
    (trans.iwlTxqProgress jiffies).Watched := by
  unfold iwlTxqProgress
  split
  · exact fun _ htimeout _ => absurd (by assumption) htimeout
  · split
    · rename_i hfrozen
      exact fun _ _ hnot => absurd (hfrozen.symm.trans hnot) (by simp)
    · split
      · exact fun hne _ _ => absurd (by assumption) hne
      · exact fun _ _ _ => rfl

theorem watched_freezeTimer (h : trans.Watched) (freeze : Bool) (now : ℕ) :
    (trans.iwlTransTxqFreezeTimer freeze now).Watched := by
  unfold Trans.iwlTransTxqFreezeTimer
  split
  · exact h
  · dsimp only
    split
    · exact fun hne _ _ => absurd (by assumption) hne
    · split
      · rename_i hfreeze
        split
        · exact fun _ _ hnot => absurd (hfreeze.symm.trans hnot) (by simp)
        · exact fun _ _ hnot => absurd (hfreeze.symm.trans hnot) (by simp)
      · exact fun _ _ _ => rfl

theorem Fifo.watched (h : trans.Fifo []) : trans.Watched :=
  fun hne _ _ => absurd (h.eq_nil_iff.2 rfl) hne

end Trans

/-- **One action** keeps the watchdog, in a state of a run. -/
theorem step_watched {w w' : World F} {xs : List F} {a : Action F} (h : w.Inv xs)
    (hwatched : w.trans.Watched) (hstuck : NotStuck w a) (hstep : step w a = some w') :
    w'.trans.Watched := by
  cases a with
  | tx r jiffies =>
    simp only [step, Option.some.injEq] at hstep
    subst hstep
    exact hwatched.iwlTransTx r jiffies
  | reclaim ssn jiffies =>
    cases hnone : w.overflowSkbs with
    | some skbs => simp [step, hnone] at hstep
    | none =>
      rcases h.inv.fifo.iwlTxqReclaim_eq ssn jiffies with
        ⟨-, heq⟩ | ⟨-, -, -, entries, readPtr, heq, -⟩
      · simp only [step, hnone, heq, Option.map_some, Option.some.injEq] at hstep
        subst hstep
        exact hwatched
      · simp only [step, hnone, heq, Option.map_some, Option.some.injEq] at hstep
        subst hstep
        have hprogress := Trans.watched_iwlTxqProgress (w.trans.setRead entries readPtr) jiffies
        unfold Trans.spliceOverflow
        split
        · exact hprogress
        · exact hprogress
  | overflow fwAlive linear mapped jiffies =>
    rcases hflush : w.overflowSkbs with - | - | ⟨skb, skbs⟩
    · simp [step, hflush] at hstep
    · simp [step, hflush] at hstep
    · simp only [step, hflush, Option.some.injEq] at hstep
      subst hstep
      exact hwatched.iwlTransTx _ jiffies
  | endOverflow =>
    rcases hflush : w.overflowSkbs with - | - | ⟨skb, skbs⟩
    · simp [step, hflush] at hstep
    · simp only [step, hflush, Option.some.injEq] at hstep
      subst hstep
      dsimp only
      unfold Trans.endOverflow
      split
      · have hwake : w.trans.iwlWakeQueue.Watched := hwatched.of_txq_eq Trans.iwlWakeQueue_txq
        exact hwake
      · exact hwatched
    · simp [step, hflush] at hstep
  | unmap => exact ((h.unmap hstep).1).inv.fifo.watched
  | freezeTimer freeze now =>
    simp only [step, Option.some.injEq] at hstep
    subst hstep
    exact Trans.watched_freezeTimer hwatched freeze now
  | stuckTimer =>
    simp only [step, Option.ite_none_right_eq_some, Option.some.injEq] at hstep
    obtain ⟨-, rfl⟩ := hstep
    exact fun hne _ _ => absurd hstuck hne

/-- **The watchdog of a queue** runs while frames are on its ring, in every run in which it has not
found the queue stuck: frames that the firmware never gives back do not go unnoticed. -/
theorem txq_watchdog {size slots : ℕ} {txq₀ txq : Txq F} {as : List (Action F)} {w : World F}
    (hinit : iwlTxqInit size slots txq₀ = some txq) (hslots : 8 ≤ slots)
    (hle : slots ≤ size) (hsize : size ≤ 2 ^ 16)
    (hrun : Lts.exec step (World.start size txq) as = some w)
    (hstuck : Lts.Meets step NotStuck (World.start size txq) as) :
    ∃ xs, w.trans.Fifo xs ∧ (xs ≠ [] → w.trans.txq.wdTimeout ≠ 0 → w.trans.txq.frozen = false →
      w.trans.txq.stuckTimer.pending = true) := by
  have hstart := (World.Inv.start hinit hslots hle hsize).1
  obtain ⟨xs, hinv, hwatched⟩ := Lts.exec_invariant step
    (I := fun w => ∃ xs, w.Inv xs ∧ w.trans.Watched)
    (fun _ _ _ ⟨_, hinv, hwatched⟩ hstuck hstep => by
      obtain ⟨ys, hkeeps⟩ := hinv.step hstep
      exact ⟨ys, hkeeps.1, step_watched hinv hwatched hstuck hstep⟩)
    ⟨[], hstart, hstart.inv.fifo.watched⟩ hstuck hrun
  refine ⟨xs, hinv.inv.fifo, fun hne => hwatched fun heq => hne ?_⟩
  exact hinv.inv.fifo.eq_nil_iff.1 heq

theorem txq_watchdog_run : ∃ (w : World ℕ) (xs : List ℕ), w.trans.Fifo xs ∧ xs ≠ [] ∧
    w.reclaimed = List.range 5 ∧ w.trans.txq.stuckTimer.pending = true := by
  obtain ⟨_, hinit, -, hstuck, w, hrun, -, hback, -, -, hptr, hwd, hfrozen⟩ := exists_wokenRun
  obtain ⟨xs, hfifo, hpending⟩ := txq_watchdog hinit (by omega) (by omega) (by omega) hrun hstuck
  have hne : xs ≠ [] := fun hnil => hptr (hfifo.eq_nil_iff.2 hnil)
  exact ⟨w, xs, hfifo, hne, hback, hpending hne hwd hfrozen⟩

end Iax.Queue
