import Iax.Queue.Txq

/-!
# The ring of a transmit queue holds a list of frames

* `Trans.Sized`: what `iwlTxqInit` establishes of the sizes and the marks (`sized_of_init`).
* `Trans.Fifo`: the entries between the two indices are a list of frames.
* `Fifo.space_eq`, `Fifo.used_iff`: the room that is left, and which entries are in use.
* `iwlTransTx_cases`: a frame is refused, or goes to the end of `overflow_q` when there is no room,
  or to the end of the ring.
* `Fifo.iwlTxqReclaim_eq`: the frames before `ssn` are handed back, in order, or nothing is done
  when `ssn` is not an index of the queue.
* `Fifo.iwlTxqGen2Unmap_eq`: all frames are freed.
-/

namespace Iax.Queue

variable {F : Type*}

namespace Trans

/-- The most frames that the ring takes. -/
def capacity (trans : Trans F) : ℕ :=
  if trans.txq.nWindow < trans.maxTfdQueueSize then trans.txq.nWindow
  else trans.maxTfdQueueSize - 1

/-- The sizes and the marks of a queue that was set up with at least eight entries. -/
structure Sized (trans : Trans F) : Prop where
  size_pow : ∃ a, trans.maxTfdQueueSize = 2 ^ a
  window_pow : ∃ b, trans.txq.nWindow = 2 ^ b
  window_ge : 8 ≤ trans.txq.nWindow
  window_le : trans.txq.nWindow ≤ trans.maxTfdQueueSize
  size_le : trans.maxTfdQueueSize ≤ 2 ^ 16
  low_ge : 4 ≤ trans.txq.lowMark
  low_lt : trans.txq.lowMark < trans.capacity
  high_ge : 2 ≤ trans.txq.highMark
  high_le : trans.txq.highMark ≤ trans.txq.lowMark

/-- The ring holds the frames `xs`, the oldest one first. -/
structure Fifo (trans : Trans F) (xs : List F) : Prop extends trans.Sized where
  holds : RingQueue.Holds trans.maxTfdQueueSize trans.txq.nWindow trans.txq.entries
    trans.txq.readPtr trans.txq.writePtr xs

variable {trans : Trans F} {xs : List F}

/-- What `iwl_txq_init` does not check is that the window fits the ring of descriptors; its callers
ask for at least 16 and at most `max_tfd_queue_size` entries. -/
theorem sized_of_init {size slots : ℕ} {txq₀ txq : Txq F}
    (hinit : iwlTxqInit size slots txq₀ = some txq)
    (hslots : 8 ≤ slots) (hle : slots ≤ size) (hsize : size ≤ 2 ^ 16) (used stopped : Bool)
    (calls : List (OpModeCall F)) : Sized ⟨size, used, stopped, txq, calls⟩ := by
  unfold iwlTxqInit at hinit
  split at hinit
  · cases hinit
  · split at hinit
    · cases hinit
    · rename_i hpow hpow'
      have hsize0 : size ≠ 0 := by omega
      have hslots0 : slots ≠ 0 := by omega
      obtain rfl := Option.some.inj hinit
      refine ⟨?_, ?_, hslots, hle, hsize, ?_, ?_, ?_, ?_⟩
      · exact (Nat.and_sub_one_eq_zero_iff_isPowerOfTwo hsize0).1 (not_not.1 hpow)
      · exact (Nat.and_sub_one_eq_zero_iff_isPowerOfTwo hslots0).1 (not_not.1 (not_or.1 hpow').2)
      · simp only
        split <;> omega
      · simp only [capacity]
        split <;> split <;> omega
      · simp only
        split <;> omega
      · simp only
        split <;> split <;> omega

/-! ## Indices -/

namespace Sized

variable (h : trans.Sized)
include h

theorem window_dvd : trans.txq.nWindow ∣ trans.maxTfdQueueSize := by
  obtain ⟨a, ha⟩ := h.size_pow
  obtain ⟨b, hb⟩ := h.window_pow
  rw [ha, hb]
  exact Nat.pow_dvd_pow 2 ((Nat.pow_le_pow_iff_right (by omega)).1 (ha ▸ hb ▸ h.window_le))

theorem getCmdIndex_eq (index : ℕ) :
    trans.iwlTxqGetCmdIndex index = index % trans.txq.nWindow := by
  obtain ⟨b, hb⟩ := h.window_pow
  have hle : index % trans.txq.nWindow < 2 ^ 16 :=
    (Nat.mod_lt _ (by have := h.window_ge; omega)).trans_le (h.window_le.trans h.size_le)
  rw [iwlTxqGetCmdIndex, hb, Nat.and_two_pow_sub_one_eq_mod, ← hb, Nat.mod_eq_of_lt hle]

theorem incWrap_eq (index : ℕ) :
    trans.iwlTxqIncWrap index = (index + 1) % trans.maxTfdQueueSize := by
  obtain ⟨a, ha⟩ := h.size_pow
  rw [iwlTxqIncWrap, ha, Nat.and_two_pow_sub_one_eq_mod]

/-- Masking a 32-bit word keeps it modulo the size. -/
theorem word_and (x : ℕ) :
    x % 2 ^ 32 &&& (trans.maxTfdQueueSize - 1) = x % trans.maxTfdQueueSize := by
  obtain ⟨a, ha⟩ := h.size_pow
  have ha16 : a ≤ 16 := (Nat.pow_le_pow_iff_right (by omega)).1 (ha ▸ h.size_le)
  rw [ha, Nat.and_two_pow_sub_one_eq_mod,
    Nat.mod_mod_of_dvd _ (Nat.pow_dvd_pow 2 (ha16.trans (by omega)))]

theorem size_dvd : trans.maxTfdQueueSize ∣ 2 ^ 32 := by
  obtain ⟨a, ha⟩ := h.size_pow
  have ha16 : a ≤ 16 := (Nat.pow_le_pow_iff_right (by omega)).1 (ha ▸ h.size_le)
  rw [ha]
  exact Nat.pow_dvd_pow 2 (ha16.trans (by omega))

/-- The index before an index, up to rounds of the window. -/
theorem decWrap_mod {i : ℕ} :
    trans.iwlTxqDecWrap i % trans.txq.nWindow =
      (i + (trans.txq.nWindow - 1)) % trans.txq.nWindow := by
  have hge := h.window_ge
  obtain ⟨c, hc⟩ := h.window_dvd.trans h.size_dvd
  have hcpos : 0 < c := by
    rcases Nat.eq_zero_or_pos c with rfl | hpos
    · omega
    · exact hpos
  obtain ⟨c, rfl⟩ := Nat.exists_eq_add_of_lt hcpos
  rw [Nat.zero_add, Nat.mul_add, Nat.mul_one] at hc
  rw [iwlTxqDecWrap, h.word_and, Nat.mod_mod_of_dvd _ h.window_dvd, hc,
    show i + (trans.txq.nWindow * c + trans.txq.nWindow - 1) =
      i + (trans.txq.nWindow - 1) + trans.txq.nWindow * c by omega, Nat.add_mul_mod_self_left]

/-- `iwl_txq_space` from the distance of the two indices. -/
theorem space_of_dist {len : ℕ} (hlt : trans.txq.readPtr < trans.maxTfdQueueSize)
    (hlen : (trans.txq.writePtr + trans.maxTfdQueueSize - trans.txq.readPtr) %
      trans.maxTfdQueueSize = len) : trans.iwlTxqSpace = trans.capacity - len := by
  have hsize := h.size_le
  have hdist : (trans.txq.writePtr + 2 ^ 32 - trans.txq.readPtr) % trans.maxTfdQueueSize = len := by
    obtain ⟨c, hc⟩ := h.size_dvd
    obtain ⟨c, rfl⟩ := Nat.exists_eq_add_of_lt (show 0 < c by
      rcases Nat.eq_zero_or_pos c with rfl | hpos
      · omega
      · exact hpos)
    rw [Nat.zero_add, Nat.mul_add, Nat.mul_one] at hc
    rw [hc, show trans.txq.writePtr + (trans.maxTfdQueueSize * c + trans.maxTfdQueueSize) -
      trans.txq.readPtr = trans.txq.writePtr + trans.maxTfdQueueSize - trans.txq.readPtr +
      trans.maxTfdQueueSize * c by omega, Nat.add_mul_mod_self_left, hlen]
  rw [iwlTxqSpace, h.word_and, hdist]
  change (if trans.capacity < len then 0 else trans.capacity - len) = _
  split <;> omega

theorem capacity_le : trans.capacity ≤ trans.txq.nWindow := by
  have := h.window_le
  unfold capacity
  split <;> omega

end Sized

namespace Fifo

variable (h : trans.Fifo xs)
include h

/-- `iwl_txq_space`: the room that is left. -/
theorem space_eq : trans.iwlTxqSpace = trans.capacity - xs.length :=
  h.space_of_dist h.holds.lt (h.holds.length_eq h.window_le)

theorem eq_nil_iff : trans.txq.readPtr = trans.txq.writePtr ↔ xs = [] :=
  h.holds.eq_iff h.window_le

/-- `iwl_txq_used`: the entry of an index is one of those between the indices. -/
theorem used_iff (i : ℕ) : trans.iwlTxqUsed i ↔
    RingQueue.ahead trans.txq.nWindow trans.txq.readPtr (i % trans.txq.nWindow) < xs.length := by
  have hi : i % trans.txq.nWindow < trans.txq.nWindow :=
    Nat.mod_lt _ (by have := h.window_ge; omega)
  rw [← RingQueue.between_iff h.holds.room hi, ← h.holds.write_mod h.window_dvd]
  simp only [iwlTxqUsed, h.getCmdIndex_eq]

end Fifo

/-! ## What is not about the ring -/

/-- The part of the state that `Sized` is about. -/
def sizes (trans : Trans F) : ℕ × ℕ × ℕ × ℕ :=
  (trans.maxTfdQueueSize, trans.txq.nWindow, trans.txq.lowMark, trans.txq.highMark)

theorem Sized.of_sizes_eq {t : Trans F} (h : trans.Sized) (heq : t.sizes = trans.sizes) :
    t.Sized := by
  simp only [sizes, Prod.mk.injEq] at heq
  obtain ⟨hmax, hwindow, hlow, hhigh⟩ := heq
  have hcap : t.capacity = trans.capacity := by
    simp only [capacity, hmax, hwindow]
  refine ⟨?_, ?_, ?_, ?_, ?_, ?_, ?_, ?_, ?_⟩
  · exact hmax ▸ h.size_pow
  · exact hwindow ▸ h.window_pow
  · exact hwindow ▸ h.window_ge
  · exact hmax ▸ hwindow ▸ h.window_le
  · exact hmax ▸ h.size_le
  · exact hlow ▸ h.low_ge
  · exact hlow ▸ hcap ▸ h.low_lt
  · exact hhigh ▸ h.high_ge
  · exact hhigh ▸ hlow ▸ h.high_le

/-- The part of the state that `Fifo` is about, besides the sizes. -/
def ring (trans : Trans F) : ℕ × ℕ × (ℕ → Option F) :=
  (trans.txq.readPtr, trans.txq.writePtr, trans.txq.entries)

theorem Fifo.of_ring_eq {t : Trans F} (h : trans.Fifo xs) (hsizes : t.sizes = trans.sizes)
    (heq : t.ring = trans.ring) : t.Fifo xs := by
  refine ⟨h.toSized.of_sizes_eq hsizes, ?_⟩
  simp only [sizes, Prod.mk.injEq] at hsizes
  simp only [ring, Prod.mk.injEq] at heq
  rw [hsizes.1, hsizes.2.1, heq.1, heq.2.1, heq.2.2]
  exact h.holds

@[simp] theorem iwlTxqStop_txq : trans.iwlTxqStop.txq = trans.txq := by
  unfold iwlTxqStop
  split <;> rfl

@[simp] theorem iwlTxqStop_maxTfdQueueSize :
    trans.iwlTxqStop.maxTfdQueueSize = trans.maxTfdQueueSize := by
  unfold iwlTxqStop
  split <;> rfl

@[simp] theorem iwlTxqStop_queueUsed : trans.iwlTxqStop.queueUsed = trans.queueUsed := by
  unfold iwlTxqStop
  split <;> rfl

@[simp] theorem iwlTxqStop_queueStopped : trans.iwlTxqStop.queueStopped = true := by
  unfold iwlTxqStop
  split <;> simp [*]

@[simp] theorem iwlTxqStop_space : trans.iwlTxqStop.iwlTxqSpace = trans.iwlTxqSpace := by
  simp [iwlTxqSpace]

@[simp] theorem iwlWakeQueue_txq : trans.iwlWakeQueue.txq = trans.txq := by
  unfold iwlWakeQueue
  split <;> rfl

@[simp] theorem iwlWakeQueue_maxTfdQueueSize :
    trans.iwlWakeQueue.maxTfdQueueSize = trans.maxTfdQueueSize := by
  unfold iwlWakeQueue
  split <;> rfl

@[simp] theorem iwlWakeQueue_queueUsed : trans.iwlWakeQueue.queueUsed = trans.queueUsed := by
  unfold iwlWakeQueue
  split <;> rfl

@[simp] theorem iwlWakeQueue_queueStopped : trans.iwlWakeQueue.queueStopped = false := by
  unfold iwlWakeQueue
  split <;> simp [*]

/-- `iwl_txq_progress` is about the watchdog only. -/
theorem iwlTxqProgress_eq (trans : Trans F) (jiffies : ℕ) :
    ∃ timer, trans.iwlTxqProgress jiffies = { trans with txq.stuckTimer := timer } := by
  unfold iwlTxqProgress
  split
  · exact ⟨_, rfl⟩
  · split
    · exact ⟨_, rfl⟩
    · split
      · exact ⟨_, rfl⟩
      · exact ⟨_, rfl⟩

/-! ## Transmission -/

/-- The frame that is put on the ring comes last. -/
theorem Fifo.txOnRing (h : trans.Fifo xs) (hroom : 2 ≤ trans.iwlTxqSpace) (r : TxRequest F)
    (jiffies : ℕ) : (r.mapped = false ∧ ∃ entries,
        trans.txOnRing r jiffies = (-1, { trans with txq.entries := entries }) ∧
        (trans.txOnRing r jiffies).2.Fifo xs) ∨
      (r.mapped = true ∧ ∃ entries timer writePtr, trans.txOnRing r jiffies = (0, { trans with
        txq.entries := entries, txq.stuckTimer := timer, txq.writePtr := writePtr }) ∧
        (trans.txOnRing r jiffies).2.Fifo (xs ++ [r.skb])) := by
  have hspace := h.space_eq
  have hcap := h.capacity_le
  have hpush := h.holds.push h.window_dvd (by omega) r.skb
  have hkeep := h.holds.update_write h.window_dvd (some r.skb)
  unfold Trans.txOnRing
  cases hmapped : r.mapped with
  | false => exact .inl ⟨rfl, _, rfl,
      ⟨h.toSized.of_sizes_eq rfl, by simpa [setEntry, h.getCmdIndex_eq] using hkeep⟩⟩
  | true =>
    refine .inr ⟨rfl, ?_⟩
    simp only [Bool.not_true, Bool.false_eq_true, if_false]
    split
    · refine ⟨_, _, _, rfl, ⟨h.toSized.of_sizes_eq rfl, ?_⟩⟩
      rw [← h.getCmdIndex_eq, ← h.incWrap_eq] at hpush
      exact hpush
    · refine ⟨_, _, _, rfl, ⟨h.toSized.of_sizes_eq rfl, ?_⟩⟩
      rw [← h.getCmdIndex_eq, ← h.incWrap_eq] at hpush
      exact hpush

/-- **Transmission**: the frame is refused, or there is no room for it and it goes to the end of
`overflow_q`, or it is put on the ring; the queue is stopped when the room is below `high_mark`. -/
theorem iwlTransTx_cases (trans : Trans F) (r : TxRequest F) (jiffies : ℕ) :
    ((trans.iwlTransTx r jiffies).1 ≠ 0 ∧ (trans.iwlTransTx r jiffies).2 = trans) ∨
    (trans.iwlTxqSpace < min trans.txq.highMark 3 ∧ trans.iwlTransTx r jiffies =
      (0, { trans.iwlTxqStop with txq.overflowQ := trans.txq.overflowQ ++ [r.skb] })) ∨
    (min trans.txq.highMark 3 ≤ trans.iwlTxqSpace ∧
      trans.iwlTransTx r jiffies = (if trans.iwlTxqSpace < trans.txq.highMark then
        trans.iwlTxqStop else trans).txOnRing r jiffies) := by
  unfold iwlTransTx iwlTxqGen2Tx
  split
  · exact .inl ⟨by simp [eio], rfl⟩
  · split
    · exact .inl ⟨by simp [einval], rfl⟩
    · split
      · exact .inl ⟨by simp [einval], rfl⟩
      · split
        · exact .inl ⟨by simp [enomem], rfl⟩
        · split
          · simp only [iwlTxqStop_space, iwlTxqStop_txq]
            split
            · exact .inr (.inl ⟨by omega, rfl⟩)
            · exact .inr (.inr ⟨by omega, rfl⟩)
          · exact .inr (.inr ⟨by omega, rfl⟩)

/-! ## Reclaim -/

/-- The state after some frames were taken off the ring. -/
def setRead (trans : Trans F) (entries : ℕ → Option F) (readPtr : ℕ) : Trans F :=
  { trans with txq.entries := entries, txq.readPtr := readPtr }

theorem setRead_self : trans.setRead trans.txq.entries trans.txq.readPtr = trans := rfl

theorem iwlTxqFreeTfd_of_none (hnone : trans.txq.entries
    (trans.iwlTxqGetCmdIndex trans.txq.readPtr) = none) : trans.iwlTxqFreeTfd = trans := by
  simp only [iwlTxqFreeTfd, hnone]

namespace Fifo

theorem head {x : F} (h : trans.Fifo (x :: xs)) :
    trans.txq.entries (trans.iwlTxqGetCmdIndex trans.txq.readPtr) = some x := by
  rw [h.getCmdIndex_eq]
  exact h.holds.head

/-- The oldest frame is taken off the ring. -/
theorem pop {x : F} (h : trans.Fifo (x :: xs)) :
    Fifo (trans.setRead (Function.update trans.txq.entries
      (trans.iwlTxqGetCmdIndex trans.txq.readPtr) none)
      (trans.iwlTxqIncWrap trans.txq.readPtr)) xs := by
  have hpop := h.holds.pop h.window_dvd none
  rw [← h.getCmdIndex_eq, ← h.incWrap_eq] at hpop
  exact ⟨h.toSized.of_sizes_eq rfl, hpop⟩

/-- One turn of the loop of `iwl_txq_reclaim`. -/
theorem reclaimEntry {x : F} (h : trans.Fifo (x :: xs)) (skbs : List F) :
    trans.reclaimEntry (trans.iwlTxqGetCmdIndex trans.txq.readPtr) skbs =
      (trans.setEntry (trans.iwlTxqGetCmdIndex trans.txq.readPtr) none, skbs ++ [x]) := by
  have hfree : (trans.setEntry (trans.iwlTxqGetCmdIndex trans.txq.readPtr) none).iwlTxqFreeTfd =
      trans.setEntry (trans.iwlTxqGetCmdIndex trans.txq.readPtr) none :=
    iwlTxqFreeTfd_of_none (Function.update_self ..)
  simp only [Trans.reclaimEntry, h.head, hfree]

/-- **The loop** hands back the frames before the index, by induction on these. -/
theorem reclaimLoop {ys : List F} (h : trans.Fifo (ys ++ xs)) {tfdNum : ℕ} (fuel : ℕ)
    (hfuel : ys.length ≤ fuel) (htfd : tfdNum = (trans.txq.readPtr + ys.length) % trans.txq.nWindow)
    (skbs : List F) : ∃ entries readPtr,
      reclaimLoop tfdNum fuel trans (trans.iwlTxqGetCmdIndex trans.txq.readPtr) skbs =
        some (trans.setRead entries readPtr, skbs ++ ys) ∧
          (trans.setRead entries readPtr).Fifo xs := by
  induction ys generalizing trans fuel skbs with
  | nil =>
    refine ⟨trans.txq.entries, trans.txq.readPtr, ?_, h⟩
    have heq : trans.iwlTxqGetCmdIndex trans.txq.readPtr = tfdNum := by
      rw [htfd, h.getCmdIndex_eq, List.length_nil, Nat.add_zero]
    rw [Trans.reclaimLoop.eq_def, List.append_nil, setRead_self]
    exact if_pos heq
  | cons y ys ih =>
    rw [List.length_cons] at hfuel
    obtain ⟨fuel, rfl⟩ : ∃ f, fuel = f + 1 := Nat.exists_eq_add_one.2 (by omega)
    have hroom := h.holds.room
    simp only [List.length_append, List.length_cons] at hroom
    have hne : trans.iwlTxqGetCmdIndex trans.txq.readPtr ≠ tfdNum := by
      rw [htfd, h.getCmdIndex_eq, List.length_cons]
      intro heq
      have := Ring.mod_inj (R := trans.txq.readPtr) le_rfl (by omega) (by omega) (by omega) heq
      omega
    have htfd' : tfdNum =
        (trans.iwlTxqIncWrap trans.txq.readPtr + ys.length) % trans.txq.nWindow := by
      rw [htfd, h.incWrap_eq, ← Nat.mod_add_mod (_ % _), Nat.mod_mod_of_dvd _ h.window_dvd,
        Nat.mod_add_mod, List.length_cons, Nat.add_assoc, Nat.add_comm ys.length]
    obtain ⟨entries, readPtr, hloop, hfifo⟩ :=
      ih h.pop fuel (Nat.le_of_succ_le_succ hfuel) htfd' (skbs ++ [y])
    refine ⟨entries, readPtr, ?_, hfifo⟩
    rw [Trans.reclaimLoop, if_neg hne]
    simp only [h.reclaimEntry]
    rw [show skbs ++ y :: ys = skbs ++ [y] ++ ys by simp]
    exact hloop

end Fifo

/-- How many frames come before the index `ssn`, if it is one of the queue. -/
def ahead (trans : Trans F) (ssn : ℕ) : ℕ :=
  RingQueue.ahead trans.txq.nWindow trans.txq.readPtr (ssn % trans.txq.nWindow)

/-- The index before `ssn` belongs to one of the frames. -/
theorem Fifo.used_decWrap_iff (h : trans.Fifo xs) {ssn : ℕ} (hpos : trans.ahead ssn ≠ 0) :
    trans.iwlTxqUsed (trans.iwlTxqDecWrap (trans.iwlTxqGetCmdIndex ssn)) ↔
      trans.ahead ssn ≤ xs.length := by
  have hge := h.window_ge
  have hlt : trans.ahead ssn < trans.txq.nWindow := RingQueue.ahead_lt (by omega) _
  have hadd : (trans.txq.readPtr + trans.ahead ssn) % trans.txq.nWindow =
      ssn % trans.txq.nWindow :=
    RingQueue.add_ahead (Nat.mod_lt _ (by omega))
  rw [h.used_iff, h.decWrap_mod, h.getCmdIndex_eq, ← hadd, Nat.mod_add_mod,
    show trans.txq.readPtr + trans.ahead ssn + (trans.txq.nWindow - 1) =
      trans.txq.readPtr + (trans.ahead ssn - 1) + trans.txq.nWindow by omega, Nat.add_mod_right,
    RingQueue.ahead_add (by omega)]
  omega

/-- **Reclaim**: the frames before the index `ssn` are handed back, oldest first; an index that is
not one of the queue is ignored. -/
theorem Fifo.iwlTxqReclaim_eq (h : trans.Fifo xs) (ssn jiffies : ℕ) :
    ((trans.queueUsed = false ∨ trans.ahead ssn = 0 ∨ xs.length < trans.ahead ssn) ∧
      trans.iwlTxqReclaim ssn jiffies [] = some ⟨trans, [], none⟩) ∨
    (trans.queueUsed = true ∧ trans.ahead ssn ≠ 0 ∧ trans.ahead ssn ≤ xs.length ∧
      ∃ entries readPtr,
        trans.iwlTxqReclaim ssn jiffies [] = some (((trans.setRead entries readPtr).iwlTxqProgress
          jiffies).spliceOverflow (xs.take (trans.ahead ssn))) ∧
        (trans.setRead entries readPtr).Fifo
          (xs.drop (trans.ahead ssn))) := by
  have hge := h.window_ge
  have hzero : trans.ahead ssn = 0 ↔
      trans.iwlTxqGetCmdIndex trans.txq.readPtr = trans.iwlTxqGetCmdIndex ssn := by
    rw [h.getCmdIndex_eq, h.getCmdIndex_eq]
    exact RingQueue.ahead_eq_zero_iff (Nat.mod_lt _ (by omega))
  unfold iwlTxqReclaim
  cases hqueue : trans.queueUsed with
  | false => exact .inl ⟨.inl rfl, rfl⟩
  | true =>
    rcases eq_or_ne (trans.ahead ssn) 0 with h0 | hpos
    · exact .inl ⟨.inr (.inl h0), by simp [hzero.1 h0]⟩
    · have hne : trans.iwlTxqGetCmdIndex trans.txq.readPtr ≠ trans.iwlTxqGetCmdIndex ssn :=
        fun heq => hpos (hzero.2 heq)
      rcases Nat.lt_or_ge xs.length (trans.ahead ssn) with hout | hin
      · have hunused := (not_congr (h.used_decWrap_iff hpos)).2 (by omega)
        exact .inl ⟨.inr (.inr hout), by simp [hne, hunused]⟩
      · have hused := (h.used_decWrap_iff hpos).2 hin
        have hlen : (xs.take (trans.ahead ssn)).length = trans.ahead ssn :=
          List.length_take_of_le hin
        have hsplit : trans.Fifo (xs.take (trans.ahead ssn) ++ xs.drop (trans.ahead ssn)) := by
          rwa [List.take_append_drop]
        have htfd : trans.iwlTxqGetCmdIndex ssn =
            (trans.txq.readPtr + (xs.take (trans.ahead ssn)).length) % trans.txq.nWindow := by
          rw [hlen, h.getCmdIndex_eq]
          exact (RingQueue.add_ahead (Nat.mod_lt _ (by omega))).symm
        have hroom := h.holds.room
        obtain ⟨entries, readPtr, hloop, hfifo⟩ :=
          hsplit.reclaimLoop trans.txq.nWindow (by omega) htfd []
        refine .inr ⟨rfl, hpos, hin, entries, readPtr, ?_, hfifo⟩
        simp only [Bool.not_true, Bool.false_eq_true, if_false, if_neg hne, not_true, hused, ne_eq,
          hloop, Option.map_some, List.nil_append]

/-! ## Teardown -/

theorem Fifo.unmapLoop (h : trans.Fifo xs) (fuel : ℕ) (hfuel : xs.length ≤ fuel) :
    ∃ entries readPtr, unmapLoop fuel trans = some { trans.setRead entries readPtr with
        opMode := trans.opMode ++ xs.map .freeSkb } ∧ (trans.setRead entries readPtr).Fifo [] := by
  induction xs generalizing trans fuel with
  | nil =>
    refine ⟨trans.txq.entries, trans.txq.readPtr, ?_, h⟩
    rw [Trans.unmapLoop.eq_def, List.map_nil, List.append_nil]
    exact if_pos (h.eq_nil_iff.2 rfl).symm
  | cons x xs ih =>
    rw [List.length_cons] at hfuel
    obtain ⟨fuel, rfl⟩ : ∃ f, fuel = f + 1 := Nat.exists_eq_add_one.2 (by omega)
    have hne : trans.txq.writePtr ≠ trans.txq.readPtr := fun heq =>
      List.cons_ne_nil _ _ (h.eq_nil_iff.1 heq.symm)
    have hfifo : trans.iwlTxqFreeTfd.incReadPtr.Fifo xs := by
      simp only [iwlTxqFreeTfd, h.head]
      exact h.pop.of_ring_eq rfl rfl
    obtain ⟨entries, readPtr, hloop, hfifo'⟩ := ih hfifo fuel (Nat.le_of_succ_le_succ hfuel)
    simp only [iwlTxqFreeTfd, h.head] at hloop hfifo'
    refine ⟨entries, readPtr, ?_, hfifo'.of_ring_eq rfl rfl⟩
    rw [Trans.unmapLoop, if_neg hne, List.map_cons, List.append_cons]
    simp only [iwlTxqFreeTfd, h.head]
    exact hloop

/-- **Teardown** frees the frames on the ring and the waiting ones, and wakes the queue. -/
theorem Fifo.iwlTxqGen2Unmap_eq (h : trans.Fifo xs) : ∃ entries readPtr,
    trans.iwlTxqGen2Unmap = some (iwlWakeQueue { trans.setRead entries readPtr with
      txq.overflowQ := []
      opMode := trans.opMode ++ (xs ++ trans.txq.overflowQ).map .freeSkb }) ∧
    (trans.setRead entries readPtr).Fifo [] := by
  have hroom := h.holds.room
  have hle := h.window_le
  obtain ⟨entries, readPtr, hloop, hfifo⟩ := h.unmapLoop trans.maxTfdQueueSize (by omega)
  refine ⟨entries, readPtr, ?_, hfifo⟩
  rw [iwlTxqGen2Unmap, hloop, Option.map_some, List.map_append, ← List.append_assoc]
  rfl

end Trans

end Iax.Queue
