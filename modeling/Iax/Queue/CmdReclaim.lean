import Iax.Queue.TxqRing

/-!
# Giving back the descriptors of host commands

When the firmware has answered a command, `iwl_pcie_cmdq_reclaim` (`pcie/tx.c`) moves the read index
of the command queue behind it. The index of the answer and the read index are both masked by the
window there, and then counted up round the whole ring.

* `Between`: the command queue holds the commands from number `R` up to number `W`. In contrast to
  the queues for data the window may be full.
* `cmdqReclaimLoop_eq`: how far the loop goes.
* `cmdq_reclaim_iff`: exactly when the read index ends up behind the answered command.
-/

namespace Iax.Queue

variable {M : Type*}

namespace Trans

variable (trans : Trans M)

/-- The loop of `iwl_pcie_cmdq_reclaim`, which counts the descriptors given back; `none` when `fuel`
turns are not enough. -/
def cmdqReclaimLoop (idx : ℕ) : ℕ → Trans M → ℕ → ℕ → Option (Trans M × ℕ)
  | fuel, trans, r, nfreed =>
    if r = idx then some (trans, nfreed)
    else match fuel with
      | 0 => none
      | fuel + 1 => cmdqReclaimLoop idx fuel trans.incReadPtr (trans.iwlTxqIncWrap r) (nfreed + 1)

/-- `iwl_pcie_cmdq_reclaim`: the state after it, and how often it has forced an NMI since a command
was skipped. -/
def iwlPcieCmdqReclaim (idx jiffies : ℕ) : Option (Trans M × ℕ) :=
  let idx := trans.iwlTxqGetCmdIndex idx
  let r := trans.iwlTxqGetCmdIndex trans.txq.readPtr
  if trans.maxTfdQueueSize ≤ idx ∨ ¬trans.iwlTxqUsed idx then some (trans, 0)
  else
    (cmdqReclaimLoop (trans.iwlTxqIncWrap idx) trans.maxTfdQueueSize trans r 0).map
      fun (trans, nfreed) => (trans.iwlTxqProgress jiffies, nfreed - 1)

/-- The queue holds the commands from number `R` up to number `W`. -/
structure Between (R W : ℕ) : Prop extends trans.Sized where
  read : trans.txq.readPtr = R % trans.maxTfdQueueSize
  write : trans.txq.writePtr = W % trans.maxTfdQueueSize
  le : R ≤ W
  room : W ≤ R + trans.capacity

variable {trans} {R W : ℕ}

namespace Between

variable (h : trans.Between R W)
include h

theorem window_pos : 0 < trans.txq.nWindow := by
  have := h.window_ge
  omega

/-- The window is a part of the ring, or all of it. -/
theorem capacity_cases : (trans.txq.nWindow < trans.maxTfdQueueSize ∧
      2 * trans.txq.nWindow ≤ trans.maxTfdQueueSize ∧ trans.capacity = trans.txq.nWindow) ∨
    (trans.txq.nWindow = trans.maxTfdQueueSize ∧
      trans.capacity = trans.maxTfdQueueSize - 1) := by
  obtain ⟨k, hk⟩ := h.window_dvd
  have hle := h.window_le
  have hpos := h.window_pos
  rcases Nat.lt_or_eq_of_le hle with hlt | heq
  · refine .inl ⟨hlt, ?_, if_pos hlt⟩
    rcases k with _ | _ | k
    · omega
    · omega
    · rw [hk, Nat.mul_comm]
      exact Nat.mul_le_mul_left _ (by omega)
  · exact .inr ⟨heq, if_neg (by omega)⟩

/-- `iwl_txq_space`: the room that is left. -/
theorem space_eq : trans.iwlTxqSpace = trans.capacity - (W - R) := by
  have hpos := h.window_pos
  have hle := h.window_le
  have hcap := h.capacity_cases
  have hroom := h.room
  have hNpos : 0 < trans.maxTfdQueueSize := by omega
  refine h.space_of_dist (h.read ▸ Nat.mod_lt _ hNpos) ?_
  rw [h.read, h.write]
  exact Ring.dist_mod h.le (by omega)

/-- A command more. -/
theorem push (hspace : 0 < trans.iwlTxqSpace) (entries : ℕ → Option M) (timer : TimerList) :
    Between { trans with
      txq.entries := entries
      txq.stuckTimer := timer
      txq.writePtr := trans.iwlTxqIncWrap trans.txq.writePtr } R (W + 1) where
  toSized := h.toSized.of_sizes_eq rfl
  read := h.read
  write := by
    rw [h.incWrap_eq, h.write, Nat.mod_add_mod]
  le := h.le.trans (Nat.le_succ W)
  room := by
    have hroom := h.room
    rw [h.space_eq] at hspace
    change W + 1 ≤ R + trans.capacity
    omega

/-- `iwl_txq_used` on the entry of a command of the queue: it fails when the window is full. -/
theorem used_iff {j : ℕ} (hj : R + j < W) :
    trans.iwlTxqUsed ((R + j) % trans.txq.nWindow) ↔ W < R + trans.txq.nWindow := by
  have hpos := h.window_pos
  have hroom := h.room
  have hcap := h.capacity_cases
  have hread : trans.iwlTxqGetCmdIndex trans.txq.readPtr = R % trans.txq.nWindow := by
    rw [h.getCmdIndex_eq, h.read, Nat.mod_mod_of_dvd _ h.window_dvd]
  have hwrite : trans.iwlTxqGetCmdIndex trans.txq.writePtr = W % trans.txq.nWindow := by
    rw [h.getCmdIndex_eq, h.write, Nat.mod_mod_of_dvd _ h.window_dvd]
  simp only [iwlTxqUsed, hread, hwrite, h.getCmdIndex_eq, Nat.mod_mod]
  rcases Nat.lt_or_ge W (R + trans.txq.nWindow) with hlt | hfull
  · obtain ⟨len, rfl⟩ := Nat.exists_eq_add_of_le h.le
    have hlen : len < trans.txq.nWindow := by omega
    have hbetween := RingQueue.between_iff (r := R) hlen (Nat.mod_lt (R + j) hpos)
    rw [RingQueue.ahead_add (by omega)] at hbetween
    exact hbetween.trans ⟨fun _ => hlt, fun _ => by omega⟩
  · obtain rfl : W = R + trans.txq.nWindow := by omega
    rw [Nat.add_mod_right, if_pos le_rfl]
    exact ⟨fun hused => by omega, fun hlt => by omega⟩

end Between

/-! ## The loop -/

/-- How many turns the loop makes between two indices. -/
theorem turns_eq {N r idx : ℕ} (hr : r < N) (hidx : idx < N) :
    (idx + N - r) % N = if r ≤ idx then idx - r else idx + N - r := by
  split
  · rw [show idx + N - r = idx - r + N by omega, Nat.add_mod_right, Nat.mod_eq_of_lt (by omega)]
  · exact Nat.mod_eq_of_lt (by omega)

theorem succ_mod_eq {N r : ℕ} (hr : r < N) : (r + 1) % N = if r + 1 = N then 0 else r + 1 := by
  split
  · rename_i heq
    rw [heq, Nat.mod_self]
  · exact Nat.mod_eq_of_lt (by omega)

/-- **The loop** gives back a descriptor for each index up to the one asked for, round the ring. -/
theorem cmdqReclaimLoop_eq (h : trans.Sized) {idx r fuel d : ℕ} (hidx : idx < trans.maxTfdQueueSize)
    (hr : r < trans.maxTfdQueueSize) (hread : trans.txq.readPtr < trans.maxTfdQueueSize)
    (hd : (idx + trans.maxTfdQueueSize - r) % trans.maxTfdQueueSize = d) (hfuel : d ≤ fuel)
    (nfreed : ℕ) : cmdqReclaimLoop idx fuel trans r nfreed =
      some (trans.setRead trans.txq.entries ((trans.txq.readPtr + d) % trans.maxTfdQueueSize),
        nfreed + d) := by
  induction fuel generalizing trans r d nfreed with
  | zero =>
    obtain rfl : d = 0 := Nat.le_zero.1 hfuel
    rw [turns_eq hr hidx] at hd
    have heq : r = idx := by
      split at hd <;> omega
    rw [cmdqReclaimLoop, if_pos heq, Nat.add_zero, Nat.mod_eq_of_lt hread]
    rfl
  | succ fuel ih =>
    rw [cmdqReclaimLoop]
    by_cases heq : r = idx
    · obtain rfl : d = 0 := by
        rw [turns_eq hr hidx] at hd
        split at hd <;> omega
      rw [if_pos heq, Nat.add_zero, Nat.mod_eq_of_lt hread]
      rfl
    · have hinc : trans.incReadPtr =
          trans.setRead trans.txq.entries ((trans.txq.readPtr + 1) % trans.maxTfdQueueSize) := by
        rw [incReadPtr, h.incWrap_eq]
        rfl
      have hpos : 0 < trans.maxTfdQueueSize := by omega
      obtain ⟨d, rfl⟩ : ∃ d', d = d' + 1 := by
        refine Nat.exists_eq_succ_of_ne_zero fun hzero => heq ?_
        rw [turns_eq hr hidx] at hd
        split at hd <;> omega
      have hturns : (idx + trans.maxTfdQueueSize - (r + 1) % trans.maxTfdQueueSize) %
          trans.maxTfdQueueSize = d := by
        rw [turns_eq (Nat.mod_lt _ hpos) hidx, succ_mod_eq hr]
        rw [turns_eq hr hidx] at hd
        split <;> split at hd <;> split <;> omega
      have hsized : (trans.setRead trans.txq.entries
          ((trans.txq.readPtr + 1) % trans.maxTfdQueueSize)).Sized := h.of_sizes_eq rfl
      rw [if_neg heq, hinc, h.incWrap_eq]
      refine (ih hsized hidx (Nat.mod_lt _ hpos) (Nat.mod_lt _ hpos) hturns
        (Nat.le_of_succ_le_succ hfuel) (nfreed + 1)).trans ?_
      simp only [setRead, Nat.mod_add_mod, Nat.add_assoc, Nat.add_comm 1 d]

/-! ## The function -/

/-- How far the loop goes for the answer to command `R + j`: to the command, unless the masked
indices are in the other order. Then it goes round the ring and ends a window too early. -/
def givenBack (N n R j : ℕ) : ℕ := if R % n + j < n ∨ n = N then j + 1 else N + j + 1 - n

namespace Between

variable (h : trans.Between R W)
include h

/-- The number of turns for the answer to a command. -/
theorem turns_of_answer {j : ℕ} (hj : R + j < W) (hlt : W < R + trans.txq.nWindow) :
    (((R + j) % trans.txq.nWindow + 1) % trans.maxTfdQueueSize + trans.maxTfdQueueSize -
        R % trans.txq.nWindow) % trans.maxTfdQueueSize =
      givenBack trans.maxTfdQueueSize trans.txq.nWindow R j := by
  have hpos := h.window_pos
  have hcap := h.capacity_cases
  have hr : R % trans.txq.nWindow < trans.txq.nWindow := Nat.mod_lt _ hpos
  have hle := h.window_le
  have hidx := Ring.add_mod_eq (N := trans.txq.nWindow) (R := R) (d := j) (by omega)
  have hidxlt : (R + j) % trans.txq.nWindow < trans.maxTfdQueueSize :=
    (Nat.mod_lt _ hpos).trans_le hle
  rw [turns_eq (hr.trans_le hle) (Nat.mod_lt _ (by omega)), succ_mod_eq hidxlt, givenBack, hidx]
  split <;> split <;> split <;> split <;> omega

/-- **What the function does** with an index that has the entry of command `R + j`: nothing when the
window is full, and else it gives back `givenBack` descriptors, with an NMI for each but the first
one. -/
theorem iwlPcieCmdqReclaim_eq {j idx : ℕ} (hj : R + j < W)
    (hidx : idx % trans.txq.nWindow = (R + j) % trans.txq.nWindow) (jiffies : ℕ) :
    ∃ timer, trans.iwlPcieCmdqReclaim idx jiffies =
      some (if W < R + trans.txq.nWindow then
          ({ trans with
            txq.readPtr := (R + givenBack trans.maxTfdQueueSize trans.txq.nWindow R j) %
              trans.maxTfdQueueSize
            txq.stuckTimer := timer },
          givenBack trans.maxTfdQueueSize trans.txq.nWindow R j - 1)
        else (trans, 0)) := by
  have hpos := h.window_pos
  have hle := h.window_le
  have hmask : trans.iwlTxqGetCmdIndex idx = (R + j) % trans.txq.nWindow := by
    rw [h.getCmdIndex_eq, hidx]
  have hidxlt : (R + j) % trans.txq.nWindow < trans.maxTfdQueueSize :=
    (Nat.mod_lt _ hpos).trans_le hle
  have hread : trans.iwlTxqGetCmdIndex trans.txq.readPtr = R % trans.txq.nWindow := by
    rw [h.getCmdIndex_eq, h.read, Nat.mod_mod_of_dvd _ h.window_dvd]
  simp only [iwlPcieCmdqReclaim, hmask, hread, h.used_iff hj]
  rcases Nat.lt_or_ge W (R + trans.txq.nWindow) with hlt | hfull
  · have hNpos : 0 < trans.maxTfdQueueSize := by omega
    have hturns := h.turns_of_answer hj hlt
    have hfuel : givenBack trans.maxTfdQueueSize trans.txq.nWindow R j ≤ trans.maxTfdQueueSize := by
      rw [← hturns]
      exact (Nat.mod_lt _ hNpos).le
    have hloop := cmdqReclaimLoop_eq h.toSized (Nat.mod_lt _ hNpos)
      ((Nat.mod_lt R hpos).trans_le hle) (h.read ▸ Nat.mod_lt _ hNpos) hturns hfuel 0
    obtain ⟨timer, htimer⟩ := iwlTxqProgress_eq (trans.setRead trans.txq.entries
      ((trans.txq.readPtr + givenBack trans.maxTfdQueueSize trans.txq.nWindow R j) %
        trans.maxTfdQueueSize)) jiffies
    refine ⟨timer, ?_⟩
    rw [if_neg (by omega), h.incWrap_eq, hloop, Option.map_some, if_pos hlt, htimer, h.read,
      Nat.mod_add_mod, Nat.zero_add]
    rfl
  · exact ⟨trans.txq.stuckTimer, by rw [if_pos (by omega), if_neg (by omega)]⟩

/-- **The answer to the oldest command** gives its descriptor back, unless the window is full. Then
it gives back nothing, as does any other answer. -/
theorem iwlPcieCmdqReclaim_oldest {k idx : ℕ} (hle : R ≤ k) (hlt : k < W)
    (hidx : idx % trans.txq.nWindow = k % trans.txq.nWindow)
    (holdest : R = k ∨ W = R + trans.txq.nWindow) (jiffies : ℕ) :
    ∃ timer R', trans.iwlPcieCmdqReclaim idx jiffies = some ({ trans with
        txq.readPtr := R' % trans.maxTfdQueueSize
        txq.stuckTimer := timer }, 0) ∧
      Between { trans with
        txq.readPtr := R' % trans.maxTfdQueueSize
        txq.stuckTimer := timer } R' W ∧
      (R' = k + 1 ∧ W < R + trans.txq.nWindow ∨ R' = R ∧ W = R + trans.txq.nWindow) := by
  have hpos := h.window_pos
  have hroom := h.room
  have hcap := h.capacity_cases
  obtain ⟨j, rfl⟩ := Nat.exists_eq_add_of_le hle
  obtain ⟨timer, heq⟩ := h.iwlPcieCmdqReclaim_eq hlt hidx jiffies
  rw [heq]
  rcases Nat.lt_or_ge W (R + trans.txq.nWindow) with hnotfull | hfull
  · obtain rfl : j = 0 := by omega
    have hone : givenBack trans.maxTfdQueueSize trans.txq.nWindow R 0 = 1 :=
      if_pos (.inl (Nat.mod_lt R hpos))
    rw [if_pos hnotfull, hone]
    refine ⟨timer, R + 1, rfl, ?_, .inl ⟨rfl, hnotfull⟩⟩
    exact ⟨h.toSized.of_sizes_eq rfl, rfl, h.write, hlt,
      hroom.trans (Nat.add_le_add_right (Nat.le_succ R) _)⟩
  · rw [if_neg (Nat.not_lt.2 hfull)]
    refine ⟨trans.txq.stuckTimer, R, ?_, ?_, .inr ⟨rfl, by omega⟩⟩
    · rw [← h.read]
    · exact ⟨h.toSized.of_sizes_eq rfl, rfl, h.write, h.le, hroom⟩

end Between

/-- **Reclaiming is exact** if and only if the window of commands is not full and the entry of the
answered command does not come in front of that of the oldest one, unless the window is the whole
ring. Then the read index stands behind the answered command. -/
theorem cmdq_reclaim_iff (h : trans.Between R W) {j idx : ℕ} (hj : R + j < W)
    (hidx : idx % trans.txq.nWindow = (R + j) % trans.txq.nWindow) (jiffies : ℕ) :
    (∃ t nmis, trans.iwlPcieCmdqReclaim idx jiffies = some (t, nmis) ∧
        t.Between (R + j + 1) W ∧ nmis = j) ↔
      W < R + trans.txq.nWindow ∧
        (R % trans.txq.nWindow + j < trans.txq.nWindow ∨
          trans.txq.nWindow = trans.maxTfdQueueSize) := by
  have hpos := h.window_pos
  have hcap := h.capacity_cases
  have hroom := h.room
  obtain ⟨timer, heq⟩ := h.iwlPcieCmdqReclaim_eq hj hidx jiffies
  rw [heq]
  constructor
  · rintro ⟨t, nmis, ht, hbetween, rfl⟩
    have ht := Option.some.inj ht
    split at ht
    · rename_i hlt
      obtain ⟨rfl, hnmis⟩ := Prod.mk.inj ht
      refine ⟨hlt, ?_⟩
      by_contra hwrap
      rw [givenBack, if_neg hwrap] at hnmis
      omega
    · obtain ⟨rfl, rfl⟩ := Prod.mk.inj ht
      have hread := hbetween.read.symm.trans h.read
      rw [Nat.add_zero] at hread
      have := Ring.mod_inj (N := trans.maxTfdQueueSize) (R := R) (by omega) (by omega) le_rfl
        (by omega) hread
      omega
  · rintro ⟨hlt, hin⟩
    refine ⟨_, _, congrArg some (if_pos hlt), ?_, ?_⟩
    · refine ⟨h.toSized.of_sizes_eq rfl, ?_, h.write, by omega, ?_⟩
      · rw [givenBack, if_pos hin, Nat.add_assoc]
      · exact hroom.trans (Nat.add_le_add_right (by omega) _)
    · rw [givenBack, if_pos hin, Nat.add_sub_cancel]

/-- A command queue of 32 entries with the commands 31 and 32, of which the second one has the first
entry. -/
def twoCommands : Trans Unit where
  maxTfdQueueSize := 256
  queueUsed := true
  queueStopped := false
  txq := { Txq.blank 0 0 with
    nWindow := 32, lowMark := 8, highMark := 4, writePtr := 33, readPtr := 31 }
  opMode := []

theorem between_twoCommands : twoCommands.Between 31 33 where
  size_pow := ⟨8, rfl⟩
  window_pow := ⟨5, rfl⟩
  window_ge := by decide
  window_le := by decide
  size_le := by decide
  low_ge := by decide
  low_lt := by decide
  high_ge := by decide
  high_le := by decide
  read := rfl
  write := rfl
  le := by decide
  room := by decide

theorem cmdq_reclaim_iff_twoCommands :
    (∃ t nmis, twoCommands.iwlPcieCmdqReclaim 31 0 = some (t, nmis) ∧ t.Between 32 33 ∧ nmis = 0) ∧
      ¬ ∃ t nmis, twoCommands.iwlPcieCmdqReclaim 32 0 = some (t, nmis) ∧ t.Between 33 33 ∧
        nmis = 1 :=
  ⟨(cmdq_reclaim_iff between_twoCommands (j := 0) (by decide) rfl 0).2 (by decide),
    fun h => absurd ((cmdq_reclaim_iff between_twoCommands (j := 1) (by decide) rfl 0).1 h)
      (by decide)⟩

end Trans

end Iax.Queue
