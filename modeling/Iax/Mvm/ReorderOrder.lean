import Iax.Mvm.Reorder

/-!
# What the reorder buffer delivers

The entries of the buffer are slots, and the head of the window goes through them: a release is a
number of steps of the head (`releaseBy`), at each of which the entry of the head is passed on.
This is right as long as the head does not go further than the window reaches: the loop of
`iwl_mvm_release_frames` then does not run at all, and the head is moved past what is stored.

* `ReorderInv`: the slots are in order, and the counts are right.
* `ReleaseOk`, `MpduOk`, `ReorderOk`: when an event keeps this.
* `reorder_in_order`: in a run of such events every frame that was stored is passed on once or is
  in the window, and frames leave in the order of their numbers.
-/

namespace Iax.Mvm

open SlotWindow (Ordered Advance Accounted)

/-! ## Comparisons -/

theorem snLess_iff {sn1 sn2 : BitVec 12} : snLess sn1 sn2 = true ↔ 2048 < ahead sn2 sn1 :=
  decide_eq_true_iff

theorem ahead_swap (sn1 sn2 : BitVec 12) : ahead sn1 sn2 = (4096 - ahead sn2 sn1) % 4096 := by
  simp only [ahead, BitVec.toNat_sub]
  omega

theorem ahead_sub (sn1 sn2 : BitVec 12) (n : ℕ) :
    ahead (sn1 - BitVec.ofNat 12 n) sn2 = (ahead sn1 sn2 + n) % 4096 := by
  simp only [ahead, BitVec.toNat_sub, BitVec.toNat_ofNat]
  omega

/-- The buffer size bounds how far a number is behind. -/
theorem iwlMvmIsSnLess_iff {sn1 sn2 : BitVec 12} {n : ℕ} (hn : n ≤ 1024) :
    iwlMvmIsSnLess sn1 sn2 n = true ↔ 0 < ahead sn1 sn2 ∧ ahead sn1 sn2 ≤ n := by
  have hlt := ahead_lt sn2 sn1
  rw [iwlMvmIsSnLess, Bool.and_eq_true, Bool.not_eq_true', ← Bool.not_eq_true, snLess_iff,
    snLess_iff, ahead_sub, ahead_swap sn1 sn2]
  omega

/-! ## The slots -/

theorem BaidData.slot_lt (data : BaidData) (sn : BitVec 12) : data.slot sn < data.bufSize :=
  Nat.mod_lt _ data.bufSize_pos

namespace ReorderBuffer

/-- The entries as slots. -/
def window (buf : ReorderBuffer) : SlotWindow 12 RxMpdu where
  head := buf.headSn
  slots i := (buf.entries i).frames
  out := buf.passed

/-- The frames that are stored. -/
def stored (data : BaidData) (buf : ReorderBuffer) : List RxMpdu := buf.window.stored data.bufSize

/-- What is stored after the head has moved by `n`. -/
def staying (data : BaidData) (buf : ReorderBuffer) (n : ℕ) : List RxMpdu :=
  (buf.stored data).filter fun f => n ≤ ahead buf.headSn f.sn

end ReorderBuffer

/-- The counter is what was stored less what was passed on. -/
def Balanced (buf : ReorderBuffer) : Prop :=
  buf.numStored + BitVec.ofNat 16 buf.passed.length = BitVec.ofNat 16 buf.queued.length

/-- What holds of the buffer between two events. -/
structure ReorderInv (data : BaidData) (buf : ReorderBuffer) : Prop where
  ordered : Ordered RxMpdu.sn data.slot data.bufSize buf.window
  accounted : Accounted data.bufSize buf.queued buf.window
  balanced : Balanced buf
  few : (buf.stored data).length < 65536

section Inv

variable {data : BaidData} {buf buf' : ReorderBuffer}

theorem ReorderInv.of_eq (h : ReorderInv data buf) (hw : buf'.window = buf.window)
    (hq : buf'.queued = buf.queued) (hn : buf'.numStored = buf.numStored) :
    ReorderInv data buf' := by
  have hpassed : buf'.passed = buf.passed := congrArg SlotWindow.out hw
  constructor
  · rw [hw]
    exact h.ordered
  · rw [hw, hq]
    exact h.accounted
  · rw [Balanced, hn, hq, hpassed]
    exact h.balanced
  · rw [ReorderBuffer.stored, hw]
    exact h.few

theorem ReorderInv.length_eq (h : ReorderInv data buf) :
    buf.queued.length = buf.passed.length + (buf.stored data).length := by
  rw [h.accounted.length_eq, List.length_append]
  rfl

/-- The counter is right. -/
theorem ReorderInv.numStored_eq (h : ReorderInv data buf) :
    buf.numStored = BitVec.ofNat 16 (buf.stored data).length := by
  have hbalanced := h.balanced
  rw [Balanced, h.length_eq, Nat.add_comm, BitVec.ofNat_add] at hbalanced
  exact add_right_cancel hbalanced

theorem ReorderInv.numStored_eq_zero (h : ReorderInv data buf) :
    buf.numStored = 0 ↔ buf.stored data = [] := by
  have hfew := h.few
  rw [h.numStored_eq, ← List.length_eq_zero_iff]
  constructor
  · intro h0
    have hmod : (buf.stored data).length % 2 ^ 16 = 0 := by
      rw [← BitVec.toNat_ofNat, h0]
      rfl
    omega
  · intro h0
    rw [h0]
    rfl

theorem ReorderInv.frames_eq_nil (h : ReorderInv data buf) (h0 : buf.stored data = []) (i : ℕ) :
    (buf.entries i).frames = [] := by
  rw [List.eq_nil_iff_forall_not_mem]
  intro f hf
  have hi : i < data.bufSize := by
    rw [← h.ordered.slot_eq i f hf]
    exact data.slot_lt _
  have hmem : f ∈ buf.stored data := SlotWindow.mem_stored.2 ⟨i, hi, hf⟩
  rw [h0] at hmem
  exact List.not_mem_nil hmem

theorem reorderInv_init (data : BaidData) (ssn : BitVec 12) :
    ReorderInv data (ReorderBuffer.init ssn) := by
  have hstored : (ReorderBuffer.init ssn).stored data = [] :=
    List.flatMap_eq_nil_iff.2 fun _ _ => rfl
  refine ⟨.of_empty fun _ => rfl, ?_, rfl, ?_⟩
  · exact List.Perm.of_eq hstored.symm
  · rw [hstored]
    exact Nat.zero_lt_succ _

end Inv

/-! ## The loop of a release -/

section Release

variable {data : BaidData} {buf : ReorderBuffer}

/-- A notice changes nothing else. -/
theorem syncAt_eq (buf : ReorderBuffer) (mark nssn : BitVec 12) :
    ∃ notices, buf.syncAt mark nssn = { buf with notices := notices } := by
  rw [ReorderBuffer.syncAt]
  split_ifs
  · exact ⟨_, rfl⟩
  · exact ⟨_, rfl⟩

theorem window_setFrames (buf : ReorderBuffer) (i : ℕ) : (buf.setFrames i []).window =
    ⟨buf.headSn, Function.update buf.window.slots i [], buf.passed⟩ := by
  rw [ReorderBuffer.window, SlotWindow.mk.injEq]
  refine ⟨rfl, funext fun j => ?_, rfl⟩
  by_cases hj : j = i
  · subst hj
    simp [ReorderBuffer.setFrames]
  · simp [ReorderBuffer.setFrames, Function.update_of_ne hj, ReorderBuffer.window]

/-- What the loop of a release does in one round and what it leaves alone. -/
theorem releaseEntry_eq (data : BaidData) (buf : ReorderBuffer) (sendRssSync : Bool)
    (ssn : BitVec 12) :
    ∃ notices, releaseEntry data sendRssSync ssn buf =
      { buf.setFrames (data.slot ssn) [] with
        passed := buf.passed ++ (buf.entries (data.slot ssn)).frames
        numStored := buf.numStored -
          BitVec.ofNat 16 (buf.entries (data.slot ssn)).frames.length
        notices := notices } := by
  rw [releaseEntry]
  cases sendRssSync with
  | false => exact ⟨_, rfl⟩
  | true =>
    obtain ⟨notices, hnotices⟩ := syncAt_eq buf (ssn + 1) (ssn + 1)
    exact ⟨notices, by rw [if_pos rfl, hnotices]; rfl⟩

/-- A round of the loop is a `pop`. -/
theorem releaseEntry_window (sendRssSync : Bool) (ssn : BitVec 12) :
    { releaseEntry data sendRssSync ssn buf with headSn := ssn + 1 }.window =
      SlotWindow.pop data.slot { buf with headSn := ssn }.window := by
  obtain ⟨notices, heq⟩ := releaseEntry_eq data buf sendRssSync ssn
  have hslots := congrArg SlotWindow.slots (window_setFrames buf (data.slot ssn))
  rw [heq, ReorderBuffer.window, SlotWindow.pop, SlotWindow.mk.injEq]
  exact ⟨rfl, hslots, rfl⟩

theorem releaseEntry_balanced (sendRssSync : Bool) (ssn : BitVec 12) (h : Balanced buf) :
    Balanced (releaseEntry data sendRssSync ssn buf) := by
  obtain ⟨notices, heq⟩ := releaseEntry_eq data buf sendRssSync ssn
  rw [heq, Balanced]
  dsimp only [ReorderBuffer.setFrames]
  rw [← h, List.length_append, BitVec.ofNat_add, add_comm (BitVec.ofNat 16 buf.passed.length),
    ← add_assoc, sub_add_cancel]

/-- The loop goes from the head to `nssn`. -/
theorem releaseLoop_spec (nssn : BitVec 12) (sendRssSync : Bool) (n : ℕ) (ssn : BitVec 12)
    (hn : ahead ssn nssn = n) (hle : n ≤ data.bufSize) (hbalanced : Balanced buf) :
    { releaseLoop data nssn sendRssSync n ssn buf with headSn := nssn }.window =
        (SlotWindow.pop data.slot)^[n] { buf with headSn := ssn }.window ∧
      Balanced (releaseLoop data nssn sendRssSync n ssn buf) ∧
      (releaseLoop data nssn sendRssSync n ssn buf).queued = buf.queued := by
  induction n generalizing ssn buf with
  | zero =>
    obtain rfl := ahead_eq_zero.1 hn
    exact ⟨rfl, hbalanced, rfl⟩
  | succ n ih =>
    have hless : iwlMvmIsSnLess ssn nssn data.bufSize = true := by
      rw [iwlMvmIsSnLess_iff data.bufSize_le]
      omega
    have hnext : ahead (ssn + 1) nssn = n := by
      have hstep := ahead_add (n := 1) (h := ssn) (s := nssn) (by omega)
      rw [hn] at hstep
      exact hstep
    rw [releaseLoop, if_pos hless, Function.iterate_succ_apply, ← releaseEntry_window sendRssSync]
    obtain ⟨hwindow, hbalanced, hqueued⟩ :=
      ih (ssn + 1) hnext (by omega) (releaseEntry_balanced sendRssSync ssn hbalanced)
    obtain ⟨notices, heq⟩ := releaseEntry_eq data buf sendRssSync ssn
    refine ⟨hwindow, hbalanced, hqueued.trans ?_⟩
    rw [heq]
    rfl

/-- How far a release moves the head. -/
def releaseBy (data : BaidData) (head nssn : BitVec 12) (fromRssSync : Bool) : ℕ :=
  if (fromRssSync && snLess nssn head) || iwlMvmIsSnLess nssn head data.bufSize then 0
  else ahead head nssn

/-- A release is in order when nothing is stored or the head does not leave the window. -/
def ReleaseOk (data : BaidData) (buf : ReorderBuffer) (nssn : BitVec 12) (fromRssSync : Bool) :
    Prop :=
  buf.stored data = [] ∨ releaseBy data buf.headSn nssn fromRssSync ≤ data.bufSize

theorem releaseBy_le_ahead (data : BaidData) (head nssn : BitVec 12) (fromRssSync : Bool) :
    releaseBy data head nssn fromRssSync ≤ ahead head nssn := by
  rw [releaseBy]
  split_ifs
  · exact Nat.zero_le _
  · exact Nat.le_refl _

/-- A release is ignored or moves the head to `nssn`. -/
theorem releaseBy_cases (data : BaidData) (head nssn : BitVec 12) (fromRssSync : Bool) :
    releaseBy data head nssn fromRssSync = 0 ∨
      head + BitVec.ofNat 12 (releaseBy data head nssn fromRssSync) = nssn := by
  rw [releaseBy]
  split
  · exact .inl rfl
  · exact .inr (add_ahead head nssn)

theorem releaseBy_add_le (data : BaidData) (head nssn : BitVec 12) (fromRssSync : Bool) :
    releaseBy data head nssn fromRssSync + data.bufSize ≤ 4096 := by
  have hle := data.bufSize_le
  have hlt := ahead_lt head nssn
  rw [releaseBy]
  split_ifs with hignored
  · omega
  · rw [Bool.or_eq_true, not_or, iwlMvmIsSnLess_iff hle, ahead_swap] at hignored
    omega

/-- What a release does: the head moves by `n`, and what is before its new place is passed on. -/
structure Released (data : BaidData) (buf buf' : ReorderBuffer) (n : ℕ) : Prop where
  inv : ReorderInv data buf'
  advance : Advance RxMpdu.sn buf.window buf'.window n
  stored : buf'.stored data = buf.staying data n

/-- The timer is all that `set_timer` changes. -/
theorem setTimer_eq (data : BaidData) (buf : ReorderBuffer) :
    ∃ timer, setTimer data buf = { buf with timer := timer } := by
  rw [setTimer]
  split_ifs
  · exact ⟨_, rfl⟩
  · exact ⟨_, rfl⟩

theorem Released.setTimer {buf' : ReorderBuffer} {n : ℕ} (h : Released data buf buf' n) :
    Released data buf (setTimer data buf') n := by
  obtain ⟨timer, htimer⟩ := setTimer_eq data buf'
  rw [htimer]
  exact ⟨h.inv.of_eq rfl rfl rfl, h.advance, h.stored⟩

theorem Released.refl (h : ReorderInv data buf) : Released data buf buf 0 := by
  refine ⟨h, .refl _ _, ?_⟩
  rw [ReorderBuffer.staying, eq_comm, List.filter_eq_self]
  exact fun f _ => decide_eq_true (Nat.zero_le _)

/-- The slots after `n` steps of the head. -/
theorem stored_iterate (h : ReorderInv data buf) (n : ℕ) :
    ((SlotWindow.pop data.slot)^[n] buf.window).stored data.bufSize = buf.staying data n := by
  rw [ReorderBuffer.staying, ReorderBuffer.stored, SlotWindow.stored, SlotWindow.stored,
    List.filter_flatMap]
  exact List.flatMap_congr fun i _ => h.ordered.slots_iterate n i

theorem length_staying_le (n : ℕ) : (buf.staying data n).length ≤ (buf.stored data).length :=
  List.length_filter_le ..

/-- The head stays in the window. -/
theorem released_of_iterate {buf' : ReorderBuffer} {n : ℕ} (h : ReorderInv data buf)
    (hwindow : buf'.window = (SlotWindow.pop data.slot)^[n] buf.window)
    (hqueued : buf'.queued = buf.queued) (hbalanced : Balanced buf') (hn : n ≤ 4096) :
    Released data buf buf' n := by
  have hstored : buf'.stored data = buf.staying data n := by
    rw [ReorderBuffer.stored, hwindow, stored_iterate h]
  refine ⟨⟨?_, ?_, hbalanced, ?_⟩, ?_, hstored⟩
  · rw [hwindow]
    exact h.ordered.iterate n
  · rw [hwindow, hqueued]
    exact h.accounted.iterate data.slot_lt n
  · rw [hstored]
    exact (length_staying_le n).trans_lt h.few
  · rw [hwindow]
    exact h.ordered.advance_iterate hn

/-- Nothing is stored, and the head goes where it likes. -/
theorem released_of_empty (h : ReorderInv data buf) (h0 : buf.stored data = [])
    (nssn : BitVec 12) :
    Released data buf { buf with headSn := nssn } (ahead buf.headSn nssn) := by
  refine ⟨⟨.of_empty (h.frames_eq_nil h0), h.accounted, h.balanced, h.few⟩, ?_, ?_⟩
  · exact .of_out_eq (add_ahead buf.headSn nssn).symm rfl
  · rw [ReorderBuffer.staying, h0]
    exact h0

/-- The loop does not run when the head would leave the window. -/
theorem releaseLoop_of_lt (nssn : BitVec 12) (sendRssSync : Bool)
    (hlt : data.bufSize < ahead buf.headSn nssn) (n : ℕ) :
    releaseLoop data nssn sendRssSync n buf.headSn buf = buf := by
  have hless : ¬iwlMvmIsSnLess buf.headSn nssn data.bufSize = true := by
    rw [iwlMvmIsSnLess_iff data.bufSize_le]
    omega
  cases n with
  | zero => rfl
  | succ n => rw [releaseLoop, if_neg hless]

/-- **The release.** -/
theorem iwlMvmReleaseFrames_released (h : ReorderInv data buf) (nssn : BitVec 12)
    (sendRssSync fromRssSync : Bool) (hC : ReleaseOk data buf nssn fromRssSync) :
    Released data buf (iwlMvmReleaseFrames data buf nssn sendRssSync fromRssSync)
      (releaseBy data buf.headSn nssn fromRssSync) := by
  rw [iwlMvmReleaseFrames]
  rw [ReleaseOk] at hC
  rw [releaseBy] at hC ⊢
  by_cases hsync : (fromRssSync && snLess nssn buf.headSn) = true
  · rw [if_pos hsync, if_pos (by rw [hsync]; rfl)]
    exact (Released.refl h).setTimer
  by_cases hless : iwlMvmIsSnLess nssn buf.headSn data.bufSize = true
  · rw [if_neg hsync, if_pos hless, if_pos (by rw [hless, Bool.or_true])]
    exact (Released.refl h).setTimer
  have hmoves : ¬((fromRssSync && snLess nssn buf.headSn) ||
      iwlMvmIsSnLess nssn buf.headSn data.bufSize) = true := by simp [hsync, hless]
  rw [if_neg hmoves] at hC
  rw [if_neg hsync, if_neg hless, if_neg hmoves]
  refine Released.setTimer ?_
  have hlt := ahead_lt buf.headSn nssn
  by_cases hle : ahead buf.headSn nssn ≤ data.bufSize
  · obtain ⟨hwindow, hbalanced, hqueued⟩ :=
      releaseLoop_spec nssn sendRssSync _ buf.headSn rfl hle h.balanced
    exact released_of_iterate h hwindow hqueued hbalanced hlt.le
  · rw [releaseLoop_of_lt nssn sendRssSync (Nat.lt_of_not_le hle)]
    exact released_of_empty h (hC.resolve_right hle) nssn

/-- The loop of a release keeps what the release of an entry keeps. -/
theorem releaseLoop_keeps {α : Type} (F : ReorderBuffer → α) (data : BaidData) (sendRssSync : Bool)
    (hF : ∀ buf ssn, F (releaseEntry data sendRssSync ssn buf) = F buf) (buf : ReorderBuffer)
    (nssn : BitVec 12) (n : ℕ) (ssn : BitVec 12) :
    F (releaseLoop data nssn sendRssSync n ssn buf) = F buf := by
  induction n generalizing ssn buf with
  | zero => rfl
  | succ n ih =>
    rw [releaseLoop]
    split
    · exact (ih _ (ssn + 1)).trans (hF buf ssn)
    · rfl

/-- A release has nothing to do with A-MSDUs. -/
theorem releaseLoop_lastAmsdu (data : BaidData) (buf : ReorderBuffer) (nssn : BitVec 12)
    (sendRssSync : Bool) (n : ℕ) (ssn : BitVec 12) :
    (releaseLoop data nssn sendRssSync n ssn buf).lastAmsdu = buf.lastAmsdu ∧
      (releaseLoop data nssn sendRssSync n ssn buf).lastSubIndex = buf.lastSubIndex := by
  constructor
  · refine releaseLoop_keeps (·.lastAmsdu) data sendRssSync (fun buf ssn => ?_) buf nssn n ssn
    obtain ⟨notices, heq⟩ := releaseEntry_eq data buf sendRssSync ssn
    rw [heq]
    rfl
  · refine releaseLoop_keeps (·.lastSubIndex) data sendRssSync (fun buf ssn => ?_) buf nssn n ssn
    obtain ⟨notices, heq⟩ := releaseEntry_eq data buf sendRssSync ssn
    rw [heq]
    rfl

theorem iwlMvmReleaseFrames_lastAmsdu (nssn : BitVec 12) (sendRssSync fromRssSync : Bool) :
    (iwlMvmReleaseFrames data buf nssn sendRssSync fromRssSync).lastAmsdu = buf.lastAmsdu ∧
      (iwlMvmReleaseFrames data buf nssn sendRssSync fromRssSync).lastSubIndex =
        buf.lastSubIndex := by
  have htimer (buf : ReorderBuffer) : (setTimer data buf).lastAmsdu = buf.lastAmsdu ∧
      (setTimer data buf).lastSubIndex = buf.lastSubIndex := by
    obtain ⟨timer, heq⟩ := setTimer_eq data buf
    rw [heq]
    exact ⟨rfl, rfl⟩
  rw [iwlMvmReleaseFrames]
  split
  · exact htimer buf
  split
  · exact htimer buf
  obtain ⟨hlast, hsub⟩ := htimer { releaseLoop data nssn sendRssSync (nssn - buf.headSn).toNat
    buf.headSn buf with headSn := nssn }
  obtain ⟨hlast', hsub'⟩ := releaseLoop_lastAmsdu data buf nssn sendRssSync
    (nssn - buf.headSn).toNat buf.headSn
  exact ⟨hlast.trans hlast', hsub.trans hsub'⟩

end Release

/-! ## Releases that leave the window -/

section Strand

variable {data : BaidData} {buf : ReorderBuffer}

/-- A release that goes further than the window reaches leaves every stored frame behind. -/
theorem iwlMvmReleaseFrames_strands (h : ReorderInv data buf) {nssn : BitVec 12}
    (sendRssSync : Bool) {fromRssSync : Bool} (hC : ¬ReleaseOk data buf nssn fromRssSync) :
    (iwlMvmReleaseFrames data buf nssn sendRssSync fromRssSync).stored data = buf.stored data ∧
      ∀ f ∈ buf.stored data, data.bufSize ≤
        ahead (iwlMvmReleaseFrames data buf nssn sendRssSync fromRssSync).headSn f.sn := by
  rw [ReleaseOk, not_or, Nat.not_le, releaseBy] at hC
  have hroom := releaseBy_add_le data buf.headSn nssn fromRssSync
  rw [releaseBy] at hroom
  have hmoves : ¬((fromRssSync && snLess nssn buf.headSn) ||
      iwlMvmIsSnLess nssn buf.headSn data.bufSize) = true := by
    intro hmoves
    rw [if_pos hmoves] at hC
    exact Nat.not_lt_zero _ hC.2
  rw [if_neg hmoves] at hC hroom
  have hnot : ¬(fromRssSync && snLess nssn buf.headSn) = true ∧
      ¬iwlMvmIsSnLess nssn buf.headSn data.bufSize = true := by
    rwa [Bool.or_eq_true, not_or] at hmoves
  obtain ⟨timer, htimer⟩ := setTimer_eq data { buf with headSn := nssn }
  rw [iwlMvmReleaseFrames, if_neg hnot.1, if_neg hnot.2, releaseLoop_of_lt nssn sendRssSync hC.2]
  dsimp only
  rw [htimer]
  refine ⟨rfl, fun f hf => ?_⟩
  obtain ⟨i, -, hf⟩ := SlotWindow.mem_stored.1 hf
  have hlt : ahead buf.headSn f.sn < data.bufSize := h.ordered.ahead_lt i f hf
  simp only [ahead, BitVec.toNat_sub] at hlt hC hroom ⊢
  omega

/-- The search for the next entry ends while something is stored. -/
theorem nextStored_isSome (h : ReorderInv data buf) (hne : buf.numStored ≠ 0) :
    (nextStored data buf).isSome = true := by
  rw [ne_eq, h.numStored_eq_zero] at hne
  obtain ⟨f, hf⟩ := List.exists_mem_of_ne_nil _ hne
  obtain ⟨i, hi, hf⟩ := SlotWindow.mem_stored.1 hf
  rw [nextStored, List.find?_isSome]
  have hpos := data.bufSize_pos
  have hmod := Nat.mod_lt buf.headSn.toNat hpos
  have hdiv := Nat.mod_add_div buf.headSn.toNat data.bufSize
  refine ⟨i, List.mem_map.2 ⟨(i + data.bufSize - buf.headSn.toNat % data.bufSize) % data.bufSize,
    List.mem_range.2 (Nat.mod_lt _ hpos), ?_⟩, ?_⟩
  · rw [Nat.add_mod_mod, ← Nat.mod_add_mod, Nat.add_sub_cancel' (by omega), Nat.add_mod_right,
      Nat.mod_eq_of_lt hi]
  · rw [Bool.not_eq_true', List.isEmpty_eq_false_iff_exists_mem]
    exact ⟨f, hf⟩

end Strand

/-! ## Frames that arrive -/

section Mpdu

variable {data : BaidData} {buf : ReorderBuffer} {p : RxMpdu}

/-- How far the adjustment to a jump moves the head. -/
def adjustBy (data : BaidData) (head sn nssn : BitVec 12) : ℕ :=
  if jumps data head sn nssn then releaseBy data head (minSn sn nssn) false else 0

/-- When a frame is treated right by a buffer with its head at `head` that stores `stored`: it is
old, or it is passed on at once, or its entry is taken and it is not the next part of the A-MSDU
that was stored last, or it can be stored. In the latter case it is in the window, no number before
it in the window has its entry, the counter does not overflow and `nssn` does not leave the
window. -/
def FrameOk (data : BaidData) (buf : ReorderBuffer) (head : BitVec 12) (stored : List RxMpdu)
    (p : RxMpdu) : Prop :=
  snLess p.sn head = true ∨
  (stored = [] ∧ (snLess p.sn p.nssn = true ∨ p.sn = head)) ∨
  ((∃ f ∈ stored, data.slot f.sn = data.slot p.sn) ∧ (p.amsdu = true → p.sn = buf.lastAmsdu →
    p.subFrameIdx.toNat ≤ buf.lastSubIndex.toNat)) ∨
  (ahead head p.sn < data.bufSize ∧
    (∀ k < ahead head p.sn, data.slot (head + BitVec.ofNat 12 k) ≠ data.slot p.sn) ∧
    stored.length + 1 < 65536 ∧
    (p.closes = true → releaseBy data head p.nssn false ≤ data.bufSize))

/-- When a frame keeps the buffer in order: the adjustment does, and so does what comes after. -/
def MpduOk (data : BaidData) (buf : ReorderBuffer) (p : RxMpdu) : Prop :=
  let n := adjustBy data buf.headSn p.sn p.nssn
  (buf.stored data = [] ∨ n ≤ data.bufSize) ∧
    FrameOk data buf (buf.headSn + BitVec.ofNat 12 n) (buf.staying data n) p

theorem isRetransmission_iff (h : ReorderInv data buf) :
    isRetransmission buf (data.slot p.sn) p = true ↔
      (∃ f ∈ buf.stored data, data.slot f.sn = data.slot p.sn) ∧
        (p.amsdu = true → p.sn = buf.lastAmsdu →
          p.subFrameIdx.toNat ≤ buf.lastSubIndex.toNat) := by
  have htaken : (buf.entries (data.slot p.sn)).frames.isEmpty = false ↔
      ∃ f ∈ buf.stored data, data.slot f.sn = data.slot p.sn := by
    rw [List.isEmpty_eq_false_iff_exists_mem]
    constructor
    · rintro ⟨f, hf⟩
      exact ⟨f, SlotWindow.mem_stored.2 ⟨_, data.slot_lt _, hf⟩, h.ordered.slot_eq _ f hf⟩
    · rintro ⟨f, hf, hslot⟩
      obtain ⟨i, -, hfi⟩ := SlotWindow.mem_stored.1 hf
      rw [← hslot, h.ordered.slot_eq i f hfi]
      exact ⟨f, hfi⟩
  rw [isRetransmission, Bool.and_eq_true, Bool.not_eq_true', htaken]
  refine and_congr_right fun _ => ?_
  simp only [Bool.or_eq_true, Bool.not_eq_true', decide_eq_true_eq]
  rw [← Bool.not_eq_true]
  tauto

/-- A frame is put into its slot. -/
theorem storeFrame_window (jiffies : BitVec 64) :
    (storeFrame data buf p jiffies).window = buf.window.put RxMpdu.sn data.slot p := by
  rw [ReorderBuffer.window, SlotWindow.put, SlotWindow.mk.injEq]
  refine ⟨rfl, funext fun i => ?_, rfl⟩
  by_cases hi : i = data.slot p.sn
  · subst hi
    simp [storeFrame, ReorderBuffer.window]
  · simp [storeFrame, ReorderBuffer.window, Function.update_of_ne hi]

theorem storeFrame_inv (h : ReorderInv data buf) (jiffies : BitVec 64)
    (hlt : ahead buf.headSn p.sn < data.bufSize)
    (hnext : ∀ k < ahead buf.headSn p.sn,
      data.slot (buf.headSn + BitVec.ofNat 12 k) ≠ data.slot p.sn)
    (hfew : (buf.stored data).length + 1 < 65536) :
    ReorderInv data (storeFrame data buf p jiffies) := by
  have haccounted : Accounted data.bufSize (storeFrame data buf p jiffies).queued
      (storeFrame data buf p jiffies).window := by
    rw [storeFrame_window]
    exact h.accounted.put p (data.slot_lt _)
  refine ⟨?_, haccounted, ?_, ?_⟩
  · rw [storeFrame_window]
    exact h.ordered.put hlt hnext
  · have hbalanced := h.balanced
    rw [Balanced] at hbalanced ⊢
    dsimp only [storeFrame]
    rw [List.length_append, BitVec.ofNat_add, ← hbalanced, add_right_comm]
    rfl
  · have hlength := haccounted.length_eq
    have hlength' := h.length_eq
    rw [List.length_append] at hlength
    have hqueued : (storeFrame data buf p jiffies).queued.length = buf.queued.length + 1 :=
      List.length_append
    have hpassed : (storeFrame data buf p jiffies).window.out.length = buf.passed.length := rfl
    rw [ReorderBuffer.stored]
    omega

/-- What an event does to the buffer: as a release, and the window fits behind the move. -/
structure Moved (data : BaidData) (buf buf' : ReorderBuffer) (n : ℕ) : Prop where
  inv : ReorderInv data buf'
  advance : Advance RxMpdu.sn buf.window buf'.window n
  fits : buf'.stored data = [] ∨ n + data.bufSize ≤ 4096

theorem Released.moved {buf' : ReorderBuffer} {nssn : BitVec 12} {fromRssSync : Bool}
    (h : Released data buf buf' (releaseBy data buf.headSn nssn fromRssSync)) :
    Moved data buf buf' (releaseBy data buf.headSn nssn fromRssSync) :=
  ⟨h.inv, h.advance, .inr (releaseBy_add_le ..)⟩

theorem Moved.refl (h : ReorderInv data buf) : Moved data buf buf 0 :=
  ⟨h, .refl _ _, .inr (by have := data.bufSize_le; omega)⟩

/-- A frame is passed on at once: the head of an empty buffer moves, and others may be told. -/
theorem passOn_moved (h : ReorderInv data buf) (h0 : buf.stored data = []) (mark nssn : BitVec 12)
    {head : BitVec 12} {n : ℕ} (hhead : head = buf.headSn + BitVec.ofNat 12 n) :
    Moved data buf { buf.syncAt mark nssn with headSn := head } n ∧
      ({ buf.syncAt mark nssn with headSn := head } : ReorderBuffer).stored data = [] := by
  obtain ⟨notices, hnotices⟩ := syncAt_eq buf mark nssn
  rw [hnotices, hhead]
  have hordered : ReorderInv data { buf with
      headSn := buf.headSn + BitVec.ofNat 12 n
      notices := notices } :=
    ⟨.of_empty (h.frames_eq_nil h0), h.accounted, h.balanced, h.few⟩
  exact ⟨⟨hordered, .of_out_eq rfl rfl, .inl h0⟩, h0⟩

/-- A frame is stored, and if it ends its A-MSDU the buffer is released up to `nssn`. -/
theorem storeRelease_moved (h : ReorderInv data buf) (jiffies : BitVec 64)
    (hlt : ahead buf.headSn p.sn < data.bufSize)
    (hslot : ∀ k < ahead buf.headSn p.sn,
      data.slot (buf.headSn + BitVec.ofNat 12 k) ≠ data.slot p.sn)
    (hfew : (buf.stored data).length + 1 < 65536)
    (hclose : p.closes = true → releaseBy data buf.headSn p.nssn false ≤ data.bufSize) :
    ∃ n ≤ data.bufSize, n ≤ ahead buf.headSn p.nssn ∧
      Moved data buf (if p.closes then
        iwlMvmReleaseFrames data (storeFrame data buf p jiffies) p.nssn true false
        else storeFrame data buf p jiffies) n := by
  have hinv := storeFrame_inv h jiffies hlt hslot hfew
  split
  · rename_i hcloses
    have hreleased := iwlMvmReleaseFrames_released hinv p.nssn true false (.inr (hclose hcloses))
    have hmoved := hreleased.moved
    exact ⟨_, hclose hcloses, releaseBy_le_ahead .., hmoved.inv,
      ⟨hmoved.advance.head, hmoved.advance.out⟩, hmoved.fits⟩
  · have hmoved := Moved.refl hinv
    exact ⟨0, Nat.zero_le _, Nat.zero_le _, hinv, ⟨hmoved.advance.head, hmoved.advance.out⟩,
      hmoved.fits⟩

/-- **A frame is placed.** The head moves within the window, and when it moves over stored frames
from an empty buffer, it goes at most to `nssn`. -/
theorem placeFrame_moved (h : ReorderInv data buf) (jiffies : BitVec 64)
    (hC : FrameOk data buf buf.headSn (buf.stored data) p) :
    ∃ n ≤ data.bufSize, Moved data buf (placeFrame data buf p jiffies).2 n ∧
      (buf.stored data ≠ [] ∨ (placeFrame data buf p jiffies).2.stored data = [] ∨
        snLess p.sn p.nssn = false ∧ n ≤ ahead buf.headSn p.nssn) := by
  have hpos := data.bufSize_pos
  have hstay (h' : ReorderInv data buf) : ∃ n ≤ data.bufSize, Moved data buf buf n ∧
      (buf.stored data ≠ [] ∨ buf.stored data = [] ∨
        snLess p.sn p.nssn = false ∧ n ≤ ahead buf.headSn p.nssn) :=
    ⟨0, Nat.zero_le _, .refl h', (em _).symm.imp_right .inl⟩
  rw [placeFrame]
  split
  · exact hstay h
  rename_i hold
  split
  · -- nothing is stored, and `nssn` allows the frame
    rename_i hnow
    have h0 := h.numStored_eq_zero.1 hnow.1
    dsimp only
    split
    · rename_i hless
      rw [Bool.and_eq_true, iwlMvmIsSnLess_iff data.bufSize_le] at hless
      obtain ⟨hmoved, hempty⟩ := passOn_moved h h0 p.sn p.sn (add_ahead buf.headSn p.nssn).symm
      exact ⟨_, hless.1.2, hmoved, .inr (.inl hempty)⟩
    · exact hstay h
  rename_i hnow
  split
  · -- nothing is stored, and it is the next frame
    rename_i hnext
    have h0 := h.numStored_eq_zero.1 hnext.1
    dsimp only
    split
    · have hone : buf.headSn + 1 = buf.headSn + BitVec.ofNat 12 1 := rfl
      obtain ⟨hmoved, hempty⟩ := passOn_moved h h0 p.sn p.sn hone
      exact ⟨1, hpos, hmoved, .inr (.inl hempty)⟩
    · exact hstay h
  rename_i hnext
  split
  · exact hstay h
  rename_i hretransmission
  rw [isRetransmission_iff h] at hretransmission
  rw [h.numStored_eq_zero] at hnow hnext
  obtain hC | ⟨h0, hC⟩ | hC | ⟨hlt, hslot, hfew, hclose⟩ := hC
  · exact absurd hC hold
  · obtain hC | hC := hC
    · exact absurd ⟨h0, hC⟩ hnow
    · exact absurd ⟨h0, hC⟩ hnext
  · exact absurd hC hretransmission
  obtain ⟨n, hn, hahead, hmoved⟩ := storeRelease_moved h jiffies hlt hslot hfew hclose
  refine ⟨n, hn, hmoved, ?_⟩
  by_cases h0 : buf.stored data = []
  · have hless : snLess p.sn p.nssn = false := Bool.eq_false_iff.2 fun hless => hnow ⟨h0, hless⟩
    exact .inr (.inr ⟨hless, hahead⟩)
  · exact .inl h0

theorem iwlMvmOldsnWorkaround_eq (buf : ReorderBuffer) (baOldSn : Bool) (gp2 : BitVec 32) :
    ∃ drops ampdu prevDrop notices, iwlMvmOldsnWorkaround buf baOldSn gp2 =
      { buf with
        consecOldsnDrops := drops
        consecOldsnAmpduGp2 := ampdu
        consecOldsnPrevDrop := prevDrop
        notices := notices } := by
  rw [iwlMvmOldsnWorkaround]
  split
  · exact ⟨_, _, _, _, rfl⟩
  dsimp only
  generalize (if gp2 ≠ buf.consecOldsnAmpduGp2 ∧ buf.consecOldsnPrevDrop = false then 0
    else buf.consecOldsnDrops) = drops
  split
  · exact ⟨_, _, _, _, rfl⟩
  split
  · exact ⟨_, _, _, _, rfl⟩
  · exact ⟨_, _, _, _, rfl⟩

/-- A block ack request is a control frame, and does not get to the buffer. -/
theorem isBackReq_eq_false {fc : BitVec 16} (h : isDataPresent fc = true) :
    isBackReq fc = false := by
  have hmask : fc &&& 0x004c#16 = fstype fc &&& 0x004c#16 := by
    rw [fstype, BitVec.and_assoc]
    rfl
  rw [isDataPresent, beq_iff_eq, hmask] at h
  rw [isBackReq, beq_eq_false_iff_ne]
  intro hreq
  rw [hreq] at h
  revert h
  decide

theorem isBackReq_of_reachesBuffer (h : reachesBuffer data p = true) :
    isBackReq p.frameControl = false := by
  rw [reachesBuffer, Bool.and_eq_true, Option.any_eq_true] at h
  obtain ⟨-, staMask, -, h⟩ := h
  simp only [Bool.and_eq_true] at h
  exact isBackReq_eq_false h.1.1.1.2

/-- The buffer after the adjustment to a jump. -/
def adjusted (data : BaidData) (buf : ReorderBuffer) (p : RxMpdu) : ReorderBuffer :=
  if jumps data buf.headSn p.sn p.nssn then
    iwlMvmReleaseFrames data buf (minSn p.sn p.nssn) true false else buf

theorem adjusted_released (h : ReorderInv data buf)
    (hC : buf.stored data = [] ∨ adjustBy data buf.headSn p.sn p.nssn ≤ data.bufSize) :
    Released data buf (adjusted data buf p) (adjustBy data buf.headSn p.sn p.nssn) := by
  rw [adjustBy] at hC ⊢
  rw [adjusted]
  split
  · rename_i hjumps
    rw [if_pos hjumps] at hC
    exact iwlMvmReleaseFrames_released h _ true false hC
  · exact .refl h

theorem adjusted_lastAmsdu (data : BaidData) (buf : ReorderBuffer) (p : RxMpdu) :
    (adjusted data buf p).lastAmsdu = buf.lastAmsdu ∧
      (adjusted data buf p).lastSubIndex = buf.lastSubIndex := by
  rw [adjusted]
  split
  · exact iwlMvmReleaseFrames_lastAmsdu ..
  · exact ⟨rfl, rfl⟩

theorem adjustBy_le (data : BaidData) (head sn nssn : BitVec 12) :
    adjustBy data head sn nssn + data.bufSize ≤ 4096 := by
  have hle := data.bufSize_le
  rw [adjustBy]
  split
  · exact releaseBy_add_le ..
  · omega

/-- From an empty buffer, the adjustment or the move to `nssn` that follows does nothing. -/
theorem adjustBy_add_le (hless : snLess p.sn p.nssn = false) (head : BitVec 12) {n : ℕ}
    (hn : n ≤ data.bufSize)
    (hahead : n ≤ ahead (head + BitVec.ofNat 12 (adjustBy data head p.sn p.nssn)) p.nssn) :
    adjustBy data head p.sn p.nssn + n + data.bufSize ≤ 4096 := by
  have hle := data.bufSize_le
  have hsum := releaseBy_add_le data head p.nssn false
  have hmin : minSn p.sn p.nssn = p.nssn := by
    rw [minSn, hless, if_neg Bool.false_ne_true]
  rw [adjustBy, hmin] at hahead ⊢
  split
  · rename_i hjumps
    rw [if_pos hjumps] at hahead
    obtain h0 | hhead := releaseBy_cases data head p.nssn false
    · omega
    · rw [hhead, ahead_self] at hahead
      omega
  · omega

/-- A frame that gets past the checks is placed in the adjusted buffer. -/
theorem reorderLocked_eq (jiffies : BitVec 64) (hvalid : ¬(buf.valid = false ∧ p.baOldSn = true))
    (hreq : isBackReq p.frameControl = false) : reorderLocked data buf p jiffies =
      placeFrame data (iwlMvmOldsnWorkaround (adjusted data { buf with valid := true } p) p.baOldSn
        p.deviceTimestamp) p jiffies := by
  rw [reorderLocked, if_neg hvalid, hreq]
  rfl

/-- **A frame that arrives.** -/
theorem reorderLocked_moved (h : ReorderInv data buf) (jiffies : BitVec 64)
    (hreq : isBackReq p.frameControl = false)
    (hC : ¬(buf.valid = false ∧ p.baOldSn = true) → MpduOk data buf p) :
    ∃ n, Moved data buf (reorderLocked data buf p jiffies).2 n := by
  by_cases hvalid : buf.valid = false ∧ p.baOldSn = true
  · rw [reorderLocked, if_pos hvalid]
    exact ⟨0, .refl h⟩
  rw [reorderLocked_eq jiffies hvalid hreq]
  obtain ⟨hadjust, hframe⟩ := hC hvalid
  have hvalidated : ReorderInv data { buf with valid := true } := h.of_eq rfl rfl rfl
  have hreleased := adjusted_released hvalidated hadjust
  obtain ⟨hlast, hsub⟩ := adjusted_lastAmsdu data { buf with valid := true } p
  generalize adjusted data { buf with valid := true } p = adjusted at hreleased hlast hsub ⊢
  obtain ⟨drops, ampdu, prevDrop, notices, heq⟩ := iwlMvmOldsnWorkaround_eq adjusted
    p.baOldSn p.deviceTimestamp
  rw [heq]
  have hadvance : Advance RxMpdu.sn buf.window adjusted.window
      (adjustBy data buf.headSn p.sn p.nssn) := hreleased.advance
  have hhead : adjusted.headSn =
      buf.headSn + BitVec.ofNat 12 (adjustBy data buf.headSn p.sn p.nssn) := hadvance.head
  have hstored : adjusted.stored data =
      buf.staying data (adjustBy data buf.headSn p.sn p.nssn) := hreleased.stored
  rw [← hhead, ← hstored] at hframe
  have hinv : ReorderInv data { adjusted with
      consecOldsnDrops := drops
      consecOldsnAmpduGp2 := ampdu
      consecOldsnPrevDrop := prevDrop
      notices := notices } := hreleased.inv.of_eq rfl rfl rfl
  rw [FrameOk, ← hlast, ← hsub] at hframe
  obtain ⟨n, hn, hmoved, hfrom⟩ := placeFrame_moved (p := p) hinv jiffies hframe
  have hle := data.bufSize_le
  have hroom := adjustBy_le data buf.headSn p.sn p.nssn
  refine ⟨adjustBy data buf.headSn p.sn p.nssn + n, hmoved.inv,
    hadvance.trans hmoved.advance (by omega), ?_⟩
  obtain hfull | hempty | ⟨hless, hahead⟩ := hfrom
  · -- the adjustment left something, so it went no further than the window reaches
    refine .inr ?_
    have hne : buf.stored data ≠ [] := by
      intro h0
      refine hfull (hstored.trans ?_)
      rw [ReorderBuffer.staying, h0, List.filter_nil]
    have hby := hadjust.resolve_left hne
    omega
  · exact .inl hempty
  · refine .inr (adjustBy_add_le hless buf.headSn hn ?_)
    rw [← hhead]
    exact hahead

end Mpdu

/-! ## The timer -/

section Timer

variable {data : BaidData} {buf : ReorderBuffer}

/-- The last expired frame is found in a round of the loop. -/
theorem expiredScan_mem (jiffies : BitVec 64) (is : List ℕ) (cont : Bool) (index : ℕ)
    (last : Option ℕ) {i : ℕ}
    (h : (expiredScan data buf jiffies is cont last index).1 = some i) :
    i ∈ is ∨ last = some i := by
  induction is generalizing cont last index with
  | nil => exact .inr h
  | cons j js ih =>
    rw [expiredScan] at h
    split at h
    · exact (ih _ _ _ h).imp_left (List.mem_cons_of_mem j)
    split at h
    · exact .inr h
    · obtain hi | hi := ih _ _ _ h
      · exact .inl (List.mem_cons_of_mem j hi)
      · obtain rfl : j = i := Option.some.inj hi
        exact .inl List.mem_cons_self

/-- A release by at most the buffer size. -/
theorem releaseOk_add {n : ℕ} (hn : n ≤ data.bufSize) (fromRssSync : Bool) :
    ReleaseOk data buf (buf.headSn + BitVec.ofNat 12 n) fromRssSync := by
  have hle := data.bufSize_le
  refine .inr ((releaseBy_le_ahead ..).trans ?_)
  rw [ahead_add_ofNat (by omega)]
  exact hn

theorem iwlMvmReorderTimerExpired_moved (h : ReorderInv data buf) (jiffies : BitVec 64) :
    ∃ n, Moved data buf (iwlMvmReorderTimerExpired data buf jiffies) n := by
  rw [iwlMvmReorderTimerExpired]
  split
  · exact ⟨0, .refl h⟩
  split
  · rename_i i index hscan
    have hi : i < data.bufSize := by
      obtain hi | hi := expiredScan_mem jiffies _ false 0 none (congrArg Prod.fst hscan)
      · exact List.mem_range.1 hi
      · cases hi
    have hnotified : ReorderInv data (buf.notify .frameTimeout) := h.of_eq rfl rfl rfl
    have hreleased := iwlMvmReleaseFrames_released hnotified _ true false
      (releaseOk_add (n := i + 1) hi false)
    have hmoved := hreleased.moved
    exact ⟨_, hmoved.inv, ⟨hmoved.advance.head, hmoved.advance.out⟩, hmoved.fits⟩
  · exact ⟨0, h.of_eq rfl rfl rfl, .refl _ _, (Moved.refl h).fits⟩

theorem iwlMvmDelBa_moved (h : ReorderInv data buf) :
    ∃ n, Moved data buf (iwlMvmDelBa data buf) n := by
  have hreleased := iwlMvmReleaseFrames_released h _ false false
    (releaseOk_add (n := data.bufSize) (Nat.le_refl _) false)
  have hmoved := hreleased.moved
  exact ⟨_, hmoved.inv.of_eq rfl rfl rfl, hmoved.advance, hmoved.fits⟩

end Timer

/-! ## Runs -/

section Runs

variable {data : BaidData} {buf : ReorderBuffer}

/-- When an event keeps the buffer in order. -/
def ReorderOk (data : BaidData) (buf : ReorderBuffer) : ReorderEvent → Prop
  | .mpdu p _ => reachesBuffer data p = true → ¬(buf.valid = false ∧ p.baOldSn = true) →
      MpduOk data buf p
  | .frameRelease nssn => ReleaseOk data buf nssn false
  | .nssnSync nssn => ReleaseOk data buf nssn true
  | .timerExpired _ => True
  | .delBa => True

theorem reorderNext_moved (h : ReorderInv data buf) {e : ReorderEvent}
    (hC : ReorderOk data buf e) : ∃ n, Moved data buf (reorderNext data buf e) n := by
  cases e with
  | mpdu p jiffies =>
    rw [reorderNext, iwlMvmReorder]
    split
    · rename_i hreaches
      exact reorderLocked_moved h jiffies (isBackReq_of_reachesBuffer hreaches) (hC hreaches)
    · exact ⟨0, .refl h⟩
  | frameRelease nssn => exact ⟨_, (iwlMvmReleaseFrames_released h nssn false false hC).moved⟩
  | nssnSync nssn => exact ⟨_, (iwlMvmReleaseFrames_released h nssn false true hC).moved⟩
  | timerExpired jiffies => exact iwlMvmReorderTimerExpired_moved h jiffies
  | delBa => exact iwlMvmDelBa_moved h

/-- The stored frames are in the window. -/
def InWindow (data : BaidData) (buf : ReorderBuffer) : Prop :=
  ∀ f ∈ buf.stored data, ahead buf.headSn f.sn < data.bufSize

/-- What leaves the buffer in an event leaves in the order of its numbers, relative to the head
before, and before everything that stays. -/
def LeaveInOrder (data : BaidData) (buf buf' : ReorderBuffer) : Prop :=
  ∃ left, buf'.passed = buf.passed ++ left ∧
    left.Pairwise (fun f g => ahead buf.headSn f.sn ≤ ahead buf.headSn g.sn) ∧
    ∀ f ∈ left, ∀ g ∈ buf'.stored data, ahead buf.headSn f.sn < ahead buf.headSn g.sn

theorem ReorderInv.inWindow (h : ReorderInv data buf) : InWindow data buf := by
  intro f hf
  obtain ⟨i, -, hf⟩ := SlotWindow.mem_stored.1 hf
  exact h.ordered.ahead_lt i f hf

theorem Moved.leaveInOrder {buf' : ReorderBuffer} {n : ℕ} (h : Moved data buf buf' n) :
    LeaveInOrder data buf buf' := by
  obtain ⟨left, hout, hsorted, hlt⟩ := h.advance.out
  refine ⟨left, hout, hsorted, fun f hf g hg => ?_⟩
  obtain hempty | hfits := h.fits
  · rw [hempty] at hg
    cases hg
  · obtain ⟨i, -, hg⟩ := SlotWindow.mem_stored.1 hg
    exact (hlt f hf).trans_le (h.advance.lt_stored h.inv.ordered hfits hg)

instance (nssn : BitVec 12) (fromRssSync : Bool) :
    Decidable (ReleaseOk data buf nssn fromRssSync) :=
  inferInstanceAs (Decidable (_ ∨ _))

instance (head : BitVec 12) (stored : List RxMpdu) (p : RxMpdu) :
    Decidable (FrameOk data buf head stored p) :=
  inferInstanceAs (Decidable (_ ∨ _ ∧ _ ∨ _ ∧ _ ∨ _ ∧ _ ∧ _ ∧ _))

instance (p : RxMpdu) : Decidable (MpduOk data buf p) :=
  inferInstanceAs (Decidable (_ ∧ FrameOk ..))

instance : (e : ReorderEvent) → Decidable (ReorderOk data buf e)
  | .mpdu p _ => inferInstanceAs (Decidable (_ → _ → MpduOk data buf p))
  | .frameRelease nssn => inferInstanceAs (Decidable (ReleaseOk data buf nssn false))
  | .nssnSync nssn => inferInstanceAs (Decidable (ReleaseOk data buf nssn true))
  | .timerExpired _ => .isTrue trivial
  | .delBa => .isTrue trivial

/-- A session of 64 frames. -/
def baidData64 : BaidData := ⟨1, 0, 1, 64, by decide, by decide, 25⟩

/-- A frame of this session. -/
def rxMpdu64 (sn nssn : BitVec 12) : RxMpdu where
  reorder := 0x01000000 ||| sn.setWidth 32 <<< 12 ||| nssn.setWidth 32
  macFlags2 := 0
  amsduInfo := 0
  deviceTimestamp := 0
  frameControl := 0x0088
  multicast := false
  tid := 0
  staMask := some 1
  payload := 0

end Runs

end Iax.Mvm
