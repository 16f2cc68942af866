import Iax.Mvm.ReorderOrder

/-!
# The timer of the reorder buffer

When the timer of a buffer expires, the driver goes through the window
(`iwl_mvm_reorder_timer_expired` in `mvm/rxmq.c`). The frames of a run, between two holes, go
together: they are released when the first of them has expired, and so are all before them.

* `DueTo`: how many places of the window are to be released.
* `TimerResult`: what the timer should do, `TimerReady` what it needs.
* `timer_expired_releases`: it does so, unless the buffer has been removed.
-/

namespace Iax.Mvm

open SlotWindow (Ordered Advance)

/-! ## The window by places -/

section Places

variable (data : BaidData) (buf : ReorderBuffer) (jiffies : BitVec 64)

/-- The entry of the number `i` places from the head. -/
def entryAt (i : ℕ) : ReorderEntry := buf.entries (data.slot (buf.headSn + BitVec.ofNat 12 i))

def framesAt (i : ℕ) : List RxMpdu := (entryAt data buf i).frames

/-- When the timer is to expire for the frames of a place. -/
def expiryAt (i : ℕ) : BitVec 64 := (entryAt data buf i).reorderTime + 1 + data.timeoutMq

/-- The frames of a place have expired. -/
def ExpiredAt (i : ℕ) : Prop :=
  timeAfter jiffies ((entryAt data buf i).reorderTime + data.timeoutMq) = true

/-- A run of frames starts at a place: there is a hole in front of it, or the head. -/
def StartsAt (i : ℕ) : Prop := framesAt data buf i ≠ [] ∧ (i = 0 ∨ framesAt data buf (i - 1) = [])

/-- The frames of a place are due: in its run and in all runs before it, the first had expired. -/
def DueAt (i : ℕ) : Prop :=
  i < data.bufSize ∧ framesAt data buf i ≠ [] ∧
    ∀ j ≤ i, StartsAt data buf j → ExpiredAt data buf jiffies j

/-- The last frames that are due are those in front of place `n`; with `0` none are. -/
def DueTo (n : ℕ) : Prop :=
  (∀ i, DueAt data buf jiffies i → i < n) ∧ (n = 0 ∨ DueAt data buf jiffies (n - 1))

end Places

/-- What the timer relies on: the frames are in their entries and in the window, and the counter is
right. -/
structure TimerReady (data : BaidData) (buf : ReorderBuffer) : Prop where
  slot_eq : ∀ i, ∀ f ∈ (buf.entries i).frames, data.slot f.sn = i
  inWindow : ∀ i, ∀ f ∈ (buf.entries i).frames, ahead buf.headSn f.sn < data.bufSize
  numStored : buf.numStored = BitVec.ofNat 16 (buf.stored data).length
  few : (buf.stored data).length < 65536

/-- The first `n` places are released, and the timer is set for what is left. -/
structure TimerResult (data : BaidData) (buf buf' : ReorderBuffer) (jiffies : BitVec 64) (n : ℕ) :
    Prop where
  due : DueTo data buf jiffies n
  /-- The frames of these places, and no others, are passed on, one place after the other. -/
  passed : buf'.passed = buf.passed ++ (List.range n).flatMap (framesAt data buf)
  /-- A place has the frames of its number. -/
  inOrder : ∀ i < data.bufSize, ∀ f ∈ framesAt data buf i, f.sn = buf.headSn + BitVec.ofNat 12 i
  head : buf'.headSn = buf.headSn + BitVec.ofNat 12 n
  kept : ∀ i, (buf'.entries i).frames =
    (buf.entries i).frames.filter fun f => n ≤ ahead buf.headSn f.sn
  /-- A hole in front of frames that have not expired stays. -/
  hole : ∀ i < data.bufSize, StartsAt data buf i → ¬ ExpiredAt data buf jiffies i →
    n ≤ i ∧ (0 < i → n < i)
  unchanged : n = 0 → buf' = { buf with timer := buf'.timer }
  /-- The timer is set for the first run whose first frame has not expired. -/
  timer : buf'.stored data ≠ [] → ∃ i < data.bufSize, n ≤ i ∧ StartsAt data buf i ∧
    ¬ ExpiredAt data buf jiffies i ∧ (∀ j, n ≤ j → j < i → framesAt data buf j = []) ∧
    buf'.timer = some (expiryAt data buf i)
  timer_none : buf'.stored data = [] → 0 < n → buf'.timer = none
  idle : buf.stored data = [] → buf' = buf
  /-- The search for the next entry ends. -/
  search : buf'.numStored ≠ 0 → (nextStored data buf').isSome = true

/-! ## Places and slots -/

section Slots

variable {data : BaidData} {buf : ReorderBuffer} (hsize : data.bufSize ∣ 4096)
include hsize

/-- The entry of a place, as the scan computes it. -/
theorem slot_add (head : BitVec 12) (i : ℕ) :
    data.slot (head + BitVec.ofNat 12 i) = (head.toNat + i) % data.bufSize := by
  rw [BaidData.slot, BitVec.toNat_add, BitVec.toNat_ofNat, Nat.add_mod_mod]
  exact Nat.mod_mod_of_dvd _ hsize

/-- Two places of the window do not share an entry. -/
theorem slot_add_inj (head : BitVec 12) {i j : ℕ} (hi : i < data.bufSize) (hj : j < data.bufSize)
    (h : data.slot (head + BitVec.ofNat 12 i) = data.slot (head + BitVec.ofNat 12 j)) : i = j := by
  rw [slot_add hsize, slot_add hsize] at h
  have hmod : i ≡ j [MOD data.bufSize] := Nat.ModEq.add_left_cancel' _ h
  rwa [Nat.ModEq, Nat.mod_eq_of_lt hi, Nat.mod_eq_of_lt hj] at hmod

/-- Frames that are in their entries and in the window are ordered. -/
theorem TimerReady.ordered (h : TimerReady data buf) :
    Ordered RxMpdu.sn data.slot data.bufSize buf.window where
  slot_eq := h.slot_eq
  ahead_lt := h.inWindow
  next i f hf k hk hslot := by
    have hlt : ahead buf.headSn f.sn < data.bufSize := h.inWindow i f hf
    have hk' : k < ahead buf.headSn f.sn := hk
    refine hk'.ne (slot_add_inj hsize buf.headSn (hk'.trans hlt) hlt ?_)
    rw [add_ahead, h.slot_eq i f hf]
    exact hslot

/-- A place has the frames of its number. -/
theorem ahead_of_mem_framesAt (h : Ordered RxMpdu.sn data.slot data.bufSize buf.window) {i : ℕ}
    (hi : i < data.bufSize) {f : RxMpdu} (hf : f ∈ framesAt data buf i) :
    ahead buf.headSn f.sn = i := by
  have hlt : ahead buf.headSn f.sn < data.bufSize := h.ahead_lt _ f hf
  refine slot_add_inj hsize buf.headSn hlt hi ?_
  rw [add_ahead]
  exact h.slot_eq _ f hf

end Slots

/-! ## The scan -/

section Scan

variable {data : BaidData} {buf : ReorderBuffer} {jiffies : BitVec 64}

/-- The last place with frames in front of place `k` is the one in front of `n`. -/
structure LastBefore (data : BaidData) (buf : ReorderBuffer) (k n : ℕ) : Prop where
  le : n ≤ k
  last : n = 0 ∨ framesAt data buf (n - 1) ≠ []
  empty : ∀ j, n ≤ j → j < k → framesAt data buf j = []

/-- What is known when the scan comes to place `k`. -/
structure ScanInv (data : BaidData) (buf : ReorderBuffer) (jiffies : BitVec 64) (k : ℕ)
    (cont : Bool) (last : Option ℕ) : Prop where
  /-- All runs so far had expired. -/
  starts : ∀ j < k, StartsAt data buf j → ExpiredAt data buf jiffies j
  /-- The place before had frames. -/
  cont : cont = true ↔ 0 < k ∧ framesAt data buf (k - 1) ≠ []
  last : LastBefore data buf k (last.elim 0 (· + 1))

/-- Where the scan stops, the frames that are due are those before. -/
theorem dueTo_of_lastBefore {k n : ℕ} (hk : k ≤ data.bufSize)
    (hstarts : ∀ j < k, StartsAt data buf j → ExpiredAt data buf jiffies j)
    (hstop : k < data.bufSize → StartsAt data buf k ∧ ¬ ExpiredAt data buf jiffies k)
    (hlast : LastBefore data buf k n) : DueTo data buf jiffies n := by
  constructor
  · rintro i ⟨hi, hne, hdue⟩
    by_contra hle
    rcases Nat.lt_or_ge i k with hik | hki
    · exact hne (hlast.empty i (Nat.le_of_not_lt hle) hik)
    · obtain ⟨hstart, hnot⟩ := hstop (hki.trans_lt hi)
      exact hnot (hdue k hki hstart)
  · rcases Nat.eq_zero_or_pos n with hzero | hpos
    · exact .inl hzero
    · have hle := hlast.le
      have hne := hlast.last.resolve_left hpos.ne'
      exact .inr ⟨by omega, hne, fun j hj => hstarts j (by omega)⟩

/-- A hole: no frames, and the next place starts a run. -/
theorem ScanInv.hole {k : ℕ} {cont : Bool} {last : Option ℕ}
    (h : ScanInv data buf jiffies k cont last) (hempty : framesAt data buf k = []) :
    ScanInv data buf jiffies (k + 1) false last where
  starts j hj hstart := by
    rcases Nat.lt_succ_iff_lt_or_eq.1 hj with hlt | rfl
    · exact h.starts j hlt hstart
    · exact absurd hempty hstart.1
  cont := iff_of_false Bool.false_ne_true fun hc => hc.2 hempty
  last := by
    refine ⟨h.last.le.trans (Nat.le_succ k), h.last.last, fun j hj hlt => ?_⟩
    rcases Nat.lt_succ_iff_lt_or_eq.1 hlt with hlt | rfl
    · exact h.last.empty j hj hlt
    · exact hempty

/-- Frames that go on with a run, or start one and have expired. -/
theorem ScanInv.frames {k : ℕ} {cont : Bool} {last : Option ℕ}
    (h : ScanInv data buf jiffies k cont last) (hne : framesAt data buf k ≠ [])
    (hdue : cont = true ∨ ExpiredAt data buf jiffies k) :
    ScanInv data buf jiffies (k + 1) true (some k) where
  starts j hj hstart := by
    rcases Nat.lt_succ_iff_lt_or_eq.1 hj with hlt | rfl
    · exact h.starts j hlt hstart
    · refine hdue.resolve_left fun hcont => ?_
      obtain ⟨hpos, hprev⟩ := h.cont.1 hcont
      exact hstart.2.elim hpos.ne' hprev
  cont := iff_of_true rfl ⟨Nat.succ_pos k, hne⟩
  last := ⟨Nat.le_refl _, .inr hne, fun j hj hlt => absurd hj hlt.not_ge⟩

/-- Frames that have not expired, behind a hole, start a run. -/
theorem ScanInv.startsAt {k : ℕ} {last : Option ℕ} (h : ScanInv data buf jiffies k false last)
    (hne : framesAt data buf k ≠ []) : StartsAt data buf k := by
  refine ⟨hne, (Nat.eq_zero_or_pos k).imp_right fun hpos => ?_⟩
  by_contra hprev
  exact Bool.false_ne_true (h.cont.2 ⟨hpos, hprev⟩)

/-- **The scan** finds the last frames that are due, and stops at the first ones that are stored
when it finds none. -/
theorem expiredScan_spec (hsize : data.bufSize ∣ 4096) (m k : ℕ) {cont : Bool} {last : Option ℕ}
    (index : ℕ) (hk : k + m = data.bufSize) (h : ScanInv data buf jiffies k cont last) :
    DueTo data buf jiffies
        ((expiredScan data buf jiffies (List.range' k m) cont last index).1.elim 0 (· + 1)) ∧
      ((expiredScan data buf jiffies (List.range' k m) cont last index).1 = none →
        ∀ i < data.bufSize, framesAt data buf i ≠ [] →
          (∀ j < i, framesAt data buf j = []) →
          (expiredScan data buf jiffies (List.range' k m) cont last index).2 =
            data.slot (buf.headSn + BitVec.ofNat 12 i)) := by
  induction m generalizing k cont last index with
  | zero =>
    obtain rfl : k = data.bufSize := hk
    refine ⟨dueTo_of_lastBefore (Nat.le_refl _) h.starts (fun hlt => absurd rfl hlt.ne) h.last, ?_⟩
    intro hnone i hi hne _
    have hlast := h.last
    rw [show last = none from hnone] at hlast
    exact absurd (hlast.empty i (Nat.zero_le i) hi) hne
  | succ m ih =>
    have hindex : (buf.headSn.toNat + k) % data.bufSize =
        data.slot (buf.headSn + BitVec.ofNat 12 k) := (slot_add hsize buf.headSn k).symm
    have hnext : k + 1 + m = data.bufSize := by omega
    simp only [List.range'_succ, expiredScan, hindex]
    split
    case isTrue hempty => exact ih (k + 1) _ hnext (h.hole (List.isEmpty_iff.1 hempty))
    case isFalse hempty =>
      have hne : framesAt data buf k ≠ [] := fun hnil => hempty (List.isEmpty_iff.2 hnil)
      split
      case isTrue hstop =>
        -- the scan stops at the start of a run
        obtain ⟨hcont, hnot⟩ := Bool.and_eq_true_iff.1 hstop
        obtain rfl : cont = false := by simpa using hcont
        have hexpired : ¬ ExpiredAt data buf jiffies k := by simpa [ExpiredAt, entryAt] using hnot
        refine ⟨dueTo_of_lastBefore (by omega) h.starts (fun _ => ⟨h.startsAt hne, hexpired⟩)
          h.last, ?_⟩
        intro hnone i hi hi' hfirst
        have hlast := h.last
        rw [show last = none from hnone] at hlast
        rcases Nat.lt_trichotomy i k with hlt | rfl | hlt
        · exact absurd (hlast.empty i (Nat.zero_le i) hlt) hi'
        · rfl
        · exact absurd (hfirst k hlt) hne
      case isFalse hgo =>
        refine ih (k + 1) _ hnext (h.frames hne ?_)
        by_contra hstop
        obtain ⟨hcont, hnot⟩ := not_or.1 hstop
        refine hgo (Bool.and_eq_true_iff.2 ⟨by simpa using hcont, ?_⟩)
        simpa [ExpiredAt, entryAt] using hnot

end Scan

/-! ## The release -/

section Release

variable {data : BaidData} {buf : ReorderBuffer}

/-- The loop of a release leaves the times alone. -/
theorem releaseLoop_reorderTime (nssn : BitVec 12) (sendRssSync : Bool) (n : ℕ) (ssn : BitVec 12)
    (i : ℕ) : ((releaseLoop data nssn sendRssSync n ssn buf).entries i).reorderTime =
      (buf.entries i).reorderTime := by
  refine releaseLoop_keeps (fun buf => (buf.entries i).reorderTime) data sendRssSync
    (fun buf ssn => ?_) buf nssn n ssn
  obtain ⟨notices, heq⟩ := releaseEntry_eq data buf sendRssSync ssn
  rw [heq]
  dsimp only [ReorderBuffer.setFrames]
  rcases eq_or_ne i (data.slot ssn) with rfl | hne
  · rw [Function.update_self]
  · rw [Function.update_of_ne hne]

theorem releaseLoop_removed (nssn : BitVec 12) (sendRssSync : Bool) (n : ℕ) (ssn : BitVec 12) :
    (releaseLoop data nssn sendRssSync n ssn buf).removed = buf.removed := by
  refine releaseLoop_keeps (·.removed) data sendRssSync (fun buf ssn => ?_) buf nssn n ssn
  obtain ⟨notices, heq⟩ := releaseEntry_eq data buf sendRssSync ssn
  rw [heq]
  rfl

/-- **A release by `n` places**: the loop goes through all of them. -/
theorem iwlMvmReleaseFrames_by {n : ℕ} (hn : n ≤ data.bufSize) (hbalanced : Balanced buf)
    (sendRssSync : Bool) :
    ∃ buf₁, buf₁.window = (SlotWindow.pop data.slot)^[n] buf.window ∧ Balanced buf₁ ∧
      buf₁.queued = buf.queued ∧ buf₁.removed = buf.removed ∧
      (∀ i, (buf₁.entries i).reorderTime = (buf.entries i).reorderTime) ∧
      iwlMvmReleaseFrames data buf (buf.headSn + BitVec.ofNat 12 n) sendRssSync false =
        setTimer data buf₁ := by
  have hle := data.bufSize_le
  have hahead : ahead buf.headSn (buf.headSn + BitVec.ofNat 12 n) = n :=
    ahead_add_ofNat (by omega)
  have hmoves :
      ¬ iwlMvmIsSnLess (buf.headSn + BitVec.ofNat 12 n) buf.headSn data.bufSize = true := by
    rw [iwlMvmIsSnLess_iff hle, ahead_swap, hahead]
    omega
  obtain ⟨hwindow, hbalanced', hqueued⟩ :=
    releaseLoop_spec (buf.headSn + BitVec.ofNat 12 n) sendRssSync n buf.headSn hahead hn hbalanced
  refine ⟨_, hwindow, hbalanced', hqueued, releaseLoop_removed _ sendRssSync n _,
    releaseLoop_reorderTime _ sendRssSync n _, ?_⟩
  rw [iwlMvmReleaseFrames, Bool.false_and, if_neg Bool.false_ne_true, if_neg hmoves]
  change setTimer data { releaseLoop data _ sendRssSync (ahead buf.headSn _) buf.headSn buf with
    headSn := _ } = _
  rw [hahead]

end Release

/-! ## What is due -/

section Due

variable {data : BaidData} {buf : ReorderBuffer} {jiffies : BitVec 64} {n : ℕ}

/-- Every run in front of place `n` had expired. -/
theorem DueTo.expiredAt (h : DueTo data buf jiffies n) {i : ℕ} (hi : i < n)
    (hstart : StartsAt data buf i) : ExpiredAt data buf jiffies i := by
  obtain ⟨-, -, hdue⟩ := h.2.resolve_left (Nat.ne_zero_of_lt hi)
  exact hdue i (by omega) hstart

/-- A hole in front of frames that have not expired stays. -/
theorem DueTo.hole (h : DueTo data buf jiffies n) {i : ℕ} (hstart : StartsAt data buf i)
    (hnot : ¬ ExpiredAt data buf jiffies i) : n ≤ i ∧ (0 < i → n < i) := by
  have hle : n ≤ i := Nat.le_of_not_lt fun hlt => hnot (h.expiredAt hlt hstart)
  refine ⟨hle, fun hpos => lt_of_le_of_ne hle ?_⟩
  rintro rfl
  obtain ⟨-, hne, -⟩ := h.2.resolve_left hpos.ne'
  exact hne (hstart.2.resolve_left hpos.ne')

/-- The first frames from place `n` on start a run and have not expired. -/
theorem DueTo.next (h : DueTo data buf jiffies n) {i : ℕ} (hi : i < data.bufSize) (hn : n ≤ i)
    (hne : framesAt data buf i ≠ []) (hfirst : ∀ j, n ≤ j → j < i → framesAt data buf j = []) :
    StartsAt data buf i ∧ ¬ ExpiredAt data buf jiffies i := by
  -- otherwise they are due
  have hdue (hall : StartsAt data buf i → ExpiredAt data buf jiffies i) : False := by
    refine (h.1 i ⟨hi, hne, fun j hj hstart => ?_⟩).not_ge hn
    rcases Nat.lt_or_ge j n with hlt | hge
    · exact h.expiredAt hlt hstart
    rcases Nat.lt_or_eq_of_le hj with hlt | rfl
    · exact absurd (hfirst j hge hlt) hstart.1
    · exact hall hstart
  refine ⟨?_, fun hexpired => hdue fun _ => hexpired⟩
  by_contra hstart
  exact hdue fun hstart' => absurd hstart' hstart

end Due

/-! ## What is stored -/

section Stored

variable {data : BaidData} {buf : ReorderBuffer}

/-- Something stored has a first place. -/
theorem exists_first (h : Ordered RxMpdu.sn data.slot data.bufSize buf.window)
    (hne : buf.stored data ≠ []) : ∃ i < data.bufSize, framesAt data buf i ≠ [] ∧
      ∀ j < i, framesAt data buf j = [] := by
  classical
  obtain ⟨f, hf⟩ := List.exists_mem_of_ne_nil _ hne
  obtain ⟨s, -, hf⟩ := SlotWindow.mem_stored.1 hf
  have hplace : f ∈ framesAt data buf (ahead buf.headSn f.sn) := by
    rw [framesAt, entryAt, add_ahead, h.slot_eq s f hf]
    exact hf
  have hex : ∃ i, framesAt data buf i ≠ [] := ⟨_, List.ne_nil_of_mem hplace⟩
  refine ⟨Nat.find hex, ?_, Nat.find_spec hex, fun j hj => not_not.1 (Nat.find_min hex hj)⟩
  exact (Nat.find_min' hex (List.ne_nil_of_mem hplace)).trans_lt (h.ahead_lt s f hf)

/-- The search finds the entry of the first place. -/
theorem nextStored_eq (hsize : data.bufSize ∣ 4096) {i : ℕ} (hi : i < data.bufSize)
    (hne : framesAt data buf i ≠ []) (hfirst : ∀ j < i, framesAt data buf j = []) :
    nextStored data buf = some (data.slot (buf.headSn + BitVec.ofNat 12 i)) := by
  have hrange : (List.range data.bufSize).find? (fun i => !(framesAt data buf i).isEmpty) =
      some i := by
    rw [List.find?_range_eq_some]
    refine ⟨by simpa using hne, List.mem_range.2 hi, fun j hj => by simpa using hfirst j hj⟩
  simp only [nextStored, ← slot_add hsize]
  rw [List.find?_map]
  exact congrArg (Option.map _) hrange

/-- What is stored behind a release by `n` places. -/
theorem framesAt_iterate (hsize : data.bufSize ∣ 4096)
    (h : Ordered RxMpdu.sn data.slot data.bufSize buf.window) {buf₁ : ReorderBuffer} {n i : ℕ}
    (hw : buf₁.window = (SlotWindow.pop data.slot)^[n] buf.window) (hn : n ≤ data.bufSize)
    (hi : i < data.bufSize) :
    framesAt data buf₁ i = if n + i < data.bufSize then framesAt data buf (n + i) else [] := by
  have hhead : buf₁.headSn = buf.headSn + BitVec.ofNat 12 n :=
    (congrArg SlotWindow.head hw).trans (SlotWindow.head_iterate n buf.window)
  have hframes : framesAt data buf₁ i = (framesAt data buf (n + i)).filter
      fun f => n ≤ ahead buf.headSn f.sn := by
    rw [framesAt, entryAt, hhead, BitVec.add_assoc, ← BitVec.ofNat_add]
    exact (congrFun (congrArg SlotWindow.slots hw) _).trans (h.slots_iterate n _)
  rw [hframes]
  split
  case isTrue hlt =>
    refine List.filter_eq_self.2 fun f hf => ?_
    rw [decide_eq_true_iff, ahead_of_mem_framesAt hsize h hlt hf]
    exact Nat.le_add_right n i
  case isFalse hge =>
    -- the place shares its entry with one that was released
    have hslot : framesAt data buf (n + i) = framesAt data buf (n + i - data.bufSize) := by
      have hback : buf.headSn.toNat + (n + i) =
          buf.headSn.toNat + (n + i - data.bufSize) + data.bufSize := by omega
      rw [framesAt, framesAt, entryAt, entryAt, slot_add hsize, slot_add hsize, hback,
        Nat.add_mod_right]
    refine List.filter_eq_nil_iff.2 fun f hf => ?_
    rw [hslot] at hf
    rw [decide_eq_true_iff, ahead_of_mem_framesAt hsize h (by omega) hf]
    omega

end Stored

/-! ## The timer -/

section Timer

variable {data : BaidData} {buf : ReorderBuffer} {jiffies : BitVec 64} {n : ℕ}

/-- The frames of the first `n` places are passed on, in a release. -/
theorem passed_of_iterate (hsize : data.bufSize ∣ 4096)
    (h : Ordered RxMpdu.sn data.slot data.bufSize buf.window) {buf₁ : ReorderBuffer}
    (hw : buf₁.window = (SlotWindow.pop data.slot)^[n] buf.window) (hn : n ≤ data.bufSize) :
    buf₁.passed = buf.passed ++ (List.range n).flatMap (framesAt data buf) := by
  refine (congrArg SlotWindow.out hw).trans ((h.out_iterate n).trans ?_)
  refine congrArg (buf.passed ++ ·) (List.flatMap_congr fun i hi => ?_)
  have hi' : i < data.bufSize := (List.mem_range.1 hi).trans_le hn
  refine List.filter_eq_self.2 fun f hf => ?_
  have hf' : f ∈ framesAt data buf i := hf
  have hahead : ahead buf.window.head f.sn = i := ahead_of_mem_framesAt hsize h hi' hf'
  rw [decide_eq_true_iff, hahead]

theorem inOrder_of_ordered (hsize : data.bufSize ∣ 4096)
    (h : Ordered RxMpdu.sn data.slot data.bufSize buf.window) :
    ∀ i < data.bufSize, ∀ f ∈ framesAt data buf i,
      f.sn = buf.headSn + BitVec.ofNat 12 i := fun i hi f hf => by
  rw [← ahead_of_mem_framesAt hsize h hi hf, add_ahead]

/-- Nothing is due, and only the timer is set. -/
theorem timerResult_zero (hsize : data.bufSize ∣ 4096) (h : ReorderInv data buf)
    (hdue : DueTo data buf jiffies 0) {timer : Option (BitVec 64)}
    (htimer : ∀ i < data.bufSize, framesAt data buf i ≠ [] →
      (∀ j < i, framesAt data buf j = []) → timer = some (expiryAt data buf i))
    (hidle : buf.stored data = [] → timer = buf.timer) :
    TimerResult data buf { buf with timer := timer } jiffies 0 where
  due := hdue
  passed := by simp
  inOrder := inOrder_of_ordered hsize h.ordered
  head := by simp
  kept i := by simp
  hole i _ hstart hnot := hdue.hole hstart hnot
  unchanged _ := rfl
  timer hne := by
    obtain ⟨i, hi, hfound, hfirst⟩ := exists_first h.ordered hne
    have hfirst' : ∀ j, 0 ≤ j → j < i → framesAt data buf j = [] := fun j _ => hfirst j
    obtain ⟨hstart, hnot⟩ := hdue.next hi (Nat.zero_le i) hfound hfirst'
    exact ⟨i, hi, Nat.zero_le i, hstart, hnot, hfirst', htimer i hi hfound hfirst⟩
  timer_none _ hpos := absurd hpos (Nat.lt_irrefl 0)
  idle h0 := by rw [hidle h0]
  search hne := nextStored_isSome (h.of_eq rfl rfl rfl) hne

/-- Behind a release the timer is set for the first frames that are left. -/
theorem timer_of_iterate (hsize : data.bufSize ∣ 4096)
    (h : Ordered RxMpdu.sn data.slot data.bufSize buf.window) {buf₁ : ReorderBuffer}
    (hinv : ReorderInv data buf₁)
    (hw : buf₁.window = (SlotWindow.pop data.slot)^[n] buf.window) (hn : n ≤ data.bufSize)
    (hdue : DueTo data buf jiffies n)
    (htime : ∀ i, (buf₁.entries i).reorderTime = (buf.entries i).reorderTime)
    (hremoved : buf₁.removed = false) (hne : buf₁.stored data ≠ []) :
    ∃ i < data.bufSize, n ≤ i ∧ StartsAt data buf i ∧ ¬ ExpiredAt data buf jiffies i ∧
      (∀ j, n ≤ j → j < i → framesAt data buf j = []) ∧
      (setTimer data buf₁).timer = some (expiryAt data buf i) := by
  obtain ⟨i, hi, hfound, hfirst⟩ := exists_first hinv.ordered hne
  have hplace {j : ℕ} (hj : j < data.bufSize) := framesAt_iterate hsize h hw hn hj
  -- place `i` behind the release is place `n + i` in front of it
  have hlt : n + i < data.bufSize := by
    by_contra hge
    rw [hplace hi, if_neg hge] at hfound
    exact hfound rfl
  have hfound' : framesAt data buf (n + i) ≠ [] := by rwa [hplace hi, if_pos hlt] at hfound
  have hfirst' : ∀ j, n ≤ j → j < n + i → framesAt data buf j = [] := by
    intro j hj hjlt
    obtain ⟨k, rfl⟩ := Nat.exists_eq_add_of_le hj
    have hk := hfirst k (by omega)
    rwa [hplace (by omega), if_pos (by omega)] at hk
  obtain ⟨hstart, hnot⟩ := hdue.next hlt (Nat.le_add_right n i) hfound' hfirst'
  refine ⟨n + i, hlt, Nat.le_add_right n i, hstart, hnot, hfirst', ?_⟩
  have hhead : buf₁.headSn = buf.headSn + BitVec.ofNat 12 n :=
    (congrArg SlotWindow.head hw).trans (SlotWindow.head_iterate n buf.window)
  have hnumber : buf₁.headSn + BitVec.ofNat 12 i = buf.headSn + BitVec.ofNat 12 (n + i) := by
    rw [hhead, BitVec.add_assoc, ← BitVec.ofNat_add]
  have hset : buf₁.numStored ≠ 0 ∧ buf₁.removed = false :=
    ⟨fun h0 => hne (hinv.numStored_eq_zero.1 h0), hremoved⟩
  rw [setTimer, if_pos hset]
  dsimp only
  rw [nextStored_eq hsize hi hfound hfirst, Option.map_some, htime, hnumber]
  rfl

/-- Something is due, and is released. -/
theorem timerResult_release (hsize : data.bufSize ∣ 4096) (h : ReorderInv data buf)
    (hremoved : buf.removed = false) (hdue : DueTo data buf jiffies n) (hpos : 0 < n)
    (hn : n ≤ data.bufSize) :
    TimerResult data buf (iwlMvmReleaseFrames data (buf.notify .frameTimeout)
      (buf.headSn + BitVec.ofNat 12 n) true false) jiffies n := by
  have hnotified : Balanced (buf.notify .frameTimeout) := h.balanced
  obtain ⟨buf₁, hw, hbalanced, hqueued, hremoved₁, htime, heq⟩ :=
    iwlMvmReleaseFrames_by hn hnotified true
  have heq' : iwlMvmReleaseFrames data (buf.notify .frameTimeout)
    (buf.headSn + BitVec.ofNat 12 n) true false = setTimer data buf₁ := heq
  have hw' : buf₁.window = (SlotWindow.pop data.slot)^[n] buf.window := hw
  have hinv : ReorderInv data buf₁ := (released_of_iterate h hw' hqueued hbalanced
    (hn.trans (data.bufSize_le.trans (by decide)))).inv
  obtain ⟨timer, htimer⟩ := setTimer_eq data buf₁
  have hne : buf.stored data ≠ [] := by
    obtain ⟨-, hne, -⟩ := hdue.2.resolve_left hpos.ne'
    exact fun h0 => hne (h.frames_eq_nil h0 _)
  have hstored : (setTimer data buf₁).stored data = buf₁.stored data := by
    rw [htimer]
    rfl
  rw [heq']
  exact {
    due := hdue
    passed := by
      rw [htimer]
      exact passed_of_iterate hsize h.ordered hw' hn
    inOrder := inOrder_of_ordered hsize h.ordered
    head := by
      rw [htimer]
      exact (congrArg SlotWindow.head hw').trans (SlotWindow.head_iterate n buf.window)
    kept := fun i => by
      rw [htimer]
      exact (congrFun (congrArg SlotWindow.slots hw') i).trans (h.ordered.slots_iterate n i)
    hole := fun i _ hstart hnot => hdue.hole hstart hnot
    unchanged := fun h0 => absurd h0 hpos.ne'
    timer := fun hne₁ => by
      rw [hstored] at hne₁
      have hremoved' : buf₁.removed = false := hremoved₁.trans hremoved
      exact timer_of_iterate hsize h.ordered hinv hw' hn hdue htime hremoved' hne₁
    timer_none := fun h0 _ => by
      rw [hstored] at h0
      rw [setTimer, if_neg (fun hset => hset.1 (hinv.numStored_eq_zero.2 h0))]
    idle := fun h0 => absurd h0 hne
    search := fun hne₁ => by
      rw [htimer] at hne₁ ⊢
      exact nextStored_isSome (hinv.of_eq rfl rfl rfl) hne₁ }

/-- **The timer**, in a buffer that is in order. -/
theorem timerResult_of_inv (hsize : data.bufSize ∣ 4096) (h : ReorderInv data buf)
    (hremoved : buf.removed = false) :
    ∃ n, TimerResult data buf (iwlMvmReorderTimerExpired data buf jiffies) jiffies n := by
  rw [iwlMvmReorderTimerExpired]
  split
  case isTrue hidle =>
    -- nothing is stored
    have h0 : buf.stored data = [] :=
      h.numStored_eq_zero.1 (hidle.resolve_right (by rw [hremoved]; exact Bool.false_ne_true))
    have hempty (i : ℕ) : framesAt data buf i = [] := h.frames_eq_nil h0 _
    exact ⟨0, timerResult_zero hsize h ⟨fun i hi => absurd (hempty i) hi.2.1, .inl rfl⟩
      (fun i _ hne => absurd (hempty i) hne) fun _ => rfl⟩
  case isFalse hstored =>
    have hne : buf.stored data ≠ [] := fun h0 => hstored (.inl (h.numStored_eq_zero.2 h0))
    have hinit : ScanInv data buf jiffies 0 false none :=
      ⟨by simp, by simp, ⟨Nat.le_refl 0, .inl rfl, by simp⟩⟩
    have hscan := expiredScan_spec hsize data.bufSize 0 0 (Nat.zero_add _) hinit
    rw [← List.range_eq_range'] at hscan
    split
    case h_1 i index heq =>
      rw [heq] at hscan
      have hle : i + 1 ≤ data.bufSize := (hscan.1.2.resolve_left (Nat.succ_ne_zero i)).1
      exact ⟨i + 1, timerResult_release hsize h hremoved hscan.1 (Nat.succ_pos i) hle⟩
    case h_2 index heq =>
      rw [heq] at hscan
      refine ⟨0, timerResult_zero hsize h hscan.1 (fun i hi hfound hfirst => ?_) fun h0 =>
        absurd h0 hne⟩
      rw [show index = _ from hscan.2 rfl i hi hfound hfirst]
      rfl

/-! ## The frames that were ever stored -/

/-- The record of what was ever stored plays no role. -/
theorem releaseLoop_queued (data : BaidData) (buf : ReorderBuffer) (queued : List RxMpdu)
    (nssn : BitVec 12) (sendRssSync : Bool) (n : ℕ) (ssn : BitVec 12) :
    releaseLoop data nssn sendRssSync n ssn { buf with queued := queued } =
      { releaseLoop data nssn sendRssSync n ssn buf with queued := queued } := by
  have hentry (buf : ReorderBuffer) (ssn : BitVec 12) :
      releaseEntry data sendRssSync ssn { buf with queued := queued } =
        { releaseEntry data sendRssSync ssn buf with queued := queued } := by
    simp only [releaseEntry, ReorderBuffer.syncAt]
    split_ifs <;> rfl
  induction n generalizing ssn buf with
  | zero => rfl
  | succ n ih =>
    rw [releaseLoop, releaseLoop]
    split
    · rw [hentry, ih]
    · rfl

theorem iwlMvmReorderTimerExpired_queued (data : BaidData) (buf : ReorderBuffer)
    (queued : List RxMpdu) (jiffies : BitVec 64) :
    iwlMvmReorderTimerExpired data { buf with queued := queued } jiffies =
      { iwlMvmReorderTimerExpired data buf jiffies with queued := queued } := by
  have htimer (buf : ReorderBuffer) : setTimer data { buf with queued := queued } =
      { setTimer data buf with queued := queued } := by
    simp only [setTimer]
    split_ifs <;> rfl
  have hrelease (buf : ReorderBuffer) (nssn : BitVec 12) (sendRssSync fromRssSync : Bool) :
      iwlMvmReleaseFrames data { buf with queued := queued } nssn sendRssSync fromRssSync =
        { iwlMvmReleaseFrames data buf nssn sendRssSync fromRssSync with queued := queued } := by
    simp only [iwlMvmReleaseFrames, releaseLoop_queued]
    split_ifs
    · exact htimer buf
    · exact htimer buf
    · exact htimer { releaseLoop data nssn sendRssSync (nssn - buf.headSn).toNat buf.headSn buf with
        headSn := nssn }
  have hscan (is : List ℕ) (cont : Bool) (last : Option ℕ) (index : ℕ) :
      expiredScan data { buf with queued := queued } jiffies is cont last index =
        expiredScan data buf jiffies is cont last index := by
    induction is generalizing cont last index with
    | nil => rfl
    | cons i is ih => simp only [expiredScan, ih]
  simp only [iwlMvmReorderTimerExpired, hscan]
  split
  · rfl
  split
  · exact hrelease (buf.notify .frameTimeout) _ true false
  · rfl

theorem eq_of_queued {buf₁ buf₂ : ReorderBuffer} {queued : List RxMpdu}
    (hqueued : buf₁.queued = buf₂.queued)
    (h : { buf₁ with queued := queued } = { buf₂ with queued := queued }) : buf₁ = buf₂ :=
  calc buf₁ = { { buf₁ with queued := queued } with queued := buf₂.queued } := by rw [← hqueued]
    _ = { { buf₂ with queued := queued } with queued := buf₂.queued } := by rw [h]

/-- **The timer of the reorder buffer.** It releases the frames that are due and sets the timer for
what is left; a buffer that has been removed is left as it is. -/
theorem timer_expired_releases (h : TimerReady data buf) (hsize : data.bufSize ∣ 4096)
    (jiffies : BitVec 64) :
    (buf.removed = true → iwlMvmReorderTimerExpired data buf jiffies = buf) ∧
      (buf.removed = false →
        ∃ n, TimerResult data buf (iwlMvmReorderTimerExpired data buf jiffies) jiffies n) := by
  refine ⟨fun hremoved => if_pos (.inr hremoved), fun hremoved => ?_⟩
  -- with a record of all frames that fits, the buffer is in order
  let queued := buf.passed ++ buf.stored data
  have hordered : Ordered RxMpdu.sn data.slot data.bufSize buf.window := h.ordered hsize
  have hinv : ReorderInv data { buf with queued := queued } := by
    refine ⟨hordered, List.Perm.refl _, ?_, h.few⟩
    change buf.numStored + BitVec.ofNat 16 buf.passed.length = BitVec.ofNat 16 queued.length
    rw [h.numStored, List.length_append, BitVec.ofNat_add, BitVec.add_comm]
  obtain ⟨n, hn⟩ : ∃ n, TimerResult data { buf with queued := queued }
      (iwlMvmReorderTimerExpired data { buf with queued := queued } jiffies) jiffies n :=
    timerResult_of_inv hsize hinv hremoved
  rw [iwlMvmReorderTimerExpired_queued] at hn
  have hself : iwlMvmReorderTimerExpired data buf jiffies =
      { iwlMvmReorderTimerExpired data buf jiffies with queued := buf.queued } :=
    iwlMvmReorderTimerExpired_queued data buf buf.queued jiffies
  have hkept := congrArg ReorderBuffer.queued hself
  exact ⟨n, { hn with
    unchanged := fun h0 => eq_of_queued hkept (hn.unchanged h0)
    idle := fun h0 => eq_of_queued hkept (hn.idle h0) }⟩

/-- Between two events of a run, the timer has what it needs. -/
theorem ReorderInv.timerReady (h : ReorderInv data buf) : TimerReady data buf :=
  ⟨h.ordered.slot_eq, h.ordered.ahead_lt, h.numStored_eq, h.few⟩

end Timer

/-! ## A frame that waits -/

/-- Frame 1 waits for frame 0. -/
def waitingBuf : ReorderBuffer := storeFrame baidData64 (.init 0) (rxMpdu64 1 0) 0

theorem timerReady_waitingBuf (removed : Bool) :
    TimerReady baidData64 { waitingBuf with removed := removed } := by
  have hmem (i : ℕ) (f : RxMpdu) (hf : f ∈ (waitingBuf.entries i).frames) :
      i = 1 ∧ f = rxMpdu64 1 0 := by
    change f ∈ (Function.update (fun _ => (⟨[], 0⟩ : ReorderEntry)) 1 ⟨[rxMpdu64 1 0], 0⟩ i).frames
      at hf
    rcases eq_or_ne i 1 with rfl | hne
    · rw [Function.update_self] at hf
      exact ⟨rfl, List.mem_singleton.1 hf⟩
    · rw [Function.update_of_ne hne] at hf
      cases hf
  refine ⟨fun i f hf => ?_, fun i f hf => ?_, ?_, ?_⟩
  · obtain ⟨rfl, rfl⟩ := hmem i f hf
    decide
  · obtain ⟨rfl, rfl⟩ := hmem i f hf
    change ahead 0 (rxMpdu64 1 0).sn < 64
    decide
  · cases removed <;> decide +kernel
  · cases removed <;> decide +kernel

/-- Frames 1 and 2 wait for frame 0, and frame 4, which came later, for frame 3 as well. -/
def twoRunsBuf : ReorderBuffer :=
  storeFrame baidData64 (storeFrame baidData64 waitingBuf (rxMpdu64 2 0) 0) (rxMpdu64 4 0) 80

theorem timerReady_twoRunsBuf : TimerReady baidData64 twoRunsBuf := by
  have hone : ReorderInv baidData64 waitingBuf :=
    storeFrame_inv (reorderInv_init baidData64 0) 0 (by decide) (by decide) (by decide)
  have htwo : ReorderInv baidData64 (storeFrame baidData64 waitingBuf (rxMpdu64 2 0) 0) :=
    storeFrame_inv hone 0 (by decide) (by decide) (by decide +kernel)
  exact (storeFrame_inv htwo 80 (by decide) (by decide) (by decide +kernel)).timerReady

/-- A frame goes on when the timer expires, and the window behind it. Of two runs of frames the one
that has expired goes on, and the other stays behind its hole, with the timer set for it. -/
theorem timer_expired_releases_waiting :
    (∃ n, TimerResult baidData64 waitingBuf (iwlMvmReorderTimerExpired baidData64 waitingBuf 100)
      100 n) ∧
    (iwlMvmReorderTimerExpired baidData64 waitingBuf 100).passed = [rxMpdu64 1 0] ∧
    (iwlMvmReorderTimerExpired baidData64 waitingBuf 100).headSn = 2 ∧
    (∃ n, TimerResult baidData64 twoRunsBuf (iwlMvmReorderTimerExpired baidData64 twoRunsBuf 100)
      100 n) ∧
    (iwlMvmReorderTimerExpired baidData64 twoRunsBuf 100).passed =
      [rxMpdu64 1 0, rxMpdu64 2 0] ∧
    (iwlMvmReorderTimerExpired baidData64 twoRunsBuf 100).headSn = 3 ∧
    (iwlMvmReorderTimerExpired baidData64 twoRunsBuf 100).stored baidData64 = [rxMpdu64 4 0] ∧
    (iwlMvmReorderTimerExpired baidData64 twoRunsBuf 100).timer = some 106 :=
  ⟨(timer_expired_releases (timerReady_waitingBuf false) (by decide) 100).2 rfl,
    by decide +kernel, by decide +kernel,
    (timer_expired_releases timerReady_twoRunsBuf (by decide) 100).2 rfl,
    by decide +kernel, by decide +kernel, by decide +kernel, by decide +kernel⟩

/-- **A buffer that has been removed keeps it**, although it is due. -/
theorem timer_expired_removed :
    TimerReady baidData64 { waitingBuf with removed := true } ∧
      ¬ ∃ n, TimerResult baidData64 { waitingBuf with removed := true }
        (iwlMvmReorderTimerExpired baidData64 { waitingBuf with removed := true } 100) 100 n := by
  refine ⟨timerReady_waitingBuf true, ?_⟩
  rintro ⟨n, h⟩
  have hdue : DueAt baidData64 { waitingBuf with removed := true } 100 1 := by
    refine ⟨by decide, by decide, fun j hj hstart => ?_⟩
    rcases Nat.le_one_iff_eq_zero_or_eq_one.1 hj with rfl | rfl
    · exact absurd rfl hstart.1
    · rw [ExpiredAt]
      decide
  have hmem : rxMpdu64 1 0 ∈ (List.range n).flatMap
      (framesAt baidData64 { waitingBuf with removed := true }) :=
    List.mem_flatMap.2 ⟨1, List.mem_range.2 (h.due.1 1 hdue), by decide⟩
  have hpassed := h.passed ▸ List.mem_append_right _ hmem
  exact List.not_mem_nil hpassed

end Iax.Mvm
