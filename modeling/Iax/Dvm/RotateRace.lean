import Iax.Dvm.RotateRates
import Iax.Lib.Lts
import Mathlib.Logic.Function.Basic

/-!
# Changing the rotation while frames are sent

The writes of `rotate_rates` (`debugfs.c`) and the transmissions that use the rotation (`tx.c`) share
four fields and an array, without a lock. Here each access is one step: of the write that is under
way, or of one of the transmissions, of which there may be any number.

* `RotateRace.step`: the steps. A transmission that would take a remainder by zero, or use an array
  that is not there, is recorded as a fault.
* `WritePc.Holds`, `TxPc.Holds`: what is known at each place of the two programs.
* `rotate_race_safe`: no fault, when transmissions keep out of the writes.
-/

namespace Iax.Dvm

/-! ## The shared fields -/

/-- What `kmalloc` returned: `size` words, of which `entries` are written. -/
structure RateBlock where
  size : ℕ
  live : Bool
  entries : List ℕ
  deriving DecidableEq

/-- The fields of `struct iwl_priv` for rotating rates, and the blocks that were ever allocated;
`rotateRateArray` is the index of one, or `none` for `NULL`. -/
structure RotateShared where
  rotateRates : ℕ
  lastRotateRate : ℕ
  rotateRateTotal : ℕ
  rotateRateArray : Option ℕ
  heap : List RateBlock
  deriving DecidableEq

namespace RotateShared

variable (sh : RotateShared)

/-- `kfree(priv->rotate_rate_array)`. -/
def kfree : RotateShared :=
  match sh.rotateRateArray with
  | none => sh
  | some b => { sh with heap := sh.heap.modify b fun blk => { blk with live := false } }

/-- `priv->rotate_rate_array = kmalloc(..)` of `size` words. -/
def kmalloc (size : ℕ) (alloc : Bool) : RotateShared :=
  if alloc then
    { sh with rotateRateArray := some sh.heap.length, heap := sh.heap ++ [⟨size, true, []⟩] }
  else { sh with rotateRateArray := none }

/-- `priv->rotate_rate_array[cur_rate] = word`, for the first entry that is not written. -/
def store (word : ℕ) : RotateShared :=
  match sh.rotateRateArray with
  | none => sh
  | some b =>
    { sh with heap := sh.heap.modify b fun blk => { blk with entries := blk.entries ++ [word] } }

/-- The array is a live block of so many words. -/
def HasArray (size : ℕ) : Prop :=
  ∃ b blk, sh.rotateRateArray = some b ∧ sh.heap[b]? = some blk ∧ blk.live = true ∧
    blk.size = size

/-- A transmission may use the rotation. -/
structure Usable : Prop where
  array : sh.HasArray sh.rotateRateTotal
  total_pos : 0 < sh.rotateRateTotal
  last_lt : sh.lastRotateRate < sh.rotateRateTotal

variable {sh}

theorem hasArray_kmalloc (size : ℕ) : (sh.kmalloc size true).HasArray size :=
  ⟨sh.heap.length, ⟨size, true, []⟩, rfl, by simp [kmalloc], rfl, rfl⟩

theorem HasArray.store {size : ℕ} (h : sh.HasArray size) (word : ℕ) :
    (sh.store word).HasArray size := by
  obtain ⟨b, blk, harr, hblk, hlive, hsize⟩ := h
  refine ⟨b, { blk with entries := blk.entries ++ [word] }, ?_, ?_, hlive, hsize⟩
  · rw [RotateShared.store, harr]
  · simp [RotateShared.store, harr, hblk]

@[simp] theorem rotateRates_store (word : ℕ) : (sh.store word).rotateRates = sh.rotateRates := by
  unfold store
  split <;> rfl

@[simp] theorem lastRotateRate_store (word : ℕ) :
    (sh.store word).lastRotateRate = sh.lastRotateRate := by
  unfold store
  split <;> rfl

@[simp] theorem rotateRateTotal_store (word : ℕ) :
    (sh.store word).rotateRateTotal = sh.rotateRateTotal := by
  unfold store
  split <;> rfl

@[simp] theorem rotateRateArray_store (word : ℕ) :
    (sh.store word).rotateRateArray = sh.rotateRateArray := by
  unfold store
  split <;> rfl

theorem Usable.store (h : sh.Usable) (word : ℕ) : (sh.store word).Usable where
  array := by
    rw [rotateRateTotal_store]
    exact h.array.store word
  total_pos := by
    rw [rotateRateTotal_store]
    exact h.total_pos
  last_lt := by
    rw [rotateRateTotal_store, lastRotateRate_store]
    exact h.last_lt

/-- The index is stored by a transmission. -/
theorem Usable.setLast (h : sh.Usable) {last : ℕ} (hlast : last < sh.rotateRateTotal) :
    { sh with lastRotateRate := last }.Usable := ⟨h.array, h.total_pos, hlast⟩

end RotateShared

/-! ## The two programs -/

/-- Where the write is: in front of the statement that the case is named after. Its number has been
parsed. -/
inductive WritePc
  | idle
  /-- `if (priv->rotate_rates)`. -/
  | test (val : ℕ) (alloc : Bool)
  /-- `kfree(priv->rotate_rate_array)`. -/
  | free (val : ℕ) (alloc : Bool)
  /-- `priv->rotate_rate_array = NULL`. -/
  | nullArray (val : ℕ) (alloc : Bool)
  /-- `priv->last_rotate_rate = 0`. -/
  | clearLast (val : ℕ) (alloc : Bool)
  /-- `priv->rotate_rate_total = 0`. -/
  | clearTotal (val : ℕ) (alloc : Bool)
  /-- `priv->rotate_rates = 0`. -/
  | clearRates (val : ℕ) (alloc : Bool)
  /-- `priv->rotate_rate_array = kmalloc(..)`. -/
  | kmalloc (val : ℕ) (alloc : Bool)
  /-- `if (!priv->rotate_rate_array)`. -/
  | check (val : ℕ)
  /-- `priv->rotate_rates = 1`. -/
  | setRates (val : ℕ)
  /-- `priv->last_rotate_rate = 0`. -/
  | setLast (val : ℕ)
  /-- `priv->rotate_rate_total = num_rates`. -/
  | setTotal (val : ℕ)
  /-- `priv->rotate_rate_array[cur_rate] = ..`. -/
  | fill (val curRate : ℕ)
  deriving DecidableEq

/-- Where a transmission is, with what it has read. -/
inductive TxPc
  /-- In front of `if (.. && priv->rotate_rates)`. -/
  | idle
  /-- The read of `rotate_rate_array`. -/
  | array
  /-- The read of `last_rotate_rate`, for the index. -/
  | index (arr : Option ℕ)
  /-- The read of the entry. -/
  | entry (arr : Option ℕ) (idx : ℕ)
  /-- The read of `last_rotate_rate`, for the next index. -/
  | last
  /-- The read of `rotate_rate_total`, and the remainder. -/
  | total (prev : ℕ)
  /-- The assignment of `last_rotate_rate`. -/
  | store (next : ℕ)
  deriving DecidableEq

inductive RotateFault
  | remByZero | pastEnd | nullArray | freedArray
  deriving DecidableEq

/-- `num_rates` of a number. -/
def ratesOf (val : ℕ) : ℕ := numRates (.ofVal val)

/-- The write behind the fields' reset: it ends when the number selects nothing. -/
def WritePc.afterClear (val : ℕ) (alloc : Bool) : WritePc :=
  if val = 0 ∨ ratesOf val = 0 then .idle else .kmalloc val alloc

/-- A statement of the write. -/
def WritePc.step (sh : RotateShared) : WritePc → RotateShared × WritePc
  | .idle => (sh, .idle)
  | .test val alloc =>
    (sh, if sh.rotateRates ≠ 0 then .free val alloc else .afterClear val alloc)
  | .free val alloc => (sh.kfree, .nullArray val alloc)
  | .nullArray val alloc => ({ sh with rotateRateArray := none }, .clearLast val alloc)
  | .clearLast val alloc => ({ sh with lastRotateRate := 0 }, .clearTotal val alloc)
  | .clearTotal val alloc => ({ sh with rotateRateTotal := 0 }, .clearRates val alloc)
  | .clearRates val alloc => ({ sh with rotateRates := 0 }, .afterClear val alloc)
  | .kmalloc val alloc => (sh.kmalloc (ratesOf val) alloc, .check val)
  | .check val => (sh, if sh.rotateRateArray = none then .idle else .setRates val)
  | .setRates val => ({ sh with rotateRates := 1 }, .setLast val)
  | .setLast val => ({ sh with lastRotateRate := 0 }, .setTotal val)
  | .setTotal val => ({ sh with rotateRateTotal := ratesOf val }, .fill val 0)
  | .fill val curRate =>
    match (rotateEntries (.ofVal val))[curRate]? with
    | some word => (sh.store word, .fill val (curRate + 1))
    | none => (sh, .idle)

/-- The read of an entry of an array. -/
def readEntry (sh : RotateShared) (arr : Option ℕ) (idx : ℕ) : Option RotateFault :=
  match arr.bind (sh.heap[·]?) with
  | none => some .nullArray
  | some blk =>
    if blk.live = false then some .freedArray
    else if blk.size ≤ idx then some .pastEnd
    else none

/-- A read of a transmission, or its assignment. -/
def TxPc.step (sh : RotateShared) : TxPc → RotateShared × TxPc × Option RotateFault
  | .idle => (sh, if sh.rotateRates ≠ 0 then .array else .idle, none)
  | .array => (sh, .index sh.rotateRateArray, none)
  | .index arr => (sh, .entry arr sh.lastRotateRate, none)
  | .entry arr idx =>
    match readEntry sh arr idx with
    | some fault => (sh, .idle, some fault)
    | none => (sh, .last, none)
  | .last => (sh, .total sh.lastRotateRate, none)
  | .total prev =>
    if sh.rotateRateTotal = 0 then (sh, .idle, some .remByZero)
    else (sh, .store ((prev + 1) % sh.rotateRateTotal), none)
  | .store next => ({ sh with lastRotateRate := next }, .idle, none)

/-! ## Interleavings -/

/-- The driver, the write that is under way, the transmissions by number, and the faults so far. -/
structure RotateRace where
  shared : RotateShared
  writer : WritePc
  tx : ℕ → TxPc
  faults : List RotateFault

inductive RaceAct
  /-- A write of a number begins, when none is under way. `alloc` tells whether `kmalloc` finds
  memory. -/
  | open (val : ℕ) (alloc : Bool)
  /-- The write goes on. -/
  | write
  /-- A transmission goes on, or begins. -/
  | tx (i : ℕ)

namespace RotateRace

def init : RotateRace where
  shared := ⟨0, 0, 0, none, []⟩
  writer := .idle
  tx := fun _ => .idle
  faults := []

def step (s : RotateRace) : RaceAct → Option RotateRace
  | .open val alloc =>
    if s.writer = .idle then some { s with writer := .test val alloc } else none
  | .write =>
    if s.writer = .idle then none
    else
      let (shared, writer) := s.writer.step s.shared
      some { s with shared := shared, writer := writer }
  | .tx i =>
    let (shared, pc, fault) := (s.tx i).step s.shared
    some { s with
      shared := shared
      tx := Function.update s.tx i pc
      faults := s.faults ++ fault.toList }

end RotateRace

/-- The write is about to free the array. -/
def WritePc.frees : WritePc → Bool
  | .free .. => true
  | _ => false

/-- The write has begun to take the rotation away, or to put one in place. -/
def WritePc.midway : WritePc → Bool
  | .nullArray .. | .clearLast .. | .clearTotal .. | .clearRates .. => true
  | .setLast _ | .setTotal _ => true
  | _ => false

/-- Between the test of a write and its last assignment to a field. -/
def WritePc.busy : WritePc → Bool
  | .kmalloc .. | .check _ | .setRates _ => true
  | pc => pc.midway

/-! ## What is known at each place -/

/-- At each place of the write. -/
def WritePc.Holds (sh : RotateShared) : WritePc → Prop
  | .idle | .test .. | .fill .. => sh.rotateRates ≠ 0 → sh.Usable
  | .free .. => sh.Usable
  | .nullArray .. | .clearLast .. | .clearTotal .. | .clearRates .. => True
  | .kmalloc val _ => sh.rotateRates = 0 ∧ 0 < ratesOf val
  | .check val => sh.rotateRates = 0 ∧ 0 < ratesOf val ∧
      (sh.rotateRateArray = none ∨ sh.HasArray (ratesOf val))
  | .setRates val => sh.rotateRates = 0 ∧ 0 < ratesOf val ∧ sh.HasArray (ratesOf val)
  | .setLast val => 0 < ratesOf val ∧ sh.HasArray (ratesOf val)
  | .setTotal val => 0 < ratesOf val ∧ sh.HasArray (ratesOf val) ∧ sh.lastRotateRate = 0

/-- At each place of a transmission, when the rotation is usable. -/
def TxPc.Holds (sh : RotateShared) : TxPc → Prop
  | .index arr => arr = sh.rotateRateArray
  | .entry arr idx => arr = sh.rotateRateArray ∧ idx < sh.rotateRateTotal
  | .store next => next < sh.rotateRateTotal
  | _ => True

theorem afterClear_holds {sh : RotateShared} (h : sh.rotateRates = 0) (val : ℕ) (alloc : Bool) :
    (WritePc.afterClear val alloc).Holds sh := by
  unfold WritePc.afterClear
  split
  case isTrue => exact fun hon => absurd h hon
  case isFalse hval => exact ⟨h, Nat.pos_of_ne_zero (not_or.1 hval).2⟩

/-- **The write**, on its own: what is known in front of a statement makes what is known behind
it. -/
theorem WritePc.holds_step {sh : RotateShared} {pc : WritePc} (h : pc.Holds sh) :
    (pc.step sh).2.Holds (pc.step sh).1 := by
  cases pc with
  | idle => exact h
  | test val alloc =>
    by_cases hon : sh.rotateRates ≠ 0
    · simp only [step, if_pos hon]
      exact h hon
    · simp only [step, if_neg hon]
      exact afterClear_holds (not_not.1 hon) val alloc
  | free val alloc => trivial
  | nullArray val alloc => trivial
  | clearLast val alloc => trivial
  | clearTotal val alloc => trivial
  | clearRates val alloc => exact afterClear_holds rfl val alloc
  | kmalloc val alloc =>
    obtain ⟨hoff, hpos⟩ := h
    cases alloc with
    | false => exact ⟨hoff, hpos, .inl rfl⟩
    | true => exact ⟨hoff, hpos, .inr (RotateShared.hasArray_kmalloc _)⟩
  | check val =>
    obtain ⟨hoff, hpos, harr⟩ := h
    by_cases hnull : sh.rotateRateArray = none
    · simp only [step, if_pos hnull]
      exact fun hon => absurd hoff hon
    · simp only [step, if_neg hnull]
      exact ⟨hoff, hpos, harr.resolve_left hnull⟩
  | setRates val => exact ⟨h.2.1, h.2.2⟩
  | setLast val => exact ⟨h.1, h.2, rfl⟩
  | setTotal val =>
    obtain ⟨hpos, harr, hlast⟩ := h
    exact fun _ => ⟨harr, hpos, hlast.trans_lt hpos⟩
  | fill val curRate =>
    cases hword : (rotateEntries (.ofVal val))[curRate]? with
    | none =>
      simp only [step, hword]
      exact h
    | some word =>
      simp only [step, hword]
      intro hon
      rw [RotateShared.rotateRates_store] at hon
      exact (h hon).store word

/-- While transmissions are under way, the write has nothing to do but to test, or to fill the
array. -/
theorem WritePc.step_of_usable {sh : RotateShared} {pc : WritePc} (hon : sh.rotateRates ≠ 0)
    (hbusy : pc.busy = false) (hfrees : pc.frees = false) :
    (pc.step sh).2.busy = false ∧
      ((pc.step sh).1 = sh ∨ ∃ word, (pc.step sh).1 = sh.store word) := by
  cases pc with
  | idle => exact ⟨rfl, .inl rfl⟩
  | test val alloc =>
    simp only [step, if_pos hon]
    exact ⟨rfl, .inl trivial⟩
  | free val alloc => cases hfrees
  | fill val curRate =>
    cases hword : (rotateEntries (.ofVal val))[curRate]? with
    | none =>
      simp only [step, hword]
      exact ⟨rfl, .inl trivial⟩
    | some word =>
      simp only [step, hword]
      exact ⟨rfl, .inr ⟨word, rfl⟩⟩
  | _ => cases hbusy

/-- **A transmission**, on its own, in a usable rotation: it has no fault, and changes at most the
index. -/
theorem TxPc.holds_step {sh : RotateShared} {pc : TxPc} (husable : sh.Usable) (h : pc.Holds sh) :
    (pc.step sh).2.2 = none ∧ (pc.step sh).2.1.Holds sh ∧
      ∃ last, last < sh.rotateRateTotal ∧ (pc.step sh).1 = { sh with lastRotateRate := last } := by
  have hsame : ∃ last, last < sh.rotateRateTotal ∧ sh = { sh with lastRotateRate := last } :=
    ⟨sh.lastRotateRate, husable.last_lt, rfl⟩
  cases pc with
  | idle =>
    refine ⟨rfl, ?_, hsame⟩
    simp only [step]
    split <;> trivial
  | array => exact ⟨rfl, rfl, hsame⟩
  | index arr => exact ⟨rfl, ⟨h, husable.last_lt⟩, hsame⟩
  | entry arr idx =>
    obtain ⟨rfl, hidx⟩ := h
    obtain ⟨b, blk, harr, hblk, hlive, hsize⟩ := husable.array
    have hread : readEntry sh sh.rotateRateArray idx = none := by
      simp only [readEntry, harr, Option.bind_some, hblk, hlive, Bool.true_eq_false, if_false,
        hsize, if_neg hidx.not_ge]
    simp only [step, hread]
    exact ⟨trivial, trivial, hsame⟩
  | last => exact ⟨rfl, trivial, hsame⟩
  | total prev =>
    simp only [step, if_neg husable.total_pos.ne']
    exact ⟨trivial, Nat.mod_lt _ husable.total_pos, hsame⟩
  | store next => exact ⟨rfl, trivial, next, h, rfl⟩

/-- What is known about a transmission does not depend on the index, nor on the entries. -/
theorem TxPc.holds_congr {sh sh' : RotateShared} {pc : TxPc}
    (harr : sh'.rotateRateArray = sh.rotateRateArray)
    (htotal : sh'.rotateRateTotal = sh.rotateRateTotal) : pc.Holds sh' ↔ pc.Holds sh := by
  cases pc <;> simp only [Holds, harr, htotal]

/-! ## The invariant -/

namespace RotateRace

/-- While a transmission is past its test, the rotation is on and usable. -/
structure TxInv (s : RotateRace) (pc : TxPc) : Prop where
  on : s.shared.rotateRates ≠ 0
  usable : s.shared.Usable
  busy : s.writer.busy = false
  holds : pc.Holds s.shared

structure Inv (s : RotateRace) : Prop where
  writer : s.writer.Holds s.shared
  tx : ∀ i, s.tx i ≠ .idle → s.TxInv (s.tx i)
  faults : s.faults = []

/-- The condition on a step: a write frees the array while no transmission is past its test, and a
transmission finds the rotation on only while no write is midway. -/
def Excluded (s : RotateRace) : RaceAct → Prop
  | .open .. => True
  | .write => s.writer.frees = true → ∀ i, s.tx i = .idle
  | .tx i => s.tx i = .idle → s.shared.rotateRates ≠ 0 → s.writer.midway = false

variable {s s' : RotateRace}

theorem Inv.init : init.Inv where
  writer := fun hon => absurd rfl hon
  tx := fun _ h => absurd rfl h
  faults := rfl

/-- Where no write is midway, a rotation that is on is usable. -/
theorem Inv.usable (h : s.Inv) (hon : s.shared.rotateRates ≠ 0) (hmid : s.writer.midway = false) :
    s.shared.Usable ∧ s.writer.busy = false := by
  have hwriter := h.writer
  cases hpc : s.writer with
  | idle => exact ⟨by rw [hpc] at hwriter; exact hwriter hon, rfl⟩
  | test val alloc => exact ⟨by rw [hpc] at hwriter; exact hwriter hon, rfl⟩
  | fill val curRate => exact ⟨by rw [hpc] at hwriter; exact hwriter hon, rfl⟩
  | free val alloc => exact ⟨by rw [hpc] at hwriter; exact hwriter, rfl⟩
  | kmalloc val alloc => exact absurd (by rw [hpc] at hwriter; exact hwriter.1) hon
  | check val => exact absurd (by rw [hpc] at hwriter; exact hwriter.1) hon
  | setRates val => exact absurd (by rw [hpc] at hwriter; exact hwriter.1) hon
  | _ =>
    rw [hpc] at hmid
    cases hmid

theorem inv_open {val : ℕ} {alloc : Bool} (h : s.Inv)
    (hstep : s.step (.open val alloc) = some s') : s'.Inv := by
  simp only [step] at hstep
  split at hstep
  case isTrue hidle =>
    obtain rfl := Option.some.inj hstep
    have hwriter := h.writer
    rw [hidle] at hwriter
    refine ⟨hwriter, fun i hi => ?_, h.faults⟩
    obtain ⟨hon, husable, -, hholds⟩ := h.tx i hi
    exact ⟨hon, husable, rfl, hholds⟩
  case isFalse => cases hstep

theorem inv_write (h : s.Inv) (hC : s.Excluded .write) (hstep : s.step .write = some s') :
    s'.Inv := by
  simp only [step] at hstep
  split at hstep
  case isTrue => cases hstep
  case isFalse =>
    obtain rfl := Option.some.inj hstep
    refine ⟨WritePc.holds_step h.writer, fun i hi => ?_, h.faults⟩
    obtain ⟨hon, husable, hbusy, hholds⟩ := h.tx i hi
    have hfrees : s.writer.frees = false :=
      Bool.eq_false_iff.2 fun hfrees => hi (hC hfrees i)
    obtain ⟨hbusy', hsame | ⟨word, hstore⟩⟩ := WritePc.step_of_usable hon hbusy hfrees
    · refine ⟨?_, ?_, hbusy', ?_⟩ <;> dsimp only <;> rw [hsame]
      exacts [hon, husable, hholds]
    · refine ⟨?_, ?_, hbusy', ?_⟩ <;> dsimp only <;> rw [hstore]
      · rw [RotateShared.rotateRates_store]
        exact hon
      · exact husable.store word
      · exact (TxPc.holds_congr (by simp) (by simp)).2 hholds

/-- What a transmission's step changes. -/
theorem eq_of_step_tx {i : ℕ} (hstep : s.step (.tx i) = some s') : s' = { s with
    shared := ((s.tx i).step s.shared).1
    tx := Function.update s.tx i ((s.tx i).step s.shared).2.1
    faults := s.faults ++ ((s.tx i).step s.shared).2.2.toList } :=
  (Option.some.inj hstep).symm

/-- A transmission's step, in a usable rotation. -/
theorem inv_tx_usable {i : ℕ} (h : s.Inv) (hon : s.shared.rotateRates ≠ 0)
    (husable : s.shared.Usable) (hbusy : s.writer.busy = false) (hholds : (s.tx i).Holds s.shared)
    (hstep : s.step (.tx i) = some s') : s'.Inv := by
  obtain ⟨hfault, hnext, last, hlast, hshared⟩ := TxPc.holds_step husable hholds
  have hs' := eq_of_step_tx hstep
  rw [hshared, hfault] at hs'
  generalize ((s.tx i).step s.shared).2.1 = pc at hs' hnext
  subst hs'
  have husable' := husable.setLast hlast
  refine ⟨?_, fun j hj => ⟨hon, husable', hbusy, ?_⟩, by simp [h.faults]⟩
  · -- the write's place asks for no more than a usable rotation
    dsimp only
    cases hpc : s.writer with
    | idle => exact fun _ => husable'
    | test val alloc => exact fun _ => husable'
    | fill val curRate => exact fun _ => husable'
    | free val alloc => exact husable'
    | _ =>
      rw [hpc] at hbusy
      cases hbusy
  · refine (TxPc.holds_congr rfl rfl).2 ?_
    dsimp only at hj ⊢
    rcases eq_or_ne j i with rfl | hne
    · rw [Function.update_self]
      exact hnext
    · rw [Function.update_of_ne hne] at hj ⊢
      exact (h.tx j hj).holds

theorem inv_tx {i : ℕ} (h : s.Inv) (hC : s.Excluded (.tx i)) (hstep : s.step (.tx i) = some s') :
    s'.Inv := by
  rcases eq_or_ne (s.tx i) .idle with hidle | hne
  · by_cases hon : s.shared.rotateRates = 0
    · -- it does not use the rotation
      have hs' := eq_of_step_tx hstep
      have hsame : (s.tx i).step s.shared = (s.shared, .idle, none) := by
        simp [hidle, TxPc.step, hon]
      rw [hsame, ← hidle, Function.update_eq_self] at hs'
      subst hs'
      exact ⟨h.writer, fun j hj => { h.tx j hj with }, by simp [h.faults]⟩
    · obtain ⟨husable, hbusy⟩ := h.usable hon (hC hidle hon)
      exact inv_tx_usable h hon husable hbusy (by rw [hidle]; trivial) hstep
  · obtain ⟨hon, husable, hbusy, hholds⟩ := h.tx i hne
    exact inv_tx_usable h hon husable hbusy hholds hstep

theorem inv_step (s : RotateRace) (a : RaceAct) (s' : RotateRace) (h : s.Inv) (hC : s.Excluded a)
    (hstep : s.step a = some s') : s'.Inv := by
  cases a with
  | «open» val alloc => exact inv_open h hstep
  | write => exact inv_write h hC hstep
  | tx i => exact inv_tx h hC hstep

/-- **Changing the rotation.** In a run in which transmissions keep out of the writes, no state has
a fault. -/
theorem rotate_race_safe {acts acts' : List RaceAct} {s' : RotateRace}
    (hC : Lts.Meets step Excluded init acts) (hpre : acts' <+: acts)
    (hrun : Lts.exec step init acts' = some s') : s'.faults = [] :=
  (Lts.exec_invariant step inv_step Inv.init (hC.initial step hpre) hrun).faults

/-! ## Runs -/

/-- The condition on a step for the first `n` transmissions, when no other moves; it can be
evaluated. -/
def Apart (n : ℕ) (s : RotateRace) : RaceAct → Prop
  | .open .. => True
  | .write => s.writer.frees = true → ∀ i < n, s.tx i = .idle
  | .tx i => i < n ∧ (s.tx i = .idle → s.shared.rotateRates ≠ 0 → s.writer.midway = false)

instance (n : ℕ) (s : RotateRace) (a : RaceAct) : Decidable (s.Apart n a) := by
  cases a <;> unfold Apart <;> infer_instance

/-- Only the transmission that a step is about moves. -/
theorem tx_step {a : RaceAct} {i : ℕ} (hi : ∀ j, a = .tx j → j ≠ i) (h : s.step a = some s') :
    s'.tx i = s.tx i := by
  cases a with
  | «open» val alloc =>
    obtain ⟨-, h⟩ := Option.ite_none_right_eq_some.1 h
    cases h
    rfl
  | write =>
    obtain ⟨-, h⟩ := Option.ite_none_left_eq_some.1 h
    cases h
    rfl
  | tx j =>
    cases h
    exact Function.update_of_ne (hi j rfl).symm _ _

/-- A run of the first `n` transmissions meets the condition for all of them. -/
theorem excluded_of_apart {n : ℕ} {acts : List RaceAct} (hidle : ∀ i, n ≤ i → s.tx i = .idle)
    (h : Lts.Meets step (Apart n) s acts) : Lts.Meets step Excluded s acts := by
  induction acts generalizing s with
  | nil => trivial
  | cons a acts ih =>
    obtain ⟨ha, hacts⟩ := h
    have hbelow : ∀ j, a = .tx j → j < n := by
      rintro j rfl
      exact ha.1
    refine ⟨?_, fun s' hs' => ih (fun i hi => ?_) (hacts s' hs')⟩
    · cases a with
      | «open» val alloc => trivial
      | write =>
        intro hfrees i
        rcases Nat.lt_or_ge i n with hi | hi
        · exact ha hfrees i hi
        · exact hidle i hi
      | tx j => exact ha.2
    · rw [tx_step (fun j hj => ((hbelow j hj).trans_le hi).ne) hs']
      exact hidle i hi

/-- Rates of one stream are selected, while a frame finds no rotation. Two frames, in turns with
each other and with the write, use the array before it is filled. Then rates of two streams are
selected: the first array is freed, and a frame that finds no rotation in between goes without. -/
def twoFrames : List RaceAct :=
  List.flatten [
    [.open 1 true, .write, .tx 0], List.replicate 5 .write,
    (List.replicate 7 [.write, .tx 0, .tx 1]).flatten, [.write, .write],
    [.open 2 true], List.replicate 6 .write, [.tx 1], List.replicate 14 .write,
    List.replicate 7 (.tx 1)]

theorem rotate_race_safe_twoFrames :
    ∃ s, Lts.exec step init twoFrames = some s ∧
      s.shared = ⟨1, 1, 8, some 1, [⟨8, false, rotateEntries (.ofVal 1)⟩,
        ⟨8, true, rotateEntries (.ofVal 2)⟩]⟩ ∧
      s.faults = [] := by
  have hshared : (Lts.exec step init twoFrames).map (fun s => s.shared) =
      some ⟨1, 1, 8, some 1, [⟨8, false, rotateEntries (.ofVal 1)⟩,
        ⟨8, true, rotateEntries (.ofVal 2)⟩]⟩ := by decide +kernel
  obtain ⟨s, hs, hshared⟩ := Option.map_eq_some_iff.1 hshared
  have hapart : Lts.Meets step (Apart 2) init twoFrames := by decide +kernel
  exact ⟨s, hs, hshared,
    rotate_race_safe (excluded_of_apart (fun _ _ => rfl) hapart) List.prefix_rfl hs⟩

/-- **A remainder by zero**: a frame is sent between the assignment of `rotate_rates` and that of
`rotate_rate_total`. -/
theorem rotate_race_remByZero :
    (Lts.exec step init ([.open 1 true, .write, .write, .write, .write] ++
      List.replicate 6 (.tx 0))).map (fun s => s.faults) = some [.remByZero] := by
  decide +kernel

end RotateRace

end Iax.Dvm
