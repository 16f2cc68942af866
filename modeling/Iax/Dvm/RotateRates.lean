import Iax.Lib.Bytes
import Iax.Lib.Lts
import Iax.Lib.Ring
import Mathlib.Data.Fintype.Basic
import Mathlib.Data.Nat.Bitwise

/-!
# Rotating rates

A number written to the debugfs file `rotate_rates` selects rates by flags, and from then on each
data frame is sent at the next of them (`debugfs.c`, `tx.c`).

* `iwlDbgfsRotateRatesWrite`: a write. It counts the rates (`numRates`) and lists them
  (`rotateEntries`) in two passes over the flags.
* `iwlagnTxCmdBuildRate`: the rate of a data frame.
* `Selected`: the rates that the flags stand for; `rotateEntries_spec` compares the two.
* `rotate_rates_iff`: when every state of a run has the rotation that the writes ask for.

The numbers stay far below `2 ^ 32`.
-/

namespace Iax.Dvm

open Bytes

/-! ## The flags -/

/-- `ROTATE_*`, the flags of a number. -/
structure RotateFlags where
  siso : Bool
  mimo2 : Bool
  mimo3 : Bool
  txSel : Bool
  ht40 : Bool
  sgi : Bool
  skip : Bool
  deriving DecidableEq

/-- `val & ROTATE_*`. -/
def RotateFlags.ofVal (val : ℕ) : RotateFlags where
  siso := val &&& 1 != 0
  mimo2 := val &&& 2 != 0
  mimo3 := val &&& 4 != 0
  txSel := val &&& 8 != 0
  ht40 := val &&& 16 != 0
  sgi := val &&& 32 != 0
  skip := val &&& 64 != 0

section Flags

variable (f : RotateFlags)

/-- `start_rate`. -/
def startRate : ℕ := if f.skip then 2 else 0

/-- `num_rates`. -/
def numRates : ℕ :=
  let num := 0
  let num := if f.siso then num + 1 else num
  let num := if f.mimo2 then num + 1 else num
  let num := if f.mimo3 then num + 1 else num
  let num :=
    if f.txSel then
      let num := if f.siso then num + 2 else num
      if f.mimo2 then num + 2 else num
    else num
  let num := if f.ht40 then num * 2 else num
  let num := if f.sgi then num * 2 else num
  if f.skip then num * 6 else num * 8

/-- `RATE_MCS_HT40_MSK`. -/
def rateMcsHt40Msk : ℕ := 2 ^ 11

/-- `RATE_MCS_SGI_MSK`. -/
def rateMcsSgiMsk : ℕ := 2 ^ 13

/-- A loop `for (i = start_rate; i < 8; ++i, ++cur_rate)` that appends `base + i`. -/
def fillRates (base : ℕ) (entries : List ℕ) : List ℕ :=
  entries ++ (List.range' (startRate f) (8 - startRate f)).map (base + ·)

/-- A loop `for (i = start_rate; i < tmp; ++i, ++cur_rate)` that appends the entries with a flag. -/
def copyRates (msk : ℕ) (entries : List ℕ) : List ℕ :=
  entries ++ (entries.drop (startRate f)).map (· ||| msk)

/-- The entries before the copy loops. -/
def baseEntries : List ℕ :=
  let entries := []
  let entries := if f.siso then fillRates f 0x4100 entries else entries
  let entries := if f.mimo2 then fillRates f 0xc108 entries else entries
  let entries := if f.mimo3 then fillRates f 0x1c110 entries else entries
  let entries :=
    if f.txSel && f.siso then fillRates f 0x10100 (fillRates f 0x8100 entries) else entries
  if f.txSel && f.mimo2 then fillRates f 0x18108 (fillRates f 0x14108 entries) else entries

/-- What the loops write to `rotate_rate_array`, from its start on. -/
def rotateEntries : List ℕ :=
  let entries := baseEntries f
  let entries := if f.ht40 then copyRates f rateMcsHt40Msk entries else entries
  if f.sgi then copyRates f rateMcsSgiMsk entries else entries

end Flags

/-! ## The rotation -/

/-- `rotate_rate_array`: `size` entries, of which `entries` are written, from the first one on. -/
structure RateArray where
  size : ℕ
  entries : List ℕ
  deriving DecidableEq

/-- The fields of `struct iwl_priv` for rotating rates. -/
structure Rotation where
  rotateRates : ℕ
  lastRotateRate : ℕ
  rotateRateTotal : ℕ
  rotateRateArray : Option RateArray
  deriving DecidableEq

/-- Disabled. -/
def Rotation.disabled : Rotation := ⟨0, 0, 0, none⟩

inductive Errno
  | einval | efault | enomem | erange
  deriving DecidableEq

/-- A call of `write` on the file: `userBuf` is `none` when it cannot be read, `alloc` tells whether
`kmalloc` finds memory. -/
structure RatesWrite where
  count : ℕ
  userBuf : Option Bytes
  alloc : Bool

section Write

variable (kstrtoul : Bytes → Except Errno ℕ)

/-- The number in the buffer of a write. -/
def RatesWrite.parse (w : RatesWrite) : Except Errno ℕ :=
  if 11 < w.count then .error .einval
  else
    match w.userBuf with
    | none => .error .efault
    | some user => kstrtoul ((user.take w.count ++ List.replicate 11 0).take 11)

/-- `iwl_dbgfs_rotate_rates_write` from the call of `kstrtoul` on. -/
def Rotation.setFlags (rot : Rotation) (count val : ℕ) (alloc : Bool) :
    Rotation × Except Errno ℕ :=
  let rot := if rot.rotateRates ≠ 0 then .disabled else rot
  let f := RotateFlags.ofVal val
  if val = 0 then (rot, .ok count)
  else if numRates f = 0 then (rot, .error .einval)
  else if alloc = false then ({ rot with rotateRateArray := none }, .error .enomem)
  else
    ({ rotateRates := 1
       lastRotateRate := 0
       rotateRateTotal := numRates f
       rotateRateArray := some ⟨numRates f, rotateEntries f⟩ }, .ok count)

/-- `iwl_dbgfs_rotate_rates_write`. -/
def iwlDbgfsRotateRatesWrite (rot : Rotation) (w : RatesWrite) : Rotation × Except Errno ℕ :=
  match w.parse kstrtoul with
  | .error ret => (rot, .error ret)
  | .ok val => rot.setFlags w.count val w.alloc

end Write

/-- The fields of `struct iwl_tx_cmd` that `iwlagn_tx_cmd_build_rate` sets for a data frame.
`rateNFlags` is `none` when it comes from an entry that was never written. -/
structure TxRate where
  staRate : Bool
  rateNFlags : Option ℕ
  initialRateIndex : ℕ
  rtsRetryLimit : ℕ
  dataRetryLimit : ℕ
  deriving DecidableEq

/-- `iwlagn_tx_cmd_build_rate` for a data frame. -/
def iwlagnTxCmdBuildRate (rot : Rotation) (wowlan : Bool) (cmd : TxRate) : Rotation × TxRate :=
  let cmd := { cmd with
    rtsRetryLimit := if wowlan then 7 else 60
    dataRetryLimit := if wowlan then 7 else 15 }
  if rot.rotateRates ≠ 0 then
    ({ rot with lastRotateRate := (rot.lastRotateRate + 1) % rot.rotateRateTotal },
      { cmd with
        staRate := false
        rateNFlags := rot.rotateRateArray.bind (·.entries[rot.lastRotateRate]?)
        rtsRetryLimit := 0
        dataRetryLimit := 0 })
  else (rot, { cmd with initialRateIndex := 0, staRate := true })

/-! ## The rates that the flags stand for -/

/-- The choices of antennas for the stream counts that are selected: `TX_SEL` allows any one antenna
for one stream and any two for two. Antenna A is bit 0, B bit 1 and C bit 2. -/
def RotateFlags.antennas (f : RotateFlags) : List (ℕ × ℕ) :=
  (if f.siso then [(1, 0b001)] else []) ++ (if f.mimo2 then [(2, 0b011)] else []) ++
    (if f.mimo3 then [(3, 0b111)] else []) ++
    (if f.txSel && f.siso then [(1, 0b010), (1, 0b100)] else []) ++
    (if f.txSel && f.mimo2 then [(2, 0b101), (2, 0b110)] else [])

/-- The word of an HT rate, at a width of 20 MHz and a long guard interval. -/
def htRate (streams ants mcs : ℕ) : ℕ := ants <<< 14 ||| 2 ^ 8 ||| (streams - 1) <<< 3 ||| mcs

/-- A flag, when it is chosen. -/
def chosen (c : Bool) (msk : ℕ) : ℕ := if c then msk else 0

/-- The rate words that are selected: `SKIP` leaves out the two lowest rates of a stream count,
`HT40` and `SGI` add the other width and the other guard interval. -/
def Selected (f : RotateFlags) (word : ℕ) : Prop :=
  ∃ p ∈ f.antennas, ∃ mcs, startRate f ≤ mcs ∧ mcs < 8 ∧ ∃ wide short : Bool,
    (wide = true → f.ht40 = true) ∧ (short = true → f.sgi = true) ∧
    word = htRate p.1 p.2 mcs ||| chosen wide rateMcsHt40Msk ||| chosen short rateMcsSgiMsk

/-- The copy loops begin behind the rates that `SKIP` leaves out, although the array does not hold
these. -/
def RotateFlags.Short (f : RotateFlags) : Prop := f.skip = true ∧ (f.ht40 = true ∨ f.sgi = true)

instance (f : RotateFlags) : Decidable f.Short := inferInstanceAs (Decidable (_ ∧ _))

/-! ## Copies with a flag -/

section Copies

variable {k : ℕ} {xs : List ℕ}

/-- A copy with a bit that no entry has. -/
theorem nodup_append_or (hnodup : xs.Nodup) (hclear : ∀ x ∈ xs, x.testBit k = false) :
    (xs ++ xs.map (· ||| 2 ^ k)).Nodup := by
  have hinj : ∀ x ∈ xs, ∀ y ∈ xs, x ||| 2 ^ k = y ||| 2 ^ k → x = y := by
    intro x hx y hy h
    refine Nat.eq_of_testBit_eq fun i => ?_
    have hbit := congrArg (Nat.testBit · i) h
    simp only [Nat.testBit_or, Nat.testBit_two_pow] at hbit
    rcases eq_or_ne k i with rfl | hne
    · rw [hclear x hx, hclear y hy]
    · simpa [hne] using hbit
  refine hnodup.append ((List.nodup_map_iff_inj_on hnodup).2 hinj) ?_
  intro x hx hcopy
  obtain ⟨y, -, rfl⟩ := List.mem_map.1 hcopy
  have hbit := hclear _ hx
  simp at hbit

theorem mem_append_or {w : ℕ} : w ∈ xs ++ xs.map (· ||| 2 ^ k) ↔
    ∃ x ∈ xs, ∃ c : Bool, w = x ||| chosen c (2 ^ k) := by
  simp only [List.mem_append, List.mem_map, Bool.exists_bool, chosen, Nat.or_zero, if_true,
    Bool.false_eq_true, if_false]
  constructor
  · rintro (hw | ⟨x, hx, rfl⟩)
    · exact ⟨w, hw, .inl rfl⟩
    · exact ⟨x, hx, .inr rfl⟩
  · rintro ⟨x, hx, rfl | rfl⟩
    · exact .inl hx
    · exact .inr ⟨x, hx, rfl⟩

end Copies

/-! ## The two passes -/

/-- The entries before the copy loops, by choice of antennas. -/
theorem baseEntries_eq (f : RotateFlags) : baseEntries f = f.antennas.flatMap fun p =>
    (List.range' (startRate f) (8 - startRate f)).map (htRate p.1 p.2) := by
  have hall : ∀ siso mimo2 mimo3 txSel skip : Bool,
      let f : RotateFlags := ⟨siso, mimo2, mimo3, txSel, false, false, skip⟩
      baseEntries f = f.antennas.flatMap fun p =>
        (List.range' (startRate f) (8 - startRate f)).map (htRate p.1 p.2) := by
    decide +kernel
  exact hall f.siso f.mimo2 f.mimo3 f.txSel f.skip

theorem mem_baseEntries {f : RotateFlags} {w : ℕ} : w ∈ baseEntries f ↔
    ∃ p ∈ f.antennas, ∃ mcs, startRate f ≤ mcs ∧ mcs < 8 ∧ w = htRate p.1 p.2 mcs := by
  have hstart : startRate f ≤ 8 := by
    unfold startRate
    split <;> decide
  rw [baseEntries_eq, List.mem_flatMap]
  refine exists_congr fun p => and_congr_right fun _ => ?_
  simp only [List.mem_map, List.mem_range'_1, Nat.add_sub_cancel' hstart, and_assoc,
    eq_comm (a := w)]

/-- They are different, and carry neither flag. -/
theorem baseEntries_clean (f : RotateFlags) : (baseEntries f).Nodup ∧
    ∀ w ∈ baseEntries f, w.testBit 11 = false ∧ w.testBit 13 = false := by
  have hall : ∀ siso mimo2 mimo3 txSel skip : Bool,
      let f : RotateFlags := ⟨siso, mimo2, mimo3, txSel, false, false, skip⟩
      (baseEntries f).Nodup ∧
        ∀ w ∈ baseEntries f, w.testBit 11 = false ∧ w.testBit 13 = false := by
    decide +kernel
  exact hall f.siso f.mimo2 f.mimo3 f.txSel f.skip

/-- The first pass counts the entries of the second one, each copy loop doubling them. -/
theorem numRates_eq (f : RotateFlags) : numRates f =
    (baseEntries f).length * (if f.ht40 then 2 else 1) * (if f.sgi then 2 else 1) := by
  have hall : ∀ siso mimo2 mimo3 txSel ht40 sgi skip : Bool,
      let f : RotateFlags := ⟨siso, mimo2, mimo3, txSel, ht40, sgi, skip⟩
      numRates f =
        (baseEntries f).length * (if f.ht40 then 2 else 1) * (if f.sgi then 2 else 1) := by
    decide +kernel
  exact hall f.siso f.mimo2 f.mimo3 f.txSel f.ht40 f.sgi f.skip

theorem length_copyRates (f : RotateFlags) (msk : ℕ) (entries : List ℕ) :
    (copyRates f msk entries).length = entries.length + (entries.length - startRate f) := by
  simp [copyRates]

/-- A copy loop that is run or not, and begins at the first entry if it is. -/
theorem copyRates_spec {f : RotateFlags} {c : Bool} {k : ℕ} {xs : List ℕ}
    (hstart : c = true → startRate f = 0) (hnodup : xs.Nodup)
    (hclear : ∀ x ∈ xs, x.testBit k = false) :
    let ys := if c then copyRates f (2 ^ k) xs else xs
    ys.length = xs.length * (if c then 2 else 1) ∧ ys.Nodup ∧
      ∀ w, w ∈ ys ↔ ∃ x ∈ xs, ∃ b : Bool, (b = true → c = true) ∧ w = x ||| chosen b (2 ^ k) := by
  cases c with
  | false => simp [chosen, hnodup]
  | true =>
    have hcopy : copyRates f (2 ^ k) xs = xs ++ xs.map (· ||| 2 ^ k) := by
      rw [copyRates, hstart rfl, List.drop_zero]
    simp only [if_true, hcopy, implies_true, true_and]
    refine ⟨?_, nodup_append_or hnodup hclear, fun w => mem_append_or⟩
    rw [List.length_append, List.length_map, Nat.mul_two]

/-- **What the loops write**, when no copy loop leaves anything out: as many entries as were
counted, each of the selected rates once. -/
theorem rotateEntries_spec {f : RotateFlags} (h : ¬ f.Short) :
    (rotateEntries f).length = numRates f ∧ (rotateEntries f).Nodup ∧
      ∀ w, w ∈ rotateEntries f ↔ Selected f w := by
  have hstart : f.ht40 = true ∨ f.sgi = true → startRate f = 0 := fun hcopy =>
    if_neg fun hskip => h ⟨hskip, hcopy⟩
  obtain ⟨hnodup, hclear⟩ := baseEntries_clean f
  obtain ⟨hlen₁, hnodup₁, hmem₁⟩ := copyRates_spec (k := 11) (fun hc => hstart (.inl hc)) hnodup
    fun w hw => (hclear w hw).1
  have hclear₁ : ∀ w ∈ (if f.ht40 then copyRates f (2 ^ 11) (baseEntries f) else baseEntries f),
      w.testBit 13 = false := by
    intro w hw
    obtain ⟨x, hx, wide, -, rfl⟩ := (hmem₁ w).1 hw
    rw [Nat.testBit_or, (hclear x hx).2]
    cases wide <;> decide
  obtain ⟨hlen₂, hnodup₂, hmem₂⟩ := copyRates_spec (k := 13) (fun hc => hstart (.inr hc)) hnodup₁
    hclear₁
  refine ⟨?_, hnodup₂, fun w => (hmem₂ w).trans ?_⟩
  · rw [numRates_eq, ← hlen₁]
    exact hlen₂
  · constructor
    · rintro ⟨x, hx, short, hshort, rfl⟩
      obtain ⟨y, hy, wide, hwide, rfl⟩ := (hmem₁ x).1 hx
      obtain ⟨p, hp, mcs, hlow, hhigh, rfl⟩ := mem_baseEntries.1 hy
      exact ⟨p, hp, mcs, hlow, hhigh, wide, short, hwide, hshort, rfl⟩
    · rintro ⟨p, hp, mcs, hlow, hhigh, wide, short, hwide, hshort, rfl⟩
      have hy := mem_baseEntries.2 ⟨p, hp, mcs, hlow, hhigh, rfl⟩
      exact ⟨_, (hmem₁ _).2 ⟨_, hy, wide, hwide, rfl⟩, short, hshort, rfl⟩

/-- When one does, there are fewer entries than were counted. -/
theorem rotateEntries_short {f : RotateFlags} (h : f.Short) (hpos : numRates f ≠ 0) :
    (rotateEntries f).length < numRates f := by
  obtain ⟨hskip, hcopy⟩ := h
  have hstart : startRate f = 2 := if_pos hskip
  rw [numRates_eq] at hpos ⊢
  unfold rotateEntries
  cases hwide : f.ht40 <;> cases hshort : f.sgi <;>
    simp only [hwide, hshort, Bool.false_eq_true, if_true, if_false, or_self,
      length_copyRates] at hcopy hpos ⊢ <;> omega

/-! ## Writes and transmissions -/

/-- The rotation of the flags after `n` transmissions. -/
def Rotation.turned (f : RotateFlags) (n : ℕ) : Rotation where
  rotateRates := 1
  lastRotateRate := n % numRates f
  rotateRateTotal := numRates f
  rotateRateArray := some ⟨numRates f, rotateEntries f⟩

/-- The rotation over a run, with a record of what happened. -/
structure RotateRun where
  rot : Rotation
  /-- The number of the last write that went through. -/
  val : ℕ
  /-- The words of the rotated transmissions since then. -/
  used : List (Option ℕ)
  /-- The rotation before and after each write that failed. -/
  failed : List (Rotation × Rotation)

inductive RotateAct
  | write (w : RatesWrite)
  /-- A data frame is sent. -/
  | tx (wowlan : Bool) (cmd : TxRate)

namespace RotateRun

def init : RotateRun where
  rot := .disabled
  val := 0
  used := []
  failed := []

section Step

variable (kstrtoul : Bytes → Except Errno ℕ)

def write (s : RotateRun) (w : RatesWrite) : RotateRun :=
  match iwlDbgfsRotateRatesWrite kstrtoul s.rot w with
  | (rot, .error _) => { s with rot := rot, failed := s.failed ++ [(s.rot, rot)] }
  | (rot, .ok _) =>
    { s with rot := rot, val := (w.parse kstrtoul).toOption.getD 0, used := [] }

def tx (s : RotateRun) (wowlan : Bool) (cmd : TxRate) : RotateRun :=
  let (rot, cmd) := iwlagnTxCmdBuildRate s.rot wowlan cmd
  if s.rot.rotateRates ≠ 0 then { s with rot := rot, used := s.used ++ [cmd.rateNFlags] }
  else { s with rot := rot }

def step (s : RotateRun) : RotateAct → Option RotateRun
  | .write w => some (s.write kstrtoul w)
  | .tx wowlan cmd => some (s.tx wowlan cmd)

end Step

/-- The rotation that `val` asks for is in force. -/
structure InForce (s : RotateRun) (arr : RateArray) : Prop where
  array : s.rot.rotateRateArray = some arr
  total_pos : 0 < s.rot.rotateRateTotal
  last_lt : s.rot.lastRotateRate < s.rot.rotateRateTotal
  /-- Every entry below the total is written, and inside the array. -/
  written : arr.entries.length = s.rot.rotateRateTotal ∧ arr.size = s.rot.rotateRateTotal
  nodup : arr.entries.Nodup
  selected : ∀ w, w ∈ arr.entries ↔ Selected (.ofVal s.val) w
  /-- Any so many transmissions, one after another, use each entry once. -/
  rounds : ∀ window, window <:+: s.used → window.length = s.rot.rotateRateTotal →
    window.Perm (arr.entries.map some)

/-- Failed writes have changed nothing, and a rotation is the one that was asked for. -/
def Good (s : RotateRun) : Prop :=
  (∀ f ∈ s.failed, f.1 = f.2) ∧ (s.rot.rotateRates ≠ 0 → ∃ arr, s.InForce arr)

/-! ## The invariant -/

/-- The rotation is off, or stands where the transmissions have brought it. -/
def Inv (s : RotateRun) : Prop :=
  s.rot = .disabled ∨
    numRates (.ofVal s.val) ≠ 0 ∧ s.rot = .turned (.ofVal s.val) s.used.length ∧
      s.used = Ring.around (numRates (.ofVal s.val)) (rotateEntries (.ofVal s.val)) s.used.length

/-- The condition on a step: a write that goes through does not ask for `SKIP` together with `HT40`
or `SGI`, and a write that selects nothing, or finds no memory, finds no rotation in force. -/
def Sound (kstrtoul : Bytes → Except Errno ℕ) (s : RotateRun) : RotateAct → Prop
  | .write w =>
    match w.parse kstrtoul with
    | .error _ => True
    | .ok val =>
      val = 0 ∨
        if numRates (.ofVal val) = 0 ∨ w.alloc = false then s.rot.rotateRates = 0
        else ¬ (RotateFlags.ofVal val).Short
  | .tx _ _ => True

instance (kstrtoul : Bytes → Except Errno ℕ) (s : RotateRun) (a : RotateAct) :
    Decidable (s.Sound kstrtoul a) := by
  unfold Sound
  split
  · split <;> infer_instance
  · infer_instance

variable {kstrtoul : Bytes → Except Errno ℕ} {s s' : RotateRun} {a : RotateAct}

/-- **What a write does** to a rotation that is off or on. -/
theorem write_cases (h : s.Inv) (w : RatesWrite) :
    (∃ e, w.parse kstrtoul = .error e ∧
      s.write kstrtoul w = { s with failed := s.failed ++ [(s.rot, s.rot)] }) ∨
    (w.parse kstrtoul = .ok 0 ∧
      s.write kstrtoul w = { s with rot := .disabled, val := 0, used := [] }) ∨
    (∃ val, w.parse kstrtoul = .ok val ∧ val ≠ 0 ∧
      (numRates (.ofVal val) = 0 ∨ w.alloc = false) ∧
      s.write kstrtoul w =
        { s with rot := .disabled, failed := s.failed ++ [(s.rot, .disabled)] }) ∨
    ∃ val, w.parse kstrtoul = .ok val ∧ val ≠ 0 ∧
      ¬ (numRates (.ofVal val) = 0 ∨ w.alloc = false) ∧
      s.write kstrtoul w = { s with rot := .turned (.ofVal val) 0, val := val, used := [] } := by
  have hoff : (if s.rot.rotateRates ≠ 0 then .disabled else s.rot) = Rotation.disabled := by
    rcases h with h | ⟨-, h, -⟩ <;> rw [h] <;> rfl
  unfold write iwlDbgfsRotateRatesWrite Rotation.setFlags
  cases hparse : w.parse kstrtoul with
  | error e => exact .inl ⟨e, rfl, rfl⟩
  | ok val =>
    dsimp only
    rw [hoff]
    by_cases hval : val = 0
    · subst hval
      exact .inr (.inl ⟨rfl, rfl⟩)
    · rw [if_neg hval]
      refine .inr (.inr ?_)
      by_cases hnum : numRates (.ofVal val) = 0
      · rw [if_pos hnum]
        exact .inl ⟨val, rfl, hval, .inl hnum, rfl⟩
      · rw [if_neg hnum]
        by_cases halloc : w.alloc = false
        · rw [if_pos halloc]
          exact .inl ⟨val, rfl, hval, .inr halloc, rfl⟩
        · rw [if_neg halloc]
          refine .inr ⟨val, rfl, hval, not_or.2 ⟨hnum, halloc⟩, ?_⟩
          rw [Rotation.turned, Nat.zero_mod]
          rfl

/-- A data frame moves the rotation on. -/
theorem tx_turned (hrot : s.rot = .turned (.ofVal s.val) s.used.length) (wowlan : Bool)
    (cmd : TxRate) :
    s.tx wowlan cmd = { s with
      rot := .turned (.ofVal s.val) (s.used.length + 1)
      used := s.used ++
        [(rotateEntries (.ofVal s.val))[s.used.length % numRates (.ofVal s.val)]?] } := by
  simp [tx, iwlagnTxCmdBuildRate, hrot, Rotation.turned]

theorem tx_disabled (hrot : s.rot = .disabled) (wowlan : Bool) (cmd : TxRate) :
    s.tx wowlan cmd = s := by
  obtain ⟨rot, val, used, failed⟩ := s
  obtain rfl : rot = .disabled := hrot
  rfl

theorem inv_step (h : s.Inv) (hstep : s.step kstrtoul a = some s') : s'.Inv := by
  cases a with
  | write w =>
    cases hstep
    rcases write_cases h w with ⟨e, -, hw⟩ | ⟨-, hw⟩ | ⟨val, -, -, -, hw⟩ | ⟨val, -, -, hnum, hw⟩
    · rw [hw]
      exact h
    · rw [hw]
      exact .inl rfl
    · rw [hw]
      exact .inl rfl
    · rw [hw]
      exact .inr ⟨(not_or.1 hnum).1, rfl, rfl⟩
  | tx wowlan cmd =>
    cases hstep
    rcases h with h | ⟨hpos, hrot, hused⟩
    · rw [tx_disabled h]
      exact .inl h
    · rw [tx_turned hrot]
      refine .inr ⟨hpos, ?_, ?_⟩
      · rw [List.length_append]
        rfl
      · rw [List.length_append, List.length_singleton, Ring.around_succ, ← hused]

/-! ## When the rotation is good -/

/-- A rotation that is on is in force exactly when the loops leave nothing out. -/
theorem inForce_iff (hpos : numRates (.ofVal s.val) ≠ 0)
    (hrot : s.rot = .turned (.ofVal s.val) s.used.length)
    (hused : s.used =
      Ring.around (numRates (.ofVal s.val)) (rotateEntries (.ofVal s.val)) s.used.length) :
    (∃ arr, s.InForce arr) ↔ ¬ (RotateFlags.ofVal s.val).Short := by
  constructor
  · rintro ⟨arr, h⟩ hshort
    have harr := h.array
    rw [hrot] at harr
    obtain rfl := Option.some.inj harr
    have hlen := h.written.1
    rw [hrot] at hlen
    exact (rotateEntries_short hshort hpos).ne hlen
  · intro hshort
    obtain ⟨hlen, hnodup, hmem⟩ := rotateEntries_spec hshort
    refine ⟨⟨numRates (.ofVal s.val), rotateEntries (.ofVal s.val)⟩, ?_⟩
    have htotal : s.rot.rotateRateTotal = numRates (.ofVal s.val) := congrArg _ hrot
    refine ⟨congrArg _ hrot, ?_, ?_, ⟨?_, htotal.symm⟩, hnodup, hmem, ?_⟩
    · rw [htotal]
      exact Nat.pos_of_ne_zero hpos
    · rw [hrot]
      exact Nat.mod_lt _ (Nat.pos_of_ne_zero hpos)
    · rw [htotal, hlen]
    · intro window hwindow hwlen
      rw [htotal, ← hlen] at hwlen
      rw [hused, ← hlen] at hwindow
      exact Ring.around_window_perm hwindow hwlen

theorem Inv.rot_eq_disabled_iff (h : s.Inv) : s.rot = .disabled ↔ s.rot.rotateRates = 0 := by
  refine ⟨fun hrot => hrot ▸ rfl, fun hzero => h.resolve_right ?_⟩
  rintro ⟨-, hrot, -⟩
  rw [hrot] at hzero
  cases hzero

/-- A step keeps the rotation good exactly when it meets the condition. -/
theorem good_step (h : s.Inv) (hgood : s.Good) (hstep : s.step kstrtoul a = some s') :
    s'.Good ↔ s.Sound kstrtoul a := by
  have hinv' := inv_step h hstep
  obtain ⟨hfailed, hforce⟩ := hgood
  cases a with
  | write w =>
    cases hstep
    unfold Sound
    dsimp only
    rcases write_cases h w with ⟨e, hparse, hw⟩ | ⟨hparse, hw⟩ | ⟨val, hparse, hval, hwhy, hw⟩ |
      ⟨val, hparse, hval, hwhy, hw⟩
    · rw [hw, hparse]
      refine iff_of_true ⟨List.forall_mem_append.2 ⟨hfailed, ?_⟩, fun hon => ?_⟩ trivial
      · exact List.forall_mem_singleton.2 rfl
      · obtain ⟨arr, harr⟩ := hforce hon
        exact ⟨arr, { harr with }⟩
    · rw [hw, hparse]
      exact iff_of_true ⟨hfailed, fun hon => absurd rfl hon⟩ (.inl rfl)
    · rw [hw, hparse]
      dsimp only
      rw [or_iff_right hval, if_pos hwhy, ← h.rot_eq_disabled_iff]
      constructor
      · exact fun hgood => hgood.1 (s.rot, .disabled) (List.mem_concat_self ..)
      · refine fun hrot => ⟨List.forall_mem_append.2 ⟨hfailed, ?_⟩, fun hon => absurd rfl hon⟩
        exact List.forall_mem_singleton.2 hrot
    · rw [hw] at hinv' ⊢
      rw [hparse]
      dsimp only
      rw [or_iff_right hval, if_neg hwhy]
      have hiff := inForce_iff
        (s := { s with rot := .turned (.ofVal val) 0, val := val, used := [] })
        (not_or.1 hwhy).1 rfl rfl
      refine Iff.trans ⟨fun hgood => hgood.2 Nat.one_ne_zero, fun harr => ⟨hfailed, fun _ => harr⟩⟩
        hiff
  | tx wowlan cmd =>
    cases hstep
    refine iff_of_true ?_ trivial
    rcases h with h | ⟨hpos, hrot, hused⟩
    · rw [tx_disabled h]
      exact ⟨hfailed, hforce⟩
    · have hon : s.rot.rotateRates ≠ 0 := by
        rw [hrot]
        exact Nat.one_ne_zero
      have hshort := (inForce_iff hpos hrot hused).1 (hforce hon)
      rw [tx_turned hrot] at hinv' ⊢
      rcases hinv' with hoff | ⟨hpos', hrot', hused'⟩
      · cases hoff
      · exact ⟨hfailed, fun _ => (inForce_iff hpos' hrot' hused').2 hshort⟩

/-- **Rotating rates.** In every state of a run the rotation is the one that was asked for, and
failed writes change nothing, if and only if the steps meet the condition. -/
theorem rotate_rates_iff {acts : List RotateAct}
    (hrun : Lts.exec (step kstrtoul) init acts = some s) :
    (∀ acts' s', acts' <+: acts → Lts.exec (step kstrtoul) init acts' = some s' → s'.Good) ↔
      Lts.Meets (step kstrtoul) (Sound kstrtoul) init acts :=
  Lts.always_iff (step kstrtoul) (I := Inv) (P := Good) (fun _ _ _ => inv_step)
    (fun _ _ _ => good_step) (.inl rfl) ⟨by simp [init], fun h => absurd rfl h⟩ hrun

/-! ## Runs -/

/-- A decimal number that ends at the first zero byte. -/
def kstrtoulDecimal (buf : Bytes) : Except Errno ℕ :=
  let digits := buf.takeWhile (· ≠ 0)
  if digits = [] ∨ digits.any (fun d => d < 48 || 57 < d) then .error .einval
  else .ok (digits.foldl (fun num d => num * 10 + (d.toNat - 48)) 0)

/-- The write of a text for which there is memory. -/
def writeText (text : Bytes) : RotateAct := .write ⟨text.length, some text, true⟩

def dataFrame : RotateAct := .tx false ⟨false, none, 0, 0, 0⟩

/-- `17` selects the rates of one stream at both widths. -/
def sisoHt40 : List RotateAct := [writeText [49, 55], dataFrame, dataFrame]

theorem rotate_rates_iff_sisoHt40 :
    ∃ s, Lts.exec (step kstrtoulDecimal) init sisoHt40 = some s ∧
      s.used = [some 0x4100, some 0x4101] ∧
      ∀ acts' s', acts' <+: sisoHt40 →
        Lts.exec (step kstrtoulDecimal) init acts' = some s' → s'.Good := by
  have hused : (Lts.exec (step kstrtoulDecimal) init sisoHt40).map (fun s => s.used) =
      some [some 0x4100, some 0x4101] := by decide +kernel
  obtain ⟨s, hs, hused⟩ := Option.map_eq_some_iff.1 hused
  exact ⟨s, hs, hused, (rotate_rates_iff hs).2 (by decide +kernel)⟩

/-- `81` does so as well, without the two lowest rates. -/
def sisoHt40Skip : List RotateAct := [writeText [56, 49]]

/-- **Two entries are never written**: the copy loop begins behind two rates that the array does
hold. -/
theorem rotate_rates_unwritten :
    ∃ s, Lts.exec (step kstrtoulDecimal) init sisoHt40Skip = some s ∧ ¬ s.Good := by
  have hrot : (Lts.exec (step kstrtoulDecimal) init sisoHt40Skip).map (fun s =>
      (s.rot.rotateRates, s.rot.rotateRateTotal, s.rot.rotateRateArray.map (·.entries.length))) =
      some (1, 12, some 10) := by decide +kernel
  obtain ⟨s, hs, hrot⟩ := Option.map_eq_some_iff.1 hrot
  simp only [Prod.mk.injEq] at hrot
  obtain ⟨hon, htotal, harray⟩ := hrot
  refine ⟨s, hs, fun hgood => ?_⟩
  obtain ⟨arr, harr⟩ := hgood.2 (by rw [hon]; exact Nat.one_ne_zero)
  have hlen := harr.written.1
  rw [harr.array, Option.map_some, Option.some.injEq] at harray
  rw [harray, htotal] at hlen
  cases hlen

end RotateRun

end Iax.Dvm
