import Iax.Lib.Bytes
import Mathlib.Tactic.SplitIfs

/-!
# The CSI configuration

The files `csi_enabled`, `csi_count`, `csi_timeout`, `csi_frame_types` and `csi_interval` set one
record, `mvm->csi_cfg`, which `iwl_mvm_send_csi_cmd` sends to the firmware (`mvm/debugfs.c`,
`mvm/utils.c`).

* `encodes_iwlMvmSendCsiCmd`: a command says what is in the record.
* `csiSet` is what a file does with a value that was written to it, `csiRead` the text that is read.
* `CsiFlagsOk` relates the flags to the values, and every setter keeps it (`CsiFlagsOk.csiSet`).
* `csiRead_csiSet_self`: a value that was set is read back.
-/

namespace Iax.Mvm

open Bytes

/-! ## The record -/

/-- `BIT(n)`. -/
def bit (n : ℕ) : BitVec 32 := BitVec.twoPow 32 n

/-- `enum iwl_channel_estimation_flags`. -/
inductive CsiFlag
  | enable | timer | counter | interval
  deriving DecidableEq

/-- The number of the bit. -/
def CsiFlag.num : CsiFlag → ℕ
  | .enable => 0
  | .timer => 1
  | .counter => 2
  | .interval => 3

/-- `csi_cfg`, of `filter_addrs` the `num_filter_addrs` that are in use. -/
structure CsiCfg where
  flags : BitVec 32
  timer : BitVec 32
  count : BitVec 32
  frameTypes : BitVec 64
  rateNFlagsVal : BitVec 32
  rateNFlagsMask : BitVec 32
  interval : BitVec 32
  filterAddrs : List (Vector UInt8 6)
  numFilterAddrs_le : filterAddrs.length ≤ 20
  deriving DecidableEq

namespace CsiCfg

/-- What `iwl_op_mode_mvm_start` leaves: everything zero but the frame types. -/
def init : CsiCfg where
  flags := 0
  timer := 0
  count := 0
  frameTypes := ~~~0
  rateNFlagsVal := 0
  rateNFlagsMask := 0
  interval := 0
  filterAddrs := []
  numFilterAddrs_le := Nat.zero_le _

variable (cfg : CsiCfg) (f : CsiFlag)

/-- `flags & IWL_CHANNEL_ESTIMATION_...`. -/
def has : Bool := cfg.flags &&& bit f.num != 0

/-- `flags |= IWL_CHANNEL_ESTIMATION_...`. -/
def set : CsiCfg := { cfg with flags := cfg.flags ||| bit f.num }

/-- `flags &= ~IWL_CHANNEL_ESTIMATION_...`. -/
def clear : CsiCfg := { cfg with flags := cfg.flags &&& ~~~bit f.num }

end CsiCfg

namespace CsiCfg

variable (cfg : CsiCfg) (f g : CsiFlag)

theorem has_eq : cfg.has f = cfg.flags.getLsbD f.num := by
  have hbit : bit f.num ≠ 0 := by cases f <;> decide
  cases h : cfg.flags.getLsbD f.num with
  | false => simp [has, bit, BitVec.and_twoPow, h]
  | true => simpa [has, bit, BitVec.and_twoPow, h] using hbit

theorem num_inj {f g : CsiFlag} : f.num = g.num ↔ f = g := by
  cases f <;> cases g <;> decide

theorem num_lt : f.num < 32 := by
  cases f <;> decide

@[simp] theorem has_set : (cfg.set f).has g = (cfg.has g || f = g) := by
  rw [has_eq, has_eq, set, BitVec.getLsbD_or, bit, BitVec.getLsbD_twoPow]
  simp [num_lt, num_inj]

@[simp] theorem has_clear : (cfg.clear f).has g = (cfg.has g && f ≠ g) := by
  rw [has_eq, has_eq, clear, BitVec.getLsbD_and, BitVec.getLsbD_not, bit, BitVec.getLsbD_twoPow]
  simp [num_lt, num_inj]

/-- Clearing a flag that is set and setting it again. -/
theorem set_clear (h : cfg.has f = true) : (cfg.clear f).set f = cfg := by
  rw [has_eq] at h
  have hflags : ((cfg.clear f).set f).flags = cfg.flags := by
    refine BitVec.eq_of_getLsbD_eq fun i hi => ?_
    by_cases heq : f.num = i
    · subst heq
      simp [set, bit, h, hi]
    · simp [set, clear, bit, Ne.symm heq, hi]
  cases cfg
  simpa [set, clear] using hflags

theorem clear_eq_self (h : cfg.has f = false) : cfg.clear f = cfg := by
  rw [has_eq] at h
  have hflags : (cfg.clear f).flags = cfg.flags := by
    refine BitVec.eq_of_getLsbD_eq fun i hi => ?_
    by_cases heq : f.num = i
    · subst heq
      simp [clear, bit, BitVec.getLsbD_twoPow, h]
    · simp [clear, bit, Ne.symm heq, hi]
  cases cfg
  simpa [clear] using hflags

end CsiCfg

/-! ## The command -/

/-- `struct iwl_channel_estimation_cfg`, filled in by `iwl_mvm_send_csi_cmd`. An address takes 8
bytes, the last two of them reserved. -/
def channelEstimationCfg (cfg : CsiCfg) : Bytes :=
  leBytes 4 cfg.flags.toNat ++ (leBytes 4 cfg.timer.toNat ++ (leBytes 4 cfg.count.toNat ++
    (leBytes 4 cfg.rateNFlagsMask.toNat ++ (leBytes 4 cfg.rateNFlagsVal.toNat ++
      (leBytes 4 cfg.interval.toNat ++ (leBytes 8 cfg.frameTypes.toNat ++
        (leBytes 4 cfg.filterAddrs.length ++
          (cfg.filterAddrs.flatMap (fun a => a.toList ++ [0, 0]) ++
            List.replicate (8 * (20 - cfg.filterAddrs.length)) 0))))))))

/-- `sizeof(struct iwl_channel_estimation_cfg_v1)`. -/
def sizeofCfgV1 : ℕ := 32

/-- What `iwl_mvm_send_csi_cmd` sends, `v2` being `IWL_UCODE_TLV_CAPA_CSI_REPORTING_V2`. -/
def iwlMvmSendCsiCmd (v2 : Bool) (cfg : CsiCfg) : Bytes :=
  if v2 then channelEstimationCfg cfg else (channelEstimationCfg cfg).take sizeofCfgV1

/-- The `n` bytes at offset `o`. -/
def bytesAt (cmd : Bytes) (o n : ℕ) : Bytes := (cmd.drop o).take n

/-- The command says what is in the record. The short one has no room for the addresses. -/
structure Encodes (v2 : Bool) (cmd : Bytes) (cfg : CsiCfg) : Prop where
  flags : leNat (bytesAt cmd 0 4) = cfg.flags.toNat
  timer : leNat (bytesAt cmd 4 4) = cfg.timer.toNat
  count : leNat (bytesAt cmd 8 4) = cfg.count.toNat
  rateNFlagsMask : leNat (bytesAt cmd 12 4) = cfg.rateNFlagsMask.toNat
  rateNFlagsVal : leNat (bytesAt cmd 16 4) = cfg.rateNFlagsVal.toNat
  interval : leNat (bytesAt cmd 20 4) = cfg.interval.toNat
  frameTypes : leNat (bytesAt cmd 24 8) = cfg.frameTypes.toNat
  length : cmd.length = if v2 then 196 else 32
  numFilterAddrs : v2 = true → leNat (bytesAt cmd 32 4) = cfg.filterAddrs.length
  filterAddrs : v2 = true → ∀ i (h : i < cfg.filterAddrs.length),
    bytesAt cmd (36 + 8 * i) 6 = cfg.filterAddrs[i].toList

theorem bytesAt_leBytes {k n : ℕ} {b : Bytes} (h : n = k) (v : ℕ) :
    bytesAt (leBytes k v ++ b) 0 n = leBytes k v := by
  subst h
  exact List.take_left' (length_leBytes n v)

theorem bytesAt_append {a b : Bytes} {o n : ℕ} (h : a.length ≤ o) :
    bytesAt (a ++ b) o n = bytesAt b (o - a.length) n := by
  rw [bytesAt, List.drop_append, List.drop_of_length_le h, List.nil_append, bytesAt]

theorem bytesAt_leBytes_append {k v : ℕ} {b : Bytes} {o n : ℕ} (h : k ≤ o) :
    bytesAt (leBytes k v ++ b) o n = bytesAt b (o - k) n := by
  rw [bytesAt_append (by rwa [length_leBytes]), length_leBytes]

theorem bytesAt_take {cmd : Bytes} {m o n : ℕ} (h : o + n ≤ m) :
    bytesAt (cmd.take m) o n = bytesAt cmd o n := by
  rw [bytesAt, bytesAt, List.drop_take, List.take_take, Nat.min_eq_left (by omega)]

/-- The addresses of a command. -/
theorem bytesAt_addrs (addrs : List (Vector UInt8 6)) (b : Bytes) {i : ℕ} (h : i < addrs.length) :
    bytesAt (addrs.flatMap (fun a => a.toList ++ [0, 0]) ++ b) (8 * i) 6 = addrs[i].toList := by
  induction addrs generalizing i with
  | nil => simp at h
  | cons a addrs ih =>
    rw [List.flatMap_cons, List.append_assoc]
    cases i with
    | zero =>
      rw [List.append_assoc]
      exact List.take_left' (by simp)
    | succ i =>
      have hlen : (a.toList ++ [0, 0]).length = 8 := by simp
      rw [bytesAt_append (by omega), hlen, show 8 * (i + 1) - 8 = 8 * i by omega,
        ih (by simpa using h)]
      rfl

theorem length_addrs (addrs : List (Vector UInt8 6)) :
    (addrs.flatMap fun a => a.toList ++ [(0 : UInt8), 0]).length = 8 * addrs.length := by
  induction addrs with
  | nil => rfl
  | cons a addrs ih =>
    rw [List.flatMap_cons, List.length_append, ih, List.length_cons]
    simp
    omega

theorem length_channelEstimationCfg (cfg : CsiCfg) : (channelEstimationCfg cfg).length = 196 := by
  have hle := cfg.numFilterAddrs_le
  simp only [channelEstimationCfg, List.length_append, length_leBytes, length_addrs,
    List.length_replicate]
  omega

/-- **The command** says what is in the record. -/
theorem encodes_iwlMvmSendCsiCmd (v2 : Bool) (cfg : CsiCfg) :
    Encodes v2 (iwlMvmSendCsiCmd v2 cfg) cfg := by
  have hword (v : BitVec 32) : leNat (leBytes 4 v.toNat) = v.toNat := leNat_leBytes_of_lt v.isLt
  have hlong (v : BitVec 64) : leNat (leBytes 8 v.toNat) = v.toNat := leNat_leBytes_of_lt v.isLt
  have hbytes {o n : ℕ} (h : o + n ≤ 32) :
      bytesAt (iwlMvmSendCsiCmd v2 cfg) o n = bytesAt (channelEstimationCfg cfg) o n := by
    unfold iwlMvmSendCsiCmd
    split
    · rfl
    · exact bytesAt_take h
  have hnum : cfg.filterAddrs.length < 256 ^ 4 := by
    have hle := cfg.numFilterAddrs_le
    omega
  constructor
  case length =>
    unfold iwlMvmSendCsiCmd
    split <;> simp [sizeofCfgV1, length_channelEstimationCfg]
  case numFilterAddrs =>
    intro hv2
    simp [iwlMvmSendCsiCmd, hv2, channelEstimationCfg, bytesAt_leBytes_append, bytesAt_leBytes,
      leNat_leBytes_of_lt hnum]
  case filterAddrs =>
    intro hv2 i hi
    rw [iwlMvmSendCsiCmd, if_pos hv2, channelEstimationCfg]
    simp (disch := omega) only [bytesAt_leBytes_append]
    rw [show 36 + 8 * i - 4 - 4 - 4 - 4 - 4 - 4 - 8 - 4 = 8 * i by omega, bytesAt_addrs _ _ hi]
  all_goals
    simp [hbytes, channelEstimationCfg, bytesAt_leBytes_append, bytesAt_leBytes, hword, hlong]

/-! ## The setters -/

/-- The errors of a write. -/
inductive Errno
  | einval | erange | efault
  /-- what the transport reports of a command -/
  | transport (n : ℕ)
  deriving DecidableEq

/-- What a setter has done after it has its value. -/
structure Setting where
  cfg : CsiCfg
  result : Except Errno Unit
  sent : Option Bytes

/-- The firmware as a command finds it. -/
structure FwState where
  running : Bool
  ret : Except Errno Unit

/-- The five files. -/
inductive CsiFile
  | enabled | count | timeout | frameTypes | interval
  deriving DecidableEq

namespace CsiFile

/-- What a line of the file stands for. -/
abbrev Val : CsiFile → Type
  | .enabled => Bool
  | .count => BitVec 64
  | .timeout => BitVec 64
  | .frameTypes => BitVec 64
  | .interval => BitVec 32

/-- The size of the wrapper's buffer. -/
def bufLen : CsiFile → ℕ
  | .enabled => 8
  | .count => 32
  | .timeout => 32
  | .frameTypes => 32
  | .interval => 32

end CsiFile

/-- The setter of `iwl_dbgfs_csi_enabled_write`. -/
def setEnabled (v2 : Bool) (fw : FwState) (cfg : CsiCfg) (enabled : Bool) : Setting :=
  -- disable -> disable is a no-op
  if !enabled && !cfg.has .enable then ⟨cfg, .ok (), none⟩
  else
    let cleared := cfg.clear .enable
    let cfg := if enabled then cleared.set .enable else cleared
    if fw.running then ⟨cfg, fw.ret, some (iwlMvmSendCsiCmd v2 cfg)⟩ else ⟨cfg, .ok (), none⟩

/-- The setter of `iwl_dbgfs_csi_count_write`. -/
def setCount (cfg : CsiCfg) (ctr : BitVec 64) : Setting :=
  if ctr.toInt ≤ 0 then ⟨{ cfg.clear .counter with count := 0 }, .ok (), none⟩
  else if ctr.toInt ≤ 2 ^ 32 - 1 then
    ⟨{ cfg.set .counter with count := ctr.setWidth 32 }, .ok (), none⟩
  else ⟨cfg, .error .erange, none⟩

/-- The setter of `iwl_dbgfs_csi_timeout_write`. -/
def setTimeout (cfg : CsiCfg) (timer : BitVec 64) : Setting :=
  if timer.toInt < 0 then ⟨{ cfg.clear .timer with timer := 0 }, .ok (), none⟩
  else if timer.toInt ≤ 2 ^ 32 - 1 then
    ⟨{ cfg.set .timer with timer := timer.setWidth 32 }, .ok (), none⟩
  else ⟨cfg, .error .erange, none⟩

/-- The setter of `iwl_dbgfs_csi_frame_types_write`. -/
def setFrameTypes (cfg : CsiCfg) (frameTypes : BitVec 64) : Setting :=
  ⟨{ cfg with frameTypes := frameTypes }, .ok (), none⟩

/-- The setter of `iwl_dbgfs_csi_interval_write`. -/
def setInterval (cfg : CsiCfg) (interval : BitVec 32) : Setting :=
  let cfg := { cfg with interval := interval }
  ⟨if interval ≠ 0 then cfg.set .interval else cfg.clear .interval, .ok (), none⟩

/-- What the setter does with the value. -/
def csiSet (v2 : Bool) (fw : FwState) : (f : CsiFile) → CsiCfg → f.Val → Setting
  | .enabled => setEnabled v2 fw
  | .count => setCount
  | .timeout => setTimeout
  | .frameTypes => setFrameTypes
  | .interval => setInterval

section Set

variable (v2 : Bool) (fw : FwState) (cfg : CsiCfg)

/-- What is sent is made from the record as it is then. -/
theorem csiSet_sent {f : CsiFile} {v : f.Val} {cmd : Bytes}
    (h : (csiSet v2 fw f cfg v).sent = some cmd) :
    cmd = iwlMvmSendCsiCmd v2 (csiSet v2 fw f cfg v).cfg := by
  cases f with
  | enabled =>
    simp only [csiSet, setEnabled] at h ⊢
    split_ifs at h ⊢ <;> simp_all
  | count =>
    simp only [csiSet, setCount] at h
    split_ifs at h
  | timeout =>
    simp only [csiSet, setTimeout] at h
    split_ifs at h
  | frameTypes => simp [csiSet, setFrameTypes] at h
  | interval => simp [csiSet, setInterval] at h

/-- A setter that fails leaves the record as it was, but for a command that fails. -/
theorem csiSet_error {f : CsiFile} (hf : f ≠ .enabled) {v : f.Val} {e : Errno}
    (h : (csiSet v2 fw f cfg v).result = .error e) : (csiSet v2 fw f cfg v).cfg = cfg := by
  cases f with
  | enabled => exact absurd rfl hf
  | count =>
    simp only [csiSet, setCount] at h ⊢
    split_ifs at h ⊢
    rfl
  | timeout =>
    simp only [csiSet, setTimeout] at h ⊢
    split_ifs at h ⊢
    rfl
  | frameTypes => simp [csiSet, setFrameTypes] at h
  | interval => simp [csiSet, setInterval] at h

theorem setEnabled_eq (enabled : Bool) : (setEnabled v2 fw cfg enabled).cfg =
    if enabled then (cfg.clear .enable).set .enable else cfg.clear .enable := by
  unfold setEnabled
  split_ifs with h₁ h₂ h₃
  all_goals simp_all [CsiCfg.clear_eq_self]

end Set

/-! ## Reading -/

/-- `"%lld\n"`. -/
def lld (n : ℤ) : String := toString n ++ "\n"

/-- `"0x%llx\n"`. -/
def llx (n : ℕ) : String := "0x" ++ String.ofList (Nat.toDigits 16 n) ++ "\n"

/-- `"%u\n"`. -/
def fmtU (n : ℕ) : String := toString n ++ "\n"

/-- The text of a `read`, `iwl_dbgfs_csi_..._read`. None is longer than its buffer of 32 bytes. -/
def csiRead : CsiFile → CsiCfg → String
  | .enabled, cfg => if cfg.has .enable then "1\n" else "0\n"
  | .count, cfg => lld (if cfg.has .counter then cfg.count.toNat else -1)
  | .timeout, cfg => lld (if cfg.has .timer then cfg.timer.toNat else -1)
  | .frameTypes, cfg => llx cfg.frameTypes.toNat
  | .interval, cfg => fmtU cfg.interval.toNat

/-- A value as it is to be read back. -/
def shown : (f : CsiFile) → f.Val → String
  | .enabled, enabled => if enabled then "1\n" else "0\n"
  | .count, ctr => lld (if BitVec.toInt ctr ≤ 0 then -1 else BitVec.toInt ctr)
  | .timeout, timer => lld (if BitVec.toInt timer < 0 then -1 else BitVec.toInt timer)
  | .frameTypes, types => llx (BitVec.toNat types)
  | .interval, interval => fmtU (BitVec.toNat interval)

/-- The flags agree with the values. -/
structure CsiFlagsOk (cfg : CsiCfg) : Prop where
  counter : cfg.has .counter = true ↔ 0 < cfg.count.toNat
  interval : cfg.has .interval = true ↔ cfg.interval ≠ 0
  timer : cfg.has .timer = false → cfg.timer = 0

section State

variable (v2 : Bool) (fw : FwState) {cfg : CsiCfg} {f : CsiFile} {v : f.Val}

theorem toNat_setWidth_of_toInt {ctr : BitVec 64} (h₀ : 0 ≤ ctr.toInt)
    (h : ctr.toInt ≤ 2 ^ 32 - 1) : ((ctr.setWidth 32).toNat : ℤ) = ctr.toInt := by
  rw [BitVec.toInt_eq_toNat_cond] at *
  rw [BitVec.toNat_setWidth]
  split_ifs at * <;> omega

attribute [local simp] csiRead CsiCfg.has_eq CsiCfg.set CsiCfg.clear bit CsiFlag.num

/-- The other files read as before. -/
theorem csiRead_csiSet_of_ne {g : CsiFile} (hne : g ≠ f) :
    csiRead g (csiSet v2 fw f cfg v).cfg = csiRead g cfg := by
  cases f with
  | enabled =>
    rw [csiSet, setEnabled_eq]
    cases g <;> simp at hne ⊢ <;> split <;> simp
  | count =>
    simp only [csiSet, setCount]
    split_ifs <;> cases g <;> simp at hne ⊢
  | timeout =>
    simp only [csiSet, setTimeout]
    split_ifs <;> cases g <;> simp at hne ⊢
  | frameTypes =>
    cases g <;> simp [csiSet, setFrameTypes] at hne ⊢
  | interval =>
    simp only [csiSet, setInterval]
    split_ifs <;> cases g <;> simp at hne ⊢

/-- A file whose setter succeeds reads back what was set. -/
theorem csiRead_csiSet_self (h : (csiSet v2 fw f cfg v).result = .ok ()) :
    csiRead f (csiSet v2 fw f cfg v).cfg = shown f v := by
  cases f with
  | enabled =>
    rw [csiSet, setEnabled_eq]
    cases v <;> simp [shown]
  | count =>
    simp only [csiSet, setCount] at h ⊢
    split_ifs at h ⊢ with h₀ h₁
    · simp [shown, h₀]
    · have hw := toNat_setWidth_of_toInt (not_le.1 h₀).le h₁
      simp [shown, h₀, hw, -BitVec.toNat_setWidth]
  | timeout =>
    simp only [csiSet, setTimeout] at h ⊢
    split_ifs at h ⊢ with h₀ h₁
    · simp [shown, h₀]
    · have hw := toNat_setWidth_of_toInt (not_lt.1 h₀) h₁
      simp [shown, h₀, hw, -BitVec.toNat_setWidth]
  | frameTypes => rfl
  | interval =>
    simp only [csiSet, setInterval]
    split_ifs <;> rfl

/-- A setter keeps the flags in agreement with the values. -/
theorem CsiFlagsOk.csiSet (h : CsiFlagsOk cfg) : CsiFlagsOk (csiSet v2 fw f cfg v).cfg := by
  obtain ⟨hcounter, hinterval, htimer⟩ := h
  cases f with
  | enabled =>
    rw [Mvm.csiSet, setEnabled_eq]
    split <;> constructor <;> simp_all
  | count =>
    simp only [Mvm.csiSet, setCount]
    split_ifs with h₀ h₁
    · constructor <;> simp_all
    · have hw := toNat_setWidth_of_toInt (not_le.1 h₀).le h₁
      have hpos : 0 < (BitVec.setWidth 32 v).toNat := by omega
      constructor <;> simp_all [-BitVec.toNat_setWidth]
    · exact ⟨hcounter, hinterval, htimer⟩
  | timeout =>
    simp only [Mvm.csiSet, setTimeout]
    split_ifs
    · constructor <;> simp_all
    · constructor <;> simp_all
    · exact ⟨hcounter, hinterval, htimer⟩
  | frameTypes => constructor <;> simp_all [Mvm.csiSet, setFrameTypes]
  | interval =>
    simp only [Mvm.csiSet, setInterval]
    split_ifs <;> constructor <;> simp_all

end State

end Iax.Mvm
