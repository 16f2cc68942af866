import Iax.Lib.Lts
import Iax.Mvm.CsiConfig
import Mathlib.Data.List.TakeWhile

/-!
# The files of the CSI configuration

A write to one of the five files of `mvm/debugfs.c`, with the wrapper of `mvm/debugfs.h` around it,
and runs of such writes.

* `csiWrite` is one write: what it makes of the configuration, what it returns, which offsets from
  its buffer it touches and what it sends.
* `csiWrite_of_ne_nil`: a write of at least one byte stays in the buffer and works on the line that
  was written.
* `CsiStateOk` is what holds of the configuration and of what was written last, `CsiStepOk` what one
  step has to do.
* `csi_config_iff`: a run keeps both if and only if no write is empty and no command fails that
  changes the enable bit.
-/

namespace Iax.Mvm

open Bytes

/-! ## Lines -/

/-- The kernel's functions that parse a string. None of them accepts the empty string. -/
structure Kstrto where
  toBool : Bytes → Except Errno Bool
  toS64 : Bytes → Except Errno (BitVec 64)
  toU64 : Bytes → Except Errno (BitVec 64)
  toU32 : Bytes → Except Errno (BitVec 32)
  toBool_nil : ∃ e, toBool [] = .error e
  toS64_nil : ∃ e, toS64 [] = .error e
  toU64_nil : ∃ e, toU64 [] = .error e
  toU32_nil : ∃ e, toU32 [] = .error e

/-- The stack around a buffer, by the offset from the buffer. -/
abbrev Stack := ℤ → UInt8

/-- The string at offset `o`, looked for in at most `n` bytes. -/
def cstr (mem : Stack) : ℕ → ℤ → Bytes
  | 0, _ => []
  | n + 1, o => if mem o = 0 then [] else mem o :: cstr mem n (o + 1)

/-- A file's line feed. -/
def lineFeed : UInt8 := 10

/-- The offsets from `0` to before `n`. -/
def offsets (n : ℕ) : List ℤ := (List.range n).map (↑)

/-- What a write has done. -/
structure Outcome where
  cfg : CsiCfg
  result : Except Errno ℕ
  touched : List ℤ
  sent : Option Bytes

/-- The frame that the setters share: the last character, which has to be a line feed and is
overwritten, the parser, which reads the string and its end, and the setter proper. -/
def withLine {α : Type} (parse : Bytes → Except Errno α) (size : ℕ) (cfg : CsiCfg) (mem : Stack)
    (count : ℕ) (set : α → Setting) : Outcome :=
  let last : ℤ := count - 1
  if mem last ≠ lineFeed then ⟨cfg, .error .einval, [last], none⟩
  else
    let s := cstr (Function.update mem last 0) (size + 1) 0
    let touched := [last, last] ++ offsets (s.length + 1)
    match parse s with
    | .error e => ⟨cfg, .error e, touched, none⟩
    | .ok v =>
      let r := set v
      ⟨r.cfg, r.result.map fun _ => count, touched, r.sent⟩

/-! ## Writes -/

section Files

variable (K : Kstrto) (v2 : Bool) (fw : FwState)

/-- The parser that the file's setter uses. -/
def csiParse : (f : CsiFile) → Bytes → Except Errno f.Val
  | .enabled => K.toBool
  | .count => K.toS64
  | .timeout => K.toS64
  | .frameTypes => K.toU64
  | .interval => K.toU32

/-- A `write` call: the bytes of the caller, whether the kernel fails to copy them, and what is on
the stack before. -/
structure UserWrite where
  user : Bytes
  fault : Bool
  stack : Stack

/-- `_iwl_dbgfs_csi_..._write`: the wrapper's zeroed buffer with the first bytes of the caller, and
then the file's own function. -/
def csiWrite (f : CsiFile) (cfg : CsiCfg) (io : UserWrite) : Outcome :=
  let bufSize := min io.user.length (f.bufLen - 1)
  let mem : Stack := fun o =>
    if 0 ≤ o ∧ o < f.bufLen then (io.user.take bufSize).getD o.toNat 0 else io.stack o
  if io.fault ∧ 0 < bufSize then ⟨cfg, .error .efault, offsets f.bufLen, none⟩
  else
    let r := withLine (csiParse K f) f.bufLen cfg mem bufSize (csiSet v2 fw f cfg)
    { r with touched := offsets f.bufLen ++ r.touched }

end Files

/-! ## Runs -/

/-- The line that a buffer of `size` bytes gets from the caller's bytes: what stands before the line
feed at their end, up to the first zero. -/
def lineOf (size : ℕ) (user : Bytes) : Option Bytes :=
  let bytes := user.take (size - 1)
  if bytes.getLast? = some lineFeed then some (bytes.dropLast.takeWhile (· ≠ 0)) else none

/-- The value that a `write` call stands for. -/
def written (K : Kstrto) (f : CsiFile) (io : UserWrite) : Option f.Val :=
  (lineOf f.bufLen io.user).bind fun s => (csiParse K f s).toOption

/-- The configuration, and for each file the value that the last successful write to it stood for.
In the beginning that is what the driver sets. -/
structure CsiDbg where
  cfg : CsiCfg
  last : (f : CsiFile) → f.Val

def CsiDbg.init : CsiDbg where
  cfg := .init
  last
    | .enabled => false
    | .count => 0
    | .timeout => -1
    | .frameTypes => ~~~0
    | .interval => 0

/-- What happens. -/
inductive CsiAct
  | write (f : CsiFile) (io : UserWrite) (fw : FwState)
  /-- a write to `csi_rate_n_flags_val`, `csi_rate_n_flags_mask` or `csi_addresses` -/
  | filter (val mask : BitVec 32) (addrs : List (Vector UInt8 6)) (h : addrs.length ≤ 20)
  /-- `iwl_mvm_restart_complete`, which sends the command again -/
  | restart

section Runs

variable (K : Kstrto) (v2 : Bool)

/-- One step. -/
def csiCfgStep (s : CsiDbg) : CsiAct → CsiDbg
  | .write f io fw =>
    let r := csiWrite K v2 fw f s.cfg io
    { cfg := r.cfg
      last := match r.result, written K f io with
        | .ok _, some v => Function.update s.last f v
        | _, _ => s.last }
  | .filter val mask addrs h =>
    { s with cfg := { s.cfg with
        rateNFlagsVal := val
        rateNFlagsMask := mask
        filterAddrs := addrs
        numFilterAddrs_le := h } }
  | .restart => s

/-- The commands that a step sends. -/
def csiSent (s : CsiDbg) : CsiAct → Option Bytes
  | .write f io fw => (csiWrite K v2 fw f s.cfg io).sent
  | .filter _ _ _ _ => none
  | .restart => if s.cfg.has .enable then some (iwlMvmSendCsiCmd v2 s.cfg) else none

/-- What one step has to do: a write that returns an error leaves the record as it was and stays in
its buffer, and a command says what is in the record. -/
structure CsiStepOk (s : CsiDbg) (a : CsiAct) : Prop where
  atomic : ∀ f io fw, a = .write f io fw → ∀ e, (csiWrite K v2 fw f s.cfg io).result = .error e →
    (csiCfgStep K v2 s a).cfg = s.cfg ∧
      ∀ o ∈ (csiWrite K v2 fw f s.cfg io).touched, 0 ≤ o ∧ o < f.bufLen
  encodes : ∀ cmd ∈ csiSent K v2 s a, Encodes v2 cmd (csiCfgStep K v2 s a).cfg

/-- What holds in every state: the flags agree with the values, and a file reads back what was
written to it last. -/
structure CsiStateOk (s : CsiDbg) : Prop extends CsiFlagsOk s.cfg where
  read : ∀ f, csiRead f s.cfg = shown f (s.last f)

/-- The law of a run. -/
def CsiLaw (as : List CsiAct) : Prop :=
  Lts.Meets (fun s a => some (csiCfgStep K v2 s a)) (CsiStepOk K v2) .init as ∧
    ∀ bs s, bs <+: as → Lts.exec (fun s a => some (csiCfgStep K v2 s a)) .init bs = some s →
      CsiStateOk s

/-- What a step has to meet: no write is empty, and no command fails that changes the enable bit. -/
def CsiKept (s : CsiDbg) : CsiAct → Prop
  | .write .enabled io fw => io.user ≠ [] ∧ ¬(io.fault = false ∧ fw.running = true ∧
      fw.ret ≠ .ok () ∧ written K .enabled io = some !s.cfg.has .enable)
  | .write _ io _ => io.user ≠ []
  | _ => True

end Runs

/-! ## The line -/

/-- A string that a zero ends is read up to its first zero. -/
theorem cstr_eq {mem : Stack} {l : Bytes} {n : ℕ} {o : ℤ} (hn : l.length < n)
    (hmem : ∀ i : ℕ, mem (o + i) = l.getD i 0 ∨ l.length < i) :
    cstr mem n o = l.takeWhile (· ≠ 0) := by
  induction l generalizing n o with
  | nil =>
    obtain ⟨n, rfl⟩ := Nat.exists_eq_add_of_lt hn
    have h₀ : mem o = 0 := by simpa using hmem 0
    simp [cstr, h₀]
  | cons b l ih =>
    obtain ⟨n, rfl⟩ : ∃ k, n = k + 1 := ⟨n - 1, by omega⟩
    have h₀ : mem o = b := by simpa using hmem 0
    have hrest : cstr mem n (o + 1) = l.takeWhile (· ≠ 0) := by
      refine ih (by simpa using hn) fun i => ?_
      simpa [add_assoc, add_comm (1 : ℤ)] using hmem (i + 1)
    rw [cstr, h₀, hrest]
    by_cases hb : b = 0 <;> simp [hb]

theorem mem_offsets {n : ℕ} {o : ℤ} : o ∈ offsets n ↔ 0 ≤ o ∧ o < n := by
  simp only [offsets, List.mem_map, List.mem_range]
  constructor
  · rintro ⟨i, hi, rfl⟩
    omega
  · intro h
    exact ⟨o.toNat, by omega, by omega⟩

section Write

variable (K : Kstrto) (v2 : Bool) (fw : FwState) (f : CsiFile) (cfg : CsiCfg) (io : UserWrite)

theorem le_bufLen : 8 ≤ f.bufLen := by
  cases f <;> decide

/-- What a write whose bytes are copied makes of its line. -/
def lineOutcome (count : ℕ) (touched : List ℤ) : Option Bytes → Outcome
  | none => ⟨cfg, .error .einval, touched, none⟩
  | some s =>
    match csiParse K f s with
    | .error e => ⟨cfg, .error e, touched, none⟩
    | .ok v =>
      let r := csiSet v2 fw f cfg v
      ⟨r.cfg, r.result.map fun _ => count, touched, r.sent⟩

/-- The frame on a buffer that holds at least one byte and a zero after them. -/
theorem withLine_eq (mem : Stack) (bytes : Bytes) (hpos : 0 < bytes.length)
    (hlen : bytes.length < f.bufLen) (hmem : ∀ i : ℕ, i < f.bufLen → mem i = bytes.getD i 0) :
    ∃ touched, (∀ o ∈ touched, (0 : ℤ) ≤ o ∧ o < f.bufLen) ∧
      withLine (csiParse K f) f.bufLen cfg mem bytes.length (csiSet v2 fw f cfg) =
        lineOutcome K v2 fw f cfg bytes.length touched
          (if bytes.getLast? = some lineFeed then some (bytes.dropLast.takeWhile (· ≠ 0))
            else none) := by
  have hcast : (bytes.length : ℤ) - 1 = ((bytes.length - 1 : ℕ) : ℤ) := by omega
  have hlast : bytes.getLast? = some (mem (bytes.length - 1)) := by
    rw [hcast, hmem _ (by omega), List.getLast?_eq_getElem?, List.getD_eq_getElem?_getD,
      List.getElem?_eq_getElem (by omega), Option.getD_some]
  have hstr : cstr (Function.update mem (bytes.length - 1) 0) (f.bufLen + 1) 0 =
      bytes.dropLast.takeWhile (· ≠ 0) := by
    refine cstr_eq (by rw [List.length_dropLast]; omega) fun i => ?_
    rw [zero_add, hcast, List.length_dropLast]
    rcases Nat.lt_trichotomy i (bytes.length - 1) with h | h | h
    · left
      rw [Function.update_of_ne (by omega), hmem i (by omega), List.getD_eq_getElem?_getD,
        List.getD_eq_getElem?_getD, List.dropLast_eq_take, List.getElem?_take_of_lt h]
    · left
      rw [← h, Function.update_self, List.getD_eq_default _ _ (by rw [List.length_dropLast, h])]
    · exact .inr h
  have hsub : (bytes.dropLast.takeWhile (· ≠ 0)).length ≤ bytes.length - 1 := by
    rw [← List.length_dropLast]
    exact (List.takeWhile_sublist _).length_le
  simp only [withLine, hlast, hstr, Option.some.injEq]
  by_cases hfeed : mem (bytes.length - 1) = lineFeed
  · refine ⟨[(bytes.length : ℤ) - 1, bytes.length - 1] ++
      offsets ((bytes.dropLast.takeWhile (· ≠ 0)).length + 1), fun o ho => ?_, ?_⟩
    · simp only [List.mem_append, List.mem_cons, List.not_mem_nil, or_false, or_self,
        mem_offsets] at ho
      omega
    · rw [if_neg (not_not_intro hfeed), if_pos hfeed]
      simp only [lineOutcome]
      cases csiParse K f (bytes.dropLast.takeWhile (· ≠ 0)) <;> rfl
  · refine ⟨[(bytes.length : ℤ) - 1], fun o ho => ?_, ?_⟩
    · rw [List.mem_singleton] at ho
      omega
    · rw [if_pos hfeed, if_neg hfeed, lineOutcome]

theorem lineOutcome_touched (count : ℕ) (touched touched' : List ℤ) (line : Option Bytes) :
    { lineOutcome K v2 fw f cfg count touched line with
        touched := touched' ++ (lineOutcome K v2 fw f cfg count touched line).touched } =
      lineOutcome K v2 fw f cfg count (touched' ++ touched) line := by
  cases line with
  | none => rfl
  | some s => cases h : csiParse K f s <;> simp [lineOutcome, h]

/-- **A write of at least one byte** stays in the buffer and works on the line. -/
theorem csiWrite_of_ne_nil (hne : io.user ≠ []) (hfault : io.fault = false) :
    ∃ touched, (∀ o ∈ touched, (0 : ℤ) ≤ o ∧ o < f.bufLen) ∧ csiWrite K v2 fw f cfg io =
      lineOutcome K v2 fw f cfg (min io.user.length (f.bufLen - 1)) touched
        (lineOf f.bufLen io.user) := by
  have hsize := le_bufLen f
  have hpos : 0 < io.user.length := List.length_pos_iff.2 hne
  have hlen : (io.user.take (f.bufLen - 1)).length = min io.user.length (f.bufLen - 1) := by
    rw [List.length_take, Nat.min_comm]
  obtain ⟨touched, hin, heq⟩ := withLine_eq K v2 fw f cfg
    (fun o => if 0 ≤ o ∧ o < f.bufLen then (io.user.take (f.bufLen - 1)).getD o.toNat 0
      else io.stack o) (io.user.take (f.bufLen - 1)) (by omega) (by omega)
    (fun i hi => by simp [hi])
  refine ⟨offsets f.bufLen ++ touched, fun o ho => ?_, ?_⟩
  · exact (List.mem_append.1 ho).elim mem_offsets.1 (hin o)
  · have htake : io.user.take (min io.user.length (f.bufLen - 1)) =
        io.user.take (f.bufLen - 1) := by
      rw [Nat.min_comm, ← List.take_eq_take_min]
    rw [hlen] at heq
    simp only [csiWrite, hfault, htake, heq, lineOf, lineOutcome_touched, Bool.false_eq_true,
      false_and, if_false]

/-- An empty write reads the byte before its buffer, and fails. -/
theorem csiWrite_of_nil (hnil : io.user = []) : (-1 : ℤ) ∈ (csiWrite K v2 fw f cfg io).touched ∧
    ∃ e, (csiWrite K v2 fw f cfg io).result = .error e := by
  have hsize := le_bufLen f
  obtain ⟨e, he⟩ : ∃ e, csiParse K f [] = .error e := by
    cases f
    exacts [K.toBool_nil, K.toS64_nil, K.toS64_nil, K.toU64_nil, K.toU32_nil]
  have hpos : 0 < f.bufLen := by omega
  by_cases hfeed : io.stack (-1) = lineFeed
  · simp [csiWrite, withLine, hnil, hfeed, cstr, hpos, he]
  · simp [csiWrite, withLine, hnil, hfeed]

theorem csiWrite_of_fault (hne : io.user ≠ []) (hfault : io.fault = true) :
    csiWrite K v2 fw f cfg io = ⟨cfg, .error .efault, offsets f.bufLen, none⟩ := by
  have hsize := le_bufLen f
  have hpos : 0 < io.user.length := List.length_pos_iff.2 hne
  have hcount : 0 < min io.user.length (f.bufLen - 1) := by omega
  simp [csiWrite, hfault, hcount, -lt_inf_iff]

end Write

/-! ## Steps -/

section Step

variable {K : Kstrto} {v2 : Bool}

/-- A write of a value is its setter. -/
theorem csiWrite_of_written (v2 : Bool) (fw : FwState) (f : CsiFile) (cfg : CsiCfg) {io : UserWrite}
    (hne : io.user ≠ []) (hfault : io.fault = false) {v : f.Val}
    (hv : written K f io = some v) : ∃ touched count, (∀ o ∈ touched, (0 : ℤ) ≤ o ∧ o < f.bufLen) ∧
      csiWrite K v2 fw f cfg io = ⟨(csiSet v2 fw f cfg v).cfg,
        (csiSet v2 fw f cfg v).result.map fun _ => count, touched,
        (csiSet v2 fw f cfg v).sent⟩ := by
  obtain ⟨touched, hin, heq⟩ := csiWrite_of_ne_nil K v2 fw f cfg io hne hfault
  refine ⟨touched, min io.user.length (f.bufLen - 1), hin, ?_⟩
  obtain ⟨s, hline, hs⟩ := Option.bind_eq_some_iff.1 hv
  have hparse : csiParse K f s = .ok v := by
    cases hparse : csiParse K f s <;> simp_all [Except.toOption]
  rw [heq, hline, lineOutcome, hparse]

/-- A write of nothing that the file knows does nothing and fails. -/
theorem csiWrite_of_not_written (v2 : Bool) (fw : FwState) (f : CsiFile) (cfg : CsiCfg)
    {io : UserWrite} (hne : io.user ≠ []) (h : io.fault = true ∨ written K f io = none) :
    ∃ touched e, (∀ o ∈ touched, (0 : ℤ) ≤ o ∧ o < f.bufLen) ∧
      csiWrite K v2 fw f cfg io = ⟨cfg, .error e, touched, none⟩ := by
  cases hfault : io.fault with
  | true =>
    exact ⟨_, _, fun o ho => mem_offsets.1 ho, csiWrite_of_fault K v2 fw f cfg io hne hfault⟩
  | false =>
    obtain ⟨touched, hin, heq⟩ := csiWrite_of_ne_nil K v2 fw f cfg io hne hfault
    have hnone : written K f io = none := h.resolve_left (by simp [hfault])
    rw [written] at hnone
    rw [heq]
    cases hline : lineOf f.bufLen io.user with
    | none => exact ⟨_, _, hin, rfl⟩
    | some s =>
      obtain ⟨e, hparse⟩ : ∃ e, csiParse K f s = .error e := by
        cases hparse : csiParse K f s <;> simp_all [Except.toOption]
      exact ⟨touched, e, hin, by rw [lineOutcome, hparse]⟩

/-- The file of the enable bit fails only when its command does, with the error of the command. -/
theorem setEnabled_error {fw : FwState} {cfg : CsiCfg} {enabled : Bool} {e : Errno}
    (h : (setEnabled v2 fw cfg enabled).result = .error e) :
    fw.running = true ∧ fw.ret = .error e := by
  unfold setEnabled at h
  split_ifs at h with h₁ h₂ h₃ <;> simp_all

theorem CsiKept.ne_nil {s : CsiDbg} {f : CsiFile} {io : UserWrite} {fw : FwState}
    (h : CsiKept K s (.write f io fw)) : io.user ≠ [] := by
  cases f
  exacts [h.1, h, h, h, h]

/-- **A step that meets the condition** does what it has to do. -/
theorem CsiKept.stepOk {s : CsiDbg} {a : CsiAct} (h : CsiKept K s a) : CsiStepOk K v2 s a := by
  cases a with
  | write f io fw =>
    have hne := h.ne_nil
    by_cases hnone : io.fault = true ∨ written K f io = none
    · obtain ⟨touched, e', hin, heq⟩ := csiWrite_of_not_written v2 fw f s.cfg hne hnone
      constructor
      · rintro _ _ _ ⟨⟩ e -
        simp only [csiCfgStep, heq]
        exact ⟨trivial, hin⟩
      · simp [csiSent, heq]
    · obtain ⟨hfault, hsome⟩ := not_or.1 hnone
      rw [Bool.not_eq_true] at hfault
      obtain ⟨v, hv⟩ := Option.ne_none_iff_exists'.1 hsome
      obtain ⟨touched, count, hin, heq⟩ :=
        csiWrite_of_written v2 fw f s.cfg hne hfault hv
      constructor
      · rintro _ _ _ ⟨⟩ e he
        simp only [csiCfgStep, heq] at he ⊢
        refine ⟨?_, hin⟩
        replace he : (csiSet v2 fw f s.cfg v).result = .error e := by
          cases hr : (csiSet v2 fw f s.cfg v).result <;> simp_all [Except.map]
        by_cases hf : f = .enabled
        · subst hf
          obtain ⟨hrun, hret⟩ := setEnabled_error he
          have henable : v = s.cfg.has .enable := by
            by_contra hchange
            refine h.2 ⟨hfault, hrun, by simp [hret], ?_⟩
            rw [hv, Option.some.injEq]
            exact Bool.eq_not.2 hchange
          rw [csiSet, setEnabled_eq, henable]
          cases hhas : s.cfg.has .enable
          · exact CsiCfg.clear_eq_self _ _ hhas
          · exact CsiCfg.set_clear _ _ hhas
        · exact csiSet_error v2 fw s.cfg hf he
      · intro cmd hcmd
        simp only [csiSent, csiCfgStep, heq] at hcmd ⊢
        rw [csiSet_sent v2 fw s.cfg hcmd]
        exact encodes_iwlMvmSendCsiCmd v2 _
  | filter val mask addrs hle => exact ⟨by simp, by simp [csiSent]⟩
  | restart =>
    refine ⟨by simp, fun cmd hcmd => ?_⟩
    simp only [csiSent, csiCfgStep] at hcmd ⊢
    split_ifs at hcmd
    · cases hcmd
      exact encodes_iwlMvmSendCsiCmd v2 _
    · cases hcmd

/-- A step that does what it has to do meets the condition. -/
theorem CsiStepOk.kept {s : CsiDbg} {a : CsiAct} (h : CsiStepOk K v2 s a) : CsiKept K s a := by
  cases a with
  | write f io fw =>
    have hne : io.user ≠ [] := by
      intro hnil
      obtain ⟨hmem, e, he⟩ := csiWrite_of_nil K v2 fw f s.cfg io hnil
      exact absurd ((h.atomic f io fw rfl e he).2 _ hmem).1 (by decide)
    cases f with
    | enabled =>
      refine ⟨hne, ?_⟩
      rintro ⟨hfault, hrun, hret, hwritten⟩
      obtain ⟨touched, count, -, heq⟩ :=
        csiWrite_of_written v2 fw .enabled s.cfg hne hfault hwritten
      obtain ⟨e, he⟩ : ∃ e, fw.ret = .error e := by
        cases hr : fw.ret with
        | ok u => exact absurd hr hret
        | error e => exact ⟨e, rfl⟩
      have herror : (csiWrite K v2 fw .enabled s.cfg io).result = .error e := by
        simp [heq, csiSet, setEnabled, hrun, he, Except.map]
      have hcfg := (h.atomic .enabled io fw rfl e herror).1
      have hhas : (csiSet v2 fw .enabled s.cfg !s.cfg.has .enable).cfg.has .enable =
          !s.cfg.has .enable := by
        rw [csiSet, setEnabled_eq]
        cases s.cfg.has .enable <;> simp
      simp only [csiCfgStep, heq] at hcfg
      rw [hcfg] at hhas
      simp at hhas
    | count => exact hne
    | timeout => exact hne
    | frameTypes => exact hne
    | interval => exact hne
  | filter val mask addrs hle => trivial
  | restart => trivial

/-- **A step that meets the condition** keeps what holds of the state. -/
theorem CsiStateOk.step {s : CsiDbg} {a : CsiAct} (h : CsiStateOk s) (hkept : CsiKept K s a) :
    CsiStateOk (csiCfgStep K v2 s a) := by
  have hok : CsiStepOk K v2 s a := hkept.stepOk
  cases a with
  | write f io fw =>
    have hne := hkept.ne_nil
    cases hres : (csiWrite K v2 fw f s.cfg io).result with
    | error e =>
      have hcfg := (hok.atomic f io fw rfl e hres).1
      have hstate : csiCfgStep K v2 s (.write f io fw) = s := by
        simp only [csiCfgStep, hres] at hcfg ⊢
        rw [hcfg]
      rwa [hstate]
    | ok n =>
      by_cases hnone : io.fault = true ∨ written K f io = none
      · obtain ⟨touched, e, -, heq⟩ := csiWrite_of_not_written v2 fw f s.cfg hne hnone
        simp [heq] at hres
      · obtain ⟨hfault, hsome⟩ := not_or.1 hnone
        rw [Bool.not_eq_true] at hfault
        obtain ⟨v, hv⟩ := Option.ne_none_iff_exists'.1 hsome
        obtain ⟨touched, count, -, heq⟩ :=
          csiWrite_of_written v2 fw f s.cfg hne hfault hv
        have hset : (csiSet v2 fw f s.cfg v).result = .ok () := by
          cases hr : (csiSet v2 fw f s.cfg v).result <;> simp_all [Except.map]
        have hstate : csiCfgStep K v2 s (.write f io fw) =
            ⟨(csiSet v2 fw f s.cfg v).cfg, Function.update s.last f v⟩ := by
          simp [csiCfgStep, heq, hset, hv, Except.map]
        rw [hstate]
        refine ⟨h.toCsiFlagsOk.csiSet v2 fw, fun g => ?_⟩
        dsimp only
        by_cases hg : g = f
        · subst hg
          rw [Function.update_self]
          exact csiRead_csiSet_self v2 fw hset
        · rw [Function.update_of_ne hg, csiRead_csiSet_of_ne v2 fw hg]
          exact h.read g
  | filter val mask addrs hle =>
    refine ⟨⟨h.counter, h.interval, h.timer⟩, fun g => ?_⟩
    rw [show (csiCfgStep K v2 s (.filter val mask addrs hle)).last = s.last from rfl, ← h.read g]
    cases g <;> rfl
  | restart => exact h

end Step

theorem csiStateOk_init : CsiStateOk .init where
  counter := by decide
  interval := by decide
  timer _ := rfl
  read f := by cases f <;> rfl

/-! ## The law -/

/-- **The CSI configuration**: a run obeys the law if and only if no write is empty and no command
fails that changes the enable bit. -/
theorem csi_config_iff (K : Kstrto) (v2 : Bool) (as : List CsiAct) :
    CsiLaw K v2 as ↔
      Lts.Meets (fun s a => some (csiCfgStep K v2 s a)) (CsiKept K) .init as := by
  constructor
  · exact fun h => h.1.mono _ fun s a => CsiStepOk.kept
  · intro h
    refine ⟨h.mono _ fun s a => CsiKept.stepOk, fun bs s hbs hrun => ?_⟩
    refine Lts.exec_invariant _ (fun s a s' hs hkept hstep => ?_) csiStateOk_init
      (h.initial _ hbs) hrun
    obtain rfl := Option.some.inj hstep
    exact hs.step hkept

/-- A parser that knows no string but `"1"`, for a boolean. -/
def kstrtoOne : Kstrto where
  toBool s := if s = [49] then .ok true else .error .einval
  toS64 _ := .error .einval
  toU64 _ := .error .einval
  toU32 _ := .error .einval
  toBool_nil := ⟨_, rfl⟩
  toS64_nil := ⟨_, rfl⟩
  toU64_nil := ⟨_, rfl⟩
  toU32_nil := ⟨_, rfl⟩

/-- `"1\n"` is written to `csi_enabled` and the firmware does not take the command: the write
fails, and the enable bit is set. -/
theorem csi_config_refused : ¬CsiLaw kstrtoOne true
    [.write .enabled ⟨[49, 10], false, fun _ => 0⟩ ⟨true, .error (.transport 5)⟩] := by
  intro h
  have hcfg := (h.1.1.atomic .enabled _ _ rfl (.transport 5) rfl).1
  have henable := congrArg (CsiCfg.has · .enable) hcfg
  exact absurd henable (by decide)

end Iax.Mvm
