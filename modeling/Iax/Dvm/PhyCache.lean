import Iax.Dvm.Notif
import Iax.Dvm.RotateRates
import Iax.Lib.Lts
import Iax.Lib.Memory

/-!
# The cache of PHY reports

The firmware reports the physical layer of a frame in a packet of its own, which the driver copies
(`iwlagn_rx_reply_rx_phy` in `rx.c`). The settings of the driver stand behind the copy
(`struct iwl_priv` in `dev.h`), and files of debugfs write them (`debugfs.c`).

* `iwlagnRxReplyRxPhy`: a report. `phyReads` and `phyStores` are the bytes it reads and writes.
* `txRateWrite`, `rotateRatesWrite`: what a write of a file assigns.
* `phy_cache_iff`: when, over a run, all reports stay inside their packet and inside the copy, and
  the settings are those written last.
-/

namespace Iax.Dvm

open Bytes

/-! ## The driver -/

/-- `struct iwl_priv`: the cached report, and the memory from `last_cfg_phy_buf` on. -/
structure PhyPriv where
  /-- The bytes of `last_phy_res`. -/
  lastPhyRes : Bytes
  ampduRef : BitVec 32
  lastPhyResValid : Bool
  tail : Memory

/-- `IWLAGN_MAX_CFG_PHY_CNT`. -/
def iwlagnMaxCfgPhyCnt : ℕ := 20

/-- `sizeof(priv->last_cfg_phy_buf)`. -/
def sizeofLastCfgPhyBuf : ℕ := iwlagnMaxCfgPhyCnt * 4

/-- The fields of `struct iwl_priv` behind `last_cfg_phy_buf` that hold settings. -/
inductive Setting
  | connectorLog | monitorTxRate | bcastTxRate
  | rotateRates | lastRotateRate | rotateRateTotal | rotateRateArray
  deriving DecidableEq

namespace Setting

/-- The address of a field, counted from `last_cfg_phy_buf`. `last_rx_noise`, three bytes of noise
and `bf_enabled` lie behind `connector_log`; `pad` bytes align the pointer. -/
def offset (pad : ℕ) : Setting → ℕ
  | connectorLog => 80
  | monitorTxRate => 92
  | bcastTxRate => 96
  | rotateRates => 100
  | lastRotateRate => 104
  | rotateRateTotal => 108
  | rotateRateArray => 112 + pad

def size : Setting → ℕ
  | rotateRateArray => 8
  | _ => 4

theorem sizeofLastCfgPhyBuf_le_offset (pad : ℕ) (f : Setting) :
    sizeofLastCfgPhyBuf ≤ f.offset pad := by
  cases f <;> simp only [offset, sizeofLastCfgPhyBuf, iwlagnMaxCfgPhyCnt] <;> omega

/-- Two fields do not overlap. -/
theorem disjoint (pad : ℕ) {f g : Setting} (h : f ≠ g) :
    f.offset pad + f.size ≤ g.offset pad ∨ g.offset pad + g.size ≤ f.offset pad := by
  cases f <;> cases g <;> simp only [offset, size] <;> first | omega | exact absurd rfl h

end Setting

namespace PhyPriv

variable (pad : ℕ) (p : PhyPriv)

/-- The value of a setting. -/
def get (f : Setting) : ℕ := p.tail.readLe (f.offset pad) f.size

/-- `priv->f = v`. -/
def assign (f : Setting) (v : ℕ) : PhyPriv :=
  { p with tail := p.tail.writeLe (f.offset pad) f.size v }

theorem get_assign (f : Setting) (v : ℕ) :
    (p.assign pad f v).get pad = Function.update (p.get pad) f (v % 256 ^ f.size) := by
  funext g
  rcases eq_or_ne g f with rfl | hne
  · rw [Function.update_self]
    exact Memory.readLe_writeLe ..
  · rw [Function.update_of_ne hne]
    refine Memory.readLe_write_of_disjoint _ _ ?_
    rw [length_leBytes]
    exact Setting.disjoint pad hne

end PhyPriv

/-! ## A report -/

/-- `sizeof(struct iwl_rx_phy_res)`. -/
def sizeofPhyRes : ℕ := 60

/-- `rx_phy_res->cfg_phy_cnt`. -/
def DvmPacket.cfgPhyCnt (pkt : DvmPacket) : ℕ := (pkt.data 1).toNat

/-- `iwlagn_rx_reply_rx_phy`. -/
def iwlagnRxReplyRxPhy (p : PhyPriv) (pkt : DvmPacket) : PhyPriv where
  lastPhyResValid := true
  ampduRef := p.ampduRef + 1
  lastPhyRes := pkt.data.read 0 sizeofPhyRes
  tail := p.tail.write 0 (pkt.data.read sizeofPhyRes (pkt.cfgPhyCnt * 4))

/-- The bytes of `pkt->data` that it reads: `last_phy_res`, the count and `cfg_phy_buf`. -/
def phyReads (pkt : DvmPacket) : List ℕ :=
  List.range sizeofPhyRes ++ [1] ++ (List.range (pkt.cfgPhyCnt * 4)).map (sizeofPhyRes + ·)

/-- The bytes from `last_cfg_phy_buf` on that it writes. -/
def phyStores (pkt : DvmPacket) : List ℕ := List.range (pkt.cfgPhyCnt * 4)

theorem forall_mem_phyReads {pkt : DvmPacket} {n : ℕ} :
    (∀ i ∈ phyReads pkt, i < n) ↔ sizeofPhyRes + pkt.cfgPhyCnt * 4 ≤ n := by
  simp only [phyReads, List.mem_append, List.mem_range, List.mem_singleton, List.mem_map,
    sizeofPhyRes]
  constructor
  · intro h
    rcases Nat.eq_zero_or_pos pkt.cfgPhyCnt with hzero | hpos
    · -- the last byte of the header
      have hlast := h 59 (.inl (.inl (by decide)))
      omega
    · have hlast := h (60 + (pkt.cfgPhyCnt * 4 - 1)) (.inr ⟨_, by omega, rfl⟩)
      omega
  · rintro hlen i ((hi | rfl) | ⟨j, hj, rfl⟩) <;> omega

theorem forall_mem_phyStores {pkt : DvmPacket} {n : ℕ} :
    (∀ i ∈ phyStores pkt, i < n) ↔ pkt.cfgPhyCnt * 4 ≤ n := by
  simp only [phyStores, List.mem_range]
  refine ⟨fun h => ?_, fun hlen i hi => by omega⟩
  by_contra hlt
  exact (h n (by omega)).false

/-- No other byte behind `last_cfg_phy_buf` changes. -/
theorem tail_of_not_mem_phyStores (p : PhyPriv) {pkt : DvmPacket} {i : ℕ}
    (h : i ∉ phyStores pkt) : (iwlagnRxReplyRxPhy p pkt).tail i = p.tail i := by
  have hlen : pkt.cfgPhyCnt * 4 ≤ i := by simpa [phyStores] using h
  simp [iwlagnRxReplyRxPhy, Memory.write, hlen]

/-- A word behind the bytes written. -/
theorem get_iwlagnRxReplyRxPhy {pad : ℕ} (p : PhyPriv) {pkt : DvmPacket}
    (h : pkt.cfgPhyCnt ≤ iwlagnMaxCfgPhyCnt) :
    (iwlagnRxReplyRxPhy p pkt).get pad = p.get pad := by
  funext f
  have hf := f.sizeofLastCfgPhyBuf_le_offset pad
  rw [sizeofLastCfgPhyBuf] at hf
  refine Memory.readLe_write_of_disjoint p.tail 0 (.inr ?_)
  rw [Memory.length_read]
  omega

/-! ## The files -/

section Files

variable (kstrtoul : Bytes → Except Errno ℕ)

/-- A write of a file that holds a number: what it assigns, and its result. -/
def txRateWrite (f : Setting) (w : RatesWrite) : List (Setting × ℕ) × Except Errno ℕ :=
  match w.parse kstrtoul with
  | .error ret => ([], .error ret)
  | .ok val => ([(f, val)], .ok w.count)

/-- `iwl_dbgfs_monitor_tx_rate_write`. -/
def iwlDbgfsMonitorTxRateWrite (w : RatesWrite) : List (Setting × ℕ) × Except Errno ℕ :=
  txRateWrite kstrtoul .monitorTxRate w

/-- `iwl_dbgfs_bcast_tx_rate_write`. -/
def iwlDbgfsBcastTxRateWrite (w : RatesWrite) : List (Setting × ℕ) × Except Errno ℕ :=
  txRateWrite kstrtoul .bcastTxRate w

/-- `iwl_dbgfs_rotate_rates_write`, its assignments one by one: `rotateRates` is the field's value
before, and `ptr` what `kmalloc` returns. -/
def rotateRatesWrite (rotateRates : ℕ) (w : RatesWrite) (ptr : ℕ) :
    List (Setting × ℕ) × Except Errno ℕ :=
  match w.parse kstrtoul with
  | .error ret => ([], .error ret)
  | .ok val =>
    let clear :=
      if rotateRates ≠ 0 then
        [(.rotateRateArray, 0), (.lastRotateRate, 0), (.rotateRateTotal, 0), (.rotateRates, 0)]
      else []
    if val = 0 then (clear, .ok w.count)
    else if numRates (.ofVal val) = 0 then (clear, .error .einval)
    else if w.alloc = false then (clear ++ [(.rotateRateArray, 0)], .error .enomem)
    else
      (clear ++ [(.rotateRateArray, ptr), (.rotateRates, 1), (.lastRotateRate, 0),
        (.rotateRateTotal, numRates (.ofVal val))], .ok w.count)

/-- The assignments, one after another, to a record of settings. -/
def assigned (want : Setting → ℕ) (assigns : List (Setting × ℕ)) : Setting → ℕ :=
  assigns.foldl (fun want a => Function.update want a.1 (a.2 % 256 ^ a.1.size)) want

end Files

/-! ## Runs -/

/-- A report, and the driver before and after it. -/
structure PhyReport where
  pkt : DvmPacket
  before : PhyPriv
  after : PhyPriv

/-- The frame of a report. -/
structure PhyReport.Framed (r : PhyReport) : Prop where
  /-- It reads bytes of its packet. -/
  reads : ∀ i ∈ phyReads r.pkt, i < r.pkt.payloadLen
  /-- It writes bytes of `last_cfg_phy_buf`. -/
  stores : ∀ i ∈ phyStores r.pkt, i < sizeofLastCfgPhyBuf
  /-- What lies behind is as before. -/
  unchanged : ∀ i, sizeofLastCfgPhyBuf ≤ i → r.after.tail i = r.before.tail i

/-- The driver over a run, with a record of what happened. -/
structure PhyRun where
  priv : PhyPriv
  /-- The settings written last. -/
  want : Setting → ℕ
  reports : List PhyReport

inductive PhyAct
  | rxPhy (pkt : DvmPacket)
  | monitorTxRate (w : RatesWrite)
  | bcastTxRate (w : RatesWrite)
  | rotateRates (w : RatesWrite) (ptr : ℕ)

/-- The count is inside `last_cfg_phy_buf`, and the packet has what it counts. -/
def PhyAct.Fits : PhyAct → Prop
  | .rxPhy pkt => pkt.cfgPhyCnt ≤ iwlagnMaxCfgPhyCnt ∧
      sizeofPhyRes + pkt.cfgPhyCnt * 4 ≤ pkt.payloadLen
  | _ => True

namespace PhyRun

def init (p : PhyPriv) (pad : ℕ) : PhyRun where
  priv := p
  want := p.get pad
  reports := []

variable (kstrtoul : Bytes → Except Errno ℕ) (pad : ℕ)

/-- Assignments of a file. -/
def assigns (s : PhyRun) (l : List (Setting × ℕ)) : PhyRun :=
  { s with
    priv := l.foldl (fun p a => p.assign pad a.1 a.2) s.priv
    want := assigned s.want l }

def step (s : PhyRun) : PhyAct → PhyRun
  | .rxPhy pkt =>
    let priv := iwlagnRxReplyRxPhy s.priv pkt
    { s with priv := priv, reports := s.reports ++ [⟨pkt, s.priv, priv⟩] }
  | .monitorTxRate w => s.assigns pad (iwlDbgfsMonitorTxRateWrite kstrtoul w).1
  | .bcastTxRate w => s.assigns pad (iwlDbgfsBcastTxRateWrite kstrtoul w).1
  | .rotateRates w ptr =>
    s.assigns pad (rotateRatesWrite kstrtoul (s.priv.get pad .rotateRates) w ptr).1

/-- The run from a state of the driver. -/
def run (p : PhyPriv) (acts : List PhyAct) : PhyRun := acts.foldl (step kstrtoul pad) (init p pad)

/-- Every report so far is framed, and the settings are those written last. -/
def Good (s : PhyRun) : Prop := (∀ r ∈ s.reports, r.Framed) ∧ s.priv.get pad = s.want

variable {kstrtoul pad} {s : PhyRun}

/-- Writes of the files assign the same to both. -/
theorem good_assigns (h : s.Good pad) (l : List (Setting × ℕ)) : (s.assigns pad l).Good pad := by
  refine ⟨h.1, ?_⟩
  obtain ⟨priv, want, reports⟩ := s
  obtain rfl : priv.get pad = want := h.2
  clear h
  induction l generalizing priv with
  | nil => rfl
  | cons a l ih =>
    refine (ih (priv.assign pad a.1 a.2)).trans ?_
    rw [PhyPriv.get_assign]
    rfl

/-- A report is framed exactly when it fits. -/
theorem phyFramed_iff (p : PhyPriv) (pkt : DvmPacket) :
    (PhyReport.mk pkt p (iwlagnRxReplyRxPhy p pkt)).Framed ↔ (PhyAct.rxPhy pkt).Fits := by
  constructor
  · rintro ⟨hreads, hstores, -⟩
    rw [forall_mem_phyReads] at hreads
    rw [forall_mem_phyStores] at hstores
    exact ⟨Nat.le_of_mul_le_mul_right hstores (by decide), hreads⟩
  · rintro ⟨hcnt, hlen⟩
    have hstores : pkt.cfgPhyCnt * 4 ≤ sizeofLastCfgPhyBuf := Nat.mul_le_mul_right 4 hcnt
    refine ⟨forall_mem_phyReads.2 hlen, forall_mem_phyStores.2 hstores, fun i hi => ?_⟩
    refine tail_of_not_mem_phyStores p fun hmem => ?_
    exact (Nat.lt_of_lt_of_le (List.mem_range.1 hmem) hstores).not_ge hi

/-- A step keeps the state good exactly when it fits. -/
theorem good_step (h : s.Good pad) (a : PhyAct) : (step kstrtoul pad s a).Good pad ↔ a.Fits := by
  cases a with
  | rxPhy pkt =>
    constructor
    · exact fun hgood => (phyFramed_iff s.priv pkt).1 (hgood.1 _ (List.mem_concat_self ..))
    · intro hfits
      refine ⟨List.forall_mem_append.2 ⟨h.1, ?_⟩, ?_⟩
      · exact List.forall_mem_singleton.2 ((phyFramed_iff s.priv pkt).2 hfits)
      · exact (get_iwlagnRxReplyRxPhy s.priv hfits.1).trans h.2
  | monitorTxRate w => exact iff_of_true (good_assigns h _) trivial
  | bcastTxRate w => exact iff_of_true (good_assigns h _) trivial
  | rotateRates w ptr => exact iff_of_true (good_assigns h _) trivial

/-- **The cache of PHY reports.** In every state of a run the reports so far were framed and the
settings are those written last, if and only if every report fits. -/
theorem phy_cache_iff (kstrtoul : Bytes → Except Errno ℕ) (pad : ℕ) (p : PhyPriv)
    (acts : List PhyAct) :
    (∀ acts', acts' <+: acts → (run kstrtoul pad p acts').Good pad) ↔
      ∀ pkt, PhyAct.rxPhy pkt ∈ acts → pkt.cfgPhyCnt ≤ iwlagnMaxCfgPhyCnt ∧
        sizeofPhyRes + pkt.cfgPhyCnt * 4 ≤ pkt.payloadLen := by
  have hrun := Lts.exec_total (step kstrtoul pad) (init p pad)
  have hiff := Lts.always_iff (fun s a => some (step kstrtoul pad s a))
    (I := fun _ => True) (P := Good pad) (C := fun _ a => a.Fits) (fun _ _ _ _ _ => trivial)
    (fun s a s' _ hgood hs => by rw [← Option.some.inj hs, good_step hgood]) trivial
    (⟨by simp [init], rfl⟩ : (init p pad).Good pad) (hrun acts)
  rw [Lts.meets_iff_forall_mem _ (hrun acts)] at hiff
  constructor
  · intro hall pkt hpkt
    refine hiff.1 (fun acts' t hpre ht => ?_) _ hpkt
    rw [← Option.some.inj ((hrun acts').symm.trans ht)]
    exact hall acts' hpre
  · intro hfits acts' hpre
    refine hiff.2 (fun a ha => ?_) acts' _ hpre (hrun acts')
    cases a with
    | rxPhy pkt => exact hfits pkt ha
    | monitorTxRate w => trivial
    | bcastTxRate w => trivial
    | rotateRates w ptr => trivial

/-- A packet with 21 words, all of whose bytes are set. -/
def longReport : DvmPacket := ⟨148, fun i => if i = 1 then 21 else 0xff⟩

/-- **A report turns on every log**: its last word goes to `connector_log`, which was zero. -/
theorem phy_cache_overflow :
    let p : PhyPriv := ⟨[], 0, false, fun _ => 0⟩
    p.get 0 .connectorLog = 0 ∧
      (run (fun _ => .error .einval) 0 p [.rxPhy longReport]).priv.get 0 .connectorLog =
        0xffffffff ∧
      ¬ (run (fun _ => .error .einval) 0 p [.rxPhy longReport]).Good 0 := by
  have hlog : (iwlagnRxReplyRxPhy ⟨[], 0, false, fun _ => 0⟩ longReport).get 0 .connectorLog =
      0xffffffff := by decide +kernel
  refine ⟨by decide +kernel, hlog, fun hgood => ?_⟩
  have heq := congrFun hgood.2 Setting.connectorLog
  change (iwlagnRxReplyRxPhy ⟨[], 0, false, fun _ => 0⟩ longReport).get 0 .connectorLog =
    PhyPriv.get 0 ⟨[], 0, false, fun _ => 0⟩ .connectorLog at heq
  rw [hlog] at heq
  revert heq
  decide +kernel

end PhyRun

end Iax.Dvm
