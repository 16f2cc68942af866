import Iax.Mvm.TxCmd

/-!
# The monitor rate of the mvm driver

A frame injected on a monitor interface is sent at the rate word that user space has written to
`monitor_tx_rate`, if it is not zero: `flq_iwl_mvm_set_monitor_tx_rate` (`flq-mvm.c`) patches the
command that `iwl_mvm_set_tx_params` has built.

* `iwlMvmTxSkbNonSta`: the path of a frame without a station, from its checks to the transport.
* `monitor_rate_iff`: the patched command asks for its own rate word except on the old layout.
-/

namespace Iax.Mvm

namespace DevCmd

/-- What the flags tell the firmware: to take the rate word of the command. -/
def UsesOwnRate : DevCmd → Prop
  | .old cmd => cmd.txFlags &&& txCmdFlgStaRate = 0
  | .gen2 cmd => cmd.flags &&& iwlTxFlagsCmdRate 32 ≠ 0
  | .gen3 cmd => cmd.flags &&& iwlTxFlagsCmdRate 16 ≠ 0

/-- The rate word. -/
def rateNFlags : DevCmd → BitVec 32
  | .old cmd => cmd.rateNFlags
  | .gen2 cmd => cmd.rateNFlags
  | .gen3 cmd => cmd.rateNFlags

/-- The command without its rate word and the flag that is about it. -/
def eraseRate : DevCmd → DevCmd
  | .old cmd => .old { cmd with rateNFlags := 0, txFlags := cmd.txFlags &&& ~~~txCmdFlgStaRate }
  | .gen2 cmd =>
    .gen2 { cmd with rateNFlags := 0, flags := cmd.flags &&& ~~~iwlTxFlagsCmdRate 32 }
  | .gen3 cmd =>
    .gen3 { cmd with rateNFlags := 0, flags := cmd.flags &&& ~~~iwlTxFlagsCmdRate 16 }

/-- The payload is cast to `struct iwl_tx_cmd`. -/
def onOld (f : IwlTxCmd → IwlTxCmd) : DevCmd → DevCmd
  | .old cmd => .old (f cmd)
  | cmd => cmd

/-- The payload is cast to `struct iwl_tx_cmd_gen2`. -/
def onGen2 (f : IwlTxCmdGen2 → IwlTxCmdGen2) : DevCmd → DevCmd
  | .gen2 cmd => .gen2 (f cmd)
  | cmd => cmd

/-- The payload is cast to `struct iwl_tx_cmd_gen3`. -/
def onGen3 (f : IwlTxCmdGen3 → IwlTxCmdGen3) : DevCmd → DevCmd
  | .gen3 cmd => .gen3 (f cmd)
  | cmd => cmd

end DevCmd

/-! ## The path of a frame -/

/-- `flq_iwl_mvm_set_monitor_tx_rate`. Each cast is the one that the builder has made. -/
def flqIwlMvmSetMonitorTxRate (mvm : TxMvm) (info : TxInfo) (devCmd : DevCmd) : DevCmd :=
  if info.vif.map Vif.type ≠ some .monitor ∨ mvm.monitorTxRate = 0 then devCmd
  else if hasNewTxApi mvm then
    if .ax210 ≤ mvm.deviceFamily then
      devCmd.onGen3 fun cmd => { cmd with
        flags := cmd.flags ||| iwlTxFlagsCmdRate 16, rateNFlags := mvm.monitorTxRate }
    else
      devCmd.onGen2 fun cmd => { cmd with
        flags := cmd.flags ||| iwlTxFlagsCmdRate 32, rateNFlags := mvm.monitorTxRate }
  else
    devCmd.onOld fun cmd => { cmd with
      txFlags := cmd.txFlags ||| txCmdFlgStaRate, rateNFlags := mvm.monitorTxRate }

section NonSta

variable (mvm : TxMvm) (lookup : TxLookup)

/-- `iwl_mvm_get_ctrl_vif_queue`. -/
def iwlMvmGetCtrlVifQueue (link : LinkInfo) (type : IfType) (skb : SkBuff) : Option ℕ :=
  let fc := skb.frameControl
  match type with
  | .ap | .adhoc =>
    if isMgmt fc && (!isBufferableMmpdu fc || isDeauth fc || isDisassoc fc) then
      some mvm.probeQueue
    else if !hasOrder fc && !isProbeReq fc && skb.isMulticast then some link.cabQueue
    else some mvm.probeQueue
  | .p2pDevice => some mvm.p2pDevQueue
  | _ => none

/-- `IEEE80211_LINK_UNSPECIFIED`. -/
def ieee80211LinkUnspecified : ℕ := 0xf

/-- The link that a frame goes to: the one named, or the first valid one. -/
def nonStaLink (vif : Vif) (mloLink : ℕ) : LinkInfo :=
  vif.link <|
    if mloLink = ieee80211LinkUnspecified then
      if vif.validLinks ≠ 0 then ((List.range 16).find? vif.validLinks.testBit).getD 0 else 0
    else mloLink

/-- The station and the queue that `iwl_mvm_tx_skb_non_sta` chooses, `none` for no queue. -/
def nonStaQueue (skb : SkBuff) (info : TxInfo) : Option (BitVec 8 × ℕ) :=
  match info.vif with
  | none => none
  | some vif =>
    if vif.type = .p2pDevice ∨ vif.type = .ap ∨ vif.type = .adhoc then
      let link := nonStaLink vif info.mloLink
      (iwlMvmGetCtrlVifQueue mvm link vif.type skb).map fun queue =>
        (if !isData skb.frameControl then link.bcastSta else link.mcastSta, queue)
    else if vif.type = .monitor then some (mvm.snifSta, mvm.snifQueue)
    else if vif.type = .station ∧ info.txOffchan = true then some (mvm.auxSta, mvm.auxQueue)
    else none

/-- `IWL_MVM_NON_TRANSMITTING_AP`. -/
def iwlMvmNonTransmittingAp : Bool := false

/-- `IEEE80211_MAX_DATA_LEN`. -/
def ieee80211MaxDataLen : ℕ := 2304

/-- `iwl_mvm_tx_skb_non_sta` as far as the command that `iwl_mvm_set_tx_params` returns, and the
queue. -/
def txSkbNonStaParams (alloc : Bool) (skb : SkBuff) (info : TxInfo) : Option (DevCmd × ℕ) :=
  let hdrlen := ieee80211Hdrlen skb.frameControl
  if iwlMvmNonTransmittingAp && isProbeResp skb.frameControl then none
  else if ieee80211MaxDataLen + hdrlen < skb.data.length then none
  else if info.ampdu then none
  else (nonStaQueue mvm skb info).bind fun (staId, queue) =>
    let skb := if isProbeResp skb.frameControl then lookup.probeRespSetNoa skb info else skb
    (iwlMvmSetTxParams mvm lookup alloc skb info hdrlen none staId).map fun cmd => (cmd, queue)

/-- `iwl_mvm_tx_skb_non_sta`: the command that is handed to `iwl_trans_tx`, and the queue. -/
def iwlMvmTxSkbNonSta (alloc : Bool) (skb : SkBuff) (info : TxInfo) : Option (DevCmd × ℕ) :=
  (txSkbNonStaParams mvm lookup alloc skb info).map fun (cmd, queue) =>
    (flqIwlMvmSetMonitorTxRate mvm info cmd, queue)

end NonSta

/-- The command that was handed over honours the monitor rate, against the one that was built. -/
def HonoursMonitorRate (mvm : TxMvm) (info : TxInfo) (built cmd : DevCmd) : Prop :=
  if info.vif.map Vif.type = some .monitor ∧ mvm.monitorTxRate ≠ 0 then
    cmd.UsesOwnRate ∧ cmd.rateNFlags = mvm.monitorTxRate ∧ cmd.eraseRate = built.eraseRate
  else cmd = built

/-! ## Flags -/

section Flags

variable {w i : ℕ}

theorem and_twoPow_ne_zero (x : BitVec w) (hi : i < w) :
    (x ||| BitVec.twoPow w i) &&& BitVec.twoPow w i ≠ 0 := by
  intro h
  have hbit := congrArg (BitVec.getLsbD · i) h
  simp [hi] at hbit

theorem or_twoPow_and_not (x : BitVec w) :
    (x ||| BitVec.twoPow w i) &&& ~~~BitVec.twoPow w i = x &&& ~~~BitVec.twoPow w i := by
  ext j hj
  simp only [BitVec.getElem_and, BitVec.getElem_or, BitVec.getElem_not]
  cases (BitVec.twoPow w i)[j] <;> simp

end Flags

/-! ## The patch -/

section Patch

variable {mvm : TxMvm} {info : TxInfo}

/-- The patch of a command of the device's own layout honours the monitor rate exactly when the
layout is a new one, or there is nothing to patch. -/
theorem set_monitor_tx_rate_iff {built : DevCmd} (hlayout : built.IsFor mvm) :
    HonoursMonitorRate mvm info built (flqIwlMvmSetMonitorTxRate mvm info built) ↔
      hasNewTxApi mvm = true ∨ info.vif.map Vif.type ≠ some .monitor ∨ mvm.monitorTxRate = 0 := by
  unfold HonoursMonitorRate flqIwlMvmSetMonitorTxRate
  by_cases hpatch : info.vif.map Vif.type = some .monitor ∧ mvm.monitorTxRate ≠ 0
  · have hnot : ¬ (info.vif.map Vif.type ≠ some .monitor ∨ mvm.monitorTxRate = 0) := by
      rintro (hvif | hrate)
      · exact hvif hpatch.1
      · exact hpatch.2 hrate
    rw [if_pos hpatch, if_neg hnot, or_iff_left hnot]
    cases built with
    | old cmd =>
      have hold : hasNewTxApi mvm = false := hlayout
      rw [hold, if_neg Bool.false_ne_true]
      refine iff_of_false (fun h => ?_) Bool.false_ne_true
      exact and_twoPow_ne_zero _ (by decide) h.1
    | gen2 cmd =>
      obtain ⟨hnew, hfamily⟩ := hlayout
      rw [if_pos hnew, if_neg hfamily]
      refine iff_of_true ⟨and_twoPow_ne_zero _ (by decide), rfl, ?_⟩ hnew
      simp only [DevCmd.onGen2, DevCmd.eraseRate, iwlTxFlagsCmdRate, or_twoPow_and_not]
    | gen3 cmd =>
      obtain ⟨hnew, hfamily⟩ := hlayout
      rw [if_pos hnew, if_pos hfamily]
      refine iff_of_true ⟨and_twoPow_ne_zero _ (by decide), rfl, ?_⟩ hnew
      simp only [DevCmd.onGen3, DevCmd.eraseRate, iwlTxFlagsCmdRate, or_twoPow_and_not]
  · have hno : info.vif.map Vif.type ≠ some .monitor ∨ mvm.monitorTxRate = 0 := by
      by_contra h
      rw [not_or, not_not] at h
      exact hpatch h
    rw [if_neg hpatch, if_pos hno]
    exact iff_of_true rfl (.inr hno)

variable {lookup : TxLookup} {alloc : Bool} {skb : SkBuff} {built : DevCmd} {queue : ℕ}

theorem txSkbNonStaParams_isFor
    (h : txSkbNonStaParams mvm lookup alloc skb info = some (built, queue)) :
    built.IsFor mvm := by
  unfold txSkbNonStaParams at h
  dsimp only at h
  split at h
  · cases h
  · split at h
    · cases h
    · split at h
      · cases h
      · obtain ⟨⟨staId, queue'⟩, -, h⟩ := Option.bind_eq_some_iff.1 h
        obtain ⟨cmd, hcmd, hpair⟩ := Option.map_eq_some_iff.1 h
        cases hpair
        exact layout_setTxParams hcmd

/-- **The monitor rate** is honoured for a frame that is sent exactly on the new layouts, or when
there is none to honour. -/
theorem monitor_rate_iff {cmd : DevCmd}
    (hsent : iwlMvmTxSkbNonSta mvm lookup alloc skb info = some (cmd, queue)) :
    ∃ built, txSkbNonStaParams mvm lookup alloc skb info = some (built, queue) ∧
      (HonoursMonitorRate mvm info built cmd ↔
        hasNewTxApi mvm = true ∨ info.vif.map Vif.type ≠ some .monitor ∨
          mvm.monitorTxRate = 0) := by
  obtain ⟨⟨built, queue'⟩, hbuilt, hpair⟩ := Option.map_eq_some_iff.1 hsent
  cases hpair
  exact ⟨built, hbuilt, set_monitor_tx_rate_iff (txSkbNonStaParams_isFor hbuilt)⟩

end Patch

/-! ## Injected frames -/

/-- A device with a monitor interface and the rate word `0x4100`. -/
def monitorMvm (useTfh : Bool) (family : DeviceFamily) : TxMvm where
  useTfh := useTfh
  deviceFamily := family
  hasRateControl := true
  txCmdVer := 6
  sharedAntAvail := true
  nonSharedAnt := 1
  mgmtLastAntennaIdx := 0
  rtsThreshold := 2347
  txpowerInsertion := false
  snifQueue := 4
  snifSta := 2
  auxQueue := 5
  auxSta := 3
  probeQueue := 6
  p2pDevQueue := 7
  monitorTxRate := 0x4100#32

/-- No offload, no priority, and the lowest rate. -/
def noLookup : TxLookup where
  txCsumPreBz := fun _ _ _ => 0
  txCsum := fun _ _ _ => 0
  btCoexTxPrio := fun _ _ _ => 0
  lowestRate := fun _ => 4
  idxToHwrate := fun _ => 13
  actionContainsTpc := fun _ => false
  tkipP2k := fun _ _ => []
  probeRespSetNoa := fun skb _ => skb

/-- A data frame to everybody. -/
def injectedSkb : SkBuff where
  data := [0x08, 0x00, 0, 0] ++ List.replicate 6 0xff ++ List.replicate 18 0

def injectedInfo : TxInfo where
  noAck := true
  assignSeq := false
  ampdu := false
  noCckRate := false
  txOffchan := false
  band := .ghz5
  vif := some { type := .monitor, validLinks := 0, link := fun _ => ⟨0, 0, 0⟩ }
  hwKey := none
  portCtrlProto := false
  mloLink := 0xf
  rateIdx := 0

/-- What is handed over when the frame is injected. -/
def injected (useTfh : Bool) (family : DeviceFamily) : Option (DevCmd × ℕ) :=
  iwlMvmTxSkbNonSta (monitorMvm useTfh family) noLookup true injectedSkb injectedInfo

theorem monitor_rate_iff_ax210 :
    ∃ built cmd, injected true .ax210 = some (cmd, 4) ∧
      txSkbNonStaParams (monitorMvm true .ax210) noLookup true injectedSkb injectedInfo =
        some (built, 4) ∧
      HonoursMonitorRate (monitorMvm true .ax210) injectedInfo built cmd := by
  have hsome : (injected true .ax210).map Prod.snd = some 4 := by decide
  obtain ⟨⟨cmd, queue⟩, hsent, rfl⟩ := Option.map_eq_some_iff.1 hsome
  obtain ⟨built, hbuilt, hiff⟩ := monitor_rate_iff hsent
  exact ⟨built, cmd, hsent, hbuilt, hiff.2 (.inl rfl)⟩

/-- **On the old layout the rate word is ignored**: the flag says that the rate is in the table of
the station. -/
theorem monitor_rate_ignored :
    ∃ built cmd, injected false .f9000 = some (cmd, 4) ∧
      txSkbNonStaParams (monitorMvm false .f9000) noLookup true injectedSkb injectedInfo =
        some (built, 4) ∧
      ¬ HonoursMonitorRate (monitorMvm false .f9000) injectedInfo built cmd := by
  have hsome : (txSkbNonStaParams (monitorMvm false .f9000) noLookup true injectedSkb
      injectedInfo).map Prod.snd = some 4 := by decide
  obtain ⟨⟨built, queue⟩, hbuilt, rfl⟩ := Option.map_eq_some_iff.1 hsome
  have hsent : injected false .f9000 =
      some (flqIwlMvmSetMonitorTxRate (monitorMvm false .f9000) injectedInfo built, 4) := by
    rw [injected, iwlMvmTxSkbNonSta, hbuilt, Option.map_some]
  refine ⟨built, _, hsent, hbuilt, fun h => ?_⟩
  rcases (set_monitor_tx_rate_iff (txSkbNonStaParams_isFor hbuilt)).1 h with hnew | hvif | hrate
  · exact Bool.false_ne_true hnew
  · exact hvif rfl
  · revert hrate
    decide

end Iax.Mvm
