import Iax.Mvm.CsiSlots
import Iax.Mvm.DeviceFamily

/-!
# The TX commands of the mvm driver

`iwl_mvm_set_tx_params` (`tx.c`) builds the command that goes to the firmware with a frame. It has
one of three layouts, by the device.

* `IwlTxCmd`, `IwlTxCmdGen2`, `IwlTxCmdGen3`: the layouts, `DevCmd` is one of them.
* `iwlMvmSetTxParams` builds a command, `iwlMvmSetTxCmd` and `iwlMvmSetTxCmdRate` the parts of the
  old one.
* `layout_setTxParams`: the layout is that of the device.

The host is little-endian. What the driver looks up elsewhere (checksum offload, Bluetooth
priorities, rate tables, TKIP) is a `TxLookup`.
-/

namespace Iax.Mvm

open Bytes

/-! ## Frames -/

/-- `enum nl80211_iftype`. -/
inductive IfType
  | unspecified | adhoc | station | ap | apVlan | wds | monitor | meshPoint | p2pClient | p2pGo
  | p2pDevice | ocb | nan
  deriving DecidableEq

/-- `info->band`. -/
inductive Band
  | ghz2 | ghz5 | ghz60 | ghz6 | s1ghz | lc
  deriving DecidableEq

/-- `keyconf->cipher`. -/
inductive Cipher
  | ccmp | tkip | wep104 | wep40 | gcmp | gcmp256 | ccmp256
  | other (suite : BitVec 32)
  deriving DecidableEq

/-- `struct ieee80211_key_conf`; `keylen` is the length of `key`. -/
structure KeyConf where
  cipher : Cipher
  keyidx : BitVec 8
  hwKeyIdx : UInt8
  key : Bytes

/-- `struct iwl_mvm_vif_link_info`. -/
structure LinkInfo where
  bcastSta : BitVec 8
  mcastSta : BitVec 8
  cabQueue : ℕ

/-- `struct ieee80211_vif`, with the links of its `struct iwl_mvm_vif`. -/
structure Vif where
  type : IfType
  validLinks : ℕ
  link : ℕ → LinkInfo

/-- `struct ieee80211_tx_info`: the flags `IEEE80211_TX_CTL_*` that are read, the band, and
`info->control`. -/
structure TxInfo where
  noAck : Bool
  assignSeq : Bool
  ampdu : Bool
  noCckRate : Bool
  txOffchan : Bool
  band : Band
  vif : Option Vif
  hwKey : Option KeyConf
  /-- `control.flags & IEEE80211_TX_CTRL_PORT_CTRL_PROTO`. -/
  portCtrlProto : Bool
  /-- `u32_get_bits(control.flags, IEEE80211_TX_CTRL_MLO_LINK)`. -/
  mloLink : ℕ
  /-- `control.rates[0].idx`. -/
  rateIdx : ℤ

/-- `struct ieee80211_sta`, of which `sta_state >= IEEE80211_STA_AUTHORIZED` and `tx_ant` are
read. -/
structure Sta where
  authorized : Bool
  txAnt : ℕ

/-- `struct sk_buff`: `data` is the frame. -/
structure SkBuff where
  data : Bytes

namespace SkBuff

variable (skb : SkBuff)

def byte (i : ℕ) : UInt8 := skb.data.getD i 0

/-- `hdr->frame_control`. -/
def frameControl : BitVec 16 := BitVec.ofNat 16 (leNat (skb.data.take 2))

/-- `is_multicast_ether_addr(hdr->addr1)`. -/
def isMulticast : Bool := (skb.byte 4 &&& 1) != 0

end SkBuff

/-! ### `ieee80211.h` -/

def ftype (fc : BitVec 16) : BitVec 16 := fc &&& 0x000c#16

/-- The type and subtype. -/
def fstype (fc : BitVec 16) : BitVec 16 := fc &&& 0x00fc#16

def isMgmt (fc : BitVec 16) : Bool := ftype fc == 0x0000#16
def isData (fc : BitVec 16) : Bool := ftype fc == 0x0008#16
def isExt (fc : BitVec 16) : Bool := ftype fc == 0x000c#16
def isDataQos (fc : BitVec 16) : Bool := fc &&& 0x008c#16 == 0x0088#16
def isAssocReq (fc : BitVec 16) : Bool := fstype fc == 0x0000#16
def isReassocReq (fc : BitVec 16) : Bool := fstype fc == 0x0020#16
def isProbeReq (fc : BitVec 16) : Bool := fstype fc == 0x0040#16
def isProbeResp (fc : BitVec 16) : Bool := fstype fc == 0x0050#16
def isDisassoc (fc : BitVec 16) : Bool := fstype fc == 0x00a0#16
def isDeauth (fc : BitVec 16) : Bool := fstype fc == 0x00c0#16
def isAction (fc : BitVec 16) : Bool := fstype fc == 0x00d0#16
def isBackReq (fc : BitVec 16) : Bool := fstype fc == 0x0084#16
def hasMorefrags (fc : BitVec 16) : Bool := fc &&& 0x0400#16 != 0#16
def hasOrder (fc : BitVec 16) : Bool := fc &&& 0x8000#16 != 0#16
def hasA4 (fc : BitVec 16) : Bool := fc &&& 0x0300#16 == 0x0300#16

/-- `ieee80211_is_bufferable_mmpdu`. -/
def isBufferableMmpdu (fc : BitVec 16) : Bool :=
  isMgmt fc && (isAction fc || isDisassoc fc || isDeauth fc)

/-- `ieee80211_hdrlen`. -/
def ieee80211Hdrlen (fc : BitVec 16) : ℕ :=
  if isExt fc then 4
  else if isData fc then
    (if hasA4 fc then 30 else 24) +
      if isDataQos fc then 2 + if hasOrder fc then 4 else 0 else 0
  else if isMgmt fc then 24 + if hasOrder fc then 4 else 0
  else if fc &&& 0x00e0#16 == 0x00c0#16 then 10
  else 16

/-- The byte that `ieee80211_get_qos_ctl` points to. -/
def qosCtl (skb : SkBuff) : UInt8 := skb.byte (if hasA4 skb.frameControl then 30 else 24)

/-! ## The layouts -/

/-- `struct iwl_tx_cmd`. -/
structure IwlTxCmd where
  len : BitVec 16 := 0
  offloadAssist : BitVec 16 := 0
  txFlags : BitVec 32 := 0
  tryCnt : BitVec 8 := 0
  btkillCnt : BitVec 8 := 0
  reserved : BitVec 16 := 0
  rateNFlags : BitVec 32 := 0
  staId : BitVec 8 := 0
  secCtl : BitVec 8 := 0
  initialRateIndex : BitVec 8 := 0
  reserved2 : BitVec 8 := 0
  key : Bytes := List.replicate 16 0
  reserved3 : BitVec 32 := 0
  lifeTime : BitVec 32 := 0
  dramLsbPtr : BitVec 32 := 0
  dramMsbPtr : BitVec 8 := 0
  rtsRetryLimit : BitVec 8 := 0
  dataRetryLimit : BitVec 8 := 0
  tidTspec : BitVec 8 := 0
  pmFrameTimeout : BitVec 16 := 0
  reserved4 : BitVec 16 := 0
  hdr : Bytes := []
  deriving DecidableEq

/-- `struct iwl_dram_sec_info`. -/
structure IwlDramSecInfo where
  pnLow : BitVec 32 := 0
  pnHigh : BitVec 16 := 0
  auxInfo : BitVec 16 := 0
  deriving DecidableEq

/-- `struct iwl_tx_cmd_gen2`. -/
structure IwlTxCmdGen2 where
  len : BitVec 16 := 0
  offloadAssist : BitVec 16 := 0
  flags : BitVec 32 := 0
  dramInfo : IwlDramSecInfo := {}
  rateNFlags : BitVec 32 := 0
  hdr : Bytes := []
  deriving DecidableEq

/-- `struct iwl_tx_cmd_gen3`. -/
structure IwlTxCmdGen3 where
  len : BitVec 16 := 0
  flags : BitVec 16 := 0
  offloadAssist : BitVec 32 := 0
  dramInfo : IwlDramSecInfo := {}
  rateNFlags : BitVec 32 := 0
  reserved : Bytes := List.replicate 8 0
  hdr : Bytes := []
  deriving DecidableEq

/-- The payload of a `struct iwl_device_tx_cmd`. -/
inductive DevCmd
  | old (cmd : IwlTxCmd)
  | gen2 (cmd : IwlTxCmdGen2)
  | gen3 (cmd : IwlTxCmdGen3)
  deriving DecidableEq

/-- `enum iwl_tx_flags`, of the old layout. -/
def txCmdFlgProtRequire : BitVec 32 := BitVec.twoPow 32 0
def txCmdFlgWriteTxPower : BitVec 32 := BitVec.twoPow 32 1
def txCmdFlgAck : BitVec 32 := BitVec.twoPow 32 3
/-- "use RS table with initial index from the TX command. Otherwise, use rate_n_flags from the TX
command". -/
def txCmdFlgStaRate : BitVec 32 := BitVec.twoPow 32 4
def txCmdFlgBar : BitVec 32 := BitVec.twoPow 32 6
def txCmdFlgBtPrioPos : ℕ := 11
def txCmdFlgSeqCtl : BitVec 32 := BitVec.twoPow 32 13
def txCmdFlgMoreFrag : BitVec 32 := BitVec.twoPow 32 14
def txCmdFlgTsf : BitVec 32 := BitVec.twoPow 32 16

/-- `enum iwl_tx_cmd_flags`, of the new layouts: "use rate from the TX command". The flags field has
32 bits in one and 16 bits in the other. -/
def iwlTxFlagsCmdRate (w : ℕ) : BitVec w := BitVec.twoPow w 0
def iwlTxFlagsEncryptDis (w : ℕ) : BitVec w := BitVec.twoPow w 1

/-- `enum iwl_tx_pm_timeouts`. -/
def pmFrameNone : BitVec 16 := 0
def pmFrameMgmt : BitVec 16 := 2
def pmFrameAssoc : BitVec 16 := 3

/-! ## The driver -/

/-- The parts of `struct iwl_mvm` that the transmission of a frame reads. -/
structure TxMvm where
  /-- `trans->trans_cfg->use_tfh`. -/
  useTfh : Bool
  deviceFamily : DeviceFamily
  /-- `ieee80211_hw_check(mvm->hw, HAS_RATE_CONTROL)`. -/
  hasRateControl : Bool
  /-- `iwl_fw_lookup_cmd_ver(mvm->fw, TX_CMD, 0)`. -/
  txCmdVer : ℕ
  /-- `iwl_mvm_bt_coex_is_shared_ant_avail`. -/
  sharedAntAvail : Bool
  nonSharedAnt : BitVec 8
  mgmtLastAntennaIdx : ℕ
  rtsThreshold : ℕ
  /-- `IWL_UCODE_TLV_CAPA_TXPOWER_INSERTION_SUPPORT`. -/
  txpowerInsertion : Bool
  snifQueue : ℕ
  snifSta : BitVec 8
  auxQueue : ℕ
  auxSta : BitVec 8
  probeQueue : ℕ
  p2pDevQueue : ℕ
  /-- `flq_res.monitor_tx_rate`. -/
  monitorTxRate : BitVec 32

/-- What is looked up elsewhere for a frame. -/
structure TxLookup where
  /-- `iwl_mvm_tx_csum_pre_bz`. -/
  txCsumPreBz : SkBuff → TxInfo → Bool → BitVec 16
  /-- `iwl_mvm_tx_csum`. -/
  txCsum : SkBuff → TxInfo → Bool → BitVec 32
  /-- `iwl_mvm_bt_coex_tx_prio`. -/
  btCoexTxPrio : SkBuff → TxInfo → ℕ → BitVec 8
  /-- `iwl_mvm_mac_ctxt_get_lowest_rate`. -/
  lowestRate : TxInfo → ℕ
  /-- `iwl_mvm_mac80211_idx_to_hwrate`. -/
  idxToHwrate : ℤ → BitVec 8
  /-- `ieee80211_action_contains_tpc`. -/
  actionContainsTpc : SkBuff → Bool
  /-- `ieee80211_get_tkip_p2k`. -/
  tkipP2k : KeyConf → SkBuff → Bytes
  /-- `iwl_mvm_probe_resp_set_noa`. -/
  probeRespSetNoa : SkBuff → TxInfo → SkBuff

section Build

variable (mvm : TxMvm) (lookup : TxLookup)

/-- `iwl_mvm_has_new_tx_api`. -/
def hasNewTxApi : Bool := mvm.useTfh

/-- `iwl_mvm_get_tx_ant`. -/
def iwlMvmGetTxAnt (info : TxInfo) (sta : Option Sta) (fc : BitVec 16) : BitVec 32 :=
  if info.band = .ghz2 ∧ mvm.sharedAntAvail = false then mvm.nonSharedAnt.setWidth 32 <<< 14
  else
    match sta with
    | some sta =>
      if isData fc then BitVec.twoPow 32 sta.txAnt <<< 14
      else BitVec.twoPow 32 mvm.mgmtLastAntennaIdx <<< 14
    | none => BitVec.twoPow 32 mvm.mgmtLastAntennaIdx <<< 14

/-- `IWL_FIRST_OFDM_RATE`. -/
def iwlFirstOfdmRate : ℤ := 4

/-- `IWL_RATE_COUNT_LEGACY`. -/
def iwlRateCountLegacy : ℤ := 12

/-- `iwl_mvm_get_tx_rate`. -/
def iwlMvmGetTxRate (info : TxInfo) : BitVec 32 :=
  let rateIdx : ℤ :=
    if mvm.hasRateControl then -1
    else if info.band ≠ .ghz2 ∨ info.noCckRate = true then info.rateIdx + iwlFirstOfdmRate
    else info.rateIdx
  let rateIdx : ℤ :=
    if rateIdx < 0 ∨ iwlRateCountLegacy ≤ rateIdx then lookup.lowestRate info else rateIdx
  let ratePlcp := lookup.idxToHwrate rateIdx
  let isCck : Bool := decide (0 ≤ rateIdx ∧ rateIdx ≤ 3)
  let rateFlags : BitVec 32 :=
    if 8 < mvm.txCmdVer then if !isCck then 1#32 <<< 8 else 0#32 <<< 8
    else if isCck then BitVec.twoPow 32 9
    else 0
  ratePlcp.setWidth 32 ||| rateFlags

/-- `iwl_mvm_get_tx_rate_n_flags`. -/
def iwlMvmGetTxRateNFlags (info : TxInfo) (sta : Option Sta) (fc : BitVec 16) : BitVec 32 :=
  iwlMvmGetTxRate mvm lookup info ||| iwlMvmGetTxAnt mvm info sta fc

/-- `TX_CMD_SEC_*`. -/
def txCmdSecWep : BitVec 8 := 0x01
def txCmdSecCcm : BitVec 8 := 0x02
def txCmdSecTkip : BitVec 8 := 0x03
def txCmdSecExt : BitVec 8 := 0x04
def txCmdSecGcmp : BitVec 8 := 0x05
def txCmdSecKey128 : BitVec 8 := 0x08
def txCmdSecKeyFromTable : BitVec 8 := 0x10

/-- The case `WLAN_CIPHER_SUITE_WEP40` of `iwl_mvm_set_tx_cmd_crypto`. -/
def setTxCmdWep (keyconf : KeyConf) (cmd : IwlTxCmd) : IwlTxCmd :=
  { cmd with
    secCtl := cmd.secCtl ||| (txCmdSecWep ||| ((keyconf.keyidx <<< 6) &&& 0xc0#8))
    key := memcpyAt cmd.key 3 keyconf.key }

/-- Its cases that take the key from the table. -/
def setTxCmdKeyFromTable (keyconf : KeyConf) (type : BitVec 8) (cmd : IwlTxCmd) : IwlTxCmd :=
  { cmd with
    secCtl := cmd.secCtl ||| (type ||| txCmdSecKeyFromTable)
    key := memcpyAt cmd.key 0 [keyconf.hwKeyIdx] }

/-- `iwl_mvm_set_tx_cmd_crypto`, what it writes to the command. -/
def iwlMvmSetTxCmdCrypto (keyconf : KeyConf) (skb : SkBuff) (cmd : IwlTxCmd) : IwlTxCmd :=
  match keyconf.cipher with
  | .ccmp => { cmd with secCtl := txCmdSecCcm, key := memcpyAt cmd.key 0 keyconf.key }
  | .tkip =>
    { cmd with secCtl := txCmdSecTkip, key := memcpyAt cmd.key 0 (lookup.tkipP2k keyconf skb) }
  | .wep104 => setTxCmdWep keyconf { cmd with secCtl := cmd.secCtl ||| txCmdSecKey128 }
  | .wep40 => setTxCmdWep keyconf cmd
  | .gcmp => setTxCmdKeyFromTable keyconf txCmdSecGcmp cmd
  | .gcmp256 => setTxCmdKeyFromTable keyconf txCmdSecGcmp cmd
  | .ccmp256 => setTxCmdKeyFromTable keyconf txCmdSecCcm cmd
  | .other _ => { cmd with secCtl := cmd.secCtl ||| txCmdSecExt }

/-- `IWL_MAX_TID_COUNT`. -/
def iwlMaxTidCount : ℕ := 8

/-- `tid_to_mac80211_ac`: `VO` is 0, `VI` 1, `BE` 2 and `BK` 3. -/
def tidToMac80211Ac : List ℕ := [2, 3, 3, 2, 1, 1, 0, 0, 0]

/-- The branches of `iwl_mvm_set_tx_cmd` by the kind of frame: `tx_flags`, `tid_tspec` and
`amsdu`. -/
def setTxCmdTid (skb : SkBuff) (info : TxInfo) (txFlags : BitVec 32) :
    BitVec 32 × BitVec 8 × Bool :=
  let fc := skb.frameControl
  if isDataQos fc then
    (txFlags &&& ~~~txCmdFlgSeqCtl, (qosCtl skb &&& 0xf).toBitVec, (qosCtl skb &&& 0x80) != 0)
  else if isBackReq fc then
    let control := BitVec.ofNat 16 (leNat ((skb.data.drop 16).take 2))
    (txFlags ||| (txCmdFlgAck ||| txCmdFlgBar), ((control &&& 0xf000#16) >>> 12).setWidth 8, false)
  else
    (if info.assignSeq then txFlags ||| txCmdFlgSeqCtl else txFlags &&& ~~~txCmdFlgSeqCtl,
      if isData fc then 0 else BitVec.ofNat 8 iwlMaxTidCount, false)

/-- `iwl_mvm_set_tx_cmd`. -/
def iwlMvmSetTxCmd (skb : SkBuff) (info : TxInfo) (staId : BitVec 8) (cmd : IwlTxCmd) : IwlTxCmd :=
  let fc := skb.frameControl
  let len := skb.data.length + 4
  let txFlags := cmd.txFlags
  let txFlags :=
    if info.noAck = false ∨ (isProbeResp fc = true ∧ skb.isMulticast = false) then
      txFlags ||| txCmdFlgAck
    else txFlags &&& ~~~txCmdFlgAck
  let txFlags := if isProbeResp fc then txFlags ||| txCmdFlgTsf else txFlags
  let txFlags := if hasMorefrags fc then txFlags ||| txCmdFlgMoreFrag else txFlags
  let (txFlags, tidTspec, amsdu) := setTxCmdTid skb info txFlags
  let ac :=
    if tidTspec.toNat < iwlMaxTidCount then tidToMac80211Ac.getD tidTspec.toNat 0
    else tidToMac80211Ac.getD 0 0
  let txFlags :=
    txFlags ||| ((lookup.btCoexTxPrio skb info ac).setWidth 32 <<< txCmdFlgBtPrioPos)
  let pmFrameTimeout :=
    if isMgmt fc then
      if isAssocReq fc || isReassocReq fc then pmFrameAssoc
      else if isAction fc then pmFrameNone
      else pmFrameMgmt
    else if info.portCtrlProto then pmFrameMgmt
    else pmFrameNone
  let txFlags :=
    if isData fc = true ∧ mvm.rtsThreshold < len ∧ skb.isMulticast = false then
      txFlags ||| txCmdFlgProtRequire
    else txFlags
  let txFlags :=
    if mvm.txpowerInsertion && lookup.actionContainsTpc skb then txFlags ||| txCmdFlgWriteTxPower
    else txFlags
  { cmd with
    tidTspec := tidTspec
    pmFrameTimeout := pmFrameTimeout
    txFlags := txFlags
    len := BitVec.ofNat 16 skb.data.length
    lifeTime := 0xffffffff#32
    staId := staId
    offloadAssist := lookup.txCsumPreBz skb info amsdu }

/-- The retry limits that `iwl_mvm_set_tx_cmd_rate` sets. -/
def setTxCmdRetry (fc : BitVec 16) (cmd : IwlTxCmd) : IwlTxCmd :=
  if isProbeResp fc then { cmd with dataRetryLimit := 3, rtsRetryLimit := 3 }
  else if isBackReq fc then { cmd with dataRetryLimit := 60, rtsRetryLimit := 60 }
  else { cmd with dataRetryLimit := 15, rtsRetryLimit := 60 }

/-- `iwl_mvm_set_tx_cmd_rate`. -/
def iwlMvmSetTxCmdRate (info : TxInfo) (sta : Option Sta) (fc : BitVec 16) (cmd : IwlTxCmd) :
    IwlTxCmd :=
  let cmd := setTxCmdRetry fc cmd
  let withRate (cmd : IwlTxCmd) : IwlTxCmd :=
    { cmd with rateNFlags := iwlMvmGetTxRateNFlags mvm lookup info sta fc }
  if isData fc && sta.isSome then
    if sta.any Sta.authorized then
      { cmd with initialRateIndex := 0, txFlags := cmd.txFlags ||| txCmdFlgStaRate }
    else withRate cmd
  else if isBackReq fc then
    withRate { cmd with txFlags := cmd.txFlags ||| (txCmdFlgAck ||| txCmdFlgBar) }
  else withRate cmd

/-- `iwl_mvm_set_tx_params`; `alloc` tells whether `iwl_trans_alloc_tx_cmd` finds memory. The
command starts out zeroed. -/
def iwlMvmSetTxParams (alloc : Bool) (skb : SkBuff) (info : TxInfo) (hdrlen : ℕ)
    (sta : Option Sta) (staId : BitVec 8) : Option DevCmd :=
  let fc := skb.frameControl
  if alloc = false then none
  else if hasNewTxApi mvm then
    let amsdu := isDataQos fc && (qosCtl skb &&& 0x80) != 0
    let flags : BitVec 16 := if info.hwKey.isNone then iwlTxFlagsEncryptDis 16 else 0
    let cmdRate := sta.isNone || !isData fc || sta.any (fun sta => !sta.authorized)
    let flags := if cmdRate then flags ||| iwlTxFlagsCmdRate 16 else flags
    let rateNFlags := if cmdRate then iwlMvmGetTxRateNFlags mvm lookup info sta fc else 0
    if .ax210 ≤ mvm.deviceFamily then
      some (.gen3 {
        offloadAssist := lookup.txCsum skb info amsdu
        len := BitVec.ofNat 16 skb.data.length
        hdr := skb.data.take hdrlen
        flags := flags
        rateNFlags := rateNFlags })
    else
      some (.gen2 {
        offloadAssist := lookup.txCsumPreBz skb info amsdu
        len := BitVec.ofNat 16 skb.data.length
        hdr := skb.data.take hdrlen
        flags := flags.setWidth 32
        rateNFlags := rateNFlags })
  else
    let cmd : IwlTxCmd := {}
    let cmd := info.hwKey.elim cmd fun keyconf => iwlMvmSetTxCmdCrypto lookup keyconf skb cmd
    let cmd := iwlMvmSetTxCmd mvm lookup skb info staId cmd
    let cmd := iwlMvmSetTxCmdRate mvm lookup info sta fc cmd
    some (.old { cmd with hdr := skb.data.take hdrlen })

end Build

/-- The layout that a device takes. -/
def DevCmd.IsFor (mvm : TxMvm) : DevCmd → Prop
  | .old _ => hasNewTxApi mvm = false
  | .gen2 _ => hasNewTxApi mvm = true ∧ ¬ .ax210 ≤ mvm.deviceFamily
  | .gen3 _ => hasNewTxApi mvm = true ∧ .ax210 ≤ mvm.deviceFamily

/-- The layout is that of the device. -/
theorem layout_setTxParams {mvm : TxMvm} {lookup : TxLookup} {alloc : Bool} {skb : SkBuff}
    {info : TxInfo} {hdrlen : ℕ} {sta : Option Sta} {staId : BitVec 8} {cmd : DevCmd}
    (h : iwlMvmSetTxParams mvm lookup alloc skb info hdrlen sta staId = some cmd) :
    cmd.IsFor mvm := by
  unfold iwlMvmSetTxParams at h
  dsimp only at h
  split at h
  · cases h
  · split at h
    · split at h <;> cases h <;> exact ⟨by assumption, by assumption⟩
    · cases h
      exact Bool.eq_false_iff.2 (by assumption)

end Iax.Mvm
