import Iax.Dvm.RotateRates
import Iax.Dvm.Stations
import Iax.Mvm.TxCmd

/-!
# The rate of a frame

The driver sends a frame to the monitor address at one experimental rate, a frame to the broadcast
address at another, and other data frames at rotating rates (`iwlagn_tx_skb` in `tx.c`). What it
looks at is not the address but the station that it has chosen for the frame.

* `iwlagnTxSkb`: the frame's command, as far as its rate. `txCmdBuildRate` is
  `iwlagn_tx_cmd_build_rate` for any frame.
* `wantedRate`: the rate by the destination.
* `tx_rate_iff`: for which frames and settings of the experimental rates the two agree.
-/

namespace Iax.Dvm

open Mvm (Band isData isProbeResp isBackReq)

/-! ## Frames and the driver -/

/-- `struct ieee80211_sta`: `sta_id` of its `struct iwl_station_priv`, and the rates of each band
that it supports, as bits. -/
structure DvmSta where
  staId : ℕ
  suppRates : Band → ℕ

/-- `struct ieee80211_tx_info`. -/
structure DvmTxInfo where
  band : Band
  /-- The context of `control.vif`. -/
  vifCtx : Option RxonContextId
  /-- `control.rates[0].idx`. -/
  rateIdx : ℤ
  /-- `control.rates[0].flags & IEEE80211_TX_RC_MCS`. -/
  rateMcs : Bool

/-- `struct ieee80211_hdr`. -/
structure DvmHdr where
  frameControl : BitVec 16
  addr1 : BitVec 48

/-- The experimental rates of `struct iwl_priv`. -/
structure RateSettings where
  monitorTxRate : BitVec 32
  bcastTxRate : BitVec 32
  rot : Rotation

/-- What is read of `struct iwl_priv`. -/
structure TxPriv where
  rfkill : Bool
  wowlan : Bool
  mgmtTxAnt : ℕ
  /-- `nvm_data->valid_tx_ant`. -/
  validTxAnt : ℕ
  /-- `nvm_data->bands[..].n_bitrates`. -/
  nBitrates : Band → ℕ
  /-- Bluetooth coexistence is advanced, and `bt_full_concurrent`. -/
  btFullConcurrent : Bool
  /-- The band is 2.4 GHz, and `bt_traffic_load` is high. -/
  btHighLoad : Bool
  settings : RateSettings

/-! ## Rates of frames that are not experimental -/

/-- `rate_lowest_index`. -/
def rateLowestIndex (nBitrates : ℕ) (band : Band) (sta : Option DvmSta) : ℕ :=
  ((List.range nBitrates).find? fun i => sta.all fun s => (s.suppRates band).testBit i).getD 0

/-- `iwl_rates[..].plcp`. -/
def iwlRatesPlcp : List ℕ := [10, 20, 55, 110, 13, 15, 5, 7, 9, 11, 1, 3, 3]

/-- `first_antenna`. -/
def firstAntenna (mask : ℕ) : ℕ :=
  if mask.testBit 0 then 1 else if mask.testBit 1 then 2 else 4

/-- `iwl_toggle_tx_ant`: the next antenna that is valid. -/
def iwlToggleTxAnt (priv : TxPriv) (ant valid : ℕ) : ℕ :=
  if priv.btHighLoad then 0
  else
    let next (ind : ℕ) : ℕ := if ind + 1 < 3 then ind + 1 else 0
    if valid.testBit (next ant) then next ant
    else if valid.testBit (next (next ant)) then next (next ant)
    else ant

/-- `data_retry_limit` and `rts_retry_limit`. -/
def retryLimits (wowlan : Bool) (fc : BitVec 16) : ℕ × ℕ :=
  if wowlan then (7, 7)
  else if isProbeResp fc then (3, 3)
  else if isBackReq fc then (60, 60)
  else (15, 60)

/-- `iwlagn_tx_cmd_build_rate`. A rate index behind the table gives no word. -/
def txCmdBuildRate (priv : TxPriv) (sta : Option DvmSta) (info : DvmTxInfo) (fc : BitVec 16)
    (cmd : TxRate) : TxPriv × TxRate :=
  if isData fc then
    let (rot, cmd) := iwlagnTxCmdBuildRate priv.settings.rot priv.wowlan cmd
    ({ priv with settings.rot := rot }, cmd)
  else
    let (dataRetryLimit, rtsRetryLimit) := retryLimits priv.wowlan fc
    let rateIdx :=
      if info.rateMcs || info.rateIdx < 0 || 12 < info.rateIdx then
        rateLowestIndex (priv.nBitrates info.band) info.band sta
      else info.rateIdx.toNat
    let rateIdx := if info.band = .ghz5 then rateIdx + 4 else rateIdx
    let rateFlags := if rateIdx ≤ 3 then 0x200 else 0
    let valid := if priv.btFullConcurrent then firstAntenna priv.validTxAnt else priv.validTxAnt
    let ant := iwlToggleTxAnt priv priv.mgmtTxAnt valid
    let rateFlags := rateFlags ||| 2 ^ ant <<< 14
    ({ priv with mgmtTxAnt := ant },
      { cmd with
        staRate := cmd.staRate || isBackReq fc
        rateNFlags := (iwlRatesPlcp[rateIdx]?).map (rateFlags ||| ·)
        dataRetryLimit := dataRetryLimit
        rtsRetryLimit := rtsRetryLimit })

/-! ## The command of a frame -/

/-- `IWL_INVALID_STATION`. -/
def iwlInvalidStation : ℕ := 255

/-- `ctx`. -/
def DvmTxInfo.ctx (info : DvmTxInfo) : RxonContextId := info.vifCtx.getD .bss

/-- `iwl_sta_id_or_broadcast`. -/
def iwlStaIdOrBroadcast (ctx : RxonContextId) : Option DvmSta → ℕ
  | none => ctx.bcastStaId
  | some sta => sta.staId

/-- `sta_id` before the monitor address is looked at, `none` when the frame is dropped. -/
def txStaId (sta : Option DvmSta) (info : DvmTxInfo) (hdr : DvmHdr) : Option ℕ :=
  if isData hdr.frameControl = false then some info.ctx.bcastStaId
  else
    let staId := iwlStaIdOrBroadcast info.ctx sta
    if staId = iwlInvalidStation then none else some staId

/-- The rate of a command that has just been allocated. -/
def TxRate.zero : TxRate := ⟨false, some 0, 0, 0, 0⟩

/-- `iwlagn_tx_skb` as far as the command's rate. `alloc` tells whether there is memory for the
command. -/
def iwlagnTxSkb (priv : TxPriv) (alloc : Bool) (sta : Option DvmSta) (info : DvmTxInfo)
    (hdr : DvmHdr) : TxPriv × Option TxRate :=
  if priv.rfkill then (priv, none)
  else
    match txStaId sta info hdr with
    | none => (priv, none)
    | some staId =>
      let staId := if sta.isNone ∧ hdr.addr1 = iwlMonitorAddr then iwlagnMonitorId.val else staId
      if alloc = false then (priv, none)
      else if staId = iwlagnMonitorId ∧ priv.settings.monitorTxRate ≠ 0 then
        (priv, some { TxRate.zero with rateNFlags := some priv.settings.monitorTxRate.toNat })
      else if staId = info.ctx.bcastStaId ∧ priv.settings.bcastTxRate ≠ 0 then
        (priv, some { TxRate.zero with rateNFlags := some priv.settings.bcastTxRate.toNat })
      else
        let (priv, cmd) := txCmdBuildRate priv sta info hdr.frameControl .zero
        (priv, some cmd)

/-! ## The rate by the destination -/

/-- The fields of a command that decide about its rate: the flag, the word, and the index for the
firmware's table. -/
def TxRate.rate (cmd : TxRate) : Bool × Option ℕ × ℕ :=
  (cmd.staRate, cmd.rateNFlags, cmd.initialRateIndex)

/-- Without experimental rates. -/
def RateSettings.off : RateSettings := ⟨0, 0, .disabled⟩

/-- The rate of an experimental word. -/
def wordRate (word : BitVec 32) : Bool × Option ℕ × ℕ := (false, some word.toNat, 0)

/-- The rate of a frame that gets no such word, and the rotation behind it: the next entry, or the
rate with all settings off. -/
def plainRate (priv : TxPriv) (sta : Option DvmSta) (info : DvmTxInfo) (hdr : DvmHdr) :
    (Bool × Option ℕ × ℕ) × Rotation :=
  let rot := priv.settings.rot
  if isData hdr.frameControl ∧ rot.rotateRates ≠ 0 then
    ((false, rot.rotateRateArray.bind (·.entries[rot.lastRotateRate]?), 0),
      { rot with lastRotateRate := (rot.lastRotateRate + 1) % rot.rotateRateTotal })
  else
    ((txCmdBuildRate { priv with settings := .off } sta info hdr.frameControl .zero).2.rate, rot)

/-- The rate of a frame that is for the monitor, or for everyone, as the two propositions say. -/
def rateBy (mon bcast : Prop) [Decidable mon] [Decidable bcast] (priv : TxPriv)
    (sta : Option DvmSta) (info : DvmTxInfo) (hdr : DvmHdr) :
    (Bool × Option ℕ × ℕ) × Rotation :=
  if mon ∧ priv.settings.monitorTxRate ≠ 0 then
    (wordRate priv.settings.monitorTxRate, priv.settings.rot)
  else if bcast ∧ priv.settings.bcastTxRate ≠ 0 then
    (wordRate priv.settings.bcastTxRate, priv.settings.rot)
  else plainRate priv sta info hdr

/-- The rate by the destination, and the rotation behind it. -/
def wantedRate (priv : TxPriv) (sta : Option DvmSta) (info : DvmTxInfo) (hdr : DvmHdr) :
    (Bool × Option ℕ × ℕ) × Rotation :=
  rateBy (sta.isNone ∧ hdr.addr1 = iwlMonitorAddr) (hdr.addr1 = iwlBcastAddr) priv sta info hdr

/-- The command has the rate by the destination, and the rotation has moved accordingly; a frame
that is dropped leaves the rotation as it is. -/
def FollowsDestination (priv : TxPriv) (alloc : Bool) (sta : Option DvmSta) (info : DvmTxInfo)
    (hdr : DvmHdr) : Prop :=
  match iwlagnTxSkb priv alloc sta info hdr with
  | (priv', none) => priv'.settings.rot = priv.settings.rot
  | (priv', some cmd) => (cmd.rate, priv'.settings.rot) = wantedRate priv sta info hdr

instance (priv : TxPriv) (alloc : Bool) (sta : Option DvmSta) (info : DvmTxInfo) (hdr : DvmHdr) :
    Decidable (FollowsDestination priv alloc sta info hdr) := by
  unfold FollowsDestination
  split <;> infer_instance

/-- The frame is dropped before its command is built. -/
def TxDropped (priv : TxPriv) (alloc : Bool) (sta : Option DvmSta) (hdr : DvmHdr) : Prop :=
  priv.rfkill = true ∨ alloc = false ∨
    isData hdr.frameControl = true ∧ ∃ s, sta = some s ∧ s.staId = iwlInvalidStation

/-- An experimental rate that is set goes by the station as it would go by the destination: the
broadcast rate, for frames that are not data or have no station, and both rates for data to a
station. -/
def RateFits (settings : RateSettings) (sta : Option DvmSta) (info : DvmTxInfo) (hdr : DvmHdr) :
    Prop :=
  match if isData hdr.frameControl then sta else none with
  | none => settings.bcastTxRate ≠ 0 →
      hdr.addr1 = iwlBcastAddr ∨ sta = none ∧ hdr.addr1 = iwlMonitorAddr
  | some s => (settings.monitorTxRate ≠ 0 → s.staId ≠ iwlagnMonitorId) ∧
      (settings.bcastTxRate ≠ 0 → (s.staId = info.ctx.bcastStaId ↔ hdr.addr1 = iwlBcastAddr))

instance (settings : RateSettings) (sta : Option DvmSta) (info : DvmTxInfo) (hdr : DvmHdr) :
    Decidable (RateFits settings sta info hdr) := by
  unfold RateFits
  split <;> infer_instance

/-- The frame has this word without an experimental rate: data as the only entry of the rotation,
and any other frame but a block ack request as the word of its rate index and antenna. -/
def HasWord (priv : TxPriv) (sta : Option DvmSta) (info : DvmTxInfo) (hdr : DvmHdr)
    (word : BitVec 32) : Prop :=
  if isData hdr.frameControl then
    let rot := priv.settings.rot
    rot.rotateRates ≠ 0 ∧ rot.rotateRateTotal = 1 ∧ rot.lastRotateRate = 0 ∧
      rot.rotateRateArray.bind (·.entries[0]?) = some word.toNat
  else
    isBackReq hdr.frameControl = false ∧
      (txCmdBuildRate priv sta info hdr.frameControl .zero).2.rateNFlags = some word.toNat

instance (priv : TxPriv) (sta : Option DvmSta) (info : DvmTxInfo) (hdr : DvmHdr)
    (word : BitVec 32) : Decidable (HasWord priv sta info hdr word) := by
  unfold HasWord
  infer_instance

/-- The rates between which the station decides for the wrong one are equal: the monitor rate and
the broadcast rate, or an experimental rate and the one that the frame has without it. -/
def SameRate (priv : TxPriv) (sta : Option DvmSta) (info : DvmTxInfo) (hdr : DvmHdr) : Prop :=
  let word := priv.settings
  if isData hdr.frameControl ∧ sta.map DvmSta.staId = some iwlagnMonitorId.val ∧
      word.monitorTxRate ≠ 0 then
    if hdr.addr1 = iwlBcastAddr ∧ word.bcastTxRate ≠ 0 then word.monitorTxRate = word.bcastTxRate
    else HasWord priv sta info hdr word.monitorTxRate
  else HasWord priv sta info hdr word.bcastTxRate

instance (priv : TxPriv) (sta : Option DvmSta) (info : DvmTxInfo) (hdr : DvmHdr) :
    Decidable (SameRate priv sta info hdr) := by
  unfold SameRate
  infer_instance

/-! ## Stations and destinations -/

section Proofs

variable {priv : TxPriv} {alloc : Bool} {sta : Option DvmSta} {info : DvmTxInfo} {hdr : DvmHdr}

/-- The station id of a frame that is not dropped. -/
def finalStaId (sta : Option DvmSta) (info : DvmTxInfo) (hdr : DvmHdr) : ℕ :=
  if sta.isNone ∧ hdr.addr1 = iwlMonitorAddr then iwlagnMonitorId.val
  else if isData hdr.frameControl = false then info.ctx.bcastStaId
  else iwlStaIdOrBroadcast info.ctx sta

theorem bcastStaId_ne (ctx : RxonContextId) : (ctx.bcastStaId : ℕ) ≠ iwlagnMonitorId := by
  cases ctx <;> decide

/-- A data frame is rotated, and every other frame is as with the settings off. -/
theorem txCmdBuildRate_rate :
    ((txCmdBuildRate priv sta info hdr.frameControl .zero).2.rate,
        (txCmdBuildRate priv sta info hdr.frameControl .zero).1.settings.rot) =
      plainRate priv sta info hdr := by
  unfold plainRate
  by_cases hdata : isData hdr.frameControl
  · by_cases hon : priv.settings.rot.rotateRates = 0
    · simp [txCmdBuildRate, hdata, iwlagnTxCmdBuildRate, hon, RateSettings.off, Rotation.disabled,
        TxRate.rate]
    · simp [txCmdBuildRate, hdata, iwlagnTxCmdBuildRate, hon, TxRate.rate, TxRate.zero]
  · simp only [txCmdBuildRate, hdata, Bool.false_eq_true, if_false, false_and]
    rfl

theorem add_one_mod_eq_iff {n k : ℕ} : (k + 1) % n = k ↔ n = 1 ∧ k = 0 := by
  constructor
  · intro h
    rcases Nat.eq_zero_or_pos n with rfl | hn
    · rw [Nat.mod_zero] at h
      omega
    · have hk : k < n := h ▸ Nat.mod_lt _ hn
      rcases Nat.lt_or_ge (k + 1) n with hlt | hge
      · rw [Nat.mod_eq_of_lt hlt] at h
        omega
      · obtain rfl : n = k + 1 := by omega
        rw [Nat.mod_self] at h
        omega
  · rintro ⟨rfl, rfl⟩
    rfl

theorem plainRate_eq_iff (word : BitVec 32) :
    plainRate priv sta info hdr = (wordRate word, priv.settings.rot) ↔
      HasWord priv sta info hdr word := by
  unfold plainRate HasWord wordRate
  by_cases hdata : isData hdr.frameControl
  · by_cases hon : priv.settings.rot.rotateRates = 0
    · simp [hdata, hon, txCmdBuildRate, iwlagnTxCmdBuildRate, RateSettings.off, Rotation.disabled,
        TxRate.rate]
    · have hmove : { priv.settings.rot with
            lastRotateRate := (priv.settings.rot.lastRotateRate + 1) %
              priv.settings.rot.rotateRateTotal } = priv.settings.rot ↔
          priv.settings.rot.rotateRateTotal = 1 ∧ priv.settings.rot.lastRotateRate = 0 := by
        rw [← add_one_mod_eq_iff]
        exact ⟨congrArg Rotation.lastRotateRate, fun h => by rw [h]⟩
      simp only [hdata, hon, ne_eq, not_false_eq_true, and_self, if_true, Prod.mk.injEq, true_and,
        and_true, hmove]
      constructor
      · rintro ⟨hword, htotal, hlast⟩
        exact ⟨htotal, hlast, hlast ▸ hword⟩
      · rintro ⟨htotal, hlast, hword⟩
        exact ⟨hlast ▸ hword, htotal, hlast⟩
  · have hrate : (txCmdBuildRate { priv with settings := .off } sta info hdr.frameControl
          .zero).2.rate = (isBackReq hdr.frameControl,
            (txCmdBuildRate priv sta info hdr.frameControl .zero).2.rateNFlags, 0) := by
      simp only [txCmdBuildRate, hdata, Bool.false_eq_true, if_false]
      rfl
    simp only [hdata, Bool.false_eq_true, false_and, if_false, hrate, Prod.mk.injEq, and_true]

theorem iwlagnTxSkb_of_dropped (h : TxDropped priv alloc sta hdr) :
    iwlagnTxSkb priv alloc sta info hdr = (priv, none) := by
  rcases h with hkill | rfl | ⟨hdata, s, rfl, hs⟩
  · simp only [iwlagnTxSkb, hkill, if_true]
  · simp only [iwlagnTxSkb]
    split <;> [rfl; split <;> rfl]
  · simp [iwlagnTxSkb, txStaId, hdata, iwlStaIdOrBroadcast, hs]

theorem txStaId_of_not_dropped (h : ¬ TxDropped priv alloc sta hdr) :
    ∃ staId, txStaId sta info hdr = some staId ∧
      (if sta.isNone ∧ hdr.addr1 = iwlMonitorAddr then iwlagnMonitorId.val else staId) =
        finalStaId sta info hdr := by
  unfold txStaId finalStaId
  cases hdata : isData hdr.frameControl with
  | false => exact ⟨_, rfl, rfl⟩
  | true =>
    have hvalid : iwlStaIdOrBroadcast info.ctx sta ≠ iwlInvalidStation := by
      cases sta with
      | none => exact (Nat.lt_trans info.ctx.bcastStaId.isLt (by decide)).ne
      | some s => exact fun hs => h (.inr (.inr ⟨hdata, s, rfl, hs⟩))
    refine ⟨iwlStaIdOrBroadcast info.ctx sta, ?_, rfl⟩
    simp only [Bool.true_eq_false, if_false, if_neg hvalid]

/-- **What a frame gets**, when it is not dropped, against what it should get. -/
theorem followsDestination_iff (h : ¬ TxDropped priv alloc sta hdr) :
    FollowsDestination priv alloc sta info hdr ↔
      rateBy (finalStaId sta info hdr = iwlagnMonitorId)
          (finalStaId sta info hdr = info.ctx.bcastStaId) priv sta info hdr =
        wantedRate priv sta info hdr := by
  obtain ⟨staId, hsta, hfinal⟩ : ∃ staId, txStaId sta info hdr = some staId ∧ _ :=
    txStaId_of_not_dropped h
  have hkill : priv.rfkill ≠ true := fun hkill => h (.inl hkill)
  have halloc : alloc ≠ false := fun halloc => h (.inr (.inl halloc))
  rw [FollowsDestination, iwlagnTxSkb, if_neg hkill, hsta, rateBy]
  simp only [hfinal, if_neg halloc]
  split_ifs with hmon hbcast
  · rfl
  · rfl
  · rw [← txCmdBuildRate_rate]

theorem wordRate_injective : Function.Injective wordRate := fun word word' h => by
  simpa [wordRate, BitVec.toNat_inj] using h

section RateBy

variable {mon bcast : Prop} [Decidable mon] [Decidable bcast]

theorem rateBy_monitor (hmon : mon) (hset : priv.settings.monitorTxRate ≠ 0) :
    rateBy mon bcast priv sta info hdr =
      (wordRate priv.settings.monitorTxRate, priv.settings.rot) :=
  if_pos ⟨hmon, hset⟩

theorem rateBy_bcast (hmon : ¬ (mon ∧ priv.settings.monitorTxRate ≠ 0)) (hbcast : bcast)
    (hset : priv.settings.bcastTxRate ≠ 0) :
    rateBy mon bcast priv sta info hdr =
      (wordRate priv.settings.bcastTxRate, priv.settings.rot) :=
  (if_neg hmon).trans (if_pos ⟨hbcast, hset⟩)

theorem rateBy_plain (hmon : ¬ (mon ∧ priv.settings.monitorTxRate ≠ 0))
    (hbcast : ¬ (bcast ∧ priv.settings.bcastTxRate ≠ 0)) :
    rateBy mon bcast priv sta info hdr = plainRate priv sta info hdr :=
  (if_neg hmon).trans (if_neg hbcast)

end RateBy

/-- When no frame is for the monitor's address and no station is the monitor's, the two rates differ
at most about the broadcast rate. -/
theorem rateBy_eq_iff_of_not_monitor {mon mon' bcast bcast' : Prop} [Decidable mon]
    [Decidable mon'] [Decidable bcast] [Decidable bcast']
    (hmon : ¬ (mon ∧ priv.settings.monitorTxRate ≠ 0))
    (hmon' : ¬ (mon' ∧ priv.settings.monitorTxRate ≠ 0)) :
    rateBy mon bcast priv sta info hdr = rateBy mon' bcast' priv sta info hdr ↔
      (priv.settings.bcastTxRate ≠ 0 → (bcast ↔ bcast')) ∨
        HasWord priv sta info hdr priv.settings.bcastTxRate := by
  by_cases hset : priv.settings.bcastTxRate = 0
  · refine iff_of_true ?_ (.inl fun h => absurd hset h)
    rw [rateBy_plain hmon fun h => h.2 hset, rateBy_plain hmon' fun h => h.2 hset]
  · by_cases hbcast : bcast <;> by_cases hbcast' : bcast'
    · refine iff_of_true ?_ (.inl fun _ => iff_of_true hbcast hbcast')
      rw [rateBy_bcast hmon hbcast hset, rateBy_bcast hmon' hbcast' hset]
    · rw [rateBy_bcast hmon hbcast hset, rateBy_plain hmon' fun h => hbcast' h.1, eq_comm,
        plainRate_eq_iff, or_iff_right fun h => hbcast' ((h hset).1 hbcast)]
    · rw [rateBy_plain hmon fun h => hbcast h.1, rateBy_bcast hmon' hbcast' hset,
        plainRate_eq_iff, or_iff_right fun h => hbcast ((h hset).2 hbcast')]
    · refine iff_of_true ?_ (.inl fun _ => iff_of_false hbcast hbcast')
      rw [rateBy_plain hmon fun h => hbcast h.1, rateBy_plain hmon' fun h => hbcast' h.1]

/-- A frame that is not data, or has no station. -/
theorem rateBy_eq_wanted_of_noStation
    (h : (if isData hdr.frameControl then sta else none) = none) :
    rateBy (finalStaId sta info hdr = iwlagnMonitorId)
        (finalStaId sta info hdr = info.ctx.bcastStaId) priv sta info hdr =
      wantedRate priv sta info hdr ↔
    RateFits priv.settings sta info hdr ∨ SameRate priv sta info hdr := by
  have hctx := bcastStaId_ne info.ctx
  have hother : ¬ (isData hdr.frameControl = true ∧
      sta.map DvmSta.staId = some iwlagnMonitorId.val ∧ priv.settings.monitorTxRate ≠ 0) := by
    rintro ⟨hdata, hsta, -⟩
    rw [if_pos hdata] at h
    rw [h] at hsta
    cases hsta
  rw [RateFits, h, SameRate, if_neg hother, wantedRate]
  by_cases hmon : sta.isNone ∧ hdr.addr1 = iwlMonitorAddr
  · have hid : finalStaId sta info hdr = iwlagnMonitorId := if_pos hmon
    have haddr : hdr.addr1 ≠ iwlBcastAddr := hmon.2 ▸ by decide
    refine iff_of_true ?_ (.inl fun _ => .inr ⟨Option.isNone_iff_eq_none.1 hmon.1, hmon.2⟩)
    simp only [rateBy, eq_true hmon, hid, eq_false hctx.symm, eq_false haddr]
  · have hid : finalStaId sta info hdr = info.ctx.bcastStaId := by
      rw [finalStaId, if_neg hmon]
      split_ifs with hdata
      · rfl
      · rw [if_pos (Bool.eq_true_of_not_eq_false hdata)] at h
        rw [h, iwlStaIdOrBroadcast]
    have hmon' : ¬ (sta = none ∧ hdr.addr1 = iwlMonitorAddr) := by
      rwa [← Option.isNone_iff_eq_none]
    rw [rateBy_eq_iff_of_not_monitor (fun h => hctx (hid.symm.trans h.1)) fun h => hmon h.1,
      or_iff_left hmon', iff_true_left hid]

/-- Data to a station. -/
theorem rateBy_eq_wanted_of_station {s : DvmSta} (hdata : isData hdr.frameControl = true) :
    rateBy (finalStaId (some s) info hdr = iwlagnMonitorId)
        (finalStaId (some s) info hdr = info.ctx.bcastStaId) priv (some s) info hdr =
      wantedRate priv (some s) info hdr ↔
    RateFits priv.settings (some s) info hdr ∨ SameRate priv (some s) info hdr := by
  have hid : finalStaId (some s) info hdr = s.staId := by
    simp [finalStaId, hdata, iwlStaIdOrBroadcast]
  have hwanted : ¬ (((some s).isNone = true ∧ hdr.addr1 = iwlMonitorAddr) ∧
      priv.settings.monitorTxRate ≠ 0) := by
    rintro ⟨⟨hnone, -⟩, -⟩
    cases hnone
  simp only [hid, RateFits, SameRate, hdata, if_true, true_and, Option.map_some,
    Option.some.injEq, wantedRate]
  by_cases hmon : s.staId = iwlagnMonitorId.val ∧ priv.settings.monitorTxRate ≠ 0
  · rw [if_pos hmon, rateBy_monitor hmon.1 hmon.2, or_iff_right fun h => h.1 hmon.2 hmon.1]
    split_ifs with hbcast
    · rw [rateBy_bcast hwanted hbcast.1 hbcast.2, Prod.mk.injEq, and_iff_left rfl,
        wordRate_injective.eq_iff]
    · rw [rateBy_plain hwanted hbcast, eq_comm, plainRate_eq_iff]
  · rw [if_neg hmon, rateBy_eq_iff_of_not_monitor hmon hwanted,
      and_iff_right fun hset hid => hmon ⟨hid, hset⟩]

/-- **Rates by destination.** A frame has the rate by its destination if and only if it is dropped,
or the rates that are set go by its station as by its destination, or the rates that are mixed up
are equal. -/
theorem tx_rate_iff (priv : TxPriv) (alloc : Bool) (sta : Option DvmSta) (info : DvmTxInfo)
    (hdr : DvmHdr) :
    FollowsDestination priv alloc sta info hdr ↔
      TxDropped priv alloc sta hdr ∨ RateFits priv.settings sta info hdr ∨
        SameRate priv sta info hdr := by
  by_cases hdrop : TxDropped priv alloc sta hdr
  · refine iff_of_true ?_ (.inl hdrop)
    rw [FollowsDestination, iwlagnTxSkb_of_dropped hdrop]
  · rw [or_iff_right hdrop, followsDestination_iff hdrop]
    cases hdata : isData hdr.frameControl with
    | false => exact rateBy_eq_wanted_of_noStation (by rw [hdata]; rfl)
    | true =>
      cases sta with
      | none => exact rateBy_eq_wanted_of_noStation (by rw [hdata]; rfl)
      | some s => exact rateBy_eq_wanted_of_station hdata

end Proofs

/-! ## Frames -/

/-- A driver without experimental rates but the broadcast one. -/
def bcastPriv : TxPriv where
  rfkill := false
  wowlan := false
  mgmtTxAnt := 0
  validTxAnt := 7
  nBitrates := fun _ => 12
  btFullConcurrent := false
  btHighLoad := false
  settings := ⟨0, 0x4101, .disabled⟩

/-- The frame's information in the examples. -/
def plainInfo : DvmTxInfo := ⟨.ghz2, none, 0, false⟩

/-- An authentication frame for one address. -/
def authHdr : DvmHdr := ⟨0x00b0, 0x001122334455⟩

/-- Beacons, data for everyone and data to a station fit. An authentication frame does not, unless
there is no broadcast rate or the broadcast rate is the rate that the frame has anyway. -/
theorem tx_rate_iff_frames :
    FollowsDestination bcastPriv true none plainInfo ⟨0x0080, iwlBcastAddr⟩ ∧
      FollowsDestination bcastPriv true none plainInfo ⟨0x0008, iwlBcastAddr⟩ ∧
      FollowsDestination bcastPriv true (some ⟨0, fun _ => 1⟩) plainInfo
        ⟨0x0008, 0x001122334455⟩ ∧
      ¬ FollowsDestination bcastPriv true none plainInfo authHdr ∧
      FollowsDestination { bcastPriv with settings := .off } true none plainInfo authHdr ∧
      FollowsDestination { bcastPriv with settings := ⟨0, 0x820a, .disabled⟩ } true none plainInfo
        authHdr := by
  refine ⟨?_, ?_, ?_, ?_, ?_, ?_⟩
  · exact (tx_rate_iff _ _ _ _ _).2 (.inr (.inl (by decide)))
  · exact (tx_rate_iff _ _ _ _ _).2 (.inr (.inl (by decide)))
  · exact (tx_rate_iff _ _ _ _ _).2 (.inr (.inl (by decide)))
  · rw [tx_rate_iff]
    rintro ((h | h | ⟨-, s, h, -⟩) | h | h)
    · cases h
    · cases h
    · cases h
    · exact absurd h (by decide)
    · exact absurd h (by decide)
  · exact (tx_rate_iff _ _ _ _ _).2 (.inr (.inl (by decide)))
  · exact (tx_rate_iff _ _ _ _ _).2 (.inr (.inr (by decide)))

/-- **A frame for one station at the broadcast rate**: an authentication frame, which is not data,
goes to the broadcast station. -/
theorem tx_rate_auth :
    (iwlagnTxSkb bcastPriv true none plainInfo authHdr).2.map (fun cmd => cmd.rate) =
        some (false, some 0x4101, 0) ∧
      ¬ FollowsDestination bcastPriv true none plainInfo authHdr := by
  decide +kernel

end Iax.Dvm
