import Iax.Lib.BitField
import Mathlib.Tactic.IntervalCases

/-!
# The two layouts of the rate word

`iwl_new_rate_from_v1` (`fw/rs.c`) turns a `rate_n_flags` word of the first layout into one of the
second. `decodeV1` and `decodeV2` are what `fw/api/rs.h` says about the two layouts.

* `newRateRate_ht`, `newRateRate_vht`, `newRateRate_he`, `newRateRate_legacy` and
  `iwlNewRateFromV1_eq`: the result as an or of fields.
* `new_rate_decodes_iff`: the result has the meaning of the given word unless its guard interval is
  lost (`LosesGuard`). The HE type is compared at the place of the second layout, and bit 10 of an
  HT word is the greenfield preamble, not HE.
-/

namespace Iax.Mvm.RateWord

open BitField

/-! ## Masks -/

/-- The masks of the first layout. -/
def rateMcsHtMskV1 : BitVec 32 := 1 <<< 8

def rateMcsCckMskV1 : BitVec 32 := 1 <<< 9

def rateMcsVhtMskV1 : BitVec 32 := 1 <<< 26

def rateHtMcsRateCodeMskV1 : BitVec 32 := 0x7

def rateHtMcsNssPosV1 : ℕ := 3

def rateHtMcsMimo2Msk : BitVec 32 := 1 <<< 3

def rateVhtMcsRateCodeMsk : BitVec 32 := 0xf

def rateLegacyRateMskV1 : BitVec 32 := 0xff

def rateMcsHeMskV1 : BitVec 32 := 1 <<< 10

def rateMcsChanWidthPos : ℕ := 11

def rateMcsChanWidthMskV1 : BitVec 32 := 3 <<< 11

def rateMcsSgiPosV1 : ℕ := 13

def rateMcsSgiMskV1 : BitVec 32 := 1 <<< 13

def rateMcsAntABMsk : BitVec 32 := 1 <<< 14 ||| 2 <<< 14

def rateMcsStbcMsk : BitVec 32 := 1 <<< 17

def rateHeDualCarrierModeMsk : BitVec 32 := 1 <<< 18

def rateMcsBfMsk : BitVec 32 := 1 <<< 19

def rateMcsHeGiLtfPos : ℕ := 20

def rateMcsHeGiLtfMskV1 : BitVec 32 := 3 <<< 20

def rateMcsHeTypePosV1 : ℕ := 22

def rateMcsHeTypeMskV1 : BitVec 32 := 3 <<< 22

def rateMcsDupPosV1 : ℕ := 24

def rateMcsDupMskV1 : BitVec 32 := 3 <<< 24

def rateMcsLdpcMskV1 : BitVec 32 := 1 <<< 27

def rateMcsHe106tPosV1 : ℕ := 28

def rateMcsHe106tMskV1 : BitVec 32 := 1 <<< 28

/-- The masks of the second layout. -/
def rateMcsLegacyOfdmMsk : BitVec 32 := 1 <<< 8

def rateMcsHtMsk : BitVec 32 := 2 <<< 8

def rateMcsVhtMsk : BitVec 32 := 3 <<< 8

def rateMcsHeMsk : BitVec 32 := 4 <<< 8

def rateMcsNssPos : ℕ := 4

def rateMcsNssMsk : BitVec 32 := 1 <<< 4

def rateMcsLdpcMsk : BitVec 32 := 1 <<< 16

def rateMcsSgiMsk : BitVec 32 := 1 <<< 20

def rateMcsHeSu4Ltf : BitVec 32 := 3

def rateMcsHeTypePos : ℕ := 23

def rateMcsHeTypeSu : BitVec 32 := 0 <<< 23

def rateMcsHeTypeExtSu : BitVec 32 := 1 <<< 23

def rateMcsDupMsk : BitVec 32 := 1 <<< 25

def rateMcsHe106tPos : ℕ := 26

/-! ## The conversion -/

def iwlFirstCckRate : ℕ := 0

def iwlFirstOfdmRate : ℕ := 4

def iwlRateCountLegacy : ℕ := 12

def iwlRateInvalid : ℕ := 17

/-- `fw_rate_idx_to_plcp`; the entries that are not declared are zero. -/
def fwRateIdxToPlcp : List (BitVec 8) :=
  [10, 20, 55, 110, 13, 15, 5, 7, 9, 11, 1, 3, 0, 0, 0, 0, 0]

/-- `iwl_fw_rate_idx_to_plcp`. -/
def iwlFwRateIdxToPlcp (idx : ℕ) : BitVec 8 := fwRateIdxToPlcp.getD idx 0

/-- `iwl_legacy_rate_to_fw_idx`. -/
def iwlLegacyRateToFwIdx (rateNFlags : BitVec 32) : ℕ :=
  let rate := rateNFlags &&& rateLegacyRateMskV1
  let ofdm : Bool := rateNFlags &&& rateMcsCckMskV1 = 0
  let offset := if ofdm then iwlFirstOfdmRate else 0
  let last := if ofdm then iwlRateCountLegacy else iwlFirstOfdmRate
  match (List.range' offset (last - offset)).find? fun idx =>
    (iwlFwRateIdxToPlcp idx).setWidth 32 = rate with
  | some idx => idx - offset
  | none => iwlRateInvalid

/-- The HE part of `iwl_new_rate_from_v1`. -/
def newRateHe (rateV1 : BitVec 32) : BitVec 32 :=
  let heTypeBits := rateV1 &&& rateMcsHeTypeMskV1
  let heType := heTypeBits >>> rateMcsHeTypePosV1
  let he106t := (rateV1 &&& rateMcsHe106tMskV1) >>> rateMcsHe106tPosV1
  let heGiLtf := (rateV1 &&& rateMcsHeGiLtfMskV1) >>> rateMcsHeGiLtfPos
  let heGiLtf :=
    if (heTypeBits = rateMcsHeTypeSu ∨ heTypeBits = rateMcsHeTypeExtSu) ∧
        heGiLtf = rateMcsHeSu4Ltf then
      heGiLtf + (rateV1 &&& rateMcsSgiMskV1) >>> rateMcsSgiPosV1
    else heGiLtf
  heGiLtf <<< rateMcsHeGiLtfPos ||| heType <<< rateMcsHeTypePos ||| he106t <<< rateMcsHe106tPos |||
    rateV1 &&& rateHeDualCarrierModeMsk ||| rateMcsHeMsk

/-- The part of `iwl_new_rate_from_v1` that converts the rate. -/
def newRateRate (rateV1 : BitVec 32) : BitVec 32 :=
  if rateV1 &&& rateMcsHtMskV1 ≠ 0 then
    let nss := (rateV1 &&& rateHtMcsMimo2Msk) >>> rateHtMcsNssPosV1
    rateMcsHtMsk ||| rateV1 &&& rateHtMcsRateCodeMskV1 ||| nss <<< rateMcsNssPos
  else if rateV1 &&& rateMcsVhtMskV1 ≠ 0 ∨ rateV1 &&& rateMcsHeMskV1 ≠ 0 then
    rateV1 &&& rateVhtMcsRateCodeMsk ||| rateV1 &&& rateMcsNssMsk |||
      (if rateV1 &&& rateMcsHeMskV1 ≠ 0 then newRateHe rateV1 else rateMcsVhtMsk)
  else
    let legacyRate := iwlLegacyRateToFwIdx rateV1
    let legacyRate :=
      if legacyRate = iwlRateInvalid then
        if rateV1 &&& rateMcsCckMskV1 ≠ 0 then iwlFirstCckRate else iwlFirstOfdmRate
      else legacyRate
    BitVec.ofNat 32 legacyRate |||
      (if rateV1 &&& rateMcsCckMskV1 = 0 then rateMcsLegacyOfdmMsk else 0)

/-- The part of `iwl_new_rate_from_v1` that converts the flags. -/
def newRateFlags (rateV1 : BitVec 32) : BitVec 32 :=
  let dup := (rateV1 &&& rateMcsDupMskV1) >>> rateMcsDupPosV1
  (if rateV1 &&& rateMcsLdpcMskV1 ≠ 0 then rateMcsLdpcMsk else 0) |||
    (rateV1 &&& rateMcsChanWidthMskV1 ||| rateV1 &&& rateMcsAntABMsk |||
      rateV1 &&& rateMcsStbcMsk ||| rateV1 &&& rateMcsBfMsk) |||
    (if dup ≠ 0 then rateMcsDupMsk ||| dup <<< rateMcsChanWidthPos else 0) |||
    (if rateV1 &&& rateMcsHeMskV1 = 0 ∧ rateV1 &&& rateMcsSgiMskV1 ≠ 0 then rateMcsSgiMsk else 0)

/-- `iwl_new_rate_from_v1`. -/
def iwlNewRateFromV1 (rateV1 : BitVec 32) : BitVec 32 :=
  if rateV1 = 0 then rateV1 else newRateRate rateV1 ||| newRateFlags rateV1

/-! ## What the layouts say -/

inductive Modulation
  | cck | ofdm | ht | vht | he
  deriving DecidableEq

inductive HeType
  | su | extSu | mu | trig
  deriving DecidableEq

/-- A guard interval in nanoseconds, and the length of the long training field of an HE rate. -/
structure Guard where
  ltf : ℕ
  ns : ℕ
  deriving DecidableEq

/-- The meaning of a rate word. The MCS of a legacy rate is its bit rate in kb/s. -/
structure Rate where
  modulation : Modulation
  mcs : ℕ
  nss : ℕ
  bandwidth : ℕ
  guard : Option Guard
  heType : Option HeType
  tone106 : Bool
  dcm : Bool
  ldpc : Bool
  stbc : Bool
  bf : Bool
  antA : Bool
  antB : Bool
  deriving DecidableEq

/-- The HE type, at different places of the two layouts. -/
def heTypeOf (bits : BitVec 2) : HeType :=
  if bits = 0 then .su else if bits = 1 then .extSu else if bits = 2 then .mu else .trig

/-- The bandwidth in MHz. -/
def bandwidthOf (bits : ℕ) : ℕ := 20 * 2 ^ bits

/-- The long training field and guard interval of an HE rate of the first layout, `none` for what
does not occur. -/
def heGuardV1 (type : HeType) (giLtf : ℕ) (sgi : Bool) : Option Guard :=
  match type, giLtf with
  | .su, 0 | .extSu, 0 => some ⟨1, 800⟩
  | .su, 1 | .extSu, 1 | .mu, 1 => some ⟨2, 800⟩
  | .su, 2 | .extSu, 2 | .mu, 2 => some ⟨2, 1600⟩
  | .su, 3 | .extSu, 3 => some ⟨4, if sgi then 800 else 3200⟩
  | .mu, 0 => some ⟨4, 800⟩
  | .mu, 3 => some ⟨4, 3200⟩
  | .trig, 0 => some ⟨1, 1600⟩
  | .trig, 1 => some ⟨2, 1600⟩
  | .trig, 2 => some ⟨4, 3200⟩
  | _, _ => none

/-- The same of the second layout. -/
def heGuardV2 (type : HeType) (giLtf : ℕ) : Option Guard :=
  match type, giLtf with
  | .su, 0 | .extSu, 0 => some ⟨1, 800⟩
  | .su, 1 | .extSu, 1 | .mu, 1 => some ⟨2, 800⟩
  | .su, 2 | .extSu, 2 | .mu, 2 => some ⟨2, 1600⟩
  | .su, 3 | .extSu, 3 | .mu, 3 => some ⟨4, 3200⟩
  | .su, 4 | .extSu, 4 | .mu, 0 => some ⟨4, 800⟩
  | .trig, 0 => some ⟨1, 1600⟩
  | .trig, 1 => some ⟨2, 1600⟩
  | .trig, 2 => some ⟨4, 3200⟩
  | _, _ => none

/-- The guard interval of an HT or a VHT rate. -/
def htGuard (sgi : Bool) : Guard := ⟨0, if sgi then 400 else 800⟩

/-- The codes of the CCK rates in the first layout. -/
def cckRateV1 : ℕ → Option ℕ
  | 10 => some 1000
  | 20 => some 2000
  | 55 => some 5500
  | 110 => some 11000
  | _ => none

/-- The codes of the OFDM rates in the first layout. -/
def ofdmRateV1 : ℕ → Option ℕ
  | 0xD => some 6000
  | 0xF => some 9000
  | 0x5 => some 12000
  | 0x7 => some 18000
  | 0x9 => some 24000
  | 0xB => some 36000
  | 0x1 => some 48000
  | 0x3 => some 54000
  | _ => none

/-- The CCK rates of the second layout. -/
def cckRateV2 (idx : ℕ) : Option ℕ := [1000, 2000, 5500, 11000][idx]?

/-- The OFDM rates of the second layout. -/
def ofdmRateV2 (idx : ℕ) : Option ℕ := [6000, 9000, 12000, 18000, 24000, 36000, 48000, 54000][idx]?

/-- The modulation of the first layout: one of the bits 8, 9, 10 and 26. Bit 10 of an HT word says
whether the preamble is greenfield. -/
def modulationV1 (w : BitVec 32) : Option Modulation :=
  match w.getLsbD 8, w.getLsbD 9, w.getLsbD 10, w.getLsbD 26 with
  | true, false, _, false => some .ht
  | false, true, false, false => some .cck
  | false, false, true, false => some .he
  | false, false, false, true => some .vht
  | false, false, false, false => some .ofdm
  | _, _, _, _ => none

/-- The number of a field. -/
def fieldAt (w : BitVec 32) (pos len : ℕ) : ℕ := (w.extractLsb' pos len).toNat

/-- A word of the first layout with a given modulation, `none` when it is not that of one valid rate
with at most two streams, on antennas A and B and without duplication. -/
def decodeAsV1 (w : BitVec 32) (modulation : Modulation) : Option Rate :=
  let sgi := w.getLsbD 13
  let rate (mcs nss : ℕ) (guard : Option Guard) (heType : Option HeType) : Rate :=
    { modulation := modulation
      mcs := mcs
      nss := nss
      bandwidth := bandwidthOf (fieldAt w 11 2)
      guard := guard
      heType := heType
      tone106 := modulation = .he && w.getLsbD 28
      dcm := modulation = .he && w.getLsbD 18
      ldpc := w.getLsbD 27
      stbc := w.getLsbD 17
      bf := w.getLsbD 19
      antA := w.getLsbD 14
      antB := w.getLsbD 15 }
  if w.getLsbD 16 = true ∨ w.extractLsb' 24 2 ≠ 0 then none
  else match modulation with
    | .cck => (cckRateV1 (fieldAt w 0 8)).map fun kbps => rate kbps 1 none none
    | .ofdm => (ofdmRateV1 (fieldAt w 0 8)).map fun kbps => rate kbps 1 none none
    | .ht =>
      if fieldAt w 0 8 < 16 then
        some (rate (fieldAt w 0 4) (fieldAt w 3 1 + 1) (some (htGuard sgi)) none)
      else none
    | .vht =>
      if w.extractLsb' 5 3 = 0 ∧ fieldAt w 0 4 ≤ 9 then
        some (rate (fieldAt w 0 4) (fieldAt w 4 1 + 1) (some (htGuard sgi)) none)
      else none
    | .he =>
      if w.extractLsb' 5 3 = 0 ∧ fieldAt w 0 4 ≤ 11 then
        let type := heTypeOf (w.extractLsb' 22 2)
        (heGuardV1 type (fieldAt w 20 2) sgi).map fun guard =>
          rate (fieldAt w 0 4) (fieldAt w 4 1 + 1) (some guard) (some type)
      else none

/-- The rate of a word of the first layout. -/
def decodeV1 (w : BitVec 32) : Option Rate := (modulationV1 w).bind (decodeAsV1 w)

/-- The modulation of the second layout. -/
def modulationV2 (w : BitVec 32) : Option Modulation :=
  [Modulation.cck, .ofdm, .ht, .vht, .he][fieldAt w 8 3]?

/-- A word of the second layout with a given modulation. -/
def decodeAsV2 (w : BitVec 32) (modulation : Modulation) : Option Rate :=
  let sgi := w.getLsbD 20
  let rate (mcs nss : ℕ) (guard : Option Guard) (heType : Option HeType) : Rate :=
    { modulation := modulation
      mcs := mcs
      nss := nss
      bandwidth := bandwidthOf (fieldAt w 11 3)
      guard := guard
      heType := heType
      tone106 := modulation = .he && w.getLsbD 26
      dcm := modulation = .he && w.getLsbD 18
      ldpc := w.getLsbD 16
      stbc := w.getLsbD 17
      bf := w.getLsbD 19
      antA := w.getLsbD 14
      antB := w.getLsbD 15 }
  if w.getLsbD 25 then none
  else match modulation with
    | .cck => (cckRateV2 (fieldAt w 0 3)).map fun kbps => rate kbps 1 none none
    | .ofdm => (ofdmRateV2 (fieldAt w 0 3)).map fun kbps => rate kbps 1 none none
    | .ht =>
      some (rate (8 * fieldAt w 4 1 + fieldAt w 0 3) (fieldAt w 4 1 + 1) (some (htGuard sgi)) none)
    | .vht => some (rate (fieldAt w 0 4) (fieldAt w 4 1 + 1) (some (htGuard sgi)) none)
    | .he =>
      let type := heTypeOf (w.extractLsb' 23 2)
      (heGuardV2 type (fieldAt w 20 3)).map fun guard =>
        rate (fieldAt w 0 4) (fieldAt w 4 1 + 1) (some guard) (some type)

/-- The rate of a word of the second layout. -/
def decodeV2 (w : BitVec 32) : Option Rate := (modulationV2 w).bind (decodeAsV2 w)

/-! ## The defect -/

/-- The words whose guard interval is lost: an extended SU or an MU rate with the value 3 and the
SGI bit, and a greenfield HT rate with the SGI bit. -/
def LosesGuard (w : BitVec 32) : Prop :=
  w.getLsbD 13 = true ∧
    (w.getLsbD 8 = true ∧ w.getLsbD 10 = true ∨
      w.getLsbD 8 = false ∧ w.getLsbD 10 = true ∧ fieldAt w 20 2 = 3 ∧
        (heTypeOf (w.extractLsb' 22 2) = .extSu ∨ heTypeOf (w.extractLsb' 22 2) = .mu))

/-! ## The result as an or of fields -/

/-- The fields of the second layout that say what the rate is. -/
structure RateFields where
  mcs : BitVec 4
  nss : BitVec 1
  modulation : BitVec 3
  giLtf : BitVec 3
  heType : BitVec 2
  tone106 : BitVec 1
  dcm : BitVec 1

/-- Their word. -/
def RateFields.word (f : RateFields) : BitVec 32 :=
  place 32 0 f.mcs ||| place 32 4 f.nss |||
    (place 32 20 f.giLtf ||| place 32 23 f.heType ||| place 32 26 f.tone106 |||
      place 32 18 f.dcm ||| place 32 8 f.modulation)

/-- The SGI bit where it is not part of the HE setting. -/
def sgiField (w : BitVec 32) : BitVec 1 := if w.getLsbD 10 then 0 else w.extractLsb' 13 1

/-- The word of the fields that are copied from a word of the first layout. -/
def flagsWord (w : BitVec 32) : BitVec 32 :=
  place 32 16 (w.extractLsb' 27 1) |||
    (place 32 11 (w.extractLsb' 11 2) ||| place 32 14 (w.extractLsb' 14 2) |||
      place 32 17 (w.extractLsb' 17 1) ||| place 32 19 (w.extractLsb' 19 1)) |||
    place 32 20 (sgiField w)

theorem newRateFlags_eq {w : BitVec 32} (hdup : w.extractLsb' 24 2 = 0) :
    newRateFlags w = flagsWord w := by
  have hsgi : (if w &&& rateMcsHeMskV1 = 0 ∧ w &&& rateMcsSgiMskV1 ≠ 0 then rateMcsSgiMsk else 0) =
      place 32 20 (sgiField w) := by
    have hhe := and_bit_ne_zero w rateMcsHeMskV1 10 (by decide) rfl
    by_cases h10 : w.getLsbD 10 = true
    · rw [sgiField, if_pos h10, if_neg fun h => hhe.2 h10 h.1]
      exact (place_zero 20).symm
    · have hzero : w &&& rateMcsHeMskV1 = 0 := not_not.1 (mt hhe.1 h10)
      rw [sgiField, if_neg h10,
        ← ite_and_bit w rateMcsSgiMskV1 rateMcsSgiMsk 13 20 (by decide) rfl rfl]
      simp only [hzero, true_and]
  simp only [newRateFlags, hsgi, flagsWord]
  rw [and_eq_place w rateMcsDupMskV1 24 2 rfl, hdup,
    ite_and_bit w rateMcsLdpcMskV1 rateMcsLdpcMsk 27 16 (by decide) rfl rfl,
    and_eq_place w rateMcsChanWidthMskV1 11 2 rfl, and_eq_place w rateMcsAntABMsk 14 2 rfl,
    and_eq_place w rateMcsStbcMsk 17 1 rfl, and_eq_place w rateMcsBfMsk 19 1 rfl]
  simp

/-- The fields of an HT rate. -/
def htFields (w : BitVec 32) : RateFields :=
  ⟨(w.extractLsb' 0 3).setWidth 4, w.extractLsb' 3 1, 2, 0, 0, 0, 0⟩

/-- The fields of a VHT rate. -/
def vhtFields (w : BitVec 32) : RateFields :=
  ⟨w.extractLsb' 0 4, w.extractLsb' 4 1, 3, 0, 0, 0, 0⟩

/-- The guard interval setting of an HE rate: the test of the type is at the place of the second
layout, where a type that is 2 in the first layout is 1. -/
def heGiLtf (type giLtf : BitVec 2) (sgi : Bool) : BitVec 3 :=
  if (type = 0 ∨ type = 2) ∧ giLtf = 3 ∧ sgi = true then 4 else giLtf.setWidth 3

/-- The fields of an HE rate. -/
def heFields (w : BitVec 32) : RateFields :=
  ⟨w.extractLsb' 0 4, w.extractLsb' 4 1, 4,
    heGiLtf (w.extractLsb' 22 2) (w.extractLsb' 20 2) (w.getLsbD 13), w.extractLsb' 22 2,
    w.extractLsb' 28 1, w.extractLsb' 18 1⟩

/-- The fields of a legacy rate. -/
def legacyFields (ofdm : Bool) (idx : BitVec 4) : RateFields :=
  ⟨idx, 0, if ofdm then 1 else 0, 0, 0, 0, 0⟩

theorem newRateRate_ht {w : BitVec 32} (h8 : w.getLsbD 8 = true) :
    newRateRate w = (htFields w).word := by
  have hht := (and_bit_ne_zero w rateMcsHtMskV1 8 (by decide) rfl).2 h8
  have hmod : rateMcsHtMsk = place 32 8 2#3 := rfl
  have hnss : place 32 3 (w.extractLsb' 3 1) >>> rateHtMcsNssPosV1 <<< rateMcsNssPos =
      place 32 4 (w.extractLsb' 3 1) := place_move 4 _ (by decide)
  rw [newRateRate, if_pos hht, and_eq_place w rateHtMcsMimo2Msk 3 1 rfl,
    and_eq_place w rateHtMcsRateCodeMskV1 0 3 rfl, hmod, RateFields.word, htFields]
  simp only [BitVec.ofNat_eq_ofNat, place_zero, BitVec.or_zero, BitVec.zero_or, hnss,
    place_setWidth 0 (w.extractLsb' 0 3) (show 3 ≤ 4 by decide)]
  rw [BitVec.or_assoc, BitVec.or_comm]

theorem newRateRate_vht {w : BitVec 32} (h8 : w.getLsbD 8 = false) (h10 : w.getLsbD 10 = false)
    (h26 : w.getLsbD 26 = true) : newRateRate w = (vhtFields w).word := by
  have hht := (and_bit_eq_zero w rateMcsHtMskV1 8 (by decide) rfl).2 h8
  have hvht := (and_bit_ne_zero w rateMcsVhtMskV1 26 (by decide) rfl).2 h26
  have hhe := (and_bit_eq_zero w rateMcsHeMskV1 10 (by decide) rfl).2 h10
  have hmod : rateMcsVhtMsk = place 32 8 3#3 := rfl
  rw [newRateRate, if_neg (not_not.2 hht), if_pos (.inl hvht), if_neg (not_not.2 hhe),
    and_eq_place w rateVhtMcsRateCodeMsk 0 4 rfl, and_eq_place w rateMcsNssMsk 4 1 rfl, hmod,
    RateFields.word, vhtFields]
  simp only [BitVec.ofNat_eq_ofNat, place_zero, BitVec.zero_or]

/-- What the HE part tests and adds. -/
theorem newRateHe_giLtf (w : BitVec 32) :
    (if (place 32 22 (w.extractLsb' 22 2) = rateMcsHeTypeSu ∨
          place 32 22 (w.extractLsb' 22 2) = rateMcsHeTypeExtSu) ∧
        (w.extractLsb' 20 2).setWidth 32 = rateMcsHeSu4Ltf then
      (w.extractLsb' 20 2).setWidth 32 + (w.extractLsb' 13 1).setWidth 32
    else (w.extractLsb' 20 2).setWidth 32) =
      (heGiLtf (w.extractLsb' 22 2) (w.extractLsb' 20 2) (w.getLsbD 13)).setWidth 32 := by
  rw [extractLsb'_one]
  generalize w.extractLsb' 22 2 = type
  generalize w.extractLsb' 20 2 = giLtf
  generalize w.getLsbD 13 = sgi
  revert type giLtf sgi
  decide

theorem newRateRate_he {w : BitVec 32} (h8 : w.getLsbD 8 = false) (h10 : w.getLsbD 10 = true) :
    newRateRate w = (heFields w).word := by
  have hht := (and_bit_eq_zero w rateMcsHtMskV1 8 (by decide) rfl).2 h8
  have hhe := (and_bit_ne_zero w rateMcsHeMskV1 10 (by decide) rfl).2 h10
  have hmod : rateMcsHeMsk = place 32 8 4#3 := rfl
  have htype := place_move 23 (w.extractLsb' 22 2) (show 22 + 2 ≤ 32 by decide)
  have h106 := place_move 26 (w.extractLsb' 28 1) (show 28 + 1 ≤ 32 by decide)
  have hgi := place_ushiftRight (w.extractLsb' 20 2) (show 20 + 2 ≤ 32 by decide)
  have hsgi := place_ushiftRight (w.extractLsb' 13 1) (show 13 + 1 ≤ 32 by decide)
  rw [newRateRate, if_neg (not_not.2 hht), if_pos (.inr hhe), if_pos hhe,
    and_eq_place w rateVhtMcsRateCodeMsk 0 4 rfl, and_eq_place w rateMcsNssMsk 4 1 rfl, newRateHe,
    and_eq_place w rateMcsHeTypeMskV1 22 2 rfl, and_eq_place w rateMcsHe106tMskV1 28 1 rfl,
    and_eq_place w rateMcsHeGiLtfMskV1 20 2 rfl, and_eq_place w rateMcsSgiMskV1 13 1 rfl,
    and_eq_place w rateHeDualCarrierModeMsk 18 1 rfl, hmod, RateFields.word, heFields]
  simp only [rateMcsHeTypePosV1, rateMcsHeTypePos, rateMcsHe106tPosV1, rateMcsHe106tPos,
    rateMcsHeGiLtfPos, rateMcsSgiPosV1, htype, h106, hgi, hsgi, newRateHe_giLtf]
  rfl

/-- The rate part of a legacy code. -/
def legacyIdx (ofdm : Bool) (code : BitVec 8) : ℕ :=
  let offset := if ofdm then iwlFirstOfdmRate else 0
  let last := if ofdm then iwlRateCountLegacy else iwlFirstOfdmRate
  match (List.range' offset (last - offset)).find? fun idx =>
    (iwlFwRateIdxToPlcp idx).setWidth 32 = code.setWidth 32 with
  | some idx => idx - offset
  | none => iwlRateInvalid

theorem iwlLegacyRateToFwIdx_eq (w : BitVec 32) :
    iwlLegacyRateToFwIdx w = legacyIdx (!w.getLsbD 9) (w.extractLsb' 0 8) := by
  have hcode : w &&& rateLegacyRateMskV1 = (w.extractLsb' 0 8).setWidth 32 := by
    rw [and_eq_place w rateLegacyRateMskV1 0 8 rfl]
    exact BitVec.shiftLeft_zero _
  have hofdm : decide (w &&& rateMcsCckMskV1 = 0) = !w.getLsbD 9 := by
    have hcck := and_bit_eq_zero w rateMcsCckMskV1 9 (by decide) rfl
    cases h9 : w.getLsbD 9
    · exact decide_eq_true (hcck.2 h9)
    · exact decide_eq_false fun h => Bool.noConfusion (h9.symm.trans (hcck.1 h))
  simp only [iwlLegacyRateToFwIdx, hcode, hofdm]
  rfl

/-- The legacy rates of the two layouts agree. -/
theorem legacyIdx_rate : ∀ (ofdm : Bool) (code : BitVec 8),
    ∀ kbps ∈ (if ofdm then ofdmRateV1 else cckRateV1) code.toNat, legacyIdx ofdm code < 8 ∧
      (if ofdm then ofdmRateV2 else cckRateV2) (legacyIdx ofdm code) = some kbps := by
  decide +kernel

theorem newRateRate_legacy {w : BitVec 32} (h8 : w.getLsbD 8 = false) (h10 : w.getLsbD 10 = false)
    (h26 : w.getLsbD 26 = false) {idx : ℕ}
    (hidx : legacyIdx (!w.getLsbD 9) (w.extractLsb' 0 8) = idx) (hlt : idx < 8) :
    newRateRate w = (legacyFields (!w.getLsbD 9) (BitVec.ofNat 4 idx)).word := by
  have hht := (and_bit_eq_zero w rateMcsHtMskV1 8 (by decide) rfl).2 h8
  have hvht := (and_bit_eq_zero w rateMcsVhtMskV1 26 (by decide) rfl).2 h26
  have hhe := (and_bit_eq_zero w rateMcsHeMskV1 10 (by decide) rfl).2 h10
  have hne : idx ≠ iwlRateInvalid := by
    rw [iwlRateInvalid]
    omega
  have hmcs : BitVec.ofNat 32 idx = place 32 0 (BitVec.ofNat 4 idx) := by
    interval_cases idx <;> rfl
  have hmod : (if w &&& rateMcsCckMskV1 = 0 then rateMcsLegacyOfdmMsk else 0) =
      place 32 8 (if !w.getLsbD 9 then 1#3 else 0#3) := by
    rw [if_congr (and_bit_eq_zero w rateMcsCckMskV1 9 (by decide) rfl) rfl rfl]
    cases w.getLsbD 9 <;> rfl
  rw [newRateRate, if_neg (not_not.2 hht), if_neg (not_or.2 ⟨not_not.2 hvht, not_not.2 hhe⟩),
    iwlLegacyRateToFwIdx_eq, hidx]
  simp only [if_neg hne]
  rw [hmcs, hmod, RateFields.word, legacyFields]
  simp only [BitVec.ofNat_eq_ofNat, place_zero, BitVec.or_zero, BitVec.zero_or]

/-! ## Reading the result -/

section Read

variable (f : RateFields) (w : BitVec 32)

/-- The fields of the result. -/
theorem read_fields :
    (f.word ||| flagsWord w).extractLsb' 0 4 = f.mcs ∧
    (f.word ||| flagsWord w).extractLsb' 0 3 = f.mcs.setWidth 3 ∧
    (f.word ||| flagsWord w).extractLsb' 4 1 = f.nss ∧
    (f.word ||| flagsWord w).extractLsb' 8 3 = f.modulation ∧
    (f.word ||| flagsWord w).extractLsb' 11 3 = (w.extractLsb' 11 2).setWidth 3 ∧
    (f.word ||| flagsWord w).extractLsb' 20 3 = f.giLtf ||| (sgiField w).setWidth 3 ∧
    (f.word ||| flagsWord w).extractLsb' 23 2 = f.heType := by
  simp (disch := decide) only [RateFields.word, flagsWord, BitVec.extractLsb'_or,
    extractLsb'_place_self, extractLsb'_place_start, extractLsb'_place_of_le, extractLsb'_place,
    extractLsb'_of_le, BitVec.or_zero, BitVec.zero_or, and_self]

/-- The single bits of the result. -/
theorem read_bits :
    (f.word ||| flagsWord w).getLsbD 14 = w.getLsbD 14 ∧
    (f.word ||| flagsWord w).getLsbD 15 = w.getLsbD 15 ∧
    (f.word ||| flagsWord w).getLsbD 16 = w.getLsbD 27 ∧
    (f.word ||| flagsWord w).getLsbD 17 = w.getLsbD 17 ∧
    (f.word ||| flagsWord w).getLsbD 18 = f.dcm.getLsbD 0 ∧
    (f.word ||| flagsWord w).getLsbD 19 = w.getLsbD 19 ∧
    (f.word ||| flagsWord w).getLsbD 20 = (f.giLtf.getLsbD 0 || (sgiField w).getLsbD 0) ∧
    (f.word ||| flagsWord w).getLsbD 25 = false ∧
    (f.word ||| flagsWord w).getLsbD 26 = f.tone106.getLsbD 0 := by
  simp (disch := decide) only [RateFields.word, flagsWord, BitVec.getLsbD_or,
    getLsbD_place_of_le, getLsbD_place_of_lt, BitVec.getLsbD_of_ge, Bool.false_or, Bool.or_false,
    BitVec.getLsbD_extractLsb']
  simp

/-- A rate with what the two layouts have in common. -/
def rateWith (modulation : Modulation) (mcs nss : ℕ) (guard : Option Guard) (heType : Option HeType)
    (tone106 dcm : Bool) : Rate :=
  { modulation := modulation
    mcs := mcs
    nss := nss
    bandwidth := bandwidthOf (fieldAt w 11 2)
    guard := guard
    heType := heType
    tone106 := modulation = .he && tone106
    dcm := modulation = .he && dcm
    ldpc := w.getLsbD 27
    stbc := w.getLsbD 17
    bf := w.getLsbD 19
    antA := w.getLsbD 14
    antB := w.getLsbD 15 }

/-- What the result says, by its modulation. -/
theorem decodeAsV2_result (modulation : Modulation) :
    decodeAsV2 (f.word ||| flagsWord w) modulation =
      let guard := some (htGuard (f.giLtf.getLsbD 0 || (sgiField w).getLsbD 0))
      let rate (mcs nss : ℕ) (guard : Option Guard) (heType : Option HeType) : Rate :=
        rateWith w modulation mcs nss guard heType (f.tone106.getLsbD 0) (f.dcm.getLsbD 0)
      match modulation with
      | .cck => (cckRateV2 (f.mcs.setWidth 3).toNat).map fun kbps => rate kbps 1 none none
      | .ofdm => (ofdmRateV2 (f.mcs.setWidth 3).toNat).map fun kbps => rate kbps 1 none none
      | .ht =>
        some (rate (8 * f.nss.toNat + (f.mcs.setWidth 3).toNat) (f.nss.toNat + 1) guard none)
      | .vht => some (rate f.mcs.toNat (f.nss.toNat + 1) guard none)
      | .he =>
        (heGuardV2 (heTypeOf f.heType) (f.giLtf ||| (sgiField w).setWidth 3).toNat).map fun guard =>
          rate f.mcs.toNat (f.nss.toNat + 1) (some guard) (some (heTypeOf f.heType)) := by
  obtain ⟨hmcs, hcode, hnss, -, hbw, hgi, htype⟩ := read_fields f w
  obtain ⟨h14, h15, h16, h17, h18, h19, h20, h25, h26⟩ := read_bits f w
  have hwidth : ((w.extractLsb' 11 2).setWidth 3).toNat = (w.extractLsb' 11 2).toNat :=
    BitVec.toNat_setWidth_of_le (by decide)
  simp only [decodeAsV2, fieldAt, hmcs, hcode, hnss, hbw, hgi, htype, h14, h15, h16, h17, h18, h19,
    h20, h25, h26, hwidth]
  cases modulation <;> rfl

end Read

/-! ## The meaning of the result -/

theorem modulationV2_result (f : RateFields) (w : BitVec 32) :
    modulationV2 (f.word ||| flagsWord w) =
      [Modulation.cck, .ofdm, .ht, .vht, .he][f.modulation.toNat]? := by
  obtain ⟨-, -, -, hmod, -⟩ := read_fields f w
  rw [modulationV2, fieldAt, hmod]

/-- A word of the first layout, without its checks. -/
theorem decodeAsV1_eq_some {w : BitVec 32} {modulation : Modulation} {r : Rate}
    (h : decodeAsV1 w modulation = some r) :
    w.extractLsb' 24 2 = 0 ∧
      let rate (mcs nss : ℕ) (guard : Option Guard) (heType : Option HeType) : Rate :=
        rateWith w modulation mcs nss guard heType (w.getLsbD 28) (w.getLsbD 18)
      match modulation with
      | .cck => ∃ kbps ∈ cckRateV1 (fieldAt w 0 8), rate kbps 1 none none = r
      | .ofdm => ∃ kbps ∈ ofdmRateV1 (fieldAt w 0 8), rate kbps 1 none none = r
      | .ht => rate (fieldAt w 0 4) (fieldAt w 3 1 + 1) (some (htGuard (w.getLsbD 13))) none = r
      | .vht => rate (fieldAt w 0 4) (fieldAt w 4 1 + 1) (some (htGuard (w.getLsbD 13))) none = r
      | .he => ∃ guard ∈ heGuardV1 (heTypeOf (w.extractLsb' 22 2)) (fieldAt w 20 2) (w.getLsbD 13),
          rate (fieldAt w 0 4) (fieldAt w 4 1 + 1) (some guard)
            (some (heTypeOf (w.extractLsb' 22 2))) = r := by
  unfold decodeAsV1 at h
  dsimp only at h
  split at h
  · cases h
  · rename_i hvalid
    refine ⟨not_not.1 (not_or.1 hvalid).2, ?_⟩
    cases modulation with
    | cck => exact Option.map_eq_some_iff.1 h
    | ofdm => exact Option.map_eq_some_iff.1 h
    | ht =>
      dsimp only at h
      split at h
      · exact Option.some.inj h
      · cases h
    | vht =>
      dsimp only at h
      split at h
      · exact Option.some.inj h
      · cases h
    | he =>
      dsimp only at h
      split at h
      · exact Option.map_eq_some_iff.1 h
      · cases h

/-- A word that describes a rate is converted in its two parts. -/
theorem iwlNewRateFromV1_eq {w : BitVec 32} {r : Rate} (h : decodeV1 w = some r) :
    iwlNewRateFromV1 w = newRateRate w ||| flagsWord w := by
  have hne : w ≠ 0 := by
    rintro rfl
    have hnone : decodeV1 0 = none := by decide
    rw [hnone] at h
    cases h
  obtain ⟨m, -, hm⟩ := Option.bind_eq_some_iff.1 h
  rw [iwlNewRateFromV1, if_neg hne, newRateFlags_eq (decodeAsV1_eq_some hm).1]

/-- The modulations of the first layout by their bits. -/
theorem modulationV1_eq_some {w : BitVec 32} {m : Modulation} (h : modulationV1 w = some m) :
    m = .ht ∧ w.getLsbD 8 = true ∨
      w.getLsbD 8 = false ∧
        (m = .cck ∧ w.getLsbD 9 = true ∧ w.getLsbD 10 = false ∧ w.getLsbD 26 = false ∨
          m = .ofdm ∧ w.getLsbD 9 = false ∧ w.getLsbD 10 = false ∧ w.getLsbD 26 = false ∨
          m = .he ∧ w.getLsbD 10 = true ∨
          m = .vht ∧ w.getLsbD 10 = false ∧ w.getLsbD 26 = true) := by
  unfold modulationV1 at h
  split at h <;> cases h <;> simp_all

/-- An HE setting keeps its meaning unless the SGI bit is lost, or added where it does not count. -/
theorem heGuard_iff : ∀ (type giLtf : BitVec 2) (sgi : Bool),
    ∀ guard ∈ heGuardV1 (heTypeOf type) giLtf.toNat sgi,
      heGuardV2 (heTypeOf type) (heGiLtf type giLtf sgi).toNat = some guard ↔
        ¬(sgi = true ∧ giLtf.toNat = 3 ∧ (heTypeOf type = .extSu ∨ heTypeOf type = .mu)) := by
  decide

/-- So does the guard interval of an HT rate unless bit 10 is set. -/
theorem htGuard_iff (w : BitVec 32) :
    htGuard ((sgiField w).getLsbD 0) = htGuard (w.getLsbD 13) ↔
      ¬(w.getLsbD 13 = true ∧ w.getLsbD 10 = true) := by
  rw [sgiField, extractLsb'_one]
  cases w.getLsbD 10 <;> cases w.getLsbD 13 <;> decide

/-- The MCS of an HT rate is in two fields of the second layout. -/
theorem fieldAt_ht_mcs (w : BitVec 32) :
    8 * fieldAt w 3 1 + (((w.extractLsb' 0 3).setWidth 4).setWidth 3).toNat =
      fieldAt w 0 4 := by
  have hcode : (((w.extractLsb' 0 3).setWidth 4).setWidth 3) = w.extractLsb' 0 3 := by
    rw [BitVec.setWidth_setWidth_of_le _ (by decide), BitVec.setWidth_eq]
  rw [hcode]
  simp only [fieldAt]
  simp only [BitVec.extractLsb'_toNat, Nat.shiftRight_eq_div_pow]
  omega

section Meaning

variable {w : BitVec 32} {r : Rate}

theorem decode_ht (h8 : w.getLsbD 8 = true) (hr : decodeAsV1 w .ht = some r) :
    decodeV2 (newRateRate w ||| flagsWord w) = some r ↔ ¬LosesGuard w := by
  have hrate : rateWith w .ht (fieldAt w 0 4) (fieldAt w 3 1 + 1) (some (htGuard (w.getLsbD 13)))
      none (w.getLsbD 28) (w.getLsbD 18) = r := (decodeAsV1_eq_some hr).2
  have hmod : modulationV2 ((htFields w).word ||| flagsWord w) = some .ht :=
    modulationV2_result (htFields w) w
  have hloses : LosesGuard w ↔ w.getLsbD 13 = true ∧ w.getLsbD 10 = true := by
    rw [LosesGuard, h8]
    simp
  rw [newRateRate_ht h8, decodeV2, hmod, Option.bind_some, decodeAsV2_result, hloses,
    ← htGuard_iff, ← hrate]
  have hnss : (w.extractLsb' 3 1).toNat = fieldAt w 3 1 := rfl
  simp only [htFields, fieldAt_ht_mcs, rateWith, hnss]
  simp

theorem decode_vht (h8 : w.getLsbD 8 = false) (h10 : w.getLsbD 10 = false)
    (h26 : w.getLsbD 26 = true) (hr : decodeAsV1 w .vht = some r) :
    decodeV2 (newRateRate w ||| flagsWord w) = some r ↔ ¬LosesGuard w := by
  have hrate : rateWith w .vht (fieldAt w 0 4) (fieldAt w 4 1 + 1) (some (htGuard (w.getLsbD 13)))
      none (w.getLsbD 28) (w.getLsbD 18) = r := (decodeAsV1_eq_some hr).2
  have hmod : modulationV2 ((vhtFields w).word ||| flagsWord w) = some .vht :=
    modulationV2_result (vhtFields w) w
  have hloses : LosesGuard w ↔ w.getLsbD 13 = true ∧ w.getLsbD 10 = true := by
    rw [LosesGuard, h8, h10]
    simp
  rw [newRateRate_vht h8 h10 h26, decodeV2, hmod, Option.bind_some, decodeAsV2_result, hloses,
    ← htGuard_iff, ← hrate]
  simp [vhtFields, rateWith, fieldAt]

theorem decode_he (h8 : w.getLsbD 8 = false) (h10 : w.getLsbD 10 = true)
    (hr : decodeAsV1 w .he = some r) :
    decodeV2 (newRateRate w ||| flagsWord w) = some r ↔ ¬LosesGuard w := by
  obtain ⟨guard, hguard, hrate⟩ : ∃ guard ∈ heGuardV1 (heTypeOf (w.extractLsb' 22 2))
      (fieldAt w 20 2) (w.getLsbD 13), rateWith w .he (fieldAt w 0 4) (fieldAt w 4 1 + 1)
        (some guard) (some (heTypeOf (w.extractLsb' 22 2))) (w.getLsbD 28) (w.getLsbD 18) = r :=
    (decodeAsV1_eq_some hr).2
  have hmod : modulationV2 ((heFields w).word ||| flagsWord w) = some .he :=
    modulationV2_result (heFields w) w
  have hloses : LosesGuard w ↔ w.getLsbD 13 = true ∧ fieldAt w 20 2 = 3 ∧
      (heTypeOf (w.extractLsb' 22 2) = .extSu ∨ heTypeOf (w.extractLsb' 22 2) = .mu) := by
    rw [LosesGuard, h8, h10]
    simp
  have hsgi : sgiField w = 0#1 := if_pos h10
  rw [newRateRate_he h8 h10, decodeV2, hmod, Option.bind_some, decodeAsV2_result, hloses, fieldAt,
    ← heGuard_iff _ _ _ guard hguard, ← hrate, hsgi]
  simp [heFields, rateWith, fieldAt]

theorem decode_legacy (ofdm : Bool) (h8 : w.getLsbD 8 = false) (h9 : w.getLsbD 9 = !ofdm)
    (h10 : w.getLsbD 10 = false) (h26 : w.getLsbD 26 = false)
    (hr : decodeAsV1 w (if ofdm then .ofdm else .cck) = some r) :
    decodeV2 (newRateRate w ||| flagsWord w) = some r ↔ ¬LosesGuard w := by
  have hkeeps : ¬LosesGuard w := by
    rw [LosesGuard, h8, h10]
    simp
  refine iff_of_true ?_ hkeeps
  obtain ⟨kbps, hkbps, hrate⟩ : ∃ kbps ∈ (if ofdm then ofdmRateV1 else cckRateV1) (fieldAt w 0 8),
      rateWith w (if ofdm then .ofdm else .cck) kbps 1 none none (w.getLsbD 28) (w.getLsbD 18) =
        r := by
    cases ofdm <;> exact (decodeAsV1_eq_some hr).2
  obtain ⟨hlt, hidx⟩ := legacyIdx_rate ofdm _ kbps hkbps
  have hofdm : (!w.getLsbD 9) = ofdm := by rw [h9, Bool.not_not]
  have hmod : modulationV2 ((legacyFields ofdm (BitVec.ofNat 4 (legacyIdx ofdm
      (w.extractLsb' 0 8)))).word ||| flagsWord w) = some (if ofdm then .ofdm else .cck) := by
    rw [modulationV2_result]
    cases ofdm <;> rfl
  have hmcs : ((BitVec.ofNat 4 (legacyIdx ofdm (w.extractLsb' 0 8))).setWidth 3).toNat =
      legacyIdx ofdm (w.extractLsb' 0 8) := by
    rw [BitVec.toNat_setWidth, BitVec.toNat_ofNat]
    omega
  rw [newRateRate_legacy h8 h10 h26 rfl (hofdm.symm ▸ hlt), hofdm, decodeV2, hmod, Option.bind_some,
    decodeAsV2_result, ← hrate]
  cases ofdm with
  | false =>
    simp only [legacyFields, hmcs, if_false, Bool.false_eq_true] at hidx ⊢
    rw [hidx]
    rfl
  | true =>
    simp only [legacyFields, hmcs, if_true] at hidx ⊢
    rw [hidx]
    rfl

end Meaning

/-- **The conversion keeps the meaning** of a word that describes a rate exactly when its guard
interval is not lost. -/
theorem new_rate_decodes_iff {rateV1 : BitVec 32} {r : Rate} (h : decodeV1 rateV1 = some r) :
    decodeV2 (iwlNewRateFromV1 rateV1) = some r ↔ ¬LosesGuard rateV1 := by
  rw [iwlNewRateFromV1_eq h]
  obtain ⟨m, hm, hr⟩ := Option.bind_eq_some_iff.1 h
  rcases modulationV1_eq_some hm with ⟨rfl, h8⟩ | ⟨h8, hm⟩
  · exact decode_ht h8 hr
  · rcases hm with ⟨rfl, h9, h10, h26⟩ | ⟨rfl, h9, h10, h26⟩ | ⟨rfl, h10⟩ | ⟨rfl, h10, h26⟩
    · exact decode_legacy false h8 h9 h10 h26 hr
    · exact decode_legacy true h8 h9 h10 h26 hr
    · exact decode_he h8 h10 hr
    · exact decode_vht h8 h10 h26 hr

/-- An HE rate, SU, of one stream on antenna A with MCS 7, 4x LTF and 0.8 us: it is kept. -/
theorem new_rate_decodes_su : decodeV2 (iwlNewRateFromV1 0x00306407) = some
    ⟨.he, 7, 1, 20, some ⟨4, 800⟩, some .su, false, false, false, false, false, true, false⟩ :=
  (new_rate_decodes_iff (show decodeV1 0x00306407 = some _ by decide)).2 (by
    simp [LosesGuard]
    decide)

/-- The same rate of extended SU has the guard interval 3.2 us after the conversion. -/
theorem new_rate_loses_guard : ∃ r r', decodeV1 0x00706407 = some r ∧
    decodeV2 (iwlNewRateFromV1 0x00706407) = some r' ∧ r' ≠ r ∧
    r.guard = some ⟨4, 800⟩ ∧ r'.guard = some ⟨4, 3200⟩ :=
  ⟨⟨.he, 7, 1, 20, some ⟨4, 800⟩, some .extSu, false, false, false, false, false, true, false⟩,
    ⟨.he, 7, 1, 20, some ⟨4, 3200⟩, some .extSu, false, false, false, false, false, true, false⟩,
    by decide, by decide, by decide, rfl, rfl⟩

end Iax.Mvm.RateWord
