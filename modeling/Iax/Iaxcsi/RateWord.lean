import Iax.Matlab.Index
import Mathlib.Data.Nat.Bitwise
import Mathlib.Tactic.IntervalCases

/-!
# The rate word

`rate_n_flags` is decoded twice: by the listener (`parse_rate_n_flags` in `iaxcsi.cpp`, with the
masks of `iwl_fw_api_rs.h`) and by the reader (`get_rnf_st` in `iaxcsi.m`).

* `getRnfSt_eq`: the reader reads the fields of the layout.
* `rate_decoders_agree_iff`: the two agree exactly on the words whose bits 3 and 5 are clear and
  whose LDPC bit is set, and on the zero word. The listener's masks cut the MCS to three bits and
  the number of streams to one; the reader's LDPC flag is a logical and of the whole word.
-/

namespace Iax.Iaxcsi

open Matlab

/-! ## The tables -/

/-- The modulation names of `g_rate_type_map` and `rate_type_strs`. -/
inductive RateType
  | cck | noht | ht | vht | he | eh
  deriving DecidableEq

/-- The names of `g_he_type_map`. -/
inductive HeType
  | heSu | heExtSu | heMu | heTrig
  deriving DecidableEq

/-- `g_rate_type_map`; the keys are the shifted `RATE_MCS_*_MSK`. -/
def gRateTypeMap : List (BitVec 32 × RateType) :=
  [(0 <<< 8, .cck), (1 <<< 8, .noht), (2 <<< 8, .ht), (3 <<< 8, .vht), (4 <<< 8, .he),
    (5 <<< 8, .eh)]

/-- `g_he_type_map`. -/
def gHeTypeMap : List (BitVec 32 × HeType) :=
  [(0 <<< 23, .heSu), (1 <<< 23, .heExtSu), (2 <<< 23, .heMu), (3 <<< 23, .heTrig)]

/-- `g_chan_width_map`. -/
def gChanWidthMap : List (BitVec 32 × ℕ) :=
  [(0 <<< 11, 20), (1 <<< 11, 40), (2 <<< 11, 80), (3 <<< 11, 160), (4 <<< 11, 320)]

/-- `rate_type_strs`. -/
def rateTypeStrs : List RateType := [.cck, .noht, .ht, .vht, .he, .eh]

/-- `chan_width_vals`. -/
def chanWidthVals : List ℕ := [20, 40, 80, 160, 320]

/-! ## The listener's decoder -/

/-- `rate_info_t`. A name that its map lacks is empty, a width that its map lacks is 0. The string
`rate_bw_type` is the name and the bandwidth. -/
structure RateInfo where
  mcs : ℕ
  nss : ℕ
  rateType : BitVec 32
  rateTypeStr : Option RateType
  heType : Option (BitVec 32)
  heTypeStr : Option HeType
  chanWidthType : BitVec 32
  bandwidth : ℕ
  rateBwType : Option RateType × ℕ
  antSel : ℕ
  ldpc : ℕ
  deriving DecidableEq

/-- `get_rnf_fmt_val` of `iaxcsi.cpp`: the mask is that of the word. -/
def cppRnfFmtVal (rnf : BitVec 32) (pos : ℕ) (msk : BitVec 32) : BitVec 32 := (rnf &&& msk) >>> pos

/-- `parse_rate_n_flags`. -/
def parseRateNFlags (rnf : BitVec 32) : RateInfo :=
  let mcs := cppRnfFmtVal rnf 0 0x7
  let nss := cppRnfFmtVal rnf 4 (1 <<< 4)
  let rateType := cppRnfFmtVal rnf 0 (0x7 <<< 8)
  let rateTypeStr := List.lookup rateType gRateTypeMap
  let heRateType := cppRnfFmtVal (4 <<< 8) 0 (0x7 <<< 8)
  let heType := if rateType = heRateType then some (cppRnfFmtVal rnf 0 (3 <<< 23)) else none
  let legacyOfdmRateType := cppRnfFmtVal (1 <<< 8) 0 (0x7 <<< 8)
  let legacyOfdmBwType := cppRnfFmtVal (0 <<< 11) 0 (0x7 <<< 11)
  let chanWidthType :=
    if rateType = legacyOfdmRateType then legacyOfdmBwType else cppRnfFmtVal rnf 0 (0x7 <<< 11)
  let bandwidth := (List.lookup chanWidthType gChanWidthMap).getD 0
  { mcs := mcs.toNat
    nss := nss.toNat + 1
    rateType := rateType
    rateTypeStr := rateTypeStr
    heType := heType
    heTypeStr := heType.bind (List.lookup · gHeTypeMap)
    chanWidthType := chanWidthType
    bandwidth := bandwidth
    rateBwType := (rateTypeStr, bandwidth)
    antSel := (cppRnfFmtVal rnf 14 (3 <<< 14)).toNat
    ldpc := (cppRnfFmtVal rnf 16 (1 <<< 16)).toNat }

/-! ## The reader's decoder -/

/-- The struct of `get_rnf_st`; `rate_bw_type` is the name and the bandwidth. -/
structure RnfSt where
  mcs : ℕ
  nss : ℕ
  rateType : RateType
  bandwidth : ℕ
  rateBwType : RateType × ℕ
  antSel : ℕ
  ldpc : Bool
  deriving DecidableEq

/-- `get_rnf_fmt_val` of `iaxcsi.m`: the mask is that of the field. -/
def rnfFmtVal (rnf : BitVec 32) (pos : ℕ) (mskBase : BitVec 32) : BitVec 32 :=
  (rnf >>> pos) &&& mskBase

/-- `get_rnf_st`. The HE type that it also reads for rate type 5 is not kept. The operator of the
last field is the logical `&`. -/
def getRnfSt (rnf : BitVec 32) : Except MatErr RnfSt := do
  let mcs := rnfFmtVal rnf 0 15
  let nss := rnfFmtVal rnf 4 3
  let rateType ← elem rateTypeStrs ((rnfFmtVal rnf 8 7).toNat + 1)
  let val := rnfFmtVal rnf 11 7
  let width ← elem chanWidthVals (val.toNat + 1)
  let bandwidth := if rateType = .noht then 20 else width
  return {
    mcs := mcs.toNat
    nss := nss.toNat + 1
    rateType := rateType
    bandwidth := bandwidth
    rateBwType := (rateType, bandwidth)
    antSel := (rnfFmtVal rnf 14 3).toNat
    ldpc := rnf ≠ 0 && (1 <<< 16 : BitVec 32) ≠ 0 }

/-! ## The layout -/

/-- The field of `len` bits from bit `pos` on. -/
def rnfField (rnf : BitVec 32) (pos len : ℕ) : ℕ := (rnf.extractLsb' pos len).toNat

theorem rnfField_eq (rnf : BitVec 32) (pos len : ℕ) :
    rnfField rnf pos len = rnf.toNat / 2 ^ pos % 2 ^ len := by
  rw [rnfField, BitVec.extractLsb'_toNat, Nat.shiftRight_eq_div_pow]

/-- The reader's mask of `len` bits reads the field. -/
theorem rnfFmtVal_toNat (rnf : BitVec 32) (pos len : ℕ) (h : len < 32) :
    (rnfFmtVal rnf pos (BitVec.ofNat 32 (2 ^ len - 1))).toNat = rnfField rnf pos len := by
  have hlt : 2 ^ len - 1 < 2 ^ 32 :=
    (Nat.sub_lt (Nat.two_pow_pos len) (by omega)).trans (Nat.pow_lt_pow_right (by omega) h)
  rw [rnfFmtVal, BitVec.toNat_and, BitVec.toNat_ofNat, Nat.mod_eq_of_lt hlt,
    Nat.and_two_pow_sub_one_eq_mod, BitVec.toNat_ushiftRight, Nat.shiftRight_eq_div_pow, rnfField_eq]

/-- The listener's shifted mask of `len` bits reads the field. -/
theorem cppRnfFmtVal_toNat (rnf : BitVec 32) (pos len : ℕ) (h : pos + len ≤ 32) :
    (cppRnfFmtVal rnf pos (BitVec.ofNat 32 ((2 ^ len - 1) * 2 ^ pos))).toNat =
      rnfField rnf pos len := by
  have hlt : (2 ^ len - 1) * 2 ^ pos < 2 ^ 32 := by
    calc (2 ^ len - 1) * 2 ^ pos < 2 ^ len * 2 ^ pos :=
          Nat.mul_lt_mul_of_pos_right (Nat.sub_lt (Nat.two_pow_pos len) (by omega))
            (Nat.two_pow_pos pos)
      _ = 2 ^ (pos + len) := by rw [← pow_add, Nat.add_comm]
      _ ≤ 2 ^ 32 := Nat.pow_le_pow_right (by omega) h
  rw [cppRnfFmtVal, BitVec.toNat_ushiftRight, BitVec.toNat_and, BitVec.toNat_ofNat,
    Nat.mod_eq_of_lt hlt, Nat.shiftRight_and_distrib, Nat.shiftRight_eq_div_pow,
    Nat.shiftRight_eq_div_pow, Nat.mul_div_cancel _ (Nat.two_pow_pos pos),
    Nat.and_two_pow_sub_one_eq_mod, rnfField_eq]

/-- Without a shift the listener keeps the field in its place. -/
theorem cppRnfFmtVal_zero (rnf : BitVec 32) (pos len : ℕ) (h : pos + len ≤ 32) :
    cppRnfFmtVal rnf 0 (BitVec.ofNat 32 ((2 ^ len - 1) * 2 ^ pos)) =
      BitVec.ofNat 32 (rnfField rnf pos len * 2 ^ pos) := by
  have hshift := cppRnfFmtVal_toNat rnf pos len h
  rw [cppRnfFmtVal, BitVec.toNat_ushiftRight, Nat.shiftRight_eq_div_pow] at hshift
  rw [cppRnfFmtVal, BitVec.ushiftRight_zero]
  set v := rnf &&& BitVec.ofNat 32 ((2 ^ len - 1) * 2 ^ pos) with hv
  -- below the field the mask is zero
  have hlow : v.toNat % 2 ^ pos = 0 := by
    have hdvd : 2 ^ pos ∣ 2 ^ 32 := pow_dvd_pow 2 (by omega)
    rw [hv, BitVec.toNat_and, Nat.and_mod_two_pow, BitVec.toNat_ofNat, Nat.mod_mod_of_dvd _ hdvd,
      Nat.mul_mod_left, Nat.and_zero]
  apply BitVec.eq_of_toNat_eq
  rw [← hshift, Nat.div_mul_cancel (Nat.dvd_of_mod_eq_zero hlow), BitVec.toNat_ofNat,
    Nat.mod_eq_of_lt v.isLt]

/-! ## What the decoders read -/

/-- The struct that the layout gives, when both table fields are in range. -/
def rnfStOf (rnf : BitVec 32) (rateType : RateType) (width : ℕ) : RnfSt :=
  let bandwidth := if rateType = .noht then 20 else width
  { mcs := rnfField rnf 0 4
    nss := rnfField rnf 4 2 + 1
    rateType := rateType
    bandwidth := bandwidth
    rateBwType := (rateType, bandwidth)
    antSel := rnfField rnf 14 2
    ldpc := rnf ≠ 0 }

/-- **The reader's decoder** reads the fields of the layout when the modulation type and the width
are in its tables. -/
theorem getRnfSt_eq (rnf : BitVec 32) (hmod : rnfField rnf 8 3 < rateTypeStrs.length)
    (hwidth : rnfField rnf 11 3 < chanWidthVals.length) :
    getRnfSt rnf = .ok (rnfStOf rnf rateTypeStrs[rnfField rnf 8 3]
      chanWidthVals[rnfField rnf 11 3]) := by
  have h0 : (rnfFmtVal rnf 0 15).toNat = rnfField rnf 0 4 := rnfFmtVal_toNat rnf 0 4 (by omega)
  have h4 : (rnfFmtVal rnf 4 3).toNat = rnfField rnf 4 2 := rnfFmtVal_toNat rnf 4 2 (by omega)
  have h8 : (rnfFmtVal rnf 8 7).toNat = rnfField rnf 8 3 := rnfFmtVal_toNat rnf 8 3 (by omega)
  have h11 : (rnfFmtVal rnf 11 7).toNat = rnfField rnf 11 3 := rnfFmtVal_toNat rnf 11 3 (by omega)
  have h14 : (rnfFmtVal rnf 14 3).toNat = rnfField rnf 14 2 := rnfFmtVal_toNat rnf 14 2 (by omega)
  have hflag : (1 <<< 16 : BitVec 32) ≠ 0 := by decide
  simp only [getRnfSt, h0, h4, h8, h11, h14, elem_eq_ok hmod, elem_eq_ok hwidth, bind, Except.bind,
    rnfStOf, decide_eq_true hflag, Bool.and_true]
  rfl

/-- Outside the tables it fails. -/
theorem getRnfSt_eq_error (rnf : BitVec 32)
    (h : rateTypeStrs.length ≤ rnfField rnf 8 3 ∨ chanWidthVals.length ≤ rnfField rnf 11 3) :
    getRnfSt rnf = .error .badSubscript := by
  have h8 : (rnfFmtVal rnf 8 7).toNat = rnfField rnf 8 3 := rnfFmtVal_toNat rnf 8 3 (by omega)
  have h11 : (rnfFmtVal rnf 11 7).toNat = rnfField rnf 11 3 := rnfFmtVal_toNat rnf 11 3 (by omega)
  rcases Nat.lt_or_ge (rnfField rnf 8 3) rateTypeStrs.length with hmod | hmod
  · have hwidth := h.resolve_left (Nat.not_le.2 hmod)
    simp only [getRnfSt, h8, h11, elem_eq_ok hmod, elem_eq_error (x := chanWidthVals)
      (i := (rnfField rnf 11 3 : ℤ) + 1) (by omega), bind, Except.bind]
  · simp only [getRnfSt, h8, elem_eq_error (x := rateTypeStrs)
      (i := (rnfField rnf 8 3 : ℤ) + 1) (by omega), bind, Except.bind]

theorem lookup_gRateTypeMap : ∀ k (h : k < rateTypeStrs.length),
    List.lookup (BitVec.ofNat 32 (k * 2 ^ 8)) gRateTypeMap = some rateTypeStrs[k] := by
  decide

theorem lookup_gChanWidthMap : ∀ k (h : k < chanWidthVals.length),
    (List.lookup (BitVec.ofNat 32 (k * 2 ^ 11)) gChanWidthMap).getD 0 = chanWidthVals[k] := by
  decide

/-- Only the key of `NOHT` sets the width to 20 MHz. -/
theorem noht_key : ∀ k (h : k < rateTypeStrs.length),
    BitVec.ofNat 32 (k * 2 ^ 8) = cppRnfFmtVal (1 <<< 8) 0 (0x7 <<< 8) ↔
      rateTypeStrs[k] = .noht := by
  decide

/-- **The listener's decoder** reads three bits of the MCS, one of the streams, and the rest as the
layout has it. -/
theorem parseRateNFlags_eq (rnf : BitVec 32) (hmod : rnfField rnf 8 3 < rateTypeStrs.length)
    (hwidth : rnfField rnf 11 3 < chanWidthVals.length) :
    (parseRateNFlags rnf).mcs = rnfField rnf 0 3 ∧ (parseRateNFlags rnf).nss = rnfField rnf 4 1 + 1 ∧
      (parseRateNFlags rnf).rateTypeStr = some rateTypeStrs[rnfField rnf 8 3] ∧
      (parseRateNFlags rnf).bandwidth = (if rateTypeStrs[rnfField rnf 8 3] = .noht then 20
        else chanWidthVals[rnfField rnf 11 3]) ∧
      (parseRateNFlags rnf).antSel = rnfField rnf 14 2 ∧
      (parseRateNFlags rnf).ldpc = rnfField rnf 16 1 := by
  have hrate : cppRnfFmtVal rnf 0 (0x7 <<< 8) = BitVec.ofNat 32 (rnfField rnf 8 3 * 2 ^ 8) :=
    cppRnfFmtVal_zero rnf 8 3 (by omega)
  have hchan : cppRnfFmtVal rnf 0 (0x7 <<< 11) = BitVec.ofNat 32 (rnfField rnf 11 3 * 2 ^ 11) :=
    cppRnfFmtVal_zero rnf 11 3 (by omega)
  have hbw20 : cppRnfFmtVal (0 <<< 11) 0 (0x7 <<< 11) = BitVec.ofNat 32 (0 * 2 ^ 11) := by decide
  simp only [parseRateNFlags, hrate, hchan, lookup_gRateTypeMap _ hmod, noht_key _ hmod]
  refine ⟨cppRnfFmtVal_toNat rnf 0 3 (by omega),
    congrArg (· + 1) (cppRnfFmtVal_toNat rnf 4 1 (by omega)), trivial, ?_,
    cppRnfFmtVal_toNat rnf 14 2 (by omega), cppRnfFmtVal_toNat rnf 16 1 (by omega)⟩
  split
  · rw [hbw20, lookup_gChanWidthMap 0 (by decide)]
    rfl
  · exact lookup_gChanWidthMap _ hwidth

/-! ## The agreement -/

/-- Both decoders report the same values. -/
structure RatesAgree (info : RateInfo) (st : RnfSt) : Prop where
  mcs : info.mcs = st.mcs
  nss : info.nss = st.nss
  name : info.rateTypeStr = some st.rateType
  bandwidth : info.bandwidth = st.bandwidth
  antSel : info.antSel = st.antSel
  ldpc : info.ldpc = st.ldpc.toNat

/-- **When the decoders agree.** For every word whose modulation type and width are in the tables,
both decoders report the same values, and the MCS and the number of streams that the layout has in
bits 3-0 and 5-4, if and only if bits 3 and 5 are clear, and bit 16 is set unless the whole word is
zero. -/
theorem rate_decoders_agree_iff (rnf : BitVec 32) (hmod : rnfField rnf 8 3 ≤ 5)
    (hwidth : rnfField rnf 11 3 ≤ 4) :
    (∃ st, getRnfSt rnf = .ok st ∧ RatesAgree (parseRateNFlags rnf) st ∧
        (parseRateNFlags rnf).mcs = rnfField rnf 0 4 ∧
        (parseRateNFlags rnf).nss = rnfField rnf 4 2 + 1) ↔
      rnf.getLsbD 3 = false ∧ rnf.getLsbD 5 = false ∧ (rnf = 0 ∨ rnf.getLsbD 16 = true) := by
  have hmod' : rnfField rnf 8 3 < rateTypeStrs.length := Nat.lt_succ_of_le hmod
  have hwidth' : rnfField rnf 11 3 < chanWidthVals.length := Nat.lt_succ_of_le hwidth
  have hreader := getRnfSt_eq rnf hmod' hwidth'
  obtain ⟨hmcs, hnss, hname, hbw, hant, hldpc⟩ := parseRateNFlags_eq rnf hmod' hwidth'
  -- each field on which the two can differ, as bits of the word
  have h3 : rnfField rnf 0 3 = rnfField rnf 0 4 ↔ rnf.getLsbD 3 = false := by
    rw [rnfField_eq, rnfField_eq, BitVec.getLsbD, Nat.testBit_eq_decide_div_mod_eq,
      decide_eq_false_iff_not]
    omega
  have h5 : rnfField rnf 4 1 = rnfField rnf 4 2 ↔ rnf.getLsbD 5 = false := by
    rw [rnfField_eq, rnfField_eq, BitVec.getLsbD, Nat.testBit_eq_decide_div_mod_eq,
      decide_eq_false_iff_not]
    omega
  have h16 : rnfField rnf 16 1 = (decide (rnf ≠ 0)).toNat ↔ rnf = 0 ∨ rnf.getLsbD 16 = true := by
    rw [rnfField_eq, BitVec.getLsbD, Nat.testBit_eq_decide_div_mod_eq, decide_eq_true_iff]
    by_cases h0 : rnf = 0
    · subst h0
      decide
    · simp only [h0, ne_eq, not_false_eq_true, decide_true, Bool.toNat_true, false_or,
        pow_one]
  constructor
  · rintro ⟨st, hst, hagree, hmcs4, hnss4⟩
    obtain rfl : rnfStOf rnf _ _ = st := Except.ok.inj (hreader.symm.trans hst)
    refine ⟨h3.1 (hmcs.symm.trans hmcs4), h5.1 ?_, h16.1 (hldpc.symm.trans hagree.ldpc)⟩
    exact Nat.succ.inj (hnss.symm.trans hnss4)
  · rintro ⟨hb3, hb5, hb16⟩
    have hmcs4 := hmcs.trans (h3.2 hb3)
    have hnss4 := hnss.trans (congrArg (· + 1) (h5.2 hb5))
    exact ⟨_, hreader, ⟨hmcs4, hnss4, hname, hbw, hant, hldpc.trans (h16.2 hb16)⟩, hmcs4, hnss4⟩

theorem rate_decoders_agree_vht80 :
    ∃ st, getRnfSt 0x11311 = .ok st ∧ RatesAgree (parseRateNFlags 0x11311) st ∧
      (parseRateNFlags 0x11311).mcs = rnfField 0x11311 0 4 ∧
      (parseRateNFlags 0x11311).nss = rnfField 0x11311 4 2 + 1 :=
  (rate_decoders_agree_iff 0x11311 (by decide) (by decide)).2 (by decide)

/-- HE with MCS 9: the listener reports MCS 1. -/
theorem rate_decoders_disagree :
    rnfField 0x10409 8 3 ≤ 5 ∧ rnfField 0x10409 11 3 ≤ 4 ∧
      ¬ ∃ st, getRnfSt 0x10409 = .ok st ∧ RatesAgree (parseRateNFlags 0x10409) st ∧
        (parseRateNFlags 0x10409).mcs = rnfField 0x10409 0 4 ∧
        (parseRateNFlags 0x10409).nss = rnfField 0x10409 4 2 + 1 := by
  refine ⟨by decide, by decide, ?_⟩
  rintro ⟨st, -, -, hmcs, -⟩
  revert hmcs
  decide

end Iax.Iaxcsi
