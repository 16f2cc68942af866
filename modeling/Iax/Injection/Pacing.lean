import Iax.Lib.CheckedInt
import Mathlib.Data.Int.ModEq
import Mathlib.Tactic.Ring

/-!
# The pace of the injected packets

`random_packets` (`injection/random_packets.c`) is to send packet `i` when `delay_us * i`
microseconds have passed since the start. Before each packet it compares the two, and sleeps when it
is early.

* `paces`: what the loop does about the time, for each packet of a run.
* `Pace.Right`: it sleeps for as long as it is early.
* `paces_right_iff`: it does so unless the nanoseconds are rounded the wrong way. The `500` that
  rounds a quotient to the nearest number makes it worse when the dividend is negative.
-/

namespace Iax.Injection

open CInt (ofSome InRange)

/-- `struct timespec`, with less than a second of nanoseconds. -/
structure Timespec where
  tvSec : BitVec 64
  tvNsec : ℕ
  tvNsec_lt : tvNsec < 1000000000

section Elapsed

variable (start now : Timespec)

/-- The seconds of the difference. -/
def secDiff : ℤ := now.tvSec.toInt - start.tvSec.toInt

/-- The nanoseconds of the difference, which may be negative. -/
def nsecDiff : ℤ := now.tvNsec - start.tvNsec

/-- The time that has passed, in nanoseconds. -/
def elapsedNs : ℤ := secDiff start now * 1000000000 + nsecDiff start now

/-- The time that has passed, in microseconds, as the program computes it. -/
def elapsedUs : CInt 64 :=
  let sec : CInt 64 := ofSome now.tvSec.toInt - ofSome start.tvSec.toInt
  let nsec : CInt 64 := ofSome now.tvNsec - ofSome start.tvNsec
  sec * ofSome 1000000 + (nsec + ofSome 500) / (ofSome 1000 : CInt 64)

end Elapsed

/-- What the loop of `main` does about the time before a packet: nothing, something undefined, or the
`diff` it compares and the argument of `usleep`, if that is called. -/
inductive Pace where
  | untimed
  | undefined
  | timed (diff : BitVec 32) (slept : Option (BitVec 32))
  deriving DecidableEq

/-- The comparison of `diff`, first as a signed integer and then as an unsigned one. -/
def usleepArg (delayUs diff : BitVec 32) : Option (BitVec 32) :=
  if 0 < diff.toInt ∧ diff < delayUs then some diff else none

/-- The pace before packet `i`, when the clock shows `now`. -/
def pace (delayUs i : BitVec 32) (start now : Timespec) : Pace :=
  if delayUs = 0 then .untimed
  else
    match (elapsedUs start now : Option ℤ) with
    | none => .undefined
    | some elapsed =>
      let diff := delayUs * i - BitVec.ofInt 32 elapsed
      .timed diff (usleepArg delayUs diff)

/-- The loop of `main`. The clock shows `now i` before packet `i`. -/
def paces (numPackets delayUs : BitVec 32) (start : Timespec) (now : ℕ → Timespec) : List Pace :=
  (List.range numPackets.toNat).map fun i => pace delayUs (BitVec.ofNat 32 i) start (now i)

/-! ## The right pace -/

/-- The lead of packet `i`: how early the program is, when `elapsed` microseconds have passed. -/
def leadUs (delayUs : BitVec 32) (i : ℕ) (elapsed : ℤ) : ℤ := delayUs.toNat * i - elapsed

/-- What is compared is the lead, up to wrap-around, and it is slept away when it is between `0` and
the delay. -/
structure FollowsLead (delayUs : BitVec 32) (lead : ℤ) (diff : BitVec 32)
    (slept : Option (BitVec 32)) : Prop where
  modEq : diff.toInt ≡ lead [ZMOD 2 ^ 32]
  slept_eq : InRange 32 lead →
    slept = if 0 < lead ∧ lead < delayUs.toNat then some (BitVec.ofInt 32 lead) else none
  slept_lt : ∀ s ∈ slept, s < delayUs

/-- The pace before packet `i`, when `ns` nanoseconds have passed: it follows the lead, with the time
rounded to a microsecond next to it. -/
def Pace.Right (p : Pace) (delayUs : BitVec 32) (i : ℕ) (ns : ℤ) : Prop :=
  p = .untimed ∨ ∃ diff slept elapsed, p = .timed diff slept ∧ |1000 * elapsed - ns| ≤ 1000 ∧
    FollowsLead delayUs (leadUs delayUs i elapsed) diff slept

/-- The difference of the nanoseconds is rounded to within a microsecond: it is not a negative number
that is rounded up by more. -/
def RoundsWell (nsec : ℤ) : Prop := -1000 ≤ nsec ∨ -nsec % 1000 = 0 ∨ 500 ≤ -nsec % 1000

/-- The microseconds do not overflow a `long`: `2 ^ 63` microseconds are 292000 years. -/
def FitsLong (start now : Timespec) : Prop :=
  InRange 64 (secDiff start now * 1000000) ∧
    InRange 64 (secDiff start now * 1000000 + (nsecDiff start now + 500).tdiv 1000)

/-! ## The elapsed time -/

section Rounding

/-- The rounded microseconds of a time in seconds and nanoseconds. -/
def roundedUs (sec nsec : ℤ) : ℤ := sec * 1000000 + (nsec + 500).tdiv 1000

variable (sec nsec : ℤ)

/-- The seconds are exact. -/
theorem roundedUs_sub : 1000 * roundedUs sec nsec - (sec * 1000000000 + nsec) =
    1000 * (nsec + 500).tdiv 1000 - nsec := by
  unfold roundedUs
  ring

theorem tdiv_thousand_eq_ite (x : ℤ) :
    x.tdiv 1000 = if x < 0 then -(-x / 1000) else x / 1000 := by
  split_ifs with hneg
  · rw [← Int.tdiv_eq_ediv_of_nonneg (by omega), Int.neg_tdiv, neg_neg]
  · exact Int.tdiv_eq_ediv_of_nonneg (Int.not_lt.1 hneg)

theorem abs_roundedUs_sub_le_iff :
    |1000 * roundedUs sec nsec - (sec * 1000000000 + nsec)| ≤ 1000 ↔ RoundsWell nsec := by
  rw [roundedUs_sub, abs_le, RoundsWell, tdiv_thousand_eq_ite]
  split_ifs <;> omega

/-- The error is never as much as a microsecond and a half. -/
theorem abs_roundedUs_sub_lt :
    |1000 * roundedUs sec nsec - (sec * 1000000000 + nsec)| < 1500 := by
  rw [roundedUs_sub, abs_lt, tdiv_thousand_eq_ite]
  split_ifs <;> omega

end Rounding

section Elapsed

variable {start now : Timespec}

theorem inRange_nsecDiff_add (start now : Timespec) :
    InRange 64 (nsecDiff start now) ∧ InRange 64 (nsecDiff start now + 500) ∧
      InRange 64 ((nsecDiff start now + 500).tdiv 1000) := by
  have hs := start.tvNsec_lt
  have hn := now.tvNsec_lt
  unfold InRange nsecDiff
  rw [tdiv_thousand_eq_ite]
  split_ifs <;> omega

/-- The second operand of the sum is computed exactly. -/
theorem nsec_part_eq (start now : Timespec) :
    ((ofSome now.tvNsec - ofSome start.tvNsec : CInt 64) + ofSome 500) / (ofSome 1000 : CInt 64) =
      ofSome ((nsecDiff start now + 500).tdiv 1000) := by
  obtain ⟨hsub, hadd, hdiv⟩ := inRange_nsecDiff_add start now
  have h1 : (ofSome now.tvNsec - ofSome start.tvNsec : CInt 64) = ofSome (nsecDiff start now) :=
    CInt.sub_eq_some rfl rfl hsub
  have h2 := CInt.add_eq_some h1 (rfl : (ofSome 500 : CInt 64) = ofSome 500) hadd
  exact CInt.div_eq_some h2 rfl (by omega) hdiv

theorem elapsedUs_of_fits (h : FitsLong start now) :
    elapsedUs start now = ofSome (roundedUs (secDiff start now) (nsecDiff start now)) := by
  obtain ⟨hmul, hsum⟩ := h
  have hsub : InRange 64 (secDiff start now) := by
    unfold InRange at hmul ⊢
    omega
  have h1 : (ofSome now.tvSec.toInt - ofSome start.tvSec.toInt : CInt 64) =
      ofSome (secDiff start now) := CInt.sub_eq_some rfl rfl hsub
  have h2 := CInt.mul_eq_some h1 (rfl : (ofSome 1000000 : CInt 64) = ofSome 1000000) hmul
  exact CInt.add_eq_some h2 (nsec_part_eq start now) hsum

theorem elapsedUs_of_not_fits (h : ¬ FitsLong start now) :
    elapsedUs start now = CInt.overflow := by
  by_cases hsub : InRange 64 (secDiff start now)
  · have h1 : (ofSome now.tvSec.toInt - ofSome start.tvSec.toInt : CInt 64) =
        ofSome (secDiff start now) := CInt.sub_eq_some rfl rfl hsub
    by_cases hmul : InRange 64 (secDiff start now * 1000000)
    · have h2 := CInt.mul_eq_some h1 (rfl : (ofSome 1000000 : CInt 64) = ofSome 1000000) hmul
      exact CInt.add_eq_overflow h2 (nsec_part_eq start now) fun hsum => h ⟨hmul, hsum⟩
    · have h2 := CInt.mul_eq_overflow h1 (rfl : (ofSome 1000000 : CInt 64) = ofSome 1000000) hmul
      exact CInt.overflow_add h2 _
  · have h1 : (ofSome now.tvSec.toInt - ofSome start.tvSec.toInt : CInt 64) = CInt.overflow :=
      CInt.ofInt_of_not_inRange hsub
    exact CInt.overflow_add (CInt.overflow_mul h1 _) _

end Elapsed

/-! ## The lead -/

section Lead

variable {delayUs : BitVec 32} {lead : ℤ}

/-- What is compared is the lead. -/
theorem diff_eq_ofInt_lead (delayUs : BitVec 32) (i : ℕ) (elapsed : ℤ) :
    delayUs * BitVec.ofNat 32 i - BitVec.ofInt 32 elapsed =
      BitVec.ofInt 32 (leadUs delayUs i elapsed) := by
  unfold leadUs
  rw [BitVec.sub_eq_add_neg, Int.sub_eq_add_neg, BitVec.ofInt_add, BitVec.ofInt_mul,
    BitVec.ofInt_neg, BitVec.ofInt_natCast, BitVec.ofInt_natCast, BitVec.ofNat_toNat,
    BitVec.setWidth_eq]

theorem toInt_ofInt_modEq (x : ℤ) : (BitVec.ofInt 32 x).toInt ≡ x [ZMOD 2 ^ 32] := by
  rw [BitVec.toInt_ofInt]
  exact Int.bmod_emod

/-- A lead that fits is compared as it is, with both signs of the comparison. -/
theorem usleepArg_ofInt (h : InRange 32 lead) : usleepArg delayUs (BitVec.ofInt 32 lead) =
    if 0 < lead ∧ lead < delayUs.toNat then some (BitVec.ofInt 32 lead) else none := by
  obtain ⟨hlow, hhigh⟩ := h
  have htoInt : (BitVec.ofInt 32 lead).toInt = lead :=
    BitVec.toInt_ofInt_eq_self (by omega) hlow hhigh
  have hcmp : 0 < (BitVec.ofInt 32 lead).toInt ∧ BitVec.ofInt 32 lead < delayUs ↔
      0 < lead ∧ lead < delayUs.toNat := by
    rw [htoInt]
    refine and_congr_right fun hpos => ?_
    -- a positive number reads the same unsigned
    have htoNat : (BitVec.ofInt 32 lead).toNat = lead.toNat := by
      rw [BitVec.toNat_ofInt, Int.emod_eq_of_lt hpos.le (by omega)]
    rw [BitVec.lt_def, htoNat]
    omega
  exact if_congr hcmp rfl rfl

theorem lt_of_usleepArg_eq {diff s : BitVec 32} (h : usleepArg delayUs diff = some s) :
    s < delayUs := by
  unfold usleepArg at h
  split at h
  case isTrue hcmp =>
    cases h
    exact hcmp.2
  case isFalse => cases h

theorem followsLead_ofInt (delayUs : BitVec 32) (lead : ℤ) :
    FollowsLead delayUs lead (BitVec.ofInt 32 lead)
      (usleepArg delayUs (BitVec.ofInt 32 lead)) where
  modEq := toInt_ofInt_modEq lead
  slept_eq := usleepArg_ofInt
  slept_lt _ h := lt_of_usleepArg_eq h

end Lead

/-! ## The run -/

section Run

variable {numPackets delayUs : BitVec 32} {start : Timespec} {now : ℕ → Timespec} {i : ℕ}

theorem pace_of_fits {now : Timespec} (hdelay : delayUs ≠ 0) (h : FitsLong start now) :
    pace delayUs (BitVec.ofNat 32 i) start now =
      let diff := BitVec.ofInt 32
        (leadUs delayUs i (roundedUs (secDiff start now) (nsecDiff start now)))
      .timed diff (usleepArg delayUs diff) := by
  rw [← diff_eq_ofInt_lead, pace, if_neg hdelay, elapsedUs_of_fits h]
  rfl

theorem pace_of_not_fits {now : Timespec} (i : BitVec 32) (hdelay : delayUs ≠ 0)
    (h : ¬ FitsLong start now) : pace delayUs i start now = .undefined := by
  rw [pace, if_neg hdelay, elapsedUs_of_not_fits h]
  rfl

/-- No other number of microseconds that is near the right one gives the same `diff`. -/
theorem eq_of_near {x y ns : ℤ} (hx : |1000 * x - ns| ≤ 1000) (hy : |1000 * y - ns| < 1500)
    (h : leadUs delayUs i x ≡ leadUs delayUs i y [ZMOD 2 ^ 32]) : x = y := by
  rw [abs_le] at hx
  rw [abs_lt] at hy
  obtain ⟨k, hk⟩ := h.dvd
  unfold leadUs at hk
  omega

/-- **One packet.** The pace is right exactly when the time is computed without an overflow and
rounded well. -/
theorem pace_right_iff (hdelay : delayUs ≠ 0) (i : ℕ) (start now : Timespec) :
    (pace delayUs (BitVec.ofNat 32 i) start now).Right delayUs i (elapsedNs start now) ↔
      FitsLong start now ∧ RoundsWell (nsecDiff start now) := by
  by_cases hfits : FitsLong start now
  · rw [pace_of_fits hdelay hfits, Pace.Right, ← abs_roundedUs_sub_le_iff (secDiff start now)]
    constructor
    · rintro (h | ⟨diff, slept, elapsed, h, hnear, hlead⟩)
      · cases h
      · cases h
        have hmod : leadUs delayUs i elapsed ≡
            leadUs delayUs i (roundedUs (secDiff start now) (nsecDiff start now))
            [ZMOD 2 ^ 32] := hlead.modEq.symm.trans (toInt_ofInt_modEq _)
        rw [← eq_of_near hnear (abs_roundedUs_sub_lt _ _) hmod]
        exact ⟨hfits, hnear⟩
    · rintro ⟨-, hnear⟩
      exact .inr ⟨_, _, _, rfl, hnear, followsLead_ofInt delayUs _⟩
  · rw [pace_of_not_fits _ hdelay hfits]
    refine iff_of_false ?_ fun h => hfits h.1
    rintro (h | ⟨_, _, _, h, -⟩) <;> cases h

theorem paces_getElem? (hi : i < numPackets.toNat) : (paces numPackets delayUs start now)[i]? =
    some (pace delayUs (BitVec.ofNat 32 i) start (now i)) := by
  rw [paces, List.getElem?_map, List.getElem?_range hi]
  rfl

/-- **The pace of a run** is right before every packet exactly when the elapsed time is computed
without an overflow and rounded well every time. -/
theorem paces_right_iff (numPackets delayUs : BitVec 32) (start : Timespec) (now : ℕ → Timespec) :
    (∀ i < numPackets.toNat, ∃ p, (paces numPackets delayUs start now)[i]? = some p ∧
        p.Right delayUs i (elapsedNs start (now i))) ↔
      delayUs = 0 ∨ ∀ i < numPackets.toNat,
        FitsLong start (now i) ∧ RoundsWell (nsecDiff start (now i)) := by
  have hrun : (∀ i < numPackets.toNat, ∃ p, (paces numPackets delayUs start now)[i]? = some p ∧
        p.Right delayUs i (elapsedNs start (now i))) ↔
      ∀ i < numPackets.toNat, (pace delayUs (BitVec.ofNat 32 i) start (now i)).Right delayUs i
        (elapsedNs start (now i)) := by
    refine forall₂_congr fun i hi => ?_
    rw [paces_getElem? hi]
    simp only [Option.some.injEq, exists_eq_left']
  rw [hrun]
  by_cases hdelay : delayUs = 0
  · exact iff_of_true (fun i _ => .inl (if_pos hdelay)) (.inl hdelay)
  · rw [or_iff_right hdelay]
    exact forall₂_congr fun i _ => pace_right_iff hdelay i start (now i)

end Run

/-- A thousand packets, one every millisecond. After `0.999998999` seconds the next one is one
microsecond early, but the program takes them for a second and does not sleep. -/
theorem paces_not_right :
    ¬ ∀ i < (1001#32).toNat, ∃ p,
      (paces 1001#32 1000#32 ⟨100#64, 500001001, by decide⟩
        fun _ => ⟨101#64, 500000000, by decide⟩)[i]? = some p ∧
      p.Right 1000#32 i
        (elapsedNs ⟨100#64, 500001001, by decide⟩ ⟨101#64, 500000000, by decide⟩) := by
  intro h
  obtain ⟨p, hp, hright⟩ := h 1000 (by decide)
  rw [paces_getElem? (by decide)] at hp
  cases hp
  obtain ⟨-, hwell⟩ := (pace_right_iff (by decide) _ _ _).1 hright
  revert hwell
  unfold RoundsWell nsecDiff
  decide

end Iax.Injection
