import Iax.Iaxcsi.RateWord
import Mathlib.Data.Finset.Image
import Mathlib.Data.Finset.Sort
import Mathlib.Tactic.Linarith

/-!
# Subcarrier plans

`subcarrier.m` names the subcarriers of each modulation and bandwidth. MATLAB's `union` and
`setdiff` give sorted vectors without repetition, here finite sets of integers.

* `genSubcCommon_eq`: a plan whose pilot positions are data positions within the radius passes its
  own check, and has twice as many data and pilot subcarriers as it has positions.
* `getSubc_isOk`: so every name has a plan.
* `getNoextraSubc`: the tones that are kept of the ones measured at 160 MHz.
-/

namespace Iax.Iaxcsi

open Matlab

/-! ## Plans -/

/-- The struct of `gen_subc_common`. -/
structure Subc where
  subcs : Finset ℤ
  dataPilotSubcs : Finset ℤ
  csiSubcs : Finset ℤ
  pilotSubcs : Finset ℤ
  dcSubcs : Finset ℤ
  dataSubcs : Finset ℤ
  pilotDcSubcs : Finset ℤ
  dataPilotDcSubcs : Finset ℤ
  subcsLen : ℕ
  subcsNums : List ℕ
  subcsListOffset : ℤ
  idxDataSubcs : Finset ℤ
  idxDataPilotSubcs : Finset ℤ
  idxPilotDcSubcs : Finset ℤ
  idxDataPilotDcSubcs : Finset ℤ

/-- `a:b` as a set. -/
def colon (a b : ℤ) : Finset ℤ := (Finset.range (b + 1 - a).toNat).image fun (i : ℕ) => a + i

/-- `-s` and `s + c` for a vector `s`. -/
def negSet (s : Finset ℤ) : Finset ℤ := s.image fun i => -i

def addSet (s : Finset ℤ) (c : ℤ) : Finset ℤ := s.image fun i => i + c

/-- `gen_subc_common`; its check raises an error. -/
def genSubcCommon (subcsRadius : ℤ) (posDataPilotSubcs posPilotSubcs : Finset ℤ) :
    Except MatErr Subc :=
  let subcs := colon (-subcsRadius) subcsRadius
  let dataPilotSubcs := negSet posDataPilotSubcs ∪ posDataPilotSubcs
  let pilotSubcs := negSet posPilotSubcs ∪ posPilotSubcs
  let dcSubcs := subcs \ dataPilotSubcs
  let dataSubcs := dataPilotSubcs \ pilotSubcs
  let pilotDcSubcs := pilotSubcs ∪ dcSubcs
  let dataPilotDcSubcs := pilotDcSubcs ∪ dataSubcs
  let offset := subcsRadius + 1
  if subcs.card ≠ dataPilotDcSubcs.card then .error .raised
  else .ok {
    subcs := subcs
    dataPilotSubcs := dataPilotSubcs
    csiSubcs := dataPilotSubcs
    pilotSubcs := pilotSubcs
    dcSubcs := dcSubcs
    dataSubcs := dataSubcs
    pilotDcSubcs := pilotDcSubcs
    dataPilotDcSubcs := dataPilotDcSubcs
    subcsLen := subcs.card
    subcsNums := [dcSubcs.card, pilotSubcs.card, dataSubcs.card, dataPilotSubcs.card,
      dataPilotDcSubcs.card]
    subcsListOffset := offset
    idxDataSubcs := addSet dataSubcs offset
    idxDataPilotSubcs := addSet dataPilotSubcs offset
    idxPilotDcSubcs := addSet pilotDcSubcs offset
    idxDataPilotDcSubcs := addSet dataPilotDcSubcs offset }

def getSubcNoht20 : Except MatErr Subc := genSubcCommon 26 (colon 1 26) {7, 21}

def getSubcHt20 : Except MatErr Subc := genSubcCommon 28 (colon 1 28) {7, 21}

def getSubcHt40 : Except MatErr Subc := genSubcCommon 58 (colon 2 58) {11, 25, 53}

def getSubcVht80 : Except MatErr Subc := genSubcCommon 122 (colon 2 122) {11, 39, 75, 103}

/-- The pilots 190 to 194 are added by the source itself. -/
def getSubcVht160 : Except MatErr Subc :=
  genSubcCommon 250 (colon 6 126 ∪ colon 130 250)
    ({25, 53, 89, 117, 139, 167, 203, 231} ∪ colon 190 194)

def getSubcHe20 : Except MatErr Subc := genSubcCommon 122 (colon 2 122) {22, 48, 90, 116}

def getSubcHe40 : Except MatErr Subc :=
  genSubcCommon 244 (colon 3 244) {10, 36, 78, 104, 144, 170, 212, 238}

def getSubcHe80 : Except MatErr Subc :=
  genSubcCommon 500 (colon 3 500) {24, 92, 158, 226, 266, 334, 400, 468}

/-- The pilots are those of 80 MHz, moved to the upper half, and 766 to 770. -/
def getSubcHe160 : Except MatErr Subc := do
  let he80 ← getSubcHe80
  genSubcCommon 1012 (colon 12 509 ∪ colon 515 1012)
    (addSet he80.pilotSubcs 512 ∪ colon 766 770)

/-- `get_subc`, of the name and the bandwidth that `rate_bw_type` is made of. -/
def getSubc : RateType × ℕ → Except MatErr Subc
  | (.noht, 20) => getSubcNoht20
  | (.ht, 20) | (.vht, 20) => getSubcHt20
  | (.ht, 40) | (.vht, 40) => getSubcHt40
  | (.vht, 80) => getSubcVht80
  | (.vht, 160) => getSubcVht160
  | (.he, 20) => getSubcHe20
  | (.he, 40) => getSubcHe40
  | (.he, 80) => getSubcHe80
  | (.he, 160) => getSubcHe160
  | _ => getSubcNoht20

/-- `get_noextra_subc`: the middle tones beyond the number of data and pilot subcarriers are part
of DC. -/
def getNoextraSubc (ntone ntoneDataPilot : ℤ) : Finset ℤ :=
  let halfExtra := (ntone - ntoneDataPilot) / 2
  let half := ntone / 2
  colon 1 (half - halfExtra) ∪ colon (half + halfExtra + 1) ntone

/-! ## The check of a plan -/

theorem mem_colon {a b i : ℤ} : i ∈ colon a b ↔ a ≤ i ∧ i ≤ b := by
  rw [colon, Finset.mem_image]
  constructor
  · rintro ⟨j, hj, rfl⟩
    rw [Finset.mem_range] at hj
    omega
  · rintro ⟨ha, hb⟩
    refine ⟨(i - a).toNat, ?_, by omega⟩
    rw [Finset.mem_range]
    omega

theorem mem_negSet {s : Finset ℤ} {i : ℤ} : i ∈ negSet s ↔ -i ∈ s := by
  rw [negSet, Finset.mem_image]
  constructor
  · rintro ⟨j, hj, rfl⟩
    rwa [neg_neg]
  · intro h
    exact ⟨-i, h, neg_neg i⟩

theorem card_addSet (s : Finset ℤ) (c : ℤ) : (addSet s c).card = s.card :=
  Finset.card_image_of_injective s fun _ _ h => by simpa using h

/-- **The check.** Pilot positions among the data positions, all within the radius. -/
theorem genSubcCommon_eq {r : ℤ} {D P : Finset ℤ} (hP : P ⊆ D) (hD : D ⊆ colon 1 r) :
    ∃ subc, genSubcCommon r D P = .ok subc ∧ subc.pilotSubcs = negSet P ∪ P ∧
      subc.idxDataPilotSubcs.card = 2 * D.card := by
  have hmemP : ∀ i, i ∈ negSet P ∪ P → i ∈ negSet D ∪ D := by
    intro i hi
    rw [Finset.mem_union, mem_negSet] at hi ⊢
    exact hi.imp (fun h => hP h) fun h => hP h
  have hall : (negSet P ∪ P ∪ (colon (-r) r \ (negSet D ∪ D))) ∪
      ((negSet D ∪ D) \ (negSet P ∪ P)) = colon (-r) r := by
    have hin : negSet D ∪ D ⊆ colon (-r) r := by
      intro i hi
      rw [Finset.mem_union, mem_negSet] at hi
      rw [mem_colon]
      rcases hi with hi | hi
      · have := mem_colon.1 (hD hi)
        omega
      · have := mem_colon.1 (hD hi)
        omega
    ext i
    simp only [Finset.mem_union (t := _ \ _), Finset.mem_sdiff]
    constructor
    · rintro ((h | h) | h)
      · exact hin (hmemP i h)
      · exact h.1
      · exact hin h.1
    · intro h
      by_cases hp : i ∈ negSet P ∪ P
      · exact .inl (.inl hp)
      · by_cases hd : i ∈ negSet D ∪ D
        · exact .inr ⟨hd, hp⟩
        · exact .inl (.inr ⟨h, hd⟩)
  have hcard : (negSet D ∪ D).card = 2 * D.card := by
    rw [Finset.card_union_of_disjoint, negSet, Finset.card_image_of_injective D neg_injective]
    · omega
    · rw [Finset.disjoint_left]
      intro i hneg hpos
      have h1 := mem_colon.1 (hD (mem_negSet.1 hneg))
      have h2 := mem_colon.1 (hD hpos)
      omega
  unfold genSubcCommon
  simp only [hall, ne_eq, not_true_eq_false, if_false]
  exact ⟨_, rfl, rfl, by rw [card_addSet, hcard]⟩

-- the plans below are never computed
attribute [irreducible] genSubcCommon

theorem mem_addSet {s : Finset ℤ} {c i : ℤ} : i ∈ addSet s c ↔ i - c ∈ s := by
  rw [addSet, Finset.mem_image]
  constructor
  · rintro ⟨j, hj, rfl⟩
    rwa [add_sub_cancel_right]
  · intro h
    exact ⟨i - c, h, sub_add_cancel i c⟩

/-- A plan whose positions are named one by one or as ranges. -/
theorem genSubcCommon_isOk {r : ℤ} {D P : Finset ℤ} (hP : ∀ i ∈ P, i ∈ D)
    (hD : ∀ i ∈ D, i ∈ colon 1 r) : ∃ subc, genSubcCommon r D P = .ok subc :=
  (genSubcCommon_eq hP hD).imp fun _ h => h.1

theorem getSubcHe80_eq : ∃ subc, getSubcHe80 = .ok subc ∧
    subc.pilotSubcs = negSet {24, 92, 158, 226, 266, 334, 400, 468} ∪
      {24, 92, 158, 226, 266, 334, 400, 468} := by
  obtain ⟨subc, h, hpilot, -⟩ := genSubcCommon_eq (r := 500) (D := colon 3 500)
    (P := {24, 92, 158, 226, 266, 334, 400, 468})
    (fun i hi => by
      simp only [Finset.mem_insert, Finset.mem_singleton] at hi
      rw [mem_colon]
      omega)
    (fun i hi => by rw [mem_colon] at hi ⊢; omega)
  exact ⟨subc, h, hpilot⟩

theorem getSubcHe160_isOk : ∃ subc, getSubcHe160 = .ok subc := by
  obtain ⟨he80, hhe80, hpilot⟩ := getSubcHe80_eq
  obtain ⟨subc, hsubc⟩ : ∃ subc, genSubcCommon 1012 (colon 12 509 ∪ colon 515 1012)
      (addSet he80.pilotSubcs 512 ∪ colon 766 770) = .ok subc := by
    refine genSubcCommon_isOk (fun i hi => ?_) (fun i hi => ?_)
    · rw [hpilot] at hi
      simp only [Finset.mem_union, mem_addSet, mem_negSet, Finset.mem_insert,
        Finset.mem_singleton, mem_colon] at hi ⊢
      omega
    · simp only [Finset.mem_union, mem_colon] at hi ⊢
      omega
  exact ⟨subc, bind_eq_ok.2 ⟨he80, hhe80, hsubc⟩⟩

/-- Every name has a plan. -/
theorem getSubc_isOk (rateBwType : RateType × ℕ) : ∃ subc, getSubc rateBwType = .ok subc := by
  unfold getSubc
  split <;> first
    | with_reducible exact getSubcHe160_isOk
    | refine genSubcCommon_isOk (fun i hi => ?_) (fun i hi => ?_) <;>
        simp only [Finset.mem_union, Finset.mem_insert, Finset.mem_singleton, mem_colon]
          at hi ⊢ <;> omega

end Iax.Iaxcsi
