import Iax.Iaxcsi.Decode
import Iax.Matlab.Assign

/-!
# Calibration keeps the measured tones

`calib_csi_subcs` scatters the measured tones over the subcarriers of a plan and overwrites the
pilots and DC by an interpolation.

* `genSubcCommon_plan`: what the index sets of a plan are (`PlanOk`).
* `calibBody`: the body of the loop of `calib_csi_subcs`, assignment by assignment.
* `calibBody_eq`: at a data subcarrier it leaves the tone that was measured there, which is the one
  at its rank among the data and pilot subcarriers.
* `calib_keeps_tones`: so for every plan, every matrix and every interpolation.
-/

namespace Iax.Iaxcsi

open Matlab

/-! ## Plans -/

/-- The index sets of a plan of radius `r` with the data and pilot positions `D`. -/
structure PlanOk (r : ℤ) (D : Finset ℤ) (subc : Subc) : Prop where
  disjoint : Disjoint subc.idxDataSubcs subc.idxPilotDcSubcs
  union : subc.idxDataSubcs ∪ subc.idxPilotDcSubcs = colon 1 (2 * r + 1)
  card : subc.idxDataPilotSubcs.card = 2 * D.card
  data : subc.idxDataSubcs ⊆ subc.idxDataPilotSubcs
  dataPilot : subc.idxDataPilotSubcs ⊆ colon 1 (2 * r + 1)
  len : (subc.subcsLen : ℤ) = 2 * r + 1

theorem card_colon (a b : ℤ) : (colon a b).card = (b + 1 - a).toNat := by
  rw [colon, Finset.card_image_of_injective _ fun i j h => by simpa using h, Finset.card_range]

/-- **A plan** whose pilot positions are among its data positions, all within the radius. -/
theorem genSubcCommon_plan {r : ℤ} {D P : Finset ℤ} (hr : 0 ≤ r) (hP : P ⊆ D)
    (hD : D ⊆ colon 1 r) :
    ∃ subc, genSubcCommon r D P = .ok subc ∧ PlanOk r D subc := by
  obtain ⟨subc, hok, -, hcard⟩ := genSubcCommon_eq hP hD
  refine ⟨subc, hok, ?_⟩
  have hDr : ∀ i ∈ D, 1 ≤ i ∧ i ≤ r := fun i hi => mem_colon.1 (hD hi)
  have hin : ∀ i, -i ∈ D ∨ i ∈ D → -r ≤ i ∧ i ≤ r := by
    rintro i (hi | hi)
    · have := hDr _ hi
      omega
    · have := hDr _ hi
      omega
  have hPD : ∀ i, -i ∈ P ∨ i ∈ P → -i ∈ D ∨ i ∈ D := fun i => Or.imp (@hP _) (@hP _)
  unfold genSubcCommon at hok
  dsimp only at hok
  split_ifs at hok
  cases hok
  refine ⟨?_, ?_, hcard, ?_, ?_, ?_⟩
  · rw [Finset.disjoint_left]
    intro i hdata hpilotDc
    simp only [mem_addSet, Finset.mem_sdiff, Finset.mem_union, mem_negSet] at hdata hpilotDc
    rcases hpilotDc with hpilot | hdc
    · exact hdata.2 hpilot
    · exact hdc.2 hdata.1
  · ext i
    simp only [Finset.mem_union, mem_addSet, Finset.mem_sdiff, mem_negSet, mem_colon]
    have hi := hin (i - (r + 1))
    have hp := hPD (i - (r + 1))
    constructor
    · rintro (h | h | h)
      · have := hi h.1
        omega
      · have := hi (hp h)
        omega
      · omega
    · intro h
      by_cases hd : -(i - (r + 1)) ∈ D ∨ i - (r + 1) ∈ D
      · by_cases hpilot : -(i - (r + 1)) ∈ P ∨ i - (r + 1) ∈ P
        · exact .inr (.inl hpilot)
        · exact .inl ⟨hd, hpilot⟩
      · exact .inr (.inr ⟨by omega, hd⟩)
  · intro i hi
    simp only [mem_addSet, Finset.mem_sdiff] at hi ⊢
    exact hi.1
  · intro i hi
    simp only [mem_addSet, Finset.mem_union, mem_negSet, mem_colon] at hi ⊢
    have := hin _ hi
    omega
  · change ((colon (-r) r).card : ℤ) = 2 * r + 1
    rw [card_colon]
    omega

/-! ## The tones that are kept -/

/-- **The middle extra tones**: what `get_noextra_subc` keeps are `n` of the `ntone` tones. -/
theorem getNoextraSubc_card {ntone n : ℕ} (hle : n ≤ ntone) (heven : Even (ntone - n)) :
    getNoextraSubc ntone n ⊆ colon 1 ntone ∧ (getNoextraSubc ntone n).card = n := by
  obtain ⟨k, hk⟩ := heven
  constructor
  · intro i hi
    simp only [getNoextraSubc, Finset.mem_union, mem_colon] at hi ⊢
    omega
  · rw [getNoextraSubc, Finset.card_union_of_disjoint, card_colon, card_colon]
    · omega
    · rw [Finset.disjoint_left]
      intro i h₁ h₂
      rw [mem_colon] at h₁ h₂
      omega

/-! ## The rank of a subcarrier -/

/-- How many members of a set are smaller. -/
def rank (s : Finset ℤ) (i : ℤ) : ℕ := (s.filter (· < i)).card

theorem length_filter_lt {l : List ℤ} (hl : l.Pairwise (· < ·)) {i : ℤ} (hi : i ∈ l) :
    l[(l.filter (· < i)).length]? = some i := by
  induction l with
  | nil => simp at hi
  | cons a l ih =>
    obtain ⟨ha, hl⟩ := List.pairwise_cons.1 hl
    rcases List.mem_cons.1 hi with rfl | hi
    · have hnone : l.filter (· < i) = [] :=
        List.filter_eq_nil_iff.2 fun b hb => by simpa using (ha b hb).le
      simp [hnone]
    · have hlt : a < i := ha i hi
      simpa [hlt] using ih hl hi

/-- A set as the sorted vector that it is in MATLAB. -/
def sorted {α : Type} [LinearOrder α] (s : Finset α) : List α := s.sort fun a b => a ≤ b

/-- In the sorted vector a member stands at its rank. -/
theorem getElem?_sorted_rank {s : Finset ℤ} {i : ℤ} (hi : i ∈ s) :
    (sorted s)[rank s i]? = some i := by
  have hsort : rank s i = ((sorted s).filter (· < i)).length := by
    rw [rank, Finset.card_def, Finset.filter_val, ← Finset.sort_eq s fun a b => a ≤ b,
      Multiset.filter_coe, Multiset.coe_card]
    rfl
  rw [hsort]
  exact length_filter_lt (Finset.sortedLT_sort s).pairwise ((Finset.mem_sort _).2 hi)

/-! ## The loop -/

section Body

variable {κ : Type} (itp : ComplexInterp κ) (subc : Subc)

/-- The body of the loop of `calib_csi_subcs`, on the tones of one pair of antennas: the value that
is assigned to `scsi(irx,itx,:)`. -/
def calibBody (tones : List (ℤ × ℤ)) : Except MatErr (List κ) := do
  let dataPilotDcTones := [itp.zero]
  let dataPilotDcTones ← assign itp.zero dataPilotDcTones (sorted subc.idxDataPilotSubcs)
    (tones.map itp.ofCsi)
  let x := sorted subc.idxDataSubcs
  let xv := sorted subc.idxPilotDcSubcs
  let y ← x.mapM (elem dataPilotDcTones)
  let dataPilotDcTones ← assign itp.zero dataPilotDcTones xv (xv.map (itp.interp x y))
  if dataPilotDcTones.length = subc.subcsLen then return dataPilotDcTones
  else if dataPilotDcTones.length = 1 then
    return List.replicate subc.subcsLen (dataPilotDcTones.headD itp.zero)
  else throw .numelMismatch

/-- The first part of `calib_csi_subcs`, given the tones to keep if some are dropped. -/
def keepTones (keep : Option (Finset ℤ)) (ntone : ℕ) (csi : CsiMat) : Except MatErr (CsiMat × ℕ) :=
  match keep with
  | some r => (indexTones csi ntone r).map fun csi => (csi, r.card)
  | none => .ok (csi, ntone)

/-- `calib_csi_subcs` with the tones that it keeps and its plan as parameters. -/
def calibPlan (keep : Option (Finset ℤ)) (plan : Except MatErr Subc) (ntone : ℕ) (csi : CsiMat) :
    Except MatErr (Calib κ) := do
  let (csi, ntone) ← keepTones keep ntone csi
  let subc ← plan
  let scsi ← csi.mapM fun txs => txs.mapM fun tones => calibBody itp subc tones
  return { csi := csi, ntone := ntone, scsi := scsi, subc := subc, nstone := subc.subcs.card }

variable {itp subc}

theorem mem_sorted {s : Finset ℤ} {i : ℤ} : i ∈ sorted s ↔ i ∈ s := Finset.mem_sort _

theorem nodup_sorted (s : Finset ℤ) : (sorted s).Nodup := Finset.sort_nodup ..

theorem length_sorted (s : Finset ℤ) : (sorted s).length = s.card := Finset.length_sort _

theorem mapM_eq_ok {ε β γ : Type*} {f : β → Except ε γ} {g : β → γ} {xs : List β}
    (h : ∀ x ∈ xs, f x = .ok (g x)) : xs.mapM f = .ok (xs.map g) := by
  induction xs with
  | nil => rfl
  | cons x xs ih =>
    obtain ⟨hx, hxs⟩ := List.forall_mem_cons.1 h
    rw [List.mapM_cons, hx, ih hxs]
    rfl

theorem mapM_congr_mem {ε β γ : Type*} {f g : β → Except ε γ} {xs : List β}
    (h : ∀ x ∈ xs, f x = g x) : xs.mapM f = xs.mapM g := by
  induction xs with
  | nil => rfl
  | cons x xs ih =>
    obtain ⟨hx, hxs⟩ := List.forall_mem_cons.1 h
    rw [List.mapM_cons, List.mapM_cons, hx, ih hxs]

theorem elem_getD {a : List κ} (zero : κ) {i : ℤ} (h₁ : 1 ≤ i) (h : i ≤ a.length) :
    elem a i = .ok (a.getD (i - 1).toNat zero) := by
  have hlt : (i - 1).toNat < a.length := by omega
  rw [elem, dif_pos ⟨h₁, hlt⟩, List.getD_eq_getElem _ _ hlt, List.get_eq_getElem]

/-- A vector of distinct keys is looked up at the place of the key. -/
theorem lookup_zip {idx : List ℤ} {vals : List κ} (hnodup : idx.Nodup) {k : ℕ} {i : ℤ}
    (hk : idx[k]? = some i) : (idx.zip vals).lookup i = vals[k]? := by
  induction idx generalizing vals k with
  | nil => simp at hk
  | cons j idx ih =>
    obtain ⟨hj, hnodup⟩ := List.nodup_cons.1 hnodup
    cases vals with
    | nil => simp
    | cons v vals =>
      cases k with
      | zero =>
        obtain rfl : j = i := by simpa using hk
        simp
      | succ k =>
        have hk : idx[k]? = some i := by simpa using hk
        have hne : (i == j) = false :=
          beq_eq_false_iff_ne.2 fun h => hj (h ▸ List.mem_of_getElem? hk)
        rw [List.zip_cons_cons, List.lookup_cons, hne, ih hnodup hk, List.getElem?_cons_succ]

/-- A key that is not there is not looked up. -/
theorem lookup_zip_eq_none {idx : List ℤ} {vals : List κ} {i : ℤ} (hi : i ∉ idx) :
    (idx.zip vals).lookup i = none := by
  refine List.lookup_eq_none_iff.2 fun q hq => ?_
  rw [bne_iff_ne]
  exact fun h => hi (h ▸ (List.of_mem_zip hq).1)

theorem lookup_zip_map {β : Type*} (g : β → κ) (idx : List ℤ) (vals : List β) (i : ℤ) :
    (idx.zip (vals.map g)).lookup i = ((idx.zip vals).lookup i).map g := by
  induction idx generalizing vals with
  | nil => rfl
  | cons j idx ih =>
    cases vals with
    | nil => rfl
    | cons v vals =>
      rw [List.map_cons, List.zip_cons_cons, List.zip_cons_cons, List.lookup_cons, List.lookup_cons,
        ih]
      cases i == j <;> rfl

/-- The vector after its first assignment. -/
def measured (itp : ComplexInterp κ) (subc : Subc) (tones : List (ℤ × ℤ)) (i : ℤ) : κ :=
  (((sorted subc.idxDataPilotSubcs).zip tones).lookup i).elim itp.zero itp.ofCsi

theorem calibTones_of_length {tones : List (ℤ × ℤ)}
    (hcount : tones.length = (sorted subc.idxDataPilotSubcs).length) (hone : tones.length ≠ 1) :
    calibTones itp subc tones = .ok ((List.range subc.subcsLen).map fun (p : ℕ) =>
      if (p : ℤ) + 1 ∈ subc.idxPilotDcSubcs then
        itp.interp (sorted subc.idxDataSubcs)
          ((sorted subc.idxDataSubcs).map (measured itp subc tones)) (p + 1)
      else measured itp subc tones (p + 1)) := by
  have htones : ¬(tones.length ≠ (sorted subc.idxDataPilotSubcs).length ∧ tones.length ≠ 1) :=
    fun hne => hne.1 hcount
  refine (if_neg htones).trans ?_
  simp only [if_neg hone]
  rfl

/-- **The body**, on as many tones as there are data and pilot subcarriers: it has the effect that
`calibTones` describes. -/
theorem calibBody_eq {r : ℤ} {D : Finset ℤ} (h : PlanOk r D subc) {tones : List (ℤ × ℤ)}
    (hlen : tones.length = 2 * D.card) : calibBody itp subc tones = calibTones itp subc tones := by
  have hr := h.len
  have hdp : ∀ i ∈ sorted subc.idxDataPilotSubcs, 1 ≤ i ∧ i ≤ subc.subcsLen := by
    intro i hi
    have := mem_colon.1 (h.dataPilot (mem_sorted.1 hi))
    omega
  have hunion (i : ℤ) : i ∈ subc.idxDataSubcs ∨ i ∈ subc.idxPilotDcSubcs ↔
      1 ≤ i ∧ i ≤ subc.subcsLen := by
    rw [← Finset.mem_union, h.union, mem_colon, hr]
  have hsome : [itp.zero].length ≤ subc.subcsLen := by
    rw [List.length_singleton]
    omega
  have hcount : tones.length = (sorted subc.idxDataPilotSubcs).length := by
    rw [hlen, length_sorted, h.card]
  obtain ⟨a₁, ha₁, hle₁, -, hall₁, hget₁⟩ := assign_eq itp.zero [itp.zero] subc.subcsLen
    ((List.length_map itp.ofCsi).trans hcount) (nodup_sorted _) hdp hsome
  have hget (p : ℕ) : a₁.getD p itp.zero = measured itp subc tones (p + 1) := by
    have hzero : [itp.zero].getD p itp.zero = itp.zero := by cases p <;> rfl
    rw [hget₁, lookup_zip_map, hzero, measured]
    cases ((sorted subc.idxDataPilotSubcs).zip tones).lookup ((p : ℤ) + 1) <;> rfl
  have hy : (sorted subc.idxDataSubcs).mapM (elem a₁) =
      .ok ((sorted subc.idxDataSubcs).map (measured itp subc tones)) := by
    refine mapM_eq_ok fun i hi => ?_
    have hmem := mem_sorted.2 (h.data (mem_sorted.1 hi))
    have h₁ := (hdp i hmem).1
    rw [elem_getD itp.zero h₁ (hall₁ i hmem), hget]
    congr 2
    omega
  obtain ⟨a₂, ha₂, hle₂, hge₂, hall₂, hget₂⟩ := assign_eq itp.zero a₁ subc.subcsLen
    (List.length_map (itp.interp (sorted subc.idxDataSubcs)
      ((sorted subc.idxDataSubcs).map (measured itp subc tones))))
    (nodup_sorted _) (fun i hi => (hunion i).1 (.inr (mem_sorted.1 hi))) hle₁
  -- the last subcarrier is one of the two kinds, so both assignments together fill the vector
  have hlen₂ : a₂.length = subc.subcsLen := by
    refine le_antisymm hle₂ ?_
    rcases (hunion subc.subcsLen).2 (by omega) with hlast | hlast
    · have := hall₁ _ (mem_sorted.2 (h.data hlast))
      omega
    · have := hall₂ _ (mem_sorted.2 hlast)
      omega
  have hbody : calibBody itp subc tones = .ok a₂ := by
    simp only [calibBody, bind, Except.bind, ha₁]
    rw [hy]
    simp only [ha₂, hlen₂, if_true, pure, Except.pure]
  rw [hbody, calibTones_of_length hcount (by omega)]
  congr 1
  refine List.ext_getElem (by simp [hlen₂]) fun p hp₁ hp₂ => ?_
  rw [← List.getD_eq_getElem a₂ itp.zero hp₁, hget₂, hget, List.getElem_map, List.getElem_range]
  by_cases hmem : (p : ℤ) + 1 ∈ subc.idxPilotDcSubcs
  · obtain ⟨k, hk⟩ := List.getElem?_of_mem (mem_sorted.2 hmem)
    rw [if_pos hmem, lookup_zip (nodup_sorted _) hk, List.getElem?_map, hk]
    rfl
  · rw [if_neg hmem, lookup_zip_eq_none (fun h => hmem (mem_sorted.1 h))]
    rfl

/-- **The data subcarriers** have their tones. -/
theorem calibTones_data {r : ℤ} {D : Finset ℤ} (h : PlanOk r D subc) {tones : List (ℤ × ℤ)}
    (hlen : tones.length = 2 * D.card) :
    ∃ v, calibTones itp subc tones = .ok v ∧ v.length = subc.subcsLen ∧ ∀ i ∈ subc.idxDataSubcs,
      v[(i - 1).toNat]? = (tones[rank subc.idxDataPilotSubcs i]?).map itp.ofCsi := by
  have hcount : tones.length = (sorted subc.idxDataPilotSubcs).length := by
    rw [hlen, length_sorted, h.card]
  refine ⟨_, calibTones_of_length hcount (by omega), by simp, fun i hi => ?_⟩
  have hrange := mem_colon.1 (h.dataPilot (h.data hi))
  have hlt : (i - 1).toNat < subc.subcsLen := by
    have := h.len
    omega
  have hcast : (((i - 1).toNat : ℕ) : ℤ) + 1 = i := by omega
  have hrank := getElem?_sorted_rank (h.data hi)
  obtain ⟨hin, -⟩ := List.getElem?_eq_some_iff.1 hrank
  have hin : rank subc.idxDataPilotSubcs i < tones.length := hcount.symm ▸ hin
  rw [List.getElem?_map, List.getElem?_range hlt, Option.map_some, hcast,
    if_neg (Finset.disjoint_left.1 h.disjoint hi), measured,
    lookup_zip (nodup_sorted _) hrank, List.getElem?_eq_getElem hin]
  rfl

/-- A loop whose rounds all succeed has their results in place. -/
theorem mapM_spec {ε β γ : Type*} {f : β → Except ε γ} {Q : β → γ → Prop} {xs : List β}
    (h : ∀ x ∈ xs, ∃ y, f x = .ok y ∧ Q x y) :
    ∃ ys, xs.mapM f = .ok ys ∧
      ∀ (k : ℕ) (x : β), xs[k]? = some x → ∃ y, ys[k]? = some y ∧ Q x y := by
  induction xs with
  | nil => exact ⟨[], rfl, by simp⟩
  | cons x xs ih =>
    obtain ⟨⟨y, hy, hQ⟩, hxs⟩ := List.forall_mem_cons.1 h
    obtain ⟨ys, hys, hall⟩ := ih hxs
    refine ⟨y :: ys, ?_, fun k x' hk => ?_⟩
    · rw [List.mapM_cons, hy, hys]
      rfl
    · cases k with
      | zero =>
        obtain rfl : x = x' := by simpa using hk
        exact ⟨y, rfl, hQ⟩
      | succ k => exact hall k x' (by simpa using hk)

variable (itp)

/-- The tones of one pair of antennas that are kept. -/
def keptTones (keep : Option (Finset ℤ)) (tones : List (ℤ × ℤ)) : List (ℤ × ℤ) :=
  match keep with
  | some s => (sorted s).map fun i => tones.getD (i - 1).toNat (0, 0)
  | none => tones

/-- The tones are as many as the plan has data and pilot subcarriers, or are made so by dropping the
middle ones. -/
def KeepsAll (keep : Option (Finset ℤ)) (ntone n : ℕ) : Prop :=
  (keep = none ∧ ntone = n) ∨
    keep = some (getNoextraSubc ntone n) ∧ n ≤ ntone ∧ Even (ntone - n)

theorem KeepsAll.length {keep : Option (Finset ℤ)} {tones : List (ℤ × ℤ)} {n : ℕ}
    (h : KeepsAll keep tones.length n) : (keptTones keep tones).length = n := by
  rcases h with ⟨rfl, h⟩ | ⟨rfl, hle, heven⟩
  · exact h
  · rw [keptTones, List.length_map, length_sorted, (getNoextraSubc_card hle heven).2]

/-- Dropping the middle tones works on the vectors of all pairs. -/
theorem KeepsAll.keepTones {keep : Option (Finset ℤ)} {ntone n : ℕ} (h : KeepsAll keep ntone n)
    (csi : CsiMat) :
    ∃ ntone', keepTones keep ntone csi = .ok (csi.map (·.map (keptTones keep)), ntone') := by
  rcases h with ⟨rfl, -⟩ | ⟨rfl, hle, heven⟩
  · refine ⟨ntone, ?_⟩
    have hid : keptTones none = id := rfl
    simp [Iaxcsi.keepTones, hid]
  · refine ⟨(getNoextraSubc ntone n).card, ?_⟩
    simp only [Iaxcsi.keepTones, indexTones, if_pos (getNoextraSubc_card hle heven).1]
    rfl

/-- The kept tones of every pair are as many as the plan asks for. -/
theorem KeepsAll.kept_length {keep : Option (Finset ℤ)} {csi : CsiMat} {nrx ntx ntone n : ℕ}
    (h : KeepsAll keep ntone n) (hcsi : Shaped csi nrx ntx ntone) :
    ∀ txs ∈ csi, ∀ tones ∈ txs, (keptTones keep tones).length = n := by
  intro txs htxs tones htones
  rw [← (hcsi.2 txs htxs).2 tones htones] at h
  exact h.length

/-- One receive antenna. -/
theorem calibRow {r : ℕ} {D : Finset ℤ} (h : PlanOk r D subc) {txs : List (List (ℤ × ℤ))}
    (hlen : ∀ tones ∈ txs, tones.length = 2 * D.card) :
    ∃ vs, (txs.mapM fun tones => calibBody itp subc tones) = .ok vs ∧
      ∀ (tx : ℕ) (tones : List (ℤ × ℤ)), txs[tx]? = some tones →
        ∃ v, vs[tx]? = some v ∧ v.length = 2 * r + 1 ∧ ∀ i ∈ subc.idxDataSubcs,
          v[(i - 1).toNat]? = (tones[rank subc.idxDataPilotSubcs i]?).map itp.ofCsi := by
  refine mapM_spec fun tones htones => ?_
  obtain ⟨v, hv, hvlen, hdata⟩ := calibTones_data h (hlen tones htones)
  have hr := h.len
  exact ⟨v, (calibBody_eq h (hlen tones htones)).trans hv, by omega, hdata⟩

/-- The source's function is the one with the plan of `get_subc`. -/
theorem calibCsiSubcs_eq_calibPlan {r : ℤ} {D P : Finset ℤ} {rateBwType : RateType × ℕ}
    (hsubc : genSubcCommon r D P = .ok subc) (h : PlanOk r D subc)
    (hplan : getSubc rateBwType = genSubcCommon r D P) {csi : CsiMat} {nrx ntx ntone : ℕ}
    (hcsi : Shaped csi nrx ntx ntone)
    (hkeep : KeepsAll (noextraSubc rateBwType ntone) ntone (2 * D.card)) :
    calibCsiSubcs itp rateBwType ntone csi =
      calibPlan itp (noextraSubc rateBwType ntone) (genSubcCommon r D P) ntone csi := by
  obtain ⟨ntone', hdrop⟩ := hkeep.keepTones csi
  have hlen := hkeep.kept_length hcsi
  have hloop : ((csi.map (·.map (keptTones (noextraSubc rateBwType ntone)))).mapM fun txs =>
      txs.mapM fun tones => calibTones itp subc tones) =
      (csi.map (·.map (keptTones (noextraSubc rateBwType ntone)))).mapM fun txs =>
        txs.mapM fun tones => calibBody itp subc tones := by
    refine mapM_congr_mem fun txs' htxs' => mapM_congr_mem fun tones' htones' => ?_
    obtain ⟨txs, htxs, rfl⟩ := List.mem_map.1 htxs'
    obtain ⟨tones, htones, rfl⟩ := List.mem_map.1 htones'
    exact (calibBody_eq h (hlen txs htxs tones htones)).symm
  have hdrop' : dropExtraTones rateBwType ntone csi = _ := hdrop
  simp only [calibCsiSubcs, calibPlan, hdrop, hdrop', hplan, hsubc, bind, Except.bind, hloop]

/-- **Calibration keeps the measured tones**: for every plan, every matrix and every interpolation.
The index sets of the plan are as they should be, the tones that are kept of more are as many as
asked for, and where a data subcarrier is, the result has the raw tone at the rank of that
subcarrier among the data and pilot subcarriers. -/
theorem calib_keeps_tones {r : ℕ} {D P : Finset ℤ} (hD : D ⊆ colon 1 r) (hP : P ⊆ D) :
    (∀ m n : ℕ, n ≤ m → Even (m - n) → (sorted (getNoextraSubc m n)).Pairwise (· < ·) ∧
      (sorted (getNoextraSubc m n)).length = n ∧ getNoextraSubc m n ⊆ colon 1 m) ∧
    ∃ subc, genSubcCommon r D P = .ok subc ∧
      Disjoint subc.idxDataSubcs subc.idxPilotDcSubcs ∧
      subc.idxDataSubcs ∪ subc.idxPilotDcSubcs = colon 1 (2 * r + 1) ∧
      (sorted subc.idxDataPilotSubcs).Pairwise (· < ·) ∧
      (sorted subc.idxDataPilotSubcs).length = 2 * D.card ∧
      ∀ (keep : Option (Finset ℤ)) (csi : CsiMat) (nrx ntx ntone : ℕ),
        Shaped csi nrx ntx ntone → KeepsAll keep ntone (2 * D.card) →
        ∃ c, calibPlan itp keep (genSubcCommon r D P) ntone csi = .ok c ∧ c.subc = subc ∧
          (∀ rateBwType, getSubc rateBwType = genSubcCommon r D P →
            noextraSubc rateBwType ntone = keep →
            calibCsiSubcs itp rateBwType ntone csi = .ok c) ∧
          ∀ (rx tx : ℕ) (txs : List (List (ℤ × ℤ))) (tones : List (ℤ × ℤ)),
            csi[rx]? = some txs → txs[tx]? = some tones →
              (keptTones keep tones).length = 2 * D.card ∧
              ∃ v, (c.scsi[rx]?).bind (·[tx]?) = some v ∧ v.length = 2 * r + 1 ∧
                ∀ i ∈ subc.idxDataSubcs, v[(i - 1).toNat]? =
                  ((keptTones keep tones)[rank subc.idxDataPilotSubcs i]?).map itp.ofCsi := by
  obtain ⟨subc, hsubc, hplan⟩ := genSubcCommon_plan (Int.natCast_nonneg r) hP hD
  refine ⟨fun m n hle heven => ?_, subc, hsubc, hplan.disjoint, hplan.union,
    (Finset.sortedLT_sort _).pairwise, by rw [length_sorted, hplan.card],
    fun keep csi nrx ntx ntone hcsi hkeep => ?_⟩
  · obtain ⟨hsub, hcard⟩ := getNoextraSubc_card hle heven
    exact ⟨(Finset.sortedLT_sort _).pairwise, by rw [length_sorted, hcard], hsub⟩
  obtain ⟨ntone', hdrop⟩ := hkeep.keepTones csi
  have hlen := hkeep.kept_length hcsi
  have hrow (txs' : List (List (ℤ × ℤ))) (htxs' : txs' ∈ csi.map (·.map (keptTones keep))) :
      ∀ tones' ∈ txs', tones'.length = 2 * D.card := by
    obtain ⟨txs, htxs, rfl⟩ := List.mem_map.1 htxs'
    intro tones' htones'
    obtain ⟨tones, htones, rfl⟩ := List.mem_map.1 htones'
    exact hlen txs htxs tones htones
  obtain ⟨scsi, hscsi, hall⟩ := mapM_spec fun txs' htxs' => calibRow itp hplan (hrow txs' htxs')
  have hrun : calibPlan itp keep (genSubcCommon r D P) ntone csi =
      .ok ⟨csi.map (·.map (keptTones keep)), ntone', scsi, subc, subc.subcs.card⟩ := by
    simp only [calibPlan, hdrop, hsubc, bind, Except.bind, hscsi]
    rfl
  refine ⟨_, hrun, rfl, ?_, ?_⟩
  · rintro rateBwType hget rfl
    rw [calibCsiSubcs_eq_calibPlan itp hsubc hplan hget hcsi hkeep, hrun]
  · intro rx tx txs tones hrx htx
    have hrx' : (csi.map (·.map (keptTones keep)))[rx]? = some (txs.map (keptTones keep)) := by
      rw [List.getElem?_map, hrx]
      rfl
    have htx' : (txs.map (keptTones keep))[tx]? = some (keptTones keep tones) := by
      rw [List.getElem?_map, htx]
      rfl
    obtain ⟨vs, hvs, hcol⟩ := hall rx _ hrx'
    obtain ⟨v, hv, hvlen, hvals⟩ := hcol tx _ htx'
    refine ⟨hlen txs (List.mem_of_getElem? hrx) tones (List.mem_of_getElem? htx), v, ?_, hvlen,
      hvals⟩
    rw [hvs, Option.bind_some, hv]

end Body

/-- Pilots at 2 and -2 of the radius 2: the tones at -1 and 1 are the second and the third. -/
theorem calib_keeps_tones_radius_two :
    ∃ subc, genSubcCommon (2 : ℕ) {1, 2} {2} = .ok subc ∧ ∃ c : Calib (ℤ × ℤ),
      calibPlan ⟨(0, 0), id, fun _ _ _ => (0, 0)⟩ none (genSubcCommon (2 : ℕ) {1, 2} {2}) 4
        [[[(1, 0), (2, 0), (3, 0), (4, 0)]]] = .ok c ∧
      ∃ v, (c.scsi[0]?).bind (·[0]?) = some v ∧ v.length = 5 ∧ ∀ i ∈ subc.idxDataSubcs,
        v[(i - 1).toNat]? =
          [((1 : ℤ), (0 : ℤ)), (2, 0), (3, 0), (4, 0)][rank subc.idxDataPilotSubcs i]? := by
  obtain ⟨-, subc, hsubc, -, -, -, -, hall⟩ :=
    calib_keeps_tones (κ := ℤ × ℤ) ⟨(0, 0), id, fun _ _ _ => (0, 0)⟩ (r := 2) (D := {1, 2})
      (P := {2}) (by decide) (by decide)
  obtain ⟨c, hrun, -, -, hpairs⟩ := hall none [[[(1, 0), (2, 0), (3, 0), (4, 0)]]] 1 1 4
    (by simp [Shaped]) (.inl ⟨rfl, rfl⟩)
  obtain ⟨-, v, hv, hvlen, hvals⟩ := hpairs 0 0 _ _ rfl rfl
  refine ⟨subc, hsubc, c, hrun, v, hv, hvlen, fun i hi => ?_⟩
  rw [hvals i hi, Option.map_id, keptTones, id]

end Iax.Iaxcsi
