import Iax.Iaxcsi.Listener
import Iax.Iaxcsi.Reader

/-!
# What the reader reads

The parts of `iaxcsi.m`, each by what it makes of its input.

* `getCsiHdrSt_eq`: the header fields are those of the listener's packed struct.
* `getCsi_eq`: entry `(r, t, k)` is the word pair at offset `4 * ((r * ntx + t) * ntone + k)`;
  `getCsi_length_le`: a matrix larger than its data is never read.
* `calibCsiSubcs_isOk_iff`: which matrices the calibration accepts (`Calibrates`).
* `readSt_eq`, `readSt_skip`: a message, by the lengths that it declares.
* `read_message`: one step of `read` on a capture that begins with a whole message.
-/

namespace Iax.Iaxcsi

open Bytes Matlab

/-! ## The header -/

/-- The struct of `get_csi_hdr_st` for a packed header. -/
def hdrStOf (debug : Bool) (hdr : Bytes) : HdrSt where
  buf := if debug then some hdr else none
  csiLen := (csiHdr hdr).csiLen
  ftm := (csiHdr hdr).ftm
  nrx := (csiHdr hdr).nrx
  ntx := (csiHdr hdr).ntx
  ntone := (csiHdr hdr).ntone
  rssi1 := -(csiHdr hdr).oppRssi1
  rssi2 := -(csiHdr hdr).oppRssi2
  smac := (csiHdr hdr).smac
  seq := (csiHdr hdr).seq
  us := (csiHdr hdr).us
  rnf := BitVec.ofNat 32 (csiHdr hdr).rateNFlags
  timestamp := (csiHdr hdr).ts

theorem length_drop_take {hdr : Bytes} {o n : ℕ} (h : o + n ≤ hdr.length) :
    ((hdr.drop o).take n).length = n := by
  rw [List.length_take, List.length_drop]
  omega

theorem wordAt_one {hdr : Bytes} {o : ℕ} (h : o < hdr.length) : wordAt hdr o 1 = hdr[o].toNat := by
  rw [wordAt, List.drop_eq_getElem_cons h, List.take_succ_cons, List.take_zero, leNat_cons,
    leNat_nil, Nat.mul_zero, Nat.add_zero]

/-- **The header fields** of the two programs are the same. -/
theorem getCsiHdrSt_eq (debug : Bool) {hdr : Bytes} (h : hdr.length = 272) :
    getCsiHdrSt debug hdr = .ok (hdrStOf debug hdr) := by
  -- a word of four bytes, and a single byte
  have hword : ∀ o : ℕ, o + 4 ≤ 272 → ∀ a b : ℤ, a = o + 1 → b = o + 4 →
      range hdr a b = .ok ((hdr.drop o).take 4) ∧
        le32u ((hdr.drop o).take 4) = .ok (wordAt hdr o 4) := by
    intro o ho a b ha hb
    exact ⟨range_slice ha hb (by omega), le32u_eq (length_drop_take (by omega))⟩
  have hbyte : ∀ o : ℕ, o < 272 → ∀ i : ℤ, i = o + 1 →
      ∃ b, elem hdr i = .ok b ∧ b.toNat = wordAt hdr o 1 := by
    intro o ho i hi
    have hlt : o < hdr.length := by omega
    subst hi
    exact ⟨hdr[o], elem_eq_ok hlt, (wordAt_one hlt).symm⟩
  obtain ⟨r1, w1⟩ := hword 0 (by omega) 1 4 rfl rfl
  obtain ⟨r2, w2⟩ := hword 8 (by omega) 9 12 rfl rfl
  obtain ⟨r3, w3⟩ := hword 52 (by omega) 53 56 rfl rfl
  obtain ⟨r4, w4⟩ := hword 88 (by omega) 89 92 rfl rfl
  obtain ⟨r5, w5⟩ := hword 92 (by omega) 93 96 rfl rfl
  have r6 : range hdr 209 216 = .ok ((hdr.drop 208).take 8) := range_slice rfl rfl (by omega)
  have w6 : le64u ((hdr.drop 208).take 8) = .ok (wordAt hdr 208 8) :=
    le64u_eq (length_drop_take (by omega))
  have r7 : range hdr 69 74 = .ok ((hdr.drop 68).take 6) := range_slice rfl rfl (by omega)
  obtain ⟨b1, e1, v1⟩ := hbyte 46 (by omega) 47 rfl
  obtain ⟨b2, e2, v2⟩ := hbyte 47 (by omega) 48 rfl
  obtain ⟨b3, e3, v3⟩ := hbyte 60 (by omega) 61 rfl
  obtain ⟨b4, e4, v4⟩ := hbyte 64 (by omega) 65 rfl
  obtain ⟨b5, e5, v5⟩ := hbyte 76 (by omega) 77 rfl
  simp only [getCsiHdrSt, r1, w1, r2, w2, r3, w3, r4, w4, r5, w5, r6, w6, r7, e1, e2, e3, e4, e5,
    v1, v2, v3, v4, v5, bind, Except.bind]
  rfl

/-! ## The matrix -/

/-- The entry at a byte offset of the data. -/
def csiEntryAt (data : Bytes) (o : ℕ) : ℤ × ℤ :=
  (signed 16 (wordAt data (o + 2) 2), signed 16 (wordAt data o 2))

/-- The matrix that the data holds. -/
def csiOf (data : Bytes) (nrx ntx ntone : ℕ) : CsiMat :=
  (List.range nrx).map fun r => (List.range ntx).map fun t => (List.range ntone).map fun k =>
    csiEntryAt data (4 * ((r * ntx + t) * ntone + k))

theorem getTone_eq {data : Bytes} {o : ℕ} (h : o + 4 ≤ data.length) :
    getTone data (o + 1) = .ok (csiEntryAt data o, (o + 4 : ℕ) + 1) := by
  have r1 : range data ((o : ℤ) + 1) (o + 1 + 1) = .ok ((data.drop o).take 2) :=
    range_slice rfl (by omega) (by omega)
  have r2 : range data ((o : ℤ) + 1 + 2) (o + 1 + 3) = .ok ((data.drop (o + 2)).take 2) :=
    range_slice (by push_cast; omega) (by push_cast; omega) (by omega)
  simp only [getTone, r1, r2, le16i_eq (length_drop_take (show o + 2 ≤ data.length by omega)),
    le16i_eq (length_drop_take (show o + 2 + 2 ≤ data.length by omega)), bind, Except.bind, pure,
    Except.pure]
  congr 2

/-- A tone that is read lies inside the data. -/
theorem getTone_le {data : Bytes} {pos pos' : ℤ} {b : ℤ × ℤ}
    (h : getTone data pos = .ok (b, pos')) : pos' = pos + 4 ∧ pos' ≤ data.length + 1 := by
  simp only [getTone, bind, bind_eq_ok, pure, Except.pure, Except.ok.injEq, Prod.mk.injEq] at h
  obtain ⟨_, -, _, -, s, hs, _, -, -, rfl⟩ := h
  rcases range_eq_ok_iff.1 hs with ⟨hlt, -⟩ | ⟨-, -, hle, -⟩ <;> omega

section ForEach

variable {β : Type} {body : ℤ → Except MatErr (β × ℤ)}

/-- **A loop** whose rounds read `s` bytes each. -/
theorem forEach_eq {f : ℕ → β} {s L : ℕ}
    (h : ∀ start, start + s ≤ L → body ((start : ℕ) + 1) = .ok (f start, (start + s : ℕ) + 1))
    (n start : ℕ) (hn : start + n * s ≤ L) :
    forEach body n (start + 1) =
      .ok ((List.range n).map fun k => f (start + k * s), (start + n * s : ℕ) + 1) := by
  induction n generalizing start with
  | zero => simp [forEach, pure, Except.pure]
  | succ n ih =>
    rw [Nat.succ_mul] at hn
    have hrest := ih (start + s) (by omega)
    have hshift : ∀ k, start + s + k * s = start + (k + 1) * s := fun k => by
      rw [Nat.succ_mul]
      omega
    simp only [hshift] at hrest
    simp only [forEach, h start (by omega), hrest, bind, Except.bind, pure, Except.pure,
      List.range_succ_eq_map, List.map_cons, List.map_map, Nat.zero_mul, Nat.add_zero]
    rfl

/-- A loop that ends has read all its bytes inside the data. -/
theorem forEach_le {s : ℕ} {L : ℤ}
    (h : ∀ pos b pos', body pos = .ok (b, pos') → pos' = pos + s ∧ (0 < s → pos' ≤ L)) (n : ℕ)
    {pos pos' : ℤ} {bs : List β} (hrun : forEach body n pos = .ok (bs, pos')) :
    pos' = pos + (n * s : ℕ) ∧ (0 < n * s → pos' ≤ L) := by
  induction n generalizing pos bs with
  | zero =>
    simp only [forEach, pure, Except.pure, Except.ok.injEq, Prod.mk.injEq] at hrun
    simp [hrun.2]
  | succ n ih =>
    simp only [forEach, bind, bind_eq_ok, pure, Except.pure, Except.ok.injEq,
      Prod.mk.injEq] at hrun
    obtain ⟨r, hfirst, r', hrest, -, rfl⟩ := hrun
    obtain ⟨h1, h1'⟩ := h pos r.1 r.2 hfirst
    obtain ⟨h2, h2'⟩ := ih hrest
    rw [Nat.succ_mul]
    refine ⟨by push_cast; omega, fun hpos => ?_⟩
    rcases Nat.eq_zero_or_pos (n * s) with h0 | hn
    · have := h1' (by omega)
      omega
    · exact h2' hn

end ForEach

/-- **The matrix** of data that is long enough. -/
theorem getCsi_eq {data : Bytes} {hdrSt : HdrSt}
    (h : 4 * (hdrSt.nrx * hdrSt.ntx * hdrSt.ntone) ≤ data.length) :
    getCsi data hdrSt = .ok (csiOf data hdrSt.nrx hdrSt.ntx hdrSt.ntone) := by
  have hbound : 0 + hdrSt.nrx * (hdrSt.ntx * (hdrSt.ntone * 4)) ≤ data.length := by
    refine le_of_eq_of_le ?_ h
    ring
  have hrun := forEach_eq (forEach_eq (forEach_eq (fun _ => getTone_eq) hdrSt.ntone) hdrSt.ntx)
    hdrSt.nrx 0 hbound
  have hoff : ∀ r t k, 0 + r * (hdrSt.ntx * (hdrSt.ntone * 4)) + t * (hdrSt.ntone * 4) + k * 4 =
      4 * ((r * hdrSt.ntx + t) * hdrSt.ntone + k) := fun r t k => by ring
  simp only [hoff, Nat.cast_zero, zero_add (1 : ℤ)] at hrun
  simp only [getCsi, hrun, bind, Except.bind]
  rfl

/-- A matrix that is read lies inside the data. -/
theorem getCsi_length_le {data : Bytes} {hdrSt : HdrSt} {csi : CsiMat}
    (h : getCsi data hdrSt = .ok csi) :
    4 * (hdrSt.nrx * hdrSt.ntx * hdrSt.ntone) ≤ data.length := by
  simp only [getCsi, bind, bind_eq_ok] at h
  obtain ⟨r, hrun, -⟩ := h
  have htone : ∀ pos b pos', getTone data pos = .ok (b, pos') →
      pos' = pos + (4 : ℕ) ∧ (0 < 4 → pos' ≤ (data.length : ℤ) + 1) :=
    fun _ _ _ h => ⟨(getTone_le h).1, fun _ => (getTone_le h).2⟩
  obtain ⟨hend, hle⟩ :=
    forEach_le (fun _ _ _ => forEach_le (fun _ _ _ => forEach_le htone _) _) _ hrun
  rcases Nat.eq_zero_or_pos (hdrSt.nrx * (hdrSt.ntx * (hdrSt.ntone * 4))) with h0 | hpos
  · have : 4 * (hdrSt.nrx * hdrSt.ntx * hdrSt.ntone) = 0 := by
      rw [← h0]
      ring
    omega
  · have := hle hpos
    have hcomm : hdrSt.nrx * (hdrSt.ntx * (hdrSt.ntone * 4)) =
        4 * (hdrSt.nrx * hdrSt.ntx * hdrSt.ntone) := by ring
    rw [hcomm] at hend
    omega

/-! ## The calibration -/

variable {κ : Type} (itp : ComplexInterp κ)

/-- The number of tones that `calib_csi_subcs` keeps. -/
def keptLen (rateBwType : RateType × ℕ) (ntone : ℕ) : ℕ :=
  (noextraSubc rateBwType ntone).elim ntone Finset.card

/-- What `calib_csi_subcs` asks of its struct: the tones that it keeps are there, and unless the
matrix is empty, they are as many as the plan has data and pilot subcarriers, or one. -/
structure Calibrates (rateBwType : RateType × ℕ) (nrx ntx ntone : ℕ) : Prop where
  kept : ∀ r, noextraSubc rateBwType ntone = some r → r ⊆ colon 1 (ntone : ℤ)
  fits : nrx = 0 ∨ ntx = 0 ∨ ∃ subc, getSubc rateBwType = .ok subc ∧
    (keptLen rateBwType ntone = subc.idxDataPilotSubcs.card ∨ keptLen rateBwType ntone = 1)

/-- A matrix of the given size. -/
def Shaped (csi : CsiMat) (nrx ntx ntone : ℕ) : Prop :=
  csi.length = nrx ∧ ∀ txs ∈ csi, txs.length = ntx ∧ ∀ tones ∈ txs, tones.length = ntone

theorem shaped_csiOf (data : Bytes) (nrx ntx ntone : ℕ) :
    Shaped (csiOf data nrx ntx ntone) nrx ntx ntone := by
  simp [Shaped, csiOf]

theorem calibTones_isOk_iff (subc : Subc) (tones : List (ℤ × ℤ)) :
    (∃ v, calibTones itp subc tones = .ok v) ↔
      tones.length = subc.idxDataPilotSubcs.card ∨ tones.length = 1 := by
  simp only [calibTones, Finset.length_sort]
  split
  · rename_i h
    simpa [reduceCtorEq] using h
  · rename_i h
    simp only [Except.ok.injEq, exists_eq', true_iff]
    omega

theorem indexTones_isOk_iff (csi : CsiMat) (ntone : ℕ) (r : Finset ℤ) :
    (∃ csi', indexTones csi ntone r = .ok csi') ↔ r ⊆ colon 1 (ntone : ℤ) := by
  unfold indexTones
  split <;> simp_all

/-- What is left of the matrix has the kept tones. -/
theorem indexTones_shaped {csi csi' : CsiMat} {nrx ntx ntone : ℕ} {r : Finset ℤ}
    (hcsi : Shaped csi nrx ntx ntone) (h : indexTones csi ntone r = .ok csi') :
    Shaped csi' nrx ntx r.card := by
  unfold indexTones at h
  split at h
  · cases h
    refine ⟨by rw [List.length_map, hcsi.1], fun txs htxs => ?_⟩
    obtain ⟨txs₀, htxs₀, rfl⟩ := List.mem_map.1 htxs
    refine ⟨by rw [List.length_map, (hcsi.2 txs₀ htxs₀).1], fun tones htones => ?_⟩
    obtain ⟨tones₀, -, rfl⟩ := List.mem_map.1 htones
    rw [List.length_map, Finset.length_sort]
  · cases h

/-- Dropping tones fails only when they are not there, and leaves as many as it says. -/
theorem dropExtraTones_isOk_iff (rateBwType : RateType × ℕ) (csi : CsiMat) (ntone : ℕ) :
    (∃ p, dropExtraTones rateBwType ntone csi = .ok p) ↔
      ∀ r, noextraSubc rateBwType ntone = some r → r ⊆ colon 1 (ntone : ℤ) := by
  unfold dropExtraTones
  cases noextraSubc rateBwType ntone with
  | none => simp
  | some r =>
    simp only [Option.some.injEq, forall_eq', ← indexTones_isOk_iff csi ntone r]
    cases indexTones csi ntone r <;> simp [Except.map]

theorem dropExtraTones_shaped {rateBwType : RateType × ℕ} {csi csi' : CsiMat}
    {nrx ntx ntone n : ℕ} (hcsi : Shaped csi nrx ntx ntone)
    (h : dropExtraTones rateBwType ntone csi = .ok (csi', n)) :
    n = keptLen rateBwType ntone ∧ Shaped csi' nrx ntx n := by
  unfold dropExtraTones at h
  unfold keptLen
  cases hextra : noextraSubc rateBwType ntone with
  | none =>
    rw [hextra] at h
    cases h
    exact ⟨rfl, hcsi⟩
  | some r =>
    simp only [hextra] at h
    cases hindex : indexTones csi ntone r with
    | error e =>
      rw [hindex] at h
      cases h
    | ok csi'' =>
      rw [hindex] at h
      cases h
      exact ⟨rfl, indexTones_shaped hcsi hindex⟩

/-- The loop over the antennas, on a matrix of `n` tones. -/
theorem calibLoop_isOk_iff (subc : Subc) {csi : CsiMat} {nrx ntx n : ℕ}
    (hcsi : Shaped csi nrx ntx n) :
    (∃ scsi, (csi.mapM fun txs => txs.mapM fun tones => calibTones itp subc tones) = .ok scsi) ↔
      nrx = 0 ∨ ntx = 0 ∨ n = subc.idxDataPilotSubcs.card ∨ n = 1 := by
  simp only [mapM_isOk_iff, calibTones_isOk_iff]
  constructor
  · intro hall
    rcases Nat.eq_zero_or_pos nrx with h0 | hrx
    · exact .inl h0
    rcases Nat.eq_zero_or_pos ntx with h0 | htx
    · exact .inr (.inl h0)
    obtain ⟨txs, htxs⟩ := List.exists_mem_of_length_pos (hcsi.1 ▸ hrx)
    obtain ⟨tones, htones⟩ := List.exists_mem_of_length_pos ((hcsi.2 txs htxs).1 ▸ htx)
    rw [← (hcsi.2 txs htxs).2 tones htones]
    exact .inr (.inr (hall txs htxs tones htones))
  · rintro hfit txs htxs tones htones
    rw [(hcsi.2 txs htxs).2 tones htones]
    rcases hfit with h0 | h0 | hn
    · have := List.length_pos_of_mem htxs
      have := hcsi.1
      omega
    · have := List.length_pos_of_mem htones
      have := (hcsi.2 txs htxs).1
      omega
    · exact hn

/-- **Which matrices are calibrated.** -/
theorem calibCsiSubcs_isOk_iff (rateBwType : RateType × ℕ) {csi : CsiMat} {nrx ntx ntone : ℕ}
    (hcsi : Shaped csi nrx ntx ntone) :
    (∃ c, calibCsiSubcs itp rateBwType ntone csi = .ok c) ↔
      Calibrates rateBwType nrx ntx ntone := by
  obtain ⟨subc, hsubc⟩ := getSubc_isOk rateBwType
  simp only [calibCsiSubcs, bind, bind_eq_ok, hsubc, Except.ok.injEq, pure, Except.pure]
  constructor
  · rintro ⟨_, ⟨csi', n⟩, hdrop, _, rfl, scsi, hscsi, -⟩
    obtain ⟨rfl, hshaped⟩ := dropExtraTones_shaped hcsi hdrop
    refine ⟨(dropExtraTones_isOk_iff rateBwType csi ntone).1 ⟨_, hdrop⟩, ?_⟩
    exact ((calibLoop_isOk_iff itp subc hshaped).1 ⟨scsi, hscsi⟩).imp_right
      (Or.imp_right fun h => ⟨subc, hsubc, h⟩)
  · rintro ⟨hkept, hfits⟩
    obtain ⟨⟨csi', n⟩, hdrop⟩ := (dropExtraTones_isOk_iff rateBwType csi ntone).2 hkept
    obtain ⟨rfl, hshaped⟩ := dropExtraTones_shaped hcsi hdrop
    have hfits' : nrx = 0 ∨ ntx = 0 ∨ keptLen rateBwType ntone = subc.idxDataPilotSubcs.card ∨
        keptLen rateBwType ntone = 1 := by
      refine hfits.imp_right (Or.imp_right ?_)
      rintro ⟨subc', hsubc', h⟩
      obtain rfl : subc = subc' := Except.ok.inj (hsubc.symm.trans hsubc')
      exact h
    obtain ⟨scsi, hscsi⟩ := (calibLoop_isOk_iff itp subc hshaped).2 hfits'
    exact ⟨_, (csi', _), hdrop, subc, rfl, scsi, hscsi, rfl⟩

/-! ## One message -/

/-- What `read_st` makes of the two parts of a message. -/
def decodeSt (debug : Bool) (hdr : Bytes) (csiBuf : Except MatErr Bytes) :
    Except MatErr (Option (St κ)) := do
  let rnfSt ← getRnfSt (hdrStOf debug hdr).rnf
  let csiBuf ← csiBuf
  let csi ← getCsi csiBuf (hdrStOf debug hdr)
  let st ← fillCsist itp debug (hdrStOf debug hdr) rnfSt csi
  return some st

/-- `read_st` by what it reads of its buffer. -/
theorem readSt_of_range (debug : Bool) {buf lenBuf hdr csiLenBuf : Bytes} {n : ℕ}
    (hlenBuf : range buf 1 4 = .ok lenBuf) (hhdrLen : be32u lenBuf = .ok 272)
    (hhdr : range buf 5 (5 + (272 : ℕ) - 1) = .ok hdr) (hlen : hdr.length = 272)
    (hcsiLenBuf : range buf (5 + (272 : ℕ)) (5 + (272 : ℕ) + 3) = .ok csiLenBuf)
    (hcsiLen : be32u csiLenBuf = .ok n) :
    readSt itp debug buf = decodeSt itp debug hdr
      (range buf (5 + (272 : ℕ) + 4) (min ((5 : ℤ) + (272 : ℕ) + 4 + n) (2 ^ 32 - 1) - 1)) := by
  simp only [readSt, hlenBuf, hhdrLen, ne_eq, not_true_eq_false, if_false, hhdr,
    getCsiHdrSt_eq debug hlen, hcsiLenBuf, hcsiLen, bind, Except.bind, decodeSt]

theorem readSt_of_ne (debug : Bool) {buf lenBuf : Bytes} {n : ℕ}
    (hlenBuf : range buf 1 4 = .ok lenBuf) (hhdrLen : be32u lenBuf = .ok n) (hne : n ≠ 272) :
    readSt itp debug buf = .ok none := by
  simp only [readSt, hlenBuf, hhdrLen, bind, Except.bind, if_pos hne]
  rfl

/-- A message with another header length is skipped. -/
theorem readSt_skip (debug : Bool) {n : ℕ} (hn : n < 2 ^ 32) (hne : n ≠ 272) (rest : Bytes) :
    readSt itp debug (beBytes 4 n ++ rest) = .ok none :=
  readSt_of_ne itp debug (range_head (beBytes 4 n) rest (by rw [length_beBytes]; rfl))
    (be32u_beBytes hn) hne

/-- **A message** whose data length says `n`. -/
theorem readSt_eq (debug : Bool) {hdr data : Bytes} {n : ℕ} (hhdr : hdr.length = 272)
    (hn : n < 2 ^ 32) (hlen : data.length < 2 ^ 31) :
    readSt itp debug (beBytes 4 hdr.length ++ hdr ++ beBytes 4 n ++ data) =
      decodeSt itp debug hdr
        (if n ≤ data.length then .ok (data.take n) else .error .badSubscript) := by
  rw [hhdr]
  set buf := beBytes 4 272 ++ hdr ++ beBytes 4 n ++ data with hbuf
  have hbuflen : buf.length = 280 + data.length := by
    simp only [hbuf, List.length_append, length_beBytes, hhdr]
  have r1 : range buf 1 4 = .ok (beBytes 4 272) := by
    rw [hbuf, List.append_assoc, List.append_assoc]
    exact range_head _ _ (by rw [length_beBytes]; rfl)
  have r2 : range buf 5 (5 + (272 : ℕ) - 1) = .ok hdr := by
    rw [hbuf, List.append_assoc]
    exact range_middle _ _ _ (by rw [length_beBytes]; rfl) (by rw [length_beBytes, hhdr]; rfl)
  have hprelen : (beBytes 4 272 ++ hdr).length = 276 := by
    rw [List.length_append, length_beBytes, hhdr]
  have r3 : range buf (5 + (272 : ℕ)) (5 + (272 : ℕ) + 3) = .ok (beBytes 4 n) :=
    range_middle _ _ _ (by rw [hprelen]; rfl) (by rw [hprelen, length_beBytes]; rfl)
  rw [readSt_of_range itp debug r1 (be32u_beBytes (by omega)) r2 hhdr r3 (be32u_beBytes hn)]
  congr 1
  split
  · rename_i hle
    have hcut : buf = (beBytes 4 272 ++ hdr ++ beBytes 4 n) ++ data.take n ++ data.drop n := by
      rw [List.append_assoc, List.take_append_drop]
    have hlen3 : (beBytes 4 272 ++ hdr ++ beBytes 4 n).length = 280 := by
      rw [List.length_append, hprelen, length_beBytes]
    rw [hcut]
    refine range_middle _ _ _ (by rw [hlen3]; rfl) ?_
    rw [hlen3, List.length_take_of_le hle]
    omega
  · exact range_eq_error (by omega) (.inr (by omega))

/-! ## One step of reading -/

/-- `read_next` by what it reads from its handler. -/
theorem readNext_of_read (debug : Bool) {h h₁ h₂ : FileHandler} {lenBuf msg : Bytes} {msgLen : ℤ}
    (hlenBuf : h.read 4 = .ok (lenBuf, h₁)) (hmsgLen : be32i lenBuf = .ok msgLen)
    (hmsg : h₁.read msgLen = .ok (msg, h₂)) :
    readNext itp debug h = (readSt itp debug msg).map fun st => (st, h₂) := by
  simp only [readNext, hlenBuf, hmsgLen, hmsg, bind, Except.bind]
  cases readSt itp debug msg <;> rfl

/-- A length that cannot be read, or a message. -/
theorem readNext_of_error (debug : Bool) {h h₁ : FileHandler} {lenBuf : Bytes} {e : MatErr}
    (hlenBuf : h.read 4 = .ok (lenBuf, h₁))
    (herror : ((be32i lenBuf).bind fun msgLen => h₁.read msgLen) = .error e) :
    readNext itp debug h = .error e := by
  simp only [readNext, hlenBuf, bind, Except.bind] at herror ⊢
  cases hmsgLen : be32i lenBuf with
  | error e' =>
    rw [hmsgLen] at herror
    cases herror
    rfl
  | ok msgLen =>
    simp only [hmsgLen] at herror ⊢
    rw [herror]

/-- **One message of a capture**: it is decoded by `read_st`, and the rest of the capture is left. -/
theorem readNext_message (debug : Bool) (h : FileHandler) {body rest : Bytes}
    (hcontents : h.contents = beBytes 4 body.length ++ body ++ rest)
    (hlen : body.length < 2 ^ 31) (hpos : body ≠ []) :
    ∃ h', h'.Settled ∧ h'.contents = rest ∧
      readNext itp debug h = (readSt itp debug body).map fun st => (st, h') := by
  obtain ⟨h₁, hread₁, hrest₁, -⟩ := h.read_eq 4
  obtain ⟨h₂, hread₂, hrest₂, hsettled⟩ := h₁.read_eq body.length
  have htake : h.contents.take 4 = beBytes 4 body.length := by
    rw [hcontents, List.append_assoc, List.take_left' (length_beBytes 4 _)]
  have hdrop : h₁.contents = body ++ rest := by
    rw [hrest₁, hcontents, List.append_assoc, List.drop_left' (length_beBytes 4 _)]
  have hmsgLen : be32i (beBytes 4 body.length) = .ok (body.length : ℤ) := by
    rw [be32i_beBytes (by omega), signed_of_lt (by omega) hlen]
  rw [htake] at hread₁
  rw [hdrop, List.take_left] at hread₂
  refine ⟨h₂, hsettled (List.length_pos_of_ne_nil hpos), by rw [hrest₂, hdrop, List.drop_left], ?_⟩
  exact readNext_of_read itp debug hread₁ hmsgLen hread₂

theorem read_of_isEnd (debug : Bool) {h : FileHandler} (hs : h.Settled) (hend : h.contents = []) :
    read itp debug h = .ok [] := by
  rw [read, if_pos ((FileHandler.isEnd_iff hs).2 hend)]

theorem read_of_readNext (debug : Bool) {h : FileHandler} (hs : h.Settled)
    (hne : h.contents ≠ []) :
    read itp debug h = (readNext itp debug h).bind fun r =>
      (read itp debug r.2).map fun sts => r.1.toList ++ sts := by
  rw [read, if_neg (fun hend => hne ((FileHandler.isEnd_iff hs).1 hend))]
  cases readNext itp debug h <;> rfl

/-- **One step of `read`** on a capture that begins with a whole message. -/
theorem read_message (debug : Bool) {h : FileHandler} (hs : h.Settled) {body rest : Bytes}
    (hcontents : h.contents = beBytes 4 body.length ++ body ++ rest)
    (hlen : body.length < 2 ^ 31) (hpos : body ≠ []) :
    ∃ h', h'.Settled ∧ h'.contents = rest ∧
      read itp debug h = (readSt itp debug body).bind fun st =>
        (read itp debug h').map fun sts => st.toList ++ sts := by
  obtain ⟨h', hs', hrest, hread⟩ := readNext_message itp debug h hcontents hlen hpos
  refine ⟨h', hs', hrest, ?_⟩
  have hne : h.contents ≠ [] := by
    rw [hcontents]
    intro hnil
    simp only [List.append_eq_nil_iff] at hnil
    exact hpos hnil.1.2
  rw [read_of_readNext itp debug hs hne, hread]
  cases readSt itp debug body <;> rfl

end Iax.Iaxcsi
