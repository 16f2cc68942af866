import Iax.Iaxcsi.Decode

/-!
# The capture round trip

The listener writes records as frames, the reader reads a capture message by message.

* `readSt_valid`: a valid record is decoded from its frame, with its header fields and the matrix
  of its data (`Decodes`).
* `readsBack_frames`: on a handler whose contents are the frames of valid records, repeated
  `read_next` cuts out exactly these records and leaves the rest (`ReadsBack`).
* `capture_round_trip`: what the listener wrote for a list of valid records is read back as that
  list, with nothing left over.
-/

namespace Iax.Iaxcsi

open Bytes Matlab

variable {κ : Type} (itp : ComplexInterp κ) (debug : Bool)

/-! ## Records -/

/-- The rate word of a header. -/
def hdrRnf (hdr : Bytes) : BitVec 32 := BitVec.ofNat 32 (csiHdr hdr).rateNFlags

/-- The plan of a rate has as many data and pilot tones as are kept of `ntone`. -/
structure PlanFits (rateBwType : RateType × ℕ) (ntone : ℕ) : Prop where
  kept : ∀ r, noextraSubc rateBwType ntone = some r → r ⊆ colon 1 (ntone : ℤ)
  card : ∃ subc, getSubc rateBwType = .ok subc ∧
    keptLen rateBwType ntone = subc.idxDataPilotSubcs.card

/-- A header and its data that the reader is made for. -/
structure ValidRecord (hdr data : Bytes) : Prop where
  hdrLen : hdr.length = 272
  count : 4 * ((csiHdr hdr).nrx * (csiHdr hdr).ntx * (csiHdr hdr).ntone) = data.length
  modType : rnfField (hdrRnf hdr) 8 3 ≤ 5
  width : rnfField (hdrRnf hdr) 11 3 ≤ 4
  plan : ∀ rnfSt, getRnfSt (hdrRnf hdr) = .ok rnfSt →
    PlanFits rnfSt.rateBwType (csiHdr hdr).ntone
  fits : (frame hdr data).length ≤ bufSize

/-- The struct is that of the record: it is read from the record's message, the header fields are
those of the packed header, and in the matrix of `get_csi` entry `(r, t, k)`, counted from 0, has
as imaginary and real part the signed words at the offset `4 * ((r * ntx + t) * ntone + k)` of the
data and two bytes behind it. -/
structure Decodes (hdr data : Bytes) (st : St κ) : Prop where
  message : readSt itp debug (frameBody hdr data) = .ok (some st)
  matrix : ∃ csi rnfSt, getCsi data (hdrStOf debug hdr) = .ok csi ∧
    getRnfSt (hdrRnf hdr) = .ok rnfSt ∧
    fillCsist itp debug (hdrStOf debug hdr) rnfSt csi = .ok st ∧
    ∀ r < (csiHdr hdr).nrx, ∀ t < (csiHdr hdr).ntx, ∀ k < (csiHdr hdr).ntone, ∃ txs tones re im,
      csi[r]? = some txs ∧ txs[t]? = some tones ∧ tones[k]? = some (re, im) ∧
      im = signed 16 (wordAt data (4 * ((r * (csiHdr hdr).ntx + t) * (csiHdr hdr).ntone + k)) 2) ∧
      re = signed 16
        (wordAt data (4 * ((r * (csiHdr hdr).ntx + t) * (csiHdr hdr).ntone + k) + 2) 2)
  hdrSt : st.st = if debug then some (hdrStOf debug hdr) else none
  csiLen : st.csiLen = (csiHdr hdr).csiLen
  nrx : st.nrx = (csiHdr hdr).nrx
  ntx : st.ntx = (csiHdr hdr).ntx
  rssi : st.rssi = (-((csiHdr hdr).oppRssi1 : ℤ), -((csiHdr hdr).oppRssi2 : ℤ))
  smac : st.smac = (csiHdr hdr).smac
  seq : st.seq = (csiHdr hdr).seq
  us : st.us = (csiHdr hdr).us
  rnf : st.rnf = hdrRnf hdr
  timestamp : st.timestamp = roundDiv (csiHdr hdr).ts (10 ^ 9)

theorem csiOf_getElem? (data : Bytes) {nrx ntx ntone r t k : ℕ} (hr : r < nrx) (ht : t < ntx)
    (hk : k < ntone) : ∃ txs tones re im,
      (csiOf data nrx ntx ntone)[r]? = some txs ∧ txs[t]? = some tones ∧
      tones[k]? = some (re, im) ∧
      im = signed 16 (wordAt data (4 * ((r * ntx + t) * ntone + k)) 2) ∧
      re = signed 16 (wordAt data (4 * ((r * ntx + t) * ntone + k) + 2) 2) := by
  refine ⟨(List.range ntx).map fun t => (List.range ntone).map fun k =>
      csiEntryAt data (4 * ((r * ntx + t) * ntone + k)),
    (List.range ntone).map fun k => csiEntryAt data (4 * ((r * ntx + t) * ntone + k)),
    _, _, ?_, ?_, ?_, rfl, rfl⟩
  · rw [csiOf, List.getElem?_map, List.getElem?_range hr]
    rfl
  · rw [List.getElem?_map, List.getElem?_range ht]
    rfl
  · rw [List.getElem?_map, List.getElem?_range hk]
    rfl

theorem PlanFits.calibrates {rateBwType : RateType × ℕ} {ntone : ℕ}
    (h : PlanFits rateBwType ntone) (nrx ntx : ℕ) : Calibrates rateBwType nrx ntx ntone := by
  obtain ⟨subc, hsubc, hcard⟩ := h.card
  exact ⟨h.kept, .inr (.inr ⟨subc, hsubc, .inl hcard⟩)⟩

/-- **A valid record is decoded** from its frame. -/
theorem readSt_valid {hdr data : Bytes} (h : ValidRecord hdr data) :
    ∃ st, Decodes itp debug hdr data st := by
  have hfit := h.fits
  rw [length_frame, bufSize] at hfit
  obtain ⟨rnfSt, hrnf⟩ : ∃ rnfSt, getRnfSt (hdrRnf hdr) = .ok rnfSt :=
    ⟨_, getRnfSt_eq (hdrRnf hdr) (Nat.lt_succ_of_le h.modType) (Nat.lt_succ_of_le h.width)⟩
  have hcsi : getCsi data (hdrStOf debug hdr) =
      .ok (csiOf data (csiHdr hdr).nrx (csiHdr hdr).ntx (csiHdr hdr).ntone) :=
    getCsi_eq (le_of_eq h.count)
  obtain ⟨calib, hcalib⟩ := (calibCsiSubcs_isOk_iff itp rnfSt.rateBwType (shaped_csiOf data _ _ _)).2
    ((h.plan rnfSt hrnf).calibrates (csiHdr hdr).nrx (csiHdr hdr).ntx)
  have hfill : fillCsist itp debug (hdrStOf debug hdr) rnfSt
      (csiOf data (csiHdr hdr).nrx (csiHdr hdr).ntx (csiHdr hdr).ntone) =
        .ok (stOf debug (hdrStOf debug hdr) rnfSt calib) := by
    have hcalib' : calibCsiSubcs itp rnfSt.rateBwType (hdrStOf debug hdr).ntone
        (csiOf data (csiHdr hdr).nrx (csiHdr hdr).ntx (csiHdr hdr).ntone) = .ok calib := hcalib
    simp only [fillCsist, hcalib', bind, Except.bind]
    rfl
  have hread : readSt itp debug (frameBody hdr data) =
      .ok (some (stOf debug (hdrStOf debug hdr) rnfSt calib)) := by
    have hrnf' : getRnfSt (hdrStOf debug hdr).rnf = .ok rnfSt := hrnf
    rw [frameBody, readSt_eq itp debug h.hdrLen (by omega) (by omega), if_pos le_rfl,
      List.take_length]
    simp only [decodeSt, hrnf', hcsi, hfill, bind, Except.bind]
    rfl
  exact ⟨_, hread, ⟨_, rnfSt, hcsi, hrnf, hfill, fun r hr t ht k hk => csiOf_getElem? data hr ht hk⟩,
    rfl, rfl, rfl, rfl, rfl, rfl, rfl, rfl, rfl, rfl⟩

/-! ## Reading back -/

/-- Repeated `read_next` from `h` to `h'`: each call returns a struct, that of the next record. -/
inductive ReadsBack : FileHandler → List (Bytes × Bytes) → List (St κ) → FileHandler → Prop
  | nil (h : FileHandler) : ReadsBack h [] [] h
  | cons {h h₁ h' : FileHandler} {hdr data : Bytes} {records : List (Bytes × Bytes)} {st : St κ}
      {sts : List (St κ)} : h.isEnd = false → readNext itp debug h = .ok (some st, h₁) →
      Decodes itp debug hdr data st → ReadsBack h₁ records sts h' →
      ReadsBack h ((hdr, data) :: records) (st :: sts) h'

/-- **Frames are read back** one by one, and the rest is left. -/
theorem readsBack_frames (records : List (Bytes × Bytes))
    (hvalid : ∀ r ∈ records, ValidRecord r.1 r.2) {h : FileHandler} (hs : h.Settled) (rest : Bytes)
    (hcontents : h.contents = (records.flatMap fun r => frame r.1 r.2) ++ rest) :
    ∃ sts h', ReadsBack itp debug h records sts h' ∧ h'.Settled ∧ h'.contents = rest ∧
      read itp debug h = (read itp debug h').map fun more => sts ++ more := by
  induction records generalizing h with
  | nil =>
    refine ⟨[], h, .nil h, hs, by simpa using hcontents, ?_⟩
    cases read itp debug h <;> rfl
  | cons r records ih =>
    obtain ⟨st, hst⟩ := readSt_valid itp debug (hvalid r (by simp))
    have hfit := (hvalid r (by simp)).fits
    rw [length_frame, bufSize] at hfit
    have hbody : (frameBody r.1 r.2).length < 2 ^ 31 := by
      rw [length_frameBody]
      omega
    have hne : frameBody r.1 r.2 ≠ [] := by
      apply List.ne_nil_of_length_pos
      rw [length_frameBody]
      omega
    have hcontents' : h.contents = beBytes 4 (frameBody r.1 r.2).length ++ frameBody r.1 r.2 ++
        ((records.flatMap fun r => frame r.1 r.2) ++ rest) := by
      rw [hcontents, List.flatMap_cons, List.append_assoc, frame]
    obtain ⟨h₁, hs₁, hrest₁, hnext⟩ := readNext_message itp debug h hcontents' hbody hne
    rw [hst.message] at hnext
    obtain ⟨sts, h', hback, hs', hrest', hread⟩ :=
      ih (fun r' hr' => hvalid r' (by simp [hr'])) hs₁ hrest₁
    have hcne : h.contents ≠ [] := by
      rw [hcontents']
      simp [hne]
    have hend : h.isEnd = false := by
      rw [Bool.eq_false_iff]
      exact fun hend => hcne ((FileHandler.isEnd_iff hs).1 hend)
    refine ⟨st :: sts, h', .cons hend hnext hst hback, hs', hrest', ?_⟩
    rw [read_of_readNext itp debug hs hcne, hnext]
    simp only [Except.map, Except.bind, hread]
    cases read itp debug h' <;> rfl

/-- **The round trip.** The capture that the listener writes for any list of valid records is read
back, record by record, as exactly this list, and the handler is then at its end. -/
theorem capture_round_trip (records : List (Bytes × Bytes))
    (hvalid : ∀ r ∈ records, ValidRecord r.1 r.2) (l : Listener) (hbuf : l.buf.length = bufSize)
    (hfile : l.fpCsi = []) (blockLen : ℕ) (hpos : 0 < blockLen) :
    ∃ l' sts h', runListener l records = some l' ∧
      ReadsBack itp debug (FileHandler.ofFile blockLen hpos l'.fpCsi) records sts h' ∧
      h'.isEnd = true ∧ h'.contents = [] ∧
      read itp debug (FileHandler.ofFile blockLen hpos l'.fpCsi) = .ok sts := by
  obtain ⟨buf, hrun⟩ := runListener_eq records l hbuf fun r hr => (hvalid r hr).fits
  rw [hfile, List.nil_append] at hrun
  obtain ⟨sts, h', hback, hs', hrest, hread⟩ := readsBack_frames itp debug records hvalid
    (FileHandler.ofFile_settled blockLen hpos (records.flatMap fun r => frame r.1 r.2))
    [] (by rw [FileHandler.ofFile_contents, List.append_nil])
  refine ⟨_, sts, h', hrun, hback, (FileHandler.isEnd_iff hs').2 hrest, hrest, ?_⟩
  rw [hread, read_of_isEnd itp debug hs' hrest]
  simp [Except.map]

/-- A header of one antenna on each side and 52 tones, at NOHT and 20 MHz. -/
def nohtHdr : Bytes :=
  List.replicate 46 0 ++ [1, 1] ++ List.replicate 4 0 ++ [52, 0, 0, 0] ++ List.replicate 36 0 ++
    [0, 1, 0, 0] ++ List.replicate 176 0

theorem nohtHdr_valid {data : Bytes} (hlen : data.length = 208) : ValidRecord nohtHdr data where
  hdrLen := by decide +kernel
  count := by
    rw [hlen]
    decide +kernel
  modType := by decide +kernel
  width := by decide +kernel
  plan := by
    intro rnfSt hrnf
    have heq : getRnfSt (hdrRnf nohtHdr) =
        .ok ⟨0, 1, .noht, 20, (.noht, 20), 0, true⟩ := by decide +kernel
    obtain rfl := Except.ok.inj (heq.symm.trans hrnf)
    obtain ⟨subc, hsubc, -, hcard⟩ := genSubcCommon_eq (r := 26) (D := colon 1 26)
      (P := {7, 21}) (by decide) (by decide)
    refine ⟨fun r hr => (Option.some_ne_none r hr.symm).elim, subc, hsubc, ?_⟩
    rw [hcard]
    decide +kernel
  fits := by
    rw [length_frame, hlen]
    decide +kernel

/-- On data that is zero the interpolation is zero. -/
def zeroInterp : ComplexInterp (ℤ × ℤ) where
  zero := (0, 0)
  ofCsi := id
  interp := fun _ _ _ => (0, 0)

theorem capture_round_trip_noht :
    ∃ l' sts h', runListener ⟨List.replicate bufSize 0, [], []⟩
        [(nohtHdr, List.replicate 208 0), (nohtHdr, List.replicate 208 0)] = some l' ∧
      ReadsBack zeroInterp false
        (FileHandler.ofFile (512 * 1024 * 1024) (by decide) l'.fpCsi)
        [(nohtHdr, List.replicate 208 0), (nohtHdr, List.replicate 208 0)] sts h' ∧
      h'.isEnd = true ∧ h'.contents = [] ∧
      read zeroInterp false (FileHandler.ofFile (512 * 1024 * 1024) (by decide) l'.fpCsi) =
        .ok sts := by
  refine capture_round_trip zeroInterp false _ ?_ _ (List.length_replicate ..) rfl _ (by decide)
  intro r hr
  simp only [List.mem_cons, List.not_mem_nil, or_false, or_self] at hr
  rw [hr]
  exact nohtHdr_valid (List.length_replicate ..)

end Iax.Iaxcsi
