import Iax.Iaxcsi.RoundTrip

/-!
# Damaged captures

Captures that are cut, or that have one field of one frame wrong. The `try` blocks of `iaxcsi.m`
are empty, so an error in a message ends the whole `read` and the records before it are lost.

* `readSt_take_eq_ok`: a message of which bytes are missing is never read.
* `read_isOk_message`: whether a capture is read is decided at the damaged message.
* `damage_recovered_iff`: the records before the damage are returned exactly for the damages that
  `Tolerated` lists. `cut_not_recovered` is a capture cut inside the length word of a frame.
-/

namespace Iax.Iaxcsi

open Bytes Matlab

/-! ## Damages -/

/-- The capture of a list of records. -/
def capture (records : List (Bytes × Bytes)) : Bytes := records.flatMap fun r => frame r.1 r.2

/-- A field of a frame that does not fit the others. -/
inductive Field
  /-- The antennas and tones of the header, against the data. -/
  | count
  /-- The length in front of the header. -/
  | hdrLen (n : ℕ)
  /-- The length in front of the data. -/
  | dataLen (n : ℕ)
  /-- The length of the frame. -/
  | total (n : ℕ)

/-- What stands behind the length of the frame. -/
def Field.body (hdr data : Bytes) : Field → Bytes
  | .count => frameBody hdr data
  | .hdrLen n => beBytes 4 n ++ hdr ++ beBytes 4 data.length ++ data
  | .dataLen n => beBytes 4 hdr.length ++ hdr ++ beBytes 4 n ++ data
  | .total _ => frameBody hdr data

/-- The damaged frame. -/
def Field.frame (hdr data : Bytes) (f : Field) : Bytes :=
  match f with
  | .total n => beBytes 4 n ++ f.body hdr data
  | _ => beBytes 4 (f.body hdr data).length ++ f.body hdr data

/-- A capture with a damage. -/
inductive Damage
  /-- Of the capture of some records only the first `n` bytes are left. -/
  | cut (records : List (Bytes × Bytes)) (n : ℕ)
  /-- One frame is damaged, between those of other records. -/
  | field (before : List (Bytes × Bytes)) (hdr data : Bytes) (f : Field)
    (after : List (Bytes × Bytes))

/-- The records whose frames lie in the first `n` bytes. -/
def wholeRecords : List (Bytes × Bytes) → ℕ → List (Bytes × Bytes)
  | [], _ => []
  | r :: records, n =>
    if (frame r.1 r.2).length ≤ n then
      r :: wholeRecords records (n - (frame r.1 r.2).length)
    else []

namespace Damage

/-- The bytes of the capture. -/
def bytes : Damage → Bytes
  | .cut records n => (capture records).take n
  | .field before hdr data f after => capture before ++ f.frame hdr data ++ capture after

/-- The records before the damage. -/
def preceding : Damage → List (Bytes × Bytes)
  | .cut records n => wholeRecords records n
  | .field before _ _ _ _ => before

end Damage

/-- The field is wrong, and nothing else is. A length is wrong when it is larger than what the frame
has left, or, for that of the frame, zero or negative. -/
def Field.Wrong (hdr data : Bytes) : Field → Prop
  | .count => hdr.length = 272 ∧ (Iaxcsi.frame hdr data).length ≤ bufSize ∧
      4 * ((csiHdr hdr).nrx * (csiHdr hdr).ntx * (csiHdr hdr).ntone) ≠ data.length
  | .hdrLen n => ValidRecord hdr data ∧ hdr.length + 4 + data.length < n ∧ n < 2 ^ 32
  | .dataLen n => ValidRecord hdr data ∧ data.length < n ∧ n < 2 ^ 32
  | .total n => ValidRecord hdr data ∧ (n = 0 ∨ 2 ^ 31 ≤ n) ∧ n < 2 ^ 32

/-- All records but the damaged one are valid. -/
def Damage.WellFormed : Damage → Prop
  | .cut records _ => ∀ r ∈ records, ValidRecord r.1 r.2
  | .field before hdr data f after => (∀ r ∈ before, ValidRecord r.1 r.2) ∧ f.Wrong hdr data ∧
      ∀ r ∈ after, ValidRecord r.1 r.2

/-- The wrong fields that do no harm: a wrong header length, for which the message is skipped, and a
matrix smaller than its data, if the rate is in the tables and the plan of the rate has as many
tones as the matrix. -/
def Field.Tolerated (hdr data : Bytes) : Field → Prop
  | .count => 4 * ((csiHdr hdr).nrx * (csiHdr hdr).ntx * (csiHdr hdr).ntone) < data.length ∧
      rnfField (hdrRnf hdr) 8 3 ≤ 5 ∧ rnfField (hdrRnf hdr) 11 3 ≤ 4 ∧
      ∀ rnfSt, getRnfSt (hdrRnf hdr) = .ok rnfSt →
        Calibrates rnfSt.rateBwType (csiHdr hdr).nrx (csiHdr hdr).ntx (csiHdr hdr).ntone
  | .hdrLen _ => True
  | .dataLen _ => False
  | .total _ => False

/-- The damages that do no harm. A cut does none between two frames. -/
def Damage.Tolerated : Damage → Prop
  | .cut records n => ∃ k, (capture records).take n = capture (records.take k)
  | .field _ hdr data f _ => f.Tolerated hdr data

variable {κ : Type} (itp : ComplexInterp κ) (debug : Bool)

/-- `read` ends without an error, and the structs of the given records come first. -/
def Recovers (h : FileHandler) (records : List (Bytes × Bytes)) : Prop :=
  ∃ sts more, read itp debug h = .ok (sts ++ more) ∧
    List.Forall₂ (fun r st => Decodes itp debug r.1 r.2 st) records sts

/-! ## Messages that are not read -/

/-- **A message of which bytes are missing** is not read. -/
theorem readSt_take_eq_ok {hdr data : Bytes} (hhdr : hdr.length = 272) (hlen : data.length < 2 ^ 31)
    {k : ℕ} {r : Option (St κ)} (h : readSt itp debug ((frameBody hdr data).take k) = .ok r) :
    (frameBody hdr data).length ≤ k := by
  set body := frameBody hdr data with hbody
  have hbodylen : body.length = 280 + data.length := by
    rw [hbody, length_frameBody, hhdr]
  have hslice : ∀ {a b : ℤ} {w : Bytes}, a ≤ b → range (body.take k) a b = .ok w →
      b ≤ k ∧ range body a b = .ok w := by
    intro a b w hab hw
    rcases range_eq_ok_iff.1 hw with ⟨hlt, -⟩ | ⟨-, ha, hb, rfl⟩
    · omega
    · rw [List.length_take] at hb
      refine ⟨by omega, range_eq_ok_iff.2 (.inr ⟨hab, ha, by omega, ?_⟩)⟩
      rw [List.drop_take, List.take_take]
      congr 1
      omega
  simp only [readSt, bind, bind_eq_ok] at h
  obtain ⟨w₁, hw₁, hdrLen, hhdrLen, h⟩ := h
  obtain ⟨-, hfull₁⟩ := hslice (by omega) hw₁
  have r1 : range body 1 4 = .ok (beBytes 4 272) := by
    rw [hbody, frameBody, hhdr, List.append_assoc, List.append_assoc]
    exact range_head _ _ (by rw [length_beBytes]; rfl)
  obtain rfl := Except.ok.inj (r1.symm.trans hfull₁)
  obtain rfl := Except.ok.inj ((be32u_beBytes (by omega)).symm.trans hhdrLen)
  simp only [ne_eq, not_true_eq_false, if_false, bind_eq_ok] at h
  obtain ⟨-, -, -, -, -, -, w₂, hw₂, csiLen, hcsiLen, w₃, hw₃, -⟩ := h
  obtain ⟨hfour, hfull₂⟩ := hslice (by omega) hw₂
  have hpre : (beBytes 4 272 ++ hdr).length = 276 := by
    rw [List.length_append, length_beBytes, hhdr]
  have r2 : range body (5 + (272 : ℕ)) (5 + (272 : ℕ) + 3) = .ok (beBytes 4 data.length) := by
    rw [hbody, frameBody, hhdr]
    exact range_middle _ _ _ (by rw [hpre]; rfl) (by rw [hpre, length_beBytes]; rfl)
  obtain rfl := Except.ok.inj (r2.symm.trans hfull₂)
  obtain rfl := Except.ok.inj ((be32u_beBytes (by omega)).symm.trans hcsiLen)
  rcases Nat.eq_zero_or_pos data.length with h0 | hpos
  · omega
  · obtain ⟨hend, -⟩ := hslice (by omega) hw₃
    omega

/-- An empty message is not read. -/
theorem readSt_nil : readSt itp debug [] = .error .badSubscript := by
  have r1 : range ([] : Bytes) 1 4 = .error .badSubscript :=
    range_eq_error (by omega) (.inr (by simp))
  simp only [readSt, r1, bind, Except.bind]

/-- **What the parts of a message must be** for it to be decoded. -/
theorem decodeSt_isOk_iff {hdr data : Bytes} :
    (∃ st, decodeSt itp debug hdr (.ok data) = .ok st) ↔
      4 * ((csiHdr hdr).nrx * (csiHdr hdr).ntx * (csiHdr hdr).ntone) ≤ data.length ∧
      rnfField (hdrRnf hdr) 8 3 ≤ 5 ∧ rnfField (hdrRnf hdr) 11 3 ≤ 4 ∧
      ∀ rnfSt, getRnfSt (hdrRnf hdr) = .ok rnfSt →
        Calibrates rnfSt.rateBwType (csiHdr hdr).nrx (csiHdr hdr).ntx (csiHdr hdr).ntone := by
  have hrnf : (hdrStOf debug hdr).rnf = hdrRnf hdr := rfl
  simp only [decodeSt, fillCsist, bind, bind_eq_ok, hrnf]
  constructor
  · rintro ⟨-, rnfSt, hrnfSt, data', hdata, csi, hcsi, -, ⟨calib, hcalib, -⟩, -⟩
    obtain rfl := Except.ok.inj hdata
    have hcount := getCsi_length_le hcsi
    obtain rfl := Except.ok.inj ((getCsi_eq hcount).symm.trans hcsi)
    refine ⟨hcount, ?_, ?_, fun rnfSt' hrnfSt' => ?_⟩
    · by_contra hlarge
      rw [getRnfSt_eq_error _ (.inl (Nat.lt_of_not_le hlarge))] at hrnfSt
      cases hrnfSt
    · by_contra hlarge
      rw [getRnfSt_eq_error _ (.inr (Nat.lt_of_not_le hlarge))] at hrnfSt
      cases hrnfSt
    · obtain rfl := Except.ok.inj (hrnfSt.symm.trans hrnfSt')
      exact (calibCsiSubcs_isOk_iff itp rnfSt.rateBwType (shaped_csiOf data _ _ _)).1 ⟨calib, hcalib⟩
  · rintro ⟨hcount, hmod, hwidth, hplan⟩
    have hrnfSt := getRnfSt_eq (hdrRnf hdr) (Nat.lt_succ_of_le hmod) (Nat.lt_succ_of_le hwidth)
    obtain ⟨calib, hcalib⟩ := (calibCsiSubcs_isOk_iff itp _ (shaped_csiOf data _ _ _)).2
      (hplan _ hrnfSt)
    exact ⟨_, _, hrnfSt, data, rfl, _, getCsi_eq hcount, _, ⟨calib, hcalib, rfl⟩, rfl⟩

/-! ## Captures -/

/-- The records that are read back are decoded. -/
theorem ReadsBack.decodes {h h' : FileHandler} {records : List (Bytes × Bytes)} {sts : List (St κ)}
    (hback : ReadsBack itp debug h records sts h') :
    List.Forall₂ (fun r st => Decodes itp debug r.1 r.2 st) records sts := by
  induction hback with
  | nil h => exact .nil
  | cons hend hnext hst hback ih => exact .cons hst ih

/-- **The records before the damage** are returned when the rest of the capture is read. -/
theorem recovers_iff {records : List (Bytes × Bytes)}
    (hvalid : ∀ r ∈ records, ValidRecord r.1 r.2) {h : FileHandler} (hs : h.Settled) {rest : Bytes}
    (hcontents : h.contents = capture records ++ rest) :
    ∃ h', h'.Settled ∧ h'.contents = rest ∧
      (Recovers itp debug h records ↔ ∃ sts, read itp debug h = .ok sts) ∧
      ((∃ sts, read itp debug h = .ok sts) ↔ ∃ sts, read itp debug h' = .ok sts) := by
  obtain ⟨sts, h', hback, hs', hrest, hread⟩ :=
    readsBack_frames itp debug records hvalid hs rest hcontents
  refine ⟨h', hs', hrest, ?_⟩
  rw [hread]
  cases hmore : read itp debug h' with
  | error e => simp [Recovers, hread, hmore, Except.map]
  | ok more =>
    simp only [Except.map, Except.ok.injEq, exists_eq', iff_self, and_true, iff_true]
    refine ⟨sts, more, ?_, hback.decodes⟩
    rw [hread, hmore]
    rfl

/-- A capture of valid records is read. -/
theorem read_capture_isOk {records : List (Bytes × Bytes)}
    (hvalid : ∀ r ∈ records, ValidRecord r.1 r.2) {h : FileHandler} (hs : h.Settled)
    (hcontents : h.contents = capture records) : ∃ sts, read itp debug h = .ok sts := by
  obtain ⟨sts, h', -, hs', hrest, hread⟩ := readsBack_frames itp debug records hvalid hs []
    (by rw [hcontents, List.append_nil, capture])
  refine ⟨sts, ?_⟩
  rw [hread, read_of_isEnd itp debug hs' hrest]
  simp [Except.map]

/-- **A damaged message** before valid records decides whether they are read. -/
theorem read_isOk_message {records : List (Bytes × Bytes)}
    (hvalid : ∀ r ∈ records, ValidRecord r.1 r.2) {h : FileHandler} (hs : h.Settled) {body : Bytes}
    (hcontents : h.contents = beBytes 4 body.length ++ body ++ capture records)
    (hlen : body.length < 2 ^ 31) (hpos : body ≠ []) :
    (∃ sts, read itp debug h = .ok sts) ↔ ∃ st, readSt itp debug body = .ok st := by
  obtain ⟨h', hs', hrest, hread⟩ := read_message itp debug hs hcontents hlen hpos
  obtain ⟨sts', hsts'⟩ := read_capture_isOk itp debug hvalid hs' hrest
  rw [hread, hsts']
  cases readSt itp debug body with
  | error e => simp [Except.bind]
  | ok st => simp [Except.bind, Except.map]

/-- A frame whose length is zero or negative is not read. -/
theorem read_total_error {h : FileHandler} (hs : h.Settled) {n : ℕ} (hn : n < 2 ^ 32)
    (hwrong : n = 0 ∨ 2 ^ 31 ≤ n) {rest : Bytes} (hcontents : h.contents = beBytes 4 n ++ rest) :
    read itp debug h = .error .badSubscript := by
  have hne : h.contents ≠ [] := by
    rw [hcontents]
    apply List.ne_nil_of_length_pos
    rw [List.length_append, length_beBytes]
    omega
  obtain ⟨h₁, hread₁, -, -⟩ := h.read_eq 4
  rw [hcontents, List.take_left' (length_beBytes 4 n)] at hread₁
  rw [read_of_readNext itp debug hs hne]
  rcases hwrong with rfl | hneg
  · obtain ⟨h₂, hread₂, -, -⟩ := h₁.read_eq 0
    rw [readNext_of_read itp debug hread₁ (be32i_beBytes hn) hread₂, List.take_zero,
      readSt_nil itp debug]
    rfl
  · have hneg' : signed 32 n < 0 := by
      rw [signed_of_le (by omega) hneg hn]
      omega
    rw [readNext_of_error itp debug hread₁ (by rw [be32i_beBytes hn]; exact h₁.read_neg hneg')]
    rfl

/-- A frame of which bytes are missing is not read. -/
theorem read_cut_error {hdr data : Bytes} (hvalid : ValidRecord hdr data) {h : FileHandler}
    (hs : h.Settled) {k : ℕ} (hpos : 0 < k) (hk : k < (frame hdr data).length)
    (hcontents : h.contents = (frame hdr data).take k) : ∃ e, read itp debug h = .error e := by
  have hfit := hvalid.fits
  rw [length_frame, bufSize] at hfit
  have hcontentslen : h.contents.length = k := by
    rw [hcontents, List.length_take]
    omega
  have hne : h.contents ≠ [] := List.ne_nil_of_length_pos (by omega)
  obtain ⟨h₁, hread₁, hrest₁, -⟩ := h.read_eq 4
  rw [read_of_readNext itp debug hs hne]
  rcases Nat.lt_or_ge k 4 with hshort | hfour
  · have hshort' : (h.contents.take 4).length < 4 := by
      rw [List.length_take]
      omega
    rw [readNext_of_error itp debug hread₁ (by rw [be32i_eq_error hshort']; rfl)]
    exact ⟨_, rfl⟩
  set body := frameBody hdr data with hbody
  have htake : h.contents.take 4 = beBytes 4 body.length := by
    rw [hcontents, frame, List.take_take, min_eq_left hfour, List.take_left' (length_beBytes 4 _)]
  have hdrop : h₁.contents = body.take (k - 4) := by
    rw [hrest₁, hcontents, frame, List.drop_take, List.drop_left' (length_beBytes 4 _)]
  have hbodylen : body.length = 280 + data.length := by
    rw [hbody, length_frameBody, hvalid.hdrLen]
  have hmsgLen : be32i (beBytes 4 body.length) = .ok (body.length : ℤ) := by
    rw [be32i_beBytes (by omega), signed_of_lt (by omega) (by omega)]
  obtain ⟨h₂, hread₂, -, -⟩ := h₁.read_eq body.length
  have hmin : min body.length (k - 4) = k - 4 := by
    rw [length_frame, hvalid.hdrLen] at hk
    omega
  rw [hdrop, List.take_take, hmin] at hread₂
  rw [htake] at hread₁
  rw [readNext_of_read itp debug hread₁ hmsgLen hread₂]
  cases hst : readSt itp debug (body.take (k - 4)) with
  | error e => exact ⟨e, rfl⟩
  | ok st =>
    have hwhole := readSt_take_eq_ok itp debug hvalid.hdrLen (by omega) hst
    rw [length_frameBody] at hwhole
    rw [length_frame] at hk
    omega

/-- **A cut capture** is the frames of its whole records and a part of the next frame. -/
theorem take_capture (records : List (Bytes × Bytes)) (n : ℕ) :
    ∃ i part, wholeRecords records n = records.take i ∧
      (capture records).take n = capture (wholeRecords records n) ++ part ∧
      (part = [] ∨ ∃ r ∈ records, ∃ k, 0 < k ∧ k < (frame r.1 r.2).length ∧
        part = (frame r.1 r.2).take k) := by
  induction records generalizing n with
  | nil => exact ⟨0, [], rfl, by simp [capture, wholeRecords], .inl rfl⟩
  | cons r records ih =>
    have hcons : capture (r :: records) = frame r.1 r.2 ++ capture records := List.flatMap_cons
    unfold wholeRecords
    split
    · rename_i hle
      obtain ⟨i, part, hwhole, hcapture, hpart⟩ := ih (n - (frame r.1 r.2).length)
      refine ⟨i + 1, part, by rw [hwhole, List.take_succ_cons], ?_, ?_⟩
      · rw [hcons, List.take_append, List.take_of_length_le hle, hcapture, ← List.append_assoc]
        rfl
      · refine hpart.imp_right ?_
        rintro ⟨r', hr', hpart'⟩
        exact ⟨r', List.mem_cons_of_mem r hr', hpart'⟩
    · rename_i hlt
      refine ⟨0, (frame r.1 r.2).take n, rfl, ?_, ?_⟩
      · rw [hcons, List.take_append_of_le_length (by omega)]
        rfl
      · rcases Nat.eq_zero_or_pos n with rfl | hpos
        · exact .inl (List.take_zero ..)
        · exact .inr ⟨r, List.mem_cons_self, n, hpos, by omega, rfl⟩

/-! ## Recovery -/

/-- The prefixes of a valid capture. -/
theorem recovers_cut_iff {records : List (Bytes × Bytes)}
    (hvalid : ∀ r ∈ records, ValidRecord r.1 r.2) (n : ℕ) {h : FileHandler} (hs : h.Settled)
    (hcontents : h.contents = (capture records).take n) :
    Recovers itp debug h (wholeRecords records n) ↔
      ∃ k, (capture records).take n = capture (records.take k) := by
  obtain ⟨i, part, hwhole, hcapture, hpart⟩ := take_capture records n
  have hvalidTake : ∀ k, ∀ r ∈ records.take k, ValidRecord r.1 r.2 :=
    fun k r hr => hvalid r (List.mem_of_mem_take hr)
  obtain ⟨h', hs', hrest, hrecovers, hread⟩ := recovers_iff itp debug (hwhole ▸ hvalidTake i) hs
    (hcontents.trans hcapture)
  rw [hrecovers]
  constructor
  · intro hok
    obtain ⟨sts, hsts⟩ := hread.1 hok
    rcases hpart with rfl | ⟨r, hr, k, hpos, hk, rfl⟩
    · exact ⟨i, by rw [hcapture, hwhole, List.append_nil]⟩
    · obtain ⟨e, he⟩ := read_cut_error itp debug (hvalid r hr) hs' hpos hk hrest
      rw [he] at hsts
      cases hsts
  · rintro ⟨k, hk⟩
    exact read_capture_isOk itp debug (hvalidTake k) hs (hcontents.trans hk)

/-- The message of a frame with a wrong field inside is read exactly when the field is tolerated. -/
theorem readSt_body_isOk_iff {hdr data : Bytes} {f : Field} (hwrong : f.Wrong hdr data)
    (hinner : ∀ n, f ≠ .total n) :
    (∃ st, readSt itp debug (f.body hdr data) = .ok st) ↔ f.Tolerated hdr data := by
  cases f with
  | count =>
    obtain ⟨hhdr, hfit, hne⟩ := hwrong
    rw [length_frame, bufSize] at hfit
    rw [Field.body, frameBody, readSt_eq itp debug hhdr (by omega) (by omega), if_pos le_rfl,
      List.take_length, decodeSt_isOk_iff, Field.Tolerated, lt_iff_le_and_ne, and_iff_left hne]
  | hdrLen n =>
    obtain ⟨hvalid, hlarge, hn⟩ := hwrong
    have hhdr := hvalid.hdrLen
    rw [Field.body, List.append_assoc, List.append_assoc, readSt_skip itp debug hn (by omega)]
    exact ⟨fun _ => trivial, fun _ => ⟨none, rfl⟩⟩
  | dataLen n =>
    obtain ⟨hvalid, hlarge, hn⟩ := hwrong
    have hfit := hvalid.fits
    rw [length_frame, bufSize] at hfit
    rw [Field.body, readSt_eq itp debug hvalid.hdrLen hn (by omega), if_neg (by omega)]
    refine ⟨?_, False.elim⟩
    rintro ⟨st, hst⟩
    simp only [decodeSt, bind, bind_eq_ok, reduceCtorEq, false_and, exists_false, and_false] at hst
  | total n => exact absurd rfl (hinner n)

theorem Field.Wrong.length_body {hdr data : Bytes} {f : Field} (hwrong : f.Wrong hdr data) :
    0 < (f.body hdr data).length ∧ (f.body hdr data).length < 2 ^ 31 := by
  have hfit : (Iaxcsi.frame hdr data).length ≤ bufSize := by
    cases f with
    | count => exact hwrong.2.1
    | hdrLen n => exact hwrong.1.fits
    | dataLen n => exact hwrong.1.fits
    | total n => exact hwrong.1.fits
  have hlen : (f.body hdr data).length = 4 + hdr.length + 4 + data.length := by
    cases f <;> simp [Field.body] <;> omega
  rw [length_frame, bufSize] at hfit
  omega

/-- A frame with a wrong field between those of valid records. -/
theorem recovers_field_iff {before after : List (Bytes × Bytes)} {hdr data : Bytes} {f : Field}
    (hbefore : ∀ r ∈ before, ValidRecord r.1 r.2) (hwrong : f.Wrong hdr data)
    (hafter : ∀ r ∈ after, ValidRecord r.1 r.2) {h : FileHandler} (hs : h.Settled)
    (hcontents : h.contents = capture before ++ f.frame hdr data ++ capture after) :
    Recovers itp debug h before ↔ f.Tolerated hdr data := by
  rw [List.append_assoc] at hcontents
  obtain ⟨h', hs', hrest, hrecovers, hread⟩ := recovers_iff itp debug hbefore hs hcontents
  obtain ⟨hpos, hlen⟩ := hwrong.length_body
  have hne : f.body hdr data ≠ [] := List.ne_nil_of_length_pos hpos
  rw [hrecovers, hread]
  cases f with
  | total n =>
    obtain ⟨-, hzero, hn⟩ := hwrong
    rw [Field.frame, List.append_assoc] at hrest
    rw [read_total_error itp debug hs' hn hzero hrest, Field.Tolerated]
    simp
  | count | hdrLen | dataLen =>
    rw [read_isOk_message itp debug hafter hs' hrest hlen hne]
    exact readSt_body_isOk_iff itp debug hwrong (fun n => Field.noConfusion)

/-- **Which damages are tolerated.** Reading a damaged capture ends without an error and returns the
records before the damage exactly when the damage is one of those that do no harm. -/
theorem damage_recovered_iff (d : Damage) (hd : d.WellFormed) (blockLen : ℕ) (hpos : 0 < blockLen) :
    Recovers itp debug (FileHandler.ofFile blockLen hpos d.bytes) d.preceding ↔ d.Tolerated := by
  have hs := FileHandler.ofFile_settled blockLen hpos d.bytes
  have hcontents := FileHandler.ofFile_contents blockLen hpos d.bytes
  cases d with
  | cut records n => exact recovers_cut_iff itp debug hd n hs hcontents
  | field before hdr data f after =>
    exact recovers_field_iff itp debug hd.1 hd.2.1 hd.2.2 hs hcontents

theorem damage_recovered_hdrLen :
    Recovers zeroInterp false
      (FileHandler.ofFile (512 * 1024 * 1024) (by decide)
        (Damage.field [(nohtHdr, List.replicate 208 0)] nohtHdr (List.replicate 208 0)
          (.hdrLen 1000) []).bytes)
      [(nohtHdr, List.replicate 208 0)] := by
  have hvalid := nohtHdr_valid (List.length_replicate (n := 208) (a := (0 : UInt8)))
  refine (damage_recovered_iff zeroInterp false (.field [(nohtHdr, List.replicate 208 0)] nohtHdr
    (List.replicate 208 0) (.hdrLen 1000) []) ⟨?_, ⟨hvalid, ?_, by decide⟩, by simp⟩ _ _).2 trivial
  · intro r hr
    obtain rfl := List.mem_singleton.1 hr
    exact hvalid
  · rw [hvalid.hdrLen, List.length_replicate]
    decide

/-- Of the second of two frames only two bytes are left: `read` ends with an error, and the first
record is lost. -/
theorem cut_not_recovered :
    (Damage.cut (List.replicate 2 (nohtHdr, List.replicate 208 0)) 494).WellFormed ∧
      (Damage.cut (List.replicate 2 (nohtHdr, List.replicate 208 0)) 494).preceding =
        [(nohtHdr, List.replicate 208 0)] ∧
      ¬ Recovers zeroInterp false
        (FileHandler.ofFile (512 * 1024 * 1024) (by decide)
          (Damage.cut (List.replicate 2 (nohtHdr, List.replicate 208 0)) 494).bytes)
        (Damage.cut (List.replicate 2 (nohtHdr, List.replicate 208 0)) 494).preceding := by
  set r : Bytes × Bytes := (nohtHdr, List.replicate 208 0) with hr
  have hvalid : ValidRecord r.1 r.2 := nohtHdr_valid (List.length_replicate ..)
  have hlen : (frame r.1 r.2).length = 492 := by
    rw [length_frame, hvalid.hdrLen, hr, List.length_replicate]
  have hall : ∀ m, ∀ r' ∈ List.replicate m r, ValidRecord r'.1 r'.2 := by
    intro m r' hr'
    obtain rfl := List.eq_of_mem_replicate hr'
    exact hvalid
  have hpreceding : (Damage.cut (List.replicate 2 r) 494).preceding = List.replicate 1 r := by
    simp [Damage.preceding, wholeRecords, hlen]
  have hbytes : (Damage.cut (List.replicate 2 r) 494).bytes =
      capture (List.replicate 1 r) ++ (frame r.1 r.2).take 2 := by
    simp [Damage.bytes, capture, List.take_append, hlen]
  refine ⟨hall 2, hpreceding, ?_⟩
  rw [hpreceding]
  obtain ⟨h', hs', hrest, hrecovers, hread⟩ := recovers_iff zeroInterp false (hall 1)
    (FileHandler.ofFile_settled (512 * 1024 * 1024) (by decide) _)
    ((FileHandler.ofFile_contents _ _ _).trans hbytes)
  rw [hrecovers, hread]
  rintro ⟨sts, hsts⟩
  obtain ⟨e, he⟩ := read_cut_error zeroInterp false hvalid hs' (k := 2) (by decide)
    (by omega) hrest
  rw [he] at hsts
  cases hsts

end Iax.Iaxcsi
