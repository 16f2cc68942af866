import Iax.Matlab.Endian
import Iax.Matlab.FileHandler
import Iax.Iaxcsi.Subcarrier

/-!
# The capture reader

`iaxcsi.m` over `csi_handler_base.m`: a capture is read message by message; each message holds a
header of 272 bytes and the data of the channel matrix, which is unpacked (`getCsi`) and completed
at the tones that the firmware does not report (`calibCsiSubcs`).

* `readSt` decodes one message, `readNext` reads one, `read` reads all. An error of any of them
  ends `read`.
* `readNext_contents_lt`: each message shortens what is left, so that `read` ends.

The interpolation of complex numbers is a parameter (`ComplexInterp`), used at each missing tone.
-/

namespace Iax.Iaxcsi

open Bytes Matlab

/-! ## Headers -/

/-- The struct of `get_csi_hdr_st`. The header itself is kept when debugging. -/
structure HdrSt where
  buf : Option Bytes
  csiLen : ℕ
  ftm : ℕ
  nrx : ℕ
  ntx : ℕ
  ntone : ℕ
  rssi1 : ℤ
  rssi2 : ℤ
  smac : Bytes
  seq : ℕ
  us : ℕ
  rnf : BitVec 32
  timestamp : ℕ
  deriving DecidableEq

/-- `get_csi_hdr_st`; the text form of `smac` is left out. -/
def getCsiHdrSt (debug : Bool) (hdrBuf : Bytes) : Except MatErr HdrSt := do
  let csiLen ← le32u (← range hdrBuf 1 4)
  let ftm ← le32u (← range hdrBuf 9 12)
  let nrx ← elem hdrBuf 47
  let ntx ← elem hdrBuf 48
  let ntone ← le32u (← range hdrBuf 53 56)
  let rssi1 ← elem hdrBuf 61
  let rssi2 ← elem hdrBuf 65
  let smac ← range hdrBuf 69 74
  let seq ← elem hdrBuf 77
  let us ← le32u (← range hdrBuf 89 92)
  let rnf ← le32u (← range hdrBuf 93 96)
  let timestamp ← le64u (← range hdrBuf 209 216)
  return {
    buf := if debug then some hdrBuf else none
    csiLen := csiLen
    ftm := ftm
    nrx := nrx.toNat
    ntx := ntx.toNat
    ntone := ntone
    rssi1 := -rssi1.toNat
    rssi2 := -rssi2.toNat
    smac := smac
    seq := seq.toNat
    us := us
    rnf := BitVec.ofNat 32 rnf
    timestamp := timestamp }

/-! ## The channel matrix -/

/-- A matrix, by receive antenna, transmit antenna and tone; an entry is its real and its
imaginary part. -/
abbrev CsiMat := List (List (List (ℤ × ℤ)))

/-- A `for` loop of `n` rounds that appends to its result and moves `pos`. -/
def forEach {β : Type} (body : ℤ → Except MatErr (β × ℤ)) : ℕ → ℤ → Except MatErr (List β × ℤ)
  | 0, pos => return ([], pos)
  | n + 1, pos => do
    let (b, pos) ← body pos
    let (bs, pos) ← forEach body n pos
    return (b :: bs, pos)

/-- The innermost round of `get_csi`: the imaginary part comes first. -/
def getTone (csiBuf : Bytes) (pos : ℤ) : Except MatErr ((ℤ × ℤ) × ℤ) := do
  let imag ← le16i (← range csiBuf pos (pos + 1))
  let real ← le16i (← range csiBuf (pos + 2) (pos + 3))
  return ((real, imag), pos + 4)

/-- `get_csi`. -/
def getCsi (csiBuf : Bytes) (hdrSt : HdrSt) : Except MatErr CsiMat := do
  let (csi, _) ← forEach (forEach (forEach (getTone csiBuf) hdrSt.ntone) hdrSt.ntx) hdrSt.nrx 1
  return csi

/-! ## Calibration -/

/-- The complex numbers of MATLAB, as far as the calibration uses them: `interp x y` is the
interpolation of `do_complex_interp` through the values `y` at the points `x`. -/
structure ComplexInterp (κ : Type) where
  zero : κ
  ofCsi : ℤ × ℤ → κ
  interp : List ℤ → List κ → ℤ → κ

variable {κ : Type} (itp : ComplexInterp κ)

/-- What `calib_csi_subcs` changes in its struct. -/
structure Calib (κ : Type) where
  csi : CsiMat
  ntone : ℕ
  scsi : List (List (List κ))
  subc : Subc
  nstone : ℕ

/-- The tones that `calib_csi_subcs` keeps when it drops some: `get_vht160_noextra_subc` and
`get_he160_noextra_subc`. -/
def noextraSubc : RateType × ℕ → ℕ → Option (Finset ℤ)
  | (.vht, 160), ntone => some (getNoextraSubc ntone 484)
  | (.he, 160), ntone => some (getNoextraSubc ntone 1992)
  | _, _ => none

/-- `csi(:,:,r)` for a matrix of `ntone` tones. -/
def indexTones (csi : CsiMat) (ntone : ℕ) (r : Finset ℤ) : Except MatErr CsiMat :=
  if r ⊆ colon 1 (ntone : ℤ) then
    .ok (csi.map fun txs => txs.map fun tones =>
      (r.sort fun a b => a ≤ b).map fun i => tones.getD (i - 1).toNat (0, 0))
  else .error .badSubscript

/-- The first part of `calib_csi_subcs`: the kept tones and their number. -/
def dropExtraTones (rateBwType : RateType × ℕ) (ntone : ℕ) (csi : CsiMat) :
    Except MatErr (CsiMat × ℕ) :=
  match noextraSubc rateBwType ntone with
  | some r => (indexTones csi ntone r).map fun csi => (csi, r.card)
  | none => .ok (csi, ntone)

/-- The body of the loop of `calib_csi_subcs`. A vector is assigned to the data and pilot positions
when it has as many elements or one; the others are interpolated from the data positions. -/
def calibTones (subc : Subc) (tones : List (ℤ × ℤ)) : Except MatErr (List κ) :=
  let idx := subc.idxDataPilotSubcs.sort fun a b => a ≤ b
  if tones.length ≠ idx.length ∧ tones.length ≠ 1 then .error .numelMismatch
  else
    let vals := if tones.length = 1 then idx.map fun _ => tones.headD (0, 0) else tones
    let dataPilotDcTones : ℤ → κ := fun p => ((idx.zip vals).lookup p).elim itp.zero itp.ofCsi
    let x := subc.idxDataSubcs.sort fun a b => a ≤ b
    .ok ((List.range subc.subcsLen).map fun (i : ℕ) =>
      if (i : ℤ) + 1 ∈ subc.idxPilotDcSubcs then itp.interp x (x.map dataPilotDcTones) (i + 1)
      else dataPilotDcTones (i + 1))

/-- `calib_csi_subcs`. -/
def calibCsiSubcs (rateBwType : RateType × ℕ) (ntone : ℕ) (csi : CsiMat) :
    Except MatErr (Calib κ) := do
  let (csi, ntone) ← dropExtraTones rateBwType ntone csi
  let subc ← getSubc rateBwType
  let scsi ← csi.mapM fun txs => txs.mapM fun tones => calibTones itp subc tones
  return { csi := csi, ntone := ntone, scsi := scsi, subc := subc, nstone := subc.subcs.card }

/-! ## Messages -/

/-- The struct of `fill_csist`. The date computed from `timestamp` and the text form of `rnf` are
left out. -/
structure St (κ : Type) where
  st : Option HdrSt
  smac : Bytes
  seq : ℕ
  us : ℕ
  timestamp : ℕ
  rnf : BitVec 32
  bandwidth : ℕ
  rateType : RateType
  rateBwType : RateType × ℕ
  mcs : ℕ
  nss : ℕ
  rssi : ℤ × ℤ
  nrx : ℕ
  ntx : ℕ
  ntone : ℕ
  csiLen : ℕ
  csi : CsiMat
  scsi : List (List (List κ))
  subc : Subc
  nstone : ℕ

/-- The quotient of an integer type by a number, rounded to the nearest. -/
def roundDiv (a b : ℕ) : ℕ := (2 * a + b) / (2 * b)

/-- The struct that `fill_csist` fills, completed by the calibration. -/
def stOf (debug : Bool) (hdrSt : HdrSt) (rnfSt : RnfSt) (calib : Calib κ) : St κ where
  st := if debug then some hdrSt else none
  smac := hdrSt.smac
  seq := hdrSt.seq
  us := hdrSt.us
  timestamp := roundDiv hdrSt.timestamp (10 ^ 9)
  rnf := hdrSt.rnf
  bandwidth := rnfSt.bandwidth
  rateType := rnfSt.rateType
  rateBwType := rnfSt.rateBwType
  mcs := rnfSt.mcs
  nss := rnfSt.nss
  rssi := (hdrSt.rssi1, hdrSt.rssi2)
  nrx := hdrSt.nrx
  ntx := hdrSt.ntx
  ntone := calib.ntone
  csiLen := hdrSt.csiLen
  csi := calib.csi
  scsi := calib.scsi
  subc := calib.subc
  nstone := calib.nstone

/-- `fill_csist`. -/
def fillCsist (debug : Bool) (hdrSt : HdrSt) (rnfSt : RnfSt) (csi : CsiMat) :
    Except MatErr (St κ) := do
  let calib ← calibCsiSubcs itp rnfSt.rateBwType hdrSt.ntone csi
  return stOf debug hdrSt rnfSt calib

/-- `read_st`: with another header length it warns and returns `[]`. -/
def readSt (debug : Bool) (buf : Bytes) : Except MatErr (Option (St κ)) := do
  let hdrLen ← be32u (← range buf 1 4)
  if hdrLen ≠ 272 then return none
  let hdrBuf ← range buf 5 (5 + hdrLen - 1)
  let pos : ℤ := 5 + hdrLen
  let hdrSt ← getCsiHdrSt debug hdrBuf
  let rnfSt ← getRnfSt hdrSt.rnf
  let csiLen ← be32u (← range buf pos (pos + 3))
  -- `pos` is an unsigned word by now, and its sum saturates
  let pos := pos + 4
  let csiBuf ← range buf pos (min (pos + csiLen) (2 ^ 32 - 1) - 1)
  let csi ← getCsi csiBuf hdrSt
  let st ← fillCsist itp debug hdrSt rnfSt csi
  return some st

/-- `read_next`. The length is never empty: on fewer than four bytes `be32i` fails. -/
def readNext (debug : Bool) (h : FileHandler) : Except MatErr (Option (St κ) × FileHandler) := do
  let (lenBuf, h) ← h.read 4
  let msgLen ← be32i lenBuf
  let (msg, h) ← h.read msgLen
  let st ← readSt itp debug msg
  return (st, h)

/-! ## Reading a capture -/

/-- What is left gets shorter with every message. -/
theorem readNext_contents_lt {debug : Bool} {h h' : FileHandler} {st : Option (St κ)}
    (hread : readNext itp debug h = .ok (st, h')) : h'.contents.length < h.contents.length := by
  obtain ⟨h₁, hlen, hrest, -⟩ := h.read_eq 4
  have hlen' : h.read 4 = .ok (h.contents.take 4, h₁) := hlen
  simp only [readNext, hlen', bind, Except.bind] at hread
  rcases Nat.lt_or_ge (h.contents.take 4).length 4 with hshort | hfour
  · rw [be32i_eq_error hshort] at hread
    cases hread
  · have h4 : (h.contents.take 4).length = 4 := le_antisymm (List.length_take_le 4 _) hfour
    rw [be32i_eq h4] at hread
    rw [List.length_take] at h4
    set msgLen := signed 32 (beNat (h.contents.take 4))
    rcases lt_or_ge msgLen 0 with hneg | hpos
    · simp only [h₁.read_neg hneg] at hread
      cases hread
    · obtain ⟨n, hn⟩ := Int.eq_ofNat_of_zero_le hpos
      obtain ⟨h₂, hmsg, hrest₂, -⟩ := h₁.read_eq n
      simp only [hn, hmsg] at hread
      cases hst : readSt itp debug (h₁.contents.take n) with
      | error e =>
        rw [hst] at hread
        cases hread
      | ok r =>
        rw [hst] at hread
        cases hread
        rw [hrest₂, hrest, List.length_drop, List.length_drop]
        omega

/-- `csi_handler_base.read`, with `read_count` at its default, infinity. -/
def read (debug : Bool) (h : FileHandler) : Except MatErr (List (St κ)) :=
  if h.isEnd then .ok []
  else
    match _hread : readNext itp debug h with
    | .error e => .error e
    | .ok (st, h') => (read debug h').map fun sts => st.toList ++ sts
termination_by h.contents.length
decreasing_by exact readNext_contents_lt itp _hread

end Iax.Iaxcsi
