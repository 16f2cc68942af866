import Iax.Lib.Bytes

/-!
# The listener's frames

`parse_csi_buf` of `iaxcsi.cpp` lays a frame out in a static buffer of 20480 bytes and passes it to
the capture file and to the TCP client.

* `frame`, `frameBody`: the layout. All lengths are big-endian; the first does not count itself.
* `parseCsiBuf_eq`: a record whose frame fits the buffer is passed on as its frame.
* `runListener_eq`: so the capture of a list of records is the concatenation of their frames.
* `listener_fits_iff`: the events that `valid_cb` accepts are framed without a write outside the
  buffer if and only if none of them carries more than `csiDataMax` bytes of data, which all sizes
  listed in `iaxcsi.h` meet but the last.
-/

namespace Iax.Iaxcsi

open Bytes

/-! ## The packed header -/

/-- `csi_hdr_t`, the fields with a name. -/
structure CsiHdr where
  csiLen : ℕ
  ftm : ℕ
  nrx : ℕ
  ntx : ℕ
  ntone : ℕ
  oppRssi1 : ℕ
  oppRssi2 : ℕ
  smac : Bytes
  seq : ℕ
  us : ℕ
  rateNFlags : ℕ
  ts : ℕ
  channel : ℕ
  deriving DecidableEq

/-- The little-endian word of `n` bytes at an offset. -/
def wordAt (hdr : Bytes) (off n : ℕ) : ℕ := leNat ((hdr.drop off).take n)

/-- The fields at the offsets that the struct gives them. -/
def csiHdr (hdr : Bytes) : CsiHdr where
  csiLen := wordAt hdr 0 4
  ftm := wordAt hdr 8 4
  nrx := wordAt hdr 46 1
  ntx := wordAt hdr 47 1
  ntone := wordAt hdr 52 4
  oppRssi1 := wordAt hdr 60 1
  oppRssi2 := wordAt hdr 64 1
  smac := (hdr.drop 68).take 6
  seq := wordAt hdr 76 1
  us := wordAt hdr 88 4
  rateNFlags := wordAt hdr 92 4
  ts := wordAt hdr 208 8
  channel := wordAt hdr 216 1

/-! ## The frame buffer -/

/-- `sizeof(buf)`. -/
def bufSize : ℕ := 20480

/-- What the listener holds: the static buffer, the capture file, and the calls of
`TcpClient::send`, oldest first. -/
structure Listener where
  buf : Bytes
  fpCsi : Bytes
  sent : List Bytes

/-- `memcpy(buf+pos, src, n)`, undefined past the end of the buffer. -/
def store (buf : Bytes) (pos : ℕ) (src : Bytes) : Option Bytes :=
  if pos + src.length ≤ buf.length then
    some (buf.take pos ++ src ++ buf.drop (pos + src.length))
  else none

/-- `parse_csi_buf`: the first four bytes are filled in last. -/
def parseCsiBuf (l : Listener) (csiHdr csiData : Bytes) : Option Listener := do
  let pos := 4
  let buf ← store l.buf pos (beBytes 4 csiHdr.length)
  let pos := pos + 4
  let buf ← store buf pos csiHdr
  let pos := pos + csiHdr.length
  let buf ← store buf pos (beBytes 4 csiData.length)
  let pos := pos + 4
  let buf ← store buf pos csiData
  let pos := pos + csiData.length
  let buf ← store buf 0 (beBytes 4 (pos - 4))
  return { buf := buf, fpCsi := l.fpCsi ++ buf.take pos, sent := l.sent ++ [buf.take pos] }

/-- The events handled one after another. -/
def runListener (l : Listener) : List (Bytes × Bytes) → Option Listener
  | [] => some l
  | (csiHdr, csiData) :: rest => do
    let l ← parseCsiBuf l csiHdr csiData
    runListener l rest

/-! ## The layout -/

/-- What a frame holds behind its first length. -/
def frameBody (hdr data : Bytes) : Bytes :=
  beBytes 4 hdr.length ++ hdr ++ beBytes 4 data.length ++ data

/-- The frame of a header and its data. -/
def frame (hdr data : Bytes) : Bytes :=
  beBytes 4 (frameBody hdr data).length ++ frameBody hdr data

@[simp] theorem length_frameBody (hdr data : Bytes) :
    (frameBody hdr data).length = 4 + hdr.length + 4 + data.length := by
  simp only [frameBody, List.length_append, length_beBytes]

@[simp] theorem length_frame (hdr data : Bytes) :
    (frame hdr data).length = 4 + (4 + hdr.length + 4 + data.length) := by
  rw [frame, List.length_append, length_beBytes, length_frameBody]

/-- Storing behind what is stored already. -/
theorem store_append {buf done : Bytes} (src : Bytes) {pos : ℕ} (hpos : done.length = pos)
    (hdone : buf.take pos = done) (hfit : pos + src.length ≤ buf.length) :
    ∃ buf', store buf pos src = some buf' ∧ buf'.length = buf.length ∧
      buf'.take (pos + src.length) = done ++ src := by
  refine ⟨_, if_pos hfit, ?_, ?_⟩
  · rw [hdone, List.length_append, List.length_append, List.length_drop, hpos]
    omega
  · rw [hdone, ← hpos, ← List.length_append, List.take_left]

/-- **One frame.** -/
theorem parseCsiBuf_eq (l : Listener) (hdr data : Bytes) (hbuf : l.buf.length = bufSize)
    (hfit : (frame hdr data).length ≤ bufSize) :
    ∃ buf, buf.length = bufSize ∧ parseCsiBuf l hdr data =
      some
        { buf := buf, fpCsi := l.fpCsi ++ frame hdr data, sent := l.sent ++ [frame hdr data] } := by
  rw [length_frame] at hfit
  -- `z` stands in the place of the first length until that is known
  set z := l.buf.take 4 with hz
  have hzlen : z.length = 4 := by
    rw [hz, List.length_take, hbuf, bufSize]
    rfl
  obtain ⟨b₁, hs₁, hl₁, ht₁⟩ := store_append (beBytes 4 hdr.length) hzlen hz.symm
    (by rw [length_beBytes]; omega)
  rw [length_beBytes] at ht₁
  have hlen₁ : (z ++ beBytes 4 hdr.length).length = 4 + 4 := by
    rw [List.length_append, length_beBytes, hzlen]
  obtain ⟨b₂, hs₂, hl₂, ht₂⟩ := store_append hdr hlen₁ ht₁ (by omega)
  have hlen₂ : (z ++ beBytes 4 hdr.length ++ hdr).length = 4 + 4 + hdr.length := by
    rw [List.length_append, hlen₁]
  obtain ⟨b₃, hs₃, hl₃, ht₃⟩ := store_append (beBytes 4 data.length) hlen₂ ht₂
    (by rw [length_beBytes]; omega)
  rw [length_beBytes] at ht₃
  have hlen₃ : (z ++ beBytes 4 hdr.length ++ hdr ++ beBytes 4 data.length).length =
      4 + 4 + hdr.length + 4 := by
    rw [List.length_append, hlen₂, length_beBytes]
  obtain ⟨b₄, hs₄, hl₄, ht₄⟩ := store_append data hlen₃ ht₃ (by omega)
  set pos := 4 + 4 + hdr.length + 4 + data.length with hpos
  have htotal : pos - 4 = (frameBody hdr data).length := by
    rw [length_frameBody]
    omega
  have hs₅ : store b₄ 0 (beBytes 4 (pos - 4)) =
      some (beBytes 4 (frameBody hdr data).length ++ b₄.drop 4) := by
    rw [store, if_pos (by rw [length_beBytes]; omega), length_beBytes, htotal]
    simp
  refine ⟨beBytes 4 (frameBody hdr data).length ++ b₄.drop 4, ?_, ?_⟩
  · rw [List.length_append, length_beBytes, List.length_drop]
    omega
  have hframe : (beBytes 4 (frameBody hdr data).length ++ b₄.drop 4).take pos = frame hdr data := by
    have hdrop : (b₄.drop 4).take (pos - 4) = frameBody hdr data := by
      rw [← List.drop_take, ht₄, frameBody, List.append_assoc, List.append_assoc, List.append_assoc,
        ← hzlen, List.drop_left, List.append_assoc, List.append_assoc]
    rw [List.take_append, length_beBytes, hdrop, List.take_of_length_le, frame]
    rw [length_beBytes]
    omega
  simp only [parseCsiBuf, hs₁, hs₂, hs₃, hs₄, hs₅, ← hpos, hframe, bind, Option.bind, pure]

/-- **A capture** is the concatenation of the frames. -/
theorem runListener_eq (records : List (Bytes × Bytes)) (l : Listener)
    (hbuf : l.buf.length = bufSize)
    (hfit : ∀ r ∈ records, (frame r.1 r.2).length ≤ bufSize) :
    ∃ buf, runListener l records = some
      { buf := buf, fpCsi := l.fpCsi ++ records.flatMap fun r => frame r.1 r.2,
        sent := l.sent ++ records.map fun r => frame r.1 r.2 } := by
  induction records generalizing l with
  | nil => exact ⟨l.buf, by simp [runListener]⟩
  | cons r records ih =>
    obtain ⟨buf, hlen, hstep⟩ := parseCsiBuf_eq l r.1 r.2 hbuf (hfit r (by simp))
    obtain ⟨buf', hrest⟩ := ih
      { buf := buf, fpCsi := l.fpCsi ++ frame r.1 r.2, sent := l.sent ++ [frame r.1 r.2] } hlen
      fun r' hr' => hfit r' (by simp [hr'])
    refine ⟨buf', ?_⟩
    rw [runListener, hstep]
    simpa using hrest

/-! ## Vendor events -/

/-- A netlink attribute. The length in its header counts the header, and has 16 bits. -/
structure Nlattr where
  payload : Bytes
  nlaLen_lt : payload.length + 4 < 2 ^ 16

/-- `nla_len`. -/
def Nlattr.nlaLen (a : Nlattr) : ℕ := a.payload.length + 4

/-- A message to the listener: the attributes `IWL_MVM_VENDOR_ATTR_CSI_HDR` and
`IWL_MVM_VENDOR_ATTR_CSI_DATA`, where it has them. -/
structure VendorEvent where
  csiHdr : Option Nlattr
  csiData : Option Nlattr

/-- `valid_cb`. -/
def validCb (l : Listener) (ev : VendorEvent) : Option Listener :=
  match ev.csiHdr, ev.csiData with
  | some csiHdr, some csiData =>
    let csiHdrLen := (csiHdr.nlaLen - 4) % 2 ^ 16
    let csiDataLen := (csiData.nlaLen - 4) % 2 ^ 16
    if csiHdrLen ≠ 272 then some l
    else parseCsiBuf l (csiHdr.payload.take csiHdrLen) (csiData.payload.take csiDataLen)
  | _, _ => some l

/-- The header and the data of an event that is accepted. -/
def VendorEvent.accepted (ev : VendorEvent) : Option (Bytes × Bytes) :=
  match ev.csiHdr, ev.csiData with
  | some csiHdr, some csiData =>
    if csiHdr.payload.length = 272 then some (csiHdr.payload, csiData.payload) else none
  | _, _ => none

/-- The events handled one after another. -/
def runEvents (l : Listener) : List VendorEvent → Option Listener
  | [] => some l
  | ev :: evs => do
    let l ← validCb l ev
    runEvents l evs

/-- The most data that a frame has room for next to a header of 272 bytes. -/
def csiDataMax : ℕ := 20196

/-- The listener when it starts. -/
def Listener.init : Listener where
  buf := List.replicate bufSize 0
  fpCsi := []
  sent := []

/-- The sizes of the table in `iaxcsi.h`, `nrx * ntx * ntone * 4`. -/
def csiSizes : List ℕ :=
  [1 * 1 * 52, 2 * 1 * 52, 2 * 2 * 52, 1 * 1 * 56, 2 * 1 * 56, 2 * 2 * 56, 1 * 1 * 114, 2 * 1 * 114,
    2 * 2 * 114, 1 * 1 * 242, 2 * 1 * 242, 2 * 2 * 242, 1 * 1 * 498, 2 * 1 * 498, 2 * 2 * 498,
    1 * 1 * 484, 2 * 1 * 484, 2 * 2 * 484, 1 * 1 * 996, 2 * 1 * 996, 2 * 2 * 996, 1 * 1 * 2020,
    2 * 1 * 2020, 2 * 2 * 2020].map (· * 4)

theorem validCb_eq (l : Listener) (ev : VendorEvent) : validCb l ev =
    match ev.accepted with
    | some r => parseCsiBuf l r.1 r.2
    | none => some l := by
  obtain ⟨_ | csiHdr, _ | csiData⟩ := ev
  · rfl
  · rfl
  · rfl
  · have hhdr := csiHdr.nlaLen_lt
    have hdata := csiData.nlaLen_lt
    have hhdrLen : (csiHdr.nlaLen - 4) % 2 ^ 16 = csiHdr.payload.length := by
      rw [Nlattr.nlaLen, Nat.add_sub_cancel, Nat.mod_eq_of_lt (by omega)]
    have hdataLen : (csiData.nlaLen - 4) % 2 ^ 16 = csiData.payload.length := by
      rw [Nlattr.nlaLen, Nat.add_sub_cancel, Nat.mod_eq_of_lt (by omega)]
    simp only [validCb, VendorEvent.accepted, hhdrLen, hdataLen, List.take_length]
    by_cases h : csiHdr.payload.length = 272
    · rw [if_neg (not_not_intro h), if_pos h]
    · rw [if_pos h, if_neg h]

theorem accepted_length {ev : VendorEvent} {r : Bytes × Bytes} (h : ev.accepted = some r) :
    r.1.length = 272 := by
  obtain ⟨_ | csiHdr, _ | csiData⟩ := ev
  · cases h
  · cases h
  · cases h
  · simp only [VendorEvent.accepted] at h
    split_ifs at h with hlen
    cases h
    exact hlen

theorem store_inv {buf buf' : Bytes} {pos : ℕ} {src : Bytes} (h : store buf pos src = some buf') :
    pos + src.length ≤ buf.length ∧ buf'.length = buf.length := by
  unfold store at h
  split_ifs at h with hfit
  cases h
  simp only [List.length_append, List.length_take, List.length_drop]
  omega

/-- A frame that is written whole fits the buffer. -/
theorem parseCsiBuf_fits {l l' : Listener} {hdr data : Bytes}
    (h : parseCsiBuf l hdr data = some l') :
    (frame hdr data).length ≤ l.buf.length ∧ l'.buf.length = l.buf.length := by
  simp only [parseCsiBuf, bind, Option.bind_eq_some_iff] at h
  obtain ⟨b₁, h₁, b₂, h₂, b₃, h₃, b₄, h₄, b₅, h₅, hl'⟩ := h
  cases hl'
  obtain ⟨-, hl₁⟩ := store_inv h₁
  obtain ⟨-, hl₂⟩ := store_inv h₂
  obtain ⟨-, hl₃⟩ := store_inv h₃
  obtain ⟨hfit, hl₄⟩ := store_inv h₄
  obtain ⟨-, hl₅⟩ := store_inv h₅
  rw [length_frame]
  exact ⟨by omega, by rw [hl₅, hl₄, hl₃, hl₂, hl₁]⟩

theorem runListener_fits {records : List (Bytes × Bytes)} {l l' : Listener}
    (hbuf : l.buf.length = bufSize) (h : runListener l records = some l') :
    ∀ r ∈ records, (frame r.1 r.2).length ≤ bufSize := by
  induction records generalizing l with
  | nil => simp
  | cons r records ih =>
    obtain ⟨l₁, hstep, hrest⟩ := Option.bind_eq_some_iff.1 h
    obtain ⟨hfit, hlen⟩ := parseCsiBuf_fits hstep
    exact List.forall_mem_cons.2 ⟨hbuf ▸ hfit, ih (hlen.trans hbuf) hrest⟩

theorem runEvents_eq (evs : List VendorEvent) (l : Listener) :
    runEvents l evs = runListener l (evs.filterMap VendorEvent.accepted) := by
  induction evs generalizing l with
  | nil => rfl
  | cons ev evs ih =>
    rw [runEvents, validCb_eq]
    cases h : ev.accepted with
    | none => rw [List.filterMap_cons_none h, ← ih l]; rfl
    | some r =>
      rw [List.filterMap_cons_some h, runListener]
      congr 1
      funext l₁
      exact ih l₁

theorem frame_fits_iff {hdr data : Bytes} (hhdr : hdr.length = 272) :
    (frame hdr data).length ≤ bufSize ↔ data.length ≤ csiDataMax := by
  rw [length_frame, hhdr, bufSize, csiDataMax]
  omega

/-- **The frame buffer**: the events are framed without a write outside it, and completely, if and
only if no accepted one has more than `csiDataMax` bytes of data. Of the listed sizes one has. -/
theorem listener_fits_iff (evs : List VendorEvent) :
    ((∃ buf, runEvents .init evs = some
      { buf := buf
        fpCsi := (evs.filterMap VendorEvent.accepted).flatMap fun r => frame r.1 r.2
        sent := (evs.filterMap VendorEvent.accepted).map fun r => frame r.1 r.2 }) ↔
      ∀ r ∈ evs.filterMap VendorEvent.accepted, r.2.length ≤ csiDataMax) ∧
    ∀ s ∈ csiSizes, s ≤ csiDataMax ↔ s ≠ 32320 := by
  have hbuf : Listener.init.buf.length = bufSize := List.length_replicate
  have hiff (r) (hr : r ∈ evs.filterMap VendorEvent.accepted) :
      (frame r.1 r.2).length ≤ bufSize ↔ r.2.length ≤ csiDataMax := by
    obtain ⟨ev, -, hev⟩ := List.mem_filterMap.1 hr
    exact frame_fits_iff (accepted_length hev)
  refine ⟨?_, by decide⟩
  rw [runEvents_eq]
  constructor
  · rintro ⟨buf, hrun⟩ r hr
    exact (hiff r hr).1 (runListener_fits hbuf hrun r hr)
  · intro hmax
    exact runListener_eq _ .init hbuf fun r hr => (hiff r hr).2 (hmax r hr)

/-- An attribute of `n` zeros. -/
def Nlattr.zeros (n : ℕ) (h : n + 4 < 2 ^ 16) : Nlattr where
  payload := List.replicate n 0
  nlaLen_lt := by rwa [List.length_replicate]

theorem accepted_zeros {m n : ℕ} (hm : m + 4 < 2 ^ 16) (hn : n + 4 < 2 ^ 16) (h : m = 272) :
    (VendorEvent.mk (some (.zeros m hm)) (some (.zeros n hn))).accepted =
      some (List.replicate m 0, List.replicate n 0) :=
  if_pos (List.length_replicate.trans h)

/-- Two streams of 160 MHz on two antennas: the frame does not fit the buffer. -/
theorem listener_overflows : ¬∃ l, runEvents .init
    [⟨some (.zeros 272 (by decide)), some (.zeros 32320 (by decide))⟩] = some l := by
  rintro ⟨l, hrun⟩
  rw [runEvents_eq, List.filterMap_cons_some (accepted_zeros _ _ rfl)] at hrun
  have hfit := runListener_fits List.length_replicate hrun _ (List.mem_cons_self ..)
  rw [frame_fits_iff List.length_replicate, List.length_replicate] at hfit
  exact absurd hfit (by decide)

end Iax.Iaxcsi
