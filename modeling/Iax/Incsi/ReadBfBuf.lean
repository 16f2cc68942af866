import Iax.Incsi.ReadBfFile
import Iax.Matlab.Endian
import Iax.Matlab.FileHandler

/-!
# The streaming reader of MATLAB

`incsi.m` reads a log message by message through a `file_handler` and hands each to `read_bf_buf.m`,
an edited copy of the loop of `read_bf_file.m` for a single entry; `get_scaled_csi` then scales the
CSI of the struct.

* `readBfBuf` is the loop: it sets its own cursor, so that it has one round at most.
* `incsiReadSt_bfee`, `incsiReadSt_other`: what becomes of an entry. A struct comes out of a
  beamforming record with one antenna or a permutation. Anything else is an error: for another code
  the result is an empty cell, of which no CSI can be taken, and for the warning `read_bf_buf` has
  no `filename`.
* `incsiRead_log`: reading a log is reading its entries one by one.
* `streaming_iff`: when the two readers agree.

The arithmetic of `get_scaled_csi` is a parameter (`scale`).
-/

namespace Iax.Incsi

open Bytes Matlab

/-! ## The buffer reader -/

/-- The variables of the loop of `read_bf_buf`. -/
structure BufLoop where
  cur : ℕ
  count : ℕ
  brokenPerm : Bool
  ret : List (Option Bf)

/-- `ret(1:count)`, which the `continue` for a single antenna leaves out. -/
def truncated (nrx : ℕ) (ret : List (Option Bf)) (count : ℕ) : Except BfErr (List (Option Bf)) :=
  if nrx = 1 then .ok ret else (range ret 1 count).mapError .mat

/-- A round of the loop of `read_bf_buf`, and whether it returns from the function. `filename` is a
variable of the other reader. -/
def bufTurn (data : Bytes) (s : BufLoop) : Except BfErr (BufLoop × Bool) := do
  let fieldLen := data.length
  let code ← (elem data 1).mapError .mat
  let cur := 2 + fieldLen - 1
  if code = bfeeCode then
    let bytes ← (range data 2 (2 + fieldLen - 2)).mapError .mat
    if bytes.length ≠ fieldLen - 1 then
      return ({ s with cur := cur }, true)
    else
      let b ← (readBfee bytes).mapError .bfee
      let r ← permStep (.error .undefined) s.brokenPerm b
      let ret ← truncated b.nrx (setCell s.ret (s.count + 1) r.1) (s.count + 1)
      return ({ cur := cur, count := s.count + 1, brokenPerm := r.2, ret := ret }, false)
  else
    return ({ s with cur := cur }, false)

theorem bufTurn_cur {data : Bytes} {s s' : BufLoop} {returned : Bool}
    (h : bufTurn data s = .ok (s', returned)) : s'.cur = data.length + 1 := by
  simp only [bufTurn, bind, bind_eq_ok] at h
  obtain ⟨code, -, h⟩ := h
  split at h
  · obtain ⟨bytes, -, h⟩ := bind_eq_ok.1 h
    split at h
    · cases h
      dsimp only
      omega
    · simp only [bind_eq_ok] at h
      obtain ⟨b, -, r, -, ret, -, h⟩ := h
      cases h
      dsimp only
      omega
  · cases h
    dsimp only
    omega

/-- The loop of `read_bf_buf`. -/
def readBfBufLoop (data : Bytes) (s : BufLoop) : Except BfErr BufLoop :=
  if _hgo : s.cur + 3 < data.length then
    match _hturn : bufTurn data s with
    | .error e => .error e
    | .ok (s', true) => .ok s'
    | .ok (s', false) => readBfBufLoop data s'
  else .ok s
termination_by data.length - s.cur
decreasing_by
  have hcur := bufTurn_cur _hturn
  omega

/-- The loop's variables before it. -/
def bufInit (data : Bytes) : BufLoop where
  cur := 0
  count := 0
  brokenPerm := false
  ret := newCells data.length

/-- `read_bf_buf`, with `read_pci` at its default. -/
def readBfBuf (data : Bytes) : Except BfErr (List (Option Bf)) :=
  (readBfBufLoop data (bufInit data)).map BufLoop.ret

/-! ## The handler -/

variable {γ : Type} (scale : Bf → γ)

/-- The struct of `incsi.read_st`: the fields of the record, and its CSI before and after the
scaling. -/
structure ScaledBf (γ : Type) where
  bf : Bf
  csi : γ

/-- `st.csi = get_scaled_csi(st)`: an empty cell has no field `csi`. -/
def withScaledCsi : Option Bf → Except BfErr (ScaledBf γ)
  | none => .error .notStruct
  | some bf => .ok { bf := bf, csi := scale bf }

/-- `incsi.read_st`. Of a result with no cells at all no CSI can be taken either. -/
def incsiReadSt (buf : Bytes) : Except BfErr (ScaledBf γ) :=
  (readBfBuf buf).bind fun ret => withScaledCsi scale ret.head?.join

/-- `incsi.read_next`. The length is never empty: on fewer than two bytes `be16u` fails. -/
def incsiReadNext (h : FileHandler) : Except BfErr (ScaledBf γ × FileHandler) := do
  let r ← (h.read 2).mapError .mat
  let msgLen ← (be16u r.1).mapError .mat
  let r ← (r.2.read msgLen).mapError .mat
  let st ← incsiReadSt scale r.1
  return (st, r.2)

/-- What is left gets shorter with every message. -/
theorem incsiReadNext_contents_lt {h h' : FileHandler} {st : ScaledBf γ}
    (hnext : incsiReadNext scale h = .ok (st, h')) : h'.contents.length < h.contents.length := by
  obtain ⟨h₁, hlen, hrest, -⟩ := h.read_eq 2
  have hlen' : h.read 2 = .ok (h.contents.take 2, h₁) := hlen
  simp only [incsiReadNext, hlen', Except.mapError, bind, Except.bind] at hnext
  rcases Nat.lt_or_ge (h.contents.take 2).length 2 with hshort | htwo
  · rw [be16u_eq_error hshort] at hnext
    cases hnext
  · have h2 : (h.contents.take 2).length = 2 := le_antisymm (List.length_take_le 2 _) htwo
    obtain ⟨h₂, hmsg, hrest₂, -⟩ := h₁.read_eq (beNat (h.contents.take 2))
    rw [be16u_eq h2] at hnext
    simp only [hmsg] at hnext
    cases hst : incsiReadSt scale (h₁.contents.take (beNat (h.contents.take 2))) with
    | error e =>
      rw [hst] at hnext
      cases hnext
    | ok r =>
      rw [hst] at hnext
      cases hnext
      rw [List.length_take] at h2
      rw [hrest₂, hrest, List.length_drop, List.length_drop]
      omega

/-- `csi_handler_base.read` of an `incsi`, with `read_count` at its default. A struct is never
empty. -/
def incsiRead (h : FileHandler) : Except BfErr (List (ScaledBf γ)) :=
  if h.isEnd then .ok []
  else
    match _hnext : incsiReadNext scale h with
    | .error e => .error e
    | .ok (st, h') => (incsiRead h').map fun sts => st :: sts
termination_by h.contents.length
decreasing_by exact incsiReadNext_contents_lt scale _hnext

/-! ## What becomes of an entry -/

/-- The loop has one round at most. -/
theorem readBfBuf_long {data : Bytes} (hlong : 3 < data.length) :
    readBfBuf data = (bufTurn data (bufInit data)).map fun r => r.1.ret := by
  rw [readBfBuf, readBfBufLoop, dif_pos (by rw [bufInit]; omega)]
  split
  · rename_i hturn
    rw [hturn]
    rfl
  · rename_i hturn
    rw [hturn]
    rfl
  · rename_i s' hturn
    have hcur := bufTurn_cur hturn
    rw [hturn, readBfBufLoop, dif_neg (by omega)]
    rfl

theorem readBfBuf_short {data : Bytes} (hshort : data.length ≤ 3) :
    readBfBuf data = .ok (newCells data.length) := by
  rw [readBfBuf, readBfBufLoop, dif_neg (by rw [bufInit]; omega)]
  rfl

/-- An entry of another code leaves the cells empty. -/
theorem readBfBuf_other {code : UInt8} {body : Bytes} (hcode : code ≠ bfeeCode) :
    readBfBuf (code :: body) = .ok (newCells (body.length + 1)) := by
  rcases Nat.lt_or_ge 3 (code :: body).length with hlong | hshort
  · have helem : elem (code :: body) 1 = .ok code := elem_eq_ok (i := 0) (by simp)
    rw [readBfBuf_long hlong]
    simp only [bufTurn, helem, Except.mapError, bind, Except.bind, if_neg hcode]
    rfl
  · exact readBfBuf_short hshort

theorem newCells_head (n : ℕ) : (newCells n).head?.join = none := by
  rw [newCells, List.head?_replicate]
  split_ifs <;> rfl

theorem incsiReadSt_other {code : UInt8} {body : Bytes} (hcode : code ≠ bfeeCode) :
    incsiReadSt scale (code :: body) = .error .notStruct := by
  rw [incsiReadSt, readBfBuf_other hcode]
  simp only [Except.bind, newCells_head]
  rfl

/-- A record that is read has a header. -/
theorem Readable.length_le {body : Bytes} (h : Readable body) : 20 ≤ body.length := by
  obtain ⟨b, hread, -⟩ := h
  simp only [readBfee, bind, bind_eq_ok] at hread
  obtain ⟨head, hhead, -⟩ := hread
  obtain ⟨byte, hbyte⟩ := (mapM_isOk_iff _ _).1 ⟨head, hhead⟩ 19 (by simp)
  by_contra hshort
  rw [bfeeByte, dif_neg (by omega)] at hbyte
  cases hbyte

/-- The round at a readable record. -/
theorem bufTurn_bfee {body : Bytes} {b : Bfee} (hread : readBfee body = .ok b) (s : BufLoop) :
    bufTurn (bfeeCode :: body) s =
      (permStep (.error .undefined) s.brokenPerm b).bind fun r =>
        (truncated b.nrx (setCell s.ret (s.count + 1) r.1) (s.count + 1)).map fun ret =>
          ({ cur := 2 + (bfeeCode :: body).length - 1, count := s.count + 1, brokenPerm := r.2,
              ret := ret }, false) := by
  have helem : elem (bfeeCode :: body) 1 = .ok bfeeCode := elem_eq_ok (i := 0) (by simp)
  have hrange : range (bfeeCode :: body) 2 (2 + ((bfeeCode :: body).length : ℤ) - 2) = .ok body :=
    range_tail [bfeeCode] body rfl (by simp; omega)
  have hlen : ¬ body.length ≠ (bfeeCode :: body).length - 1 := by simp
  simp only [bufTurn, helem, hrange, hread, Except.mapError, bind, Except.bind, if_pos, if_neg hlen]
  cases permStep (.error .undefined) s.brokenPerm b with
  | error e => rfl
  | ok r => cases truncated b.nrx (setCell s.ret (s.count + 1) r.1) (s.count + 1) <;> rfl

/-- The first cell holds the struct, whether the others are cut off or not. -/
theorem truncated_head (nrx : ℕ) (ret : List (Option Bf)) (bf : Bf) :
    ∃ ret', truncated nrx (setCell ret 1 bf) 1 = .ok ret' ∧ ret'.head? = some (some bf) := by
  obtain ⟨htake, hlen⟩ := take_setCell ret bf (Nat.zero_le ret.length)
  have hone : (setCell ret 1 bf).take 1 = [some bf] := htake
  have hhead : (setCell ret 1 bf).head? = some (some bf) := by
    cases hcells : setCell ret 1 bf with
    | nil =>
      rw [hcells] at hone
      cases hone
    | cons c cs =>
      rw [hcells] at hone
      cases hone
      rfl
  rw [truncated]
  split_ifs
  · exact ⟨_, rfl, hhead⟩
  · have hrange := range_take hlen
    refine ⟨[some bf], ?_, rfl⟩
    rw [Nat.cast_one, hone] at hrange
    rw [Nat.cast_one, hrange]
    rfl

/-- **A readable record** gives its struct if it has a single antenna or a permutation; otherwise
the warning ends the function. -/
theorem incsiReadSt_bfee {body : Bytes} {b : Bfee} (hread : readBfee body = .ok b)
    (h : 1 ≤ b.nrx) (hle : b.nrx ≤ 3) :
    incsiReadSt scale (bfeeCode :: body) =
      if b.nrx = 1 ∨ HasPerm b then .ok { bf := bfOf b, csi := scale (bfOf b) }
      else .error .undefined := by
  have hbody : 20 ≤ body.length := Readable.length_le ⟨b, hread, h, hle⟩
  have hlong : 3 < (bfeeCode :: body).length := by
    rw [List.length_cons]
    omega
  rw [incsiReadSt, readBfBuf_long hlong, bufTurn_bfee hread, permStep_eq _ _ h hle]
  split_ifs with hperm hwarned
  · obtain ⟨ret, htrunc, hhead⟩ :=
      truncated_head b.nrx (newCells (bfeeCode :: body).length) (bfOf b)
    change Except.bind (Except.map _ (Except.map _
      (truncated b.nrx (setCell (newCells (bfeeCode :: body).length) 1 (bfOf b)) 1))) _ = _
    rw [htrunc]
    simp only [Except.map, Except.bind, hhead]
    rfl
  · cases hwarned
  · rfl

/-! ## Reading a log -/

/-- **One message**: it is handed to `read_st`, and the rest of the log is left. -/
theorem incsiReadNext_record (h : FileHandler) {r post : Bytes} (hr : IsRecord r)
    (hcontents : h.contents = logRecord r ++ post) :
    ∃ h', h'.Settled ∧ h'.contents = post ∧
      incsiReadNext scale h = (incsiReadSt scale r).map fun st => (st, h') := by
  obtain ⟨hpos, hlt⟩ := hr
  obtain ⟨h₁, hread₁, hrest₁, -⟩ := h.read_eq 2
  obtain ⟨h₂, hread₂, hrest₂, hsettled⟩ := h₁.read_eq r.length
  rw [logRecord, List.append_assoc] at hcontents
  have htake : h.contents.take 2 = beBytes 2 r.length := by
    rw [hcontents, List.take_left' (length_beBytes 2 _)]
  have hdrop : h₁.contents = r ++ post := by
    rw [hrest₁, hcontents, List.drop_left' (length_beBytes 2 _)]
  rw [htake] at hread₁
  rw [hdrop, List.take_left] at hread₂
  refine ⟨h₂, hsettled hpos, by rw [hrest₂, hdrop, List.drop_left], ?_⟩
  have hread₁' : h.read 2 = .ok (beBytes 2 r.length, h₁) := hread₁
  simp only [incsiReadNext, hread₁', be16u_beBytes hlt, hread₂, Except.mapError, bind, Except.bind]
  cases incsiReadSt scale r <;> rfl

/-- **Reading a log** is reading its entries one by one. -/
theorem incsiRead_log {rs : List Bytes} {h : FileHandler} (hs : h.Settled)
    (hrs : ∀ r ∈ rs, IsRecord r) (hcontents : h.contents = rs.flatMap logRecord) :
    incsiRead scale h = rs.mapM (incsiReadSt scale) := by
  induction rs generalizing h with
  | nil => rw [incsiRead, if_pos ((FileHandler.isEnd_iff hs).2 hcontents), List.mapM_nil]; rfl
  | cons r rs ih =>
    have hr := hrs r List.mem_cons_self
    rw [List.flatMap_cons] at hcontents
    obtain ⟨h', hs', hrest, hnext⟩ := incsiReadNext_record scale h hr hcontents
    have hrun := ih hs' (fun r' hr' => hrs r' (List.mem_cons_of_mem r hr')) hrest
    have hne : h.contents ≠ [] := by
      rw [hcontents, logRecord]
      refine List.ne_nil_of_length_pos ?_
      rw [List.length_append, List.length_append, length_beBytes]
      omega
    rw [incsiRead, if_neg fun hend => hne ((FileHandler.isEnd_iff hs).1 hend), List.mapM_cons]
    cases hst : incsiReadSt scale r with
    | error e =>
      rw [hst] at hnext
      split
      · simp_all [Except.map, bind, Except.bind]
      · simp_all [Except.map]
    | ok st =>
      rw [hst] at hnext
      split
      · simp_all [Except.map]
      · rename_i st' h'' hnext'
        rw [hnext] at hnext'
        cases hnext'
        rw [hrun]
        rfl

/-! ## The two readers -/

/-- The streaming reader returns one struct for each beamforming record of the log, and the file
reader the same structs, before the scaling. -/
def StreamsAlike (rs : List Bytes) (blockLen : ℕ) (hpos : 0 < blockLen) : Prop :=
  ∃ sts, incsiRead scale (FileHandler.ofFile blockLen hpos (logFile rs)) = .ok sts ∧
    readBfFile (logFile rs) = .ok (sts.map fun st => some st.bf) ∧
    sts.length = (rs.filter fun r => r.head? = some bfeeCode).length ∧
    ∀ st ∈ sts, st.csi = scale st.bf

/-- The condition on an entry: it is a beamforming record, with a single antenna or a
permutation. -/
def Streamable (r : Bytes) : Prop :=
  r.head? = some bfeeCode ∧ ∀ b, readBfee r.tail = .ok b → b.nrx = 1 ∨ HasPerm b

instance (r : Bytes) : Decidable (Streamable r) :=
  match h : readBfee r.tail with
  | .ok b => decidable_of_iff (r.head? = some bfeeCode ∧ (b.nrx = 1 ∨ HasPerm b))
      (by simp [Streamable, h])
  | .error e => decidable_of_iff (r.head? = some bfeeCode) (by simp [Streamable, h])

/-- The entries of which a struct comes out. -/
theorem incsiReadSt_isOk_iff {r : Bytes} (hr : r ≠ []) (hacc : Acceptable r) :
    (∃ st, incsiReadSt scale r = .ok st) ↔ Streamable r := by
  obtain ⟨code, body, rfl⟩ := List.exists_cons_of_ne_nil hr
  by_cases hcode : code = bfeeCode
  · subst hcode
    obtain ⟨b, hread, hnrx, hle⟩ : Readable body := hacc rfl
    rw [incsiReadSt_bfee scale hread hnrx hle]
    constructor
    · rintro ⟨st, hst⟩
      refine ⟨rfl, fun b' hread' => ?_⟩
      change readBfee body = .ok b' at hread'
      rw [hread] at hread'
      cases hread'
      by_contra hperm
      rw [if_neg hperm] at hst
      cases hst
    · rintro ⟨-, hperm⟩
      exact ⟨_, if_pos (hperm b hread)⟩
  · rw [incsiReadSt_other scale hcode]
    refine iff_of_false (fun ⟨st, hst⟩ => by cases hst) fun hstream => hcode ?_
    exact Option.some.inj hstream.1

/-- The struct is that of the file reader. -/
theorem structsOf_of_readSt {r : Bytes} (hr : r ≠ []) (hacc : Acceptable r) {st : ScaledBf γ}
    (h : incsiReadSt scale r = .ok st) :
    r.head? = some bfeeCode ∧ structsOf r = [st.bf] ∧ st.csi = scale st.bf := by
  have hstream := (incsiReadSt_isOk_iff scale hr hacc).1 ⟨st, h⟩
  obtain ⟨body, rfl⟩ := List.head?_eq_some_iff.1 hstream.1
  obtain ⟨b, hread, hnrx, hle⟩ : Readable body := hacc rfl
  rw [incsiReadSt_bfee scale hread hnrx hle, if_pos (hstream.2 b hread)] at h
  cases h
  refine ⟨rfl, ?_, rfl⟩
  simp only [structsOf, List.head?_cons, if_pos, List.tail_cons, hread]

/-- Reading the entries one by one gives the structs of the file reader. -/
theorem mapM_incsiReadSt {rs : List Bytes} (hrs : ∀ r ∈ rs, IsRecord r)
    (hacc : ∀ r ∈ rs, Acceptable r) {sts : List (ScaledBf γ)}
    (h : rs.mapM (incsiReadSt scale) = .ok sts) :
    rs.flatMap structsOf = sts.map ScaledBf.bf ∧
      sts.length = (rs.filter fun r => r.head? = some bfeeCode).length ∧
      ∀ st ∈ sts, st.csi = scale st.bf := by
  induction rs generalizing sts with
  | nil =>
    cases h
    exact ⟨rfl, rfl, fun st hst => absurd hst (by simp)⟩
  | cons r rs ih =>
    simp only [List.mapM_cons, bind, bind_eq_ok, pure, Except.pure, Except.ok.injEq] at h
    obtain ⟨st, hst, sts, hsts, rfl⟩ := h
    have hr := List.ne_nil_of_length_pos (hrs r List.mem_cons_self).1
    obtain ⟨hhead, hstruct, hcsi⟩ := structsOf_of_readSt scale hr (hacc r List.mem_cons_self) hst
    obtain ⟨hstructs, hlen, hall⟩ := ih (fun r' hr' => hrs r' (List.mem_cons_of_mem r hr'))
      (fun r' hr' => hacc r' (List.mem_cons_of_mem r hr')) hsts
    refine ⟨?_, ?_, List.forall_mem_cons.2 ⟨hcsi, hall⟩⟩
    · rw [List.flatMap_cons, hstruct, hstructs]
      rfl
    · rw [List.filter_cons_of_pos (by simpa using hhead), List.length_cons, List.length_cons, hlen]

section Logs

variable {rs : List Bytes} {blockLen : ℕ} (hpos : 0 < blockLen) (hrs : ∀ r ∈ rs, IsRecord r)
  (hacc : ∀ r ∈ rs, Acceptable r)

include hrs

theorem incsiRead_file : incsiRead scale (FileHandler.ofFile blockLen hpos (logFile rs)) =
    rs.mapM (incsiReadSt scale) :=
  incsiRead_log scale (FileHandler.ofFile_settled blockLen hpos (logFile rs)) hrs
    (FileHandler.ofFile_contents blockLen hpos (logFile rs))

include hacc

theorem streamable_of_streamsAlike (h : StreamsAlike scale rs blockLen hpos) :
    ∀ r ∈ rs, Streamable r := by
  obtain ⟨sts, hread, -⟩ := h
  rw [incsiRead_file scale hpos hrs] at hread
  intro r hr
  have hst := (mapM_isOk_iff _ _).1 ⟨sts, hread⟩ r hr
  exact (incsiReadSt_isOk_iff scale (List.ne_nil_of_length_pos (hrs r hr).1) (hacc r hr)).1 hst

theorem streamsAlike_of_streamable (h : ∀ r ∈ rs, Streamable r) :
    StreamsAlike scale rs blockLen hpos := by
  obtain ⟨sts, hsts⟩ := (mapM_isOk_iff (incsiReadSt scale) rs).2 fun r hr =>
    (incsiReadSt_isOk_iff scale (List.ne_nil_of_length_pos (hrs r hr).1) (hacc r hr)).2 (h r hr)
  obtain ⟨hstructs, hlen, hcsi⟩ := mapM_incsiReadSt scale hrs hacc hsts
  refine ⟨sts, (incsiRead_file scale hpos hrs).trans hsts, ?_, hlen, hcsi⟩
  rw [logFile, readBfFile_log hrs hacc, hstructs, List.map_map]
  rfl

/-- **The streaming reader** agrees with the file reader on a log of acceptable records if and only
if all of them are beamforming records with a single antenna or a permutation. -/
theorem streaming_iff : StreamsAlike scale rs blockLen hpos ↔ ∀ r ∈ rs, Streamable r :=
  ⟨streamable_of_streamsAlike scale hpos hrs hacc, streamsAlike_of_streamable scale hpos hrs hacc⟩

end Logs

instance (r : Bytes) : Decidable (IsRecord r) := by
  unfold IsRecord
  infer_instance

/-- A log of one record with one antenna and one with three. -/
theorem streaming_iff_siso :
    StreamsAlike (fun bf => bf.bfee.csi) [zeroRecord 1 1 0, zeroRecord 3 1 0x24] 4096 (by decide) :=
  (streaming_iff (fun bf => bf.bfee.csi) (by decide) (by decide +kernel) (by decide +kernel)).2
    (by decide +kernel)

/-- **Two logs that the streaming reader does not read**: one of an entry with another code, and one
of a record with two antennas, of which the first two are selected. -/
theorem streaming_differs :
    ¬ StreamsAlike (fun bf => bf.bfee.csi) [[0xC1, 0x00]] 4096 (by decide) ∧
      ¬ StreamsAlike (fun bf => bf.bfee.csi) [zeroRecord 2 1 0x04] 4096 (by decide) := by
  constructor
  · intro h
    have hstream := streamable_of_streamsAlike _ _ (by decide) (by decide) h
    revert hstream
    decide +kernel
  · intro h
    have hstream := streamable_of_streamsAlike _ _ (by decide +kernel) (by decide +kernel) h
    revert hstream
    decide +kernel

end Iax.Incsi
