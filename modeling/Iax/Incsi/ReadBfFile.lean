import Iax.Incsi.Bfee
import Iax.Incsi.LogReaders
import Iax.Matlab.Index

/-!
# The file reader of MATLAB

`read_bf_file.m` walks over the entries of a log by its own count of the offset, hands each
beamforming record to `read_bfee` and permutes the receive antennas of the result.

* `bfTurn` is one round of the loop and `readBfLoop` the loop; every round moves the offset, so that
  the loop ends on any file.
* `bfTurn_acceptable`, `bfTurn_not_acceptable`: what a round does with an entry that is all there.
* `readBfLoop_through`, `acceptable_of_visits`: when the loop visits all entries of a log.
* `readBfFile_log`: what it returns for a log of records that it accepts.
-/

namespace Iax.Incsi

open Bytes Matlab

/-! ## The file and its cells -/

/-- A file opened in MATLAB. -/
structure MatFile where
  data : Bytes
  pos : ℕ

namespace MatFile

def rest (f : MatFile) : Bytes := f.data.drop f.pos

/-- `fread` of `n` bytes. -/
def fread (f : MatFile) (n : ℕ) : Bytes × MatFile :=
  (f.rest.take n, { f with pos := f.pos + (f.rest.take n).length })

/-- `fseek` from the current position. Outside the file it fails and the position stays. -/
def fseek (f : MatFile) (k : ℤ) : MatFile :=
  if 0 ≤ f.pos + k ∧ f.pos + k ≤ f.data.length then { f with pos := (f.pos + k).toNat } else f

variable {f : MatFile} {bs post : Bytes} {n : ℕ}

/-- A read of something that is there. -/
theorem fread_append (hn : bs.length = n) (h : f.rest = bs ++ post) :
    f.fread n = (bs, { f with pos := f.pos + n }) := by
  rw [fread, h, List.take_left' hn, hn]

theorem rest_advance (hn : bs.length = n) (h : f.rest = bs ++ post) :
    rest { f with pos := f.pos + n } = post := by
  rw [rest, ← List.drop_drop, ← rest, h, List.drop_left' hn]

/-- A seek over something that is there. -/
theorem fseek_append (hpos : f.pos ≤ f.data.length) (hn : bs.length = n)
    (h : f.rest = bs ++ post) : f.fseek n = { f with pos := f.pos + n } := by
  have hlen := congrArg List.length h
  rw [rest, List.length_drop, List.length_append] at hlen
  rw [fseek, if_pos (by omega)]
  congr 1

end MatFile

/-- Why a reader of beamforming records fails: an error of MATLAB itself, an error of `read_bfee`, a
variable that has no value, or a field taken of something that is not a struct. -/
inductive BfErr
  | mat (e : MatErr)
  | bfee (e : BfeeError)
  | undefined
  | notStruct
  deriving DecidableEq

/-- A struct of `read_bfee` as a reader leaves it: its CSI has `cols` columns, which are more than
`Nrx` when the permutation names an antenna beyond. -/
structure Bf where
  bfee : Bfee
  cols : ℕ
  deriving DecidableEq

/-- `ret{i} = bf`: the cell array grows with empty cells as far as it must. -/
def setCell (ret : List (Option Bf)) (i : ℕ) (bf : Bf) : List (Option Bf) :=
  (ret ++ List.replicate (i - ret.length) none).set (i - 1) (some bf)

/-- `cell(ceil(len / 95), 1)`. -/
def newCells (len : ℕ) : List (Option Bf) := List.replicate ((len + 94) / 95) none

/-! ## The permutation -/

/-- `triangle`. -/
def triangle : List ℕ := [1, 3, 6]

/-- The column of the right-hand side that column `c`, counted from 0, has after the assignment
`csi(:,perm(1:Nrx),:) = csi(:,1:Nrx,:)`: of several that go there the last one, and the column
itself when none does. A column that the array did not have is filled with zeros. -/
def permSource (perm : List ℕ) (nrx c : ℕ) : Option ℕ :=
  ((List.range nrx).reverse.find? fun r => perm.getD r 0 = c + 1).or
    (if c < nrx then some c else none)

/-- The struct after the assignment. -/
def permuteCsi (b : Bfee) : Bf :=
  let cols := (b.perm.take b.nrx).foldl max b.nrx
  let column (i c : ℕ) : List (ℤ × ℤ) := (List.range b.ntx).map fun tx =>
    match permSource b.perm b.nrx c with
    | some r => b.csi.getD (mxIndex b.nrx b.ntx tx r i) (0, 0)
    | none => (0, 0)
  { bfee := { b with
      csi := (List.range 30).flatMap fun i => (List.range cols).flatMap fun c => column i c }
    cols := cols }

/-- The end of the loop body, after `read_bfee`. The warning names the file: `filename` is what the
evaluation of this variable does. -/
def permStep (filename : Except BfErr Unit) (brokenPerm : Bool) (b : Bfee) :
    Except BfErr (Bf × Bool) :=
  if b.nrx = 1 then .ok ({ bfee := b, cols := b.nrx }, brokenPerm)
  else
    match elem triangle b.nrx with
    | .error e => .error (.mat e)
    | .ok t =>
      if b.perm.sum ≠ t then
        if brokenPerm then .ok ({ bfee := b, cols := b.nrx }, true)
        else filename.map fun _ => ({ bfee := b, cols := b.nrx }, true)
      else .ok (permuteCsi b, brokenPerm)

/-! ## The loop -/

/-- The variables of the loop. `visits` is the list of the entries of which a round is complete: the
length, and the bytes that were read. -/
structure BfLoop where
  file : MatFile
  cur : ℕ
  count : ℕ
  brokenPerm : Bool
  ret : List (Option Bf)
  visits : List Entry

/-- The end of a round, for the bytes of a beamforming record of which `fieldLen` is the length. -/
def bfOutput (s : BfLoop) (fieldLen : ℕ) (bytes : Bytes) : Except BfErr BfLoop := do
  let b ← (readBfee bytes).mapError .bfee
  let (bf, brokenPerm) ← permStep (.ok ()) s.brokenPerm b
  return { s with
    count := s.count + 1
    brokenPerm := brokenPerm
    ret := setCell s.ret (s.count + 1) bf
    visits := s.visits ++ [(fieldLen, bfeeCode :: bytes)] }

/-- A round of the loop, and whether it returns from the function. In the loop four bytes are left,
so that the length and the code are there. -/
def bfTurn (s : BfLoop) : Except BfErr (BfLoop × Bool) :=
  let fieldLen := beNat (s.file.fread 2).1
  let code := ((s.file.fread 2).2.fread 1).1
  let f := ((s.file.fread 2).2.fread 1).2
  let cur := s.cur + 3 + fieldLen - 1
  if code = [bfeeCode] then
    if fieldLen = 0 then .error (.mat .raised)
    else
      let bytes := (f.fread (fieldLen - 1)).1
      let s := { s with file := (f.fread (fieldLen - 1)).2, cur := cur }
      if bytes.length ≠ fieldLen - 1 then .ok (s, true)
      else (bfOutput s fieldLen bytes).map fun s => (s, false)
  else
    .ok ({ s with
      file := f.fseek (fieldLen - 1)
      cur := cur
      visits := s.visits ++ [(fieldLen, code)] }, false)

theorem bfOutput_cur {s s' : BfLoop} {fieldLen : ℕ} {bytes : Bytes}
    (h : bfOutput s fieldLen bytes = .ok s') : s'.cur = s.cur := by
  simp only [bfOutput, bind, bind_eq_ok] at h
  obtain ⟨b, -, ⟨bf, brokenPerm⟩, -, h⟩ := h
  cases h
  rfl

theorem bfTurn_cur {s s' : BfLoop} {returned : Bool} (h : bfTurn s = .ok (s', returned)) :
    s.cur + 2 ≤ s'.cur := by
  simp only [bfTurn] at h
  split_ifs at h
  · cases h
    dsimp only
    omega
  · obtain ⟨s₁, hout, hs⟩ := map_eq_ok.1 h
    cases hs
    rw [bfOutput_cur hout]
    dsimp only
    omega
  · cases h
    dsimp only
    omega

/-- The loop. -/
def readBfLoop (len : ℕ) (s : BfLoop) : Except BfErr (BfLoop × Bool) :=
  if s.cur + 3 < len then
    match _hturn : bfTurn s with
    | .error e => .error e
    | .ok (s', true) => .ok (s', true)
    | .ok (s', false) => readBfLoop len s'
  else .ok (s, false)
termination_by len - s.cur
decreasing_by
  have hcur := bfTurn_cur _hturn
  omega

/-- The loop's variables before it. -/
def bfInit (file : Bytes) : BfLoop where
  file := { data := file, pos := 0 }
  cur := 0
  count := 0
  brokenPerm := false
  ret := newCells file.length
  visits := []

/-- `read_bf_file`. A record of which bytes are missing ends it with the cells as they are. -/
def readBfFile (file : Bytes) : Except BfErr (List (Option Bf)) := do
  let (s, returned) ← readBfLoop file.length (bfInit file)
  if returned then return s.ret
  (range s.ret 1 s.count).mapError .mat

/-! ## What a round does with an entry -/

/-- What the loop keeps of an entry: all of a beamforming record, and the code of any other. -/
def bfView (r : Bytes) : Entry :=
  (r.length, if r.head? = some bfeeCode then r else r.take 1)

/-- A beamforming record that is read and permuted without an error. -/
def Readable (body : Bytes) : Prop := ∃ b, readBfee body = .ok b ∧ 1 ≤ b.nrx ∧ b.nrx ≤ 3

instance (body : Bytes) : Decidable (Readable body) :=
  match h : readBfee body with
  | .ok b => decidable_of_iff (1 ≤ b.nrx ∧ b.nrx ≤ 3) (by simp [Readable, h])
  | .error e => isFalse (by simp [Readable, h])

/-- An entry that does not end the file reader with an error. -/
def Acceptable (r : Bytes) : Prop := r.head? = some bfeeCode → Readable r.tail

instance (r : Bytes) : Decidable (Acceptable r) := by
  unfold Acceptable
  infer_instance

/-- The permutation that the antenna selection gives is one of the antennas, as far as its sum
says. -/
def HasPerm (b : Bfee) : Prop := b.perm.sum = b.nrx * (b.nrx + 1) / 2

instance (b : Bfee) : Decidable (HasPerm b) := by
  unfold HasPerm
  infer_instance

/-- The struct of a record: permuted, when it has more than one antenna and a permutation. -/
def bfOf (b : Bfee) : Bf :=
  if b.nrx ≠ 1 ∧ HasPerm b then permuteCsi b else { bfee := b, cols := b.nrx }

theorem elem_triangle {n : ℕ} (h : 1 ≤ n) (hle : n ≤ 3) :
    elem triangle n = .ok (n * (n + 1) / 2) := by
  interval_cases n <;> rfl

/-- **The end of the loop body** for up to three antennas: the warning is given at most once, and
only without a permutation. -/
theorem permStep_eq (filename : Except BfErr Unit) (brokenPerm : Bool) {b : Bfee}
    (h : 1 ≤ b.nrx) (hle : b.nrx ≤ 3) :
    permStep filename brokenPerm b =
      if b.nrx = 1 ∨ HasPerm b then .ok (bfOf b, brokenPerm)
      else if brokenPerm then .ok (bfOf b, true)
      else filename.map fun _ => (bfOf b, true) := by
  rw [permStep, elem_triangle h hle]
  dsimp only
  by_cases hone : b.nrx = 1
  · have hof : bfOf b = { bfee := b, cols := b.nrx } := if_neg fun hboth => hboth.1 hone
    rw [hof, if_pos hone, if_pos (Or.inl hone)]
  · rw [if_neg hone]
    by_cases hperm : HasPerm b
    · have hof : bfOf b = permuteCsi b := if_pos ⟨hone, hperm⟩
      rw [hof, if_pos (Or.inr hperm)]
      exact if_neg (not_not.2 hperm)
    · have hof : bfOf b = { bfee := b, cols := b.nrx } := if_neg fun hboth => hperm hboth.2
      rw [hof, if_neg (not_or.2 ⟨hone, hperm⟩)]
      exact if_pos hperm

/-- With no antenna, or more than three, it fails. -/
theorem permStep_eq_error (filename : Except BfErr Unit) (brokenPerm : Bool) {b : Bfee}
    (h : ¬ (1 ≤ b.nrx ∧ b.nrx ≤ 3)) :
    permStep filename brokenPerm b = .error (.mat .badSubscript) := by
  have helem : elem triangle b.nrx = .error .badSubscript := by
    refine elem_eq_error ?_
    simp only [triangle, List.length_cons, List.length_nil]
    omega
  rw [permStep, helem, if_neg (by omega)]

/-- The end of a round adds the struct of the record. -/
theorem bfOutput_eq {s : BfLoop} {l : ℕ} {body : Bytes} {b : Bfee} (hread : readBfee body = .ok b)
    (h : 1 ≤ b.nrx) (hle : b.nrx ≤ 3) :
    ∃ brokenPerm, bfOutput s l body = .ok { s with
      count := s.count + 1
      brokenPerm := brokenPerm
      ret := setCell s.ret (s.count + 1) (bfOf b)
      visits := s.visits ++ [(l, bfeeCode :: body)] } := by
  have hstep := permStep_eq (.ok ()) s.brokenPerm h hle
  have hok : ∃ brokenPerm, permStep (.ok ()) s.brokenPerm b = .ok (bfOf b, brokenPerm) := by
    rw [hstep]
    split_ifs
    · exact ⟨_, rfl⟩
    · exact ⟨_, rfl⟩
    · exact ⟨true, rfl⟩
  obtain ⟨brokenPerm, hperm⟩ := hok
  refine ⟨brokenPerm, ?_⟩
  simp only [bfOutput, hread, Except.mapError, bind, Except.bind, hperm]
  rfl

/-- A beamforming record that is not readable ends the function. -/
theorem bfOutput_eq_error {s : BfLoop} {l : ℕ} {body : Bytes} (h : ¬ Readable body) :
    ∃ e, bfOutput s l body = .error e := by
  cases hread : readBfee body with
  | error e =>
    refine ⟨.bfee e, ?_⟩
    simp only [bfOutput, hread, Except.mapError, bind, Except.bind]
  | ok b =>
    have hperm := permStep_eq_error (.ok ()) s.brokenPerm fun hnrx => h ⟨b, hread, hnrx⟩
    refine ⟨.mat .badSubscript, ?_⟩
    simp only [bfOutput, hread, Except.mapError, bind, Except.bind, hperm]

/-- Where the loop is behind an entry. -/
def BfLoop.behind (s : BfLoop) (r : Bytes) : BfLoop :=
  { s with
    file := { s.file with pos := s.file.pos + (logRecord r).length }
    cur := s.cur + (logRecord r).length }

section Turn

variable {s : BfLoop} {post : Bytes}

/-- The reads at the beginning of an entry. -/
theorem fread_logRecord {f : MatFile} {code : UInt8} {body : Bytes}
    (hlt : body.length + 1 < 2 ^ 16) (h : f.rest = logRecord (code :: body) ++ post) :
    beNat (f.fread 2).1 = body.length + 1 ∧
      (f.fread 2).2.fread 1 = ([code], { f with pos := f.pos + 3 }) ∧
      MatFile.rest { f with pos := f.pos + 3 } = body ++ post := by
  have hword := length_beBytes 2 (body.length + 1)
  have hcode : [code].length = 1 := rfl
  rw [logRecord, List.append_assoc, List.length_cons] at h
  have hrest : MatFile.rest { f with pos := f.pos + 2 } = [code] ++ (body ++ post) :=
    MatFile.rest_advance hword h
  have hread := MatFile.fread_append hcode hrest
  have hbehind := MatFile.rest_advance hcode hrest
  rw [MatFile.fread_append hword h]
  exact ⟨beNat_beBytes_of_lt (by norm_num; omega), hread, hbehind⟩

/-- An entry of another code is skipped. -/
theorem bfTurn_other {code : UInt8} {body : Bytes} (hcode : code ≠ bfeeCode)
    (hlt : body.length + 1 < 2 ^ 16) (hpos : s.file.pos ≤ s.file.data.length)
    (h : s.file.rest = logRecord (code :: body) ++ post) :
    bfTurn s = .ok ({ s.behind (code :: body) with
      visits := s.visits ++ [(body.length + 1, [code])] }, false) := by
  obtain ⟨hlen, hread, hrest⟩ := fread_logRecord hlt h
  have hin : s.file.pos + 3 ≤ s.file.data.length := by
    have hlength := congrArg List.length h
    rw [MatFile.rest, List.length_drop, List.length_append, logRecord, List.length_append,
      length_beBytes, List.length_cons] at hlength
    omega
  have hseek := MatFile.fseek_append hin rfl hrest
  have hne : ([code] : Bytes) ≠ [bfeeCode] := fun heq => hcode (List.singleton_inj.1 heq)
  simp only [bfTurn, hlen, hread, if_neg hne]
  rw [show ((body.length + 1 : ℕ) : ℤ) - 1 = (body.length : ℕ) by omega, hseek]
  simp only [BfLoop.behind, logRecord, List.length_append, length_beBytes, List.length_cons]
  congr 4 <;> omega

/-- A beamforming record is handed on. -/
theorem bfTurn_bfee {body : Bytes} (hlt : body.length + 1 < 2 ^ 16)
    (h : s.file.rest = logRecord (bfeeCode :: body) ++ post) :
    bfTurn s = (bfOutput (s.behind (bfeeCode :: body)) (body.length + 1) body).map
      fun s => (s, false) := by
  obtain ⟨hlen, hread, hrest⟩ := fread_logRecord hlt h
  have hbody := MatFile.fread_append rfl hrest
  simp only [bfTurn, hlen, hread, if_pos, Nat.add_sub_cancel, hbody, ne_eq, not_true_eq_false,
    if_false, Nat.succ_ne_zero]
  simp only [BfLoop.behind, logRecord, List.length_append, length_beBytes, List.length_cons]
  congr 4 <;> omega

/-- The structs of an entry: that of the record, when it is a readable beamforming record. -/
def structsOf (r : Bytes) : List Bf :=
  if r.head? = some bfeeCode then
    match readBfee r.tail with
    | .ok b => [bfOf b]
    | .error _ => []
  else []

/-- The cells up to the count hold the given structs. -/
structure BfLoop.Holds (s : BfLoop) (bfs : List Bf) : Prop where
  count : s.count = bfs.length
  le : s.count ≤ s.ret.length
  cells : s.ret.take s.count = bfs.map some

/-- What a round does at an entry that it goes through. -/
structure BfLoop.Passes (s : BfLoop) (r : Bytes) (s' : BfLoop) : Prop where
  data : s'.file.data = s.file.data
  pos : s'.file.pos = s.file.pos + (logRecord r).length
  cur : s'.cur = s.cur + (logRecord r).length
  visits : s'.visits = s.visits ++ [bfView r]
  holds : ∀ {bfs}, s.Holds bfs → s'.Holds (bfs ++ structsOf r)

theorem take_setCell (ret : List (Option Bf)) {i : ℕ} (bf : Bf) (hi : i ≤ ret.length) :
    (setCell ret (i + 1) bf).take (i + 1) = ret.take i ++ [some bf] ∧
      i + 1 ≤ (setCell ret (i + 1) bf).length := by
  have hlen : i < (ret ++ List.replicate (i + 1 - ret.length) none).length := by
    rw [List.length_append, List.length_replicate]
    omega
  constructor
  · rw [setCell, Nat.add_sub_cancel, List.take_add_one, List.take_set_of_le le_rfl,
      List.take_append_of_le_length hi, List.getElem?_set_self hlen]
    rfl
  · rw [setCell, List.length_set]
    exact hlen

/-- **A round** on an acceptable entry. -/
theorem bfTurn_acceptable {r : Bytes} (hr : r ≠ []) (hlt : r.length < 2 ^ 16)
    (hpos : s.file.pos ≤ s.file.data.length) (h : s.file.rest = logRecord r ++ post)
    (hacc : Acceptable r) :
    ∃ s', bfTurn s = .ok (s', false) ∧ s.Passes r s' := by
  obtain ⟨code, body, rfl⟩ := List.exists_cons_of_ne_nil hr
  by_cases hcode : code = bfeeCode
  · subst hcode
    obtain ⟨b, hread, hnrx, hle⟩ : Readable body := hacc rfl
    obtain ⟨brokenPerm, hout⟩ :=
      bfOutput_eq (s := s.behind (bfeeCode :: body)) (l := body.length + 1) hread hnrx hle
    have hstructs : structsOf (bfeeCode :: body) = [bfOf b] := by
      simp only [structsOf, List.head?_cons, if_pos, List.tail_cons, hread]
    have hview : bfView (bfeeCode :: body) = (body.length + 1, bfeeCode :: body) := by
      rw [bfView, if_pos (List.head?_cons ..), List.length_cons]
    rw [bfTurn_bfee hlt h, hout]
    refine ⟨_, rfl, rfl, rfl, rfl, by rw [hview]; rfl, fun {bfs} hholds => ?_⟩
    obtain ⟨hcells, hle⟩ := take_setCell s.ret (bfOf b) hholds.le
    rw [hstructs]
    refine ⟨?_, hle, ?_⟩
    · rw [List.length_append, ← hholds.count]
      rfl
    · rw [List.map_append, ← hholds.cells]
      exact hcells
  · have hne : (code :: body).head? ≠ some bfeeCode := by simpa using hcode
    have hstructs : structsOf (code :: body) = [] := if_neg hne
    have hview : bfView (code :: body) = (body.length + 1, [code]) := by
      rw [bfView, if_neg hne]
      rfl
    rw [bfTurn_other hcode hlt hpos h]
    refine ⟨_, rfl, rfl, rfl, rfl, by rw [hview], fun {bfs} hholds => ?_⟩
    rw [hstructs, List.append_nil]
    exact ⟨hholds.count, hholds.le, hholds.cells⟩

theorem bfTurn_not_acceptable {r : Bytes} (hlt : r.length < 2 ^ 16)
    (h : s.file.rest = logRecord r ++ post) (hacc : ¬ Acceptable r) :
    ∃ e, bfTurn s = .error e := by
  rw [Acceptable, Classical.not_imp] at hacc
  obtain ⟨hhead, hbody⟩ := hacc
  obtain ⟨body, rfl⟩ := List.head?_eq_some_iff.1 hhead
  change ¬ Readable body at hbody
  obtain ⟨e, hout⟩ := bfOutput_eq_error (s := s.behind (bfeeCode :: body))
    (l := body.length + 1) hbody
  exact ⟨e, by rw [bfTurn_bfee hlt h, hout]; rfl⟩

end Turn

/-! ## What the loop does with a log -/

/-- The loop stops when not more than three bytes are left. -/
theorem readBfLoop_stop {len : ℕ} {s : BfLoop} (h : len ≤ s.cur + 3) :
    readBfLoop len s = .ok (s, false) := by
  rw [readBfLoop, if_neg (by omega)]

theorem readBfLoop_turn {len : ℕ} {s s' : BfLoop} (h : s.cur + 3 < len)
    (hturn : bfTurn s = .ok (s', false)) : readBfLoop len s = readBfLoop len s' := by
  rw [readBfLoop, if_pos h]
  split
  · simp_all
  · simp_all
  · simp_all

theorem readBfLoop_error {len : ℕ} {s : BfLoop} {e : BfErr} (h : s.cur + 3 < len)
    (hturn : bfTurn s = .error e) : readBfLoop len s = .error e := by
  rw [readBfLoop, if_pos h]
  split
  · simp_all
  · simp_all
  · simp_all

/-- The offset of the loop is the position in its file, of which the records and a part of another
are left. -/
structure BfLoop.At (s : BfLoop) (len : ℕ) (rs : List Bytes) (part : Bytes) : Prop where
  cur : s.cur = s.file.pos
  total : s.file.data.length = len
  pos : s.file.pos ≤ len
  rest : s.file.rest = rs.flatMap logRecord ++ part

/-- An entry of one byte at the very end is not met by the loop. -/
def LastMet (rs : List Bytes) (part : Bytes) : Prop :=
  part = [] → ∀ r ∈ rs.getLast?, r.length ≠ 1

instance (rs : List Bytes) (part : Bytes) : Decidable (LastMet rs part) := by
  unfold LastMet
  infer_instance

namespace BfLoop.At

variable {s s' : BfLoop} {len : ℕ} {r : Bytes} {rs : List Bytes} {part : Bytes}

theorem length (h : s.At len rs part) :
    len = s.cur + ((rs.flatMap logRecord).length + part.length) := by
  have hlength := congrArg List.length h.rest
  rw [MatFile.rest, List.length_drop, List.length_append, h.total] at hlength
  have hcur := h.cur
  have hpos := h.pos
  omega

theorem rest_cons (h : s.At len (r :: rs) part) :
    s.file.rest = logRecord r ++ (rs.flatMap logRecord ++ part) := by
  rw [h.rest, List.flatMap_cons, List.append_assoc]

/-- The loop is in the next round unless a last entry of one byte is left. -/
theorem goes_on (h : s.At len (r :: rs) part) (hr : 1 ≤ r.length) (hlast : LastMet (r :: rs) part) :
    s.cur + 3 < len := by
  have hlength := h.length
  rw [List.flatMap_cons, List.length_append, logRecord, List.length_append, length_beBytes]
    at hlength
  by_contra hstop
  have hrs : rs = [] := by
    cases rs with
    | nil => rfl
    | cons r' rs =>
      rw [List.flatMap_cons, List.length_append, logRecord, List.length_append, length_beBytes]
        at hlength
      omega
  subst hrs
  have hpart : part = [] := List.length_eq_zero_iff.1 (by omega)
  exact hlast hpart r rfl (by omega)

theorem next (h : s.At len (r :: rs) part) (hpass : s.Passes r s') : s'.At len rs part where
  cur := by rw [hpass.cur, hpass.pos, h.cur]
  total := by rw [hpass.data, h.total]
  pos := by
    have hlength := h.length
    rw [List.flatMap_cons, List.length_append] at hlength
    rw [hpass.pos, ← h.cur]
    omega
  rest := by
    have hrest := MatFile.rest_advance rfl h.rest_cons
    rw [MatFile.rest, hpass.data, hpass.pos]
    exact hrest

end BfLoop.At

theorem LastMet.tail {r : Bytes} {rs : List Bytes} {part : Bytes} (h : LastMet (r :: rs) part) :
    LastMet rs part := by
  intro hpart r' hr'
  refine h hpart r' ?_
  cases rs with
  | nil => cases hr'
  | cons r₁ rs => rwa [List.getLast?_cons_cons]

/-- The entries that the loop can be asked to go through. -/
def IsRecord (r : Bytes) : Prop := 1 ≤ r.length ∧ r.length < 2 ^ 16

variable {s : BfLoop} {len : ℕ} {rs : List Bytes} {part : Bytes}

/-- **The loop goes through** acceptable entries, and stops with three bytes left or less. -/
theorem readBfLoop_through (hat : s.At len rs part) (hrs : ∀ r ∈ rs, IsRecord r)
    (hpart : part.length ≤ 3) (hlast : LastMet rs part) (hacc : ∀ r ∈ rs, Acceptable r) :
    ∃ s', readBfLoop len s = .ok (s', false) ∧ s'.visits = s.visits ++ rs.map bfView ∧
      s'.cur + part.length = len ∧
      ∀ {bfs}, s.Holds bfs → s'.Holds (bfs ++ rs.flatMap structsOf) := by
  induction rs generalizing s with
  | nil =>
    have hlength := hat.length
    rw [List.flatMap_nil, List.length_nil, Nat.zero_add] at hlength
    refine ⟨s, readBfLoop_stop (by omega), (List.append_nil _).symm, hlength.symm, ?_⟩
    intro bfs hholds
    rwa [List.flatMap_nil, List.append_nil]
  | cons r rs ih =>
    obtain ⟨hr, hlt⟩ := hrs r List.mem_cons_self
    have hpos := hat.pos
    rw [← hat.total] at hpos
    obtain ⟨s₁, hturn, hpass⟩ := bfTurn_acceptable (List.ne_nil_of_length_pos hr) hlt hpos
      hat.rest_cons (hacc r List.mem_cons_self)
    obtain ⟨s', hloop, hvisits, hcur, hholds⟩ := ih (hat.next hpass)
      (fun r' hr' => hrs r' (List.mem_cons_of_mem r hr')) hlast.tail
      (fun r' hr' => hacc r' (List.mem_cons_of_mem r hr'))
    refine ⟨s', ?_, ?_, hcur, fun {bfs} h => ?_⟩
    · rw [readBfLoop_turn (hat.goes_on hr hlast) hturn, hloop]
    · rw [hvisits, hpass.visits, List.append_assoc]
      rfl
    · rw [List.flatMap_cons, ← List.append_assoc]
      exact hholds (hpass.holds h)

/-- A loop that has visited all entries has met the last one, and all were acceptable. -/
theorem acceptable_of_visits (hat : s.At len rs part) (hrs : ∀ r ∈ rs, IsRecord r) {s' : BfLoop}
    {returned : Bool} (hloop : readBfLoop len s = .ok (s', returned))
    (hvisits : s'.visits = s.visits ++ rs.map bfView) :
    LastMet rs part ∧ ∀ r ∈ rs, Acceptable r := by
  induction rs generalizing s with
  | nil => exact ⟨fun _ r hr => absurd hr (by simp), fun r hr => absurd hr (by simp)⟩
  | cons r rs ih =>
    obtain ⟨hr, hlt⟩ := hrs r List.mem_cons_self
    have hgo : s.cur + 3 < len := by
      by_contra hstop
      rw [readBfLoop_stop (by omega)] at hloop
      cases hloop
      simp at hvisits
    have hr' : Acceptable r := by
      by_contra hacc
      obtain ⟨e, hturn⟩ := bfTurn_not_acceptable hlt hat.rest_cons hacc
      rw [readBfLoop_error hgo hturn] at hloop
      cases hloop
    have hpos := hat.pos
    rw [← hat.total] at hpos
    obtain ⟨s₁, hturn, hpass⟩ :=
      bfTurn_acceptable (List.ne_nil_of_length_pos hr) hlt hpos hat.rest_cons hr'
    rw [readBfLoop_turn hgo hturn] at hloop
    obtain ⟨hlast, hacc⟩ := ih (hat.next hpass)
      (fun r' hr' => hrs r' (List.mem_cons_of_mem r hr')) hloop
      (by rw [hvisits, hpass.visits, List.append_assoc]; rfl)
    refine ⟨fun hpart r' hlast' => ?_, List.forall_mem_cons.2 ⟨hr', hacc⟩⟩
    cases rs with
    | nil =>
      obtain rfl : r = r' := by simpa using hlast'
      have hlength := hat.length
      simp only [List.flatMap_cons, List.flatMap_nil, List.append_nil, logRecord,
        List.length_append, length_beBytes, hpart, List.length_nil] at hlength
      omega
    | cons r₁ rs =>
      rw [List.getLast?_cons_cons] at hlast'
      exact hlast hpart r' hlast'

/-! ## The function -/

theorem bfInit_at {file : Bytes} (h : file = rs.flatMap logRecord ++ part) :
    (bfInit file).At file.length rs part where
  cur := rfl
  total := rfl
  pos := Nat.zero_le _
  rest := h

theorem bfInit_holds (file : Bytes) : (bfInit file).Holds [] where
  count := rfl
  le := Nat.zero_le _
  cells := rfl

/-- A record without a header is not read. -/
theorem not_readable_nil : ¬ Readable [] := by
  rintro ⟨b, hread, -⟩
  cases hread

/-- An entry of one byte has no struct. -/
theorem structsOf_of_length_one {r : Bytes} (h : r.length = 1) (hacc : Acceptable r) :
    structsOf r = [] := by
  obtain ⟨code, rfl⟩ := List.length_eq_one_iff.1 h
  exact if_neg fun hhead => not_readable_nil (hacc hhead)

/-- **The file reader** returns the structs of the beamforming records of a log, in order. -/
theorem readBfFile_log (hrs : ∀ r ∈ rs, IsRecord r) (hacc : ∀ r ∈ rs, Acceptable r) :
    readBfFile (rs.flatMap logRecord) = .ok ((rs.flatMap structsOf).map some) := by
  obtain ⟨s', hloop, hholds⟩ : ∃ s', readBfLoop (rs.flatMap logRecord).length
      (bfInit (rs.flatMap logRecord)) = .ok (s', false) ∧ s'.Holds (rs.flatMap structsOf) := by
    by_cases hlast : LastMet rs []
    · obtain ⟨s', hloop, -, -, hholds⟩ := readBfLoop_through
        (bfInit_at (List.append_nil _).symm) hrs (Nat.zero_le _) hlast hacc
      exact ⟨s', hloop, hholds (bfInit_holds _)⟩
    · -- an entry of one byte is left at the end
      simp only [LastMet, forall_const, not_forall, ne_eq, not_not, exists_prop] at hlast
      obtain ⟨r, hr, hone⟩ := hlast
      obtain ⟨init, rfl⟩ := List.getLast?_eq_some_iff.1 hr
      have hflat : (init ++ [r]).flatMap logRecord = init.flatMap logRecord ++ logRecord r := by
        simp
      have hthree : (logRecord r).length = 3 := by
        rw [logRecord, List.length_append, length_beBytes, hone]
      have hmet : LastMet init (logRecord r) := fun hnil => by simp [hnil] at hthree
      obtain ⟨s', hloop, -, -, hholds⟩ := readBfLoop_through (bfInit_at hflat)
        (fun r' hr' => hrs r' (List.mem_append_left _ hr')) hthree.le hmet
        (fun r' hr' => hacc r' (List.mem_append_left _ hr'))
      refine ⟨s', hloop, ?_⟩
      have hnone := structsOf_of_length_one hone (hacc r (by simp))
      rw [List.flatMap_append, List.flatMap_singleton, hnone, List.append_nil]
      exact hholds (bfInit_holds _)
  simp only [readBfFile, hloop, bind, Except.bind, Bool.false_eq_true, if_false,
    range_take hholds.le, hholds.cells, Except.mapError]

/-- A beamforming record with all entries of the matrix zero. -/
def zeroRecord (nrx ntx antennaSel : UInt8) : Bytes :=
  bfeeCode :: (List.replicate 8 0 ++ [nrx, ntx, 0, 0, 0, 0, 0, antennaSel] ++
    leBytes 2 (bfeeCalcLen nrx.toNat ntx.toNat) ++ [0, 0] ++
    List.replicate (bfeeCalcLen nrx.toNat ntx.toNat) 0)

end Iax.Incsi
