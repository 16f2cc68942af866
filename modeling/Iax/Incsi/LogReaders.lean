import Iax.Lib.Memory
import Iax.Lib.Stdio
import Iax.Lib.Streams

/-!
# The C readers of a log

`parse_log.c`, `print_packets.c` and `get_first_bfee.c` walk over the entries of a log, each entry
a length of two bytes, big-endian, and as many bytes. They share the loop and differ in what they do
with an entry, of which they read all or only the head into a buffer.

* `EntryReader` is what a turn does with an entry; `EntryReader.run` is the loop. Every turn moves
  forward in the file, so the loop ends on any file.
* `run_log`: on a log of which less than a length word is left over, the entries are visited in
  order, each with its own bytes, up to one at which the reader leaves the loop.
* `run_log_cut`: when the length word of the last entry is all there, this entry is visited too.
-/

namespace Iax.Incsi

open Bytes Streams

/-! ## The loop -/

/-- `BUF_SIZE`. -/
def entryBufSize : ℕ := 4096

/-- An entry as a reader sees it: its length, and the bytes of the buffer that were read for it. -/
abbrev Entry := ℕ × Bytes

/-- What a turn leaves behind. `seen` are the bytes of the buffer that were read for the entry,
`out` is what the turn prints or writes, and `exit` is the status when it leaves the loop. -/
structure Turn (ω : Type) where
  buf : Memory
  file : CFile
  seen : Bytes
  out : List ω
  exit : Option ℤ

/-- What a reader does with an entry of `l` bytes that begins at the position of the stream. It
stays on its file and does not move back. -/
structure EntryReader (ω : Type) where
  turn : ℕ → Memory → CFile → Turn ω
  data_eq : ∀ l buf f, (turn l buf f).file.data = f.data
  pos_le : ∀ l buf f, f.pos ≤ (turn l buf f).file.pos

/-- What a reader has done when it exits. `stopped` says that a turn has left the loop. -/
structure LogRun (ω : Type) where
  visits : List Entry
  out : List ω
  file : CFile
  exit : ℤ
  stopped : Bool

variable {ω : Type}

/-- The run with an entry before. -/
def LogRun.cons (l : ℕ) (t : Turn ω) (r : LogRun ω) : LogRun ω :=
  { r with visits := (l, t.seen) :: r.visits, out := t.out ++ r.out }

/-- The loop of `main`. The entry size is read before the loop and at the end of its body, here at
its head; when a byte of it is missing, the end of the file has been met and the size is not used.
-/
def EntryReader.run (reader : EntryReader ω) (buf : Memory) (f : CFile) : LogRun ω :=
  let l2 := (f.fread 2).1
  let f₁ := (f.fread 2).2
  if _hend : f₁.eof = true then
    { visits := [], out := [], file := f₁, exit := 0, stopped := false }
  else
    let l := beNat l2
    if l = 0 then { visits := [], out := [], file := f₁, exit := -1, stopped := true }
    else if l > entryBufSize then
      { visits := [], out := [], file := f₁, exit := -2, stopped := true }
    else
      let t := reader.turn l buf f₁
      match t.exit with
      | some e =>
        { visits := [(l, t.seen)], out := t.out, file := t.file, exit := e, stopped := true }
      | none => (reader.run t.buf t.file).cons l t
termination_by f.data.length - f.pos
decreasing_by
  have hdata := reader.data_eq (beNat (f.fread 2).1) buf (f.fread 2).2
  have hpos := reader.pos_le (beNat (f.fread 2).1) buf (f.fread 2).2
  have hread := f.fread_pos_le 2 (by simpa using _hend)
  have hlen : (f.fread 2).2.pos = f.pos + min 2 (f.data.length - f.pos) := by
    simp [CFile.fread, CFile.rest]
  rw [hdata, CFile.fread_data]
  omega

/-! ## The readers -/

/-- `sizeof(*bfee) + 1`. -/
def headSize : ℕ := 20 + 1

/-- The code of a beamforming record. -/
def bfeeCode : UInt8 := 0xBB

/-- `parse_log`: it reads the entry and prints its size and code. -/
def parseLog : EntryReader (ℕ × UInt8) where
  turn l buf f :=
    let buf := buf.write 0 (f.fread l).1
    { buf := buf, file := (f.fread l).2, seen := buf.read 0 l, out := [(l, buf 0)], exit := none }
  data_eq _ _ _ := rfl
  pos_le l _ f := f.le_fread_pos l

/-- `bfee->fake_rate_n_flags`. -/
def bufRate (buf : Memory) : ℕ := leNat (buf.read (1 + 18) 2)

/-- `bfee->Nrx`. -/
def bufNrx (buf : Memory) : UInt8 := buf (1 + 8)

/-- `print_packets`: it reads the head of the entry, seeks over the rest and prints the rate of a
beamforming record. -/
def printPackets : EntryReader ℕ where
  turn l buf f :=
    let read := min headSize l
    let buf := buf.write 0 (f.fread read).1
    { buf := buf
      file := (f.fread read).2.fseek (l - read)
      seen := buf.read 0 read
      out := if buf 0 = bfeeCode then [bufRate buf] else []
      exit := none }
  data_eq _ _ _ := rfl
  pos_le _ _ f := (f.le_fread_pos _).trans (CFile.le_fseek_pos _ _)

/-- The arguments of `get_first_bfee`, and whether its output file can be created. -/
structure FirstArgs where
  fakeRateNFlags : UInt16
  nrx : Option UInt8
  creatable : Bool

/-- The tests of `get_first_bfee` on the head of an entry. -/
def FirstArgs.found (args : FirstArgs) (buf : Memory) : Bool :=
  buf 0 == bfeeCode && bufRate buf == args.fakeRateNFlags.toNat && args.nrx.all (bufNrx buf == ·)

/-- `get_first_bfee`: it reads the head of the entry and seeks over the rest, or writes the entry
out, if it is a beamforming record with the wanted rate and number of receive antennas. -/
def getFirstBfee (args : FirstArgs) : EntryReader Bytes where
  turn l buf f :=
    let read := min headSize l
    let buf := buf.write 0 (f.fread read).1
    let f := (f.fread read).2
    let seen := buf.read 0 read
    if args.found buf then
      if args.creatable then
        let buf := buf.write headSize (f.fread (l - read)).1
        { buf := buf
          file := (f.fread (l - read)).2
          seen := seen
          out := [beBytes 2 l ++ buf.read 0 l]
          exit := some 0 }
      else { buf := buf, file := f, seen := seen, out := [], exit := some 1 }
    else { buf := buf, file := f.fseek (l - read), seen := seen, out := [], exit := none }
  data_eq l buf f := by
    dsimp only
    split_ifs <;> rfl
  pos_le l buf f := by
    have hread := f.le_fread_pos (min headSize l)
    dsimp only
    split_ifs
    · exact hread.trans (CFile.le_fread_pos _ _)
    · exact hread
    · exact hread.trans (CFile.le_fseek_pos _ _)

/-! ## What a reader sees of an entry -/

/-- The record of an entry in a log. -/
def logRecord (r : Bytes) : Bytes := beBytes 2 r.length ++ r

/-- A log of records. -/
def logFile (rs : List Bytes) : Bytes := rs.flatMap logRecord

/-- The records that a log may have. -/
def IsEntry (r : Bytes) : Prop := 1 ≤ r.length ∧ r.length ≤ entryBufSize

/-- An entry, of which the first bytes are read. -/
def view (head : ℕ → ℕ) (r : Bytes) : Entry := (r.length, r.take (head r.length))

/-- A reader sees the first `head l` bytes of an entry that is there, and unless it leaves the loop
then it ends right behind the entry. -/
structure Reads (reader : EntryReader ω) (head : ℕ → ℕ) : Prop where
  seen : ∀ {r post : Bytes} (buf : Memory) {f : CFile}, f.rest = r ++ post →
    (reader.turn r.length buf f).seen = r.take (head r.length)
  file : ∀ {r post : Bytes} (buf : Memory) {f : CFile}, f.rest = r ++ post → f.eof = false →
    (reader.turn r.length buf f).exit = none →
    (reader.turn r.length buf f).file = { f with pos := f.pos + r.length }

/-- The head of an entry that is there. -/
theorem fread_head {r post : Bytes} {f : CFile} (h : f.rest = r ++ post) {n : ℕ}
    (hn : n ≤ r.length) : f.fread n = (r.take n, { f with pos := f.pos + n }) := by
  have hlen : (r.take n).length = n := List.length_take_of_le hn
  have hrest : f.rest = r.take n ++ (r.drop n ++ post) := by
    rw [← List.append_assoc, List.take_append_drop, h]
  have hread := CFile.fread_append hrest
  rwa [hlen] at hread

/-- What was written at the beginning of the buffer is read back. -/
theorem read_write_take {r : Bytes} {n : ℕ} (hn : n ≤ r.length) (buf : Memory) :
    (buf.write 0 (r.take n)).read 0 n = r.take n := by
  have hin : 0 + n ≤ (r.take n).length := by
    rw [List.length_take_of_le hn, Nat.zero_add]
  rw [← Nat.zero_add 0, buf.read_write 0 hin, List.drop_zero, List.take_take, Nat.min_self]

/-- Behind the head of an entry, the rest of it is skipped. -/
theorem fseek_rest {f : CFile} (heof : f.eof = false) {m n : ℕ} (hm : m ≤ n) :
    CFile.fseek { f with pos := f.pos + m } (n - m) = { f with pos := f.pos + n } := by
  rw [CFile.fseek, heof]
  congr 1
  dsimp only
  omega

theorem reads_parseLog : Reads parseLog fun l => l where
  seen {r post} buf f h := by
    change (buf.write 0 (f.fread r.length).1).read 0 r.length = _
    rw [fread_head h le_rfl, read_write_take le_rfl]
  file {r post} buf f h _ _ := by
    change (f.fread r.length).2 = _
    rw [fread_head h le_rfl]

theorem reads_printPackets : Reads printPackets (min headSize) where
  seen {r post} buf f h := by
    have hn : min headSize r.length ≤ r.length := Nat.min_le_right _ _
    change (buf.write 0 (f.fread (min headSize r.length)).1).read 0 (min headSize r.length) = _
    rw [fread_head h hn, read_write_take hn]
  file {r post} buf f h heof _ := by
    have hn : min headSize r.length ≤ r.length := Nat.min_le_right _ _
    change ((f.fread (min headSize r.length)).2.fseek (r.length - min headSize r.length)) = _
    rw [fread_head h hn]
    exact fseek_rest heof hn

theorem reads_getFirstBfee (args : FirstArgs) : Reads (getFirstBfee args) (min headSize) where
  seen {r post} buf f h := by
    have hn : min headSize r.length ≤ r.length := Nat.min_le_right _ _
    have hseen := read_write_take hn buf
    simp only [getFirstBfee, fread_head h hn]
    split_ifs <;> exact hseen
  file {r post} buf f h heof hgo := by
    have hn : min headSize r.length ≤ r.length := Nat.min_le_right _ _
    revert hgo
    simp only [getFirstBfee, fread_head h hn]
    split_ifs
    · exact fun hgo => absurd hgo (by simp)
    · exact fun hgo => absurd hgo (by simp)
    · exact fun _ => fseek_rest heof hn

/-! ## What a reader visits -/

variable (reader : EntryReader ω)

/-- The turn at a length word. -/
def EntryReader.turnAt (l : ℕ) (buf : Memory) (f : CFile) : Turn ω :=
  reader.turn l buf { f with pos := f.pos + 2 }

/-- At the end of the log, and one byte before it. -/
theorem run_end (buf : Memory) {f : CFile} (h : f.rest.length ≤ 1) :
    reader.run buf f =
      ⟨[], [], { f with pos := f.pos + f.rest.length, eof := true }, 0, false⟩ := by
  have hread : f.fread 2 = (f.rest, { f with pos := f.pos + f.rest.length, eof := true }) :=
    CFile.fread_short (by omega)
  rw [EntryReader.run, hread]
  exact dif_pos rfl

/-- **One turn**, at the length word of an entry. What is there of the entry does not matter. -/
theorem run_entry (buf : Memory) {f : CFile} {l : ℕ} {post : Bytes} (hl : 1 ≤ l)
    (hle : l ≤ entryBufSize) (h : f.rest = beBytes 2 l ++ post) (heof : f.eof = false) :
    reader.run buf f =
      let t := reader.turnAt l buf f
      match t.exit with
      | some e => ⟨[(l, t.seen)], t.out, t.file, e, true⟩
      | none => (reader.run t.buf t.file).cons l t := by
  have hread := CFile.fread_append h
  rw [length_beBytes] at hread
  have hword : beNat (beBytes 2 l) = l := by
    refine beNat_beBytes_of_lt ?_
    have : entryBufSize < 256 ^ 2 := by decide
    omega
  rw [EntryReader.run, hread]
  simp only [heof, Bool.false_eq_true, dite_false, hword]
  rw [if_neg (by omega), if_neg (by omega), EntryReader.turnAt, heof]

variable {reader} {head : ℕ → ℕ}

theorem turnAt_seen (hreads : Reads reader head) (buf : Memory) {f : CFile} {r post : Bytes}
    (h : f.rest = logRecord r ++ post) :
    (reader.turnAt r.length buf f).seen = r.take (head r.length) := by
  rw [logRecord, List.append_assoc] at h
  have hrest := CFile.rest_advance f.eof h
  rw [length_beBytes] at hrest
  exact hreads.seen buf hrest

/-- Behind an entry. -/
theorem turnAt_file (hreads : Reads reader head) (buf : Memory) {f : CFile} {r post : Bytes}
    (h : f.rest = logRecord r ++ post) (heof : f.eof = false)
    (hexit : (reader.turnAt r.length buf f).exit = none) :
    (reader.turnAt r.length buf f).file.rest = post ∧
      (reader.turnAt r.length buf f).file.eof = false ∧
      (reader.turnAt r.length buf f).file.pos = f.pos + (logRecord r).length := by
  have hsplit := h
  rw [logRecord, List.append_assoc] at hsplit
  have hrest := CFile.rest_advance f.eof hsplit
  rw [length_beBytes] at hrest
  have hfile := hreads.file buf hrest heof hexit
  rw [← EntryReader.turnAt] at hfile
  rw [hfile]
  refine ⟨CFile.rest_advance f.eof hrest, heof, ?_⟩
  rw [logRecord, List.length_append, length_beBytes]
  exact Nat.add_assoc ..

/-- **The entries that are there** are visited in order, up to one at which the reader leaves the
loop; a reader that does not leave it ends at the end of the file. -/
theorem run_log (hreads : Reads reader head) (buf : Memory) {rs : List Bytes} {part : Bytes}
    {f : CFile} (hrs : ∀ r ∈ rs, IsEntry r) (hpart : part.length ≤ 1)
    (h : f.rest = rs.flatMap logRecord ++ part) (heof : f.eof = false) :
    (reader.run buf f).visits <+: rs.map (view head) ∧
      ((reader.run buf f).stopped = false →
        (reader.run buf f).visits = rs.map (view head) ∧ (reader.run buf f).exit = 0 ∧
          (reader.run buf f).file.pos = f.pos + f.rest.length) := by
  induction rs generalizing buf f with
  | nil =>
    rw [List.flatMap_nil, List.nil_append] at h
    rw [run_end reader buf (by rw [h]; exact hpart)]
    exact ⟨List.prefix_rfl, fun _ => ⟨rfl, rfl, rfl⟩⟩
  | cons r rs ih =>
    obtain ⟨hr, hle⟩ := hrs r List.mem_cons_self
    rw [List.flatMap_cons, List.append_assoc] at h
    have hword := h
    rw [logRecord, List.append_assoc] at hword
    have hseen := turnAt_seen hreads buf h
    rw [run_entry reader buf hr hle hword heof]
    dsimp only
    cases hexit : (reader.turnAt r.length buf f).exit with
    | some e =>
      refine ⟨?_, fun hgo => absurd hgo (by simp)⟩
      rw [hseen]
      exact List.cons_prefix_cons.2 ⟨rfl, List.nil_prefix⟩
    | none =>
      obtain ⟨hrest, heof', hpos⟩ := turnAt_file hreads buf h heof hexit
      obtain ⟨hpre, hall⟩ := ih (reader.turnAt r.length buf f).buf
        (fun r' hr' => hrs r' (List.mem_cons_of_mem r hr')) hrest heof'
      simp only [LogRun.cons, hseen]
      refine ⟨List.cons_prefix_cons.2 ⟨rfl, hpre⟩, fun hgo => ?_⟩
      obtain ⟨hvisits, hexit₀, hend⟩ := hall hgo
      refine ⟨?_, hexit₀, ?_⟩
      · rw [hvisits]
        rfl
      · rw [hend, hpos, hrest, h]
        simp only [List.length_append]
        omega

section Through

variable (hreads : Reads reader head) (hgo : ∀ l buf f, (reader.turn l buf f).exit = none)

include hreads hgo

/-- A reader that never leaves the loop in an entry goes on behind it. -/
theorem run_through (buf : Memory) {f : CFile} {r post : Bytes} (hr : IsEntry r)
    (h : f.rest = logRecord r ++ post) (heof : f.eof = false) :
    ∃ buf' f', f'.rest = post ∧ f'.eof = false ∧
      (reader.run buf f).stopped = (reader.run buf' f').stopped ∧
      (reader.run buf f).visits.length = (reader.run buf' f').visits.length + 1 := by
  obtain ⟨hrest, heof', -⟩ := turnAt_file hreads buf h heof (hgo _ _ _)
  rw [logRecord, List.append_assoc] at h
  have hrun := run_entry reader buf hr.1 hr.2 h heof
  have hexit : (reader.turnAt r.length buf f).exit = none := hgo _ _ _
  simp only [hexit] at hrun
  exact ⟨_, _, hrest, heof', by rw [hrun]; rfl, by rw [hrun]; rfl⟩

/-- It does not stop on a log. -/
theorem run_not_stopped (buf : Memory) {rs : List Bytes} {part : Bytes} {f : CFile}
    (hrs : ∀ r ∈ rs, IsEntry r) (hpart : part.length ≤ 1)
    (h : f.rest = rs.flatMap logRecord ++ part) (heof : f.eof = false) :
    (reader.run buf f).stopped = false := by
  induction rs generalizing buf f with
  | nil =>
    rw [List.flatMap_nil, List.nil_append] at h
    rw [run_end reader buf (by rw [h]; exact hpart)]
  | cons r rs ih =>
    rw [List.flatMap_cons, List.append_assoc] at h
    obtain ⟨buf', f', hrest, heof', hstopped, -⟩ :=
      run_through hreads hgo buf (hrs r List.mem_cons_self) h heof
    rw [hstopped]
    exact ih buf' (fun r' hr' => hrs r' (List.mem_cons_of_mem r hr')) hrest heof'

/-- **An entry of which only a part is there** is visited all the same, when its length word is. -/
theorem run_log_cut (buf : Memory) {rs : List Bytes} {r part : Bytes} {f : CFile}
    (hrs : ∀ r ∈ rs, IsEntry r) (hr : IsEntry r)
    (h : f.rest = rs.flatMap logRecord ++ (beBytes 2 r.length ++ part)) (heof : f.eof = false) :
    rs.length < (reader.run buf f).visits.length := by
  induction rs generalizing buf f with
  | nil =>
    have hexit : (reader.turnAt r.length buf f).exit = none := hgo _ _ _
    rw [run_entry reader buf hr.1 hr.2 h heof]
    simp only [hexit]
    exact Nat.succ_pos _
  | cons r' rs ih =>
    rw [List.flatMap_cons, List.append_assoc] at h
    obtain ⟨buf', f', hrest, heof', -, hlength⟩ :=
      run_through hreads hgo buf (hrs r' List.mem_cons_self) h heof
    rw [hlength]
    exact Nat.succ_lt_succ
      (ih buf' (fun r hr => hrs r (List.mem_cons_of_mem r' hr)) hrest heof')

end Through

end Iax.Incsi
