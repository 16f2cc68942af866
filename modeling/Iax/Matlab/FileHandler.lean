import Iax.Lib.Bytes
import Iax.Matlab.Index

/-!
# Buffered file reading

`file_handler.m` over `buffer.m`: the file is read in blocks of `block_len` bytes into a buffer,
and `read` takes from the buffer after filling it up to twice the wanted length.

* `FileHandler.contents` is what is left to read, in the buffer and in the file: to its users the
  handler is this byte string and nothing else.
* `read_eq`: reading `n` bytes takes the first `n` of the contents, or all of them; a negative
  length ends the call (`read_neg`).
* `isEnd_iff`: after opening and after every read of a positive length, the handler is at its end
  exactly when nothing is left.
* `file_reads`: a list of reads returns what reading the file itself would (`directReads`).
-/

namespace Iax.Matlab

/-! ## The handler -/

/-- A `file_handler` and the file behind its descriptor, from the read position on. At the end of
the file the descriptor is closed. -/
structure FileHandler where
  rest : Bytes
  sbuf : Bytes
  isFileEnd : Bool
  fileReadLen : ℕ
  blockLen : ℕ
  blockLen_pos : 0 < blockLen
  rest_of_end : isFileEnd = true → rest = []

namespace FileHandler

/-- `read_file_block`. -/
def readFileBlock (h : FileHandler) : FileHandler where
  rest := h.rest.drop h.blockLen
  sbuf := h.sbuf ++ h.rest.take h.blockLen
  isFileEnd := h.isFileEnd || (h.rest.take h.blockLen).length ≠ h.blockLen
  fileReadLen := h.fileReadLen
  blockLen := h.blockLen
  blockLen_pos := h.blockLen_pos
  rest_of_end := by
    intro hend
    rw [Bool.or_eq_true, decide_eq_true_eq, List.length_take] at hend
    rcases hend with hend | hend
    · simp [h.rest_of_end hend]
    · exact List.drop_eq_nil_of_le (by omega)

/-- The constructor, on a file with the given bytes: it reads the first block. -/
def ofFile (blockLen : ℕ) (blockLen_pos : 0 < blockLen) (file : Bytes) : FileHandler :=
  readFileBlock
    { rest := file, sbuf := [], isFileEnd := false, fileReadLen := 0, blockLen := blockLen,
      blockLen_pos := blockLen_pos, rest_of_end := by simp }

/-- The loop of `read`: read until the buffer holds twice the length or the file ends. -/
def fill (h : FileHandler) (len : ℤ) : FileHandler :=
  if ¬ h.isFileEnd ∧ (h.sbuf.length : ℤ) < 2 * len then fill h.readFileBlock len else h
termination_by h.rest.length + (if h.isFileEnd then 0 else 1)
decreasing_by
  rename_i hgo
  have hpos := h.blockLen_pos
  simp only [readFileBlock, List.length_drop, List.length_take, hgo.1, Bool.false_or,
    Bool.false_eq_true, if_false, decide_eq_true_eq]
  split <;> omega

/-- `buffer.read`: the bytes read and those that stay. -/
def bufferRead (buf : Bytes) (count : ℤ) : Except MatErr (Bytes × Bytes) := do
  let ed := min count buf.length
  let rbuf ← range buf 1 ed
  let buf ← range buf (ed + 1) buf.length
  return (rbuf, buf)

theorem bufferRead_eq (buf : Bytes) (n : ℕ) :
    bufferRead buf n = .ok (buf.take n, buf.drop n) := by
  have hmin : min (n : ℤ) buf.length = (min n buf.length : ℕ) := by omega
  simp only [bufferRead, hmin, range_take (Nat.min_le_right n buf.length),
    range_drop (Nat.min_le_right n buf.length), bind, Except.bind, pure, Except.pure]
  rw [← List.take_eq_take_min, ← List.drop_eq_drop_min]

/-- A negative count ends the call. -/
theorem bufferRead_neg (buf : Bytes) {count : ℤ} (hneg : count < 0) :
    bufferRead buf count = .error .badSubscript := by
  have hmin : min count buf.length = count := by omega
  have hhead : range buf 1 count = .ok [] := if_pos (by omega)
  have htail : range buf (count + 1) buf.length = .error .badSubscript :=
    range_eq_error (by omega) (.inl (by omega))
  simp only [bufferRead, hmin, hhead, htail, bind, Except.bind]

/-- `read`. -/
def read (h : FileHandler) (len : ℤ) : Except MatErr (Bytes × FileHandler) := do
  let h := h.fill len
  let (rbuf, sbuf) ← bufferRead h.sbuf len
  return (rbuf, { h with sbuf := sbuf, fileReadLen := h.fileReadLen + rbuf.length })

/-- `is_end`. -/
def isEnd (h : FileHandler) : Bool := h.sbuf.isEmpty && h.isFileEnd

/-! ## What is left to read -/

/-- The bytes that are left. -/
def contents (h : FileHandler) : Bytes := h.sbuf ++ h.rest

/-- An empty buffer means that the file has ended. -/
def Settled (h : FileHandler) : Prop := h.sbuf = [] → h.isFileEnd = true

theorem isEnd_iff {h : FileHandler} (hs : h.Settled) : h.isEnd = true ↔ h.contents = [] := by
  rw [isEnd, Bool.and_eq_true, List.isEmpty_iff, contents, List.append_eq_nil_iff]
  constructor
  · rintro ⟨hbuf, hend⟩
    exact ⟨hbuf, h.rest_of_end hend⟩
  · rintro ⟨hbuf, -⟩
    exact ⟨hbuf, hs hbuf⟩

theorem readFileBlock_contents (h : FileHandler) : h.readFileBlock.contents = h.contents := by
  simp only [contents, readFileBlock, List.append_assoc, List.take_append_drop]

theorem ofFile_contents (blockLen : ℕ) (hpos : 0 < blockLen) (file : Bytes) :
    (ofFile blockLen hpos file).contents = file := by
  rw [ofFile, readFileBlock_contents]
  rfl

theorem ofFile_settled (blockLen : ℕ) (hpos : 0 < blockLen) (file : Bytes) :
    (ofFile blockLen hpos file).Settled := by
  intro hbuf
  have hempty : file.take blockLen = [] := hbuf
  simp only [ofFile, readFileBlock, hempty, List.length_nil, Bool.false_or, decide_eq_true_eq]
  omega

theorem fill_contents (h : FileHandler) (len : ℤ) : (h.fill len).contents = h.contents := by
  induction h using fill.induct len with
  | case1 h hgo ih => rw [fill, if_pos hgo, ih, readFileBlock_contents]
  | case2 h hstop => rw [fill, if_neg hstop]

/-- The loop stops at the end of the file or with enough in the buffer. -/
theorem fill_stops (h : FileHandler) (len : ℤ) :
    (h.fill len).isFileEnd = true ∨ 2 * len ≤ (h.fill len).sbuf.length := by
  induction h using fill.induct len with
  | case1 h hgo ih => rwa [fill, if_pos hgo]
  | case2 h hstop =>
    rw [fill, if_neg hstop]
    by_cases hend : h.isFileEnd = true
    · exact .inl hend
    · right
      by_contra hlt
      exact hstop ⟨hend, by omega⟩

/-- **Reading** takes from the contents. -/
theorem read_eq (h : FileHandler) (n : ℕ) :
    ∃ h', h.read n = .ok (h.contents.take n, h') ∧ h'.contents = h.contents.drop n ∧
      (0 < n → h'.Settled) := by
  set f := h.fill n with hf
  have hcontents : f.sbuf ++ f.rest = h.contents := fill_contents h n
  have hstops : f.isFileEnd = true ∨ 2 * (n : ℤ) ≤ f.sbuf.length := fill_stops h n
  -- in both cases the wanted bytes are in the buffer, as far as there are any
  have henough : f.rest = [] ∨ n ≤ f.sbuf.length := by
    rcases hstops with hend | hlen
    · exact .inl (f.rest_of_end hend)
    · right
      omega
  have htake : h.contents.take n = f.sbuf.take n := by
    rw [← hcontents]
    rcases henough with hrest | hlen
    · rw [hrest, List.append_nil]
    · rw [List.take_append_of_le_length hlen]
  have hdrop : h.contents.drop n = f.sbuf.drop n ++ f.rest := by
    rw [← hcontents]
    rcases henough with hrest | hlen
    · rw [hrest, List.append_nil, List.append_nil]
    · rw [List.drop_append_of_le_length hlen]
  have hread : bufferRead f.sbuf n = .ok (f.sbuf.take n, f.sbuf.drop n) := bufferRead_eq f.sbuf n
  refine ⟨{ f with
    sbuf := f.sbuf.drop n, fileReadLen := f.fileReadLen + (f.sbuf.take n).length }, ?_,
    hdrop.symm, ?_⟩
  · simp only [read, ← hf, hread, htake, bind, Except.bind]
    rfl
  intro hpos hbuf
  rcases hstops with hend | hlen
  · exact hend
  · have hnil : f.sbuf.drop n = [] := hbuf
    rw [List.drop_eq_nil_iff] at hnil
    omega

/-- The loop moves bytes from the file to the end of the buffer. -/
theorem fill_split (h : FileHandler) (len : ℤ) :
    ∃ x, h.rest = x ++ (h.fill len).rest ∧ (h.fill len).sbuf = h.sbuf ++ x := by
  induction h using fill.induct len with
  | case1 h hgo ih =>
    obtain ⟨x, hrest, hsbuf⟩ := ih
    rw [fill, if_pos hgo]
    refine ⟨h.rest.take h.blockLen ++ x, ?_, ?_⟩
    · rw [List.append_assoc, ← hrest, readFileBlock, List.take_append_drop]
    · rw [hsbuf, readFileBlock, List.append_assoc]
  | case2 h hstop =>
    rw [fill, if_neg hstop]
    exact ⟨[], rfl, (List.append_nil _).symm⟩

/-- Reading takes from the buffer after the loop. -/
theorem read_split {h h' : FileHandler} {n : ℕ} {rbuf : Bytes} (hread : h.read n = .ok (rbuf, h')) :
    ∃ x, h.rest = x ++ h'.rest ∧ h.sbuf ++ x = rbuf ++ h'.sbuf := by
  obtain ⟨x, hrest, hsbuf⟩ := h.fill_split n
  simp only [read, bufferRead_eq, bind, Except.bind, pure, Except.pure, Except.ok.injEq,
    Prod.mk.injEq] at hread
  obtain ⟨rfl, rfl⟩ := hread
  exact ⟨x, hrest, by rw [← hsbuf, List.take_append_drop]⟩

/-- A negative length ends the call. -/
theorem read_neg (h : FileHandler) {len : ℤ} (hneg : len < 0) :
    h.read len = .error .badSubscript := by
  have hfill : h.fill len = h := by
    rw [fill, if_neg]
    omega
  simp only [read, hfill, bufferRead_neg h.sbuf hneg, bind, Except.bind]

/-! ## Lists of reads -/

/-- Reads of the given lengths, and what `is_end` says after each. -/
def reads (h : FileHandler) : List ℕ → Except MatErr (List (Bytes × Bool))
  | [] => return []
  | n :: ns => do
    let (rbuf, h) ← h.read n
    return (rbuf, h.isEnd) :: (← h.reads ns)

/-- The same of a byte string that is read without a buffer. -/
def directReads (left : Bytes) : List ℕ → List (Bytes × Bool)
  | [] => []
  | n :: ns => (left.take n, (left.drop n).isEmpty) :: directReads (left.drop n) ns

theorem reads_eq (h : FileHandler) {lens : List ℕ} (hlens : ∀ n ∈ lens, 1 ≤ n) :
    h.reads lens = .ok (directReads h.contents lens) := by
  induction lens generalizing h with
  | nil => rfl
  | cons n lens ih =>
    obtain ⟨hn, hrest⟩ := List.forall_mem_cons.1 hlens
    obtain ⟨h', hread, hcontents, hsettled⟩ := h.read_eq n
    have hend : h'.isEnd = (h.contents.drop n).isEmpty := by
      rw [Bool.eq_iff_iff, isEnd_iff (hsettled hn), hcontents, List.isEmpty_iff]
    simp only [reads, hread, ih h' hrest, hend, hcontents, directReads, bind, Except.bind, pure,
      Except.pure]

/-- **Buffered reading refines direct reading**: on a fresh handler each read returns the next bytes
of the file, as many as are wanted and there, and `is_end` says whether any are left. -/
theorem file_reads (blockLen : ℕ) (hpos : 0 < blockLen) (file : Bytes) {lens : List ℕ}
    (hlens : ∀ n ∈ lens, 1 ≤ n) :
    (ofFile blockLen hpos file).reads lens = .ok (directReads file lens) := by
  rw [reads_eq _ hlens, ofFile_contents]

/-- Six bytes in blocks of three, read four at a time. -/
theorem file_reads_six : (∀ n ∈ [4, 4], 1 ≤ n) ∧
    (ofFile 3 (by decide) [1, 2, 3, 4, 5, 6]).reads [4, 4] =
      .ok [([1, 2, 3, 4], false), ([5, 6], true)] :=
  ⟨by decide, file_reads 3 (by decide) [1, 2, 3, 4, 5, 6] (by decide)⟩

end FileHandler

end Iax.Matlab
