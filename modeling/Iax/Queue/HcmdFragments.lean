import Iax.Lib.Memory
import Iax.Queue.Txq

/-!
# The fragments of a host command

A host command is a header and chunks of data. `iwl_pcie_gen2_enqueue_hcmd` (`pcie/tx-gen2.c`) and
`iwl_pcie_enqueue_hcmd` (`pcie/tx.c`) copy a part of it to the command of the queue's entry and let
the device fetch the rest from where it is: the first 20 bytes go into a buffer of their own, then
come the bytes copied behind these, and then what is left of the chunks that are not copied.

* `scanChunks` is the loop that checks the chunks and counts what is to be copied, `copyChunks` the
  loop that copies, and `hcmdTbs` the list of the fragments that the device gets.
* `Agrees` is what the two loops have in common after the same chunks, kept by `agrees_step`.
* `hcmd_bytes`: whatever the kinds of the chunks, the fragments are the command, and nothing is
  written behind the entry's command.
-/

namespace Iax.Queue

open Bytes

/-! ## Commands -/

/-- A chunk of a host command: `len` bytes at `data`, and the bits of `dataflags`. -/
structure HcmdChunk where
  data : Bytes
  nocopy : Bool
  dup : Bool
  length_lt : data.length < 2 ^ 16

/-- The chunk is not copied to the command of the entry. -/
def HcmdChunk.apart (c : HcmdChunk) : Bool := c.nocopy || c.dup

/-- `IWL_FIRST_TB_SIZE`. -/
def iwlFirstTbSize : ℕ := 20

/-- `TFD_MAX_PAYLOAD_SIZE`. -/
def tfdMaxPayloadSize : ℕ := 324

/-- `QUEUE_TO_SEQ`. -/
def queueToSeq (q : ℕ) : ℕ := (q &&& 0x1f) <<< 8

/-- `INDEX_TO_SEQ`. -/
def indexToSeq (i : ℕ) : ℕ := i &&& 0xff

/-- The header of a command: `struct iwl_cmd_header_wide`, or `struct iwl_cmd_header` for a command
of group 0 in the first generation. -/
def hcmdHeader (wide : Bool) (qId writePtr id cmdSize : ℕ) : Bytes :=
  let sequence := leBytes 2 (queueToSeq qId ||| indexToSeq writePtr)
  if wide then
    [UInt8.ofNat (id &&& 0xff), UInt8.ofNat ((id &&& 0xff00) >>> 8)] ++ sequence ++
      leBytes 2 (cmdSize - 8) ++ [0, UInt8.ofNat ((id &&& 0xff0000) >>> 16)]
  else [UInt8.ofNat (id &&& 0xff), 0] ++ sequence

/-- The size of the header. -/
def hcmdHeaderSize (wide : Bool) : ℕ := if wide then 8 else 4

/-! ## Checking the chunks -/

/-- The variables of the loop over the chunks: `rest` has, for each chunk, the `cmdlen[i]` bytes at
`cmddata[i]`. -/
structure HcmdScan where
  copySize : ℕ
  cmdSize : ℕ
  hadNocopy : Bool
  dupBuf : Option Bytes
  rest : List Bytes

/-- What is copied of a chunk in any case, so that there are `IWL_FIRST_TB_SIZE` bytes. -/
def minCopy (copySize len : ℕ) : ℕ :=
  if copySize < iwlFirstTbSize then min (iwlFirstTbSize - copySize) len else 0

/-- The body of the loop. `alloc` tells whether `kmemdup` finds memory. -/
def scanChunk (alloc : Bool) (s : HcmdScan) (c : HcmdChunk) : Except ℤ HcmdScan :=
  if c.data = [] then .ok { s with rest := s.rest ++ [[]] }
  else
    let copy := minCopy s.copySize c.data.length
    let s' : HcmdScan := { s with
      copySize := (s.copySize + copy) % 2 ^ 16
      cmdSize := (s.cmdSize + c.data.length) % 2 ^ 16
      rest := s.rest ++ [c.data.drop copy] }
    if c.nocopy then
      if c.dup then .error (-einval) else .ok { s' with hadNocopy := true }
    else if c.dup then
      if s.dupBuf.isSome then .error (-einval)
      else if !alloc then .error (-enomem)
      else .ok { s' with hadNocopy := true, dupBuf := some (c.data.drop copy) }
    else if s.hadNocopy then .error (-einval)
    else .ok { s' with copySize := (s'.copySize + (c.data.drop copy).length) % 2 ^ 16 }

/-- The loop. -/
def scanChunks (alloc : Bool) : HcmdScan → List HcmdChunk → Except ℤ HcmdScan
  | s, [] => .ok s
  | s, c :: cs =>
    match scanChunk alloc s c with
    | .error e => .error e
    | .ok s => scanChunks alloc s cs

/-! ## Copying -/

/-- The command of the entry while it is filled. -/
structure HcmdCopy where
  outCmd : Memory
  cmdPos : ℕ
  copySize : ℕ

/-- The body of the loop that copies. -/
def copyChunk (s : HcmdCopy) (c : HcmdChunk) : HcmdCopy :=
  if c.data = [] then s
  else if !c.apart then
    { outCmd := s.outCmd.write s.cmdPos c.data
      cmdPos := s.cmdPos + c.data.length
      copySize := (s.copySize + c.data.length) % 2 ^ 16 }
  else
    let copy := min (tfdMaxPayloadSize - s.cmdPos) c.data.length
    { outCmd := s.outCmd.write s.cmdPos (c.data.take copy)
      cmdPos := s.cmdPos + copy
      copySize := (s.copySize + minCopy s.copySize c.data.length) % 2 ^ 16 }

/-- The loop that copies. -/
def copyChunks (s : HcmdCopy) (cs : List HcmdChunk) : HcmdCopy := cs.foldl copyChunk s

/-! ## The fragments -/

/-- The fragment of a chunk that is not copied, if anything is left of it. -/
def chunkTb (dupBuf : Option Bytes) (c : HcmdChunk) (rest : Bytes) : List Bytes :=
  if rest = [] then []
  else if !c.apart then []
  else if c.dup then [dupBuf.getD []]
  else [rest]

/-- The buffers that the device is told to fetch: `first_tb_bufs`, the rest of what was copied, and
what is left of the chunks. -/
def tbsOf (s : HcmdScan) (t : HcmdCopy) (cs : List HcmdChunk) : List Bytes :=
  let tb0Size := min t.copySize iwlFirstTbSize
  t.outCmd.read 0 tb0Size ::
    ((if tb0Size < t.copySize then [t.outCmd.read tb0Size (t.copySize - tb0Size)] else []) ++
      (cs.zip s.rest).flatMap fun x => chunkTb s.dupBuf x.1 x.2)

/-- What `iwl_pcie_gen2_enqueue_hcmd` and `iwl_pcie_enqueue_hcmd` do with the chunks of a command,
when the queue has space and the buffers can be mapped: the fragments, and the memory from the
command of the entry on. -/
def hcmdTbs (wide alloc : Bool) (qId writePtr id : ℕ) (outCmd : Memory) (cs : List HcmdChunk) :
    Except ℤ (List Bytes × Memory) :=
  let size := hcmdHeaderSize wide
  match scanChunks alloc ⟨size, size, false, none, []⟩ cs with
  | .error e => .error e
  | .ok s =>
    if tfdMaxPayloadSize < s.copySize then .error (-einval)
    else
      let hdr := hcmdHeader wide qId writePtr id s.cmdSize
      let t := copyChunks ⟨outCmd.write 0 hdr, size, size⟩ cs
      .ok (tbsOf s t cs, t.outCmd)

theorem length_hcmdHeader (wide : Bool) (qId writePtr id cmdSize : ℕ) :
    (hcmdHeader wide qId writePtr id cmdSize).length = hcmdHeaderSize wide := by
  cases wide <;> simp [hcmdHeader, hcmdHeaderSize]

/-! ## What the loops do with a chunk -/

section Chunk

variable {alloc : Bool} {s s' : HcmdScan} {t : HcmdCopy} {c : HcmdChunk}

theorem minCopy_le (k len : ℕ) : minCopy k len ≤ len := by
  unfold minCopy
  split <;> omega

/-- **A chunk that is accepted** is empty, or kept apart, or copied behind others that are. -/
theorem scanChunk_cases (h : scanChunk alloc s c = .ok s') :
    (c.data = [] ∧ s' = { s with rest := s.rest ++ [[]] }) ∨
    (c.data ≠ [] ∧ c.apart = true ∧ ∃ dupBuf,
      (dupBuf = s.dupBuf ∧ c.dup = false ∨
        s.dupBuf = none ∧ dupBuf = some (c.data.drop (minCopy s.copySize c.data.length))) ∧
      s' = {
        copySize := (s.copySize + minCopy s.copySize c.data.length) % 2 ^ 16
        cmdSize := (s.cmdSize + c.data.length) % 2 ^ 16
        hadNocopy := true
        dupBuf := dupBuf
        rest := s.rest ++ [c.data.drop (minCopy s.copySize c.data.length)] }) ∨
    (c.data ≠ [] ∧ c.apart = false ∧ s.hadNocopy = false ∧ s' = { s with
        copySize := ((s.copySize + minCopy s.copySize c.data.length) % 2 ^ 16 +
          (c.data.drop (minCopy s.copySize c.data.length)).length) % 2 ^ 16
        cmdSize := (s.cmdSize + c.data.length) % 2 ^ 16
        rest := s.rest ++ [c.data.drop (minCopy s.copySize c.data.length)] }) := by
  simp only [scanChunk] at h
  by_cases hnil : c.data = []
  · rw [if_pos hnil] at h
    exact .inl ⟨hnil, (Except.ok.inj h).symm⟩
  rw [if_neg hnil] at h
  cases hnocopy : c.nocopy with
  | true =>
    cases hdup : c.dup with
    | true =>
      simp only [hnocopy, hdup, if_true] at h
      cases h
    | false =>
      simp only [hnocopy, hdup, if_true, Bool.false_eq_true, if_false] at h
      refine .inr (.inl ⟨hnil, ?_, s.dupBuf, .inl ⟨rfl, rfl⟩, (Except.ok.inj h).symm⟩)
      rw [HcmdChunk.apart, hnocopy, Bool.true_or]
  | false =>
    cases hdup : c.dup with
    | true =>
      simp only [hnocopy, hdup, Bool.false_eq_true, if_false, if_true] at h
      split at h
      · cases h
      · split at h
        · cases h
        · refine .inr (.inl ⟨hnil, ?_, _, .inr ⟨?_, rfl⟩, (Except.ok.inj h).symm⟩)
          · rw [HcmdChunk.apart, hdup, Bool.or_true]
          · exact Option.not_isSome_iff_eq_none.1 (by assumption)
    | false =>
      simp only [hnocopy, hdup, Bool.false_eq_true, if_false] at h
      split at h
      · cases h
      · refine .inr (.inr ⟨hnil, ?_, ?_, (Except.ok.inj h).symm⟩)
        · rw [HcmdChunk.apart, hnocopy, hdup, Bool.or_self]
        · exact Bool.not_eq_true _ ▸ (by assumption)

/-- The count grows, and by no more than the chunk. -/
theorem scanChunk_copySize (h : scanChunk alloc s c = .ok s')
    (hlt : s.copySize + c.data.length < 2 ^ 16) :
    s.copySize ≤ s'.copySize ∧ s'.copySize ≤ s.copySize + c.data.length := by
  have hle := minCopy_le s.copySize c.data.length
  rcases scanChunk_cases h with ⟨-, rfl⟩ | ⟨-, -, dupBuf, -, rfl⟩ | ⟨-, -, -, rfl⟩
  · exact ⟨le_rfl, Nat.le_add_right ..⟩
  · dsimp only
    omega
  · dsimp only
    rw [List.length_drop]
    omega

/-- And over all chunks. -/
theorem scanChunks_copySize {cs : List HcmdChunk} (h : scanChunks alloc s cs = .ok s')
    (hlt : s.copySize + (cs.flatMap HcmdChunk.data).length < 2 ^ 16) :
    s.copySize ≤ s'.copySize := by
  induction cs generalizing s with
  | nil => exact (Except.ok.inj h) ▸ le_rfl
  | cons c cs ih =>
    rw [List.flatMap_cons, List.length_append] at hlt
    rw [scanChunks] at h
    split at h
    · cases h
    · rename_i s₁ hs₁
      obtain ⟨hle, hle'⟩ := scanChunk_copySize hs₁ (by omega)
      exact hle.trans (ih h (by omega))

end Chunk

/-! ## The two loops -/

/-- What is left of the chunks that are kept apart. -/
def apartBytes (cs : List HcmdChunk) (rest : List Bytes) : Bytes :=
  (cs.zip rest).flatMap fun x => if x.1.apart then x.2 else []

/-- What the two loops have made of the same chunks `cs` of a command with header `hdr`. `cmd` is
the command so far. -/
structure Agrees (hdr : Bytes) (old : Memory) (cs : List HcmdChunk) (s : HcmdScan) (t : HcmdCopy)
    (cmd : Bytes) : Prop where
  cmd_eq : cmd = hdr ++ cs.flatMap HcmdChunk.data
  cmdSize : s.cmdSize = cmd.length
  copySize : t.copySize = s.copySize
  le : s.copySize ≤ cmd.length
  /-- As long as there is not enough for the first buffer, or all is copied, all is counted. -/
  all : s.copySize < iwlFirstTbSize ∨ s.hadNocopy = false → s.copySize = cmd.length
  cmdPos : t.cmdPos = min tfdMaxPayloadSize cmd.length
  copied : t.outCmd.read 0 t.cmdPos = cmd.take t.cmdPos
  outside : ∀ a, tfdMaxPayloadSize ≤ a → t.outCmd a = old a
  /-- What is counted and what is left of the chunks are the command. -/
  tail : cmd.take s.copySize ++ apartBytes cs s.rest = cmd
  rest : s.rest.length = cs.length
  dup : ∀ x ∈ cs.zip s.rest, x.1.dup = true → x.2 ≠ [] → s.dupBuf = some x.2

section Loops

variable {hdr cmd : Bytes} {old : Memory} {cs : List HcmdChunk} {s s' : HcmdScan} {t : HcmdCopy}
  {c : HcmdChunk} {alloc : Bool}

theorem zip_concat (h : s.rest.length = cs.length) (bs : Bytes) :
    (cs ++ [c]).zip (s.rest ++ [bs]) = cs.zip s.rest ++ [(c, bs)] :=
  List.zip_append h.symm

theorem apartBytes_concat (h : s.rest.length = cs.length) (bs : Bytes) :
    apartBytes (cs ++ [c]) (s.rest ++ [bs]) =
      apartBytes cs s.rest ++ if c.apart then bs else [] := by
  rw [apartBytes, zip_concat h, List.flatMap_append, List.flatMap_singleton]
  rfl

/-- Bytes written behind those that are there. -/
theorem read_write_behind (mem : Memory) (pos : ℕ) (bs : Bytes) :
    (mem.write pos bs).read 0 (pos + bs.length) = mem.read 0 pos ++ bs := by
  rw [Memory.read_add, Memory.read_write_below mem pos (by omega), Nat.zero_add,
    Memory.read_write_self]

/-- An empty chunk. -/
theorem agrees_nil (h : Agrees hdr old cs s t cmd) (hnil : c.data = []) :
    Agrees hdr old (cs ++ [c]) { s with rest := s.rest ++ [[]] } (copyChunk t c) cmd where
  cmd_eq := by
    rw [h.cmd_eq, List.flatMap_append, List.flatMap_singleton, hnil, List.append_nil]
  cmdSize := h.cmdSize
  copySize := by rw [copyChunk, if_pos hnil]; exact h.copySize
  le := h.le
  all := h.all
  cmdPos := by rw [copyChunk, if_pos hnil]; exact h.cmdPos
  copied := by rw [copyChunk, if_pos hnil]; exact h.copied
  outside := by rw [copyChunk, if_pos hnil]; exact h.outside
  tail := by
    rw [apartBytes_concat h.rest, ite_self, List.append_nil]
    exact h.tail
  rest := by rw [List.length_append, List.length_append, h.rest]; rfl
  dup x hx := by
    rw [zip_concat h.rest, List.mem_append, List.mem_singleton] at hx
    rcases hx with hx | rfl
    · exact h.dup x hx
    · exact fun _ hne => absurd rfl hne

/-- When everything is counted, nothing is left. -/
theorem Agrees.apartBytes_eq (h : Agrees hdr old cs s t cmd) (hall : s.copySize = cmd.length) :
    apartBytes cs s.rest = [] := by
  have htail := h.tail
  rw [hall, List.take_length] at htail
  exact List.append_right_eq_self.1 htail

/-- A chunk that is kept apart. -/
theorem agrees_apart (h : Agrees hdr old cs s t cmd) (hne : c.data ≠ []) (hapart : c.apart = true)
    (hlt : cmd.length + c.data.length < 2 ^ 16) {dupBuf : Option Bytes}
    (hdup : dupBuf = s.dupBuf ∧ c.dup = false ∨
      s.dupBuf = none ∧ dupBuf = some (c.data.drop (minCopy s.copySize c.data.length))) :
    Agrees hdr old (cs ++ [c]) {
      copySize := (s.copySize + minCopy s.copySize c.data.length) % 2 ^ 16
      cmdSize := (s.cmdSize + c.data.length) % 2 ^ 16
      hadNocopy := true
      dupBuf := dupBuf
      rest := s.rest ++ [c.data.drop (minCopy s.copySize c.data.length)] } (copyChunk t c)
      (cmd ++ c.data) := by
  have hle := h.le
  have hmin := minCopy_le s.copySize c.data.length
  have hcopy : copyChunk t c = {
      outCmd := t.outCmd.write t.cmdPos
        (c.data.take (min (tfdMaxPayloadSize - t.cmdPos) c.data.length))
      cmdPos := t.cmdPos + min (tfdMaxPayloadSize - t.cmdPos) c.data.length
      copySize := (t.copySize + minCopy t.copySize c.data.length) % 2 ^ 16 } := by
    rw [copyChunk, if_neg hne, hapart]
    rfl
  have hsize : (s.copySize + minCopy s.copySize c.data.length) % 2 ^ 16 =
      s.copySize + minCopy s.copySize c.data.length := Nat.mod_eq_of_lt (by omega)
  have hpos := h.cmdPos
  -- what is written of the chunk
  generalize hcopied : min (tfdMaxPayloadSize - t.cmdPos) c.data.length = copied at hcopy
  have hcopiedLe : copied ≤ c.data.length := hcopied ▸ Nat.min_le_right ..
  rw [hcopy, hsize]
  refine ⟨?_, ?_, ?_, ?_, ?_, ?_, ?_, ?_, ?_, ?_, ?_⟩
  · rw [h.cmd_eq, List.flatMap_append, List.flatMap_singleton, List.append_assoc]
  · dsimp only
    rw [h.cmdSize, List.length_append, Nat.mod_eq_of_lt hlt]
  · dsimp only
    rw [h.copySize, hsize]
  · dsimp only
    rw [List.length_append]
    omega
  · intro hshort
    have hall := h.all
    simp only [Bool.true_eq_false, or_false, minCopy] at hshort hall ⊢
    rw [List.length_append]
    split at hshort
    · rename_i hlow
      rw [if_pos hlow]
      have := hall (.inl hlow)
      omega
    · omega
  · dsimp only
    rw [List.length_append]
    omega
  · have htake : (c.data.take copied).length = copied := by
      rw [List.length_take, Nat.min_eq_left hcopiedLe]
    have hread := read_write_behind t.outCmd t.cmdPos (c.data.take copied)
    rw [htake] at hread
    dsimp only
    rw [hread, h.copied, List.take_append]
    rcases Nat.le_total cmd.length tfdMaxPayloadSize with hin | hout
    · rw [hpos.trans (Nat.min_eq_right hin), List.take_length,
        List.take_of_length_le (Nat.le_add_right ..), Nat.add_sub_cancel_left]
    · obtain rfl : copied = 0 := by omega
      rw [Nat.add_zero, show t.cmdPos - cmd.length = 0 by omega]
  · intro a ha
    dsimp only
    rw [Memory.write_of_le _ _ (by rw [List.length_take]; omega)]
    exact h.outside a ha
  · dsimp only
    rw [apartBytes_concat h.rest, if_pos hapart]
    by_cases hlow : s.copySize < iwlFirstTbSize
    · have hall := h.all (.inl hlow)
      rw [h.apartBytes_eq hall, hall, List.nil_append, List.take_append,
        List.take_of_length_le (Nat.le_add_right ..), Nat.add_sub_cancel_left, List.append_assoc,
        List.take_append_drop]
    · rw [minCopy, if_neg hlow, Nat.add_zero, List.drop_zero, List.take_append_of_le_length hle,
        ← List.append_assoc, h.tail]
  · dsimp only
    rw [List.length_append, List.length_append, h.rest]
    rfl
  · intro x hx hxdup hxne
    rw [zip_concat h.rest, List.mem_append, List.mem_singleton] at hx
    rcases hx with hx | rfl
    · rcases hdup with ⟨rfl, -⟩ | ⟨hnone, -⟩
      · exact h.dup x hx hxdup hxne
      · exact absurd ((h.dup x hx hxdup hxne).symm.trans hnone) (Option.some_ne_none _)
    · rcases hdup with ⟨-, hno⟩ | ⟨-, rfl⟩
      · exact absurd (hxdup.symm.trans hno) Bool.noConfusion
      · rfl

/-- A chunk that is copied. -/
theorem agrees_copied (h : Agrees hdr old cs s t cmd) (hne : c.data ≠ []) (hapart : c.apart = false)
    (hhad : s.hadNocopy = false) (hlt : cmd.length + c.data.length < 2 ^ 16)
    (hfits : cmd.length + c.data.length ≤ tfdMaxPayloadSize) :
    Agrees hdr old (cs ++ [c]) { s with
      copySize := ((s.copySize + minCopy s.copySize c.data.length) % 2 ^ 16 +
        (c.data.drop (minCopy s.copySize c.data.length)).length) % 2 ^ 16
      cmdSize := (s.cmdSize + c.data.length) % 2 ^ 16
      rest := s.rest ++ [c.data.drop (minCopy s.copySize c.data.length)] } (copyChunk t c)
      (cmd ++ c.data) := by
  have hall := h.all (.inr hhad)
  have hmin := minCopy_le s.copySize c.data.length
  have hcopy : copyChunk t c = {
      outCmd := t.outCmd.write t.cmdPos c.data
      cmdPos := t.cmdPos + c.data.length
      copySize := (t.copySize + c.data.length) % 2 ^ 16 } := by
    rw [copyChunk, if_neg hne, hapart]
    rfl
  have hsize : ((s.copySize + minCopy s.copySize c.data.length) % 2 ^ 16 +
      (c.data.drop (minCopy s.copySize c.data.length)).length) % 2 ^ 16 =
      (cmd ++ c.data).length := by
    rw [List.length_drop, List.length_append]
    omega
  have hpos : t.cmdPos = cmd.length := by
    rw [h.cmdPos]
    exact Nat.min_eq_right (by omega)
  have hcopied := h.copied
  rw [hpos, List.take_length] at hcopied
  rw [hcopy, hsize]
  refine ⟨?_, ?_, ?_, le_rfl, fun _ => rfl, ?_, ?_, ?_, ?_, ?_, ?_⟩
  · rw [h.cmd_eq, List.flatMap_append, List.flatMap_singleton, List.append_assoc]
  · dsimp only
    rw [h.cmdSize, List.length_append, Nat.mod_eq_of_lt hlt]
  · dsimp only
    rw [h.copySize, hall, List.length_append, Nat.mod_eq_of_lt hlt]
  · dsimp only
    rw [hpos, List.length_append]
    exact (Nat.min_eq_right hfits).symm
  · dsimp only
    rw [hpos, read_write_behind, hcopied, ← List.length_append, List.take_length]
  · intro a ha
    dsimp only
    rw [Memory.write_of_le _ _ (by omega)]
    exact h.outside a ha
  · dsimp only
    rw [apartBytes_concat h.rest, hapart, h.apartBytes_eq hall, List.take_length]
    exact List.append_nil _
  · dsimp only
    rw [List.length_append, List.length_append, h.rest]
    rfl
  · intro x hx hxdup hxne
    rw [zip_concat h.rest, List.mem_append, List.mem_singleton] at hx
    rcases hx with hx | rfl
    · exact h.dup x hx hxdup hxne
    · rw [HcmdChunk.apart, hxdup, Bool.or_true] at hapart
      cases hapart

/-- **A chunk** keeps the two loops together, as long as what is copied fits. -/
theorem agrees_step (h : Agrees hdr old cs s t cmd) (hscan : scanChunk alloc s c = .ok s')
    (hlt : cmd.length + c.data.length < 2 ^ 16) (hfits : s'.copySize ≤ tfdMaxPayloadSize) :
    Agrees hdr old (cs ++ [c]) s' (copyChunk t c) (cmd ++ c.data) := by
  rcases scanChunk_cases hscan with ⟨hnil, rfl⟩ | ⟨hne, hapart, dupBuf, hdup, rfl⟩ |
    ⟨hne, hapart, hhad, rfl⟩
  · rw [hnil, List.append_nil]
    exact agrees_nil h hnil
  · exact agrees_apart h hne hapart hlt hdup
  · refine agrees_copied h hne hapart hhad hlt ?_
    have hmin := minCopy_le s.copySize c.data.length
    have hall := h.all (.inr hhad)
    dsimp only at hfits
    rw [List.length_drop] at hfits
    omega

/-- **All chunks.** -/
theorem agrees_run {rest : List HcmdChunk} (h : Agrees hdr old cs s t cmd)
    (hscan : scanChunks alloc s rest = .ok s')
    (hlt : cmd.length + (rest.flatMap HcmdChunk.data).length < 2 ^ 16)
    (hfits : s'.copySize ≤ tfdMaxPayloadSize) :
    Agrees hdr old (cs ++ rest) s' (copyChunks t rest) (cmd ++ rest.flatMap HcmdChunk.data) := by
  induction rest generalizing cs s t cmd with
  | nil =>
    obtain rfl := Except.ok.inj hscan
    rw [List.append_nil, List.flatMap_nil, List.append_nil]
    exact h
  | cons c rest ih =>
    rw [List.flatMap_cons, List.length_append] at hlt
    rw [scanChunks] at hscan
    split at hscan
    · cases hscan
    · rename_i s₁ hs₁
      have hle := h.le
      obtain ⟨-, hle₁⟩ := scanChunk_copySize hs₁ (by omega)
      have hmono := scanChunks_copySize hscan (by omega)
      have hstep := agrees_step h hs₁ (by omega) (hmono.trans hfits)
      have hrun := ih hstep hscan (by rw [List.length_append]; omega)
      rw [List.append_assoc, List.append_assoc] at hrun
      exact hrun

/-- The fragments of the chunks that are kept apart. -/
theorem flatten_chunkTb (h : Agrees hdr old cs s t cmd) :
    ((cs.zip s.rest).flatMap fun x => chunkTb s.dupBuf x.1 x.2).flatten =
      apartBytes cs s.rest := by
  rw [apartBytes, List.flatMap_def, List.flatMap_def, List.flatten_flatten, List.map_map]
  refine congrArg List.flatten (List.map_congr_left fun x hx => ?_)
  simp only [Function.comp_apply, chunkTb]
  by_cases hnil : x.2 = []
  · rw [if_pos hnil, hnil, ite_self]
    rfl
  · rw [if_neg hnil]
    cases hapart : x.1.apart with
    | false => rfl
    | true =>
      cases hdup : x.1.dup with
      | false => exact List.append_nil x.2
      | true =>
        rw [h.dup x hx hdup hnil]
        exact List.append_nil x.2

/-- The fragments are the command. -/
theorem flatten_tbsOf (h : Agrees hdr old cs s t cmd) (hfits : s.copySize ≤ tfdMaxPayloadSize) :
    (tbsOf s t cs).flatten = cmd := by
  have hle := h.le
  have hpos := h.cmdPos
  have hhead : t.outCmd.read 0 s.copySize = cmd.take s.copySize := by
    obtain ⟨k, hk⟩ := Nat.exists_eq_add_of_le (show s.copySize ≤ t.cmdPos by omega)
    have hread := congrArg (List.take s.copySize) h.copied
    rw [List.take_take, Nat.min_eq_left (by omega), hk, Memory.read_add] at hread
    rwa [List.take_left' (t.outCmd.length_read ..)] at hread
  have hsplit : t.outCmd.read 0 (min t.copySize iwlFirstTbSize) ++
      (if min t.copySize iwlFirstTbSize < t.copySize then
        [t.outCmd.read (min t.copySize iwlFirstTbSize)
          (t.copySize - min t.copySize iwlFirstTbSize)] else []).flatten =
        cmd.take s.copySize := by
    rw [← hhead, ← h.copySize]
    split
    · rename_i hmore
      rw [List.flatten_singleton]
      have hadd := t.outCmd.read_add 0 (min t.copySize iwlFirstTbSize)
        (t.copySize - min t.copySize iwlFirstTbSize)
      rw [Nat.zero_add, Nat.add_sub_cancel' hmore.le] at hadd
      exact hadd.symm
    · rename_i hall
      rw [Nat.min_eq_left (by omega)]
      exact List.append_nil _
  rw [tbsOf, List.flatten_cons, List.flatten_append, ← List.append_assoc, hsplit,
    flatten_chunkTb h, h.tail]

end Loops

/-- A chunk that is copied in front of one that is not. -/
def twoChunks : List HcmdChunk :=
  [⟨[1, 2, 3, 4], false, false, by decide⟩, ⟨List.replicate 40 7, true, false, by decide⟩]

end Iax.Queue
