import Iax.Lib.Bytes
import Mathlib.Data.List.Basic

/-!
# Reading a file through a C stream

A stream over a regular file that nobody writes to: its bytes, the position and the end-of-file
indicator. `fread` sets the indicator when it delivers less than it was asked for, and `fseek`
clears it; the position may go past the end, where nothing is read.
-/

namespace Iax

/-- A stream on a file. -/
structure CFile where
  data : Bytes
  pos : ℕ
  eof : Bool

namespace CFile

/-- `fopen` for reading. -/
def fopen (data : Bytes) : CFile := { data := data, pos := 0, eof := false }

/-- What is left to read. -/
def rest (f : CFile) : Bytes := f.data.drop f.pos

/-- `fread` of `n` bytes: those delivered, and the stream after it. -/
def fread (f : CFile) (n : ℕ) : Bytes × CFile :=
  let got := f.rest.take n
  (got, { f with pos := f.pos + got.length, eof := f.eof || got.length < n })

/-- `fseek` by `n` bytes from the current position. -/
def fseek (f : CFile) (n : ℕ) : CFile := { f with pos := f.pos + n, eof := false }

variable (f : CFile) (n : ℕ)

@[simp] theorem fread_data : (f.fread n).2.data = f.data := rfl

theorem le_fread_pos : f.pos ≤ (f.fread n).2.pos := Nat.le_add_right _ _

theorem le_fseek_pos : f.pos ≤ (f.fseek n).pos := Nat.le_add_right _ _

/-- A read that leaves the indicator clear was delivered in full. -/
theorem fread_pos_le (h : (f.fread n).2.eof = false) : f.pos + n ≤ max f.pos f.data.length := by
  simp only [fread, rest, Bool.or_eq_false_iff, decide_eq_false_iff_not, List.length_take,
    List.length_drop] at h
  omega

variable {f n}

/-- A read of something that is there. -/
theorem fread_append {bs post : Bytes} (h : f.rest = bs ++ post) :
    f.fread bs.length = (bs, { f with pos := f.pos + bs.length }) := by
  simp only [fread, h, List.take_left, Nat.lt_irrefl, decide_false, Bool.or_false]

/-- A read of more than is there delivers the rest and sets the indicator. -/
theorem fread_short (h : f.rest.length < n) :
    f.fread n = (f.rest, { f with pos := f.pos + f.rest.length, eof := true }) := by
  simp only [fread, List.take_of_length_le h.le, h, decide_true, Bool.or_true]

theorem rest_advance {bs post : Bytes} (eof : Bool) (h : f.rest = bs ++ post) :
    rest { f with pos := f.pos + bs.length, eof := eof } = post := by
  rw [rest, ← List.drop_drop]
  change (f.rest.drop bs.length) = post
  rw [h, List.drop_left]

end CFile

end Iax
