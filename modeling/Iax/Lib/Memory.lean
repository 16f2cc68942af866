import Iax.Lib.Bytes
import Mathlib.Data.List.Basic

/-!
# Byte-addressed memory

A memory has a byte at every address, so that a program that reads past the end of an object gets
whatever is there.

* `read mem pos n`: `n` bytes from `pos` on. Reads compose (`read_add`).
* `write mem pos bs`: reads inside what was written, and away from it (`read_write`,
  `read_write_of_le`, `read_write_below`).
* `readLe`, `writeLe`: little-endian words.
-/

namespace Iax

/-- A byte at every address. -/
abbrev Memory := ℕ → UInt8

namespace Memory

/-- `n` bytes from `pos` on. -/
def read (mem : Memory) (pos n : ℕ) : Bytes := (List.range n).map fun i => mem (pos + i)

/-- The bytes from `pos` on replaced. -/
def write (mem : Memory) (pos : ℕ) (bs : Bytes) : Memory := fun a =>
  if pos ≤ a then bs.getD (a - pos) (mem a) else mem a

variable (mem : Memory) (pos : ℕ)

@[simp] theorem length_read (n : ℕ) : (mem.read pos n).length = n := by
  simp [read]

theorem read_add (m n : ℕ) : mem.read pos (m + n) = mem.read pos m ++ mem.read (pos + m) n := by
  simp [read, List.range_add, Function.comp_def, Nat.add_assoc]

theorem getElem_read {n i : ℕ} (h : i < (mem.read pos n).length) :
    (mem.read pos n)[i] = mem (pos + i) := by
  simp [read]

theorem read_congr {mem mem' : Memory} {pos n : ℕ} (h : ∀ i < n, mem (pos + i) = mem' (pos + i)) :
    mem.read pos n = mem'.read pos n :=
  List.map_congr_left fun i hi => h i (List.mem_range.1 hi)

theorem write_of_lt {bs : Bytes} {a : ℕ} (h : a < pos) : mem.write pos bs a = mem a :=
  if_neg (Nat.not_le.2 h)

theorem write_of_le {bs : Bytes} {a : ℕ} (h : pos + bs.length ≤ a) : mem.write pos bs a = mem a := by
  rw [write, if_pos (by omega), List.getD_eq_default _ _ (by omega)]

/-- What is read inside the bytes written. -/
theorem read_write {bs : Bytes} {off n : ℕ} (h : off + n ≤ bs.length) :
    (mem.write pos bs).read (pos + off) n = (bs.drop off).take n := by
  refine List.ext_getElem (by simp; omega) fun i hi _ => ?_
  rw [length_read] at hi
  have hin : off + i < bs.length := by omega
  rw [getElem_read, write, if_pos (by omega), show pos + off + i - pos = off + i by omega]
  simp [hin]

/-- What is read behind them. -/
theorem read_write_of_le {bs : Bytes} {off n : ℕ} (h : bs.length ≤ off) :
    (mem.write pos bs).read (pos + off) n = mem.read (pos + off) n := by
  refine List.ext_getElem (by simp) fun i hi _ => ?_
  have hout : bs.length ≤ off + i := by omega
  rw [getElem_read, getElem_read, write, if_pos (by omega),
    show pos + off + i - pos = off + i by omega, List.getD_eq_default _ _ hout]

/-- What is read in front of them. -/
theorem read_write_below {bs : Bytes} {off n : ℕ} (h : off + n ≤ pos) :
    (mem.write pos bs).read off n = mem.read off n := by
  refine List.ext_getElem (by simp) fun i hi _ => ?_
  rw [length_read] at hi
  rw [getElem_read, getElem_read, write, if_neg (by omega)]

/-- The bytes written, and nothing else, when all of them are read. -/
theorem read_write_self (bs : Bytes) : (mem.write pos bs).read pos bs.length = bs := by
  have h := read_write mem pos (show 0 + bs.length ≤ bs.length by omega)
  simpa using h

/-- A byte away from them. -/
theorem write_of_disjoint {bs : Bytes} {a : ℕ} (h : a < pos ∨ pos + bs.length ≤ a) :
    mem.write pos bs a = mem a :=
  h.elim (write_of_lt mem pos) (write_of_le mem pos)

/-- A byte that is written. -/
theorem write_singleton_self (b : UInt8) : mem.write pos [b] pos = b := by
  rw [write, if_pos le_rfl, Nat.sub_self]
  rfl

/-! ## Words -/

/-- The little-endian number of `n` bytes. -/
def readLe (n : ℕ) : ℕ := Bytes.leNat (mem.read pos n)

/-- The low `n` bytes of a number. -/
def writeLe (n v : ℕ) : Memory := mem.write pos (Bytes.leBytes n v)

theorem readLe_writeLe (n v : ℕ) : (mem.writeLe pos n v).readLe pos n = v % 256 ^ n := by
  have hself := read_write_self mem pos (Bytes.leBytes n v)
  rw [Bytes.length_leBytes] at hself
  rw [readLe, writeLe, hself, Bytes.leNat_leBytes]

/-- A word away from the bytes written. -/
theorem readLe_write_of_disjoint {bs : Bytes} {off n : ℕ}
    (h : off + n ≤ pos ∨ pos + bs.length ≤ off) :
    (mem.write pos bs).readLe off n = mem.readLe off n := by
  rw [readLe, readLe]
  rcases h with hbelow | habove
  · rw [read_write_below mem pos hbelow]
  · obtain ⟨k, rfl⟩ := Nat.exists_eq_add_of_le (Nat.le_trans (Nat.le_add_right _ _) habove)
    rw [read_write_of_le mem pos (by omega)]

end Memory

end Iax
