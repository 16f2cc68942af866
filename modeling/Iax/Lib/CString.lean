import Iax.Lib.Memory
import Mathlib.Data.List.TakeWhile

/-!
# C strings and the numbers in them

A string in memory ends at its first zero byte. The functions of the C library that parse one are
written as their documentation has it.

* `CString`: a string as a value, `Memory.cstring`: the one at an address.
* `atoi`: a decimal number, `atoi_of_isDigit`: what it makes of digits only.
-/

namespace Iax

/-- A string without its zero byte. -/
structure CString where
  bytes : Bytes
  zero_notMem : 0 ∉ bytes

/-- A text and the first byte that fails a test. -/
theorem takeWhile_cases (p : UInt8 → Bool) (s : Bytes) :
    s.takeWhile p = s ∧ s.dropWhile p = [] ∨
      ∃ b rest, s.dropWhile p = b :: rest ∧ p b = false ∧ s = s.takeWhile p ++ b :: rest := by
  have hsplit := List.takeWhile_append_dropWhile (p := p) (l := s)
  cases hdrop : s.dropWhile p with
  | nil => exact .inl ⟨by rwa [hdrop, List.append_nil] at hsplit, rfl⟩
  | cons b rest =>
    have hne : s.dropWhile p ≠ [] := by rw [hdrop]; exact List.cons_ne_nil b rest
    have hnot := List.head_dropWhile_not p hne
    simp only [hdrop, List.head_cons] at hnot
    rw [hdrop] at hsplit
    exact .inr ⟨b, rest, rfl, hnot, hsplit.symm⟩

/-! ## Strings in memory -/

namespace Memory

variable {mem : Memory}

/-- The string at an address, looked for in at most `n` bytes. -/
def cstring (mem : Memory) : ℕ → ℕ → Bytes
  | 0, _ => []
  | n + 1, pos => if mem pos = 0 then [] else mem pos :: cstring mem n (pos + 1)

/-- A string that a zero follows is read as it is. -/
theorem cstring_eq {s : Bytes} {n pos : ℕ} (hs : 0 ∉ s) (hread : mem.read pos s.length = s)
    (hend : mem (pos + s.length) = 0) (hn : s.length < n) : mem.cstring n pos = s := by
  induction s generalizing n pos with
  | nil =>
    obtain ⟨n, rfl⟩ := Nat.exists_eq_add_of_lt hn
    exact if_pos hend
  | cons b s ih =>
    obtain ⟨n, rfl⟩ : ∃ k, n = k + 1 := ⟨n - 1, by omega⟩
    have hsplit : mem.read pos (1 + s.length) = mem.read pos 1 ++ mem.read (pos + 1) s.length :=
      read_add mem pos 1 s.length
    have hfirst : mem.read pos 1 = [mem pos] := rfl
    rw [List.length_cons, Nat.add_comm, hsplit, hfirst, List.singleton_append,
      List.cons_eq_cons] at hread
    obtain ⟨hb, hrest⟩ := hread
    rw [List.mem_cons, not_or] at hs
    have hpos : pos + (b :: s).length = pos + 1 + s.length := by
      rw [List.length_cons]
      omega
    rw [hpos] at hend
    rw [cstring, hb, if_neg (Ne.symm hs.1), ih hs.2 hrest hend (by simpa using hn)]

end Memory

namespace CString

/-! ## Decimal numbers -/

/-- `isspace`. -/
def isSpace (b : UInt8) : Bool := b == 32 || (9 ≤ b && b ≤ 13)

/-- `isdigit`. -/
def isDigit (b : UInt8) : Bool := 48 ≤ b && b ≤ 57

def digitVal (b : UInt8) : ℕ := b.toNat - 48

/-- The digit of a value. -/
def digitChar (d : ℕ) : UInt8 := UInt8.ofNat (48 + d)

/-- The value of decimal digits. -/
def decimal (ds : Bytes) : ℕ := ds.foldl (fun n b => 10 * n + digitVal b) 0

/-- The number that `strtol` reads in base ten, between the least and the greatest `long`. -/
def strtol (s : Bytes) : ℤ :=
  match s.dropWhile isSpace with
  | [] => 0
  | b :: t =>
    if b = 45 then max (-2 ^ 63) (-(decimal (t.takeWhile isDigit) : ℤ))
    else if b = 43 then min (2 ^ 63 - 1) (decimal (t.takeWhile isDigit))
    else min (2 ^ 63 - 1) (decimal ((b :: t).takeWhile isDigit))

/-- `atoi`, an `int`. -/
def atoi (s : Bytes) : BitVec 32 := BitVec.ofInt 32 (strtol s)

theorem isDigit_iff {b : UInt8} : isDigit b = true ↔ 48 ≤ b.toNat ∧ b.toNat ≤ 57 := by
  rw [isDigit, Bool.and_eq_true, decide_eq_true_eq, decide_eq_true_eq, UInt8.le_iff_toNat_le,
    UInt8.le_iff_toNat_le]
  rfl

theorem ne_of_isDigit {b c : UInt8} (hb : isDigit b = true) (hc : isDigit c = false) : b ≠ c := by
  rintro rfl
  rw [hb] at hc
  cases hc

theorem isSpace_of_isDigit {b : UInt8} (hb : isDigit b = true) : isSpace b = false := by
  obtain ⟨hlow, hhigh⟩ := isDigit_iff.1 hb
  have hne : (b == 32) = false := beq_eq_false_iff_ne.2 (ne_of_isDigit hb (by decide))
  have hgt : decide (b ≤ 13) = false := by
    rw [decide_eq_false_iff_not, UInt8.le_iff_toNat_le]
    exact Nat.not_le.2 (Nat.lt_of_lt_of_le (by decide) hlow)
  rw [isSpace, hne, hgt, Bool.and_false, Bool.or_false]

theorem digitVal_lt {b : UInt8} (hb : isDigit b = true) : digitVal b < 10 := by
  obtain ⟨hlow, hhigh⟩ := isDigit_iff.1 hb
  rw [digitVal]
  omega

/-- A digit is given by its value. -/
theorem digitChar_digitVal {b : UInt8} (hb : isDigit b = true) : digitChar (digitVal b) = b := by
  obtain ⟨hlow, hhigh⟩ := isDigit_iff.1 hb
  have hsum : 48 + digitVal b = b.toNat := by
    rw [digitVal]
    omega
  rw [digitChar, hsum, UInt8.ofNat_toNat]

theorem isDigit_digitChar {d : ℕ} (hd : d < 10) : isDigit (digitChar d) = true := by
  revert d
  decide

theorem digitVal_digitChar {d : ℕ} (hd : d < 10) : digitVal (digitChar d) = d := by
  revert d
  decide

/-- A number written in digits only. -/
theorem atoi_of_isDigit {s : Bytes} (hs : ∀ b ∈ s, isDigit b = true) (hlt : decimal s < 2 ^ 63) :
    atoi s = BitVec.ofNat 32 (decimal s) := by
  have hdecimal : (decimal s : ℤ) < 2 ^ 63 := by exact_mod_cast hlt
  have hstrtol : strtol s = decimal s := by
    cases s with
    | nil => rfl
    | cons b t =>
      have hb : isDigit b = true := hs b List.mem_cons_self
      have hspace : isSpace b = false := isSpace_of_isDigit hb
      have hminus : b ≠ 45 := ne_of_isDigit hb (by decide)
      have hplus : b ≠ 43 := ne_of_isDigit hb (by decide)
      have hall : (b :: t).takeWhile isDigit = b :: t := List.takeWhile_eq_self_iff.2 hs
      rw [strtol, List.dropWhile_cons_of_neg (by rw [hspace]; decide)]
      dsimp only
      rw [if_neg hminus, if_neg hplus, hall]
      omega
  rw [atoi, hstrtol, BitVec.ofInt_natCast]

end CString

end Iax
