import Iax.Lib.Bytes
import Iax.Matlab.Index

/-!
# The endian helpers

`endian.m` reads words from the first bytes of an array. MATLAB's integer types saturate: a sum or
a product that leaves the range of its type becomes the nearest end of the range. Each helper is
shown to read exactly the bytes it is named after (`le16u_eq`, `le32u_eq`, `le64u_eq`, `le16i_eq`,
`be16u_eq`, `be32u_eq`, `be32i_eq`), and to fail on a shorter array.
-/

namespace Iax.Matlab

open Bytes

/-! ## The helpers -/

/-- Addition in an unsigned type of `w` bits. -/
def satAdd (w a b : ℕ) : ℕ := min (a + b) (2 ^ w - 1)

/-- Multiplication in an unsigned type of `w` bits. -/
def satMul (w a b : ℕ) : ℕ := min (a * b) (2 ^ w - 1)

/-- `swapbytes` of an unsigned word of `k` bytes. -/
def swapbytes (k n : ℕ) : ℕ := leNat (leBytes k n).reverse

/-- `swapbytes` of a signed word of `k` bytes. -/
def swapbytesI (k : ℕ) (z : ℤ) : ℤ := signed (8 * k) (swapbytes k (z % 2 ^ (8 * k)).toNat)

/-- `endian.le16u`. -/
def le16u (s : Bytes) : Except MatErr ℕ := do
  let s1 ← elem s 1
  let s2 ← elem s 2
  return satAdd 16 s1.toNat (satMul 16 s2.toNat 256)

/-- `endian.le32u`. -/
def le32u (s : Bytes) : Except MatErr ℕ := do
  let lo ← le16u (← range s 1 2)
  let hi ← le16u (← range s 3 4)
  return satAdd 32 lo (satMul 32 hi (256 ^ 2))

/-- `endian.le64u`. -/
def le64u (s : Bytes) : Except MatErr ℕ := do
  let lo ← le32u (← range s 1 4)
  let hi ← le32u (← range s 5 8)
  return satAdd 64 lo (satMul 64 hi (256 ^ 4))

/-- `endian.le16i`. -/
def le16i (s : Bytes) : Except MatErr ℤ := do return signed 16 (← le16u s)

/-- `endian.le32i`. -/
def le32i (s : Bytes) : Except MatErr ℤ := do return signed 32 (← le32u s)

/-- `endian.be16u`. -/
def be16u (s : Bytes) : Except MatErr ℕ := do return swapbytes 2 (← le16u s)

/-- `endian.be32u`. -/
def be32u (s : Bytes) : Except MatErr ℕ := do return swapbytes 4 (← le32u s)

/-- `endian.be32i`. -/
def be32i (s : Bytes) : Except MatErr ℤ := do return swapbytesI 4 (← le32i s)

/-! ## What they read -/

theorem le16u_eq {s : Bytes} (h : s.length = 2) : le16u s = .ok (leNat s) := by
  match s, h with
  | [a, b], _ =>
    have ha := a.toNat_lt
    have hb := b.toNat_lt
    have hsum : satAdd 16 a.toNat (satMul 16 b.toNat 256) = leNat [a, b] := by
      simp only [satAdd, satMul, leNat_cons, leNat_nil]
      omega
    rw [← hsum]
    rfl

theorem le32u_eq {s : Bytes} (h : s.length = 4) : le32u s = .ok (leNat s) := by
  match s, h with
  | [a, b, c, d], _ =>
    have hlo : leNat [a, b] < 256 ^ 2 := leNat_lt [a, b]
    have hhi : leNat [c, d] < 256 ^ 2 := leNat_lt [c, d]
    have hsum : satAdd 32 (leNat [a, b]) (satMul 32 (leNat [c, d]) (256 ^ 2)) =
        leNat [a, b, c, d] := by
      rw [show [a, b, c, d] = [a, b] ++ [c, d] from rfl, leNat_append]
      simp only [satAdd, satMul, List.length_cons, List.length_nil]
      omega
    rw [← hsum]
    have h1 : range [a, b, c, d] 1 2 = .ok [a, b] := range_head [a, b] [c, d] rfl
    have h2 : range [a, b, c, d] 3 4 = .ok [c, d] := range_tail [a, b] [c, d] rfl rfl
    simp only [le32u, h1, h2, bind, Except.bind, le16u_eq (s := [a, b]) rfl,
      le16u_eq (s := [c, d]) rfl]
    rfl

theorem le64u_eq {s : Bytes} (h : s.length = 8) : le64u s = .ok (leNat s) := by
  obtain ⟨lo, hi, rfl, hlo, hhi⟩ : ∃ lo hi, s = lo ++ hi ∧ lo.length = 4 ∧ hi.length = 4 :=
    ⟨s.take 4, s.drop 4, (List.take_append_drop 4 s).symm, by simp [h], by simp [h]⟩
  have hl := leNat_lt lo
  have hh := leNat_lt hi
  rw [hlo] at hl
  rw [hhi] at hh
  have hsum : satAdd 64 (leNat lo) (satMul 64 (leNat hi) (256 ^ 4)) = leNat (lo ++ hi) := by
    rw [leNat_append, hlo]
    simp only [satAdd, satMul]
    omega
  rw [← hsum]
  have h1 : range (lo ++ hi) 1 4 = .ok lo := range_head lo hi (by simp [hlo])
  have h2 : range (lo ++ hi) 5 8 = .ok hi :=
    range_tail lo hi (by simp [hlo]) (by simp [hlo, hhi])
  simp only [le64u, h1, h2, bind, Except.bind, le32u_eq hlo, le32u_eq hhi]
  rfl

theorem le16i_eq {s : Bytes} (h : s.length = 2) : le16i s = .ok (signed 16 (leNat s)) := by
  simp only [le16i, le16u_eq h]
  rfl

theorem swapbytes_leNat (s : Bytes) : swapbytes s.length (leNat s) = beNat s := by
  rw [swapbytes, leBytes_leNat, beNat]

theorem be16u_eq {s : Bytes} (h : s.length = 2) : be16u s = .ok (beNat s) := by
  have hswap := swapbytes_leNat s
  rw [h] at hswap
  simp only [be16u, le16u_eq h, bind, Except.bind, hswap]
  rfl

/-- On fewer than two bytes a 16-bit word cannot be read. -/
theorem be16u_eq_error {s : Bytes} (h : s.length < 2) : be16u s = .error .badSubscript := by
  match s, h with
  | [], _ => rfl
  | [_], _ => rfl

theorem be16u_beBytes {n : ℕ} (h : n < 2 ^ 16) : be16u (beBytes 2 n) = .ok n := by
  rw [be16u_eq (length_beBytes 2 n), beNat_beBytes_of_lt (by norm_num; exact h)]

theorem be32u_eq {s : Bytes} (h : s.length = 4) : be32u s = .ok (beNat s) := by
  have hswap := swapbytes_leNat s
  rw [h] at hswap
  simp only [be32u, le32u_eq h, bind, Except.bind, hswap]
  rfl

theorem be32i_eq {s : Bytes} (h : s.length = 4) : be32i s = .ok (signed 32 (beNat s)) := by
  have hswap := swapbytes_leNat s
  have hlt := leNat_lt s
  rw [h] at hswap hlt
  -- the two's complement reading, taken modulo 2 ^ 32, is the word again
  have hback : (signed 32 (leNat s) % 2 ^ (8 * 4)).toNat = leNat s := by
    rcases Nat.lt_or_ge (leNat s) (2 ^ 31) with hlo | hhi
    · rw [signed_of_lt (by omega) hlo]
      omega
    · rw [signed_of_le (by omega) hhi (by omega)]
      omega
  simp only [be32i, le32i, le32u_eq h, bind, Except.bind, pure, Except.pure, swapbytesI, hback,
    hswap]

/-- On fewer than four bytes a 32-bit word cannot be read. -/
theorem be32i_eq_error {s : Bytes} (h : s.length < 4) : be32i s = .error .badSubscript := by
  match s, h with
  | [], _ => rfl
  | [_], _ => rfl
  | [_, _], _ => rfl
  | [_, _, _], _ => rfl

theorem be32u_beBytes {n : ℕ} (h : n < 2 ^ 32) : be32u (beBytes 4 n) = .ok n := by
  rw [be32u_eq (length_beBytes 4 n), beNat_beBytes_of_lt (by norm_num; exact h)]

theorem be32i_beBytes {n : ℕ} (hn : n < 2 ^ 32) : be32i (beBytes 4 n) = .ok (signed 32 n) := by
  rw [be32i_eq (length_beBytes 4 n), beNat_beBytes_of_lt (by norm_num; exact hn)]

end Iax.Matlab
