import Iax.Lib.Bytes
import Mathlib.Tactic.IntervalCases

/-!
# Bit strings in bytes

A byte string is a bit string, least significant bit of each byte first. `bitsAt p k` are the eight
bits from bit `k` on. Two ways to read them are shown to be exact: joining two neighbouring bytes
(`bitsAt_of_bytes`), and a window of little-endian words that is shifted down (`bitsAt_of_window`).
-/

namespace Iax

namespace Bytes

/-! ## Parts of a byte string -/

theorem leNat_drop (p : Bytes) (n : ℕ) : leNat (p.drop n) = leNat p / 256 ^ n := by
  induction n generalizing p with
  | zero => simp
  | succ n ih =>
    cases p with
    | nil => simp
    | cons b bs =>
      have hb := b.toNat_lt
      rw [List.drop_succ_cons, ih, leNat_cons, pow_succ', ← Nat.div_div_eq_div_mul]
      congr 1
      omega

theorem leNat_take (p : Bytes) (n : ℕ) : leNat (p.take n) = leNat p % 256 ^ n := by
  rcases Nat.le_total p.length n with h | h
  · have hlt := leNat_lt p
    rw [List.take_of_length_le h, Nat.mod_eq_of_lt]
    exact hlt.trans_le (Nat.pow_le_pow_right (by omega) h)
  · have hlt := leNat_lt (p.take n)
    have happ := leNat_append (p.take n) (p.drop n)
    rw [List.take_append_drop, List.length_take_of_le h] at happ
    rw [List.length_take_of_le h] at hlt
    rw [happ, Nat.add_mul_mod_self_left, Nat.mod_eq_of_lt hlt]

theorem toNat_getElem (p : Bytes) (i : ℕ) (h : i < p.length) :
    p[i].toNat = leNat p / 256 ^ i % 256 := by
  have hb := p[i].toNat_lt
  rw [← leNat_drop, List.drop_eq_getElem_cons h, leNat_cons]
  omega

/-! ## Eight bits at a bit offset -/

/-- The eight bits from bit `k` on. -/
def bitsAt (p : Bytes) (k : ℕ) : ℕ := leNat p / 2 ^ k % 256

theorem two_pow_eight_mul (n : ℕ) : 2 ^ (8 * n) = 256 ^ n := by
  rw [pow_mul]
  norm_num

/-- Bits inside a string do not depend on what follows it. -/
theorem bitsAt_append (p q : Bytes) {k : ℕ} (h : k + 8 ≤ 8 * p.length) :
    bitsAt (p ++ q) k = bitsAt p k := by
  obtain ⟨d, hd⟩ : ∃ d, 8 * p.length = k + 8 + d := Nat.exists_eq_add_of_le h
  have hpow : 256 ^ p.length = 2 ^ k * (256 * 2 ^ d) := by
    rw [← two_pow_eight_mul, hd, pow_add, pow_add, mul_assoc]
    norm_num
  rw [bitsAt, bitsAt, leNat_append, hpow, mul_assoc,
    Nat.add_mul_div_left _ _ (Nat.two_pow_pos k), mul_assoc, Nat.add_mul_mod_self_left]

/-- Two neighbouring bytes, joined at bit `r` of the first. -/
theorem bitsAt_of_bytes (p : Bytes) {i r : ℕ} (hr : r < 8) (h : i + 1 < p.length) :
    (p[i].toNat >>> r ||| p[i + 1].toNat <<< (8 - r)) % 256 = bitsAt p (8 * i + r) := by
  have h0 := p[i].toNat_lt
  have h1 := p[i + 1].toNat_lt
  have hsplit : leNat p / 256 ^ i =
      p[i].toNat + 256 * (p[i + 1].toNat + 256 * leNat (p.drop (i + 2))) := by
    rw [← leNat_drop, List.drop_eq_getElem_cons (by omega), leNat_cons,
      List.drop_eq_getElem_cons (by omega), leNat_cons]
  have hlow : p[i].toNat >>> r < 2 ^ (8 - r) := by
    rw [Nat.shiftRight_eq_div_pow, Nat.div_lt_iff_lt_mul (Nat.two_pow_pos r), ← pow_add]
    rw [Nat.sub_add_cancel hr.le]
    exact h0
  rw [bitsAt, pow_add, two_pow_eight_mul, ← Nat.div_div_eq_div_mul, hsplit, Nat.lor_comm,
    ← Nat.shiftLeft_add_eq_or_of_lt hlow, Nat.shiftLeft_eq, Nat.shiftRight_eq_div_pow]
  interval_cases r <;> omega

end Bytes

/-! ## Windows of words -/

namespace BitWindow

open Bytes

section Shift

variable {w : ℕ}

/-- The value of a window of words, the first one least significant. -/
def toNat : List (BitVec w) → ℕ
  | [] => 0
  | c :: cs => c.toNat + 2 ^ w * toNat cs

/-- The window shifted down by `r` bits: each word takes in the low bits of the next one. -/
def shiftDown (r : ℕ) : List (BitVec w) → List (BitVec w)
  | [] => []
  | [c] => [c >>> r]
  | c :: d :: cs => (c >>> r ||| d <<< (w - r)) :: shiftDown r (d :: cs)

@[simp] theorem toNat_nil : toNat ([] : List (BitVec w)) = 0 := rfl

@[simp] theorem toNat_cons (c : BitVec w) (cs : List (BitVec w)) :
    toNat (c :: cs) = c.toNat + 2 ^ w * toNat cs := rfl

/-- Shifting the words shifts the value. -/
theorem toNat_shiftDown {r : ℕ} (hr : r < w) (cs : List (BitVec w)) :
    toNat (shiftDown r cs) = toNat cs / 2 ^ r := by
  induction cs with
  | nil => simp [shiftDown]
  | cons c cs ih =>
    cases cs with
    | nil => simp [shiftDown, Nat.shiftRight_eq_div_pow]
    | cons d cs =>
      have hpow : 2 ^ w = 2 ^ (w - r) * 2 ^ r := by rw [← pow_add, Nat.sub_add_cancel hr.le]
      have hpos : 0 < 2 ^ r := Nat.two_pow_pos r
      have hlow : (c >>> r).toNat < 2 ^ (w - r) := by
        rw [BitVec.toNat_ushiftRight, Nat.shiftRight_eq_div_pow, Nat.div_lt_iff_lt_mul hpos, ← hpow]
        exact c.isLt
      -- the word that takes in the low bits of `d`
      have hword : (c >>> r ||| d <<< (w - r)).toNat =
          (c >>> r).toNat + 2 ^ (w - r) * (d.toNat % 2 ^ r) := by
        rw [BitVec.toNat_or, BitVec.toNat_shiftLeft, Nat.shiftLeft_eq, Nat.mul_comm d.toNat, hpow,
          Nat.mul_mod_mul_left, Nat.mul_comm (2 ^ (w - r)), ← Nat.shiftLeft_eq, Nat.lor_comm,
          ← Nat.shiftLeft_add_eq_or_of_lt hlow, Nat.add_comm]
      have hmod : toNat (d :: cs) % 2 ^ r = d.toNat % 2 ^ r := by
        rw [toNat_cons, hpow, Nat.mul_right_comm, Nat.add_mul_mod_self_right]
      rw [shiftDown, toNat_cons, hword, ih, BitVec.toNat_ushiftRight, Nat.shiftRight_eq_div_pow]
      calc c.toNat / 2 ^ r + 2 ^ (w - r) * (d.toNat % 2 ^ r)
            + 2 ^ w * (toNat (d :: cs) / 2 ^ r)
          = c.toNat / 2 ^ r + 2 ^ (w - r) *
              (toNat (d :: cs) % 2 ^ r + 2 ^ r * (toNat (d :: cs) / 2 ^ r)) := by
            rw [hmod, hpow]
            ring
        _ = (c.toNat + 2 ^ r * (2 ^ (w - r) * toNat (d :: cs))) / 2 ^ r := by
            rw [Nat.mod_add_div, Nat.add_mul_div_left _ _ hpos]
        _ = toNat (c :: d :: cs) / 2 ^ r := by
            rw [toNat_cons c, hpow, ← Nat.mul_assoc, Nat.mul_comm (2 ^ r)]

end Shift

section Memory

variable {b : ℕ}

/-- The bytes of the window in memory. -/
def memory (cs : List (BitVec (8 * b))) : Bytes := cs.flatMap fun c => leBytes b c.toNat

/-- The `n` words of `b` bytes from offset `i` on, if they lie inside the bytes. -/
def load (b : ℕ) (p : Bytes) : ℕ → ℕ → Option (List (BitVec (8 * b)))
  | 0, _ => some []
  | n + 1, i =>
    if i + b ≤ p.length then
      (load b p n (i + b)).map fun cs => BitVec.ofNat (8 * b) (leNat ((p.drop i).take b)) :: cs
    else none

@[simp] theorem length_memory (cs : List (BitVec (8 * b))) :
    (memory cs).length = cs.length * b := by
  induction cs with
  | nil => simp [memory]
  | cons c cs ih =>
    have : memory (c :: cs) = leBytes b c.toNat ++ memory cs := rfl
    rw [this, List.length_append, ih, length_leBytes, List.length_cons]
    ring

theorem leNat_memory (cs : List (BitVec (8 * b))) : leNat (memory cs) = toNat cs := by
  induction cs with
  | nil => rfl
  | cons c cs ih =>
    have hmem : memory (c :: cs) = leBytes b c.toNat ++ memory cs := rfl
    have hlt : c.toNat < 256 ^ b := by
      rw [← two_pow_eight_mul]
      exact c.isLt
    rw [hmem, leNat_append, ih, leNat_leBytes_of_lt hlt, length_leBytes, toNat_cons,
      two_pow_eight_mul]

theorem length_shiftDown (r : ℕ) (cs : List (BitVec (8 * b))) :
    (shiftDown r cs).length = cs.length := by
  induction cs with
  | nil => rfl
  | cons c cs ih =>
    cases cs with
    | nil => rfl
    | cons d cs => simp only [shiftDown, List.length_cons, ih]

/-- What loading reads. -/
theorem load_eq_some (p : Bytes) (n i : ℕ) (h : i + n * b ≤ p.length) :
    ∃ cs, load b p n i = some cs ∧ cs.length = n ∧
      toNat cs = leNat p / 256 ^ i % 256 ^ (n * b) := by
  induction n generalizing i with
  | zero => exact ⟨[], rfl, rfl, by simp [Nat.mod_one]⟩
  | succ n ih =>
    rw [Nat.succ_mul] at h
    obtain ⟨cs, hload, hlen, hcs⟩ := ih (i + b) (by omega)
    refine ⟨_, by rw [load, if_pos (by omega), hload]; rfl, by simp [hlen], ?_⟩
    have hword : leNat ((p.drop i).take b) = leNat p / 256 ^ i % 256 ^ b := by
      rw [leNat_take, leNat_drop]
    rw [toNat_cons, hcs, hword, BitVec.toNat_ofNat, two_pow_eight_mul, Nat.mod_mod,
      Nat.succ_mul, Nat.add_comm (n * b), pow_add 256 b, Nat.mod_mul, pow_add 256 i,
      Nat.div_div_eq_div_mul]

/-- **A shifted window is exact**: byte `j` of the window of `n` words at byte `i`, shifted down by
`r` bits, is the eight bits from `8 * i + r + 8 * j` on, as long as they lie inside the window. -/
theorem bitsAt_of_window (p : Bytes) {cs : List (BitVec (8 * b))} {n i r j : ℕ}
    (hcs : toNat cs = leNat p / 256 ^ i % 256 ^ (n * b) / 2 ^ r) (hlen : cs.length = n)
    (hj : r + 8 * (j + 1) ≤ 8 * (n * b)) :
    ((memory cs).getD j 0).toNat = bitsAt p (8 * i + r + 8 * j) := by
  have hjlt : j < (memory cs).length := by
    rw [length_memory, hlen]
    omega
  have hsplit : 2 ^ (8 * (n * b)) = 2 ^ (r + 8 * j) * 2 ^ (8 * (n * b) - (r + 8 * j)) := by
    rw [← pow_add]
    congr 1
    omega
  have hbyte : 256 ∣ 2 ^ (8 * (n * b) - (r + 8 * j)) := pow_dvd_pow 2 (show 8 ≤ _ by omega)
  rw [List.getD_eq_getElem _ _ hjlt, toNat_getElem, leNat_memory, hcs, bitsAt]
  calc leNat p / 256 ^ i % 256 ^ (n * b) / 2 ^ r / 256 ^ j % 256
      = leNat p / 2 ^ (8 * i) % 2 ^ (8 * (n * b)) / 2 ^ (r + 8 * j) % 256 := by
        simp only [← two_pow_eight_mul, Nat.div_div_eq_div_mul, ← pow_add]
    _ = leNat p / 2 ^ (8 * i) / 2 ^ (r + 8 * j) % 256 := by
        rw [hsplit, Nat.mod_mul_right_div_self, Nat.mod_mod_of_dvd _ hbyte]
    _ = leNat p / 2 ^ (8 * i + r + 8 * j) % 256 := by
        rw [Nat.div_div_eq_div_mul, ← pow_add, Nat.add_assoc]

end Memory

end BitWindow

end Iax
