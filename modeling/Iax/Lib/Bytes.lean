import Mathlib.Data.Nat.Bitwise
import Mathlib.Tactic.Ring
import Mathlib.Tactic.NormNum

/-!
# Byte strings as numbers

The little- and big-endian value of a byte string, the byte string of a number, and their round
trips. A signed word is the two's complement reading of its unsigned value (`signed`).
-/

namespace Iax

/-- A byte string. -/
abbrev Bytes := List UInt8

namespace Bytes

/-- The little-endian value. -/
def leNat : Bytes → ℕ
  | [] => 0
  | b :: bs => b.toNat + 256 * leNat bs

/-- The big-endian value. -/
def beNat (bs : Bytes) : ℕ := leNat bs.reverse

/-- The low `k` bytes of `v`, least significant first. -/
def leBytes : ℕ → ℕ → Bytes
  | 0, _ => []
  | k + 1, v => UInt8.ofNat v :: leBytes k (v / 256)

/-- The low `k` bytes of `v`, most significant first. -/
def beBytes (k v : ℕ) : Bytes := (leBytes k v).reverse

/-- The two's complement reading of a `w`-bit word. -/
def signed (w n : ℕ) : ℤ := (BitVec.ofNat w n).toInt

@[simp] theorem leNat_nil : leNat [] = 0 := rfl

@[simp] theorem leNat_cons (b : UInt8) (bs : Bytes) :
    leNat (b :: bs) = b.toNat + 256 * leNat bs := rfl

@[simp] theorem length_leBytes (k v : ℕ) : (leBytes k v).length = k := by
  induction k generalizing v with
  | zero => rfl
  | succ k ih => simp [leBytes, ih]

@[simp] theorem length_beBytes (k v : ℕ) : (beBytes k v).length = k := by
  simp [beBytes]

theorem leNat_lt (bs : Bytes) : leNat bs < 256 ^ bs.length := by
  induction bs with
  | nil => simp
  | cons b bs ih =>
    have hb := b.toNat_lt
    have hpow : 256 ^ (b :: bs).length = 256 * 256 ^ bs.length := by
      rw [List.length_cons, pow_succ]; ring
    rw [leNat_cons, hpow]
    omega

theorem leNat_append (as bs : Bytes) :
    leNat (as ++ bs) = leNat as + 256 ^ as.length * leNat bs := by
  induction as with
  | nil => simp
  | cons a as ih =>
    rw [List.cons_append, leNat_cons, ih, leNat_cons, List.length_cons, pow_succ]
    ring

theorem leNat_leBytes (k v : ℕ) : leNat (leBytes k v) = v % 256 ^ k := by
  induction k generalizing v with
  | zero => simp [leBytes, Nat.mod_one]
  | succ k ih =>
    have hb : (UInt8.ofNat v).toNat = v % 256 := rfl
    rw [leBytes, leNat_cons, ih, hb, pow_succ, Nat.mul_comm (256 ^ k), Nat.mod_mul]

theorem leNat_leBytes_of_lt {k v : ℕ} (h : v < 256 ^ k) : leNat (leBytes k v) = v := by
  rw [leNat_leBytes, Nat.mod_eq_of_lt h]

theorem beNat_beBytes_of_lt {k v : ℕ} (h : v < 256 ^ k) : beNat (beBytes k v) = v := by
  rw [beNat, beBytes, List.reverse_reverse, leNat_leBytes_of_lt h]

theorem beNat_cons (b : UInt8) (bs : Bytes) :
    beNat (b :: bs) = 256 ^ bs.length * b.toNat + beNat bs := by
  rw [beNat, List.reverse_cons, leNat_append, List.length_reverse, leNat_cons, leNat_nil, beNat]
  ring

theorem beNat_lt (bs : Bytes) : beNat bs < 256 ^ bs.length := by
  rw [beNat, ← List.length_reverse]
  exact leNat_lt _

/-- `memcmp` on byte strings of one length. -/
def memcmp : Bytes → Bytes → Ordering
  | a :: as, b :: bs => (compare a.toNat b.toNat).then (memcmp as bs)
  | _, _ => .eq

/-- The first byte that differs decides: the bytes are compared as big-endian numbers. -/
theorem memcmp_eq_compare {as bs : Bytes} (h : as.length = bs.length) :
    memcmp as bs = compare (beNat as) (beNat bs) := by
  induction as generalizing bs with
  | nil =>
    obtain rfl := List.length_eq_zero_iff.1 h.symm
    rfl
  | cons a as ih =>
    cases bs with
    | nil => cases h
    | cons b bs =>
      have hlen : as.length = bs.length := Nat.succ.inj h
      have ha := beNat_lt as
      have hb := beNat_lt bs
      rw [memcmp, ih hlen, beNat_cons, beNat_cons, hlen]
      rw [hlen] at ha
      rcases Nat.lt_trichotomy a.toNat b.toNat with hlt | heq | hgt
      · have hmul := Nat.mul_le_mul_left (256 ^ bs.length) (Nat.succ_le_of_lt hlt)
        rw [Nat.mul_succ] at hmul
        have hval :
            256 ^ bs.length * a.toNat + beNat as < 256 ^ bs.length * b.toNat + beNat bs := by
          omega
        rw [compare_lt_iff_lt.2 hlt, compare_lt_iff_lt.2 hval]
        rfl
      · rw [heq, compare_eq_iff_eq.2 rfl, Ordering.then]
        rcases Nat.lt_trichotomy (beNat as) (beNat bs) with hlt | heq | hgt
        · rw [compare_lt_iff_lt.2 hlt, compare_lt_iff_lt.2 (by omega)]
        · rw [compare_eq_iff_eq.2 heq, compare_eq_iff_eq.2 (by omega)]
        · rw [compare_gt_iff_gt.2 hgt, compare_gt_iff_gt.2 (by omega)]
      · have hmul := Nat.mul_le_mul_left (256 ^ bs.length) (Nat.succ_le_of_lt hgt)
        rw [Nat.mul_succ] at hmul
        have hval :
            256 ^ bs.length * b.toNat + beNat bs < 256 ^ bs.length * a.toNat + beNat as := by
          omega
        rw [compare_gt_iff_gt.2 hgt, compare_gt_iff_gt.2 hval]
        rfl

/-- A byte string is the bytes of its value. -/
theorem leBytes_leNat (bs : Bytes) : leBytes bs.length (leNat bs) = bs := by
  induction bs with
  | nil => rfl
  | cons b bs ih =>
    have hb := b.toNat_lt
    have hhead : UInt8.ofNat (b.toNat + 256 * leNat bs) = b := by
      apply UInt8.toNat_inj.1
      change (b.toNat + 256 * leNat bs) % 256 = b.toNat
      omega
    have htail : (b.toNat + 256 * leNat bs) / 256 = leNat bs := by omega
    rw [List.length_cons, leNat_cons, leBytes, hhead, htail, ih]

theorem signed_of_lt {w n : ℕ} (hw : 0 < w) (h : n < 2 ^ (w - 1)) : signed w n = n := by
  have hpow : 2 ^ w = 2 * 2 ^ (w - 1) := by
    rw [← pow_succ']
    congr 1
    omega
  have hmod : n % 2 ^ w = n := Nat.mod_eq_of_lt (by omega)
  rw [signed, BitVec.toInt_eq_toNat_cond, BitVec.toNat_ofNat, hmod, if_pos (by omega)]

theorem signed_of_le {w n : ℕ} (hw : 0 < w) (h : 2 ^ (w - 1) ≤ n) (hn : n < 2 ^ w) :
    signed w n = (n : ℤ) - 2 ^ w := by
  have hpow : 2 ^ w = 2 * 2 ^ (w - 1) := by
    rw [← pow_succ']
    congr 1
    omega
  have hmod : n % 2 ^ w = n := Nat.mod_eq_of_lt hn
  rw [signed, BitVec.toInt_eq_toNat_cond, BitVec.toNat_ofNat, hmod, if_neg (by omega)]
  push_cast
  rfl

end Bytes

end Iax
