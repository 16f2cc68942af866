import Iax.Matlab.Endian

/-!
# The endian readers, without a clamp

`endian.m` once more, with all of its conversions, and with every number that an operation could
clamp marked by whether one did.

* `Flagged`: a number with its mark. The readers of this module compute what those without marks do
  (`val_le16u`, `val_le32u`, `val_le64u`).
* `ReadsExactly`: what the four readers of a word should do with an array of its length.
* `endian_exact`: they do so for words of 2, 4 and 8 bytes.
-/

namespace Iax.Matlab

open Bytes

/-- A number, and whether one was clamped on the way to it. -/
@[ext] structure Flagged (α : Type) where
  val : α
  clamped : Bool

namespace Flagged

/-! ## Arithmetic -/

/-- An operation that clamps nothing. -/
def map {α β : Type} (f : α → β) (a : Flagged α) : Flagged β := ⟨f a.val, a.clamped⟩

/-- The conversion to an unsigned type of `w` bits. -/
def toUint (w : ℕ) (a : Flagged ℕ) : Flagged ℕ :=
  ⟨min a.val (2 ^ w - 1), a.clamped || decide (2 ^ w ≤ a.val)⟩

/-- Addition in an unsigned type of `w` bits. -/
def add (w : ℕ) (a b : Flagged ℕ) : Flagged ℕ :=
  ⟨satAdd w a.val b.val, a.clamped || b.clamped || decide (2 ^ w ≤ a.val + b.val)⟩

/-- Multiplication by a constant in an unsigned type of `w` bits. -/
def mul (w : ℕ) (a : Flagged ℕ) (k : ℕ) : Flagged ℕ :=
  ⟨satMul w a.val k, a.clamped || decide (2 ^ w ≤ a.val * k)⟩

/-- An array of bytes. -/
def ofBytes (s : Bytes) : List (Flagged ℕ) := s.map fun b => ⟨b.toNat, false⟩

section Exact

variable {w m n : ℕ}

theorem toUint_exact (h : n < 2 ^ w) : toUint w ⟨n, false⟩ = ⟨n, false⟩ := by
  ext
  · exact Nat.min_eq_left (Nat.le_sub_one_of_lt h)
  · simpa [toUint] using h

theorem add_exact (h : m + n < 2 ^ w) : add w ⟨m, false⟩ ⟨n, false⟩ = ⟨m + n, false⟩ := by
  ext
  · exact Nat.min_eq_left (Nat.le_sub_one_of_lt h)
  · simpa [add] using h

theorem mul_exact (h : m * n < 2 ^ w) : mul w ⟨m, false⟩ n = ⟨m * n, false⟩ := by
  ext
  · exact Nat.min_eq_left (Nat.le_sub_one_of_lt h)
  · simpa [mul] using h

/-- A conversion keeps bytes as they are. -/
theorem map_toUint_ofBytes (hw : 8 ≤ w) (s : Bytes) : (ofBytes s).map (toUint w) = ofBytes s := by
  rw [ofBytes, List.map_map]
  refine List.map_congr_left fun b _ => toUint_exact ?_
  exact Nat.lt_of_lt_of_le b.toNat_lt (Nat.pow_le_pow_right (by decide) hw)

end Exact

/-! ## The readers -/

/-- `endian.le16u`. -/
def le16u (s : List (Flagged ℕ)) : Except MatErr (Flagged ℕ) := do
  let s := s.map (toUint 16)
  let s1 ← elem s 1
  let s2 ← elem s 2
  return add 16 s1 (mul 16 s2 256)

/-- `endian.le32u`. -/
def le32u (s : List (Flagged ℕ)) : Except MatErr (Flagged ℕ) := do
  let s := s.map (toUint 32)
  let lo ← le16u (← range s 1 2)
  let hi ← le16u (← range s 3 4)
  return add 32 (toUint 32 lo) (mul 32 (toUint 32 hi) (256 ^ 2))

/-- `endian.le64u`. -/
def le64u (s : List (Flagged ℕ)) : Except MatErr (Flagged ℕ) := do
  let s := s.map (toUint 64)
  let lo ← le32u (← range s 1 4)
  let hi ← le32u (← range s 5 8)
  return add 64 (toUint 64 lo) (mul 64 (toUint 64 hi) (256 ^ 4))

/-- `endian.le16i`. -/
def le16i (s : List (Flagged ℕ)) : Except MatErr (Flagged ℤ) := do
  return (← le16u s).map (signed 16)

/-- `endian.le32i`. -/
def le32i (s : List (Flagged ℕ)) : Except MatErr (Flagged ℤ) := do
  return (← le32u s).map (signed 32)

/-- `endian.le64i`. -/
def le64i (s : List (Flagged ℕ)) : Except MatErr (Flagged ℤ) := do
  return (← le64u s).map (signed 64)

/-- `endian.be16u`. -/
def be16u (s : List (Flagged ℕ)) : Except MatErr (Flagged ℕ) := do
  return (← le16u s).map (swapbytes 2)

/-- `endian.be32u`. -/
def be32u (s : List (Flagged ℕ)) : Except MatErr (Flagged ℕ) := do
  return (← le32u s).map (swapbytes 4)

/-- `endian.be64u`. -/
def be64u (s : List (Flagged ℕ)) : Except MatErr (Flagged ℕ) := do
  return (← le64u s).map (swapbytes 8)

/-- `endian.be16i`. -/
def be16i (s : List (Flagged ℕ)) : Except MatErr (Flagged ℤ) := do
  return (← le16i s).map (swapbytesI 2)

/-- `endian.be32i`. -/
def be32i (s : List (Flagged ℕ)) : Except MatErr (Flagged ℤ) := do
  return (← le32i s).map (swapbytesI 4)

/-- `endian.be64i`. -/
def be64i (s : List (Flagged ℕ)) : Except MatErr (Flagged ℤ) := do
  return (← le64i s).map (swapbytesI 8)

/-! ## Little-endian words -/

theorem le16u_ofBytes {s : Bytes} (h : s.length = 2) :
    le16u (ofBytes s) = .ok ⟨leNat s, false⟩ := by
  match s, h with
  | [a, b], _ =>
    have ha := a.toNat_lt
    have hb := b.toNat_lt
    have hsum : add 16 ⟨a.toNat, false⟩ (mul 16 ⟨b.toNat, false⟩ 256) =
        ⟨leNat [a, b], false⟩ := by
      rw [mul_exact (by omega), add_exact (by omega), leNat_cons, leNat_cons, leNat_nil]
      congr 1
      omega
    rw [le16u, map_toUint_ofBytes (by decide), ← hsum]
    rfl

/-- An array of bytes in two halves. -/
theorem exists_halves {s : Bytes} {k : ℕ} (h : s.length = 2 * k) :
    ∃ lo hi, s = lo ++ hi ∧ lo.length = k ∧ hi.length = k :=
  ⟨s.take k, s.drop k, (List.take_append_drop k s).symm, by rw [List.length_take]; omega,
    by rw [List.length_drop]; omega⟩

theorem range_ofBytes_head {lo hi : Bytes} {k : ℕ} (hlo : lo.length = k) {b : ℤ} (hb : b = k) :
    range (ofBytes (lo ++ hi)) 1 b = .ok (ofBytes lo) := by
  rw [ofBytes, List.map_append]
  exact range_head _ _ (by rw [List.length_map, hlo, hb])

theorem range_ofBytes_tail {lo hi : Bytes} {k : ℕ} (hlo : lo.length = k) (hhi : hi.length = k)
    {a b : ℤ} (ha : a = k + 1) (hb : b = k + k) :
    range (ofBytes (lo ++ hi)) a b = .ok (ofBytes hi) := by
  rw [ofBytes, List.map_append]
  exact range_tail _ _ (by rw [List.length_map, hlo, ha])
    (by rw [List.length_map, List.length_map, hlo, hhi, hb])

/-- Two words of `k` bytes in one of `2 * k`. -/
theorem add_mul_exact {lo hi : Bytes} {k w : ℕ} (hlo : lo.length = k) (hhi : hi.length = k)
    (hw : 2 ^ w = 256 ^ k * 256 ^ k) :
    add w (toUint w ⟨leNat lo, false⟩) (mul w (toUint w ⟨leNat hi, false⟩) (256 ^ k)) =
      ⟨leNat (lo ++ hi), false⟩ := by
  have hvalue : leNat (lo ++ hi) < 2 ^ w := by
    have hlt := leNat_lt (lo ++ hi)
    rwa [List.length_append, hlo, hhi, pow_add, ← hw] at hlt
  have hsplit : leNat (lo ++ hi) = leNat lo + leNat hi * 256 ^ k := by
    rw [leNat_append, hlo, Nat.mul_comm]
  have hle : leNat hi ≤ leNat hi * 256 ^ k := Nat.le_mul_of_pos_right _ (Nat.pow_pos (by decide))
  rw [hsplit] at hvalue ⊢
  rw [toUint_exact (by omega), toUint_exact (by omega), mul_exact (by omega), add_exact hvalue]

theorem le32u_ofBytes {s : Bytes} (h : s.length = 4) :
    le32u (ofBytes s) = .ok ⟨leNat s, false⟩ := by
  obtain ⟨lo, hi, rfl, hlo, hhi⟩ := exists_halves (k := 2) h
  rw [← add_mul_exact hlo hhi (show 2 ^ 32 = 256 ^ 2 * 256 ^ 2 by norm_num), le32u]
  have h1 : range (ofBytes (lo ++ hi)) 1 2 = .ok (ofBytes lo) := range_ofBytes_head hlo rfl
  have h2 : range (ofBytes (lo ++ hi)) 3 4 = .ok (ofBytes hi) :=
    range_ofBytes_tail hlo hhi rfl rfl
  simp only [map_toUint_ofBytes (show 8 ≤ 32 by decide), h1, h2, bind, Except.bind,
    le16u_ofBytes hlo, le16u_ofBytes hhi]
  rfl

theorem le64u_ofBytes {s : Bytes} (h : s.length = 8) :
    le64u (ofBytes s) = .ok ⟨leNat s, false⟩ := by
  obtain ⟨lo, hi, rfl, hlo, hhi⟩ := exists_halves (k := 4) h
  rw [← add_mul_exact hlo hhi (show 2 ^ 64 = 256 ^ 4 * 256 ^ 4 by norm_num), le64u]
  have h1 : range (ofBytes (lo ++ hi)) 1 4 = .ok (ofBytes lo) := range_ofBytes_head hlo rfl
  have h2 : range (ofBytes (lo ++ hi)) 5 8 = .ok (ofBytes hi) :=
    range_ofBytes_tail hlo hhi rfl rfl
  simp only [map_toUint_ofBytes (show 8 ≤ 64 by decide), h1, h2, bind, Except.bind,
    le32u_ofBytes hlo, le32u_ofBytes hhi]
  rfl

/-! ## The readers without marks -/

section Unmarked

variable {α β : Type} (f : α → β) (x : List α)

theorem elem_map (i : ℤ) : elem (x.map f) i = (elem x i).map f := by
  unfold elem
  by_cases h : 1 ≤ i ∧ (i - 1).toNat < x.length
  · rw [dif_pos h, dif_pos (by simpa using h)]
    simp [Except.map]
  · rw [dif_neg h, dif_neg (by simpa using h)]
    rfl

theorem range_map (a b : ℤ) : range (x.map f) a b = (range x a b).map (List.map f) := by
  unfold range
  rw [List.length_map]
  split_ifs
  · rfl
  · rw [← List.map_drop, ← List.map_take]
    rfl
  · rfl

theorem val_le16u (s : Bytes) : (le16u (ofBytes s)).map val = Matlab.le16u s := by
  rw [le16u, map_toUint_ofBytes (by decide), ofBytes, elem_map, elem_map, Matlab.le16u]
  cases elem s 1 with
  | error e => rfl
  | ok a =>
    cases elem s 2 with
    | error e => rfl
    | ok b => rfl

/-- A saturated sum is in the range of its type. -/
theorem satAdd_lt (w a b : ℕ) : satAdd w a b < 2 ^ w :=
  Nat.lt_of_le_pred (Nat.two_pow_pos w) (Nat.min_le_right _ _)

/-- Two words put together: the conversions in between change nothing. -/
theorem val_pair {rd : List (Flagged ℕ) → Except MatErr (Flagged ℕ)}
    {rd' : Bytes → Except MatErr ℕ} {w : ℕ} (hrd : ∀ s, (rd (ofBytes s)).map val = rd' s)
    (hlt : ∀ s n, rd' s = .ok n → n < 2 ^ w) (s : Bytes) (a b c d : ℤ) (k : ℕ) :
    Except.map val (do
      let lo ← rd (← range (ofBytes s) a b)
      let hi ← rd (← range (ofBytes s) c d)
      return add w (toUint w lo) (mul w (toUint w hi) k)) = do
        let lo ← rd' (← range s a b)
        let hi ← rd' (← range s c d)
        return satAdd w lo (satMul w hi k) := by
  have hmin : ∀ s n, rd (ofBytes s) = .ok n → min n.val (2 ^ w - 1) = n.val := by
    intro s n hn
    have hval := hrd s
    rw [hn] at hval
    exact Nat.min_eq_left (Nat.le_sub_one_of_lt (hlt s n.val hval.symm))
  have hrange : ∀ a b, range (ofBytes s) a b = (range s a b).map ofBytes := fun a b =>
    range_map _ s a b
  rw [hrange, hrange]
  cases range s a b with
  | error e => rfl
  | ok slo =>
    cases range s c d with
    | error e =>
      simp only [Except.map, bind, Except.bind, ← hrd]
      cases rd (ofBytes slo) with
      | error e => rfl
      | ok lo => rfl
    | ok shi =>
      simp only [Except.map, bind, Except.bind, ← hrd]
      cases hlo : rd (ofBytes slo) with
      | error e => rfl
      | ok lo =>
        cases hhi : rd (ofBytes shi) with
        | error e => rfl
        | ok hi => simp [pure, Except.pure, add, mul, toUint, hmin _ _ hlo, hmin _ _ hhi]

theorem val_le32u (s : Bytes) : (le32u (ofBytes s)).map val = Matlab.le32u s := by
  rw [le32u, map_toUint_ofBytes (by decide)]
  refine val_pair val_le16u (fun s n h => ?_) s 1 2 3 4 (256 ^ 2)
  obtain ⟨a, -, hb⟩ := bind_eq_ok.1 h
  obtain ⟨b, -, hn⟩ := bind_eq_ok.1 hb
  cases hn
  exact (satAdd_lt 16 _ _).trans (by norm_num)

theorem val_le64u (s : Bytes) : (le64u (ofBytes s)).map val = Matlab.le64u s := by
  rw [le64u, map_toUint_ofBytes (by decide)]
  refine val_pair val_le32u (fun s n h => ?_) s 1 4 5 8 (256 ^ 4)
  obtain ⟨slo, -, h⟩ := bind_eq_ok.1 h
  obtain ⟨lo, -, h⟩ := bind_eq_ok.1 h
  obtain ⟨shi, -, h⟩ := bind_eq_ok.1 h
  obtain ⟨hi, -, hn⟩ := bind_eq_ok.1 h
  cases hn
  exact (satAdd_lt 32 _ _).trans (by norm_num)

end Unmarked

/-! ## All readers -/

theorem two_pow_eq (k : ℕ) : 2 ^ (8 * k) = 256 ^ k := by
  rw [pow_mul]
  norm_num

/-- The unsigned word is found again. -/
theorem toNat_signed_emod {w n : ℕ} (h : n < 2 ^ w) : (signed w n % 2 ^ w).toNat = n := by
  have hcast : ((2 ^ w : ℕ) : ℤ) = 2 ^ w := by
    push_cast
    rfl
  rw [signed, BitVec.toInt_eq_toNat_bmod, BitVec.toNat_ofNat, Nat.mod_eq_of_lt h, ← hcast,
    Int.bmod_emod, ← Int.natCast_mod, Int.toNat_natCast, Nat.mod_eq_of_lt h]

theorem toNat_emod_lt (w : ℕ) (z : ℤ) : (z % 2 ^ w).toNat < 2 ^ w := by
  have hpos : (0 : ℤ) < 2 ^ w := by positivity
  have hlt := Int.emod_lt_of_pos z hpos
  rw [← Int.toNat_of_nonneg (Int.emod_nonneg z hpos.ne')] at hlt
  exact_mod_cast hlt

/-- The signed word is found again. -/
theorem signed_toNat_emod {w : ℕ} (hw : 0 < w) {z : ℤ} (hlo : -2 ^ (w - 1) ≤ z)
    (hhi : z < 2 ^ (w - 1)) : signed w (z % 2 ^ w).toNat = z := by
  have hofInt : BitVec.ofNat w (z % 2 ^ w).toNat = BitVec.ofInt w z := by
    apply BitVec.eq_of_toNat_eq
    rw [BitVec.toNat_ofNat, Nat.mod_eq_of_lt (toNat_emod_lt w z), BitVec.toNat_ofInt]
    push_cast
    rfl
  rw [signed, hofInt]
  exact BitVec.toInt_ofInt_eq_self hw hlo hhi

/-- **The four readers of a word of `k` bytes are exact**: they clamp nothing, the reversed array is
read by the reader of the other order, and words come back from the bytes they are laid out in. -/
structure ReadsExactly (k : ℕ) (leu beu : List (Flagged ℕ) → Except MatErr (Flagged ℕ))
    (lei bei : List (Flagged ℕ) → Except MatErr (Flagged ℤ)) : Prop where
  leu_eq : ∀ s : Bytes, s.length = k → leu (ofBytes s) = .ok ⟨leNat s, false⟩
  beu_eq : ∀ s : Bytes, s.length = k → beu (ofBytes s) = .ok ⟨beNat s, false⟩
  lei_eq : ∀ s : Bytes, s.length = k → lei (ofBytes s) = .ok ⟨signed (8 * k) (leNat s), false⟩
  bei_eq : ∀ s : Bytes, s.length = k → bei (ofBytes s) = .ok ⟨signed (8 * k) (beNat s), false⟩
  leu_reverse : ∀ s : Bytes, s.length = k → leu (ofBytes s.reverse) = beu (ofBytes s)
  beu_reverse : ∀ s : Bytes, s.length = k → beu (ofBytes s.reverse) = leu (ofBytes s)
  lei_reverse : ∀ s : Bytes, s.length = k → lei (ofBytes s.reverse) = bei (ofBytes s)
  bei_reverse : ∀ s : Bytes, s.length = k → bei (ofBytes s.reverse) = lei (ofBytes s)
  /-- A word of a packed little-endian structure. -/
  leu_leBytes : ∀ n < 2 ^ (8 * k), leu (ofBytes (leBytes k n)) = .ok ⟨n, false⟩
  /-- A word in network order, as of `htonl`. -/
  beu_beBytes : ∀ n < 2 ^ (8 * k), beu (ofBytes (beBytes k n)) = .ok ⟨n, false⟩
  lei_leBytes : ∀ z : ℤ, -2 ^ (8 * k - 1) ≤ z → z < 2 ^ (8 * k - 1) →
    lei (ofBytes (leBytes k (z % 2 ^ (8 * k)).toNat)) = .ok ⟨z, false⟩
  bei_beBytes : ∀ z : ℤ, -2 ^ (8 * k - 1) ≤ z → z < 2 ^ (8 * k - 1) →
    bei (ofBytes (beBytes k (z % 2 ^ (8 * k)).toNat)) = .ok ⟨z, false⟩

section All

variable {k : ℕ} {leu beu : List (Flagged ℕ) → Except MatErr (Flagged ℕ)}
  {lei bei : List (Flagged ℕ) → Except MatErr (Flagged ℤ)}

/-- What the readers make of an array decides about the rest. -/
theorem ReadsExactly.of_eq (hk : 0 < k)
    (hleu : ∀ s : Bytes, s.length = k → leu (ofBytes s) = .ok ⟨leNat s, false⟩)
    (hbeu : ∀ s : Bytes, s.length = k → beu (ofBytes s) = .ok ⟨beNat s, false⟩)
    (hlei : ∀ s : Bytes, s.length = k →
      lei (ofBytes s) = .ok ⟨signed (8 * k) (leNat s), false⟩)
    (hbei : ∀ s : Bytes, s.length = k →
      bei (ofBytes s) = .ok ⟨signed (8 * k) (beNat s), false⟩) :
    ReadsExactly k leu beu lei bei := by
  have hrev : ∀ s : Bytes, beNat s.reverse = leNat s := by
    intro s
    rw [beNat, List.reverse_reverse]
  have hword : ∀ z : ℤ, (z % 2 ^ (8 * k)).toNat < 256 ^ k := by
    intro z
    rw [← two_pow_eq]
    exact toNat_emod_lt _ z
  refine ⟨hleu, hbeu, hlei, hbei, fun s h => ?_, fun s h => ?_, fun s h => ?_, fun s h => ?_,
    fun n hn => ?_, fun n hn => ?_, fun z hlo hhi => ?_, fun z hlo hhi => ?_⟩
  · rw [hleu _ ((List.length_reverse ..).trans h), hbeu s h]
    rfl
  · rw [hbeu _ ((List.length_reverse ..).trans h), hleu s h, hrev]
  · rw [hlei _ ((List.length_reverse ..).trans h), hbei s h]
    rfl
  · rw [hbei _ ((List.length_reverse ..).trans h), hlei s h, hrev]
  · rw [two_pow_eq] at hn
    rw [hleu _ (length_leBytes k n), leNat_leBytes_of_lt hn]
  · rw [two_pow_eq] at hn
    rw [hbeu _ (length_beBytes k n), beNat_beBytes_of_lt hn]
  · rw [hlei _ (length_leBytes k _), leNat_leBytes_of_lt (hword z),
      signed_toNat_emod (by omega) hlo hhi]
  · rw [hbei _ (length_beBytes k _), beNat_beBytes_of_lt (hword z),
      signed_toNat_emod (by omega) hlo hhi]

/-- The other readers are made from the first. -/
theorem ReadsExactly.of_leu (hk : 0 < k)
    (hleu : ∀ s : Bytes, s.length = k → leu (ofBytes s) = .ok ⟨leNat s, false⟩)
    (hbeu : ∀ s, beu s = do return (← leu s).map (swapbytes k))
    (hlei : ∀ s, lei s = do return (← leu s).map (signed (8 * k)))
    (hbei : ∀ s, bei s = do return (← lei s).map (swapbytesI k)) :
    ReadsExactly k leu beu lei bei := by
  have hlei' : ∀ s : Bytes, s.length = k →
      lei (ofBytes s) = .ok ⟨signed (8 * k) (leNat s), false⟩ := by
    intro s h
    rw [hlei, hleu s h]
    rfl
  refine .of_eq hk hleu (fun s h => ?_) hlei' fun s h => ?_
  · have hswap := swapbytes_leNat s
    rw [h] at hswap
    rw [hbeu, hleu s h, ← hswap]
    rfl
  · have hswap := swapbytes_leNat s
    have hlt := leNat_lt s
    rw [h] at hswap
    rw [h, ← two_pow_eq] at hlt
    have hback : swapbytesI k (signed (8 * k) (leNat s)) = signed (8 * k) (beNat s) := by
      rw [swapbytesI, toNat_signed_emod hlt, hswap]
    rw [hbei, hlei' s h, ← hback]
    rfl

end All

/-- **The endian readers** are exact for words of 2, 4 and 8 bytes. -/
theorem endian_exact : ReadsExactly 2 le16u be16u le16i be16i ∧
    ReadsExactly 4 le32u be32u le32i be32i ∧ ReadsExactly 8 le64u be64u le64i be64i := by
  refine ⟨.of_leu (by decide) (fun s h => le16u_ofBytes h) ?_ ?_ ?_,
    .of_leu (by decide) (fun s h => le32u_ofBytes h) ?_ ?_ ?_,
    .of_leu (by decide) (fun s h => le64u_ofBytes h) ?_ ?_ ?_⟩
  all_goals exact fun _ => rfl

end Flagged

end Iax.Matlab
