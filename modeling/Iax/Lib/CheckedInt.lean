import Mathlib.Algebra.Order.Ring.Abs
import Mathlib.Algebra.Order.Ring.Int
import Mathlib.Tactic.Linarith

/-!
# Signed machine integers without overflow

In C an operation on signed integers has no defined result when the exact one is out of the range
of the type. A `CInt w` is an integer of `w` bits, or nothing once an operation that led to it has
left the range; the operators are written as in the source.

* `mul_eq_some`, `add_eq_some`, `sub_eq_some`, `neg_eq_some`, `div_eq_some`: an operation whose exact
  result is in the range.
* `mul_eq_overflow`, `add_eq_overflow`: one that overflows, and `overflow_add`, `overflow_sub`,
  `overflow_mul`: what becomes of it.
* `Holds a v B`: the value of `a` is `v`, and `B` bounds it. The bounds follow the operators, so that
  an expression is computed exactly when the bound of each part of it fits.
-/

namespace Iax

/-- A signed integer of `w` bits, `none` after an overflow. -/
def CInt (_w : ℕ) : Type := Option ℤ

namespace CInt

/-- The range of the type. -/
def InRange (w : ℕ) (v : ℤ) : Prop := -2 ^ (w - 1) ≤ v ∧ v < 2 ^ (w - 1)

instance (w : ℕ) (v : ℤ) : Decidable (InRange w v) := by
  unfold InRange
  infer_instance

/-- An exact result. -/
def ofInt (w : ℕ) (v : ℤ) : CInt w := if InRange w v then some v else none

/-- What is left of an overflow. -/
def overflow {w : ℕ} : CInt w := none

/-- An operation with two operands. -/
def lift {w : ℕ} (op : ℤ → ℤ → ℤ) (a b : CInt w) : CInt w :=
  Option.bind a fun x => Option.bind b fun y => ofInt w (op x y)

variable {w : ℕ}

instance : DecidableEq (CInt w) := inferInstanceAs (DecidableEq (Option ℤ))

instance : Add (CInt w) := ⟨lift fun x y => x + y⟩

instance : Sub (CInt w) := ⟨lift fun x y => x - y⟩

instance : Mul (CInt w) := ⟨lift fun x y => x * y⟩

instance : Neg (CInt w) := ⟨fun a => Option.bind a fun x => ofInt w (-x)⟩

/-- The quotient rounds towards zero, and division by zero is undefined. -/
instance : Div (CInt w) :=
  ⟨fun a b => Option.bind a fun x => Option.bind b fun y =>
    if y = 0 then none else ofInt w (x.tdiv y)⟩

/-- The conversion to a type of `w'` bits. -/
def widen (w' : ℕ) (a : CInt w) : CInt w' := Option.bind a (ofInt w')

/-- The value of an integer of `w` bits. -/
def ofSome (v : ℤ) : CInt w := some v

variable {a b : CInt w} {x y : ℤ}

theorem ofInt_of_inRange (h : InRange w x) : ofInt w x = ofSome x := if_pos h

theorem ofInt_of_not_inRange (h : ¬ InRange w x) : ofInt w x = overflow := if_neg h

theorem add_eq_some (ha : a = ofSome x) (hb : b = ofSome y) (h : InRange w (x + y)) :
    a + b = ofSome (x + y) := by
  subst ha hb
  exact ofInt_of_inRange h

theorem sub_eq_some (ha : a = ofSome x) (hb : b = ofSome y) (h : InRange w (x - y)) :
    a - b = ofSome (x - y) := by
  subst ha hb
  exact ofInt_of_inRange h

theorem mul_eq_some (ha : a = ofSome x) (hb : b = ofSome y) (h : InRange w (x * y)) :
    a * b = ofSome (x * y) := by
  subst ha hb
  exact ofInt_of_inRange h

theorem neg_eq_some (ha : a = ofSome x) (h : InRange w (-x)) : -a = ofSome (-x) := by
  subst ha
  exact ofInt_of_inRange h

theorem div_eq_some (ha : a = ofSome x) (hb : b = ofSome y) (h0 : y ≠ 0)
    (h : InRange w (x.tdiv y)) : a / b = ofSome (x.tdiv y) := by
  subst ha hb
  exact (if_neg h0).trans (ofInt_of_inRange h)

/-- A product that overflows. -/
theorem mul_eq_overflow (ha : a = ofSome x) (hb : b = ofSome y) (h : ¬ InRange w (x * y)) :
    a * b = overflow := by
  subst ha hb
  exact ofInt_of_not_inRange h

/-- A sum that overflows. -/
theorem add_eq_overflow (ha : a = ofSome x) (hb : b = ofSome y) (h : ¬ InRange w (x + y)) :
    a + b = overflow := by
  subst ha hb
  exact ofInt_of_not_inRange h

theorem overflow_add (ha : a = overflow) (b : CInt w) : a + b = overflow := by
  subst ha
  rfl

theorem overflow_sub (ha : a = overflow) (b : CInt w) : a - b = overflow := by
  subst ha
  rfl

theorem overflow_mul (ha : a = overflow) (b : CInt w) : a * b = overflow := by
  subst ha
  rfl

theorem ofSome_ne_overflow (v : ℤ) : (ofSome v : CInt w) ≠ overflow := Option.some_ne_none v

/-! ## Bounds -/

/-- The value of an expression, and a bound on it. -/
structure Holds (a : CInt w) (v : ℤ) (B : ℕ) : Prop where
  eq : a = ofSome v
  le : |v| ≤ B

theorem inRange_of_abs_le {B : ℕ} (h : |x| ≤ B) (hB : B < 2 ^ (w - 1)) : InRange w x := by
  have hB' : (B : ℤ) < 2 ^ (w - 1) := by exact_mod_cast hB
  obtain ⟨hlow, hhigh⟩ := abs_le.1 h
  exact ⟨by linarith, by linarith⟩

variable {A B : ℕ}

theorem holds_ofInt (h : |x| ≤ B) (hB : B < 2 ^ (w - 1)) : Holds (ofInt w x) x B :=
  ⟨ofInt_of_inRange (inRange_of_abs_le h hB), h⟩

theorem Holds.mono (ha : Holds a x A) (h : A ≤ B) : Holds a x B :=
  ⟨ha.eq, ha.le.trans (by exact_mod_cast h)⟩

theorem Holds.add (ha : Holds a x A) (hb : Holds b y B) (h : A + B < 2 ^ (w - 1)) :
    Holds (a + b) (x + y) (A + B) := by
  have hle : |x + y| ≤ (A + B : ℕ) := by
    push_cast
    exact (abs_add_le x y).trans (add_le_add ha.le hb.le)
  exact ⟨add_eq_some ha.eq hb.eq (inRange_of_abs_le hle h), hle⟩

theorem Holds.sub (ha : Holds a x A) (hb : Holds b y B) (h : A + B < 2 ^ (w - 1)) :
    Holds (a - b) (x - y) (A + B) := by
  have hle : |x - y| ≤ (A + B : ℕ) := by
    push_cast
    exact (abs_sub x y).trans (add_le_add ha.le hb.le)
  exact ⟨sub_eq_some ha.eq hb.eq (inRange_of_abs_le hle h), hle⟩

theorem Holds.mul (ha : Holds a x A) (hb : Holds b y B) (h : A * B < 2 ^ (w - 1)) :
    Holds (a * b) (x * y) (A * B) := by
  have hle : |x * y| ≤ (A * B : ℕ) := by
    push_cast
    rw [abs_mul]
    exact mul_le_mul ha.le hb.le (abs_nonneg y) (Int.natCast_nonneg A)
  exact ⟨mul_eq_some ha.eq hb.eq (inRange_of_abs_le hle h), hle⟩

theorem Holds.neg (ha : Holds a x A) (h : A < 2 ^ (w - 1)) : Holds (-a) (-x) A := by
  have hle : |-x| ≤ A := by
    rw [abs_neg]
    exact ha.le
  exact ⟨neg_eq_some ha.eq (inRange_of_abs_le hle h), hle⟩

theorem Holds.widen {w' : ℕ} (ha : Holds a x A) (h : A < 2 ^ (w' - 1)) :
    Holds (a.widen w') x A := by
  refine ⟨?_, ha.le⟩
  rw [ha.eq]
  exact ofInt_of_inRange (inRange_of_abs_le ha.le h)

end CInt

end Iax
