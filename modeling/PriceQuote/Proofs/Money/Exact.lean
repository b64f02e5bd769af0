import Mathlib.Data.Rat.Floor
import Mathlib.Tactic.Linarith
import PriceQuote.Proofs.Binary64.Value

/-!
# Exact arithmetic on prices

Prices read without rounding: the finite ones are rational numbers, and beside them stand the
infinities and what is no number, which only come from amounts of rules and add-ons. Operations on
them follow those on binary64 numbers, where rounding is left out:

* `Exact`, its operations and its `Money.Arithmetic`;
* `Exact.isFinite_iff`: what is finite is rational;
* `roundHalfAway_eq_zero_iff`: what is nearer to zero than a half is rounded to it;
* `Exact.isZero_roundToCents_iff`: a change comes to no cent when it is less than half a cent.
-/

namespace PriceQuote

/-- A number computed without rounding. -/
inductive Exact where
  | nan
  | infinity (negative : Bool)
  | finite (value : ℚ)

/-- The nearest whole number; a half goes away from zero. -/
def roundHalfAway (q : ℚ) : ℤ :=
  if q < 0 then -⌊-q + 1 / 2⌋ else ⌊q + 1 / 2⌋

/-- What is nearer to zero than a half is rounded to it, and nothing else. -/
theorem roundHalfAway_eq_zero_iff {q : ℚ} : roundHalfAway q = 0 ↔ |q| < 1 / 2 := by
  unfold roundHalfAway
  split
  · rename_i hneg
    rw [neg_eq_zero, Int.floor_eq_zero_iff, Set.mem_Ico, abs_of_neg hneg]
    constructor
    · rintro ⟨-, h⟩
      linarith
    · intro h
      constructor <;> linarith
  · rename_i hnonneg
    rw [not_lt] at hnonneg
    rw [Int.floor_eq_zero_iff, Set.mem_Ico, abs_of_nonneg hnonneg]
    constructor
    · rintro ⟨-, h⟩
      linarith
    · intro h
      constructor <;> linarith

example : roundHalfAway (5 / 2) = 3 ∧ roundHalfAway (-5 / 2) = -3 := by decide +kernel

namespace Exact

/-- The number that a binary64 one stands for; zeros have no sign. -/
def ofBinary64 : Binary64 → Exact
  | .nan => .nan
  | .infinity negative => .infinity negative
  | .finite negative m => .finite (Binary64.valueOf negative m)

def neg : Exact → Exact
  | .nan => .nan
  | .infinity negative => .infinity !negative
  | .finite q => .finite (-q)

def add : Exact → Exact → Exact
  | .nan, _ => .nan
  | _, .nan => .nan
  | .infinity s, .infinity t => if s = t then .infinity s else .nan
  | .infinity s, .finite _ => .infinity s
  | .finite _, .infinity t => .infinity t
  | .finite p, .finite q => .finite (p + q)

def sub (x y : Exact) : Exact :=
  x.add y.neg

/-- The product; an infinity times nothing is no number. -/
def mul : Exact → Exact → Exact
  | .nan, _ => .nan
  | _, .nan => .nan
  | .infinity s, .infinity t => .infinity (s != t)
  | .infinity s, .finite q => if q = 0 then .nan else .infinity (s != decide (q < 0))
  | .finite p, .infinity t => if p = 0 then .nan else .infinity (decide (p < 0) != t)
  | .finite p, .finite q => .finite (p * q)

/-- The quotient; over nothing, it is infinite or no number. -/
def div : Exact → Exact → Exact
  | .nan, _ => .nan
  | _, .nan => .nan
  | .infinity _, .infinity _ => .nan
  | .infinity s, .finite q => .infinity (s != decide (q < 0))
  | .finite _, .infinity _ => .finite 0
  | .finite p, .finite q =>
    if q = 0 then (if p = 0 then .nan else .infinity (decide (p < 0))) else .finite (p / q)

instance : Money.Arithmetic Exact where
  add := add
  sub := sub
  mul := mul
  div := div
  ofBinary64 := ofBinary64
  roundHalfAway
    | .finite q => .finite (roundHalfAway q)
    | x => x
  isFinite
    | .finite _ => true
    | _ => false
  isZero
    | .finite q => q = 0
    | _ => false
  atLeastZero
    | .finite q => .finite (max q 0)
    | .infinity false => .infinity false
    | _ => .finite 0

open Money.Arithmetic (isFinite isZero)

theorem isFinite_iff {x : Exact} : isFinite x = true ↔ ∃ q, x = .finite q := by
  cases x with
  | nan => exact ⟨fun h => (Bool.false_ne_true h).elim, fun ⟨_, h⟩ => nomatch h⟩
  | infinity negative => exact ⟨fun h => (Bool.false_ne_true h).elim, fun ⟨_, h⟩ => nomatch h⟩
  | finite q => exact ⟨fun _ => ⟨q, rfl⟩, fun _ => rfl⟩

theorem finite_sub_finite (p q : ℚ) : Exact.finite p - .finite q = .finite (p - q) :=
  congrArg Exact.finite (sub_eq_add_neg p q).symm

theorem hundred_eq : (Money.hundred : Exact) = .finite 100 := by
  have hvalue : ∀ x : Binary64, (Money.Arithmetic.ofBinary64 x : Exact) =
      ofBinary64 (Money.Arithmetic.ofBinary64 x : Binary64) := fun _ => rfl
  rw [Money.hundred, hvalue, ← Money.hundred, Binary64.hundred_eq, ofBinary64, Binary64.valueOf_hundredUnits]

/-- The whole number of cents that is nearest to a price, as a price again. -/
theorem rounded_finite (q : ℚ) :
    Money.Arithmetic.roundHalfAway (Exact.finite q * Money.hundred) / Money.hundred =
      Exact.finite (PriceQuote.roundHalfAway (q * 100) / 100) := by
  rw [hundred_eq]
  show Exact.div (.finite (PriceQuote.roundHalfAway (q * 100))) (.finite 100) = _
  rw [Exact.div, if_neg (by norm_num)]

theorem isZero_finite_iff {q : ℚ} : isZero (Exact.finite q) = true ↔ q = 0 :=
  decide_eq_true_iff

theorem isZero_zero : isZero (Money.Arithmetic.ofBinary64 .zero : Exact) = true :=
  isZero_finite_iff.mpr Binary64.valueOf_zero

/-- A change comes to no cent when it is less than half a cent. -/
theorem isZero_roundToCents_iff {q : ℚ} :
    isZero (Money.roundToCents (Exact.finite q)) = true ↔ |q| < 1 / 200 := by
  have hcents : |q * 100| < 1 / 2 ↔ |q| < 1 / 200 := by
    rw [abs_mul, abs_of_pos (by norm_num : (0 : ℚ) < 100)]
    constructor <;> intro h <;> linarith
  have hzero : isZero (Exact.finite (PriceQuote.roundHalfAway (q * 100) / 100)) = true ↔
      |q| < 1 / 200 := by
    rw [isZero_finite_iff, div_eq_zero_iff, or_iff_left (by norm_num), Int.cast_eq_zero,
      roundHalfAway_eq_zero_iff, hcents]
  rw [Money.roundToCents, rounded_finite, ← hzero]
  split
  · rename_i h
    exact iff_of_true isZero_zero h
  · exact Iff.rfl

end Exact

end PriceQuote
