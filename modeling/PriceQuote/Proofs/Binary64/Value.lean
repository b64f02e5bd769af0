import Mathlib.Algebra.Order.Field.Basic
import Mathlib.Data.Rat.Cast.Order
import PriceQuote.Proofs.Binary64.Neutral

/-!
# The values of numbers

A finite number is a rational one, which its place on the line tells:

* `valueOf`, `value?`: the rational number, that there is for every finite number;
* `same_iff_of_value?`, `le_iff_of_value?`: numbers are compared by their values;
* `representable_mul_unitsPerOne`, `exists_value?_intCast`: a whole number of 53 bits is the
  value of a number.
-/

namespace PriceQuote.Binary64

/-- The rational number that a magnitude behind a sign stands for. -/
def valueOf (negative : Bool) (m : Magnitude) : ℚ :=
  (signed negative m.units : ℚ) / (unitsPerOne : ℚ)

/-- The rational number that a finite number is. -/
def value? : Binary64 → Option ℚ
  | .finite negative m => some (valueOf negative m)
  | _ => none

theorem unitsPerOne_cast_pos : (0 : ℚ) < (unitsPerOne : ℚ) :=
  Nat.cast_pos.mpr unitsPerOne_pos

theorem unitsPerOne_cast_ne_zero : (unitsPerOne : ℚ) ≠ 0 :=
  ne_of_gt unitsPerOne_cast_pos

theorem valueOf_zero : valueOf false .zero = 0 := by
  have hunits : signed false Magnitude.zero.units = 0 := rfl
  rw [valueOf, hunits, Int.cast_zero, zero_div]

theorem valueOf_hundredUnits : valueOf false hundredUnits = 100 := by
  have hunits : signed false hundredUnits.units = ((100 * unitsPerOne : Nat) : Int) := rfl
  rw [valueOf, hunits, Int.cast_natCast, Nat.cast_mul, mul_div_assoc,
    div_self unitsPerOne_cast_ne_zero]
  norm_num

theorem value?_eq_some_iff {x : Binary64} {v : ℚ} :
    x.value? = some v ↔ ∃ negative m, x = .finite negative m ∧ valueOf negative m = v := by
  cases x with
  | nan => exact ⟨fun h => (nomatch h), fun ⟨_, _, h, _⟩ => nomatch h⟩
  | infinity negative => exact ⟨fun h => (nomatch h), fun ⟨_, _, h, _⟩ => nomatch h⟩
  | finite negative m =>
    constructor
    · intro h
      exact ⟨negative, m, rfl, Option.some.inj h⟩
    · rintro ⟨negative', m', h, hv⟩
      cases h
      exact congrArg some hv

theorem same_iff_of_value? {x y : Binary64} {v w : ℚ} (hx : x.value? = some v)
    (hy : y.value? = some w) : x.same y = true ↔ v = w := by
  obtain ⟨s, m, rfl, rfl⟩ := value?_eq_some_iff.mp hx
  obtain ⟨t, n, rfl, rfl⟩ := value?_eq_some_iff.mp hy
  rw [same, rank_finite, rank_finite, valueOf, valueOf,
    div_left_inj' unitsPerOne_cast_ne_zero, Int.cast_inj]
  exact beq_iff_eq

theorem le_iff_of_value? {x y : Binary64} {v w : ℚ} (hx : x.value? = some v)
    (hy : y.value? = some w) : x.le y = true ↔ v ≤ w := by
  obtain ⟨s, m, rfl, rfl⟩ := value?_eq_some_iff.mp hx
  obtain ⟨t, n, rfl, rfl⟩ := value?_eq_some_iff.mp hy
  rw [le, rank_finite, rank_finite, valueOf, valueOf,
    div_le_div_iff_of_pos_right unitsPerOne_cast_pos, Int.cast_le]
  exact decide_eq_true_iff

theorem representable_mul_unitsPerOne {n : Nat} (h : n ≤ Nat.pow 2 53) :
    Representable (n * unitsPerOne) := by
  have hdvd : ∀ s, Nat.pow 2 ((n * Nat.pow 2 s).log2 - 52) ∣ n * Nat.pow 2 s :=
    fun s => dvd_mul_two_pow s h
  refine ⟨?_, Nat.lt_of_le_of_lt (Nat.mul_le_mul_right _ h) (by decide +kernel)⟩
  unfold unitsPerOne
  exact hdvd 1074

/-- A whole number of 53 bits is the value of a number. -/
theorem exists_value?_intCast {n : Int} (h : n.natAbs ≤ Nat.pow 2 53) :
    ∃ x : Binary64, x.value? = some (n : ℚ) := by
  refine ⟨.finite (decide (n < 0)) ⟨n.natAbs * unitsPerOne, representable_mul_unitsPerOne h⟩,
    congrArg some ?_⟩
  rw [valueOf, signed_mul, signed_natAbs, Int.cast_mul, Int.cast_natCast,
    mul_div_cancel_right₀ _ unitsPerOne_cast_ne_zero]

end PriceQuote.Binary64
