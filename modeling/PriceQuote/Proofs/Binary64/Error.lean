import Mathlib.Algebra.Order.Round
import Mathlib.Data.Rat.Floor
import PriceQuote.Proofs.Binary64.Nearest

/-!
# How far rounding goes

A number that is nearest to another one is not far from it, and what a finite operation comes to is
nearest to the exact result, as long as that is not too large:

* `exists_value?_div_two_pow`: whole numbers of 53 bits, over a power of two, are values;
* `IsNearest.abs_sub_le`: so what is nearest is within half a step of them;
* `exists_isNearest_mul`, `exists_isNearest_div`: products and quotients are nearest;
* `exists_value?_roundHalfAway`: rounding to a whole number finds one within a half.
-/

namespace PriceQuote.Binary64

/-! ## Half a step -/

theorem cast_two_pow_53 : ((Nat.pow 2 53 : ℕ) : ℚ) = 2 ^ 53 := by
  rw [Nat.pow_eq, Nat.cast_pow, Nat.cast_ofNat]

/-- A whole number within a half of what has no more than 53 bits has no more either. -/
theorem natAbs_le_of_abs_sub_le {n : ℤ} {q : ℚ} (hq : |q| ≤ 2 ^ 53) (h : |q - n| ≤ 1 / 2) :
    n.natAbs ≤ Nat.pow 2 53 := by
  rw [← cast_two_pow_53] at hq
  generalize Nat.pow 2 53 = bound at hq ⊢
  obtain ⟨hlow, hhigh⟩ := abs_le.mp hq
  obtain ⟨habove, hbelow⟩ := abs_le.mp h
  have hupper : (n : ℚ) < (bound + 1 : ℤ) := by
    push_cast
    linarith
  have hlower : ((-bound - 1 : ℤ) : ℚ) < n := by
    push_cast
    linarith
  have := Int.cast_lt.mp hupper
  have := Int.cast_lt.mp hlower
  omega

/-- A fraction that is so small a power of two is still a power of two in units. -/
theorem exists_unitsPerOne_eq {k : ℕ} (h : k ≤ 1074) :
    ∃ s, unitsPerOne = Nat.pow 2 k * Nat.pow 2 s := by
  unfold unitsPerOne
  generalize 1074 = n at h
  refine ⟨n - k, ?_⟩
  simp only [Nat.pow_eq]
  rw [← Nat.pow_add, Nat.add_sub_cancel' h]

/-- A whole number of 53 bits over a power of two is the value of a number. -/
theorem exists_value?_div_two_pow {m : ℤ} {k : ℕ} (hm : m.natAbs ≤ Nat.pow 2 53) (hk : k ≤ 1074) :
    ∃ x : Binary64, x.value? = some ((m : ℚ) / 2 ^ k) := by
  obtain ⟨s, hone⟩ := exists_unitsPerOne_eq hk
  have hstep : Nat.pow 2 s ≤ unitsPerOne := by
    rw [hone]
    exact Nat.le_mul_of_pos_left _ (Nat.two_pow_pos k)
  have hfits : Representable (m.natAbs * Nat.pow 2 s) :=
    ⟨dvd_mul_two_pow s hm, (Nat.mul_le_mul hm hstep).trans_lt (by decide +kernel)⟩
  have hpos : (Nat.pow 2 s : ℕ) ≠ (0 : ℚ) := Nat.cast_ne_zero.mpr (Nat.two_pow_pos s).ne'
  refine ⟨.finite (decide (m < 0)) ⟨_, hfits⟩, congrArg some ?_⟩
  rw [valueOf, signed_mul, signed_natAbs, Int.cast_mul, Int.cast_natCast, hone, Nat.cast_mul,
    mul_div_mul_right _ _ hpos, Nat.pow_eq, Nat.cast_pow, Nat.cast_ofNat]

/-- A value that is nearest to a number is within half of the step that 53 bits leave there. -/
theorem IsNearest.abs_sub_le {x : Binary64} {p v : ℚ} {k : ℕ} (h : x.IsNearest p v)
    (hk : k ≤ 1074) (hp : |p * 2 ^ k| ≤ 2 ^ 53) : |p - v| ≤ 1 / 2 / 2 ^ k := by
  have hstep : (0 : ℚ) < 2 ^ k := by positivity
  obtain ⟨y, hy⟩ := exists_value?_div_two_pow (natAbs_le_of_abs_sub_le hp (abs_sub_round _)) hk
  have hsub : p - round (p * 2 ^ k) / 2 ^ k = (p * 2 ^ k - round (p * 2 ^ k)) / 2 ^ k := by
    rw [sub_div, mul_div_cancel_right₀ _ hstep.ne']
  calc |p - v| ≤ |p - round (p * 2 ^ k) / 2 ^ k| := h.closest y _ hy
    _ = |p * 2 ^ k - round (p * 2 ^ k)| / 2 ^ k := by rw [hsub, abs_div, abs_of_pos hstep]
    _ ≤ 1 / 2 / 2 ^ k := by
      gcongr
      exact abs_sub_round _

/-! ## Operations -/

/-- Rounding finds what is nearest to a ratio of units that is not too large. -/
theorem exists_isNearest_ofRatio (negative : Bool) (num : ℕ) {den : ℕ} (h : 0 < den)
    (hsize : |(signed negative num : ℚ) / (den * unitsPerOne)| ≤ 2 ^ 53) :
    ∃ v, (ofRatio negative num den).IsNearest ((signed negative num : ℚ) / (den * unitsPerOne))
      v := by
  have hpos : (0 : ℚ) < den * unitsPerOne := mul_pos (Nat.cast_pos.mpr h) unitsPerOne_cast_pos
  have hnum : num ≤ Nat.pow 2 53 * unitsPerOne * den := by
    rw [abs_div, abs_of_pos hpos, div_le_iff₀ hpos, ← Int.cast_abs, Int.abs_eq_natAbs,
      natAbs_signed, Int.cast_natCast, ← cast_two_pow_53] at hsize
    have hcast : (num : ℚ) ≤ (Nat.pow 2 53 * unitsPerOne * den : ℕ) := by
      rw [Nat.cast_mul, Nat.cast_mul]
      linarith
    exact Nat.cast_le.mp hcast
  refine ⟨_, isNearest_ofRatio negative num h ?_⟩
  calc nearestUnits num den ≤ nearestUnits (Nat.pow 2 53 * unitsPerOne * den) den :=
        monotone_nearestUnits den hnum
    _ = nearestUnits (Nat.pow 2 53 * unitsPerOne) 1 := by
        rw [← nearestUnits_mul_mul _ 1 h, Nat.one_mul]
    _ < unitsBound := by decide +kernel

variable {x y : Binary64} {p q : ℚ}

/-- The product of finite numbers is nearest to the exact one. -/
theorem exists_isNearest_mul (hx : x.value? = some p) (hy : y.value? = some q)
    (hsize : |p * q| ≤ 2 ^ 53) : ∃ v, (x * y).IsNearest (p * q) v := by
  obtain ⟨s, a, rfl, rfl⟩ := value?_eq_some_iff.mp hx
  obtain ⟨t, b, rfl, rfl⟩ := value?_eq_some_iff.mp hy
  have hproduct : valueOf s a * valueOf t b =
      (signed (s != t) (a.units * b.units) : ℚ) / (unitsPerOne * unitsPerOne) := by
    rw [valueOf, valueOf, div_mul_div_comm, ← Int.cast_mul]
    congr 2
    cases s <;> cases t <;> simp [signed]
  rw [hproduct] at hsize ⊢
  rw [finite_mul_finite]
  exact exists_isNearest_ofRatio _ _ unitsPerOne_pos hsize

theorem exists_isNearest_div (hx : x.value? = some p) (hy : y.value? = some q) (hne : q ≠ 0)
    (hsize : |p / q| ≤ 2 ^ 53) : ∃ v, (x / y).IsNearest (p / q) v := by
  obtain ⟨s, a, rfl, rfl⟩ := value?_eq_some_iff.mp hx
  obtain ⟨t, b, rfl, rfl⟩ := value?_eq_some_iff.mp hy
  have hb : b.units ≠ 0 := by
    rintro hb
    rw [valueOf, hb, signed_zero, Int.cast_zero, zero_div] at hne
    exact hne rfl
  have hquotient : valueOf s a / valueOf t b =
      (signed (s != t) (a.units * unitsPerOne) : ℚ) / (b.units * unitsPerOne) := by
    rw [valueOf, valueOf, div_div_div_cancel_right₀ unitsPerOne_cast_ne_zero, signed_mul,
      Int.cast_mul, Int.cast_natCast, mul_div_mul_right _ _ unitsPerOne_cast_ne_zero]
    cases s <;> cases t <;> simp [signed, neg_div, div_neg]
  rw [hquotient] at hsize ⊢
  rw [finite_div_finite hb]
  exact exists_isNearest_ofRatio _ _ (Nat.pos_of_ne_zero hb) hsize

/-- A size rounded to whole ones is within half a one of what it was. -/
theorem gap_halfAway (units : ℕ) :
    2 * gap units 1 ((units + unitsPerOne / 2) / unitsPerOne * unitsPerOne : ℕ) ≤ unitsPerOne := by
  have hrem := Nat.mod_lt (units + unitsPerOne / 2) unitsPerOne_pos
  have hdecompose := Nat.div_add_mod' (units + unitsPerOne / 2) unitsPerOne
  rw [gap, Int.natCast_one, Int.one_mul]
  generalize (units + unitsPerOne / 2) / unitsPerOne * unitsPerOne = ones at hdecompose ⊢
  omega

/-- Rounding to a whole number finds one that is within a half. -/
theorem exists_value?_roundHalfAway (hx : x.value? = some q) (hsize : |q| ≤ 2 ^ 53) :
    ∃ n : ℤ, (roundHalfAway x).value? = some (n : ℚ) ∧ |q - n| ≤ 1 / 2 := by
  obtain ⟨s, m, rfl, rfl⟩ := value?_eq_some_iff.mp hx
  have hgap := gap_halfAway m.units
  have hround : roundHalfAway (finite s m) =
    ofRatio s ((m.units + unitsPerOne / 2) / unitsPerOne * unitsPerOne) 1 := rfl
  generalize (m.units + unitsPerOne / 2) / unitsPerOne = count at hgap hround
  have hones : (signed s (count * unitsPerOne) : ℚ) / unitsPerOne = signed s count := by
    rw [signed_mul, Int.cast_mul, Int.cast_natCast, mul_div_cancel_right₀ _ unitsPerOne_cast_ne_zero]
  have hhalf : |valueOf s m - signed s count| ≤ 1 / 2 := by
    have hdistance := abs_sub_valueOf (signed s m.units) Nat.one_pos (signed s (count * unitsPerOne))
    rw [hones, gap_signed, Nat.cast_one, one_mul] at hdistance
    rw [valueOf, hdistance, div_le_iff₀ unitsPerOne_cast_pos]
    have hcast : ((2 * gap m.units 1 (count * unitsPerOne : ℕ) : ℕ) : ℚ) ≤ unitsPerOne :=
      Nat.cast_le.mpr hgap
    rw [Nat.cast_mul, Nat.cast_ofNat] at hcast
    linarith
  have hcount : count ≤ Nat.pow 2 53 := by
    rw [← natAbs_signed s count]
    exact natAbs_le_of_abs_sub_le hsize hhalf
  have hfits := ofRatio_mul_self s ⟨count * unitsPerOne, representable_mul_unitsPerOne hcount⟩
    Nat.one_pos
  rw [Nat.mul_one] at hfits
  refine ⟨signed s count, ?_, hhalf⟩
  rw [hround, hfits]
  exact congrArg some hones

end PriceQuote.Binary64
