import Mathlib.Data.Nat.Basic
import Mathlib.Order.Monotone.Defs
import PriceQuote.Binary64.Rounding

/-!
# Rounding and order

A greater ratio is never rounded to a lesser count, also where the two are rounded to a different
number of bits, and what fits the format stays as it is:

* `monotone_divHalfEven`: rounding to a whole number keeps the order;
* `two_pow_le_nearestUnits`, `nearestUnits_le_two_pow`: what is rounded to 53 bits has 53 bits, or
  is the next power of two;
* `monotone_nearestUnits`: rounding to 53 significant bits keeps the order;
* `nearestUnits_mul_mul`: it goes by the value of a ratio;
* `nearestUnits_of_representable`: it leaves alone what has no more.
-/

namespace PriceQuote

/-! ## Whole numbers -/

@[simp]
theorem divHalfEven_zero (den : Nat) : divHalfEven 0 den = 0 := by
  simp [divHalfEven]

theorem monotone_divHalfEven (den : Nat) : Monotone (divHalfEven · den) := by
  intro num num' h
  have hquotient : num / den ≤ num' / den := Nat.div_le_div_right h
  rcases Nat.lt_or_eq_of_le hquotient with hlt | heq
  · calc divHalfEven num den ≤ num / den + 1 := divHalfEven_le _ _
      _ ≤ num' / den := hlt
      _ ≤ divHalfEven num' den := le_divHalfEven _ _
  · -- With one quotient the remainders are in order, and both go by the same half.
    have hrem : num % den ≤ num' % den := by
      have hdecompose := Nat.div_add_mod num den
      have hdecompose' := Nat.div_add_mod num' den
      rw [heq] at hdecompose
      omega
    dsimp only [divHalfEven]
    rw [heq]
    repeat' split
    all_goals omega

/-! ## Significant bits -/

theorem monotone_spareBits (den : Nat) : Monotone (spareBits · den) := by
  intro num num' h
  have hquotient : num / den ≤ num' / den := Nat.div_le_div_right h
  refine Nat.sub_le_sub_right ?_ 52
  by_cases hz : num / den = 0
  · rw [hz]
    exact Nat.zero_le _
  · have hz' : num' / den ≠ 0 := fun e => hz (Nat.le_zero.mp (e ▸ hquotient))
    exact (Nat.le_log2 hz').mpr (Nat.le_trans (Nat.log2_self_le hz) hquotient)

/-- A quotient with bits too much is not below the least one with as many. -/
theorem two_pow_le_div {num den : Nat} (h : 0 < spareBits num den) :
    Nat.pow 2 52 * Nat.pow 2 (spareBits num den) ≤ num / den := by
  have hlog : (num / den).log2 = 52 + spareBits num den := by
    unfold spareBits at h ⊢
    omega
  have hz : num / den ≠ 0 := fun e => by simp [spareBits, e] at h
  simp only [Nat.pow_eq]
  rw [← Nat.pow_add, ← hlog]
  exact Nat.log2_self_le hz

/-- What has bits too much has 53 of them left at least. -/
theorem two_pow_le_nearestUnits {num den : Nat} (h : 0 < spareBits num den) :
    Nat.pow 2 52 * Nat.pow 2 (spareBits num den) ≤ nearestUnits num den := by
  have hquotient : Nat.pow 2 52 ≤ num / (den * Nat.pow 2 (spareBits num den)) := by
    rw [← Nat.div_div_eq_div_mul]
    exact (Nat.le_div_iff_mul_le (Nat.two_pow_pos _)).mpr (two_pow_le_div h)
  exact Nat.mul_le_mul_right _ (Nat.le_trans hquotient (le_divHalfEven _ _))

/-- What is rounded has no more than 53 bits before the spare ones, or is the next power of two. -/
theorem nearestUnits_le_two_pow (num den : Nat) :
    nearestUnits num den ≤ Nat.pow 2 53 * Nat.pow 2 (spareBits num den) :=
  Nat.mul_le_mul_right _ (Nat.le_trans (divHalfEven_le _ _) (div_spareBits_lt num den))

theorem monotone_nearestUnits (den : Nat) : Monotone (nearestUnits · den) := by
  intro num num' h
  rcases Nat.lt_or_eq_of_le (monotone_spareBits den h) with hlt | heq
  · -- The power of two between the two counts keeps them apart.
    calc nearestUnits num den
        ≤ Nat.pow 2 53 * Nat.pow 2 (spareBits num den) := nearestUnits_le_two_pow num den
      _ = Nat.pow 2 52 * Nat.pow 2 (spareBits num den + 1) := by
        simp only [Nat.pow_eq, Nat.pow_succ]
        omega
      _ ≤ Nat.pow 2 52 * Nat.pow 2 (spareBits num' den) :=
        Nat.mul_le_mul_left _ (Nat.pow_le_pow_right (by decide) hlt)
      _ ≤ nearestUnits num' den := two_pow_le_nearestUnits (Nat.zero_lt_of_lt hlt)
  · simp only at heq
    simp only [nearestUnits, heq]
    exact Nat.mul_le_mul_right _ (monotone_divHalfEven _ h)

@[simp]
theorem nearestUnits_zero (den : Nat) : nearestUnits 0 den = 0 := by
  simp [nearestUnits]

/-- A count that fits the format is rounded to itself. -/
theorem nearestUnits_of_representable {n : Nat} (h : Representable n) : nearestUnits n 1 = n := by
  have hspare : Nat.pow 2 (spareBits n 1) ∣ n := by
    rw [spareBits, Nat.div_one]
    exact h.1
  have hpos : 0 < Nat.pow 2 (spareBits n 1) := Nat.two_pow_pos _
  calc nearestUnits n 1
      = divHalfEven (n / Nat.pow 2 (spareBits n 1) * Nat.pow 2 (spareBits n 1))
          (Nat.pow 2 (spareBits n 1)) * Nat.pow 2 (spareBits n 1) := by
        rw [nearestUnits, Nat.one_mul, Nat.div_mul_cancel hspare]
    _ = n / Nat.pow 2 (spareBits n 1) * Nat.pow 2 (spareBits n 1) := by
        rw [divHalfEven_mul _ _ hpos]
    _ = n := Nat.div_mul_cancel hspare

/-! ## Common factors -/

/-- A factor of both sides of a ratio makes no difference to the nearest whole number. -/
theorem divHalfEven_mul_mul (num den : Nat) {factor : Nat} (h : 0 < factor) :
    divHalfEven (num * factor) (den * factor) = divHalfEven num den := by
  have hquotient : num * factor / (den * factor) = num / den := Nat.mul_div_mul_right num den h
  have htwice : 2 * (num * factor % (den * factor)) = 2 * (num % den) * factor := by
    rw [Nat.mul_mod_mul_right, Nat.mul_assoc]
  have hbelow : 2 * (num % den) * factor < den * factor ↔ 2 * (num % den) < den :=
    Nat.mul_lt_mul_right h
  have habove : den * factor < 2 * (num % den) * factor ↔ den < 2 * (num % den) :=
    Nat.mul_lt_mul_right h
  unfold divHalfEven
  simp only [hquotient, htwice, hbelow, habove]

theorem nearestUnits_mul_mul (num den : Nat) {factor : Nat} (h : 0 < factor) :
    nearestUnits (num * factor) (den * factor) = nearestUnits num den := by
  have hspare : spareBits (num * factor) (den * factor) = spareBits num den := by
    rw [spareBits, Nat.mul_div_mul_right num den h, spareBits]
  rw [nearestUnits, hspare, Nat.mul_right_comm den factor, divHalfEven_mul_mul _ _ h, nearestUnits]

end PriceQuote
