import PriceQuote.Binary64.Basic

/-!
# Rounding to binary64

The number nearest to a ratio of natural numbers, a tie going to the even neighbour:

* `divHalfEven`: the whole number nearest to a quotient;
* `nearestUnits`: the count of units nearest to a quotient, with 53 significant bits at most;
* `representable_nearestUnits`: it fits the format unless it is too large;
* `ofRatio`: the signed number, an infinity where the count is too large.
-/

namespace PriceQuote

/-- The whole number nearest to `num / den`; of two equally near, the even one. -/
def divHalfEven (num den : Nat) : Nat :=
  let quotient := num / den
  let twice := 2 * (num % den)
  if twice < den then quotient
  else if den < twice then quotient + 1
  else quotient + quotient % 2

/-- Rounding moves a quotient up by one at most. -/
theorem divHalfEven_le (num den : Nat) : divHalfEven num den ≤ num / den + 1 := by
  dsimp only [divHalfEven]
  have := Nat.mod_lt (num / den) (by decide : 2 > 0)
  repeat' split
  all_goals omega

theorem le_divHalfEven (num den : Nat) : num / den ≤ divHalfEven num den := by
  dsimp only [divHalfEven]
  repeat' split
  all_goals omega

theorem divHalfEven_mul (n den : Nat) (h : 0 < den) : divHalfEven (n * den) den = n := by
  simp [divHalfEven, Nat.mul_mod_left, Nat.mul_div_cancel _ h, h]

/-- How many low bits of `num / den` lie beyond the 53 significant ones. -/
def spareBits (num den : Nat) : Nat :=
  (num / den).log2 - 52

/-- The count of units nearest to `num / den` that has 53 significant bits at most. -/
def nearestUnits (num den : Nat) : Nat :=
  divHalfEven num (den * Nat.pow 2 (spareBits num den)) * Nat.pow 2 (spareBits num den)

/-- A count of 53 bits, or the next power of two, is as precise as asked wherever it is shifted. -/
theorem dvd_mul_two_pow {m : Nat} (s : Nat) (h : m ≤ Nat.pow 2 53) :
    Nat.pow 2 ((m * Nat.pow 2 s).log2 - 52) ∣ m * Nat.pow 2 s := by
  simp only [Nat.pow_eq] at h ⊢
  rcases Nat.lt_or_eq_of_le h with h | rfl
  · by_cases hz : m * 2 ^ s = 0
    · simp [hz]
    · have : (m * 2 ^ s).log2 < 53 + s := (Nat.log2_lt hz).2 (by
        rw [Nat.pow_add]; exact Nat.mul_lt_mul_of_pos_right h (Nat.two_pow_pos s))
      exact Nat.dvd_trans (Nat.pow_dvd_pow 2 (by omega)) (Nat.dvd_mul_left _ _)
  · rw [← Nat.pow_add, Nat.log2_two_pow]
    exact Nat.pow_dvd_pow 2 (by omega)

/-- The part of a quotient above its spare bits is less than 2⁵³. -/
theorem div_spareBits_lt (num den : Nat) :
    num / (den * Nat.pow 2 (spareBits num den)) < Nat.pow 2 53 := by
  simp only [Nat.pow_eq]
  rw [← Nat.div_div_eq_div_mul]
  refine Nat.div_lt_of_lt_mul ?_
  by_cases hz : num / den = 0
  · rw [hz]; exact Nat.mul_pos (Nat.two_pow_pos _) (Nat.two_pow_pos _)
  · rw [← Nat.pow_add]
    exact (Nat.log2_lt hz).1 (by unfold spareBits; omega)

/-- Rounding yields a number of the format, or one that is too large for it. -/
theorem representable_nearestUnits {num den : Nat} (h : nearestUnits num den < unitsBound) :
    Representable (nearestUnits num den) :=
  ⟨dvd_mul_two_pow _ (Nat.le_trans (divHalfEven_le _ _) (div_spareBits_lt num den)), h⟩

namespace Binary64

/-- The number nearest to plus or minus `num / den` units. -/
def ofRatio (negative : Bool) (num den : Nat) : Binary64 :=
  if h : nearestUnits num den < unitsBound then
    .finite negative ⟨nearestUnits num den, representable_nearestUnits h⟩
  else .infinity negative

/-- The number nearest to a whole number of units. -/
def ofUnits (units : Int) : Binary64 :=
  ofRatio (decide (units < 0)) units.natAbs 1

def ofNat (n : Nat) : Binary64 :=
  ofRatio false (n * unitsPerOne) 1

def ofInt (n : Int) : Binary64 :=
  ofUnits (n * unitsPerOne)

instance (n : Nat) : OfNat Binary64 n := ⟨ofNat n⟩

end Binary64

end PriceQuote
