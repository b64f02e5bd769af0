import PriceQuote.Proofs.Binary64.Error

/-!
# Cents

Rounding to cents multiplies, rounds and divides, and each step may be a little off. For prices that
are not too large the errors stay too small to lead from one cent to the next:

* `exists_isNearest_roundToCents`: what comes out is nearest to a whole number of cents, that is
  hardly more than half a cent away;
* `isNearest_roundToCents`: what is nearest to a whole number of cents stays as it is;
* `value?_roundToCents_neg`, `roundToCents_ne_negative_zero`: signs, of numbers and of zeros;
* `roundToCents_nearest_cent`: all of it for prices up to a billion.
-/

namespace PriceQuote

namespace Binary64

variable {x y : Binary64} {p q v w : ℚ}

/-! ## Places and values -/

theorem of_rank_zero (h : x.rank = some 0) : x.value? = some 0 ∧ x.IsEven := by
  obtain ⟨s, rfl⟩ := exists_zero_of_rank h
  have hvalue : valueOf s .zero = 0 := by
    have hunits : signed s Magnitude.zero.units = 0 := signed_zero s
    rw [valueOf, hunits, Int.cast_zero, zero_div]
  exact ⟨congrArg some hvalue, Nat.dvd_zero _⟩

theorem value?_congr (h : x.rank = y.rank) : x.value? = y.value? := by
  rcases eq_or_rank_zero h with rfl | ⟨hx, hy⟩
  · rfl
  · rw [(of_rank_zero hx).1, (of_rank_zero hy).1]

theorem IsNearest.congr (h : x.rank = y.rank) (hx : x.IsNearest p v) : y.IsNearest p v where
  value?_eq := by rw [← value?_congr h, hx.value?_eq]
  closest := hx.closest
  even_of_tie z w hz htie := by
    rcases eq_or_rank_zero h with rfl | ⟨-, hy⟩
    · exact hx.even_of_tie z w hz htie
    · exact .inr (of_rank_zero hy).2

theorem value?_neg (h : x.value? = some v) : x.neg.value? = some (-v) := by
  obtain ⟨s, m, rfl, rfl⟩ := value?_eq_some_iff.mp h
  refine congrArg some ?_
  rw [valueOf, signed_not, Int.cast_neg, neg_div, valueOf]

/-- Numbers of one value are equal, negative zero aside. -/
theorem eq_of_value? (hx : x.value? = some v) (hy : y.value? = some v)
    (hxzero : x ≠ .finite true .zero) (hyzero : y ≠ .finite true .zero) : x = y := by
  have hzero : ∀ {z : Binary64}, z.rank = some 0 → z ≠ .finite true .zero → z = zero := by
    intro z hrank hne
    obtain ⟨s, rfl⟩ := exists_zero_of_rank hrank
    cases s with
    | false => rfl
    | true => exact absurd rfl hne
  have hrank : x.rank = y.rank := by
    obtain ⟨s, m, rfl, rfl⟩ := value?_eq_some_iff.mp hx
    obtain ⟨t, n, rfl, hvalue⟩ := value?_eq_some_iff.mp hy
    rw [valueOf, valueOf, div_left_inj' unitsPerOne_cast_ne_zero, Int.cast_inj] at hvalue
    rw [rank_finite, rank_finite, hvalue]
  rcases eq_or_rank_zero hrank with h | ⟨hx0, hy0⟩
  · exact h
  · rw [hzero hx0 hxzero, hzero hy0 hyzero]

/-! ## Cents -/

/-- A price in cents is nearest to a whole number of them, hardly more than a half away. -/
theorem exists_isNearest_roundToCents (hx : x.value? = some p) (hp : |p| ≤ 2 ^ 30) :
    ∃ (n : ℤ) (v : ℚ), (Money.roundToCents x).IsNearest (n / 100) v ∧
      |p * 100 - n| ≤ 1 / 2 + 1 / 2 / 2 ^ 16 ∧ |n / 100 - v| ≤ 1 / 2 / 2 ^ 22 := by
  have hhundred : (finite false hundredUnits).value? = some 100 :=
    congrArg some valueOf_hundredUnits
  obtain ⟨hlow, hhigh⟩ := abs_le.mp hp
  obtain ⟨q, hproduct⟩ := exists_isNearest_mul hx hhundred
    (abs_le.mpr ⟨by linarith, by linarith⟩)
  have hq : |p * 100 - q| ≤ 1 / 2 / 2 ^ 16 :=
    hproduct.abs_sub_le (by decide) (abs_le.mpr ⟨by linarith, by linarith⟩)
  obtain ⟨hqlow, hqhigh⟩ := abs_le.mp hq
  obtain ⟨n, hwhole, hn⟩ := exists_value?_roundHalfAway hproduct.value?_eq
    (abs_le.mpr ⟨by linarith, by linarith⟩)
  obtain ⟨hnlow, hnhigh⟩ := abs_le.mp hn
  obtain ⟨v, hquotient⟩ := exists_isNearest_div hwhole hhundred (by norm_num)
    (abs_le.mpr ⟨by linarith, by linarith⟩)
  refine ⟨n, v, hquotient.congr (rank_roundToCents x).symm, ?_, ?_⟩
  · exact abs_le.mpr ⟨by linarith, by linarith⟩
  · exact hquotient.abs_sub_le (by decide) (abs_le.mpr ⟨by linarith, by linarith⟩)

/-- What is nearest to a whole number of cents is so again once it is rounded. -/
theorem isNearest_roundToCents {n : ℤ} (hx : x.IsNearest (n / 100) v) (hv : |v| ≤ 2 ^ 30)
    (hclose : |n / 100 - v| ≤ 1 / 2 / 2 ^ 22) :
    (Money.roundToCents x).IsNearest (n / 100) v := by
  obtain ⟨n', v', hnearest, hn', -⟩ := exists_isNearest_roundToCents hx.value?_eq hv
  -- The errors that the cents were found with and are found with again make less than one cent.
  have hapart : |((n' - n : ℤ) : ℚ)| < 1 := by
    obtain ⟨hlow, hhigh⟩ := abs_le.mp hn'
    obtain ⟨hbelow, habove⟩ := abs_le.mp hclose
    rw [Int.cast_sub]
    exact abs_lt.mpr ⟨by linarith, by linarith⟩
  rw [← Int.cast_abs, ← Int.cast_one, Int.cast_lt, Int.abs_lt_one_iff, sub_eq_zero] at hapart
  subst hapart
  rwa [hx.unique hnearest]

/-- Rounding to cents leaves no sign at a zero. -/
theorem roundToCents_ne_negative_zero (x : Binary64) :
    Money.roundToCents x ≠ .finite true .zero := by
  rw [roundToCents_eq]
  split
  · nofun
  · rename_i hzero
    intro h
    rw [h] at hzero
    exact hzero (by decide +kernel)

/-- Prices below zero are rounded like those above it. -/
theorem value?_roundToCents_neg (hx : x.value? = some p)
    (h : (Money.roundToCents x).value? = some v) :
    (Money.roundToCents (-x)).value? = some (-v) := by
  have hnan : x ≠ .nan := by
    rintro rfl
    cases hx
  have hrank : (Money.roundToCents x.neg).rank = (Money.roundToCents x).neg.rank := by
    rw [rank_roundToCents, cents_neg hnan]
    exact rank_neg_congr (rank_roundToCents x).symm
  show (Money.roundToCents x.neg).value? = _
  rw [value?_congr hrank]
  exact value?_neg h

end Binary64

open Binary64
open Money (roundToCents)

/-- A price of up to a billion, rounded to cents, is the number nearest to a whole number of cents,
no more than 0.00501 away. Rounding it again changes nothing, rounding what is on the other side of
zero gives what is on the other side of it, rounding more gives no less, and there is no negative
zero. -/
theorem roundToCents_nearest_cent {x : Binary64} {p : ℚ} (hx : x.value? = some p)
    (hp : |p| ≤ 10 ^ 9) :
    ∃ (n : ℤ) (v : ℚ), (roundToCents x).IsNearest (n / 100) v ∧ |v - p| ≤ 501 / 100000 ∧
      roundToCents (roundToCents x) = roundToCents x ∧
      (roundToCents (-x)).value? = some (-v) ∧
      roundToCents x ≠ .finite true .zero ∧
      ∀ (y : Binary64) (q : ℚ), y.value? = some q → |q| ≤ 10 ^ 9 → p ≤ q →
        ∃ w, (roundToCents y).value? = some w ∧ v ≤ w := by
  obtain ⟨n, v, hnearest, hcents, hclose⟩ :=
    exists_isNearest_roundToCents hx (hp.trans (by norm_num))
  obtain ⟨hlow, hhigh⟩ := abs_le.mp hp
  obtain ⟨hcentslow, hcentshigh⟩ := abs_le.mp hcents
  obtain ⟨hcloselow, hclosehigh⟩ := abs_le.mp hclose
  have hv : |v| ≤ 2 ^ 30 := abs_le.mpr ⟨by linarith, by linarith⟩
  refine ⟨n, v, hnearest, abs_le.mpr ⟨by linarith, by linarith⟩, ?_,
    value?_roundToCents_neg hx hnearest.value?_eq, roundToCents_ne_negative_zero x, ?_⟩
  · exact eq_of_value? (isNearest_roundToCents hnearest hv hclose).value?_eq hnearest.value?_eq
      (roundToCents_ne_negative_zero _) (roundToCents_ne_negative_zero x)
  · intro y q hy hq hpq
    obtain ⟨m, w, hnearest', -, -⟩ := exists_isNearest_roundToCents hy (hq.trans (by norm_num))
    refine ⟨w, hnearest'.value?_eq, ?_⟩
    exact (le_iff_of_value? hnearest.value?_eq hnearest'.value?_eq).mp
      (roundToCents_le_roundToCents ((le_iff_of_value? hx hy).mpr hpq))

/-- An eighth is half a cent away from 0.13, and a quarter is more. -/
theorem roundToCents_nearest_cent_eighth :
    let eighth := ofRatio false unitsPerOne 8
    let quarter := ofRatio false unitsPerOne 4
    eighth.value? = some (1 / 8) ∧ quarter.value? = some (1 / 4) ∧
    roundToCents eighth = ofRatio false (13 * unitsPerOne) 100 ∧
    ∃ (n : ℤ) (v : ℚ), (roundToCents eighth).IsNearest (n / 100) v ∧ |v - 1 / 8| ≤ 501 / 100000 ∧
      roundToCents (roundToCents eighth) = roundToCents eighth ∧
      ∃ w, (roundToCents quarter).value? = some w ∧ v ≤ w := by
  intro eighth quarter
  have heighth : eighth.value? = some (1 / 8) := by decide +kernel
  have hquarter : quarter.value? = some (1 / 4) := by decide +kernel
  obtain ⟨n, v, hnearest, hclose, hagain, -, -, hmono⟩ :=
    roundToCents_nearest_cent heighth (by norm_num [abs_of_pos])
  exact ⟨heighth, hquarter, by decide +kernel, n, v, hnearest, hclose, hagain,
    hmono quarter (1 / 4) hquarter (by norm_num [abs_of_pos]) (by norm_num)⟩

end PriceQuote
