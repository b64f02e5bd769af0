import Mathlib.Tactic.Linarith
import Mathlib.Tactic.Ring
import PriceQuote.Proofs.Binary64.Finite
import PriceQuote.Proofs.Binary64.Value

/-!
# Rounding to the nearest number

Rounding a ratio finds the number that is nearest to it, and of two that are equally near the one
whose last significant bit is zero:

* `gap`: how far a count is from a ratio;
* `gap_divHalfEven_le`, `gap_nearestUnits_le`: no whole number, and no count of 53 significant bits,
  is nearer than the one rounded to;
* `EndsEven`: the last significant bit is zero, as it is of the count rounded to in a tie;
* `IsNearest`, `IsNearest.unique`: so it is of numbers of either sign, one value being nearest;
* `isNearest_ofRatio`, `isNearest_ofInt`: rounding finds it;
* `value?_ofInt`: a whole number of 53 bits is not rounded.
-/

namespace PriceQuote

/-! ## Whole numbers -/

/-- How far a count is from a ratio, in parts of which the denominator tells how many make one. -/
def gap (num : Int) (den : Nat) (count : Int) : Nat :=
  (num - den * count).natAbs

/-- A ratio is its quotient and the remainder, so that other counts are at these distances. -/
theorem sub_mul_eq (num den k : Nat) :
    (num - den * k : Int) = den * ((num / den : Nat) - k) + (num % den : Nat) := by
  have hdecompose : (num : Int) = den * (num / den : Nat) + (num % den : Nat) := by
    rw [← Int.natCast_mul, ← Int.natCast_add, Nat.div_add_mod]
  rw [Int.mul_sub]
  omega

theorem gap_div (num den : Nat) : gap num den (num / den : Nat) = num % den := by
  rw [gap, sub_mul_eq, Int.sub_self, Int.mul_zero, Int.zero_add, Int.natAbs_natCast]

theorem gap_div_add_one (num : Nat) {den : Nat} (h : 0 < den) :
    gap num den (num / den + 1 : Nat) = den - num % den := by
  have hrem := Nat.mod_lt num h
  have hbelow : ((num / den : Nat) - (num / den + 1 : Nat) : Int) = -1 := by omega
  rw [gap, sub_mul_eq, hbelow]
  omega

/-- Between a ratio and every other whole number there is a neighbour of the ratio. -/
theorem le_gap_of_ne {num den k : Nat} (h : 0 < den) (hne : k ≠ num / den)
    (hne' : k ≠ num / den + 1) : den ≤ gap num den k := by
  have hrem := Nat.mod_lt num h
  rw [gap, sub_mul_eq]
  rcases Nat.lt_or_gt_of_ne hne with hlt | hgt
  · have hbelow : (den * 1 : Int) ≤ den * ((num / den : Nat) - k) :=
      Int.mul_le_mul_of_nonneg_left (by omega) (Int.natCast_nonneg den)
    omega
  · have habove : (den * ((num / den : Nat) - k) : Int) ≤ den * (-2) :=
      Int.mul_le_mul_of_nonneg_left (by omega) (Int.natCast_nonneg den)
    omega

/-- No whole number is nearer to a ratio than the one it is rounded to. If another is as near, that
one is even. -/
theorem gap_divHalfEven_le (num : Nat) {den : Nat} (h : 0 < den) (k : Nat) :
    gap num den (divHalfEven num den) ≤ gap num den k ∧
      (gap num den k = gap num den (divHalfEven num den) →
        k = divHalfEven num den ∨ 2 ∣ divHalfEven num den) := by
  have hrem := Nat.mod_lt num h
  have hbelow := gap_div num den
  have habove := gap_div_add_one num h
  have hposition : k = num / den ∨ k = num / den + 1 ∨ den ≤ gap num den k := by
    by_cases hne : k = num / den
    · exact .inl hne
    · by_cases hne' : k = num / den + 1
      · exact .inr (.inl hne')
      · exact .inr (.inr (le_gap_of_ne h hne hne'))
  have hhalf : divHalfEven num den = num / den ∧ 2 * (num % den) ≤ den ∧
        (2 * (num % den) = den → 2 ∣ num / den) ∨
      divHalfEven num den = num / den + 1 ∧ den ≤ 2 * (num % den) ∧
        (2 * (num % den) = den → 2 ∣ num / den + 1) := by
    unfold divHalfEven
    dsimp only
    split
    · omega
    · split
      · omega
      · have := Nat.mod_two_eq_zero_or_one (num / den)
        omega
  rcases hhalf with ⟨hround, hhalf, heven⟩ | ⟨hround, hhalf, heven⟩ <;> rw [hround]
  · rcases hposition with rfl | rfl | hfar <;> omega
  · rcases hposition with rfl | rfl | hfar <;> omega

/-! ## Counts of 53 significant bits -/

/-- The last of 53 significant bits is zero. -/
def EndsEven (units : Nat) : Prop :=
  Nat.pow 2 (units.log2 - 52 + 1) ∣ units

/-- An even count of 53 bits, or the next power of two, ends even wherever it is shifted. -/
theorem endsEven_mul_two_pow {m : Nat} (s : Nat) (h : m ≤ Nat.pow 2 53) (heven : 2 ∣ m) :
    EndsEven (m * Nat.pow 2 s) := by
  unfold EndsEven
  simp only [Nat.pow_eq] at h ⊢
  rcases Nat.lt_or_eq_of_le h with h | rfl
  · by_cases hz : m * 2 ^ s = 0
    · simp [hz]
    · have hlog : (m * 2 ^ s).log2 < 53 + s := (Nat.log2_lt hz).2 (by
        rw [Nat.pow_add]
        exact Nat.mul_lt_mul_of_pos_right h (Nat.two_pow_pos s))
      refine Nat.dvd_trans (Nat.pow_dvd_pow 2 (by omega : _ ≤ 1 + s)) ?_
      rw [Nat.pow_add]
      exact Nat.mul_dvd_mul_right heven _
  · rw [← Nat.pow_add, Nat.log2_two_pow]
    exact Nat.pow_dvd_pow 2 (by omega)

/-- Between two counts that end even there is one more of 53 significant bits. -/
theorem exists_between_of_endsEven {m n : Nat} (hm : EndsEven m) (hn : EndsEven n) (h : m < n) :
    ∃ k, m < k ∧ k < n ∧ Nat.pow 2 (k.log2 - 52) ∣ k := by
  have hstep : 0 < Nat.pow 2 (spareBits m 1) := Nat.two_pow_pos _
  have htwice : Nat.pow 2 (spareBits m 1 + 1) = 2 * Nat.pow 2 (spareBits m 1) := Nat.pow_succ'
  have hspare : spareBits m 1 ≤ spareBits n 1 := monotone_spareBits 1 h.le
  -- Both are multiples of twice the step that the lesser one makes to its neighbour.
  have hm' : Nat.pow 2 (spareBits m 1 + 1) ∣ m := by
    rw [spareBits, Nat.div_one]
    exact hm
  have hn' : Nat.pow 2 (spareBits m 1 + 1) ∣ n := by
    refine Nat.dvd_trans (Nat.pow_dvd_pow 2 (Nat.succ_le_succ hspare)) ?_
    rw [spareBits, Nat.div_one]
    exact hn
  have hapart := Nat.le_of_dvd (Nat.sub_pos_of_lt h) (Nat.dvd_sub hn' hm')
  refine ⟨m + Nat.pow 2 (spareBits m 1), by omega, by omega, ?_⟩
  have hcount := div_spareBits_lt m 1
  rw [Nat.one_mul] at hcount
  have hnext : m + Nat.pow 2 (spareBits m 1) =
      (m / Nat.pow 2 (spareBits m 1) + 1) * Nat.pow 2 (spareBits m 1) := by
    rw [Nat.succ_mul, Nat.div_mul_cancel]
    exact Nat.dvd_trans (Nat.pow_dvd_pow 2 (Nat.le_succ _)) hm'
  rw [hnext]
  exact dvd_mul_two_pow _ hcount

theorem gap_mul (num : Int) (den k factor : Nat) :
    gap num (den * factor) k = gap num den (k * factor : Nat) := by
  unfold gap
  congr 1
  push_cast
  ring

theorem gap_lt_gap {num den n k : Nat} (h : 0 < den) (hlt : n < k) (hbelow : k * den ≤ num) :
    gap num den k < gap num den n := by
  have hmul : n * den < k * den := Nat.mul_lt_mul_of_pos_right hlt h
  have hn : (den * n : Int) = (n * den : Nat) := by push_cast; ring
  have hk : (den * k : Int) = (k * den : Nat) := by push_cast; ring
  rw [gap, gap, hn, hk]
  omega

/-- No count of 53 significant bits is nearer to a ratio than the one it is rounded to. If another
is as near, that one ends even. -/
theorem gap_nearestUnits_le (num : Nat) {den : Nat} (h : 0 < den) {n : Nat}
    (hn : Nat.pow 2 (n.log2 - 52) ∣ n) :
    gap num den (nearestUnits num den) ≤ gap num den n ∧
      (gap num den n = gap num den (nearestUnits num den) →
        n = nearestUnits num den ∨ EndsEven (nearestUnits num den)) := by
  have hpow : 0 < Nat.pow 2 (spareBits num den) := Nat.two_pow_pos _
  have hround : ∀ k : Nat, _ := gap_divHalfEven_le num (Nat.mul_pos h hpow)
  simp only [gap_mul] at hround
  by_cases hdvd : Nat.pow 2 (spareBits num den) ∣ n
  · obtain ⟨k, rfl⟩ := hdvd
    rw [Nat.mul_comm _ k]
    refine ⟨(hround k).1, fun htie => ((hround k).2 htie).imp (congrArg (· * _)) fun heven => ?_⟩
    exact endsEven_mul_two_pow _
      (Nat.le_trans (divHalfEven_le _ _) (div_spareBits_lt num den)) heven
  · -- A count with finer bits is below the least one with as many, and that is below the ratio.
    have hlog : n.log2 - 52 < spareBits num den := by
      by_contra hle
      exact hdvd (Nat.dvd_trans (Nat.pow_dvd_pow 2 (Nat.le_of_not_lt hle)) hn)
    have hfiner : n < Nat.pow 2 52 * Nat.pow 2 (spareBits num den) := by
      simp only [Nat.pow_eq]
      rw [← Nat.pow_add]
      exact Nat.lt_log2_self.trans_le (Nat.pow_le_pow_right (by decide) (by omega))
    have hbelow : Nat.pow 2 52 * Nat.pow 2 (spareBits num den) * den ≤ num :=
      (Nat.le_div_iff_mul_le h).mp (two_pow_le_div (Nat.zero_lt_of_lt hlog))
    have hnearer := (hround (Nat.pow 2 52)).1
    have hfarther : gap num den (Nat.pow 2 52 * Nat.pow 2 (spareBits num den) : Nat) <
        gap num den n := gap_lt_gap h hfiner hbelow
    refine ⟨Nat.le_trans hnearer hfarther.le, fun htie => ?_⟩
    exact absurd htie (Nat.ne_of_gt (Nat.lt_of_le_of_lt hnearer hfarther))

namespace Binary64

/-! ## Numbers of either sign -/

theorem gap_signed (negative : Bool) (num den n : Nat) :
    gap (signed negative num) den (signed negative n) = gap num den n := by
  cases negative with
  | false => rfl
  | true =>
    have hneg : (-(num : Int) - den * -(n : Int)) = -(num - den * n) := by ring
    show (-(num : Int) - den * -(n : Int)).natAbs = _
    rw [hneg, Int.natAbs_neg, gap]

theorem gap_le_gap_signed (s t : Bool) (num den n : Nat) :
    gap num den n ≤ gap (signed s num) den (signed t n) := by
  have hmul : (0 : Int) ≤ den * n := Int.mul_nonneg (Int.natCast_nonneg _) (Int.natCast_nonneg _)
  have hneg : (den * -(n : Int)) = -(den * n) := by ring
  cases s <;> cases t <;> simp only [gap, signed, Bool.false_eq_true, ↓reduceIte, hneg] <;> omega

theorem eq_of_gap_signed {s t : Bool} {num den n : Nat} (h : 0 < den) (hnum : num = 0 → n = 0)
    (hgap : gap (signed s num) den (signed t n) = gap num den n) : signed t n = signed s n := by
  rcases Nat.eq_zero_or_pos n with rfl | hpos
  · rw [signed_zero, signed_zero]
  · have hmul : (0 : Int) < den * n := Int.mul_pos (by omega) (by omega)
    have hneg : (den * -(n : Int)) = -(den * n) := by ring
    cases s <;> cases t <;>
      simp only [gap, signed, Bool.false_eq_true, ↓reduceIte, hneg] at hgap ⊢ <;> omega

/-- No number is nearer to a ratio of either sign than the one it is rounded to. If another is as
near, that one ends even. -/
theorem gap_signed_nearestUnits_le (s t : Bool) (num : Nat) {den : Nat} (h : 0 < den)
    (m : Magnitude) :
    gap (signed s num) den (signed s (nearestUnits num den)) ≤
        gap (signed s num) den (signed t m.units) ∧
      (gap (signed s num) den (signed t m.units) =
          gap (signed s num) den (signed s (nearestUnits num den)) →
        signed t m.units = signed s (nearestUnits num den) ∨ EndsEven (nearestUnits num den)) := by
  obtain ⟨hnearest, htie⟩ := gap_nearestUnits_le num h m.representable.1
  have hsigns := gap_le_gap_signed s t num den m.units
  rw [gap_signed]
  refine ⟨Nat.le_trans hnearest hsigns, fun hequal => ?_⟩
  refine (htie (by omega)).imp (fun hunits => ?_) id
  rw [← hunits] at hequal ⊢
  refine eq_of_gap_signed h (fun hnum => ?_) hequal
  rw [hunits, hnum, nearestUnits_zero]

/-! ## Nearest numbers -/

/-- The last significant bit of a finite number is zero. -/
def IsEven : Binary64 → Prop
  | .finite _ m => EndsEven m.units
  | _ => False

/-- A number has a value that is nearest to a rational number: no other has one that is nearer, and
if another has one as near, the last significant bit of this one is zero. -/
structure IsNearest (x : Binary64) (p v : ℚ) : Prop where
  value?_eq : x.value? = some v
  closest : ∀ (y : Binary64) (w : ℚ), y.value? = some w → |p - v| ≤ |p - w|
  even_of_tie : ∀ (y : Binary64) (w : ℚ), y.value? = some w → |p - w| = |p - v| →
    w = v ∨ x.IsEven

theorem isNearest_of_value? {x : Binary64} {p : ℚ} (h : x.value? = some p) : x.IsNearest p p where
  value?_eq := h
  closest y w _ := by
    rw [sub_self, abs_zero]
    exact abs_nonneg _
  even_of_tie y w _ htie := by
    rw [sub_self, abs_zero, abs_eq_zero, sub_eq_zero] at htie
    exact .inl htie.symm

/-- Between two sizes that end even, behind their signs, there is one more. -/
theorem exists_signed_between {s t : Bool} {m n : Magnitude} (hm : EndsEven m.units)
    (hn : EndsEven n.units) (h : signed s m.units < signed t n.units) :
    ∃ r k, signed s m.units < signed r k ∧ signed r k < signed t n.units ∧ Representable k := by
  have hsizes : ∀ {a b : Magnitude}, EndsEven a.units → EndsEven b.units → a.units < b.units →
      ∃ k, a.units < k ∧ k < b.units ∧ Representable k := by
    intro a b ha hb hab
    obtain ⟨k, hak, hkb, hk⟩ := exists_between_of_endsEven ha hb hab
    exact ⟨k, hak, hkb, hk, Nat.lt_trans hkb b.representable.2⟩
  rcases lt_or_ge (signed s m.units) 0 with hneg | hnonneg
  · rcases lt_or_ge 0 (signed t n.units) with hpos | hnonpos
    · exact ⟨false, 0, hneg, hpos, Magnitude.zero.representable⟩
    · have hsm : signed (!s) m.units = m.units := signed_of_nonneg (by rw [signed_not]; omega)
      have hsn : signed (!t) n.units = n.units := signed_of_nonneg (by rw [signed_not]; omega)
      rw [signed_not] at hsm hsn
      obtain ⟨k, hnk, hkm, hk⟩ := hsizes hn hm (by omega)
      have hsk : signed true k = -k := rfl
      exact ⟨true, k, by omega, by omega, hk⟩
  · have hsm : signed s m.units = m.units := signed_of_nonneg hnonneg
    have hsn : signed t n.units = n.units := signed_of_nonneg (by omega)
    obtain ⟨k, hmk, hkn, hk⟩ := hsizes hm hn (by omega)
    have hsk : signed false k = k := rfl
    exact ⟨false, k, by omega, by omega, hk⟩

/-- Between the values of two even numbers there is one more. -/
theorem exists_value_between {x y : Binary64} {v w : ℚ} (hx : x.IsEven) (hy : y.IsEven)
    (hv : x.value? = some v) (hw : y.value? = some w) (h : v < w) :
    ∃ (z : Binary64) (r : ℚ), z.value? = some r ∧ v < r ∧ r < w := by
  obtain ⟨s, m, rfl, rfl⟩ := value?_eq_some_iff.mp hv
  obtain ⟨t, n, rfl, rfl⟩ := value?_eq_some_iff.mp hw
  have hlt : ∀ {a b : Int}, (a : ℚ) / unitsPerOne < b / unitsPerOne ↔ a < b := by
    intro a b
    rw [div_lt_div_iff_of_pos_right unitsPerOne_cast_pos, Int.cast_lt]
  obtain ⟨r, k, hbelow, habove, hk⟩ := exists_signed_between hx hy (hlt.mp h)
  exact ⟨.finite r ⟨k, hk⟩, _, rfl, hlt.mpr hbelow, hlt.mpr habove⟩

/-- What is nearest is not below what is nearest: were both equally near, both would be even, and
what is between them nearer. -/
theorem IsNearest.not_lt {x y : Binary64} {p v w : ℚ} (hx : x.IsNearest p v)
    (hy : y.IsNearest p w) : ¬ v < w := by
  intro hlt
  have htie : |p - v| = |p - w| :=
    le_antisymm (hx.closest y w hy.value?_eq) (hy.closest x v hx.value?_eq)
  have hxeven := (hx.even_of_tie y w hy.value?_eq htie.symm).resolve_left hlt.ne'
  have hyeven := (hy.even_of_tie x v hx.value?_eq htie).resolve_left hlt.ne
  obtain ⟨z, r, hz, hvr, hrw⟩ :=
    exists_value_between hxeven hyeven hx.value?_eq hy.value?_eq hlt
  rcases le_total p r with hpr | hrp
  · have hcloser := hy.closest z r hz
    rw [abs_sub_comm p w, abs_sub_comm p r, abs_of_nonneg (by linarith),
      abs_of_nonneg (by linarith)] at hcloser
    linarith
  · have hcloser := hx.closest z r hz
    rw [abs_of_nonneg (by linarith), abs_of_nonneg (by linarith)] at hcloser
    linarith

theorem IsNearest.unique {x y : Binary64} {p v w : ℚ} (hx : x.IsNearest p v)
    (hy : y.IsNearest p w) : v = w :=
  le_antisymm (le_of_not_gt (hy.not_lt hx)) (le_of_not_gt (hx.not_lt hy))

theorem IsNearest.eq_of_value? {x y : Binary64} {p v : ℚ} (h : x.IsNearest p v)
    (hy : y.value? = some p) : v = p :=
  h.unique (isNearest_of_value? hy)

theorem abs_sub_valueOf (num : Int) {den : Nat} (h : 0 < den) (count : Int) :
    |(num : ℚ) / (den * unitsPerOne) - count / unitsPerOne| =
      gap num den count / (den * unitsPerOne) := by
  have hden : (0 : ℚ) < den := Nat.cast_pos.mpr h
  have hsub : (num : ℚ) / (den * unitsPerOne) - count / unitsPerOne =
      ((num - den * count : Int) : ℚ) / (den * unitsPerOne) := by
    rw [Int.cast_sub, Int.cast_mul, Int.cast_natCast, sub_div,
      mul_div_mul_left _ _ (ne_of_gt hden)]
  rw [hsub, abs_div, abs_of_pos (mul_pos hden unitsPerOne_cast_pos), gap, Nat.cast_natAbs,
    Int.cast_abs]

/-- Rounding finds what is nearest to a ratio of units, unless it is too large. -/
theorem isNearest_ofRatio (negative : Bool) (num : Nat) {den : Nat} (h : 0 < den)
    (hbound : nearestUnits num den < unitsBound) :
    (ofRatio negative num den).IsNearest ((signed negative num : ℚ) / (den * unitsPerOne))
      ((signed negative (nearestUnits num den) : ℚ) / unitsPerOne) := by
  have hpos : (0 : ℚ) < den * unitsPerOne := mul_pos (Nat.cast_pos.mpr h) unitsPerOne_cast_pos
  have hround : ofRatio negative num den =
      .finite negative ⟨nearestUnits num den, representable_nearestUnits hbound⟩ := dif_pos hbound
  refine ⟨?_, fun y w hy => ?_, fun y w hy htie => ?_⟩
  · rw [hround]
    rfl
  · obtain ⟨t, n, rfl, rfl⟩ := value?_eq_some_iff.mp hy
    rw [valueOf, abs_sub_valueOf _ h, abs_sub_valueOf _ h]
    exact div_le_div_of_nonneg_right
      (Nat.cast_le.mpr (gap_signed_nearestUnits_le negative t num h n).1) hpos.le
  · obtain ⟨t, n, rfl, rfl⟩ := value?_eq_some_iff.mp hy
    rw [valueOf, abs_sub_valueOf _ h, abs_sub_valueOf _ h, div_left_inj' (ne_of_gt hpos),
      Nat.cast_inj] at htie
    rw [hround, valueOf, div_left_inj' unitsPerOne_cast_ne_zero, Int.cast_inj]
    exact (gap_signed_nearestUnits_le negative t num h n).2 htie

theorem isNearest_ofInt {n : Int} (h : n.natAbs ≤ Nat.pow 2 64) :
    ∃ v, (ofInt n).IsNearest n v := by
  have hbound : nearestUnits (n * unitsPerOne).natAbs 1 < unitsBound := by
    have hfinite := isFinite_ofInt h
    by_contra hlarge
    rw [ofInt, ofUnits, ofRatio, dif_neg hlarge] at hfinite
    exact Bool.false_ne_true hfinite
  have hnearest := isNearest_ofRatio (decide (n * unitsPerOne < 0)) (n * unitsPerOne).natAbs
    Nat.one_pos hbound
  rw [signed_natAbs, Nat.cast_one, one_mul, Int.cast_mul, Int.cast_natCast,
    mul_div_cancel_right₀ _ unitsPerOne_cast_ne_zero] at hnearest
  exact ⟨_, hnearest⟩

theorem value?_ofInt {n : Int} (h : n.natAbs ≤ Nat.pow 2 53) :
    (ofInt n).value? = some (n : ℚ) := by
  obtain ⟨x, hx⟩ := exists_value?_intCast h
  obtain ⟨v, hnearest⟩ := isNearest_ofInt (Nat.le_trans h (by decide))
  rw [hnearest.value?_eq, hnearest.eq_of_value? hx]

end Binary64

end PriceQuote
