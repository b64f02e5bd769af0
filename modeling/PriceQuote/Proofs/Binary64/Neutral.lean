import PriceQuote.Proofs.Binary64.Order

/-!
# Numbers that change nothing

Two numbers stand at the same place when they are equal, the sign of a zero aside; not-a-number
stands nowhere, which counts as one more place. Operations go by the place, and zero and one leave a
number where it is:

* `eq_or_rank_zero`: what stands at the same place is equal, or both are zeros;
* `rank_add_congr`, `rank_sub_congr`, `rank_mul_congr`: operations go by the place;
* `rank_sub_zero`, `mul_one`, `rank_sub_self`: `x - 0 = x` and `x * 1 = x`, and `x - x = 0` where `x`
  is finite;
* `isZero_roundToCents`, `atLeastZero_congr`: what goes by the place in rules.
-/

namespace PriceQuote

theorem Magnitude.eq_of_units {a b : Magnitude} (h : a.units = b.units) : a = b := by
  obtain ⟨units, _⟩ := a
  obtain ⟨_, _⟩ := b
  cases h
  rfl

namespace Binary64

/-! ## Signed sizes -/

@[simp]
theorem natAbs_signed (negative : Bool) (n : Nat) : (signed negative n).natAbs = n := by
  cases negative <;> simp [signed]

theorem signed_natAbs (n : Int) : signed (decide (n < 0)) n.natAbs = n := by
  by_cases h : n < 0
  · rw [decide_eq_true h]
    simp only [signed, ↓reduceIte]
    omega
  · rw [decide_eq_false h]
    simp only [signed, Bool.false_eq_true, ↓reduceIte]
    omega

theorem signed_not (negative : Bool) (n : Nat) : signed (!negative) n = -signed negative n := by
  cases negative <;> simp [signed]

theorem signed_mul (negative : Bool) (n k : Nat) :
    signed negative (n * k) = signed negative n * k := by
  cases negative with
  | false => exact Int.natCast_mul n k
  | true => exact (congrArg Neg.neg (Int.natCast_mul n k)).trans (Int.neg_mul n k).symm

theorem eq_of_signed {s t : Bool} {m n : Nat} (h : signed s m = signed t n) : m = n := by
  rw [← natAbs_signed s m, h, natAbs_signed]

theorem sign_eq_of_signed {s t : Bool} {n : Nat} (hn : n ≠ 0) (h : signed s n = signed t n) :
    s = t := by
  cases s <;> cases t <;> simp only [signed, Bool.false_eq_true, ↓reduceIte] at h ⊢ <;> omega

/-! ## Standing at the same place -/

/-- What stands at the same place is equal, or both are zeros. -/
theorem eq_or_rank_zero {x y : Binary64} (h : x.rank = y.rank) :
    x = y ∨ x.rank = some 0 ∧ y.rank = some 0 := by
  cases x with
  | nan =>
    cases y with
    | nan => exact .inl rfl
    | infinity t => cases h
    | finite t b => cases h
  | infinity s =>
    cases y with
    | nan => cases h
    | infinity t =>
      have hsign : s = t := sign_eq_of_signed (Nat.ne_of_gt unitsBound_pos) (Option.some.inj h)
      exact .inl (congrArg infinity hsign)
    | finite t b =>
      have hunits : unitsBound = b.units := eq_of_signed (Option.some.inj h)
      exact absurd b.representable.2 (Nat.not_lt_of_le (Nat.le_of_eq hunits))
  | finite s a =>
    cases y with
    | nan => cases h
    | infinity t =>
      have hunits : a.units = unitsBound := eq_of_signed (Option.some.inj h)
      exact absurd a.representable.2 (Nat.not_lt_of_le (Nat.le_of_eq hunits.symm))
    | finite t b =>
      obtain rfl : a = b := Magnitude.eq_of_units (eq_of_signed (Option.some.inj h))
      by_cases hzero : a.units = 0
      · right
        rw [rank_finite, rank_finite, hzero, signed_zero, signed_zero]
        exact ⟨rfl, rfl⟩
      · left
        rw [sign_eq_of_signed hzero (Option.some.inj h)]

theorem exists_zero_of_rank {x : Binary64} (h : x.rank = some 0) : ∃ s, x = .finite s .zero := by
  cases x with
  | nan => cases h
  | infinity s =>
    have hbound : unitsBound = 0 := by
      rw [← natAbs_signed s unitsBound, Option.some.inj h, Int.natAbs_zero]
    exact absurd hbound (Nat.ne_of_gt unitsBound_pos)
  | finite s m =>
    have hunits : m.units = 0 := by
      rw [← natAbs_signed s m.units, Option.some.inj h, Int.natAbs_zero]
    exact ⟨s, congrArg (finite s) (Magnitude.eq_of_units hunits)⟩

theorem isFinite_congr {x y : Binary64} (h : x.rank = y.rank) : x.isFinite = y.isFinite := by
  rcases eq_or_rank_zero h with rfl | ⟨hx, hy⟩
  · rfl
  · obtain ⟨s, rfl⟩ := exists_zero_of_rank hx
    obtain ⟨t, rfl⟩ := exists_zero_of_rank hy
    rfl

/-! ## Sums and differences -/

theorem rank_ofUnits_signed (negative : Bool) (m : Magnitude) :
    (ofUnits (signed negative m.units)).rank = some (signed negative m.units) := by
  have hsigned := signed_natAbs (signed negative m.units)
  rw [natAbs_signed] at hsigned
  rw [ofUnits, rank_ofRatio, natAbs_signed, ratioSize_units, hsigned]

/-- Adding a zero leaves a number where it is. -/
theorem rank_add_zero (x : Binary64) {y : Binary64} (h : y.rank = some 0) :
    (x + y).rank = x.rank := by
  obtain ⟨t, rfl⟩ := exists_zero_of_rank h
  cases x with
  | nan => rfl
  | infinity s => rfl
  | finite s a =>
    rw [rank_finite_add_finite, Magnitude.zero, signed_zero, Int.add_zero, rank_ofUnits_signed,
      rank_finite]

theorem add_comm (x y : Binary64) : x + y = y + x := by
  show x.add y = y.add x
  cases x with
  | nan => cases y <;> rfl
  | infinity s =>
    cases y with
    | nan => rfl
    | infinity t => cases s <;> cases t <;> rfl
    | finite t b => rfl
  | finite s a =>
    cases y with
    | nan => rfl
    | infinity t => rfl
    | finite t b => simp only [add, Int.add_comm, Bool.and_comm]

theorem rank_add_congr_right (x : Binary64) {y y' : Binary64} (h : y.rank = y'.rank) :
    (x + y).rank = (x + y').rank := by
  rcases eq_or_rank_zero h with rfl | ⟨hy, hy'⟩
  · rfl
  · rw [rank_add_zero x hy, rank_add_zero x hy']

/-- Sums go by the place of their terms. -/
theorem rank_add_congr {x x' y y' : Binary64} (hx : x.rank = x'.rank) (hy : y.rank = y'.rank) :
    (x + y).rank = (x' + y').rank := by
  rw [rank_add_congr_right x hy, add_comm x, rank_add_congr_right y' hx, add_comm y']

theorem rank_neg (x : Binary64) : x.neg.rank = x.rank.map (- ·) := by
  cases x with
  | nan => rfl
  | infinity s => exact congrArg some (signed_not s unitsBound)
  | finite s a => exact congrArg some (signed_not s a.units)

theorem rank_neg_congr {x y : Binary64} (h : x.rank = y.rank) : x.neg.rank = y.neg.rank := by
  rw [rank_neg, rank_neg, h]

theorem rank_sub_congr {x x' y y' : Binary64} (hx : x.rank = x'.rank) (hy : y.rank = y'.rank) :
    (x - y).rank = (x' - y').rank := by
  show (x + y.neg).rank = (x' + y'.neg).rank
  exact rank_add_congr hx (rank_neg_congr hy)

theorem rank_sub_zero (x : Binary64) {y : Binary64} (h : y.rank = some 0) :
    (x - y).rank = x.rank := by
  show (x + y.neg).rank = x.rank
  refine rank_add_zero x ?_
  rw [rank_neg, h]
  rfl

theorem rank_sub_self {x y : Binary64} (hx : x.isFinite = true) (h : x.rank = y.rank) :
    (x - y).rank = some 0 := by
  rw [rank_sub_congr rfl h.symm]
  cases x with
  | nan => cases hx
  | infinity s => cases hx
  | finite s a =>
    show (finite s a + finite (!s) a).rank = some 0
    rw [rank_finite_add_finite, signed_not, Int.add_right_neg, rank_ofUnits_zero]

/-! ## Products and quotients -/

theorem rank_mul_congr {x x' : Binary64} (h : x.rank = x'.rank) (y : Binary64) :
    (x * y).rank = (x' * y).rank := by
  rcases eq_or_rank_zero h with rfl | ⟨hx, hx'⟩
  · rfl
  · obtain ⟨s, rfl⟩ := exists_zero_of_rank hx
    obtain ⟨s', rfl⟩ := exists_zero_of_rank hx'
    cases y with
    | nan => rfl
    | infinity t => rfl
    | finite t b =>
      rw [finite_mul_finite, finite_mul_finite, rank_ofRatio, rank_ofRatio, Magnitude.zero,
        Nat.zero_mul, ratioSize_zero, signed_zero, signed_zero]

def oneUnits : Magnitude := ⟨unitsPerOne, by decide +kernel⟩

theorem units_oneUnits : oneUnits.units = unitsPerOne := by
  rw [oneUnits]

theorem oneUnits_ne_zero : oneUnits.units ≠ 0 := by
  rw [units_oneUnits]
  exact Nat.ne_of_gt unitsPerOne_pos

theorem one_eq : (1 : Binary64) = .finite false oneUnits := by
  decide +kernel

theorem ofBinary64_eq (x : Binary64) : Money.Arithmetic.ofBinary64 x = x := rfl

theorem money_one : (Money.one : Binary64) = 1 := by
  rw [Money.one, ofBinary64_eq]

/-- A magnitude is not rounded when it is multiplied and divided by the same. -/
theorem ofRatio_mul_self (negative : Bool) (m : Magnitude) {factor : Nat} (h : 0 < factor) :
    ofRatio negative (m.units * factor) factor = .finite negative m := by
  have hnearest : nearestUnits (m.units * factor) factor = m.units := by
    have hscale := nearestUnits_mul_mul m.units 1 h
    rwa [Nat.one_mul, nearestUnits_of_representable m.representable] at hscale
  have hbound : nearestUnits (m.units * factor) factor < unitsBound := by
    rw [hnearest]
    exact m.representable.2
  rw [ofRatio, dif_pos hbound]
  exact congrArg (finite negative) (Magnitude.eq_of_units hnearest)

theorem mul_one (x : Binary64) : x * 1 = x := by
  have hscaling := scaling_mul oneUnits_ne_zero
  rw [one_eq]
  cases x with
  | nan => rfl
  | infinity s => exact hscaling.infinity s
  | finite s a =>
    have hfinite : finite s a * finite false oneUnits =
        ofRatio s (a.units * oneUnits.units) unitsPerOne := hscaling.finite s a
    rw [hfinite, units_oneUnits, ofRatio_mul_self s a unitsPerOne_pos]

theorem rank_zero_div_hundred {x : Binary64} (h : x.rank = some 0) :
    (x / Money.hundred).rank = some 0 := by
  obtain ⟨s, rfl⟩ := exists_zero_of_rank h
  rw [hundred_eq, finite_div_finite hundredUnits_ne_zero, rank_ofRatio, Magnitude.zero,
    Nat.zero_mul, ratioSize_zero, signed_zero]

theorem eq_one_of_rank {x : Binary64} (h : x.rank = (1 : Binary64).rank) : x = 1 := by
  rcases eq_or_rank_zero h with h | ⟨-, hone⟩
  · exact h
  · rw [one_eq, rank_finite] at hone
    have hunits : oneUnits.units = 0 := Int.ofNat.inj (Option.some.inj hone)
    exact absurd hunits oneUnits_ne_zero

/-! ## Cents, and prices in the end -/

theorem isZero_roundToCents {x : Binary64} (h : x.rank = some 0) :
    (Money.roundToCents x).same 0 = true := by
  obtain ⟨s, rfl⟩ := exists_zero_of_rank h
  cases s <;> decide +kernel

theorem atLeastZero_congr {x y : Binary64} (h : x.rank = y.rank) :
    x.atLeastZero = y.atLeastZero := by
  rcases eq_or_rank_zero h with rfl | ⟨hx, hy⟩
  · rfl
  · simp [atLeastZero, lt, hx, hy]

end Binary64

end PriceQuote
