import Mathlib.Order.MinMax
import PriceQuote.Money.Arithmetic
import PriceQuote.Proofs.Binary64.Rounding

/-!
# Arithmetic and order

What operations on numbers do to their order. Everything is said by ranks, so that infinities take
part, and not-a-number, which has no rank, is ruled out by any comparison:

* `rank_ofRatio`, `rank_finite_add_finite`: the rank of a rounded ratio, at most that of an infinity,
  and of a rounded sum;
* `zero_le_add`, `le_add_left`, `zero_le_sum`, `zero_le_mul`: sums and products of numbers that are
  not below zero;
* `Scaling`, `Scaling.le`: functions that go by the size of a number keep the order;
* `roundToCents_le_roundToCents`: rounding to cents keeps the order.
-/

namespace PriceQuote

namespace Binary64

/-! ## Ranks -/

@[simp]
theorem signed_zero (negative : Bool) : signed negative 0 = 0 := by
  cases negative <;> rfl

theorem signed_of_nonneg {negative : Bool} {n : Nat} (h : 0 ≤ signed negative n) :
    signed negative n = n := by
  cases negative with
  | false => rfl
  | true =>
    have hneg : signed true n = -(n : Int) := rfl
    rw [hneg] at h ⊢
    omega

/-- What keeps the order of sizes, and zero, keeps the order of signed sizes. -/
theorem signed_le_signed {size : Nat → Nat} (hmono : Monotone size) (hzero : size 0 = 0)
    {s t : Bool} {a b : Nat} (h : signed s a ≤ signed t b) :
    signed s (size a) ≤ signed t (size b) := by
  cases s <;> cases t <;> simp only [signed, Bool.false_eq_true, ↓reduceIte] at h ⊢
  · have := hmono (show a ≤ b by omega)
    omega
  · -- A number that is not below zero is at most one that is not above it: both are zero.
    obtain rfl : a = 0 := by omega
    obtain rfl : b = 0 := by omega
    omega
  · omega
  · have := hmono (show b ≤ a by omega)
    omega

theorem le_iff {x y : Binary64} :
    x.le y = true ↔ ∃ a b, x.rank = some a ∧ y.rank = some b ∧ a ≤ b := by
  unfold le
  cases x.rank <;> cases y.rank <;> simp

theorem le_trans {x y z : Binary64} (h : x.le y = true) (h' : y.le z = true) :
    x.le z = true := by
  obtain ⟨a, b, ha, hb, hab⟩ := le_iff.mp h
  obtain ⟨b', c, hb', hc, hbc⟩ := le_iff.mp h'
  obtain rfl : b = b' := Option.some.inj (hb.symm.trans hb')
  exact le_iff.mpr ⟨a, c, ha, hc, Int.le_trans hab hbc⟩

/-- A number that is not below zero has a natural number as its rank. -/
theorem zero_le_iff {x : Binary64} : zero.le x = true ↔ ∃ n : Nat, x.rank = some (n : Int) := by
  rw [le_iff]
  constructor
  · rintro ⟨_, a, h, ha, hle⟩
    obtain rfl := Option.some.inj h
    exact ⟨a.toNat, by rw [ha, Int.toNat_of_nonneg hle]⟩
  · rintro ⟨n, hn⟩
    exact ⟨0, n, rfl, hn, Int.natCast_nonneg n⟩

theorem ne_nan_of_zero_le {x : Binary64} (h : zero.le x = true) : x ≠ .nan := by
  rintro rfl
  cases h

theorem lt_zero_of_zero_le {x : Binary64} (h : zero.le x = true) : x.lt zero = false := by
  obtain ⟨n, hn⟩ := zero_le_iff.mp h
  simp [lt, hn]

theorem signed_units_of_zero_le {negative : Bool} {m : Magnitude}
    (h : zero.le (.finite negative m) = true) : signed negative m.units = m.units := by
  obtain ⟨n, hn⟩ := zero_le_iff.mp h
  rw [rank_finite] at hn
  refine signed_of_nonneg ?_
  rw [Option.some.inj hn]
  exact Int.natCast_nonneg n

theorem units_of_zero_le {m : Magnitude} (h : zero.le (.finite true m) = true) : m.units = 0 := by
  have hsigned : -(m.units : Int) = m.units := signed_units_of_zero_le h
  omega

theorem infinity_of_zero_le {negative : Bool} (h : zero.le (.infinity negative) = true) :
    negative = false := by
  cases negative with
  | false => rfl
  | true =>
    obtain ⟨n, hn⟩ := zero_le_iff.mp h
    have hneg : -(unitsBound : Int) = n := Option.some.inj hn
    have := unitsBound_pos
    omega

theorem le_infinity {x : Binary64} (h : x ≠ .nan) : x.le (.infinity false) = true := by
  rw [le_iff]
  cases x with
  | nan => exact absurd rfl h
  | infinity negative =>
    refine ⟨_, unitsBound, rfl, rfl, ?_⟩
    unfold signed
    split <;> omega
  | finite negative m =>
    refine ⟨_, unitsBound, rfl, rfl, ?_⟩
    have := m.representable.2
    unfold signed
    split <;> omega

/-! ## Rounded ratios -/

/-- The size of a rounded ratio, as a rank. -/
def ratioSize (den num : Nat) : Nat := min (nearestUnits num den) unitsBound

@[simp]
theorem ratioSize_zero (den : Nat) : ratioSize den 0 = 0 := by
  simp [ratioSize]

theorem monotone_ratioSize (den : Nat) : Monotone (ratioSize den) :=
  fun _ _ h => min_le_min_right unitsBound (monotone_nearestUnits den h)

theorem ratioSize_units (m : Magnitude) : ratioSize 1 m.units = m.units := by
  rw [ratioSize, nearestUnits_of_representable m.representable,
    Nat.min_eq_left (Nat.le_of_lt m.representable.2)]

theorem rank_ofRatio (negative : Bool) (num den : Nat) :
    (ofRatio negative num den).rank = some (signed negative (ratioSize den num)) := by
  unfold ofRatio ratioSize
  split
  · rename_i h
    rw [rank_finite, Nat.min_eq_left (Nat.le_of_lt h)]
  · rename_i h
    rw [Nat.min_eq_right (Nat.le_of_not_lt h)]
    rfl

theorem ofRatio_not (negative : Bool) (num den : Nat) :
    ofRatio (!negative) num den = (ofRatio negative num den).neg := by
  unfold ofRatio
  split <;> rfl

theorem finite_mul_finite (s t : Bool) (a b : Magnitude) :
    finite s a * finite t b = ofRatio (s != t) (a.units * b.units) unitsPerOne := by
  show mul (finite s a) (finite t b) = _
  rw [mul]

theorem finite_div_finite {s t : Bool} {a b : Magnitude} (hb : b.units ≠ 0) :
    finite s a / finite t b = ofRatio (s != t) (a.units * unitsPerOne) b.units := by
  show div (finite s a) (finite t b) = _
  rw [div, if_neg hb]

/-! ## Sums of finite numbers -/

theorem rank_ofUnits_zero : (ofUnits 0).rank = some 0 := by
  rw [ofUnits, rank_ofRatio, Int.natAbs_zero, ratioSize_zero, signed_zero]

/-- A sum of finite numbers stands where the sum of their places is rounded to. -/
theorem rank_finite_add_finite (s t : Bool) (a b : Magnitude) :
    (finite s a + finite t b).rank = (ofUnits (signed s a.units + signed t b.units)).rank := by
  have hadd : finite s a + finite t b = if signed s a.units + signed t b.units = 0 then
      .finite (s && t) .zero else ofUnits (signed s a.units + signed t b.units) := rfl
  rw [hadd]
  split
  · rename_i hzero
    rw [hzero, rank_ofUnits_zero, rank_finite, Magnitude.zero, signed_zero]
  · rfl

/-! ## Numbers that are not below zero -/

theorem rank_add_finite {s t : Bool} {a b : Magnitude} (ha : zero.le (.finite s a) = true)
    (hb : zero.le (.finite t b) = true) :
    (finite s a + finite t b).rank = some (ratioSize 1 (a.units + b.units) : Int) := by
  have hsign : decide ((a.units + b.units : Int) < 0) = false := decide_eq_false (by omega)
  rw [rank_finite_add_finite, signed_units_of_zero_le ha, signed_units_of_zero_le hb, ofUnits,
    rank_ofRatio, hsign]
  rfl

theorem le_add_left {x y : Binary64} (hx : zero.le x = true) (hy : zero.le y = true) :
    y.le (x + y) = true := by
  cases x with
  | nan => exact absurd rfl (ne_nan_of_zero_le hx)
  | infinity s =>
    obtain rfl := infinity_of_zero_le hx
    have hsum : infinity false + y = .infinity false := by
      cases y with
      | nan => exact absurd rfl (ne_nan_of_zero_le hy)
      | infinity t =>
        obtain rfl := infinity_of_zero_le hy
        rfl
      | finite t b => rfl
    rw [hsum]
    exact le_infinity (ne_nan_of_zero_le hy)
  | finite s a =>
    cases y with
    | nan => exact absurd rfl (ne_nan_of_zero_le hy)
    | infinity t =>
      obtain rfl := infinity_of_zero_le hy
      exact le_infinity (ne_nan_of_zero_le hy)
    | finite t b =>
      refine le_iff.mpr ⟨_, _, rank_finite t b, rank_add_finite hx hy, ?_⟩
      rw [signed_units_of_zero_le hy]
      have hmono := monotone_ratioSize 1 (Nat.le_add_left b.units a.units)
      rw [ratioSize_units] at hmono
      exact_mod_cast hmono

theorem zero_le_add {x y : Binary64} (hx : zero.le x = true) (hy : zero.le y = true) :
    zero.le (x + y) = true :=
  le_trans hy (le_add_left hx hy)

theorem zero_le_sum {xs : List Binary64} (h : ∀ x ∈ xs, zero.le x = true) :
    zero.le (sum xs) = true :=
  List.foldlRecOn (motive := fun total => zero.le total = true) xs (· + ·) rfl
    fun _ htotal x hx => zero_le_add htotal (h x hx)

theorem zero_le_mul {x y : Binary64} (hx : zero.le x = true) (hy : zero.le y = true)
    (hxf : x.isFinite = true) (hyf : y.isFinite = true) : zero.le (x * y) = true := by
  cases x with
  | nan => cases hxf
  | infinity s => cases hxf
  | finite s a =>
    cases y with
    | nan => cases hyf
    | infinity t => cases hyf
    | finite t b =>
      have hsign : signed (s != t) (ratioSize unitsPerOne (a.units * b.units)) =
          ratioSize unitsPerOne (a.units * b.units) := by
        -- A minus sign stands before a zero only, and makes the product one.
        cases s with
        | true => rw [units_of_zero_le hx, Nat.zero_mul, ratioSize_zero, signed_zero]; rfl
        | false =>
          cases t with
          | true => rw [units_of_zero_le hy, Nat.mul_zero, ratioSize_zero, signed_zero]; rfl
          | false => rfl
      exact zero_le_iff.mpr ⟨_, by rw [finite_mul_finite, rank_ofRatio, hsign]⟩

/-! ## Functions that go by the size -/

/-- A function of numbers that leaves infinities and signs alone and goes by the size of finite
numbers, which it takes to a ratio. -/
structure Scaling (f : Binary64 → Binary64) (scale : Nat → Nat) (den : Nat) : Prop where
  infinity : ∀ negative, f (.infinity negative) = .infinity negative
  finite : ∀ negative m, f (.finite negative m) = ofRatio negative (scale m.units) den
  monotone : Monotone scale
  zero : scale 0 = 0

/-- The size that a scaling takes a size to. -/
def scaledSize (scale : Nat → Nat) (den n : Nat) : Nat :=
  if n < unitsBound then ratioSize den (scale n) else unitsBound

namespace Scaling

variable {f : Binary64 → Binary64} {scale : Nat → Nat} {den : Nat}

theorem monotone_scaledSize (h : Scaling f scale den) : Monotone (scaledSize scale den) := by
  intro a b hab
  unfold scaledSize
  by_cases hb : b < unitsBound
  · rw [if_pos hb, if_pos (Nat.lt_of_le_of_lt hab hb)]
    exact monotone_ratioSize den (h.monotone hab)
  · rw [if_neg hb]
    split
    · exact Nat.min_le_right _ _
    · exact Nat.le_refl _

theorem scaledSize_zero (h : Scaling f scale den) : scaledSize scale den 0 = 0 := by
  rw [scaledSize, if_pos unitsBound_pos, h.zero, ratioSize_zero]

/-- A scaling goes by the size. -/
theorem exists_rank (h : Scaling f scale den) {x : Binary64} (hx : x ≠ .nan) :
    ∃ negative n, x.rank = some (signed negative n) ∧
      (f x).rank = some (signed negative (scaledSize scale den n)) := by
  cases x with
  | nan => exact absurd rfl hx
  | infinity negative =>
    refine ⟨negative, unitsBound, rfl, ?_⟩
    rw [h.infinity, scaledSize, if_neg (Nat.lt_irrefl _)]
    rfl
  | finite negative m =>
    refine ⟨negative, m.units, rfl, ?_⟩
    rw [h.finite, rank_ofRatio, scaledSize, if_pos m.representable.2]

theorem le (h : Scaling f scale den) {x y : Binary64} (hxy : x.le y = true) :
    (f x).le (f y) = true := by
  obtain ⟨a, b, ha, hb, hab⟩ := le_iff.mp hxy
  have hx : x ≠ .nan := by
    rintro rfl
    cases ha
  have hy : y ≠ .nan := by
    rintro rfl
    cases hb
  obtain ⟨s, m, hm, hfm⟩ := h.exists_rank hx
  obtain ⟨t, n, hn, hfn⟩ := h.exists_rank hy
  rw [hm] at ha
  rw [hn] at hb
  obtain rfl := Option.some.inj ha
  obtain rfl := Option.some.inj hb
  exact le_iff.mpr ⟨_, _, hfm, hfn,
    signed_le_signed h.monotone_scaledSize h.scaledSize_zero hab⟩

theorem ne_nan (h : Scaling f scale den) {x : Binary64} (hx : x ≠ .nan) : f x ≠ .nan := by
  obtain ⟨negative, n, -, hrank⟩ := h.exists_rank hx
  intro hnan
  rw [hnan] at hrank
  cases hrank

theorem neg (h : Scaling f scale den) {x : Binary64} (hx : x ≠ .nan) : f x.neg = (f x).neg := by
  cases x with
  | nan => exact absurd rfl hx
  | infinity negative =>
    rw [h.infinity]
    exact h.infinity (!negative)
  | finite negative m =>
    rw [h.finite, ← ofRatio_not]
    exact h.finite (!negative) m

end Scaling

theorem scaling_mul {c : Magnitude} (hc : c.units ≠ 0) :
    Scaling (· * .finite false c) (· * c.units) unitsPerOne where
  infinity negative := by
    have hmul : infinity negative * finite false c =
        if c.units = 0 then .nan else .infinity (negative != false) := rfl
    rw [hmul, if_neg hc, Bool.bne_false]
  finite negative m := by
    rw [finite_mul_finite, Bool.bne_false]
  monotone _ _ h := Nat.mul_le_mul_right _ h
  zero := Nat.zero_mul _

theorem scaling_div {c : Magnitude} (hc : c.units ≠ 0) :
    Scaling (· / .finite false c) (· * unitsPerOne) c.units where
  infinity negative := by
    have hdiv : infinity negative / finite false c = .infinity (negative != false) := rfl
    rw [hdiv, Bool.bne_false]
  finite negative m := by
    rw [finite_div_finite hc, Bool.bne_false]
  monotone _ _ h := Nat.mul_le_mul_right _ h
  zero := Nat.zero_mul _

theorem unitsPerOne_pos : 0 < unitsPerOne := by
  have hpow : ∀ n, 0 < Nat.pow 2 n := Nat.two_pow_pos
  unfold unitsPerOne
  exact hpow 1074

theorem scaling_roundHalfAway : Scaling roundHalfAway
    (fun n => (n + unitsPerOne / 2) / unitsPerOne * unitsPerOne) 1 where
  infinity _ := rfl
  finite _ _ := rfl
  monotone _ _ h := Nat.mul_le_mul_right _ (Nat.div_le_div_right (Nat.add_le_add_right h _))
  zero := by
    have hhalf : unitsPerOne / 2 < unitsPerOne := Nat.div_lt_self unitsPerOne_pos (by decide)
    rw [Nat.zero_add, Nat.div_eq_of_lt hhalf, Nat.zero_mul]

/-! ## Cents -/

def hundredUnits : Magnitude := ⟨100 * unitsPerOne, by decide +kernel⟩

theorem hundredUnits_ne_zero : hundredUnits.units ≠ 0 :=
  Nat.ne_of_gt (Nat.mul_pos (by decide) unitsPerOne_pos)

theorem hundred_eq : (Money.hundred : Binary64) = .finite false hundredUnits := by
  decide +kernel

theorem rank_literal_zero : (0 : Binary64).rank = some 0 := by
  decide +kernel

theorem rank_of_same_zero {x : Binary64} (h : x.same 0 = true) : x.rank = some 0 := by
  unfold same at h
  rw [rank_literal_zero] at h
  cases hrank : x.rank with
  | none =>
    rw [hrank] at h
    cases h
  | some a =>
    rw [hrank] at h
    rw [eq_of_beq h]

/-- Cents before the sign of a zero is taken off. -/
def cents (x : Binary64) : Binary64 :=
  roundHalfAway (x * .finite false hundredUnits) / .finite false hundredUnits

theorem roundToCents_eq (x : Binary64) :
    Money.roundToCents x = if (cents x).same 0 then zero else cents x := by
  rw [cents, ← hundred_eq]
  rfl

/-- Taking the sign off a zero leaves it where it is. -/
theorem rank_roundToCents (x : Binary64) : (Money.roundToCents x).rank = (cents x).rank := by
  rw [roundToCents_eq]
  split
  · rename_i hzero
    rw [rank_of_same_zero hzero, rank_zero]
  · rfl

theorem roundToCents_le_roundToCents {x y : Binary64} (h : x.le y = true) :
    (Money.roundToCents x).le (Money.roundToCents y) = true := by
  have hcents : (cents x).le (cents y) = true :=
    (scaling_div hundredUnits_ne_zero).le (scaling_roundHalfAway.le
      ((scaling_mul hundredUnits_ne_zero).le h))
  rw [le_iff, rank_roundToCents, rank_roundToCents]
  exact le_iff.mp hcents

theorem cents_neg {x : Binary64} (hx : x ≠ .nan) : cents x.neg = (cents x).neg := by
  have hmul := scaling_mul hundredUnits_ne_zero
  have hproduct : x.neg * .finite false hundredUnits = (x * .finite false hundredUnits).neg :=
    hmul.neg hx
  rw [cents, hproduct, scaling_roundHalfAway.neg (hmul.ne_nan hx)]
  exact (scaling_div hundredUnits_ne_zero).neg (scaling_roundHalfAway.ne_nan (hmul.ne_nan hx))

theorem zero_le_roundToCents {x : Binary64} (h : zero.le x = true) :
    zero.le (Money.roundToCents x) = true := by
  have hzero : Money.roundToCents zero = zero := by decide +kernel
  rw [← hzero]
  exact roundToCents_le_roundToCents h

/-! ## Prices in the end -/

theorem zero_le_atLeastZero (x : Binary64) : zero.le x.atLeastZero = true := by
  unfold atLeastZero
  split
  · rename_i h
    unfold lt at h
    rw [rank_zero] at h
    cases hrank : x.rank with
    | none => rw [hrank] at h; cases h
    | some a =>
      rw [hrank] at h
      exact le_iff.mpr ⟨0, a, rfl, hrank, Int.le_of_lt (of_decide_eq_true h)⟩
  · rfl

theorem isFinite_atLeastZero {x : Binary64} (h : x.isFinite = true) :
    x.atLeastZero.isFinite = true := by
  unfold atLeastZero
  split
  · exact h
  · rfl

end Binary64

end PriceQuote
