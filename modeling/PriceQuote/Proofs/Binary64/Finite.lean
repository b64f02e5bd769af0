import Mathlib.Data.List.Induction
import PriceQuote.Proofs.Binary64.Order

/-!
# Finite results

What comes of a number that is not finite is not finite: no sum or difference brings it back. So a
finite result speaks for everything it was computed from:

* `isFinite_of_add`, `isFinite_of_sub`, `isFinite_of_sum`: the terms of what is finite are finite;
* `isFinite_of_le`: a number between zero and a finite one is finite;
* `isFinite_ofInt`: so is a whole number of 64 bits.
-/

namespace PriceQuote.Binary64

@[simp]
theorem isFinite_neg (x : Binary64) : x.neg.isFinite = x.isFinite := by
  cases x <;> rfl

/-- The terms of a finite sum are finite. -/
theorem isFinite_of_add {x y : Binary64} (h : (x + y).isFinite = true) :
    x.isFinite = true ∧ y.isFinite = true := by
  replace h : (x.add y).isFinite = true := h
  cases x with
  | nan => cases h
  | infinity s =>
    cases y with
    | nan => cases h
    | infinity t => cases s <;> cases t <;> cases h
    | finite t b => cases h
  | finite s a =>
    cases y with
    | nan => cases h
    | infinity t => cases h
    | finite t b => exact ⟨rfl, rfl⟩

theorem isFinite_of_sub {x y : Binary64} (h : (x - y).isFinite = true) :
    x.isFinite = true ∧ y.isFinite = true := by
  have hadd := isFinite_of_add (x := x) (y := y.neg) h
  rwa [isFinite_neg] at hadd

theorem isFinite_of_sum {xs : List Binary64} (h : (sum xs).isFinite = true) :
    ∀ x ∈ xs, x.isFinite = true := by
  -- From the right: the sum of the terms before the last is one of two terms itself.
  induction xs using List.reverseRecOn with
  | nil => exact fun _ hx => absurd hx List.not_mem_nil
  | append_singleton xs x ih =>
    have hsum : sum (xs ++ [x]) = sum xs + x := by
      rw [sum, sum, List.foldl_append, List.foldl_cons, List.foldl_nil]
    rw [hsum] at h
    obtain ⟨hxs, hx⟩ := isFinite_of_add h
    intro y hy
    obtain hy | hy := List.mem_append.mp hy
    · exact ih hxs y hy
    · exact List.mem_singleton.mp hy ▸ hx

theorem isFinite_of_le {x y : Binary64} (hx : zero.le x = true) (hxy : x.le y = true)
    (hy : y.isFinite = true) : x.isFinite = true := by
  cases x with
  | nan => cases hx
  | finite s a => rfl
  | infinity s =>
    obtain rfl := infinity_of_zero_le hx
    cases y with
    | nan => cases hy
    | infinity t => cases hy
    | finite t b =>
      obtain ⟨m, n, hm, hn, hmn⟩ := le_iff.mp hxy
      obtain rfl : (unitsBound : Int) = m := Option.some.inj hm
      obtain rfl : signed t b.units = n := Option.some.inj hn
      have hb := b.representable.2
      unfold signed at hmn
      split at hmn <;> omega

theorem isFinite_ofInt {n : Int} (h : n.natAbs ≤ Nat.pow 2 64) :
    (ofInt n).isFinite = true := by
  have hunits : (n * unitsPerOne).natAbs ≤ Nat.pow 2 64 * unitsPerOne := by
    rw [Int.natAbs_mul, Int.natAbs_natCast]
    exact Nat.mul_le_mul_right _ h
  have hbound : nearestUnits (n * unitsPerOne).natAbs 1 < unitsBound :=
    Nat.lt_of_le_of_lt (monotone_nearestUnits 1 hunits) (by decide +kernel)
  rw [ofInt, ofUnits, ofRatio, dif_pos hbound]
  rfl

end PriceQuote.Binary64
