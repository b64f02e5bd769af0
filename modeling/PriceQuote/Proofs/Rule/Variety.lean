import PriceQuote.Proofs.Rule.Requested

/-!
# Asking for variety

Two tests ask for a number of different things: one for different products among the items of the
request, the other for different add-ons among the selected ones of the item. The products are
counted in a sorted list, the add-ons where they first occur, and neither count depends on order or
repetition:

* `HasDifferent`: so many pairwise different values are in a list, with `hasDifferent_iff_le_card`;
* `holds_minDistinctProducts_iff`, `holds_minSelectedAddOns_iff`: what the two tests ask for;
* `variety_counted`: both counts, and both tests.
-/

namespace PriceQuote

/-! ## Different values -/

section

variable {α : Type} [DecidableEq α] {xs : List α} {n : Nat}

/-- So many pairwise different values are in a list. -/
def HasDifferent (xs : List α) (n : Nat) : Prop :=
  ∃ ys : List α, ys.length = n ∧ ys.Nodup ∧ ys ⊆ xs

/-- A list has as many different values as its set and no more. -/
theorem hasDifferent_iff_le_card : HasDifferent xs n ↔ n ≤ xs.toFinset.card := by
  rw [← length_eraseDups]
  constructor
  · rintro ⟨ys, rfl, hnodup, hsubset⟩
    -- The pigeonhole: different values all find a place of their own among the first occurrences.
    have hplaces : ys ⊆ xs.eraseDups := fun y hy => List.mem_eraseDups.mpr (hsubset hy)
    exact (hnodup.subperm hplaces).length_le
  · intro hn
    have hsubset : xs.eraseDups.take n ⊆ xs := fun x hx =>
      List.mem_eraseDups.mp (List.mem_of_mem_take hx)
    exact ⟨xs.eraseDups.take n, List.length_take_of_le hn, (nodup_eraseDups xs).take, hsubset⟩

end

/-! ## Tests -/

namespace Condition

variable {context : PricingContext} {value : UInt64}

theorem holds_minDistinctProducts_iff :
    (Condition.minDistinctProducts value).holds context = true ↔
      HasDifferent context.requested value.toNat := by
  rw [holds, decide_eq_true_eq, context.distinctProducts_eq_card, hasDifferent_iff_le_card]

theorem holds_minSelectedAddOns_iff :
    (Condition.minSelectedAddOns value).holds context = true ↔
      HasDifferent context.item.selected value.toNat := by
  rw [holds, decide_eq_true_eq, context.distinctAddOns_eq_card, hasDifferent_iff_le_card]

end Condition

/-- Variety is counted without regard to order and repetition: there are as many different products
as the items of a request name, and as many different add-ons as the item has selected. So a test
that asks for a number of them holds exactly when so many pairwise different ones are there. -/
theorem variety_counted (context : PricingContext) :
    context.distinctProducts = (context.items.map (·.productId)).toFinset.card ∧
    context.distinctAddOns = context.item.selected.toFinset.card ∧
    ∀ value : UInt64,
      ((Condition.minDistinctProducts value).holds context = true ↔
        HasDifferent (context.items.map (·.productId)) value.toNat) ∧
      ((Condition.minSelectedAddOns value).holds context = true ↔
        HasDifferent context.item.selected value.toNat) :=
  ⟨context.distinctProducts_eq_card, context.distinctAddOns_eq_card, fun _ =>
    ⟨Condition.holds_minDistinctProducts_iff, Condition.holds_minSelectedAddOns_iff⟩⟩

end PriceQuote
