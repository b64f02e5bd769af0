import PriceQuote.Proofs.Distinct
import PriceQuote.Proofs.Rule.Order

/-!
# What rules see of a request

Declared rules look at the other items of a request through the products that these name, and do
not see how often or in which order they are named. Nor do they see how often an add-on of the item
is selected:

* `distinctProducts_eq_card`, `distinctAddOns_eq_card`: the counts of different products and add-ons
  are those of their sets;
* `Alike`: two contexts that agree in what declared rules can see;
* `holds_congr`, `apply_congr`, `applyRules_congr`: conditions, adjustments and whole rule tables
  take alike contexts for the same.
-/

namespace PriceQuote

namespace PricingContext

/-! ## Counting products and add-ons -/

def requested (context : PricingContext) : List ProductId := context.items.map (·.productId)

theorem sortedProducts_perm (context : PricingContext) :
    context.sortedProducts.Perm context.requested :=
  List.mergeSort_perm _ _

theorem sortedProducts_pairwise (context : PricingContext) :
    context.sortedProducts.Pairwise fun a b => a.text ≤ b.text := by
  refine (List.pairwise_mergeSort (fun a b c hab hbc => ?_) (fun a b => ?_) _).imp
    of_decide_eq_true
  · exact decide_eq_true (String.le_trans (of_decide_eq_true hab) (of_decide_eq_true hbc))
  · simpa using String.le_total a.text b.text

/-- Sorting and dropping equal neighbours counts the different products. -/
theorem distinctProducts_eq_card (context : PricingContext) :
    context.distinctProducts = context.requested.toFinset.card := by
  have hantisymm : ∀ a b : ProductId, a.text ≤ b.text → b.text ≤ a.text → a = b :=
    fun a b hab hba => congrArg ProductId.mk (String.le_antisymm hab hba)
  rw [distinctProducts,
    length_eraseReps_of_pairwise hantisymm context.sortedProducts_pairwise,
    List.toFinset_eq_of_perm _ _ context.sortedProducts_perm]

theorem distinctAddOns_eq_card (context : PricingContext) :
    context.distinctAddOns = context.item.selected.toFinset.card :=
  length_eraseDups context.item.selected

/-! ## Alike contexts -/

/-- Two contexts agree in what declared rules can see: of the items of the request, only which
products they name, and of the item's add-ons, only which are selected. -/
structure Alike (a b : PricingContext) : Prop where
  product : a.product = b.product
  catalog : a.catalog = b.catalog
  selected : ∀ id, id ∈ a.item.selected ↔ id ∈ b.item.selected
  quantity : a.item.quantity = b.item.quantity
  requested : ∀ id, id ∈ a.requested ↔ id ∈ b.requested
  customerTier : a.customerTier = b.customerTier
  region : a.region = b.region
  customFields : a.customFields = b.customFields

variable {a b : PricingContext}

theorem any_items (context : PricingContext) (p : ProductId → Bool) :
    (context.items.any fun item => p item.productId) = context.requested.any p :=
  List.any_map.symm

theorem Alike.any_items (h : a.Alike b) (p : ProductId → Bool) :
    (a.items.any fun item => p item.productId) = b.items.any fun item => p item.productId := by
  rw [PricingContext.any_items, PricingContext.any_items, Bool.eq_iff_iff]
  simp only [List.any_eq_true, h.requested]

theorem Alike.hasCategory (h : a.Alike b) (category : String) :
    a.hasCategory category = b.hasCategory category := by
  unfold PricingContext.hasCategory
  rw [h.catalog]
  exact h.any_items fun id =>
    (b.catalog.find? id).any fun product => product.category == category

theorem Alike.hasStart (h : a.Alike b) (start : String) : a.hasStart start = b.hasStart start :=
  h.any_items fun id => id.text.startsWith start

theorem Alike.distinctProducts (h : a.Alike b) : a.distinctProducts = b.distinctProducts := by
  rw [distinctProducts_eq_card, distinctProducts_eq_card]
  congr 1
  ext id
  simp only [List.mem_toFinset, h.requested]

theorem Alike.distinctAddOns (h : a.Alike b) : a.distinctAddOns = b.distinctAddOns := by
  rw [distinctAddOns_eq_card, distinctAddOns_eq_card]
  congr 1
  ext id
  simp only [List.mem_toFinset, h.selected]

theorem Alike.isSelected (h : a.Alike b) (id : AddOnId) :
    a.item.selected.contains id = b.item.selected.contains id := by
  rw [Bool.eq_iff_iff]
  simp only [List.contains_iff_mem, h.selected]

theorem Alike.addOnPrice (h : a.Alike b) (id : AddOnId) : a.addOnPrice id = b.addOnPrice id := by
  rw [PricingContext.addOnPrice, h.product, PricingContext.addOnPrice]

theorem Alike.customField? (h : a.Alike b) (key : String) :
    a.customField? key = b.customField? key := by
  rw [PricingContext.customField?, h.customFields, PricingContext.customField?]

end PricingContext

open PricingContext (Alike)

variable {a b : PricingContext}

/-! ## Rules -/

namespace Condition

mutual

/-- A condition holds in both of two alike contexts or in neither: by induction on how it is
built, the tests that look at the other items being the leaves. -/
theorem holds_congr (h : a.Alike b) : ∀ condition : Condition, condition.holds a = condition.holds b
  | .always => rfl
  | .quantityAtLeast value => by rw [holds, holds, h.quantity]
  | .quantityBelow value => by rw [holds, holds, h.quantity]
  | .customerTier value => by rw [holds, holds, h.customerTier]
  | .region value => by rw [holds, holds, h.region]
  | .productCategory value => by rw [holds, holds, h.product]
  | .addOnSelected addOn => by rw [holds, holds, h.isSelected]
  | .bundleCategories categories => by
    rw [holds, holds, show a.hasCategory = b.hasCategory from funext h.hasCategory]
  | .bundleStarts starts => by
    rw [holds, holds, show a.hasStart = b.hasStart from funext h.hasStart]
  | .minDistinctProducts value => by rw [holds, holds, h.distinctProducts]
  | .minSelectedAddOns value => by rw [holds, holds, h.distinctAddOns]
  | .customFieldEquals key value => by rw [holds, holds, h.customField?]
  | .all conditions => by rw [holds, holds, allHold_congr h conditions]
  | .any conditions => by rw [holds, holds, anyHolds_congr h conditions]
  | .not condition => by rw [holds, holds, holds_congr h condition]

theorem allHold_congr (h : a.Alike b) :
    ∀ conditions : List Condition, allHold a conditions = allHold b conditions
  | [] => rfl
  | condition :: conditions => by
    rw [allHold, allHold, holds_congr h condition, allHold_congr h conditions]

theorem anyHolds_congr (h : a.Alike b) :
    ∀ conditions : List Condition, anyHolds a conditions = anyHolds b conditions
  | [] => rfl
  | condition :: conditions => by
    rw [anyHolds, anyHolds, holds_congr h condition, anyHolds_congr h conditions]

end

end Condition

section

variable {N : Type} [Money.Arithmetic N]

theorem Adjustment.apply_congr (h : a.Alike b) (adjustment : Adjustment) (price : N) :
    adjustment.apply a price = adjustment.apply b price := by
  cases adjustment with
  | compAddOn addOn => rw [Adjustment.apply, Adjustment.apply, h.addOnPrice]
  | percentOff | percentSurcharge | multiplier | flatOff | none => rfl

/-- Rules that make the same of every price in two contexts take a run to the same end. -/
theorem foldl_step_of_agree {rules : List (PriceRule N)}
    (htransform : ∀ rule ∈ rules, ∀ price, rule.transform price a = rule.transform price b)
    (run : RuleRun N) : rules.foldl (RuleRun.step a) run = rules.foldl (RuleRun.step b) run := by
  induction rules generalizing run with
  | nil => rfl
  | cons rule rules ih =>
    obtain ⟨hrule, hrules⟩ := List.forall_mem_cons.mp htransform
    have hstep : run.step a rule = run.step b rule := by
      simp only [RuleRun.step, hrule]
    rw [List.foldl_cons, List.foldl_cons, hstep, ih hrules]

/-- Rules that take two contexts for the same give the same outcome in both. -/
theorem applyRules_of_agree {rules : List (PriceRule N)}
    (happlies : ∀ rule ∈ rules, rule.applies a = rule.applies b)
    (htransform : ∀ rule ∈ rules, ∀ price, rule.transform price a = rule.transform price b)
    (basePrice : N) : applyRules rules a basePrice = applyRules rules b basePrice := by
  have hfilter : (rules.filter fun rule => rule.applies a) =
      rules.filter fun rule => rule.applies b := List.filter_congr happlies
  unfold applyRules runRules
  rw [hfilter, foldl_step_of_agree fun rule hrule => htransform rule ?_]
  exact List.mem_of_mem_filter ((inOrder_perm _).mem_iff.mp hrule)

theorem applyRules_congr (h : a.Alike b) (rules : List Rule) (basePrice : N) :
    applyRules (rules.map .ofRule) a basePrice = applyRules (rules.map .ofRule) b basePrice := by
  refine applyRules_of_agree (fun rule hrule => ?_) (fun rule hrule price => ?_) basePrice
  · obtain ⟨declared, -, rfl⟩ := List.mem_map.mp hrule
    exact declared.condition.holds_congr h
  · obtain ⟨declared, -, rfl⟩ := List.mem_map.mp hrule
    exact declared.adjustment.apply_congr h price

end

end PriceQuote
