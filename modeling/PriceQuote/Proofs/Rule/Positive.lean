import PriceQuote.Catalog.Standard
import PriceQuote.Proofs.Rule.Requested

/-!
# Conditions without negation

Whatever a condition asks of the other items, it asks for something to be among them. So a condition
that is built without `not` and holds of a request still holds when more is requested:

* `Condition.isPositive`: a condition without `not`, however deep;
* `PricingContext.Widens`: a context in which at least the same products are requested, and
  everything else is the same;
* `Widens.hasCategory`, `Widens.hasStart`, `Widens.distinctProducts_le`: the tests that look at the
  other items;
* `holds_of_widens`, `positive_rules_kept`: conditions, and the rules that come with them.
-/

namespace PriceQuote

namespace Condition

mutual

/-- The condition is built without `not`. -/
def isPositive : Condition → Bool
  | .all conditions => arePositive conditions
  | .any conditions => arePositive conditions
  | .not _ => false
  | .always | .quantityAtLeast _ | .quantityBelow _ | .customerTier _ | .region _
  | .productCategory _ | .addOnSelected _ | .bundleCategories _ | .bundleStarts _
  | .minDistinctProducts _ | .minSelectedAddOns _ | .customFieldEquals _ _ => true

def arePositive : List Condition → Bool
  | [] => true
  | condition :: conditions => condition.isPositive && arePositive conditions

end

end Condition

namespace PricingContext

/-- The same item is priced for the same customer, with at least the same products requested. -/
structure Widens (a b : PricingContext) : Prop where
  product : a.product = b.product
  item : a.item = b.item
  catalog : a.catalog = b.catalog
  requested : a.requested ⊆ b.requested
  customerTier : a.customerTier = b.customerTier
  region : a.region = b.region
  customFields : a.customFields = b.customFields

variable {a b : PricingContext}

/-! ## Tests that look at the other items -/

theorem Widens.any_items (h : a.Widens b) (p : ProductId → Bool)
    (ha : (a.items.any fun item => p item.productId) = true) :
    (b.items.any fun item => p item.productId) = true := by
  rw [PricingContext.any_items, List.any_eq_true] at ha ⊢
  obtain ⟨id, hid, hp⟩ := ha
  exact ⟨id, h.requested hid, hp⟩

theorem Widens.hasCategory (h : a.Widens b) {category : String}
    (ha : a.hasCategory category = true) : b.hasCategory category = true := by
  unfold PricingContext.hasCategory at ha ⊢
  rw [h.catalog] at ha
  exact h.any_items (fun id => (b.catalog.find? id).any fun product =>
    product.category == category) ha

theorem Widens.hasStart (h : a.Widens b) {start : String} (ha : a.hasStart start = true) :
    b.hasStart start = true :=
  h.any_items (fun id => id.text.startsWith start) ha

/-- Among more items there are no fewer different products. -/
theorem Widens.distinctProducts_le (h : a.Widens b) : a.distinctProducts ≤ b.distinctProducts := by
  rw [distinctProducts_eq_card, distinctProducts_eq_card]
  refine Finset.card_le_card fun id hid => ?_
  rw [List.mem_toFinset] at hid ⊢
  exact h.requested hid

end PricingContext

open PricingContext (Widens)

variable {a b : PricingContext}

/-! ## Conditions -/

namespace Condition

mutual

/-- A condition without `not` that holds still holds when more is requested: by induction on how it
is built. Only the tests of other items are not the same in both contexts. -/
theorem holds_of_widens (h : a.Widens b) : ∀ condition : Condition,
    condition.isPositive = true → condition.holds a = true → condition.holds b = true
  | .always, _, ha => ha
  | .quantityAtLeast value, _, ha => by rwa [holds, h.item] at ha
  | .quantityBelow value, _, ha => by rwa [holds, h.item] at ha
  | .customerTier value, _, ha => by rwa [holds, h.customerTier] at ha
  | .region value, _, ha => by rwa [holds, h.region] at ha
  | .productCategory value, _, ha => by rwa [holds, h.product] at ha
  | .addOnSelected addOn, _, ha => by rwa [holds, h.item] at ha
  | .bundleCategories categories, _, ha => by
    rw [holds, List.all_eq_true] at ha ⊢
    exact fun category hcategory => h.hasCategory (ha category hcategory)
  | .bundleStarts starts, _, ha => by
    rw [holds, List.all_eq_true] at ha ⊢
    exact fun start hstart => h.hasStart (ha start hstart)
  | .minDistinctProducts value, _, ha => by
    rw [holds, decide_eq_true_eq] at ha ⊢
    exact Nat.le_trans ha h.distinctProducts_le
  | .minSelectedAddOns value, _, ha => by
    rwa [holds, PricingContext.distinctAddOns, h.item] at ha
  | .customFieldEquals key value, _, ha => by
    rwa [holds, PricingContext.customField?, h.customFields] at ha
  | .all conditions, hpositive, ha => by
    rw [holds] at ha ⊢
    exact allHold_of_widens h conditions hpositive ha
  | .any conditions, hpositive, ha => by
    rw [holds] at ha ⊢
    exact anyHolds_of_widens h conditions hpositive ha
  | .not _, hpositive, _ => absurd hpositive Bool.false_ne_true

theorem allHold_of_widens (h : a.Widens b) : ∀ conditions : List Condition,
    arePositive conditions = true → allHold a conditions = true → allHold b conditions = true
  | [], _, ha => ha
  | condition :: conditions, hpositive, ha => by
    rw [arePositive, Bool.and_eq_true] at hpositive
    rw [allHold, Bool.and_eq_true] at ha ⊢
    exact ⟨holds_of_widens h condition hpositive.1 ha.1,
      allHold_of_widens h conditions hpositive.2 ha.2⟩

theorem anyHolds_of_widens (h : a.Widens b) : ∀ conditions : List Condition,
    arePositive conditions = true → anyHolds a conditions = true → anyHolds b conditions = true
  | [], _, ha => ha
  | condition :: conditions, hpositive, ha => by
    rw [arePositive, Bool.and_eq_true] at hpositive
    rw [anyHolds, Bool.or_eq_true] at ha ⊢
    rcases ha with ha | ha
    · exact .inl (holds_of_widens h condition hpositive.1 ha)
    · exact .inr (anyHolds_of_widens h conditions hpositive.2 ha)

end

end Condition

/-- Adding items to a request withdraws no rule that is stated positively: what holds, without a
`not` in it, among some items holds among all items that name the same products and perhaps others,
and of every table the positive rules that apply still do. -/
theorem positive_rules_kept (context : PricingContext) {items items' : List Configuration}
    (h : ∀ id ∈ items.map (·.productId), id ∈ items'.map (·.productId)) :
    let fewer : PricingContext := { context with items := items }
    let more : PricingContext := { context with items := items' }
    (∀ condition : Condition, condition.isPositive = true → condition.holds fewer = true →
      condition.holds more = true) ∧
    ∀ rules : List Rule,
      (rules.filter fun rule => rule.condition.isPositive && rule.condition.holds fewer).Sublist
        (rules.filter fun rule => rule.condition.isPositive && rule.condition.holds more) := by
  intro fewer more
  have hwidens : fewer.Widens more := ⟨rfl, rfl, rfl, fun id hid => h id hid, rfl, rfl, rfl⟩
  have hholds := Condition.holds_of_widens hwidens
  refine ⟨hholds, fun rules => List.monotone_filter_right rules fun rule hrule => ?_⟩
  rw [Bool.and_eq_true] at hrule ⊢
  exact ⟨hrule.1, hholds rule.condition hrule.1 hrule.2⟩

/-- A bundle of a virtual machine and a database, then with more of the one and an object store. -/
theorem positive_rules_kept_bundle :
    let vm (quantity : UInt32) : Configuration := ⟨⟨"compute-standard"⟩, [], quantity, []⟩
    let database : Configuration := ⟨⟨"database-postgres"⟩, [], 2, []⟩
    let store : Configuration := ⟨⟨"storage-object"⟩, [], 7, []⟩
    let context : PricingContext :=
      ⟨Catalog.offer "compute-standard" "Standard Compute" "" 50 "compute" [], vm 1, [], .standard,
        some "startup", none, none⟩
    let bundle : Condition := .all [.bundleCategories ["compute", "database"],
      .any [.customerTier "startup", .minDistinctProducts 3]]
    (∀ id ∈ [vm 1, database].map (·.productId),
      id ∈ [database, store, vm 9].map (·.productId)) ∧
    bundle.isPositive = true ∧ bundle.holds { context with items := [vm 1, database] } = true ∧
    bundle.holds { context with items := [database, store, vm 9] } = true := by
  intro vm database store context bundle
  have hproducts : ∀ id ∈ [vm 1, database].map (·.productId),
      id ∈ [database, store, vm 9].map (·.productId) := by decide
  have hbundle : bundle.holds { context with items := [vm 1, database] } = true := by
    decide +kernel
  exact ⟨hproducts, rfl, hbundle,
    (positive_rules_kept context hproducts).1 bundle rfl hbundle⟩

end PriceQuote
