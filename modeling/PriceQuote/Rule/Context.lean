import PriceQuote.Catalog.Basic
import PriceQuote.Money.Arithmetic
import PriceQuote.Quote.Request
import PriceQuote.Rule.Basic

/-!
# What rules look at

* `PricingContext`: what is priced and what else is requested.
* `Condition.holds`: whether a condition is met.
* `Adjustment.apply`: what an adjustment makes of a price, over any numbers prices can be of.
-/

namespace PriceQuote

/-- What a rule may look at while one item is priced. -/
structure PricingContext where
  product : Product
  item : Configuration
  items : List Configuration
  catalog : Catalog
  customerTier : Option String
  region : Option String
  customFields : Option (List (String × Json))

namespace PricingContext

def hasCategory (context : PricingContext) (category : String) : Bool :=
  context.items.any fun item =>
    (context.catalog.find? item.productId).any fun product => product.category == category

/-- A product whose id begins with the text is requested. -/
def hasStart (context : PricingContext) (start : String) : Bool :=
  context.items.any fun item => item.productId.text.startsWith start

/-- The product ids of all items, in the order of their texts. -/
def sortedProducts (context : PricingContext) : List ProductId :=
  (context.items.map (·.productId)).mergeSort fun a b => a.text ≤ b.text

/-- How many different products are requested: in order, equal ids stand side by side. -/
def distinctProducts (context : PricingContext) : Nat :=
  context.sortedProducts.eraseReps.length

/-- How many different add-ons the item has selected. -/
def distinctAddOns (context : PricingContext) : Nat :=
  context.item.selected.eraseDups.length

/-- What one unit of an add-on of the product costs; nothing if there is no such add-on. -/
def addOnPrice (context : PricingContext) (id : AddOnId) : Binary64 :=
  match context.product.addOn? id with
  | some addOn => addOn.price
  | none => .zero

def customField? (context : PricingContext) (key : String) : Option Json :=
  context.customFields.bind fun fields => fields.lookup key

end PricingContext

/-- Two values are the same: numbers of either kind by value, all others as JSON values. -/
def sameValue (a b : Json) : Bool :=
  match a.number?, b.number? with
  | some x, some y => x.same y
  | _, _ => a.same b

namespace Condition

mutual

/-- A condition is met. -/
def holds (context : PricingContext) : Condition → Bool
  | .always => true
  | .quantityAtLeast value => value ≤ context.item.quantity
  | .quantityBelow value => context.item.quantity < value
  | .customerTier value => context.customerTier == some value
  | .region value => context.region == some value
  | .productCategory value => context.product.category == value
  | .addOnSelected addOn => context.item.selected.contains addOn
  | .bundleCategories categories => categories.all context.hasCategory
  | .bundleStarts starts => starts.all context.hasStart
  | .minDistinctProducts value => value.toNat ≤ context.distinctProducts
  | .minSelectedAddOns value => value.toNat ≤ context.distinctAddOns
  | .customFieldEquals key value =>
    (context.customField? key).any fun field => sameValue field value
  | .all conditions => allHold context conditions
  | .any conditions => anyHolds context conditions
  | .not condition => !condition.holds context

def allHold (context : PricingContext) : List Condition → Bool
  | [] => true
  | condition :: conditions => condition.holds context && allHold context conditions

def anyHolds (context : PricingContext) : List Condition → Bool
  | [] => false
  | condition :: conditions => condition.holds context || anyHolds context conditions

end

end Condition

section

open Money (Arithmetic one hundred)
open Money.Arithmetic (ofBinary64)

/-- What an adjustment makes of a price. -/
def Adjustment.apply {N : Type} [Arithmetic N] (adjustment : Adjustment)
    (context : PricingContext) (price : N) : N :=
  match adjustment with
  | .percentOff percent => price * (one - ofBinary64 percent / hundred)
  | .percentSurcharge percent => price * (one + ofBinary64 percent / hundred)
  | .multiplier factor => price * ofBinary64 factor
  | .flatOff amount => price - ofBinary64 amount
  | .compAddOn addOn => price - ofBinary64 (context.addOnPrice addOn)
  | .none => price

end

end PriceQuote
