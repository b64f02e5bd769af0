import PriceQuote.Rule.Engine

/-!
# Quotes

A quote lists what was asked for with its price before and after discounts, and sums it up.
`Quote.Stamp` is what a quote is given from outside: its id and the time it was made.
-/

namespace PriceQuote

/-- The price of one item, before it becomes part of a quote. -/
structure ItemPricing where
  basePrice : Binary64
  finalPrice : Binary64
  applied : List (AppliedRule Binary64)
  deriving DecidableEq

/-- A selected add-on, as a quote lists it. -/
structure SelectedAddOn where
  id : AddOnId
  name : String
  price : Binary64
  deriving DecidableEq

/-- A discount, as a quote lists it. -/
structure Discount where
  ruleId : RuleId
  ruleName : String
  /-- The amount, negative for a surcharge. -/
  amount : Binary64
  deriving DecidableEq

/-- One position of a quote. -/
structure LineItem where
  productId : ProductId
  productName : String
  quantity : UInt32
  basePrice : Binary64
  /-- The selected add-ons, each once. -/
  selected : List SelectedAddOn
  subtotal : Binary64
  discounts : List Discount
  total : Binary64
  deriving DecidableEq

/-- What a quote repeats of its request. -/
structure QuoteMetadata where
  customerTier : Option String
  region : Option String
  taxRate : Option Binary64
  customFields : List (String × Json)

/-- The metadata of a quote that repeats nothing. -/
def QuoteMetadata.empty : QuoteMetadata := ⟨none, none, none, []⟩

/-- An offer. `Time` is what the time of its making is told in. -/
structure Quote (Time : Type) where
  id : String
  createdAt : Time
  items : List LineItem
  subtotal : Binary64
  totalDiscounts : Binary64
  tax : Option Binary64
  total : Binary64
  metadata : QuoteMetadata

/-- What a quote is given from outside. -/
structure Stamp (Time : Type) where
  id : String
  createdAt : Time

end PriceQuote
