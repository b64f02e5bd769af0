import PriceQuote.Binary64.Arithmetic
import PriceQuote.Json.Basic

/-!
# Products and their add-ons

* `AddOn`: what can be selected on top of a product. What it needs and what it excludes is said
  from its own side only.
* `Product`: a base price and add-ons; looking up an add-on takes the first one with the id.
* `Product.unitPrice`: the base price and the price of each selected add-on, counted once.
-/

namespace PriceQuote

/-- The id of a product. -/
structure ProductId where
  text : String
  deriving DecidableEq

/-- The id of an add-on, meaningful within its product. -/
structure AddOnId where
  text : String
  deriving DecidableEq

/-- An add-on that can be selected on top of a product. -/
structure AddOn where
  id : AddOnId
  name : String
  /-- The price of one unit, negative for a rebate. -/
  price : Binary64
  required : Bool
  category : Option String
  dependencies : List AddOnId
  conflicts : List AddOnId
  deriving DecidableEq

/-- Something that can be bought. -/
structure Product where
  id : ProductId
  name : String
  description : String
  basePrice : Binary64
  category : String
  addOns : List AddOn
  metadata : List (String × Json)

namespace Product

def addOn? (product : Product) (id : AddOnId) : Option AddOn :=
  product.addOns.find? fun addOn => addOn.id == id

def hasAddOn (product : Product) (id : AddOnId) : Bool :=
  (product.addOn? id).isSome

/-- The add-ons with the given ids: each once, in the order of the ids, without the unknown. -/
def selection (product : Product) (selected : List AddOnId) : List AddOn :=
  selected.eraseDups.filterMap product.addOn?

def addOnsTotal (product : Product) (selected : List AddOnId) : Binary64 :=
  Binary64.sum ((product.selection selected).map (·.price))

/-- The price of one unit with the selected add-ons, before any rule. -/
def unitPrice (product : Product) (selected : List AddOnId) : Binary64 :=
  product.basePrice + product.addOnsTotal selected

end Product

end PriceQuote
