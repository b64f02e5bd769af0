import PriceQuote.Catalog.Product

/-!
# The catalog

* `Catalog`: products in the order of their declaration, and advice on product families.
* `Catalog.find?`: the first product with an id.
* `Catalog.categories`, `Catalog.byCategory`: the families, by their first product, and the
  products of each.
* `Catalog.check`: a catalog from products that obey the rules, or the first violation.
-/

namespace PriceQuote

/-- Advice for every product of a family, unless one certain add-on is selected. -/
structure Advisory where
  category : String
  unlessAddOn : Option AddOnId
  field : String
  message : String
  deriving DecidableEq

/-- The products on offer and the advice that goes with them. -/
structure Catalog where
  products : List Product
  advisories : List Advisory

namespace Catalog

def find? (catalog : Catalog) (id : ProductId) : Option Product :=
  catalog.products.find? fun product => product.id == id

def byCategory (catalog : Catalog) (category : String) : List Product :=
  catalog.products.filter fun product => product.category == category

/-- The families, each once, in the order of their first products. -/
def categories (catalog : Catalog) : List String :=
  (catalog.products.map (·.category)).eraseDups

/-! ## Checking -/

/-- How a catalog breaks its rules. -/
inductive Violation where
  | duplicateProduct (product : ProductId)
  | basePrice (product : ProductId)
  | duplicateAddOn (product : ProductId) (addOn : AddOnId)
  | addOnPrice (product : ProductId) (addOn : AddOnId)
  deriving DecidableEq

def Violation.message : Violation → String
  | .duplicateProduct product => s!"duplicate product id `{product.text}` in catalog"
  | .basePrice product => s!"product `{product.text}` has a negative or non-finite base price"
  | .duplicateAddOn product addOn =>
    s!"duplicate option id `{addOn.text}` on product `{product.text}`"
  | .addOnPrice product addOn =>
    s!"option `{addOn.text}` on product `{product.text}` has a non-finite price"

/-- The first violation among a product's add-ons, given the ids that came before. -/
def addOnViolation? (product : ProductId) (seen : List AddOnId) : List AddOn → Option Violation
  | [] => none
  | addOn :: addOns =>
    if seen.contains addOn.id then some (.duplicateAddOn product addOn.id)
    else if !addOn.price.isFinite then some (.addOnPrice product addOn.id)
    else addOnViolation? product (addOn.id :: seen) addOns

/-- The first violation among products, given the ids that came before. A product's id is looked
at first, then its base price, then its add-ons. -/
def violation? (seen : List ProductId) : List Product → Option Violation
  | [] => none
  | product :: products =>
    if seen.contains product.id then some (.duplicateProduct product.id)
    else if !product.basePrice.isFinite || product.basePrice.lt 0 then some (.basePrice product.id)
    else
      match addOnViolation? product.id [] product.addOns with
      | some violation => some violation
      | none => violation? (product.id :: seen) products

/-- The catalog of the given products and advice, or the first violation. -/
def check (products : List Product) (advisories : List Advisory) : Except Violation Catalog :=
  match violation? [] products with
  | none => .ok ⟨products, advisories⟩
  | some violation => .error violation

end Catalog

end PriceQuote
