import PriceQuote.Catalog.Validation
import PriceQuote.Quote.Basic

/-!
# Quoting

A pricebook is a catalog and the rules that go with it. Its answers depend on nothing else but what
is asked:

* `Pricebook.priceItem`: the price of one item in the context of a request;
* `Pricebook.quote`: a quote for a request all of whose configurations are valid.
-/

namespace PriceQuote

section

open Money (roundToCents)

/-- A catalog and the rules that go with it. -/
structure Pricebook where
  catalog : Catalog
  rules : List (PriceRule Binary64)

/-- Why there is no price. -/
inductive Refusal where
  | unknownProduct (id : ProductId)
  | invalid (message : String) (failures : List ItemValidation)
  deriving DecidableEq

def Refusal.message : Refusal → String
  | .unknownProduct id => s!"product `{id.text}` not found"
  | .invalid message _ => message

namespace Pricebook

def product (book : Pricebook) (id : ProductId) : Except Refusal Product :=
  match book.catalog.find? id with
  | some product => .ok product
  | none => .error (.unknownProduct id)

/-- What rules may look at while an item is priced for a request. -/
def context (book : Pricebook) (product : Product) (item : Configuration)
    (request : QuoteRequest) : PricingContext where
  product := product
  item := item
  items := request.configurations
  catalog := book.catalog
  customerTier := request.customerTier
  region := request.region
  customFields := request.customFields

/-- The price of all units of an item, before any rule. -/
def basePrice (product : Product) (item : Configuration) : Binary64 :=
  product.unitPrice item.selected * Binary64.ofNat item.quantity.toNat

/-- The price of an item whose product is known. -/
def priceWith (book : Pricebook) (product : Product) (item : Configuration)
    (request : QuoteRequest) : ItemPricing :=
  let base := basePrice product item
  let outcome := applyRules book.rules (book.context product item request) base
  ⟨base, outcome.finalPrice, outcome.applied⟩

/-- The price of an item in the context of a request, which need not contain it. -/
def priceItem (book : Pricebook) (item : Configuration) (request : QuoteRequest) :
    Except Refusal ItemPricing := do
  return book.priceWith (← book.product item.productId) item request

/-- Lists an add-on, unless its id is listed already or the product has none such. -/
def listAddOn (product : Product) (listed : List SelectedAddOn) (id : AddOnId) :
    List SelectedAddOn :=
  if listed.any fun addOn => addOn.id == id then listed
  else
    match product.addOn? id with
    | some addOn => listed ++ [⟨addOn.id, addOn.name, addOn.price⟩]
    | none => listed

/-- The position of a quote for an item. -/
def lineItem (product : Product) (item : Configuration) (pricing : ItemPricing) : LineItem where
  productId := product.id
  productName := product.name
  quantity := item.quantity
  basePrice := product.basePrice
  selected := item.selected.foldl (listAddOn product) []
  subtotal := pricing.basePrice
  discounts := pricing.applied.map fun rule => ⟨rule.ruleId, rule.ruleName, rule.discount⟩
  total := pricing.finalPrice

def quoteItem (book : Pricebook) (request : QuoteRequest) (item : Configuration) :
    Except Refusal LineItem := do
  let product ← book.product item.productId
  return lineItem product item (book.priceWith product item request)

/-- Sums up the positions of a quote. -/
def total {Time : Type} (stamp : Stamp Time) (request : QuoteRequest) (items : List LineItem) :
    Quote Time :=
  let subtotal := Binary64.sum (items.map (·.subtotal))
  let beforeTax := Binary64.sum (items.map (·.total))
  let tax := request.taxRate.map fun rate => beforeTax * rate
  { id := stamp.id
    createdAt := stamp.createdAt
    items := items
    subtotal := subtotal
    totalDiscounts := subtotal - beforeTax
    tax := tax.map roundToCents
    total := roundToCents (match tax with
      | some tax => beforeTax + tax
      | none => beforeTax)
    metadata :=
      { customerTier := request.customerTier
        region := request.region
        taxRate := request.taxRate
        customFields := request.customFields.getD [] } }

/-- A quote for a request, if all of its configurations are valid. -/
def quote {Time : Type} (book : Pricebook) (stamp : Stamp Time) (request : QuoteRequest) :
    Except Refusal (Quote Time) := do
  let batch := book.catalog.validateBatch request.configurations
  if !batch.isValid then
    .error (.invalid s!"Configuration validation failed: {batch.summary}" batch.failures)
  else
    return total stamp request (← request.configurations.mapM (book.quoteItem request))

end Pricebook

end

end PriceQuote
