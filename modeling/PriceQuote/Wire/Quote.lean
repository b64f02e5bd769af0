import PriceQuote.Quote.Pricebook
import PriceQuote.Timestamp.Text
import PriceQuote.Wire.Rule

/-!
# Requests, prices and quotes on the wire
-/

namespace PriceQuote.Wire

instance : Wire Timestamp where
  encode time := .string time.toText
  read := Reader.textOf Timestamp.ofText?

def configurationShape : Shape Configuration :=
  Configuration.mk <$> field "productId" <*> fieldOr "selectedOptions" [] <*>
    fieldOr "quantity" 1 <*> freeFields "customization"

instance : Wire Configuration where
  encode configuration := .object <|
    put "productId" configuration.productId ++ put "selectedOptions" configuration.selected ++
    put "quantity" configuration.quantity ++
    putFields "customization" configuration.customization
  read := configurationShape.read

def requestShape : Shape QuoteRequest :=
  QuoteRequest.mk <$> field "configurations" <*> field? "customerTier" <*> field? "region" <*>
    .optional "customFields" Reader.fields <*> field? "taxRate"

instance : Wire QuoteRequest where
  encode request := .object <|
    put "configurations" request.configurations ++ putSome "customerTier" request.customerTier ++
    putSome "region" request.region ++
    Json.fieldOf Json.object "customFields" request.customFields ++
    putSome "taxRate" request.taxRate
  read := requestShape.read

def appliedRuleShape : Shape (AppliedRule Binary64) :=
  AppliedRule.mk <$> field "ruleId" <*> field "ruleName" <*> field "discountAmount"

instance : Wire (AppliedRule Binary64) where
  encode rule := .object <|
    put "ruleId" rule.ruleId ++ put "ruleName" rule.ruleName ++
    put "discountAmount" rule.discount
  read := appliedRuleShape.read

def itemPricingShape : Shape ItemPricing :=
  ItemPricing.mk <$> field "basePrice" <*> field "finalPrice" <*> field "appliedRules"

/-- The fields of an item's price, as they are written. -/
def putItemPricing (pricing : ItemPricing) : List (String × Json) :=
  put "basePrice" pricing.basePrice ++ put "finalPrice" pricing.finalPrice ++
    put "appliedRules" pricing.applied

instance : Wire ItemPricing where
  encode pricing := .object (putItemPricing pricing)
  read := itemPricingShape.read

def selectedAddOnShape : Shape SelectedAddOn :=
  SelectedAddOn.mk <$> field "id" <*> field "name" <*> field "price"

instance : Wire SelectedAddOn where
  encode addOn := .object (put "id" addOn.id ++ put "name" addOn.name ++ put "price" addOn.price)
  read := selectedAddOnShape.read

def discountShape : Shape Discount :=
  Discount.mk <$> field "ruleId" <*> field "ruleName" <*> field "amount"

instance : Wire Discount where
  encode discount := .object <|
    put "ruleId" discount.ruleId ++ put "ruleName" discount.ruleName ++
    put "amount" discount.amount
  read := discountShape.read

def lineItemShape : Shape LineItem :=
  LineItem.mk <$> field "productId" <*> field "productName" <*> field "quantity" <*>
    field "basePrice" <*> field "selectedOptions" <*> field "subtotal" <*> field "discounts" <*>
    field "total"

instance : Wire LineItem where
  encode item := .object <|
    put "productId" item.productId ++ put "productName" item.productName ++
    put "quantity" item.quantity ++ put "basePrice" item.basePrice ++
    put "selectedOptions" item.selected ++ put "subtotal" item.subtotal ++
    put "discounts" item.discounts ++ put "total" item.total
  read := lineItemShape.read

def metadataShape : Shape QuoteMetadata :=
  QuoteMetadata.mk <$> field? "customerTier" <*> field? "region" <*> field? "taxRate" <*>
    freeFields "customFields"

instance : Wire QuoteMetadata where
  encode metadata := .object <|
    putSome "customerTier" metadata.customerTier ++ putSome "region" metadata.region ++
    putSome "taxRate" metadata.taxRate ++ putFields "customFields" metadata.customFields
  read := metadataShape.read

variable {Time : Type} [Wire Time]

def quoteShape : Shape (Quote Time) :=
  Quote.mk <$> field "id" <*> field "createdAt" <*> field "items" <*> field "subtotal" <*>
    field "totalDiscounts" <*> field? "tax" <*> field "total" <*>
    fieldOr "metadata" QuoteMetadata.empty

instance : Wire (Quote Time) where
  encode quote := .object <|
    put "id" quote.id ++ put "createdAt" quote.createdAt ++ put "items" quote.items ++
    put "subtotal" quote.subtotal ++ put "totalDiscounts" quote.totalDiscounts ++
    putSome "tax" quote.tax ++ put "total" quote.total ++ put "metadata" quote.metadata
  read := quoteShape.read

end PriceQuote.Wire
