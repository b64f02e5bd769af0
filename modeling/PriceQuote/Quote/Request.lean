import PriceQuote.Catalog.Product
import PriceQuote.Text.Blank

/-!
# Requests for a quote

* `Configuration`: a product with add-ons and a quantity;
* `QuoteRequest`: configurations and what is known of the customer;
* `QuoteRequest.shapeProblem?`: the first reason why a request is not looked at any further.
-/

namespace PriceQuote

/-- One requested product with its add-ons. -/
structure Configuration where
  productId : ProductId
  /-- The selected add-ons, possibly repeated. -/
  selected : List AddOnId
  quantity : UInt32
  customization : List (String × Json)

/-- What a quote is asked for. -/
structure QuoteRequest where
  configurations : List Configuration
  customerTier : Option String
  region : Option String
  customFields : Option (List (String × Json))
  taxRate : Option Binary64

/-- Why a request is not looked at any further. -/
inductive ShapeProblem where
  | empty
  | tooMany (limit : Nat)
  | blankProduct (index : Nat)
  | zeroQuantity (index : Nat)
  | taxRate
  deriving DecidableEq

def ShapeProblem.message : ShapeProblem → String
  | .empty => "configurations must not be empty"
  | .tooMany limit => s!"at most {limit} configurations are accepted per request"
  | .blankProduct index => s!"configurations[{index}].productId must not be blank"
  | .zeroQuantity index => s!"configurations[{index}].quantity must be at least 1"
  | .taxRate => "taxRate must be a number between 0 and 1"

/-- The problem of one configuration, if it has one. -/
def Configuration.problem? (configuration : Configuration) (index : Nat) : Option ShapeProblem :=
  if Text.allBlank configuration.productId.text then some (.blankProduct index)
  else if configuration.quantity = 0 then some (.zeroQuantity index)
  else none

/-- The first problem of a list of configurations, of which `limit` are accepted. -/
def configurationsProblem? (configurations : List Configuration) (limit : Nat) :
    Option ShapeProblem :=
  if configurations.isEmpty then some .empty
  else if limit < configurations.length then some (.tooMany limit)
  else configurations.zipIdx.findSome? fun (configuration, index) => configuration.problem? index

/-- A tax rate lies between zero and one. -/
def isTaxRate (rate : Binary64) : Bool :=
  rate.isFinite && Binary64.zero.le rate && rate.le 1

/-- The first problem of a request, of whose configurations `limit` are accepted. -/
def QuoteRequest.shapeProblem? (request : QuoteRequest) (limit : Nat) : Option ShapeProblem :=
  match configurationsProblem? request.configurations limit with
  | some problem => some problem
  | none => if request.taxRate.all isTaxRate then none else some .taxRate

end PriceQuote
