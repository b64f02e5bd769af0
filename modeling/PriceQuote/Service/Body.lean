import PriceQuote.Document.OfJsonText
import PriceQuote.Service.MediaType
import PriceQuote.Wire.Quote

/-!
# Bodies of requests

A body is JSON text of one of four kinds. Reading goes from left to right, so of a text that is
neither well formed nor of its kind the problem that comes first is told.
-/

namespace PriceQuote.Service

/-- Asks whether a configuration is valid. -/
structure SelectionBody where
  productId : ProductId
  selected : List AddOnId
  deriving DecidableEq

/-- Asks whether configurations are valid. -/
structure BatchBody where
  configurations : List Configuration

/-- Asks for the price of a configuration. -/
structure PricingBody where
  configuration : Configuration
  customerTier : Option String
  region : Option String
  customFields : Option (List (String × Json))

def selectionShape : Shape SelectionBody :=
  SelectionBody.mk <$> Wire.field "productId" <*> Wire.fieldOr "selectedOptions" []

def batchShape : Shape BatchBody :=
  BatchBody.mk <$> Wire.field "configurations"

def pricingShape : Shape PricingBody :=
  PricingBody.mk <$> Wire.field "configuration" <*>
    .optionalByKey "customerTier" Wire.read <*> .optionalByKey "region" Wire.read <*>
    .optionalByKey "customFields" Reader.fields

/-- The request for a quote that a question for a price amounts to. -/
def PricingBody.request (body : PricingBody) : QuoteRequest :=
  ⟨[body.configuration], body.customerTier, body.region, body.customFields, none⟩

/-- Why a body is not looked at any further. -/
inductive BodyProblem where
  | notJson
  | unreadable (fault : Fault)
  deriving DecidableEq

def BodyProblem.message : BodyProblem → String
  | .notJson =>
    "invalid request body: Expected request with `Content-Type: application/json`"
  | .unreadable .malformed =>
    s!"invalid request body: Failed to parse the request body as JSON: {Fault.malformed.message}"
  | .unreadable .mismatch =>
    "invalid request body: Failed to deserialize the JSON body into the target type: " ++
      Fault.mismatch.message

/-- Reads a body of the given media type. -/
def readBody {α : Type} (read : Reader α) (mediaType : Option String) (body : String) :
    Except BodyProblem α :=
  if mediaType.any MediaType.isJson then
    (Reader.ofText read (Document.ofJsonText body)).mapError .unreadable
  else .error .notJson

end PriceQuote.Service
