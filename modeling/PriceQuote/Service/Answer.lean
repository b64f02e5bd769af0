import PriceQuote.Service.Body
import PriceQuote.Service.Problem
import PriceQuote.Service.Uri

/-!
# Answering requests

A service answers requests from a pricebook. What is new in each answer, an id and the time, is
given from outside.

* `Service`, `Occasion`: what answers depend on, besides the request;
* one function for each kind of request that says what is answered.
-/

namespace PriceQuote

/-- What requests are answered from. -/
structure Service where
  book : Pricebook
  limit : Nat

namespace Service

/-- What is new in an answer. -/
structure Occasion (Time : Type) where
  /-- The id under which the request can be found again. -/
  correlationId : String
  stamp : Stamp Time

/-- What an answer holds. -/
inductive Content where
  | empty
  | json (value : Json)
  | text (value : String)

/-- An answer. -/
structure Response where
  status : Nat
  content : Content

namespace Response

def ok {α : Type} [Wire α] (value : α) : Response :=
  ⟨200, .json (Wire.encode value)⟩

/-- An answer without content. -/
def bare (status : Nat) : Response := ⟨status, .empty⟩

def error (status : Nat) (message : String) (details : Option Json) (correlationId : String) :
    Response :=
  ⟨status, .json (.object (Wire.put "error" message ++ Json.fieldOf id "details" details ++
    Wire.put "correlationId" correlationId))⟩

def ofProblem : Problem → Response
  | .badRequest message details id => error 400 message details id
  | .notFound message id => error 404 message none id
  | .internal message id => error 500 (Problem.internal message id).userMessage none id

def ofRefusal (correlationId : String) (refusal : Refusal) : Response :=
  .ofProblem (.ofFailure correlationId (.refused refusal))

def malformed (correlationId message : String) : Response :=
  error 400 message none correlationId

/-- The answer to a configuration that is not valid. -/
def invalid (correlationId : String) (details : Json) : Response :=
  error 400 "Configuration is invalid" (some details) correlationId

/-- The answer that either way of ending leads to. -/
def ending : Except Response Response → Response
  | .ok response => response
  | .error response => response

end Response

/-! ## Questions about the pricebook -/

def listProducts (service : Service) (query : Option String) : Response :=
  match (formFields (query.getD "")).filter (·.1 = "category") with
  | [] => .ok service.book.catalog.products
  | [(_, category)] =>
    if Text.allBlank category then .ok service.book.catalog.products
    else .ok (service.book.catalog.byCategory (Text.trim category))
  | _ => ⟨400, .text "Failed to deserialize query string: category comes twice"⟩

/-- Tells of one product, whose id is given as it stands in the path. -/
def getProduct (service : Service) (correlationId segment : String) : Response :=
  match pathSegment? segment with
  | none => ⟨400, .text "Invalid URL: the id is not UTF-8"⟩
  | some id =>
    match service.book.product ⟨id⟩ with
    | .ok product => .ok product
    | .error refusal => .ofRefusal correlationId refusal

def listCategories (service : Service) : Response :=
  .ok service.book.catalog.categories

/-- Lists rules in the order of evaluation. -/
def listRules (service : Service) : Response :=
  .ok (describe service.book.rules)

def health {Time : Type} [Wire Time] (service : Service) (checkedAt : Time) : Response :=
  let catalog := service.book.catalog
  ⟨200, .json (.object <|
    Wire.put "status" "ready" ++ Wire.put "service" "pricebook-server" ++
    [("catalog", .object [("products", .integer catalog.products.length),
      ("categories", .integer catalog.categories.length)]),
      ("rules", .integer service.book.rules.length)] ++
    Wire.put "checkedAt" checkedAt)⟩

/-! ## Configurations -/

/-- A body of a certain kind, or the answer that it is none. -/
def body {α : Type} (read : Reader α) (correlationId : String) (mediaType : Option String)
    (text : String) : Except Response α :=
  (readBody read mediaType text).mapError fun problem =>
    .malformed correlationId problem.message

/-- Nothing, or the answer to a request that is not looked at any further. -/
def orMalformed (correlationId : String) : Option ShapeProblem → Except Response Unit
  | none => .ok ()
  | some problem => .error (.malformed correlationId problem.message)

/-- Answers whether a configuration is valid. -/
def validateOne (service : Service) (correlationId : String) (body : SelectionBody) : Response :=
  if Text.allBlank body.productId.text then
    .malformed correlationId "productId must not be blank"
  else
    let result := service.book.catalog.validate body.productId body.selected
    if result.isValid then .ok result else .invalid correlationId (Wire.encode result)

/-- Answers whether configurations are valid. -/
def validateBatch (service : Service) (correlationId : String) (body : BatchBody) : Response :=
  .ending do
    orMalformed correlationId (configurationsProblem? body.configurations service.limit)
    let result := service.book.catalog.validateBatch body.configurations
    return if result.isValid then .ok result else .invalid correlationId (Wire.encode result)

/-- The price of an item, as it is told. -/
def pricingJson (item : Configuration) (pricing : ItemPricing) : Json :=
  .object (Wire.put "productId" item.productId ++ Wire.put "quantity" item.quantity ++
    Wire.putItemPricing pricing)

def calculatePricing (service : Service) (correlationId : String) (body : PricingBody) :
    Response :=
  .ending do
    orMalformed correlationId (configurationsProblem? [body.configuration] service.limit)
    let item := body.configuration
    let result := service.book.catalog.validate item.productId item.selected
    if !result.isValid then return .invalid correlationId (Wire.encode result)
    let pricing ← (service.book.priceItem item body.request).mapError (.ofRefusal correlationId)
    return ⟨200, .json (pricingJson item pricing)⟩

def createQuote {Time : Type} [Wire Time] (service : Service) (occasion : Occasion Time)
    (request : QuoteRequest) : Response :=
  .ending do
    orMalformed occasion.correlationId (request.shapeProblem? service.limit)
    let quote ← (service.book.quote occasion.stamp request).mapError
      (.ofRefusal occasion.correlationId)
    return .ok quote

end Service

end PriceQuote
