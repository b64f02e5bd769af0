import PriceQuote.Service.Answer

/-!
# Routes

A path leads to one kind of answer, and each kind is asked for by one method. Where `GET` works,
`HEAD` does too and leaves out the content. An unknown path is answered with status 404, a wrong
method with status 405, both without content.
-/

namespace PriceQuote.Service

/-- A request. -/
structure Request where
  method : String
  uri : String
  mediaType : Option String
  body : String

/-- Where a path leads. -/
inductive Route where
  | health
  | products
  | product (segment : String)
  | categories
  | rules
  | validate
  | validateBatch
  | pricing
  | quotes
  deriving DecidableEq

namespace Route

/-- Where a path leads, if anywhere. -/
def ofPath? (path : String) : Option Route :=
  match (path.toList.splitOn '/').map String.ofList with
  | ["", "health"] => some .health
  | ["", "api", "v1", "products"] => some .products
  | ["", "api", "v1", "products", segment] => if segment = "" then none else some (.product segment)
  | ["", "api", "v1", "categories"] => some .categories
  | ["", "api", "v1", "rules"] => some .rules
  | ["", "api", "v1", "validate"] => some .validate
  | ["", "api", "v1", "validate", "batch"] => some .validateBatch
  | ["", "api", "v1", "pricing", "calculate"] => some .pricing
  | ["", "api", "v1", "quotes"] => some .quotes
  | _ => none

def takesBody : Route → Bool
  | .validate => true
  | .validateBatch => true
  | .pricing => true
  | .quotes => true
  | _ => false

end Route

variable {Time : Type} [Wire Time]

/-- The answer behind a route. -/
def answer (service : Service) (occasion : Occasion Time) (request : Request) :
    Route → Response
  | .health => service.health occasion.stamp.createdAt
  | .products => service.listProducts (Uri.ofText request.uri).query
  | .product segment => service.getProduct occasion.correlationId segment
  | .categories => service.listCategories
  | .rules => service.listRules
  | .validate => .ending <|
    (body selectionShape.read occasion.correlationId request.mediaType request.body).map
      (service.validateOne occasion.correlationId)
  | .validateBatch => .ending <|
    (body batchShape.read occasion.correlationId request.mediaType request.body).map
      (service.validateBatch occasion.correlationId)
  | .pricing => .ending <|
    (body pricingShape.read occasion.correlationId request.mediaType request.body).map
      (service.calculatePricing occasion.correlationId)
  | .quotes => .ending <|
    (body Wire.requestShape.read occasion.correlationId request.mediaType request.body).map
      (service.createQuote occasion)

def respond (service : Service) (occasion : Occasion Time) (request : Request) : Response :=
  match Route.ofPath? (Uri.ofText request.uri).path with
  | none => .bare 404
  | some route =>
    if route.takesBody then
      if request.method = "POST" then service.answer occasion request route else .bare 405
    else if request.method = "GET" then service.answer occasion request route
    else if request.method = "HEAD" then .bare (service.answer occasion request route).status
    else .bare 405

end PriceQuote.Service
