import PriceQuote.Quote.Tables

/-!
# Problems as they are told to clients

A failure inside is told in one of three ways: the request is at fault, what it asks for is not
there, or something broke. Each carries the id under which the request can be found again.
-/

namespace PriceQuote.Service

/-- A problem as it is told to clients. -/
inductive Problem where
  | badRequest (message : String) (details : Option Json) (correlationId : String)
  | notFound (message : String) (correlationId : String)
  | internal (message : String) (correlationId : String)

/-- What is told of configurations that are not valid. -/
def failureDetails (failures : List ItemValidation) : Json :=
  .object (Wire.put "failures" failures)

namespace Problem

/-- The id of a problem that belongs to no request. -/
def unassigned : String := "unassigned"

/-- How a failure is told. -/
def ofFailure (correlationId : String) : Failure → Problem
  | .refused (.unknownProduct _) => .notFound "Product not found" correlationId
  | .refused (.invalid message failures) =>
    .badRequest message (some (failureDetails failures)) correlationId
  | .catalog message => .internal message correlationId
  | .rules message => .internal message correlationId

def text : Problem → String
  | .badRequest message _ _ => s!"bad request: {message}"
  | .notFound message _ => s!"not found: {message}"
  | .internal message _ => s!"internal error: {message}"

/-- What users are told of a problem. -/
def userMessage : Problem → String
  | .badRequest .. => "The request could not be processed. Check inputs and try again."
  | .notFound .. => "The requested resource was not found."
  | .internal .. => "An unexpected internal error occurred."

def message : Problem → String
  | .badRequest message _ _ => message
  | .notFound message _ => message
  | .internal message _ => message

def details? : Problem → Option Json
  | .badRequest _ details _ => details
  | _ => none

def correlationId : Problem → String
  | .badRequest _ _ id => id
  | .notFound _ id => id
  | .internal _ id => id

end Problem

end PriceQuote.Service
