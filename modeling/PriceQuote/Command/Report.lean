import PriceQuote.Json.Basic

/-!
# Reports of commands

A command ends in one report: whether it failed, and how, what there is to say, and data. Only the
way it failed decides on the exit code: 0 without failure, 1 where the answer is no, 2 where there
was nothing to ask.
-/

namespace PriceQuote.Command

/-- How a command fails. -/
inductive ErrorClass where
  | settings
  | pricebook
  | requestRead
  | requestMalformed
  | configurationInvalid
  | unknownCategory
  | quoteFailed
  deriving DecidableEq

def ErrorClass.label : ErrorClass → String
  | .settings => "config_validation"
  | .pricebook => "pricing_load"
  | .requestRead => "request_read"
  | .requestMalformed => "request_malformed"
  | .configurationInvalid => "configuration_invalid"
  | .unknownCategory => "unknown_category"
  | .quoteFailed => "quote_failed"

def ErrorClass.exitCode : ErrorClass → Nat
  | .settings => 2
  | .pricebook => 2
  | .requestRead => 2
  | _ => 1

/-- What a command ends in. -/
structure Report where
  command : String
  errorClass : Option ErrorClass
  message : String
  data : Option Json

namespace Report

def exitCode (report : Report) : Nat :=
  match report.errorClass with
  | none => 0
  | some errorClass => errorClass.exitCode

/-- The word for whether the command failed. -/
def status (report : Report) : String :=
  if report.errorClass.isNone then "ok" else "error"

def toJson (report : Report) : Json :=
  .object <|
    [("command", .string report.command), ("status", .string report.status),
      ("error_class", match report.errorClass with
        | some errorClass => .string errorClass.label
        | none => .null),
      ("message", .string report.message)] ++
    Json.fieldOf id "data" report.data

/-- The report of a command that did what it was asked. -/
def success (command message : String) (data : Json) : Report :=
  ⟨command, none, message, some data⟩

/-- The report of a command that failed. -/
def failure (command : String) (errorClass : ErrorClass) (message : String) : Report :=
  ⟨command, some errorClass, message, none⟩

end Report

end PriceQuote.Command
