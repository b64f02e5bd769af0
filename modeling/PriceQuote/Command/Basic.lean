import PriceQuote.Binary64.Text
import PriceQuote.Command.Report
import PriceQuote.Document.OfJsonText
import PriceQuote.Quote.Tables
import PriceQuote.Settings.Attribution

/-!
# Commands

What can be asked on a command line, and the report each command ends in. All commands load the
settings; all but `config` load the pricebook that they name.

* `Command.run`: the report of a command on a host.
-/

namespace PriceQuote

/-- What can be asked on a command line. -/
inductive Command where
  | catalog (category : Option String)
  | rules (category : Option String)
  | validate (product : String) (selected : List String)
  | quote (file : String)
  | config
  deriving DecidableEq

namespace Command

open Settings (LoadOptions)

/-- Loads the settings and the pricebook they name. -/
def load (command : String) (host : Host) (options : LoadOptions) :
    Except Report (Settings × Pricebook) := do
  let settings ← (Settings.load host options).mapError fun error =>
    .failure command .settings error.message
  let book ← (Pricebook.load host settings).mapError fun error =>
    .failure command .pricebook error.message
  return (settings, book)

/-- A filter that says something. -/
def filterOf (category : Option String) : Option String :=
  (category.map Text.trim).filter (· ≠ "")

def listCatalog (catalog : Catalog) (category : Option String) : Report :=
  let products := match filterOf category with
    | some category => catalog.byCategory category
    | none => catalog.products
  let message := match filterOf category with
    | some category => s!"{products.length} products in category `{category}`"
    | none => s!"{products.length} products"
  .success "catalog" message <| .object <|
    Wire.put "categories" catalog.categories ++ Wire.put "products" products

/-- Lists rules in the order of evaluation. -/
def listRules (rules : List (PriceRule Binary64)) (category : Option RuleCategory) : Report :=
  let summaries := (describe rules).filter fun rule => category.all (· = rule.category)
  let message := match category with
    | some category => s!"{summaries.length} {category.label} rules in evaluation order"
    | none => s!"{summaries.length} rules in evaluation order"
  .success "rules" message (Wire.encode summaries)

def unknownCategory (category : String) : Report :=
  let known := joinTexts ", " (RuleCategory.every.map RuleCategory.label)
  .failure "rules" .unknownCategory
    s!"unknown rule category `{Text.trim category}` (expected one of: {known})"

/-- The category to filter by, if one is given. -/
def categoryOf (category : Option String) : Except Report (Option RuleCategory) :=
  match category with
  | none => .ok none
  | some text =>
    match RuleCategory.ofText? text with
    | some category => .ok (some category)
    | none => .error (unknownCategory text)

def checkSelection (catalog : Catalog) (product : String) (selected : List String) : Report :=
  let id : ProductId := ⟨Text.trim product⟩
  let result := catalog.validate id (selected.map fun id => ⟨Text.trim id⟩)
  if result.isValid then
    .success "validate"
      s!"configuration for `{id.text}` is valid ({result.warningCount} warnings)"
      (Wire.encode result)
  else
    { Report.failure "validate" .configurationInvalid (joinTexts ", " result.errorMessages) with
      data := some (Wire.encode result) }

def failuresJson (failures : List ItemValidation) : Json :=
  .object (Wire.put "failures" failures)

def makeQuote {Time : Type} [Wire Time] (book : Pricebook) (stamp : Stamp Time)
    (request : QuoteRequest) : Report :=
  match book.quote stamp request with
  | .ok made =>
    .success "quote" s!"quote {made.id} total {made.total.toHundredths}" (Wire.encode made)
  | .error (.invalid message failures) =>
    { Report.failure "quote" .configurationInvalid message with
      data := some (failuresJson failures) }
  | .error refusal => .failure "quote" .quoteFailed refusal.message

/-- The request in a JSON text, if it is worth looking at. -/
def requestOf (settings : Settings) (text : String) : Except Report QuoteRequest := do
  let read : Reader QuoteRequest := Wire.read
  let request ← (Reader.ofText read (Document.ofJsonText text)).mapError fun fault =>
    .failure "quote" .requestMalformed s!"invalid quote request: {fault.message}"
  match request.shapeProblem? settings.maxConfigurations.toNat with
  | none => return request
  | some problem => .error (.failure "quote" .requestMalformed problem.message)

def quoteFile {Time : Type} [Wire Time] (host : Host) (settings : Settings) (book : Pricebook)
    (stamp : Stamp Time) (file : String) : Except Report Report := do
  let text ← (host.readText file).mapError fun cause =>
    .failure "quote" .requestRead s!"could not read `{file}`: {cause.message}"
  return makeQuote book stamp (← requestOf settings text)

def tellSettings (host : Host) (options : LoadOptions) : Report :=
  match Settings.load host options with
  | .error error => .failure "config" .settings s!"config validation failed: {error.message}"
  | .ok settings =>
    .success "config" "effective config (source precedence: env > file > default)" <|
      .array ((settings.attributions host options.path).map fun attribution =>
        .object [("key", .string attribution.key.path), ("value", .string attribution.value),
          ("source", .string attribution.source.text)])

/-- The report that either way of ending leads to. -/
def ending : Except Report Report → Report
  | .ok report => report
  | .error report => report

/-- The report of a command. -/
def run {Time : Type} [Wire Time] (host : Host) (options : LoadOptions) (stamp : Stamp Time) :
    Command → Report
  | .catalog category => ending do
    let (_, book) ← load "catalog" host options
    return listCatalog book.catalog category
  | .rules category => ending do
    let category ← categoryOf category
    let (_, book) ← load "rules" host options
    return listRules book.rules category
  | .validate product selected => ending do
    let (_, book) ← load "validate" host options
    return checkSelection book.catalog product selected
  | .quote file => ending do
    let (settings, book) ← load "quote" host options
    quoteFile host settings book stamp file
  | .config => tellSettings host options

end Command

end PriceQuote
