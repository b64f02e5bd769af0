import PriceQuote.Catalog.Standard
import PriceQuote.Rule.Standard
import PriceQuote.Settings.Load
import PriceQuote.Wire.Quote

/-!
# Catalogs and rule tables in files

A catalog and a rule table may each be kept in a TOML file; where none is configured the standard
one is used.

* `Catalog.ofToml`, `Rule.tableOfToml`: from a text;
* `Pricebook.load`: from the files that settings name.
-/

namespace PriceQuote

/-! ## Catalogs -/

/-- Why a catalog cannot be had. -/
inductive CatalogError where
  | unreadable (path : String) (cause : Unreadable)
  | unparsable (fault : Fault)
  | violation (broken : Catalog.Violation)
  deriving DecidableEq

def CatalogError.message : CatalogError → String
  | .unreadable path cause => s!"could not read catalog file `{path}`: {cause.message}"
  | .unparsable fault => s!"could not parse catalog document: {fault.message}"
  | .violation broken => broken.message

def Toml.read {α : Type} (read : Reader α) (s : String) : Except Fault α :=
  match Toml.document? s with
  | some document => read (.top .toml) document
  | none => .error .malformed

def catalogShape : Shape (List Product × List Advisory) :=
  Prod.mk <$> Wire.fieldOr "products" [] <*> Wire.fieldOr "advisories" []

def Catalog.ofToml (s : String) : Except CatalogError Catalog := do
  let (products, advisories) ← (Toml.read catalogShape.read s).mapError .unparsable
  (Catalog.check products advisories).mapError .violation

def Catalog.ofFile (host : Host) (path : String) : Except CatalogError Catalog := do
  ofToml (← (host.readText path).mapError (.unreadable path))

/-! ## Rule tables -/

/-- Why a rule table cannot be had. -/
inductive RulesError where
  | unreadable (path : String) (cause : Unreadable)
  | unparsable (fault : Fault)
  | duplicate (id : RuleId)
  deriving DecidableEq

def RulesError.message : RulesError → String
  | .unreadable path cause => s!"could not read rule table `{path}`: {cause.message}"
  | .unparsable fault => s!"could not parse rule table: {fault.message}"
  | .duplicate id => s!"duplicate rule id `{id.text}` in rule table"

namespace Rule

/-- The first id that occurs again, given the ids that came before. -/
def duplicate? (seen : List RuleId) : List Rule → Option RuleId
  | [] => none
  | rule :: rules =>
    if seen.contains rule.id then some rule.id else duplicate? (rule.id :: seen) rules

def tableShape : Shape (List Rule) :=
  Wire.fieldOr "rules" []

def tableOfToml (s : String) : Except RulesError (List Rule) := do
  let rules ← (Toml.read tableShape.read s).mapError .unparsable
  match duplicate? [] rules with
  | none => return rules
  | some id => .error (.duplicate id)

def tableOfFile (host : Host) (path : String) : Except RulesError (List Rule) := do
  tableOfToml (← (host.readText path).mapError (.unreadable path))

end Rule

/-! ## Pricebooks -/

/-- Why a pricebook cannot be had or gives no answer. -/
inductive Failure where
  | refused (refusal : Refusal)
  | catalog (message : String)
  | rules (message : String)
  deriving DecidableEq

def Failure.message : Failure → String
  | .refused refusal => refusal.message
  | .catalog message => s!"catalog failure: {message}"
  | .rules message => s!"rule table failure: {message}"

namespace Pricebook

def standard : Pricebook := ⟨.standard, Rule.standard.map .ofRule⟩

def load (host : Host) (settings : Settings) : Except Failure Pricebook := do
  let catalog ← match settings.catalogPath with
    | some path => (Catalog.ofFile host path).mapError fun error => .catalog error.message
    | none => .ok .standard
  let rules ← match settings.rulesPath with
    | some path => (Rule.tableOfFile host path).mapError fun error => .rules error.message
    | none => .ok Rule.standard
  return ⟨catalog, rules.map .ofRule⟩

end Pricebook

end PriceQuote
