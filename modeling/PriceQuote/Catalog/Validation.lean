import PriceQuote.Catalog.Basic
import PriceQuote.Quote.Request

/-!
# Validating configurations

A selection of add-ons is checked against what its product declares. Nothing stops at the first
finding: `Product.violations` lists them all, required add-ons first, then unknown ids, conflicts
and unmet dependencies, and a repeated id is looked at once.

* `Catalog.validateSelection`: errors from the product, warnings from the catalog's advice;
* `Catalog.validate`: the same for a product id, which may be unknown;
* `Catalog.validateBatch`, `Batch.failures`, `Batch.summary`: for several configurations.
-/

namespace PriceQuote

/-- One finding about a configuration. -/
structure Issue where
  field : String
  message : String
  deriving DecidableEq

/-- What checking one configuration found. -/
structure Validation where
  isValid : Bool
  errors : List Issue
  /-- What is advised against, if anything. -/
  warnings : Option (List Issue)
  deriving DecidableEq

/-- What checking the configuration at one place of a request found. -/
structure ItemValidation where
  index : Nat
  productId : ProductId
  result : Validation
  deriving DecidableEq

/-- What checking several configurations found. -/
structure Batch where
  isValid : Bool
  items : List ItemValidation
  deriving DecidableEq

def joinTexts (separator : String) (texts : List String) : String :=
  separator.intercalate texts

namespace Validation

/-- The result with the given findings; without warnings none are listed. -/
def ofIssues (errors warnings : List Issue) : Validation :=
  ⟨errors.isEmpty, errors, if warnings.isEmpty then none else some warnings⟩

def warningCount (validation : Validation) : Nat :=
  (validation.warnings.getD []).length

def errorMessages (validation : Validation) : List String :=
  validation.errors.map (·.message)

end Validation

namespace Batch

def failures (batch : Batch) : List ItemValidation :=
  batch.items.filter fun item => !item.result.isValid

/-- One text on all configurations that are not valid. -/
def summary (batch : Batch) : String :=
  joinTexts "; " (batch.failures.map fun item =>
    item.productId.text ++ ": " ++ joinTexts ", " item.result.errorMessages)

end Batch

/-- How a selection breaks what its product declares. -/
inductive SelectionViolation where
  | missing (addOn : AddOn)
  | unknown (id : AddOnId)
  | conflict (addOn : AddOn) (other : AddOnId)
  | unmet (addOn : AddOn) (needed : AddOnId)
  deriving DecidableEq

namespace Product

/-- How messages call an add-on: by its name, or by its id if the product has none such. -/
def callAddOn (product : Product) (id : AddOnId) : String :=
  match product.addOn? id with
  | some addOn => addOn.name
  | none => id.text

/-- Everything wrong with a selection. -/
def violations (product : Product) (selected : List AddOnId) : List SelectionViolation :=
  let chosen := selected.eraseDups
  (product.addOns.filter fun addOn => addOn.required && !chosen.contains addOn.id).map .missing ++
  (chosen.filter fun id => !product.hasAddOn id).map .unknown ++
  (product.selection selected).flatMap (fun addOn =>
    (addOn.conflicts.filter fun id => chosen.contains id).map (.conflict addOn)) ++
  (product.selection selected).flatMap fun addOn =>
    (addOn.dependencies.filter fun id => !chosen.contains id).map (.unmet addOn)

end Product

def SelectionViolation.message (product : Product) : SelectionViolation → String
  | .missing addOn => s!"Required option '{addOn.name}' is missing"
  | .unknown id => s!"Invalid option '{id.text}' for product '{product.name}'"
  | .conflict addOn other =>
    s!"Options '{addOn.name}' and '{product.callAddOn other}' cannot be selected together"
  | .unmet addOn needed => s!"Option '{addOn.name}' requires '{product.callAddOn needed}'"

/-- The part of a configuration that names its add-ons. -/
def selectionField : String := "selectedOptions"

/-- The part of a configuration that names its product. -/
def productField : String := "productId"

def SelectionViolation.issue (product : Product) (violation : SelectionViolation) : Issue :=
  ⟨selectionField, violation.message product⟩

namespace Catalog

/-- The advice that a selection of a product calls for. -/
def advice (catalog : Catalog) (product : Product) (selected : List AddOnId) : List Issue :=
  (catalog.advisories.filter fun advisory =>
    advisory.category == product.category &&
      !(advisory.unlessAddOn.any fun id => selected.contains id)).map
    fun advisory => ⟨advisory.field, advisory.message⟩

def validateSelection (catalog : Catalog) (product : Product) (selected : List AddOnId) :
    Validation :=
  .ofIssues ((product.violations selected).map (·.issue product)) (catalog.advice product selected)

/-- Checks a selection of the product with the given id. -/
def validate (catalog : Catalog) (id : ProductId) (selected : List AddOnId) : Validation :=
  match catalog.find? id with
  | some product => catalog.validateSelection product selected
  | none => .ofIssues [⟨productField, s!"Product '{id.text}' not found"⟩] []

/-- Checks the configuration at one place of a request. -/
def validateItem (catalog : Catalog) (configuration : Configuration) (index : Nat) :
    ItemValidation :=
  ⟨index, configuration.productId,
    catalog.validate configuration.productId configuration.selected⟩

def validateBatch (catalog : Catalog) (configurations : List Configuration) : Batch :=
  let items := configurations.zipIdx.map fun (configuration, index) =>
    catalog.validateItem configuration index
  ⟨items.all fun item => item.result.isValid, items⟩

end Catalog

end PriceQuote
