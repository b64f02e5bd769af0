import PriceQuote.Catalog.Product

/-!
# Pricing rules

A rule is plain data: a condition on what is priced and an adjustment of its price.

* `RuleCategory`, with its labels: a label is read without regard to case and surrounding blanks;
* `Condition`: built from tests by `all`, `any` and `not`;
* `Adjustment`: how a price changes;
* `Rule`: rules apply by ascending priority.
-/

namespace PriceQuote

/-- The id of a rule. -/
structure RuleId where
  text : String
  deriving DecidableEq

/-- What a rule is about. -/
inductive RuleCategory where
  | volume
  | customerTier
  | bundle
  | regional
  | promotional
  deriving DecidableEq

/-- A test on what is priced. -/
inductive Condition where
  | always
  | quantityAtLeast (value : UInt32)
  | quantityBelow (value : UInt32)
  | customerTier (value : String)
  | region (value : String)
  | productCategory (value : String)
  | addOnSelected (addOn : AddOnId)
  /-- Products of all these families are requested. -/
  | bundleCategories (categories : List String)
  /-- For each of these texts, a requested product's id begins with it. -/
  | bundleStarts (starts : List String)
  | minDistinctProducts (value : UInt64)
  /-- The item has at least so many different add-ons selected. -/
  | minSelectedAddOns (value : UInt64)
  | customFieldEquals (key : String) (value : Json)
  | all (conditions : List Condition)
  | any (conditions : List Condition)
  | not (condition : Condition)

/-- How a rule changes a price. -/
inductive Adjustment where
  | percentOff (percent : Binary64)
  | percentSurcharge (percent : Binary64)
  | multiplier (factor : Binary64)
  | flatOff (amount : Binary64)
  /-- Takes off what one unit of an add-on costs. -/
  | compAddOn (addOn : AddOnId)
  | none
  deriving DecidableEq

/-- A conditional change of a price. -/
structure Rule where
  id : RuleId
  name : String
  description : String
  category : RuleCategory
  priority : Int32
  condition : Condition
  adjustment : Adjustment

/-- What is told about a rule. -/
structure RuleSummary where
  id : RuleId
  name : String
  description : String
  category : RuleCategory
  priority : Int32
  deriving DecidableEq

def Rule.summary (rule : Rule) : RuleSummary :=
  ⟨rule.id, rule.name, rule.description, rule.category, rule.priority⟩

end PriceQuote
