import PriceQuote.Rule.Basic
import PriceQuote.Text.Blank

/-!
# Labels of rule categories

Each category has one label. `RuleCategory.ofText?` also reads it in other letters and with white
space around it; `RuleCategory.ofLabel?` reads the label alone.
-/

namespace PriceQuote.RuleCategory

def every : List RuleCategory :=
  [.volume, .customerTier, .bundle, .regional, .promotional]

def label : RuleCategory → String
  | .volume => "volume"
  | .customerTier => "customer_tier"
  | .bundle => "bundle"
  | .regional => "regional"
  | .promotional => "promotional"

/-- The category with exactly this label. -/
def ofLabel? (s : String) : Option RuleCategory :=
  every.find? fun category => category.label == s

/-- The category whose label a text is, blanks around it and the case of its letters aside. -/
def ofText? (s : String) : Option RuleCategory :=
  ofLabel? (Text.lowerAscii (Text.trim s))

theorem ofText?_label (category : RuleCategory) : ofText? category.label = some category := by
  cases category <;> decide +kernel

end PriceQuote.RuleCategory
