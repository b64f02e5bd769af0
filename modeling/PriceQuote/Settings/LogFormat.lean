import PriceQuote.Text.Blank
import PriceQuote.Wire.Basic

/-!
# Log formats

A log format has one label, which is read without regard to case and surrounding blanks where a
person wrote it.
-/

namespace PriceQuote

/-- How log records are written. -/
inductive LogFormat where
  | compact
  | pretty
  | json
  deriving DecidableEq

namespace LogFormat

def every : List LogFormat := [.compact, .pretty, .json]

def label : LogFormat → String
  | .compact => "compact"
  | .pretty => "pretty"
  | .json => "json"

/-- The log format with exactly this label. -/
def ofLabel? (s : String) : Option LogFormat :=
  every.find? fun format => format.label == s

/-- The form in which a label is looked up. -/
def normalize (s : String) : String :=
  Text.lowerAscii (Text.trim s)

/-- The log format whose label a text is, blanks around it and the case of its letters aside. -/
def ofText? (s : String) : Option LogFormat :=
  ofLabel? (normalize s)

theorem ofText?_label (format : LogFormat) : ofText? format.label = some format := by
  cases format <;> decide +kernel

end LogFormat

instance : Wire LogFormat where
  encode format := .string format.label
  read := Reader.oneOf LogFormat.ofLabel?

end PriceQuote
