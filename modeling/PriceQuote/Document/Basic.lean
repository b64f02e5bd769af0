import PriceQuote.Json.Basic

/-!
# Documents

A document is what reading a text from left to right has seen, up to its end or to the first place
where it makes no sense. What was opened but never closed is still there, marked as such, so that
it can be told which problem of a text comes first: that it is not well formed, or that it does not
fit what it is read as.

* `Document`: the tree; entries keep their order, and a key may occur twice.
* `Document.isWhole`: the text of a value came to its end.
* `Document.ofJson`: a value that was read before, as a document.
-/

namespace PriceQuote

/-- A number as it was written. -/
inductive Numeric where
  | integer (value : Int)
  /-- With a point or an exponent, or too long for 64 bits. -/
  | float (value : Binary64)
  | outOfRange
  deriving DecidableEq

/-- What reading a text has seen. -/
inductive Document where
  | null
  | bool (value : Bool)
  | number (value : Numeric)
  /-- A text; `none` where escapes name half of a character. -/
  | text (value : Option String)
  | sequence (items : List Document) (closed : Bool)
  /-- Values under keys; a key of `none` is one whose escapes name half of a character. -/
  | table (entries : List (Option String × Document)) (closed : Bool)
  | fault

namespace Document

instance : Inhabited Document := ⟨.fault⟩

/-- The value came to its end. Whatever is inside a closed sequence or table did so too. -/
def isWhole : Document → Bool
  | .fault => false
  | .sequence _ closed => closed
  | .table _ closed => closed
  | _ => true

def ofText (s : String) : Document := .text (some s)

def ofEntries (entries : List (String × Document)) : Document :=
  .table (entries.map fun entry => (some entry.1, entry.2)) true

mutual

def ofJson : Json → Document
  | .null => .null
  | .bool value => .bool value
  | .integer value => .number (.integer value)
  | .float value => .number (.float value)
  | .string value => ofText value
  | .array items => .sequence (ofJsonItems items) true
  | .object fields => .table (ofJsonFields fields) true

def ofJsonItems : List Json → List Document
  | [] => []
  | item :: items => ofJson item :: ofJsonItems items

def ofJsonFields : List (String × Json) → List (Option String × Document)
  | [] => []
  | (key, value) :: fields => (some key, ofJson value) :: ofJsonFields fields

end

mutual

/-- How deeply sequences and tables are nested in a document. -/
def height : Document → Nat
  | .sequence items _ => itemsHeight items + 1
  | .table entries _ => entriesHeight entries + 1
  | _ => 0

def itemsHeight : List Document → Nat
  | [] => 0
  | item :: items => max item.height (itemsHeight items)

def entriesHeight : List (Option String × Document) → Nat
  | [] => 0
  | (_, value) :: entries => max value.height (entriesHeight entries)

end

end Document

end PriceQuote
