import PriceQuote.Document.Shape

/-!
# How values travel

`Wire` pairs how a value is written as JSON with how it is read from a document, and does so for
the types that others are made of. Fields that say nothing are left out of what is written.
-/

namespace PriceQuote

/-- A type whose values are written as JSON and read from documents. -/
class Wire (α : Type) where
  encode : α → Json
  read : Reader α

namespace Wire

instance : Wire String := ⟨.string, Reader.text⟩

instance : Wire Bool := ⟨.bool, Reader.boolean⟩

instance : Wire Binary64 := ⟨.float, Reader.binary64⟩

instance : Wire Json := ⟨id, Reader.freeForm⟩

instance : Wire UInt32 where
  encode n := .integer n.toNat
  read scope d := (Reader.natural (UInt32.size - 1) scope d).map UInt32.ofNat

instance : Wire UInt64 where
  encode n := .integer n.toNat
  read scope d := (Reader.natural (UInt64.size - 1) scope d).map UInt64.ofNat

instance : Wire UInt16 where
  encode n := .integer n.toNat
  read scope d := (Reader.natural (UInt16.size - 1) scope d).map UInt16.ofNat

instance : Wire Int32 where
  encode n := .integer n.toInt
  read scope d :=
    (Reader.integer Int32.minValue.toInt Int32.maxValue.toInt scope d).map Int32.ofInt

instance {α : Type} [Wire α] : Wire (List α) where
  encode xs := .array (xs.map encode)
  read := .list read

variable {α : Type}

def put [Wire α] (key : String) (value : α) : List (String × Json) :=
  [(key, encode value)]

/-- A field that is written where it has a value. -/
def putSome [Wire α] (key : String) : Option α → List (String × Json)
  | some value => [(key, encode value)]
  | none => []

/-- A list that is written unless it is empty. -/
def putList [Wire α] (key : String) (values : List α) : List (String × Json) :=
  if values.isEmpty then [] else [(key, encode values)]

/-- Free-form fields that are written unless there are none. -/
def putFields (key : String) (fields : List (String × Json)) : List (String × Json) :=
  if fields.isEmpty then [] else [(key, .object fields)]

def field [Wire α] (key : String) : Shape α :=
  .required key read

/-- A field with a value for when it is not there. -/
def fieldOr [Wire α] (key : String) (value : α) : Shape α :=
  .defaulted key read value

/-- A field that may be left out. -/
def field? [Wire α] (key : String) : Shape (Option α) :=
  .optional key read

def freeFields (key : String) : Shape (List (String × Json)) :=
  .defaulted key Reader.fields []

end Wire

end PriceQuote
