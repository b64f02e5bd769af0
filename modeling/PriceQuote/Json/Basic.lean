import PriceQuote.Binary64.Rounding

/-!
# JSON values

* `Json`: the values. An object built by `Json.ofFields` lists its fields by key, each key once.
* `Json.same`: equality, in which numbers of different kinds differ and floats compare by value.
* `Json.field?`: look-up by key.
-/

namespace PriceQuote

/-- A JSON value. -/
inductive Json where
  | null
  | bool (value : Bool)
  | integer (value : Int)
  | float (value : Binary64)
  | string (value : String)
  | array (items : List Json)
  | object (fields : List (String × Json))

namespace Json

/-- Puts a field into a list sorted by key, in place of one with the same key. -/
def insertField {α : Type} (key : String) (value : α) : List (String × α) → List (String × α)
  | [] => [(key, value)]
  | (k, v) :: rest =>
    if key < k then (key, value) :: (k, v) :: rest
    else if key = k then (key, value) :: rest
    else (k, v) :: insertField key value rest

/-- Fields sorted by key; of those with one key the last is kept. -/
def sortFields {α : Type} (fields : List (String × α)) : List (String × α) :=
  fields.foldl (fun sorted field => insertField field.1 field.2 sorted) []

def ofFields (fields : List (String × Json)) : Json :=
  .object (sortFields fields)

/-- A field under its key, left out when its value is absent. -/
def fieldOf {α : Type} (encode : α → Json) (key : String) : Option α → List (String × Json)
  | none => []
  | some value => [(key, encode value)]

def field? (key : String) : Json → Option Json
  | .object fields => fields.lookup key
  | _ => none

/-- The value of a number of either kind. -/
def number? : Json → Option Binary64
  | .integer n => some (Binary64.ofInt n)
  | .float x => some x
  | _ => none

mutual

/-- Two values are equal: of the same kind throughout, with numbers equal by value and objects equal
field by field. -/
def same : Json → Json → Bool
  | .null, .null => true
  | .bool a, .bool b => a == b
  | .integer a, .integer b => a == b
  | .float a, .float b => a.same b
  | .string a, .string b => a == b
  | .array a, .array b => sameItems a b
  | .object a, .object b => sameFields a b
  | _, _ => false

def sameItems : List Json → List Json → Bool
  | [], [] => true
  | a :: as, b :: bs => same a b && sameItems as bs
  | _, _ => false

def sameFields : List (String × Json) → List (String × Json) → Bool
  | [], [] => true
  | (k, a) :: as, (l, b) :: bs => k == l && same a b && sameFields as bs
  | _, _ => false

end

end Json

end PriceQuote
