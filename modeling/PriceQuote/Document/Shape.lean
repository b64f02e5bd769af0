import PriceQuote.Document.Reader

/-!
# Records

A record is a table with an entry for each field, or a sequence of its fields in order. Entries
under other keys are passed over, as long as they come to their end.

* `Outcome`: what reading the fields came to; of several faults the one that stands first counts,
  and a missing field counts only where there is no other fault, since it shows at the end.
* `Shape`: how a record is put together from its fields, in their order.
* `Shape.read`: reads a record. A key may not come twice.
-/

namespace PriceQuote

/-- What reading some fields of a record came to. -/
inductive Outcome (α : Type) where
  | good (value : α)
  | missing
  | faulty (index : Nat) (fault : Fault)

namespace Outcome

/-- Applies what one part of a record came to, to what the other did. -/
def apply {α β : Type} : Outcome (α → β) → Outcome α → Outcome β
  | .good f, .good a => .good (f a)
  | .faulty i e, .faulty j f => if i ≤ j then .faulty i e else .faulty j f
  | .faulty i e, _ => .faulty i e
  | _, .faulty j f => .faulty j f
  | _, _ => .missing

def ofResult {α : Type} (index : Nat) : Except Fault α → Outcome α
  | .ok value => .good value
  | .error fault => .faulty index fault

/-- The outcome of a field that is not there. -/
def ofDefault {α : Type} : Option α → Outcome α
  | some value => .good value
  | none => .missing

/-- The value of a record whose text has a fault of its own at the given index, if it has one. -/
def conclude {α : Type} (flaw : Option (Nat × Fault)) : Outcome α → Except Fault α
  | .good value => match flaw with
    | none => .ok value
    | some (_, fault) => .error fault
  | .missing => match flaw with
    | none => .error .mismatch
    | some (_, fault) => .error fault
  | .faulty index fault => match flaw with
    | none => .error fault
    | some (place, flaw) => .error (if place ≤ index then flaw else fault)

end Outcome

/-- Where the fields of a record are: given a field's place among the fields and its key, the index
and the document of its entry. -/
abbrev Locate := Nat → String → Option (Nat × Document)

/-- How a record is put together from its fields. -/
structure Shape (α : Type) where
  keys : List String
  /-- Reads the fields; it is told whether they are given by position. -/
  fields : Scope → (positional : Bool) → Locate → Outcome α

namespace Shape

def pure {α : Type} (value : α) : Shape α :=
  ⟨[], fun _ _ _ => .good value⟩

/-- A record with the fields of the first part, then those of the second. -/
def seq {α β : Type} (f : Shape (α → β)) (a : Shape α) : Shape β :=
  ⟨f.keys ++ a.keys, fun scope positional locate =>
    (f.fields scope positional locate).apply
      (a.fields scope positional fun place => locate (f.keys.length + place))⟩

instance : Pure Shape := ⟨pure⟩
instance : Seq Shape := ⟨fun f a => seq f (a ())⟩
instance : Functor Shape where
  map f a := ⟨a.keys, fun scope positional locate =>
    (Outcome.good f).apply (a.fields scope positional locate)⟩

/-- One field. When it is not there, its value is `absent` in a table and `omitted` in a sequence;
where that is `none`, the record cannot be read. -/
def field {α : Type} (key : String) (read : Reader α) (absent omitted : Option α) : Shape α :=
  ⟨[key], fun scope positional locate =>
    match locate 0 key with
    | some (index, document) => .ofResult index (read scope document)
    | none => .ofDefault (if positional then omitted else absent)⟩

def required {α : Type} (key : String) (read : Reader α) : Shape α :=
  field key read none none

/-- A field with a value for when it is not there. -/
def defaulted {α : Type} (key : String) (read : Reader α) (value : α) : Shape α :=
  field key read (some value) (some value)

/-- A field that may be left out, or say that there is none. -/
def optional {α : Type} (key : String) (read : Reader α) : Shape (Option α) :=
  field key (.optional read) (some none) (some none)

/-- A field that may be left out of a table, but not of a sequence. -/
def optionalByKey {α : Type} (key : String) (read : Reader α) : Shape (Option α) :=
  field key (.optional read) (some none) none

/-! ## Tables and sequences -/

/-- The first entry under a key, with its index; the first of the entries has the index `start`. -/
def locateKey (key : String) : Nat → List (Option String × Document) → Option (Nat × Document)
  | _, [] => none
  | start, (name, document) :: entries =>
    if name = some key then some (start, document) else locateKey key (start + 1) entries

/-- The first fault that is not in a field's value: a key that cannot be read or comes again, a
value under another key that does not come to its end, or the table that does not. -/
def tableFlaw (keys : List String) (closed : Bool) :
    Nat → List String → List (Option String × Document) → Option (Nat × Fault)
  | index, _, [] => if closed then none else some (index, .malformed)
  | index, _, (none, _) :: _ => some (index, .malformed)
  | index, seen, (some key, document) :: entries =>
    if keys.contains key then
      if seen.contains key then some (index, .mismatch)
      else tableFlaw keys closed (index + 1) (key :: seen) entries
    else if document.isWhole then tableFlaw keys closed (index + 1) seen entries
    else some (index, .malformed)

/-- The fault of a sequence with more items than fields, or that does not come to its end. In JSON
text an item too many is noticed as such only before it is read as a value. -/
def sequenceFlaw (scope : Scope) (fields items : Nat) (closed : Bool) : Option (Nat × Fault) :=
  if fields < items then
    if scope.settled then some (fields, .mismatch)
    else match scope.origin with
      | .jsonText => some (fields, .malformed)
      | .json => some (fields, .mismatch)
      | .toml => none
  else if closed then none else some (items, .malformed)

def readTable {α : Type} (shape : Shape α) (scope : Scope)
    (entries : List (Option String × Document)) (closed : Bool) : Except Fault α :=
  (shape.fields scope false fun _ key => locateKey key 0 entries).conclude
    (tableFlaw shape.keys closed 0 [] entries)

def readSequence {α : Type} (shape : Shape α) (scope : Scope) (items : List Document)
    (closed : Bool) : Except Fault α :=
  (shape.fields scope true fun place _ => items[place]?.map (place, ·)).conclude
    (sequenceFlaw scope shape.keys.length items.length closed)

def read {α : Type} (shape : Shape α) : Reader α
  | scope, .table entries closed => do shape.readTable (← scope.inside) entries closed
  | scope, .sequence items closed => do shape.readSequence (← scope.inside) items closed
  | _, d => .error d.refusal

end Shape

end PriceQuote
