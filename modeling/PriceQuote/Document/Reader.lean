import PriceQuote.Document.Basic

/-!
# Reading values from documents

A reader takes a document to a value or to the first fault, in the order of the text. A fault is
either that the text is not well formed or that it does not fit what it is read as; a fault inside
a value is one of the text only if it had to be read to be noticed.

* `Scope`: what a reader knows of where its document comes from;
* `Reader`: readers, with those of texts, numbers, lists, optional and free-form values.
-/

namespace PriceQuote

/-- Why a document cannot be read. -/
inductive Fault where
  | malformed
  | mismatch
  deriving DecidableEq, Repr

def Fault.message : Fault → String
  | .malformed => "the text is not well formed"
  | .mismatch => "a value is missing or of the wrong kind"

/-- Where a document comes from. -/
inductive Origin where
  | jsonText
  | json
  | toml
  deriving DecidableEq

/-- What a reader knows of the place of its document. -/
structure Scope where
  origin : Origin
  /-- How many more sequences and tables of JSON text may be opened, plus one. -/
  levels : Nat
  /-- The document was looked through before and found well formed. -/
  settled : Bool
  deriving DecidableEq

namespace Scope

/-- The scope of a whole document: JSON text is nested up to 127 levels. -/
def top (origin : Origin) : Scope := ⟨origin, 128, false⟩

/-- The scope inside a sequence or table, unless that is one level too many. -/
def inside (scope : Scope) : Except Fault Scope :=
  if scope.origin = .jsonText ∧ scope.settled = false then
    if scope.levels ≤ 1 then .error .malformed else .ok { scope with levels := scope.levels - 1 }
  else .ok scope

/-- The scope of what was looked through. -/
def settle (scope : Scope) : Scope := { scope with settled := true }

end Scope

/-- Takes a document to a value. -/
abbrev Reader (α : Type) := Scope → Document → Except Fault α

namespace Document

/-- The fault of a document that is not of the kind asked for. A sequence or table shows that at
its bracket; any other value has to be read first. -/
def refusal : Document → Fault
  | .fault => .malformed
  | .number .outOfRange => .malformed
  | .text none => .malformed
  | _ => .mismatch

/-- A sequence or table has to come to its end. -/
def close {α : Type} (closed : Bool) (value : α) : Except Fault α :=
  if closed then .ok value else .error .malformed

end Document

namespace Reader

def text : Reader String
  | _, .text (some s) => .ok s
  | _, d => .error d.refusal

def boolean : Reader Bool
  | _, .bool value => .ok value
  | _, d => .error d.refusal

/-- A whole number from `least` to `greatest`, written without point and exponent. -/
def integer (least greatest : Int) : Reader Int
  | _, .number (.integer n) => if least ≤ n ∧ n ≤ greatest then .ok n else .error .mismatch
  | _, d => .error d.refusal

def natural (greatest : Nat) : Reader Nat := fun scope d =>
  (integer 0 greatest scope d).map Int.toNat

/-- A number of any form. -/
def binary64 : Reader Binary64
  | _, .number (.integer n) => .ok (Binary64.ofInt n)
  | _, .number (.float x) => .ok x
  | _, d => .error d.refusal

/-- A value, or `none` where the document says that there is none. -/
def optional {α : Type} (read : Reader α) : Reader (Option α)
  | _, .null => .ok none
  | scope, d => (read scope d).map some

def list {α : Type} (read : Reader α) : Reader (List α)
  | scope, .sequence items closed => do
    let scope ← scope.inside
    Document.close closed (← items.mapM (read scope))
  | _, d => .error d.refusal

/-- The name of one of several alternatives: a text, or a table whose only entry is the name with
nothing under it. Nothing is `null` in JSON, and an empty sequence or table in TOML. -/
def name : Reader String
  | _, .text (some s) => .ok s
  | scope, .table [(some s, d)] closed => do
    let _ ← scope.inside
    match scope.origin, d with
    | .toml, .sequence [] true => .ok s
    | .toml, .table [] true => .ok s
    | .toml, _ => .error .mismatch
    | _, .null => Document.close closed s
    | _, d => .error d.refusal
  | _, d => .error d.refusal

/-- What a text stands for. -/
def textOf {α : Type} (ofText? : String → Option α) : Reader α := fun scope d => do
  match ofText? (← text scope d) with
  | some value => .ok value
  | none => .error .mismatch

/-- One of several named alternatives. -/
def oneOf {α : Type} (ofName? : String → Option α) : Reader α := fun scope d => do
  match ofName? (← name scope d) with
  | some value => .ok value
  | none => .error .mismatch

mutual

/-- A value of any kind. A number that JSON has no text for becomes `null`; of several fields with
one key the last is kept. -/
def freeForm (scope : Scope) : Document → Except Fault Json
  | .null => .ok .null
  | .bool value => .ok (.bool value)
  | .number (.integer n) => .ok (.integer n)
  | .number (.float x) => .ok (if x.isFinite then .float x else .null)
  | .number .outOfRange => .error .malformed
  | .text (some s) => .ok (.string s)
  | .text none => .error .malformed
  | .sequence items closed => do
    Document.close closed (.array (← freeFormItems (← scope.inside) items))
  | .table entries closed => do
    Document.close closed (.ofFields (← freeFormEntries (← scope.inside) entries))
  | .fault => .error .malformed

def freeFormItems (scope : Scope) : List Document → Except Fault (List Json)
  | [] => .ok []
  | item :: items => do return (← freeForm scope item) :: (← freeFormItems scope items)

def freeFormEntries (scope : Scope) : List (Option String × Document) →
    Except Fault (List (String × Json))
  | [] => .ok []
  | (none, _) :: _ => .error .malformed
  | (some key, value) :: entries => do
    return (key, ← freeForm scope value) :: (← freeFormEntries scope entries)

end

/-- A table of free-form values, sorted by key; of several fields with one key the last is kept. -/
def fields : Reader (List (String × Json))
  | scope, .table entries closed => do
    let fields ← freeFormEntries (← scope.inside) entries
    Document.close closed (Json.sortFields fields)
  | _, d => .error d.refusal

end Reader

/-- Reads a whole JSON text, behind which only white space may follow. -/
def Reader.ofText {α : Type} (read : Reader α) (document : Document × Bool) : Except Fault α := do
  let value ← read (.top .jsonText) document.1
  Document.close document.2 value

end PriceQuote
