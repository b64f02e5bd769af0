import PriceQuote.Toml.Value

/-!
# Reading TOML text

A text is a series of statements, one a line: headers, which state the table that what follows
belongs to, and values under dotted keys.

* `Statement`, `statements?`: the statements of a text;
* `root?`: the table they make;
* `document?`: that table as a document.
-/

namespace PriceQuote.Toml

/-- A statement. -/
inductive Statement where
  | header (isArray : Bool) (keys : List String)
  | assign (keys : List String) (value : Document)

/-- A header behind its first bracket, and the text behind it. -/
def header? (cs : List Char) : Option (Statement × List Char) :=
  match cs with
  | '[' :: rest => do
    let (keys, rest) ← keyPath? levelLimit rest
    some (.header true keys, ← mark? ']' (← mark? ']' rest))
  | rest => do
    let (keys, rest) ← keyPath? levelLimit rest
    some (.header false keys, ← mark? ']' rest)

/-- A value under a key, and the text behind it. -/
def assignment? (cs : List Char) : Option (Statement × List Char) := do
  let (keys, rest) ← keyPath? levelLimit cs
  let rest := skipSpace (← mark? '=' rest)
  let (value, rest) ← value? (2 * rest.length + 1) levelLimit rest
  some (.assign keys value, rest)

/-- The statements of a text, put behind those already read in reverse order. -/
def statementsFrom? : (fuel : Nat) → List Statement → List Char → Option (List Statement)
  | 0, _, _ => none
  | fuel + 1, read, cs =>
    match skipLines false cs with
    | [] => some read.reverse
    | '[' :: rest => do
      let (statement, rest) ← header? rest
      statementsFrom? fuel (statement :: read) (← lineEnd? rest)
    | rest => do
      let (statement, rest) ← assignment? rest
      statementsFrom? fuel (statement :: read) (← lineEnd? rest)

def statements? (s : String) : Option (List Statement) :=
  let cs := match s.toList with
    | '\ufeff' :: rest => rest
    | cs => cs
  statementsFrom? (cs.length + 1) [] cs

/-- Puts values under their keys, up to the next header. -/
def assignAll? : List Statement → Entries → Option Entries
  | .assign keys value :: rest, entries => (insertKeys? keys value entries).bind (assignAll? rest)
  | _, entries => some entries

/-- The statements from the next header on. -/
def fromHeader : List Statement → List Statement
  | .assign _ _ :: rest => fromHeader rest
  | statements => statements

/-- Fills the tables under all headers. -/
def sections? : List Statement → Entries → Option Entries
  | [], entries => some entries
  | .assign _ _ :: rest, entries => sections? rest entries
  | .header isArray keys :: rest, entries =>
    (section? isArray (assignAll? rest) (splitPath keys).2 (splitPath keys).1 entries).bind
      (sections? rest)

/-- The table that statements make. -/
def root? (statements : List Statement) : Option Entries :=
  (assignAll? statements []).bind (sections? statements)

/-- The document of a TOML text, if it is well formed. -/
def document? (s : String) : Option Document := do
  return .table (entriesOf (← root? (← statements? s))) true

end PriceQuote.Toml
