import PriceQuote.Toml.Scalar
import PriceQuote.Toml.String
import PriceQuote.Toml.Tree

/-!
# Values of TOML

Arrays may run over several lines, hold comments and end in a comma; inline tables may do neither.
Both are nested up to 79 levels, and a key has up to 79 parts.
-/

namespace PriceQuote.Toml

/-- How deeply arrays and inline tables may be nested, and how many parts a key may have. -/
def levelLimit : Nat := 79

/-- Splits a dotted key into its path and its last part. -/
def splitPath (keys : List String) : List String × String :=
  (keys.dropLast, keys.getLastD "")

def insertKeys? (keys : List String) (value : Document) (entries : Entries) : Option Entries :=
  insert? value (splitPath keys).2 (splitPath keys).1 entries

mutual

/-- A value, and the text behind it. `levels` more arrays and inline tables may be opened. -/
def value? (fuel levels : Nat) (cs : List Char) : Option (Document × List Char) :=
  match fuel with
  | 0 => none
  | fuel + 1 =>
    match cs with
    | '"' :: _ => (string? cs).map fun (s, rest) => (.ofText s, rest)
    | '\'' :: _ => (string? cs).map fun (s, rest) => (.ofText s, rest)
    | '[' :: rest => if levels = 0 then none else items? fuel (levels - 1) [] (skipLines false rest)
    | '{' :: rest =>
      if levels = 0 then none
      else match skipSpace rest with
        | '}' :: rest => some (.table [] true, rest)
        | rest => fields? fuel (levels - 1) [] rest
    | 't' :: 'r' :: 'u' :: 'e' :: rest => some (.bool true, rest)
    | 'f' :: 'a' :: 'l' :: 's' :: 'e' :: rest => some (.bool false, rest)
    | cs => numberOrDate? cs

/-- The rest of an array whose items so far are given in reverse order. -/
def items? (fuel levels : Nat) (read : List Document) (cs : List Char) :
    Option (Document × List Char) :=
  match fuel with
  | 0 => none
  | fuel + 1 =>
    match cs with
    | ']' :: rest => some (.sequence read.reverse true, rest)
    | cs => do
      let (item, rest) ← value? fuel levels cs
      match skipLines false rest with
      | ',' :: rest => items? fuel levels (item :: read) (skipLines false rest)
      | ']' :: rest => some (.sequence (item :: read).reverse true, rest)
      | _ => none

/-- The rest of an inline table that has some entries so far. -/
def fields? (fuel levels : Nat) (entries : Entries) (cs : List Char) :
    Option (Document × List Char) :=
  match fuel with
  | 0 => none
  | fuel + 1 => do
    let (keys, rest) ← keyPath? levelLimit cs
    let (value, rest) ← value? fuel levels (skipSpace (← mark? '=' rest))
    let entries ← insertKeys? keys value entries
    match skipSpace rest with
    | ',' :: rest => fields? fuel levels entries rest
    | '}' :: rest => some (.table (entriesOf entries) true, rest)
    | _ => none

end

end PriceQuote.Toml
