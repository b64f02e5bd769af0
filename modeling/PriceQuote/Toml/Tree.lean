import PriceQuote.Document.Basic

/-!
# Tables of TOML

A table comes into being in one of three ways, and how it may be added to later hangs on that:

* `Kind.stated`: under a header of its own, or a row of an array of tables;
* `Kind.implied`: on the way to a header; one header of its own may follow;
* `Kind.dotted`: on the way to a dotted key; only dotted keys add to it, headers add tables below.

`insert?` puts a value under a dotted key and `section?` fills the table under a header; each fails
where the tables and values before do not allow it.
-/

namespace PriceQuote.Toml

/-- How a table came into being. -/
inductive Kind where
  /-- Under a header of its own. -/
  | stated
  /-- On the way to a header. -/
  | implied
  /-- On the way to a dotted key. -/
  | dotted
  deriving DecidableEq

/-- What stands under a key. -/
inductive Node where
  | value (document : Document)
  | table (kind : Kind) (entries : List (String × Node))
  | rows (rows : List (List (String × Node)))

/-- The entries of a table. -/
abbrev Entries := List (String × Node)

def find? (key : String) (entries : Entries) : Option Node :=
  entries.lookup key

def put (key : String) (node : Node) : Entries → Entries
  | [] => [(key, node)]
  | (k, other) :: entries =>
    if k = key then (key, node) :: entries else (k, other) :: put key node entries

/-- Puts something under a key behind all else, and takes away what stands under it. -/
def putLast (key : String) (node : Node) (entries : Entries) : Entries :=
  entries.filter (fun entry => entry.1 ≠ key) ++ [(key, node)]

/-- Changes the last of several rows. -/
def changeLast? (change : Entries → Option Entries) : List Entries → Option (List Entries)
  | [] => none
  | [row] => (change row).map ([·])
  | row :: rows => (changeLast? change rows).map (row :: ·)

/-- Puts a value under the key at the end of a path. The tables on the way must not be stated, and
the last of them must have come from dotted keys. -/
def insert? (value : Document) (key : String) : List String → Entries → Option Entries
  | [], entries =>
    if (find? key entries).isSome then none else some (entries ++ [(key, .value value)])
  | name :: path, entries =>
    match find? name entries with
    | none => (insert? value key path []).map fun inner =>
        entries ++ [(name, .table .dotted inner)]
    | some (.value _) => none
    | some (.table kind inner) =>
      if kind = .stated ∨ path = [] ∧ kind ≠ .dotted then none
      else (insert? value key path inner).map fun inner => put name (.table kind inner) entries
    | some (.rows rows) =>
      if path = [] then none
      else (changeLast? (insert? value key path) rows).map fun rows => put name (.rows rows) entries

/-- Fills the table that a header states, or a new row if the header is that of an array. A table
stands where its own header comes, also if headers of tables inside it came before. -/
def stateTable? (isArray : Bool) (fill : Entries → Option Entries) (key : String)
    (entries : Entries) : Option Entries :=
  match find? key entries, isArray with
  | none, false => (fill []).map fun inner => putLast key (.table .stated inner) entries
  | none, true => (fill []).map fun row => put key (.rows [row]) entries
  | some (.table .implied inner), false =>
    (fill inner).map fun inner => putLast key (.table .stated inner) entries
  | some (.rows rows), true => (fill []).map fun row => put key (.rows (rows ++ [row])) entries
  | _, _ => none

/-- Fills the table or row that a header states at the end of a path. -/
def section? (isArray : Bool) (fill : Entries → Option Entries) (key : String) :
    List String → Entries → Option Entries
  | [], entries => stateTable? isArray fill key entries
  | name :: path, entries =>
    match find? name entries with
    | none => (section? isArray fill key path []).map fun inner =>
        put name (.table .implied inner) entries
    | some (.value _) => none
    | some (.table kind inner) => (section? isArray fill key path inner).map fun inner =>
        put name (.table kind inner) entries
    | some (.rows rows) => (changeLast? (section? isArray fill key path) rows).map fun rows =>
        put name (.rows rows) entries

mutual

/-- What stands under a key, as a document. -/
def Node.document : Node → Document
  | .value document => document
  | .table _ entries => .table (entriesOf entries) true
  | .rows rows => .sequence (rowsOf rows) true

def entriesOf : List (String × Node) → List (Option String × Document)
  | [] => []
  | (key, node) :: entries => (some key, node.document) :: entriesOf entries

def rowsOf : List (List (String × Node)) → List Document
  | [] => []
  | row :: rows => .table (entriesOf row) true :: rowsOf rows

end

end PriceQuote.Toml
