import PriceQuote.Toml.Scalar

/-!
# TOML of no certain form

Where nothing is laid down about the form of a text, a table that begins with the key of dates is a
date or a time of day. Its text has to tell one, else the document cannot be read; whatever else
the table holds is passed over.

* `isDateTime`: the texts that tell a date or a time of day;
* `freeForm?`: a document with each such table made a date.
-/

namespace PriceQuote.Toml

/-- The text tells a date with a time of day, a date or a time of day, and nothing else. -/
def isDateTime (s : String) : Bool :=
  (dateTime? s.toList).any fun (_, rest) => rest.isEmpty

/-- A table of these entries is a date or a time of day. -/
def isMarked : List (Option String × Document) → Bool
  | (key, _) :: _ => key == some dateTimeKey
  | [] => false

/-- The date or time of day that a table of these entries is. -/
def marked? : List (Option String × Document) → Option Document
  | (key, .text (some s)) :: _ =>
    if isDateTime s then some (.table [(key, .ofText s)] true) else none
  | _ => none

mutual

/-- A document of no certain form. -/
def freeForm? : Document → Option Document
  | .sequence items closed => (freeFormItems? items).map (.sequence · closed)
  | .table entries closed =>
    if isMarked entries then marked? entries
    else (freeFormEntries? entries).map (.table · closed)
  | document => some document

def freeFormItems? : List Document → Option (List Document)
  | [] => some []
  | item :: items => do return (← freeForm? item) :: (← freeFormItems? items)

def freeFormEntries? :
    List (Option String × Document) → Option (List (Option String × Document))
  | [] => some []
  | (key, value) :: entries => do return (key, ← freeForm? value) :: (← freeFormEntries? entries)

end

end PriceQuote.Toml
