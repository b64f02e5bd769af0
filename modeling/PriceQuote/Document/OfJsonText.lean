import PriceQuote.Json.Token

/-!
# Reading JSON text as a document

The tokens are taken from the left, with a stack of the arrays and objects that are still open. At
the first token that fits nowhere, and at the end of the tokens, whatever is open stays unclosed:

* `Document.value`, `Document.complete`, `Document.key`: what to do where a value is due, where one
  has just ended, and where a key is due;
* `Document.ofJsonText`: the first value of a text, and whether nothing follows it.
-/

namespace PriceQuote.Document

/-- An array or object that is still open, with what it holds in reverse order. -/
inductive Unclosed where
  | sequence (items : List Document)
  | table (entries : List (Option String × Document)) (key : Option String)

/-- The document when reading stops behind `value`, which is inside of `outer`. -/
def abandon (value : Document) (outer : List Unclosed) : Document :=
  outer.foldl (fun inner container => match container with
    | .sequence items => .sequence (inner :: items).reverse false
    | .table entries key => .table ((key, inner) :: entries).reverse false) value

open Json (Token)

mutual

/-- A value is due. -/
def value (outer : List Unclosed) : List Token → Document × List Token
  | .null :: rest => complete .null outer rest
  | .bool value :: rest => complete (.bool value) outer rest
  | .number value :: rest => complete (.number value) outer rest
  | .text value :: rest => complete (.text value) outer rest
  | .openArray :: .closeArray :: rest => complete (.sequence [] true) outer rest
  | .openArray :: rest => value (.sequence [] :: outer) rest
  | .openObject :: .closeObject :: rest => complete (.table [] true) outer rest
  | .openObject :: rest => key [] outer rest
  | rest => (abandon .fault outer, rest)

/-- A value has just ended. -/
def complete (ended : Document) (outer : List Unclosed) (tokens : List Token) :
    Document × List Token :=
  match outer with
  | [] => (ended, tokens)
  | .sequence items :: outer =>
    match tokens with
    | .comma :: rest => value (.sequence (ended :: items) :: outer) rest
    | .closeArray :: rest => complete (.sequence (ended :: items).reverse true) outer rest
    | rest => (abandon (.sequence (ended :: items).reverse false) outer, rest)
  | .table entries name :: outer =>
    match tokens with
    | .comma :: rest => key ((name, ended) :: entries) outer rest
    | .closeObject :: rest => complete (.table ((name, ended) :: entries).reverse true) outer rest
    | rest => (abandon (.table ((name, ended) :: entries).reverse false) outer, rest)

/-- A key is due in an object whose entries so far are given in reverse order. -/
def key (entries : List (Option String × Document)) (outer : List Unclosed) :
    List Token → Document × List Token
  | .text name :: .colon :: rest => value (.table entries name :: outer) rest
  | .text name :: rest => (abandon (.table ((name, .fault) :: entries).reverse false) outer, rest)
  | rest => (abandon (.table entries.reverse false) outer, rest)

end

/-- The first value of a JSON text, and whether only white space follows it. -/
def ofJsonText (s : String) : Document × Bool :=
  let (tokens, complete) := Json.tokens s
  let (document, rest) := value [] tokens
  (document, complete && rest.isEmpty)

end PriceQuote.Document
