/-!
# Templates

A text may name environment variables as `${NAME}`. It is taken apart from left to right into
literal text and names; what a name stands for is put in as it is and not looked at again.

* `Template.pieces`: the parts of a text;
* `Template.fill`: the text with every name replaced, or the first name that stands for nothing.
-/

namespace PriceQuote.Template

/-- A part of a template. -/
inductive Piece where
  | literal (text : String)
  | reference (name : String)
  | unterminated
  deriving DecidableEq

mutual

/-- The parts of a text, `read` being literal text before it in reverse order. -/
def literalPieces (read : List Char) : List Char → List Piece
  | [] => [.literal (String.ofList read.reverse)]
  | '$' :: '{' :: rest => .literal (String.ofList read.reverse) :: namePieces [] rest
  | c :: rest => literalPieces (c :: read) rest

/-- The parts of a text inside of a name, `read` being the name so far in reverse order. -/
def namePieces (read : List Char) : List Char → List Piece
  | [] => [.unterminated]
  | '}' :: rest => .reference (String.ofList read.reverse) :: literalPieces [] rest
  | c :: rest => namePieces (c :: read) rest

end

/-- The parts of a text. -/
def pieces (s : String) : List Piece :=
  literalPieces [] s.toList

def names (s : String) : List String :=
  (pieces s).filterMap fun piece => match piece with
    | .reference name => some name
    | _ => none

/-- Why a template cannot be filled. -/
inductive Problem where
  | unset (name : String)
  | unterminated
  deriving DecidableEq

/-- What a part stands for. -/
def Piece.value (environment : String → Option String) : Piece → Except Problem String
  | .literal text => .ok text
  | .reference name =>
    match environment name with
    | some value => .ok value
    | none => .error (.unset name)
  | .unterminated => .error .unterminated

/-- The text with every name replaced by what it stands for. -/
def fill (environment : String → Option String) (s : String) : Except Problem String := do
  return String.join (← (pieces s).mapM (·.value environment))

end PriceQuote.Template
