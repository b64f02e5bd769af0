/-!
# Blanks, comments and line ends of TOML

* `skipSpace`: blanks and tabs;
* `skipLines`: what may stand between the values of an array: line ends and comments too;
* `lineEnd?`: what may stand behind a statement.
-/

namespace PriceQuote.Toml

/-- A blank or a tab. -/
def isSpace (c : Char) : Bool :=
  c == ' ' || c == '\t'

/-- A character that is no control character, or a tab. Such characters may stand in comments and,
unescaped, in strings, where some of them still mean something. -/
def isPlainChar (c : Char) : Bool :=
  c == '\t' || (' ' ≤ c && c != '\x7f')

def skipSpace (cs : List Char) : List Char :=
  cs.dropWhile isSpace

/-- The text behind a line end. -/
def newline? : List Char → Option (List Char)
  | '\n' :: rest => some rest
  | '\r' :: '\n' :: rest => some rest
  | _ => none

/-- The text behind blanks, tabs, line ends and comments. -/
def skipLines (inComment : Bool) : List Char → List Char
  | '\n' :: rest => skipLines false rest
  | '\r' :: '\n' :: rest => skipLines false rest
  | '#' :: rest => skipLines true rest
  | c :: rest =>
    if inComment then (if isPlainChar c then skipLines true rest else c :: rest)
    else if isSpace c then skipLines false rest
    else c :: rest
  | [] => []

/-- The text behind the end of a line, which may hold blanks and a comment. -/
def lineEnd? (cs : List Char) : Option (List Char) :=
  let rest := match skipSpace cs with
    | '#' :: comment => comment.dropWhile isPlainChar
    | rest => rest
  match rest with
  | [] => some []
  | rest => newline? rest

end PriceQuote.Toml
