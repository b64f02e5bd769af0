import PriceQuote.Text.Numeral
import PriceQuote.Toml.Blank

/-!
# Strings and keys of TOML

A string is basic, in quotes and with escapes, or literal, in apostrophes and without; either may
run over several lines when its mark stands three times. Then a line end right behind the opening
mark is dropped, every other one is a line feed, and up to two marks may stand before the closing
ones. In a basic string over several lines a backslash at the end of a line joins it to the next
character that is no white space.

* `string?`: a string of any of the four kinds;
* `key?`: a key, bare or a string on one line;
* `keyPath?`: keys divided by points.
-/

namespace PriceQuote.Toml

/-- The character that a one-letter escape stands for. -/
def unescape? : Char → Option Char
  | 'b' => some '\x08'
  | 't' => some '\t'
  | 'n' => some '\n'
  | 'f' => some '\x0c'
  | 'r' => some '\r'
  | '"' => some '"'
  | '\\' => some '\\'
  | _ => none

/-- The character with a number given in hexadecimal digits. -/
def charOfHex? (digits : List Char) : Option Char := do
  let n ← Text.hex? digits
  if n < 0xd800 ∨ 0xdfff < n ∧ n < 0x110000 then some (Char.ofNat n) else none

/-- The rest of a basic string on one line; `read` holds what was read before, in reverse order. -/
def basicRest (read : List Char) : List Char → Option (String × List Char)
  | '"' :: rest => some (String.ofList read.reverse, rest)
  | '\\' :: 'u' :: a :: b :: c :: d :: rest =>
    match charOfHex? [a, b, c, d] with
    | some c => basicRest (c :: read) rest
    | none => none
  | '\\' :: 'U' :: a :: b :: c :: d :: e :: f :: g :: h :: rest =>
    match charOfHex? [a, b, c, d, e, f, g, h] with
    | some c => basicRest (c :: read) rest
    | none => none
  | '\\' :: c :: rest =>
    match unescape? c with
    | some c => basicRest (c :: read) rest
    | none => none
  | c :: rest => if isPlainChar c && c != '\\' then basicRest (c :: read) rest else none
  | [] => none

/-- The rest of a literal string on one line. -/
def literalRest (read : List Char) : List Char → Option (String × List Char)
  | '\'' :: rest => some (String.ofList read.reverse, rest)
  | c :: rest => if isPlainChar c then literalRest (c :: read) rest else none
  | [] => none

/-- The end of a string over several lines, behind three of its marks: up to two more of them
belong to the string. -/
def closeLines (mark : Char) (read : List Char) (rest : List Char) : String × List Char :=
  match rest with
  | a :: b :: more =>
    if a = mark then
      if b = mark then (String.ofList (mark :: mark :: read).reverse, more)
      else (String.ofList (mark :: read).reverse, b :: more)
    else (String.ofList read.reverse, rest)
  | [a] =>
    if a = mark then (String.ofList (mark :: read).reverse, [])
    else (String.ofList read.reverse, rest)
  | [] => (String.ofList read.reverse, [])

/-- A text has nothing but blanks before its next line end. -/
def endsLine (cs : List Char) : Bool :=
  (newline? (skipSpace cs)).isSome

/-- The rest of a basic string over several lines; `joining` says that white space is dropped, since
a backslash stood at the end of a line. -/
def basicLines (joining : Bool) (read : List Char) : List Char → Option (String × List Char)
  | '"' :: '"' :: '"' :: rest => some (closeLines '"' read rest)
  | '\\' :: 'u' :: a :: b :: c :: d :: rest =>
    match charOfHex? [a, b, c, d] with
    | some c => basicLines false (c :: read) rest
    | none => none
  | '\\' :: 'U' :: a :: b :: c :: d :: e :: f :: g :: h :: rest =>
    match charOfHex? [a, b, c, d, e, f, g, h] with
    | some c => basicLines false (c :: read) rest
    | none => none
  | '\\' :: c :: rest =>
    match unescape? c with
    | some c => basicLines false (c :: read) rest
    | none => if endsLine (c :: rest) then basicLines true read (c :: rest) else none
  | '\r' :: '\n' :: rest => basicLines joining (if joining then read else '\n' :: read) rest
  | '\n' :: rest => basicLines joining (if joining then read else '\n' :: read) rest
  | c :: rest =>
    if joining && isSpace c then basicLines true read rest
    else if isPlainChar c && c != '\\' then basicLines false (c :: read) rest
    else none
  | [] => none

/-- The rest of a literal string over several lines. -/
def literalLines (read : List Char) : List Char → Option (String × List Char)
  | '\'' :: '\'' :: '\'' :: rest => some (closeLines '\'' read rest)
  | '\r' :: '\n' :: rest => literalLines ('\n' :: read) rest
  | '\n' :: rest => literalLines ('\n' :: read) rest
  | c :: rest => if isPlainChar c then literalLines (c :: read) rest else none
  | [] => none

/-- The text behind a line end, if there is one at its beginning. -/
def dropNewline (cs : List Char) : List Char :=
  (newline? cs).getD cs

def string? : List Char → Option (String × List Char)
  | '"' :: '"' :: '"' :: rest => basicLines false [] (dropNewline rest)
  | '"' :: rest => basicRest [] rest
  | '\'' :: '\'' :: '\'' :: rest => literalLines [] (dropNewline rest)
  | '\'' :: rest => literalRest [] rest
  | _ => none

/-- A character that may stand in a bare key. -/
def isBareKeyChar (c : Char) : Bool :=
  c.isAlphanum || c == '-' || c == '_'

def key? : List Char → Option (String × List Char)
  | '"' :: rest => basicRest [] rest
  | '\'' :: rest => literalRest [] rest
  | cs =>
    let bare := cs.takeWhile isBareKeyChar
    if bare.isEmpty then none else some (String.ofList bare, cs.dropWhile isBareKeyChar)

/-- Keys divided by points, with blanks around them, and the text behind them. There are `most` of
them at most. -/
def keyPath? : (most : Nat) → List Char → Option (List String × List Char)
  | 0, _ => none
  | most + 1, cs => do
    let (key, rest) ← key? (skipSpace cs)
    match skipSpace rest with
    | '.' :: rest =>
      let (keys, rest) ← keyPath? most rest
      some (key :: keys, rest)
    | rest => some ([key], rest)

end PriceQuote.Toml
