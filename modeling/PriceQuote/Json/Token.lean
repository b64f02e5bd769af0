import PriceQuote.Binary64.Decimal
import PriceQuote.Document.Basic
import PriceQuote.Text.Numeral

/-!
# The tokens of JSON text

`tokens` splits a text into tokens, up to its end or to the first place where no token begins.
Strings may hold any character but quotes, backslashes and control characters; an escape of the
form `\uXXXX` names a code unit of UTF-16, so two of them may name one character and one of them may
name half of one. Numbers have no leading zeros. A whole number that fits neither 64 bits with nor
without sign counts as a float, as does `-0`. A float is read as the nearest one there is; of two
equally near ones the even one is meant, or the one further from zero where more digits than
`digitLimit` precede the point.
-/

namespace PriceQuote.Json

/-- A token of JSON text. -/
inductive Token where
  | openArray
  | closeArray
  | openObject
  | closeObject
  | comma
  | colon
  | null
  | bool (value : Bool)
  | number (value : Numeric)
  /-- A string; `none` where an escape names half of a character. -/
  | text (value : Option String)

/-- The white space of JSON. -/
def isSpace (c : Char) : Bool :=
  c == ' ' || c == '\t' || c == '\n' || c == '\r'

/-! ## Strings -/

/-- What a string is made of. -/
inductive Piece where
  | char (c : Char)
  /-- A code unit of UTF-16. -/
  | unit (value : Nat)

/-- The character that a one-letter escape stands for. -/
def unescape? : Char → Option Char
  | '"' => some '"'
  | '\\' => some '\\'
  | '/' => some '/'
  | 'b' => some '\x08'
  | 'f' => some '\x0c'
  | 'n' => some '\n'
  | 'r' => some '\r'
  | 't' => some '\t'
  | _ => none

/-- The pieces of a string up to its closing quote, put in front of those already read in reverse
order, and the text behind it. -/
def stringPieces (read : List Piece) : List Char → Option (List Piece × List Char)
  | [] => none
  | '"' :: rest => some (read.reverse, rest)
  | '\\' :: 'u' :: a :: b :: c :: d :: rest =>
    match Text.hex? [a, b, c, d] with
    | some value => stringPieces (.unit value :: read) rest
    | none => none
  | '\\' :: c :: rest =>
    match unescape? c with
    | some c => stringPieces (.char c :: read) rest
    | none => none
  | c :: rest => if c < ' ' then none else stringPieces (.char c :: read) rest

/-- A code unit is the first half of a character beyond 16 bits. -/
def isHighSurrogate (n : Nat) : Bool := 0xd800 ≤ n && n < 0xdc00

/-- A code unit is the second half of a character beyond 16 bits. -/
def isLowSurrogate (n : Nat) : Bool := 0xdc00 ≤ n && n < 0xe000

/-- The text of a string's pieces, if its code units pair up; `read` holds what stands in front, in
reverse order. -/
def assemble (read : List Char) : List Piece → Option String
  | [] => some (String.ofList read.reverse)
  | .char c :: pieces => assemble (c :: read) pieces
  | .unit high :: .unit low :: pieces =>
    if isHighSurrogate high then
      if isLowSurrogate low then
        assemble (Char.ofNat (0x10000 + (high - 0xd800) * 0x400 + (low - 0xdc00)) :: read) pieces
      else none
    else if isLowSurrogate high then none
    else assemble (Char.ofNat high :: read) (.unit low :: pieces)
  | .unit value :: pieces =>
    if isHighSurrogate value || isLowSurrogate value then none
    else assemble (Char.ofNat value :: read) pieces

/-! ## Numbers -/

/-- A whole number as data hold it: within 64 bits, and not a zero with a minus sign. -/
def wholeNumber (negative : Bool) (n : Nat) : Numeric :=
  if negative then
    if n ≠ 0 ∧ n ≤ UInt64.size / 2 then .integer (-(n : Int)) else floatNumber true ⟨n, 0⟩
  else if n < UInt64.size then .integer n else floatNumber false ⟨n, 0⟩
where
  floatNumber (negative : Bool) (d : Decimal) : Numeric :=
    match Binary64.ofDecimal negative d with
    | .infinity _ => .outOfRange
    | x => .float x

/-- A fraction behind its point: its digits, at least one, and the text behind them. -/
def fraction? (cs : List Char) : Option (List Char × List Char) :=
  match cs with
  | '.' :: rest =>
    if (rest.takeWhile Char.isDigit).isEmpty then none
    else some (rest.takeWhile Char.isDigit, rest.dropWhile Char.isDigit)
  | rest => some ([], rest)

/-- An exponent, if there is one, and the text behind it. -/
def exponentPart? (cs : List Char) : Option (Option Int × List Char) :=
  match cs with
  | c :: rest =>
    if c == 'e' || c == 'E' then
      let (negative, digits) := match rest with
        | '-' :: more => (true, more)
        | '+' :: more => (false, more)
        | more => (false, more)
      (Text.digits? (digits.takeWhile Char.isDigit)).map fun n =>
        (some (if negative then -(n : Int) else n), digits.dropWhile Char.isDigit)
    else some (none, cs)
  | [] => some (none, [])

/-- How many digits are enough to tell a half between two floats from what lies above it. -/
def digitLimit : Nat := 768

/-- The numeral that digits before and behind a point and an exponent make. Where the digits before
the point are more than `digitLimit`, zeros among them are not told from other digits beyond it:
the numeral then counts as a little greater, which decides nothing but halves. -/
def numeral (whole fraction : List Char) (exponent : Int) : Decimal :=
  let digits := Text.digitsFrom 0 (whole ++ fraction)
  let place := exponent - fraction.length
  if digitLimit < whole.length then ⟨digits * 10 + 1, place - 1⟩ else ⟨digits, place⟩

/-- A number without its sign, and the text behind it. -/
def numberBody? (negative : Bool) (cs : List Char) : Option (Numeric × List Char) := do
  let whole := cs.takeWhile Char.isDigit
  guard (!whole.isEmpty && (whole.head? != some '0' || whole.length == 1))
  let (fraction, rest) ← fraction? (cs.dropWhile Char.isDigit)
  let (exponent, rest) ← exponentPart? rest
  if fraction.isEmpty && exponent.isNone then
    some (wholeNumber negative (Text.digitsFrom 0 whole), rest)
  else some (wholeNumber.floatNumber negative (numeral whole fraction (exponent.getD 0)), rest)

/-! ## Tokens -/

def token? : List Char → Option (Token × List Char)
  | '[' :: rest => some (.openArray, rest)
  | ']' :: rest => some (.closeArray, rest)
  | '{' :: rest => some (.openObject, rest)
  | '}' :: rest => some (.closeObject, rest)
  | ',' :: rest => some (.comma, rest)
  | ':' :: rest => some (.colon, rest)
  | 'n' :: 'u' :: 'l' :: 'l' :: rest => some (.null, rest)
  | 't' :: 'r' :: 'u' :: 'e' :: rest => some (.bool true, rest)
  | 'f' :: 'a' :: 'l' :: 's' :: 'e' :: rest => some (.bool false, rest)
  | '"' :: rest =>
    (stringPieces [] rest).map fun (pieces, rest) => (.text (assemble [] pieces), rest)
  | '-' :: rest => (numberBody? true rest).map fun (number, rest) => (.number number, rest)
  | cs => (numberBody? false cs).map fun (number, rest) => (.number number, rest)

/-- Collects tokens, as many as `fuel` at most, onto those already read in reverse order. Beside
them stands whether the text came to its end. -/
def tokensFrom : Nat → List Token → List Char → List Token × Bool
  | 0, read, _ => (read.reverse, false)
  | fuel + 1, read, cs =>
    match cs.dropWhile isSpace with
    | [] => (read.reverse, true)
    | rest =>
      match token? rest with
      | some (token, rest) => tokensFrom fuel (token :: read) rest
      | none => (read.reverse, false)

/-- The tokens of a text, and whether they reach its end. Each token takes a character at least. -/
def tokens (s : String) : List Token × Bool :=
  tokensFrom (s.length + 1) [] s.toList

end PriceQuote.Json
