import PriceQuote.Binary64.Decimal
import PriceQuote.Document.Basic
import PriceQuote.Text.Numeral
import PriceQuote.Timestamp.Basic
import PriceQuote.Timestamp.Text

/-!
# Numbers and dates of TOML

Whole numbers have 64 bits. Digits may be divided by single underscores. A date, a time of day or
both is kept as its text in one certain form, under a key of its own.
-/

namespace PriceQuote.Toml

/-- A run of digits, single underscores between them being dropped, and the text behind it; `read`
holds the digits before, in reverse order. -/
def digitRun (isDigit : Char → Bool) (read : List Char) : List Char → List Char × List Char
  | '_' :: c :: rest =>
    if isDigit c && !read.isEmpty then digitRun isDigit (c :: read) rest
    else (read.reverse, '_' :: c :: rest)
  | c :: rest => if isDigit c then digitRun isDigit (c :: read) rest else (read.reverse, c :: rest)
  | [] => (read.reverse, [])

/-- A run of at least one decimal digit. -/
def decimalRun? (cs : List Char) : Option (List Char × List Char) :=
  match digitRun Char.isDigit [] cs with
  | ([], _) => none
  | run => some run

/-- A whole decimal number without sign and leading zeros. -/
def whole? : List Char → Option (List Char × List Char)
  | '0' :: rest => some (['0'], rest)
  | cs => decimalRun? cs

/-- A sign, if there is one: whether it is a minus, and the text behind it. -/
def sign : List Char → Bool × List Char
  | '-' :: rest => (true, rest)
  | '+' :: rest => (false, rest)
  | cs => (false, cs)

/-! ## Numbers -/

/-- A whole number within 64 bits. -/
def integer? (n : Int) : Option Numeric :=
  if Int64.minValue.toInt ≤ n ∧ n ≤ Int64.maxValue.toInt then some (.integer n) else none

def valueOf (base : Nat) (digits : List Char) : Nat :=
  digits.foldl (fun value c => value * base + (Text.hexDigit? c).getD 0) 0

/-- A whole number behind the mark of its base. -/
def based? (base : Nat) (cs : List Char) : Option (Numeric × List Char) :=
  match digitRun (fun c => (Text.hexDigit? c).any (· < base)) [] cs with
  | ([], _) => none
  | (digits, rest) => (integer? (valueOf base digits)).map (·, rest)

/-- An exponent, if there is one, and the text behind it. -/
def exponent? : List Char → Option (Option Int × List Char)
  | c :: rest =>
    if c == 'e' || c == 'E' then do
      let (negative, digits) := sign rest
      let (digits, rest) ← decimalRun? digits
      let n := Text.digitsFrom 0 digits
      some (some (if negative then -(n : Int) else n), rest)
    else some (none, c :: rest)
  | [] => some (none, [])

/-- A fraction, if there is one, and the text behind it. -/
def fraction? : List Char → Option (Option (List Char) × List Char)
  | '.' :: rest => (decimalRun? rest).map fun (digits, rest) => (some digits, rest)
  | rest => some (none, rest)

/-- A float. It may be too large only below zero. -/
def float? (negative : Bool) (d : Decimal) : Option Numeric :=
  match Binary64.ofDecimal negative d with
  | .infinity false => none
  | x => some (.float x)

def number? (cs : List Char) : Option (Numeric × List Char) :=
  match cs with
  | '0' :: 'x' :: rest => based? 16 rest
  | '0' :: 'o' :: rest => based? 8 rest
  | '0' :: 'b' :: rest => based? 2 rest
  | cs =>
    let (negative, body) := sign cs
    match body with
    | 'i' :: 'n' :: 'f' :: rest => some (.float (.infinity negative), rest)
    | 'n' :: 'a' :: 'n' :: rest => some (.float .nan, rest)
    | body => do
      let (digits, rest) ← whole? body
      let (fraction, rest) ← fraction? rest
      let (exponent, rest) ← exponent? rest
      if fraction.isNone && exponent.isNone then
        let n := Text.digitsFrom 0 digits
        let value ← integer? (if negative then -(n : Int) else n)
        some (value, rest)
      else
        let decimals := fraction.getD []
        let value ← float? negative
          ⟨Text.digitsFrom 0 (digits ++ decimals), exponent.getD 0 - decimals.length⟩
        some (value, rest)

/-! ## Dates and times -/

/-- Exactly so many digits, and the text behind them. -/
def fixedDigits? (count : Nat) (cs : List Char) : Option (Nat × List Char) :=
  if (cs.take count).length = count then
    (Text.digits? (cs.take count)).map fun n => (n, cs.drop count)
  else none

def twoDigits? (greatest : Nat) (cs : List Char) : Option (Nat × List Char) := do
  let (n, rest) ← fixedDigits? 2 cs
  if n ≤ greatest then some (n, rest) else none

/-- The text behind a certain character. -/
def mark? (mark : Char) : List Char → Option (List Char)
  | c :: rest => if c = mark then some rest else none
  | [] => none

def date? (cs : List Char) : Option (String × List Char) := do
  let (year, rest) ← fixedDigits? 4 cs
  let (month, rest) ← fixedDigits? 2 (← mark? '-' rest)
  let (day, rest) ← fixedDigits? 2 (← mark? '-' rest)
  let date ← Day.ofNumbers? year month day
  some (Timestamp.padded 4 year ++ "-" ++ Timestamp.padded 2 date.month ++ "-" ++
    Timestamp.padded 2 date.day, rest)

/-- The decimals of a second in their one form: nine at most, without zeros at the end. -/
def decimals? : List Char → Option (String × List Char)
  | '.' :: rest =>
    let digits := rest.takeWhile Char.isDigit
    if digits.isEmpty then none
    else
      let kept := ((digits.take 9).reverse.dropWhile (· == '0')).reverse
      some (if kept.isEmpty then "" else "." ++ String.ofList kept, rest.dropWhile Char.isDigit)
  | rest => some ("", rest)

def time? (cs : List Char) : Option (String × List Char) := do
  let (hour, rest) ← twoDigits? 23 cs
  let (minute, rest) ← twoDigits? 59 (← mark? ':' rest)
  let (second, rest) ← twoDigits? 60 (← mark? ':' rest)
  let (decimals, rest) ← decimals? rest
  some (Timestamp.padded 2 hour ++ ":" ++ Timestamp.padded 2 minute ++ ":" ++
    Timestamp.padded 2 second ++ decimals, rest)

/-- An offset from UTC in its one form, if there is one, and the text behind it. -/
def offset? (cs : List Char) : Option (String × List Char) :=
  match cs with
  | c :: rest =>
    if c == 'Z' || c == 'z' then some ("Z", rest)
    else if c == '+' || c == '-' then do
      let (hour, rest) ← twoDigits? 23 rest
      let (minute, rest) ← twoDigits? 59 (← mark? ':' rest)
      let sign := if c == '-' && (hour != 0 || minute != 0) then "-" else "+"
      some (sign ++ Timestamp.padded 2 hour ++ ":" ++ Timestamp.padded 2 minute, rest)
    else some ("", cs)
  | [] => some ("", [])

def dateTime? (cs : List Char) : Option (String × List Char) :=
  match date? cs with
  | some (date, rest) =>
    match rest with
    | c :: more =>
      if c == 'T' || c == 't' || c == ' ' then
        match time? more with
        | some (time, rest) => (offset? rest).map fun (offset, rest) =>
            (date ++ "T" ++ time ++ offset, rest)
        | none => some (date, rest)
      else some (date, rest)
    | [] => some (date, [])
  | none => time? cs

/-- The key under which the text of a date or time stands. -/
def dateTimeKey : String := "$__toml_private_datetime"

def numberOrDate? (cs : List Char) : Option (Document × List Char) :=
  match dateTime? cs with
  | some (text, rest) => some (.ofEntries [(dateTimeKey, .ofText text)], rest)
  | none => (number? cs).map fun (n, rest) => (.number n, rest)

end PriceQuote.Toml
