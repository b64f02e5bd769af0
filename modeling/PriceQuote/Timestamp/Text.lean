import PriceQuote.Text.Blank
import PriceQuote.Text.Numeral
import PriceQuote.Timestamp.Basic

/-!
# Timestamps as text

A timestamp is written as in `2024-05-06T07:08:09.123Z`, with as many decimals as it needs in groups
of three. Reading is more lenient:

* numbers need not have two digits, and white space may stand before them and before what divides
  them;
* the year may have a sign, and then more than four digits;
* date and time are divided by a blank or a `t` of either case;
* the offset is `Z`, `UTC` or hours and minutes, with or without a colon or blanks between them.
-/

namespace PriceQuote.Timestamp

open Text (isBlank digits?)

/-! ## Reading -/

/-- The value of a run of digits, at least one and `most` of them at most, and the text behind it.
Leading white space is passed over. -/
def takeNumber (most : Nat) (cs : List Char) : Option (Nat × List Char) :=
  let cs := cs.dropWhile isBlank
  let digits := (cs.take most).takeWhile Char.isDigit
  (digits? digits).map fun n => (n, cs.drop digits.length)

/-- The text behind a certain character. Leading white space is passed over. -/
def takeMark (mark : Char) (cs : List Char) : Option (List Char) :=
  match cs.dropWhile isBlank with
  | c :: rest => if c = mark then some rest else none
  | [] => none

/-- A year: with a sign of any length, else of four digits at most. -/
def takeYear (cs : List Char) : Option (Int × List Char) :=
  match cs.dropWhile isBlank with
  | '-' :: rest =>
    if (rest.head?.any Char.isDigit) then
      (takeNumber rest.length rest).map fun (n, rest) => (-(n : Int), rest)
    else none
  | '+' :: rest =>
    if (rest.head?.any Char.isDigit) then
      (takeNumber rest.length rest).map fun (n, rest) => ((n : Int), rest)
    else none
  | rest => (takeNumber 4 rest).map fun (n, rest) => ((n : Int), rest)

/-- The nanoseconds behind a decimal point; digits after the ninth are passed over. -/
def takeFraction (cs : List Char) : Option (Nat × List Char) :=
  match cs with
  | '.' :: rest =>
    let digits := rest.takeWhile Char.isDigit
    if digits.isEmpty then none
    else
      some (Text.digitsFrom 0 ((digits.take 9).rightpad 9 '0'), rest.dropWhile Char.isDigit)
  | rest => some (0, rest)

def takeTwoDigits : List Char → Option (Nat × List Char)
  | a :: b :: rest => (digits? [a, b]).map fun n => (n, rest)
  | _ => none

/-- An offset from UTC in seconds, and the text behind it. -/
def takeOffset (cs : List Char) : Option (Int × List Char) :=
  match cs with
  | 'Z' :: rest => some (0, rest)
  | 'z' :: rest => some (0, rest)
  | sign :: rest =>
    if sign == '+' || sign == '-' || sign == '\u2212' then do
      let (hours, rest) ← takeTwoDigits rest
      let (minutes, rest) ← takeTwoDigits (rest.dropWhile fun c => c == ':' || isBlank c)
      guard (minutes < 60)
      let seconds : Int := hours * 3600 + minutes * 60
      some (if sign == '+' then seconds else -seconds, rest)
    else if (sign :: rest.take 2).map Char.toLower = ['u', 't', 'c'] then some (0, rest.drop 2)
    else none
  | [] => none

/-- The point in time that a text names. -/
def ofText? (s : String) : Option Timestamp := do
  let (year, cs) ← takeYear s.toList
  let (month, cs) ← takeNumber 2 (← takeMark '-' cs)
  let (day, cs) ← takeNumber 2 (← takeMark '-' cs)
  let cs ← match cs with
    | c :: rest => if c == 't' || c == 'T' || c == ' ' then some rest else none
    | [] => none
  let (hour, cs) ← takeNumber 2 cs
  let (minute, cs) ← takeNumber 2 (← takeMark ':' cs)
  let (second, cs) ← takeNumber 2 (← takeMark ':' cs)
  let (fraction, cs) ← takeFraction cs
  let (offset, cs) ← takeOffset (cs.dropWhile isBlank)
  guard (cs.all isBlank && hour < 24 && minute < 60 && second ≤ 60 && offset.natAbs < 86400)
  let date ← Day.ofNumbers? year month day
  ofLocal? date (hour * 3600 + minute * 60 + min second 59)
    (if second = 60 then fraction + nanosPerSecond else fraction) offset

/-! ## Writing -/

/-- The digits of a number, filled up with zeros in front. -/
def padded (width n : Nat) : String :=
  let digits := Nat.toDigits 10 n
  String.ofList (List.replicate (width - digits.length) '0' ++ digits)

/-- A year: four digits, or a sign and four digits at least. -/
def yearText (year : Int) : String :=
  if 0 ≤ year ∧ year ≤ 9999 then padded 4 year.natAbs
  else (if year < 0 then "-" else "+") ++ padded 4 year.natAbs

/-- Decimals of a second, in groups of three as far as they are needed. -/
def fractionText (nanosecond : Nat) : String :=
  if nanosecond = 0 then ""
  else if nanosecond % 1000000 = 0 then "." ++ padded 3 (nanosecond / 1000000)
  else if nanosecond % 1000 = 0 then "." ++ padded 6 (nanosecond / 1000)
  else "." ++ padded 9 nanosecond

def toText (t : Timestamp) : String :=
  let leap := t.nanosecond / nanosPerSecond
  yearText t.date.year ++ "-" ++ padded 2 t.date.month ++ "-" ++ padded 2 t.date.day ++ "T" ++
    padded 2 (t.second / 3600) ++ ":" ++ padded 2 (t.second / 60 % 60) ++ ":" ++
    padded 2 (t.second % 60 + leap) ++ fractionText (t.nanosecond % nanosPerSecond) ++ "Z"

end PriceQuote.Timestamp
