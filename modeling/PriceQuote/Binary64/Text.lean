import PriceQuote.Binary64.Decimal

/-!
# Binary64 numbers as text

* `Binary64.toText`: the shortest numeral, positional while its leading exponent is between -5 and
  15, else with an exponent; there is always a point or an exponent. Zero has no minus sign.
* `Binary64.toHundredths`: exactly two decimal places.
-/

namespace PriceQuote

def zeros (n : Nat) : List Char :=
  List.replicate n '0'

def decimalDigits (n : Nat) : List Char :=
  Nat.toDigits 10 n

def signedText : Int → String
  | .ofNat n => "+" ++ toString n
  | .negSucc n => "-" ++ toString (n + 1)

/-- A numeral in positional notation, with a digit on either side of the point. -/
def Decimal.positional (d : Decimal) : String :=
  let digits := decimalDigits d.digits
  match d.exponent with
  | .ofNat e => String.ofList (digits ++ zeros e) ++ ".0"
  | .negSucc e =>
    let places := e + 1
    let padded := zeros (places + 1 - digits.length) ++ digits
    String.ofList (padded.take (padded.length - places)) ++ "." ++
      String.ofList (padded.drop (padded.length - places))

/-- A numeral with one digit before the point and a signed exponent. -/
def Decimal.scientific (d : Decimal) : String :=
  let digits := decimalDigits d.digits
  let exponent := signedText (d.exponent + (digits.length - 1 : Nat))
  match digits with
  | [] => "0.0"
  | [digit] => digit.toString ++ "e" ++ exponent
  | digit :: more => digit.toString ++ "." ++ String.ofList more ++ "e" ++ exponent

/-- The text of a numeral in data: positional for leading exponents from -5 to 15. -/
def Decimal.toText (d : Decimal) : String :=
  let leading := d.exponent + ((decimalDigits d.digits).length - 1 : Nat)
  if -5 ≤ leading ∧ leading ≤ 15 then d.positional else d.scientific

namespace Binary64

def toText : Binary64 → String
  | .nan => "NaN"
  | .infinity negative => if negative then "-inf" else "inf"
  | .finite negative m =>
    (if negative && m.units != 0 then "-" else "") ++ m.shortest.toText

def toHundredths : Binary64 → String
  | .nan => "NaN"
  | .infinity negative => if negative then "-inf" else "inf"
  | .finite negative m =>
    (if negative then "-" else "") ++ (Decimal.mk m.hundredths (-2)).positional

end Binary64

end PriceQuote
