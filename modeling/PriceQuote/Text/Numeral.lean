/-!
# Whole numbers as text

* `digits?`: a non-empty run of ASCII digits;
* `unsigned?`: the same with an optional plus sign in front, up to a greatest value.
-/

namespace PriceQuote.Text

/-- The value of a run of decimal digits, read onto `start`. -/
def digitsFrom (start : Nat) (cs : List Char) : Nat :=
  cs.foldl (fun value c => value * 10 + (c.toNat - 48)) start

/-- The value of a non-empty run of ASCII digits. -/
def digits? (cs : List Char) : Option Nat :=
  if cs.isEmpty || !cs.all Char.isDigit then none else some (digitsFrom 0 cs)

/-- The number that a text names when it is digits, perhaps after one plus sign, and not above
`greatest`. -/
def unsigned? (greatest : Nat) (s : String) : Option Nat :=
  let digits := match s.toList with
    | '+' :: rest => rest
    | cs => cs
  (digits? digits).filter (· ≤ greatest)

def hexDigit? (c : Char) : Option Nat :=
  if '0' ≤ c && c ≤ '9' then some (c.toNat - 48)
  else if 'a' ≤ c && c ≤ 'f' then some (c.toNat - 87)
  else if 'A' ≤ c && c ≤ 'F' then some (c.toNat - 55)
  else none

/-- The value of a run of hexadecimal digits, when all of them are. -/
def hex? (cs : List Char) : Option Nat :=
  cs.foldlM (fun value c => (hexDigit? c).map (value * 16 + ·)) 0

end PriceQuote.Text
