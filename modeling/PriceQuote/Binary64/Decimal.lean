import PriceQuote.Binary64.Rounding

/-!
# Decimal numerals and binary64

A decimal numeral is `digits × 10^exponent`. Reading one rounds it to the nearest number; writing a
number takes the fewest digits that read back as that number, and of two such numerals the nearer:

* `Binary64.ofDecimal`: the number nearest to a numeral;
* `Magnitude.shortest`: the shortest numeral of a magnitude;
* `Magnitude.hundredths`: the nearest whole number of hundredths.
-/

namespace PriceQuote

/-- A natural number times a power of ten. -/
structure Decimal where
  digits : Nat
  exponent : Int
  deriving DecidableEq, Repr

namespace Decimal

/-- A numeral as a ratio, in units of 2⁻¹⁰⁷⁴. -/
def unitRatio (d : Decimal) : Nat × Nat :=
  match d.exponent with
  | .ofNat e => (d.digits * Nat.pow 10 e * unitsPerOne, 1)
  | .negSucc e => (d.digits * unitsPerOne, Nat.pow 10 (e + 1))

/-- The same number without trailing zeros among its digits, of which at most `places` are
dropped. -/
def dropZeros : Nat → Decimal → Decimal
  | 0, d => d
  | places + 1, d =>
    if d.digits ≠ 0 ∧ d.digits % 10 = 0 then dropZeros places ⟨d.digits / 10, d.exponent + 1⟩ else d

end Decimal

namespace Binary64

/-- The number nearest to plus or minus a numeral. A numeral that is too large or too small by its
length alone is settled before its power of ten is multiplied out: 10 lies between 2³ and 2⁴. -/
def ofDecimal (negative : Bool) (d : Decimal) : Binary64 :=
  let bits : Int := d.digits.log2
  if d.digits = 0 then .finite negative .zero
  else if 0 ≤ d.exponent ∧ 1024 ≤ bits + 3 * d.exponent then .infinity negative
  else if d.exponent < 0 ∧ bits + 3 * d.exponent < -1076 then .finite negative .zero
  else ofRatio negative d.unitRatio.1 d.unitRatio.2

instance : OfScientific Binary64 where
  ofScientific digits isNegative exponent :=
    ofDecimal false ⟨digits, if isNegative then -(exponent : Int) else exponent⟩

end Binary64

namespace Magnitude

/-- The magnitude divided by a power of ten, as a ratio. -/
def overPowerOfTen (m : Magnitude) : Int → Nat × Nat
  | .ofNat e => (m.units, unitsPerOne * Nat.pow 10 e)
  | .negSucc e => (m.units * Nat.pow 10 (e + 1), unitsPerOne)

def reaches (m : Magnitude) (exponent : Int) : Bool :=
  let (num, den) := m.overPowerOfTen exponent
  den ≤ num

/-- The exponent of the leading decimal digit. The binary length gives it up to one. -/
def leadingExponent (m : Magnitude) : Int :=
  let guess := ((m.units.log2 : Int) - 1074) * 30103 / 100000
  if m.reaches (guess + 1) then guess + 1 else if m.reaches guess then guess else guess - 1

def readsBack (m : Magnitude) (d : Decimal) : Bool :=
  nearestUnits d.unitRatio.1 d.unitRatio.2 == m.units

/-- The numeral with the given power of ten that reads back as this magnitude, if there is one: of
the two neighbours on that decimal grid the nearer, of two equally near the even one. -/
def onGrid? (m : Magnitude) (exponent : Int) : Option Decimal :=
  let (num, den) := m.overPowerOfTen exponent
  let below : Decimal := ⟨num / den, exponent⟩
  let above : Decimal := ⟨num / den + 1, exponent⟩
  match m.readsBack below, m.readsBack above with
  | true, true => some ⟨divHalfEven num den, exponent⟩
  | true, false => some below
  | false, true => some above
  | false, false => none

/-- Tries decimal grids from the coarsest one, the next being ten times finer. -/
def firstOnGrid (m : Magnitude) : Nat → Int → Decimal
  | 0, exponent =>
    ⟨divHalfEven (m.overPowerOfTen exponent).1 (m.overPowerOfTen exponent).2, exponent⟩
  | grids + 1, exponent => (m.onGrid? exponent).getD (firstOnGrid m grids (exponent - 1))

/-- The shortest numeral that reads back as this magnitude; 17 digits are always enough. -/
def shortest (m : Magnitude) : Decimal :=
  if m.units = 0 then ⟨0, 0⟩ else (m.firstOnGrid 16 m.leadingExponent).dropZeros 17

/-- The nearest whole number of hundredths; a half goes to the even neighbour. -/
def hundredths (m : Magnitude) : Nat :=
  divHalfEven (m.units * 100) unitsPerOne

end Magnitude

end PriceQuote
