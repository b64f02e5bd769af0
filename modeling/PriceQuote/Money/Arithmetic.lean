import PriceQuote.Binary64.Decimal
import PriceQuote.Binary64.Arithmetic

/-!
# Arithmetic on prices

What pricing needs of its numbers. Prices are binary64 numbers; the same rules can be read over any
other numbers that offer these operations, exact ones among them.
-/

namespace PriceQuote.Money

/-- Numbers that prices can be computed with. -/
class Arithmetic (N : Type) extends Add N, Sub N, Mul N, Div N where
  ofBinary64 : Binary64 → N
  /-- The nearest whole number, a half going away from zero. -/
  roundHalfAway : N → N
  isFinite : N → Bool
  isZero : N → Bool
  atLeastZero : N → N

instance : Arithmetic Binary64 where
  ofBinary64 := id
  roundHalfAway := Binary64.roundHalfAway
  isFinite := Binary64.isFinite
  isZero x := x.same 0
  atLeastZero := Binary64.atLeastZero

variable {N : Type} [Arithmetic N]

def hundred : N := Arithmetic.ofBinary64 100

def one : N := Arithmetic.ofBinary64 1

/-- A number rounded to two decimal places, a half going away from zero. The result is never a
zero with a minus sign. -/
def roundToCents (value : N) : N :=
  let rounded := Arithmetic.roundHalfAway (value * hundred) / hundred
  if Arithmetic.isZero rounded then Arithmetic.ofBinary64 .zero else rounded

end PriceQuote.Money
