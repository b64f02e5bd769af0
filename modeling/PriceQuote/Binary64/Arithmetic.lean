import PriceQuote.Binary64.Rounding

/-!
# Binary64 arithmetic

Each operation is the exact one, rounded once to the nearest number. What has no value is
not-a-number: `∞ - ∞`, `0 × ∞`, `0 / 0`, `∞ / ∞`. An exact sum of nothing is the zero without a
minus sign, unless both terms have one.
-/

namespace PriceQuote.Binary64

/-- The sum, rounded. -/
def add : Binary64 → Binary64 → Binary64
  | .nan, _ => .nan
  | _, .nan => .nan
  | .infinity s, .infinity t => if s = t then .infinity s else .nan
  | .infinity s, _ => .infinity s
  | _, .infinity t => .infinity t
  | .finite s a, .finite t b =>
    let sum := signed s a.units + signed t b.units
    if sum = 0 then .finite (s && t) .zero else ofUnits sum

def sub (x y : Binary64) : Binary64 :=
  x.add y.neg

def mul : Binary64 → Binary64 → Binary64
  | .nan, _ => .nan
  | _, .nan => .nan
  | .infinity s, .infinity t => .infinity (s != t)
  | .infinity s, .finite t b => if b.units = 0 then .nan else .infinity (s != t)
  | .finite s a, .infinity t => if a.units = 0 then .nan else .infinity (s != t)
  | .finite s a, .finite t b => ofRatio (s != t) (a.units * b.units) unitsPerOne

def div : Binary64 → Binary64 → Binary64
  | .nan, _ => .nan
  | _, .nan => .nan
  | .infinity _, .infinity _ => .nan
  | .infinity s, .finite t _ => .infinity (s != t)
  | .finite s _, .infinity t => .finite (s != t) .zero
  | .finite s a, .finite t b =>
    if b.units = 0 then (if a.units = 0 then .nan else .infinity (s != t))
    else ofRatio (s != t) (a.units * unitsPerOne) b.units

instance : Add Binary64 := ⟨add⟩
instance : Sub Binary64 := ⟨sub⟩
instance : Mul Binary64 := ⟨mul⟩
instance : Div Binary64 := ⟨div⟩

/-- The nearest whole number; a half goes away from zero. -/
def roundHalfAway : Binary64 → Binary64
  | .finite negative m =>
    ofRatio negative ((m.units + unitsPerOne / 2) / unitsPerOne * unitsPerOne) 1
  | x => x

/-- The sum of a list, taken from the left and beginning at zero. -/
def sum (xs : List Binary64) : Binary64 :=
  xs.foldl (· + ·) zero

end PriceQuote.Binary64
