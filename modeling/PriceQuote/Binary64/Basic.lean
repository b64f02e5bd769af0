/-!
# Binary64 numbers

A finite number is a sign and a magnitude, and a magnitude is a whole number of *units* of 2⁻¹⁰⁷⁴,
the least positive number there is. So every operation can be carried out exactly on natural
numbers and rounded once:

* `Representable`: at most 53 significant bits, and below 2¹⁰²⁴;
* `Magnitude`, `Binary64`: the numbers, with both zeros, both infinities and one not-a-number;
* `rank`: the place of a number on the line, on which comparison rests.
-/

namespace PriceQuote

/-- The least power of two too large for the format: 2¹⁰²⁴, in units. -/
def unitsBound : Nat := Nat.pow 2 2098

theorem unitsBound_pos : 0 < unitsBound := by
  have hpow : ∀ n, 0 < Nat.pow 2 n := Nat.two_pow_pos
  unfold unitsBound
  exact hpow 2098

/-- A count of units has at most 53 significant bits and is less than 2¹⁰²⁴. -/
def Representable (units : Nat) : Prop :=
  Nat.pow 2 (units.log2 - 52) ∣ units ∧ units < unitsBound

instance (units : Nat) : Decidable (Representable units) :=
  inferInstanceAs (Decidable (_ ∧ _))

/-- The size of a finite number, in units of 2⁻¹⁰⁷⁴. -/
structure Magnitude where
  units : Nat
  representable : Representable units
  deriving DecidableEq

/-- A number of IEEE 754's format binary64. -/
inductive Binary64 where
  | nan
  | infinity (negative : Bool)
  /-- A sign and a size; zero has either sign. -/
  | finite (negative : Bool) (magnitude : Magnitude)
  deriving DecidableEq

/-- How many units make one. -/
def unitsPerOne : Nat := Nat.pow 2 1074

namespace Magnitude

def zero : Magnitude := ⟨0, Nat.dvd_zero _, unitsBound_pos⟩

end Magnitude

namespace Binary64

def zero : Binary64 := .finite false .zero

instance : Inhabited Binary64 := ⟨zero⟩

def isFinite : Binary64 → Bool
  | .finite .. => true
  | _ => false

def neg : Binary64 → Binary64
  | .nan => .nan
  | .infinity negative => .infinity !negative
  | .finite negative magnitude => .finite (!negative) magnitude

instance : Neg Binary64 := ⟨neg⟩

/-- A sign put before a natural number. -/
def signed (negative : Bool) (n : Nat) : Int :=
  if negative then -(n : Int) else n

/-- Where a number stands: its value in units, an infinity being one step past every finite
number. Both zeros stand at the same place. -/
def rank : Binary64 → Option Int
  | .nan => none
  | .infinity negative => some (signed negative unitsBound)
  | .finite negative magnitude => some (signed negative magnitude.units)

/-- Less than; false as soon as one side is not a number. -/
def lt (x y : Binary64) : Bool :=
  match x.rank, y.rank with
  | some a, some b => a < b
  | _, _ => false

/-- At most; false as soon as one side is not a number. -/
def le (x y : Binary64) : Bool :=
  match x.rank, y.rank with
  | some a, some b => a ≤ b
  | _, _ => false

/-- Equal in value; not-a-number equals nothing, and the two zeros are equal. -/
def same (x y : Binary64) : Bool :=
  match x.rank, y.rank with
  | some a, some b => a == b
  | _, _ => false

/-- The greater of a number and zero; zero for not-a-number. -/
def atLeastZero (x : Binary64) : Binary64 :=
  if zero.lt x then x else zero

/-- Zero stands at zero. -/
@[simp] theorem rank_zero : zero.rank = some 0 := rfl

theorem rank_finite (negative : Bool) (m : Magnitude) :
    (finite negative m).rank = some (signed negative m.units) := rfl

end Binary64

end PriceQuote
