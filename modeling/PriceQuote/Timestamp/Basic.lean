/-!
# Points in time

A timestamp is a day of the Gregorian calendar, taken backwards too, and a time of day in UTC. The
second before a minute's end may be a leap second, whose nanoseconds count from 10⁹ on.
-/

namespace PriceQuote

/-- A day of the calendar. -/
structure Day where
  /-- The year, with a year zero. -/
  year : Int
  month : Nat
  day : Nat
  deriving DecidableEq

namespace Day

/-- A year has a 29th of February. -/
def isLeap (year : Int) : Bool :=
  year % 4 == 0 && (year % 100 != 0 || year % 400 == 0)

def daysIn (year : Int) (month : Nat) : Nat :=
  if month == 2 then (if isLeap year then 29 else 28)
  else if month == 4 || month == 6 || month == 9 || month == 11 then 30
  else 31

/-- The years that timestamps are kept for. -/
def inRange (year : Int) : Bool :=
  -262143 ≤ year && year ≤ 262142

/-- The day with the given numbers, if there is one. -/
def ofNumbers? (year : Int) (month day : Nat) : Option Day :=
  if inRange year && 1 ≤ month && month ≤ 12 && 1 ≤ day && day ≤ daysIn year month then
    some ⟨year, month, day⟩
  else none

/-- The day after, if timestamps are kept for it. -/
def next? (d : Day) : Option Day :=
  if d.day < daysIn d.year d.month then some ⟨d.year, d.month, d.day + 1⟩
  else if d.month < 12 then some ⟨d.year, d.month + 1, 1⟩
  else if inRange (d.year + 1) then some ⟨d.year + 1, 1, 1⟩
  else none

/-- The day before, if timestamps are kept for it. -/
def previous? (d : Day) : Option Day :=
  if 1 < d.day then some ⟨d.year, d.month, d.day - 1⟩
  else if 1 < d.month then some ⟨d.year, d.month - 1, daysIn d.year (d.month - 1)⟩
  else if inRange (d.year - 1) then some ⟨d.year - 1, 12, 31⟩
  else none

end Day

def nanosPerSecond : Nat := 1000000000

/-- A point in time, in UTC. -/
structure Timestamp where
  date : Day
  second : Nat
  /-- The nanosecond, from 10⁹ on within a leap second. -/
  nanosecond : Nat
  deriving DecidableEq

/-- The point in time that clocks show as the given one in a place that is `offset` seconds ahead
of UTC, less than a day. -/
def Timestamp.ofLocal? (date : Day) (second nanosecond : Nat) (offset : Int) :
    Option Timestamp := do
  let shifted : Int := second - offset
  if shifted < 0 then return ⟨← date.previous?, (shifted + 86400).toNat, nanosecond⟩
  else if 86400 ≤ shifted then return ⟨← date.next?, (shifted - 86400).toNat, nanosecond⟩
  else return ⟨date, shifted.toNat, nanosecond⟩

end PriceQuote
