/-!
# Dates

Days of the Gregorian calendar, which holds for all years here, also those before it was made.
A year `0` comes before the year `1`.
-/

set_option autoImplicit false

namespace ScriptedActions

/-- A day. -/
structure Date where
  year : Int
  month : Nat
  day : Nat
deriving DecidableEq, Repr, Inhabited

namespace Date

/-- Whether a year has a 29th of February. -/
def isLeap (year : Int) : Bool := year % 4 == 0 && (year % 100 != 0 || year % 400 == 0)

/-- The number of days of a month. -/
def daysIn (year : Int) (month : Nat) : Nat :=
  if month = 2 then if isLeap year then 29 else 28
  else if month = 4 ∨ month = 6 ∨ month = 9 ∨ month = 11 then 30
  else 31

/-- The first year that is represented. -/
def firstYear : Int := -262143

/-- The last year that is represented. -/
def lastYear : Int := 262142

/-- The day of a year, a month and a day, if there is one. -/
def of? (year : Int) (month day : Nat) : Option Date :=
  if firstYear ≤ year ∧ year ≤ lastYear ∧ 1 ≤ month ∧ month ≤ 12 ∧
      1 ≤ day ∧ day ≤ daysIn year month then
    some ⟨year, month, day⟩
  else none

/-- The day after, if it is represented. -/
def next? (d : Date) : Option Date :=
  if d.day < daysIn d.year d.month then some ⟨d.year, d.month, d.day + 1⟩
  else if d.month < 12 then some ⟨d.year, d.month + 1, 1⟩
  else of? (d.year + 1) 1 1

/-- The day before, if it is represented. -/
def previous? (d : Date) : Option Date :=
  if 1 < d.day then some ⟨d.year, d.month, d.day - 1⟩
  else if 1 < d.month then some ⟨d.year, d.month - 1, daysIn d.year (d.month - 1)⟩
  else of? (d.year - 1) 12 31

end Date

end ScriptedActions
