/-!
# Calendar Dates

Dates of the Gregorian calendar, extended in both directions to the years a
time stamp may carry. A date is three numbers with the proof that they name a
day, so a date that was read is a date that can be written.

Times with an offset are brought to universal time by moving the date by at
most one day, so the calendar needs only the day before and the day after,
not a count of days from an epoch.

## Main definitions

* `Date`: a day of the calendar.
* `Date.make?`: the day three numbers name, if they name one.
* `Date.next?`, `Date.previous?`: the neighbouring days, as long as the
  calendar goes.

## Theorems

* `Date.make?_fields`: a date is made from its own numbers.
-/

namespace ActionChain

namespace Date

/-- The first year of the calendar. -/
def firstYear : Int := -262143

/-- The last year of the calendar. -/
def lastYear : Int := 262142

/-- Whether February has 29 days. -/
def isLeap (year : Int) : Bool := year % 4 = 0 && (year % 100 != 0 || year % 400 = 0)

/-- How many days a month has; a number that names no month has none. -/
def monthLength (year : Int) (month : Nat) : Nat :=
  match month with
  | 1 | 3 | 5 | 7 | 8 | 10 | 12 => 31
  | 4 | 6 | 9 | 11 => 30
  | 2 => if isLeap year then 29 else 28
  | _ => 0

/-- Whether three numbers name a day of the calendar. -/
def Valid (year : Int) (month day : Nat) : Prop :=
  firstYear ≤ year ∧ year ≤ lastYear ∧ 1 ≤ day ∧ day ≤ monthLength year month

instance (year : Int) (month day : Nat) : Decidable (Valid year month day) :=
  inferInstanceAs (Decidable (_ ∧ _))

end Date

/-- A day of the calendar. -/
structure Date where
  year : Int
  month : Nat
  day : Nat
  valid : Date.Valid year month day
  deriving DecidableEq

namespace Date

/-- The day that three numbers name. -/
def make? (year : Int) (month day : Nat) : Option Date :=
  if h : Valid year month day then some ⟨year, month, day, h⟩ else none

@[simp] theorem make?_fields (d : Date) : make? d.year d.month d.day = some d := by
  simp [make?, d.valid]

/-- The day after. -/
def next? (d : Date) : Option Date :=
  if d.day < monthLength d.year d.month then make? d.year d.month (d.day + 1)
  else if d.month < 12 then make? d.year (d.month + 1) 1
  else make? (d.year + 1) 1 1

/-- The day before. -/
def previous? (d : Date) : Option Date :=
  if 1 < d.day then make? d.year d.month (d.day - 1)
  else if 1 < d.month then make? d.year (d.month - 1) (monthLength d.year (d.month - 1))
  else make? (d.year - 1) 12 31

end Date

end ActionChain
