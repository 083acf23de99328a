/-
Stockroom.Calendar.Date — days of the proleptic Gregorian calendar.

A date is the number of days since 1970-01-01, kept inside the representable range
-262143-01-01 to +262142-12-31. Year, month and day are computed from it by counting in
400-year cycles that begin on the first of March.
-/
import Stockroom.Text.Blank

namespace Stockroom

/-! ## Counting days -/

namespace Calendar

/-- Whether a year has a 29th of February. -/
def isLeapYear (y : Int) : Bool := y % 4 = 0 && (y % 100 ≠ 0 || y % 400 = 0)

/-- The number of days of a month. -/
def daysInMonth (y : Int) (m : Nat) : Nat :=
  if m = 2 then (if isLeapYear y then 29 else 28)
  else if m = 4 || m = 6 || m = 9 || m = 11 then 30
  else 31

/-- Days from 1970-01-01 to the given day. -/
def dayNumber (y : Int) (m d : Nat) : Int :=
  let y' := if m ≤ 2 then y - 1 else y
  let era := y' / 400
  let yearOfEra := y' - era * 400
  let monthFromMarch : Int := if m > 2 then (m : Int) - 3 else (m : Int) + 9
  let dayOfYear := (153 * monthFromMarch + 2) / 5 + (d : Int) - 1
  let dayOfEra := yearOfEra * 365 + yearOfEra / 4 - yearOfEra / 100 + dayOfYear
  era * 146097 + dayOfEra - 719468

/-- A year with a month and a day of the month. -/
structure Civil where
  year : Int
  month : Nat
  day : Nat
  deriving DecidableEq, Repr

/-- The civil day that lies `n` days after 1970-01-01. -/
def civilOf (n : Int) : Civil :=
  let z := n + 719468
  let era := z / 146097
  let dayOfEra := z - era * 146097
  let yearOfEra := (dayOfEra - dayOfEra / 1460 + dayOfEra / 36524 - dayOfEra / 146096) / 365
  let dayOfYear := dayOfEra - (365 * yearOfEra + yearOfEra / 4 - yearOfEra / 100)
  let monthFromMarch := (5 * dayOfYear + 2) / 153
  let d := (dayOfYear - (153 * monthFromMarch + 2) / 5 + 1).toNat
  let m := (if monthFromMarch < 10 then monthFromMarch + 3 else monthFromMarch - 9).toNat
  let y := yearOfEra + era * 400
  ⟨if m ≤ 2 then y + 1 else y, m, d⟩

/-- The number of -262143-01-01. -/
def firstDay : Int := -96465292

/-- The number of +262142-12-31. -/
def lastDay : Int := 95026236

theorem firstDay_eq : dayNumber (-262143) 1 1 = firstDay := by decide

theorem lastDay_eq : dayNumber 262142 12 31 = lastDay := by decide

end Calendar

/-! ## Dates -/

/-- A representable day, as the number of days since 1970-01-01. -/
@[ext] structure Date where
  number : Int
  first_le : Calendar.firstDay ≤ number
  le_last : number ≤ Calendar.lastDay
  deriving DecidableEq

namespace Date

/-- The date with the given day number, if it is representable. -/
def ofNumber? (n : Int) : Option Date :=
  if h : Calendar.firstDay ≤ n ∧ n ≤ Calendar.lastDay then some ⟨n, h.1, h.2⟩ else none

/-- The date of a year, month and day, if there is such a day and it is representable. -/
def ofCivil? (y : Int) (m d : Nat) : Option Date :=
  if 1 ≤ m && m ≤ 12 && 1 ≤ d && d ≤ Calendar.daysInMonth y m then
    ofNumber? (Calendar.dayNumber y m d)
  else none

/-- The first day of 1970. -/
def epoch : Date := ⟨0, by decide, by decide⟩

instance : Inhabited Date := ⟨epoch⟩

/-- The last representable day. -/
def last : Date := ⟨Calendar.lastDay, by decide, by decide⟩

/-- The day after, if there is one. -/
def next? (d : Date) : Option Date := ofNumber? (d.number + 1)

/-- The days from `d'` to `d`. -/
def daysSince (d d' : Date) : Int := d.number - d'.number

instance : LE Date := ⟨fun a b => a.number ≤ b.number⟩
instance : LT Date := ⟨fun a b => a.number < b.number⟩
instance (a b : Date) : Decidable (a ≤ b) := inferInstanceAs (Decidable (a.number ≤ b.number))
instance (a b : Date) : Decidable (a < b) := inferInstanceAs (Decidable (a.number < b.number))

instance : Ord Date := ⟨compareOn Date.number⟩
instance : Std.TransOrd Date := inferInstanceAs (Std.TransCmp (compareOn Date.number))
instance : Std.LawfulEqOrd Date where
  eq_of_compare h := Date.ext (Std.LawfulEqOrd.eq_of_compare (α := Int) h)

/-! ## Writing -/

/-- A year: four digits from 0 to 9999, otherwise with a sign. -/
def yearText (y : Int) : String :=
  if 0 ≤ y ∧ y ≤ 9999 then Text.padded 4 y.toNat
  else (if y < 0 then "-" else "+") ++ Text.padded 4 y.natAbs

/-- The date as year, month and day joined by hyphens. -/
def text (d : Date) : String :=
  let c := Calendar.civilOf d.number
  yearText c.year ++ "-" ++ Text.padded 2 c.month ++ "-" ++ Text.padded 2 c.day

instance : ToString Date := ⟨text⟩

end Date

end Stockroom
