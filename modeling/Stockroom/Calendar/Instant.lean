/-
Stockroom.Calendar.Instant — points in time, to the nanosecond.

An instant is a second, counted from 1970-01-01T00:00:00Z, and the nanoseconds since it
began, inside the days that a date can hold. Days have 86400 seconds, but the last second
of any minute may be followed by a leap second, which is kept as its second half: it comes
after every other instant of the minute and before the next one. Arithmetic that leaves
the range has no result.
-/
import Stockroom.Calendar.Date

namespace Stockroom

namespace Calendar

/-- Seconds in a day. -/
def secondsPerDay : Int := 86400

/-- Nanoseconds in a second. -/
def nanosPerSecond : Nat := 1000000000

/-- Nanoseconds in a day. -/
def nanosPerDay : Int := 86400000000000

/-- The first second of the first day. -/
def firstSecond : Int := firstDay * secondsPerDay

/-- The last second of the last day. -/
def lastSecond : Int := (lastDay + 1) * secondsPerDay - 1

/-- Whether a second can last for more than `nanos` nanoseconds: up to twice as long as the
others at the end of a minute. -/
def Fits (second : Int) (nanos : Nat) : Prop :=
  nanos < nanosPerSecond ∨ second % 60 = 59 ∧ nanos < 2 * nanosPerSecond

instance (second : Int) (nanos : Nat) : Decidable (Fits second nanos) :=
  inferInstanceAs (Decidable (_ ∨ _))

end Calendar

/-- A representable point in time. -/
@[ext] structure Instant where
  /-- The second, counted from 1970-01-01T00:00:00Z. -/
  second : Int
  /-- The nanoseconds since the second began; from a whole second on, a leap second. -/
  nanos : Nat
  first_le : Calendar.firstSecond ≤ second
  le_last : second ≤ Calendar.lastSecond
  fits : Calendar.Fits second nanos
  deriving DecidableEq

namespace Instant

/-- The instant with the given parts, if there is one. -/
def ofParts? (second : Int) (nanos : Nat) : Option Instant :=
  if h : (Calendar.firstSecond ≤ second ∧ second ≤ Calendar.lastSecond) ∧
      Calendar.Fits second nanos then
    some ⟨second, nanos, h.1.1, h.1.2, h.2⟩
  else none

/-- The instant that lies `n` nanoseconds after the beginning of 1970, leap seconds not
counted, if it is representable. -/
def ofNanos? (n : Int) : Option Instant :=
  ofParts? (n / Calendar.nanosPerSecond) (n % Calendar.nanosPerSecond).toNat

/-- The nanoseconds since the beginning of 1970; a leap second counts as the one after it. -/
def sinceEpoch (t : Instant) : Int := t.second * Calendar.nanosPerSecond + t.nanos

/-- The first instant of 1970. -/
def epoch : Instant := ⟨0, 0, by decide, by decide, by decide⟩

instance : Inhabited Instant := ⟨epoch⟩

/-- Whether an instant lies in a leap second. -/
def isLeap (t : Instant) : Bool := decide (Calendar.nanosPerSecond ≤ t.nanos)

/-- Whether a step of `span` nanoseconds is shorter than a second and ends no later than the
second of `t` with its leap second. -/
def staysNear (t : Instant) (span : Int) : Bool :=
  decide (-(Calendar.nanosPerSecond : Int) < span) &&
    decide (t.nanos + span < 2 * (Calendar.nanosPerSecond : Int))

/-- The instant `span` nanoseconds later, if it is representable. A step forwards out of a leap
second starts in the second before it, and a step backwards in the one after it. -/
def add? (t : Instant) (span : Int) : Option Instant :=
  if t.isLeap && t.staysNear span then ofParts? t.second (t.nanos + span).toNat
  else if t.isLeap && decide (0 < span) then
    ofNanos? (t.sinceEpoch - Calendar.nanosPerSecond + span)
  else ofNanos? (t.sinceEpoch + span)

/-! ## Order -/

instance : LE Instant :=
  ⟨fun a b => a.second < b.second ∨ a.second = b.second ∧ a.nanos ≤ b.nanos⟩
instance : LT Instant :=
  ⟨fun a b => a.second < b.second ∨ a.second = b.second ∧ a.nanos < b.nanos⟩
instance (a b : Instant) : Decidable (a ≤ b) := inferInstanceAs (Decidable (_ ∨ _))
instance (a b : Instant) : Decidable (a < b) := inferInstanceAs (Decidable (_ ∨ _))

/-- The order of instants: by the second, then by the nanoseconds in it. -/
def order : Instant → Instant → Ordering :=
  compareLex (compareOn Instant.second) (compareOn Instant.nanos)

instance : Ord Instant := ⟨order⟩
instance : Std.TransOrd Instant :=
  inferInstanceAs (Std.TransCmp (compareLex (compareOn Instant.second) (compareOn Instant.nanos)))
instance : Std.LawfulEqOrd Instant where
  eq_of_compare {a b} h := by
    have h : (compare a.second b.second).then (compare a.nanos b.nanos) = .eq := h
    rw [Ordering.then_eq_eq] at h
    exact Instant.ext (Std.LawfulEqOrd.eq_of_compare h.1) (Std.LawfulEqOrd.eq_of_compare h.2)

theorem compare_eq_lt_iff {a b : Instant} : compare a b = .lt ↔ a < b := by
  show (compare a.second b.second).then (compare a.nanos b.nanos) = .lt ↔
    a.second < b.second ∨ a.second = b.second ∧ a.nanos < b.nanos
  rw [Ordering.then_eq_lt, Int.compare_eq_lt, Int.compare_eq_eq, Nat.compare_eq_lt]

/-! ## Days -/

/-- The day an instant falls on. -/
def date (t : Instant) : Date where
  number := t.second / Calendar.secondsPerDay
  first_le := by
    have := t.first_le
    simp only [Calendar.firstSecond, Calendar.secondsPerDay] at *
    omega
  le_last := by
    have := t.le_last
    simp only [Calendar.lastSecond, Calendar.secondsPerDay] at *
    omega

/-- The first instant of a day. -/
def ofDate (d : Date) : Instant where
  second := d.number * Calendar.secondsPerDay
  nanos := 0
  first_le := by
    have := d.first_le
    simp only [Calendar.firstSecond, Calendar.secondsPerDay]
    omega
  le_last := by
    have := d.le_last
    simp only [Calendar.lastSecond, Calendar.secondsPerDay]
    omega
  fits := .inl (by decide)

/-! ## Writing -/

/-- The fraction of a second: nothing, or three, six or nine digits, the fewest that are
exact. -/
def fractionText (nanos : Nat) : String :=
  if nanos = 0 then ""
  else if nanos % 1000000 = 0 then "." ++ Text.padded 3 (nanos / 1000000)
  else if nanos % 1000 = 0 then "." ++ Text.padded 6 (nanos / 1000)
  else "." ++ Text.padded 9 nanos

/-- The instant as date and time of day in UTC; a leap second is number 60 of its minute. -/
def text (t : Instant) : String :=
  let inDay := (t.second % Calendar.secondsPerDay).toNat
  let inMinute := inDay % 60 + t.nanos / Calendar.nanosPerSecond
  t.date.text ++ "T" ++ Text.padded 2 (inDay / 3600) ++ ":" ++
    Text.padded 2 (inDay / 60 % 60) ++ ":" ++ Text.padded 2 inMinute ++
    fractionText (t.nanos % Calendar.nanosPerSecond) ++ "Z"

instance : ToString Instant := ⟨text⟩

end Instant

end Stockroom
