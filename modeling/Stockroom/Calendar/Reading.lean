/-
Stockroom.Calendar.Reading — dates and instants from text.

A date is year, month and day joined by hyphens; an instant is a date, a time of day and
an offset from UTC. Reading is lenient about the shape: blanks may stand before a number,
around a separator and at the end, leading zeros may be missing, a signed year may have
any number of digits. It is strict about the values: the day must exist, the time of day
must be below 24:00:00, and the result must be representable. Second 60 of any minute is a
leap second.
-/
import Stockroom.Calendar.Instant

namespace Stockroom

namespace Calendar

/-! ## Pieces -/

/-- Takes between `least` and `most` digits from the front. -/
def digits? (least most : Nat) (cs : List Char) : Option (Nat × List Char) :=
  let run := (cs.take most).takeWhile Char.isDigit
  if run.length < least then none
  else some (run.foldl (fun n c => n * 10 + (c.toNat - '0'.toNat)) 0, cs.drop run.length)

/-- Takes blanks and then a number of at most `most` digits. -/
def number? (most : Nat) (cs : List Char) : Option (Nat × List Char) :=
  digits? 1 most (Text.trimStartChars cs)

/-- Takes blanks and then a year: at most four digits, or a sign and any number of them. -/
def year? (cs : List Char) : Option (Int × List Char) :=
  match Text.trimStartChars cs with
  | '-' :: rest => (digits? 1 rest.length rest).map (fun r => (-(r.1 : Int), r.2))
  | '+' :: rest => (digits? 1 rest.length rest).map (fun r => ((r.1 : Int), r.2))
  | rest => (digits? 1 4 rest).map (fun r => ((r.1 : Int), r.2))

/-- Takes blanks and then the character `c`. -/
def mark? (c : Char) (cs : List Char) : Option (List Char) :=
  match Text.trimStartChars cs with
  | c' :: rest => if c' = c then some rest else none
  | [] => none

/-- Takes a date. -/
def date? (cs : List Char) : Option (Date × List Char) := do
  let (y, cs) ← year? cs
  let cs ← mark? '-' cs
  let (m, cs) ← number? 2 cs
  let cs ← mark? '-' cs
  let (d, cs) ← number? 2 cs
  let date ← Date.ofCivil? y m d
  pure (date, cs)

/-- Takes a fraction of a second, as nanoseconds; digits after the ninth are dropped. -/
def fraction? : List Char → Option (Nat × List Char)
  | '.' :: rest =>
    (digits? 1 9 rest).map fun r =>
      (r.1 * Nat.pow 10 (9 - (rest.length - r.2.length)), r.2.dropWhile Char.isDigit)
  | cs => some (0, cs)

/-- A time of day: the second since midnight, and the nanoseconds since it began. -/
structure TimeOfDay where
  second : Nat
  nanos : Nat
  deriving DecidableEq, Repr

/-- The time of day of an hour, a minute, a second and nanoseconds in it. -/
def TimeOfDay.ofParts? (h m s nanos : Nat) : Option TimeOfDay :=
  if h < 24 ∧ m < 60 then
    let minute := h * 3600 + m * 60
    if s < 60 then some ⟨minute + s, nanos⟩
    else if s = 60 then some ⟨minute + 59, nanosPerSecond + nanos⟩
    else none
  else none

/-- Takes a time of day. -/
def timeOfDay? (cs : List Char) : Option (TimeOfDay × List Char) := do
  let (h, cs) ← number? 2 cs
  let cs ← mark? ':' cs
  let (m, cs) ← number? 2 cs
  let cs ← mark? ':' cs
  let (s, cs) ← number? 2 cs
  let (nanos, cs) ← fraction? cs
  let time ← TimeOfDay.ofParts? h m s nanos
  pure (time, cs)

/-- Takes an offset from UTC, in seconds: a letter Z, the letters UTC, or a sign, two
digits of hours and two of minutes, which colons or blanks may separate. -/
def offset? (cs : List Char) : Option (Int × List Char) :=
  match cs with
  | 'Z' :: rest => some (0, rest)
  | 'z' :: rest => some (0, rest)
  | sign :: rest =>
    if (cs.take 3).map Char.toUpper = ['U', 'T', 'C'] then some (0, cs.drop 3)
    else if sign = '+' ∨ sign = '-' ∨ sign = '\u2212' then do
      let (h, rest) ← digits? 2 2 rest
      let (m, rest) ← digits? 2 2 (rest.dropWhile (fun c => c = ':' || Text.isBlank c))
      if h < 24 ∧ m < 60 then
        let seconds : Int := (h : Int) * 3600 + (m : Int) * 60
        pure (if sign = '+' then seconds else -seconds, rest)
      else none
    else none
  | [] => none

/-- Takes the character between a date and a time of day. -/
def dateTimeMark? : List Char → Option (List Char)
  | 'T' :: rest => some rest
  | 't' :: rest => some rest
  | ' ' :: rest => some rest
  | _ => none

end Calendar

/-! ## Whole texts -/

/-- Reads a date. -/
def Date.read? (s : String) : Option Date := do
  let (d, rest) ← Calendar.date? s.toList
  if (Text.trimStartChars rest).isEmpty then some d else none

/-- Reads an instant; the offset is taken off, so that equal points in time are equal. -/
def Instant.read? (s : String) : Option Instant := do
  let (d, cs) ← Calendar.date? s.toList
  let cs ← Calendar.dateTimeMark? cs
  let (time, cs) ← Calendar.timeOfDay? cs
  let (offset, rest) ← Calendar.offset? (Text.trimStartChars cs)
  if (Text.trimStartChars rest).isEmpty then
    Instant.ofParts? (d.number * Calendar.secondsPerDay + time.second - offset) time.nanos
  else none

end Stockroom
