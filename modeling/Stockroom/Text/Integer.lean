/-
Stockroom.Text.Integer — reading integers of a bounded range from text.

The text is an optional sign and ASCII digits. Digits are taken from the left, and the
first thing that goes wrong is the fault: a character that is no digit, or a value that
has left the range.
-/
namespace Stockroom

/-! ## Ranges -/

/-- An interval of integers, both ends included. -/
structure IntegerRange where
  least : Int
  greatest : Int
  deriving DecidableEq, Repr

namespace IntegerRange

/-- Whether `n` lies in the range. -/
def contains (r : IntegerRange) (n : Int) : Bool := decide (r.least ≤ n) && decide (n ≤ r.greatest)

/-- Quantities, identifiers and spans of days: 64 bits with a sign. -/
def signed64 : IntegerRange := ⟨-9223372036854775808, 9223372036854775807⟩

/-- Line numbers: 32 bits with a sign. -/
def signed32 : IntegerRange := ⟨-2147483648, 2147483647⟩

/-- Counts: 64 bits without a sign. -/
def unsigned64 : IntegerRange := ⟨0, 18446744073709551615⟩

/-- Small counts and versions: 32 bits without a sign. -/
def unsigned32 : IntegerRange := ⟨0, 4294967295⟩

/-- Network ports. -/
def unsigned16 : IntegerRange := ⟨0, 65535⟩

end IntegerRange

namespace Text

/-! ## Reading -/

/-- Why a text is no integer of a range. -/
inductive IntegerFault where
  | empty
  | invalidDigit
  | tooLarge
  | tooSmall
  deriving DecidableEq, Repr

/-- The wording of a fault. -/
def IntegerFault.message : IntegerFault → String
  | .empty => "cannot parse integer from empty string"
  | .invalidDigit => "invalid digit found in string"
  | .tooLarge => "number too large to fit in target type"
  | .tooSmall => "number too small to fit in target type"

/-- The value of an ASCII digit. -/
def digitValue? (c : Char) : Option Nat :=
  if c.isDigit then some (c.toNat - '0'.toNat) else none

/-- Takes the digits into `acc` one after another, towards the negative side if `negative`. -/
def accumulate (r : IntegerRange) (negative : Bool) (acc : Int) :
    List Char → Except IntegerFault Int
  | [] => .ok acc
  | c :: rest =>
    match digitValue? c with
    | none => .error .invalidDigit
    | some d =>
      let next := if negative then acc * 10 - d else acc * 10 + d
      if r.greatest < next then .error .tooLarge
      else if next < r.least then .error .tooSmall
      else accumulate r negative next rest

/-- Reads an integer of the range `r`; a minus sign is allowed only where the range has
negative numbers. -/
def readInteger (r : IntegerRange) (s : String) : Except IntegerFault Int :=
  match s.toList with
  | [] => .error .empty
  | ['+'] => .error .invalidDigit
  | ['-'] => .error .invalidDigit
  | '+' :: digits => accumulate r false 0 digits
  | '-' :: digits =>
    if r.least < 0 then accumulate r true 0 digits else .error .invalidDigit
  | digits => accumulate r false 0 digits

end Text

end Stockroom
