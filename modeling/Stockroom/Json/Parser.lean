/-
Stockroom.Json.Parser — JSON values from text.

The reader takes exactly one value with blanks around it. Numbers have no leading zeros and
strings no raw control characters. What is well formed but stands for no value becomes
`unreadable`: escapes of surrogates that do not come in pairs, numbers beyond the doubles,
and arrays and objects nested more than 127 deep. `Json.scan?` lets such parts pass.
-/
import Stockroom.Json.Value
import Stockroom.Text.Integer

namespace Stockroom

namespace Json

/-! ## Blanks, numbers -/

/-- The blanks that may stand between tokens. -/
def isSpace (c : Char) : Bool := c == ' ' || c == '\n' || c == '\r' || c == '\t'

/-- The text without the blanks at its front. -/
def skipSpace (cs : List Char) : List Char := cs.dropWhile isSpace

/-- The digits at the front, at least one. -/
def digits1? (cs : List Char) : Option (List Char × List Char) :=
  let run := cs.takeWhile Char.isDigit
  if run.isEmpty then none else some (run, cs.drop run.length)

/-- The digits before the point: a single zero, or digits that start with another. -/
def whole? (cs : List Char) : Option (List Char × List Char) :=
  match cs with
  | '0' :: rest => if (rest.head?.map Char.isDigit).getD false then none else some (['0'], rest)
  | _ => digits1? cs

/-- The digits after a point, if there is a point. -/
def fraction? : List Char → Option (List Char × List Char)
  | '.' :: rest => digits1? rest
  | cs => some ([], cs)

/-- The number that digits stand for. -/
def natOfDigits (ds : List Char) : Nat := ds.foldl (fun n c => n * 10 + (c.toNat - 48)) 0

/-- The exponent, if there is one. -/
def exponent? : List Char → Option (Option Int × List Char)
  | [] => some (none, [])
  | e :: rest =>
    if e = 'e' ∨ e = 'E' then
      match rest with
      | '-' :: rest => (digits1? rest).map (fun r => (some (-(natOfDigits r.1 : Int)), r.2))
      | '+' :: rest => (digits1? rest).map (fun r => (some (natOfDigits r.1 : Int), r.2))
      | rest => (digits1? rest).map (fun r => (some (natOfDigits r.1 : Int), r.2))
    else some (none, e :: rest)

/-- The double of a literal, if it lies in range. -/
def ofDecimal (negative : Bool) (d : Decimal) : Json :=
  match d.toFloat? with
  | some x => decimal (if negative then -x else x)
  | none => unreadable

/-- A literal without fraction and exponent, as an integer where 64 bits hold it. Minus zero
is no integer. -/
def ofWhole (negative : Bool) (ds : List Char) : Json :=
  let n : Int := natOfDigits ds
  if negative ∧ n ≠ 0 ∧ IntegerRange.signed64.contains (-n) then integer (-n)
  else if ¬negative ∧ IntegerRange.unsigned64.contains n then integer n
  else ofDecimal negative (.ofLiteral ds [] 0)

/-- Takes the digits of a number, after its sign. -/
def unsigned? (negative : Bool) (cs : List Char) : Option (Json × List Char) := do
  let (ds, cs) ← whole? cs
  let (fraction, cs) ← fraction? cs
  let (exponent, cs) ← exponent? cs
  if fraction.isEmpty && exponent.isNone then pure (ofWhole negative ds, cs)
  else pure (ofDecimal negative (.ofLiteral ds fraction (exponent.getD 0)), cs)

/-! ## Strings -/

/-- The value of four hexadecimal digits. -/
def unit? (a b c d : Char) : Option Nat := Uuid.hexNumber? [a, b, c, d]

/-- The character of an escape with a letter. -/
def shortEscape? (c : Char) : Option Char :=
  if c = '"' then some '"'
  else if c = '\\' then some '\\'
  else if c = '/' then some '/'
  else if c = 'n' then some '\n'
  else if c = 'r' then some '\r'
  else if c = 't' then some '\t'
  else if c = 'b' then some '\x08'
  else if c = 'f' then some '\x0c'
  else none

/-- Takes the codes of a string up to its closing quote: an escape with four digits gives a
16-bit unit, every other character its code point. -/
def stringCodes? : List Char → Option (List Nat × List Char)
  | [] => none
  | '"' :: rest => some ([], rest)
  | '\\' :: 'u' :: a :: b :: c :: d :: rest =>
    match unit? a b c d with
    | none => none
    | some u => (stringCodes? rest).map (fun r => (u :: r.1, r.2))
  | '\\' :: e :: rest =>
    match shortEscape? e with
    | none => none
    | some c => (stringCodes? rest).map (fun r => (c.toNat :: r.1, r.2))
  | c :: rest =>
    if c.toNat < 32 ∨ c = '\\' then none
    else (stringCodes? rest).map (fun r => (c.toNat :: r.1, r.2))

/-- Whether a code is the first half of a surrogate pair. -/
def isHighHalf (u : Nat) : Bool := decide (0xD800 ≤ u) && decide (u ≤ 0xDBFF)

/-- Whether a code is the second half of a surrogate pair. -/
def isLowHalf (u : Nat) : Bool := decide (0xDC00 ≤ u) && decide (u ≤ 0xDFFF)

/-- The character of a surrogate pair. -/
def ofPair (u v : Nat) : Char := Char.ofNat (0x10000 + (u - 0xD800) * 0x400 + (v - 0xDC00))

/-- The characters that codes stand for; halves of surrogate pairs must be next to each other. -/
def charsOfCodes? : List Nat → Option (List Char)
  | [] => some []
  | [u] => if isHighHalf u || isLowHalf u then none else some [Char.ofNat u]
  | u :: v :: rest =>
    if isHighHalf u && isLowHalf v then (charsOfCodes? rest).map (ofPair u v :: ·)
    else if isHighHalf u || isLowHalf u then none
    else (charsOfCodes? (v :: rest)).map (Char.ofNat u :: ·)

/-- The text that codes stand for. -/
def textOfCodes? (codes : List Nat) : Option String := (charsOfCodes? codes).map String.ofList

/-! ## Values -/

/-- Takes the characters of `word` from the front. -/
def word? (word cs : List Char) : Option (List Char) :=
  if word.isPrefixOf cs then some (cs.drop word.length) else none

/-- How deep arrays and objects may be nested. -/
def maxDepth : Nat := 127

/-- The string with the given codes. -/
def ofCodes (codes : List Nat) : Json := ((textOfCodes? codes).map string).getD unreadable

/-- An array or object inside which `depth` more of them are allowed, itself included. -/
def atDepth (depth : Nat) (j : Json) : Json := if depth = 0 then unreadable else j

/-- The object whose members have names with the given codes. -/
def ofCoded (members : List (List Nat × Json)) : Json :=
  let named? := members.mapM (fun m => (textOfCodes? m.1).map (fun name => (name, m.2)))
  (named?.map object).getD unreadable

mutual

/-- Takes a value, after blanks, inside which arrays and objects may be nested `depth` deep;
every step takes one from `fuel`. -/
def value? (fuel depth : Nat) (cs : List Char) : Option (Json × List Char) :=
  match fuel with
  | 0 => none
  | fuel + 1 =>
    match skipSpace cs with
    | [] => none
    | c :: rest =>
      if c = '"' then (stringCodes? rest).map (fun r => (ofCodes r.1, r.2))
      else if c = '[' then
        match skipSpace rest with
        | ']' :: rest => some (atDepth depth (array []), rest)
        | rest => (items? fuel (depth - 1) rest).map (fun r => (atDepth depth (array r.1), r.2))
      else if c = '\x7b' then
        match skipSpace rest with
        | '\x7d' :: rest => some (atDepth depth (object []), rest)
        | rest =>
          (members? fuel (depth - 1) rest).map (fun r => (atDepth depth (ofCoded r.1), r.2))
      else if c = 'n' then (word? "ull".toList rest).map (fun r => (null, r))
      else if c = 't' then (word? "rue".toList rest).map (fun r => (bool true, r))
      else if c = 'f' then (word? "alse".toList rest).map (fun r => (bool false, r))
      else if c = '-' then unsigned? true rest
      else unsigned? false (c :: rest)

/-- Takes the items of an array up to its closing bracket. -/
def items? (fuel depth : Nat) (cs : List Char) : Option (List Json × List Char) :=
  match fuel with
  | 0 => none
  | fuel + 1 => do
    let (j, cs) ← value? fuel depth cs
    match skipSpace cs with
    | ']' :: rest => some ([j], rest)
    | ',' :: rest => (items? fuel depth rest).map (fun r => (j :: r.1, r.2))
    | _ => none

/-- Takes the members of an object up to its closing brace, with the codes of their names. -/
def members? (fuel depth : Nat) (cs : List Char) :
    Option (List (List Nat × Json) × List Char) :=
  match fuel with
  | 0 => none
  | fuel + 1 => do
    let (name, cs) ←
      match skipSpace cs with
      | '"' :: rest => stringCodes? rest
      | _ => none
    let cs ←
      match skipSpace cs with
      | ':' :: rest => some rest
      | _ => none
    let (j, cs) ← value? fuel depth cs
    match skipSpace cs with
    | '\x7d' :: rest => some ([(name, j)], rest)
    | ',' :: rest => (members? fuel depth rest).map (fun r => ((name, j) :: r.1, r.2))
    | _ => none

end

/-- Takes one value, whatever parts of it can be read; a value takes at most two steps per
character. -/
def scan? (s : String) : Option Json := do
  let cs := s.toList
  let (j, rest) ← value? (2 * cs.length + 1) maxDepth cs
  if (skipSpace rest).isEmpty then some j else none

end Json

end Stockroom
