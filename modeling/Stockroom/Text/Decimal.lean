/-
Stockroom.Text.Decimal — decimal numbers and doubles.

A decimal is a natural number times a power of ten. A literal becomes one by gathering its
digits as long as 64 bits hold them, and a double by one multiplication or division by a
power of ten, so that the last place may differ from the nearest double. A double is
written with the fewest digits whose nearest double it is.
-/
import Stockroom.Text.Integer

namespace Stockroom

/-- A decimal number: digits times a power of ten. -/
structure Decimal where
  digits : Nat
  exponent : Int
  deriving DecidableEq, Repr

namespace Decimal

/-! ## Reading literals -/

/-- Takes digits into `acc` as long as 64 bits hold the number; gives it and the digits that
are left. -/
def gather (acc : Nat) : List Char → Nat × List Char
  | [] => (acc, [])
  | c :: rest =>
    let next := acc * 10 + (c.toNat - '0'.toNat)
    if IntegerRange.unsigned64.contains next then gather next rest else (acc, c :: rest)

/-- The decimal of a literal without its sign. Digits of the whole part that are left raise the
exponent, those of the fraction are dropped. -/
def ofLiteral (whole fraction : List Char) (exponent : Int) : Decimal :=
  let w := gather 0 whole
  let f := gather w.1 fraction
  ⟨f.1, exponent + (w.2.length : Int) - ((fraction.length : Int) - (f.2.length : Int))⟩

/-! ## Doubles -/

/-- The greatest exponent of a power of ten among the doubles. -/
def maxExponent : Nat := 308

/-- The double nearest to a power of ten. -/
def tenPow (n : Nat) : Float := Float.ofScientific 1 false n

/-- Divides by the greatest of these powers `steps` times, or until nothing is left, and then
by ten to the power `rest`. -/
def shrinkSteps (x : Float) (rest : Nat) : (steps : Nat) → Float
  | 0 => x / tenPow rest
  | steps + 1 => if x == 0.0 then x else shrinkSteps (x / tenPow maxExponent) rest steps

/-- Divides by ten `n` times, with as few roundings as these powers allow. -/
def shrink (x : Float) (n : Nat) : Float :=
  let steps := (n - 1) / maxExponent
  shrinkSteps x (n - steps * maxExponent) steps

/-- Multiplies by ten `n` times, unless that leaves the range of the doubles. -/
def grow? (x : Float) (n : Nat) : Option Float :=
  if x == 0.0 then some x
  else if maxExponent < n then none
  else
    let y := x * tenPow n
    if y.isInf then none else some y

/-- The double that a literal's decimal is read as, if it lies in range. -/
def toFloat? (d : Decimal) : Option Float :=
  let x := d.digits.toUInt64.toFloat
  if d.exponent < 0 then some (shrink x d.exponent.natAbs) else grow? x d.exponent.natAbs

/-- The double nearest to a decimal. -/
def nearest (d : Decimal) : Float :=
  Float.ofScientific d.digits (decide (d.exponent < 0)) d.exponent.natAbs

/-! ## Shortest decimals -/

/-- The magnitude of a finite double, as a multiple of the least positive one. -/
def units (x : Float) : Nat :=
  let bits := x.toBits.toNat
  let exponent := bits / Nat.pow 2 52 % 2048
  let fraction := bits % Nat.pow 2 52
  if exponent = 0 then fraction else (Nat.pow 2 52 + fraction) * Nat.pow 2 (exponent - 1)

/-- How often the least positive double goes into one. -/
def unitsOfOne : Nat := Nat.pow 2 1074

/-- The magnitude of a finite double in units of `10 ^ k`, as numerator and denominator. -/
def scaled (x : Float) (k : Int) : Nat × Nat :=
  if k < 0 then (units x * Nat.pow 10 k.natAbs, unitsOfOne)
  else (units x, unitsOfOne * Nat.pow 10 k.natAbs)

/-- The two multiples of `10 ^ k` next to the magnitude of a double, the nearer one first. -/
def neighbours (x : Float) (k : Int) : List Decimal :=
  let (n, d) := scaled x k
  let below : Decimal := ⟨n / d, k⟩
  let above : Decimal := ⟨n / d + 1, k⟩
  if 2 * (n % d) ≤ d then [below, above] else [above, below]

/-- The place of the first digit of a positive double. -/
def firstPlace (x : Float) : Int :=
  let (n, d) := scaled x (-400)
  (Nat.toDigits 10 (n / d)).length - 401

/-- The decimal with the fewest digits whose nearest double is the given positive one. -/
def ofFloat (x : Float) : Decimal :=
  let first := firstPlace x
  let shortest? := (List.range 17).findSome? fun (n : Nat) =>
    (neighbours x (first - n)).find? (fun d => d.nearest == x)
  shortest?.getD ⟨0, 0⟩

/-! ## Writing -/

/-- The decimal with a point, or, where many zeros would be needed, with an exponent. -/
def text (d : Decimal) : String :=
  let ds := Nat.toDigits 10 d.digits
  let before := (ds.length : Int) + d.exponent
  let zeros (n : Int) := List.replicate n.natAbs '0'
  if 0 ≤ d.exponent ∧ before ≤ 16 then String.ofList (ds ++ zeros d.exponent ++ ['.', '0'])
  else if 0 < before ∧ before ≤ 16 then
    String.ofList (ds.take before.natAbs ++ '.' :: ds.drop before.natAbs)
  else if -5 < before ∧ before ≤ 0 then String.ofList ('0' :: '.' :: (zeros before ++ ds))
  else
    let fraction := if ds.length = 1 then [] else '.' :: ds.drop 1
    String.ofList (ds.take 1 ++ fraction ++ 'e' :: (toString (before - 1)).toList)

/-- A finite double with the fewest digits that are exact. -/
def floatText (x : Float) : String :=
  let sign := if x.toBits.toNat < Nat.pow 2 63 then "" else "-"
  sign ++ (if x == 0.0 then "0.0" else (ofFloat x.abs).text)

end Decimal

end Stockroom
