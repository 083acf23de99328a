/-
Stockroom.Engine.Address — network addresses with a port, from text and to text.

An address is four decimal octets, or eight hexadecimal groups in brackets; two colons
stand for one or more zero groups, and the last two groups may be written as octets. The
written form is the usual shortest one.
-/
import Stockroom.Identity.Uuid
import Stockroom.Text.Integer

namespace Stockroom

/-- A network address with a port. -/
inductive SocketAddress where
  | v4 (octets : List Nat) (port : Nat)
  /-- Eight groups; the scope is zero if there is none. -/
  | v6 (groups : List Nat) (scope port : Nat)
  deriving DecidableEq, Repr

namespace SocketAddress

/-! ## Reading -/

/-- The value of a digit in base ten or sixteen. -/
def digitIn? (hex : Bool) (c : Char) : Option Nat :=
  if hex then Uuid.hexValue? c else Text.digitValue? c

/-- Takes a number of at most `most` digits and at most the value `greatest`; a zero in front
of other digits is allowed only if `leadingZero`. -/
def number? (hex : Bool) (most : Option Nat) (leadingZero : Bool) (greatest : Nat)
    (cs : List Char) : Option (Nat × List Char) :=
  let run := cs.takeWhile (fun c => (digitIn? hex c).isSome)
  let value := run.foldl (fun n c => n * (if hex then 16 else 10) + (digitIn? hex c).getD 0) 0
  if run.isEmpty then none
  else if most.any (fun m => decide (m < run.length)) then none
  else if leadingZero = false ∧ run.head? = some '0' ∧ 1 < run.length then none
  else if greatest < value then none
  else some (value, cs.drop run.length)

/-- Takes the character `c`. -/
def mark? (c : Char) : List Char → Option (List Char)
  | c' :: rest => if c' = c then some rest else none
  | [] => none

/-- Takes an octet. -/
def octet? (cs : List Char) : Option (Nat × List Char) := number? false (some 3) false 255 cs

/-- Takes four octets with points between them. -/
def octets? (cs : List Char) : Option (List Nat × List Char) := do
  let (a, cs) ← octet? cs
  let cs ← mark? '.' cs
  let (b, cs) ← octet? cs
  let cs ← mark? '.' cs
  let (c, cs) ← octet? cs
  let cs ← mark? '.' cs
  let (d, cs) ← octet? cs
  pure ([a, b, c, d], cs)

/-- Takes a port and the end of the text. -/
def port? (cs : List Char) : Option Nat := do
  let cs ← mark? ':' cs
  let (port, rest) ← number? false none true 65535 cs
  if rest.isEmpty then some port else none

/-- Takes at most `room` groups with colons between them, the last two possibly written as
octets; also says whether they were. -/
def groups? (first : Bool) (room : Nat) (cs : List Char) : List Nat × Bool × List Char :=
  match room with
  | 0 => ([], false, cs)
  | room + 1 =>
    match if first then some cs else mark? ':' cs with
    | none => ([], false, cs)
    | some start =>
      match if room = 0 then none else octets? start with
      | some ([a, b, c, d], rest) => ([a * 256 + b, c * 256 + d], true, rest)
      | _ =>
        match number? true (some 4) true 0xFFFF start with
        | none => ([], false, cs)
        | some (g, rest) =>
          let (gs, mixed, rest) := groups? false room rest
          (g :: gs, mixed, rest)

/-- Takes eight groups, or fewer with two colons for the missing zeros. -/
def groups8? (cs : List Char) : Option (List Nat × List Char) :=
  let (head, mixed, rest) := groups? true 8 cs
  if head.length = 8 then some (head, rest)
  else if mixed then none
  else do
    let rest ← mark? ':' rest
    let rest ← mark? ':' rest
    let (tail, _, rest) := groups? true (7 - head.length) rest
    pure (head ++ List.replicate (8 - head.length - tail.length) 0 ++ tail, rest)

/-- Takes a scope, if there is one. -/
def scope? (cs : List Char) : Option (Nat × List Char) :=
  match cs with
  | '%' :: rest => number? false none true 4294967295 rest
  | _ => some (0, cs)

/-- Reads an address of octets. -/
def readV4? (cs : List Char) : Option SocketAddress := do
  let (octets, cs) ← octets? cs
  let port ← port? cs
  pure (v4 octets port)

/-- Reads an address of groups. -/
def readV6? (cs : List Char) : Option SocketAddress := do
  let cs ← mark? '[' cs
  let (groups, cs) ← groups8? cs
  let (scope, cs) ← scope? cs
  let cs ← mark? ']' cs
  let port ← port? cs
  pure (v6 groups scope port)

/-- Reads an address with a port. -/
def read? (s : String) : Option SocketAddress := (readV4? s.toList).orElse fun _ => readV6? s.toList

/-! ## Writing -/

/-- A group in hexadecimal, without zeros in front. -/
def groupText (g : Nat) : String := String.ofList (Nat.toDigits 16 g)

/-- Groups with colons between them. -/
def groupsText (gs : List Nat) : String := ":".intercalate (gs.map groupText)

/-- The start and length of the longest run of zero groups, the first of several. -/
def longestZeros (position start length : Nat) (best : Nat × Nat) : List Nat → Nat × Nat
  | [] => best
  | g :: rest =>
    if g = 0 then
      let start := if length = 0 then position else start
      let best := if best.2 < length + 1 then (start, length + 1) else best
      longestZeros (position + 1) start (length + 1) best rest
    else longestZeros (position + 1) 0 0 best rest

/-- Octets with points between them. -/
def octetsText (os : List Nat) : String := ".".intercalate (os.map toString)

/-- Eight groups in the shortest form. -/
def groups8Text (gs : List Nat) : String :=
  match gs with
  | [0, 0, 0, 0, 0, 0xFFFF, a, b] =>
    "::ffff:" ++ octetsText [a / 256, a % 256, b / 256, b % 256]
  | _ =>
    let (start, length) := longestZeros 0 0 0 (0, 0) gs
    if 1 < length then groupsText (gs.take start) ++ "::" ++ groupsText (gs.drop (start + length))
    else groupsText gs

/-- The written form. -/
def text : SocketAddress → String
  | v4 octets port => octetsText octets ++ ":" ++ toString port
  | v6 groups scope port =>
    let suffix := if scope = 0 then "" else "%" ++ toString scope
    "[" ++ groups8Text groups ++ suffix ++ "]:" ++ toString port

end SocketAddress

end Stockroom
