/-
Stockroom.Wire.Record — JSON forms, and how records are read.

A record is read from an object, whose unknown members are ignored and whose known ones
must not be repeated, or from an array of its members in their order. An optional member
may be null or, in an object, missing. A name that stands for a value may be written
alone or as the only member of an object, bound to null. Ignored members need not be
readable; but a tagged record is read as a whole before its tag decides what it is, so
all its parts must be.
-/
import Stockroom.Json.Embedded

namespace Stockroom

/-- Types with a JSON form. -/
class JsonForm (α : Type) where
  toJson : α → Json
  ofJson? : Json → Option α

export JsonForm (toJson ofJson?)

namespace Wire

/-! ## Plain values -/

/-- An integer of a range. -/
def integerIn? (r : IntegerRange) : Json → Option Int
  | .integer n => if r.contains n then some n else none
  | _ => none

/-- A quantity, identifier or span of days. -/
def int64? : Json → Option Int := integerIn? .signed64

/-- A line number. -/
def int32? : Json → Option Int := integerIn? .signed32

/-- A count. -/
def count? (j : Json) : Option Nat := (integerIn? .unsigned64 j).map Int.toNat

/-- A version. -/
def count32? (j : Json) : Option Nat := (integerIn? .unsigned32 j).map Int.toNat

/-- The double nearest to an integer of 64 bits. -/
def floatOfInteger (n : Int) : Float :=
  let x := n.natAbs.toUInt64.toFloat
  if n < 0 then -x else x

/-- A double. -/
def float? : Json → Option Float
  | .integer n => some (floatOfInteger n)
  | .decimal x => some x
  | _ => none

/-- The written form of a count. -/
def ofCount (n : Nat) : Json := .integer n

instance : JsonForm Bool where
  toJson := .bool
  ofJson?
    | .bool b => some b
    | _ => none

instance : JsonForm String where
  toJson := .string
  ofJson?
    | .string s => some s
    | _ => none

/-- Every item of a list, if all can be read. -/
def all? {α : Type} (read : Json → Option α) : List Json → Option (List α)
  | [] => some []
  | j :: rest => do
    let a ← read j
    let as ← all? read rest
    pure (a :: as)

instance {α : Type} [JsonForm α] : JsonForm (List α) where
  toJson as := .array (as.map toJson)
  ofJson?
    | .array items => all? ofJson? items
    | _ => none

instance {α : Type} [JsonForm α] : JsonForm (Option α) where
  toJson
    | none => .null
    | some a => toJson a
  ofJson?
    | .null => some none
    | j => (ofJson? j).map some

/-- The name that a value is written as. -/
def name? : Json → Option String
  | .string s => some s
  | .object [(s, .null)] => some s
  | _ => none

/-- The name that a value inside a tagged record is written as; there it may also be bound to
an empty object. -/
def nameInTagged? : Json → Option String
  | .object [(s, .object [])] => some s
  | j => name? j

/-! ## Records -/

/-- The members of a record. -/
abbrev Members := List (String × Json)

namespace Members

/-- The member of a name. -/
def find? (ms : Members) (name : String) : Option Json := (List.find? (·.1 == name) ms).map (·.2)

/-- How many members have a name. -/
def countOf (ms : Members) (name : String) : Nat := List.countP (·.1 == name) ms

/-- A member that must be there. -/
def required {α : Type} (ms : Members) (name : String) (read : Json → Option α) : Option α :=
  (ms.find? name).bind read

/-- A member that may be missing or null. -/
def optional {α : Type} (ms : Members) (name : String) (read : Json → Option α) :
    Option (Option α) :=
  match ms.find? name with
  | none => some none
  | some .null => some none
  | some j => (read j).map some

/-- A member of a type with a JSON form. -/
def get {α : Type} [JsonForm α] (ms : Members) (name : String) : Option α :=
  ms.required name ofJson?

/-- An optional member of a type with a JSON form. -/
def get? {α : Type} [JsonForm α] (ms : Members) (name : String) : Option (Option α) :=
  ms.optional name ofJson?

end Members

/-- The members of a record with the given names. -/
def record? (names : List String) : Json → Option Members
  | .object ms => if names.all (fun n => decide (Members.countOf ms n ≤ 1)) then some ms else none
  | .array items => if items.length = names.length then some (names.zip items) else none
  | _ => none

/-- The tag of a tagged record, and the record without it. -/
def split? (tag : String) : Json → Option (String × Json)
  | .object ms =>
    if Members.countOf ms tag = 1 then do
      let name ← Members.required ms tag ofJson?
      pure (name, .object (ms.filter (fun m => m.1 != tag)))
    else none
  | .array (.string name :: items) => some (name, .array items)
  | _ => none

/-- The tag of a tagged record all parts of which can be read, and the record without it. -/
def tagged? (tag : String) (j : Json) : Option (String × Json) :=
  if j.isReadable then split? tag j else none

/-- A tagged record. -/
def tagged (tag name : String) (members : Members) : Json :=
  .object ((tag, .string name) :: members)

/-- A map with text keys: of several members of one name the last counts. -/
def mapOf? {κ υ : Type} [Ord κ] [Std.TransOrd κ] (key : String → Option κ)
    (read : Json → Option υ) : Json → Option (OrderedMap κ υ)
  | .object ms => do
    let bindings ← ms.mapM fun m => do
      let k ← key m.1
      let v ← read m.2
      pure (k, v)
    pure (OrderedMap.ofList bindings)
  | _ => none

/-- The written form of a map with text keys. -/
def ofMap {κ υ : Type} [Ord κ] (key : κ → String) (write : υ → Json) (m : OrderedMap κ υ) :
    Json :=
  .object (m.toList.map (fun b => (key b.1, write b.2)))

end Wire

end Stockroom
