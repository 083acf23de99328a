/-
Stockroom.Json.Value — JSON values and their compact text.

An object keeps its members in the order in which they were given. `Json.sorted` puts the
members of every object in the order of their names, the last of several members of one
name counting; `Json.text` writes a value without blanks. A text may be well formed and
hold parts that stand for no value; they are kept, since they do no harm where nobody
reads them.
-/
import Stockroom.Data.OrderedMap
import Stockroom.Identity.Uuid
import Stockroom.Text.Decimal

namespace Stockroom

/-- A JSON value. -/
inductive Json where
  | null
  | bool (b : Bool)
  | integer (n : Int)
  /-- A number with a fraction or an exponent, or one that no 64-bit integer holds. -/
  | decimal (x : Float)
  | string (s : String)
  | array (items : List Json)
  | object (members : List (String × Json))
  /-- A well-formed part that stands for no value: a string with half a surrogate pair, a number
  beyond the greatest double, an object with such a name, an array or object too deep down, or
  one that should hold a value as text and does not. -/
  | unreadable
  deriving Inhabited

namespace Json

/-! ## Comparing -/

mutual

/-- Whether two values are the same, members of objects in the same order. -/
def same : Json → Json → Bool
  | null, null => true
  | bool a, bool b => a == b
  | integer a, integer b => a == b
  | decimal a, decimal b => a.toBits == b.toBits
  | string a, string b => a == b
  | array a, array b => sameItems a b
  | object a, object b => sameMembers a b
  | unreadable, unreadable => true
  | _, _ => false

/-- Whether two lists of values are the same. -/
def sameItems : List Json → List Json → Bool
  | [], [] => true
  | a :: as, b :: bs => same a b && sameItems as bs
  | _, _ => false

/-- Whether two lists of members are the same. -/
def sameMembers : List (String × Json) → List (String × Json) → Bool
  | [], [] => true
  | (m, a) :: as, (n, b) :: bs => m == n && same a b && sameMembers as bs
  | _, _ => false

end

instance : BEq Json := ⟨same⟩

/-! ## Readable values -/

mutual

/-- Whether every part of a value can be read. -/
def isReadable : Json → Bool
  | unreadable => false
  | array items => areReadable items
  | object members => haveReadable members
  | _ => true

/-- Whether every part of the values can be read. -/
def areReadable : List Json → Bool
  | [] => true
  | j :: rest => isReadable j && areReadable rest

/-- Whether every part of the members' values can be read. -/
def haveReadable : List (String × Json) → Bool
  | [] => true
  | (_, j) :: rest => isReadable j && haveReadable rest

end

/-! ## Sorting members -/

mutual

/-- The value with the members of every object in the order of their names. -/
def sorted : Json → Json
  | array items => array (sortedItems items)
  | object members => object (OrderedMap.ofList (sortedMembers members)).toList
  | j => j

/-- The values with the members of every object in order. -/
def sortedItems : List Json → List Json
  | [] => []
  | j :: rest => sorted j :: sortedItems rest

/-- The members with the members of every object inside them in order. -/
def sortedMembers : List (String × Json) → List (String × Json)
  | [] => []
  | (n, j) :: rest => (n, sorted j) :: sortedMembers rest

end

/-! ## Changing texts -/

mutual

/-- The value with `f` applied to every text, names of members apart. -/
def mapText (f : String → String) : Json → Json
  | string s => string (f s)
  | array items => array (mapTextItems f items)
  | object members => object (mapTextMembers f members)
  | j => j

/-- The values with `f` applied to every text. -/
def mapTextItems (f : String → String) : List Json → List Json
  | [] => []
  | j :: rest => mapText f j :: mapTextItems f rest

/-- The members with `f` applied to every text in their values. -/
def mapTextMembers (f : String → String) : List (String × Json) → List (String × Json)
  | [] => []
  | (n, j) :: rest => (n, mapText f j) :: mapTextMembers f rest

end

/-! ## Writing -/

/-- A character inside a string: quotes, backslashes and control characters are escaped. -/
def escapeChar (c : Char) : List Char :=
  if c = '"' then ['\\', '"']
  else if c = '\\' then ['\\', '\\']
  else if c = '\n' then ['\\', 'n']
  else if c = '\r' then ['\\', 'r']
  else if c = '\t' then ['\\', 't']
  else if c = '\x08' then ['\\', 'b']
  else if c = '\x0c' then ['\\', 'f']
  else if c.toNat < 32 then '\\' :: 'u' :: Uuid.hexDigits 4 c.toNat
  else [c]

/-- A string in quotes. -/
def quoted (s : String) : List Char := '"' :: (s.toList.flatMap escapeChar ++ ['"'])

mutual

/-- The characters of a value, without blanks; what cannot be read is written as null. -/
def chars : Json → List Char
  | null => "null".toList
  | unreadable => "null".toList
  | bool true => "true".toList
  | bool false => "false".toList
  | integer n => (toString n).toList
  | decimal x => (Decimal.floatText x).toList
  | string s => quoted s
  | array [] => ['[', ']']
  | array (j :: rest) => '[' :: (chars j ++ itemChars rest)
  | object [] => ['\x7b', '\x7d']
  | object ((n, j) :: rest) => '\x7b' :: (quoted n ++ ':' :: (chars j ++ memberChars rest))

/-- The characters of the further items of an array, and its end. -/
def itemChars : List Json → List Char
  | [] => [']']
  | j :: rest => ',' :: (chars j ++ itemChars rest)

/-- The characters of the further members of an object, and its end. -/
def memberChars : List (String × Json) → List Char
  | [] => ['\x7d']
  | (n, j) :: rest => ',' :: (quoted n ++ ':' :: (chars j ++ memberChars rest))

end

/-- The text of a value, without blanks. -/
def text (j : Json) : String := String.ofList j.chars

end Json

end Stockroom
