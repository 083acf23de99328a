/-
Stockroom.Json.Embedded — values that are given as the text of another document.

An object whose first member has the name `Json.embeddedName` stands for a value that is
written out in text. It must have no other member, and its text must hold one value and
nothing else; what it holds may itself have parts that are given as texts, and its arrays
and objects are counted from one again. `Json.resolve` puts the values in the place of
such objects, or `unreadable` where there is none, and `Json.read?` reads a value that is
complete in this sense. As any other member than the first, one of that name is a member
like the rest.
-/
import Stockroom.Json.Parser

namespace Stockroom

namespace Json

/-- The name that marks an object as a value given as text. -/
def embeddedName : String := "$serde_json::private::RawValue"

/-- Whether an object with the given members stands for a value given as text. -/
def isEmbedding (members : List (String × Json)) : Bool :=
  members.head?.map Prod.fst == some embeddedName

/-- The value that an object stands for whose first member marks it as a value given as text;
`valueOf` says what a text holds. -/
def ofEmbedding (valueOf : String → Json) : List (String × Json) → Json
  | [(_, string s)] => valueOf s
  | _ => unreadable

mutual

/-- The value with every part that is given as text put in its place. -/
def resolveWith (valueOf : String → Json) : Json → Json
  | array items => array (resolveItems valueOf items)
  | object members =>
    if isEmbedding members then ofEmbedding valueOf members
    else object (resolveMembers valueOf members)
  | j => j

/-- The values with every part that is given as text put in its place. -/
def resolveItems (valueOf : String → Json) : List Json → List Json
  | [] => []
  | j :: rest => resolveWith valueOf j :: resolveItems valueOf rest

/-- The members with every part of their values that is given as text put in its place. -/
def resolveMembers (valueOf : String → Json) : List (String × Json) → List (String × Json)
  | [] => []
  | (n, j) :: rest => (n, resolveWith valueOf j) :: resolveMembers valueOf rest

end

/-- The value that a text holds, where texts lie inside each other at most `depth` deep. -/
def ofEmbedded : (depth : Nat) → String → Json
  | 0, _ => unreadable
  | depth + 1, s => ((scan? s).map (resolveWith (ofEmbedded depth))).getD unreadable

/-- The value with every part that is given as text put in its place. A text is longer than any
text inside it, so its length bounds their depth. -/
def resolve (j : Json) : Json := resolveWith (fun s => ofEmbedded s.length s) j

/-- Reads one value, all parts of which can be read. -/
def read? (s : String) : Option Json := ((scan? s).map resolve).filter isReadable

end Json

end Stockroom
