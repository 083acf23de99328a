/-
Stockroom.Sql.Script — servers that answer as they are told.

One kind of server answers from a list, reply by reply; the statements around a
transaction succeed unless told otherwise. The other kind answers by the words that
it finds in a statement.
-/
import Stockroom.Sql.Session

namespace Stockroom

namespace Sql

/-- No rows, and no error. -/
def Reply.nothing : Reply := .rows []

/-- How the statements around a transaction are answered. -/
structure Control where
  begin : Reply := .nothing
  commit : Reply := .nothing

/-- Answers from a list; when the list is used up, there are no rows. -/
def Server.ofReplies (replies : List Reply) (control : Control) : Server := fun history q =>
  match q with
  | .begin => control.begin
  | .commit => control.commit
  | .rollback => .nothing
  | _ => (replies[history.countP (fun x => !x.statement.isControl)]?).getD .nothing

/-- How many replies of a list were not used. -/
def unused (replies : List Reply) (history : List Exchange) : Nat :=
  replies.length - history.countP (fun x => !x.statement.isControl)

/-- Whether `part` stands somewhere in a text. -/
def occursIn (part : List Char) : List Char → Bool
  | [] => part.isEmpty
  | c :: rest => part.isPrefixOf (c :: rest) || occursIn part rest

/-- A text that a statement may hold, and the reply to a statement that holds it. -/
structure Rule where
  part : String
  reply : Reply

/-- Whether a rule is meant for a statement. -/
def Rule.applies (r : Rule) (q : Statement) : Bool := occursIn r.part.toList q.text.toList

/-- Answers by the first rule that is meant for a statement; without one there are no rows. -/
def Server.ofRules (rules : List Rule) : Server := fun _ q =>
  ((rules.find? (·.applies q)).map (·.reply)).getD .nothing

end Sql

end Stockroom
