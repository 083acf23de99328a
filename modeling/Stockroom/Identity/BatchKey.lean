/-
Stockroom.Identity.BatchKey — the batch part of a slot's identity.

Goods may be kept without batches. So that "no batch" is a value like any other, a
reserved key stands for it; no batch code from outside can become that key.
-/
import Stockroom.Text.Blank
import Stockroom.Error

namespace Stockroom

/-- A batch code, or the reserved key that means "no batch". -/
@[ext] structure BatchKey where
  key : String
  deriving DecidableEq, Repr

namespace BatchKey

/-- The reserved key. -/
def reserved : String := "__NULL_BATCH__"

/-- The key of goods kept without a batch. -/
def noBatch : BatchKey := ⟨reserved⟩

/-- Whether this is the key of goods kept without a batch. -/
def isNone (b : BatchKey) : Bool := b.key == reserved

/-- The batch code, if there is a batch. -/
def code? (b : BatchKey) : Option String := if b.isNone then none else some b.key

/-- The key of an optional batch code: trimmed, a blank or missing one meaning no batch.
The reserved key itself is refused. -/
def ofCode (code : Option String) : Except DomainError BatchKey :=
  match code.map Text.trim with
  | none => .ok noBatch
  | some c =>
    if c = "" then .ok noBatch
    else if c = reserved then
      .error (.batchResolution s!"batch code '{reserved}' is reserved")
    else .ok ⟨c⟩

/-- The key of a code that has to name a real batch. -/
def ofRequiredCode (code : String) : Except DomainError BatchKey := do
  let key ← ofCode (some code)
  if key.isNone then .error (.batchResolution "batch_code is required") else pure key

instance : ToString BatchKey := ⟨BatchKey.key⟩
instance : Ord BatchKey := ⟨compareOn BatchKey.key⟩
instance : Std.TransOrd BatchKey := inferInstanceAs (Std.TransCmp (compareOn BatchKey.key))
instance : Std.LawfulEqOrd BatchKey where
  eq_of_compare h := BatchKey.ext (Std.LawfulEqOrd.eq_of_compare (α := String) h)

end BatchKey

end Stockroom
