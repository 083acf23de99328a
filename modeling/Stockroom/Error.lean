/-
Stockroom.Error — what can go wrong, and how it is worded.

`DomainError` is a broken business rule; `StoreError` is any failure at the storage
boundary, where broken rules pass through unchanged whatever the backend. The code of an
error is a stable name for its kind, the message is for people.
-/
namespace Stockroom

/-- A broken business rule. -/
inductive DomainError where
  /-- A value is malformed. -/
  | validation (detail : String)
  /-- A quantity would become negative. -/
  | insufficientStock (requested available : Int)
  /-- A batch cannot be named or created. -/
  | batchResolution (detail : String)
  /-- An identifier is malformed. -/
  | invalidId (detail : String)
  /-- Something asked for does not exist. -/
  | notFound (detail : String)
  /-- The current state does not allow the step. -/
  | conflict (detail : String)
  deriving DecidableEq, Repr

namespace DomainError

/-- The stable name of the kind. -/
def code : DomainError → String
  | validation _ => "validation"
  | insufficientStock _ _ => "insufficient_stock"
  | batchResolution _ => "batch_resolution"
  | invalidId _ => "invalid_id"
  | notFound _ => "not_found"
  | conflict _ => "conflict"

/-- The wording. -/
def message : DomainError → String
  | validation d => "validation failed: " ++ d
  | insufficientStock requested available =>
    s!"insufficient stock: requested {requested}, available {available}"
  | batchResolution d => "batch resolution failed: " ++ d
  | invalidId d => "invalid identifier: " ++ d
  | notFound d => "not found: " ++ d
  | conflict d => "conflict: " ++ d

end DomainError

/-- A failure at the storage boundary. -/
inductive StoreError where
  /-- A broken business rule. -/
  | domain (e : DomainError)
  /-- The backend failed: connection, statement, or a stored value that makes no sense. -/
  | storage (detail : String)
  /-- Another writer was first. -/
  | concurrency (detail : String)
  /-- A lock was left behind by a writer that died. -/
  | lockPoisoned
  /-- A number has left its range: the program stops there. -/
  | outOfRange
  deriving DecidableEq, Repr

namespace StoreError

/-- The stable name of the kind. -/
def code : StoreError → String
  | domain e => e.code
  | storage _ => "storage"
  | concurrency _ => "concurrency"
  | lockPoisoned => "lock_poisoned"
  | outOfRange => "out_of_range"

/-- The wording. -/
def message : StoreError → String
  | domain e => e.message
  | storage d => "storage error: " ++ d
  | concurrency d => "concurrency conflict: " ++ d
  | lockPoisoned => "lock poisoned"
  | outOfRange => "number out of range"

end StoreError

instance : Coe DomainError StoreError := ⟨.domain⟩

end Stockroom
