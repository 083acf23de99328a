/-
Stockroom.Identity.Number — identifiers of warehouses, items and traces.

Warehouses and items are numbered by the store; a number that comes from outside has to
be positive. A trace identifier is free text that travels from the calling workflow into
ledger rows and audit events.
-/
import Stockroom.Text.Blank
import Stockroom.Text.Integer
import Stockroom.Error

namespace Stockroom

/-- The number of a warehouse. -/
@[ext] structure WarehouseId where
  val : Int
  deriving DecidableEq, Repr

/-- The number of an item. -/
@[ext] structure ItemId where
  val : Int
  deriving DecidableEq, Repr

/-- The text that ties ledger rows and events to a calling workflow. -/
@[ext] structure TraceId where
  val : String
  deriving DecidableEq, Repr

/-! ## Positive numbers -/

/-- A number from outside must be positive; `noun` names what it numbers. -/
def checkPositive (noun : String) (n : Int) : Except DomainError Int :=
  if n ≤ 0 then .error (.invalidId s!"{noun}: must be positive, got {n}") else .ok n

/-- Reads a positive number, with blanks around it allowed. -/
def readPositive (noun : String) (s : String) : Except DomainError Int :=
  match Text.readInteger .signed64 (Text.trim s) with
  | .error fault => .error (.invalidId s!"{noun}: {fault.message}")
  | .ok n => checkPositive noun n

namespace WarehouseId

/-- The warehouse with the given number. -/
def ofInt (n : Int) : Except DomainError WarehouseId :=
  (checkPositive "WarehouseId" n).map WarehouseId.mk

/-- Reads the number of a warehouse. -/
def read (s : String) : Except DomainError WarehouseId :=
  (readPositive "WarehouseId" s).map WarehouseId.mk

instance : ToString WarehouseId := ⟨fun w => toString w.val⟩
instance : Ord WarehouseId := ⟨compareOn WarehouseId.val⟩
instance : Std.TransOrd WarehouseId := inferInstanceAs (Std.TransCmp (compareOn WarehouseId.val))
instance : Std.LawfulEqOrd WarehouseId where
  eq_of_compare h := WarehouseId.ext (Std.LawfulEqOrd.eq_of_compare (α := Int) h)

end WarehouseId

namespace ItemId

/-- The item with the given number. -/
def ofInt (n : Int) : Except DomainError ItemId := (checkPositive "ItemId" n).map ItemId.mk

/-- Reads the number of an item. -/
def read (s : String) : Except DomainError ItemId := (readPositive "ItemId" s).map ItemId.mk

instance : ToString ItemId := ⟨fun i => toString i.val⟩
instance : Ord ItemId := ⟨compareOn ItemId.val⟩
instance : Std.TransOrd ItemId := inferInstanceAs (Std.TransCmp (compareOn ItemId.val))
instance : Std.LawfulEqOrd ItemId where
  eq_of_compare h := ItemId.ext (Std.LawfulEqOrd.eq_of_compare (α := Int) h)

end ItemId

end Stockroom
