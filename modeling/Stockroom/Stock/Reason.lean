/-
Stockroom.Stock.Reason — why a quantity moves, and in which direction it may.

A reason fixes the sign of the change (`direction`) and the family under which ledger
activity is reported (`movementClass`).
-/
import Stockroom.Text.Blank
import Stockroom.Error

namespace Stockroom

/-- Why a quantity moves. -/
inductive Reason where
  | receipt | pick | shipment | count | adjustment | goodsReturn | transferIn | transferOut
  deriving DecidableEq, Repr

/-- The sign a change is expected to have. -/
inductive Direction where
  | inbound | outbound | either
  deriving DecidableEq, Repr

/-- A family of reasons, for reports. -/
inductive MovementClass where
  | inbound | outbound | count | adjust | goodsReturn | transfer
  deriving DecidableEq, Repr

namespace Direction

/-- The written name. -/
def text : Direction → String
  | inbound => "Inbound"
  | outbound => "Outbound"
  | either => "Either"

/-- Whether a change of `delta` goes in the direction; no change goes in every direction. -/
def allows (d : Direction) (delta : Int) : Bool :=
  match d with
  | inbound => decide (0 ≤ delta)
  | outbound => decide (delta ≤ 0)
  | either => true

end Direction

namespace Reason

/-- Every reason, in the order of their listing. -/
def all : List Reason :=
  [receipt, pick, shipment, count, adjustment, goodsReturn, transferIn, transferOut]

/-- The written name. -/
def text : Reason → String
  | receipt => "RECEIPT"
  | pick => "PICK"
  | shipment => "SHIPMENT"
  | count => "COUNT"
  | adjustment => "ADJUSTMENT"
  | goodsReturn => "RETURN"
  | transferIn => "TRANSFER_IN"
  | transferOut => "TRANSFER_OUT"

instance : ToString Reason := ⟨text⟩

/-- The direction of the reason's movements. -/
def direction : Reason → Direction
  | receipt | goodsReturn | transferIn => .inbound
  | pick | shipment | transferOut => .outbound
  | count | adjustment => .either

/-- The family of the reason. -/
def movementClass : Reason → MovementClass
  | receipt => .inbound
  | pick | shipment => .outbound
  | count => .count
  | adjustment => .adjust
  | goodsReturn => .goodsReturn
  | transferIn | transferOut => .transfer

/-- The reason with exactly this name. -/
def ofText? (s : String) : Option Reason := all.find? (fun r => r.text == s)

/-- Reads a reason in any case, with blanks around it allowed. -/
def read (s : String) : Except DomainError Reason :=
  match ofText? (Text.upper (Text.trim s)) with
  | some r => .ok r
  | none => .error (.validation s!"unknown movement reason '{s}'")

theorem ofText?_text (r : Reason) : ofText? r.text = some r := by cases r <;> decide

end Reason

namespace MovementClass

/-- Every family, in the order in which reports list them. -/
def all : List MovementClass := [inbound, outbound, count, adjust, goodsReturn, transfer]

/-- The written name. -/
def text : MovementClass → String
  | inbound => "INBOUND"
  | outbound => "OUTBOUND"
  | count => "COUNT"
  | adjust => "ADJUST"
  | goodsReturn => "RETURN"
  | transfer => "TRANSFER"

/-- The family with exactly this name. -/
def ofText? (s : String) : Option MovementClass := all.find? (fun c => c.text == s)

theorem ofText?_text (c : MovementClass) : ofText? c.text = some c := by cases c <;> decide

/-- The place of a family in reports. -/
def rank : MovementClass → Nat
  | inbound => 0
  | outbound => 1
  | count => 2
  | adjust => 3
  | goodsReturn => 4
  | transfer => 5

theorem rank_inj {a b : MovementClass} (h : a.rank = b.rank) : a = b := by
  cases a <;> cases b <;> first | rfl | exact absurd h (by decide)

instance : Ord MovementClass := ⟨compareOn rank⟩
instance : Std.TransOrd MovementClass := inferInstanceAs (Std.TransCmp (compareOn rank))
instance : Std.LawfulEqOrd MovementClass where
  eq_of_compare h := rank_inj (Std.LawfulEqOrd.eq_of_compare (α := Nat) h)

end MovementClass

end Stockroom
