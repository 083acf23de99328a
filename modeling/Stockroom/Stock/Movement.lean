/-
Stockroom.Stock.Movement — requested movements, ledger entries, and outcomes.

A movement asks for a change of one slot. Written down it becomes a ledger entry, which
records the slot's quantity right after it and is found again by its document and line,
so that asking twice changes stock once. `Movement.check` holds the rules that need no
stock, `quantityAfter` the one that does.
-/
import Stockroom.Calendar.Instant
import Stockroom.Stock.Key
import Stockroom.Stock.Reason

namespace Stockroom

/-! ## Movements -/

/-- A line of a document; a movement is recognised by it. -/
@[ext] structure DocumentLine where
  reference : String
  line : Int
  deriving DecidableEq, Repr

namespace DocumentLine

instance : Ord DocumentLine :=
  ⟨compareLex (compareOn DocumentLine.reference) (compareOn DocumentLine.line)⟩
instance : Std.TransOrd DocumentLine :=
  inferInstanceAs (Std.TransCmp
    (compareLex (compareOn DocumentLine.reference) (compareOn DocumentLine.line)))
instance : Std.LawfulEqOrd DocumentLine where
  eq_of_compare {a b} h := by
    have h : (compare a.reference b.reference).then (compare a.line b.line) = .eq := h
    rw [Ordering.then_eq_eq] at h
    exact DocumentLine.ext (Std.LawfulEqOrd.eq_of_compare h.1) (Std.LawfulEqOrd.eq_of_compare h.2)

end DocumentLine

/-- A requested change of one slot. -/
structure Movement where
  key : StockKey
  delta : Int
  reason : Reason
  reference : String
  line : Int
  occurredAt : Instant
  trace : Option TraceId
  production : Option Date
  expiry : Option Date
  /-- An administrative correction may leave the slot below zero. -/
  allowNegative : Bool
  deriving DecidableEq

namespace Movement

/-- The document line the movement is recognised by. -/
def documentLine (m : Movement) : DocumentLine := ⟨m.reference, m.line⟩

/-- The trace written to the ledger: the caller's, or the reference itself. -/
def effectiveTrace (m : Movement) : TraceId := m.trace.getD ⟨m.reference⟩

/-- The rules that do not need the current stock: a reference, a line from 1 on, and a
change in the direction of the reason. -/
def check (m : Movement) : Except DomainError Unit :=
  if Text.isBlankText m.reference then .error (.validation "ref cannot be empty")
  else if m.line < 1 then .error (.validation s!"ref_line must be >= 1, got {m.line}")
  else if m.reason.direction = .inbound ∧ m.delta < 0 then
    .error (.validation s!"{m.reason} movements must not decrease stock")
  else if m.reason.direction = .outbound ∧ 0 < m.delta then
    .error (.validation s!"{m.reason} movements must not increase stock")
  else .ok ()

end Movement

/-! ## Quantities -/

/-- A quantity with the opposite sign, cut off at the greatest 64-bit one. -/
def oppositeWithin64 (n : Int) : Int := min (-n) IntegerRange.signed64.greatest

/-- The slot's quantity after the movement. It must stay within 64 bits, and at or above
zero unless the movement may leave it below. -/
def quantityAfter (before : Int) (m : Movement) : Except DomainError Int :=
  let after := before + m.delta
  if IntegerRange.signed64.contains after = false then
    .error (.validation "quantity overflow")
  else if after < 0 ∧ m.allowNegative = false then
    .error (.insufficientStock (oppositeWithin64 m.delta) before)
  else .ok after

/-! ## Ledger entries -/

/-- A movement as it was written down. -/
structure LedgerEntry where
  id : Int
  key : StockKey
  delta : Int
  reason : Reason
  reference : String
  line : Int
  /-- The slot's quantity right after the movement. -/
  after : Int
  occurredAt : Instant
  trace : TraceId
  deriving DecidableEq

namespace LedgerEntry

/-- The document line the entry is found by. -/
def documentLine (e : LedgerEntry) : DocumentLine := ⟨e.reference, e.line⟩

/-- Whether the entry took stock out. -/
def isOutbound (e : LedgerEntry) : Bool := decide (e.delta < 0)

/-- The slot's quantity right before the movement. -/
def before (e : LedgerEntry) : Int := e.after - e.delta

end LedgerEntry

/-- The entry a movement is written down as. -/
def Movement.toEntry (m : Movement) (id after : Int) : LedgerEntry where
  id := id
  key := m.key
  delta := m.delta
  reason := m.reason
  reference := m.reference
  line := m.line
  after := after
  occurredAt := m.occurredAt
  trace := m.effectiveTrace

/-! ## Outcomes -/

/-- The answer to a movement. -/
structure Outcome where
  key : StockKey
  before : Int
  delta : Int
  after : Int
  /-- False where nothing was written: a repetition, or a change of zero. -/
  applied : Bool
  ledgerId : Option Int
  deriving DecidableEq, Repr

namespace Outcome

/-- A movement written down now. -/
def ofApplied (e : LedgerEntry) : Outcome := ⟨e.key, e.before, e.delta, e.after, true, some e.id⟩

/-- A movement written down earlier. -/
def ofReplayed (e : LedgerEntry) : Outcome := { ofApplied e with applied := false }

/-- A change of zero. -/
def unchanged (key : StockKey) (quantity : Int) : Outcome :=
  ⟨key, quantity, 0, quantity, false, none⟩

end Outcome

/-- The current quantity of one slot. -/
structure StockSlot where
  key : StockKey
  quantity : Int
  deriving DecidableEq, Repr

end Stockroom
