/-
Stockroom.Reservation.Basic — promises of stock that end by themselves.

A reservation records intent and moves no stock. It is open until it is consumed,
cancelled, or past its time to live; these three are final. Submitting the same business
key again while it is open refreshes it: new lines are merged in by their number.
-/
import Stockroom.Calendar.Instant
import Stockroom.Data.Sorting
import Stockroom.Data.Sum
import Stockroom.Identity.Number
import Stockroom.Identity.Uuid

namespace Stockroom

/-! ## Status -/

/-- Where a reservation stands. -/
inductive ReservationStatus where
  | «open» | consumed | expired | cancelled
  deriving DecidableEq, Repr

namespace ReservationStatus

/-- Every status. -/
def all : List ReservationStatus := [«open», consumed, expired, cancelled]

/-- The written name. -/
def text : ReservationStatus → String
  | «open» => "open"
  | consumed => "consumed"
  | expired => "expired"
  | cancelled => "cancelled"

instance : ToString ReservationStatus := ⟨text⟩

/-- Whether the status is final. -/
def isTerminal (s : ReservationStatus) : Bool := s != «open»

/-- The status with exactly this name. -/
def ofText? (s : String) : Option ReservationStatus := all.find? (fun r => r.text == s)

/-- Reads a status in any case, with blanks around it allowed. -/
def read (s : String) : Except DomainError ReservationStatus :=
  let folded := Text.lower (Text.trim s)
  match ofText? folded with
  | some r => .ok r
  | none => .error (.validation s!"unknown reservation status '{folded}'")

theorem ofText?_text (s : ReservationStatus) : ofText? s.text = some s := by cases s <;> decide

end ReservationStatus

/-! ## Requests -/

/-- What makes a request the same request. -/
@[ext] structure ReservationKey where
  platform : String
  shop : String
  warehouse : WarehouseId
  reference : String
  deriving DecidableEq, Repr

namespace ReservationKey

instance : Ord ReservationKey :=
  ⟨compareLex (compareOn ReservationKey.platform) (compareLex (compareOn ReservationKey.shop)
    (compareLex (compareOn ReservationKey.warehouse) (compareOn ReservationKey.reference)))⟩
instance : Std.TransOrd ReservationKey :=
  inferInstanceAs (Std.TransCmp (compareLex (compareOn ReservationKey.platform)
    (compareLex (compareOn ReservationKey.shop) (compareLex (compareOn ReservationKey.warehouse)
      (compareOn ReservationKey.reference)))))
instance : Std.LawfulEqOrd ReservationKey where
  eq_of_compare {a b} h := by
    have h : (compare a.platform b.platform).then ((compare a.shop b.shop).then
        ((compare a.warehouse b.warehouse).then (compare a.reference b.reference))) = .eq := h
    rw [Ordering.then_eq_eq, Ordering.then_eq_eq, Ordering.then_eq_eq] at h
    exact ReservationKey.ext (Std.LawfulEqOrd.eq_of_compare h.1)
      (Std.LawfulEqOrd.eq_of_compare h.2.1) (Std.LawfulEqOrd.eq_of_compare h.2.2.1)
      (Std.LawfulEqOrd.eq_of_compare h.2.2.2)

/-- The text under which writers of the key wait for each other. -/
def lockText (k : ReservationKey) : String :=
  s!"{k.platform}:{k.shop}:{k.warehouse}:{k.reference}"

end ReservationKey

/-- A requested line. -/
structure NewReservationLine where
  line : Int
  item : ItemId
  quantity : Int
  deriving DecidableEq, Repr

/-- A requested reservation. -/
structure NewReservation where
  key : ReservationKey
  lines : List NewReservationLine
  expireAt : Instant
  trace : Option TraceId
  deriving DecidableEq

namespace NewReservation

/-- Checks lines one after another against those already `seen`. -/
def checkLines (seen : List Int) : List NewReservationLine → Except DomainError Unit
  | [] => .ok ()
  | l :: rest =>
    if l.line < 1 then .error (.validation s!"ref_line must be >= 1, got {l.line}")
    else if l.quantity ≤ 0 then
      .error (.validation s!"line {l.line} qty must be positive, got {l.quantity}")
    else if seen.contains l.line then .error (.validation s!"duplicate ref_line {l.line}")
    else checkLines (l.line :: seen) rest

/-- The rules for a request: platform and reference are given, line numbers start from 1 and
are distinct, quantities are positive. -/
def check (n : NewReservation) : Except DomainError Unit :=
  if Text.isBlankText n.key.platform then .error (.validation "platform cannot be empty")
  else if Text.isBlankText n.key.reference then .error (.validation "ref cannot be empty")
  else checkLines [] n.lines

/-- The trace kept with the reservation: the caller's, or the reference itself. -/
def effectiveTrace (n : NewReservation) : TraceId := n.trace.getD ⟨n.key.reference⟩

end NewReservation

/-! ## Reservations -/

/-- A reserved line; never more is consumed than reserved. -/
structure ReservationLine where
  line : Int
  item : ItemId
  quantity : Int
  consumed : Int
  deriving DecidableEq, Repr

/-- Merges a requested line into lines that have distinct numbers. -/
def upsertLine (n : NewReservationLine) : List ReservationLine → List ReservationLine
  | [] => [⟨n.line, n.item, n.quantity, 0⟩]
  | l :: rest =>
    if l.line = n.line then
      ⟨l.line, n.item, n.quantity, min l.consumed n.quantity⟩ :: rest
    else l :: upsertLine n rest

/-- Merges requested lines in, and puts all lines in the order of their numbers. -/
def upsertLines (ns : List NewReservationLine) (ls : List ReservationLine) :
    List ReservationLine :=
  sortOn (·.line) (ns.foldl (fun ls n => upsertLine n ls) ls)

/-- What consuming a reservation did. -/
inductive ConsumeOutcome where
  | consumed
  /-- It was consumed earlier. -/
  | noop
  deriving DecidableEq, Repr

namespace ConsumeOutcome

/-- Both outcomes. -/
def all : List ConsumeOutcome := [consumed, noop]

/-- The written name. -/
def text : ConsumeOutcome → String
  | consumed => "consumed"
  | noop => "noop"

/-- The outcome with exactly this name. -/
def ofText? (s : String) : Option ConsumeOutcome := all.find? (fun o => o.text == s)

theorem ofText?_text (o : ConsumeOutcome) : ofText? o.text = some o := by cases o <;> decide

end ConsumeOutcome

/-- What releasing a reservation did. -/
inductive ReleaseOutcome where
  | expired (id : Uuid)
  /-- It was not open any more, or is not known; then there is no identifier. -/
  | noop (id : Option Uuid)
  deriving DecidableEq

/-- Whether the release closed the reservation. -/
def ReleaseOutcome.isExpired : ReleaseOutcome → Bool
  | expired _ => true
  | noop _ => false

/-- A reservation. -/
structure Reservation where
  id : Uuid
  key : ReservationKey
  status : ReservationStatus
  trace : TraceId
  lines : List ReservationLine
  createdAt : Instant
  updatedAt : Instant
  expireAt : Instant
  deriving DecidableEq

namespace Reservation

/-- Opens a reservation. -/
def start (id : Uuid) (n : NewReservation) (now : Instant) : Except DomainError Reservation := do
  n.check
  pure
    { id
      key := n.key
      status := .open
      trace := n.effectiveTrace
      lines := upsertLines n.lines []
      createdAt := now
      updatedAt := now
      expireAt := n.expireAt }

/-- Submits the business key again: the time to live is replaced, lines are merged in. -/
def refresh (r : Reservation) (n : NewReservation) (now : Instant) :
    Except DomainError Reservation := do
  n.check
  if r.status.isTerminal then .error (.conflict s!"reservation {r.id} is {r.status}")
  else
    pure
      { r with
        expireAt := n.expireAt
        trace := n.effectiveTrace
        lines := upsertLines n.lines r.lines
        updatedAt := now }

/-- Whether the reservation is open and past its time to live. -/
def isExpiredAt (r : Reservation) (now : Instant) : Bool :=
  r.status == .open && decide (r.expireAt < now)

/-- Consumes all lines; a second time does nothing. -/
def consume (r : Reservation) (now : Instant) :
    Except DomainError (Reservation × ConsumeOutcome) :=
  match r.status with
  | .consumed => .ok (r, .noop)
  | .open =>
    .ok ({ r with
      lines := r.lines.map (fun l => { l with consumed := l.quantity })
      status := .consumed
      updatedAt := now }, .consumed)
  | status => .error (.conflict s!"cannot consume reservation {r.id} in status {status}")

/-- Cancels an open reservation. -/
def cancel (r : Reservation) (now : Instant) : Except DomainError Reservation :=
  if r.status.isTerminal then
    .error (.conflict s!"cannot cancel reservation {r.id} in status {r.status}")
  else .ok { r with status := .cancelled, updatedAt := now }

/-- Ends an open reservation; any other stays as it is. -/
def expire (r : Reservation) (now : Instant) : Reservation × ReleaseOutcome :=
  if r.status = .open then ({ r with status := .expired, updatedAt := now }, .expired r.id)
  else (r, .noop (some r.id))

/-- The quantity reserved on all lines. -/
def totalQuantity (r : Reservation) : Int := sumOf (·.quantity) r.lines

end Reservation

end Stockroom
