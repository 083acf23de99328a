/-
Stockroom.Audit.Sink — where events go.

Events are published after the change they describe is stored. Whatever becomes of them,
the caller of the change never hears of it, so publishing only changes the sink's own
state.
-/
import Stockroom.Audit.Bus
import Stockroom.Audit.Event

namespace Stockroom

/-- A destination of events, with a state of type `τ`. -/
structure AuditSink (τ : Type) where
  publish : InventoryEvent → Option TraceId → τ → τ

namespace AuditSink

/-- Discards every event. -/
def discard (τ : Type) : AuditSink τ := ⟨fun _ _ s => s⟩

end AuditSink

/-- A carrier of envelopes: it takes an envelope or refuses it. -/
structure EnvelopeBus (τ : Type) where
  publish : Envelope → τ → Option τ

namespace EnvelopeBus

/-- The bus kept in memory, which takes every envelope. -/
def memory : EnvelopeBus (Bus Envelope) := ⟨fun v b => some (b.publish v)⟩

/-- A bus that refuses every envelope. -/
def broken (τ : Type) : EnvelopeBus τ := ⟨fun _ _ => none⟩

end EnvelopeBus

/-- The state of a sink in front of a bus: the bus, and how many envelopes were made. -/
structure BusAudit (τ : Type) where
  bus : τ
  made : Nat

/-- Wraps events in envelopes, numbered by `ids`, and hands them to a bus. A refused envelope
is dropped. -/
def AuditSink.ofBus {τ : Type} (bus : EnvelopeBus τ) (ids : Nat → Uuid) :
    AuditSink (BusAudit τ) where
  publish event trace s :=
    { bus := (bus.publish (.ofEvent (ids s.made) trace event) s.bus).getD s.bus
      made := s.made + 1 }

end Stockroom
