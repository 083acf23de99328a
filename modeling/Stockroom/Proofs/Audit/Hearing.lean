/-
Stockroom.Proofs.Audit.Hearing — a subscription hears of every event that is told.

* A live subscription gets each message at the end of its queue, and stays live
  (`Bus.queueOf_publish`, `Bus.Listens.publish`).
* `AuditSink.tell` hands over some events, each with its trace. `Hears` says that a subscription
  of a bus has in its queue the envelopes of certain events, in their order; only the identifiers
  of the envelopes are left open. `Hears.tell`: it goes on to hear what is told next.
-/
import Stockroom.Audit.Sink

namespace Stockroom

/-! ## Queues -/

namespace Bus

variable {μ : Type} {b : Bus μ} {n : Nat}

/-- Whether the subscription with the number `n` is live. -/
def Listens (b : Bus μ) (n : Nat) : Prop :=
  ∃ s, b.subscriptions.find? (fun s => s.number == n && s.isLive) = some s

/-- A message takes nothing from a live subscription but adds to its queue. -/
theorem find?_publish (b : Bus μ) (n : Nat) (m : μ) :
    (b.publish m).subscriptions.find? (fun s => s.number == n && s.isLive) =
      (b.subscriptions.find? (fun s => s.number == n && s.isLive)).map
        (fun s => { s with queue := s.queue ++ [m] }) := by
  rw [publish, List.find?_map, List.find?_filter]
  refine congrArg _ (congrArg (List.find? · _) (funext fun s => ?_))
  cases hlive : s.isLive <;> simp [hlive, Bool.beq_eq_decide_eq]

theorem Listens.publish (h : b.Listens n) (m : μ) : (b.publish m).Listens n := by
  obtain ⟨s, hs⟩ := h
  exact ⟨_, by rw [find?_publish, hs, Option.map_some]⟩

theorem queueOf_publish (h : b.Listens n) (m : μ) :
    (b.publish m).queueOf n = b.queueOf n ++ [m] := by
  obtain ⟨s, hs⟩ := h
  rw [queueOf, queueOf, find?_publish, hs]
  rfl

end Bus

/-! ## Events and envelopes -/

/-- Hands events over, each with its trace. -/
def AuditSink.tell {τ : Type} (audit : AuditSink τ) (events : List (InventoryEvent × TraceId))
    (s : τ) : τ :=
  events.foldl (fun s e => audit.publish e.1 (some e.2) s) s

theorem AuditSink.tell_append {τ : Type} (audit : AuditSink τ)
    (es es' : List (InventoryEvent × TraceId)) (s : τ) :
    audit.tell (es ++ es') s = audit.tell es' (audit.tell es s) := List.foldl_append

/-- The envelope as if it had no identifier of its own. -/
def Envelope.unnumbered (v : Envelope) : Envelope := { v with eventId := .ofNat 0 }

/-- What carries an event and its trace. -/
def envelopeOf (e : InventoryEvent × TraceId) : Envelope := .ofEvent (.ofNat 0) (some e.2) e.1

/-- To pick envelopes by anything but their identifiers is to pick events. -/
theorem map_unnumbered_filter {vs : List Envelope} {events : List (InventoryEvent × TraceId)}
    (h : vs.map Envelope.unnumbered = events.map envelopeOf) {p : Envelope → Bool}
    (hp : ∀ v, p v.unnumbered = p v) :
    (vs.filter p).map Envelope.unnumbered =
      (events.filter (fun e => p (envelopeOf e))).map envelopeOf := by
  have hpick : p ∘ Envelope.unnumbered = p := funext hp
  have hfiltered : (vs.map Envelope.unnumbered).filter p =
      (vs.filter p).map Envelope.unnumbered := by
    rw [List.filter_map, hpick]
  rw [← hfiltered, h, List.filter_map]
  rfl

/-- Whether the subscription `n` is live, and has heard of these events. -/
structure Hears (n : Nat) (s : BusAudit (Bus Envelope)) (events : List (InventoryEvent × TraceId)) :
    Prop where
  listens : s.bus.Listens n
  heard : (s.bus.queueOf n).map Envelope.unnumbered = events.map envelopeOf

variable {n : Nat} {s : BusAudit (Bus Envelope)} {events : List (InventoryEvent × TraceId)}

/-- A subscription that was just opened has heard of nothing. -/
theorem hears_subscribe (retention made : Nat) :
    Hears 0 ⟨((Bus.empty retention).subscribe).2, made⟩ [] where
  listens := ⟨_, rfl⟩
  heard := rfl

theorem Hears.publish (h : Hears n s events) (ids : Nat → Uuid) (event : InventoryEvent)
    (trace : TraceId) :
    Hears n ((AuditSink.ofBus .memory ids).publish event (some trace) s)
      (events ++ [(event, trace)]) where
  listens := h.listens.publish _
  heard := by
    show ((s.bus.publish _).queueOf n).map Envelope.unnumbered = _
    rw [Bus.queueOf_publish h.listens, List.map_append, h.heard, List.map_append]
    rfl

/-- A subscription goes on to hear what is told. -/
theorem Hears.tell (h : Hears n s events) (ids : Nat → Uuid)
    (es : List (InventoryEvent × TraceId)) :
    Hears n ((AuditSink.ofBus .memory ids).tell es s) (events ++ es) := by
  induction es generalizing s events with
  | nil => rwa [List.append_nil]
  | cons e rest ih =>
    have hrest := ih (h.publish ids e.1 e.2)
    rwa [List.append_assoc] at hrest

end Stockroom
