/-
Stockroom.Audit.Bus — messages from one place to any number of subscribers.

Every message goes to each live subscription, and the last few are retained, so that a
late subscriber can ask for them first. A subscription that was dropped is noticed at the
next message; until then it is still counted.
-/
namespace Stockroom

/-- A subscription: messages wait in its queue until they are read. -/
structure Subscription (μ : Type) where
  number : Nat
  queue : List μ
  /-- False once the reader has gone. -/
  isLive : Bool

/-- A bus for messages of type `μ`. -/
structure Bus (μ : Type) where
  /-- How many messages are retained. -/
  retention : Nat
  /-- The retained messages, the oldest first. -/
  retained : List μ
  /-- How many messages were published. -/
  published : Nat
  subscriptions : List (Subscription μ)
  /-- How many subscriptions were ever opened; the next one gets this number. -/
  opened : Nat

namespace Bus

variable {μ : Type}

/-- A bus without messages and subscriptions. -/
def empty (retention : Nat) : Bus μ := ⟨retention, [], 0, [], 0⟩

/-- How many subscriptions are counted. -/
def subscribers (b : Bus μ) : Nat := b.subscriptions.length

/-- The last `n` elements. -/
def lastOf (n : Nat) (ms : List μ) : List μ := ms.drop (ms.length - n)

/-- Publishes a message: dropped subscriptions go, live ones receive it. -/
def publish (b : Bus μ) (m : μ) : Bus μ :=
  { b with
    subscriptions :=
      (b.subscriptions.filter (·.isLive)).map (fun s => { s with queue := s.queue ++ [m] })
    retained := lastOf b.retention (b.retained ++ [m])
    published := b.published + 1 }

/-- Opens a subscription whose queue starts with `backlog`. -/
def «open» (b : Bus μ) (backlog : List μ) : Nat × Bus μ :=
  (b.opened,
    { b with
      subscriptions := b.subscriptions ++ [⟨b.opened, backlog, true⟩]
      opened := b.opened + 1 })

/-- Opens a subscription that receives what is published from now on. -/
def subscribe (b : Bus μ) : Nat × Bus μ := b.open []

/-- Opens a subscription that receives the retained messages first. -/
def subscribeWithBacklog (b : Bus μ) : Nat × Bus μ := b.open b.retained

/-- Changes the live subscription of a number. -/
def update (b : Bus μ) (number : Nat) (f : Subscription μ → Subscription μ) : Bus μ :=
  { b with
    subscriptions :=
      b.subscriptions.map (fun s => if s.number = number && s.isLive then f s else s) }

/-- The reader of a subscription goes. -/
def drop (b : Bus μ) (number : Nat) : Bus μ :=
  b.update number (fun s => { s with isLive := false })

/-- What waits in the queue of a subscription. -/
def queueOf (b : Bus μ) (number : Nat) : List μ :=
  match b.subscriptions.find? (fun s => s.number == number && s.isLive) with
  | some s => s.queue
  | none => []

/-- Reads everything that waits in a subscription. -/
def drain (b : Bus μ) (number : Nat) : List μ × Bus μ :=
  (b.queueOf number, b.update number (fun s => { s with queue := [] }))

/-- Reads the message that has waited longest in a subscription. -/
def receive (b : Bus μ) (number : Nat) : Option μ × Bus μ :=
  ((b.queueOf number).head?, b.update number (fun s => { s with queue := s.queue.drop 1 }))

end Bus

end Stockroom
