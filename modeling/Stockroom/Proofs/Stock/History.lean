/-
Stockroom.Proofs.Stock.History — runs of a store of stock, and the states they reach.

* `StockAction` is what can happen to a store: a call of one of its operations, or that its
  clock moves on. `StockState.run` lets a list of actions happen, and `Reachable` is every
  state that a run leads to from no stock at all. Calls that fail are part of a run, with
  whatever they leave behind.
* `Attained` is the larger class of the states that single changes lead to; it also holds the
  states in the middle of an operation. `Attained.induction` is how everything that always
  holds of stock is proved: it holds of no stock, and each single change keeps it.
-/
import Stockroom.Proofs.Stock.Change

namespace Stockroom

open StoreM MemoryStock

/-! ## Actions -/

/-- A question that only looks at stock. -/
inductive StockQuery where
  | batches
  | totals (cut : LedgerCut)
  | entriesOf (reference : String)
  | ledgerStats (since : Instant)
  | entriesBetween (since upTo : Instant)
  | balances (keys : List StockKey)
  | slots
  | snapshot (d : Date)
  | plan (item : ItemId) (warehouse : WarehouseId) (quantity : Int) (options : PlanOptions)
  deriving DecidableEq

/-- The question as a step that forgets the answer. -/
def StockQuery.step : StockQuery → Step Unit
  | batches => do let _ ← store.batches
  | totals cut => do let _ ← store.totals cut
  | entriesOf reference => do let _ ← store.entriesOf reference
  | ledgerStats since => do let _ ← store.ledgerStats since
  | entriesBetween since upTo => do let _ ← store.entriesBetween since upTo
  | balances keys => do let _ ← store.balances keys
  | slots => do let _ ← store.slots
  | snapshot d => do let _ ← store.snapshot d
  | plan item warehouse quantity options => do
    let _ ← store.plan item warehouse quantity options

/-- What can happen to stock: a call of an operation, or that the clock moves on. -/
inductive StockAction where
  | apply (m : Movement)
  | allocate (r : AllocationRequest)
  | resolveBatch (item : ItemId) (warehouse : WarehouseId) (code : String)
      (production expiry : Option Date) (on : Date)
  | correctExpiry (item : ItemId) (warehouse : WarehouseId) (code : String)
      (expiry : Option Date)
  | rebuildSnapshot (d : Date)
  | query (q : StockQuery)
  | tick (clock : Instant)
  deriving DecidableEq

/-- The action as a step that forgets the answer. -/
def StockAction.step : StockAction → Step Unit
  | apply m => do let _ ← store.apply m
  | allocate r => do let _ ← store.allocate r
  | resolveBatch item warehouse code production expiry on => do
    let _ ← store.resolveBatch item warehouse code production expiry on
  | correctExpiry item warehouse code expiry => do
    let _ ← store.correctExpiry item warehouse code expiry
  | rebuildSnapshot d => do let _ ← store.rebuildSnapshot d
  | query q => q.step
  | tick clock => modify fun s => { s with clock }

/-! ## Runs -/

namespace StockState

/-- The state after some actions, those that failed included. -/
def run (s : StockState) (actions : List StockAction) : StockState :=
  actions.foldl (fun t a => (a.step.runFrom t).2) s

theorem run_cons (s : StockState) (a : StockAction) (rest : List StockAction) :
    s.run (a :: rest) = StockState.run (a.step.runFrom s).2 rest := rfl

theorem run_append (s : StockState) (before after : List StockAction) :
    s.run (before ++ after) = (s.run before).run after := List.foldl_append

/-- A state that some run leads to from no stock at all. -/
def Reachable (s : StockState) : Prop := ∃ clock actions, s = (empty clock).run actions

theorem Reachable.run {s : StockState} (h : s.Reachable) (actions : List StockAction) :
    (s.run actions).Reachable := by
  obtain ⟨clock, earlier, rfl⟩ := h
  exact ⟨clock, earlier ++ actions, (run_append _ _ _).symm⟩

end StockState

/-! ## Runs are made of single changes -/

theorem StockQuery.step_moves (q : StockQuery) : Moves Change q.step := by
  cases q with
  | plan item warehouse quantity options =>
    exact (plan_moves item warehouse quantity options).bind fun _ => moves_pure _
  | _ => exact .of_eq fun _ => rfl

theorem StockAction.step_moves (a : StockAction) : Moves Change a.step := by
  cases a with
  | apply m => exact (apply_moves m).bind fun _ => moves_pure _
  | allocate r => exact (allocate_moves r).bind fun _ => moves_pure _
  | resolveBatch item warehouse code production expiry on =>
    exact (resolveBatch_moves item warehouse code production expiry on).bind fun _ => moves_pure _
  | correctExpiry item warehouse code expiry =>
    exact (correctExpiry_moves item warehouse code expiry).bind fun _ => moves_pure _
  | rebuildSnapshot d => exact (rebuildSnapshot_moves d).bind fun _ => moves_pure _
  | query q => exact q.step_moves
  | tick clock => exact fun s => .single (.tick s clock)

namespace StockState

/-- Whatever happens to stock is a chain of single changes. -/
theorem changes_run (s : StockState) (actions : List StockAction) :
    Changes s (s.run actions) := by
  induction actions generalizing s with
  | nil => exact .refl
  | cons a rest ih => exact (a.step_moves s).trans (ih _)

/-- A state that single changes lead to from no stock at all. -/
def Attained (s : StockState) : Prop := ∃ clock, Changes (empty clock) s

theorem Reachable.attained {s : StockState} (h : s.Reachable) : s.Attained := by
  obtain ⟨clock, actions, rfl⟩ := h
  exact ⟨clock, changes_run _ _⟩

theorem Attained.changes {s t : StockState} (h : s.Attained) (hc : Changes s t) : t.Attained := by
  obtain ⟨clock, h⟩ := h
  exact ⟨clock, h.trans hc⟩

theorem Attained.run {s : StockState} (h : s.Attained) (actions : List StockAction) :
    (s.run actions).Attained :=
  h.changes (changes_run s actions)

/-- What holds of no stock, and is kept by every single change, holds of every attained
state. -/
theorem Attained.induction {P : StockState → Prop} (empty : ∀ clock, P (.empty clock))
    (change : ∀ {s t}, s.Attained → Change s t → P s → P t) {s : StockState} (h : s.Attained) :
    P s := by
  obtain ⟨clock, h⟩ := h
  induction h with
  | refl => exact empty clock
  | tail hs hc ih => exact change ⟨clock, hs⟩ hc ih

end StockState

/-! ## A small history

Two batches of one item are received and then allocated together; in between, a receipt is
repeated and a pick asks for too much. -/

namespace Sample

/-- Item 10 in warehouse 1, in the batch with the given code. -/
def key (code : String) : StockKey := ⟨⟨1⟩, ⟨10⟩, ⟨code⟩⟩

/-- The first instant of the day `n` days after the beginning of 1970, for small `n`. -/
def midnight (n : Fin 100) : Instant :=
  ⟨n * 86400, 0, by have := n.isLt; simp [Calendar.firstSecond, Calendar.firstDay,
      Calendar.secondsPerDay]; omega,
    by have := n.isLt; simp [Calendar.lastSecond, Calendar.lastDay, Calendar.secondsPerDay]; omega,
    .inl (by decide)⟩

/-- Goods come in on a line of the purchase; they expire `lasts` days after 1970 began. -/
def receipt (code : String) (line quantity : Int) (lasts : Fin 100) : Movement where
  key := key code
  delta := quantity
  reason := .receipt
  reference := "PO-1"
  line := line
  occurredAt := .epoch
  trace := none
  production := none
  expiry := some (midnight lasts).date
  allowNegative := false

/-- Goods come in that expire on the twentieth day after 1970 began. -/
def delivery (code : String) (line quantity : Int) : Movement := receipt code line quantity 20

/-- Goods of any batch go out on the lines of an order from `line` on. -/
def order (line quantity : Int) : AllocationRequest where
  item := ⟨10⟩
  warehouse := ⟨1⟩
  quantity := quantity
  reason := .shipment
  reference := "SO-1"
  startLine := line
  occurredAt := midnight 3
  trace := none
  allowExpired := false
  preferred := none

/-- More than any slot holds is picked. -/
def pick : Movement := { receipt "A" 9 0 9 with delta := -50, reason := .pick }

/-- What happens before the order. -/
def received : List StockAction :=
  [.apply (receipt "A" 1 5 20), .apply (receipt "B" 2 4 10), .apply (receipt "A" 1 5 20),
    .apply pick]

/-- Stock before the order: five of batch A, and four of batch B, which expires first. -/
def stock : StockState := (StockState.empty .epoch).run received

theorem reachable_stock : stock.Reachable := ⟨_, _, rfl⟩

/-- Stock after an order of six. -/
def shipped : StockState := stock.run [.allocate (order 1 6)]

/-- A day before the order. -/
def past : Date := (midnight 2).date

/-- The tenth day of 1970. -/
def soon : Date := (midnight 9).date

/-- The day on which deliveries expire. -/
def late : Date := (midnight 20).date

/-- Two of batch A are picked, on the tenth day of 1970. -/
def latePick : Movement :=
  { receipt "A" 1 (-2) 20 with reason := .pick, reference := "SO-7", occurredAt := midnight 9 }

/-- Two of batch A are booked back. -/
def adjustment : Movement :=
  { receipt "A" 1 2 20 with
    reason := .adjustment, reference := "ADJ-1", occurredAt := midnight 4, expiry := none,
    allowNegative := true }

end Sample

end Stockroom
