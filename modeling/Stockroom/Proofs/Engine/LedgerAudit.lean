/-
Stockroom.Proofs.Engine.LedgerAudit — the audit stream mirrors the ledger.

The events of movements are built on two paths, from the movement and its outcome where one movement
is written down, and from the entries where an allocation is. `LedgerTold` says that those told so
far are the events of the ledger's entries, in their order; it holds along every run
(`recounts_run`). Beside it the counts of allocations go up by one for each answer that is a new
plan (`stats_run`).
-/
import Stockroom.Proofs.Engine.History

namespace Stockroom

open EngineM

/-! ## Events of the ledger -/

/-- What was told of the ledger. -/
def ledgerPart (told : List (InventoryEvent × TraceId)) : List (InventoryEvent × TraceId) :=
  told.filter (fun e => e.1.stream == "stock_ledger")

theorem ledgerPart_append (told events : List (InventoryEvent × TraceId)) :
    ledgerPart (told ++ events) = ledgerPart told ++ ledgerPart events := List.filter_append ..

theorem ledgerPart_entries (entries : List LedgerEntry) :
    ledgerPart (entries.map LedgerEntry.told) = entries.map LedgerEntry.told := by
  refine List.filter_eq_self.mpr fun e he => ?_
  obtain ⟨entry, -, rfl⟩ := List.mem_map.mp he
  rfl

theorem ledgerPart_closed (r : Reservation) : ledgerPart r.toldClosed = [] := by
  unfold Reservation.toldClosed InventoryEvent.ofClosed?
  cases r.status <;> rfl

theorem ledgerPart_turn (r q : Reservation) : ledgerPart (r.toldTurn q) = [] := by
  unfold Reservation.toldTurn
  split
  · exact ledgerPart_closed q
  · rfl

/-- What was told of the ledger are its entries, in their order. -/
def LedgerTold (s : MemoryState) (told : List (InventoryEvent × TraceId)) : Prop :=
  ledgerPart told = s.stock.ledger.map LedgerEntry.told

variable {τ : Type} {audit : AuditSink τ} {settings : EngineSettings}
  {c d : EngineCore MemoryState τ}

/-- Entries are added to the ledger, and are told. -/
theorem LedgerTold.written {s t : MemoryState} {told : List (InventoryEvent × TraceId)}
    {entries : List LedgerEntry} (ledger : t.stock.ledger = s.stock.ledger ++ entries)
    (h : LedgerTold s told) : LedgerTold t (told ++ entries.map LedgerEntry.told) := by
  rw [LedgerTold, ledgerPart_append, h, ledgerPart_entries, ledger, List.map_append]

/-- The ledger stays, and nothing is told of it. -/
theorem LedgerTold.kept {s t : MemoryState} {told events : List (InventoryEvent × TraceId)}
    (ledger : t.stock.ledger = s.stock.ledger) (events_eq : ledgerPart events = [])
    (h : LedgerTold s told) : LedgerTold t (told ++ events) := by
  rw [LedgerTold, ledgerPart_append, h, events_eq, List.append_nil, ledger]

theorem EngineChange.recounts_ledger (h : EngineChange audit c d) :
    Recounts audit LedgerTold c d := by
  cases h with
  | stocked changes ledger => exact ⟨_, rfl, fun _ => LedgerTold.written ledger⟩
  | @turned id r q known turn =>
    exact ⟨_, rfl, fun _ => LedgerTold.kept rfl (ledgerPart_turn r q)⟩

theorem EngineEnding.recounts_ledger {a : EngineAction} {answer : Except EngineError a.Answer}
    (h : EngineEnding audit c a answer d) : Recounts audit LedgerTold c d := by
  cases h with
  | went changes _ => exact .of_changes EngineChange.recounts_ledger changes
  | opened unknown started => exact ⟨_, rfl, fun _ => LedgerTold.kept rfl rfl⟩
  | allocated _ changes ledger => exact ⟨_, rfl, fun _ => LedgerTold.written ledger⟩

/-! ## Counts of allocations -/

/-- Counts plans. -/
def FefoStats.recordAll (s : FefoStats) (plans : List AllocationPlan) : FefoStats :=
  plans.foldl (fun s p => s.record p.outcome) s

theorem FefoStats.total_recordAll (s : FefoStats) (plans : List AllocationPlan) :
    (s.recordAll plans).total = s.total + plans.length := by
  induction plans generalizing s with
  | nil => rfl
  | cons p rest ih =>
    have hone : (s.record p.outcome).total = s.total + 1 := by
      unfold record total
      split <;> dsimp only <;> omega
    rw [List.length_cons, recordAll, List.foldl_cons, ← recordAll, ih, hone]
    omega

theorem FefoStats.fallbacks_recordAll (s : FefoStats) (plans : List AllocationPlan) :
    (s.recordAll plans).fallbacks =
      s.fallbacks + plans.countP (fun p => p.outcome.isFallback) := by
  induction plans generalizing s with
  | nil => rfl
  | cons p rest ih =>
    rw [recordAll, List.foldl_cons, ← recordAll, ih, List.countP_cons]
    unfold record
    split <;> dsimp only <;> omega

theorem EngineChanges.stats_eq (h : EngineChanges audit c d) : d.stats = c.stats := by
  induction h with
  | refl => rfl
  | tail _ hd ih =>
    rw [← ih]
    cases hd <;> rfl

/-- An allocation that is answered with a new plan is counted, and nothing else is. -/
theorem EngineEnding.stats_eq {a : EngineAction} {answer : Except EngineError a.Answer}
    (h : EngineEnding audit c a answer d) :
    d.stats = c.stats.recordAll (EngineReply.planned? ⟨a, answer⟩).toList := by
  cases h with
  | went changes unplanned =>
    rw [unplanned]
    exact changes.stats_eq
  | opened unknown started => rfl
  | @allocated r a t written changes ledger =>
    have hplanned : EngineReply.planned? ⟨.allocate r, .ok a⟩ = some a.plan := by
      simp only [EngineReply.planned?, written, Bool.false_eq_true, if_false]
    rw [hplanned]
    rfl

/-! ## Runs -/

/-- The new plans among the answers. -/
def plannedIn (replies : List EngineReply) : List AllocationPlan :=
  replies.filterMap EngineReply.planned?

variable (audit settings) in
/-- A run is told entry by entry, and counted plan by plan. -/
theorem Engine.recounts_run {u : EngineState MemoryState τ} (hu : u.store.Sound)
    (actions : List EngineAction) :
    Recounts audit LedgerTold u.core ((inMemory audit settings).run actions u).2.core ∧
    ((inMemory audit settings).run actions u).2.stats =
      u.stats.recordAll (plannedIn ((inMemory audit settings).run actions u).1) := by
  induction actions generalizing u with
  | nil => exact ⟨.refl _, rfl⟩
  | cons a rest ih =>
    have hstep : EngineEnding audit u.core a (((inMemory audit settings).step a).runFrom u).1
        (((inMemory audit settings).step a).runFrom u).2.core := a.ending hu
    obtain ⟨hrest, hstats⟩ := ih (hstep.sound hu)
    refine ⟨hstep.recounts_ledger.trans hrest, ?_⟩
    have hfirst : (((inMemory audit settings).step a).runFrom u).2.stats = _ := hstep.stats_eq
    rw [run_cons, hstats, hfirst, plannedIn, plannedIn, List.filterMap_cons]
    cases EngineReply.planned? ⟨a, (((inMemory audit settings).step a).runFrom u).1⟩ <;> rfl

/-! ## Calls that write nothing -/

/-- A movement that was not written down now leaves nothing to tell. -/
theorem Engine.audit_apply {u : EngineState MemoryState τ} {m : Movement}
    (h : ∀ o, (((inMemory audit settings).apply m).runFrom u).1 = .ok o → o.applied = false) :
    (((inMemory audit settings).apply m).runFrom u).2.audit = u.audit := by
  rcases hstore : ((inMemory audit settings).stock.apply m).runFrom u.store with ⟨e | o, s⟩
  · obtain ⟨v, hrun, hcore⟩ : ∃ v, ((inMemory audit settings).apply m).runFrom u = (_, v) ∧ _ :=
      runFrom_watched_passing_bind_error hstore _
    rw [hrun]
    exact congrArg EngineCore.audit hcore
  · obtain ⟨v, hrun, hcore⟩ := apply_of_ok hstore
    rw [hrun] at h
    have htold : o.told m = [] := by
      rw [Outcome.told, h o rfl]
    rw [hrun]
    rw [htold] at hcore
    exact congrArg EngineCore.audit hcore

/-- An allocation that was not written now leaves nothing to tell. -/
theorem Engine.audit_allocate {u : EngineState MemoryState τ} {r : AllocationRequest}
    (h : ∀ a, (((inMemory audit settings).allocate r).runFrom u).1 = .ok a → a.replayed = true) :
    (((inMemory audit settings).allocate r).runFrom u).2.audit = u.audit := by
  rcases hstore : ((inMemory audit settings).stock.allocate r).runFrom u.store with ⟨e | a, s⟩
  · obtain ⟨v, hrun, hcore⟩ : ∃ v, ((inMemory audit settings).allocate r).runFrom u = (_, v) ∧ _ :=
      runFrom_watched_passing_bind_error hstore _
    rw [hrun]
    exact congrArg EngineCore.audit hcore
  · obtain ⟨v, hrun, hcore⟩ := allocate_of_ok hstore
    rw [hrun] at h
    rw [hrun]
    rw [h a rfl, if_pos rfl] at hcore
    exact congrArg EngineCore.audit hcore

section Received

variable {ids : Nat → Uuid} {u : EngineState MemoryState (BusAudit (Bus Envelope))}

theorem received_apply {m : Movement}
    (h : ∀ o, (((Engine.overBus ids settings).apply m).runFrom u).1 = .ok o → o.applied = false) :
    (((Engine.overBus ids settings).apply m).runFrom u).2.received = u.received := by
  rw [EngineState.received, Engine.overBus, Engine.audit_apply h, EngineState.received]

theorem received_allocate {r : AllocationRequest}
    (h : ∀ a, (((Engine.overBus ids settings).allocate r).runFrom u).1 = .ok a →
      a.replayed = true) :
    (((Engine.overBus ids settings).allocate r).runFrom u).2.received = u.received := by
  rw [EngineState.received, Engine.overBus, Engine.audit_allocate h, EngineState.received]

end Received

/-! ## The audit stream -/

/-- Whatever the calls, a subscription that was opened first has received, of the stock, one
envelope for each entry of the ledger, in their order: the entry's own event, with its trace. A
movement that is refused, repeated or changes nothing adds nothing to it, nor does an allocation
that is refused or repeated. The allocations counted are those answered with a new plan, those that
left the queue separately. -/
theorem audit_mirrors_ledger (ids : Nat → Uuid) (settings : EngineSettings) (clock : Instant)
    (retention : Nat) (actions : List EngineAction) :
    let engine := Engine.overBus ids settings
    let replies := (engine.run actions (.listening clock retention)).1
    let u := (engine.run actions (.listening clock retention)).2
    (u.received.filter (fun v => v.stream == "stock_ledger")).map Envelope.unnumbered =
      u.store.stock.ledger.map (fun e => .ofEvent (.ofNat 0) (some e.trace) (.ofEntry e)) ∧
    (∀ m, (∀ o, ((engine.apply m).runFrom u).1 = .ok o → o.applied = false) →
      ((engine.apply m).runFrom u).2.received = u.received) ∧
    (∀ r, (∀ a, ((engine.allocate r).runFrom u).1 = .ok a → a.replayed = true) →
      ((engine.allocate r).runFrom u).2.received = u.received) ∧
    u.stats.hits + u.stats.fallbacks = (plannedIn replies).length ∧
    u.stats.fallbacks = (plannedIn replies).countP (fun p => p.outcome.isFallback) := by
  intro engine replies u
  obtain ⟨hrecounts, hstats⟩ := Engine.recounts_run (.ofBus .memory ids) settings
    (u := .listening clock retention) (MemoryState.sound_empty clock) actions
  replace hstats : u.stats = FefoStats.zero.recordAll (plannedIn replies) := hstats
  obtain ⟨told, hreceived, htold⟩ := hrecounts.received rfl
  refine ⟨?_, fun m h => received_apply h, fun r h => received_allocate h, ?_, ?_⟩
  · have hpicked := map_unnumbered_filter hreceived (p := fun v => v.stream == "stock_ledger")
      fun _ => rfl
    refine hpicked.trans ?_
    have hpart : told.filter (fun e => (envelopeOf e).stream == "stock_ledger") =
        u.store.stock.ledger.map LedgerEntry.told := htold
    rw [hpart, List.map_map]
    rfl
  · have htotal := FefoStats.total_recordAll .zero (plannedIn replies)
    rw [← hstats] at htotal
    exact htotal.trans (Nat.zero_add _)
  · have hfallbacks := FefoStats.fallbacks_recordAll .zero (plannedIn replies)
    rw [← hstats] at hfallbacks
    exact hfallbacks.trans (Nat.zero_add _)

namespace Sample

/-- Deliveries, one of them repeated; a pick of too much; an order, and its repetition. -/
def trading : List EngineAction :=
  [.apply (delivery "A" 1 5), .apply (delivery "B" 2 4), .apply (delivery "A" 1 5), .apply pick,
    .allocate (order 1 6), .createReservation (.ofNat 1) (shortPromise "SO-2") .epoch,
    .allocate (order 1 6)]

end Sample

open Sample in
/-- Of the five envelopes received, four are those of the entries: two deliveries and two legs. -/
theorem audit_mirrors_ledger_traded :
    ((engineAfter trading).received.filter (fun v => v.stream == "stock_ledger")).map
        Envelope.unnumbered =
      (engineAfter trading).store.stock.ledger.map
        (fun e => .ofEvent (.ofNat 0) (some e.trace) (.ofEntry e)) ∧
    (engineAfter trading).received.length = 5 ∧
    (engineAfter trading).store.stock.ledger.length = 4 ∧
    (engineAfter trading).stats = ⟨1, 0⟩ := by
  obtain ⟨htold, -⟩ := audit_mirrors_ledger .ofNat (.ofConfig {}) .epoch 0 trading
  rw [← engineAfter] at htold
  exact ⟨htold, by decide +kernel, by decide +kernel, by decide +kernel⟩

end Stockroom
