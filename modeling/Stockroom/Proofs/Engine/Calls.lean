/-
Stockroom.Proofs.Engine.Calls — what the calls of an engine over memory leave, and what they tell.

* An `EngineCore` is the state of an engine less what is only counted and logged. `Quiet` says of a
  step that it leaves the core alone, be it that it succeeds or fails. `Reports` says of a step what
  it answers and which events it tells, and that it does no more; the check of a change tells none.
* A call that its store refuses leaves what the store left, and tells nothing
  (`runFrom_watched_passing_bind_error`). The `…_of_ok` theorems say of each call that changes
  something what it answers, leaves and tells where its store accepts it.
-/
import Stockroom.Engine.Memory
import Stockroom.Proofs.Audit.Hearing
import Stockroom.Proofs.Engine.Step

namespace Stockroom

open EngineM

/-! ## What is told -/

/-- What is told of an entry. -/
def LedgerEntry.told (e : LedgerEntry) : InventoryEvent × TraceId := (.ofEntry e, e.trace)

/-- What is told of the answer to a movement. -/
def Outcome.told (o : Outcome) (m : Movement) : List (InventoryEvent × TraceId) :=
  match o.applied, o.ledgerId with
  | true, some id =>
    [(.movementApplied id o.key o.delta o.after m.reason m.reference m.line m.occurredAt,
      m.effectiveTrace)]
  | _, _ => []

/-- What is told of a reservation that was just opened. -/
def Reservation.toldOpened (r : Reservation) : InventoryEvent × TraceId := (.ofCreated r, r.trace)

/-- What is told of the end of a reservation. -/
def Reservation.toldClosed (r : Reservation) : List (InventoryEvent × TraceId) :=
  (InventoryEvent.ofClosed? r).toList.map (·, r.trace)

/-- What is told when `r` has become `q`: that it has ended, if it was open until then. -/
def Reservation.toldTurn (r q : Reservation) : List (InventoryEvent × TraceId) :=
  if r.status = .open then q.toldClosed else []

/-! ## The core of a state -/

/-- The state of an engine without its metrics, alerts and log. -/
structure EngineCore (σ τ : Type) where
  store : σ
  audit : τ
  stats : FefoStats

/-- What an engine's calls build on. -/
def EngineState.core {σ τ : Type} (u : EngineState σ τ) : EngineCore σ τ :=
  ⟨u.store, u.audit, u.stats⟩

namespace EngineM

variable {σ τ α β : Type}

/-! ## Quiet steps -/

/-- Whether a step leaves the core alone, be it that it succeeds or fails. -/
def Quiet (x : EngineM σ τ α) : Prop := ∀ u, (x.runFrom u).2.core = u.core

theorem quiet_pure (a : α) : Quiet (pure a : EngineM σ τ α) := fun _ => rfl

theorem quiet_throw (e : EngineError) : Quiet (throw e : EngineM σ τ α) := fun _ => rfl

theorem quiet_get : Quiet (get : EngineM σ τ (EngineState σ τ)) := fun _ => rfl

theorem quiet_log (l : LogLine) : Quiet (log l : EngineM σ τ Unit) := fun _ => rfl

theorem quiet_count (m : Metric) (n : Nat) : Quiet (count m n : EngineM σ τ Unit) := fun _ => rfl

theorem quiet_passing {wrap : StoreError → EngineError} {x : StoreM σ α}
    (h : ∀ s, (x.runFrom s).2 = s) : Quiet (passing wrap x : EngineM σ τ α) := by
  intro u
  rw [runFrom_passing, EngineState.core, h u.store]
  rfl

/-- What a sequence leaves of the core is what its first part leaves, if the rest is quiet. -/
theorem core_bind {x : EngineM σ τ α} {f : α → EngineM σ τ β} (hf : ∀ a, Quiet (f a))
    (u : EngineState σ τ) : ((x >>= f).runFrom u).2.core = (x.runFrom u).2.core := by
  rw [runFrom_bind]
  rcases x.runFrom u with ⟨_ | a, v⟩
  · rfl
  · exact hf a v

theorem Quiet.bind {x : EngineM σ τ α} {f : α → EngineM σ τ β} (hx : Quiet x)
    (hf : ∀ a, Quiet (f a)) : Quiet (x >>= f) :=
  fun u => (core_bind hf u).trans (hx u)

/-- To watch a step makes no difference to what it leaves of the core, nor to its answer. -/
theorem runFrom_watched (x : EngineM σ τ α) (u : EngineState σ τ) :
    ∃ v, (watched x).runFrom u = ((x.runFrom u).1, v) ∧ v.core = (x.runFrom u).2.core := by
  rw [watched, runFrom_tryCatch]
  rcases x.runFrom u with ⟨e | a, v⟩
  · cases e with
    | store e => exact ⟨_, rfl, rfl⟩
    | outOfRange => exact ⟨_, rfl, rfl⟩
    | sweepUnfinished => exact ⟨_, rfl, rfl⟩
  · exact ⟨_, rfl, rfl⟩

theorem Quiet.watched {x : EngineM σ τ α} (h : Quiet x) : Quiet (watched x) := by
  intro u
  obtain ⟨v, hrun, hcore⟩ := runFrom_watched x u
  rw [hrun, hcore, h u]

/-! ## Steps of a store -/

section Passing

variable {wrap : StoreError → EngineError} {x : StoreM σ α} {u : EngineState σ τ} {s : σ}

/-- A watched step leaves of the core what its store leaves, and passes its answer on. -/
theorem runFrom_watched_passing {answer : Except StoreError α}
    (h : x.runFrom u.store = (answer, s)) :
    ∃ v, (watched (passing wrap x) : EngineM σ τ α).runFrom u = (answer.mapError wrap, v) ∧
      v.core = { u.core with store := s } := by
  obtain ⟨v, hrun, hcore⟩ := runFrom_watched (passing wrap x) u
  rw [runFrom_passing, h] at hrun hcore
  exact ⟨v, hrun, hcore⟩

/-- A call that its store refuses tells nothing. -/
theorem runFrom_watched_passing_bind_error {e : StoreError} (h : x.runFrom u.store = (.error e, s))
    (f : α → EngineM σ τ β) :
    ∃ v, (watched (passing wrap x) >>= f).runFrom u = (.error (wrap e), v) ∧
      v.core = { u.core with store := s } := by
  obtain ⟨v, hrun, hcore⟩ : ∃ v, (watched (passing wrap x) : EngineM σ τ α).runFrom u =
      (.error (wrap e), v) ∧ v.core = { u.core with store := s } := runFrom_watched_passing h
  refine ⟨v, ?_, hcore⟩
  rw [EngineM.runFrom_bind, hrun]

theorem runFrom_watched_passing_bind_ok {a : α} (h : x.runFrom u.store = (.ok a, s))
    (f : α → EngineM σ τ β) :
    (watched (passing wrap x) >>= f).runFrom u = (f a).runFrom { u with store := s } :=
  runFrom_bind_of_ok (runFrom_watched_passing_of_ok h) f

end Passing

/-! ## Telling -/

/-- Whether a step succeeds with the answer `a`, and does no more to the core than to tell some
events. -/
def Reports (engine : Engine σ τ) (events : List (InventoryEvent × TraceId)) (a : α)
    (x : EngineM σ τ α) : Prop :=
  ∀ u, ∃ v, x.runFrom u = (.ok a, v) ∧
    v.core = { u.core with audit := engine.audit.tell events u.audit }

variable {engine : Engine σ τ} {es es' : List (InventoryEvent × TraceId)}

theorem reports_pure (a : α) : Reports engine [] a (pure a) := fun _ => ⟨_, rfl, rfl⟩

theorem reports_count (m : Metric) (n : Nat) : Reports engine [] () (count m n) :=
  fun _ => ⟨_, rfl, rfl⟩

theorem reports_publish (event : InventoryEvent) (trace : TraceId) :
    Reports engine [(event, trace)] () (publish engine event trace) := fun _ => ⟨_, rfl, rfl⟩

theorem Reports.bind {x : EngineM σ τ α} {f : α → EngineM σ τ β} {a : α} {b : β}
    (hx : Reports engine es a x) (hf : Reports engine es' b (f a)) :
    Reports engine (es ++ es') b (x >>= f) := by
  intro u
  obtain ⟨v, hrun, hv⟩ := hx u
  obtain ⟨w, hrest, hw⟩ := hf v
  obtain ⟨-, haudit, -⟩ := EngineCore.mk.inj hv
  refine ⟨w, by rw [runFrom_bind_of_ok hrun, hrest], ?_⟩
  rw [hw, hv, AuditSink.tell_append, haudit]

/-- What follows may have nothing to tell. -/
theorem Reports.before {x : EngineM σ τ α} {f : α → EngineM σ τ β} {a : α} {b : β}
    (hx : Reports engine es a x) (hf : Reports engine [] b (f a)) :
    Reports engine es b (x >>= f) := by
  have hboth := hx.bind hf
  rwa [List.append_nil] at hboth

/-- A quiet step whose failure is swallowed has nothing to tell. -/
theorem Quiet.swallowed {x : EngineM σ τ Unit} (h : Quiet x) :
    Reports engine [] () (tryCatch x fun _ => pure ()) := by
  intro u
  have hcore := h u
  rw [runFrom_tryCatch]
  generalize x.runFrom u = out at hcore
  rcases out with ⟨_ | _, v⟩
  · exact ⟨v, rfl, hcore⟩
  · exact ⟨v, rfl, hcore⟩

/-- Of a reservation that is open there is no end to tell. -/
theorem reports_publishClosed (r : Reservation) :
    Reports engine r.toldClosed () (publishClosed engine r) := by
  unfold publishClosed Reservation.toldClosed
  cases InventoryEvent.ofClosed? r with
  | some event => exact reports_publish event r.trace
  | none => exact reports_pure ()

end EngineM

/-! ## Stores in memory -/

/-- A call of the stock leaves the reservations alone. -/
theorem MemoryState.runFrom_onStock {α : Type} {x : StoreM StockState α} {s : MemoryState}
    {answer : Except StoreError α} {t : StockState} (h : x.runFrom s.stock = (answer, t)) :
    (StoreM.onPart MemoryState.stock (fun s stock => { s with stock }) x).runFrom s =
      (answer, { s with stock := t }) := by
  rw [StoreM.runFrom_onPart, h]

/-- A call of the reservations leaves the stock alone. -/
theorem MemoryState.runFrom_onReservations {α : Type} {x : StoreM ReservationState α}
    {s : MemoryState} {answer : Except StoreError α} {t : ReservationState}
    (h : x.runFrom s.reservations = (answer, t)) :
    (StoreM.onPart MemoryState.reservations
      (fun s reservations => { s with reservations }) x).runFrom s =
      (answer, { s with reservations := t }) := by
  rw [StoreM.runFrom_onPart, h]

namespace Engine

variable {τ : Type} {audit : AuditSink τ} {settings : EngineSettings}
  {u : EngineState MemoryState τ} {s : MemoryState}

/-! ## Movements -/

theorem reports_checkCommitted (operation reference : String) (effects : List CommitEffect) :
    Reports (inMemory audit settings) [] ()
      ((inMemory audit settings).checkCommitted operation reference effects) := by
  unfold checkCommitted
  split
  · refine Quiet.swallowed (Quiet.bind ?_ fun check => ?_)
    · exact (quiet_passing fun _ => rfl).bind fun _ =>
        (quiet_passing fun _ => rfl).bind fun _ => quiet_pure _
    · split
      · exact quiet_pure ()
      · exact quiet_count _ _
  · exact reports_pure ()

/-- A movement that was written down is told, and one that was not is not. -/
theorem apply_of_ok {m : Movement} {o : Outcome}
    (h : ((inMemory audit settings).stock.apply m).runFrom u.store = (.ok o, s)) :
    ∃ v, ((inMemory audit settings).apply m).runFrom u = (.ok o, v) ∧
      v.core = ⟨s, audit.tell (o.told m) u.audit, u.stats⟩ := by
  unfold apply
  rw [runFrom_watched_passing_bind_ok h]
  refine (?_ : Reports (inMemory audit settings) (o.told m) o _) { u with store := s }
  obtain ⟨key, before, delta, after, applied, ledgerId⟩ := o
  cases applied with
  | false => exact reports_pure _
  | true =>
    cases ledgerId with
    | none => exact reports_pure _
    | some id =>
      exact (reports_publish _ _).bind ((reports_count _ _).bind
        ((reports_checkCommitted _ _ _).bind (reports_pure _)))

/-! ## Allocations -/

theorem reports_publishEntries (entries : List LedgerEntry) :
    Reports (inMemory audit settings) (entries.map LedgerEntry.told) ()
      ((inMemory audit settings).publishEntries entries) := by
  induction entries with
  | nil => exact reports_pure ()
  | cons e rest ih => exact (reports_publish _ _).bind ih

/-- An allocation is counted and its entries are told, unless they were written earlier. -/
theorem allocate_of_ok {r : AllocationRequest} {a : AllocationResult}
    (h : ((inMemory audit settings).stock.allocate r).runFrom u.store = (.ok a, s)) :
    ∃ v, ((inMemory audit settings).allocate r).runFrom u = (.ok a, v) ∧
      v.core = if a.replayed then ⟨s, u.audit, u.stats⟩
        else ⟨s, audit.tell (a.entries.map LedgerEntry.told) u.audit,
          u.stats.record a.plan.outcome⟩ := by
  unfold allocate
  rw [runFrom_watched_passing_bind_ok h]
  cases hreplayed : a.replayed with
  | true => exact ⟨_, rfl, rfl⟩
  | false =>
    have hrest : Reports (inMemory audit settings) (a.entries.map LedgerEntry.told) a
        ((inMemory audit settings).publishEntries a.entries >>= fun _ =>
          (inMemory audit settings).checkCommitted "allocate" r.reference
            (a.entries.map (·.effect)) >>= fun _ => pure a) :=
      Reports.before (reports_publishEntries _)
        (Reports.before (reports_checkCommitted _ _ _) (reports_pure a))
    exact hrest _

/-! ## Reservations -/

theorem createReservation_of_ok {fresh : Uuid} {n : NewReservation} {now : Instant}
    {c : CreatedReservation}
    (h : ((inMemory audit settings).reservations.create fresh n now).runFrom u.store =
      (.ok c, s)) :
    ∃ v, ((inMemory audit settings).createReservation fresh n now).runFrom u = (.ok c, v) ∧
      v.core = ⟨s, audit.tell (if c.created then [c.reservation.toldOpened] else []) u.audit,
        u.stats⟩ := by
  unfold createReservation
  rw [runFrom_watched_passing_bind_ok h]
  cases c.created with
  | false => exact ⟨_, rfl, rfl⟩
  | true => exact ⟨_, rfl, rfl⟩

theorem consumeReservation_of_ok {id : Uuid} {now : Instant} {r : Reservation}
    {outcome : ConsumeOutcome}
    (h : ((inMemory audit settings).reservations.consume id now).runFrom u.store =
      (.ok (r, outcome), s)) :
    ∃ v, ((inMemory audit settings).consumeReservation id now).runFrom u = (.ok (r, outcome), v) ∧
      v.core = ⟨s, audit.tell (if outcome = .consumed then r.toldClosed else []) u.audit,
        u.stats⟩ := by
  unfold consumeReservation
  rw [runFrom_watched_passing_bind_ok h]
  cases outcome with
  | noop => exact ⟨_, rfl, rfl⟩
  | consumed =>
    have hrest : Reports (inMemory audit settings) r.toldClosed (r, ConsumeOutcome.consumed)
        (EngineM.publishClosed (inMemory audit settings) r >>= fun _ => pure (r, .consumed)) :=
      (reports_publishClosed r).before (reports_pure _)
    exact hrest _

theorem cancelReservation_of_ok {id : Uuid} {now : Instant} {r : Reservation}
    (h : ((inMemory audit settings).reservations.cancel id now).runFrom u.store = (.ok r, s)) :
    ∃ v, ((inMemory audit settings).cancelReservation id now).runFrom u = (.ok r, v) ∧
      v.core = ⟨s, audit.tell r.toldClosed u.audit, u.stats⟩ := by
  unfold cancelReservation
  rw [runFrom_watched_passing_bind_ok h]
  have hrest : Reports (inMemory audit settings) r.toldClosed r
      (EngineM.publishClosed (inMemory audit settings) r >>= fun _ => pure r) :=
    (reports_publishClosed r).before (reports_pure r)
  exact hrest _

end Engine

end Stockroom
