/-
Stockroom.Proofs.Engine.Step — running a step of an engine.

* `EngineM.runFrom` gives the answer of a step and the state that it leaves. The `runFrom_…`
  equations take a step apart, as they do for the steps of a store.
* `EngineM.Tells` says of a step that it always succeeds and leaves the stores alone: it only
  logs, counts or publishes. `EngineM.Keeps` says of a step that may fail that it leaves the
  stores alone.
-/
import Stockroom.Engine.State
import Stockroom.Proofs.Step

namespace Stockroom.EngineM

variable {σ τ α β : Type}

/-! ## Running -/

/-- What a step answers in a state, and the state it leaves. -/
def runFrom (x : EngineM σ τ α) (u : EngineState σ τ) :
    Except EngineError α × EngineState σ τ := x.run.run u

@[simp] theorem runFrom_pure (a : α) (u : EngineState σ τ) :
    (pure a : EngineM σ τ α).runFrom u = (.ok a, u) := rfl

/-- A sequence runs its second part on what the first one left, unless that failed. -/
theorem runFrom_bind (x : EngineM σ τ α) (f : α → EngineM σ τ β) (u : EngineState σ τ) :
    (x >>= f).runFrom u =
      match x.runFrom u with
      | (.ok a, v) => (f a).runFrom v
      | (.error e, v) => (.error e, v) := by
  have h : (x >>= f).runFrom u =
      (ExceptT.bindCont f (x.runFrom u).1 : StateM (EngineState σ τ) _) (x.runFrom u).2 := rfl
  rw [h]
  rcases x.runFrom u with ⟨_ | _, _⟩ <;> rfl

/-- A sequence goes on behind a first part that succeeds. -/
theorem runFrom_bind_of_ok {x : EngineM σ τ α} {u v : EngineState σ τ} {a : α}
    (h : x.runFrom u = (.ok a, v)) (f : α → EngineM σ τ β) :
    (x >>= f).runFrom u = (f a).runFrom v := by
  rw [runFrom_bind, h]

/-- A step on the stores never fails if its failure is a value. -/
theorem runFrom_attempt (x : StoreM σ α) (u : EngineState σ τ) :
    (attempt x : EngineM σ τ _).runFrom u =
      (.ok (x.runFrom u.store).1, { u with store := (x.runFrom u.store).2 }) := rfl

theorem runFrom_passing (wrap : StoreError → EngineError) (x : StoreM σ α)
    (u : EngineState σ τ) :
    (passing wrap x : EngineM σ τ α).runFrom u =
      ((x.runFrom u.store).1.mapError wrap, { u with store := (x.runFrom u.store).2 }) := by
  rw [passing, runFrom_bind_of_ok (runFrom_attempt x u)]
  cases (x.runFrom u.store).1 <;> rfl

theorem runFrom_passing_of_ok {wrap : StoreError → EngineError} {x : StoreM σ α}
    {u : EngineState σ τ} {a : α} {s : σ} (h : x.runFrom u.store = (.ok a, s)) :
    (passing wrap x : EngineM σ τ α).runFrom u = (.ok a, { u with store := s }) := by
  rw [runFrom_passing, h]
  rfl

/-- A result is passed on, and nothing is changed. -/
theorem runFrom_passing_ofResult (wrap : StoreError → EngineError) (x : Except StoreError α)
    (u : EngineState σ τ) :
    (passing wrap (StoreM.ofResult x) : EngineM σ τ α).runFrom u = (x.mapError wrap, u) := by
  rw [runFrom_passing, StoreM.runFrom_ofResult]

/-- What is there to catch failures runs on what the failed step left. -/
theorem runFrom_tryCatch (x : EngineM σ τ α) (f : EngineError → EngineM σ τ α)
    (u : EngineState σ τ) :
    (tryCatch x f).runFrom u =
      match x.runFrom u with
      | (.ok a, v) => (.ok a, v)
      | (.error e, v) => (f e).runFrom v := by
  simp only [runFrom, ExceptT.run_tryCatch, StateT.run_bind]
  rcases StateT.run (ExceptT.run x) u with ⟨_ | _, _⟩ <;> rfl

/-- To watch a step that succeeds makes no difference. -/
theorem runFrom_watched_of_ok {x : EngineM σ τ α} {u v : EngineState σ τ} {a : α}
    (h : x.runFrom u = (.ok a, v)) : (watched x).runFrom u = (.ok a, v) := by
  rw [watched, runFrom_tryCatch, h]

theorem runFrom_watched_passing_of_ok {wrap : StoreError → EngineError} {x : StoreM σ α}
    {u : EngineState σ τ} {a : α} {s : σ} (h : x.runFrom u.store = (.ok a, s)) :
    (watched (passing wrap x) : EngineM σ τ α).runFrom u = (.ok a, { u with store := s }) :=
  runFrom_watched_of_ok (runFrom_passing_of_ok h)

/-- To watch a step makes no difference to what it leaves of the stores. -/
theorem store_watched (x : EngineM σ τ α) (u : EngineState σ τ) :
    ((watched x).runFrom u).2.store = (x.runFrom u).2.store := by
  rw [watched, runFrom_tryCatch]
  rcases x.runFrom u with ⟨e | a, v⟩
  · cases e <;> rfl
  · rfl

theorem store_watched_passing (wrap : StoreError → EngineError) (x : StoreM σ α)
    (u : EngineState σ τ) :
    ((watched (passing wrap x) : EngineM σ τ α).runFrom u).2.store = (x.runFrom u.store).2 := by
  rw [store_watched, runFrom_passing]

/-! ## Telling -/

/-- Whether a step always succeeds, and leaves the stores alone. -/
def Tells (x : EngineM σ τ Unit) : Prop :=
  ∀ u, ∃ v, x.runFrom u = (.ok (), v) ∧ v.store = u.store

theorem tells_pure : Tells (pure () : EngineM σ τ Unit) := fun u => ⟨u, rfl, rfl⟩

theorem tells_log (l : LogLine) : Tells (log l : EngineM σ τ Unit) := fun _ => ⟨_, rfl, rfl⟩

theorem tells_count (m : Metric) (n : Nat) : Tells (count m n : EngineM σ τ Unit) :=
  fun _ => ⟨_, rfl, rfl⟩

theorem tells_publishClosed (engine : Engine σ τ) (r : Reservation) :
    Tells (publishClosed engine r) := by
  unfold publishClosed
  cases InventoryEvent.ofClosed? r with
  | some event => exact fun _ => ⟨_, rfl, rfl⟩
  | none => exact tells_pure

/-! ## Leaving the stores alone -/

/-- Whether a step leaves the stores alone, be it that it succeeds or fails. -/
def Keeps (x : EngineM σ τ α) : Prop := ∀ u, (x.runFrom u).2.store = u.store

theorem keeps_pure (a : α) : Keeps (pure a : EngineM σ τ α) := fun _ => rfl

theorem Tells.keeps {x : EngineM σ τ Unit} (h : Tells x) : Keeps x := by
  intro u
  obtain ⟨v, hrun, hstore⟩ := h u
  rw [hrun, hstore]

theorem keeps_publish (engine : Engine σ τ) (event : InventoryEvent) (trace : TraceId) :
    Keeps (publish engine event trace) := fun _ => rfl

theorem keeps_passing {wrap : StoreError → EngineError} {x : StoreM σ α}
    (h : ∀ s, (x.runFrom s).2 = s) : Keeps (passing wrap x : EngineM σ τ α) := by
  intro u
  rw [runFrom_passing]
  exact h u.store

/-- What a sequence leaves of the stores is what its first part leaves, if the rest does not
touch them. -/
theorem store_bind {x : EngineM σ τ α} {f : α → EngineM σ τ β} (hf : ∀ a, Keeps (f a))
    (u : EngineState σ τ) : ((x >>= f).runFrom u).2.store = (x.runFrom u).2.store := by
  rw [runFrom_bind]
  rcases x.runFrom u with ⟨_ | a, v⟩
  · rfl
  · exact hf a v

theorem Keeps.bind {x : EngineM σ τ α} {f : α → EngineM σ τ β} (hx : Keeps x)
    (hf : ∀ a, Keeps (f a)) : Keeps (x >>= f) :=
  fun u => (store_bind hf u).trans (hx u)

theorem Keeps.tryCatch {x : EngineM σ τ α} {f : EngineError → EngineM σ τ α} (hx : Keeps x)
    (hf : ∀ e, Keeps (f e)) : Keeps (tryCatch x f) := by
  intro u
  have h := hx u
  rw [runFrom_tryCatch]
  generalize x.runFrom u = out at h
  rcases out with ⟨e | a, v⟩
  · exact (hf e v).trans h
  · exact h

end Stockroom.EngineM
