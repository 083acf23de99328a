/-
Stockroom.Proofs.Engine.Release — releases that end a reservation and then cannot load it.

* To tell of the end of a reservation it is loaded once more, after its end is stored. `EndsUnseen`
  says of a store that it ends a reservation and then fails to load it.
* A release by identifier passes that failure on in place of the answer of the store
  (`Engine.release_ended`), a sweep does not (`Sweep.releaseOne_noting`). `release_reloads` says
  when the answer of the store is lost and what comes in its place.
-/
import Stockroom.Proofs.Engine.Calls
import Stockroom.Proofs.Engine.Sweep

namespace Stockroom

open EngineM

variable {σ τ : Type}

/-- Whether the store ends the reservation, and then fails with `e` to load it. -/
def EndsUnseen (store : ReservationStore (StoreM σ)) (id : Uuid) (now : Instant) (s : σ)
    (e : StoreError) : Prop :=
  ∃ ended t, (store.release id now).runFrom s = (.ok (.expired ended), t) ∧
    ((store.get id).runFrom t).1 = .error e

/-- A report to which the answer of a store to one more release is added. -/
def SweepReport.noting (report : SweepReport) (id : Uuid) :
    Except StoreError ReleaseOutcome → SweepReport
  | .ok (.expired ended) => { report with expired := report.expired ++ [ended] }
  | .ok (.noop _) => { report with noops := report.noops + 1 }
  | .error e => { report with failed := report.failed ++ [⟨id, e.message⟩] }

variable {engine : Engine σ τ} {id : Uuid} {now : Instant} {u : EngineState σ τ} {t : σ}

/-! ## By identifier -/

namespace Engine

theorem release_refused {e : StoreError}
    (h : (engine.reservations.release id now).runFrom u.store = (.error e, t)) :
    ((engine.release id now).runFrom u).1 = .error (.store e) := by
  obtain ⟨v, hrun, -⟩ := runFrom_watched_passing_bind_error (τ := τ) h _
  exact congrArg Prod.fst hrun

theorem release_noop {found : Option Uuid}
    (h : (engine.reservations.release id now).runFrom u.store = (.ok (.noop found), t)) :
    ((engine.release id now).runFrom u).1 = .ok (.noop found) := by
  rw [release, runFrom_watched_passing_bind_ok h]
  rfl

/-- What was ended stays ended; the answer hangs on whether it can be loaded. -/
theorem release_ended {ended : Uuid}
    (h : (engine.reservations.release id now).runFrom u.store = (.ok (.expired ended), t)) :
    ((engine.release id now).runFrom u).1 =
        (((engine.reservations.get id).runFrom t).1.map fun _ => .expired ended).mapError .store ∧
      ((engine.release id now).runFrom u).2.store = ((engine.reservations.get id).runFrom t).2 := by
  rw [release, runFrom_watched_passing_bind_ok h]
  simp only [ReleaseOutcome.isExpired, if_true]
  rw [EngineM.runFrom_bind, runFrom_passing]
  rcases (engine.reservations.get id).runFrom t with ⟨e | found, t'⟩
  · exact ⟨rfl, rfl⟩
  · cases found with
    | none => exact ⟨rfl, rfl⟩
    | some r =>
      obtain ⟨v, hrun, hstore⟩ := tells_publishClosed engine r { u with store := t' }
      dsimp only [Except.mapError]
      rw [runFrom_bind_of_ok hrun]
      exact ⟨rfl, hstore⟩

end Engine

/-! ## In a sweep -/

namespace Sweep

/-- To publish an end never fails, be it that the reservation can be loaded or not. -/
theorem publishExpired_ok (engine : Engine σ τ) (id : Uuid) (u : EngineState σ τ) :
    ∃ v, (publishExpired engine id).runFrom u = (.ok (), v) := by
  rw [publishExpired, runFrom_bind_of_ok (runFrom_attempt _ u)]
  rcases ((engine.reservations.get id).runFrom u.store).1 with e | _ | r
  · exact ⟨_, rfl⟩
  · exact ⟨_, rfl⟩
  · obtain ⟨v, hrun, -⟩ := tells_publishClosed engine r _
    exact ⟨v, hrun⟩

/-- A sweep notes what the store has answered. -/
theorem releaseOne_noting (engine : Engine σ τ) (report : SweepReport) (id : Uuid) (now : Instant)
    (u : EngineState σ τ) :
    ((releaseOne engine now report id).runFrom u).1 =
      .ok (report.noting id ((engine.reservations.release id now).runFrom u.store).1) := by
  rw [releaseOne, runFrom_bind_of_ok (runFrom_attempt _ u)]
  rcases ((engine.reservations.release id now).runFrom u.store).1 with e | ended | found
  · rfl
  · obtain ⟨v, hrun⟩ := publishExpired_ok engine ended _
    dsimp only
    rw [runFrom_bind_of_ok hrun]
    rfl
  · rfl

end Sweep

/-! ## Both -/

theorem endsUnseen_iff {store : ReservationStore (StoreM σ)} {s : σ} {ended : Uuid} {e : StoreError}
    (h : (store.release id now).runFrom s = (.ok (.expired ended), t)) :
    EndsUnseen store id now s e ↔ ((store.get id).runFrom t).1 = .error e := by
  constructor
  · rintro ⟨_, _, hended, hload⟩
    rw [h] at hended
    cases hended
    exact hload
  · intro hload
    exact ⟨ended, t, h, hload⟩

/-- What is not ended at all is not ended unseen. -/
theorem not_endsUnseen {store : ReservationStore (StoreM σ)} {s : σ}
    {answer : Except StoreError ReleaseOutcome} (h : (store.release id now).runFrom s = (answer, t))
    (hanswer : ∀ ended, answer ≠ .ok (.expired ended)) : ¬ ∃ e, EndsUnseen store id now s e := by
  rintro ⟨e, ended, _, hended, -⟩
  rw [h] at hended
  exact hanswer ended (congrArg Prod.fst hended)

variable (engine id now u) in
/-- A release answers as its store has answered, unless the store has ended the reservation and
then fails to load it: in that case the failure is the answer, though the reservation has ended. A
sweep over the same store notes what the store has answered, whatever can be loaded. -/
theorem release_reloads :
    (((engine.release id now).runFrom u).1 =
        ((engine.reservations.release id now).runFrom u.store).1.mapError .store ↔
      ¬ ∃ e, EndsUnseen engine.reservations id now u.store e) ∧
    (∀ e, EndsUnseen engine.reservations id now u.store e →
      ((engine.release id now).runFrom u).1 = .error (.store e) ∧
      ((engine.release id now).runFrom u).2.store =
        ((engine.reservations.get id).runFrom
          ((engine.reservations.release id now).runFrom u.store).2).2) ∧
    ∀ report, ((Sweep.releaseOne engine now report id).runFrom u).1 =
      .ok (report.noting id ((engine.reservations.release id now).runFrom u.store).1) := by
  refine ⟨?_, ?_, fun report => Sweep.releaseOne_noting engine report id now u⟩
  · rcases h : (engine.reservations.release id now).runFrom u.store with ⟨e | ended | found, t⟩
    · exact iff_of_true (Engine.release_refused h) (not_endsUnseen h nofun)
    · rw [(Engine.release_ended h).1]
      simp only [endsUnseen_iff h]
      cases ((engine.reservations.get id).runFrom t).1 with
      | error e => exact iff_of_false nofun (not_not_intro ⟨e, rfl⟩)
      | ok found => exact iff_of_true rfl nofun
    · exact iff_of_true (Engine.release_noop h) (not_endsUnseen h nofun)
  · intro e hunseen
    obtain ⟨ended, t, h, hload⟩ := hunseen
    obtain ⟨hanswer, hstore⟩ := Engine.release_ended h
    rw [hanswer, hload, hstore, h]
    exact ⟨rfl, rfl⟩

namespace Sample

/-- The second promise cannot be loaded. -/
def unloadable : Faults :=
  { Faults.none with reservations := OrderedMap.empty.insert (.ofNat 2) .getFails }

/-- The promises, with that fault in front of them. -/
def unloadablePromises : EngineState (Faulty MemoryState) Unit :=
  .start ⟨⟨.empty .epoch, promises⟩, unloadable⟩ ()

theorem endsUnseen_second :
    EndsUnseen faultyEngine.reservations (.ofNat 2) (minute 6) unloadablePromises.store
      (.concurrency "row is locked") :=
  ⟨_, _, rfl, rfl⟩

end Sample

open Sample in
/-- The second promise ends, and the release answers that its row is locked. A sweep notes that it
has ended. -/
theorem release_reloads_unloadable :
    EndsUnseen faultyEngine.reservations (.ofNat 2) (minute 6) unloadablePromises.store
      (.concurrency "row is locked") ∧
    ((faultyEngine.release (.ofNat 2) (minute 6)).runFrom unloadablePromises).1 =
      .error (.store (.concurrency "row is locked")) ∧
    ((Sweep.releaseOne faultyEngine (minute 6) .zero (.ofNat 2)).runFrom unloadablePromises).1 =
      .ok ⟨0, [.ofNat 2], 0, []⟩ := by
  obtain ⟨-, hlost, hsweep⟩ :=
    release_reloads faultyEngine (.ofNat 2) (minute 6) unloadablePromises
  exact ⟨endsUnseen_second, (hlost _ endsUnseen_second).1, hsweep .zero⟩

open Sample in
/-- A release does not always answer as its store has answered. -/
theorem release_answer_lost :
    ¬ ∀ (σ τ : Type) (engine : Engine σ τ) (id : Uuid) (now : Instant) (u : EngineState σ τ),
      ((engine.release id now).runFrom u).1 =
        ((engine.reservations.release id now).runFrom u.store).1.mapError .store := by
  intro h
  have hended : ((faultyEngine.reservations.release (.ofNat 2) (minute 6)).runFrom
      unloadablePromises.store).1 = .ok (.expired (.ofNat 2)) := rfl
  have hfailed : ((faultyEngine.release (.ofNat 2) (minute 6)).runFrom unloadablePromises).1 =
      .error (.store (.concurrency "row is locked")) := rfl
  have hanswer := h _ _ faultyEngine (.ofNat 2) (minute 6) unloadablePromises
  rw [hended, hfailed] at hanswer
  cases hanswer

end Stockroom
