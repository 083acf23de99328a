/-
Stockroom.Proofs.Step — running a step on a state, and steps that only move along a
relation.

* `bind_eq_ok_iff`, `map_eq_ok_iff` and `mapError_eq_ok_iff` invert a computation that has given a
  result.
* `StoreM.runFrom` gives the answer of a step and the state it leaves, which is there after
  a failure as well. The `runFrom_…` equations take a step apart, one for each way of
  building steps; `runFrom_bind_ok_iff` inverts a sequence that succeeded.
* `StoreM.Moves R x` says that `x` leaves every state along a chain of `R`, whether it
  succeeds or fails. It is closed under the ways of building steps, so that an operation is
  covered as soon as the places are that really change the state.
-/
import Mathlib.Logic.Relation
import Stockroom.Stock.Store

namespace Stockroom

/-! ## Results -/

section Results

variable {ε α β : Type} {x : Except ε α}

theorem bind_eq_ok_iff {f : α → Except ε β} {b : β} :
    x >>= f = .ok b ↔ ∃ a, x = .ok a ∧ f a = .ok b := by
  cases x with
  | error e => exact ⟨nofun, nofun⟩
  | ok a => exact ⟨fun h => ⟨a, rfl, h⟩, fun ⟨_, ha, h⟩ => Except.ok.inj ha ▸ h⟩

theorem map_eq_ok_iff {f : α → β} {b : β} : x.map f = .ok b ↔ ∃ a, x = .ok a ∧ f a = b := by
  cases x with
  | error e => exact ⟨nofun, nofun⟩
  | ok a => simp [Except.map]

theorem mapError_eq_ok_iff {ε' : Type} {f : ε → ε'} {a : α} :
    x.mapError f = .ok a ↔ x = .ok a := by
  cases x with
  | error e => exact ⟨nofun, nofun⟩
  | ok b => exact ⟨fun h => congrArg _ (Except.ok.inj h), fun h => congrArg _ (Except.ok.inj h)⟩

end Results

namespace StoreM

variable {σ α β : Type} {R : σ → σ → Prop}

/-! ## Running -/

/-- What a step answers in a state, and the state it leaves. -/
def runFrom (x : StoreM σ α) (s : σ) : Except StoreError α × σ := x.run.run s

@[simp] theorem runFrom_pure (a : α) (s : σ) :
    (pure a : StoreM σ α).runFrom s = (.ok a, s) := rfl

@[simp] theorem runFrom_get (s : σ) : (get : StoreM σ σ).runFrom s = (.ok s, s) := rfl

@[simp] theorem runFrom_set (s t : σ) :
    (set t : StoreM σ PUnit).runFrom s = (.ok ⟨⟩, t) := rfl

@[simp] theorem runFrom_modify (f : σ → σ) (s : σ) :
    (modify f : StoreM σ PUnit).runFrom s = (.ok ⟨⟩, f s) := rfl

@[simp] theorem runFrom_throw (e : StoreError) (s : σ) :
    (throw e : StoreM σ α).runFrom s = (.error e, s) := rfl

@[simp] theorem runFrom_ofRule_ok (a : α) (s : σ) :
    (StoreM.ofRule (.ok a) : StoreM σ α).runFrom s = (.ok a, s) := rfl

@[simp] theorem runFrom_ofRule_error (e : DomainError) (s : σ) :
    (StoreM.ofRule (.error e) : StoreM σ α).runFrom s = (.error (.domain e), s) := rfl

/-- A rule answers as it is, and changes nothing. -/
theorem runFrom_ofRule (x : Except DomainError α) (s : σ) :
    (StoreM.ofRule x : StoreM σ α).runFrom s = (x.mapError .domain, s) := rfl

@[simp] theorem runFrom_ofResult (x : Except StoreError α) (s : σ) :
    (StoreM.ofResult x : StoreM σ α).runFrom s = (x, s) := rfl

/-- A step on a part of the state changes only that part. -/
theorem runFrom_onPart {ρ : Type} (part : σ → ρ) (replace : σ → ρ → σ) (x : StoreM ρ α) (s : σ) :
    (onPart part replace x).runFrom s =
      ((x.runFrom (part s)).1, replace s (x.runFrom (part s)).2) := rfl

/-- A sequence runs its second part on what the first one left, unless that failed. -/
theorem runFrom_bind (x : StoreM σ α) (f : α → StoreM σ β) (s : σ) :
    (x >>= f).runFrom s =
      match x.runFrom s with
      | (.ok a, t) => (f a).runFrom t
      | (.error e, t) => (.error e, t) := by
  have h : (x >>= f).runFrom s =
      (ExceptT.bindCont f (x.runFrom s).1 : StateM σ _) (x.runFrom s).2 := rfl
  rw [h]
  rcases x.runFrom s with ⟨_ | _, _⟩ <;> rfl

/-- A sequence succeeds exactly if both of its parts do, one after the other. -/
theorem runFrom_bind_ok_iff {x : StoreM σ α} {f : α → StoreM σ β} {s u : σ} {b : β} :
    (x >>= f).runFrom s = (.ok b, u) ↔
      ∃ a t, x.runFrom s = (.ok a, t) ∧ (f a).runFrom t = (.ok b, u) := by
  rw [runFrom_bind]
  rcases x.runFrom s with ⟨_ | a, t⟩
  · simp
  · constructor
    · intro h
      exact ⟨a, t, rfl, h⟩
    · rintro ⟨_, _, ⟨⟩, h⟩
      exact h

/-- What is computed from the answer of a step is computed from it where the step succeeds. -/
theorem runFrom_bind_pure (x : StoreM σ α) (f : α → β) (s : σ) :
    (x >>= fun a => pure (f a)).runFrom s = ((x.runFrom s).1.map f, (x.runFrom s).2) := by
  rw [runFrom_bind]
  rcases x.runFrom s with ⟨_ | _, _⟩ <;> rfl

/-- To forget the answer of a step makes no difference to what it leaves. -/
theorem runFrom_forget_snd (x : StoreM σ α) (s : σ) :
    ((do let _ ← x : StoreM σ Unit).runFrom s).2 = (x.runFrom s).2 := by
  rw [runFrom_bind]
  rcases x.runFrom s with ⟨_ | _, _⟩ <;> rfl

/-- After `get` the rest of a sequence starts from the state that was read. -/
theorem runFrom_get_bind (f : σ → StoreM σ β) (s : σ) :
    (get >>= f).runFrom s = (f s).runFrom s := rfl

/-- Behind a rule that holds the rest of a sequence starts from the same state. -/
theorem runFrom_ofRule_ok_bind (a : α) (f : α → StoreM σ β) (s : σ) :
    (StoreM.ofRule (.ok a) >>= f).runFrom s = (f a).runFrom s := rfl

/-- A rule succeeds exactly if it holds, and changes nothing. -/
theorem runFrom_ofRule_ok_iff {x : Except DomainError α} {s t : σ} {a : α} :
    (StoreM.ofRule x).runFrom s = (.ok a, t) ↔ x = .ok a ∧ s = t := by
  cases x with
  | error e => simp
  | ok b => simp

/-- A sequence behind a rule succeeds exactly if the rule holds and the rest succeeds. -/
theorem runFrom_ofRule_bind_ok_iff {x : Except DomainError α} {f : α → StoreM σ β} {s u : σ}
    {b : β} :
    (StoreM.ofRule x >>= f).runFrom s = (.ok b, u) ↔
      ∃ a, x = .ok a ∧ (f a).runFrom s = (.ok b, u) := by
  rw [runFrom_bind]
  cases x with
  | error e => simp
  | ok a => simp

/-! ## Moving along a relation -/

/-- The step leaves every state along a chain of `R`, even where it fails. -/
def Moves (R : σ → σ → Prop) (x : StoreM σ α) : Prop :=
  ∀ s, Relation.ReflTransGen R s (x.runFrom s).2

theorem Moves.of_eq {x : StoreM σ α} (h : ∀ s, (x.runFrom s).2 = s) : Moves R x := by
  intro s
  rw [h s]

theorem moves_pure (a : α) : Moves R (pure a : StoreM σ α) := .of_eq fun _ => rfl

theorem moves_get : Moves R (get : StoreM σ σ) := .of_eq fun _ => rfl

theorem moves_ofRule (x : Except DomainError α) : Moves R (StoreM.ofRule x : StoreM σ α) :=
  .of_eq fun _ => rfl

theorem Moves.bind {x : StoreM σ α} {f : α → StoreM σ β} (hx : Moves R x)
    (hf : ∀ a, Moves R (f a)) : Moves R (x >>= f) := by
  intro s
  have h := hx s
  rw [runFrom_bind]
  generalize x.runFrom s = out at h
  rcases out with ⟨_ | a, t⟩
  · exact h
  · exact h.trans (hf a t)

/-- After `get` the rest of a step only has to move the state that was read. -/
theorem moves_get_bind {f : σ → StoreM σ β}
    (h : ∀ s, Relation.ReflTransGen R s ((f s).runFrom s).2) : Moves R (get >>= f) := by
  intro s
  rw [runFrom_get_bind]
  exact h s

end StoreM

end Stockroom
