/-
Stockroom.Proofs.Sql.Locks — what is said while the locks of a reservation are taken.

* `Locked id` is the whole of what is said by then: the business key is read for the identifier,
  the lock of the key is taken, and the row is read under its own lock, with its lines.
* `Unknown id` says that the server has found no row for the identifier; a reservation that was
  locked is known.
* `Saving` are the statements that write a reservation.
-/
import Stockroom.Proofs.Sql.Order

namespace Stockroom

namespace Sql

namespace Reservations

open StoreM

/-! ## What is said -/

/-- What is said until a reservation is locked and loaded. -/
inductive Locked (id : Uuid) : List Exchange → Prop where
  | mk {k r : Row} {ks l rs : List Row} {key : ReservationKey} {i : Uuid} {lines : Reply}
      (read : k.reservationKey = .ok key) :
      Locked id
        [⟨.selectReservationKey id, .rows (k :: ks)⟩, ⟨.advisoryLock key.lockText, .rows l⟩,
         ⟨.selectReservation id true, .rows (r :: rs)⟩, ⟨.selectLines i, lines⟩]

/-- Whether the server has found no row for the identifier. -/
def Unknown (id : Uuid) (xs : List Exchange) : Prop :=
  ∃ x ∈ xs, (x.statement = .selectReservationKey id ∨ x.statement = .selectReservation id true) ∧
    x.reply = .rows []

/-- Whether a statement only reads or locks. -/
def Reading (q : Statement) : Prop := q.isWrite = false ∧ q.isControl = false

/-- Whether a statement writes a reservation or one of its lines. -/
def Saving (q : Statement) : Prop :=
  (∃ r, q = .upsertReservation r) ∨ ∃ id l, q = .upsertLine id l

theorem Locked.known {id : Uuid} {xs : List Exchange} (h : Locked id xs) : ¬ Unknown id xs := by
  cases h with
  | mk read =>
    rintro ⟨x, hx, hq, hr⟩
    simp only [List.mem_cons, List.not_mem_nil, or_false] at hx
    obtain rfl | rfl | rfl | rfl := hx
    · cases hr
    · simp at hq
    · cases hr
    · simp at hq

theorem unknown_append {id : Uuid} {xs ys : List Exchange} :
    Unknown id (xs ++ ys) ↔ Unknown id xs ∨ Unknown id ys := by
  simp only [Unknown, List.mem_append, or_and_right, exists_or]

theorem not_unknown_of_forall {id : Uuid} {xs : List Exchange}
    (h : ∀ x ∈ xs, x.statement.isControl = true ∨ Saving x.statement) : ¬ Unknown id xs := by
  rintro ⟨x, hx, hq, -⟩
  obtain hc | ⟨r, hs⟩ | ⟨i, l, hs⟩ := h x hx
  · obtain hq | hq := hq <;> simp [hq, Statement.isControl] at hc
  · simp [hs] at hq
  · simp [hs] at hq

section Steps

variable {u : Session}

/-! ## Taking the locks -/

/-- The lines are asked for, unless the row cannot be read. -/
theorem says_ofRow_lines (row : Row) :
    Says u (ofRow row) (fun xs out =>
      (xs = [] ∧ ∃ e, out = .error e) ∨ ∃ i lines, xs = [⟨.selectLines i, lines⟩]) := by
  unfold ofRow
  refine says_ofResult_bind (fun e _ => .inl ⟨rfl, e, rfl⟩) fun ⟨id, status, trace⟩ _ => ?_
  refine says_ofResult_bind (fun e _ => .inl ⟨rfl, e, rfl⟩) fun ⟨key, state⟩ _ => ?_
  refine (asks_linesOf id).bind_talk (fun past e _ => .inr ⟨id, _, rfl⟩) fun past lines _ => ?_
  exact says_of_silent (fun s => runFrom_ofResult _ s) (.inr ⟨id, _, rfl⟩)

theorem sends_ofRow (row : Row) : Says u (ofRow row) (Sends Reading) := by
  refine (says_ofRow_lines row).imp fun xs out h => ?_
  obtain ⟨rfl, -⟩ | ⟨i, lines, rfl⟩ := h
  · exact sends_nil
  · intro x hx
    obtain rfl := List.mem_singleton.mp hx
    exact ⟨rfl, rfl⟩

/-- Nothing is written on the way to the locks. -/
theorem sends_lockReservation (id : Uuid) :
    Says u (lockReservation id) (Sends Reading) := by
  refine ((asks_row? _ _).sends ⟨rfl, rfl⟩).sends_bind fun found => ?_
  cases found with
  | none => exact says_pure sends_nil
  | some k =>
    refine says_ofResult_bind (fun _ _ => sends_nil) fun key _ => ?_
    refine ((asks_lockKey key).sends ⟨rfl, rfl⟩).sends_bind fun _ => ?_
    refine ((asks_row? _ _).sends ⟨rfl, rfl⟩).sends_bind fun found => ?_
    cases found with
    | none => exact says_pure sends_nil
    | some r => exact (sends_ofRow r).sends_bind fun _ => says_pure sends_nil

/-- A reservation is given out only behind its locks. -/
theorem locked_lockReservation (id : Uuid) :
    Says u (lockReservation id) (fun xs out => ∀ r, out = .ok (some r) → Locked id xs) := by
  refine (asks_row? _ _).bind_talk (fun _ _ _ _ h => nomatch h) fun past found hfound => ?_
  obtain ⟨rs, hrs, ⟨-, rfl⟩ | ⟨k, k', hhead, hread, rfl⟩⟩ := Reply.first?_eq_ok hfound
  · exact says_pure fun _ h => nomatch h
  obtain ⟨ks, rfl⟩ := List.head?_eq_some_iff.mp hhead
  cases hread
  rw [hrs]
  refine says_ofResult_bind (fun _ _ _ h => nomatch h) fun key hkey => ?_
  refine (asks_lockKey key).bind_talk (fun _ _ _ _ h => nomatch h) fun past' _ hlock => ?_
  obtain ⟨l, hl, -⟩ := map_eq_ok_iff.mp hlock
  rw [Reply.found_eq_ok_iff.mp hl]
  refine (asks_row? _ _).bind_talk (fun _ _ _ _ h => nomatch h) fun past'' found hfound => ?_
  obtain ⟨rs, hrs, ⟨-, rfl⟩ | ⟨r, r', hhead, hread, rfl⟩⟩ := Reply.first?_eq_ok hfound
  · exact says_pure fun _ h => nomatch h
  obtain ⟨rs', rfl⟩ := List.head?_eq_some_iff.mp hhead
  cases hread
  rw [hrs]
  refine (says_ofRow_lines r).bind (fun _ _ _ _ h => nomatch h) fun xs a => ?_
  rintro (⟨-, e, h⟩ | ⟨i, lines, rfl⟩)
  · cases h
  · exact says_pure fun _ _ => .mk hkey

theorem says_lockReservation (id : Uuid) :
    Says u (lockReservation id) (fun xs out =>
      Sends Reading xs out ∧ ∀ r, out = .ok (some r) → Locked id xs) :=
  (sends_lockReservation id).and (locked_lockReservation id)

/-! ## Writing -/

/-- By induction on the lines. -/
theorem says_saveLines (id : Uuid) (ls : List ReservationLine) :
    Says u (saveLines id ls) (Sends Saving) := by
  induction ls with
  | nil => exact says_pure sends_nil
  | cons l rest ih =>
    exact ((asks_execute _ (.upsertLine id l)).sends (.inr ⟨id, l, rfl⟩)).sends_bind fun _ => ih

theorem says_save (r : Reservation) : Says u (save r) (Sends Saving) :=
  ((asks_execute _ (.upsertReservation r)).sends (.inl ⟨r, rfl⟩)).sends_bind fun _ =>
    says_saveLines r.id r.lines

end Steps

end Reservations

end Sql

end Stockroom
