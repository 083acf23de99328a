/-
Stockroom.Proofs.Reservation.Course — what becomes of one reservation, whatever is asked of it.

* `ReservationCall` is a call of a single reservation, and `Reservation.after` the reservation after
  it: a call that is refused leaves it as it is, any other one is a turn (`after_eq_or_turn`).
* `Reservation.course` lists all that a reservation is over a number of calls. What holds of it when
  it is opened, and is kept by its turns, holds of all of these (`course_induction`).
* `Reservation.Kept` says that the lines are in order, and used up exactly if the reservation is
  consumed. `Opened` is every reservation that calls lead to from one that was just opened.
* `reservation_course`: the course of a reservation goes through states in which it is open, and
  then stays at one in which it is over.
-/
import Stockroom.Proofs.Reservation.Lifecycle
import Stockroom.Proofs.Reservation.Lines

namespace Stockroom

/-! ## Calls -/

/-- A call of a single reservation. -/
inductive ReservationCall where
  | refresh (n : NewReservation) (now : Instant)
  | consume (now : Instant)
  | cancel (now : Instant)
  | expire (now : Instant)
  deriving DecidableEq

namespace Reservation

variable {r q : Reservation} {calls : List ReservationCall}

/-- The reservation after a call; one that is refused leaves it as it is. -/
def after (r : Reservation) : ReservationCall → Reservation
  | .refresh n now =>
    match r.refresh n now with
    | .ok q => q
    | .error _ => r
  | .consume now =>
    match r.consume now with
    | .ok (q, _) => q
    | .error _ => r
  | .cancel now =>
    match r.cancel now with
    | .ok q => q
    | .error _ => r
  | .expire now => (r.expire now).1

theorem after_eq_or_turn (r : Reservation) (c : ReservationCall) :
    r.after c = r ∨ r.Turn (r.after c) := by
  cases c with
  | refresh n now =>
    simp only [after]
    cases h : r.refresh n now with
    | error e => exact .inl rfl
    | ok q => exact .inr (.refreshed h)
  | consume now =>
    simp only [after]
    cases h : r.consume now with
    | error e => exact .inl rfl
    | ok out => exact .inr (.consumed h)
  | cancel now =>
    simp only [after]
    cases h : r.cancel now with
    | error e => exact .inl rfl
    | ok q => exact .inr (.cancelled h)
  | expire now => exact .inr (.ended r now)

/-- All that a reservation is over a number of calls, beginning with what it is before. -/
def course (r : Reservation) : List ReservationCall → List Reservation
  | [] => [r]
  | c :: rest => r :: (r.after c).course rest

/-- What turns keep holds over the whole course. -/
theorem course_induction {P : Reservation → Prop}
    (turn : ∀ {r q : Reservation}, r.Turn q → P r → P q) (h : P r)
    (calls : List ReservationCall) : ∀ q ∈ r.course calls, P q := by
  induction calls generalizing r with
  | nil =>
    intro q hq
    rwa [List.mem_singleton.mp hq]
  | cons c rest ih =>
    refine List.forall_mem_cons.mpr ⟨h, ih ?_⟩
    rcases r.after_eq_or_turn c with hsame | hturn
    · rwa [hsame]
    · exact turn hturn h

theorem Turn.createdAt_eq (h : r.Turn q) : q.createdAt = r.createdAt := by
  cases h with
  | refreshed allowed =>
    obtain ⟨-, -, rfl⟩ := refresh_eq_ok_iff.mp allowed
    rfl
  | consumed allowed =>
    rcases consume_eq_ok_iff.mp allowed with ⟨-, rfl, -⟩ | ⟨-, -, rfl⟩
    · rfl
    · rfl
  | cancelled allowed =>
    obtain ⟨-, rfl⟩ := cancel_eq_ok_iff.mp allowed
    rfl
  | ended now =>
    unfold expire
    split <;> rfl

/-! ## Lines -/

/-- Whether the lines are in order: their numbers ascend from 1 on, something is reserved on each,
and all of it has been consumed if the reservation is consumed, none of it otherwise. -/
structure Kept (r : Reservation) : Prop where
  ascending : r.lines.Pairwise (fun a b => a.line < b.line)
  reserved : ∀ l ∈ r.lines, 1 ≤ l.line ∧ 0 < l.quantity
  consumed : ∀ l ∈ r.lines, l.consumed = if r.status = .consumed then l.quantity else 0

theorem Kept.unused (h : r.Kept) (hstatus : r.status ≠ .consumed) : Unused r.lines :=
  .of_ascending h.ascending fun l hl => (h.consumed l hl).trans (if_neg hstatus)

/-- Never more is consumed than reserved. -/
theorem Kept.within (h : r.Kept) {l : ReservationLine} (hl : l ∈ r.lines) :
    0 ≤ l.consumed ∧ l.consumed ≤ l.quantity := by
  have hpos := (h.reserved l hl).2
  rw [h.consumed l hl]
  split <;> omega

/-- Lines that are in order stay so when requested lines are merged in. -/
theorem kept_of_merged {ns : List NewReservationLine} {ls : List ReservationLine}
    (hls : Unused ls) (hreserved : ∀ l ∈ ls, 1 ≤ l.line ∧ 0 < l.quantity)
    (hns : WellFormedLines ns) (hlines : r.lines = upsertLines ns ls)
    (hopen : r.status = .open) : r.Kept where
  ascending := hlines ▸ pairwise_upsertLines hls hns
  reserved l hl := by
    rw [hlines] at hl
    rcases (mem_upsertLines_iff hls hns).mp hl with hl | ⟨hl, -⟩
    · obtain ⟨n, hn, rfl⟩ := List.mem_map.mp hl
      exact hns.each n hn
    · exact hreserved l hl
  consumed l hl := by
    rw [hlines] at hl
    rw [hopen]
    exact (unused_upsertLines hls hns).unused l hl

theorem kept_of_start {id : Uuid} {n : NewReservation} {now : Instant}
    (h : Reservation.start id n now = .ok r) : r.Kept := by
  obtain ⟨hcheck, rfl⟩ := start_eq_ok_iff.mp h
  obtain ⟨-, -, hlines⟩ := NewReservation.check_eq_ok_iff.mp hcheck
  exact kept_of_merged unused_nil (by simp) hlines rfl rfl

theorem Turn.kept (h : r.Turn q) (hr : r.Kept) : q.Kept := by
  cases h with
  | refreshed allowed =>
    obtain ⟨hcheck, hopen, rfl⟩ := refresh_eq_ok_iff.mp allowed
    obtain ⟨-, -, hlines⟩ := NewReservation.check_eq_ok_iff.mp hcheck
    exact kept_of_merged (hr.unused (by rw [hopen]; decide)) hr.reserved hlines rfl hopen
  | consumed allowed =>
    rcases consume_eq_ok_iff.mp allowed with ⟨-, rfl, -⟩ | ⟨-, -, rfl⟩
    · exact hr
    · -- the lines keep their numbers and quantities
      refine ⟨List.pairwise_map.mpr hr.ascending, ?_, ?_⟩
      · exact List.forall_mem_map.mpr hr.reserved
      · exact List.forall_mem_map.mpr fun l _ => rfl
  | cancelled allowed =>
    obtain ⟨hopen, rfl⟩ := cancel_eq_ok_iff.mp allowed
    exact ⟨hr.ascending, hr.reserved, (hr.unused (by rw [hopen]; decide)).unused⟩
  | ended now =>
    by_cases hopen : r.status = .open
    · rw [expire_of_open hopen]
      exact ⟨hr.ascending, hr.reserved, (hr.unused (by rw [hopen]; decide)).unused⟩
    · rw [expire_of_not_open hopen]
      exact hr

/-- Whether calls lead to the reservation from one that was just opened. -/
def Opened (q : Reservation) : Prop :=
  ∃ id n now r calls, Reservation.start id n now = .ok r ∧ q ∈ r.course calls

theorem Opened.of_start {id : Uuid} {n : NewReservation} {now : Instant}
    (h : Reservation.start id n now = .ok r) : r.Opened :=
  ⟨id, n, now, r, [], h, List.mem_singleton.mpr rfl⟩

theorem Opened.kept (h : q.Opened) : q.Kept := by
  obtain ⟨id, n, now, r, calls, hstart, hq⟩ := h
  exact course_induction Turn.kept (kept_of_start hstart) calls q hq

/-! ## Status -/

/-- A reservation that is over stays as it is. -/
theorem eq_of_mem_course (hover : r.status.isTerminal = true) :
    ∀ q ∈ r.course calls, q = r :=
  course_induction (P := fun q => q = r) (fun turn h => by
    subst h
    exact turn.eq_of_isTerminal hover) rfl calls

/-- An open reservation stays open, or is over at one time and stays as it is then. -/
theorem course_of_open (hopen : r.status = .open) :
    ∃ later ended, r.course calls = (r :: later) ++ ended ∧
      (∀ q ∈ r :: later, q.status = .open) ∧ (∀ q ∈ ended, q.status.isTerminal = true) ∧
      ∀ p ∈ ended, ∀ q ∈ ended, p = q := by
  induction calls generalizing r with
  | nil => exact ⟨[], [], rfl, by simpa using hopen, by simp, by simp⟩
  | cons c rest ih =>
    cases hnext : (r.after c).status.isTerminal with
    | false =>
      obtain ⟨later, ended, hcourse, hlater, hover, hsame⟩ := ih (isTerminal_eq_false_iff.mp hnext)
      refine ⟨r.after c :: later, ended, ?_, List.forall_mem_cons.mpr ⟨hopen, hlater⟩, hover, hsame⟩
      rw [course, hcourse]
      rfl
    | true =>
      have hall : ∀ q ∈ (r.after c).course rest, q = r.after c := eq_of_mem_course hnext
      refine ⟨[], (r.after c).course rest, rfl, by simpa using hopen, fun q hq => ?_,
        fun p hp q hq => (hall p hp).trans (hall q hq).symm⟩
      rw [hall q hq]
      exact hnext

end Reservation

/-! ## The whole course -/

/-- Whatever is asked of a reservation that was opened, and whether it is granted or refused: its
lines ascend by numbers from 1 on, something is reserved on each, and all of that is consumed if the
reservation is, and nothing otherwise. It keeps its identifier, its business key and the time of its
creation. It is open at first, and once it is not, it is over and never changes again. -/
theorem reservation_course {id : Uuid} {n : NewReservation} {now : Instant} {r : Reservation}
    (hstart : Reservation.start id n now = .ok r) (calls : List ReservationCall) :
    (∀ q ∈ r.course calls,
      q.lines.Pairwise (fun a b => a.line < b.line) ∧
      (∀ l ∈ q.lines, 1 ≤ l.line ∧ 0 < l.quantity ∧ 0 ≤ l.consumed ∧ l.consumed ≤ l.quantity ∧
        l.consumed = if q.status = .consumed then l.quantity else 0) ∧
      q.id = id ∧ q.key = n.key ∧ q.createdAt = now) ∧
    ∃ later ended, r.course calls = (r :: later) ++ ended ∧
      (∀ q ∈ r :: later, q.status = .open) ∧ (∀ q ∈ ended, q.status.isTerminal = true) ∧
      ∀ p ∈ ended, ∀ q ∈ ended, p = q := by
  have hkept : ∀ q ∈ r.course calls, q.Kept :=
    Reservation.course_induction Reservation.Turn.kept (Reservation.kept_of_start hstart) calls
  obtain ⟨-, rfl⟩ := Reservation.start_eq_ok_iff.mp hstart
  refine ⟨fun q hq => ⟨(hkept q hq).ascending, fun l hl => ?lines, ?same⟩,
    Reservation.course_of_open rfl⟩
  case lines =>
    obtain ⟨hline, hquantity⟩ := (hkept q hq).reserved l hl
    obtain ⟨hlow, hhigh⟩ := (hkept q hq).within hl
    exact ⟨hline, hquantity, hlow, hhigh, (hkept q hq).consumed l hl⟩
  case same =>
    revert q
    refine Reservation.course_induction ?_ ⟨rfl, rfl, rfl⟩ calls
    rintro r q turn ⟨hid, hkey, hcreated⟩
    exact ⟨turn.id_eq.trans hid, turn.key_eq.trans hkey, turn.createdAt_eq.trans hcreated⟩

namespace Sample

/-- The first promise, as it is opened. -/
def opened : Reservation where
  id := .ofNat 1
  key := firstPromise.key
  status := .open
  trace := ⟨"SO-1"⟩
  lines := [⟨1, ⟨10⟩, 2, 0⟩]
  createdAt := .epoch
  updatedAt := .epoch
  expireAt := firstPromise.expireAt

theorem started : Reservation.start (.ofNat 1) firstPromise .epoch = .ok opened := by rfl

/-- Three pieces on the line there is, and five of another item before it in the request. -/
def widening : NewReservation :=
  { firstPromise with lines := [⟨4, ⟨11⟩, 5⟩, ⟨1, ⟨10⟩, 3⟩] }

/-- The promise is asked for with no pieces, widened, and consumed; then everything is too late. -/
def spending (now : Instant) : List ReservationCall :=
  [.refresh { firstPromise with lines := [⟨1, ⟨10⟩, 0⟩] } now, .refresh widening now,
    .consume now, .cancel now, .refresh widening now, .expire now]

theorem course_spending (now : Instant) :
    (opened.course (spending now)).map (fun q => (q.status, q.lines)) =
    List.replicate 2 (.open, [⟨1, ⟨10⟩, 2, 0⟩]) ++
      (.open, [⟨1, ⟨10⟩, 3, 0⟩, ⟨4, ⟨11⟩, 5, 0⟩]) ::
        List.replicate 4 (.consumed, [⟨1, ⟨10⟩, 3, 3⟩, ⟨4, ⟨11⟩, 5, 5⟩]) := by
  rfl

end Sample

open Sample in
/-- The first promise is consumed as it was widened, and the calls that come too late leave it
alone. -/
theorem reservation_course_spent :
    Reservation.start (.ofNat 1) firstPromise .epoch = .ok opened ∧
    (opened.course (spending (minute 2))).map (·.status) =
      [.open, .open, .open, .consumed, .consumed, .consumed, .consumed] ∧
    (∀ q ∈ opened.course (spending (minute 2)),
      q.lines.Pairwise (fun a b => a.line < b.line) ∧
      (∀ l ∈ q.lines, 1 ≤ l.line ∧ 0 < l.quantity ∧ 0 ≤ l.consumed ∧ l.consumed ≤ l.quantity ∧
        l.consumed = if q.status = .consumed then l.quantity else 0) ∧
      q.id = .ofNat 1 ∧ q.key = firstPromise.key ∧ q.createdAt = .epoch) ∧
    ∃ later ended, opened.course (spending (minute 2)) = (opened :: later) ++ ended ∧
      (∀ q ∈ opened :: later, q.status = .open) ∧ (∀ q ∈ ended, q.status.isTerminal = true) ∧
      ∀ p ∈ ended, ∀ q ∈ ended, p = q :=
  ⟨started, congrArg (List.map Prod.fst) (course_spending (minute 2)),
    reservation_course started (spending (minute 2))⟩

end Stockroom
