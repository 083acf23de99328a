/-
Stockroom.Proofs.Reservation.Merging — to refresh an open reservation is to take a union of lines by
their numbers, in which the requested lines come first.

* `Merges ls ns merged`: the lines `merged` are the union of the lines `ls` and the requested lines
  `ns`, which override them.
* Merging does not depend on the order of the request (`upsertLines_of_perm`), and a second time it
  does nothing (`upsertLines_self`).
* `overriding` is the union of two lists of requested lines. To merge in one list and then another
  is to merge in their union (`upsertLines_overriding`), and the lines of a reservation are
  themselves what it takes to ask for them (`upsertLines_asked`).
* `refresh_merges_lines` says all this of a reservation, whatever it has been through.

Lines that ascend are determined by what is among them, so that every law is read off
`mem_upsertLines_iff`.
-/
import Stockroom.Proofs.Reservation.Course

namespace Stockroom

/-! ## Unions of lines -/

/-- The lines `merged` are those of `ls` and of the request `ns`; where both have a line of some
number, it is the requested one. -/
structure Merges (ls : List ReservationLine) (ns : List NewReservationLine)
    (merged : List ReservationLine) : Prop where
  ascending : merged.Pairwise (fun a b => a.line < b.line)
  numbers : ∀ k, k ∈ merged.map (·.line) ↔ k ∈ ls.map (·.line) ∨ k ∈ ns.map (·.line)
  submitted : ∀ n ∈ ns, n.reserved ∈ merged
  kept : ∀ l ∈ ls, l.line ∉ ns.map (·.line) → l ∈ merged

/-- The union of two lists of requested lines, of which the first overrides the second. -/
def overriding (ns ms : List NewReservationLine) : List NewReservationLine :=
  ns ++ ms.filter fun m => m.line ∉ ns.map (·.line)

/-- What it takes to ask for a line. -/
def ReservationLine.asked (l : ReservationLine) : NewReservationLine := ⟨l.line, l.item, l.quantity⟩

theorem ReservationLine.reserved_asked {l : ReservationLine} (h : l.consumed = 0) :
    l.asked.reserved = l := by
  cases l
  cases h
  rfl

section Overriding

variable {ns ms : List NewReservationLine}

theorem mem_overriding_iff {n : NewReservationLine} :
    n ∈ overriding ns ms ↔ n ∈ ns ∨ n ∈ ms ∧ n.line ∉ ns.map (·.line) := by
  rw [overriding, List.mem_append, List.mem_filter, decide_eq_true_iff]

theorem overriding_self (ns : List NewReservationLine) : overriding ns ns = ns := by
  have hnone : ns.filter (fun n => n.line ∉ ns.map (·.line)) = [] :=
    List.filter_eq_nil_iff.mpr fun n hn => by simpa using ⟨n, hn, rfl⟩
  rw [overriding, hnone, List.append_nil]

theorem line_mem_overriding_iff {k : Int} :
    k ∈ (overriding ns ms).map (·.line) ↔ k ∈ ns.map (·.line) ∨ k ∈ ms.map (·.line) := by
  constructor
  · intro hk
    obtain ⟨n, hn, rfl⟩ := List.mem_map.mp hk
    rcases mem_overriding_iff.mp hn with hn | ⟨hn, -⟩
    · exact .inl (List.mem_map_of_mem hn)
    · exact .inr (List.mem_map_of_mem hn)
  · intro hk
    by_cases hnew : k ∈ ns.map (·.line)
    · obtain ⟨n, hn, rfl⟩ := List.mem_map.mp hnew
      exact List.mem_map_of_mem (mem_overriding_iff.mpr (.inl hn))
    · obtain ⟨m, hm, rfl⟩ := List.mem_map.mp (hk.resolve_left hnew)
      exact List.mem_map_of_mem (mem_overriding_iff.mpr (.inr ⟨hm, hnew⟩))

theorem reserved_mem_overriding_iff {l : ReservationLine} :
    l ∈ (overriding ns ms).map (·.reserved) ↔
      l ∈ ns.map (·.reserved) ∨ l ∈ ms.map (·.reserved) ∧ l.line ∉ ns.map (·.line) := by
  constructor
  · intro hl
    obtain ⟨n, hn, rfl⟩ := List.mem_map.mp hl
    rcases mem_overriding_iff.mp hn with hn | ⟨hn, hnot⟩
    · exact .inl (List.mem_map_of_mem hn)
    · exact .inr ⟨List.mem_map_of_mem hn, hnot⟩
  · rintro (hl | ⟨hl, hnot⟩)
    · obtain ⟨n, hn, rfl⟩ := List.mem_map.mp hl
      exact List.mem_map_of_mem (mem_overriding_iff.mpr (.inl hn))
    · obtain ⟨m, hm, rfl⟩ := List.mem_map.mp hl
      exact List.mem_map_of_mem (mem_overriding_iff.mpr (.inr ⟨hm, hnot⟩))

theorem WellFormedLines.overriding (hns : WellFormedLines ns) (hms : WellFormedLines ms) :
    WellFormedLines (overriding ns ms) where
  each n hn := (mem_overriding_iff.mp hn).elim (hns.each n) fun hn => hms.each n hn.1
  distinct := by
    rw [Stockroom.overriding, List.map_append]
    refine hns.distinct.append (hms.distinct.sublist (List.filter_sublist.map _)) ?_
    intro k hk hkept
    obtain ⟨m, hm, rfl⟩ := List.mem_map.mp hkept
    exact of_decide_eq_true (List.mem_filter.mp hm).2 hk

end Overriding

/-! ## Laws of merging -/

section Laws

variable {ns ms : List NewReservationLine} {ls : List ReservationLine}

theorem merges_upsertLines (h : Unused ls) (hns : WellFormedLines ns) :
    Merges ls ns (upsertLines ns ls) where
  ascending := pairwise_upsertLines h hns
  submitted n hn := (mem_upsertLines_iff h hns).mpr (.inl (List.mem_map_of_mem hn))
  kept l hl hnot := (mem_upsertLines_iff h hns).mpr (.inr ⟨hl, hnot⟩)
  numbers k := by
    constructor
    · intro hk
      obtain ⟨l, hl, rfl⟩ := List.mem_map.mp hk
      rcases (mem_upsertLines_iff h hns).mp hl with hl | ⟨hl, -⟩
      · obtain ⟨n, hn, rfl⟩ := List.mem_map.mp hl
        exact .inr (List.mem_map.mpr ⟨n, hn, rfl⟩)
      · exact .inl (List.mem_map_of_mem hl)
    · intro hk
      by_cases hnew : k ∈ ns.map (·.line)
      · obtain ⟨n, hn, rfl⟩ := List.mem_map.mp hnew
        exact List.mem_map.mpr
          ⟨n.reserved, (mem_upsertLines_iff h hns).mpr (.inl (List.mem_map_of_mem hn)), rfl⟩
      · obtain ⟨l, hl, rfl⟩ := List.mem_map.mp (hk.resolve_right hnew)
        exact List.mem_map_of_mem ((mem_upsertLines_iff h hns).mpr (.inr ⟨hl, hnew⟩))

theorem upsertLines_of_perm (h : Unused ls) (hns : WellFormedLines ns) (hperm : ms.Perm ns) :
    upsertLines ms ls = upsertLines ns ls := by
  have hms : WellFormedLines ms := hns.perm hperm
  refine eq_of_ascending (pairwise_upsertLines h hms) (pairwise_upsertLines h hns) fun l => ?_
  rw [mem_upsertLines_iff h hms, mem_upsertLines_iff h hns, (hperm.map _).mem_iff,
    (hperm.map _).mem_iff]

/-- To merge in one list of lines and then another is to merge in their union. -/
theorem upsertLines_overriding (h : Unused ls) (hns : WellFormedLines ns)
    (hms : WellFormedLines ms) :
    upsertLines (overriding ns ms) ls = upsertLines ns (upsertLines ms ls) := by
  have hmid : Unused (upsertLines ms ls) := unused_upsertLines h hms
  have hboth : WellFormedLines (overriding ns ms) := hns.overriding hms
  refine eq_of_ascending (pairwise_upsertLines h hboth) (pairwise_upsertLines hmid hns)
    fun l => ?_
  rw [mem_upsertLines_iff h hboth, reserved_mem_overriding_iff, line_mem_overriding_iff,
    mem_upsertLines_iff hmid hns, mem_upsertLines_iff h hms, or_and_right, or_assoc, not_or,
    and_assoc, and_comm (a := l.line ∉ ns.map (·.line))]

/-- Requested lines that have been merged in are there already. -/
theorem upsertLines_self (h : Unused ls) (hns : WellFormedLines ns) :
    upsertLines ns (upsertLines ns ls) = upsertLines ns ls := by
  rw [← upsertLines_overriding h hns hns, overriding_self]

/-- To ask for the lines there are is to have them. -/
theorem upsertLines_asked (hascending : ls.Pairwise (fun a b => a.line < b.line))
    (hunused : ∀ l ∈ ls, l.consumed = 0) (hasked : WellFormedLines (ls.map (·.asked))) :
    upsertLines (ls.map (·.asked)) [] = ls := by
  refine eq_of_ascending (pairwise_upsertLines unused_nil hasked) hascending fun l => ?_
  have hsame : (ls.map (·.asked)).map (·.reserved) = ls := by
    rw [List.map_map]
    exact (List.map_congr_left fun l hl => ReservationLine.reserved_asked (hunused l hl)).trans
      (List.map_id ls)
  rw [mem_upsertLines_iff unused_nil hasked, hsame]
  exact or_iff_left fun hl => List.not_mem_nil hl.1

end Laws

namespace Reservation

variable {r : Reservation}

theorem Kept.wellFormed_asked (h : r.Kept) : WellFormedLines (r.lines.map (·.asked)) where
  each := List.forall_mem_map.mpr h.reserved
  distinct := by
    rw [List.map_map]
    exact List.pairwise_map.mpr (h.ascending.imp fun hlt => Int.ne_of_lt hlt)

end Reservation

/-! ## Requests for an open reservation -/

/-- Every well-formed request refreshes an open reservation, and merges its lines in. The order of
the requested lines does not matter, the same request a second time changes nothing, and two
requests leave the lines that a reservation would have been opened with by the union of both and
of the lines there were, the later ones overriding the earlier ones. -/
theorem refresh_merges_lines {r : Reservation} (hr : r.Opened) (hopen : r.status = .open)
    {n : NewReservation} (hn : n.check = .ok ()) (now : Instant) :
    ∃ q, r.refresh n now = .ok q ∧
      Merges r.lines n.lines q.lines ∧
      (∀ lines, lines.Perm n.lines → r.refresh { n with lines } now = .ok q) ∧
      q.refresh n now = .ok q ∧
      ∀ m later, m.check = .ok () → ∃ q', q.refresh m later = .ok q' ∧
        ∀ lines, lines.Perm (overriding m.lines (overriding n.lines (r.lines.map (·.asked)))) →
          ∀ id t, ∃ o, Reservation.start id { m with lines } t = .ok o ∧ o.lines = q'.lines := by
  obtain ⟨-, -, hlines⟩ := NewReservation.check_eq_ok_iff.mp hn
  have hkept : r.Kept := hr.kept
  have hunused : Unused r.lines := hkept.unused (by rw [hopen]; decide)
  refine ⟨_, Reservation.refresh_eq_ok_iff.mpr ⟨hn, hopen, rfl⟩, merges_upsertLines hunused hlines,
    fun lines hperm => ?order, ?again, fun m later hm => ?later⟩
  case order =>
    have hcheck := NewReservation.check_of_lines hn (hlines.perm hperm)
    refine Reservation.refresh_eq_ok_iff.mpr ⟨hcheck, hopen, ?_⟩
    rw [upsertLines_of_perm hunused hlines hperm]
    rfl
  case again =>
    refine Reservation.refresh_eq_ok_iff.mpr ⟨hn, hopen, ?_⟩
    rw [upsertLines_self hunused hlines]
  case later =>
    obtain ⟨-, -, hlater⟩ := NewReservation.check_eq_ok_iff.mp hm
    refine ⟨_, Reservation.refresh_eq_ok_iff.mpr ⟨hm, hopen, rfl⟩, fun lines hperm id t => ?_⟩
    have hasked := hkept.wellFormed_asked
    have hfirst := hlines.overriding hasked
    have hboth := hlater.overriding hfirst
    refine ⟨_, Reservation.start_eq_ok_iff.mpr
      ⟨NewReservation.check_of_lines hm (hboth.perm hperm), rfl⟩, ?_⟩
    calc upsertLines lines []
        = upsertLines (overriding m.lines (overriding n.lines (r.lines.map (·.asked)))) [] :=
          upsertLines_of_perm unused_nil hboth hperm
      _ = upsertLines m.lines (upsertLines (overriding n.lines (r.lines.map (·.asked))) []) :=
          upsertLines_overriding unused_nil hlater hfirst
      _ = upsertLines m.lines (upsertLines n.lines (upsertLines (r.lines.map (·.asked)) [])) := by
          rw [upsertLines_overriding unused_nil hlines hasked]
      _ = upsertLines m.lines (upsertLines n.lines r.lines) := by
          rw [upsertLines_asked hkept.ascending hunused.unused hasked]

namespace Sample

theorem widening_wellFormed : widening.check = .ok () := by rfl

/-- One piece of a third item in place of the five of the second. -/
def narrowing : NewReservation := { firstPromise with lines := [⟨4, ⟨12⟩, 1⟩] }

theorem narrowing_wellFormed : narrowing.check = .ok () := by rfl

end Sample

open Sample in
/-- The first promise is widened and then narrowed. It has the lines that it would have had if just
what is left of the two requests had been asked for, in either order. -/
theorem refresh_merges_lines_narrowed :
    opened.Opened ∧ opened.status = .open ∧
    widening.check = .ok () ∧ narrowing.check = .ok () ∧
    ∃ q, opened.refresh widening (minute 2) = .ok q ∧
      q.lines = [⟨1, ⟨10⟩, 3, 0⟩, ⟨4, ⟨11⟩, 5, 0⟩] ∧
      Merges opened.lines widening.lines q.lines ∧
      opened.refresh { widening with lines := [⟨1, ⟨10⟩, 3⟩, ⟨4, ⟨11⟩, 5⟩] } (minute 2) = .ok q ∧
      q.refresh widening (minute 2) = .ok q ∧
      ∃ q', q.refresh narrowing (minute 3) = .ok q' ∧
        ∃ o, Reservation.start (.ofNat 2)
            { narrowing with lines := [⟨1, ⟨10⟩, 3⟩, ⟨4, ⟨12⟩, 1⟩] } (minute 4) = .ok o ∧
          o.lines = q'.lines := by
  obtain ⟨q, hq, hmerges, horder, hagain, hlater⟩ :=
    refresh_merges_lines (.of_start started) rfl widening_wellFormed (minute 2)
  obtain ⟨q', hq', hunion⟩ := hlater narrowing (minute 3) narrowing_wellFormed
  have hlines : q.lines = [⟨1, ⟨10⟩, 3, 0⟩, ⟨4, ⟨11⟩, 5, 0⟩] := by
    obtain ⟨-, -, rfl⟩ := Reservation.refresh_eq_ok_iff.mp hq
    rfl
  exact ⟨.of_start started, rfl, widening_wellFormed, narrowing_wellFormed, q, hq, hlines, hmerges,
    horder _ (.swap _ _ _), hagain, q', hq', hunion _ (.swap _ _ _) (.ofNat 2) (minute 4)⟩

end Stockroom
