/-
Stockroom.Proofs.Reservation.Lines — requested lines, and the lines they are merged into.

* `NewReservation.check_eq_ok_iff` says which requests are well formed.
* `mem_upsertLines_iff` says which lines there are once requested lines have been merged in, and
  `pairwise_upsertLines` that these ascend by their numbers. Ascending lines are determined by
  what is among them, so that nothing else needs to be known about merging.

All this is about lines of which nothing has been consumed (`Unused`): only an open reservation is
refreshed, and it has no others.
-/
import Mathlib.Data.List.Nodup
import Stockroom.Reservation.Basic

namespace Stockroom

/-! ## Requested lines -/

/-- Whether requested lines are well formed: numbers start from 1 and are distinct, quantities are
positive. -/
structure WellFormedLines (ns : List NewReservationLine) : Prop where
  each : ∀ n ∈ ns, 1 ≤ n.line ∧ 0 < n.quantity
  distinct : (ns.map (·.line)).Nodup

theorem wellFormedLines_cons {n : NewReservationLine} {rest : List NewReservationLine} :
    WellFormedLines (n :: rest) ↔
      1 ≤ n.line ∧ 0 < n.quantity ∧ n.line ∉ rest.map (·.line) ∧ WellFormedLines rest := by
  constructor
  · rintro ⟨heach, hdistinct⟩
    obtain ⟨⟨hline, hquantity⟩, hrest⟩ := List.forall_mem_cons.mp heach
    obtain ⟨hfirst, hdistinct⟩ := List.nodup_cons.mp hdistinct
    exact ⟨hline, hquantity, hfirst, hrest, hdistinct⟩
  · rintro ⟨hline, hquantity, hfirst, hrest, hdistinct⟩
    exact ⟨List.forall_mem_cons.mpr ⟨⟨hline, hquantity⟩, hrest⟩,
      List.nodup_cons.mpr ⟨hfirst, hdistinct⟩⟩

namespace NewReservation

theorem checkLines_eq_ok_iff {seen : List Int} {ns : List NewReservationLine} :
    checkLines seen ns = .ok () ↔ WellFormedLines ns ∧ ∀ n ∈ ns, n.line ∉ seen := by
  induction ns generalizing seen with
  | nil => exact iff_of_true rfl ⟨⟨nofun, .nil⟩, nofun⟩
  | cons n rest ih =>
    rw [wellFormedLines_cons]
    unfold checkLines
    by_cases hline : n.line < 1
    · rw [if_pos hline]
      exact iff_of_false nofun fun h => absurd h.1.1 (Int.not_le.mpr hline)
    rw [if_neg hline]
    by_cases hquantity : n.quantity ≤ 0
    · rw [if_pos hquantity]
      exact iff_of_false nofun fun h => absurd h.1.2.1 (Int.not_lt.mpr hquantity)
    rw [if_neg hquantity]
    by_cases hseen : seen.contains n.line = true
    · rw [if_pos hseen]
      exact iff_of_false nofun fun h =>
        h.2 n List.mem_cons_self (List.contains_iff_mem.mp hseen)
    rw [if_neg hseen, ih]
    rw [List.contains_iff_mem] at hseen
    -- the numbers seen by the rest are those seen before, and that of the first line
    constructor
    · rintro ⟨hrest, hunseen⟩
      refine ⟨⟨by omega, by omega, fun hmem => ?_, hrest⟩, List.forall_mem_cons.mpr
        ⟨hseen, fun m hm hmem => hunseen m hm (List.mem_cons_of_mem _ hmem)⟩⟩
      obtain ⟨m, hm, hmn⟩ := List.mem_map.mp hmem
      exact hunseen m hm (hmn ▸ List.mem_cons_self)
    · rintro ⟨⟨-, -, hfirst, hrest⟩, hunseen⟩
      refine ⟨hrest, fun m hm hmem => ?_⟩
      rcases List.mem_cons.mp hmem with heq | hmem
      · exact hfirst (List.mem_map.mpr ⟨m, hm, heq⟩)
      · exact hunseen m (List.mem_cons_of_mem _ hm) hmem

/-- A request is well formed if it names a platform and a reference, and its lines are. -/
theorem check_eq_ok_iff {n : NewReservation} :
    n.check = .ok () ↔ Text.isBlankText n.key.platform = false ∧
      Text.isBlankText n.key.reference = false ∧ WellFormedLines n.lines := by
  unfold check
  cases hplatform : Text.isBlankText n.key.platform with
  | true => exact iff_of_false nofun nofun
  | false =>
    cases hreference : Text.isBlankText n.key.reference with
    | true => exact iff_of_false nofun nofun
    | false => simp [checkLines_eq_ok_iff]

/-- A request stays well formed with other lines that are. -/
theorem check_of_lines {n : NewReservation} (h : n.check = .ok ())
    {lines : List NewReservationLine} (hlines : WellFormedLines lines) :
    { n with lines }.check = .ok () := by
  obtain ⟨hplatform, hreference, -⟩ := check_eq_ok_iff.mp h
  exact check_eq_ok_iff.mpr ⟨hplatform, hreference, hlines⟩

end NewReservation

theorem WellFormedLines.perm {ns ms : List NewReservationLine} (h : WellFormedLines ns)
    (hperm : ms.Perm ns) : WellFormedLines ms where
  each n hn := h.each n (hperm.mem_iff.mp hn)
  distinct := ((hperm.map _).nodup_iff).mpr h.distinct

/-! ## Merging lines in -/

/-- The line that a requested line becomes. -/
def NewReservationLine.reserved (n : NewReservationLine) : ReservationLine :=
  ⟨n.line, n.item, n.quantity, 0⟩

/-- Lines with a number each, of which nothing has been consumed. -/
structure Unused (ls : List ReservationLine) : Prop where
  distinct : (ls.map (·.line)).Nodup
  unused : ∀ l ∈ ls, l.consumed = 0

theorem unused_nil : Unused [] := ⟨.nil, by simp⟩

section Merging

variable {n : NewReservationLine} {ns : List NewReservationLine} {l : ReservationLine}
  {ls ls' : List ReservationLine}

theorem Unused.tail (h : Unused (l :: ls)) : Unused ls where
  distinct := (List.nodup_cons.mp h.distinct).2
  unused m hm := h.unused m (List.mem_cons_of_mem _ hm)

/-- A requested line takes the place of the line with its number, if there is one. -/
theorem mem_upsertLine_iff (h : Unused ls) (hn : 0 ≤ n.quantity) :
    l ∈ upsertLine n ls ↔ l = n.reserved ∨ l ∈ ls ∧ l.line ≠ n.line := by
  induction ls with
  | nil => simp [upsertLine, NewReservationLine.reserved]
  | cons m rest ih =>
    unfold upsertLine
    by_cases hline : m.line = n.line
    · have hother : ∀ k ∈ rest, k.line ≠ n.line := fun k hk heq =>
        (List.nodup_cons.mp h.distinct).1 (List.mem_map.mpr ⟨k, hk, heq.trans hline.symm⟩)
      have hplace : (⟨m.line, n.item, n.quantity, min m.consumed n.quantity⟩ : ReservationLine) =
          n.reserved := by
        rw [h.unused m List.mem_cons_self, Int.min_eq_left hn, hline]
        rfl
      rw [if_pos hline, hplace, List.mem_cons, List.mem_cons]
      constructor
      · rintro (rfl | hl)
        · exact .inl rfl
        · exact .inr ⟨.inr hl, hother l hl⟩
      · rintro (rfl | ⟨rfl | hl, hne⟩)
        · exact .inl rfl
        · exact absurd hline hne
        · exact .inr hl
    · rw [if_neg hline, List.mem_cons, List.mem_cons, ih h.tail]
      constructor
      · rintro (rfl | rfl | ⟨hl, hne⟩)
        · exact .inr ⟨.inl rfl, hline⟩
        · exact .inl rfl
        · exact .inr ⟨.inr hl, hne⟩
      · rintro (rfl | ⟨rfl | hl, hne⟩)
        · exact .inr (.inl rfl)
        · exact .inl rfl
        · exact .inr (.inr ⟨hl, hne⟩)

theorem Unused.upsertLine (h : Unused ls) (hn : 0 ≤ n.quantity) : Unused (upsertLine n ls) where
  unused l hl := by
    rcases (mem_upsertLine_iff h hn).mp hl with rfl | ⟨hl, -⟩
    · rfl
    · exact h.unused l hl
  distinct := by
    induction ls with
    | nil => exact List.nodup_singleton _
    | cons m rest ih =>
      have hm := (List.nodup_cons.mp h.distinct).1
      unfold Stockroom.upsertLine
      by_cases hline : m.line = n.line
      · rw [if_pos hline]
        exact h.distinct
      · rw [if_neg hline]
        refine List.nodup_cons.mpr ⟨fun hmem => ?_, ih h.tail⟩
        obtain ⟨l, hl, heq⟩ := List.mem_map.mp hmem
        rcases (mem_upsertLine_iff h.tail hn).mp hl with rfl | ⟨hl, -⟩
        · exact hline heq.symm
        · exact hm (List.mem_map.mpr ⟨l, hl, heq⟩)

/-- Requested lines take the places of the lines with their numbers, the others stay. -/
theorem mem_foldl_upsertLine_iff (h : Unused ls) (hns : WellFormedLines ns) :
    Unused (ns.foldl (fun ls n => upsertLine n ls) ls) ∧
    ∀ l, l ∈ ns.foldl (fun ls n => upsertLine n ls) ls ↔
      l ∈ ns.map (·.reserved) ∨ l ∈ ls ∧ l.line ∉ ns.map (·.line) := by
  induction ns generalizing ls with
  | nil => exact ⟨h, fun l => by simp⟩
  | cons n rest ih =>
    obtain ⟨-, hquantity, hfirst, hrest⟩ := wellFormedLines_cons.mp hns
    have hn : 0 ≤ n.quantity := Int.le_of_lt hquantity
    obtain ⟨hunused, hmem⟩ := ih (h.upsertLine hn) hrest
    refine ⟨hunused, fun l => ?_⟩
    rw [List.foldl_cons, hmem, mem_upsertLine_iff h hn, List.map_cons, List.map_cons,
      List.mem_cons, List.mem_cons]
    constructor
    · rintro (hl | ⟨rfl | ⟨hl, hne⟩, hother⟩)
      · exact .inl (.inr hl)
      · exact .inl (.inl rfl)
      · exact .inr ⟨hl, fun h => h.elim hne hother⟩
    · rintro ((rfl | hl) | ⟨hl, hnot⟩)
      · exact .inr ⟨.inl rfl, hfirst⟩
      · exact .inl hl
      · exact .inr ⟨.inr ⟨hl, fun h => hnot (.inl h)⟩, fun h => hnot (.inr h)⟩

theorem mem_upsertLines_iff (h : Unused ls) (hns : WellFormedLines ns) :
    l ∈ upsertLines ns ls ↔
      l ∈ ns.map (·.reserved) ∨ l ∈ ls ∧ l.line ∉ ns.map (·.line) := by
  rw [upsertLines, sortOn, mem_sortBy, (mem_foldl_upsertLine_iff h hns).2]

theorem pairwise_upsertLines (h : Unused ls) (hns : WellFormedLines ns) :
    (upsertLines ns ls).Pairwise (fun a b => a.line < b.line) :=
  pairwise_lt_sortOn (mem_foldl_upsertLine_iff h hns).1.distinct

/-- Ascending lines are determined by what is among them. -/
theorem eq_of_ascending (h : ls.Pairwise (fun a b => a.line < b.line))
    (h' : ls'.Pairwise (fun a b => a.line < b.line)) (hmem : ∀ l, l ∈ ls ↔ l ∈ ls') : ls = ls' :=
  eq_of_pairwise_of_mem_iff (fun _ _ hab hba => Int.lt_asymm hab hba) h h' hmem

theorem Unused.of_ascending (h : ls.Pairwise (fun a b => a.line < b.line))
    (hunused : ∀ l ∈ ls, l.consumed = 0) : Unused ls where
  distinct := List.pairwise_map.mpr (h.imp fun hab => Int.ne_of_lt hab)
  unused := hunused

theorem unused_upsertLines (h : Unused ls) (hns : WellFormedLines ns) :
    Unused (upsertLines ns ls) := by
  refine .of_ascending (pairwise_upsertLines h hns) fun l hl => ?_
  rcases (mem_upsertLines_iff h hns).mp hl with hl | ⟨hl, -⟩
  · obtain ⟨n, -, rfl⟩ := List.mem_map.mp hl
    rfl
  · exact h.unused l hl

end Merging

end Stockroom
