/-
Stockroom.Proofs.Stock.Legs — writing several movements down, one after another.

`StockState.enterAll` enters a list of movements and `StockState.entriesFor` are the entries
that this adds to the ledger. Movements of different slots and different lines do not get in
each other's way: if each of them may be entered now, all of them may be entered in turn
(`AdmitsAll.tail`), which is what `writeLegs` then does (`writeLegs_admitted`). Each of their
slots changes by exactly its movement, and every other slot stays.
-/
import Stockroom.Proofs.Stock.Change

namespace Stockroom

open StoreM MemoryStock

namespace StockState

/-! ## Several movements -/

/-- Enters movements one after another, each changing its slot by its own amount. -/
def enterAll (s : StockState) : List Movement → StockState
  | [] => s
  | m :: rest => (s.enter m (s.quantity m.key + m.delta)).enterAll rest

/-- The entries that entering movements adds to the ledger. -/
def entriesFor (s : StockState) : List Movement → List LedgerEntry
  | [] => []
  | m :: rest =>
    let after := s.quantity m.key + m.delta
    s.entryFor m after :: (s.enter m after).entriesFor rest

/-- When movements may be entered together: each of them may be entered now, and they have
slots and lines of their own. -/
structure AdmitsAll (s : StockState) (ms : List Movement) : Prop where
  each : ∀ m ∈ ms, s.Admits m (s.quantity m.key + m.delta)
  free : ∀ m ∈ ms, s.index.get? m.documentLine = none
  apart : ms.Pairwise (fun a b => a.key ≠ b.key ∧ a.documentLine ≠ b.documentLine)

/-- A movement is admitted as before after one of another slot and another line. -/
theorem Admits.after_enter {s : StockState} {m m' : Movement} {after after' : Int}
    (h : s.Admits m after) (hfree : s.index.get? m.documentLine = none) (hkey : m'.key ≠ m.key)
    (hline : m'.documentLine ≠ m.documentLine) : (s.enter m' after').Admits m after where
  valid := h.valid
  fresh := by
    simp only [entryAt?, index_enter, OrderedMap.get?_insert, if_neg hline, hfree,
      Option.bind_none]
  moves := h.moves
  fits := by
    rw [quantity_enter, if_neg hkey]
    exact h.fits
  batch := by
    intro code hc
    rw [batches_enter]
    exact h.batch code hc

theorem AdmitsAll.tail {s : StockState} {m : Movement} {rest : List Movement}
    (h : s.AdmitsAll (m :: rest)) :
    (s.enter m (s.quantity m.key + m.delta)).AdmitsAll rest := by
  obtain ⟨heach, hfree, happart⟩ := h
  obtain ⟨hm, hrest⟩ := List.pairwise_cons.mp happart
  refine ⟨fun m' hm' => ?_, fun m' hm' => ?_, hrest⟩
  · have hq : (s.enter m (s.quantity m.key + m.delta)).quantity m'.key = s.quantity m'.key := by
      rw [quantity_enter, if_neg (hm m' hm').1]
    rw [hq]
    exact (heach m' (List.mem_cons_of_mem _ hm')).after_enter
      (hfree m' (List.mem_cons_of_mem _ hm')) (hm m' hm').1 (hm m' hm').2
  · rw [index_enter, OrderedMap.get?_insert, if_neg (hm m' hm').2]
    exact hfree m' (List.mem_cons_of_mem _ hm')

end StockState

/-- Movements that may be entered together are written down as they stand. -/
theorem MemoryStock.writeLegs_admitted {s : StockState} {ms : List Movement}
    (h : s.AdmitsAll ms) :
    (writeLegs ms).runFrom s = (.ok (s.entriesFor ms), s.enterAll ms) := by
  induction ms generalizing s with
  | nil => rfl
  | cons m rest ih =>
    simp only [writeLegs, runFrom_bind, write_admitted (h.each m List.mem_cons_self), ih h.tail,
      runFrom_pure]
    rfl

namespace StockState

/-! ## What they leave -/

theorem ledger_enterAll (s : StockState) (ms : List Movement) :
    (s.enterAll ms).ledger = s.ledger ++ s.entriesFor ms := by
  induction ms generalizing s with
  | nil => simp [enterAll, entriesFor]
  | cons m rest ih =>
    rw [enterAll, ih, ledger_enter, List.append_assoc, List.singleton_append]
    rfl

@[simp] theorem batches_enterAll (s : StockState) (ms : List Movement) :
    (s.enterAll ms).batches = s.batches := by
  induction ms generalizing s with
  | nil => rfl
  | cons m rest ih => rw [enterAll, ih, batches_enter]

@[simp] theorem snapshots_enterAll (s : StockState) (ms : List Movement) :
    (s.enterAll ms).snapshots = s.snapshots := by
  induction ms generalizing s with
  | nil => rfl
  | cons m rest ih => rw [enterAll, ih, snapshots_enter]

/-- Each entry says what its movement asked for, in the order of the movements. -/
theorem map_entriesFor (s : StockState) (ms : List Movement) :
    (s.entriesFor ms).map (fun e => (e.key, e.delta, e.reference, e.line)) =
      ms.map (fun m => (m.key, m.delta, m.reference, m.line)) := by
  induction ms generalizing s with
  | nil => rfl
  | cons m rest ih =>
    simp only [entriesFor, List.map_cons, ih]
    rfl

/-- Slots without a movement stay. -/
theorem get?_slots_enterAll_of_not_mem {s : StockState} {ms : List Movement} {k : StockKey}
    (h : k ∉ ms.map (·.key)) : (s.enterAll ms).slots.get? k = s.slots.get? k := by
  induction ms generalizing s with
  | nil => rfl
  | cons m rest ih =>
    simp only [List.map_cons, List.mem_cons, not_or] at h
    rw [enterAll, ih h.2, get?_slots_enter, if_neg (Ne.symm h.1)]

/-- The slot of a movement changes by it, and keeps its place among the slots. -/
theorem get?_slots_enterAll_of_mem {s : StockState} {ms : List Movement}
    (h : (ms.map (·.key)).Nodup) {m : Movement} (hm : m ∈ ms) {slot : Slot}
    (hslot : s.slots.get? m.key = some slot) :
    (s.enterAll ms).slots.get? m.key =
      some { slot with quantity := slot.quantity + m.delta } := by
  induction ms generalizing s with
  | nil => cases hm
  | cons m' rest ih =>
    obtain ⟨hhead, hrest⟩ := List.nodup_cons.mp h
    rw [enterAll]
    rcases List.mem_cons.mp hm with rfl | hm
    · rw [get?_slots_enterAll_of_not_mem hhead, get?_slots_enter, if_pos rfl, slotOf,
        quantity_of_get? hslot, hslot, Option.getD_some]
    · have hne : m'.key ≠ m.key := by
        intro heq
        apply hhead
        show m'.key ∈ _
        rw [heq]
        exact List.mem_map_of_mem hm
      exact ih hrest hm (by rw [get?_slots_enter, if_neg hne, hslot])

end StockState

end Stockroom
