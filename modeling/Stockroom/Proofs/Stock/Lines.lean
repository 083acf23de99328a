/-
Stockroom.Proofs.Stock.Lines — each document line is written once and found for ever after.

`Indexed` says that the index leads from a document line to the position of its entry, and
from no other line anywhere. Entries are only ever added at the end, under a line that the
index does not know, so the index stays exact (`Indexed.enter`) and what was found once is
found again after any run (`line_written_once`).
-/
import Stockroom.Proofs.Stock.History

namespace Stockroom

open StoreM MemoryStock

/-! ## The ledger only grows -/

theorem Change.ledger_prefix {s t : StockState} (h : Change s t) : s.ledger <+: t.ledger := by
  cases h with
  | entered admitted =>
    rw [StockState.ledger_enter]
    exact List.prefix_append _ _
  | tick clock => exact List.prefix_refl _
  | created new => exact List.prefix_refl _
  | corrected known dated => exact List.prefix_refl _
  | photographed d => exact List.prefix_refl _

theorem ledger_prefix_of_changes {s t : StockState} (h : Changes s t) : s.ledger <+: t.ledger := by
  induction h with
  | refl => exact List.prefix_refl _
  | tail _ hc ih => exact ih.trans hc.ledger_prefix

/-- A run keeps what is in the ledger and adds to its end. -/
theorem StockState.ledger_prefix_run (s : StockState) (actions : List StockAction) :
    s.ledger <+: (s.run actions).ledger :=
  ledger_prefix_of_changes (s.changes_run actions)

/-! ## The index -/

/-- A line on which an entry is found is in the index. -/
theorem StockState.contains_index {s : StockState} {l : DocumentLine}
    (h : (s.entryAt? l).isSome = true) : s.index.contains l = true := by
  unfold StockState.entryAt? at h
  rw [OrderedMap.contains]
  cases hi : s.index.get? l with
  | none =>
    rw [hi] at h
    cases h
  | some i => rfl

/-- The index knows exactly the document lines of the ledger, and where they stand. -/
def Indexed (s : StockState) : Prop :=
  ∀ l i, s.index.get? l = some i ↔ ∃ e, s.ledger[i]? = some e ∧ e.documentLine = l

namespace Indexed

variable {s t : StockState}

theorem empty (clock : Instant) : Indexed (.empty clock) := by
  intro l i
  simp [StockState.empty]

theorem congr (h : Indexed s) (hi : t.index = s.index) (hl : t.ledger = s.ledger) :
    Indexed t := by
  intro l i
  rw [hi, hl]
  exact h l i

/-- A line is found exactly if an entry of the ledger has it. -/
theorem entryAt?_eq_some_iff (h : Indexed s) {l : DocumentLine} {e : LedgerEntry} :
    s.entryAt? l = some e ↔ e ∈ s.ledger ∧ e.documentLine = l := by
  simp only [StockState.entryAt?, Option.bind_eq_some_iff]
  constructor
  · rintro ⟨i, hi, he⟩
    obtain ⟨e', he', hl⟩ := (h l i).mp hi
    obtain rfl : e = e' := Option.some.inj (he.symm.trans he')
    exact ⟨List.mem_of_getElem? he, hl⟩
  · rintro ⟨hmem, hl⟩
    obtain ⟨i, hi⟩ := List.getElem?_of_mem hmem
    exact ⟨i, (h l i).mpr ⟨e, hi, hl⟩, hi⟩

theorem get?_eq_none (h : Indexed s) {l : DocumentLine} (hf : s.entryAt? l = none) :
    s.index.get? l = none := by
  rw [Option.eq_none_iff_forall_ne_some] at hf ⊢
  intro i hi
  obtain ⟨e, he, hl⟩ := (h l i).mp hi
  exact hf e (h.entryAt?_eq_some_iff.mpr ⟨List.mem_of_getElem? he, hl⟩)

theorem enter (h : Indexed s) {m : Movement} {after : Int} (ha : s.Admits m after) :
    Indexed (s.enter m after) := by
  have hnone := h.get?_eq_none ha.fresh
  have hlast : (s.entryFor m after).documentLine = m.documentLine := rfl
  intro l i
  rw [StockState.index_enter, StockState.ledger_enter, OrderedMap.get?_insert]
  rcases Nat.lt_trichotomy i s.ledger.length with hi | rfl | hi
  · -- an earlier position: found as before, under another line than the new one
    rw [List.getElem?_append_left hi]
    by_cases hl : m.documentLine = l
    · subst hl
      rw [if_pos rfl, ← h, hnone]
      constructor
      · intro heq
        exact absurd (Option.some.inj heq) (by omega)
      · intro hsome
        cases hsome
    · rw [if_neg hl, h]
  · -- the new position: under the new line only
    rw [List.getElem?_concat_length]
    by_cases hl : m.documentLine = l
    · simp [hl, hlast]
    · rw [if_neg hl]
      constructor
      · intro hsome
        obtain ⟨e, he, -⟩ := (h l _).mp hsome
        simp at he
      · rintro ⟨e, he, hel⟩
        cases he
        exact absurd hel hl
  · have hout : (s.ledger ++ [s.entryFor m after])[i]? = none :=
      List.getElem?_eq_none (by rw [List.length_append, List.length_singleton]; omega)
    rw [hout]
    constructor
    · intro hsome
      split at hsome
      · exact absurd (Option.some.inj hsome) (by omega)
      · obtain ⟨e, he, -⟩ := (h l i).mp hsome
        rw [List.getElem?_eq_none (by omega)] at he
        cases he
    · rintro ⟨e, he, -⟩
      cases he

theorem change (hc : Change s t) (h : Indexed s) : Indexed t := by
  cases hc with
  | tick clock => exact h.congr rfl rfl
  | created new => exact h.congr rfl rfl
  | corrected known dated => exact h.congr rfl rfl
  | entered admitted => exact h.enter admitted
  | photographed d => exact h.congr rfl rfl

/-- One position per line: no two entries share theirs. -/
theorem pairwise_ne (h : Indexed s) :
    s.ledger.Pairwise (fun a b => a.documentLine ≠ b.documentLine) := by
  rw [List.pairwise_iff_getElem]
  intro i j hi hj hij heq
  have hi' := (h s.ledger[i].documentLine i).mpr ⟨_, List.getElem?_eq_getElem hi, rfl⟩
  have hj' := (h s.ledger[i].documentLine j).mpr ⟨_, List.getElem?_eq_getElem hj, heq.symm⟩
  rw [hi'] at hj'
  exact absurd (Option.some.inj hj') (by omega)

end Indexed

theorem StockState.Attained.indexed {s : StockState} (h : s.Attained) : Indexed s :=
  h.induction .empty fun _ hc hs => hs.change hc

/-! ## Exactly once -/

/-- No two entries share a document line, and whatever happens, the ledger is only continued.
A well-formed movement under the line of an entry, however different it may be otherwise and
however much has happened since, gets the answer of that entry, and nothing changes. -/
theorem line_written_once {s : StockState} (hs : s.Reachable) (actions : List StockAction) :
    s.ledger.Pairwise (fun a b => a.documentLine ≠ b.documentLine) ∧
    s.ledger <+: (s.run actions).ledger ∧
    ∀ e ∈ s.ledger, ∀ m : Movement, m.check = .ok () → m.documentLine = e.documentLine →
      (store.apply m).runFrom (s.run actions) =
        (.ok ⟨e.key, e.after - e.delta, e.delta, e.after, false, some e.id⟩, s.run actions) := by
  have hgrows := s.ledger_prefix_run actions
  refine ⟨hs.attained.indexed.pairwise_ne, hgrows, fun e he m hm hl => ?_⟩
  have hfound : (s.run actions).entryAt? m.documentLine = some e :=
    (hs.attained.run actions).indexed.entryAt?_eq_some_iff.mpr ⟨hgrows.subset he, hl.symm⟩
  show (apply m).runFrom _ = _
  rw [apply, runFrom_bind, write_replayed hm hfound]
  rfl

/-- A count that takes from another batch, under the line of the first receipt. -/
def Sample.recount : Movement :=
  { Sample.pick with
    key := Sample.key "Z", line := 1, delta := -7, reason := .count, allowNegative := true }

/-- The recount gets the answer of the first receipt, also after the order has gone out. -/
theorem line_written_once_recount :
    Sample.recount.check = .ok () ∧
    (store.apply Sample.recount).runFrom Sample.shipped =
      (.ok ⟨Sample.key "A", 0, 5, 5, false, some 1⟩, Sample.shipped) := by
  have hcheck : Sample.recount.check = .ok () := by rfl
  have hmem : (StockState.empty .epoch).entryFor (Sample.receipt "A" 1 5 20) 5 ∈
      Sample.stock.ledger := by decide +kernel
  exact ⟨hcheck, (line_written_once Sample.reachable_stock
    [.allocate (Sample.order 1 6)]).2.2 _ hmem _ hcheck rfl⟩

end Stockroom
