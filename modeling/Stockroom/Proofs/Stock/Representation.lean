/-
Stockroom.Proofs.Stock.Representation — how the parts of stored stock belong together.

* `SlotsFollow` says that the slots are those of the keys in the ledger, numbered from one on in
  the order in which the keys first occur there. A movement either finds its slot, or makes one
  with the next number while its entry is the first of its key (`slot_of_enter`).
* `LedgerEntry.Proper` is what the check of movements leaves in the ledger.
* `stock_coherent` puts these together with the numbers of the entries, the index and the batches
  of slots.
-/
import Stockroom.Proofs.Stock.Batches
import Stockroom.Proofs.Stock.Lines

namespace Stockroom

namespace StockState

variable {s t : StockState}

/-! ## Entries -/

/-- An entry bears its place in the ledger as its number. -/
theorem Attained.id_eq (h : s.Attained) :
    ∀ (i : Nat) e, s.ledger[i]? = some e → e.id = i + 1 := by
  refine h.induction (P := fun s => ∀ (i : Nat) e, s.ledger[i]? = some e → e.id = i + 1)
    (fun _ i e he => absurd he (by simp [StockState.empty])) ?_
  intro s t _ hc ih
  cases hc with
  | tick | created | corrected | photographed => exact ih
  | @entered m after admitted =>
    intro i e he
    rw [ledger_enter, List.getElem?_append] at he
    split at he
    · exact ih i e he
    · rw [List.getElem?_singleton] at he
      split at he
      · cases he
        show (s.ledger.length : Int) + 1 = i + 1
        omega
      · cases he

end StockState

/-- What the rules of movements leave in the ledger: a change, on a line from one on of a document
that has a name, in the direction of its reason. -/
structure LedgerEntry.Proper (e : LedgerEntry) : Prop where
  moves : e.delta ≠ 0
  line : 1 ≤ e.line
  reference : Text.isBlankText e.reference = false
  inbound : e.reason.direction = .inbound → 0 < e.delta
  outbound : e.reason.direction = .outbound → e.delta < 0

namespace StockState

variable {s t : StockState}

theorem Admits.proper {m : Movement} {after : Int} (h : s.Admits m after) :
    (s.entryFor m after).Proper := by
  obtain ⟨hblank, hline, hin, hout⟩ := Movement.check_eq_ok_iff.mp h.valid
  have hmoves := h.moves
  refine ⟨hmoves, hline, hblank, fun hdir => ?_, fun hdir => ?_⟩
  · have hnot : ¬ m.delta < 0 := fun hneg => hin ⟨hdir, hneg⟩
    show 0 < m.delta
    omega
  · have hnot : ¬ 0 < m.delta := fun hpos => hout ⟨hdir, hpos⟩
    show m.delta < 0
    omega

theorem Attained.proper (h : s.Attained) : ∀ e ∈ s.ledger, e.Proper := by
  refine h.induction (P := fun s => ∀ e ∈ s.ledger, e.Proper)
    (fun _ e he => absurd he List.not_mem_nil) ?_
  intro s t _ hc ih
  cases hc with
  | tick | created | corrected | photographed => exact ih
  | entered admitted =>
    intro e he
    rw [ledger_enter] at he
    rcases List.mem_append.mp he with he | he
    · exact ih e he
    · obtain rfl := List.mem_singleton.mp he
      exact admitted.proper

/-! ## Slots in the order of the ledger -/

/-- Where the first entry of a key stands in the ledger; behind the end if it has none. -/
def firstEntry (s : StockState) (k : StockKey) : Nat := s.ledger.findIdx (fun e => e.key == k)

theorem firstEntry_lt_iff (s : StockState) (k : StockKey) :
    s.firstEntry k < s.ledger.length ↔ ∃ e ∈ s.ledger, e.key = k := by
  simp [firstEntry, List.findIdx_lt_length]

/-- A new entry is the first of its key, or it changes no first entry. -/
theorem firstEntry_enter (s : StockState) (m : Movement) (after : Int) (k : StockKey) :
    (s.enter m after).firstEntry k =
      if s.firstEntry k < s.ledger.length then s.firstEntry k
      else if m.key = k then s.ledger.length else s.ledger.length + 1 := by
  simp only [firstEntry, ledger_enter, List.findIdx_append, List.findIdx_singleton, beq_iff_eq]
  refine if_congr Iff.rfl rfl ?_
  show (if m.key = k then 0 else 1) + s.ledger.length = _
  split <;> omega

theorem size_slots_enter (s : StockState) (m : Movement) (after : Int) :
    (s.enter m after).slots.size =
      if (s.slots.get? m.key).isSome then s.slots.size else s.slots.size + 1 := by
  show (s.setQuantity m.key after).slots.size = _
  unfold setQuantity
  cases h : s.slots.get? m.key <;> simp [OrderedMap.size_insert, h]

/-- The slots are those of the keys in the ledger, numbered in the order in which the keys first
occur there. -/
structure SlotsFollow (s : StockState) : Prop where
  known : ∀ k, (s.slots.get? k).isSome = true ↔ ∃ e ∈ s.ledger, e.key = k
  last : s.lastSequence = s.slots.size
  positive : ∀ k slot, s.slots.get? k = some slot → 1 ≤ slot.sequence
  numbers : ∀ n : Int, 1 ≤ n → n ≤ s.lastSequence →
    ∃ k slot, s.slots.get? k = some slot ∧ slot.sequence = n
  inOrder : ∀ k j a b, s.slots.get? k = some a → s.slots.get? j = some b →
    (a.sequence < b.sequence ↔ s.firstEntry k < s.firstEntry j)

namespace SlotsFollow

theorem empty (clock : Instant) : SlotsFollow (.empty clock) := by
  have hnone : ∀ k, (StockState.empty clock).slots.get? k = none := fun k => rfl
  refine ⟨fun k => ?_, rfl, fun k slot h => ?_, fun n hlow hhigh => ?_, fun k j a b h => ?_⟩
  · simp [StockState.empty]
  · rw [hnone] at h
    cases h
  · have hzero : (StockState.empty clock).lastSequence = 0 := rfl
    omega
  · rw [hnone] at h
    cases h

theorem congr (h : SlotsFollow s) (hs : t.slots = s.slots) (hl : t.ledger = s.ledger)
    (hn : t.lastSequence = s.lastSequence) : SlotsFollow t := by
  obtain ⟨known, last, positive, numbers, inOrder⟩ := h
  refine ⟨by rwa [hs, hl], by rwa [hs, hn], by rwa [hs], by rwa [hs, hn], ?_⟩
  simp only [hs, firstEntry, hl]
  exact inOrder

/-- A slot that is there after a movement was there before, with the same number and the same
first entry of its key, or both its number and the entry are new. -/
theorem slot_of_enter (h : SlotsFollow s) {m : Movement} {after : Int} {k : StockKey} {now : Slot}
    (hnow : (s.enter m after).slots.get? k = some now) :
    (∃ slot, s.slots.get? k = some slot ∧ now.sequence = slot.sequence ∧
      (s.enter m after).firstEntry k = s.firstEntry k ∧ s.firstEntry k < s.ledger.length) ∨
    m.key = k ∧ now.sequence = s.lastSequence + 1 ∧
      (s.enter m after).firstEntry k = s.ledger.length := by
  have hfirst := s.firstEntry_enter m after k
  rw [get?_slots_enter] at hnow
  cases hold : s.slots.get? k with
  | some slot =>
    have hlt := (s.firstEntry_lt_iff k).mpr ((h.known k).mp (by rw [hold]; rfl))
    rw [if_pos hlt] at hfirst
    refine .inl ⟨slot, rfl, ?_, hfirst, hlt⟩
    split at hnow
    · cases hnow
      simp [slotOf, hold]
    · rw [hold] at hnow
      cases hnow
      rfl
  | none =>
    have hout : ¬ s.firstEntry k < s.ledger.length := by
      rw [firstEntry_lt_iff, ← h.known, hold]
      decide
    rw [if_neg hout] at hfirst
    split at hnow
    · next hk =>
      cases hnow
      rw [if_pos hk] at hfirst
      exact .inr ⟨hk, by simp [slotOf, hold], hfirst⟩
    · rw [hold] at hnow
      cases hnow

theorem enter (h : SlotsFollow s) (hn : s.Numbered) (m : Movement) (after : Int) :
    SlotsFollow (s.enter m after) := by
  have hlast := s.lastSequence_enter m after
  have hcont := s.continued_enter m after
  refine ⟨fun k => ?_, ?_, fun k now hnow => ?_, fun n hlow hhigh => ?_,
    fun k j a b ha hb => ?_⟩
  · rw [get?_slots_enter, ledger_enter]
    by_cases hk : m.key = k
    · simp [hk, entryFor, Movement.toEntry]
    · simp [hk, h.known, entryFor, Movement.toEntry]
  · rw [hlast, size_slots_enter, h.last]
    split <;> simp
  · rcases h.slot_of_enter hnow with ⟨slot, hslot, heq, -, -⟩ | ⟨-, heq, -⟩
    · rw [heq]
      exact h.positive k slot hslot
    · have := h.last
      omega
  · by_cases hold : n ≤ s.lastSequence
    · obtain ⟨k, slot, hslot, rfl⟩ := h.numbers n hlow hold
      obtain ⟨now, hnow, heq⟩ := hcont.kept k slot hslot
      exact ⟨k, now, hnow, heq⟩
    · -- the number is a new one, so the slot of the movement is new
      rw [hlast] at hhigh
      split at hhigh
      · exact absurd hhigh hold
      · next hnew =>
        have hnone : s.slots.get? m.key = none := by simpa using hnew
        refine ⟨m.key, _, by rw [get?_slots_enter, if_pos rfl], ?_⟩
        simp only [slotOf, hnone, Option.getD_none]
        omega
  · rcases h.slot_of_enter ha with ⟨a', ha', haeq, hak, hka⟩ | ⟨hk, haeq, hak⟩ <;>
      rcases h.slot_of_enter hb with ⟨b', hb', hbeq, hbj, hjb⟩ | ⟨hj, hbeq, hbj⟩
    · rw [haeq, hbeq, hak, hbj]
      exact h.inOrder k j a' b' ha' hb'
    · have := hn k a' ha'
      exact iff_of_true (by omega) (by omega)
    · have := hn j b' hb'
      exact iff_of_false (by omega) (by omega)
    · exact iff_of_false (by omega) (by omega)

theorem change (hc : Change s t) (hn : s.Numbered) (h : SlotsFollow s) : SlotsFollow t := by
  cases hc with
  | tick clock => exact h.congr rfl rfl rfl
  | created new => exact h.congr rfl rfl rfl
  | corrected known dated => exact h.congr rfl rfl rfl
  | entered admitted => exact h.enter hn _ _
  | photographed d => exact h.congr rfl rfl rfl

end SlotsFollow

theorem Attained.slotsFollow (h : s.Attained) : s.SlotsFollow :=
  h.induction .empty fun hs hc ih => ih.change hc hs.numbered

end StockState

/-! ## All stock there can be -/

/-- How the parts of stored stock belong together. -/
structure Coherent (s : StockState) : Prop where
  /-- Entries are numbered from one on. -/
  numbered : ∀ (i : Nat) e, s.ledger[i]? = some e → e.id = i + 1
  /-- The index leads from the document lines of the ledger, and no others, to their places. -/
  indexed : ∀ l i, s.index.get? l = some i ↔ ∃ e, s.ledger[i]? = some e ∧ e.documentLine = l
  /-- The keys of the ledger, and no others, have slots. -/
  slots : ∀ k, (∃ slot, s.slots.get? k = some slot) ↔ ∃ e ∈ s.ledger, e.key = k
  /-- The numbers of the slots are those from one on, -/
  sequences : ∀ n : Int, (∃ k slot, s.slots.get? k = some slot ∧ slot.sequence = n) ↔
    1 ≤ n ∧ n ≤ s.slots.size
  /-- and go up with the places of the first entries of their keys. -/
  inOrder : ∀ k j a b, s.slots.get? k = some a → s.slots.get? j = some b →
    (a.sequence < b.sequence ↔ s.firstEntry k < s.firstEntry j)
  /-- The batch that the key of a slot names is stored under its own identity. -/
  batches : ∀ k slot, s.slots.get? k = some slot → ∀ code, k.batch.code? = some code →
    ∃ b, s.batches.get? ⟨k.item, k.warehouse, code⟩ = some b ∧
      b.identity = ⟨k.item, k.warehouse, code⟩
  /-- Entries obey the rules of movements. -/
  entries : ∀ e ∈ s.ledger, e.Proper

/-- In all stock there can be, whatever has failed on the way, the ledger, its index, the slots
and the batches belong together. -/
theorem stock_coherent {s : StockState} (hs : s.Reachable) : Coherent s := by
  have h := hs.attained
  have hfollow := h.slotsFollow
  refine ⟨h.id_eq, h.indexed, fun k => ?_, fun n => ?_, hfollow.inOrder,
    fun k slot hslot code hcode => ?_, h.proper⟩
  · rw [← Option.isSome_iff_exists]
    exact hfollow.known k
  · rw [← hfollow.last]
    constructor
    · rintro ⟨k, slot, hslot, rfl⟩
      exact ⟨hfollow.positive k slot hslot, h.numbered k slot hslot⟩
    · rintro ⟨hlow, hhigh⟩
      exact hfollow.numbers n hlow hhigh
  · obtain ⟨b, hb⟩ := h.stocked k slot hslot code hcode
    exact ⟨b, hb, h.registered.filed _ b hb⟩

/-- Both batches are known to the stock from which the order was shipped, one slot for each. -/
theorem stock_coherent_shipped :
    Sample.shipped.Reachable ∧ Coherent Sample.shipped ∧ Sample.shipped.slots.size = 2 ∧
    ∃ k slot, Sample.shipped.slots.get? k = some slot ∧ slot.sequence = 2 := by
  have hs : Sample.shipped.Reachable :=
    Sample.reachable_stock.run [.allocate (Sample.order 1 6)]
  have h := stock_coherent hs
  have hsize : Sample.shipped.slots.size = 2 := by decide +kernel
  refine ⟨hs, h, hsize, (h.sequences 2).mpr ⟨by decide, ?_⟩⟩
  rw [hsize]
  decide

end Stockroom
