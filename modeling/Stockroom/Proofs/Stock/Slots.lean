/-
Stockroom.Proofs.Stock.Slots — slots with their batches, and the candidates they make.

`Stocked` says that the batch that the key of a slot names is known. A slot is only ever
created together with its batch, and batches stay, so all stock is stocked. `mem_candidates_iff`
and `nodup_candidates` say which candidates the slots of an item make: one for each slot that
holds something. `Attained.sequence_lt` says that the numbers of slots are the order in which
they were created, as the queue takes them to be.
-/
import Stockroom.Proofs.Stock.History

namespace Stockroom

namespace StockState

variable {s t : StockState}

/-! ## Slots and batches -/

theorem HasBatch.congr {k : StockKey} (h : s.HasBatch k) (hb : t.batches = s.batches) :
    t.HasBatch k := by
  intro code hc
  rw [hb]
  exact h code hc

/-- Storing a batch makes no other one unknown. -/
theorem HasBatch.putBatch {k : StockKey} (h : s.HasBatch k) (b : Batch) :
    (s.putBatch b).HasBatch k := by
  intro code hc
  show ∃ b', (s.batches.insert b.identity b).get? _ = some b'
  rw [OrderedMap.get?_insert]
  split
  · exact ⟨b, rfl⟩
  · exact h code hc

/-- The batch of every slot is known. -/
def Stocked (s : StockState) : Prop :=
  ∀ k slot, s.slots.get? k = some slot → s.HasBatch k

namespace Stocked

theorem empty (clock : Instant) : Stocked (.empty clock) := by
  intro k slot h
  cases h

theorem enter (h : s.Stocked) {m : Movement} {after : Int} (ha : s.Admits m after) :
    (s.enter m after).Stocked := by
  intro k slot hslot
  rw [get?_slots_enter] at hslot
  split at hslot
  · rename_i hk
    subst hk
    exact ha.batch.congr (batches_enter ..)
  · exact (h k slot hslot).congr (batches_enter ..)

theorem change (hc : Change s t) (h : s.Stocked) : t.Stocked := by
  cases hc with
  | tick clock => exact h
  | created new => exact fun k slot hslot => (h k slot hslot).putBatch _
  | corrected known dated => exact fun k slot hslot => (h k slot hslot).putBatch _
  | entered admitted => exact h.enter admitted
  | photographed d => exact h

end Stocked

theorem Attained.stocked (h : s.Attained) : s.Stocked :=
  h.induction .empty fun _ hc hs => hs.change hc

/-! ## The order of creation -/

/-- No slot bears a number that has not been given out yet. -/
def Numbered (s : StockState) : Prop :=
  ∀ k slot, s.slots.get? k = some slot → slot.sequence ≤ s.lastSequence

/-- How slots have come from one state to a later one: those that were there keep their
number, and those that are new have greater ones. -/
structure Continued (s t : StockState) : Prop where
  kept : ∀ k slot, s.slots.get? k = some slot →
    ∃ now, t.slots.get? k = some now ∧ now.sequence = slot.sequence
  added : ∀ k now, s.slots.get? k = none → t.slots.get? k = some now →
    s.lastSequence < now.sequence ∧ now.sequence ≤ t.lastSequence
  last : s.lastSequence ≤ t.lastSequence

/-- What leaves the slots alone continues them. -/
theorem Continued.of_eq (hs : t.slots = s.slots) (hl : t.lastSequence = s.lastSequence) :
    Continued s t := by
  refine ⟨fun k slot h => ⟨slot, by rw [hs, h], rfl⟩, fun k now h h' => ?_, Int.le_of_eq hl.symm⟩
  rw [hs, h] at h'
  cases h'

theorem Continued.trans {u : StockState} (h : Continued s t) (h' : Continued t u) :
    Continued s u := by
  refine ⟨fun k slot hs => ?_, fun k now hs hu => ?_, Int.le_trans h.last h'.last⟩
  · obtain ⟨mid, ht, hmid⟩ := h.kept k slot hs
    obtain ⟨now, hu, hnow⟩ := h'.kept k mid ht
    exact ⟨now, hu, hnow.trans hmid⟩
  · cases ht : t.slots.get? k with
    | none =>
      have := h'.added k now ht hu
      have := h.last
      omega
    | some mid =>
      obtain ⟨now', hu', hnow⟩ := h'.kept k mid ht
      obtain rfl : now = now' := Option.some.inj (hu.symm.trans hu')
      have := h.added k mid hs ht
      have := h'.last
      omega

theorem lastSequence_enter (s : StockState) (m : Movement) (after : Int) :
    (s.enter m after).lastSequence =
      if (s.slots.get? m.key).isSome then s.lastSequence else s.lastSequence + 1 := by
  show (s.setQuantity m.key after).lastSequence = _
  unfold setQuantity
  cases s.slots.get? m.key <;> rfl

theorem continued_enter (s : StockState) (m : Movement) (after : Int) :
    Continued s (s.enter m after) := by
  have hlast := lastSequence_enter s m after
  refine ⟨fun k slot hs => ?_, fun k now hs ht => ?_, ?_⟩
  · rw [get?_slots_enter]
    by_cases hk : m.key = k
    · exact ⟨_, if_pos hk, by simp [slotOf, hs]⟩
    · exact ⟨slot, by rw [if_neg hk, hs], rfl⟩
  · rw [get?_slots_enter] at ht
    by_cases hk : m.key = k
    · subst hk
      rw [if_pos rfl] at ht
      cases ht
      rw [hlast, slotOf, hs]
      exact ⟨by simp only [Option.getD_none]; omega, Int.le_refl _⟩
    · rw [if_neg hk, hs] at ht
      cases ht
  · rw [hlast]
    split <;> omega

theorem continued_of_change (hc : Change s t) : Continued s t := by
  cases hc with
  | entered admitted => exact continued_enter ..
  | tick clock => exact .of_eq rfl rfl
  | created new => exact .of_eq rfl rfl
  | corrected known dated => exact .of_eq rfl rfl
  | photographed d => exact .of_eq rfl rfl

theorem continued_of_changes (hc : Changes s t) : Continued s t := by
  induction hc with
  | refl => exact .of_eq rfl rfl
  | tail _ hc ih => exact ih.trans (continued_of_change hc)

theorem Attained.numbered (h : s.Attained) : s.Numbered := by
  obtain ⟨clock, hc⟩ := h
  exact fun k slot hslot => ((continued_of_changes hc).added k slot rfl hslot).2

/-- The numbers of slots are the order of their creation: a slot that was there when another
one was not has the smaller number ever after. -/
theorem Attained.sequence_lt (h : s.Attained) (hc : Changes s t) {k j : StockKey}
    {old a b : Slot} (hold : s.slots.get? k = some old) (hnew : s.slots.get? j = none)
    (hk : t.slots.get? k = some a) (hj : t.slots.get? j = some b) : a.sequence < b.sequence := by
  have hcont := continued_of_changes hc
  obtain ⟨a', hk', ha⟩ := hcont.kept k old hold
  obtain rfl : a = a' := Option.some.inj (hk.symm.trans hk')
  have hb := (hcont.added j b hnew hj).1
  have := h.numbered k old hold
  omega

/-- No two slots bear the same number. -/
theorem Attained.key_eq_of_sequence_eq (h : s.Attained) {k j : StockKey} {a b : Slot}
    (hk : s.slots.get? k = some a) (hj : s.slots.get? j = some b)
    (hab : a.sequence = b.sequence) : k = j := by
  revert k j a b
  refine h.induction (P := fun s => ∀ {k j a b}, s.slots.get? k = some a →
    s.slots.get? j = some b → a.sequence = b.sequence → k = j) (fun _ => ?_) ?_
  · intro k j a b hk
    cases hk
  · intro s t hs hc ih k j a b hk hj hab
    cases hc with
    | tick | created | corrected | photographed => exact ih hk hj hab
    | @entered m after admitted =>
      -- the slot that is set has kept its number, or it has one that no other slot has
      have hset : ∀ {j b}, s.slots.get? j = some b →
          (s.slotOf m.key).sequence = b.sequence → m.key = j := by
        intro j b hj hab
        unfold slotOf at hab
        cases hm : s.slots.get? m.key with
        | some old => exact ih hm hj (by rwa [hm] at hab)
        | none =>
          rw [hm, Option.getD_none] at hab
          have := hs.numbered j b hj
          dsimp only at hab
          omega
      rw [get?_slots_enter] at hk hj
      split at hk <;> split at hj
      · rename_i hmk hmj
        exact hmk.symm.trans hmj
      · rename_i hmk _
        subst hmk
        cases hk
        exact hset hj hab
      · rename_i _ hmj
        subst hmj
        cases hj
        exact (hset hk hab.symm).symm
      · exact ih hk hj hab

/-! ## Candidates -/

/-- The candidate that a slot makes. -/
def candidateOf (s : StockState) (k : StockKey) (slot : Slot) : Candidate :=
  ⟨k, slot.quantity, s.expiryOf k, slot.sequence⟩

/-- The candidates of an item are its slots that hold something. -/
theorem mem_candidates_iff {item : ItemId} {warehouse : WarehouseId} {c : Candidate} :
    c ∈ s.candidates item warehouse ↔
      ∃ k slot, s.slots.get? k = some slot ∧ k.isOf item warehouse = true ∧
        0 < slot.quantity ∧ c = s.candidateOf k slot := by
  simp only [candidates, List.mem_map, List.mem_filter, Bool.and_eq_true, decide_eq_true_eq]
  constructor
  · rintro ⟨⟨k, slot⟩, ⟨hmem, hof, hpos⟩, rfl⟩
    exact ⟨k, slot, OrderedMap.mem_toList_iff.mp hmem, hof, hpos, rfl⟩
  · rintro ⟨k, slot, hget, hof, hpos, rfl⟩
    exact ⟨(k, slot), ⟨OrderedMap.mem_toList_iff.mpr hget, hof, hpos⟩, rfl⟩

/-- Each candidate has a key of its own. -/
theorem nodup_candidates (s : StockState) (item : ItemId) (warehouse : WarehouseId) :
    ((s.candidates item warehouse).map (·.key)).Nodup := by
  rw [candidates, List.map_map]
  exact s.slots.nodup_keys.sublist (List.filter_sublist.map _)

/-- Each candidate has a number of its own. -/
theorem Attained.candidate_eq_of_sequence_eq (h : s.Attained) {item : ItemId}
    {warehouse : WarehouseId} {c d : Candidate} (hc : c ∈ s.candidates item warehouse)
    (hd : d ∈ s.candidates item warehouse) (hcd : c.sequence = d.sequence) : c = d := by
  obtain ⟨k, a, hk, -, -, rfl⟩ := mem_candidates_iff.mp hc
  obtain ⟨j, b, hj, -, -, rfl⟩ := mem_candidates_iff.mp hd
  obtain rfl : k = j := h.key_eq_of_sequence_eq hk hj hcd
  obtain rfl : a = b := Option.some.inj (hk.symm.trans hj)
  rfl

end StockState

end Stockroom
