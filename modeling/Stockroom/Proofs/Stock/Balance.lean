/-
Stockroom.Proofs.Stock.Balance — the slots, the ledger and the running quantities agree.

`ledgerTotal k` sums the changes of the key `k` over a list of entries. `Balanced` says that
every slot holds the total of its key, that every entry records the total up to and including
itself, and that no total ever leaves 64 bits. Entering a movement keeps all three
(`Balanced.enter`), nothing else touches them, so they hold of all stock there can be
(`ledger_balances`).
-/
import Stockroom.Proofs.Stock.History

namespace Stockroom

open IntegerRange (signed64)

/-! ## Totals -/

/-- The sum of the changes of the key `k`. -/
def ledgerTotal (k : StockKey) (entries : List LedgerEntry) : Int :=
  sumOf (·.delta) (entries.filter (fun e => e.key == k))

theorem ledgerTotal_append (k : StockKey) (xs ys : List LedgerEntry) :
    ledgerTotal k (xs ++ ys) = ledgerTotal k xs + ledgerTotal k ys := by
  simp only [ledgerTotal, List.filter_append, sumOf_append]

theorem ledgerTotal_cons (k : StockKey) (e : LedgerEntry) (xs : List LedgerEntry) :
    ledgerTotal k (e :: xs) = (if e.key = k then e.delta else 0) + ledgerTotal k xs := by
  by_cases h : e.key = k <;> simp [ledgerTotal, h]

theorem ledgerTotal_concat (k : StockKey) (xs : List LedgerEntry) (e : LedgerEntry) :
    ledgerTotal k (xs ++ [e]) = ledgerTotal k xs + if e.key = k then e.delta else 0 := by
  rw [ledgerTotal_append, ledgerTotal_cons]
  exact congrArg _ (Int.add_zero _)

/-! ## The invariant -/

/-- Slots, entries and totals agree, and every total there ever was fits into 64 bits. -/
structure Balanced (s : StockState) : Prop where
  slot : ∀ k, s.quantity k = ledgerTotal k s.ledger
  running : ∀ past e future, s.ledger = past ++ e :: future →
    e.after = ledgerTotal e.key (past ++ [e])
  fits : ∀ past, past <+: s.ledger → ∀ k, signed64.contains (ledgerTotal k past) = true

namespace Balanced

theorem empty (clock : Instant) : Balanced (.empty clock) := by
  refine ⟨fun k => rfl, fun past e future h => ?_, fun past h k => ?_⟩
  · exact absurd h.symm (List.append_ne_nil_of_right_ne_nil _ (List.cons_ne_nil _ _))
  · obtain rfl : past = [] := List.prefix_nil.mp h
    rfl

/-- Quantities depend only on the slots and the ledger. -/
theorem congr {s t : StockState} (h : Balanced s) (hs : t.slots = s.slots)
    (hl : t.ledger = s.ledger) : Balanced t := by
  obtain ⟨h1, h2, h3⟩ := h
  refine ⟨fun k => ?_, by rwa [hl], by rwa [hl]⟩
  rw [hl, ← h1 k, StockState.quantity, StockState.quantity, hs]

theorem enter {s : StockState} {m : Movement} {after : Int} (h : Balanced s)
    (ha : s.Admits m after) : Balanced (s.enter m after) := by
  obtain ⟨hsum, hfits, -⟩ := quantityAfter_eq_ok_iff.mp ha.fits
  -- the total of the movement's key becomes the new quantity, every other one stays
  have htotal : ∀ k, ledgerTotal k (s.ledger ++ [s.entryFor m after]) =
      if m.key = k then after else ledgerTotal k s.ledger := by
    intro k
    rw [ledgerTotal_concat]
    show _ + (if m.key = k then m.delta else 0) = _
    split
    · rename_i hk
      rw [hsum, ← h.slot k, hk]
    · omega
  refine ⟨fun k => ?_, fun past e future hsplit => ?_, fun past hpast k => ?_⟩
  · rw [StockState.quantity_enter, StockState.ledger_enter, htotal, h.slot]
  · rw [StockState.ledger_enter] at hsplit
    rcases List.eq_nil_or_concat future with rfl | ⟨future, last, rfl⟩
    · obtain ⟨rfl, hlast⟩ := List.append_inj' hsplit rfl
      obtain rfl : s.entryFor m after = e := by simpa using hlast
      rw [htotal]
      exact (if_pos rfl).symm
    · rw [List.concat_eq_append, ← List.cons_append, ← List.append_assoc] at hsplit
      exact h.running past e future (List.append_inj' hsplit rfl).1
  · rw [StockState.ledger_enter] at hpast
    rcases List.prefix_concat_iff.mp hpast with rfl | hpast
    · rw [htotal]
      split
      · exact hfits
      · exact h.fits _ (List.prefix_refl _) k
    · exact h.fits past hpast k

theorem change {s t : StockState} (hc : Change s t) (h : Balanced s) : Balanced t := by
  cases hc with
  | tick clock => exact h.congr rfl rfl
  | created new => exact h.congr rfl rfl
  | corrected known dated => exact h.congr rfl rfl
  | entered admitted => exact h.enter admitted
  | photographed d => exact h.congr rfl rfl

end Balanced

theorem StockState.Attained.balanced {s : StockState} (h : s.Attained) : Balanced s :=
  h.induction .empty fun _ hc hs => hs.change hc

/-! ## All stock there can be -/

/-- Whatever has happened, succeeded, repeated or failed: a slot holds the sum of the changes
of its key, each entry records the sum up to and including itself, and all these sums, before
and after each entry, fit into 64 bits. -/
theorem ledger_balances {s : StockState} (hs : s.Reachable) (k : StockKey) :
    s.quantity k = ledgerTotal k s.ledger ∧
    (∀ past e future, s.ledger = past ++ e :: future → e.key = k →
      e.after = ledgerTotal k (past ++ [e])) ∧
    (∀ past, past <+: s.ledger → signed64.contains (ledgerTotal k past) = true) ∧
    ∀ e ∈ s.ledger, e.key = k →
      signed64.contains e.after = true ∧ signed64.contains (e.after - e.delta) = true := by
  have h := hs.attained.balanced
  refine ⟨h.slot k, ?_, fun past hp => h.fits past hp k, ?_⟩
  · rintro past e future hsplit rfl
    exact h.running past e future hsplit
  · rintro e he rfl
    obtain ⟨past, future, hsplit⟩ := List.append_of_mem he
    have hafter := h.running past e future hsplit
    have hbefore : e.after - e.delta = ledgerTotal e.key past := by
      rw [hafter, ledgerTotal_concat, if_pos rfl]
      omega
    rw [hbefore, hafter]
    refine ⟨h.fits _ ⟨future, ?_⟩ _, h.fits _ ⟨e :: future, hsplit.symm⟩ _⟩
    rw [hsplit, List.append_assoc, List.singleton_append]

/-- Six of the nine received have gone out, two of them from batch A. -/
theorem ledger_balances_shipped :
    Sample.shipped.quantity (Sample.key "A") = 3 ∧
    ledgerTotal (Sample.key "A") Sample.shipped.ledger = 3 ∧
    ∀ e ∈ Sample.shipped.ledger, e.key = Sample.key "A" →
      signed64.contains e.after = true ∧ signed64.contains (e.after - e.delta) = true := by
  have h := ledger_balances (Sample.reachable_stock.run [.allocate (Sample.order 1 6)])
    (Sample.key "A")
  have hq : Sample.shipped.quantity (Sample.key "A") = 3 := by decide +kernel
  exact ⟨hq, h.1.symm.trans hq, h.2.2.2⟩

end Stockroom
