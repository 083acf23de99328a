/-
Stockroom.Proofs.Stock.Totals — the totals of a ledger, key by key and as a whole.

Totals are added up entry by entry in a map, and only at the end the keys that have come to zero
are dropped. `quantity_totals` says what a key has come to; a map that holds this of each key, zeros
left out, is the only one there is (`get?_totals`). So the order of the entries does not matter, and
the totals of two ledgers make those of both together.

The sum over all keys grows by each entry as much as the entry moves (`Totals.sum_add`), and zeros
that are dropped take nothing away. `ledger_aggregates` puts both together.
-/
import Stockroom.Proofs.Stock.Comparison

namespace Stockroom

/-! ## Key by key -/

namespace Totals

/-- What totals hold of a key that comes to some quantity: nothing if it comes to zero. -/
def held (q : Int) : Option Int := if q = 0 then none else some q

/-- Once the zeros are dropped, a look-up shows the quantities and nothing else. -/
theorem get?_filter_ne_zero (m : Totals) (k : StockKey) :
    OrderedMap.get? (m.filter (fun _ q => q != 0)) k = held (m.quantity k) := by
  rw [OrderedMap.get?_filter, quantity_eq, held]
  cases m.get? k with
  | none => rfl
  | some q =>
    by_cases hq : q = 0
    · simp [hq]
    · simp [hq]

end Totals

theorem get?_totals (entries : List LedgerEntry) (cut : LedgerCut) (k : StockKey) :
    (totals entries cut).get? k =
      Totals.held (ledgerTotal k (entries.filter (fun e => cut.includes e.occurredAt))) := by
  rw [← quantity_totals, totals, Totals.get?_filter_ne_zero, Totals.quantity_filter_ne_zero]

theorem ledgerTotal_perm {entries entries' : List LedgerEntry} (h : entries.Perm entries')
    (k : StockKey) : ledgerTotal k entries = ledgerTotal k entries' :=
  sumOf_perm _ (h.filter _)

theorem totals_perm {entries entries' : List LedgerEntry} (h : entries.Perm entries')
    (cut : LedgerCut) : totals entries cut = totals entries' cut := by
  apply OrderedMap.ext_get?
  intro k
  rw [get?_totals, get?_totals, ledgerTotal_perm (h.filter _)]

/-- The totals of two ledgers together are the sums of their totals, key by key. -/
theorem get?_totals_append (entries later : List LedgerEntry) (cut : LedgerCut) (k : StockKey) :
    (totals (entries ++ later) cut).get? k =
      Totals.held ((totals entries cut).quantity k + (totals later cut).quantity k) := by
  rw [get?_totals, List.filter_append, ledgerTotal_append, ← quantity_totals, ← quantity_totals]

/-! ## As a whole -/

/-- What is zero anyway may be left out of a sum. -/
theorem sumOf_filter_of_zero {α : Type} {f : α → Int} {p : α → Bool} {xs : List α}
    (h : ∀ x, p x = false → f x = 0) : sumOf f (xs.filter p) = sumOf f xs := by
  induction xs with
  | nil => rfl
  | cons x xs ih =>
    cases hp : p x with
    | true => rw [List.filter_cons_of_pos hp, sumOf_cons, sumOf_cons, ih]
    | false => rw [List.filter_cons_of_neg (by simp [hp]), sumOf_cons, h x hp, ih, Int.zero_add]

/-- Wherever a key stands in a list, or is put, the sum grows by what is added to its value. -/
theorem sumOf_alterList {κ υ : Type} [Ord κ] {f : υ → Int} {g : Option υ → υ} {c : Int}
    (hnew : f (g none) = c) (hold : ∀ v, f (g (some v)) = f v + c) (k : κ)
    (l : List (κ × υ)) :
    sumOf (fun b => f b.2) (OrderedMap.alterList k (fun present => some (g present)) l) =
      sumOf (fun b => f b.2) l + c := by
  induction l with
  | nil => simp [OrderedMap.alterList, hnew]
  | cons b rest ih =>
    obtain ⟨j, v⟩ := b
    cases hk : compare k j with
    | lt =>
      simp only [OrderedMap.alterList, hk, sumOf_cons, hnew]
      omega
    | eq =>
      simp only [OrderedMap.alterList, hk, sumOf_cons, hold]
      omega
    | gt =>
      simp only [OrderedMap.alterList, hk, sumOf_cons, ih]
      omega

namespace Totals

theorem sum_add (m : Totals) (k : StockKey) (delta : Int) :
    (m.add k delta).sum = m.sum + delta :=
  sumOf_alterList (f := id) (g := fun present => present.getD 0 + delta) (Int.zero_add delta)
    (fun _ => rfl) k m.toList

theorem sum_foldl_add (entries : List LedgerEntry) (m : Totals) :
    (entries.foldl (fun m e => m.add e.key e.delta) m).sum = m.sum + sumOf (·.delta) entries := by
  induction entries generalizing m with
  | nil => exact (Int.add_zero _).symm
  | cons e rest ih =>
    rw [List.foldl_cons, ih, sum_add, sumOf_cons]
    omega

theorem sum_filter_ne_zero (m : Totals) : sum (m.filter (fun _ q => q != 0)) = m.sum :=
  sumOf_filter_of_zero fun b hb => by simpa using hb

end Totals

/-- All totals together are all changes together. -/
theorem sum_totals (entries : List LedgerEntry) (cut : LedgerCut) :
    (totals entries cut).sum =
      sumOf (·.delta) (entries.filter (fun e => cut.includes e.occurredAt)) := by
  rw [totals, Totals.sum_filter_ne_zero, Totals.sum_foldl_add]
  exact Int.zero_add _

theorem quantity_ofRows_snapshotRows (d : Date) (entries : List LedgerEntry) :
    (SnapshotSummary.ofRows d (snapshotRows d entries)).quantity =
      (totals entries (.ofDay d)).sum := sumOf_map ..

/-- The totals of a ledger inside a cut hold the sum of its entries inside the cut of each key for
which this is not zero, and no other key. They are the same in whatever order the entries stand;
those of two ledgers together are the sums of both, key by key, where zeros are dropped once more.
The quantity that is told of them, and the one that is told of the rows of a day, is the sum of all
changes inside the cut. -/
theorem ledger_aggregates (entries : List LedgerEntry) (cut : LedgerCut) :
    (∀ k, (totals entries cut).get? k =
      Totals.held (ledgerTotal k (entries.filter (fun e => cut.includes e.occurredAt)))) ∧
    (∀ entries', entries.Perm entries' → totals entries' cut = totals entries cut) ∧
    (∀ later k, (totals (entries ++ later) cut).get? k =
      Totals.held ((totals entries cut).quantity k + (totals later cut).quantity k)) ∧
    (SnapshotSummary.ofTotals (totals entries cut)).quantity =
      sumOf (·.delta) (entries.filter (fun e => cut.includes e.occurredAt)) ∧
    ∀ d, (SnapshotSummary.ofRows d (snapshotRows d entries)).quantity =
      sumOf (·.delta) (entries.filter (fun e => (LedgerCut.ofDay d).includes e.occurredAt)) := by
  refine ⟨get?_totals entries cut, fun entries' h => (totals_perm h cut).symm,
    fun later k => get?_totals_append entries later cut k, sum_totals entries cut, fun d => ?_⟩
  rw [quantity_ofRows_snapshotRows, sum_totals]

namespace Sample

/-- What came in before the order. -/
def cameIn : List LedgerEntry := shipped.ledger.take 2

/-- What the order took out: all of batch B, and two of batch A. -/
def wentOut : List LedgerEntry := shipped.ledger.drop 2

/-- All that happened up to the tenth day. -/
def tenDays : LedgerCut := .atOrBefore latePick.occurredAt

end Sample

open Sample in
/-- Batch B has a total in what came in and one in what went out, and none in both together. -/
theorem ledger_aggregates_halves :
    (totals cameIn tenDays).get? (key "B") = some 4 ∧
    (totals wentOut tenDays).get? (key "B") = some (-4) ∧
    (totals (cameIn ++ wentOut) tenDays).get? (key "B") = none ∧
    (totals (cameIn ++ wentOut) tenDays).get? (key "A") = some 3 ∧
    totals cameIn.reverse tenDays = totals cameIn tenDays ∧
    (SnapshotSummary.ofTotals (totals cameIn tenDays)).quantity = 9 := by
  obtain ⟨hget, hperm, happend, hsum, -⟩ := ledger_aggregates cameIn tenDays
  refine ⟨?_, by decide +kernel, ?_, ?_, hperm _ (List.reverse_perm _).symm, ?_⟩
  · rw [hget]
    decide +kernel
  · rw [happend]
    decide +kernel
  · rw [happend]
    decide +kernel
  · rw [hsum]
    decide +kernel

end Stockroom
