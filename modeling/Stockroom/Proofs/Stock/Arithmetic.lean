/-
Stockroom.Proofs.Stock.Arithmetic — numbers of a fixed width give the exact result or none.

* `StopsUnless` says of a computation that it is the exact one where some numbers fit, and stops
  where they do not. There is one such statement for each function that computes in numbers of a
  fixed width, and `StopsUnless.bind` puts them together.
* The numbers are those on the way: `AddsUp` speaks of the sums of all first terms of a list,
  `TotalsFit` of the totals of all keys after each entry, and `NextLinesFit` of the lines behind
  those of some legs.
* A sum of terms that are not negative fits if the whole does (`addsUp_iff_of_nonneg`). The totals
  of a ledger fit where no entry lies behind the cut, for then they are what the slots have held in
  turn (`Attained.totalsFit`).
-/
import Mathlib.Data.List.Infix
import Stockroom.Proofs.Stock.Totals
import Stockroom.Proofs.Text
import Stockroom.Stock.Arithmetic

namespace Stockroom

open IntegerRange (signed32 signed64 contains_iff)

/-! ## Computations that stop -/

/-- A computation is the exact one where the numbers fit, and has `stopped` where they do not. -/
structure StopsUnless {β : Type} (fits : Prop) (stopped computed exact : β) : Prop where
  exact : fits → computed = exact
  stops : ¬ fits → computed = stopped

namespace StopsUnless

variable {α β γ : Type} {fits fits' : Prop}

theorem of_fits {stopped x y : β} (h : fits) (heq : x = y) : StopsUnless fits stopped x y :=
  ⟨fun _ => heq, fun hnot => absurd h hnot⟩

theorem congr {stopped x y : β} (h : StopsUnless fits stopped x y) (hiff : fits ↔ fits') :
    StopsUnless fits' stopped x y :=
  ⟨fun hfits => h.exact (hiff.mpr hfits), fun hnot => h.stops fun hfits => hnot (hiff.mp hfits)⟩

theorem trans_exact {stopped x y z : β} (h : StopsUnless fits stopped x y) (heq : y = z) :
    StopsUnless fits stopped x z := heq ▸ h

/-- What is made of what a computation comes to is made of both endings. -/
theorem image {stopped x y : β} (h : StopsUnless fits stopped x y) (g : β → γ) :
    StopsUnless fits (g stopped) (g x) (g y) :=
  ⟨fun hfits => congrArg g (h.exact hfits), fun hnot => congrArg g (h.stops hnot)⟩

/-- Either way the computation ends in one of two ways. -/
theorem eq_or_eq {stopped x y : β} (h : StopsUnless fits stopped x y) : x = y ∨ x = stopped := by
  by_cases hfits : fits
  · exact .inl (h.exact hfits)
  · exact .inr (h.stops hfits)

/-- A sequence of two such computations stops in one of them. -/
theorem bind {e : StoreError} {x : Except StoreError α} {a : α}
    {f : α → Except StoreError β} {y : Except StoreError β}
    (hx : StopsUnless fits (.error e) x (.ok a)) (hf : StopsUnless fits' (.error e) (f a) y) :
    StopsUnless (fits ∧ fits') (.error e) (x >>= f) y := by
  constructor
  · rintro ⟨hfits, hfits'⟩
    rw [hx.exact hfits]
    exact hf.exact hfits'
  · intro hnot
    by_cases hfits : fits
    · rw [hx.exact hfits]
      exact hf.stops fun hfits' => hnot ⟨hfits, hfits'⟩
    · rw [hx.stops hfits]
      rfl

/-- What is made of the result does not stop. -/
theorem map {e : StoreError} {x : Except StoreError α} {a : α}
    (hx : StopsUnless fits (.error e) x (.ok a)) (g : α → β) :
    StopsUnless fits (.error e) (x >>= fun a => pure (g a)) (.ok (g a)) :=
  (hx.bind (of_fits trivial rfl)).congr (iff_of_eq (and_true fits))

end StopsUnless

/-! ## Sums -/

/-- Whether the sums of all first terms of a list have room, that of all terms among them. -/
def AddsUp {α : Type} (f : α → Int) (xs : List α) : Prop :=
  ∀ past, past <+: xs → signed64.contains (sumOf f past) = true

section Sums

variable {α : Type} {f : α → Int} {xs : List α}

theorem keep_stopsUnless (r : IntegerRange) (n : Int) :
    StopsUnless (r.contains n = true) (.error .outOfRange) (r.keep n) (.ok n) :=
  ⟨fun h => if_pos h, fun h => if_neg h⟩

instance (f : α → Int) (xs : List α) : Decidable (AddsUp f xs) :=
  decidable_of_iff (∀ past ∈ xs.inits, signed64.contains (sumOf f past) = true)
    (forall_congr' fun past => imp_congr_left (List.mem_inits past xs))

/-- A sum that is counted on stops at the first term behind which it has no room. -/
theorem sumFrom_stopsUnless (f : α → Int) (xs : List α) (start : Int)
    (hstart : signed64.contains start = true) :
    StopsUnless (∀ past, past <+: xs → signed64.contains (start + sumOf f past) = true)
      (.error .outOfRange) (signed64.sumFrom f start xs) (.ok (start + sumOf f xs)) := by
  induction xs generalizing start with
  | nil =>
    refine .of_fits (fun past hpast => ?_) (congrArg Except.ok (Int.add_zero start).symm)
    rw [List.prefix_nil.mp hpast, sumOf_nil, Int.add_zero]
    exact hstart
  | cons x xs ih =>
    by_cases hnext : signed64.contains (start + f x) = true
    · have hrest := ih _ hnext
      rw [Int.add_assoc] at hrest
      rw [IntegerRange.sumFrom, (keep_stopsUnless _ _).exact hnext]
      refine hrest.congr ?_
      constructor
      · intro h past hpast
        rcases List.prefix_cons_iff.mp hpast with rfl | ⟨past', rfl, hpast'⟩
        · rwa [sumOf_nil, Int.add_zero]
        · rw [sumOf_cons, ← Int.add_assoc]
          exact h past' hpast'
      · intro h past hpast
        have := h (x :: past) (List.prefix_cons_inj x |>.mpr hpast)
        rwa [sumOf_cons, ← Int.add_assoc] at this
    · rw [IntegerRange.sumFrom, (keep_stopsUnless _ _).stops hnext]
      refine ⟨fun h => absurd (h [x] ?_) ?_, fun _ => rfl⟩
      · exact List.prefix_cons_inj x |>.mpr List.nil_prefix
      · rwa [sumOf_cons, sumOf_nil, Int.add_zero]

theorem sum_stopsUnless (f : α → Int) (xs : List α) :
    StopsUnless (AddsUp f xs) (.error .outOfRange) (signed64.sum f xs) (.ok (sumOf f xs)) := by
  have h := sumFrom_stopsUnless f xs 0 (by decide)
  simp only [Int.zero_add] at h
  exact h

/-- Where no term is negative, it is enough that the whole has room. -/
theorem addsUp_iff_of_nonneg (h : ∀ x ∈ xs, 0 ≤ f x) :
    AddsUp f xs ↔ sumOf f xs ≤ signed64.greatest := by
  constructor
  · intro hadds
    exact (contains_iff.mp (hadds xs (List.prefix_refl xs))).2
  · rintro hle past ⟨future, rfl⟩
    have hpast : 0 ≤ sumOf f past := sumOf_nonneg fun x hx => h x (List.mem_append_left _ hx)
    have hfuture : 0 ≤ sumOf f future := sumOf_nonneg fun x hx => h x (List.mem_append_right _ hx)
    rw [sumOf_append] at hle
    exact contains_iff.mpr ⟨Int.le_trans (by decide) hpast, by omega⟩

/-- The sums on the way are taken of what the terms stand for. -/
theorem addsUp_map {β : Type} (g : β → α) (ys : List β) :
    AddsUp f (ys.map g) ↔ AddsUp (fun y => f (g y)) ys := by
  constructor
  · intro h past hpast
    rw [← sumOf_map]
    exact h _ (hpast.map g)
  · intro h past hpast
    obtain ⟨past', hpast', rfl⟩ := List.prefix_map_iff.mp hpast
    rw [sumOf_map]
    exact h past' hpast'

/-- What is zero anyway makes no difference to the sums on the way. -/
theorem addsUp_filter_of_zero {p : α → Bool} (h : ∀ x, p x = false → f x = 0) :
    AddsUp f (xs.filter p) ↔ AddsUp f xs := by
  constructor
  · intro hadds past hpast
    rw [← sumOf_filter_of_zero h]
    exact hadds _ (hpast.filter p)
  · intro hadds past hpast
    obtain ⟨past', hpast', rfl⟩ := List.prefix_filter_iff.mp hpast
    rw [sumOf_filter_of_zero h]
    exact hadds past' hpast'

end Sums

/-! ## Totals -/

/-- Entries are counted as long as the sum of each group has room. -/
theorem tally_stopsUnless {μ κ : Type} [DecidableEq κ] (sum : μ → κ → Int)
    (group : LedgerEntry → κ) (count : μ → LedgerEntry → μ)
    (hcount : ∀ m e k, sum (count m e) k = sum m k + if group e = k then e.delta else 0)
    (entries : List LedgerEntry) {m : μ} (hm : ∀ k, signed64.contains (sum m k) = true) :
    StopsUnless
      (∀ past, past <+: entries → ∀ k, signed64.contains
        (sum m k + sumOf (·.delta) (past.filter (fun e => group e == k))) = true)
      (.error .outOfRange) (Bounded.tally sum group count m entries)
      (.ok (entries.foldl count m)) := by
  induction entries generalizing m with
  | nil =>
    refine .of_fits (fun past hpast k => ?_) rfl
    rw [List.prefix_nil.mp hpast, List.filter_nil, sumOf_nil, Int.add_zero]
    exact hm k
  | cons e rest ih =>
    -- one entry more or less in front
    have hshift (k : κ) (past : List LedgerEntry) :
        sum m k + sumOf (·.delta) ((e :: past).filter (fun e => group e == k)) =
          sum (count m e) k + sumOf (·.delta) (past.filter (fun e => group e == k)) := by
      rw [hcount]
      by_cases hk : group e = k
      · simp [hk, Int.add_assoc]
      · simp [hk]
    by_cases hnext : signed64.contains (sum m (group e) + e.delta) = true
    · have hm' : ∀ k, signed64.contains (sum (count m e) k) = true := by
        intro k
        rw [hcount]
        by_cases hk : group e = k
        · rw [if_pos hk, ← hk]
          exact hnext
        · rw [if_neg hk, Int.add_zero]
          exact hm k
      rw [Bounded.tally, (keep_stopsUnless _ _).exact hnext]
      refine (ih hm').congr ?_
      constructor
      · intro h past hpast k
        rcases List.prefix_cons_iff.mp hpast with rfl | ⟨past', rfl, hpast'⟩
        · rw [List.filter_nil, sumOf_nil, Int.add_zero]
          exact hm k
        · rw [hshift]
          exact h past' hpast' k
      · intro h past hpast k
        rw [← hshift]
        exact h (e :: past) ((List.prefix_cons_inj e).mpr hpast) k
    · rw [Bounded.tally, (keep_stopsUnless _ _).stops hnext]
      refine ⟨fun h => absurd (h [e] ((List.prefix_cons_inj e).mpr List.nil_prefix) (group e)) ?_,
        fun _ => rfl⟩
      rw [hshift, hcount, if_pos rfl, List.filter_nil, sumOf_nil, Int.add_zero]
      exact hnext

/-- Whether the totals of all keys have room after each entry inside a cut. -/
def TotalsFit (entries : List LedgerEntry) (cut : LedgerCut) : Prop :=
  ∀ past, past <+: entries.filter (fun e => cut.includes e.occurredAt) →
    ∀ k, signed64.contains (ledgerTotal k past) = true

/-- Only the keys that occur have to be looked at. -/
theorem totalsFit_iff_inits {entries : List LedgerEntry} {cut : LedgerCut} :
    TotalsFit entries cut ↔
      ∀ past ∈ (entries.filter (fun e => cut.includes e.occurredAt)).inits,
        ∀ e ∈ past, signed64.contains (ledgerTotal e.key past) = true := by
  constructor
  · intro h past hpast e _
    exact h past ((List.mem_inits _ _).mp hpast) e.key
  · intro h past hpast k
    by_cases hk : ∃ e ∈ past, e.key = k
    · obtain ⟨e, he, rfl⟩ := hk
      exact h past ((List.mem_inits _ _).mpr hpast) e he
    · have hnone : past.filter (fun e => e.key == k) = [] :=
        List.filter_eq_nil_iff.mpr fun e he heq => hk ⟨e, he, beq_iff_eq.mp heq⟩
      rw [ledgerTotal, hnone]
      rfl

instance (entries : List LedgerEntry) (cut : LedgerCut) : Decidable (TotalsFit entries cut) :=
  decidable_of_iff _ totalsFit_iff_inits.symm

/-- Where every entry of stock there can be is inside the cut, the totals are what the slots have
held in turn. -/
theorem StockState.Attained.totalsFit {s : StockState} (h : s.Attained) {cut : LedgerCut}
    (hcut : ∀ e ∈ s.ledger, cut.includes e.occurredAt = true) : TotalsFit s.ledger cut := by
  intro past hpast k
  rw [List.filter_eq_self.mpr hcut] at hpast
  exact h.balanced.fits past hpast k

namespace Bounded

theorem totals_stopsUnless (entries : List LedgerEntry) (cut : LedgerCut) :
    StopsUnless (TotalsFit entries cut) (.error .outOfRange) (totals entries cut)
      (.ok (Stockroom.totals entries cut)) := by
  have htally := tally_stopsUnless Totals.quantity (·.key) (fun m e => m.add e.key e.delta)
    (fun m e k => Totals.quantity_add m e.key k e.delta)
    (entries.filter (fun e => cut.includes e.occurredAt)) (m := .empty) (fun k => by rfl)
  have hempty (k : StockKey) (past : List LedgerEntry) :
      Totals.quantity .empty k + sumOf (·.delta) (past.filter (fun e => e.key == k)) =
        ledgerTotal k past := Int.zero_add _
  simp only [hempty] at htally
  exact htally.map _

/-! ## Day snapshots -/

theorem snapshotRows_stopsUnless (d : Date) (entries : List LedgerEntry) :
    StopsUnless (TotalsFit entries (.ofDay d)) (.error .outOfRange) (snapshotRows d entries)
      (.ok (Stockroom.snapshotRows d entries)) :=
  (totals_stopsUnless entries (.ofDay d)).map _

theorem summaryOfTotals_stopsUnless (m : Totals) :
    StopsUnless (AddsUp (·.2) m.toList) (.error .outOfRange) (summaryOfTotals m)
      (.ok (.ofTotals m)) := (sum_stopsUnless _ _).map _

theorem summaryOfRows_stopsUnless (d : Date) (rows : List SnapshotRow) :
    StopsUnless (AddsUp (·.onHand) rows) (.error .outOfRange) (summaryOfRows d rows)
      (.ok (.ofRows d rows)) := (sum_stopsUnless _ _).map _

/-! ## Comparisons -/

theorem mismatchesAt_stopsUnless (kind : MismatchKind) (left right : Totals)
    (ks : List StockKey) :
    StopsUnless (∀ k ∈ ks, signed64.contains (left.quantity k - right.quantity k) = true)
      (.error .outOfRange) (mismatchesAt kind left right ks)
      (.ok (ks.filterMap fun k =>
        if left.quantity k = right.quantity k then none
        else some ⟨kind, k, left.quantity k, right.quantity k,
          left.quantity k - right.quantity k⟩)) := by
  induction ks with
  | nil => exact .of_fits nofun rfl
  | cons k rest ih =>
    rw [mismatchesAt]
    by_cases hsame : left.quantity k = right.quantity k
    · rw [if_pos hsame, List.filterMap_cons, if_pos hsame]
      refine ih.congr ?_
      have hzero : signed64.contains (left.quantity k - right.quantity k) = true := by
        rw [hsame, Int.sub_self]
        rfl
      rw [List.forall_mem_cons]
      exact (and_iff_right hzero).symm
    · rw [if_neg hsame, List.filterMap_cons, if_neg hsame]
      refine ((keep_stopsUnless signed64 _).bind (ih.map _)).congr ?_
      rw [List.forall_mem_cons]

/-- Whether all differences of two sides have room. -/
def DifferencesFit (left right : Totals) : Prop :=
  ∀ k, signed64.contains (left.quantity k - right.quantity k) = true

/-- Sides with the same quantities have no differences. -/
theorem DifferencesFit.of_eq {left right : Totals}
    (h : ∀ k, left.quantity k = right.quantity k) : DifferencesFit left right := by
  intro k
  rw [h k, Int.sub_self]
  rfl

theorem mismatches_stopsUnless (kind : MismatchKind) (left right : Totals) :
    StopsUnless (DifferencesFit left right) (.error .outOfRange) (mismatches kind left right)
      (.ok (Stockroom.mismatches kind left right)) := by
  refine (mismatchesAt_stopsUnless kind left right (eitherKeys left right)).congr ?_
  refine ⟨fun h k => ?_, fun h k _ => h k⟩
  by_cases hk : left.quantity k = right.quantity k
  · rw [hk, Int.sub_self]
    rfl
  · exact h k (List.mem_filter.mp (mem_differing.mpr hk)).1

theorem reconcile_stopsUnless (cut : Instant) (ledger stock snapshot : Totals) :
    StopsUnless
      (DifferencesFit ledger stock ∧ DifferencesFit ledger snapshot ∧
        DifferencesFit stock snapshot)
      (.error .outOfRange) (reconcile cut ledger stock snapshot)
      (.ok (Stockroom.reconcile cut ledger stock snapshot)) :=
  (mismatches_stopsUnless _ ledger stock).bind <|
    (mismatches_stopsUnless _ ledger snapshot).bind <|
      (mismatches_stopsUnless _ stock snapshot).map _

/-! ## Activity of a period -/

/-- Whether the totals of all groups have room after each entry. -/
def GroupsFit {κ : Type} [DecidableEq κ] (group : LedgerEntry → κ) (entries : List LedgerEntry) :
    Prop :=
  ∀ past, past <+: entries → ∀ g,
    signed64.contains (sumOf (·.delta) (past.filter (fun e => group e == g))) = true

theorem groupBy_stopsUnless {κ : Type} [Ord κ] [Std.TransOrd κ] [Std.LawfulEqOrd κ]
    [DecidableEq κ] (group : LedgerEntry → κ) (entries : List LedgerEntry) :
    StopsUnless (GroupsFit group entries) (.error .outOfRange) (groupBy group entries)
      (.ok (Stockroom.groupBy group entries)) := by
  have hcount (m : OrderedMap κ DeltaSummary) (e : LedgerEntry) (g : κ) :
      ((m.alter (group e) (fun s => some ((s.getD .zero).add e.delta))).getD g .zero).total =
        (m.getD g .zero).total + if group e = g then e.delta else 0 := by
    rw [OrderedMap.getD, OrderedMap.get?_alter, OrderedMap.getD]
    by_cases hg : group e = g
    · rw [if_pos hg, if_pos hg, hg]
      rfl
    · rw [if_neg hg, if_neg hg, Int.add_zero]
  have htally := tally_stopsUnless (fun (m : OrderedMap κ DeltaSummary) g => (m.getD g .zero).total)
    group _ hcount entries (m := .empty) (fun g => by rfl)
  have hempty (g : κ) (past : List LedgerEntry) :
      ((OrderedMap.empty : OrderedMap κ DeltaSummary).getD g .zero).total +
          sumOf (·.delta) (past.filter (fun e => group e == g)) =
        sumOf (·.delta) (past.filter (fun e => group e == g)) := Int.zero_add _
  simp only [hempty] at htally
  exact htally

theorem diagnose_stopsUnless (entries : List LedgerEntry) (since upTo : Instant) :
    let inside := entries.filter (LedgerEntry.isWithin since upTo)
    StopsUnless
      (GroupsFit (·.reason.movementClass) inside ∧ GroupsFit (·.reference) inside ∧
        GroupsFit (·.trace.val) inside)
      (.error .outOfRange) (diagnose entries since upTo)
      (.ok (Stockroom.diagnose entries since upTo)) :=
  (groupBy_stopsUnless _ _).bind <| (groupBy_stopsUnless _ _).bind <|
    (groupBy_stopsUnless _ _).map _

/-! ## Plans -/

theorem planAllocation_stopsUnless (item : ItemId) (warehouse : WarehouseId) (n : Int)
    (candidates : List Candidate) (options : PlanOptions) :
    StopsUnless (0 < n → AddsUp (·.quantity) (queue item warehouse options candidates))
      (.error .outOfRange) (planAllocation item warehouse n candidates options)
      ((Stockroom.planAllocation item warehouse n candidates options).mapError .domain) := by
  rw [planAllocation, Stockroom.planAllocation]
  by_cases hn : n ≤ 0
  · rw [if_pos hn, if_pos hn]
    exact .of_fits (fun hpos => absurd hn (Int.not_le.mpr hpos)) rfl
  · rw [if_neg hn, if_neg hn]
    have hsum := sum_stopsUnless (·.quantity) (queue item warehouse options candidates)
    refine ((hsum.bind (.of_fits trivial ?_)).congr ?_)
    · show _ = Except.mapError _ (if offered _ < n then _ else _)
      rw [offered]
      split <;> rfl
    · rw [and_true]
      exact ⟨fun h _ => h, fun h => h (Int.not_le.mp hn)⟩

/-! ## Lines -/

/-- Whether there is a next line behind each of `n` lines from `line` on. -/
def NextLinesFit (line : Int) (n : Nat) : Prop :=
  ∀ i : Nat, i < n → signed32.contains (line + i + 1) = true

section Lines

variable {r : AllocationRequest} {line : Int}

theorem nextLinesFit_succ_iff {n : Nat} :
    NextLinesFit line (n + 1) ↔
      signed32.contains (line + 1) = true ∧ NextLinesFit (line + 1) n := by
  have hshift (i : Nat) : line + (i + 1 : Nat) + 1 = line + 1 + i + 1 := by omega
  constructor
  · intro h
    refine ⟨by simpa using h 0 (Nat.zero_lt_succ n), fun i hi => ?_⟩
    rw [← hshift]
    exact h (i + 1) (Nat.succ_lt_succ hi)
  · rintro ⟨hfirst, hrest⟩ i hi
    cases i with
    | zero => simpa using hfirst
    | succ i =>
      rw [hshift]
      exact hrest i (Nat.lt_of_succ_lt_succ hi)

/-- From a line on that there is, the last one counts. -/
theorem nextLinesFit_iff (hline : signed32.contains line = true) {n : Nat} :
    NextLinesFit line n ↔ line + n ≤ signed32.greatest := by
  obtain ⟨hlow, hhigh⟩ := contains_iff.mp hline
  constructor
  · intro h
    cases n with
    | zero => simpa using hhigh
    | succ n =>
      have hlast := (contains_iff.mp (h n (Nat.lt_succ_self n))).2
      omega
  · intro h i hi
    exact contains_iff.mpr (by omega)

theorem legMovementsFrom_stopsUnless (r : AllocationRequest) (line : Int)
    (legs : List AllocationLeg) :
    StopsUnless (NextLinesFit line legs.length) (.error .outOfRange)
      (legMovementsFrom r line legs) (.ok (r.legMovementsFrom line legs)) := by
  induction legs generalizing line with
  | nil => exact .of_fits nofun rfl
  | cons leg rest ih =>
    exact ((keep_stopsUnless signed32 _).bind ((ih _).map _)).congr nextLinesFit_succ_iff.symm

/-- The count along the lines of earlier legs goes one further than these. -/
theorem consecutiveFrom_stopsUnless (line : Int) (entries : List LedgerEntry) :
    StopsUnless (NextLinesFit line (Stockroom.consecutiveFrom line entries).length)
      (.error .outOfRange) (consecutiveFrom line entries)
      (.ok (Stockroom.consecutiveFrom line entries)) := by
  induction entries generalizing line with
  | nil => exact .of_fits nofun rfl
  | cons e rest ih =>
    rw [consecutiveFrom, Stockroom.consecutiveFrom]
    by_cases he : e.line = line
    · rw [if_pos he, if_pos he]
      exact ((keep_stopsUnless signed32 _).bind ((ih _).map _)).congr nextLinesFit_succ_iff.symm
    · rw [if_neg he, if_neg he]
      exact ih line

theorem priorLegs_stopsUnless (entries : List LedgerEntry) (r : AllocationRequest) :
    StopsUnless
      (∀ legs, Stockroom.priorLegs entries r = .ok (some legs) →
        NextLinesFit r.startLine legs.length)
      (.error .outOfRange) (priorLegs entries r)
      ((Stockroom.priorLegs entries r).mapError .domain) := by
  unfold priorLegs Stockroom.priorLegs
  cases entries.find? (fun e => e.line == r.startLine) with
  | none => exact .of_fits nofun rfl
  | some head =>
    dsimp only
    by_cases hleg : r.isLeg head = true
    · rw [if_pos hleg, if_pos hleg]
      refine ((consecutiveFrom_stopsUnless r.startLine _).map _).congr ?_
      constructor
      · rintro h legs ⟨⟩
        exact h
      · intro h
        exact h _ rfl
    · rw [if_neg hleg, if_neg hleg]
      exact .of_fits nofun rfl

theorem planOfLegs_stopsUnless (r : AllocationRequest) (legs : List LedgerEntry) :
    StopsUnless (AddsUp (fun e => -e.delta) legs) (.error .outOfRange) (planOfLegs r legs)
      (.ok (Stockroom.planOfLegs r legs)) := (sum_stopsUnless _ _).map _

end Lines

end Bounded

end Stockroom
