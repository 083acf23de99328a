/-
Stockroom.Proofs.Engine.Diagnostics — the activity of a period is divided up three times.

* `get?_groupBy`: the summary of a group is that of its entries, and a group without any has none.
  A map with these look-ups is the only one there is, so the order of the entries makes no
  difference (`groupBy_perm`).
* All counts together, and all totals, grow with each entry as one of the groups does
  (`sum_groupBy`). Hence they are those of the period, whatever the groups are.
* `Divides` says both of one map. The three maps of `diagnose` divide up the same entries, and an
  engine that looks at its own ledger has them twice filtered, which changes nothing.
-/
import Stockroom.Proofs.Engine.Healing
import Stockroom.Proofs.Stock.Totals

namespace Stockroom

open EngineM

/-! ## Summaries -/

namespace DeltaSummary

/-- One entry more, also if it is the first one. -/
def extend (s : Option DeltaSummary) (e : LedgerEntry) : Option DeltaSummary :=
  some ((s.getD .zero).add e.delta)

/-- The summary of some entries; there is none of no entries. -/
def ofEntries? (entries : List LedgerEntry) : Option DeltaSummary :=
  if entries.isEmpty then none else some ⟨entries.length, sumOf (·.delta) entries⟩

theorem foldl_extend_some (entries : List LedgerEntry) (s : DeltaSummary) :
    entries.foldl extend (some s) =
      some ⟨s.count + entries.length, s.total + sumOf (·.delta) entries⟩ := by
  induction entries generalizing s with
  | nil => simp
  | cons e rest ih =>
    rw [List.foldl_cons]
    show rest.foldl extend (some (s.add e.delta)) = _
    rw [ih, List.length_cons, sumOf_cons]
    simp only [add, Option.some.injEq, DeltaSummary.mk.injEq]
    omega

/-- To count and add up entries one after another gives their summary. -/
theorem foldl_extend (entries : List LedgerEntry) :
    entries.foldl extend none = ofEntries? entries := by
  cases entries with
  | nil => rfl
  | cons e rest =>
    rw [List.foldl_cons]
    show rest.foldl extend (some (zero.add e.delta)) = _
    rw [foldl_extend_some]
    simp only [ofEntries?, add, zero, List.isEmpty_cons, Bool.false_eq_true, if_false,
      List.length_cons, sumOf_cons, Option.some.injEq, DeltaSummary.mk.injEq]
    omega

theorem ofEntries?_perm {entries entries' : List LedgerEntry} (h : entries.Perm entries') :
    ofEntries? entries = ofEntries? entries' := by
  rw [ofEntries?, ofEntries?, h.isEmpty_eq, h.length_eq, sumOf_perm _ h]

theorem ofEntries?_eq_some_iff {entries : List LedgerEntry} {s : DeltaSummary} :
    ofEntries? entries = some s ↔
      entries ≠ [] ∧ s.count = entries.length ∧ s.total = sumOf (·.delta) entries := by
  obtain ⟨count, total⟩ := s
  cases entries with
  | nil => simp [ofEntries?]
  | cons e rest => simp [ofEntries?, eq_comm]

end DeltaSummary

/-! ## Groups -/

section Groups

variable {κ : Type} [Ord κ] [Std.TransOrd κ] [Std.LawfulEqOrd κ] [DecidableEq κ]
  (group : LedgerEntry → κ)

/-- The group of a key is summed up from its own entries. -/
theorem get?_groupBy (entries : List LedgerEntry) (g : κ) :
    (groupBy group entries).get? g =
      DeltaSummary.ofEntries? (entries.filter (fun e => group e == g)) := by
  have hfold (m : OrderedMap κ DeltaSummary) :
      (entries.foldl (fun m e => m.alter (group e) (DeltaSummary.extend · e)) m).get? g =
        (entries.filter (fun e => group e == g)).foldl DeltaSummary.extend (m.get? g) := by
    induction entries generalizing m with
    | nil => rfl
    | cons e rest ih =>
      rw [List.foldl_cons, ih, OrderedMap.get?_alter]
      by_cases hg : group e = g
      · simp [hg]
      · simp [hg]
  rw [← DeltaSummary.foldl_extend]
  exact hfold .empty

theorem groupBy_perm {entries entries' : List LedgerEntry} (h : entries.Perm entries') :
    groupBy group entries = groupBy group entries' := by
  apply OrderedMap.ext_get?
  intro g
  rw [get?_groupBy, get?_groupBy, DeltaSummary.ofEntries?_perm (h.filter _)]

omit [Std.LawfulEqOrd κ] [DecidableEq κ] in
/-- What grows with each entry of a group grows with each entry of all groups. -/
theorem sum_groupBy {f : DeltaSummary → Int} {c : Int → Int} (hzero : f .zero = 0)
    (hadd : ∀ s delta, f (s.add delta) = f s + c delta) (entries : List LedgerEntry) :
    sumOf (fun b => f b.2) (groupBy group entries).toList =
      sumOf (fun e => c e.delta) entries := by
  have hfold (m : OrderedMap κ DeltaSummary) :
      sumOf (fun b => f b.2)
        (entries.foldl (fun m e => m.alter (group e) (DeltaSummary.extend · e)) m).toList =
        sumOf (fun b => f b.2) m.toList + sumOf (fun e => c e.delta) entries := by
    induction entries generalizing m with
    | nil => simp
    | cons e rest ih =>
      have hone : sumOf (fun b => f b.2)
          (m.alter (group e) (DeltaSummary.extend · e)).toList =
            sumOf (fun b => f b.2) m.toList + c e.delta := by
        refine sumOf_alterList (g := fun s => (s.getD .zero).add e.delta) ?_ (fun s => ?_)
          (group e) m.toList
        · rw [Option.getD_none, hadd, hzero, Int.zero_add]
        · rw [Option.getD_some, hadd]
      rw [List.foldl_cons, ih, hone, sumOf_cons]
      omega
  exact (hfold .empty).trans (Int.zero_add _)

/-- A map that divides entries up: it has the groups that some entry belongs to and no others, each
with the number of its entries and what they come to; all groups together have all entries. -/
structure Divides (entries : List LedgerEntry) (m : OrderedMap κ DeltaSummary) : Prop where
  listed : ∀ g, (∃ s, m.get? g = some s) ↔ ∃ e ∈ entries, group e = g
  count : ∀ g s, m.get? g = some s → s.count = entries.countP (fun e => group e == g)
  total : ∀ g s, m.get? g = some s →
    s.total = sumOf (·.delta) (entries.filter (fun e => group e == g))
  counts : natSumOf (fun b => b.2.count) m.toList = entries.length
  totals : sumOf (fun b => b.2.total) m.toList = sumOf (·.delta) entries

theorem divides_groupBy (entries : List LedgerEntry) :
    Divides group entries (groupBy group entries) := by
  refine ⟨fun g => ?_, fun g s h => ?_, fun g s h => ?_, ?_, ?_⟩
  · simp only [get?_groupBy, DeltaSummary.ofEntries?_eq_some_iff]
    constructor
    · rintro ⟨s, hne, -⟩
      obtain ⟨e, he⟩ := List.exists_mem_of_ne_nil _ hne
      obtain ⟨he, hg⟩ := List.mem_filter.mp he
      exact ⟨e, he, beq_iff_eq.mp hg⟩
    · rintro ⟨e, he, hg⟩
      have hmem : e ∈ entries.filter (fun e => group e == g) :=
        List.mem_filter.mpr ⟨he, beq_iff_eq.mpr hg⟩
      exact ⟨⟨_, _⟩, List.ne_nil_of_mem hmem, rfl, rfl⟩
  · rw [get?_groupBy, DeltaSummary.ofEntries?_eq_some_iff] at h
    rw [h.2.1, List.countP_eq_length_filter]
  · rw [get?_groupBy, DeltaSummary.ofEntries?_eq_some_iff] at h
    exact h.2.2
  · rw [← Int.natCast_inj, natCast_natSumOf, ← sumOf_one]
    exact sum_groupBy group (f := fun s => (s.count : Int)) (c := fun _ => 1) rfl
      (fun _ _ => rfl) entries
  · exact sum_groupBy group (f := fun s => s.total) (c := id) rfl (fun _ _ => rfl) entries

end Groups

/-! ## The activity of a period -/

/-- The entries from one instant to another, both included. -/
def window (entries : List LedgerEntry) (since upTo : Instant) : List LedgerEntry :=
  entries.filter (fun e => decide (since ≤ e.occurredAt ∧ e.occurredAt ≤ upTo))

section Window

variable {entries entries' outside : List LedgerEntry} {since upTo : Instant}

theorem filter_isWithin (entries : List LedgerEntry) (since upTo : Instant) :
    entries.filter (LedgerEntry.isWithin since upTo) = window entries since upTo :=
  List.filter_congr fun _ _ => (Bool.decide_and _ _).symm

/-- The activity of a period is that of its window. -/
theorem diagnose_eq (entries : List LedgerEntry) (since upTo : Instant) :
    diagnose entries since upTo =
      { since, upTo
        byClass := groupBy (·.reason.movementClass) (window entries since upTo)
        byReference := groupBy (·.reference) (window entries since upTo)
        byTrace := groupBy (·.trace.val) (window entries since upTo) } := by
  simp only [diagnose, filter_isWithin]

/-- Windows with the same entries, in any order, have the same activity. -/
theorem diagnose_congr (h : (window entries' since upTo).Perm (window entries since upTo)) :
    diagnose entries' since upTo = diagnose entries since upTo := by
  rw [diagnose_eq, diagnose_eq, groupBy_perm _ h, groupBy_perm _ h, groupBy_perm _ h]

theorem window_append_outside
    (h : ∀ e ∈ outside, ¬ (since ≤ e.occurredAt ∧ e.occurredAt ≤ upTo)) :
    window (entries ++ outside) since upTo = window entries since upTo := by
  have hnone : window outside since upTo = [] :=
    List.filter_eq_nil_iff.mpr fun e he => by simpa using h e he
  rw [window, List.filter_append]
  exact (congrArg _ hnone).trans (List.append_nil _)

theorem window_window (entries : List LedgerEntry) (since upTo : Instant) :
    window (window entries since upTo) since upTo = window entries since upTo := by
  rw [window, window, List.filter_filter]
  exact List.filter_congr fun e _ => Bool.and_self _

/-- What lies outside a period makes no difference to its activity. -/
theorem diagnose_window (entries : List LedgerEntry) (since upTo : Instant) :
    diagnose (window entries since upTo) since upTo = diagnose entries since upTo := by
  rw [diagnose_eq, window_window, ← diagnose_eq]

end Window

/-- An engine that looks at a period of its own ledger finds the activity of the whole ledger in
it. -/
theorem Engine.ledgerDiagnostics_inMemory {τ : Type} (audit : AuditSink τ)
    (settings : EngineSettings) (since upTo : Instant) (u : EngineState MemoryState τ) :
    ((Engine.inMemory audit settings).ledgerDiagnostics since upTo).runFrom u =
      (.ok (diagnose u.store.stock.ledger since upTo), u) := by
  have hentries :
      ((Engine.inMemory audit settings).stock.entriesBetween since upTo).runFrom u.store =
        (.ok (u.store.stock.ledger.filter (LedgerEntry.isWithin since upTo)), u.store) := rfl
  rw [Engine.ledgerDiagnostics, runFrom_bind_of_ok (runFrom_passing_of_ok hentries),
    runFrom_passing_ofResult, filter_isWithin, ← diagnose_window]
  rfl

/-- The activity of any period, in any list of entries, is the entries of its window divided up by
movement family, by reference and by trace; so all counts together are the same in the three maps,
and all totals. The order of the entries makes no difference, nor do entries outside the window. An
engine answers with the activity of its whole ledger, and changes nothing. -/
theorem diagnostics_divide_window (entries : List LedgerEntry) (since upTo : Instant) :
    let inside := window entries since upTo
    let activity := diagnose entries since upTo
    Divides (·.reason.movementClass) inside activity.byClass ∧
    Divides (·.reference) inside activity.byReference ∧
    Divides (·.trace.val) inside activity.byTrace ∧
    (∀ outside entries', (∀ e ∈ outside, ¬ (since ≤ e.occurredAt ∧ e.occurredAt ≤ upTo)) →
      entries'.Perm (entries ++ outside) → diagnose entries' since upTo = activity) ∧
    ∀ {τ : Type} (audit : AuditSink τ) (settings : EngineSettings)
      (u : EngineState MemoryState τ),
      ((Engine.inMemory audit settings).ledgerDiagnostics since upTo).runFrom u =
        (.ok (diagnose u.store.stock.ledger since upTo), u) := by
  refine ⟨?_, ?_, ?_, fun outside entries' hout hperm => diagnose_congr ?_,
    fun audit settings u => Engine.ledgerDiagnostics_inMemory audit settings since upTo u⟩
  · rw [diagnose_eq]
    exact divides_groupBy _ _
  · rw [diagnose_eq]
    exact divides_groupBy _ _
  · rw [diagnose_eq]
    exact divides_groupBy _ _
  · have hwindow : (window entries' since upTo).Perm (window (entries ++ outside) since upTo) :=
      hperm.filter _
    rwa [window_append_outside hout] at hwindow

namespace Sample

/-- One piece goes from batch B to batch A on the fifth day of 1970, on two lines of one
document. -/
def exchange : List StockAction :=
  let moved : Movement := { adjustment with reference := "TR-1", allowNegative := false }
  [.apply { moved with key := key "B", delta := -1, reason := .transferOut },
    .apply { moved with line := 2, delta := 1, reason := .transferIn }]

/-- The engine over the stock after the exchange. -/
def exchangedEngine : EngineState MemoryState Unit := .start ⟨stock.run exchange, .empty⟩ ()

end Sample

open Sample in
/-- An exchange comes to nothing, and is still there with both of its entries; what was received
before is not. Backwards the ledger shows the same, and between a day and an earlier one it shows
nothing. -/
theorem diagnostics_divide_window_exchange :
    let ledger := exchangedEngine.store.stock.ledger
    ∃ activity,
      (quietEngine.ledgerDiagnostics (midnight 2) (midnight 5)).runFrom exchangedEngine =
        (.ok activity, exchangedEngine) ∧
      activity.byClass.toList = [(.transfer, ⟨2, 0⟩)] ∧
      activity.byReference.toList = [("TR-1", ⟨2, 0⟩)] ∧
      diagnose ledger.reverse (midnight 2) (midnight 5) = activity ∧
      natSumOf (fun b => b.2.count) (diagnose ledger (midnight 5) (midnight 2)).byTrace.toList =
        0 := by
  obtain ⟨-, -, -, hperm, hengine⟩ := diagnostics_divide_window
    exchangedEngine.store.stock.ledger (midnight 2) (midnight 5)
  obtain ⟨-, -, hbackwards, -, -⟩ := diagnostics_divide_window
    exchangedEngine.store.stock.ledger (midnight 5) (midnight 2)
  refine ⟨_, hengine (.discard Unit) (.ofConfig {}) exchangedEngine, by decide +kernel,
    by decide +kernel, ?_, ?_⟩
  · refine hperm [] _ (fun e he => absurd he List.not_mem_nil) ?_
    rw [List.append_nil]
    exact List.reverse_perm _
  · rw [hbackwards.counts]
    decide +kernel

end Stockroom
