/-
Stockroom.Stock.Reconciliation — comparing the ledger, the slots and the snapshot.

The three tell the same story in three ways. Where two of them differ, the difference is
reported; a key that one side lacks counts as zero there. From the differences between
ledger and slots follow corrections that an operator may book.
-/
import Stockroom.Stock.Snapshot

namespace Stockroom

/-! ## Mismatches -/

/-- Which two of the three differ. -/
inductive MismatchKind where
  | ledgerVsStock | ledgerVsSnapshot | stockVsSnapshot
  deriving DecidableEq, Repr

namespace MismatchKind

/-- Every kind. -/
def all : List MismatchKind := [ledgerVsStock, ledgerVsSnapshot, stockVsSnapshot]

/-- The written name. -/
def text : MismatchKind → String
  | ledgerVsStock => "ledger_vs_stock"
  | ledgerVsSnapshot => "ledger_vs_snapshot"
  | stockVsSnapshot => "stock_vs_snapshot"

/-- The kind with exactly this name. -/
def ofText? (s : String) : Option MismatchKind := all.find? (fun k => k.text == s)

theorem ofText?_text (k : MismatchKind) : ofText? k.text = some k := by cases k <;> decide

end MismatchKind

/-- A key on which two sides differ. -/
structure Mismatch where
  kind : MismatchKind
  key : StockKey
  left : Int
  right : Int
  /-- What the left side has more. -/
  diff : Int
  deriving DecidableEq, Repr

/-- The keys of either side, each once, ascending. -/
def eitherKeys (left right : Totals) : List StockKey :=
  (OrderedMap.ofList ((left.keys ++ right.keys).map (fun k => (k, ())))).keys

/-- The keys on which the sides differ, ascending. -/
def mismatches (kind : MismatchKind) (left right : Totals) : List Mismatch :=
  (eitherKeys left right).filterMap fun k =>
    let l := Totals.quantity left k
    let r := Totals.quantity right k
    if l = r then none else some ⟨kind, k, l, r, l - r⟩

/-! ## The report -/

/-- The three comparisons at one cut. -/
structure ReconciliationReport where
  cut : Instant
  stockKeys : Nat
  matchingStockKeys : Nat
  ledgerVsStock : List Mismatch
  ledgerVsSnapshot : List Mismatch
  stockVsSnapshot : List Mismatch
  deriving DecidableEq

namespace ReconciliationReport

/-- Whether all three agree. -/
def isClean (r : ReconciliationReport) : Bool :=
  r.ledgerVsStock.isEmpty && r.ledgerVsSnapshot.isEmpty && r.stockVsSnapshot.isEmpty

/-- The mismatches of all three comparisons. -/
def mismatchCount (r : ReconciliationReport) : Nat :=
  r.ledgerVsStock.length + r.ledgerVsSnapshot.length + r.stockVsSnapshot.length

end ReconciliationReport

/-- How many of the listed quantities are those of the ledger. -/
def matching (ledger : Totals) (quantities : List (StockKey × Int)) : Nat :=
  quantities.countP (fun b => Totals.quantity ledger b.1 == b.2)

/-- Compares the three, key by key. -/
def reconcile (cut : Instant) (ledger stock snapshot : Totals) : ReconciliationReport where
  cut := cut
  stockKeys := stock.size
  matchingStockKeys := matching ledger stock.toList
  ledgerVsStock := mismatches .ledgerVsStock ledger stock
  ledgerVsSnapshot := mismatches .ledgerVsSnapshot ledger snapshot
  stockVsSnapshot := mismatches .stockVsSnapshot stock snapshot

/-! ## Corrections -/

/-- Whether a correction adds stock or takes it away. -/
inductive HealDirection where
  | increase | decrease
  deriving DecidableEq, Repr

namespace HealDirection

/-- Both directions. -/
def all : List HealDirection := [increase, decrease]

/-- The written name. -/
def text : HealDirection → String
  | increase => "INCREASE"
  | decrease => "DECREASE"

/-- The direction with exactly this name. -/
def ofText? (s : String) : Option HealDirection := all.find? (fun d => d.text == s)

theorem ofText?_text (d : HealDirection) : ofText? d.text = some d := by cases d <;> decide

end HealDirection

/-- A correction that is meant to bring a slot back to its ledger total. -/
structure HealSuggestion where
  key : StockKey
  ledger : Int
  stock : Int
  adjustment : Int
  direction : HealDirection
  deriving DecidableEq, Repr

/-- The correction for a difference between ledger and slot. -/
def HealSuggestion.ofMismatch (m : Mismatch) : HealSuggestion :=
  ⟨m.key, m.left, m.right, m.diff, if 0 < m.diff then .increase else .decrease⟩

/-- The corrections for a report, from the differences between ledger and slots alone. -/
def suggestHeal (r : ReconciliationReport) : List HealSuggestion :=
  r.ledgerVsStock.map .ofMismatch

end Stockroom
