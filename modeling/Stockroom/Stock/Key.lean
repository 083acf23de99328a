/-
Stockroom.Stock.Key — the identity of a stock slot.

Stock is kept per warehouse, item and batch key. Keys are ordered by these three parts,
the batch key by code points; listings of slots follow this order.
-/
import Stockroom.Identity.Number
import Stockroom.Identity.BatchKey

namespace Stockroom

/-- A warehouse, an item, and a batch key. -/
@[ext] structure StockKey where
  warehouse : WarehouseId
  item : ItemId
  batch : BatchKey
  deriving DecidableEq, Repr

namespace StockKey

/-- The order of keys: warehouse, then item, then batch. -/
def order : StockKey → StockKey → Ordering :=
  compareLex (compareOn StockKey.warehouse)
    (compareLex (compareOn StockKey.item) (compareOn StockKey.batch))

instance : Ord StockKey := ⟨order⟩
instance : Std.TransOrd StockKey :=
  inferInstanceAs (Std.TransCmp (compareLex (compareOn StockKey.warehouse)
    (compareLex (compareOn StockKey.item) (compareOn StockKey.batch))))
instance : Std.LawfulEqOrd StockKey where
  eq_of_compare {a b} h := by
    have h : (compare a.warehouse b.warehouse).then
        ((compare a.item b.item).then (compare a.batch b.batch)) = .eq := h
    rw [Ordering.then_eq_eq, Ordering.then_eq_eq] at h
    exact StockKey.ext (Std.LawfulEqOrd.eq_of_compare h.1)
      (Std.LawfulEqOrd.eq_of_compare h.2.1) (Std.LawfulEqOrd.eq_of_compare h.2.2)

/-- Whether a key names stock of the given item in the given warehouse. -/
def isOf (k : StockKey) (item : ItemId) (warehouse : WarehouseId) : Bool :=
  k.item == item && k.warehouse == warehouse

/-- The written form. -/
def text (k : StockKey) : String := s!"wh:{k.warehouse}/item:{k.item}/batch:{k.batch}"

instance : ToString StockKey := ⟨text⟩

end StockKey

end Stockroom
