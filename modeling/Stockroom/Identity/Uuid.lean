/-
Stockroom.Identity.Uuid — 128-bit identifiers and their text.

The written form is 32 lower-case hexadecimal digits in groups of 8, 4, 4, 4 and 12. The
reader takes either case, and also the digits without hyphens, the written form in
braces, and the written form after "urn:uuid:", which may be in either case too.
-/
namespace Stockroom

/-- A 128-bit identifier. -/
structure Uuid where
  bits : BitVec 128
  deriving DecidableEq

namespace Uuid

instance : Inhabited Uuid := ⟨⟨0⟩⟩

/-- The identifier whose bits are the binary digits of `n`. -/
def ofNat (n : Nat) : Uuid := ⟨BitVec.ofNat 128 n⟩

/-- The identifier made at a time, in milliseconds since 1970; of identifiers made at one time
the `serial` decides their order. The version is 7, the variant is 2. -/
def timed (millis serial : Nat) : Uuid :=
  ⟨BitVec.ofNat 48 millis ++ 7#4 ++ BitVec.ofNat 12 (serial >>> 62) ++ 2#2 ++
    BitVec.ofNat 62 serial⟩

/-- The bits as a number; identifiers are ordered by it. -/
def toNat (u : Uuid) : Nat := u.bits.toNat

/-- The version: how the identifier was made. -/
def version (u : Uuid) : Nat := (u.bits.extractLsb' 76 4).toNat

theorem toNat_inj {u v : Uuid} (h : u.toNat = v.toNat) : u = v := by
  cases u; cases v
  exact congrArg Uuid.mk (BitVec.eq_of_toNat_eq h)

instance : Ord Uuid := ⟨compareOn toNat⟩
instance : Std.TransOrd Uuid := inferInstanceAs (Std.TransCmp (compareOn toNat))
instance : Std.LawfulEqOrd Uuid where
  eq_of_compare h := toNat_inj (Std.LawfulEqOrd.eq_of_compare (α := Nat) h)

theorem compare_eq_lt_iff {u v : Uuid} : compare u v = .lt ↔ u.toNat < v.toNat :=
  Nat.compare_eq_lt

/-! ## Writing -/

/-- The lower-case hexadecimal digit of a value below sixteen. -/
def hexDigit (n : Nat) : Char :=
  if n < 10 then Char.ofNat (48 + n) else Char.ofNat (87 + n)

/-- The last `width` hexadecimal digits of `n`. -/
def hexDigits : (width n : Nat) → List Char
  | 0, _ => []
  | width + 1, n => hexDigits width (n / 16) ++ [hexDigit (n % 16)]

/-- Puts the hyphens between the groups of 32 digits. -/
def hyphenate (ds : List Char) : List Char :=
  ds.take 8 ++ '-' :: ((ds.drop 8).take 4 ++ '-' :: ((ds.drop 12).take 4 ++ '-' ::
    ((ds.drop 16).take 4 ++ '-' :: ds.drop 20)))

/-- The written form. -/
def text (u : Uuid) : String := String.ofList (hyphenate (hexDigits 32 u.toNat))

instance : ToString Uuid := ⟨text⟩

/-! ## Reading -/

/-- The value of a hexadecimal digit. -/
def hexValue? (c : Char) : Option Nat :=
  if '0' ≤ c ∧ c ≤ '9' then some (c.toNat - 48)
  else if 'a' ≤ c ∧ c ≤ 'f' then some (c.toNat - 87)
  else if 'A' ≤ c ∧ c ≤ 'F' then some (c.toNat - 55)
  else none

/-- The value of a row of hexadecimal digits. -/
def hexNumber? (cs : List Char) : Option Nat :=
  cs.foldlM (fun n c => (hexValue? c).map (n * 16 + ·)) 0

/-- Takes the hyphens out of a written form, if they stand in their places. -/
def unhyphenate? (cs : List Char) : Option (List Char) :=
  if cs.length = 36 ∧ cs[8]? = some '-' ∧ cs[13]? = some '-' ∧ cs[18]? = some '-' ∧
      cs[23]? = some '-' then
    some (cs.take 8 ++ (cs.drop 9).take 4 ++ (cs.drop 14).take 4 ++ (cs.drop 19).take 4 ++
      cs.drop 24)
  else none

/-- The characters inside braces, if the text stands in braces. -/
def unbraced? (cs : List Char) : Option (List Char) :=
  if cs.head? = some '\x7b' ∧ cs.getLast? = some '\x7d' then some (cs.drop 1).dropLast else none

/-- What stands before the written form in a uniform resource name, in lower case. -/
def urnStart : List Char := "urn:uuid:".toList

/-- The characters after the start of a uniform resource name, whose letters have either case. -/
def urnRest? (cs : List Char) : Option (List Char) :=
  if (cs.take 9).map Char.toLower = urnStart then some (cs.drop 9) else none

/-- The 32 digits of any accepted form. -/
def digitsOf? (cs : List Char) : Option (List Char) :=
  match cs.length with
  | 32 => some cs
  | 36 => unhyphenate? cs
  | 38 => (unbraced? cs).bind unhyphenate?
  | 45 => (urnRest? cs).bind unhyphenate?
  | _ => none

/-- Reads an identifier. -/
def read? (s : String) : Option Uuid := do
  let ds ← digitsOf? s.toList
  let n ← hexNumber? ds
  pure (ofNat n)

end Uuid

end Stockroom
