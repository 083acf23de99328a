/-
Stockroom.Proofs.Identity — an identifier is read back from its written form, so no two identifiers
are written alike.

The digits are read from the left, each worth sixteen times the next (`hexNumber?_hexDigits`); the
hyphens stand where the reader expects them (`unhyphenate?_hyphenate`).
-/
import Mathlib.Algebra.Group.Nat.Defs
import Stockroom.Identity.Uuid

namespace Stockroom.Uuid

/-! ## Digits -/

theorem hexValue?_hexDigit : ∀ d, d < 16 → hexValue? (hexDigit d) = some d := by decide

theorem length_hexDigits (width n : Nat) : (hexDigits width n).length = width := by
  induction width generalizing n with
  | zero => rfl
  | succ width ih => rw [hexDigits, List.length_append, ih, List.length_singleton]

theorem mem_hexDigits {width n : Nat} {c : Char} (h : c ∈ hexDigits width n) :
    ∃ d < 16, c = hexDigit d := by
  induction width generalizing n with
  | zero => cases h
  | succ width ih =>
    rcases List.mem_append.mp h with h | h
    · exact ih h
    · exact ⟨n % 16, Nat.mod_lt n (by decide), List.mem_singleton.mp h⟩

/-- The digits of a number are read as the number, as far as they go. -/
theorem hexNumber?_hexDigits (width n : Nat) :
    hexNumber? (hexDigits width n) = some (n % 16 ^ width) := by
  induction width generalizing n with
  | zero => simp [hexNumber?, hexDigits, Nat.mod_one]
  | succ width ih =>
    have hfront : (hexDigits width (n / 16)).foldlM
        (fun n c => (hexValue? c).map (n * 16 + ·)) 0 = some (n / 16 % 16 ^ width) := ih (n / 16)
    have hlast : n % 16 < 16 := Nat.mod_lt n (by decide)
    have hvalue : n / 16 % 16 ^ width * 16 + n % 16 = n % 16 ^ (width + 1) := by
      rw [Nat.pow_succ', Nat.mod_mul]
      omega
    rw [hexNumber?, hexDigits, List.foldlM_append, hfront]
    simp [hexValue?_hexDigit _ hlast, hvalue]

/-! ## Hyphens -/

theorem length_hyphenate {ds : List Char} (h : ds.length = 32) : (hyphenate ds).length = 36 := by
  simp [hyphenate, h]

/-- Hyphens are all that is put between the digits. -/
theorem mem_hyphenate {ds : List Char} {c : Char} (h : c ∈ hyphenate ds) : c = '-' ∨ c ∈ ds := by
  simp only [hyphenate, List.mem_append, List.mem_cons] at h
  rcases h with h | h | h | h | h | h | h | h | h
  · exact .inr (List.mem_of_mem_take h)
  · exact .inl h
  · exact .inr (List.mem_of_mem_drop (List.mem_of_mem_take h))
  · exact .inl h
  · exact .inr (List.mem_of_mem_drop (List.mem_of_mem_take h))
  · exact .inl h
  · exact .inr (List.mem_of_mem_drop (List.mem_of_mem_take h))
  · exact .inl h
  · exact .inr (List.mem_of_mem_drop h)

/-- So many characters begin with a group of `m`. -/
theorem exists_group {m n : Nat} {cs : List Char} (h : cs.length = m + n) :
    ∃ group rest, cs = group ++ rest ∧ group.length = m ∧ rest.length = n :=
  ⟨cs.take m, cs.drop m, (List.take_append_drop m cs).symm, by simp [h], by simp [h]⟩

theorem unhyphenate?_hyphenate {ds : List Char} (h : ds.length = 32) :
    unhyphenate? (hyphenate ds) = some ds := by
  obtain ⟨a, ds, rfl, ha, h⟩ := exists_group (m := 8) (n := 24) h
  obtain ⟨b, ds, rfl, hb, h⟩ := exists_group (m := 4) (n := 20) h
  obtain ⟨c, ds, rfl, hc, h⟩ := exists_group (m := 4) (n := 16) h
  obtain ⟨d, e, rfl, hd, he⟩ := exists_group (m := 4) (n := 12) h
  have hwritten : hyphenate (a ++ (b ++ (c ++ (d ++ e)))) =
      a ++ '-' :: (b ++ '-' :: (c ++ '-' :: (d ++ '-' :: e))) := by
    simp [hyphenate, List.drop_append, ha, hb, hc, hd, List.drop_of_length_le]
  rw [hwritten, unhyphenate?, if_pos (by simp [ha, hb, hc, hd, he])]
  simp [List.drop_append, ha, hb, hc, hd, List.drop_of_length_le]

/-! ## The written form -/

/-- An identifier is read as it is written. -/
theorem read?_text (u : Uuid) : read? u.text = some u := by
  have hdigits : digitsOf? u.text.toList = some (hexDigits 32 u.toNat) := by
    have hlength := length_hexDigits 32 u.toNat
    rw [text, String.toList_ofList, digitsOf?, length_hyphenate hlength]
    exact unhyphenate?_hyphenate hlength
  have hnumber : hexNumber? (hexDigits 32 u.toNat) = some u.toNat := by
    have hsmall : u.toNat < 16 ^ 32 := u.bits.isLt
    rw [hexNumber?_hexDigits, Nat.mod_eq_of_lt hsmall]
  have hbits : ofNat u.toNat = u := by
    rw [ofNat, toNat, BitVec.ofNat_toNat, BitVec.setWidth_eq]
  simp only [read?, hdigits, hnumber, Option.bind_eq_bind, Option.bind_some, Option.pure_def, hbits]

/-- The written form holds hyphens and hexadecimal digits only. -/
theorem mem_text {u : Uuid} {c : Char} (h : c ∈ u.text.toList) :
    c = '-' ∨ ∃ d < 16, c = hexDigit d := by
  rw [text, String.toList_ofList] at h
  exact (mem_hyphenate h).imp_right mem_hexDigits

theorem text_injective : Function.Injective text := by
  intro u v h
  have hread := read?_text u
  rw [h, read?_text v] at hread
  exact (Option.some.inj hread).symm

end Stockroom.Uuid
