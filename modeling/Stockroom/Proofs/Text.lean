/-
Stockroom.Proofs.Text — the digits of numbers, as they are written and read.

* `Text.valueOf` is the number that digits stand for; the readers all compute it from the left.
  `Text.valueOf_toDigits` and `Text.valueOf_padded` read back what is written.
* `Text.takeWhile_isDigit_append`: digits are taken as far as they go, so that what follows them
  is left alone as long as it does not begin with another one.
* `Text.toString_injective`: no two integers are written alike. Their texts hold digits and a minus
  sign only, so a text that is put together with other characters between them is taken apart in
  one way (`Text.eq_of_append_cons`).
-/
import Mathlib.Algebra.Group.Nat.Defs
import Mathlib.Data.List.DropRight
import Stockroom.Text.Blank
import Stockroom.Text.Integer

namespace Stockroom

theorem IntegerRange.contains_iff {r : IntegerRange} {n : Int} :
    r.contains n = true ↔ r.least ≤ n ∧ n ≤ r.greatest := by simp [contains]

namespace Text

/-! ## Characters -/

theorem not_isBlank_of_isDigit {c : Char} (h : c.isDigit = true) : isBlank c = false := by
  have hbounds : 48 ≤ c.toNat ∧ c.toNat ≤ 57 := Char.isDigit_iff_toNat.mp h
  simp only [isBlank, blankRanges, List.any_cons, List.any_nil, Bool.or_false, Bool.or_eq_false_iff,
    Bool.and_eq_false_iff, decide_eq_false_iff_not]
  omega

/-- Blanks are only skipped where there are some. -/
theorem trimStartChars_cons {c : Char} {rest : List Char} (h : isBlank c = false) :
    trimStartChars (c :: rest) = c :: rest := by
  simp [trimStartChars, h]

/-! ## Trimming -/

/-- Whether no blank stands at either end. -/
def Trimmed (cs : List Char) : Prop :=
  ∀ h : cs ≠ [], isBlank (cs.head h) = false ∧ isBlank (cs.getLast h) = false

/-- Trimming takes blanks off both ends, as far as they go, and nothing else. -/
theorem trimChars_eq_iff {cs ds : List Char} :
    trimChars cs = ds ↔ ∃ front back, cs = front ++ (ds ++ back) ∧
      (∀ c ∈ front, isBlank c = true) ∧ (∀ c ∈ back, isBlank c = true) ∧ Trimmed ds := by
  have htrim : trimChars cs = (cs.dropWhile isBlank).rdropWhile isBlank := rfl
  rw [htrim]
  constructor
  · rintro rfl
    refine ⟨cs.takeWhile isBlank, (cs.dropWhile isBlank).rtakeWhile isBlank, ?_,
      fun _ => List.mem_takeWhile_imp, fun _ => List.mem_rtakeWhile_imp, fun h => ⟨?_, ?_⟩⟩
    · rw [List.rdropWhile_append_rtakeWhile, List.takeWhile_append_dropWhile]
    · rw [(List.rdropWhile_prefix _ _).head h]
      exact List.head_dropWhile_not _ _
    · exact Bool.eq_false_iff.mpr (List.rdropWhile_last_not _ _ h)
  · rintro ⟨front, back, rfl, hfront, hback, htrimmed⟩
    rw [List.dropWhile_append_of_pos hfront]
    cases ds with
    | nil =>
      rw [List.nil_append, List.dropWhile_eq_nil_iff.mpr hback]
      rfl
    | cons d ds =>
      obtain ⟨hd, hlast⟩ := htrimmed (List.cons_ne_nil d ds)
      have hfirst : ((d :: ds) ++ back).dropWhile isBlank = (d :: ds) ++ back :=
        List.dropWhile_cons_of_neg (Bool.eq_false_iff.mp hd)
      have hrest : ∀ c ∈ back.reverse, isBlank c = true := fun c hc =>
        hback c (List.mem_reverse.mp hc)
      have hback : ((d :: ds) ++ back).rdropWhile isBlank = (d :: ds).rdropWhile isBlank := by
        rw [List.rdropWhile, List.reverse_append, List.dropWhile_append_of_pos hrest]
        rfl
      rw [hfirst, hback]
      exact List.rdropWhile_eq_self_iff.mpr fun _ => Bool.eq_false_iff.mp hlast

theorem toList_trim (s : String) : (trim s).toList = trimChars s.toList := by simp [trim]

theorem trimmed_trim (s : String) : Trimmed (trim s).toList := by
  obtain ⟨-, -, -, -, -, h⟩ := trimChars_eq_iff.mp (toList_trim s).symm
  exact h

/-- To trim a text again changes nothing. -/
theorem trim_trim (s : String) : trim (trim s) = trim s := by
  refine String.toList_inj.mp ?_
  rw [toList_trim, trimChars_eq_iff]
  exact ⟨[], [], by simp, nofun, nofun, trimmed_trim s⟩

/-- Nothing is left of a text exactly if it holds nothing but blanks. -/
theorem trim_eq_empty_iff {s : String} : trim s = "" ↔ ∀ c ∈ s.toList, isBlank c = true := by
  rw [← String.toList_inj, toList_trim, String.toList_empty, trimChars_eq_iff]
  constructor
  · rintro ⟨front, back, hs, hfront, hback, -⟩ c hc
    rw [hs, List.nil_append] at hc
    exact (List.mem_append.mp hc).elim (hfront c) (hback c)
  · exact fun h => ⟨s.toList, [], by simp, h, nofun, fun hne => absurd rfl hne⟩

/-! ## Digits -/

/-- The number that digits stand for. -/
def valueOf (ds : List Char) : Nat := ds.foldl (fun n c => n * 10 + (c.toNat - '0'.toNat)) 0

theorem valueOf_eq (ds : List Char) : valueOf ds = Nat.ofDigitChars 10 ds 0 := by
  simp only [valueOf, Nat.ofDigitChars_eq_foldl, Nat.mul_comm 10]

/-- The digits of a number stand for it. -/
theorem valueOf_toDigits (n : Nat) : valueOf (Nat.toDigits 10 n) = n := by
  rw [valueOf_eq, Nat.ofDigitChars_ten_toDigits]

theorem isDigit_of_mem_toDigits {n : Nat} {c : Char} (h : c ∈ Nat.toDigits 10 n) :
    c.isDigit = true := Nat.isDigit_of_mem_toDigits (by decide) (by decide) h

/-- A positive number has no leading zero. -/
theorem head_toDigits_ne {n : Nat} (hn : 0 < n) :
    ∃ d ds, Nat.toDigits 10 n = d :: ds ∧ d ≠ '0' := by
  induction n using Nat.strongRecOn with
  | ind n ih =>
    by_cases hlt : n < 10
    case pos =>
      refine ⟨n.digitChar, [], Nat.toDigits_of_lt_base hlt, ?_⟩
      have : ∀ m < 10, 0 < m → m.digitChar ≠ '0' := by decide
      exact this n hlt hn
    case neg =>
      obtain ⟨d, ds, hdigits, hd⟩ := ih (n / 10) (by omega) (by omega)
      refine ⟨d, ds ++ [(n % 10).digitChar], ?_, hd⟩
      rw [Nat.toDigits_of_base_le (by decide) (by omega), hdigits, List.cons_append]

/-! ### Integers -/

/-- An integer is written as its digits, after a minus sign if it is negative. -/
theorem toList_toString (n : Int) :
    (toString n).toList = (if n < 0 then ['-'] else []) ++ Nat.toDigits 10 n.natAbs := by
  cases n with
  | ofNat m => simp [Int.toString_eq_repr, Int.repr]
  | negSucc m => simp [Int.toString_eq_repr, Int.repr]

theorem eq_or_isDigit_of_mem_toString {n : Int} {c : Char} (h : c ∈ (toString n).toList) :
    c = '-' ∨ c.isDigit = true := by
  rw [toList_toString] at h
  rcases List.mem_append.mp h with h | h
  · split at h
    · exact .inl (List.mem_singleton.mp h)
    · cases h
  · exact .inr (isDigit_of_mem_toDigits h)

/-- No two integers are written alike. -/
theorem toString_injective : Function.Injective (toString : Int → String) := by
  intro m n h
  have hchars := congrArg String.toList h
  rw [toList_toString, toList_toString] at hchars
  -- a minus sign is no digit, so both numbers have one or none
  have hsign {n : Nat} {rest : List Char} : '-' :: rest ≠ Nat.toDigits 10 n := fun h => by
    have hdigit := isDigit_of_mem_toDigits (h ▸ List.mem_cons_self)
    exact absurd hdigit (by decide)
  have hvalue {m n : Nat} (h : Nat.toDigits 10 m = Nat.toDigits 10 n) : m = n := by
    rw [← valueOf_toDigits m, h, valueOf_toDigits]
  by_cases hm : m < 0
  · by_cases hn : n < 0
    · rw [if_pos hm, if_pos hn] at hchars
      have := hvalue (List.append_cancel_left hchars)
      omega
    · rw [if_pos hm, if_neg hn] at hchars
      exact absurd hchars hsign
  · by_cases hn : n < 0
    · rw [if_neg hm, if_pos hn] at hchars
      exact absurd hchars.symm hsign
    · rw [if_neg hm, if_neg hn] at hchars
      have := hvalue hchars
      omega

/-! ### Padded numbers -/

theorem padded_toList (width n : Nat) : (padded width n).toList =
    List.replicate (width - (Nat.toDigits 10 n).length) '0' ++ Nat.toDigits 10 n := by
  simp [padded]

theorem isDigit_of_mem_padded {width n : Nat} {c : Char} (h : c ∈ (padded width n).toList) :
    c.isDigit = true := by
  rw [padded_toList] at h
  obtain h | h := List.mem_append.mp h
  · rw [List.eq_of_mem_replicate h]
    rfl
  · exact isDigit_of_mem_toDigits h

/-- Leading zeros do not count. -/
theorem valueOf_padded (width n : Nat) : valueOf (padded width n).toList = n := by
  rw [padded_toList, valueOf_eq, Nat.ofDigitChars_append, Nat.ofDigitChars_replicate_zero,
    Nat.mul_zero, Nat.ofDigitChars_ten_toDigits]

theorem length_padded (width n : Nat) :
    (padded width n).toList.length = max width (Nat.toDigits 10 n).length := by
  rw [padded_toList, List.length_append, List.length_replicate]
  omega

theorem length_padded_of_lt {width n : Nat} (hwidth : 0 < width) (hn : n < 10 ^ width) :
    (padded width n).toList.length = width := by
  rw [length_padded]
  exact Nat.max_eq_left ((Nat.length_toDigits_le_iff (by decide) hwidth).mpr hn)

/-! ### Taking digits -/

/-- Digits are taken up to the first character that is none. -/
theorem takeWhile_isDigit_append {ds rest : List Char} (hds : ∀ c ∈ ds, c.isDigit = true)
    (hrest : ∀ c ∈ rest.head?, c.isDigit = false) :
    (ds ++ rest).takeWhile Char.isDigit = ds := by
  rw [List.takeWhile_append_of_pos hds]
  cases rest with
  | nil => simp
  | cons c rest => simp [hrest c rfl]

/-! ## Texts in parts -/

/-- A text is split in one way only before the first of some character. -/
theorem eq_of_append_cons {c : Char} {xs ys rest rest' : List Char} (hx : c ∉ xs) (hy : c ∉ ys)
    (h : xs ++ c :: rest = ys ++ c :: rest') : xs = ys ∧ rest = rest' := by
  have hfront {zs more : List Char} (hz : c ∉ zs) :
      (zs ++ c :: more).takeWhile (fun d => d != c) = zs := by
    rw [List.takeWhile_append_of_pos fun d hd => bne_iff_ne.mpr (ne_of_mem_of_not_mem hd hz)]
    simp
  obtain rfl : xs = ys := by rw [← hfront hx, h, hfront hy]
  exact ⟨rfl, (List.cons.inj (List.append_cancel_left h)).2⟩

end Text

end Stockroom
