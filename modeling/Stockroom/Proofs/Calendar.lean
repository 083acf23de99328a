/-
Stockroom.Proofs.Calendar — dates and instants are read back from what is written.

* `Counted` splits a day of a 400-year cycle into centuries, four-year blocks and the days left;
  by it `yearOfEra_spec` finds the year that a day of the cycle falls in, which begins in March.
* `civilOf_spec`: the civil day of a number exists, and it has that number.
* `digits?_append` takes digits of a known number. What is written has two digits at least for
  every part, so that nothing of the leniency of the reader is met on the way.
* `Date.read?_text` and `Instant.read?_text` put the parts together, with the three lengths of a
  fraction and the leap second.
-/
import Stockroom.Calendar.Reading
import Stockroom.Proofs.Text

namespace Stockroom

namespace Calendar

/-! ## Years -/

/-- A day of a 400-year cycle, by centuries, blocks of four years, and days. -/
structure Counted (n century block day : Int) : Prop where
  century_mem : 0 ≤ century ∧ century ≤ 3
  block_mem : 0 ≤ block ∧ block ≤ 24
  day_mem : 0 ≤ day ∧ day ≤ 1460
  /-- Only the last century ends with a leap day. -/
  short : block = 24 → century < 3 → day ≤ 1459
  eq : n = 36524 * century + 1461 * block + day

theorem exists_counted {n : Int} (hn : 0 ≤ n) (hlt : n < 146097) :
    ∃ century block day, Counted n century block day := by
  generalize hc : min (n / 36524) 3 = century
  generalize hb : min ((n - 36524 * century) / 1461) 24 = block
  exact ⟨century, block, n - 36524 * century - 1461 * block, by omega, by omega, by omega,
    by omega, by omega⟩

/-- The year of a day, which counts from March. -/
theorem Counted.yearOfEra {n century block day : Int} (h : Counted n century block day) :
    (n - n / 1460 + n / 36524 - n / 146096) / 365 =
      100 * century + 4 * block + min (day / 365) 3 := by
  obtain ⟨hc, hb, hd, hshort, rfl⟩ := h
  generalize hn : 36524 * century + 1461 * block + day = n
  have hcenturies : n / 36524 - n / 146096 = century := by
    obtain rfl | rfl | rfl | rfl : century = 0 ∨ century = 1 ∨ century = 2 ∨ century = 3 := by
      omega
    all_goals omega
  have hblocks : n / 1460 = 25 * century + block +
      (if 1460 ≤ block + day + 24 * century then 1 else 0) := by
    split <;> omega
  rw [hblocks]
  split <;> omega

/-- A day of a 400-year cycle lies in one of its years, and it is the 366th of it only before a
year with a leap day. -/
theorem yearOfEra_spec {n : Int} (hn : 0 ≤ n) (hlt : n < 146097) :
    ∃ y, (n - n / 1460 + n / 36524 - n / 146096) / 365 = y ∧ (0 ≤ y ∧ y ≤ 399) ∧
      0 ≤ n - (365 * y + y / 4 - y / 100) ∧ n - (365 * y + y / 4 - y / 100) ≤ 365 ∧
      (n - (365 * y + y / 4 - y / 100) = 365 → ∀ era, isLeapYear (y + era * 400 + 1) = true) := by
  obtain ⟨century, block, day, h⟩ := exists_counted hn hlt
  refine ⟨_, h.yearOfEra, ?_⟩
  obtain ⟨hc, hb, hd, hshort, rfl⟩ := h
  obtain ⟨t, ht, htmem, hday, h365⟩ : ∃ t, min (day / 365) 3 = t ∧ (0 ≤ t ∧ t ≤ 3) ∧
      (0 ≤ day - 365 * t ∧ day - 365 * t ≤ 365) ∧ (day - 365 * t = 365 → t = 3 ∧ day = 1460) :=
    ⟨_, rfl, by omega⟩
  clear hn hlt
  rw [ht]
  clear ht
  have hblocks : (100 * century + 4 * block + t) / 4 = 25 * century + block := by omega
  have hcenturies : (100 * century + 4 * block + t) / 100 = century := by omega
  rw [hblocks, hcenturies]
  refine ⟨by omega, by omega, by omega, fun h era => ?_⟩
  obtain ⟨rfl, rfl⟩ := h365 (by omega)
  simp only [isLeapYear, Bool.and_eq_true, decide_eq_true_eq, Bool.or_eq_true]
  omega

/-! ## Months -/

/-- A day of the calendar. -/
structure Civil.Exists (c : Civil) : Prop where
  one_le_month : 1 ≤ c.month
  month_le : c.month ≤ 12
  one_le_day : 1 ≤ c.day
  day_le : c.day ≤ daysInMonth c.year c.month

/-- The civil day of a day of the year that begins in March. -/
def ofMarch (y day : Int) : Civil :=
  let monthFromMarch := (5 * day + 2) / 153
  let d := (day - (153 * monthFromMarch + 2) / 5 + 1).toNat
  let m := (if monthFromMarch < 10 then monthFromMarch + 3 else monthFromMarch - 9).toNat
  ⟨if m ≤ 2 then y + 1 else y, m, d⟩

/-- A day of the year from March on exists, and it is counted back to what it was. -/
theorem ofMarch_spec {y day : Int} (hday : 0 ≤ day ∧ day ≤ 365)
    (hleap : day = 365 → isLeapYear (y + 1) = true) :
    (ofMarch y day).Exists ∧
      (if (ofMarch y day).month ≤ 2 then (ofMarch y day).year - 1 else (ofMarch y day).year) = y ∧
      (153 * (if (ofMarch y day).month > 2 then ((ofMarch y day).month : Int) - 3
        else ((ofMarch y day).month : Int) + 9) + 2) / 5 + ((ofMarch y day).day : Int) - 1 =
          day := by
  have hlast : day ≤ 364 ∨ isLeapYear (y + 1) = true := by
    by_cases h : day = 365
    · exact .inr (hleap h)
    · exact .inl (by omega)
  unfold ofMarch
  generalize hmonth : (5 * day + 2) / 153 = month
  have hcases : month = 0 ∨ month = 1 ∨ month = 2 ∨ month = 3 ∨ month = 4 ∨ month = 5 ∨
      month = 6 ∨ month = 7 ∨ month = 8 ∨ month = 9 ∨ month = 10 ∨ month = 11 := by omega
  obtain rfl | rfl | rfl | rfl | rfl | rfl | rfl | rfl | rfl | rfl | rfl | rfl := hcases
  -- the twelfth month from March on is February
  case inr.inr.inr.inr.inr.inr.inr.inr.inr.inr.inr =>
    refine ⟨⟨by simp, by simp, by simp; omega, ?_⟩, by simp, by simp; omega⟩
    obtain h | h := hlast
    · simp only [daysInMonth]
      simp
      split <;> omega
    · simp [daysInMonth, h]
      omega
  all_goals
    refine ⟨⟨by simp, by simp, by simp; omega, ?_⟩, by simp, by simp; omega⟩
    simp [daysInMonth]
    omega

/-- The civil day of a number exists, and it has that number. -/
theorem civilOf_spec (n : Int) :
    (civilOf n).Exists ∧
      dayNumber (civilOf n).year (civilOf n).month (civilOf n).day = n := by
  generalize hera : (n + 719468) / 146097 = era
  have hlow : 0 ≤ n + 719468 - era * 146097 := by omega
  have hhigh : n + 719468 - era * 146097 < 146097 := by omega
  obtain ⟨y, hy, hymem, hday⟩ := yearOfEra_spec hlow hhigh
  have hcivil : civilOf n = ofMarch (y + era * 400)
      (n + 719468 - era * 146097 - (365 * y + y / 4 - y / 100)) := by
    simp only [civilOf, hera, hy]
    rfl
  obtain ⟨hexists, hyear, hdays⟩ := ofMarch_spec ⟨hday.1, hday.2.1⟩ (fun h => hday.2.2 h era)
  rw [hcivil]
  refine ⟨hexists, ?_⟩
  have hera' : (y + era * 400) / 400 = era := by omega
  simp only [dayNumber, hyear, hdays, hera']
  clear hcivil hexists hyear hdays hday hera hy
  omega

/-! ## Pieces -/

section Pieces

open Text

variable {ds rest : List Char}

theorem trimStartChars_append (hne : ds ≠ []) (hds : ∀ c ∈ ds, c.isDigit = true) :
    trimStartChars (ds ++ rest) = ds ++ rest := by
  obtain ⟨d, ds, rfl⟩ := List.exists_cons_of_ne_nil hne
  exact trimStartChars_cons (not_isBlank_of_isDigit (hds d List.mem_cons_self))

/-- Digits are taken as far as they are allowed, or as they go. -/
theorem digits?_append {least most : Nat} (hds : ∀ c ∈ ds, c.isDigit = true)
    (hleast : least ≤ ds.length)
    (hstop : ds.length = most ∨ ds.length ≤ most ∧ ∀ c ∈ rest.head?, c.isDigit = false) :
    digits? least most (ds ++ rest) = some (valueOf ds, rest) := by
  have hrun : ((ds ++ rest).take most).takeWhile Char.isDigit = ds := by
    obtain hmost | ⟨hmost, hrest⟩ := hstop
    · have htake : (ds ++ rest).take most = ds ++ [] := by simp [← hmost]
      rw [htake]
      exact takeWhile_isDigit_append hds (by simp)
    · rw [List.take_append, List.take_of_length_le hmost]
      refine takeWhile_isDigit_append hds fun c hc => hrest c ?_
      rw [List.head?_take] at hc
      split at hc
      · simp at hc
      · exact hc
  unfold digits?
  rw [hrun]
  simp [valueOf, Nat.not_lt.mpr hleast]

theorem padded_ne_nil {width n : Nat} (hwidth : 0 < width) : (padded width n).toList ≠ [] := by
  rw [← List.length_pos_iff, length_padded]
  omega

/-- Two digits are taken back, whatever follows them. -/
theorem number?_padded {n : Nat} (hn : n < 100) :
    number? 2 ((padded 2 n).toList ++ rest) = some (n, rest) := by
  have hdigits : ∀ c ∈ (padded 2 n).toList, c.isDigit = true := fun _ => isDigit_of_mem_padded
  have hlength : (padded 2 n).toList.length = 2 := length_padded_of_lt (by decide) hn
  rw [number?, trimStartChars_append (padded_ne_nil (by decide)) hdigits,
    digits?_append hdigits (by omega) (.inl hlength), valueOf_padded]

theorem mark?_cons {c : Char} (hc : isBlank c = false) : mark? c (c :: rest) = some rest := by
  simp [mark?, trimStartChars_cons hc]

/-- A year is taken back up to the hyphen behind it. -/
theorem year?_text (y : Int) :
    year? ((Date.yearText y).toList ++ '-' :: rest) = some (y, '-' :: rest) := by
  have hdigits (n : Nat) : ∀ c ∈ (padded 4 n).toList, c.isDigit = true :=
    fun _ => isDigit_of_mem_padded
  have hlength (n : Nat) : 1 ≤ (padded 4 n).toList.length := by
    rw [length_padded]
    omega
  -- after a sign the digits go as far as the hyphen
  have hsigned (n : Nat) :
      digits? 1 ((padded 4 n).toList ++ '-' :: rest).length ((padded 4 n).toList ++ '-' :: rest) =
        some (n, '-' :: rest) := by
    rw [digits?_append (hdigits n) (hlength n) (.inr ⟨by simp, by simp⟩), valueOf_padded]
  unfold Date.yearText
  split
  case isTrue hy =>
    have hfour : (padded 4 y.toNat).toList.length = 4 :=
      length_padded_of_lt (by decide) (by omega)
    have htaken : digits? 1 4 ((padded 4 y.toNat).toList ++ '-' :: rest) =
        some (y.toNat, '-' :: rest) := by
      rw [digits?_append (hdigits _) (hlength _) (.inl hfour), valueOf_padded]
    have hyear : ((y.toNat : Nat) : Int) = y := by omega
    obtain ⟨d, ds, hcons⟩ := List.exists_cons_of_ne_nil (padded_ne_nil (n := y.toNat)
      (by decide : 0 < 4))
    have hd : d.isDigit = true := hdigits y.toNat d (hcons ▸ List.mem_cons_self)
    rw [hcons, List.cons_append] at htaken ⊢
    rw [year?, trimStartChars_cons (not_isBlank_of_isDigit hd)]
    split
    case h_1 hsign =>
      obtain ⟨rfl, -⟩ := List.cons.inj hsign
      exact absurd hd (by decide)
    case h_2 hsign =>
      obtain ⟨rfl, -⟩ := List.cons.inj hsign
      exact absurd hd (by decide)
    case h_3 => rw [htaken, Option.map_some, hyear]
  case isFalse hy =>
    rw [String.toList_append, List.append_assoc]
    split
    case isTrue hneg =>
      have hyear : -((y.natAbs : Nat) : Int) = y := by omega
      have hsign : "-".toList = ['-'] := rfl
      rw [hsign, List.singleton_append, year?, trimStartChars_cons (by decide)]
      simp only [hsigned, Option.map_some, hyear]
    case isFalse hpos =>
      have hyear : ((y.natAbs : Nat) : Int) = y := by omega
      have hsign : "+".toList = ['+'] := rfl
      rw [hsign, List.singleton_append, year?, trimStartChars_cons (by decide)]
      simp only [hsigned, Option.map_some, hyear]

/-! ## Dates -/

theorem ofCivil?_civilOf (d : Date) :
    Date.ofCivil? (civilOf d.number).year (civilOf d.number).month (civilOf d.number).day =
      some d := by
  obtain ⟨hexists, hnumber⟩ := civilOf_spec d.number
  have hdate : Date.ofNumber? d.number = some d := by
    rw [Date.ofNumber?, dif_pos ⟨d.first_le, d.le_last⟩]
  simp [Date.ofCivil?, hexists.one_le_month, hexists.month_le, hexists.one_le_day, hexists.day_le,
    hnumber, hdate]

theorem daysInMonth_le (y : Int) (m : Nat) : daysInMonth y m ≤ 31 := by
  unfold daysInMonth
  split <;> split <;> omega

/-- A date is taken back, whatever follows it. -/
theorem date?_text (d : Date) : date? (d.text.toList ++ rest) = some (d, rest) := by
  obtain ⟨hexists, -⟩ := civilOf_spec d.number
  have hmonth : (civilOf d.number).month < 100 := by
    have := hexists.month_le
    omega
  have hday : (civilOf d.number).day < 100 := by
    have := hexists.day_le
    have := daysInMonth_le (civilOf d.number).year (civilOf d.number).month
    omega
  have hcs : d.text.toList ++ rest = (Date.yearText (civilOf d.number).year).toList ++
      '-' :: ((padded 2 (civilOf d.number).month).toList ++
        '-' :: ((padded 2 (civilOf d.number).day).toList ++ rest)) := by
    simp [Date.text, String.toList_append]
  have hblank : isBlank '-' = false := by decide
  rw [hcs]
  simp [date?, year?_text, mark?_cons hblank, number?_padded hmonth, number?_padded hday,
    ofCivil?_civilOf]

end Pieces

end Calendar

open Calendar

/-- A date is read back from what is written. -/
theorem Date.read?_text (d : Date) : Date.read? d.text = some d := by
  have h : date? (d.text.toList ++ []) = some (d, []) := date?_text d
  rw [List.append_nil] at h
  simp only [Date.read?, h]
  rfl

/-! ## Instants -/

namespace Instant

open Text

/-- A fraction of `width` digits is taken back up to the letter behind it. -/
theorem fraction?_padded {width n : Nat} {rest : List Char} (hwidth : 0 < width ∧ width ≤ 9)
    (hn : n < 10 ^ width) :
    fraction? ('.' :: ((padded width n).toList ++ 'Z' :: rest)) =
      some (n * 10 ^ (9 - width), 'Z' :: rest) := by
  have hlength := length_padded_of_lt hwidth.1 hn
  have htaken : digits? 1 9 ((padded width n).toList ++ 'Z' :: rest) = some (n, 'Z' :: rest) := by
    rw [digits?_append (fun _ => isDigit_of_mem_padded) (by omega)
      (.inr ⟨by omega, by simp⟩), valueOf_padded]
  simp [fraction?, htaken, hlength, Nat.pow_eq]

/-- The fewest digits that are exact are enough. -/
theorem fraction?_text {n : Nat} {rest : List Char} (hn : n < nanosPerSecond) :
    fraction? ((fractionText n).toList ++ 'Z' :: rest) = some (n, 'Z' :: rest) := by
  unfold nanosPerSecond at hn
  have hdot (width m : Nat) : ("." ++ padded width m).toList ++ 'Z' :: rest =
      '.' :: ((padded width m).toList ++ 'Z' :: rest) := by simp [String.toList_append]
  unfold fractionText
  split
  case isTrue hzero =>
    subst hzero
    rfl
  split
  case isTrue hmillis =>
    have hexact : n / 1000000 * 10 ^ (9 - 3) = n := by omega
    rw [hdot, fraction?_padded (by decide) (by omega), hexact]
  split
  case isTrue hmicros =>
    have hexact : n / 1000 * 10 ^ (9 - 6) = n := by omega
    rw [hdot, fraction?_padded (by decide) (by omega), hexact]
  case isFalse =>
    rw [hdot, fraction?_padded (by decide) (by omega), Nat.sub_self, Nat.pow_zero, Nat.mul_one]

/-- The time of day of an instant is put together from its parts. -/
theorem ofParts?_eq (t : Instant) :
    let inDay := (t.second % secondsPerDay).toNat
    TimeOfDay.ofParts? (inDay / 3600) (inDay / 60 % 60) (inDay % 60 + t.nanos / nanosPerSecond)
      (t.nanos % nanosPerSecond) = some ⟨inDay, t.nanos⟩ := by
  intro inDay
  have hinDay : inDay < 86400 := by
    have : inDay = (t.second % secondsPerDay).toNat := rfl
    unfold secondsPerDay at this
    omega
  have hparts : inDay / 3600 * 3600 + inDay / 60 % 60 * 60 + inDay % 60 = inDay := by omega
  unfold TimeOfDay.ofParts?
  rw [if_pos ⟨by omega, by omega⟩]
  obtain hnanos | ⟨hlast, hnanos⟩ := t.fits
  · have hzero : t.nanos / nanosPerSecond = 0 := Nat.div_eq_of_lt hnanos
    have hsmall : inDay % 60 < 60 := by omega
    simp [hzero, hsmall, hparts, Nat.mod_eq_of_lt hnanos]
  -- the second half of second 59 is written as second 60
  · obtain hsmall | hlarge := Nat.lt_or_ge t.nanos nanosPerSecond
    · have hzero : t.nanos / nanosPerSecond = 0 := Nat.div_eq_of_lt hsmall
      have hsecond : inDay % 60 < 60 := by omega
      simp [hzero, hsecond, hparts, Nat.mod_eq_of_lt hsmall]
    · have hone : t.nanos / nanosPerSecond = 1 := by
        unfold nanosPerSecond at *
        omega
      have hrest : nanosPerSecond + t.nanos % nanosPerSecond = t.nanos := by
        unfold nanosPerSecond at *
        omega
      have hsecond : inDay % 60 = 59 := by
        have : inDay = (t.second % secondsPerDay).toNat := rfl
        unfold secondsPerDay at this
        omega
      have hday : inDay / 3600 * 3600 + inDay / 60 % 60 * 60 + 59 = inDay := by omega
      simp [hone, hsecond, hrest, hday]

/-- An instant is read back from what is written, to the nanosecond and with its leap second. -/
theorem read?_text (t : Instant) : Instant.read? t.text = some t := by
  have hparts := ofParts?_eq t
  generalize hinDay : (t.second % secondsPerDay).toNat = inDay at hparts
  have hinDay' : inDay < 86400 := by
    unfold secondsPerDay at hinDay
    omega
  have hnanos : t.nanos / nanosPerSecond < 40 := by
    have := t.fits
    unfold Fits nanosPerSecond at *
    omega
  have hfraction : t.nanos % nanosPerSecond < nanosPerSecond := Nat.mod_lt _ (by decide)
  have hcs : t.text.toList = t.date.text.toList ++
      'T' :: ((padded 2 (inDay / 3600)).toList ++ ':' :: ((padded 2 (inDay / 60 % 60)).toList ++
        ':' :: ((padded 2 (inDay % 60 + t.nanos / nanosPerSecond)).toList ++
          ((fractionText (t.nanos % nanosPerSecond)).toList ++ ['Z'])))) := by
    simp [text, hinDay, String.toList_append]
  have hblank : isBlank ':' = false := by decide
  have htime : timeOfDay? ((padded 2 (inDay / 3600)).toList ++
      ':' :: ((padded 2 (inDay / 60 % 60)).toList ++
        ':' :: ((padded 2 (inDay % 60 + t.nanos / nanosPerSecond)).toList ++
          ((fractionText (t.nanos % nanosPerSecond)).toList ++ ['Z'])))) =
      some (⟨inDay, t.nanos⟩, ['Z']) := by
    unfold timeOfDay?
    rw [number?_padded (by omega)]
    simp [mark?_cons hblank, number?_padded (show inDay / 60 % 60 < 100 by omega),
      number?_padded (show inDay % 60 + t.nanos / nanosPerSecond < 100 by omega),
      fraction?_text hfraction, hparts]
  have hsecond : t.date.number * secondsPerDay + (inDay : Int) = t.second := by
    unfold date
    unfold secondsPerDay at *
    dsimp only
    omega
  have hwhole : ofParts? t.second t.nanos = some t := by
    rw [ofParts?, dif_pos ⟨⟨t.first_le, t.le_last⟩, t.fits⟩]
  have hoffset : offset? (trimStartChars ['Z']) = some (0, []) := by decide
  have hend : trimStartChars [] = [] := rfl
  rw [read?, hcs]
  simp [date?_text, dateTimeMark?, htime, hoffset, hend, hsecond, hwhole]

end Instant

end Stockroom
