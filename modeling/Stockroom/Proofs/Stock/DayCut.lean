/-
Stockroom.Proofs.Stock.DayCut — the snapshot of a day takes in what happened up to the end of
that day.

Dates are kept as numbers, and an instant falls on the date of its second. That an earlier number
is an earlier day of the calendar is what the first part shows. Months follow each other without a
gap (`monthStart_succ`), so a day in a later month has a greater number (`dayNumber_le`), whatever
the lengths of the months and years between; `civilOf_le_iff` is the same for the days that numbers
stand for.

An instant lies before a midnight exactly if its date does (`Instant.lt_ofDate_iff`). The cut of a
day lies at the next midnight, and that of the last day, which has none after it, at its own
(`LedgerCut.includes_ofDay_iff`).
-/
import Stockroom.Proofs.Calendar
import Stockroom.Stock.Snapshot

namespace Stockroom

namespace Calendar

/-! ## The order of the calendar -/

/-- Not later in the calendar: by the year, then by the month, then by the day of the month. -/
instance : LE Civil :=
  ⟨fun a b => a.year < b.year ∨ a.year = b.year ∧
    (a.month < b.month ∨ a.month = b.month ∧ a.day ≤ b.day)⟩

theorem Civil.le_def {a b : Civil} :
    a ≤ b ↔ a.year < b.year ∨ a.year = b.year ∧
      (a.month < b.month ∨ a.month = b.month ∧ a.day ≤ b.day) := Iff.rfl

theorem Civil.le_total (a b : Civil) : a ≤ b ∨ b ≤ a := by
  rw [le_def, le_def]
  omega

/-- The number of the first day of a month. Months are counted from March of the year 0, so that
the leap day ends a year. -/
def monthStart (n : Int) : Int :=
  365 * (n / 12) + n / 12 / 4 - n / 12 / 100 + n / 12 / 400 + (153 * (n % 12) + 2) / 5 - 719468

/-- A day is counted from the first day of its month. -/
theorem dayNumber_eq (y : Int) {m : Nat} (hm : 1 ≤ m ∧ m ≤ 12) (d : Nat) :
    dayNumber y m d = monthStart (12 * y + m - 3) + d - 1 := by
  unfold dayNumber monthStart
  by_cases hearly : m ≤ 2
  · have hyear : (12 * y + m - 3) / 12 = y - 1 := by omega
    have hmonth : (12 * y + m - 3) % 12 = m + 9 := by omega
    have hnot : ¬ m > 2 := by omega
    simp only [hyear, hmonth, if_pos hearly, if_neg hnot]
    omega
  · have hyear : (12 * y + m - 3) / 12 = y := by omega
    have hmonth : (12 * y + m - 3) % 12 = m - 3 := by omega
    have hlate : m > 2 := by omega
    simp only [hyear, hmonth, if_neg hearly, if_pos hlate]
    omega

/-- February has one day more in the years in which the leap days up to then have become more. -/
theorem daysInMonth_two (y : Int) :
    (daysInMonth y 2 : Int) =
      28 + (y / 4 - (y - 1) / 4) - (y / 100 - (y - 1) / 100) + (y / 400 - (y - 1) / 400) := by
  by_cases hleap : isLeapYear y = true
  · have hdays : daysInMonth y 2 = 29 := by simp [daysInMonth, hleap]
    simp only [isLeapYear, Bool.and_eq_true, Bool.or_eq_true, decide_eq_true_eq] at hleap
    omega
  · have hdays : daysInMonth y 2 = 28 := by simp [daysInMonth, hleap]
    simp only [isLeapYear, Bool.and_eq_true, Bool.or_eq_true, decide_eq_true_eq] at hleap
    omega

/-- A month starts where the one before it ends. -/
theorem monthStart_succ (y : Int) {m : Nat} (hm : 1 ≤ m ∧ m ≤ 12) :
    monthStart (12 * y + m - 3 + 1) = monthStart (12 * y + m - 3) + daysInMonth y m := by
  by_cases hfebruary : m = 2
  · -- the year that begins in March ends with it
    subst hfebruary
    have hyear : (12 * y + (2 : Nat) - 3) / 12 = y - 1 := by omega
    have hmonth : (12 * y + (2 : Nat) - 3) % 12 = 11 := by omega
    have hyear' : (12 * y + (2 : Nat) - 3 + 1) / 12 = y := by omega
    have hmonth' : (12 * y + (2 : Nat) - 3 + 1) % 12 = 0 := by omega
    rw [daysInMonth_two]
    simp only [monthStart, hyear, hmonth, hyear', hmonth']
    omega
  · have hyear : (12 * y + m - 3 + 1) / 12 = (12 * y + m - 3) / 12 := by omega
    have hmonth : (12 * y + m - 3 + 1) % 12 = (12 * y + m - 3) % 12 + 1 := by omega
    have hdays : (153 * ((12 * y + m - 3) % 12 + 1) + 2) / 5 =
        (153 * ((12 * y + m - 3) % 12) + 2) / 5 + daysInMonth y m := by
      have hfrom : (12 * y + m - 3) % 12 = (m + 9 : Int) % 12 := by omega
      rw [hfrom]
      obtain rfl | rfl | rfl | rfl | rfl | rfl | rfl | rfl | rfl | rfl | rfl : m = 1 ∨ m = 3 ∨
          m = 4 ∨ m = 5 ∨ m = 6 ∨ m = 7 ∨ m = 8 ∨ m = 9 ∨ m = 10 ∨ m = 11 ∨ m = 12 := by omega
      all_goals rfl
    simp only [monthStart, hyear, hmonth]
    omega

theorem monthStart_le {n n' : Int} (h : n ≤ n') : monthStart n ≤ monthStart n' := by
  obtain ⟨k, rfl⟩ := Int.le.dest h
  clear h
  induction k with
  | zero => simp
  | succ k ih =>
    obtain ⟨y, m, hm, hn⟩ : ∃ (y : Int) (m : Nat), (1 ≤ m ∧ m ≤ 12) ∧ n + k = 12 * y + m - 3 :=
      ⟨(n + k + 2) / 12, ((n + k + 2) % 12).toNat + 1, by omega, by omega⟩
    have hsucc := monthStart_succ y hm
    rw [← hn] at hsucc
    have hnext : n + ((k + 1 : Nat) : Int) = n + k + 1 := by omega
    rw [hnext]
    omega

/-- A day that is not later in the calendar has no greater number. -/
theorem dayNumber_le {a b : Civil} (ha : a.Exists) (hb : b.Exists) (h : a ≤ b) :
    dayNumber a.year a.month a.day ≤ dayNumber b.year b.month b.day := by
  have hmonthA : 1 ≤ a.month ∧ a.month ≤ 12 := ⟨ha.one_le_month, ha.month_le⟩
  have hmonthB : 1 ≤ b.month ∧ b.month ≤ 12 := ⟨hb.one_le_month, hb.month_le⟩
  rw [dayNumber_eq _ hmonthA, dayNumber_eq _ hmonthB]
  have hdayA := ha.day_le
  have hdayB := hb.one_le_day
  by_cases hsame : 12 * a.year + a.month = 12 * b.year + b.month
  · have hday : a.day ≤ b.day := by
      rw [Civil.le_def] at h
      omega
    rw [hsame]
    omega
  · -- the later month starts behind all days of the earlier one
    have hlater : 12 * a.year + a.month - 3 + 1 ≤ 12 * b.year + b.month - 3 := by
      rw [Civil.le_def] at h
      omega
    have hstart := monthStart_le hlater
    rw [monthStart_succ a.year hmonthA] at hstart
    omega

/-- Numbers are in the order of the days that they stand for. -/
theorem civilOf_le_iff {n n' : Int} : civilOf n ≤ civilOf n' ↔ n ≤ n' := by
  obtain ⟨hexists, hnumber⟩ := civilOf_spec n
  obtain ⟨hexists', hnumber'⟩ := civilOf_spec n'
  constructor
  · intro h
    rw [← hnumber, ← hnumber']
    exact dayNumber_le hexists hexists' h
  · intro h
    obtain hle | hge := Civil.le_total (civilOf n) (civilOf n')
    · exact hle
    · have hback : n' ≤ n := by
        rw [← hnumber, ← hnumber']
        exact dayNumber_le hexists' hexists hge
      obtain rfl : n = n' := Int.le_antisymm h hback
      exact hge

end Calendar

/-- The date as a day of the calendar. -/
def Date.civil (d : Date) : Calendar.Civil := Calendar.civilOf d.number

/-- A date is not later than another one exactly if it is not in the calendar. -/
theorem Date.le_iff_civil_le {d d' : Date} : d ≤ d' ↔ d.civil ≤ d'.civil :=
  Calendar.civilOf_le_iff.symm

/-- The day before the last one, and every earlier one, is followed by another one. -/
theorem Date.next?_number {d : Date} (h : d ≠ .last) :
    ∃ d', d.next? = some d' ∧ d'.number = d.number + 1 := by
  have hfirst := d.first_le
  have hlast := d.le_last
  have hne : d.number ≠ Calendar.lastDay := fun heq => h (Date.ext heq)
  have hin : Calendar.firstDay ≤ d.number + 1 ∧ d.number + 1 ≤ Calendar.lastDay := by omega
  exact ⟨⟨d.number + 1, hin.1, hin.2⟩, dif_pos hin, rfl⟩

/-! ## Midnights -/

/-- What happens before the midnight of a day happens on an earlier one, at any time of it and in
its leap seconds. -/
theorem Instant.lt_ofDate_iff {t : Instant} {d : Date} : t < .ofDate d ↔ t.date < d := by
  have hbefore : t < .ofDate d ↔ t.second < d.number * 86400 ∨
      t.second = d.number * 86400 ∧ t.nanos < 0 := Iff.rfl
  have hdate : t.date < d ↔ t.second / 86400 < d.number := Iff.rfl
  rw [hbefore, hdate]
  omega

/-- What is not later is not on a later date. -/
theorem Instant.date_le_date {t t' : Instant} (h : t ≤ t') : t.date ≤ t'.date := by
  have hsecond : t.second ≤ t'.second := by
    rcases h with h | ⟨h, -⟩
    · exact Int.le_of_lt h
    · exact Int.le_of_eq h
  have hdate : t.date ≤ t'.date ↔ t.second / 86400 ≤ t'.second / 86400 := Iff.rfl
  rw [hdate]
  omega

/-! ## The cut of a day -/

/-- The cut of a day lets in what happened on it or on an earlier one; nothing is let in that
happened on the last day there is. -/
theorem LedgerCut.includes_ofDay_iff {d : Date} {t : Instant} :
    (LedgerCut.ofDay d).includes t = true ↔ t.date ≤ d ∧ t.date ≠ .last := by
  have hcut : (LedgerCut.ofDay d).includes t = true ↔ t.date < d.next?.getD .last := by
    rw [← Instant.lt_ofDate_iff]
    exact decide_eq_true_iff
  rw [hcut]
  have hbound : t.date.number ≤ Date.last.number := t.date.le_last
  have hne : t.date ≠ .last ↔ t.date.number ≠ Date.last.number := not_congr Date.ext_iff
  rw [hne]
  by_cases hlast : d = .last
  · subst hlast
    show t.date.number < Date.last.number ↔ t.date.number ≤ Date.last.number ∧ _
    omega
  · obtain ⟨d', hnext, hnumber⟩ := Date.next?_number hlast
    have hlt : d.number < Date.last.number := by
      have hle : d.number ≤ Date.last.number := d.le_last
      have : d.number ≠ Date.last.number := fun heq => hlast (Date.ext heq)
      omega
    rw [hnext, Option.getD_some]
    show t.date.number < d'.number ↔ t.date.number ≤ d.number ∧ _
    omega

/-- On every day but the last one, what happened up to some instant belongs to its day. -/
theorem LedgerCut.includes_ofDay_date {t now : Instant} (h : t ≤ now) (hlast : now.date ≠ .last) :
    (LedgerCut.ofDay now.date).includes t = true := by
  have hday := Instant.date_le_date h
  refine includes_ofDay_iff.mpr ⟨hday, fun heq => hlast ?_⟩
  rw [heq] at hday
  exact Date.ext (Int.le_antisymm now.date.le_last hday)

/-- The snapshot of a day takes in exactly what happened on that day or on an earlier one, by year,
month and day; leap days and leap seconds make no difference, nor do years before the first or of
more than four digits. Only what happened on the last day there is belongs to no snapshot, not even
to that of the day itself. -/
theorem day_covered (d : Date) (t : Instant) :
    ((LedgerCut.ofDay d).includes t = true ↔ t.date ≤ d ∧ t.date ≠ .last) ∧
    (t.date ≤ d ↔ t.date.civil ≤ d.civil) :=
  ⟨LedgerCut.includes_ofDay_iff, Date.le_iff_civil_le⟩

namespace Sample

/-- Noon of the last day there is. -/
def lastNoon : Instant :=
  ⟨Calendar.lastDay * 86400 + 43200, 0, by decide, by decide, .inl (by decide)⟩

end Sample

open Sample in
/-- Not every day is covered by its snapshot: the last one is left out of its own. -/
theorem last_day_left_out :
    lastNoon.date = .last ∧ (LedgerCut.ofDay .last).includes lastNoon = false ∧
    ¬ ∀ (d : Date) (t : Instant), (LedgerCut.ofDay d).includes t = true ↔ t.date ≤ d := by
  have hdate : lastNoon.date = .last := by decide
  have hout : (LedgerCut.ofDay .last).includes lastNoon = false := by decide
  refine ⟨hdate, hout, fun h => ?_⟩
  have hin := (h .last lastNoon).mpr (hdate ▸ Int.le_refl _)
  rw [hout] at hin
  cases hin

end Stockroom
