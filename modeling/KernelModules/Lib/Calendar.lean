import Mathlib.Algebra.BigOperators.Intervals
import Mathlib.Tactic

/-!
# The Gregorian calendar and Unix time

* `DateTime` is a date with its time of day, `DateTime.Valid` that there is such a day, `unixTime` its
  seconds since the first of January 1970, without leap seconds, and `IsDate` relates the two;
* `exists_cell` finds the place of a number in consecutive cells of given lengths, and with it
  `exists_isDate` the date of a second;
* `IsDate.year_lt` and `IsDate.le_year` bound the year of a date.

Nothing here names a particular program.
-/

namespace KernelModules.Lib.Calendar

open Finset

/-- A date with its time of day. -/
structure DateTime where
  year : ℕ
  month : ℕ
  day : ℕ
  hour : ℕ
  minute : ℕ
  second : ℕ
  deriving DecidableEq, Repr

/-- A leap year. -/
def IsLeap (y : ℕ) : Prop := y % 4 = 0 ∧ (y % 100 ≠ 0 ∨ y % 400 = 0)

instance (y : ℕ) : Decidable (IsLeap y) := inferInstanceAs (Decidable (_ ∧ _))

/-- The days of a month. -/
def daysInMonth (y m : ℕ) : ℕ :=
  if m = 2 then (if IsLeap y then 29 else 28)
  else if m = 4 ∨ m = 6 ∨ m = 9 ∨ m = 11 then 30
  else 31

/-- The days of a year. -/
def daysInYear (y : ℕ) : ℕ := if IsLeap y then 366 else 365

/-- There is such a day, with such a time. -/
structure DateTime.Valid (d : DateTime) : Prop where
  month_pos : 1 ≤ d.month
  month_le : d.month ≤ 12
  day_pos : 1 ≤ d.day
  day_le : d.day ≤ daysInMonth d.year d.month
  hour_lt : d.hour < 24
  minute_lt : d.minute < 60
  second_lt : d.second < 60

/-- The seconds since the beginning of a year. -/
def secondOfYear (d : DateTime) : ℕ :=
  (∑ k ∈ Ico 1 d.month, daysInMonth d.year k + (d.day - 1)) * 86400 +
    (d.hour * 3600 + d.minute * 60 + d.second)

/-- The seconds since 1970. -/
def unixTime (d : DateTime) : ℕ := (∑ k ∈ Ico 1970 d.year, daysInYear k) * 86400 + secondOfYear d

/-- The second has this date. -/
def IsDate (n : ℕ) (d : DateTime) : Prop := d.Valid ∧ 1970 ≤ d.year ∧ unixTime d = n

theorem sum_daysInMonth (y : ℕ) : ∑ k ∈ Ico 1 13, daysInMonth y k = daysInYear y := by
  unfold daysInYear
  by_cases hleap : IsLeap y
  · simp [sum_Ico_succ_top, daysInMonth, hleap]
  · simp [sum_Ico_succ_top, daysInMonth, hleap]

/-- **The place of a number** in consecutive cells: the cell that it lies in, and how far. -/
theorem exists_cell (len : ℕ → ℕ) (a : ℕ) {n b : ℕ} (hab : a ≤ b) (hn : n < ∑ k ∈ Ico a b, len k) :
    ∃ c, a ≤ c ∧ c < b ∧ ∃ r < len c, n = ∑ k ∈ Ico a c, len k + r := by
  induction b, hab using Nat.le_induction with
  | base => simp at hn
  | succ b hab ih =>
    rw [sum_Ico_succ_top hab] at hn
    rcases Nat.lt_or_ge n (∑ k ∈ Ico a b, len k) with hlt | hge
    · obtain ⟨c, hac, hcb, hr⟩ := ih hlt
      exact ⟨c, hac, by omega, hr⟩
    · exact ⟨b, hab, Nat.lt_succ_self b, n - ∑ k ∈ Ico a b, len k, by omega, by omega⟩

/-- **Every second has a date**, in a year that comes before any year that begins later. -/
theorem exists_isDate {n y : ℕ} (hy : 1970 ≤ y)
    (hn : n < (∑ k ∈ Ico 1970 y, daysInYear k) * 86400) : ∃ d, IsDate n d := by
  obtain ⟨c, hc, -, r, hr, hdays⟩ := exists_cell daysInYear 1970 (n := n / 86400) hy (by omega)
  rw [← sum_daysInMonth] at hr
  obtain ⟨m, hm, hm', day, hday, rfl⟩ := exists_cell (daysInMonth c) 1 (by norm_num) hr
  refine ⟨⟨c, m, day + 1, n % 86400 / 3600, n % 3600 / 60, n % 60⟩,
    ⟨hm, Nat.le_of_lt_succ hm', Nat.succ_pos day, hday, ?_, ?_, Nat.mod_lt _ (by norm_num)⟩, hc, ?_⟩
  · show n % 86400 / 3600 < 24
    omega
  · show n % 3600 / 60 < 60
    omega
  · show (∑ k ∈ Ico 1970 c, daysInYear k) * 86400 +
      ((∑ k ∈ Ico 1 m, daysInMonth c k + (day + 1 - 1)) * 86400 +
        (n % 86400 / 3600 * 3600 + n % 3600 / 60 * 60 + n % 60)) = n
    omega

theorem DateTime.Valid.secondOfYear_lt {d : DateTime} (h : d.Valid) :
    secondOfYear d < daysInYear d.year * 86400 := by
  have hle : ∑ k ∈ Ico 1 (d.month + 1), daysInMonth d.year k ≤ daysInYear d.year := by
    rw [← sum_daysInMonth]
    exact sum_le_sum_of_subset (Ico_subset_Ico le_rfl (by have := h.month_le; omega))
  rw [sum_Ico_succ_top h.month_pos] at hle
  have hday := h.day_le
  have hpos := h.day_pos
  have hhour := h.hour_lt
  have hminute := h.minute_lt
  have hsecond := h.second_lt
  unfold secondOfYear
  omega

theorem IsDate.year_lt {n y : ℕ} {d : DateTime} (h : IsDate n d)
    (hn : n < (∑ k ∈ Ico 1970 y, daysInYear k) * 86400) : d.year < y := by
  by_contra hge
  have hle : ∑ k ∈ Ico 1970 y, daysInYear k ≤ ∑ k ∈ Ico 1970 d.year, daysInYear k :=
    sum_le_sum_of_subset (Ico_subset_Ico le_rfl (by omega))
  have hn' := h.2.2
  unfold unixTime at hn'
  omega

theorem IsDate.le_year {n y : ℕ} {d : DateTime} (h : IsDate n d)
    (hn : (∑ k ∈ Ico 1970 y, daysInYear k) * 86400 ≤ n) : y ≤ d.year := by
  by_contra hlt
  have hle : ∑ k ∈ Ico 1970 (d.year + 1), daysInYear k ≤ ∑ k ∈ Ico 1970 y, daysInYear k :=
    sum_le_sum_of_subset (Ico_subset_Ico le_rfl (by omega))
  rw [sum_Ico_succ_top h.2.1] at hle
  have hin := h.1.secondOfYear_lt
  have hn' := h.2.2
  unfold unixTime at hn'
  omega

end KernelModules.Lib.Calendar
