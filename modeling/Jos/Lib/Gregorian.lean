import Mathlib.Tactic.Common

/-!
# The Gregorian calendar

The calendar starts on the first of January of the year `1`, a Monday, and goes on from day to day.
`Falls d w` says that the day `d` is reached so and has the weekday `w`, counted from Sunday.

A day has a number, which says how many days come before it.  The weekday is that number, and one more,
modulo seven; and the number of the first of January is a formula in the year.
-/

namespace Gregorian

/-- A day. -/
structure Date where
  year : Nat
  month : Nat
  day : Nat

/-- Whether a year has a leap day. -/
def leap (year : Nat) : Bool :=
  (year % 4 = 0 ∧ year % 100 ≠ 0) ∨ year % 400 = 0

/-- The number of days of a month. -/
def daysIn (year month : Nat) : Nat :=
  match month with
  | 2 => if leap year then 29 else 28
  | 4 | 6 | 9 | 11 => 30
  | _ => 31

/-- The next day. -/
def Date.next (d : Date) : Date :=
  if d.day < daysIn d.year d.month then { d with day := d.day + 1 }
  else if d.month < 12 then ⟨d.year, d.month + 1, 1⟩
  else ⟨d.year + 1, 1, 1⟩

/-- The day `d` has the weekday `w`, where Sunday is `0`. -/
inductive Falls : Date → Nat → Prop where
  | start : Falls ⟨1, 1, 1⟩ 1
  | next {d : Date} {w : Nat} : Falls d w → Falls d.next ((w + 1) % 7)

/-! ### Numbering the days -/

/-- The number of days in the months before a month. -/
def daysBefore (year : Nat) : Nat → Nat
  | 0 => 0
  | 1 => 0
  | month + 2 => daysBefore year (month + 1) + daysIn year (month + 1)

/-- The number of the first of January. -/
def yearStart (year : Nat) : Nat :=
  365 * (year - 1) + (year - 1) / 4 - (year - 1) / 100 + (year - 1) / 400

/-- The number of days that come before a day. -/
def Date.number (d : Date) : Nat :=
  yearStart d.year + daysBefore d.year d.month + (d.day - 1)

/-- A day that there is. -/
structure Date.Valid (d : Date) : Prop where
  year : 1 ≤ d.year
  month : 1 ≤ d.month ∧ d.month ≤ 12
  day : 1 ≤ d.day ∧ d.day ≤ daysIn d.year d.month

variable {d : Date} {w year month : Nat}

theorem daysIn_pos (year month : Nat) :
  1 ≤ daysIn year month
  := by
  unfold daysIn
  split
  · split <;> decide
  · decide
  · decide
  · decide
  · decide
  · decide

/-- A year has `365` days, and one more in a leap year. -/
theorem daysBefore_december (year : Nat) :
  daysBefore year 12 + daysIn year 12 = if leap year then 366 else 365
  := by
  simp only [daysBefore, daysIn]
  split <;> omega

/-- A multiple of `100` is one of `4`, and a multiple of `400` is one of `100`. -/
theorem leap_eq_true_iff :
  leap year = true ↔ (4 ∣ year ∧ ¬ 100 ∣ year) ∨ 400 ∣ year
  := by
  simp [leap, Nat.dvd_iff_mod_eq_zero]

theorem yearStart_succ (hyear : 1 ≤ year) :
  yearStart (year + 1) = yearStart year + if leap year then 366 else 365
  := by
  rcases Nat.exists_eq_add_of_le' hyear with ⟨n, rfl⟩
  have hle : n / 100 ≤ n := Nat.div_le_self n 100
  have h100 : 400 ∣ n + 1 → 100 ∣ n + 1 := Nat.dvd_trans (by decide)
  have h4 : 100 ∣ n + 1 → 4 ∣ n + 1 := Nat.dvd_trans (by decide)
  simp only [yearStart, Nat.add_sub_cancel, leap_eq_true_iff, Nat.succ_div]
  generalize n / 4 = quads, n / 100 = centuries, n / 400 = cycles at hle
  by_cases hcycle : 400 ∣ n + 1
  · simp only [hcycle, h100 hcycle, h4 (h100 hcycle), if_true, or_true]
    omega
  by_cases hcentury : 100 ∣ n + 1
  · simp only [hcycle, hcentury, h4 hcentury, if_true, if_false, not_true, and_false, or_false]
    omega
  by_cases hquad : 4 ∣ n + 1
  · simp only [hcycle, hcentury, hquad, if_true, if_false, not_false_eq_true, and_self, true_or]
    omega
  · simp only [hcycle, hcentury, hquad, if_false, false_and, or_self]
    omega

theorem Date.Valid.next (h : d.Valid) :
  d.next.Valid
  := by
  have hyear := h.year
  have hmonth := h.month
  have hday := h.day
  rw [Date.next]
  split
  case isTrue hlt =>
    constructor
    case year => apply hyear
    case month => apply hmonth
    case day =>
      constructor
      · apply Nat.le_add_left
      · apply hlt
  case isFalse =>
    split
    case isTrue hlt =>
      constructor
      case year => apply hyear
      case month =>
        constructor
        · apply Nat.le_add_left
        · apply hlt
      case day => exact ⟨Nat.le_refl 1, daysIn_pos _ _⟩
    case isFalse =>
      constructor
      case year => apply Nat.le_add_left
      case month => simp
      case day => exact ⟨Nat.le_refl 1, daysIn_pos _ _⟩

/-- The next day has the next number. -/
theorem number_next (h : d.Valid) :
  d.next.number = d.number + 1
  := by
  have hday := h.day
  have hmonth := h.month
  rw [Date.next]
  split
  case isTrue =>
    simp only [Date.number]
    omega
  case isFalse hlast =>
    have hend : d.day = daysIn d.year d.month := by omega
    split
    case isTrue =>
      rcases Nat.exists_eq_add_of_le' hmonth.1 with ⟨m, hm⟩
      simp only [Date.number, hm, daysBefore]
      rw [hm] at hend
      omega
    case isFalse =>
      have hdecember : d.month = 12 := by omega
      rw [hdecember] at hend
      have hyear := daysBefore_december d.year
      simp only [Date.number, hdecember, yearStart_succ h.year, daysBefore]
      simp only [daysBefore] at hyear
      omega

/-- A day has one weekday. -/
theorem Falls.eq (h : Falls d w) :
  d.Valid ∧ w = (d.number + 1) % 7
  := by
  induction h with
  | start =>
      constructor
      · constructor
        case year => decide
        case month => decide
        case day => decide
      · rfl
  | next _ ih =>
      rcases ih with ⟨hvalid, rfl⟩
      constructor
      · apply hvalid.next
      · rw [number_next hvalid]
        omega

/-! ### Every day has a weekday -/

/-- The days of a month follow each other. -/
theorem falls_day (h : Falls ⟨year, month, 1⟩ w) {k : Nat} (hk : k < daysIn year month) :
  ∃ w', Falls ⟨year, month, 1 + k⟩ w'
  := by
  induction k with
  | zero => exact ⟨w, h⟩
  | succ k ih =>
      rcases ih (by omega) with ⟨w', hw'⟩
      have hnext := hw'.next
      rw [Date.next, if_pos (by rw [Nat.add_comm]; exact hk)] at hnext
      exact ⟨_, hnext⟩

/-- The months of a year follow each other. -/
theorem falls_next_month (h : Falls ⟨year, month, 1⟩ w) (hmonth : month < 12) :
  ∃ w', Falls ⟨year, month + 1, 1⟩ w'
  := by
  have hpos := daysIn_pos year month
  rcases falls_day h (Nat.sub_lt hpos Nat.one_pos) with ⟨w', hw'⟩
  have hnext := hw'.next
  rw [Date.next, if_neg (by simp only; omega), if_pos hmonth] at hnext
  exact ⟨_, hnext⟩

theorem falls_month (h : Falls ⟨year, 1, 1⟩ w) {k : Nat} (hk : k < 12) :
  ∃ w', Falls ⟨year, 1 + k, 1⟩ w'
  := by
  induction k with
  | zero => exact ⟨w, h⟩
  | succ k ih =>
      rcases ih (by omega) with ⟨w', hw'⟩
      apply falls_next_month hw' (by omega)

/-- The years follow each other. -/
theorem falls_year (k : Nat) :
  ∃ w, Falls ⟨1 + k, 1, 1⟩ w
  := by
  induction k with
  | zero => exact ⟨1, .start⟩
  | succ k ih =>
      rcases ih with ⟨w, hw⟩
      rcases falls_month hw (show 11 < 12 by decide) with ⟨w₁, hw₁⟩
      rcases falls_day hw₁ (show 30 < daysIn (1 + k) 12 by simp [daysIn]) with ⟨w₂, hw₂⟩
      have hnext := hw₂.next
      rw [Date.next, if_neg (by simp [daysIn]), if_neg (by simp)] at hnext
      exact ⟨_, hnext⟩

/-- A day has the weekday that its number says. -/
theorem falls_iff :
  Falls d w ↔ d.Valid ∧ w = (d.number + 1) % 7
  := by
  constructor
  · apply Falls.eq
  · rintro ⟨hvalid, rfl⟩
    have hyear := hvalid.year
    have hmonth := hvalid.month
    have hday := hvalid.day
    rcases falls_year (d.year - 1) with ⟨w₁, hw₁⟩
    rw [Nat.add_sub_cancel' hyear] at hw₁
    rcases falls_month hw₁ (show d.month - 1 < 12 by omega) with ⟨w₂, hw₂⟩
    rw [Nat.add_sub_cancel' hmonth.1] at hw₂
    rcases falls_day hw₂ (show d.day - 1 < daysIn d.year d.month by omega) with ⟨w₃, hw₃⟩
    rw [Nat.add_sub_cancel' hday.1] at hw₃
    rw [← hw₃.eq.2]
    apply hw₃

end Gregorian
