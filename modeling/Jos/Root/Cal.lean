import Mathlib.Data.List.Basic
import Mathlib.Tactic.IntervalCases
import Jos.Lib.Gregorian
import Jos.Lib.Int32

/-!
# The calendar of the root tree

`user/cal.c` computes the weekday of the first of January by a formula and then prints the days of each
month, where the weekday is carried along from month to month.

What is printed is read from its places: a day is the digits that stand in a row and in a column, and
the column is that of its weekday.  Two things go wrong.  For large years the formula wraps; and when
one month alone is printed, it begins with the weekday of the first of January.
-/

namespace Jos

namespace Root

namespace Cal

open Bytes Gregorian

/-! ### The source -/

/-- The table `days_in_month`. -/
def days_in_month : List Int := [0, 31, 28, 31, 30, 31, 30, 31, 31, 30, 31, 30, 31]

def months : List String :=
  [" ",
    "\n\n\nJanuary",
    "\n\n\nFebruary",
    "\n\n\nMarch",
    "\n\n\nApril",
    "\n\n\nMay",
    "\n\n\nJune",
    "\n\n\nJuly",
    "\n\n\nAugust",
    "\n\n\nSeptember",
    "\n\n\nOctober",
    "\n\n\nNovember",
    "\n\n\nDecember"]

def determinedaycode (year : Int) : Int :=
  let d1 := (year - 1).tdiv 4
  let d2 := (year - 1).tdiv 100
  let d3 := (year - 1).tdiv 400
  (int32 (int32 (int32 (year + d1) - d2) + d3)).tmod 7

/-- What `determineleapyear` returns, and the table it leaves. -/
def determineleapyear (days : List Int) (year : Int) : Int × List Int :=
  if (year.tmod 4 = 0 ∧ year.tmod 100 ≠ 0) ∨ year.tmod 400 = 0 then
    (1, days.set 2 29)
  else
    (0, days.set 2 28)

/-- What `%2d` prints for a number of one or two digits. -/
def twoWide (day : Nat) : List Char :=
  if day < 10 then [' ', Nat.digitChar day] else [Nat.digitChar (day / 10), Nat.digitChar (day % 10)]

/-- The lines above the days of a month. -/
def heading (year : Int) (month : Nat) : List Char :=
  (months.getD month "").toList ++ ' ' :: (toString year).toList
    ++ "\n\nSun  Mon  Tue  Wed  Thu  Fri  Sat\n".toList

/-- What is printed for one day. -/
def dayText (daycode : Int) (day : Nat) : List Char :=
  twoWide day ++
    -- Is day before Sat? Else start next line Sun.
    if ((day : Int) + daycode).tmod 7 > 0 then [' ', ' ', ' '] else ['\n', ' ']

/-- The days of a month. -/
def body (days : List Int) (daycode : Int) (month : Nat) : List Char :=
  -- Correct the position for the first date
  List.replicate (1 + daycode * 5).toNat ' '
    ++ (List.range' 1 (days.getD month 0).toNat).flatMap (dayText daycode)

/-- The loop over the months. -/
def pages (days : List Int) (year : Int) : List Nat → Int → List Char
  | [], _ => []
  | month :: rest, daycode =>
      heading year month ++ body days daycode month
        -- Set position for next month
        ++ pages days year rest ((daycode + days.getD month 0).tmod 7)

def calendar (days : List Int) (year daycode month1 : Int) : List Char :=
  if year < 0 then
    "Wrong input year shuld be postive\n".toList
  else if month1 < 0 then
    "Month is not correct enter 1...12\n".toList
  else if month1 = 0 then
    pages days year (List.range' 1 12) daycode
  else
    heading year month1.toNat ++ body days daycode month1.toNat

/-! ### What is to be printed -/

/-- A character that is no space, and its place. -/
structure Mark where
  row : Nat
  col : Nat
  char : Char

/-- The place after a text that begins at the given place. -/
def placeAfter : Nat × Nat → List Char → Nat × Nat
  | p, [] => p
  | p, c :: cs => if c = '\n' then placeAfter (p.1 + 1, 0) cs else placeAfter (p.1, p.2 + 1) cs

/-- The characters of a text that begins at the given place. -/
def marks : Nat × Nat → List Char → List Mark
  | _, [] => []
  | p, c :: cs =>
      if c = '\n' then marks (p.1 + 1, 0) cs
      else if c = ' ' then marks (p.1, p.2 + 1) cs
      else ⟨p.1, p.2, c⟩ :: marks (p.1, p.2 + 1) cs

/-- The characters of a day, which are flush right in two columns. -/
def dayMarks (day row col : Nat) : List Mark :=
  if day < 10 then [⟨row, col + 1, Nat.digitChar day⟩]
  else [⟨row, col, Nat.digitChar (day / 10)⟩, ⟨row, col + 1, Nat.digitChar (day % 10)⟩]

/-- How many of the days before a day of the month are Saturdays. -/
def saturdaysBefore (weekday : Nat → Nat) : Nat → Nat
  | 0 => 0
  | day + 1 => saturdaysBefore weekday day + if 1 ≤ day ∧ weekday day = 6 then 1 else 0

/-- The text shows the days of a month in order: each one in the columns of its weekday, below the
heading, and with a line break after each Saturday and nowhere else. -/
structure Shown (year month : Nat) (text : List Char) (weekday : Nat → Nat) : Prop where
  falls : ∀ day, 1 ≤ day → day ≤ daysIn year month → Falls ⟨year, month, day⟩ (weekday day)
  marks : marks (0, 0) text = (List.range' 1 (daysIn year month)).flatMap
    (fun day => dayMarks day (saturdaysBefore weekday day) (5 * weekday day + 1))
  breaks : text.count '\n' = saturdaysBefore weekday (daysIn year month + 1)

/-- What `calendar` prints for a year and a month, or for all months if it is `0`. -/
def printed (year month : Nat) : List Char :=
  calendar (determineleapyear days_in_month year).2 year (determinedaycode year) month

/-- The calendar is right: the weekday of the first of January is, and what is printed is. -/
structure Right (year month : Nat) : Prop where
  daycode : ∃ w : Nat, Falls ⟨year, 1, 1⟩ w ∧ determinedaycode year = w
  all : month = 0 → ∃ texts : Nat → List Char,
    printed year month = (List.range' 1 12).flatMap (fun m => heading year m ++ texts m)
    ∧ ∀ m ∈ List.range' 1 12, ∃ weekday, Shown year m (texts m) weekday
  one : month ≠ 0 → ∃ text, printed year month = heading year month ++ text
    ∧ ∃ weekday, Shown year month text weekday

/-- The sum that the weekday is computed from. -/
def daySum (year : Nat) : Nat :=
  year + (year - 1) / 4 - (year - 1) / 100 + (year - 1) / 400

/-- The months that begin with the weekday of the first of January. -/
def BeginsLikeJanuary (year month : Nat) : Prop :=
  month = 1 ∨ (leap year = false ∧ month = 10) ∨ (leap year = true ∧ (month = 4 ∨ month = 7))

/-! ### The first of January -/

variable {year month day k : Nat} {p : Nat × Nat} {s t : List Char} {w : Nat → Nat}

theorem daySum_mod (hyear : 1 ≤ year) :
  daySum year % 7 = (Date.number ⟨year, 1, 1⟩ + 1) % 7
  := by
  rcases Nat.exists_eq_add_of_le' hyear with ⟨n, rfl⟩
  have hle : n / 100 ≤ n / 4 := Nat.div_le_div_left (by decide) (by decide)
  simp only [daySum, Date.number, yearStart, daysBefore, Nat.add_sub_cancel]
  generalize n / 4 = quads, n / 100 = centuries, n / 400 = cycles at hle
  omega

theorem daySum_lt (hlt : year < 2 ^ 31) :
  daySum year < 2 ^ 32
  := by
  rw [daySum]
  omega

theorem determinedaycode_eq (hyear : 1 ≤ year) :
  determinedaycode year = (int32 (daySum year)).tmod 7
  := by
  rcases Nat.exists_eq_add_of_le' hyear with ⟨n, rfl⟩
  have hle : n / 100 ≤ n / 4 := Nat.div_le_div_left (by decide) (by decide)
  have hsum : (((n + 1 : Nat) : Int) + (n / 4 : Nat) - (n / 100 : Nat)) + (n / 400 : Nat)
      = (daySum (n + 1) : Nat) := by
    simp only [daySum, Nat.add_sub_cancel]
    omega
  have hpred : ((n + 1 : Nat) : Int) - 1 = (n : Int) := by omega
  have h4 : (n : Int).tdiv 4 = (n / 4 : Nat) := rfl
  have h100 : (n : Int).tdiv 100 = (n / 100 : Nat) := rfl
  have h400 : (n : Int).tdiv 400 = (n / 400 : Nat) := rfl
  simp only [determinedaycode, hpred, h4, h100, h400]
  rw [Int.sub_eq_add_neg, int32_add, Int.add_assoc, int32_add, ← hsum]
  congr 2
  omega

/-- The formula gives the weekday of the first of January exactly when it does not wrap. -/
theorem daycode_iff (hyear : 1 ≤ year) (hlt : year < 2 ^ 31) :
  determinedaycode year = ((Date.number ⟨year, 1, 1⟩ + 1) % 7 : Nat) ↔ daySum year < 2 ^ 31
  := by
  have hsum := daySum_lt hlt
  rw [determinedaycode_eq hyear, ← daySum_mod hyear]
  constructor
  · intro heq
    by_contra hwrap
    have hneg : int32 (daySum year) = -((2 ^ 32 - daySum year : Nat) : Int) := by
      rw [int32, Int.bmod_eq_iff (by decide)]
      omega
    rw [hneg, Int.neg_tmod, Int.tmod_eq_emod_of_nonneg (by omega)] at heq
    omega
  · intro hsmall
    rw [int32_eq (by omega) (by omega), Int.tmod_eq_emod_of_nonneg (by omega)]
    omega

/-! ### Reading a text -/

theorem placeAfter_append (p : Nat × Nat) (s t : List Char) :
  placeAfter p (s ++ t) = placeAfter (placeAfter p s) t
  := by
  induction s generalizing p with
  | nil => rfl
  | cons c s ih =>
      rw [List.cons_append, placeAfter, placeAfter]
      split
      case isTrue => apply ih
      case isFalse => apply ih

theorem marks_append (p : Nat × Nat) (s t : List Char) :
  marks p (s ++ t) = marks p s ++ marks (placeAfter p s) t
  := by
  induction s generalizing p with
  | nil => rfl
  | cons c s ih =>
      rw [List.cons_append, marks, marks, placeAfter]
      by_cases hnl : c = '\n'
      · rw [if_pos hnl, if_pos hnl, if_pos hnl, ih]
      · rw [if_neg hnl, if_neg hnl, if_neg hnl]
        by_cases hsp : c = ' '
        · rw [if_pos hsp, if_pos hsp, ih]
        · rw [if_neg hsp, if_neg hsp, ih, List.cons_append]

theorem marks_spaces (p : Nat × Nat) (n : Nat) :
  marks p (List.replicate n ' ') = [] ∧ placeAfter p (List.replicate n ' ') = (p.1, p.2 + n)
  := by
  induction n generalizing p with
  | zero => exact ⟨rfl, rfl⟩
  | succ n ih =>
      have hsp : ¬ ' ' = '\n' := by decide
      rw [List.replicate_succ, marks, placeAfter, if_neg hsp, if_neg hsp, if_pos rfl]
      rcases ih (p.1, p.2 + 1) with ⟨hmarks, hplace⟩
      constructor
      · apply hmarks
      · rw [hplace, Nat.add_assoc, Nat.add_comm 1]

/-- A digit is a character with a mark. -/
theorem digitChar_mark {d : Nat} (hd : d < 10) :
  Nat.digitChar d ≠ '\n' ∧ Nat.digitChar d ≠ ' '
  := by
  revert d
  decide

/-- The characters of a day have their marks, and no line break. -/
theorem twoWide_marks (p : Nat × Nat) (hday : day < 100) :
  marks p (twoWide day) = dayMarks day p.1 p.2 ∧ placeAfter p (twoWide day) = (p.1, p.2 + 2)
    ∧ (twoWide day).count '\n' = 0
  := by
  rw [twoWide, dayMarks]
  by_cases hlt : day < 10
  · rw [if_pos hlt, if_pos hlt]
    rcases digitChar_mark hlt with ⟨hnl, hsp⟩
    refine ⟨?_, ?_, ?_⟩
    · simp [marks, hnl, hsp]
    · simp [placeAfter, hnl]
    · simp [hnl]
  · rw [if_neg hlt, if_neg hlt]
    rcases digitChar_mark (show day / 10 < 10 by omega) with ⟨hnl, hsp⟩
    rcases digitChar_mark (show day % 10 < 10 by omega) with ⟨hnl', hsp'⟩
    refine ⟨?_, ?_, ?_⟩
    · simp [marks, hnl, hsp, hnl', hsp']
    · simp [placeAfter, hnl, hnl']
    · simp [hnl, hnl']

/-! ### The days of a month -/

/-- The weekday of a day of a month that begins with the weekday `k`. -/
def weekdayFrom (k day : Nat) : Nat :=
  (k + (day - 1)) % 7

theorem weekdayFrom_succ (hday : 1 ≤ day) :
  weekdayFrom k (day + 1) = (weekdayFrom k day + 1) % 7
  := by
  rw [weekdayFrom, weekdayFrom]
  omega

/-- After a day the next place is that of the next day. -/
theorem dayText_marks (hday : 1 ≤ day) (hlt : day < 100)
    (hp : p = (saturdaysBefore (weekdayFrom k) day, 5 * weekdayFrom k day + 1)) :
  marks p (dayText k day) = dayMarks day p.1 p.2
    ∧ placeAfter p (dayText k day)
      = (saturdaysBefore (weekdayFrom k) (day + 1), 5 * weekdayFrom k (day + 1) + 1)
    ∧ (dayText k day).count '\n' = if weekdayFrom k day = 6 then 1 else 0
  := by
  rcases twoWide_marks p hlt with ⟨hmarks, hplace, hcount⟩
  have hsat : (((day : Int) + k).tmod 7 > 0) ↔ weekdayFrom k day ≠ 6 := by
    rw [Int.tmod_eq_emod_of_nonneg (by omega), weekdayFrom]
    omega
  rw [dayText, marks_append, placeAfter_append, hmarks, hplace, List.count_append, hcount,
    saturdaysBefore, weekdayFrom_succ hday, hp]
  by_cases h6 : weekdayFrom k day = 6
  · rw [if_neg (mt hsat.mp (not_not.mpr h6)), h6]
    refine ⟨?_, ?_, rfl⟩
    · simp [marks]
    · simp [placeAfter, hday]
  · have hle : weekdayFrom k day < 7 := Nat.mod_lt _ (by decide)
    rw [if_pos (hsat.mpr h6), if_neg h6, if_neg (not_and_of_not_right _ h6)]
    refine ⟨?_, ?_, rfl⟩
    · simp [marks]
    · simp [placeAfter]
      omega

/-- The days of a month, from one of them on. -/
theorem daysText_marks (n : Nat) (hday : 1 ≤ day) (hlt : day + n < 100)
    (hp : p = (saturdaysBefore (weekdayFrom k) day, 5 * weekdayFrom k day + 1)) :
  marks p ((List.range' day n).flatMap (dayText k))
      = (List.range' day n).flatMap (fun d =>
        dayMarks d (saturdaysBefore (weekdayFrom k) d) (5 * weekdayFrom k d + 1))
    ∧ saturdaysBefore (weekdayFrom k) day + ((List.range' day n).flatMap (dayText k)).count '\n'
      = saturdaysBefore (weekdayFrom k) (day + n)
  := by
  induction n generalizing day p with
  | zero => exact ⟨rfl, rfl⟩
  | succ n ih =>
      rcases dayText_marks hday (by omega) hp with ⟨hmarks, hplace, hcount⟩
      rcases ih (Nat.le_add_left 1 day) (by omega) hplace with ⟨hrest, hbreaks⟩
      rw [List.range'_succ, List.flatMap_cons, List.flatMap_cons, marks_append, hmarks, hrest, hp,
        List.count_append, hcount]
      refine ⟨rfl, ?_⟩
      rw [saturdaysBefore] at hbreaks
      rw [← Nat.add_assoc, Nat.add_comm n, ← Nat.add_assoc, ← hbreaks]
      simp [hday]

/-! ### A month -/

/-- The table of the year. -/
def table (year : Nat) : List Int :=
  (determineleapyear days_in_month year).2

theorem leap_eq (year : Nat) :
  (((year : Int).tmod 4 = 0 ∧ (year : Int).tmod 100 ≠ 0) ∨ (year : Int).tmod 400 = 0)
    ↔ leap year = true
  := by
  have h4 : (year : Int).tmod 4 = (year % 4 : Nat) := rfl
  have h100 : (year : Int).tmod 100 = (year % 100 : Nat) := rfl
  have h400 : (year : Int).tmod 400 = (year % 400 : Nat) := rfl
  rw [h4, h100, h400, leap, decide_eq_true_iff]
  omega

theorem table_getD (hmonth : 1 ≤ month ∧ month ≤ 12) :
  (table year).getD month 0 = daysIn year month
  := by
  rw [table, determineleapyear]
  rcases hleap : leap year
  · rw [if_neg (by rw [leap_eq, hleap]; exact Bool.false_ne_true)]
    rcases hmonth with ⟨hlo, hhi⟩
    interval_cases month
    all_goals simp [days_in_month, daysIn, hleap]
  · rw [if_pos ((leap_eq year).mpr hleap)]
    rcases hmonth with ⟨hlo, hhi⟩
    interval_cases month
    all_goals simp [days_in_month, daysIn, hleap]

theorem daysIn_le (year month : Nat) :
  28 ≤ daysIn year month ∧ daysIn year month ≤ 31
  := by
  unfold daysIn
  split
  · split <;> decide
  · decide
  · decide
  · decide
  · decide
  · decide

/-- What is printed for a month that begins with the weekday `k`. -/
theorem body_marks (hmonth : 1 ≤ month ∧ month ≤ 12) (hk : k < 7) :
  marks (0, 0) (body (table year) k month) = (List.range' 1 (daysIn year month)).flatMap (fun d =>
      dayMarks d (saturdaysBefore (weekdayFrom k) d) (5 * weekdayFrom k d + 1))
    ∧ (body (table year) k month).count '\n'
      = saturdaysBefore (weekdayFrom k) (daysIn year month + 1)
  := by
  have hdays : ((table year).getD month 0).toNat = daysIn year month := by
    rw [table_getD hmonth, Int.toNat_natCast]
  have hspaces : (1 + (k : Int) * 5).toNat = 1 + 5 * k := by omega
  have hstart : ((0, 0 + (1 + 5 * k)) : Nat × Nat)
      = (saturdaysBefore (weekdayFrom k) 1, 5 * weekdayFrom k 1 + 1) := by
    have hfirst : weekdayFrom k 1 = k := Nat.mod_eq_of_lt hk
    rw [hfirst]
    simp [saturdaysBefore]
    omega
  rcases marks_spaces (0, 0) (1 + 5 * k) with ⟨hnone, hplace⟩
  have hle := (daysIn_le year month).2
  rcases daysText_marks (daysIn year month) (Nat.le_refl 1) (by omega) hstart with ⟨hmarks, hbreaks⟩
  rw [body, hdays, hspaces, marks_append, hnone, hplace, List.count_append]
  constructor
  · apply hmarks
  · rw [List.count_replicate, Nat.add_comm (daysIn year month), ← hbreaks]
    simp [saturdaysBefore]

/-- The weekday of a day of a month. -/
theorem falls_weekdayFrom (hyear : 1 ≤ year) (hmonth : 1 ≤ month ∧ month ≤ 12)
    (hday : 1 ≤ day ∧ day ≤ daysIn year month)
    (hk : k = (Date.number ⟨year, month, 1⟩ + 1) % 7) :
  Falls ⟨year, month, day⟩ (weekdayFrom k day)
  := by
  apply falls_iff.mpr
  constructor
  · exact ⟨hyear, hmonth, hday⟩
  · rw [hk, weekdayFrom]
    simp only [Date.number]
    omega

/-- A month is shown as it is exactly when it begins with its weekday. -/
theorem shown_iff (hyear : 1 ≤ year) (hmonth : 1 ≤ month ∧ month ≤ 12) (hk : k < 7) :
  (∃ weekday, Shown year month (body (table year) k month) weekday)
    ↔ k = (Date.number ⟨year, month, 1⟩ + 1) % 7
  := by
  rcases @body_marks year month k hmonth hk with ⟨hmarks, hbreaks⟩
  constructor
  · rintro ⟨weekday, hshown⟩
    have hpos := (daysIn_le year month).1
    have hfirst := (hshown.falls 1 (Nat.le_refl 1) (by omega)).eq.2
    have heq := hmarks.symm.trans hshown.marks
    rcases Nat.exists_eq_add_of_le' (show 1 ≤ daysIn year month by omega) with ⟨n, hn⟩
    rw [hn, List.range'_succ, List.flatMap_cons, List.flatMap_cons] at heq
    have hmark := (List.cons.inj heq).1
    rw [Mark.mk.injEq, weekdayFrom, Nat.mod_eq_of_lt (by omega)] at hmark
    omega
  · intro hbegins
    use weekdayFrom k
    constructor
    case falls =>
      intro day hlo hhi
      apply falls_weekdayFrom hyear hmonth ⟨hlo, hhi⟩ hbegins
    case marks => apply hmarks
    case breaks => apply hbreaks

/-! ### A year -/

/-- The weekday that is carried along is that of the next month. -/
theorem carried (hmonth : 1 ≤ month ∧ month ≤ 12)
    (hk : k = (Date.number ⟨year, month, 1⟩ + 1) % 7) :
  ((k : Int) + (table year).getD month 0).tmod 7
    = ((Date.number ⟨year, month + 1, 1⟩ + 1) % 7 : Nat)
  := by
  rcases Nat.exists_eq_add_of_le' hmonth.1 with ⟨m, rfl⟩
  rw [table_getD hmonth, Int.tmod_eq_emod_of_nonneg (by omega), hk]
  simp only [Date.number, daysBefore]
  omega

/-- The loop over the months prints each of them as it is. -/
theorem pages_eq (n : Nat) (hmonth : 1 ≤ month ∧ month + n ≤ 13)
    (hk : k = (Date.number ⟨year, month, 1⟩ + 1) % 7) :
  pages (table year) year (List.range' month n) k
    = (List.range' month n).flatMap (fun m => heading year m
      ++ body (table year) ((Date.number ⟨year, m, 1⟩ + 1) % 7 : Nat) m)
  := by
  induction n generalizing month k with
  | zero => rfl
  | succ n ih =>
      have hcarried := @carried year month k ⟨hmonth.1, show month ≤ 12 by omega⟩ hk
      rw [List.range'_succ, pages, List.flatMap_cons, hcarried, ih ⟨by omega, by omega⟩ rfl, hk]

/-- Counting the days of the months before, some of them begin like January. -/
theorem beginsLikeJanuary_iff (hmonth : 1 ≤ month ∧ month ≤ 12) :
  (Date.number ⟨year, 1, 1⟩ + 1) % 7 = (Date.number ⟨year, month, 1⟩ + 1) % 7
    ↔ BeginsLikeJanuary year month
  := by
  have hbefore : (Date.number ⟨year, 1, 1⟩ + 1) % 7 = (Date.number ⟨year, month, 1⟩ + 1) % 7
      ↔ daysBefore year month % 7 = 0 := by
    simp only [Date.number, daysBefore]
    omega
  rw [hbefore, BeginsLikeJanuary]
  rcases hleap : leap year
  · rcases hmonth with ⟨hlo, hhi⟩
    interval_cases month
    all_goals simp [daysBefore, daysIn, hleap]
  · rcases hmonth with ⟨hlo, hhi⟩
    interval_cases month
    all_goals simp [daysBefore, daysIn, hleap]

/-- The calendar is right exactly when the formula does not wrap and a month that is printed alone
begins like January. -/
theorem right_iff (hyear : 1 ≤ year) (hlt : year < 2 ^ 31) (hmonth : month ≤ 12) :
  Right year month ↔ daySum year < 2 ^ 31 ∧ (month = 0 ∨ BeginsLikeJanuary year month)
  := by
  have hvalid : ({ year := year, month := 1, day := 1 } : Date).Valid :=
    ⟨hyear, show 1 ≤ 1 ∧ 1 ≤ 12 by decide, Nat.le_refl 1, daysIn_pos year 1⟩
  have hcode : (∃ w : Nat, Falls ⟨year, 1, 1⟩ w ∧ determinedaycode year = w) ↔ daySum year < 2 ^ 31 := by
    rw [← daycode_iff hyear hlt]
    constructor
    · rintro ⟨w, hw, heq⟩
      rw [heq, hw.eq.2]
    · intro heq
      exact ⟨_, falls_iff.mpr ⟨hvalid, rfl⟩, heq⟩
  have hseven : ∀ n : Nat, n % 7 < 7 := fun n => Nat.mod_lt n (by decide)
  have hyear' : ¬ (year : Int) < 0 := by omega
  have hmonth' : ¬ (month : Int) < 0 := by omega
  constructor
  · intro hright
    have hsmall := hcode.mp hright.daycode
    refine ⟨hsmall, ?_⟩
    by_cases hzero : month = 0
    · left
      apply hzero
    · right
      have hmonth'' : 1 ≤ month ∧ month ≤ 12 := ⟨Nat.pos_of_ne_zero hzero, hmonth⟩
      rcases hright.one hzero with ⟨text, hprinted, hshown⟩
      rw [printed, calendar, if_neg hyear', if_neg hmonth', if_neg (by omega), Int.toNat_natCast,
        (daycode_iff hyear hlt).mpr hsmall] at hprinted
      rw [← List.append_cancel_left hprinted] at hshown
      apply (beginsLikeJanuary_iff hmonth'').mp
      apply (shown_iff hyear hmonth'' (hseven _)).mp hshown
  · rintro ⟨hsmall, hbegins⟩
    constructor
    case daycode => apply hcode.mpr hsmall
    case all =>
      rintro rfl
      use fun m => body (table year) ((Date.number ⟨year, m, 1⟩ + 1) % 7 : Nat) m
      constructor
      · rw [printed, calendar, if_neg hyear', if_neg hmonth',
          if_pos (show ((0 : Nat) : Int) = 0 from rfl), (daycode_iff hyear hlt).mpr hsmall]
        apply pages_eq 12 (by decide) rfl
      · intro m hm
        rw [List.mem_range'_1] at hm
        apply (shown_iff hyear ⟨hm.1, by omega⟩ (hseven _)).mpr rfl
    case one =>
      intro hne
      have hmonth'' : 1 ≤ month ∧ month ≤ 12 := ⟨Nat.pos_of_ne_zero hne, hmonth⟩
      refine ⟨body (table year) ((Date.number ⟨year, 1, 1⟩ + 1) % 7 : Nat) month, ?_, ?_⟩
      · rw [printed, calendar, if_neg hyear', if_neg hmonth', if_neg (by omega), Int.toNat_natCast,
          (daycode_iff hyear hlt).mpr hsmall]
        rfl
      · apply (shown_iff hyear hmonth'' (hseven _)).mpr
        apply (beginsLikeJanuary_iff hmonth'').mpr (hbegins.resolve_left hne)

/-- October of the year `2014` begins like January. -/
theorem right_october :
  Right 2014 10
  := by
  apply (right_iff (by decide) (by decide) (by decide)).mpr
  exact ⟨by decide, .inr (.inr (.inl ⟨by decide, rfl⟩))⟩

/-- February of the year `2014` begins on a Saturday, and is printed as if it began on a Wednesday. -/
theorem not_right :
  ¬ ∀ year month : Nat, 1 ≤ year → year < 2 ^ 31 → month ≤ 12 → Right year month
  := by
  intro hall
  rcases (hall 2014 2 (by decide) (by decide) (by decide)).one (by decide)
    with ⟨text, hprinted, hshown⟩
  have hcode : determinedaycode (2014 : Nat) = (3 : Nat) :=
    (daycode_iff (show 1 ≤ 2014 by decide) (by decide)).mpr (by decide)
  rw [printed, calendar, if_neg (by decide), if_neg (by decide), if_neg (by decide), hcode] at hprinted
  rw [← List.append_cancel_left hprinted] at hshown
  have hbegins := (shown_iff (k := 3) (by decide) (by decide) (by decide)).mp hshown
  revert hbegins
  decide

end Cal

end Root

end Jos
