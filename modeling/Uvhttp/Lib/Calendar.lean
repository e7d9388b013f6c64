import Mathlib.Tactic

/-! The Gregorian calendar: days in consecutive blocks, years and months as such blocks,
and the date of a day. -/

namespace calendar

section blocks

variable {len : Nat → Nat}

/-- Where a block begins, when the blocks of the given lengths lie one behind another. -/
def start (len : Nat → Nat) : Nat → Nat
  | 0 => 0
  | i + 1 => start len i + len i

/-- The block that a place lies in, and the place within it, for a place that is counted
from the start of block `i`. -/
def locate (len : Nat → Nat) : Nat → Nat → Nat → Nat × Nat
  | 0, i, place => (i, place)
  | fuel + 1, i, place => if place < len i then (i, place) else locate len fuel (i + 1) (place - len i)

theorem start_mono : Monotone (start len) := monotone_nat_of_le_succ fun i => Nat.le_add_right _ (len i)

theorem locate_spec (hlen : ∀ i, 0 < len i) {fuel place : Nat} (hfuel : place ≤ fuel) (i : Nat) :
    start len (locate len fuel i place).1 + (locate len fuel i place).2 = start len i + place ∧
      (locate len fuel i place).2 < len (locate len fuel i place).1 := by
  induction fuel generalizing i place with
  | zero =>
    obtain rfl := Nat.le_zero.mp hfuel
    exact ⟨rfl, hlen i⟩
  | succ fuel ih =>
    rw [locate]
    split
    · rename_i hwithin
      exact ⟨rfl, hwithin⟩
    · rename_i hbehind
      have hpos := hlen i
      obtain ⟨hplace, hwithin⟩ := ih (show place - len i ≤ fuel by omega) (i + 1)
      refine ⟨?_, hwithin⟩
      rw [hplace, start]
      omega

/-- A place before the start of block `n` lies in a block before it. -/
theorem locate_lt (hlen : ∀ i, 0 < len i) {place n : Nat} (hplace : place < start len n) :
    (locate len place 0 place).1 < n := by
  obtain ⟨hsum, -⟩ := locate_spec hlen (Nat.le_refl place) 0
  by_contra hge
  have hmono : start len n ≤ start len (locate len place 0 place).1 := start_mono (Nat.not_lt.mp hge)
  have hstart : start len 0 = 0 := rfl
  omega

end blocks

section years

def Leap (year : Nat) : Prop := year % 4 = 0 ∧ (year % 100 ≠ 0 ∨ year % 400 = 0)

instance (year : Nat) : Decidable (Leap year) := inferInstanceAs (Decidable (_ ∧ _))

def year_length (year : Nat) : Nat := if Leap year then 366 else 365

/-- The length of a month of a year. They are counted from 0. -/
def month_length (year : Nat) : Nat → Nat
  | 1 => if Leap year then 29 else 28
  | 3 | 5 | 8 | 10 => 30
  | _ => 31

/-- The days from the start of year 0 to the start of a year. -/
def days_before_year (year : Nat) : Nat := 365 * year + (year + 3) / 4 - (year + 99) / 100 + (year + 399) / 400

/-- The days from the start of a year to the start of a month. -/
def days_before_month (year month : Nat) : Nat := start (month_length year) month

/-- How many years before a given one are divisible by `n`, one more where the year is. -/
theorem multiples_succ {n : Nat} (hn : 0 < n) (year : Nat) :
    (year + 1 + (n - 1)) / n = (year + (n - 1)) / n + if year % n = 0 then 1 else 0 := by
  have hdvd : n ∣ year + (n - 1) + 1 ↔ year % n = 0 := by
    rw [show year + (n - 1) + 1 = year + n by omega, Nat.dvd_add_self_right, Nat.dvd_iff_mod_eq_zero]
  rw [show year + 1 + (n - 1) = year + (n - 1) + 1 by omega, Nat.succ_div, if_congr hdvd rfl rfl]

theorem days_before_year_succ (year : Nat) : days_before_year (year + 1) = days_before_year year + year_length year := by
  have hfour := multiples_succ (show 0 < 4 by omega) year
  have hcentury := multiples_succ (show 0 < 100 by omega) year
  have hcycle := multiples_succ (show 0 < 400 by omega) year
  have hfew : (year + 99) / 100 ≤ year := by omega
  simp only [show (4 - 1 : Nat) = 3 from rfl, show (100 - 1 : Nat) = 99 from rfl,
    show (400 - 1 : Nat) = 399 from rfl] at hfour hcentury hcycle
  rw [days_before_year, days_before_year, hfour, hcentury, hcycle, year_length]
  by_cases hyear : year % 4 = 0
  · by_cases hhundred : year % 100 = 0
    · by_cases hfourhundred : year % 400 = 0
      · simp only [Leap, hyear, hhundred, hfourhundred, if_true, or_true, and_true]
        omega
      · simp only [Leap, hyear, hhundred, hfourhundred, if_true, if_false, ne_eq, not_true, or_false, and_false]
        omega
    · have hfourhundred : year % 400 ≠ 0 := by omega
      simp only [Leap, hyear, hhundred, hfourhundred, if_true, if_false, ne_eq, not_false_eq_true, true_or, and_true]
      omega
  · have hhundred : year % 100 ≠ 0 := by omega
    have hfourhundred : year % 400 ≠ 0 := by omega
    simp only [Leap, hyear, hhundred, hfourhundred, if_false, false_and]
    omega

theorem year_length_pos (year : Nat) : 0 < year_length year := by
  unfold year_length
  split <;> omega

theorem month_length_pos (year month : Nat) : 0 < month_length year month := by
  unfold month_length
  split
  · split <;> omega
  all_goals omega

theorem month_length_le (year month : Nat) : month_length year month ≤ 31 := by
  unfold month_length
  split
  · split <;> omega
  all_goals omega

/-- The months fill the year. -/
theorem days_before_month_twelve (year : Nat) : days_before_month year 12 = year_length year := by
  simp only [days_before_month, start, month_length, year_length]
  split <;> rfl

theorem start_years (epoch i : Nat) :
    start (fun i => year_length (epoch + i)) i + days_before_year epoch = days_before_year (epoch + i) := by
  induction i with
  | zero => exact Nat.zero_add _
  | succ i ih =>
    rw [start, ← Nat.add_assoc, days_before_year_succ, ← ih]
    omega

end years

section dates

/-- A day of the calendar. Months and days are counted from 0. -/
structure Date where
  year : Nat
  month : Nat
  day : Nat
  month_lt : month < 12
  day_lt : day < month_length year month

/-- The days from the start of year 0 to a date. -/
def Date.number (date : Date) : Nat :=
  days_before_year date.year + days_before_month date.year date.month + date.day

/-- The year of a day that is counted from the start of the year `epoch`, and the day
within that year. -/
def year_of_day (epoch day : Nat) : Nat × Nat :=
  let found := locate (fun i => year_length (epoch + i)) day 0 day
  (epoch + found.1, found.2)

theorem year_of_day_spec (epoch day : Nat) :
    days_before_year (year_of_day epoch day).1 + (year_of_day epoch day).2 = days_before_year epoch + day ∧
      (year_of_day epoch day).2 < year_length (year_of_day epoch day).1 := by
  obtain ⟨hsum, hlt⟩ := locate_spec (fun i => year_length_pos (epoch + i)) (Nat.le_refl day) 0
  have hstart : start (fun i => year_length (epoch + i)) 0 = 0 := rfl
  have hyears := start_years epoch (locate (fun i => year_length (epoch + i)) day 0 day).1
  refine ⟨?_, hlt⟩
  dsimp only [year_of_day]
  omega

/-- The month of a day of a year, and the day within that month. -/
def month_of_day (year day : Nat) : Nat × Nat := locate (month_length year) day 0 day

theorem month_of_day_spec (year day : Nat) :
    days_before_month year (month_of_day year day).1 + (month_of_day year day).2 = day ∧
      (month_of_day year day).2 < month_length year (month_of_day year day).1 := by
  obtain ⟨hsum, hlt⟩ := locate_spec (month_length_pos year) (Nat.le_refl day) 0
  exact ⟨hsum.trans (Nat.zero_add day), hlt⟩

theorem month_of_day_lt {year day : Nat} (hday : day < year_length year) : (month_of_day year day).1 < 12 := by
  apply locate_lt (month_length_pos year)
  exact hday.trans_eq (days_before_month_twelve year).symm

/-- The date of a day that is counted from the start of the year `epoch`. -/
def date_of_day (epoch day : Nat) : Date where
  year := (year_of_day epoch day).1
  month := (month_of_day (year_of_day epoch day).1 (year_of_day epoch day).2).1
  day := (month_of_day (year_of_day epoch day).1 (year_of_day epoch day).2).2
  month_lt := month_of_day_lt (year_of_day_spec epoch day).2
  day_lt := (month_of_day_spec _ _).2

/-- The date of a day has the number of the day. -/
theorem number_date_of_day (epoch day : Nat) : (date_of_day epoch day).number = days_before_year epoch + day := by
  obtain ⟨hyear, -⟩ := year_of_day_spec epoch day
  obtain ⟨hmonth, -⟩ := month_of_day_spec (year_of_day epoch day).1 (year_of_day epoch day).2
  rw [Date.number, ← hyear]
  show _ + days_before_month (year_of_day epoch day).1 _ + _ = _
  rw [Nat.add_assoc]
  exact congrArg _ hmonth

theorem epoch_le_year (epoch day : Nat) : epoch ≤ (date_of_day epoch day).year := Nat.le_add_right epoch _

/-- A day before the start of a year lies in a year before it. -/
theorem year_lt {epoch day years : Nat} (hday : days_before_year epoch + day < days_before_year (epoch + years)) :
    (date_of_day epoch day).year < epoch + years := by
  apply Nat.add_lt_add_left
  apply locate_lt fun i => year_length_pos (epoch + i)
  have hyears := start_years epoch years
  omega

end dates

end calendar
