import Uvhttp.Http.Framing
import Uvhttp.Lib.Calendar

namespace uvhttp.static_files

open uvhttp.http uvhttp.gzip calendar

section dates

/-- `struct tm`, the fields that a date is made of. -/
structure Tm where
  tm_sec : Nat
  tm_min : Nat
  tm_hour : Nat
  tm_mday : Nat
  tm_mon : Nat
  tm_year : Int
  tm_wday : Nat
  deriving DecidableEq, Repr

def Tm.year (tm : Tm) : Nat := (tm.tm_year + 1900).toNat

/-- `gmtime`, for a time from the epoch on. -/
def gmtime (time : Nat) : Tm where
  tm_sec := time % 60
  tm_min := time / 60 % 60
  tm_hour := time / 3600 % 24
  tm_mday := (date_of_day 1970 (time / 86400)).day + 1
  tm_mon := (date_of_day 1970 (time / 86400)).month
  tm_year := (date_of_day 1970 (time / 86400)).year - 1900
  tm_wday := (time / 86400 + 4) % 7

/-- The seconds from the epoch to a time that is read as UTC. -/
def timegm (tm : Tm) : Int :=
  86400 * ((days_before_year tm.year + days_before_month tm.year tm.tm_mon + tm.tm_mday : Nat) - 1 -
    (days_before_year 1970 : Nat)) + 3600 * tm.tm_hour + 60 * tm.tm_min + tm.tm_sec

/-- A time zone: how far its standard time is ahead of UTC where its clocks show a
time, which is counted as in UTC. -/
structure TimeZone where
  standard_offset : Int → Int

/-- `mktime`, for a time whose `tm_isdst` is 0. -/
def mktime (zone : TimeZone) (tm : Tm) : Int := timegm tm - zone.standard_offset (timegm tm)

theorem days_before_epoch : days_before_year 1970 = 719528 := rfl

/-- `timegm` is the inverse of `gmtime`. -/
theorem timegm_gmtime (time : Nat) : timegm (gmtime time) = time := by
  have hnumber := number_date_of_day 1970 (time / 86400)
  have hyear : (gmtime time).year = (date_of_day 1970 (time / 86400)).year := by
    show ((date_of_day 1970 (time / 86400)).year - 1900 + 1900 : Int).toNat = _
    omega
  rw [Date.number] at hnumber
  rw [timegm, hyear]
  show 86400 * ((_ + days_before_month _ (date_of_day 1970 (time / 86400)).month +
    ((date_of_day 1970 (time / 86400)).day + 1) : Nat) - 1 - _ : Int) + 3600 * (time / 3600 % 24 : Nat) +
      60 * (time / 60 % 60 : Nat) + (time % 60 : Nat) = time
  rw [← Nat.add_assoc, hnumber]
  omega

end dates

section conversions

def weekday_names : List (List UInt8) :=
  [bytes "Sunday", bytes "Monday", bytes "Tuesday", bytes "Wednesday", bytes "Thursday", bytes "Friday",
    bytes "Saturday"]

def month_names : List (List UInt8) :=
  [bytes "January", bytes "February", bytes "March", bytes "April", bytes "May", bytes "June", bytes "July",
    bytes "August", bytes "September", bytes "October", bytes "November", bytes "December"]

/-- The parts of a format of `strftime` and `strptime`. -/
inductive Conversion where
  | weekday
  | day
  | month
  | year
  | hour
  | minute
  | second
  | space
  | literal (c : UInt8)
  deriving DecidableEq, Repr

/-- `"%a, %d %b %Y %H:%M:%S GMT"`. -/
def http_date_format : List Conversion :=
  [.weekday, .literal 44, .space, .day, .space, .month, .space, .year, .space, .hour, .literal 58, .minute,
    .literal 58, .second, .space, .literal 71, .literal 77, .literal 84]

def two_digits (n : Nat) : List UInt8 := [UInt8.ofNat (48 + n / 10), UInt8.ofNat (48 + n % 10)]

def Conversion.print (tm : Tm) : Conversion → List UInt8
  | .weekday => (weekday_names.getD tm.tm_wday []).take 3
  | .day => two_digits tm.tm_mday
  | .month => (month_names.getD tm.tm_mon []).take 3
  | .year => bytes (toString tm.year)
  | .hour => two_digits tm.tm_hour
  | .minute => two_digits tm.tm_min
  | .second => two_digits tm.tm_sec
  | .space => [32]
  | .literal c => [c]

/-- `strftime`. -/
def strftime (format : List Conversion) (tm : Tm) : List UInt8 := format.flatMap (Conversion.print tm)

/-- `isspace` in the C locale. -/
def isspace (c : UInt8) : Bool := c = 32 || (9 ≤ c && c ≤ 13)

def isdigit (c : UInt8) : Bool := 48 ≤ c && c ≤ 57

/-- A number of at most `width` digits between two bounds. -/
def get_number (low high width : Nat) (input : List UInt8) : Option (Nat × List UInt8) :=
  let input := input.dropWhile (· = 32)
  let digits := (input.take width).takeWhile isdigit
  match decimal digits with
  | none => none
  | some n => if low ≤ n ∧ n ≤ high then some (n, input.drop digits.length) else none

/-- What follows a name. Case makes no difference. -/
def after_name (name input : List UInt8) : Option (List UInt8) :=
  if strcasecmp (input.take name.length) name then some (input.drop name.length) else none

/-- The number of the first name, whole or abbreviated, that the input begins with. -/
def match_name : Nat → List (List UInt8) → List UInt8 → Option (Nat × List UInt8)
  | _, [], _ => none
  | i, name :: names, input =>
    match (after_name name input).or (after_name (name.take 3) input) with
    | some rest => some (i, rest)
    | none => match_name (i + 1) names input

def Conversion.parse (input : List UInt8) (tm : Tm) : Conversion → Option (Tm × List UInt8)
  | .weekday => (match_name 0 weekday_names input).map fun (tm_wday, rest) => ({ tm with tm_wday }, rest)
  | .day => (get_number 1 31 2 input).map fun (tm_mday, rest) => ({ tm with tm_mday }, rest)
  | .month => (match_name 0 month_names input).map fun (tm_mon, rest) => ({ tm with tm_mon }, rest)
  | .year => (get_number 0 9999 4 input).map fun (n, rest) => ({ tm with tm_year := n - 1900 }, rest)
  | .hour => (get_number 0 23 2 input).map fun (tm_hour, rest) => ({ tm with tm_hour }, rest)
  | .minute => (get_number 0 59 2 input).map fun (tm_min, rest) => ({ tm with tm_min }, rest)
  | .second => (get_number 0 60 2 input).map fun (tm_sec, rest) => ({ tm with tm_sec }, rest)
  | .space => some (tm, input.dropWhile isspace)
  | .literal c => if input.head? = some c then some (tm, input.tail) else none

/-- `strptime`, which does not mind what follows. -/
def strptime : List Conversion → List UInt8 → Tm → Option Tm
  | [], _, tm => some tm
  | conversion :: format, input, tm =>
    match conversion.parse input tm with
    | none => none
    | some (tm, rest) => strptime format rest tm

/-- The value of a `Last-Modified` header. -/
def http_date (last_modified : Int) : List UInt8 := strftime http_date_format (gmtime last_modified.toNat)

/-- The time that an `If-Modified-Since` header stands for. -/
def parse_http_date (zone : TimeZone) (if_modified_since : List UInt8) : Option Int :=
  (strptime http_date_format if_modified_since ⟨0, 0, 0, 0, 0, 0, 0⟩).map (mktime zone)

end conversions

section round_trip

variable {tm : Tm} {rest : List UInt8}

/-- The fields of a time within the ranges of a date in four digits of the year. -/
structure Tm.Valid (tm : Tm) : Prop where
  sec : tm.tm_sec ≤ 60
  min : tm.tm_min < 60
  hour : tm.tm_hour < 24
  mday_pos : 1 ≤ tm.tm_mday
  mday : tm.tm_mday ≤ 31
  mon : tm.tm_mon < 12
  year_pos : -1900 ≤ tm.tm_year
  year : tm.tm_year < 8100
  wday : tm.tm_wday < 7

/-- The end of the times that an HTTP date can stand for, with the year 9999. -/
def HTTP_DATE_END : Int := 253402300800

theorem gmtime_valid {time : Nat} (htime : (time : Int) < HTTP_DATE_END) : (gmtime time).Valid := by
  have hday : days_before_year 1970 + time / 86400 < days_before_year (1970 + 8030) := by
    rw [days_before_epoch, show days_before_year (1970 + 8030) = 3652425 from rfl]
    unfold HTTP_DATE_END at htime
    omega
  have hyear : (date_of_day 1970 (time / 86400)).year < 1970 + 8030 := year_lt hday
  have hepoch := epoch_le_year 1970 (time / 86400)
  have hmonth := (date_of_day 1970 (time / 86400)).month_lt
  have hlength := (date_of_day 1970 (time / 86400)).day_lt.trans_le (month_length_le _ _)
  refine ⟨?_, ?_, ?_, ?_, ?_, hmonth, ?_, ?_, ?_⟩
  · show time % 60 ≤ 60
    omega
  · show time / 60 % 60 < 60
    omega
  · show time / 3600 % 24 < 24
    omega
  · exact Nat.le_add_left 1 _
  · exact hlength
  · show (-1900 : Int) ≤ ((date_of_day 1970 (time / 86400)).year : Int) - 1900
    omega
  · show ((date_of_day 1970 (time / 86400)).year : Int) - 1900 < 8100
    omega
  · show (time / 86400 + 4) % 7 < 7
    omega

/-- What may follow a part of a date, so that the part ends where it was printed. -/
def Conversion.EndsBefore (rest : List UInt8) : Conversion → Prop
  | .weekday | .month => rest.head? = some 44 ∨ rest.head? = some 32
  | .year => rest.head? = some 32
  | .space => ∃ c, rest.head? = some c ∧ 48 ≤ c
  | _ => True

/-- A part of a date that was printed is read into its field. -/
def Conversion.copy (tm into : Tm) : Conversion → Tm
  | .weekday => { into with tm_wday := tm.tm_wday }
  | .day => { into with tm_mday := tm.tm_mday }
  | .month => { into with tm_mon := tm.tm_mon }
  | .year => { into with tm_year := tm.tm_year }
  | .hour => { into with tm_hour := tm.tm_hour }
  | .minute => { into with tm_min := tm.tm_min }
  | .second => { into with tm_sec := tm.tm_sec }
  | .space | .literal _ => into

theorem digits_of_decimal {digits : List UInt8} {n : Nat} (h : decimal digits = some n) :
    digits ≠ [] ∧ ∀ c ∈ digits, isdigit c = true := by
  rw [decimal] at h
  split at h
  · rename_i hdigits
    exact ⟨hdigits.1, List.all_eq_true.mp hdigits.2⟩
  · cases h

/-- Digits that fill the width, or that a space follows, are read as their number. -/
theorem get_number_digits {digits : List UInt8} {low high width n : Nat} (hdecimal : decimal digits = some n)
    (hlow : low ≤ n) (hhigh : n ≤ high) (hwidth : digits.length ≤ width)
    (hend : digits.length = width ∨ rest.head? = some 32) :
    get_number low high width (digits ++ rest) = some (n, rest) := by
  obtain ⟨hnonempty, hdigits⟩ := digits_of_decimal hdecimal
  have hstart : (digits ++ rest).dropWhile (· = 32) = digits ++ rest := by
    obtain ⟨c, more, rfl⟩ := List.exists_cons_of_ne_nil hnonempty
    have hc : isdigit c = true := hdigits c List.mem_cons_self
    have hspace : ¬ (c = 32) := by
      rintro rfl
      exact absurd hc (by decide)
    rw [List.cons_append, List.dropWhile_cons_of_neg (by simpa using hspace)]
  have hread : ((digits ++ rest).take width).takeWhile isdigit = digits := by
    rw [List.take_append, List.take_of_length_le hwidth, List.takeWhile_append_of_pos hdigits]
    rcases hend with hfull | hspace
    · rw [hfull, Nat.sub_self, List.take_zero, List.takeWhile_nil, List.append_nil]
    · cases hroom : width - digits.length with
      | zero => rw [List.take_zero, List.takeWhile_nil, List.append_nil]
      | succ room =>
        obtain ⟨more, rfl⟩ := List.head?_eq_some_iff.mp hspace
        rw [List.take_succ_cons, List.takeWhile_cons_of_neg (by decide), List.append_nil]
  simp only [get_number, hstart, hread, hdecimal, if_pos (And.intro hlow hhigh), List.drop_left]

theorem decimal_two_digits {n : Nat} (hn : n < 100) : decimal (two_digits n) = some n := by
  have hall : ∀ n < 100, decimal (two_digits n) = some n := by decide +kernel
  exact hall n hn

theorem get_two_digits {low high n : Nat} (hlow : low ≤ n) (hhigh : n ≤ high) (hn : n < 100) (rest : List UInt8) :
    get_number low high 2 (two_digits n ++ rest) = some (n, rest) :=
  get_number_digits (decimal_two_digits hn) hlow hhigh (Nat.le_refl 2) (.inl rfl)

theorem length_year_le {year : Nat} (hyear : year ≤ 9999) : (bytes (toString year)).length ≤ 4 := by
  rw [bytes, List.length_map, show toString year = year.repr from rfl, Nat.toList_repr,
    Nat.length_toDigits_le_iff (by decide) (by decide)]
  omega

/-- The abbreviated names are told apart, and none goes on as the whole name does. -/
theorem match_weekday {i : Nat} (hi : i < 7) {c : UInt8} (hc : c = 44 ∨ c = 32) (rest : List UInt8) :
    match_name 0 weekday_names ((weekday_names.getD i []).take 3 ++ c :: rest) = some (i, c :: rest) := by
  rcases hc with rfl | rfl
  all_goals interval_cases i <;> rfl

theorem match_month {i : Nat} (hi : i < 12) {c : UInt8} (hc : c = 44 ∨ c = 32) (rest : List UInt8) :
    match_name 0 month_names ((month_names.getD i []).take 3 ++ c :: rest) = some (i, c :: rest) := by
  rcases hc with rfl | rfl
  all_goals interval_cases i <;> rfl

theorem exists_head {first second : UInt8} (h : rest.head? = some first ∨ rest.head? = some second) :
    ∃ c more, rest = c :: more ∧ (c = first ∨ c = second) := by
  rcases h with hfirst | hsecond
  · obtain ⟨more, rfl⟩ := List.head?_eq_some_iff.mp hfirst
    exact ⟨_, more, rfl, .inl rfl⟩
  · obtain ⟨more, rfl⟩ := List.head?_eq_some_iff.mp hsecond
    exact ⟨_, more, rfl, .inr rfl⟩

/-- Each part of a valid time is read back as it was printed. -/
theorem parse_print (h : tm.Valid) (into : Tm) {conversion : Conversion} (hend : conversion.EndsBefore rest) :
    conversion.parse (conversion.print tm ++ rest) into = some (conversion.copy tm into, rest) := by
  cases conversion with
  | weekday =>
    obtain ⟨c, more, rfl, hc⟩ := exists_head hend
    rw [Conversion.print, Conversion.parse, match_weekday h.wday hc]
    rfl
  | month =>
    obtain ⟨c, more, rfl, hc⟩ := exists_head hend
    rw [Conversion.print, Conversion.parse, match_month h.mon hc]
    rfl
  | day =>
    rw [Conversion.print, Conversion.parse, get_two_digits h.mday_pos h.mday (Nat.lt_of_le_of_lt h.mday (by decide))]
    rfl
  | hour =>
    rw [Conversion.print, Conversion.parse,
      get_two_digits (Nat.zero_le _) (Nat.le_of_lt_succ h.hour) (h.hour.trans (by decide))]
    rfl
  | minute =>
    rw [Conversion.print, Conversion.parse,
      get_two_digits (Nat.zero_le _) (Nat.le_of_lt_succ h.min) (h.min.trans (by decide))]
    rfl
  | second =>
    rw [Conversion.print, Conversion.parse,
      get_two_digits (Nat.zero_le _) h.sec (Nat.lt_of_le_of_lt h.sec (by decide))]
    rfl
  | year =>
    have hlower := h.year_pos
    have hupper := h.year
    have hyear : tm.year ≤ 9999 := by
      rw [Tm.year]
      omega
    have hback : ((tm.year : Int) - 1900) = tm.tm_year := by
      rw [Tm.year]
      omega
    rw [Conversion.print, Conversion.parse,
      get_number_digits (decimal_toString tm.year) (Nat.zero_le _) hyear (length_year_le hyear) (.inr hend)]
    show some ({ into with tm_year := (tm.year : Int) - 1900 }, rest) = some ({ into with tm_year := tm.tm_year }, rest)
    rw [hback]
  | space =>
    obtain ⟨c, hhead, hc⟩ := hend
    obtain ⟨more, rfl⟩ := List.head?_eq_some_iff.mp hhead
    have hnospace : ¬ isspace c = true := by
      have hlow : 48 ≤ c.toNat := UInt8.le_iff_toNat_le.mp hc
      simp only [isspace, Bool.or_eq_true, Bool.and_eq_true, decide_eq_true_eq, UInt8.le_iff_toNat_le]
      rintro (rfl | ⟨-, hhigh⟩)
      · exact absurd hlow (by decide)
      · exact absurd (hlow.trans hhigh) (by decide)
    show some (into, List.dropWhile isspace (32 :: c :: more)) = some (into, c :: more)
    rw [List.dropWhile_cons_of_pos (by decide), List.dropWhile_cons_of_neg hnospace]
  | literal c =>
    show (if some c = some c then some (into, rest) else none) = some (into, rest)
    rw [if_pos rfl]

/-- Every part of the printed date ends where the next one begins. -/
def Readable (tm : Tm) : List Conversion → Prop
  | [] => True
  | conversion :: format => conversion.EndsBefore (strftime format tm) ∧ Readable tm format

/-- `strptime` reads the fields that `strftime` printed. -/
theorem strptime_strftime (h : tm.Valid) {format : List Conversion} (hreadable : Readable tm format) (into : Tm) :
    strptime format (strftime format tm) into =
      some (format.foldl (fun into conversion => conversion.copy tm into) into) := by
  induction format generalizing into with
  | nil => rfl
  | cons conversion format ih =>
    obtain ⟨hend, hmore⟩ := hreadable
    rw [strptime, strftime, List.flatMap_cons, ← strftime, parse_print h into hend]
    exact ih hmore _

theorem head_two_digits {n : Nat} (hn : n < 100) (more : List UInt8) :
    ∃ c, (two_digits n ++ more).head? = some c ∧ 48 ≤ c := by
  refine ⟨UInt8.ofNat (48 + n / 10), rfl, ?_⟩
  rw [UInt8.le_iff_toNat_le, UInt8.toNat_ofNat_of_lt' (by show 48 + n / 10 < 256; omega)]
  exact Nat.le_add_right 48 _

theorem http_date_readable (h : tm.Valid) : Readable tm http_date_format := by
  have hmonth : ∀ i < 12, ∀ rest, ∃ c, ((month_names.getD i []).take 3 ++ rest).head? = some c ∧ 48 ≤ c := by
    intro i hi rest
    interval_cases i
    all_goals exact ⟨_, rfl, by decide⟩
  have hyear : ∀ rest, ∃ c, (bytes (toString tm.year) ++ rest).head? = some c ∧ 48 ≤ c := by
    intro rest
    obtain ⟨c, more, hdigits⟩ := List.exists_cons_of_ne_nil (bytes_toString_ne_nil tm.year)
    have hc : c ∈ bytes (toString tm.year) := hdigits ▸ List.mem_cons_self
    refine ⟨c, by rw [hdigits]; rfl, ?_⟩
    exact UInt8.le_iff_toNat_le.mpr (digit_of_mem_bytes hc).1
  refine ⟨.inl rfl, trivial, ?_, trivial, ?_, .inr rfl, ?_, rfl, ?_, trivial, trivial, trivial, trivial, trivial, ?_,
    trivial, trivial, trivial, trivial⟩
  · exact head_two_digits (Nat.lt_of_le_of_lt h.mday (by decide)) _
  · exact hmonth _ h.mon _
  · exact hyear _
  · exact head_two_digits (h.hour.trans (by decide)) _
  · exact ⟨71, rfl, by decide⟩

/-- A date that is printed in UTC is read back as if the clocks of the zone showed it. -/
theorem parse_http_date_http_date (zone : TimeZone) {last_modified : Int} (hpos : 0 < last_modified)
    (hdate : last_modified < HTTP_DATE_END) :
    parse_http_date zone (http_date last_modified) = some (last_modified - zone.standard_offset last_modified) := by
  have hnat : (last_modified.toNat : Int) = last_modified := Int.toNat_of_nonneg (Int.le_of_lt hpos)
  have hvalid : (gmtime last_modified.toNat).Valid := gmtime_valid (by rw [hnat]; exact hdate)
  rw [parse_http_date, http_date, strptime_strftime hvalid (http_date_readable hvalid)]
  show some (mktime zone (gmtime last_modified.toNat)) = _
  rw [mktime, timegm_gmtime, hnat]

/-- A date is short. -/
theorem length_http_date_le {last_modified : Int} (hpos : 0 < last_modified) (hdate : last_modified < HTTP_DATE_END) :
    (http_date last_modified).length ≤ 72 := by
  have hnat : (last_modified.toNat : Int) = last_modified := Int.toNat_of_nonneg (Int.le_of_lt hpos)
  have hvalid : (gmtime last_modified.toNat).Valid := gmtime_valid (by rw [hnat]; exact hdate)
  have hprint : ∀ conversion : Conversion, (conversion.print (gmtime last_modified.toNat)).length ≤ 4 := by
    intro conversion
    cases conversion with
    | weekday | month => exact (List.length_take_le _ _).trans (by decide)
    | year =>
      have hlower := hvalid.year_pos
      have hupper := hvalid.year
      apply length_year_le
      rw [Tm.year]
      omega
    | day | hour | minute | second => exact show 2 ≤ 4 by decide
    | space | literal => exact show 1 ≤ 4 by decide
  have hformat : ∀ format : List Conversion,
      (strftime format (gmtime last_modified.toNat)).length ≤ 4 * format.length := by
    intro format
    induction format with
    | nil => exact Nat.zero_le _
    | cons conversion format ih =>
      rw [strftime, List.flatMap_cons, ← strftime, List.length_append, List.length_cons]
      have hfirst := hprint conversion
      omega
  exact hformat http_date_format

end round_trip

end uvhttp.static_files
