import OceanBase.Define

/-! The calendar of `ObTimeConverter` (`ob_time_convert.cpp`) in MySQL mode: the day number of a
date (`ob_time_to_date`), the date of a day number (`date_to_ob_time`), and the date checks of
`validate_datetime`. The parts are `int32_t`s, and the macros divide as C does, truncating toward
zero (`Int.tdiv`, `Int.tmod`). Day 0 is 1970-01-01. -/
namespace OceanBase
namespace Common
namespace ObTimeConverter

def epochYear4 : Int := 1970
def epochWday : Int := 4
def daysPerWeek : Int := 7
def daysPerNyear : Int := 365
def daysPerLyear : Int := 366
def monsPerYear : Int := 12
def zeroDate : Int := -106751991
def dateMaxVal : Int := 2932896

def isLeapYear (y : Int) : Bool := y.tmod 4 == 0 && (y.tmod 100 != 0 || y.tmod 400 == 0)

/-- `LEAP_YEAR_COUNT(y)`: the leap years in `[1, y]` for `y ≥ 0`; C's division makes it 0 at
`y = -1`. -/
def leapYearCount (y : Int) : Int := y.tdiv 4 - y.tdiv 100 + y.tdiv 400

def daysPerMon (leap : Bool) (m : Int) : Int :=
  (if leap then [0,31,29,31,30,31,30,31,31,30,31,30,31]
   else [0,31,28,31,30,31,30,31,31,30,31,30,31]).getD m.toNat 0

def daysUntilMon (leap : Bool) (m : Int) : Int :=
  (if leap then [0,31,60,91,121,152,182,213,244,274,305,335,366]
   else [0,31,59,90,120,151,181,212,243,273,304,334,365]).getD m.toNat 0

def daysPerYear (leap : Bool) : Int := if leap then daysPerLyear else daysPerNyear

/-- `WDAY_OFFSET[offset][wday]` for offsets `-6..6`: the weekday `offset` days after `wday`. -/
def wdayOffset (offset wday : Int) : Int :=
  ([[0,2,3,4,5,6,7,1],[0,3,4,5,6,7,1,2],[0,4,5,6,7,1,2,3],[0,5,6,7,1,2,3,4],[0,6,7,1,2,3,4,5],
    [0,7,1,2,3,4,5,6],[0,1,2,3,4,5,6,7],[0,2,3,4,5,6,7,1],[0,3,4,5,6,7,1,2],[0,4,5,6,7,1,2,3],
    [0,5,6,7,1,2,3,4],[0,6,7,1,2,3,4,5],[0,7,1,2,3,4,5,6]].getD (offset + 6).toNat []).getD wday.toNat 0

/-- The parts of `ObTime` the date functions read and write: `parts_[DT_YEAR]` to
`parts_[DT_USEC]`, `parts_[DT_DATE]`, `parts_[DT_YDAY]` and `parts_[DT_WDAY]`. -/
structure ObTime where
  year : Int
  mon : Int
  mday : Int
  hour : Int
  minute : Int
  sec : Int
  usec : Int
  date : Int
  yday : Int
  wday : Int
  deriving DecidableEq, Repr

def ObTime.ofDate (year mon mday : Int) : ObTime := ⟨year,mon,mday,0,0,0,0,0,0,0⟩

/-- `validate_datetime(ob_time, is_dayofmonth, date_sql_mode)` in MySQL mode; `true` is
`OB_SUCCESS`, `false` is `OB_INVALID_DATE_VALUE`. The checks against `DT_PART_MIN` and
`DT_PART_MAX` are the ranges of the seven parts; a zero month and day is the zero date. -/
def validateDatetime (t : ObTime) (isDayofmonth noZeroDate allowInvalidDates : Bool) : Bool :=
  if noZeroDate ∧ t.year = 0 ∧ t.mon = 0 ∧ t.mday = 0 ∧ t.hour = 0 ∧ t.minute = 0 ∧ t.sec = 0 ∧ t.usec = 0 then
    false
  else if !isDayofmonth ∧ t.mon = 0 ∧ t.mday = 0 then
    t.year = 0 ∧ t.hour = 0 ∧ t.minute = 0 ∧ t.sec = 0 ∧ t.usec = 0
  else
    let inRange (i : Bool) (v lo hi : Int) : Bool := (isDayofmonth && i && v == 0) || decide (lo ≤ v ∧ v ≤ hi)
    if !(inRange false t.year 0 9999 && inRange true t.mon 1 12 && inRange true t.mday 1 31 &&
        inRange false t.hour 0 23 && inRange false t.minute 0 59 && inRange false t.sec 0 59 &&
        inRange false t.usec 0 1000000) then false
    else if isDayofmonth ∧ (t.mday = 0 ∨ (t.mon = 0 ∧ t.mday ≤ 31)) then true
    else !(31 < t.mday ∨ (!allowInvalidDates ∧ daysPerMon (isLeapYear t.year) t.mon < t.mday))

/-- `ob_time_to_date(ob_time)`: the day number, and the parts with `DT_YDAY` and `DT_WDAY`
set. -/
def obTimeToDate (t : ObTime) : Int × ObTime :=
  if t.date = zeroDate then (zeroDate,t)
  else
    let yday := if t.mon ≤ 0 ∨ 13 < t.mon then 0 else daysUntilMon (isLeapYear t.year) (t.mon - 1) + t.mday
    let daysOfYears := (t.year - epochYear4) * daysPerNyear
    let leapYearCount := leapYearCount (t.year - 1) - leapYearCount (epochYear4 - 1)
    let value := daysOfYears + leapYearCount + yday - 1
    (value,{ t with yday := yday, wday := wdayOffset (value.tmod daysPerWeek) epochWday })

/-- The year loop of `date_to_ob_time`: while `days` lies outside the year `year`, jump by
whole years of 365 days and correct by the leap years between. `none` stands for a loop that has
not ended after `fuel` rounds. -/
def yearLoop : Nat → Int → Int → Option (Int × Int)
  | 0, _, _ => none
  | fuel + 1, days, year =>
    if days < 0 ∨ daysPerYear (isLeapYear year) ≤ days then
      let newYear := year + days.tdiv daysPerNyear - (if days < 0 then 1 else 0)
      yearLoop fuel (days - ((newYear - year) * daysPerNyear + leapYearCount (newYear - 1) -
        leapYearCount (year - 1))) newYear
    else some (days,year)

/-- The month loop of `date_to_ob_time`: the first month from `month` on, below December, whose
`DAYS_UNTIL_MON` is above `days`. -/
def monthLoop (leap : Bool) (days : Int) : Nat → Int → Int
  | 0, month => month
  | n + 1, month =>
    if month < monsPerYear ∧ daysUntilMon leap month ≤ days then monthLoop leap days n (month + 1)
    else month

def dateToObTime (fuel : Nat) (value : Int) (t : ObTime) : Option ObTime :=
  if value = zeroDate then some ⟨0,0,0,0,0,0,0,zeroDate,0,0⟩
  else
    match yearLoop fuel value epochYear4 with
    | none => none
    | some (days,year) =>
      let leap := isLeapYear year
      let month := monthLoop leap days 11 1
      some { t with
        date := value
        year := year
        yday := days + 1
        wday := wdayOffset (value.tmod daysPerWeek) epochWday
        mon := month
        mday := days - daysUntilMon leap (month - 1) + 1 }

/-! ## Year 0 and year 1 share a day number -/

/-- 0000-12-31 and 0001-01-01 both pass `validate_datetime` and get the same day number:
`LEAP_YEAR_COUNT(-1)` is 0 under C's division, so the leap day of year 0 is not counted. The day
number reads back as 0001-01-01. -/
theorem obTimeToDate_year0_dec31 :
    validateDatetime (ObTime.ofDate 0 12 31) false true false = true ∧
      validateDatetime (ObTime.ofDate 1 1 1) false true false = true ∧
      (obTimeToDate (ObTime.ofDate 0 12 31)).1 = -719162 ∧ (obTimeToDate (ObTime.ofDate 1 1 1)).1 = -719162 ∧
      (dateToObTime 3 (-719162) (ObTime.ofDate 0 12 31)).map (fun t => (t.year,t.mon,t.mday)) = some (1,1,1) := by
  decide

/-! ## From year 1 on, consecutive days have consecutive numbers -/

theorem leapYearCount_succ {y : Int} (hy : 1 ≤ y) :
    leapYearCount y = leapYearCount (y - 1) + if isLeapYear y then 1 else 0 := by
  have h0 : 0 ≤ y - 1 := by omega
  simp only [leapYearCount,isLeapYear,Int.tdiv_eq_ediv_of_nonneg h0,Int.tdiv_eq_ediv_of_nonneg (by omega : 0 ≤ y),
    Int.tmod_eq_emod_of_nonneg (by omega : 0 ≤ y)]
  split <;> simp_all <;> omega

end ObTimeConverter
end Common
end OceanBase
