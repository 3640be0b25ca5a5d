import OceanBase.Common.TimeConvert

/-! Week numbers of `ObTimeConverter` (`ob_time_to_week`), and the year loop of
`date_to_ob_time` that fills the `ObTime` they read. The loop is shown to end within five rounds
for every day of the years 1 to 9999 and to land in the year of the day; in the ISO 8601 mode
`WEEK_MODE[3]` the week and its `delta` are then those of the standard: a week belongs to the
year of its Thursday. -/
namespace OceanBase
namespace Common
namespace ObTimeConverter

/-! ## Truncating division by a constant -/

theorem tdiv_eq_ite (a b : Int) : a.tdiv b = if 0 ≤ a then a / b else -((-a) / b) := by
  split_ifs with h
  · exact Int.tdiv_eq_ediv_of_nonneg h
  · rw [← Int.tdiv_eq_ediv_of_nonneg (by omega : 0 ≤ -a), Int.neg_tdiv, neg_neg]

theorem tmod_eq_ite (a b : Int) : a.tmod b = if 0 ≤ a then a % b else -((-a) % b) := by
  split_ifs with h
  · exact Int.tmod_eq_emod_of_nonneg h
  · rw [← Int.tmod_eq_emod_of_nonneg (by omega : 0 ≤ -a), Int.neg_tmod, neg_neg]

/-! ## The day number of New Year's Day -/

def daysBefore (y : Int) : Int :=
  (y - epochYear4) * daysPerNyear + leapYearCount (y - 1) - leapYearCount (epochYear4 - 1)

theorem daysBefore_epoch : daysBefore epochYear4 = 0 := by decide

theorem leapYearCount_sub_pred (y : Int) :
    leapYearCount y - leapYearCount (y - 1) = 0 ∨ leapYearCount y - leapYearCount (y - 1) = 1 := by
  simp only [leapYearCount, tdiv_eq_ite]
  split_ifs <;> omega

theorem daysBefore_succ_sub (y : Int) :
    daysBefore (y + 1) - daysBefore y = 365 ∨ daysBefore (y + 1) - daysBefore y = 366 := by
  have h := leapYearCount_sub_pred y
  simp only [daysBefore, daysPerNyear, add_sub_cancel_right]
  omega

theorem daysBefore_succ {y : Int} (hy : 1 ≤ y) :
    daysBefore (y + 1) = daysBefore y + daysPerYear (isLeapYear y) := by
  rw [daysBefore, daysBefore, add_sub_cancel_right, leapYearCount_succ hy]
  cases isLeapYear y <;>
    simp only [daysPerYear, daysPerNyear, daysPerLyear, Bool.false_eq_true, if_true, if_false] <;> ring

theorem daysBefore_sub_bounds {a b : Int} (hab : a ≤ b) :
    365 * (b - a) ≤ daysBefore b - daysBefore a ∧ daysBefore b - daysBefore a ≤ 366 * (b - a) := by
  obtain ⟨k, rfl⟩ : ∃ k : Nat, b = a + k := ⟨(b - a).toNat, by omega⟩
  induction k with
  | zero => simp
  | succ k ih =>
    have hstep := daysBefore_succ_sub (a + k)
    push_cast at ih ⊢
    rw [← add_assoc]
    omega

theorem exists_year {a b n : Int} (hab : a ≤ b) (hlo : daysBefore a ≤ n) (hhi : n < daysBefore b) :
    ∃ y, a ≤ y ∧ y < b ∧ daysBefore y ≤ n ∧ n < daysBefore (y + 1) := by
  obtain ⟨k, rfl⟩ : ∃ k : Nat, b = a + k := ⟨(b - a).toNat, by omega⟩
  induction k with
  | zero => simp at hhi; omega
  | succ k ih =>
    by_cases hk : n < daysBefore (a + k)
    · obtain ⟨y, h₁, h₂, h₃⟩ := ih (by omega) hk
      exact ⟨y, h₁, by push_cast; omega, h₃⟩
    · exact ⟨a + k, by omega, by push_cast; omega, by omega, by push_cast at hhi; rwa [← add_assoc] at hhi⟩

/-! ## The year loop of `date_to_ob_time`

A round of the loop moves from `year` to a year whose New Year's Day is at most a year's worth
of days from the target day, in the direction of it; the day count it carries is always the day
number less the day number of its year's New Year's Day. -/

section YearLoop

variable {n y Y : Int} {f : Nat}

theorem yearLoop_step (hout : n - daysBefore y < 0 ∨ daysPerYear (isLeapYear y) ≤ n - daysBefore y) :
    yearLoop (f + 1) (n - daysBefore y) y =
      yearLoop f (n - daysBefore (y + (n - daysBefore y).tdiv daysPerNyear - if n - daysBefore y < 0 then 1 else 0))
        (y + (n - daysBefore y).tdiv daysPerNyear - if n - daysBefore y < 0 then 1 else 0) := by
  rw [yearLoop, if_pos hout]
  dsimp only
  congr 1
  simp only [daysBefore, epochYear4]
  ring

theorem yearLoop_below (hcont : daysPerYear (isLeapYear y) ≤ n - daysBefore y) :
    ∃ y', yearLoop (f + 1) (n - daysBefore y) y = yearLoop f (n - daysBefore y') y' ∧
      365 * (y' - y) ≤ n - daysBefore y ∧ n - daysBefore y < 365 * (y' - y + 1) := by
  have hpos : 0 ≤ n - daysBefore y := le_trans (by simp only [daysPerYear]; split <;> decide) hcont
  refine ⟨_, yearLoop_step (Or.inr hcont), ?_⟩
  simp only [daysPerNyear, tdiv_eq_ite, if_pos hpos, if_neg (not_lt.mpr hpos)]
  omega

theorem yearLoop_above (hneg : n - daysBefore y < 0) :
    ∃ y', yearLoop (f + 1) (n - daysBefore y) y = yearLoop f (n - daysBefore y') y' ∧
      365 * (y - y' - 1) ≤ daysBefore y - n ∧ daysBefore y - n < 365 * (y - y') := by
  refine ⟨_, yearLoop_step (Or.inl hneg), ?_⟩
  simp only [daysPerNyear, tdiv_eq_ite, if_neg (not_le.mpr hneg), if_pos hneg]
  omega

theorem yearLoop_exit (hY : 1 ≤ Y) (hlo : daysBefore Y ≤ n) (hhi : n < daysBefore (Y + 1)) :
    yearLoop (f + 1) (n - daysBefore Y) Y = some (n - daysBefore Y, Y) := by
  have h := daysBefore_succ hY
  rw [yearLoop, if_neg (by omega)]

theorem yearLoop_below_continue (hyY : y < Y) (hlo : daysBefore Y ≤ n)
    (hcont : 1 ≤ y ∨ y ≤ Y - 2 ∨ daysBefore Y < n) :
    daysPerYear (isLeapYear y) ≤ n - daysBefore y := by
  have hle : daysPerYear (isLeapYear y) ≤ 366 := by simp only [daysPerYear]; split <;> decide
  have hY := daysBefore_sub_bounds (le_of_lt hyY)
  rcases hcont with h1 | h2 | h3
  · have hy := daysBefore_succ h1
    have hmid := daysBefore_sub_bounds (show y + 1 ≤ Y by omega)
    omega
  · omega
  · omega

section Target

variable (hY : 1 ≤ Y) (hlo : daysBefore Y ≤ n) (hhi : n < daysBefore (Y + 1))
include hY hlo hhi

theorem yearLoop_above_near (hnear : daysBefore (Y + 1) - n < 365) :
    yearLoop (f + 2) (n - daysBefore (Y + 1)) (Y + 1) = some (n - daysBefore Y, Y) := by
  obtain ⟨y', hrun, h₁, h₂⟩ := yearLoop_above (f := f + 1) (show n - daysBefore (Y + 1) < 0 by omega)
  obtain rfl : y' = Y := by omega
  rw [hrun, yearLoop_exit hY hlo hhi]

theorem yearLoop_below_near (hyY : y < Y) (hfar : Y - 8 ≤ y) (hcont : 1 ≤ y ∨ y ≤ Y - 2 ∨ daysBefore Y < n) :
    yearLoop (f + 3) (n - daysBefore y) y = some (n - daysBefore Y, Y) := by
  obtain ⟨y', hrun, h₁, h₂⟩ := yearLoop_below (f := f + 2) (yearLoop_below_continue hyY hlo hcont)
  have hlow := daysBefore_sub_bounds (le_of_lt hyY)
  have hhigh := daysBefore_sub_bounds (show y ≤ Y + 1 by omega)
  rw [hrun]
  rcases (show y' = Y ∨ y' = Y + 1 by omega) with rfl | rfl
  · exact yearLoop_exit hY hlo hhi
  · exact yearLoop_above_near hY hlo hhi (by omega)

theorem yearLoop_above_far (hY2 : 2 ≤ Y) (hyY : Y < y) (hfar : y ≤ Y + 364) :
    yearLoop (f + 4) (n - daysBefore y) y = some (n - daysBefore Y, Y) := by
  have hlow := daysBefore_sub_bounds (show Y ≤ y by omega)
  have hhigh := daysBefore_sub_bounds (show Y + 1 ≤ y by omega)
  obtain ⟨y', hrun, h₁, h₂⟩ := yearLoop_above (f := f + 3) (show n - daysBefore y < 0 by omega)
  rw [hrun]
  rcases (show y' = Y ∨ y' = Y - 1 by omega) with rfl | rfl
  · exact yearLoop_exit hY hlo hhi
  · exact yearLoop_below_near hY hlo hhi (by omega) (by omega) (Or.inl (by omega))

theorem yearLoop_from_epoch (hY9 : Y ≤ 9999) :
    yearLoop (f + 5) n epochYear4 = some (n - daysBefore Y, Y) := by
  have hstart : yearLoop (f + 5) n epochYear4 = yearLoop (f + 5) (n - daysBefore epochYear4) epochYear4 := by
    rw [daysBefore_epoch, sub_zero]
  have hE := daysBefore_epoch
  have he : epochYear4 = 1970 := rfl
  rw [hstart]
  rcases lt_trichotomy Y epochYear4 with hlt | rfl | hgt
  · have hb := daysBefore_sub_bounds (le_of_lt hlt)
    have hb₁ := daysBefore_sub_bounds (show Y + 1 ≤ epochYear4 by omega)
    obtain ⟨y', hrun, h₁, h₂⟩ := yearLoop_above (f := f + 4) (show n - daysBefore epochYear4 < 0 by omega)
    rw [hrun]
    have hD1 : daysBefore 1 = -719162 := by decide
    have hD1Y := daysBefore_sub_bounds hY
    rcases (show y' = Y ∨ y' < Y by omega) with rfl | hy'
    · exact yearLoop_exit hY hlo hhi
    · exact yearLoop_below_near (f := f + 1) hY hlo hhi hy' (by omega) (by omega)
  · exact yearLoop_exit hY hlo hhi
  · have hb := daysBefore_sub_bounds (le_of_lt hgt)
    have hb₁ := daysBefore_sub_bounds (show epochYear4 ≤ Y + 1 by omega)
    obtain ⟨y', hrun, h₁, h₂⟩ := yearLoop_below (f := f + 4)
      (yearLoop_below_continue hgt hlo (Or.inl (by decide)))
    rw [hrun]
    rcases (show y' = Y ∨ Y < y' by omega) with rfl | hy'
    · exact yearLoop_exit hY hlo hhi
    · exact yearLoop_above_far hY hlo hhi (by omega) hy' (by omega)

end Target

end YearLoop

/-! ## `ob_time_to_week` -/

/-- `DT_WEEK_SUN_BEGIN`: Sunday is the first day of the week, otherwise Monday. -/
def dtWeekSunBegin : Nat := 1 <<< 5
def dtWeekZeroBegin : Nat := 1 <<< 6
/-- `DT_WEEK_GE_4_BEGIN`: week 1 is the first week with 4 or more days in the year, otherwise
the first week that starts in it. -/
def dtWeekGe4Begin : Nat := 1 <<< 7

def weekMode (i : Nat) : Nat :=
  [dtWeekSunBegin ||| dtWeekZeroBegin, dtWeekZeroBegin ||| dtWeekGe4Begin, dtWeekSunBegin, dtWeekGe4Begin,
    dtWeekSunBegin ||| dtWeekZeroBegin ||| dtWeekGe4Begin, dtWeekZeroBegin, dtWeekSunBegin ||| dtWeekGe4Begin,
    0].getD i 0

/-- `YDAY_WEEK1[wday][sun_begin][ge_4_begin]`: the day of the year on which week 1 starts when
New Year's Day is a `wday`; 0 and below are days of the year before. -/
def ydayWeek1 (wday : Int) (sunBegin ge4Begin : Bool) : Int :=
  (([[[0,0],[0,0]],[[1,1],[7,0]],[[7,0],[6,-1]],[[6,-1],[5,-2]],[[5,-2],[4,4]],[[4,4],[3,3]],
    [[3,3],[2,2]],[[2,2],[1,1]]].getD wday.toNat []).getD sunBegin.toNat []).getD ge4Begin.toNat 0

/-- `ob_time_to_week(ob_time, mode, delta)`: the week number of the date in `ob_time` and `delta`,
the year the week belongs to less the date's year. Only the last days of a year, and only in a
mode with `GE_4_BEGIN` and without `ZERO_BEGIN`, are looked up in week 1 of the next year. -/
def obTimeToWeek (t : ObTime) (mode : Nat) : Int × Int :=
  let isSunBegin := mode &&& dtWeekSunBegin != 0
  let isZeroBegin := mode &&& dtWeekZeroBegin != 0
  let isGe4Begin := mode &&& dtWeekGe4Begin != 0
  let inNextWeek1 : Bool :=
    if daysPerNyear - 3 < t.yday ∧ isGe4Begin ∧ !isZeroBegin then
      let daysCurYear := daysPerYear (isLeapYear t.year)
      let wdayNextYday1 := wdayOffset (daysCurYear - t.yday + 1) t.wday
      decide (daysCurYear + ydayWeek1 wdayNextYday1 isSunBegin isGe4Begin ≤ t.yday)
    else false
  if inNextWeek1 then (1,1)
  else
    let wdayCurYday1 := wdayOffset ((1 - t.yday).tmod daysPerWeek) t.wday
    let ydayCurWeek1 := ydayWeek1 wdayCurYday1 isSunBegin isGe4Begin
    if t.yday < ydayCurWeek1 ∧ !isZeroBegin then
      -- the day is in the last week of the year before
      let daysPrevYear := daysPerYear (isLeapYear (t.year - 1))
      let wdayPrevYday1 := wdayOffset ((1 - daysPrevYear - t.yday).tmod daysPerWeek) t.wday
      let ydayPrevWeek1 := ydayWeek1 wdayPrevYday1 isSunBegin isGe4Begin
      ((daysPrevYear + t.yday - ydayPrevWeek1 + daysPerWeek).tdiv daysPerWeek,-1)
    else ((t.yday - ydayCurWeek1 + daysPerWeek).tdiv daysPerWeek,0)

/-! ## ISO 8601 weeks -/

def isoWeekday (n : Int) : Int := (n + 3) % 7 + 1

def weekThursday (n : Int) : Int := n + 4 - isoWeekday n

/-- ISO 8601: day `n` lies in week `week` of the week-year `year`. A week belongs to the year of
its Thursday, and week 1 is the week of the year's first Thursday. -/
def IsoWeek (n year week : Int) : Prop :=
  daysBefore year ≤ weekThursday n ∧ weekThursday n < daysBefore (year + 1) ∧
    week = (weekThursday n - daysBefore year) / 7 + 1

instance (n year week : Int) : Decidable (IsoWeek n year week) :=
  inferInstanceAs (Decidable (_ ∧ _ ∧ _))

theorem tmod_daysPerWeek_bounds (a : Int) : -6 ≤ a.tmod daysPerWeek ∧ a.tmod daysPerWeek ≤ 6 := by
  simp only [tmod_eq_ite, daysPerWeek]
  split_ifs <;> omega

theorem isoWeekday_add_tmod (n a : Int) : isoWeekday (n + a.tmod daysPerWeek) = isoWeekday (n + a) := by
  simp only [isoWeekday, tmod_eq_ite, daysPerWeek]
  split_ifs <;> omega

theorem wdayOffset_isoWeekday (n : Int) {k : Int} (hk : -6 ≤ k ∧ k ≤ 6) :
    wdayOffset k (isoWeekday n) = isoWeekday (n + k) := by
  have htab : ∀ i : Fin 13, ∀ j : Fin 7,
      wdayOffset ((i : Int) - 6) ((j : Int) + 1) = ((j : Int) + (i : Int) - 6) % 7 + 1 := by
    decide
  obtain ⟨i, hi⟩ : ∃ i : Fin 13, k = (i : Int) - 6 := ⟨⟨(k + 6).toNat, by omega⟩, by simp; omega⟩
  obtain ⟨j, hj⟩ : ∃ j : Fin 7, isoWeekday n = (j : Int) + 1 :=
    ⟨⟨((n + 3) % 7).toNat, by omega⟩, by simp only [isoWeekday]; omega⟩
  rw [hi, hj, htab]
  simp only [isoWeekday] at hj ⊢
  omega

theorem wdayOffset_epochWday (n : Int) : wdayOffset (n.tmod daysPerWeek) epochWday = isoWeekday n := by
  have h := wdayOffset_isoWeekday 0 (tmod_daysPerWeek_bounds n)
  rwa [show isoWeekday 0 = epochWday by decide, isoWeekday_add_tmod, zero_add] at h

theorem ydayWeek1_iso (a n : Int) :
    (ydayWeek1 (isoWeekday a) false true ≤ n - a + 1 ↔ a ≤ weekThursday n) ∧
      (ydayWeek1 (isoWeekday a) false true ≤ n - a + 1 →
        (n - a + 1 - ydayWeek1 (isoWeekday a) false true + 7) / 7 = (weekThursday n - a) / 7 + 1) := by
  have htab : ∀ j : Fin 7,
      ydayWeek1 ((j : Int) + 1) false true = if (j : Int) + 1 ≤ 4 then 1 - (j : Int) else 8 - (j : Int) := by
    decide
  obtain ⟨j, hj⟩ : ∃ j : Fin 7, isoWeekday a = (j : Int) + 1 :=
    ⟨⟨((a + 3) % 7).toNat, by omega⟩, by simp only [isoWeekday]; omega⟩
  rw [hj, htab]
  simp only [isoWeekday, weekThursday] at hj ⊢
  split_ifs <;> omega

theorem weekThursday_bounds (n : Int) : n - 3 ≤ weekThursday n ∧ weekThursday n ≤ n + 3 := by
  simp only [weekThursday, isoWeekday]
  omega

/-! ## The week of every day of the years 1 to 9999 -/

section Year

variable {n Y : Int}

theorem dateToObTime_of_year {f : Nat} (hY : 1 ≤ Y) (hY9 : Y ≤ 9999) (hlo : daysBefore Y ≤ n)
    (hhi : n < daysBefore (Y + 1)) (t0 : ObTime) :
    ∃ t, dateToObTime (f + 5) n t0 = some t ∧ t.year = Y ∧ t.yday = n - daysBefore Y + 1 ∧
      t.wday = isoWeekday n := by
  have hz : n ≠ zeroDate := by
    have hD1 : daysBefore 1 = -719162 := by decide
    have := daysBefore_sub_bounds hY
    simp only [zeroDate]
    omega
  simp only [dateToObTime, if_neg hz, yearLoop_from_epoch hY hlo hhi hY9]
  exact ⟨_, rfl, rfl, by ring, wdayOffset_epochWday n⟩

theorem isoWeek_next (hhi : n < daysBefore (Y + 1)) (hN : daysBefore (Y + 1) ≤ weekThursday n) :
    IsoWeek n (Y + 1) 1 := by
  have hth := weekThursday_bounds n
  have hnext := daysBefore_succ_sub (Y + 1)
  refine ⟨hN, by omega, by omega⟩

theorem isoWeek_same (hS : daysBefore Y ≤ weekThursday n) (hN : weekThursday n < daysBefore (Y + 1)) :
    IsoWeek n Y ((n - daysBefore Y + 1 - ydayWeek1 (isoWeekday (daysBefore Y)) false true + 7) / 7) := by
  have K := ydayWeek1_iso (daysBefore Y) n
  exact ⟨hS, hN, K.2 (K.1.mpr hS)⟩

theorem isoWeek_prev (hY2 : 2 ≤ Y) (hlo : daysBefore Y ≤ n) (hP : weekThursday n < daysBefore Y) :
    IsoWeek n (Y - 1) ((daysPerYear (isLeapYear (Y - 1)) + (n - daysBefore Y + 1) -
      ydayWeek1 (isoWeekday (daysBefore (Y - 1))) false true + 7) / 7) := by
  have hLp := daysBefore_succ (show 1 ≤ Y - 1 by omega)
  rw [sub_add_cancel] at hLp
  have hth := weekThursday_bounds n
  have K := ydayWeek1_iso (daysBefore (Y - 1)) n
  have hS : daysBefore (Y - 1) ≤ weekThursday n := by
    have := daysBefore_succ_sub (Y - 1)
    rw [sub_add_cancel] at this
    omega
  have hw := K.2 (K.1.mpr hS)
  refine ⟨hS, by rwa [sub_add_cancel], ?_⟩
  rw [← hw]
  congr 1
  omega

theorem obTimeToWeek_of_year {t : ObTime} (hY : 1 ≤ Y) (hlo : daysBefore Y ≤ n) (hhi : n < daysBefore (Y + 1))
    (hyear : t.year = Y) (hyday : t.yday = n - daysBefore Y + 1) (hwday : t.wday = isoWeekday n) :
    ((obTimeToWeek t (weekMode 3)).2 = -1 ∨ (obTimeToWeek t (weekMode 3)).2 = 0 ∨
        (obTimeToWeek t (weekMode 3)).2 = 1) ∧
      IsoWeek n (Y + (obTimeToWeek t (weekMode 3)).2) (obTimeToWeek t (weekMode 3)).1 := by
  have hs : (weekMode 3 &&& dtWeekSunBegin != 0) = false := by decide
  have hz : (weekMode 3 &&& dtWeekZeroBegin != 0) = false := by decide
  have hg : (weekMode 3 &&& dtWeekGe4Begin != 0) = true := by decide
  have hL := daysBefore_succ hY
  have hth := weekThursday_bounds n
  have K := ydayWeek1_iso (daysBefore Y) n
  have hcur : wdayOffset ((1 - (n - daysBefore Y + 1)).tmod daysPerWeek) (isoWeekday n) =
      isoWeekday (daysBefore Y) := by
    rw [wdayOffset_isoWeekday n (tmod_daysPerWeek_bounds _), isoWeekday_add_tmod]
    congr 1
    ring
  have hnext : (if daysPerNyear - 3 < n - daysBefore Y + 1 then
      decide (daysPerYear (isLeapYear Y) + ydayWeek1 (wdayOffset (daysPerYear (isLeapYear Y) -
        (n - daysBefore Y + 1) + 1) (isoWeekday n)) false true ≤ n - daysBefore Y + 1) else false) =
      decide (daysBefore (Y + 1) ≤ weekThursday n) := by
    split_ifs with hlate
    · have hoff : wdayOffset (daysPerYear (isLeapYear Y) - (n - daysBefore Y + 1) + 1) (isoWeekday n) =
          isoWeekday (daysBefore (Y + 1)) := by
        have := daysBefore_succ_sub Y
        rw [wdayOffset_isoWeekday n (by simp only [daysPerNyear] at hlate; omega)]
        congr 1
        omega
      have K' := (ydayWeek1_iso (daysBefore (Y + 1)) n).1
      rw [hoff, decide_eq_decide, ← K']
      omega
    · simp only [daysPerNyear] at hlate
      have := daysBefore_succ_sub Y
      simp only [Bool.false_eq, decide_eq_false_iff_not, not_le]
      omega
  simp only [obTimeToWeek, hs, hz, hg, hyear, hyday, hwday, hcur, hnext, Bool.not_false, and_true,
    decide_eq_true_eq]
  split_ifs with hN hP
  · exact ⟨by simp, isoWeek_next hhi hN⟩
  · have hY2 : 2 ≤ Y := by
      by_contra hY1
      obtain rfl : Y = 1 := by omega
      have hmon : ydayWeek1 (isoWeekday (daysBefore 1)) false true = 1 := by decide
      omega
    have hLp := daysBefore_succ (show 1 ≤ Y - 1 by omega)
    rw [sub_add_cancel] at hLp
    have hprev : wdayOffset ((1 - daysPerYear (isLeapYear (Y - 1)) - (n - daysBefore Y + 1)).tmod daysPerWeek)
        (isoWeekday n) = isoWeekday (daysBefore (Y - 1)) := by
      rw [wdayOffset_isoWeekday n (tmod_daysPerWeek_bounds _), isoWeekday_add_tmod]
      congr 1
      omega
    have hpos : 0 ≤ daysPerYear (isLeapYear (Y - 1)) + (n - daysBefore Y + 1) -
        ydayWeek1 (isoWeekday (daysBefore (Y - 1))) false true + daysPerWeek := by
      have := (ydayWeek1_iso (daysBefore (Y - 1)) n).1
      have := daysBefore_succ_sub (Y - 1)
      rw [sub_add_cancel] at this
      simp only [daysPerWeek]
      omega
    rw [hprev, Int.tdiv_eq_ediv_of_nonneg hpos, ← sub_eq_add_neg]
    exact ⟨by simp, isoWeek_prev hY2 hlo (by omega)⟩
  · have hpos : 0 ≤ n - daysBefore Y + 1 - ydayWeek1 (isoWeekday (daysBefore Y)) false true + daysPerWeek := by
      simp only [daysPerWeek]
      omega
    rw [Int.tdiv_eq_ediv_of_nonneg hpos, add_zero]
    exact ⟨by simp, isoWeek_same (K.1.mp (by omega)) (by omega)⟩

end Year

/-- For every day of the years 1 to 9999, `date_to_ob_time` ends within five rounds of its year
loop and puts the day in its calendar year, and `ob_time_to_week` in the ISO mode `WEEK_MODE[3]`
gives the ISO 8601 week of the day, with `delta` `-1`, `0` or `1` the ISO week-year less the
calendar year. -/
theorem obTimeToWeek_isoWeek (fuel : Nat) (n : Int) (hn : daysBefore 1 ≤ n ∧ n < daysBefore 10000)
    (t0 : ObTime) :
    ∃ t, dateToObTime (fuel + 5) n t0 = some t ∧ daysBefore t.year ≤ n ∧ n < daysBefore (t.year + 1) ∧
      ((obTimeToWeek t (weekMode 3)).2 = -1 ∨ (obTimeToWeek t (weekMode 3)).2 = 0 ∨
        (obTimeToWeek t (weekMode 3)).2 = 1) ∧
      IsoWeek n (t.year + (obTimeToWeek t (weekMode 3)).2) (obTimeToWeek t (weekMode 3)).1 := by
  obtain ⟨Y, hY1, hY9, hlo, hhi⟩ := exists_year (show (1 : Int) ≤ 10000 by decide) hn.1 hn.2
  obtain ⟨t, ht, hyear, hyday, hwday⟩ := dateToObTime_of_year (f := fuel) hY1 (by omega) hlo hhi t0
  subst hyear
  exact ⟨t, ht, hlo, hhi, obTimeToWeek_of_year hY1 hlo hhi rfl hyday hwday⟩

/-- 2021-01-01, day 18628, is a Friday in week 53 of 2020. -/
theorem obTimeToWeek_isoWeek_2021 :
    (daysBefore 1 ≤ 18628 ∧ (18628 : Int) < daysBefore 10000) ∧
      ∃ t, dateToObTime 5 18628 (ObTime.ofDate 0 0 0) = some t ∧ daysBefore t.year ≤ 18628 ∧
        18628 < daysBefore (t.year + 1) ∧
        ((obTimeToWeek t (weekMode 3)).2 = -1 ∨ (obTimeToWeek t (weekMode 3)).2 = 0 ∨
          (obTimeToWeek t (weekMode 3)).2 = 1) ∧
        IsoWeek 18628 (t.year + (obTimeToWeek t (weekMode 3)).2) (obTimeToWeek t (weekMode 3)).1 :=
  ⟨⟨by decide, by decide⟩, obTimeToWeek_isoWeek 0 18628 ⟨by decide, by decide⟩ (ObTime.ofDate 0 0 0)⟩

example : (dateToObTime 5 18628 (ObTime.ofDate 0 0 0)).map (fun t => obTimeToWeek t (weekMode 3)) =
    some (53, -1) := by
  decide

end ObTimeConverter
end Common
end OceanBase
