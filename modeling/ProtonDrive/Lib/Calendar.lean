import Mathlib.Data.List.Lex
import Mathlib.Tactic.IntervalCases
import Mathlib.Tactic.Ring

/-!
# The proleptic Gregorian calendar

Days are counted: a year begins after the days of the years before it, a month after the days of
the months before it.

* `daysBeforeYear`      the days from 1 January of year 1 to 1 January of a year;
* `daysFromCivil`       the days from 1 January 1970 to a date;
* `CivilTime.fields_lt` an earlier date and time of day is an earlier instant;
* `cycle`               a day in a cycle of 400 years that begin on 1 March, as century, four years,
                        year and day of the year.
-/

namespace Calendar

/-! ## days of years and months -/

def isLeap (y : Int) : Bool := y % 4 = 0 && (y % 100 != 0 || y % 400 = 0)

def daysInYear (y : Int) : Int := if isLeap y then 366 else 365

def daysInMonth (y m : Int) : Int :=
  if m = 2 then if isLeap y then 29 else 28
  else if m = 4 ∨ m = 6 ∨ m = 9 ∨ m = 11 then 30 else 31

def daysBeforeYear (y : Int) : Int := 365 * (y - 1) + (y - 1) / 4 - (y - 1) / 100 + (y - 1) / 400

def daysBeforeMonth (y m : Int) : Int :=
  ((List.range (m - 1).toNat).map fun k : Nat => daysInMonth y (k + 1)).sum

/-- the days from 1 January 1970 -/
def daysFromCivil (y m d : Int) : Int :=
  daysBeforeYear y + daysBeforeMonth y m + (d - 1) - daysBeforeYear 1970

theorem daysBeforeYear_succ (y : Int) : daysBeforeYear (y + 1) = daysBeforeYear y + daysInYear y := by
  have hleap : daysInYear y = 365 + (y / 4 - (y - 1) / 4) - (y / 100 - (y - 1) / 100) +
      (y / 400 - (y - 1) / 400) := by
    unfold daysInYear
    cases h : isLeap y with
    | true =>
      simp only [isLeap, Bool.and_eq_true, Bool.or_eq_true, decide_eq_true_eq, bne_iff_ne] at h
      simp only [if_pos]
      omega
    | false =>
      simp only [isLeap, Bool.and_eq_false_iff, Bool.or_eq_false_iff, decide_eq_false_iff_not,
        bne_eq_false_iff_eq] at h
      simp only [Bool.false_eq_true, if_false]
      omega
  unfold daysBeforeYear
  rw [hleap, Int.add_sub_cancel]
  omega

theorem daysInMonth_pos (y m : Int) : 28 ≤ daysInMonth y m := by
  unfold daysInMonth
  split
  · split <;> omega
  · split <;> omega

theorem daysBeforeMonth_one (y : Int) : daysBeforeMonth y 1 = 0 := rfl

theorem daysBeforeMonth_succ (y : Int) {m : Int} (hm : 1 ≤ m) :
    daysBeforeMonth y (m + 1) = daysBeforeMonth y m + daysInMonth y m := by
  obtain ⟨n, rfl⟩ : ∃ n : Nat, m = n + 1 := ⟨(m - 1).toNat, by omega⟩
  have hnext : ((n : Int) + 1 + 1 - 1).toNat = n + 1 := by omega
  have hthis : ((n : Int) + 1 - 1).toNat = n := by omega
  rw [daysBeforeMonth, daysBeforeMonth, hnext, hthis, List.range_succ, List.map_append,
    List.sum_append, List.map_singleton, List.sum_singleton]

/-- the months of a year make the year -/
theorem daysBeforeMonth_thirteen (y : Int) : daysBeforeMonth y 13 = daysInYear y := by
  have hsum : daysBeforeMonth y 13 = 337 + daysInMonth y 2 := by
    show (List.map _ (List.range 12)).sum = _
    simp only [List.range_succ, List.range_zero, List.map_append, List.map_nil, List.map_cons,
      List.sum_append, List.sum_nil, List.sum_cons, List.nil_append]
    norm_num [daysInMonth]
    ring
  rw [hsum]
  show 337 + (if isLeap y then 29 else 28) = if isLeap y then 366 else 365
  split <;> rfl

/-- the date is one of the calendar, so many days after 1 January 1970 -/
structure IsDate (y m d days : Int) : Prop where
  month : 1 ≤ m ∧ m ≤ 12
  day : 1 ≤ d ∧ d ≤ daysInMonth y m
  days : daysFromCivil y m d = days

/-! ## order -/

theorem daysBeforeYear_mono {y z : Int} (h : y ≤ z) : daysBeforeYear y ≤ daysBeforeYear z := by
  unfold daysBeforeYear
  omega

theorem daysBeforeMonth_mono (y : Int) {m n : Int} (hm : 1 ≤ m) (h : m ≤ n) :
    daysBeforeMonth y m ≤ daysBeforeMonth y n := by
  obtain ⟨k, rfl⟩ := Int.le.dest h
  induction k with
  | zero => simp
  | succ k ih =>
    have hstep := daysBeforeMonth_succ y (m := m + k) (by omega)
    have hdays := daysInMonth_pos y (m + k)
    have := ih (by omega)
    rw [show m + ((k + 1 : Nat) : Int) = m + k + 1 by push_cast; ring]
    omega

/-! ## a date and a time of day -/

structure CivilTime where
  year : Int
  month : Int
  day : Int
  hour : Int
  minute : Int
  second : Int
  milli : Int
  deriving DecidableEq

namespace CivilTime

def fields (c : CivilTime) : List Int :=
  [c.year, c.month, c.day, c.hour, c.minute, c.second, c.milli]

/-- a time of day on a day that the calendar has -/
structure Valid (c : CivilTime) : Prop where
  month : 1 ≤ c.month ∧ c.month ≤ 12
  day : 1 ≤ c.day ∧ c.day ≤ daysInMonth c.year c.month
  hour : 0 ≤ c.hour ∧ c.hour < 24
  minute : 0 ≤ c.minute ∧ c.minute < 60
  second : 0 ≤ c.second ∧ c.second < 60
  milli : 0 ≤ c.milli ∧ c.milli < 1000

def days (c : CivilTime) : Int := daysFromCivil c.year c.month c.day

def secondOfDay (c : CivilTime) : Int := 3600 * c.hour + 60 * c.minute + c.second

/-- the seconds since the epoch -/
def seconds (c : CivilTime) : Int := c.days * 86400 + c.secondOfDay

/-- the milliseconds since the epoch -/
def millis (c : CivilTime) : Int := c.seconds * 1000 + c.milli

theorem Valid.secondOfDay {c : CivilTime} (h : c.Valid) :
    0 ≤ c.secondOfDay ∧ c.secondOfDay < 86400 := by
  obtain ⟨-, -, hhour, hminute, hsecond, -⟩ := h
  unfold CivilTime.secondOfDay
  omega

theorem Valid.dayOfMonth {c : CivilTime} (h : c.Valid) :
    daysBeforeMonth c.year c.month + c.day ≤ daysBeforeMonth c.year (c.month + 1) := by
  rw [daysBeforeMonth_succ c.year h.month.1]
  have := h.day
  omega

theorem Valid.dayOfYear {c : CivilTime} (h : c.Valid) :
    1 ≤ daysBeforeMonth c.year c.month + c.day ∧
      daysBeforeMonth c.year c.month + c.day ≤ daysInYear c.year := by
  have hmonth := h.month
  have hfirst := daysBeforeMonth_mono c.year (Int.le_refl 1) hmonth.1
  have hlast := daysBeforeMonth_mono c.year (m := c.month + 1) (n := 13) (by omega) (by omega)
  rw [daysBeforeMonth_one] at hfirst
  rw [daysBeforeMonth_thirteen] at hlast
  have := h.dayOfMonth
  have := h.day
  omega

theorem days_lt_of_year {c e : CivilTime} (hc : c.Valid) (he : e.Valid) (h : c.year < e.year) :
    c.days < e.days := by
  have hyear := daysBeforeYear_mono (y := c.year + 1) (z := e.year) (by omega)
  rw [daysBeforeYear_succ] at hyear
  have := hc.dayOfYear
  have := he.dayOfYear
  unfold days daysFromCivil
  omega

theorem days_lt_of_month {c e : CivilTime} (hc : c.Valid) (he : e.Valid) (hy : c.year = e.year)
    (h : c.month < e.month) : c.days < e.days := by
  have hmonth := hc.month
  have hmono := daysBeforeMonth_mono c.year (m := c.month + 1) (n := e.month) (by omega) (by omega)
  have := hc.dayOfMonth
  have := he.day
  unfold days daysFromCivil
  rw [← hy]
  omega

/-- an earlier date and time of day is an earlier instant -/
theorem millis_lt {c e : CivilTime} (hc : c.Valid) (he : e.Valid) (h : c.fields < e.fields) :
    c.millis < e.millis := by
  have hcd := hc.secondOfDay
  have hed := he.secondOfDay
  have hcm := hc.milli
  have hem := he.milli
  have hdays (h : c.days < e.days) : c.millis < e.millis := by
    unfold millis seconds
    omega
  simp only [fields, List.cons_lt_cons_iff, List.lt_irrefl, and_false, or_false] at h
  obtain hy | ⟨hy, hm | ⟨hm, hd | ⟨hd, h⟩⟩⟩ := h
  · exact hdays (days_lt_of_year hc he hy)
  · exact hdays (days_lt_of_month hc he hy hm)
  · refine hdays ?_
    unfold days daysFromCivil
    rw [hy, hm]
    omega
  -- the same day
  · have hday : c.days = e.days := by
      unfold days
      rw [hy, hm, hd]
    have hcf := hc.minute
    have hef := he.minute
    have hcs := hc.second
    have hes := he.second
    unfold millis seconds secondOfDay
    rw [hday]
    omega

theorem fields_lt {c e : CivilTime} (hc : c.Valid) (he : e.Valid) (h : c.millis < e.millis) :
    c.fields < e.fields := by
  obtain hlt | heq | hgt := lt_trichotomy c.fields e.fields
  · exact hlt
  · have hsame : c.millis = e.millis := by
      obtain ⟨⟩ := c
      obtain ⟨⟩ := e
      simp only [fields, List.cons.injEq, and_true] at heq
      obtain ⟨rfl, rfl, rfl, rfl, rfl, rfl, rfl⟩ := heq
      rfl
    omega
  · have := millis_lt he hc hgt
    omega

end CivilTime

/-! ## cycles of 400 years -/

/-- a day of a cycle of 400 years: the century, the four years in it, the year in these, and the
day of that year.  The last day of a century is there in the last one only, the last day of four
years in all but the last of a century. -/
theorem cycle (doe : Int) (h0 : 0 ≤ doe) (h1 : doe < 146097) :
    ∃ c k j doy : Int, doe = 36524 * c + 1461 * k + 365 * j + doy ∧
      (0 ≤ c ∧ c ≤ 3) ∧ (0 ≤ k ∧ k ≤ 24) ∧ (0 ≤ j ∧ j ≤ 3) ∧ (0 ≤ doy ∧ doy ≤ 365) ∧
      (doy = 365 → j = 3 ∧ (k = 24 → c = 3)) := by
  obtain ⟨c, hc⟩ : ∃ c, c = min (doe / 36524) 3 := ⟨_, rfl⟩
  obtain ⟨k, hk⟩ : ∃ k, k = (doe - 36524 * c) / 1461 := ⟨_, rfl⟩
  obtain ⟨j, hj⟩ : ∃ j, j = min ((doe - 36524 * c - 1461 * k) / 365) 3 := ⟨_, rfl⟩
  refine ⟨c, k, j, doe - 36524 * c - 1461 * k - 365 * j, by ring, ?_, ?_, ?_, ?_, ?_⟩ <;> omega

end Calendar
