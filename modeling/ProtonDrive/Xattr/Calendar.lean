import ProtonDrive.Lib.Calendar
import ProtonDrive.Lib.Checked
import ProtonDrive.Core.Xattr

/-!
# The time in the extended attributes is the calendar's

* `civilTimeOf`            the fields that `systemTimeToIso8601` prints;
* `yearOfEra_cycle`        its quotients by 1460, 36524 and 146096 find the year of a cycle;
* `civilTimeOf_valid`, `civilTimeOf_days`   the date is one of the calendar, and the right one;
* `civilTimeChecked`       the same computation in `i64`, `none` where a step overflows;
* `systemTimeToIso8601_calendar`   what is printed.
-/

set_option linter.unusedVariables false

namespace ProtonDrive
open Calendar

/-! ## the fields of an instant -/

/-- the year in an era, `doe` days after its 1 March -/
def yearOfEra (doe : Int) : Int :=
  (doe - doe.tdiv 1460 + doe.tdiv 36524 - doe.tdiv 146096).tdiv 365

/-- year, month and day, `doy` days after 1 March of `yearCivil` -/
def monthAndDay (yearCivil doy : Int) : Int × Int × Int :=
  let mp := (5 * doy + 2).tdiv 153
  let day := doy - (153 * mp + 2).tdiv 5 + 1
  let month := if mp < 10 then mp + 3 else mp - 9
  let year := if month ≤ 2 then yearCivil + 1 else yearCivil
  (year, month, day)

/-- `civil_from_days`: days since epoch → (year, month, day) -/
def civilFromDays (days : Int) : Int × Int × Int :=
  let z := days + 719468
  let era := (if z ≥ 0 then z else z - 146096).tdiv 146097
  let doe := z - era * 146097
  let yoe := yearOfEra doe
  let yearCivil := yoe + era * 400
  let doy := doe - (365 * yoe + yoe.tdiv 4 - yoe.tdiv 100)
  monthAndDay yearCivil doy

def civilTimeOf (t : SystemTime) : CivilTime :=
  let secs := t / 1000000000
  let days := secs / 86400
  let secsOfDay := secs % 86400
  let (year, month, day) := civilFromDays days
  { year, month, day
    hour := secsOfDay.tdiv 3600
    minute := (secsOfDay.tmod 3600).tdiv 60
    second := secsOfDay.tmod 60
    milli := t % 1000000000 / 1000000 }

/-- `{year:04}-{month:02}-{day:02}T{hour:02}:{minute:02}:{second:02}.{millis:03}Z` -/
def iso8601 (c : CivilTime) : String :=
  padded 4 c.year ++ "-" ++ padded 2 c.month ++ "-" ++ padded 2 c.day ++ "T" ++ padded 2 c.hour ++
    ":" ++ padded 2 c.minute ++ ":" ++ padded 2 c.second ++ "." ++ padded 3 c.milli ++ "Z"

theorem systemTimeToIso8601_none {t : SystemTime} (h : t < 0) : systemTimeToIso8601 t = none :=
  if_pos h

theorem systemTimeToIso8601_some {t : SystemTime} (h : 0 ≤ t) :
    systemTimeToIso8601 t = some (iso8601 (civilTimeOf t)) :=
  if_neg (Int.not_lt.mpr h)

/-! ## the year -/

section
variable {doe c k j doy : Int}

/-- the year of a day of a cycle -/
theorem yearOfEra_cycle (hdoe : doe = 36524 * c + 1461 * k + 365 * j + doy)
    (hc : 0 ≤ c ∧ c ≤ 3) (hk : 0 ≤ k ∧ k ≤ 24) (hj : 0 ≤ j ∧ j ≤ 3) (hdoy : 0 ≤ doy ∧ doy ≤ 365)
    (hleap : doy = 365 → j = 3 ∧ (k = 24 → c = 3)) : yearOfEra doe = 100 * c + 4 * k + j := by
  have h0 : 0 ≤ doe := by omega
  unfold yearOfEra
  rw [Int.tdiv_eq_ediv_of_nonneg h0, Int.tdiv_eq_ediv_of_nonneg h0, Int.tdiv_eq_ediv_of_nonneg h0]
  obtain hlast | hlast | hlast :
      (doy = 365 ∧ k = 24) ∨ (doy = 365 ∧ k ≤ 23) ∨ doy ≤ 364 := by omega
  -- the last day of the cycle
  · obtain ⟨hday, hfours⟩ := hlast
    obtain ⟨hj3, hk24⟩ := hleap hday
    have hc3 := hk24 hfours
    subst hday hfours hj3 hc3 hdoe
    rfl
  -- the last day of four years is one too many for the quotient by 1460
  · obtain ⟨hday, hfours⟩ := hlast
    obtain ⟨hj3, -⟩ := hleap hday
    have hfour : doe / 1460 = 25 * c + k + 1 := by omega
    have hcentury : doe / 36524 = c := by omega
    have hcycle : doe / 146096 = 0 := by omega
    rw [hfour, hcentury, hcycle, Int.tdiv_eq_ediv_of_nonneg (by omega)]
    omega
  -- any other day, late in the fourth year or not
  · have hcentury : doe / 36524 = c := by omega
    have hcycle : doe / 146096 = 0 := by omega
    obtain ⟨hfour, hlate⟩ | hfour :
        (doe / 1460 = 25 * c + k + 1 ∧ 1 ≤ doy) ∨ doe / 1460 = 25 * c + k := by omega
    · rw [hfour, hcentury, hcycle, Int.tdiv_eq_ediv_of_nonneg (by omega)]
      omega
    · rw [hfour, hcentury, hcycle, Int.tdiv_eq_ediv_of_nonneg (by omega)]
      omega

/-- what is left is the day of the year -/
theorem dayOfYear_cycle (hdoe : doe = 36524 * c + 1461 * k + 365 * j + doy)
    (hc : 0 ≤ c ∧ c ≤ 3) (hk : 0 ≤ k ∧ k ≤ 24) (hj : 0 ≤ j ∧ j ≤ 3) (hdoy : 0 ≤ doy ∧ doy ≤ 365)
    (hleap : doy = 365 → j = 3 ∧ (k = 24 → c = 3)) :
    doe - (365 * yearOfEra doe + (yearOfEra doe).tdiv 4 - (yearOfEra doe).tdiv 100) = doy := by
  rw [yearOfEra_cycle hdoe hc hk hj hdoy hleap, Int.tdiv_eq_ediv_of_nonneg (by omega),
    Int.tdiv_eq_ediv_of_nonneg (by omega)]
  omega

end

/-- the days up to 1 March of a year of an era -/
theorem daysBeforeYear_cycle (era c k j : Int) (hc : 0 ≤ c ∧ c ≤ 3) (hk : 0 ≤ k ∧ k ≤ 24)
    (hj : 0 ≤ j ∧ j ≤ 3) : daysBeforeYear (100 * c + 4 * k + j + era * 400 + 1) =
      146097 * era + 36524 * c + 1461 * k + 365 * j := by
  unfold daysBeforeYear
  omega

/-- the year that a day 365 ends in is a leap year -/
theorem isLeap_cycle (era c k : Int) (hk : 0 ≤ k ∧ k ≤ 24) (h : k = 24 → c = 3) :
    isLeap (100 * c + 4 * k + 3 + era * 400 + 1) = true := by
  simp only [isLeap, Bool.and_eq_true, Bool.or_eq_true, decide_eq_true_eq, bne_iff_ne]
  omega

/-! ## the month and the day -/

/-- the days from 1 March to the first day of a month -/
theorem daysBeforeMonth_march (y mp : Int) (h : 0 ≤ mp ∧ mp ≤ 9) :
    daysBeforeMonth y (mp + 3) = daysInYear y - 306 + (153 * mp + 2) / 5 := by
  obtain ⟨h0, h9⟩ := h
  have hmarch : daysBeforeMonth y 3 = daysInYear y - 306 := by
    have hjanuary : daysInMonth y 1 = 31 := rfl
    have hyear : daysInYear y = 337 + daysInMonth y 2 := by
      show (if isLeap y then 366 else 365) = 337 + if isLeap y then 29 else 28
      split <;> rfl
    rw [show (3 : Int) = 1 + 1 + 1 from rfl, daysBeforeMonth_succ y (by norm_num),
      daysBeforeMonth_succ y (by norm_num), daysBeforeMonth_one, hjanuary, hyear]
    show 0 + 31 + daysInMonth y 2 = _
    omega
  obtain ⟨n, rfl⟩ := Int.eq_ofNat_of_zero_le h0
  induction n with
  | zero =>
    rw [Nat.cast_zero, zero_add, hmarch]
    omega
  | succ n ih =>
    -- the lengths from March on: 31, 30, 31, 30, 31, and again
    have hdays : daysInMonth y (n + 3) = (153 * (n + 1) + 2) / 5 - (153 * n + 2) / 5 := by
      have hn : n ≤ 8 := by omega
      interval_cases n <;> rfl
    rw [Nat.cast_succ, show (n : Int) + 1 + 3 = n + 3 + 1 by ring,
      daysBeforeMonth_succ y (by omega), ih (by omega) (by omega), hdays]
    ring

section
variable {year doy : Int}

theorem monthAndDay_eq (h : 0 ≤ doy ∧ doy ≤ 365) : monthAndDay year doy =
    let mp := (5 * doy + 2) / 153
    let day := doy - (153 * mp + 2) / 5 + 1
    if mp ≤ 9 then (year, mp + 3, day) else (year + 1, mp - 9, day) := by
  obtain ⟨mp, hmp⟩ : ∃ mp, mp = (5 * doy + 2) / 153 := ⟨_, rfl⟩
  have hmp12 : (5 * doy + 2).tdiv 153 = mp := by rw [hmp, Int.tdiv_eq_ediv_of_nonneg (by omega)]
  have hday : (153 * mp + 2).tdiv 5 = (153 * mp + 2) / 5 := Int.tdiv_eq_ediv_of_nonneg (by omega)
  simp only [monthAndDay, hmp12, ← hmp, hday]
  obtain hspring | hwinter : mp ≤ 9 ∨ 10 ≤ mp := by omega
  · rw [if_pos hspring, if_pos (show mp < 10 by omega), if_neg (show ¬ mp + 3 ≤ 2 by omega)]
  · rw [if_neg (show ¬ mp ≤ 9 by omega), if_neg (show ¬ mp < 10 by omega),
      if_pos (show mp - 9 ≤ 2 by omega)]

/-- the date that is `doy` days after 1 March of a year -/
theorem monthAndDay_date (hdoy : 0 ≤ doy ∧ doy ≤ 365)
    (hleap : doy = 365 → isLeap (year + 1) = true) :
    IsDate (monthAndDay year doy).1 (monthAndDay year doy).2.1 (monthAndDay year doy).2.2
      (daysBeforeYear (year + 1) - 306 + doy - daysBeforeYear 1970) := by
  obtain ⟨mp, hmp⟩ : ∃ mp, mp = (5 * doy + 2) / 153 := ⟨_, rfl⟩
  have hyear := daysBeforeYear_succ year
  rw [monthAndDay_eq hdoy, ← hmp]
  obtain hspring | hwinter : mp ≤ 9 ∨ 10 ≤ mp := by omega
  · rw [if_pos hspring]
    have hbefore := daysBeforeMonth_march year mp (by omega)
    have hlength : daysInMonth year (mp + 3) =
        (153 * (mp + 1) + 2) / 5 - (153 * mp + 2) / 5 := by
      have hmp0 : 0 ≤ mp := by omega
      clear hmp
      interval_cases mp <;> rfl
    refine ⟨⟨?_, ?_⟩, ⟨?_, ?_⟩, ?_⟩
    all_goals dsimp only [daysFromCivil]; omega
  · rw [if_neg (by omega)]
    obtain rfl | rfl : mp = 10 ∨ mp = 11 := by omega
    · have hjanuary : daysInMonth (year + 1) (10 - 9) = 31 := rfl
      have hbefore : daysBeforeMonth (year + 1) (10 - 9) = 0 := rfl
      refine ⟨⟨?_, ?_⟩, ⟨?_, ?_⟩, ?_⟩
      all_goals dsimp only [daysFromCivil]; omega
    · have hfebruary : 28 ≤ daysInMonth (year + 1) (11 - 9) := daysInMonth_pos _ _
      have hbefore : daysBeforeMonth (year + 1) (11 - 9) = 31 := rfl
      have hlast : doy = 365 → daysInMonth (year + 1) (11 - 9) = 29 := fun h365 =>
        if_pos (hleap h365)
      refine ⟨⟨?_, ?_⟩, ⟨?_, ?_⟩, ?_⟩
      all_goals dsimp only [daysFromCivil]; omega

end

/-! ## the date and the time of day -/

section
-- the instant as the number it is, so that `omega` sees its order
variable {t : Int}

theorem civilFromDays_eq {days z era doe : Int} (h : 0 ≤ days) (hz : z = days + 719468)
    (hera : era = z / 146097) (hdoe : doe = z - era * 146097) :
    civilFromDays days = monthAndDay (yearOfEra doe + era * 400)
      (doe - (365 * yearOfEra doe + (yearOfEra doe).tdiv 4 - (yearOfEra doe).tdiv 100)) := by
  have hquot : (if z ≥ 0 then z else z - 146096).tdiv 146097 = era := by
    rw [hera, if_pos (by omega), Int.tdiv_eq_ediv_of_nonneg (by omega)]
  simp only [civilFromDays, ← hz, hquot, ← hdoe]

/-- the date is one of the calendar, as many days after the epoch as the instant is -/
theorem civilFromDays_date (days : Int) (h : 0 ≤ days) :
    IsDate (civilFromDays days).1 (civilFromDays days).2.1 (civilFromDays days).2.2 days := by
  obtain ⟨z, hz⟩ : ∃ z, z = days + 719468 := ⟨_, rfl⟩
  obtain ⟨era, hera⟩ : ∃ era, era = z / 146097 := ⟨_, rfl⟩
  obtain ⟨c, k, j, doy, hcycle, hc, hk, hj, hdoy, hlast⟩ :=
    cycle (z - era * 146097) (by omega) (by omega)
  have hyoe := yearOfEra_cycle hcycle hc hk hj hdoy hlast
  have hleft := dayOfYear_cycle hcycle hc hk hj hdoy hlast
  have hdate : civilFromDays days = monthAndDay (100 * c + 4 * k + j + era * 400) doy := by
    rw [civilFromDays_eq h hz hera rfl, hleft, hyoe]
  have hleap : doy = 365 → isLeap (100 * c + 4 * k + j + era * 400 + 1) = true := by
    intro h365
    obtain ⟨rfl, hk24⟩ := hlast h365
    exact isLeap_cycle era c k hk hk24
  have hspec := monthAndDay_date hdoy hleap
  have hepoch : daysBeforeYear 1970 = 719162 := rfl
  rw [daysBeforeYear_cycle era c k j hc hk hj, hepoch] at hspec
  have hsame : 146097 * era + 36524 * c + 1461 * k + 365 * j - 306 + doy - 719162 = days := by
    omega
  rw [hsame] at hspec
  rw [hdate]
  exact hspec

theorem civilTimeOf_valid (h : 0 ≤ t) : (civilTimeOf t).Valid := by
  have hdate := civilFromDays_date (t / 1000000000 / 86400) (by omega)
  have hday : 0 ≤ t / 1000000000 % 86400 := by omega
  refine ⟨hdate.month, hdate.day, ?_, ?_, ?_, ?_⟩
  · show 0 ≤ (t / 1000000000 % 86400).tdiv 3600 ∧ (t / 1000000000 % 86400).tdiv 3600 < 24
    rw [Int.tdiv_eq_ediv_of_nonneg hday]
    omega
  · show 0 ≤ ((t / 1000000000 % 86400).tmod 3600).tdiv 60 ∧
      ((t / 1000000000 % 86400).tmod 3600).tdiv 60 < 60
    rw [Int.tmod_eq_emod_of_nonneg hday, Int.tdiv_eq_ediv_of_nonneg (by omega)]
    omega
  · show 0 ≤ (t / 1000000000 % 86400).tmod 60 ∧ (t / 1000000000 % 86400).tmod 60 < 60
    rw [Int.tmod_eq_emod_of_nonneg hday]
    omega
  · show 0 ≤ t % 1000000000 / 1000000 ∧ t % 1000000000 / 1000000 < 1000
    omega

/-- the date and the time of day are those of the instant -/
theorem civilTimeOf_seconds (h : 0 ≤ t) : (civilTimeOf t).seconds = t / 1000000000 := by
  have hdays : (civilTimeOf t).days = t / 1000000000 / 86400 :=
    (civilFromDays_date (t / 1000000000 / 86400) (by omega)).days
  have hday : 0 ≤ t / 1000000000 % 86400 := by omega
  have htime : (civilTimeOf t).secondOfDay = t / 1000000000 % 86400 := by
    show 3600 * (t / 1000000000 % 86400).tdiv 3600 +
      60 * ((t / 1000000000 % 86400).tmod 3600).tdiv 60 + (t / 1000000000 % 86400).tmod 60 = _
    rw [Int.tmod_eq_emod_of_nonneg hday, Int.tmod_eq_emod_of_nonneg hday,
      Int.tdiv_eq_ediv_of_nonneg hday, Int.tdiv_eq_ediv_of_nonneg (by omega)]
    omega
  rw [CivilTime.seconds, hdays, htime]
  omega

theorem civilTimeOf_millis (h : 0 ≤ t) : (civilTimeOf t).millis = t / 1000000 := by
  rw [CivilTime.millis, civilTimeOf_seconds h]
  show t / 1000000000 * 1000 + t % 1000000000 / 1000000 = _
  omega

/-- a later millisecond has greater fields -/
theorem civilTimeOf_lt {u : Int} (h : 0 ≤ t) (hlt : t / 1000000 < u / 1000000) :
    (civilTimeOf t).fields < (civilTimeOf u).fields := by
  have hu : 0 ≤ u := by omega
  refine CivilTime.fields_lt (civilTimeOf_valid h) (civilTimeOf_valid hu) ?_
  rw [civilTimeOf_millis h, civilTimeOf_millis hu]
  exact hlt

end

/-! ## the computation in `i64` -/

/-- `dur.as_secs() as i64` -/
def secondsAsI64 (t : SystemTime) : Int := (t / 1000000000).bmod (2 ^ 64)

def yearOfEraChecked (doe : Int) : Option Int := do
  Checked.div (← Checked.sub (← Checked.add (← Checked.sub doe (← Checked.div doe 1460))
    (← Checked.div doe 36524)) (← Checked.div doe 146096)) 365

def monthAndDayChecked (yearCivil doy : Int) : Option (Int × Int × Int) := do
  let mp ← Checked.div (← Checked.add (← Checked.mul 5 doy) 2) 153
  let day ← Checked.add (← Checked.sub doy
    (← Checked.div (← Checked.add (← Checked.mul 153 mp) 2) 5)) 1
  let month ← (if mp < 10 then Checked.add mp 3 else Checked.sub mp 9)
  let year ← (if month ≤ 2 then Checked.add yearCivil 1 else some yearCivil)
  return (year, month, day)

def civilFromDaysChecked (days : Int) : Option (Int × Int × Int) := do
  let z ← Checked.add days 719468
  let start ← (if z ≥ 0 then some z else Checked.sub z 146096)
  let era ← Checked.div start 146097
  let doe ← Checked.sub z (← Checked.mul era 146097)
  let yoe ← yearOfEraChecked doe
  let yearCivil ← Checked.add yoe (← Checked.mul era 400)
  let doy ← Checked.sub doe (← Checked.sub (← Checked.add (← Checked.mul 365 yoe)
    (← Checked.div yoe 4)) (← Checked.div yoe 100))
  monthAndDayChecked yearCivil doy

def civilTimeChecked (t : SystemTime) : Option CivilTime := do
  let secs := secondsAsI64 t
  let days ← Checked.divEuclid secs 86400
  let secsOfDay ← Checked.remEuclid secs 86400
  let hour ← Checked.div secsOfDay 3600
  let minute ← Checked.div (← Checked.rem secsOfDay 3600) 60
  let second ← Checked.rem secsOfDay 60
  let (year, month, day) ← civilFromDaysChecked days
  return { year, month, day, hour, minute, second, milli := t % 1000000000 / 1000000 }

section
open Checked

theorem yearOfEraChecked_eq {doe : Int} (h0 : 0 ≤ doe) (h1 : doe < 146097) :
    yearOfEraChecked doe = some (yearOfEra doe) := by
  have hfits : Fits doe := fits_of h0 (by omega)
  have hfour := Int.tdiv_eq_ediv_of_nonneg (b := 1460) h0
  have hcentury := Int.tdiv_eq_ediv_of_nonneg (b := 36524) h0
  have hcycle := Int.tdiv_eq_ediv_of_nonneg (b := 146096) h0
  refine bind_of (div_of (by decide) hfits h0) ?_
  refine bind_of (sub_of (fits_of (by omega) (by omega))) ?_
  refine bind_of (div_of (by decide) hfits h0) ?_
  refine bind_of (add_of (fits_of (by omega) (by omega))) ?_
  refine bind_of (div_of (by decide) hfits h0) ?_
  refine bind_of (sub_of (fits_of (by omega) (by omega))) ?_
  exact div_of (by decide) (fits_of (by omega) (by omega)) (by omega)

theorem monthAndDayChecked_eq {yearCivil doy : Int} (hyear : 0 ≤ yearCivil ∧ yearCivil < 2 ^ 62)
    (hdoy : 0 ≤ doy ∧ doy ≤ 365) :
    monthAndDayChecked yearCivil doy = some (monthAndDay yearCivil doy) := by
  have hnum : (0 : Int) ≤ 5 * doy + 2 := by omega
  have hmp := Int.tdiv_eq_ediv_of_nonneg (b := 153) hnum
  have hstart := Int.tdiv_eq_ediv_of_nonneg (a := 153 * (5 * doy + 2).tdiv 153 + 2) (b := 5)
    (by omega)
  have hmonth : (if (5 * doy + 2).tdiv 153 < 10 then add ((5 * doy + 2).tdiv 153) 3
      else sub ((5 * doy + 2).tdiv 153) 9) = some (if (5 * doy + 2).tdiv 153 < 10 then
      (5 * doy + 2).tdiv 153 + 3 else (5 * doy + 2).tdiv 153 - 9) := by
    split
    · exact add_of (fits_of (by omega) (by omega))
    · exact sub_of (fits_of (by omega) (by omega))
  have hyearOf (month : Int) : (if month ≤ 2 then add yearCivil 1 else some yearCivil) =
      some (if month ≤ 2 then yearCivil + 1 else yearCivil) := by
    split
    · exact add_of (fits_of (by omega) (by omega))
    · rfl
  refine bind_of (mul_of (fits_of (by omega) (by omega))) ?_
  refine bind_of (add_of (fits_of hnum (by omega))) ?_
  refine bind_of (div_of (by decide) (fits_of hnum (by omega)) hnum) ?_
  refine bind_of (mul_of (fits_of (by omega) (by omega))) ?_
  refine bind_of (add_of (fits_of (by omega) (by omega))) ?_
  refine bind_of (div_of (by decide) (fits_of (by omega) (by omega)) (by omega)) ?_
  refine bind_of (sub_of (fits_of (by omega) (by omega))) ?_
  refine bind_of (add_of (fits_of (by omega) (by omega))) ?_
  refine bind_of hmonth ?_
  exact bind_of (hyearOf _) rfl

theorem civilFromDaysChecked_eq {days : Int} (h0 : 0 ≤ days) (h : days < 2 ^ 62) :
    civilFromDaysChecked days = some (civilFromDays days) := by
  obtain ⟨z, hz⟩ : ∃ z, z = days + 719468 := ⟨_, rfl⟩
  have hz0 : 0 ≤ z := by omega
  obtain ⟨era, hera⟩ : ∃ era, era = z.tdiv 146097 := ⟨_, rfl⟩
  have hquot : era = z / 146097 := hera.trans (Int.tdiv_eq_ediv_of_nonneg hz0)
  obtain ⟨doe, hdoe⟩ : ∃ doe, doe = z - era * 146097 := ⟨_, rfl⟩
  have hdoe0 : 0 ≤ doe := by omega
  have hdoe1 : doe < 146097 := by omega
  obtain ⟨c, k, j, doy, hcycle, hc, hk, hj, hdoy, hlast⟩ := cycle doe hdoe0 hdoe1
  have hyoe := yearOfEra_cycle hcycle hc hk hj hdoy hlast
  have hleft := dayOfYear_cycle hcycle hc hk hj hdoy hlast
  have hyoe0 : 0 ≤ yearOfEra doe := by omega
  have hfits : Fits (yearOfEra doe) := fits_of hyoe0 (by omega)
  have hfour := Int.tdiv_eq_ediv_of_nonneg (b := 4) hyoe0
  have hcentury := Int.tdiv_eq_ediv_of_nonneg (b := 100) hyoe0
  have hdate : civilFromDays days = monthAndDay (yearOfEra doe + era * 400) doy := by
    rw [civilFromDays_eq h0 hz hquot hdoe, hleft]
  rw [hdate]
  refine bind_of (a := z) (hz ▸ add_of (fits_of (by omega) (by omega))) ?_
  refine bind_of (if_pos hz0) ?_
  refine bind_of (a := era) (hera ▸ div_of (by decide) (fits_of hz0 (by omega)) hz0) ?_
  refine bind_of (mul_of (fits_of (by omega) (by omega))) ?_
  refine bind_of (a := doe) (hdoe ▸ sub_of (fits_of (by omega) (by omega))) ?_
  refine bind_of (yearOfEraChecked_eq hdoe0 hdoe1) ?_
  refine bind_of (mul_of (fits_of (by omega) (by omega))) ?_
  refine bind_of (add_of (fits_of (by omega) (by omega))) ?_
  refine bind_of (mul_of (fits_of (by omega) (by omega))) ?_
  refine bind_of (div_of (by decide) hfits hyoe0) ?_
  refine bind_of (add_of (fits_of (by omega) (by omega))) ?_
  refine bind_of (div_of (by decide) hfits hyoe0) ?_
  refine bind_of (sub_of (fits_of (by omega) (by omega))) ?_
  refine bind_of (a := doy) (hleft ▸ sub_of (fits_of (by omega) (by omega))) ?_
  exact monthAndDayChecked_eq ⟨by omega, by omega⟩ hdoy

/-- no step overflows for an instant whose seconds are an `i64` -/
theorem civilTimeChecked_eq {t : Int} (h0 : 0 ≤ t) (h : t < 2 ^ 63 * 1000000000) :
    civilTimeChecked t = some (civilTimeOf t) := by
  obtain ⟨secs, hsecs⟩ : ∃ secs, secs = t / 1000000000 := ⟨_, rfl⟩
  have hcast : secondsAsI64 t = secs := by
    rw [hsecs]
    exact Int.bmod_eq_of_le (by omega) (by omega)
  have hsecs0 : 0 ≤ secs := by omega
  have hfits : Fits secs := fits_of hsecs0 (by omega)
  have hday0 : 0 ≤ secs % 86400 := by omega
  have hdayfits : Fits (secs % 86400) := fits_of hday0 (by omega)
  have hminutes := Int.tmod_eq_emod_of_nonneg (b := 3600) hday0
  unfold civilTimeChecked
  simp only [hcast]
  refine bind_of (divEuclid_of (by decide) hfits hsecs0) ?_
  refine bind_of (remEuclid_of (by decide) hfits hsecs0) ?_
  refine bind_of (div_of (by decide) hdayfits hday0) ?_
  refine bind_of (rem_of (by decide) hdayfits hday0) ?_
  refine bind_of (div_of (by decide) (fits_of (by omega) (by omega)) (by omega)) ?_
  refine bind_of (rem_of (by decide) hdayfits hday0) ?_
  refine bind_of (civilFromDaysChecked_eq (by omega) (by omega)) ?_
  rw [hsecs]
  rfl

end

/-! ## the text -/

/-- the text is the calendar's date and time of day of the instant -/
theorem systemTimeToIso8601_calendar (t u : SystemTime) :
    (t < 0 → systemTimeToIso8601 t = none) ∧
      (0 ≤ t →
        systemTimeToIso8601 t = some (iso8601 (civilTimeOf t)) ∧ (civilTimeOf t).Valid ∧
        (civilTimeOf t).seconds = t / 1000000000 ∧
        (civilTimeOf t).milli = t % 1000000000 / 1000000 ∧
        -- a `SystemTime` keeps its seconds in an `i64`
        (t < 2 ^ 63 * 1000000000 → civilTimeChecked t = some (civilTimeOf t)) ∧
        (t / 1000000 < u / 1000000 → (civilTimeOf t).fields < (civilTimeOf u).fields)) := by
  refine ⟨systemTimeToIso8601_none, fun h => ?_⟩
  exact ⟨systemTimeToIso8601_some h, civilTimeOf_valid h, civilTimeOf_seconds h, rfl,
    civilTimeChecked_eq h, civilTimeOf_lt h⟩

theorem systemTimeToIso8601_leapDay :
    systemTimeToIso8601 (-1) = none ∧
      systemTimeToIso8601 951782400123456789 = some "2000-02-29T00:00:00.123Z" ∧
      (civilTimeOf 951782400123456789).Valid ∧
      civilTimeChecked 951782400123456789 = some (civilTimeOf 951782400123456789) ∧
      (civilTimeOf 951782400123456789).fields < (civilTimeOf 951868800000000000).fields := by
  obtain ⟨hbefore, -⟩ := systemTimeToIso8601_calendar (-1) 0
  obtain ⟨-, hafter⟩ := systemTimeToIso8601_calendar 951782400123456789 951868800000000000
  obtain ⟨htext, hvalid, -, -, hchecked, hlt⟩ := hafter (by decide)
  refine ⟨hbefore (by decide), ?_, hvalid, hchecked (by decide), hlt (by decide)⟩
  rw [htext]
  decide
end ProtonDrive
