import Mathlib.Tactic.IntervalCases

/-!
# Calendar time in the C runtime

`crt_time_to_tm` and `crt_tm_to_time` of `crt.c`. Seconds and days are values of `long`, which
the calendar of an `int` year does not exhaust; an overflow of the year itself and a month
outside the table have no result.
-/

namespace RosKernel.Calendar

/-- The fields of `tm` that `gmtime` fills. -/
structure Tm where
  sec : ℤ
  min : ℤ
  hour : ℤ
  mday : ℤ
  mon : ℤ
  year : ℤ
  wday : ℤ
  yday : ℤ

def monthLengths : ℤ → ℤ
  | 1 => 28
  | 3 | 5 | 8 | 10 => 30
  | _ => 31

def isLeap (year : ℤ) : Bool :=
  (year.tmod 4 = 0 && year.tmod 100 ≠ 0) || year.tmod 400 = 0

def yearLength (year : ℤ) : ℤ := if isLeap year then 366 else 365

def monthLength (year month : ℤ) : ℤ :=
  if month = 1 && isLeap year then 29 else monthLengths month

/-- The month length in `crt_tm_to_time`, where the test for February does not reach the last
disjunct. -/
def countedMonthLength (year month : ℤ) : ℤ :=
  if (month = 1 && (year.tmod 4 = 0 && year.tmod 100 ≠ 0)) || year.tmod 400 = 0 then 29
  else monthLengths month

/-- Years from 1970 on that an `int` holds. -/
def yearRounds : ℕ := 2 ^ 31 - 1970

/-- The loops of `crt_time_to_tm` over years and months: the period a day falls in and the days
left in it. A year has 365 days at least, so that the test of the `while` loop adds nothing. -/
def walk (length : ℤ → ℤ) : (rounds : ℕ) → (period days : ℤ) → Option (ℤ × ℤ)
  | 0, _, _ => none
  | rounds + 1, period, days =>
    if days < length period then some (period, days)
    else walk length rounds (period + 1) (days - length period)

/-- `gmtime`, by `crt_time_to_tm`. -/
def gmtime (seconds : ℤ) : Option Tm :=
  let back := seconds.tmod 86400 < 0
  let days := if back then seconds.tdiv 86400 - 1 else seconds.tdiv 86400
  let remainder := if back then seconds.tmod 86400 + 86400 else seconds.tmod 86400
  let weekday := (days + 4).tmod 7
  (walk yearLength yearRounds 1970 days).map fun (year, yday) =>
    let month := (walk (monthLength year) 12 0 yday).getD (0, 0)
    { sec := (remainder.tmod 3600).tmod 60
      min := (remainder.tmod 3600).tdiv 60
      hour := remainder.tdiv 3600
      mday := month.2 + 1
      mon := month.1
      year := year - 1900
      wday := if weekday < 0 then weekday + 7 else weekday
      yday := yday }

/-- `for (k = start; ...; ++k) sum += length(k)`, for a number of rounds. -/
def sumLoop (length : ℤ → ℤ) : (rounds : ℕ) → (start sum : ℤ) → ℤ
  | 0, _, sum => sum
  | rounds + 1, start, sum => sumLoop length rounds (start + 1) (sum + length start)

/-- `mktime`, by `crt_tm_to_time`. -/
def mktime (value : Tm) : Option ℤ :=
  let year := value.year + 1900
  if 2 ^ 31 ≤ year ∨ 12 < value.mon then none
  else
    let days := sumLoop yearLength (year - 1970).toNat 1970 0
    let days := sumLoop (countedMonthLength year) value.mon.toNat 0 days
    let days := days + (value.mday - 1)
    some (days * 86400 + value.hour * 3600 + value.min * 60 + value.sec)

/-! ## Days in consecutive periods -/

/-- The days of several periods from one on. -/
def span (length : ℤ → ℤ) : (start : ℤ) → (count : ℕ) → ℤ
  | _, 0 => 0
  | start, count + 1 => length start + span length (start + 1) count

section

variable {length : ℤ → ℤ} {start day left : ℤ} {before count : ℕ}

theorem sumLoop_eq (rounds : ℕ) (sum : ℤ) :
    sumLoop length rounds start sum = sum + span length start rounds := by
  induction rounds generalizing start sum with
  | zero => simp [sumLoop, span]
  | succ _ ih => rw [sumLoop, ih, span, add_assoc]

theorem span_ge {least : ℤ} (long : ∀ period, least ≤ length period) :
    least * count ≤ span length start count := by
  induction count generalizing start with
  | zero => simp [span]
  | succ _ ih =>
    have here := long start
    have later := @ih (start + 1)
    rw [span, Nat.cast_succ, mul_add]
    omega

theorem span_add (more : ℕ) : span length start (count + more) =
    span length start count + span length (start + count) more := by
  induction count generalizing start with
  | zero => simp [span]
  | succ _ ih =>
    rw [Nat.succ_add, span, span, ih, Nat.cast_succ, add_assoc, add_assoc, add_comm (1 : ℤ)]

/-- Whole periods and a day of the next one are within any later end. -/
theorem span_lt (short : ∀ period, 0 ≤ length period) (below : before < count)
    (inside : left < length (start + before)) :
    span length start before + left < span length start count := by
  obtain ⟨more, rfl⟩ := Nat.exists_eq_add_of_lt below
  have rest := @span_ge length (start + before + 1) more 0 short
  rw [Nat.add_assoc, span_add, Nat.add_comm more, Nat.add_comm 1, span]
  omega

/-- A day within several periods is a day of one of them. -/
theorem exists_span (nonneg : 0 ≤ day) (inside : day < span length start count) :
    ∃ before < count, ∃ left, day = span length start before + left ∧ 0 ≤ left ∧
      left < length (start + before) := by
  induction count generalizing start day with
  | zero => exact absurd inside (by simp [span, nonneg])
  | succ _ ih =>
    rw [span] at inside
    by_cases first : day < length start
    · exact ⟨0, by omega, day, by simp [span], nonneg, by simpa using first⟩
    · obtain ⟨before, _, left, _, _⟩ := @ih (start + 1) (day - length start) (by omega) (by omega)
      refine ⟨before + 1, by omega, left, by rw [span]; omega, ?_⟩
      rwa [Nat.cast_succ, add_comm (before : ℤ), ← add_assoc]

/-- The walk stops in the period of the day. -/
theorem walk_eq (short : ∀ period, 0 ≤ length period) (below : before < count) (nonneg : 0 ≤ left)
    (inside : left < length (start + before)) :
    walk length count start (span length start before + left) = some (start + before, left) := by
  induction before generalizing start count with
  | zero =>
    obtain ⟨count, rfl⟩ := Nat.exists_eq_succ_of_ne_zero (by omega : count ≠ 0)
    simp only [Nat.cast_zero, add_zero] at inside ⊢
    simp [walk, span, inside]
  | succ before ih =>
    obtain ⟨count, rfl⟩ := Nat.exists_eq_succ_of_ne_zero (by omega : count ≠ 0)
    have later := @span_ge length (start + 1) before 0 short
    have next : start + 1 + (before : ℤ) = start + ((before + 1 : ℕ) : ℤ) := by omega
    rw [walk, span, if_neg (by omega), add_assoc, add_sub_cancel_left,
      ih (by omega) (next ▸ inside), next]

/-- A day behind the last period ends the rounds. -/
theorem walk_none (behind : span length start count ≤ day) (short : ∀ period, 0 ≤ length period) :
    walk length count start day = none := by
  induction count generalizing start day with
  | zero => rfl
  | succ count ih =>
    have later := @span_ge length (start + 1) count 0 short
    rw [span] at behind
    rw [walk, if_neg (by omega)]
    exact ih (by omega)

end

theorem yearLength_ge (year : ℤ) : 365 ≤ yearLength year := by
  unfold yearLength
  split <;> decide

theorem monthLength_ge (year month : ℤ) : 0 ≤ monthLength year month := by
  unfold monthLength monthLengths
  split
  · decide
  · split <;> decide

theorem span_monthLength (year : ℤ) : span (monthLength year) 0 12 = yearLength year := by
  unfold yearLength
  cases leap : isLeap year <;> simp [span, monthLength, monthLengths, leap]

theorem countedMonthLength_eq {year : ℤ} (plain : ¬400 ∣ year) :
    countedMonthLength year = monthLength year := by
  have notCentury : year.tmod 400 ≠ 0 := fun zero => plain (Int.dvd_of_tmod_eq_zero zero)
  funext month
  simp [countedMonthLength, monthLength, isLeap, notCentury]

/-- In a year that is divisible by 400 every month counts 29 days. -/
theorem span_countedMonthLength {year : ℤ} (century : 400 ∣ year) {months : ℕ}
    (bound : months < 12) (later : months ≠ 0) :
    0 ≤ span (countedMonthLength year) 0 months ∧
      span (countedMonthLength year) 0 months < span (monthLength year) 0 months ∧
      31 ≤ span (monthLength year) 0 months := by
  have zero : year.tmod 400 = 0 := Int.tmod_eq_zero_of_dvd century
  interval_cases months <;>
    simp_all [span, countedMonthLength, monthLength, monthLengths, isLeap]

/-! ## Round trips -/

/-- The day is the given one of the year so many years after 1970. -/
structure IsDay (day : ℤ) (years : ℕ) (left : ℤ) : Prop where
  eq : day = span yearLength 1970 years + left
  nonneg : 0 ≤ left
  inside : left < yearLength (1970 + years)

theorem exists_isDay {day : ℤ} (nonneg : 0 ≤ day) : ∃ years left, IsDay day years left := by
  have enough := @span_ge yearLength 1970 (day.toNat + 1) _ yearLength_ge
  obtain ⟨years, -, left, isDay, bounds⟩ :=
    @exists_span yearLength 1970 day (day.toNat + 1) nonneg (by omega)
  exact ⟨years, left, isDay, bounds.1, bounds.2⟩

section

variable {seconds left rest : ℤ} {years months : ℕ}

/-- `gmtime` on a day of a year and a month. -/
theorem gmtime_eq (nonneg : 0 ≤ seconds) (isDay : IsDay (seconds / 86400) years left)
    (fits : years < yearRounds) (bound : months < 12)
    (split : left = span (monthLength (1970 + years)) 0 months + rest) (restNonneg : 0 ≤ rest)
    (inside : rest < monthLength (1970 + years) months) :
    ∃ value, gmtime seconds = some value ∧ value.year + 1900 = 1970 + years ∧
      value.mon = months ∧ value.mday = rest + 1 ∧ value.hour = seconds % 86400 / 3600 ∧
      value.min = seconds % 86400 % 3600 / 60 ∧ value.sec = seconds % 86400 % 3600 % 60 := by
  have notBack : ¬seconds % 86400 < 0 := by omega
  have year := walk_eq (fun period => le_trans (by decide) (yearLength_ge period)) fits
    isDay.nonneg isDay.inside
  have month := @walk_eq _ 0 rest months 12 (monthLength_ge (1970 + years)) bound restNonneg
    (by rwa [zero_add])
  have inDay : 0 ≤ seconds % 86400 := by omega
  have inHour : 0 ≤ seconds % 86400 % 3600 := by omega
  rw [← split, zero_add] at month
  rw [gmtime, Int.tmod_eq_emod_of_nonneg nonneg, Int.tdiv_eq_ediv_of_nonneg nonneg]
  simp only [notBack, if_false]
  rw [isDay.eq, year, Option.map_some]
  refine ⟨_, rfl, by simp, ?_⟩
  simp only [month, Int.tdiv_eq_ediv_of_nonneg inDay, Int.tmod_eq_emod_of_nonneg inDay,
    Int.tdiv_eq_ediv_of_nonneg inHour, Int.tmod_eq_emod_of_nonneg inHour]
  exact ⟨rfl, rfl, trivial, trivial, trivial⟩

theorem gmtime_none (nonneg : 0 ≤ seconds) (isDay : IsDay (seconds / 86400) years left)
    (late : yearRounds ≤ years) : gmtime seconds = none := by
  have short : ∀ year, 0 ≤ yearLength year := fun year => le_trans (by decide) (yearLength_ge year)
  obtain ⟨more, rfl⟩ := Nat.exists_eq_add_of_le late
  have behind := @span_ge yearLength (1970 + yearRounds) more 0 short
  have start := isDay.nonneg
  have none := @walk_none yearLength 1970 (seconds / 86400) yearRounds
    (by rw [isDay.eq, span_add]; omega) short
  have notBack : ¬seconds % 86400 < 0 := by omega
  rw [gmtime, Int.tmod_eq_emod_of_nonneg nonneg, Int.tdiv_eq_ediv_of_nonneg nonneg]
  simp only [notBack, if_false, none]
  rfl

theorem mktime_eq {value : Tm} (year : value.year + 1900 = 1970 + years)
    (fits : years < yearRounds) (month : value.mon = months) (bound : months < 12) :
    mktime value = some ((span yearLength 1970 years +
      span (countedMonthLength (1970 + years)) 0 months + (value.mday - 1)) * 86400 +
      value.hour * 3600 + value.min * 60 + value.sec) := by
  unfold yearRounds at fits
  unfold mktime
  dsimp only
  rw [year, month, if_neg (by omega), sumLoop_eq, sumLoop_eq, zero_add,
    show (1970 + (years : ℤ) - 1970).toNat = years by omega, Int.toNat_natCast]

/-- The round trip from a day of a year. -/
theorem mktime_gmtime_iff (nonneg : 0 ≤ seconds) (isDay : IsDay (seconds / 86400) years left) :
    (gmtime seconds).bind mktime = some seconds ↔
      1970 + (years : ℤ) < 2 ^ 31 ∧ (400 ∣ 1970 + (years : ℤ) → left < 31) := by
  have isLeft := isDay.eq
  by_cases fits : years < yearRounds
  · obtain ⟨months, bound, _, split, restNonneg, inside⟩ := exists_span isDay.nonneg
      ((span_monthLength _).symm ▸ isDay.inside)
    rw [zero_add] at inside
    obtain ⟨_, made, year, month, day, hour, minute, second⟩ :=
      gmtime_eq nonneg isDay fits bound split restNonneg inside
    have small : 1970 + (years : ℤ) < 2 ^ 31 := by unfold yearRounds at fits; omega
    rw [made, Option.bind_some, mktime_eq year fits month bound, Option.some.injEq, day, hour,
      minute, second]
    by_cases century : 400 ∣ 1970 + (years : ℤ)
    · by_cases january : months = 0
      · subst january
        have length : monthLength (1970 + years) (0 : ℕ) = 31 := rfl
        rw [span] at split ⊢
        exact iff_of_true (by omega) ⟨small, fun _ => by omega⟩
      · obtain ⟨-, _, _⟩ := span_countedMonthLength century bound january
        exact iff_of_false (by omega) fun both => absurd (both.2 century) (by omega)
    · rw [countedMonthLength_eq century]
      exact iff_of_true (by omega) ⟨small, fun divides => absurd divides century⟩
  · rw [gmtime_none nonneg isDay (not_lt.mp fits)]
    unfold yearRounds at fits
    exact iff_of_false nofun fun _ => by omega

end

/-- The fields are in their ranges, from 1970 on. -/
structure Tm.Normal (value : Tm) : Prop where
  year : 1970 ≤ value.year + 1900
  mon : 0 ≤ value.mon ∧ value.mon < 12
  mday : 1 ≤ value.mday ∧ value.mday ≤ monthLength (value.year + 1900) value.mon
  hour : 0 ≤ value.hour ∧ value.hour < 24
  min : 0 ≤ value.min ∧ value.min < 60
  sec : 0 ≤ value.sec ∧ value.sec < 60

def Tm.SameTime (value other : Tm) : Prop :=
  other.year = value.year ∧ other.mon = value.mon ∧ other.mday = value.mday ∧
    other.hour = value.hour ∧ other.min = value.min ∧ other.sec = value.sec

theorem gmtime_mktime_iff {value : Tm} (normal : value.Normal) :
    (∃ back, (mktime value).bind gmtime = some back ∧ value.SameTime back) ↔
      value.year + 1900 < 2 ^ 31 ∧ (400 ∣ value.year + 1900 → value.mon = 0) := by
  obtain ⟨⟨years, year⟩, ⟨months, month⟩⟩ : (∃ years : ℕ, value.year + 1900 = 1970 + years) ∧
      ∃ months : ℕ, value.mon = months :=
    ⟨⟨(value.year - 70).toNat, by have := normal.year; omega⟩, value.mon.toNat,
      by have := normal.mon; omega⟩
  obtain ⟨-, months12, ⟨_, lastDay⟩, _, _, _⟩ := normal
  rw [year, month] at lastDay
  have bound : months < 12 := by omega
  by_cases fits : years < yearRounds
  · rw [mktime_eq year fits month bound, Option.bind_some, year, month]
    have whole := @span_lt _ 0 (value.mday - 1) months 12 (monthLength_ge (1970 + years)) bound
      (by rw [zero_add]; omega)
    rw [span_monthLength] at whole
    generalize time : (span yearLength 1970 years +
      span (countedMonthLength (1970 + years)) 0 months + (value.mday - 1)) * 86400 +
      value.hour * 3600 + value.min * 60 + value.sec = total
    have small : 1970 + (years : ℤ) < 2 ^ 31 := by unfold yearRounds at fits; omega
    have yearNonneg := @span_ge _ 1970 years _ yearLength_ge
    have monthNonneg := @span_ge _ 0 months 0 (monthLength_ge (1970 + years))
    by_cases shifted : 400 ∣ 1970 + (years : ℤ) ∧ months ≠ 0
    · obtain ⟨_, _, -⟩ := span_countedMonthLength shifted.1 bound shifted.2
      refine iff_of_false ?_ fun both => by have := both.2 shifted.1; omega
      rintro ⟨back, made, -, sameMonth, sameDay, -⟩
      have isDay : IsDay (total / 86400) years
          (span (countedMonthLength (1970 + years)) 0 months + (value.mday - 1)) :=
        ⟨by omega, by omega, by omega⟩
      obtain ⟨found, foundBound, _, split, restNonneg, inside⟩ := exists_span isDay.nonneg
        ((span_monthLength _).symm ▸ isDay.inside)
      rw [zero_add] at inside
      obtain ⟨_, otherMade, -, _, _, -⟩ :=
        gmtime_eq (by omega) isDay fits foundBound split restNonneg inside
      obtain rfl := Option.some.inj (made.symm.trans otherMade)
      -- the same month and day would make the two sums equal
      obtain rfl : found = months := by omega
      omega
    · have kept : span (countedMonthLength (1970 + years)) 0 months =
          span (monthLength (1970 + years)) 0 months := by
        rcases not_and_or.mp shifted with plain | january
        · rw [countedMonthLength_eq plain]
        · rw [not_not.mp january]
          rfl
      have isDay : IsDay (total / 86400) years
          (span (monthLength (1970 + years)) 0 months + (value.mday - 1)) :=
        ⟨by omega, by omega, by omega⟩
      obtain ⟨back, made, _, _, _, _, _, _⟩ :=
        gmtime_eq (by omega) isDay fits bound rfl (by omega) (by omega)
      refine iff_of_true ⟨back, made, ?_⟩ ⟨small, fun divides => ?_⟩
      · exact ⟨by omega, by omega, by omega, by omega, by omega, by omega⟩
      · have := fun later => shifted ⟨divides, later⟩
        omega
  · have none : mktime value = none := by
      unfold yearRounds at fits
      exact if_pos (.inl (by omega))
    rw [none, year]
    unfold yearRounds at fits
    exact iff_of_false nofun fun _ => by omega

/-- The conversions undo each other except in a year that is divisible by 400, after January, and
beyond the years of an `int`. -/
theorem calendar_roundTrips_iff (seconds : ℤ) (value : Tm) :
    (0 ≤ seconds → ((gmtime seconds).bind mktime = some seconds ↔
      ∀ years left, IsDay (seconds / 86400) years left →
        1970 + (years : ℤ) < 2 ^ 31 ∧ (400 ∣ 1970 + (years : ℤ) → left < 31))) ∧
    (value.Normal → ((∃ back, (mktime value).bind gmtime = some back ∧ value.SameTime back) ↔
        value.year + 1900 < 2 ^ 31 ∧ (400 ∣ value.year + 1900 → value.mon = 0))) := by
  refine ⟨fun nonneg => ⟨fun same years left isDay => ?_, fun holds => ?_⟩, gmtime_mktime_iff⟩
  · exact (mktime_gmtime_iff nonneg isDay).mp same
  · obtain ⟨years, left, isDay⟩ := @exists_isDay (seconds / 86400) (by omega)
    exact (mktime_gmtime_iff nonneg isDay).mpr (holds years left isDay)

/-- The first of February 2000, from the seconds and from the fields. -/
theorem calendar_february2000 :
    (gmtime 949363200).bind mktime = some 949190400 ∧
      ((mktime ⟨0, 0, 0, 1, 1, 100, 2, 31⟩).bind gmtime).map (fun back => (back.mon, back.mday)) =
        some (0, 30) := by
  decide +kernel

end RosKernel.Calendar
