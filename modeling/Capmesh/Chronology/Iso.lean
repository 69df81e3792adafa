import Capmesh.Chronology.Calendar
import Mathlib.Algebra.Order.Floor.Defs
import Mathlib.Data.Rat.Floor
import Mathlib.Tactic.Linarith

/-!
# Instants in ISO 8601 and their lexicographic order

A clock stamps its time as `YYYY-MM-DDThh:mm:ssZ`. An `IsoText` is an ISO 8601 spelling of
an instant: a calendar, ordinal or week date, extended or basic, alone or with a time of some
precision, a decimal fraction of its last component, and a zone. `stamp_lt_iff` says what
comparing the two as texts amounts to: the stamp comes first exactly while the clock is before
the `reading` of the spelling, which differs from the instant it denotes wherever the spelling
is not that of a stamp.
-/

namespace Chronology

/-- The year, month and day of a date. -/
def Date.chars (date : Date) : List Char :=
  digits 4 date.year ++ '-' :: (digits 2 date.month ++ '-' :: digits 2 date.day)

/-- A time of a clock, to the microsecond. -/
structure Clock where
  date : Date
  hour : Nat
  minute : Nat
  second : Nat
  micro : Nat
  year_lt : date.year < 10000
  hour_lt : hour < 24
  minute_lt : minute < 60
  second_lt : second < 60
  micro_lt : micro < 1000000

namespace Clock

/-- The seconds since midnight. -/
def secondOfDay (clock : Clock) : Nat := clock.hour * 3600 + clock.minute * 60 + clock.second

/-- The whole seconds since year zero. -/
def seconds (clock : Clock) : Nat := clock.date.number * 86400 + clock.secondOfDay

/-- The seconds since year zero. -/
def instant (clock : Clock) : ℚ := clock.seconds + clock.micro / 1000000

/-- The time of day in a stamp. -/
def timeChars (clock : Clock) : List Char :=
  digits 2 clock.hour ++ ':' :: (digits 2 clock.minute ++ ':' :: (digits 2 clock.second ++ ['Z']))

/-- The stamp of a time, to the second. -/
def stamp (clock : Clock) : List Char := clock.date.chars ++ 'T' :: clock.timeChars

end Clock

/-- How the minutes of an offset are written. -/
inductive OffsetStyle where
  | hours | compact | colon
  deriving DecidableEq, Repr

/-- An offset from UTC. -/
structure Offset where
  ahead : Bool
  hour : Nat
  minute : Nat
  style : OffsetStyle
  hour_lt : hour < 24
  minute_lt : minute < 60
  whole : style = .hours → minute = 0

/-- A zone: `Z`, or an offset. -/
inductive Zone where
  | utc
  | offset (offset : Offset)

namespace Zone

/-- The text of a zone. -/
def chars : Zone → List Char
  | utc => ['Z']
  | offset o => (if o.ahead then '+' else '-') :: (digits 2 o.hour ++ match o.style with
      | .hours => []
      | .compact => digits 2 o.minute
      | .colon => ':' :: digits 2 o.minute)

/-- The minutes a zone is ahead of UTC. -/
def minutes : Zone → Int
  | utc => 0
  | offset o => if o.ahead then o.hour * 60 + o.minute else -(o.hour * 60 + o.minute)

end Zone

/-- A decimal fraction. -/
structure Fraction where
  comma : Bool
  first : Fin 10
  rest : List (Fin 10)

namespace Fraction

/-- The text of a fraction. -/
def chars (fraction : Fraction) : List Char :=
  (if fraction.comma then ',' else '.') ::
    (fraction.first :: fraction.rest).map fun digit => Nat.digitChar digit

/-- The value of a fraction. -/
def value (fraction : Fraction) : ℚ :=
  (fraction.first :: fraction.rest).foldr (fun digit rest => ((digit : Nat) + rest) / 10) 0

end Fraction

/-- The precision of a time. -/
inductive Precision where
  | hour | minute | second
  deriving DecidableEq, Repr

/-- The seconds of a component. -/
def Precision.unit : Precision → Nat
  | .hour => 3600
  | .minute => 60
  | .second => 1

/-- A time of day in some zone; `24` is the midnight that ends the day. -/
structure TimeOfDay where
  precision : Precision
  hour : Nat
  minute : Nat
  second : Nat
  fraction : Option Fraction
  zone : Zone
  hour_le : hour ≤ 24
  minute_lt : minute < 60
  second_lt : second < 60
  coarse_hour : precision = .hour → minute = 0 ∧ second = 0
  coarse_minute : precision = .minute → second = 0
  end_of_day : hour = 24 → minute = 0 ∧ second = 0 ∧ fraction = none

namespace TimeOfDay

/-- What follows the last component. -/
def rest (time : TimeOfDay) : List Char :=
  (match time.fraction with
    | some fraction => fraction.chars
    | none => []) ++ time.zone.chars

/-- The text of a time, with colons or without. -/
def chars (extended : Bool) (time : TimeOfDay) : List Char :=
  let colon := if extended then [':'] else []
  digits 2 time.hour ++ match time.precision with
    | .hour => time.rest
    | .minute => colon ++ (digits 2 time.minute ++ time.rest)
    | .second =>
        colon ++ (digits 2 time.minute ++ (colon ++ (digits 2 time.second ++ time.rest)))

/-- The whole seconds of the written time. -/
def seconds (time : TimeOfDay) : Nat := time.hour * 3600 + time.minute * 60 + time.second

/-- Whether `Z` stands directly after the last component. -/
def isBare (time : TimeOfDay) : Bool :=
  match time.fraction, time.zone with
  | none, .utc => true
  | _, _ => false

/-- What a bare time of lower precision is read as in excess: its last component to the end. No
stamp has the hour of the midnight that ends a day. -/
def slack (time : TimeOfDay) : Nat :=
  if time.isBare && time.precision ≠ .second && time.hour ≠ 24 then time.precision.unit else 0

/-- The seconds from midnight UTC to the instant. -/
def elapsed (time : TimeOfDay) : ℚ :=
  time.seconds + time.precision.unit * (time.fraction.elim 0 (·.value)) - 60 * time.zone.minutes

end TimeOfDay

/-- The Monday of a week; the fourth of January is in the first week. -/
def weekMonday (year week : Nat) : Nat :=
  daysBeforeYear year + 4 - (daysBeforeYear year + 4 + 4) % 7 + 7 * (week - 1)

/-- A date in one of the three representations. A week belongs to the year of its Thursday. -/
inductive DateText where
  | calendar (date : Date)
  | ordinal (year day : Nat) (h : 1 ≤ day ∧ daysBeforeYear year + day ≤ daysBeforeYear (year + 1))
  | week (year week day : Nat)
      (h : 1 ≤ week ∧ weekMonday year week + 3 ≤ daysBeforeYear (year + 1) ∧ 1 ≤ day ∧ day ≤ 7)

namespace DateText

/-- The written year. -/
def year : DateText → Nat
  | calendar date => date.year
  | ordinal year _ _ => year
  | week year _ _ _ => year

/-- The number of the day. -/
def number : DateText → Nat
  | calendar date => date.number
  | ordinal year day _ => daysBeforeYear year + day
  | week year index day _ => weekMonday year index + (day - 1)

/-- The text after the year, with hyphens or without. -/
def tail (extended : Bool) : DateText → List Char
  | calendar date =>
      if extended then '-' :: (digits 2 date.month ++ '-' :: digits 2 date.day)
      else digits 2 date.month ++ digits 2 date.day
  | ordinal _ day _ => if extended then '-' :: digits 3 day else digits 3 day
  | week _ index day _ =>
      if extended then '-' :: 'W' :: (digits 2 index ++ '-' :: digits 1 day)
      else 'W' :: (digits 2 index ++ digits 1 day)

end DateText

/-- A spelling of an instant; a date alone is its midnight. -/
structure IsoText where
  extended : Bool
  date : DateText
  time : Option TimeOfDay
  year_lt : date.year < 10000

namespace IsoText

/-- The text. -/
def chars (text : IsoText) : List Char :=
  digits 4 text.date.year ++ (text.date.tail text.extended ++ match text.time with
    | some time => 'T' :: time.chars text.extended
    | none => [])

/-- The instant it denotes, in seconds since year zero. -/
def instant (text : IsoText) : ℚ :=
  text.date.number * 86400 + text.time.elim 0 (·.elapsed)

/-- The second a comparison of texts takes it for: of an extended calendar date the written time
in UTC without its fraction, and with a bare component of lower precision to its end; of an extended
ordinal date the end of the month its first two digits spell; of every other date the end of the
year. -/
def reading (text : IsoText) : Nat :=
  match text.extended, text.date with
  | true, .calendar date =>
      date.number * 86400 + text.time.elim 0 fun time => time.seconds + time.slack
  | true, .ordinal year day _ =>
      if h : day / 10 < 12 then
        (Date.firstOfMonth year (day / 10 + 1) (by omega)).number * 86400
      else (Date.firstOfMonth (year + 1) 1 (by omega)).number * 86400
  | _, date => (Date.firstOfMonth (date.year + 1) 1 (by omega)).number * 86400

end IsoText

section

variable {clock : Clock} {time : TimeOfDay} {date : Date}

namespace Clock

theorem second_of_day_lt (clock : Clock) : clock.secondOfDay < 86400 := by
  have hhour := clock.hour_lt
  have hminute := clock.minute_lt
  have hsecond := clock.second_lt
  unfold secondOfDay
  omega

theorem seconds_lt_midnight_iff : clock.seconds < date.number * 86400 ↔ clock.date.Before date := by
  rw [← Date.number_lt_iff]
  have hday := clock.second_of_day_lt
  unfold seconds
  omega

/-- A clock is before a whole second exactly when its whole seconds are. -/
theorem instant_lt_iff (clock : Clock) (second : Nat) :
    clock.instant < second ↔ clock.seconds < second := by
  have hmicro : (clock.micro : ℚ) / 1000000 < 1 := by
    rw [div_lt_one (by norm_num)]
    exact_mod_cast clock.micro_lt
  have hnonneg : (0 : ℚ) ≤ (clock.micro : ℚ) / 1000000 := by positivity
  unfold instant
  constructor
  · intro h
    have hlt : (clock.seconds : ℚ) < second := by linarith
    exact_mod_cast hlt
  · intro h
    have hle : (clock.seconds : ℚ) + 1 ≤ second := by exact_mod_cast h
    linarith

end Clock

/-- What follows the last component of a time: `Z` alone, or a character before the colon. -/
theorem TimeOfDay.rest_cases (time : TimeOfDay) :
    time.isBare = true ∧ time.rest = ['Z'] ∨
      time.isBare = false ∧ ∃ c text, time.rest = c :: text ∧ c < ':' := by
  unfold isBare rest
  cases hfraction : time.fraction with
  | some fraction =>
      refine .inr ⟨rfl, _, _, rfl, ?_⟩
      split <;> decide
  | none =>
      cases hzone : time.zone with
      | utc => exact .inl ⟨rfl, rfl⟩
      | offset offset =>
          refine .inr ⟨rfl, _, _, rfl, ?_⟩
          split <;> decide

theorem TimeOfDay.colon_lt_rest_iff (time : TimeOfDay) (text : List Char) :
    ':' :: text < time.rest ↔ time.isBare = true := by
  rcases time.rest_cases with ⟨hbare, hrest⟩ | ⟨hbare, c, tail, hrest, hc⟩
  · rw [hrest, hbare, List.cons_lt_cons_iff]
    simp only [iff_true]
    exact .inl (by decide)
  · rw [hrest, hbare, List.cons_lt_cons_iff]
    constructor
    · rintro (hlt | ⟨heq, -⟩)
      · exact absurd hlt (Char.lt_asymm hc)
      · exact absurd hc (heq ▸ Char.lt_irrefl ':')
    · intro h
      cases h

theorem TimeOfDay.not_z_lt_rest (time : TimeOfDay) : ¬ ['Z'] < time.rest := by
  rcases time.rest_cases with ⟨-, hrest⟩ | ⟨-, c, tail, hrest, hc⟩
  · rw [hrest]
    exact List.lt_irrefl _
  · have hz : c < 'Z' := Char.lt_trans hc (by decide)
    rw [hrest, List.cons_lt_cons_iff]
    rintro (hlt | ⟨heq, -⟩)
    · exact Char.lt_asymm hz hlt
    · exact Char.lt_irrefl _ (heq ▸ hz)

/-- The times of day of a stamp and of an extended spelling. -/
theorem time_chars_lt_iff (clock : Clock) (time : TimeOfDay) :
    clock.timeChars < time.chars true ↔ clock.secondOfDay < time.seconds + time.slack := by
  have hhour := clock.hour_lt
  have hminute := clock.minute_lt
  have hsecond := clock.second_lt
  have htimeHour := time.hour_le
  have htimeMinute := time.minute_lt
  have htimeSecond := time.second_lt
  unfold Clock.timeChars TimeOfDay.chars Clock.secondOfDay TimeOfDay.seconds TimeOfDay.slack
  dsimp only
  rw [digits_append_lt_iff (by omega) (by omega), if_pos rfl]
  cases hprecision : time.precision with
  | hour =>
      obtain ⟨hzeroMinute, hzeroSecond⟩ := time.coarse_hour hprecision
      dsimp only
      rw [time.colon_lt_rest_iff]
      cases time.isBare with
      | true =>
          simp only [Precision.unit]
          simp
          split <;> omega
      | false =>
          simp
          omega
  | minute =>
      have hzeroSecond := time.coarse_minute hprecision
      dsimp only
      rw [List.singleton_append, List.cons_lt_cons_iff,
        digits_append_lt_iff (by omega) (by omega), time.colon_lt_rest_iff]
      cases time.isBare with
      | true =>
          simp only [Precision.unit]
          simp
          split <;> omega
      | false =>
          simp
          omega
  | second =>
      dsimp only
      rw [List.singleton_append, List.singleton_append, List.cons_lt_cons_iff,
        digits_append_lt_iff (by omega) (by omega), List.cons_lt_cons_iff,
        digits_append_lt_iff (by omega) (by omega)]
      simp only [time.not_z_lt_rest]
      simp
      omega

theorem TimeOfDay.reading_le (time : TimeOfDay) : time.seconds + time.slack ≤ 86400 := by
  have hhour := time.hour_le
  have hminute := time.minute_lt
  have hsecond := time.second_lt
  have hend := time.end_of_day
  unfold seconds slack
  cases hprecision : time.precision with
  | hour =>
      obtain ⟨hzeroMinute, hzeroSecond⟩ := time.coarse_hour hprecision
      simp only [Precision.unit]
      split
      · simp_all
        omega
      · omega
  | minute =>
      have hzeroSecond := time.coarse_minute hprecision
      simp only [Precision.unit]
      split
      · simp_all
        omega
      · omega
  | second =>
      simp
      omega

theorem Clock.stamp_eq (clock : Clock) :
    clock.stamp = digits 4 clock.date.year ++ '-' :: (digits 2 clock.date.month ++ '-' ::
      (digits 2 clock.date.day ++ 'T' :: clock.timeChars)) := by
  simp [stamp, Date.chars]

theorem Date.month_lt (date : Date) : date.month < 10 ^ 2 := by
  have h := date.month_mem.2
  omega

theorem Date.day_lt (date : Date) : date.day < 10 ^ 2 := by
  have hday := date.day_mem.2
  have hmonth : daysInMonth (isLeap date.year) date.month ≤ 31 := by
    unfold daysInMonth
    split <;> first | omega | (split <;> omega)
  omega

theorem stamp_lt_calendar_iff (hyear : date.year < 10000) (tail : List Char) :
    clock.stamp < digits 4 date.year ++
        ('-' :: (digits 2 date.month ++ '-' :: digits 2 date.day) ++ tail) ↔
      clock.date.Before date ∨ clock.date = date ∧ 'T' :: clock.timeChars < tail := by
  have hsame : clock.date = date ↔ clock.date.year = date.year ∧
      clock.date.month = date.month ∧ clock.date.day = date.day := by
    constructor
    · rintro rfl
      exact ⟨rfl, rfl, rfl⟩
    · rintro ⟨hy, hm, hd⟩
      generalize clock.date = other at *
      cases other
      cases date
      simp_all
  rw [clock.stamp_eq, hsame]
  simp only [List.cons_append, List.append_assoc]
  rw [digits_append_lt_iff clock.year_lt hyear, List.cons_lt_cons_iff,
    digits_append_lt_iff clock.date.month_lt date.month_lt, List.cons_lt_cons_iff,
    digits_append_lt_iff clock.date.day_lt date.day_lt]
  unfold Date.Before
  simp only [true_and]
  tauto

/-- Digits come after the hyphen and before the letters. -/
theorem digit_between {digit : Nat} (h : digit < 10) :
    '-' < Nat.digitChar digit ∧ Nat.digitChar digit < 'W' := by
  have hall : ∀ digit ∈ List.range 10,
      '-' < Nat.digitChar digit ∧ Nat.digitChar digit < 'W' := by decide
  exact hall digit (List.mem_range.mpr h)

/-- A day of the year has at most three digits. -/
theorem ordinal_lt {year day : Nat}
    (h : daysBeforeYear year + day ≤ daysBeforeYear (year + 1)) : day < 1000 := by
  have hmonths : ∀ leap, daysBeforeMonth leap 12 ≤ 335 := by decide
  have hlength := hmonths (isLeap year)
  rw [Date.days_before_year_succ] at h
  omega

/-- A stamp and a text whose first character after the year comes after the hyphen, or after the
digits that follow it. -/
theorem stamp_lt_year_iff {year : Nat} (hyear : year < 10000) {text : List Char}
    (htext : ∀ month ≤ 12, ∀ rest, '-' :: (digits 2 month ++ rest) < text) :
    clock.stamp < digits 4 year ++ text ↔
      clock.seconds < (Date.firstOfMonth (year + 1) 1 (by omega)).number * 86400 := by
  have hmonth := clock.date.month_mem
  have hday := clock.date.day_mem.1
  rw [clock.stamp_eq, digits_append_lt_iff clock.year_lt hyear, Clock.seconds_lt_midnight_iff]
  simp only [Date.Before, Date.firstOfMonth]
  constructor
  · rintro (hlt | ⟨heq, -⟩) <;> omega
  · intro h
    rcases Nat.lt_or_ge clock.date.year year with hlt | hge
    · exact .inl hlt
    · exact .inr ⟨by omega, htext _ hmonth.2 _⟩

/-- A stamp and a text that begins with an extended ordinal date: its first two digits stand where
the stamp has its month, and its third digit comes after the hyphen. -/
theorem stamp_lt_ordinal_iff {year day : Nat} (hyear : year < 10000) (hday : day < 1000)
    (tail : List Char) :
    clock.stamp < digits 4 year ++ ('-' :: digits 3 day ++ tail) ↔
      clock.date.year < year ∨ clock.date.year = year ∧ clock.date.month ≤ day / 10 := by
  have hdigits : digits 3 day ++ tail =
      digits 2 (day / 10) ++ Nat.digitChar (day % 10) :: tail := by
    simp only [digits, List.cons_append, List.nil_append]
    have hhundreds : day / 10 ^ 2 = day / 10 / 10 ^ 1 := by omega
    have htens : day % 10 ^ 2 / 10 ^ 1 = day / 10 % 10 ^ 1 / 10 ^ 0 := by omega
    have hones : day % 10 ^ 2 % 10 ^ 1 / 10 ^ 0 = day % 10 := by omega
    rw [hhundreds, htens, hones]
  have hhyphen := (digit_between (Nat.mod_lt day (show 10 > 0 by decide))).1
  rw [clock.stamp_eq, digits_append_lt_iff clock.year_lt hyear, List.cons_append, hdigits,
    List.cons_lt_cons_self, digits_append_lt_iff clock.date.month_lt (by omega)]
  constructor
  · rintro (hlt | ⟨heq, hlt | ⟨hsame, -⟩⟩)
    · exact .inl hlt
    · exact .inr ⟨heq, by omega⟩
    · exact .inr ⟨heq, by omega⟩
  · rintro (hlt | ⟨heq, hle⟩)
    · exact .inl hlt
    · rcases Nat.lt_or_ge clock.date.month (day / 10) with hlt | hge
      · exact .inr ⟨heq, .inl hlt⟩
      · exact .inr ⟨heq, .inr ⟨by omega, List.cons_lt_cons_iff.mpr (.inl hhyphen)⟩⟩

/-- A stamp comes before a spelling exactly while the clock is before its reading. -/
theorem stamp_lt_iff (clock : Clock) (text : IsoText) :
    clock.stamp < text.chars ↔ clock.seconds < text.reading := by
  obtain ⟨extended, date, time, hyear⟩ := text
  have hmonth := clock.date.month_mem
  have hday := clock.date.day_mem.1
  unfold IsoText.chars IsoText.reading DateText.tail
  cases extended with
  | true =>
      cases date with
      | calendar date =>
          simp only [DateText.year, if_true] at hyear ⊢
          rw [stamp_lt_calendar_iff hyear]
          cases time with
          | none =>
              simp only [List.not_lt_nil, and_false, or_false, Option.elim_none, Nat.add_zero]
              exact Clock.seconds_lt_midnight_iff.symm
          | some time =>
              simp only [Option.elim_some]
              rw [List.cons_lt_cons_self, time_chars_lt_iff, ← Date.number_lt_iff,
                ← Date.number_eq_iff]
              have hsecond := clock.second_of_day_lt
              have hreading := time.reading_le
              unfold Clock.seconds
              omega
      | ordinal year day h =>
          simp only [DateText.year, if_true] at hyear ⊢
          rw [stamp_lt_ordinal_iff hyear (ordinal_lt h.2)]
          split
          · rw [Clock.seconds_lt_midnight_iff]
            simp only [Date.Before, Date.firstOfMonth]
            omega
          · rw [Clock.seconds_lt_midnight_iff]
            simp only [Date.Before, Date.firstOfMonth]
            omega
      | week year index day h =>
          simp only [DateText.year, if_true] at hyear ⊢
          refine stamp_lt_year_iff hyear fun month hmonth rest => ?_
          simp only [digits, List.cons_append, List.cons_lt_cons_self]
          exact List.cons_lt_cons_iff.mpr (.inl (digit_between (by omega)).2)
  | false =>
      cases date with
      | calendar date =>
          simp only [DateText.year, Bool.false_eq_true, if_false] at hyear ⊢
          refine stamp_lt_year_iff hyear fun month hmonth rest => ?_
          have hle := date.month_mem.2
          simp only [digits, List.cons_append]
          exact List.cons_lt_cons_iff.mpr (.inl (digit_between (by omega)).1)
      | ordinal year day h =>
          simp only [DateText.year, Bool.false_eq_true, if_false] at hyear ⊢
          refine stamp_lt_year_iff hyear fun month hmonth rest => ?_
          have hlt := ordinal_lt h.2
          simp only [digits, List.cons_append]
          exact List.cons_lt_cons_iff.mpr (.inl (digit_between (by omega)).1)
      | week year index day h =>
          simp only [DateText.year, Bool.false_eq_true, if_false] at hyear ⊢
          refine stamp_lt_year_iff hyear fun month hmonth rest => ?_
          exact List.cons_lt_cons_iff.mpr (.inl (by decide))

end

end Chronology
