import Capmesh.Chronology.Iso

/-!
# Clocks of the Unix time

`datetime.fromtimestamp(seconds, UTC)`: the days since the epoch give the date, what is left of the
last day the time.
-/

namespace Chronology

namespace Date

/-- The date of a day number. -/
def ofNumber (number : Nat) : Option Date := do
  let year ← (List.range 10000).find? fun year => number ≤ daysBeforeYear (year + 1)
  let rest := number - daysBeforeYear year
  let month ← (List.range 13).find? fun month => rest ≤ daysBeforeMonth (isLeap year) (month + 1)
  let day := rest - daysBeforeMonth (isLeap year) month
  if h : (1 ≤ month ∧ month ≤ 12) ∧ 1 ≤ day ∧ day ≤ daysInMonth (isLeap year) month then
    some ⟨year, month, day, h.1, h.2⟩
  else none

/-- The first day of the year one. -/
def first : Date := firstOfMonth 1 1 january

/-- The first day of the Unix time. -/
def epoch : Date := firstOfMonth 1970 1 january

end Date

namespace Clock

/-- `datetime.fromtimestamp(seconds, UTC)`, of the years one to 9999. -/
def fromTimestamp (seconds : Int) : Option Clock := do
  let number := Date.epoch.number + seconds / 86400
  let rest := (seconds % 86400).toNat
  if number < Date.first.number then none
  else do
    let date ← Date.ofNumber number.toNat
    if h : date.year < 10000 ∧ rest < 86400 then
      some
        { date, hour := rest / 3600, minute := rest % 3600 / 60, second := rest % 60, micro := 0
          year_lt := h.1
          hour_lt := by omega
          minute_lt := by omega
          second_lt := by omega
          micro_lt := by omega }
    else none

end Clock

end Chronology
