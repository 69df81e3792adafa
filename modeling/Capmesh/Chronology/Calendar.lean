import Mathlib.Algebra.Order.Ring.Nat
import Mathlib.Data.List.Basic

/-!
# Digits and dates

Decimal numbers of a fixed width, and the proleptic Gregorian calendar from year zero.
`digits_append_lt_iff` says that texts that begin with numbers of one width are ordered by
the numbers first. `Date.number_lt_iff` says that the day numbers are ordered as year, month
and day are.
-/

namespace Chronology

/-- The decimal digits of a number, filled up with zeros to a width. -/
def digits : Nat → Nat → List Char
  | 0, _ => []
  | width + 1, n => Nat.digitChar (n / 10 ^ width) :: digits width (n % 10 ^ width)

/-- Digits are ordered as the numbers are. -/
theorem digit_char_lt_iff {a b : Nat} (ha : a < 10) (hb : b < 10) :
    a.digitChar < b.digitChar ↔ a < b := by
  show a.digitChar.toNat < b.digitChar.toNat ↔ a < b
  rw [Nat.toNat_digitChar_of_lt_ten ha, Nat.toNat_digitChar_of_lt_ten hb]
  omega

theorem digit_char_inj {a b : Nat} (ha : a < 10) (hb : b < 10) :
    a.digitChar = b.digitChar ↔ a = b := by
  rw [← Char.toNat_inj, Nat.toNat_digitChar_of_lt_ten ha, Nat.toNat_digitChar_of_lt_ten hb]
  omega

/-- Texts that begin with numbers of one width are ordered by the numbers, then by what follows. -/
theorem digits_append_lt_iff {width n m : Nat} (hn : n < 10 ^ width) (hm : m < 10 ^ width)
    (left right : List Char) :
    digits width n ++ left < digits width m ++ right ↔ n < m ∨ n = m ∧ left < right := by
  induction width generalizing n m with
  | zero =>
      have hn : n = 0 := by simpa using hn
      have hm : m = 0 := by simpa using hm
      simp [digits, hn, hm]
  | succ width ih =>
      have hpos : 0 < 10 ^ width := Nat.pow_pos (by decide)
      rw [pow_succ] at hn hm
      have hdiv : ∀ k, k < 10 ^ width * 10 → k / 10 ^ width < 10 := fun k hk =>
        Nat.div_lt_of_lt_mul hk
      show Nat.digitChar (n / 10 ^ width) :: (digits width (n % 10 ^ width) ++ left) <
        Nat.digitChar (m / 10 ^ width) :: (digits width (m % 10 ^ width) ++ right) ↔ _
      rw [List.cons_lt_cons_iff, digit_char_lt_iff (hdiv n hn) (hdiv m hm),
        digit_char_inj (hdiv n hn) (hdiv m hm),
        ih (Nat.mod_lt n hpos) (Nat.mod_lt m hpos)]
      have hnSplit := Nat.div_add_mod n (10 ^ width)
      have hmSplit := Nat.div_add_mod m (10 ^ width)
      have hnMod := Nat.mod_lt n hpos
      have hmMod := Nat.mod_lt m hpos
      generalize n / 10 ^ width = a at *
      generalize m / 10 ^ width = b at *
      generalize n % 10 ^ width = c at *
      generalize m % 10 ^ width = d at *
      generalize 10 ^ width = unit at *
      subst hnSplit hmSplit
      have hless : a < b → unit * a + c < unit * b + d := by
        intro hab
        calc unit * a + c < unit * a + unit := by omega
          _ = unit * (a + 1) := by rw [Nat.mul_add, Nat.mul_one]
          _ ≤ unit * b := Nat.mul_le_mul_left unit hab
          _ ≤ unit * b + d := by omega
      have hmore : b < a → unit * b + d < unit * a + c := by
        intro hab
        calc unit * b + d < unit * b + unit := by omega
          _ = unit * (b + 1) := by rw [Nat.mul_add, Nat.mul_one]
          _ ≤ unit * a := Nat.mul_le_mul_left unit hab
          _ ≤ unit * a + c := by omega
      rcases Nat.lt_trichotomy a b with hab | rfl | hab
      · have := hless hab
        constructor
        · exact fun _ => .inl this
        · exact fun _ => .inl hab
      · constructor
        · rintro (hlt | ⟨-, hlt | ⟨rfl, hrest⟩⟩)
          · omega
          · exact .inl (by omega)
          · exact .inr ⟨rfl, hrest⟩
        · rintro (hlt | ⟨heq, hrest⟩)
          · exact .inr ⟨rfl, .inl (by omega)⟩
          · exact .inr ⟨rfl, .inr ⟨by omega, hrest⟩⟩
      · have := hmore hab
        constructor
        · rintro (hlt | ⟨heq, -⟩) <;> omega
        · rintro (hlt | ⟨heq, -⟩) <;> omega

/-- Whether a year is a leap year. -/
def isLeap (year : Nat) : Bool := year % 4 = 0 && (year % 100 ≠ 0 || year % 400 = 0)

/-- The days of a month. -/
def daysInMonth (leap : Bool) : Nat → Nat
  | 2 => if leap then 29 else 28
  | 4 | 6 | 9 | 11 => 30
  | _ => 31

/-- The days of a year before a month. -/
def daysBeforeMonth (leap : Bool) (month : Nat) : Nat :=
  ((List.range (month - 1)).map fun earlier => daysInMonth leap (earlier + 1)).sum

/-- The days before a year, from the first day of year zero. -/
def daysBeforeYear (year : Nat) : Nat :=
  365 * year + (year + 3) / 4 + (year + 399) / 400 - (year + 99) / 100

/-- A date of the calendar. -/
structure Date where
  year : Nat
  month : Nat
  day : Nat
  month_mem : 1 ≤ month ∧ month ≤ 12
  day_mem : 1 ≤ day ∧ day ≤ daysInMonth (isLeap year) month
  deriving DecidableEq

namespace Date

/-- The number of a date, counted from the first day of year zero. -/
def number (date : Date) : Nat :=
  daysBeforeYear date.year + daysBeforeMonth (isLeap date.year) date.month + date.day

theorem january : 1 ≤ 1 ∧ 1 ≤ 12 := by decide

/-- The first day of a month. -/
def firstOfMonth (year month : Nat) (h : 1 ≤ month ∧ month ≤ 12) : Date where
  year := year
  month := month
  day := 1
  month_mem := h
  day_mem := by
    refine ⟨le_rfl, ?_⟩
    unfold daysInMonth
    split <;> first | omega | (split <;> omega)

/-- The order of dates. -/
def Before (a b : Date) : Prop :=
  a.year < b.year ∨ a.year = b.year ∧ (a.month < b.month ∨ a.month = b.month ∧ a.day < b.day)

variable {a b : Date}

theorem days_before_year_succ (year : Nat) : daysBeforeYear (year + 1) =
    daysBeforeYear year + daysBeforeMonth (isLeap year) 12 + 31 := by
  have hmonths : ∀ leap, daysBeforeMonth leap 12 + 31 = 365 + if leap then 1 else 0 := by decide
  have hfours : (year + 1 + 3) / 4 = (year + 3) / 4 + if year % 4 = 0 then 1 else 0 := by
    split <;> omega
  have hcenturies : (year + 1 + 99) / 100 =
      (year + 99) / 100 + if year % 100 = 0 then 1 else 0 := by
    split <;> omega
  have hcycles : (year + 1 + 399) / 400 =
      (year + 399) / 400 + if year % 400 = 0 then 1 else 0 := by
    split <;> omega
  have hcentury : year % 100 = 0 → year % 4 = 0 := by omega
  have hcycle : year % 400 = 0 → year % 100 = 0 := by omega
  have hle : (year + 99) / 100 ≤ 365 * year + (year + 3) / 4 + (year + 399) / 400 := by omega
  rw [Nat.add_assoc, hmonths]
  unfold daysBeforeYear
  rw [hfours, hcenturies, hcycles]
  generalize (year + 3) / 4 = fours at *
  generalize (year + 99) / 100 = centuries at *
  generalize (year + 399) / 400 = cycles at *
  by_cases h4 : year % 4 = 0
  · by_cases h100 : year % 100 = 0
    · by_cases h400 : year % 400 = 0
      · have hleap : isLeap year = true := by simp [isLeap, h4, h400]
        rw [hleap, if_pos h4, if_pos h100, if_pos h400, if_pos rfl]
        omega
      · have hleap : isLeap year = false := by simp [isLeap, h100, h400]
        rw [hleap, if_pos h4, if_pos h100, if_neg h400, if_neg Bool.false_ne_true]
        omega
    · have h400 : ¬ year % 400 = 0 := fun h => h100 (hcycle h)
      have hleap : isLeap year = true := by simp [isLeap, h4, h100]
      rw [hleap, if_pos h4, if_neg h100, if_neg h400, if_pos rfl]
      omega
  · have h100 : ¬ year % 100 = 0 := fun h => h4 (hcentury h)
    have h400 : ¬ year % 400 = 0 := fun h => h100 (hcycle h)
    have hleap : isLeap year = false := by simp [isLeap, h4]
    rw [hleap, if_neg h4, if_neg h100, if_neg h400, if_neg Bool.false_ne_true]
    omega

theorem days_before_month_le {leap : Bool} {month later day : Nat} (hmonth : 1 ≤ month)
    (hlater : later ≤ 12) (hlt : month < later) (hday : day ≤ daysInMonth leap month) :
    daysBeforeMonth leap month + day ≤ daysBeforeMonth leap later := by
  have hall : ∀ leap, ∀ later ∈ List.range 13, ∀ month ∈ List.range later, 1 ≤ month →
      daysBeforeMonth leap month + daysInMonth leap month ≤ daysBeforeMonth leap later := by decide
  have hmonthLater := hall leap later (List.mem_range.mpr (by omega)) month
    (List.mem_range.mpr hlt) hmonth
  omega

theorem number_lt_next_year (date : Date) : date.number ≤ daysBeforeYear (date.year + 1) := by
  have hday := date.day_mem.2
  have hall : ∀ leap, ∀ month ∈ List.range 13, 1 ≤ month →
      daysBeforeMonth leap month + daysInMonth leap month ≤ daysBeforeMonth leap 12 + 31 := by decide
  have hmonth := hall (isLeap date.year) date.month
    (List.mem_range.mpr (by have := date.month_mem; omega)) date.month_mem.1
  rw [days_before_year_succ]
  unfold number
  omega

theorem days_before_year_mono {year later : Nat} (h : year ≤ later) :
    daysBeforeYear year ≤ daysBeforeYear later := by
  induction h with
  | refl => exact le_rfl
  | step _ ih =>
      rw [days_before_year_succ]
      omega

theorem number_lt_of_before (h : a.Before b) : a.number < b.number := by
  have hday := b.day_mem.1
  rcases h with hyear | ⟨hyear, hmonth | ⟨hmonth, hlt⟩⟩
  · have hnext := number_lt_next_year a
    have hmono : daysBeforeYear (a.year + 1) ≤ daysBeforeYear b.year :=
      days_before_year_mono hyear
    unfold number at *
    omega
  · have hle := days_before_month_le a.month_mem.1 b.month_mem.2 hmonth a.day_mem.2
    unfold number
    rw [← hyear]
    omega
  · unfold number
    rw [← hyear, ← hmonth]
    omega

/-- Two dates with the same year, month and day are the same. -/
theorem before_trichotomy (a b : Date) : a.Before b ∨ a = b ∨ b.Before a := by
  have heq : a.year = b.year → a.month = b.month → a.day = b.day → a = b := by
    intro hyear hmonth hday
    cases a
    cases b
    simp_all
  unfold Before
  rcases Nat.lt_trichotomy a.year b.year with hyear | hyear | hyear
  · exact .inl (.inl hyear)
  · rcases Nat.lt_trichotomy a.month b.month with hmonth | hmonth | hmonth
    · exact .inl (.inr ⟨hyear, .inl hmonth⟩)
    · rcases Nat.lt_trichotomy a.day b.day with hday | hday | hday
      · exact .inl (.inr ⟨hyear, .inr ⟨hmonth, hday⟩⟩)
      · exact .inr (.inl (heq hyear hmonth hday))
      · exact .inr (.inr (.inr ⟨hyear.symm, .inr ⟨hmonth.symm, hday⟩⟩))
    · exact .inr (.inr (.inr ⟨hyear.symm, .inl hmonth⟩))
  · exact .inr (.inr (.inl hyear))

/-- Day numbers are ordered as the dates are. -/
theorem number_lt_iff : a.number < b.number ↔ a.Before b := by
  refine ⟨fun h => ?_, number_lt_of_before⟩
  rcases before_trichotomy a b with hbefore | rfl | hafter
  · exact hbefore
  · exact absurd h (lt_irrefl _)
  · exact absurd (number_lt_of_before hafter) (by omega)

theorem number_eq_iff : a.number = b.number ↔ a = b := by
  refine ⟨fun h => ?_, fun h => h ▸ rfl⟩
  rcases before_trichotomy a b with hbefore | heq | hafter
  · exact absurd (number_lt_of_before hbefore) (by omega)
  · exact heq
  · exact absurd (number_lt_of_before hafter) (by omega)

end Date

end Chronology
