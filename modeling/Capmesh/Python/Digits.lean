import Mathlib
import Capmesh.Python.Words
import Mathlib.Data.List.Induction

/-!
# Digits and integers of the Python standard library

`str.isdigit`, the `\d` of a pattern and `int`, over the digit tables of Unicode. `int` and `str`
refuse more than 4300 digits; the text of the `ValueError` is then their result.
-/

namespace Python

/-- The digit tables: the value of a decimal digit, which `\d` matches and `int` reads, and the
characters of which `str.isdigit` holds, superscripts among them. -/
structure DigitTable where
  decimal : Char → Option Nat
  isDigit : Char → Bool
  decimal_lt : ∀ c : Char, ∀ d ∈ decimal c, d < 10
  decimal_ascii : ∀ c : Char, c.toNat < 128 →
    decimal c = if c.isDigit then some (c.toNat - '0'.toNat) else none
  isDigit_ascii : ∀ c : Char, c.toNat < 128 → isDigit c = c.isDigit
  isDigit_of_decimal : ∀ c : Char, (decimal c).isSome = true → isDigit c = true

/-- `sys.get_int_max_str_digits()`, the most digits `int` reads and `str` writes. -/
def intMaxStrDigits : Nat := 4300

/-- The value of decimal digits. -/
def digitsValue (values : List Nat) : Nat := values.foldl (fun n d => 10 * n + d) 0

namespace DigitTable

variable (table : DigitTable)

theorem decimal_lt_of_ascii (c : Char) (d : Nat)
    (hd : d ∈ if c.isDigit then some (c.toNat - '0'.toNat) else none) : d < 10 := by
  have hval : c.val.toNat = c.toNat := rfl
  have htop : '9'.val.toNat = 57 := rfl
  have hzero : '0'.toNat = 48 := rfl
  simp only [Char.isDigit, Bool.and_eq_true, decide_eq_true_eq, UInt32.le_iff_toNat_le,
    Option.mem_def, Option.ite_none_right_eq_some, Option.some.injEq] at hd
  omega

theorem is_digit_of_ascii (c : Char)
    (h : (if c.isDigit then some (c.toNat - '0'.toNat) else none).isSome = true) :
    c.isDigit = true := by
  by_cases hdigit : c.isDigit = true
  · exact hdigit
  · simp [hdigit] at h

/-- The tables of ASCII. -/
def ascii : DigitTable where
  decimal c := if c.isDigit then some (c.toNat - '0'.toNat) else none
  isDigit := Char.isDigit
  decimal_lt := decimal_lt_of_ascii
  decimal_ascii _ _ := rfl
  isDigit_ascii _ _ := rfl
  isDigit_of_decimal := is_digit_of_ascii

/-- Whether `\d` matches a character. -/
def isDecimal (c : Char) : Bool := (table.decimal c).isSome

/-- `text.isdigit()`. -/
def allDigits (text : List Char) : Bool := !text.isEmpty && text.all table.isDigit

/-- `int(text)`, for a text of digits. -/
def int (repr : String → String) (text : List Char) : Except String Nat :=
  match text.mapM table.decimal with
  | none => .error ("invalid literal for int() with base 10: " ++ repr (.ofList text))
  | some values =>
      if values.length ≤ intMaxStrDigits then .ok (digitsValue values)
      else .error ("Exceeds the limit (4300 digits) for integer string conversion: value has "
        ++ Nat.repr values.length
        ++ " digits; use sys.set_int_max_str_digits() to increase the limit")

/-- The number a text of decimal digits stands for. -/
def value (text : List Char) : Nat := digitsValue (text.filterMap table.decimal)

end DigitTable

/-- `int(text)` of any text: digits, with single underscores between them, behind a sign and with
white space around. The limit on the digits is left out here: numbers stay far below it. -/
def DigitTable.intText (table : DigitTable) (isSpace : Char → Bool) (repr : String → String)
    (text : List Char) : Except String Int :=
  let stripped := strip isSpace text
  let signed := stripped.head? = some '-' || stripped.head? = some '+'
  let groups := (if signed then stripped.tail else stripped).splitOn '_'
  if groups.all fun group => !group.isEmpty && group.all table.isDecimal then
    let n : Int := table.value groups.flatten
    .ok (if stripped.head? = some '-' then -n else n)
  else .error ("invalid literal for int() with base 10: " ++ repr (.ofList text))

/-- `str(n)` of an integer below the limit. -/
def strOfInt (n : Int) : String :=
  if n < 0 then "-" ++ Nat.repr n.natAbs else Nat.repr n.natAbs

/-- `str(n)`. -/
def strOfNat (n : Nat) : Except String String :=
  if (Nat.repr n).length ≤ intMaxStrDigits then .ok (Nat.repr n)
  else .error ("Exceeds the limit (4300 digits) for integer string conversion; "
    ++ "use sys.set_int_max_str_digits() to increase the limit")

section

variable {table : DigitTable} {text : List Char}

/-- What `\d` matches is a digit of `str.isdigit`. -/
theorem all_digits_of_decimal (hne : text ≠ []) (h : ∀ c ∈ text, table.isDecimal c = true) :
    table.allDigits text = true := by
  have hall : ∀ c ∈ text, table.isDigit c = true := fun c hc => table.isDigit_of_decimal c (h c hc)
  simpa [DigitTable.allDigits, hne] using hall

theorem map_m_decimal (h : ∀ c ∈ text, table.isDecimal c = true) :
    text.mapM table.decimal = some (text.filterMap table.decimal) ∧
      (text.filterMap table.decimal).length = text.length := by
  induction text with
  | nil => exact ⟨rfl, rfl⟩
  | cons c text ih =>
    obtain ⟨hc, hrest⟩ := List.forall_mem_cons.mp h
    obtain ⟨hmap, hlength⟩ := ih hrest
    obtain ⟨d, hd⟩ := Option.isSome_iff_exists.mp hc
    simp [List.mapM_cons, hd, hmap, hlength]

/-- `int` reads any decimal digits, up to its limit. -/
theorem int_of_decimal (repr : String → String) (h : ∀ c ∈ text, table.isDecimal c = true)
    (hlength : text.length ≤ intMaxStrDigits) : table.int repr text = .ok (table.value text) := by
  obtain ⟨hmap, hsame⟩ := map_m_decimal h
  simp only [DigitTable.int, hmap, hsame, if_pos hlength, DigitTable.value]

theorem decimal_of_digit {c : Char} (h : c.isDigit = true) :
    table.decimal c = some (c.toNat - '0'.toNat) := by
  have hcode : c.toNat < 128 := by
    simp only [Char.isDigit, Bool.and_eq_true, decide_eq_true_eq, UInt32.le_iff_toNat_le] at h
    have hval : c.val.toNat = c.toNat := rfl
    have htop : '9'.val.toNat = 57 := rfl
    omega
  rw [table.decimal_ascii c hcode, if_pos h]

theorem isDecimal_of_digit {c : Char} (h : c.isDigit = true) : table.isDecimal c = true := by
  simp [DigitTable.isDecimal, decimal_of_digit h]

theorem isDecimal_ascii {c : Char} (hcode : c.toNat < 128) : table.isDecimal c = c.isDigit := by
  cases h : c.isDigit <;> simp [DigitTable.isDecimal, table.decimal_ascii c hcode, h]

theorem digits_value_append (values : List Nat) (d : Nat) :
    digitsValue (values ++ [d]) = 10 * digitsValue values + d := by
  simp [digitsValue]

theorem digits_value_lt {values : List Nat} (h : ∀ d ∈ values, d < 10) :
    digitsValue values < 10 ^ values.length := by
  induction values using List.reverseRecOn with
  | nil => decide
  | append_singleton values d ih =>
      have hd : d < 10 := h d (by simp)
      have ih := ih fun e he => h e (List.mem_append_left _ he)
      rw [digits_value_append, List.length_append, List.length_singleton, Nat.pow_succ]
      omega

/-- A text of digits stands for a number of as many digits. -/
theorem value_lt (text : List Char) : table.value text < 10 ^ text.length := by
  have hsmall : ∀ d ∈ text.filterMap table.decimal, d < 10 := by
    intro d hd
    obtain ⟨c, -, hc⟩ := List.mem_filterMap.mp hd
    exact table.decimal_lt c d hc
  calc table.value text < 10 ^ (text.filterMap table.decimal).length := digits_value_lt hsmall
    _ ≤ 10 ^ text.length := Nat.pow_le_pow_right (by omega) (List.length_filterMap_le _ _)

/-- The decimal digits of a number are its own. -/
theorem value_to_digits (n : Nat) : table.value (Nat.toDigits 10 n) = n := by
  induction n using Nat.strongRecOn with
  | ind n ih =>
    have hlast : ∀ d, d < 10 → table.decimal (Nat.digitChar d) = some d := by
      intro d hd
      have hdigit : (Nat.digitChar d).isDigit = true :=
        Nat.isDigit_of_mem_toDigits (b := 10) (n := d) (by omega) (by omega)
          (by rw [Nat.toDigits_of_lt_base hd]; exact List.mem_singleton.mpr rfl)
      rw [decimal_of_digit hdigit, Nat.toNat_digitChar_of_lt_ten hd]
      simp
    by_cases hsmall : n < 10
    · simp [Nat.toDigits_of_lt_base hsmall, DigitTable.value, hlast n hsmall, digitsValue]
    · have hprevious : table.value (Nat.toDigits 10 (n / 10)) = n / 10 := ih _ (by omega)
      rw [Nat.toDigits_of_base_le (by omega) (by omega), DigitTable.value, List.filterMap_append,
        List.filterMap_cons, hlast _ (Nat.mod_lt n (by omega)), List.filterMap_nil,
        digits_value_append]
      unfold DigitTable.value at hprevious
      rw [hprevious]
      omega

theorem decimal_to_digits (n : Nat) : ∀ c ∈ Nat.toDigits 10 n, table.isDecimal c = true :=
  fun _ hc => isDecimal_of_digit (Nat.isDigit_of_mem_toDigits (by omega) (by omega) hc)

theorem to_digits_ne_nil (n : Nat) : Nat.toDigits 10 n ≠ [] := by
  intro hnil
  have := Nat.length_toDigits_pos (b := 10) (n := n)
  rw [hnil] at this
  exact Nat.lt_irrefl 0 this

theorem str_of_int_to_list (n : Nat) : (strOfInt n).toList = Nat.toDigits 10 n := by
  rw [strOfInt, if_neg (by omega), Int.natAbs_natCast, Nat.repr_eq_ofList_toDigits,
    String.toList_ofList]

/-- `int` reads back what `str` wrote. -/
theorem int_text_str {isSpace : Char → Bool} (hspace : ∀ c : Char, c.isDigit → isSpace c = false)
    (repr : String → String) (n : Nat) :
    table.intText isSpace repr (strOfInt n).toList = .ok (n : Int) := by
  have hdigit : ∀ c ∈ Nat.toDigits 10 n, c.isDigit = true := fun c hc =>
    Nat.isDigit_of_mem_toDigits (by omega) (by omega) hc
  have hstrip : strip isSpace (Nat.toDigits 10 n) = Nat.toDigits 10 n :=
    strip_eq_self (fun c hc => hspace c (hdigit c (List.mem_of_mem_head? hc)))
      (fun c hc => hspace c (hdigit c (List.mem_of_mem_getLast? hc)))
  have hsign : ∀ c : Char, c.isDigit = false → (Nat.toDigits 10 n).head? ≠ some c := by
    intro c hc hhead
    rw [hdigit c (List.mem_of_mem_head? hhead)] at hc
    cases hc
  have hunderscore : '_' ∉ Nat.toDigits 10 n := fun h => absurd (hdigit '_' h) (by decide)
  have hgroup :
      (!(Nat.toDigits 10 n).isEmpty && (Nat.toDigits 10 n).all table.isDecimal) = true := by
    have hall : (Nat.toDigits 10 n).all table.isDecimal = true :=
      List.all_eq_true.mpr (decimal_to_digits n)
    simp [hall, to_digits_ne_nil n]
  simp only [DigitTable.intText, str_of_int_to_list, hstrip, hsign '-' rfl, hsign '+' rfl, decide_false,
    Bool.or_self, Bool.false_eq_true, if_false, List.splitOn_eq_singleton hunderscore,
    List.all_cons, List.all_nil, Bool.and_true, hgroup, if_true, List.flatten_singleton,
    value_to_digits]

end

end Python
