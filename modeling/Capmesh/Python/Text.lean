import Mathlib.Data.List.Basic

/-!
# Text operations of the Python standard library

The string methods the catalog code calls, over the characters of a string:
`startswith`, `removeprefix`, `strip`, `find`, `split`, `join`, and the falsy
default `text or default`. Each is defined by recursion on characters, so that
closed terms evaluate.
-/

namespace Python

/-- Python's `text or default`: the empty string is falsy. -/
def orElse (text default : String) : String := if text = "" then default else text

/-- Python's `text or default` for a text that may be `None`. -/
def optOr (text : Option String) (default : String) : String :=
  match text with
  | some text => orElse text default
  | none => default

/-- Whether an optional text is truthy, that is present and not empty. -/
def present (text : Option String) : Bool :=
  match text with
  | some text => text ≠ ""
  | none => false

/-- `text.startswith(start)`. -/
def startsWith (text start : String) : Bool := start.toList.isPrefixOf text.toList

/-- `text.endswith(stop)`. -/
def endsWith (text stop : String) : Bool := stop.toList.isSuffixOf text.toList

/-- `text.removeprefix(start)`. -/
def removePrefix (text start : String) : String :=
  if startsWith text start then String.ofList (text.toList.drop start.toList.length) else text

/-- `text.rstrip(chars)`, with `chars` given by its membership test. -/
def rstrip (chars : Char → Bool) (text : List Char) : List Char :=
  (text.reverse.dropWhile chars).reverse

/-- `text.strip(chars)`, with `chars` given by its membership test. -/
def strip (chars : Char → Bool) (text : List Char) : List Char :=
  rstrip chars (text.dropWhile chars)

/-- The text after the first occurrence of `marker`, or `none` when `marker` does not occur. -/
def afterFirst (marker : List Char) : List Char → Option (List Char)
  | [] => if marker.isEmpty then some [] else none
  | c :: text =>
      if marker.isPrefixOf (c :: text) then some ((c :: text).drop marker.length)
      else afterFirst marker text

/-- Whether `part` occurs in a text. -/
def contains (text part : List Char) : Bool := (afterFirst part text).isSome

/-- The text before the first occurrence of `marker`, or `none` when `marker` does not occur. -/
def beforeFirst (marker : List Char) : List Char → Option (List Char)
  | [] => if marker.isEmpty then some [] else none
  | c :: text =>
      if marker.isPrefixOf (c :: text) then some []
      else (beforeFirst marker text).map (c :: ·)

/-- The characters `text.splitlines()` breaks at. -/
def isLineBreak (c : Char) : Bool :=
  [0x0A, 0x0B, 0x0C, 0x0D, 0x1C, 0x1D, 0x1E, 0x85, 0x2028, 0x2029].contains c.toNat

/-- `text.splitlines()`; a carriage return before a line feed is part of the same break. -/
def splitLines : List Char → List (List Char)
  | [] => []
  | c :: text =>
      if c.toNat = 0x0D && (text.head?.map (·.toNat)) = some 0x0A then splitLines text
      else if isLineBreak c then [] :: splitLines text
      else match splitLines text with
        | [] => [[c]]
        | line :: lines => (c :: line) :: lines

/-- `Path(path).suffix`: the last dot of the file name and what follows it. -/
def pathSuffix (path : String) : String :=
  let name := (path.toList.reverse.dropWhile (· = '/')).takeWhile (· ≠ '/')
  match name.takeWhile (· ≠ '.'), name.dropWhile (· ≠ '.') with
  | [], _ => ""
  | stop, '.' :: _ :: _ => "." ++ String.ofList stop.reverse
  | _, _ => ""

/-- `text.split(sep)` for a one-character separator. -/
def splitOn (sep : Char) : List Char → List (List Char)
  | [] => [[]]
  | c :: text =>
      match splitOn sep text with
      | [] => [[c]]
      | part :: parts => if c = sep then [] :: part :: parts else (c :: part) :: parts

/-- `text.partition(sep)` without the separator: the text before and after its first occurrence. -/
def partition (sep : Char) (text : String) : String × String :=
  (String.ofList (text.toList.takeWhile (· ≠ sep)),
    String.ofList ((text.toList.dropWhile (· ≠ sep)).drop 1))

/-- `sep.join(parts)`. -/
def join (sep : String) : List String → String
  | [] => ""
  | [part] => part
  | part :: parts => part ++ sep ++ join sep parts

/-- Replace every run of `c` by a single `c`. -/
def squeeze (c : Char) : List Char → List Char
  | [] => []
  | [x] => [x]
  | x :: y :: text =>
      if x = c ∧ y = c then squeeze c (y :: text) else x :: squeeze c (y :: text)

theorem starts_with_append {start text : String} (more : String) (h : startsWith text start) :
    startsWith (text ++ more) start := by
  simp only [startsWith, String.toList_append, List.isPrefixOf_iff_prefix] at h ⊢
  exact h.trans (List.prefix_append _ _)

/-- A text starts with each of its own beginnings. -/
theorem starts_with_self_append (start more : String) : startsWith (start ++ more) start := by
  simp [startsWith, List.isPrefixOf_iff_prefix]

/-- A beginning of a beginning is a beginning. -/
theorem starts_with_trans {text middle start : String} (h : startsWith middle start)
    (hmiddle : startsWith text middle) : startsWith text start := by
  simp only [startsWith, List.isPrefixOf_iff_prefix] at h hmiddle ⊢
  exact h.trans hmiddle

/-- The falsy default of a text that is not empty is never used. -/
theorem or_else_of_ne {text : String} (default : String) (h : text ≠ "") :
    orElse text default = text := if_neg h

/-- A falsy default that is not empty makes the result not empty. -/
theorem or_else_ne (text : String) {default : String} (h : default ≠ "") :
    orElse text default ≠ "" := by
  unfold orElse
  split
  · exact h
  · assumption

end Python
