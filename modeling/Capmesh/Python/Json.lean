import Capmesh.Python.Text

/-!
# JSON values

The values of `json.loads` and `json.dumps`, with Python's dictionary access and
truth test. `canonical` sorts every object by key, which is what
`json.dumps(value, sort_keys=True)` stores, and `canonicalText` is the compact
text that is signed. A number that is not an integer is kept by its literal.
-/

namespace Python

/-- A JSON value. -/
inductive Json where
  | null
  | bool (value : Bool)
  | int (value : Int)
  | float (literal : String)
  | str (text : String)
  | arr (items : List Json)
  | obj (fields : List (String × Json))
  deriving Repr, Inhabited

namespace Json

mutual
/-- Structural equality of JSON values. -/
def beq : Json → Json → Bool
  | .null, .null => true
  | .bool a, .bool b => a == b
  | .int a, .int b => a == b
  | .float a, .float b => a == b
  | .str a, .str b => a == b
  | .arr a, .arr b => beqItems a b
  | .obj a, .obj b => beqFields a b
  | _, _ => false

/-- Structural equality of JSON arrays. -/
def beqItems : List Json → List Json → Bool
  | [], [] => true
  | a :: as, b :: bs => beq a b && beqItems as bs
  | _, _ => false

/-- Structural equality of JSON objects. -/
def beqFields : List (String × Json) → List (String × Json) → Bool
  | [], [] => true
  | (k, a) :: as, (l, b) :: bs => k == l && beq a b && beqFields as bs
  | _, _ => false
end

mutual
theorem beq_iff : ∀ a b : Json, beq a b = true ↔ a = b
  | .null, b => by cases b <;> simp [beq]
  | .bool a, b => by cases b <;> simp [beq]
  | .int a, b => by cases b <;> simp [beq]
  | .float a, b => by cases b <;> simp [beq]
  | .str a, b => by cases b <;> simp [beq]
  | .arr a, b => by cases b <;> simp [beq, beq_items_iff a]
  | .obj a, b => by cases b <;> simp [beq, beq_fields_iff a]

theorem beq_items_iff : ∀ a b : List Json, beqItems a b = true ↔ a = b
  | [], b => by cases b <;> simp [beqItems]
  | a :: as, [] => by simp [beqItems]
  | a :: as, b :: bs => by simp [beqItems, beq_iff a b, beq_items_iff as bs]

theorem beq_fields_iff : ∀ a b : List (String × Json), beqFields a b = true ↔ a = b
  | [], b => by cases b <;> simp [beqFields]
  | (k, a) :: as, [] => by simp [beqFields]
  | (k, a) :: as, (l, b) :: bs => by
      simp [beqFields, beq_iff a b, beq_fields_iff as bs, and_assoc]
end

instance : DecidableEq Json := fun a b => decidable_of_iff _ (beq_iff a b)

/-- Python's truth test. -/
def truthy : Json → Bool
  | .null => false
  | .bool value => value
  | .int value => value ≠ 0
  | .float literal => literal ≠ "0.0" ∧ literal ≠ "-0.0"
  | .str text => text ≠ ""
  | .arr items => !items.isEmpty
  | .obj fields => !fields.isEmpty

end Json

/-- A dictionary with string keys, in insertion order. -/
abbrev Dict := List (String × Json)

namespace Dict

/-- `data.get(key)`, with `None` as `none`. -/
def get? (data : Dict) (key : String) : Option Json :=
  match data.find? (fun field => field.1 = key) with
  | some (_, .null) => none
  | some (_, value) => some value
  | none => none

/-- `key in data`. -/
def has (data : Dict) (key : String) : Bool := data.any (fun field => field.1 = key)

/-- `data[key] = value`: an existing key keeps its place. -/
def set (data : Dict) (key : String) (value : Json) : Dict :=
  if data.has key then data.map fun field => if field.1 = key then (key, value) else field
  else data ++ [(key, value)]

/-- `data.setdefault(key, value)`. -/
def setDefault (data : Dict) (key : String) (value : Json) : Dict :=
  if data.has key then data else data ++ [(key, value)]

/-- The truthiness of `data.get(key)`. -/
def truthy (data : Dict) (key : String) : Bool :=
  match data.get? key with
  | some value => value.truthy
  | none => false

variable {data : Dict} {key other : String}

/-- A dictionary reads back the value it was given. -/
theorem get?_set (data : Dict) (key : String) {value : Json} (h : value ≠ .null) :
    (data.set key value).get? key = some value := by
  have hfind : (data.set key value).find? (fun field => field.1 = key) = some (key, value) := by
    unfold set has
    split
    · rename_i hhas
      induction data with
      | nil => simp at hhas
      | cons field data ih =>
          by_cases hkey : field.1 = key
          · simp [hkey]
          · simp only [List.any_cons, hkey, decide_false, Bool.false_or] at hhas
            simpa [hkey] using ih hhas
    · rename_i hhas
      have hnone : data.find? (fun field => field.1 = key) = none := by
        rw [List.find?_eq_none]
        intro field hfield hkey
        exact hhas (List.any_eq_true.mpr ⟨field, hfield, hkey⟩)
      simp [List.find?_append, hnone]
  unfold get?
  rw [hfind]
  cases value with
  | null => exact absurd rfl h
  | bool | int | float | str | arr | obj => rfl

theorem get?_set_of_ne (data : Dict) (value : Json) (h : key ≠ other) :
    (data.set key value).get? other = data.get? other := by
  have hfind : (data.set key value).find? (fun field => field.1 = other) =
      data.find? (fun field => field.1 = other) := by
    unfold set
    split
    · clear * - h
      induction data with
      | nil => rfl
      | cons field data ih =>
          by_cases hkey : field.1 = key
          · have hother : ¬ field.1 = other := fun heq => h (hkey.symm.trans heq)
            simpa [hkey, h, hother] using ih
          · by_cases hother : field.1 = other
            · rw [List.map_cons, if_neg hkey, List.find?_cons_of_pos (by simpa using hother),
                List.find?_cons_of_pos (by simpa using hother)]
            · simpa [hkey, hother] using ih
    · simp [List.find?_append, h]
  simp only [get?, hfind]

theorem get?_setDefault_of_ne (data : Dict) (value : Json) (h : key ≠ other) :
    (data.setDefault key value).get? other = data.get? other := by
  unfold setDefault
  split
  · rfl
  · simp [get?, List.find?_append, h]

end Dict

namespace Json

/-- The value of a field of an object. -/
def field (value : Json) (key : String) : Option Json :=
  match value with
  | .obj fields => fields.lookup key
  | _ => none

/-- Insert a field at its place in an object sorted by key. -/
def insertField (field : String × Json) : List (String × Json) → List (String × Json)
  | [] => [field]
  | other :: fields =>
      if field.1 ≤ other.1 then field :: other :: fields else other :: insertField field fields

mutual
/-- Sort the fields of every object, as `sort_keys=True` does. -/
def canonical : Json → Json
  | .arr items => .arr (canonicalItems items)
  | .obj fields => .obj (canonicalFields fields)
  | value => value

/-- Sort the fields of every object of an array. -/
def canonicalItems : List Json → List Json
  | [] => []
  | item :: items => canonical item :: canonicalItems items

/-- Sort the fields of an object and of every object in it. -/
def canonicalFields : List (String × Json) → List (String × Json)
  | [] => []
  | (key, value) :: fields => insertField (key, canonical value) (canonicalFields fields)
end

theorem canonical_items_eq_map (items : List Json) : canonicalItems items = items.map canonical := by
  induction items with
  | nil => rfl
  | cons item items ih => rw [canonicalItems, ih, List.map_cons]

theorem canonical_texts (texts : List String) :
    canonical (.arr (texts.map .str)) = .arr (texts.map .str) := by
  rw [canonical, canonical_items_eq_map, List.map_map]
  rfl

/-- The two hexadecimal digits of a control character. -/
def hexDigits (n : Nat) : List Char :=
  let digit := fun d : Nat => if d < 10 then Char.ofNat (48 + d) else Char.ofNat (87 + d)
  [digit (n / 16), digit (n % 16)]

/-- The JSON escape of a character inside a string, without `ensure_ascii`. -/
def escapeChar (c : Char) : List Char :=
  if c.toNat = 34 then ['\\', c]
  else if c = '\\' then ['\\', '\\']
  else if c.toNat = 10 then ['\\', 'n']
  else if c.toNat = 13 then ['\\', 'r']
  else if c.toNat = 9 then ['\\', 't']
  else if c.toNat = 8 then ['\\', 'b']
  else if c.toNat = 12 then ['\\', 'f']
  else if c.toNat < 32 then ['\\', 'u', '0', '0'] ++ hexDigits c.toNat
  else [c]

/-- A JSON string literal. -/
def quote (text : String) : String :=
  "\"" ++ String.ofList (text.toList.flatMap escapeChar) ++ "\""

mutual
/-- The compact text of a JSON value. -/
def text : Json → String
  | .null => "null"
  | .bool true => "true"
  | .bool false => "false"
  | .int value => toString value
  | .float literal => literal
  | .str value => quote value
  | .arr items => "[" ++ join "," (itemTexts items) ++ "]"
  | .obj fields => "\x7b" ++ join "," (fieldTexts fields) ++ "\x7d"

/-- The texts of the items of an array. -/
def itemTexts : List Json → List String
  | [] => []
  | item :: items => text item :: itemTexts items

/-- The texts of the fields of an object. -/
def fieldTexts : List (String × Json) → List String
  | [] => []
  | (key, value) :: fields => (quote key ++ ":" ++ text value) :: fieldTexts fields
end

/-- The four hexadecimal digits of a code unit. -/
def unitDigits (n : Nat) : List Char := hexDigits (n / 256) ++ hexDigits (n % 256)

/-- The JSON escape of a character inside a string, with `ensure_ascii`: a character outside ASCII
is written by its UTF-16 code units. -/
def escapeAscii (c : Char) : List Char :=
  if c.toNat < 127 then escapeChar c
  else if c.toNat < 0x10000 then ['\\', 'u'] ++ unitDigits c.toNat
  else ['\\', 'u'] ++ unitDigits (0xD800 + (c.toNat - 0x10000) / 0x400) ++
    ['\\', 'u'] ++ unitDigits (0xDC00 + (c.toNat - 0x10000) % 0x400)

/-- A JSON string literal in ASCII. -/
def quoteAscii (text : String) : String :=
  "\"" ++ String.ofList (text.toList.flatMap escapeAscii) ++ "\""

mutual
/-- The text of a JSON value with the default separators. -/
def spacedText : Json → String
  | .null => "null"
  | .bool true => "true"
  | .bool false => "false"
  | .int value => toString value
  | .float literal => literal
  | .str value => quoteAscii value
  | .arr items => "[" ++ join ", " (spacedItems items) ++ "]"
  | .obj fields => "\x7b" ++ join ", " (spacedFields fields) ++ "\x7d"

/-- The texts of the items of an array. -/
def spacedItems : List Json → List String
  | [] => []
  | item :: items => spacedText item :: spacedItems items

/-- The texts of the fields of an object. -/
def spacedFields : List (String × Json) → List String
  | [] => []
  | (key, value) :: fields => (quoteAscii key ++ ": " ++ spacedText value) :: spacedFields fields
end

mutual
/-- The text of a JSON value with compact separators, in ASCII. -/
def compactText : Json → String
  | .null => "null"
  | .bool true => "true"
  | .bool false => "false"
  | .int value => toString value
  | .float literal => literal
  | .str value => quoteAscii value
  | .arr items => "[" ++ join "," (compactItems items) ++ "]"
  | .obj fields => "\x7b" ++ join "," (compactFields fields) ++ "\x7d"

/-- The texts of the items of an array. -/
def compactItems : List Json → List String
  | [] => []
  | item :: items => compactText item :: compactItems items

/-- The texts of the fields of an object. -/
def compactFields : List (String × Json) → List String
  | [] => []
  | (key, value) :: fields => (quoteAscii key ++ ":" ++ compactText value) :: compactFields fields
end

/-- `utils.json_dumps(value)`. -/
def jsonDumps (value : Json) : String := compactText (canonical value)

/-- `json.dumps(value, sort_keys=True)`. -/
def dumps (value : Json) : String := spacedText (canonical value)

section

variable (repr : String → String)

mutual
/-- `repr(value)`. -/
def reprText : Json → String
  | .null => "None"
  | .bool true => "True"
  | .bool false => "False"
  | .int value => toString value
  | .float literal =>
      if literal = "NaN" then "nan"
      else if literal = "Infinity" then "inf"
      else if literal = "-Infinity" then "-inf"
      else literal
  | .str text => repr text
  | .arr items => "[" ++ (join ", " (reprItems items) ++ "]")
  | .obj fields => "\x7b" ++ (join ", " (reprFields fields) ++ "\x7d")

/-- The texts of the items of a list. -/
def reprItems : List Json → List String
  | [] => []
  | item :: items => reprText item :: reprItems items

/-- The texts of the fields of an object. -/
def reprFields : List (String × Json) → List String
  | [] => []
  | (key, value) :: fields => (repr key ++ ": " ++ reprText value) :: reprFields fields
end

/-- `str(value)`. -/
def strText : Json → String
  | .str text => text
  | value => reprText repr value

/-- `str(value or "")`. -/
def textOrEmpty (value : Option Json) : String :=
  match value with
  | some value => if value.truthy then strText repr value else ""
  | none => ""

end

/-- The escape of a character in `repr(text)`; beyond Latin-1 all characters count as printable. -/
def reprChar (mark c : Char) : List Char :=
  if c = mark || c = '\\' then ['\\', c]
  else if c.toNat = 10 then ['\\', 'n']
  else if c.toNat = 13 then ['\\', 'r']
  else if c.toNat = 9 then ['\\', 't']
  else if c.toNat < 32 || (127 ≤ c.toNat && c.toNat ≤ 160) || c.toNat = 173 then
    ['\\', 'x'] ++ hexDigits c.toNat
  else [c]

/-- `repr(text)`: between apostrophes, or between double quotes when only they are free. -/
def quoteRepr (text : String) : String :=
  let apostrophe := Char.ofNat 39
  let mark := if text.toList.contains apostrophe && !text.toList.contains '"' then '"'
    else apostrophe
  String.ofList ([mark] ++ text.toList.flatMap (reprChar mark) ++ [mark])

/-- `str(value)`: a text itself, and the `repr` of any other value. -/
def toStr (value : Json) : String := strText quoteRepr value

/-- Inside a list a text is quoted. -/
example : toStr (.arr [.str "it's", .bool true, .obj [("a", .null)]]) =
    "[\"it's\", True, \x7b'a': None\x7d]" := by decide +kernel

/-- `json.dumps(value, sort_keys=True, separators=(",", ":"), ensure_ascii=False)`. -/
def canonicalText (value : Json) : String := text (canonical value)

end Json

end Python
