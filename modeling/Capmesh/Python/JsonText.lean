import Capmesh.Python.Canonical
import Capmesh.Python.Delimited
import Capmesh.Python.Digits

/-!
# A JSON text has one value

The compact text of a JSON value shows where the value ends: the first character tells its kind, a
string ends at its quote, an array or an object at its bracket, and a number in front of a character
that no number has. `text_and_rest` is that for every value whose floats are spelled as numbers, and
`canonical_text_inj` says what a text that is signed determines.
-/

namespace Python

namespace Json

/-- A character of a number, with the names of the numbers that are not finite. -/
def isNumberChar (c : Char) : Bool :=
  c.isDigit || ['-', '+', '.', 'e', 'N', 'a', 'I', 'n', 'f', 'i', 't', 'y'].contains c

/-- A character that a number begins with. -/
def beginsNumber (c : Char) : Bool := c.isDigit || ['-', 'N', 'I'].contains c

/-- The literal of a float: it is no integer's. -/
def isFloatText (literal : String) : Bool :=
  literal.toList.all isNumberChar && literal.toList.head?.any beginsNumber &&
    literal.toList.any fun c => c ≠ '-' && !c.isDigit

mutual
/-- Every float of a value is spelled as one. -/
def spelled : Json → Bool
  | .float literal => isFloatText literal
  | .arr items => spelledItems items
  | .obj fields => spelledFields fields
  | _ => true

/-- Every float of the items is spelled as one. -/
def spelledItems : List Json → Bool
  | [] => true
  | item :: items => spelled item && spelledItems items

/-- Every float of the fields is spelled as one. -/
def spelledFields : List (String × Json) → Bool
  | [] => true
  | (_, value) :: fields => spelled value && spelledFields fields
end

/-- What a text begins with tells the kind of its value. -/
inductive Kind where
  | null | yes | no | number | string | array | object | other
  deriving DecidableEq

/-- The kind of a character. -/
def kindOf (c : Char) : Kind :=
  if c = 'n' then .null
  else if c = 't' then .yes
  else if c = 'f' then .no
  else if c = '"' then .string
  else if c = '[' then .array
  else if c = '\x7b' then .object
  else if beginsNumber c then .number
  else .other

/-- The kind of a value. -/
def kind : Json → Kind
  | .null => .null
  | .bool true => .yes
  | .bool false => .no
  | .int _ | .float _ => .number
  | .str _ => .string
  | .arr _ => .array
  | .obj _ => .object

section

variable {value other : Json} {front back : List Char}

theorem kind_of_begins {c : Char} (h : beginsNumber c = true) : kindOf c = .number := by
  have hne : ∀ d : Char, beginsNumber d = false → c ≠ d := by
    rintro d hd rfl
    rw [h] at hd
    cases hd
  unfold kindOf
  rw [if_neg (hne 'n' (by decide)), if_neg (hne 't' (by decide)), if_neg (hne 'f' (by decide)),
    if_neg (hne '"' (by decide)), if_neg (hne '[' (by decide)),
    if_neg (hne '\x7b' (by decide)), if_pos h]

theorem int_text_begins (n : Int) :
    ∃ c rest, (toString n).toList = c :: rest ∧ beginsNumber c = true := by
  cases hchars : (toString n).toList with
  | nil =>
      cases n with
      | ofNat n =>
          have hdigits : (toString (Int.ofNat n)).toList = Nat.toDigits 10 n := by
            show (Nat.repr n).toList = _
            rw [Nat.repr_eq_ofList_toDigits, String.toList_ofList]
          exact absurd (hdigits.symm.trans hchars) (to_digits_ne_nil n)
      | negSucc n =>
          have htext : toString (Int.negSucc n) = "-" ++ toString (n + 1) := rfl
          rw [htext] at hchars
          simp at hchars
  | cons c rest =>
      refine ⟨c, rest, rfl, ?_⟩
      rcases int_text_char n c (by rw [hchars]; exact List.mem_cons_self) with rfl | hdigit
      · decide
      · simp [beginsNumber, hdigit]

theorem text_begins (h : spelled value = true) :
    ∃ c rest, (text value).toList = c :: rest ∧ kindOf c = kind value := by
  cases value with
  | null => exact ⟨'n', ['u', 'l', 'l'], rfl, rfl⟩
  | bool flag =>
      cases flag with
      | true => exact ⟨'t', ['r', 'u', 'e'], rfl, rfl⟩
      | false => exact ⟨'f', ['a', 'l', 's', 'e'], rfl, rfl⟩
  | int n =>
      obtain ⟨c, rest, hchars, hbegins⟩ := int_text_begins n
      exact ⟨c, rest, hchars, kind_of_begins hbegins⟩
  | float literal =>
      simp only [spelled, isFloatText, Bool.and_eq_true] at h
      cases hchars : literal.toList with
      | nil => simp [hchars] at h
      | cons c rest => exact ⟨c, rest, hchars, kind_of_begins (by simpa [hchars] using h.1.2)⟩
  | str content =>
      exact ⟨'"', _, by rw [text]; exact quote_to_list content, rfl⟩
  | arr items =>
      exact ⟨'[', (join "," (itemTexts items) ++ "]").toList, by simp [text], rfl⟩
  | obj fields =>
      exact ⟨'\x7b', (join "," (fieldTexts fields) ++ "\x7d").toList, by simp [text], rfl⟩

theorem kind_ne_other (value : Json) : kind value ≠ .other := by
  cases value with
  | bool flag => cases flag <;> exact nofun
  | _ => exact nofun

/-- Values whose texts begin alike are of one kind. -/
theorem kind_eq (hvalue : spelled value = true) (hother : spelled other = true)
    (h : (text value).toList ++ front = (text other).toList ++ back) : kind value = kind other := by
  obtain ⟨c, rest, hchars, hkind⟩ := text_begins hvalue
  obtain ⟨d, tail, hother, hsame⟩ := text_begins hother
  rw [hchars, hother] at h
  rw [← hkind, ← hsame, (List.cons.inj h).1]

theorem number_text (hvalue : spelled value = true) (hkind : kind value = .number) :
    ∀ c ∈ (text value).toList, isNumberChar c = true := by
  cases value with
  | int n =>
      intro c hc
      rcases int_text_char n c hc with rfl | hdigit
      · decide
      · simp [isNumberChar, hdigit]
  | float literal =>
      simp only [spelled, isFloatText, Bool.and_eq_true, List.all_eq_true] at hvalue
      exact hvalue.1.1
  | bool flag => cases flag <;> cases hkind
  | _ => cases hkind

theorem number_and_rest (hvalue : spelled value = true) (hother : spelled other = true)
    (hkind : kind value = .number) (hsame : kind other = .number)
    (hfront : ∀ c ∈ front.head?, isNumberChar c = false)
    (hback : ∀ c ∈ back.head?, isNumberChar c = false)
    (h : (text value).toList ++ front = (text other).toList ++ back) :
    (text value).toList = (text other).toList ∧ front = back := by
  have hcut : ∀ {number rest : List Char}, (∀ c ∈ number, isNumberChar c = true) →
      (∀ c ∈ rest.head?, isNumberChar c = false) →
      (number ++ rest).takeWhile isNumberChar = number := by
    intro number rest hnumber hrest
    rw [List.takeWhile_append_of_pos hnumber]
    cases rest with
    | nil => simp
    | cons c rest => simp [hrest c rfl]
  have hsame : (text value).toList = (text other).toList := by
    rw [← hcut (number_text hvalue hkind) hfront, h, hcut (number_text hother hsame) hback]
  rw [hsame] at h
  exact ⟨hsame, List.append_cancel_left h⟩

theorem float_text_ne {literal : String} (h : isFloatText literal = true) (n : Int) :
    literal ≠ toString n := by
  rintro rfl
  simp only [isFloatText, Bool.and_eq_true, List.any_eq_true, Bool.not_eq_true',
    decide_eq_true_eq] at h
  obtain ⟨-, c, hc, hsign, hdigit⟩ := h
  rcases int_text_char n c hc with rfl | hdigit'
  · exact hsign rfl
  · rw [hdigit'] at hdigit
    cases hdigit

/-- The text of items behind which the bracket stands. -/
theorem item_texts_cons (item : Json) (items : List Json) (rest : List Char) :
    (join "," (itemTexts (item :: items))).toList ++ rest =
      (text item).toList ++ (if items = [] then rest
        else ',' :: ((join "," (itemTexts items)).toList ++ rest)) := by
  cases items with
  | nil => simp [itemTexts, join]
  | cons next items => simp [itemTexts, join]

/-- The text of fields behind which the brace stands. -/
theorem field_texts_cons (key : String) (value : Json) (fields : List (String × Json))
    (rest : List Char) :
    (join "," (fieldTexts ((key, value) :: fields))).toList ++ rest =
      (quote key).toList ++ ':' :: ((text value).toList ++ (if fields = [] then rest
        else ',' :: ((join "," (fieldTexts fields)).toList ++ rest))) := by
  cases fields with
  | nil => simp [fieldTexts, join]
  | cons next fields =>
      obtain ⟨name, other⟩ := next
      simp [fieldTexts, join]

/-- Behind an element stands the bracket when it is the last, and else a comma. -/
theorem closed_or_more {α : Type} {bracket : Char} (hbracket : bracket ≠ ',') {items others : List α}
    [Decidable (items = [])] [Decidable (others = [])] {front back more rest : List Char}
    (h : (if items = [] then bracket :: front else ',' :: more) =
      if others = [] then bracket :: back else ',' :: rest) :
    items = [] ∧ others = [] ∧ front = back ∨ more = rest := by
  by_cases hnil : items = [] <;> by_cases hother : others = [] <;>
    simp only [hnil, hother, if_true, if_false, List.cons.injEq, true_and] at h
  · exact .inl ⟨hnil, hother, h⟩
  · exact absurd h.1 hbracket
  · exact absurd h.1.symm hbracket
  · exact .inr h

end

mutual
theorem text_and_rest : ∀ (value other : Json) (front back : List Char), spelled value = true →
    spelled other = true → (∀ c ∈ front.head?, isNumberChar c = false) →
    (∀ c ∈ back.head?, isNumberChar c = false) →
    (text value).toList ++ front = (text other).toList ++ back → value = other ∧ front = back
  | value, other, front, back, hvalue, hother, hfront, hback, h => by
      have hkind := kind_eq hvalue hother h
      match value, other, hkind with
      | .null, .null, _ => exact ⟨rfl, List.append_cancel_left h⟩
      | .bool true, .bool true, _ => exact ⟨rfl, List.append_cancel_left h⟩
      | .bool false, .bool false, _ => exact ⟨rfl, List.append_cancel_left h⟩
      | .int m, .int n, _ =>
          obtain ⟨hsame, hrest⟩ := number_and_rest hvalue hother rfl rfl hfront hback h
          exact ⟨congrArg _ (Int.repr_injective (String.toList_inj.mp hsame)), hrest⟩
      | .int m, .float literal, _ =>
          obtain ⟨hsame, -⟩ := number_and_rest hvalue hother rfl rfl hfront hback h
          exact absurd (String.toList_inj.mp hsame).symm (float_text_ne hother m)
      | .float literal, .int n, _ =>
          obtain ⟨hsame, -⟩ := number_and_rest hvalue hother rfl rfl hfront hback h
          exact absurd (String.toList_inj.mp hsame) (float_text_ne hvalue n)
      | .float literal, .float spelling, _ =>
          obtain ⟨hsame, hrest⟩ := number_and_rest hvalue hother rfl rfl hfront hback h
          exact ⟨congrArg _ (String.toList_inj.mp hsame), hrest⟩
      | .str content, .str spelling, _ =>
          obtain ⟨rfl, hrest⟩ := quote_delimited content spelling front back trivial trivial h
          exact ⟨rfl, hrest⟩
      | .arr items, .arr others, _ =>
          have hitems : (join "," (itemTexts items)).toList ++ ']' :: front =
              (join "," (itemTexts others)).toList ++ ']' :: back := by
            simpa [text] using h
          obtain ⟨rfl, hrest⟩ := item_texts_and_rest items others front back hvalue hother hitems
          exact ⟨rfl, hrest⟩
      | .obj fields, .obj others, _ =>
          have hfields : (join "," (fieldTexts fields)).toList ++ '}' :: front =
              (join "," (fieldTexts others)).toList ++ '}' :: back := by
            simpa [text] using h
          obtain ⟨rfl, hrest⟩ := field_texts_and_rest fields others front back hvalue hother hfields
          exact ⟨rfl, hrest⟩

theorem item_texts_and_rest : ∀ (items others : List Json) (front back : List Char),
    spelledItems items = true → spelledItems others = true →
    (join "," (itemTexts items)).toList ++ ']' :: front =
      (join "," (itemTexts others)).toList ++ ']' :: back → items = others ∧ front = back
  | [], [], _, _, _, _, h => ⟨rfl, (List.cons.inj h).2⟩
  | [], other :: others, front, back, _, hothers, h => by
      obtain ⟨c, rest, hchars, hkind⟩ := text_begins (Bool.and_eq_true _ _ ▸ hothers).1
      rw [item_texts_cons, hchars] at h
      rw [← (List.cons.inj h).1] at hkind
      exact absurd hkind.symm (kind_ne_other other)
  | item :: items, [], front, back, hitems, _, h => by
      obtain ⟨c, rest, hchars, hkind⟩ := text_begins (Bool.and_eq_true _ _ ▸ hitems).1
      rw [item_texts_cons, hchars] at h
      rw [(List.cons.inj h).1] at hkind
      exact absurd hkind.symm (kind_ne_other item)
  | item :: items, other :: others, front, back, hitems, hothers, h => by
      simp only [spelledItems, Bool.and_eq_true] at hitems hothers
      rw [item_texts_cons, item_texts_cons] at h
      obtain ⟨rfl, htail⟩ := text_and_rest item other _ _ hitems.1 hothers.1
        (by split <;> simp [isNumberChar]) (by split <;> simp [isNumberChar]) h
      rcases closed_or_more (by decide) htail with ⟨hnil, hother, hrest⟩ | hmore
      · exact ⟨by rw [hnil, hother], hrest⟩
      · obtain ⟨rfl, hrest⟩ := item_texts_and_rest items others front back hitems.2 hothers.2 hmore
        exact ⟨rfl, hrest⟩

theorem field_texts_and_rest : ∀ (fields others : List (String × Json)) (front back : List Char),
    spelledFields fields = true → spelledFields others = true →
    (join "," (fieldTexts fields)).toList ++ '}' :: front =
      (join "," (fieldTexts others)).toList ++ '}' :: back → fields = others ∧ front = back
  | [], [], _, _, _, _, h => ⟨rfl, (List.cons.inj h).2⟩
  | [], (key, value) :: others, front, back, _, _, h => by
      rw [field_texts_cons, quote_to_list] at h
      exact absurd (List.cons.inj h).1 (by decide)
  | (key, value) :: fields, [], front, back, _, _, h => by
      rw [field_texts_cons, quote_to_list] at h
      exact absurd (List.cons.inj h).1 (by decide)
  | (key, value) :: fields, (name, other) :: others, front, back, hfields, hothers, h => by
      simp only [spelledFields, Bool.and_eq_true] at hfields hothers
      rw [field_texts_cons, field_texts_cons] at h
      obtain ⟨rfl, hvalue⟩ := quote_delimited key name _ _ trivial trivial h
      obtain ⟨rfl, htail⟩ := text_and_rest value other _ _ hfields.1 hothers.1
        (by split <;> simp [isNumberChar]) (by split <;> simp [isNumberChar])
        (List.cons.inj hvalue).2
      rcases closed_or_more (by decide) htail with ⟨hnil, hother, hrest⟩ | hmore
      · exact ⟨by rw [hnil, hother], hrest⟩
      · obtain ⟨rfl, hrest⟩ := field_texts_and_rest fields others front back hfields.2 hothers.2
          hmore
        exact ⟨rfl, hrest⟩
end

theorem text_inj {value other : Json} (hvalue : spelled value = true)
    (hother : spelled other = true) (h : text value = text other) : value = other := by
  refine (text_and_rest value other [] [] hvalue hother nofun nofun ?_).1
  rw [h]

theorem spelled_fields_eq (fields : List (String × Json)) :
    spelledFields fields = fields.all fun field => spelled field.2 := by
  induction fields with
  | nil => rfl
  | cons field fields ih =>
      obtain ⟨key, value⟩ := field
      rw [spelledFields, ih, List.all_cons]

mutual
/-- Sorting the keys respells nothing. -/
theorem spelled_canonical : ∀ value : Json, spelled (canonical value) = spelled value
  | .null | .bool _ | .int _ | .float _ | .str _ => rfl
  | .arr items => by
      rw [canonical, spelled, spelled, spelled_items_canonical]
  | .obj fields => by
      rw [canonical, spelled, spelled, spelled_fields_canonical]

theorem spelled_items_canonical : ∀ items : List Json,
    spelledItems (canonicalItems items) = spelledItems items
  | [] => rfl
  | item :: items => by
      rw [canonicalItems, spelledItems, spelledItems, spelled_canonical,
        spelled_items_canonical]

theorem spelled_fields_canonical : ∀ fields : List (String × Json),
    spelledFields (canonicalFields fields) = spelledFields fields
  | [] => rfl
  | (key, value) :: fields => by
      rw [canonicalFields, spelled_fields_eq, (insert_field_perm _ _).all_eq, List.all_cons,
        ← spelled_fields_eq, spelled_fields_canonical, spelledFields, spelled_canonical]
end

/-- A text that is signed determines the value up to the order of its keys. -/
theorem canonical_text_inj {value other : Json} (hvalue : spelled value = true)
    (hother : spelled other = true) (h : canonicalText value = canonicalText other) :
    canonical value = canonical other :=
  text_inj ((spelled_canonical value).trans hvalue) ((spelled_canonical other).trans hother) h

end Json

end Python
