import Capmesh.Python.Canonical

/-!
# Equality of JSON values

`==` on JSON values: objects compare without the order of their fields, and numbers by their value,
`True` included.
-/

namespace Python

/-- What `==` compares of a number: its value if it is whole, else the literal of a float. -/
inductive Number where
  | whole (value : Int)
  | other (literal : String)
  deriving DecidableEq, Repr

namespace Json

section

variable (whole : String → Option Int)

/-- The number that a value is; `whole` reads the literal of a float that is an integer. -/
def number : Json → Option Number
  | .bool value => some (.whole (if value then 1 else 0))
  | .int value => some (.whole value)
  | .float literal =>
      match whole literal with
      | some value => some (.whole value)
      | none => some (.other literal)
  | _ => none

/-- `==` on numbers; `nan` differs from itself. -/
def sameNumber (a b : Json) : Bool :=
  match number whole a, number whole b with
  | some m, some n => m = n && m ≠ .other "NaN"
  | _, _ => false

/-- The one object that `json.loads` has for every `NaN`. -/
def isNan : Json → Bool
  | .float literal => literal = "NaN"
  | _ => false

-- members of a list or an object are compared by identity first
mutual
/-- `==`. -/
def equals : Json → Json → Bool
  | .null, .null => true
  | .str a, .str b => a = b
  | .arr a, .arr b => equalItems a b
  | .obj a, .obj b => a.length = b.length && equalFields a b
  | a, b => sameNumber whole a b

/-- `==` on lists. -/
def equalItems : List Json → List Json → Bool
  | [], [] => true
  | a :: as, b :: bs => (isNan a && isNan b || equals a b) && equalItems as bs
  | _, _ => false

/-- Whether the other object has each field, with an equal value. -/
def equalFields : List (String × Json) → List (String × Json) → Bool
  | [], _ => true
  | (key, a) :: as, bs =>
      (match bs.find? fun field => field.1 = key with
        | some (_, b) => isNan a && isNan b || equals a b
        | none => false) && equalFields as bs
end

end

section

variable {whole : String → Option Int} {repr : String → String}

@[simp] theorem is_nan_canonical (value : Json) : isNan (canonical value) = isNan value := by
  cases value <;> rfl

theorem equal_fields_eq_all (as bs : List (String × Json)) :
    equalFields whole as bs = as.all fun field =>
      (bs.find? fun other => other.1 = field.1).any fun other =>
        isNan field.2 && isNan other.2 || equals whole field.2 other.2 := by
  induction as with
  | nil => rfl
  | cons field as ih =>
      obtain ⟨key, a⟩ := field
      rw [equalFields, ih, List.all_cons]
      cases bs.find? fun other => other.1 = key <;> rfl

mutual
/-- Sorting changes nothing for `==`. -/
theorem equals_canonical : ∀ a b : Json,
    equals whole (canonical a) (canonical b) = equals whole a b
  | .null, b | .bool _, b | .int _, b | .float _, b | .str _, b => by cases b <;> rfl
  | .arr as, b => by
      cases b with
      | arr bs => exact equal_items_canonical as bs
      | null | bool | int | float | str | obj => rfl
  | .obj as, b => by
      cases b with
      | obj bs =>
          show ((canonicalFields as).length = (canonicalFields bs).length &&
            equalFields whole (canonicalFields as) (canonicalFields bs)) =
              (as.length = bs.length && equalFields whole as bs)
          rw [equal_fields_eq_all, equal_fields_eq_all, (canonical_fields_perm as).all_eq,
            (canonical_fields_perm as).length_eq, (canonical_fields_perm bs).length_eq,
            List.length_map, List.length_map, List.all_map]
          congr 1
          rw [Bool.eq_iff_iff, List.all_eq_true, List.all_eq_true]
          refine forall₂_congr fun field hfield => ?_
          rw [Function.comp_apply, find?_canonical_fields, Option.any_map]
          show Option.any (fun other : String × Json =>
            isNan (canonical field.2) && isNan (canonical other.2) ||
              equals whole (canonical field.2) (canonical other.2)) _ = true ↔ _
          simp only [is_nan_canonical, equal_values_canonical as field hfield]
      | null | bool | int | float | str | arr => rfl

theorem equal_items_canonical : ∀ as bs : List Json,
    equalItems whole (canonicalItems as) (canonicalItems bs) = equalItems whole as bs
  | [], bs => by cases bs <;> rfl
  | a :: as, [] => rfl
  | a :: as, b :: bs => by
      show ((isNan (canonical a) && isNan (canonical b) ||
          equals whole (canonical a) (canonical b)) &&
        equalItems whole (canonicalItems as) (canonicalItems bs)) = _
      rw [is_nan_canonical, is_nan_canonical, equals_canonical a b, equal_items_canonical as bs]
      rfl

theorem equal_values_canonical : ∀ as : List (String × Json), ∀ field ∈ as, ∀ b : Json,
    equals whole (canonical field.2) (canonical b) = equals whole field.2 b
  | first :: as, field, h, b => by
      obtain ⟨key, a⟩ := first
      rcases List.mem_cons.mp h with rfl | h
      · exact equals_canonical a b
      · exact equal_values_canonical as field h b
end

theorem equals_str (value : Json) (text : String) :
    equals whole value (.str text) = (value = .str text) := by
  cases value <;> simp [equals, sameNumber, number]

end

end Json

end Python
