import Capmesh.Python.Json

/-!
# Canonical JSON

Sorting the fields of every object, as `sort_keys=True` does, changes no lookup, and a second
sorting changes nothing.
-/

namespace Python

namespace Json

/-- The fields of an object in the order of their keys. -/
def SortedKeys (fields : List (String × Json)) : Prop := fields.Pairwise fun a b => a.1 ≤ b.1

theorem find?_insert_field (field : String × Json) (fields : List (String × Json)) (key : String) :
    (insertField field fields).find? (fun other => other.1 = key) =
      if field.1 = key then some field else fields.find? (fun other => other.1 = key) := by
  induction fields with
  | nil => by_cases hkey : field.1 = key <;> simp [insertField, hkey]
  | cons other fields ih =>
      unfold insertField
      split
      · by_cases hkey : field.1 = key <;> simp [hkey]
      · rename_i hless
        have hne : other.1 ≠ field.1 := fun heq => hless (heq ▸ String.le_refl _)
        by_cases hother : other.1 = key
        · have hkey : ¬ field.1 = key := fun heq => hne (hother.trans heq.symm)
          simp [hother, hkey]
        · rw [List.find?_cons_of_neg (by simpa using hother), ih,
            List.find?_cons_of_neg (by simpa using hother)]

/-- A lookup among sorted fields finds what it found before, sorted. -/
theorem find?_canonical_fields (fields : List (String × Json)) (key : String) :
    (canonicalFields fields).find? (fun field => field.1 = key) =
      (fields.find? (fun field => field.1 = key)).map fun field => (field.1, canonical field.2) := by
  induction fields with
  | nil => rfl
  | cons field fields ih =>
      obtain ⟨name, value⟩ := field
      rw [canonicalFields, find?_insert_field, ih]
      by_cases hkey : name = key <;> simp [hkey]

theorem insert_field_ne_nil (field : String × Json) (fields : List (String × Json)) :
    insertField field fields ≠ [] := by
  cases fields with
  | nil => simp [insertField]
  | cons other fields =>
      unfold insertField
      split <;> simp

theorem canonical_truthy (value : Json) : (canonical value).truthy = value.truthy := by
  cases value with
  | null | bool | int | float | str => rfl
  | arr items => cases items <;> rfl
  | obj fields =>
      cases fields with
      | nil => rfl
      | cons field fields =>
          have hne := insert_field_ne_nil (field.1, canonical field.2) (canonicalFields fields)
          show (!(insertField (field.1, canonical field.2) (canonicalFields fields)).isEmpty) = true
          simpa using hne

theorem insert_field_perm (field : String × Json) (fields : List (String × Json)) :
    (insertField field fields).Perm (field :: fields) := by
  induction fields with
  | nil => exact .refl _
  | cons other fields ih =>
      unfold insertField
      split
      · exact .refl _
      · exact (ih.cons other).trans (.swap _ _ _)

/-- Sorted fields are the fields of before, with sorted values. -/
theorem canonical_fields_perm (fields : List (String × Json)) :
    (canonicalFields fields).Perm (fields.map fun field => (field.1, canonical field.2)) := by
  induction fields with
  | nil => exact .refl _
  | cons field fields ih => exact (insert_field_perm _ _).trans (ih.cons _)

theorem sorted_insert_field {field : String × Json} {fields : List (String × Json)}
    (h : SortedKeys fields) : SortedKeys (insertField field fields) := by
  induction fields with
  | nil => exact List.pairwise_singleton _ _
  | cons other fields ih =>
      obtain ⟨hother, hfields⟩ := List.pairwise_cons.mp h
      unfold insertField
      split
      · rename_i hle
        exact List.pairwise_cons.mpr ⟨fun later hlater => by
          rcases List.mem_cons.mp hlater with rfl | hlater
          · exact hle
          · exact String.le_trans hle (hother later hlater), h⟩
      · rename_i hless
        refine List.pairwise_cons.mpr ⟨fun later hlater => ?_, ih hfields⟩
        rcases List.mem_cons.mp ((insert_field_perm field fields).mem_iff.mp hlater) with
          rfl | hlater
        · exact (String.le_total _ _).resolve_left hless
        · exact hother later hlater

theorem sorted_canonical_fields (fields : List (String × Json)) :
    SortedKeys (canonicalFields fields) := by
  induction fields with
  | nil => exact .nil
  | cons field fields ih => exact sorted_insert_field ih

theorem canonical_fields_of_sorted {fields : List (String × Json)} (h : SortedKeys fields)
    (hvalues : ∀ field ∈ fields, canonical field.2 = field.2) : canonicalFields fields = fields := by
  induction fields with
  | nil => rfl
  | cons field fields ih =>
      obtain ⟨hfield, hfields⟩ := List.pairwise_cons.mp h
      rw [canonicalFields, ih hfields fun other hother => hvalues other (.tail _ hother),
        hvalues field (.head _)]
      cases fields with
      | nil => rfl
      | cons other fields => exact if_pos (hfield other (.head _))

mutual
/-- A second sorting changes nothing. -/
theorem canonical_canonical : ∀ value : Json, canonical (canonical value) = canonical value
  | .null | .bool _ | .int _ | .float _ | .str _ => rfl
  | .arr items => congrArg arr (canonical_items_canonical items)
  | .obj fields => congrArg obj <|
      canonical_fields_of_sorted (sorted_canonical_fields fields) fun field hfield => by
        obtain ⟨origin, horigin, rfl⟩ :=
          List.mem_map.mp ((canonical_fields_perm fields).mem_iff.mp hfield)
        exact canonical_values_canonical fields origin horigin

theorem canonical_items_canonical : ∀ items : List Json,
    canonicalItems (canonicalItems items) = canonicalItems items
  | [] => rfl
  | item :: items => by
      rw [canonicalItems, canonicalItems, canonical_canonical item, canonical_items_canonical items]

theorem canonical_values_canonical : ∀ fields : List (String × Json), ∀ field ∈ fields,
    canonical (canonical field.2) = canonical field.2
  | first :: fields, field, h => by
      obtain ⟨key, value⟩ := first
      rcases List.mem_cons.mp h with rfl | h
      · exact canonical_canonical value
      · exact canonical_values_canonical fields field h
end

/-- Sorting an object starts with sorting its values. -/
theorem canonical_fields_map (fields : List (String × Json)) :
    canonicalFields (fields.map fun field => (field.1, canonical field.2)) =
      canonicalFields fields := by
  induction fields with
  | nil => rfl
  | cons field fields ih =>
      obtain ⟨key, value⟩ := field
      rw [List.map_cons, canonicalFields, canonicalFields, ih, canonical_canonical]

/-- Objects with the same sorted values, in one order, sort alike. -/
theorem canonical_fields_congr {fields others : List (String × Json)}
    (h : fields.map (fun field => (field.1, canonical field.2)) =
      others.map fun field => (field.1, canonical field.2)) :
    canonicalFields fields = canonicalFields others := by
  rw [← canonical_fields_map, h, canonical_fields_map]

theorem filter_insert_field {field : String × Json} {fields : List (String × Json)}
    (allowed : String → Bool) (h : SortedKeys fields) :
    (insertField field fields).filter (fun field => allowed field.1) =
      if allowed field.1 then insertField field (fields.filter fun field => allowed field.1)
      else fields.filter fun field => allowed field.1 := by
  induction fields with
  | nil => cases hfield : allowed field.1 <;> simp [insertField, hfield]
  | cons other fields ih =>
      obtain ⟨hother, hfields⟩ := List.pairwise_cons.mp h
      by_cases hle : field.1 ≤ other.1
      · -- whatever the filter leaves first is no smaller
        have hfirst : insertField field ((other :: fields).filter fun field => allowed field.1) =
            field :: (other :: fields).filter fun field => allowed field.1 := by
          cases hrest : (other :: fields).filter fun field => allowed field.1 with
          | nil => rfl
          | cons first rest =>
              have hmem : first ∈ other :: fields :=
                List.mem_of_mem_filter (hrest ▸ List.mem_cons_self)
              have hfirst : field.1 ≤ first.1 := by
                rcases List.mem_cons.mp hmem with rfl | hmem
                · exact hle
                · exact String.le_trans hle (hother first hmem)
              exact if_pos hfirst
        rw [hfirst, show insertField field (other :: fields) = field :: other :: fields from
          if_pos hle, List.filter_cons]
      · rw [show insertField field (other :: fields) = other :: insertField field fields from
          if_neg hle, List.filter_cons, ih hfields, List.filter_cons]
        by_cases hallowed : allowed other.1 = true
        · have hlater : ∀ rest, insertField field (other :: rest) = other :: insertField field rest :=
            fun _ => if_neg hle
          rw [if_pos hallowed, if_pos hallowed, hlater]
          split <;> rfl
        · rw [if_neg hallowed, if_neg hallowed]

/-- Sorting commutes with dropping keys. -/
theorem canonical_fields_filter (allowed : String → Bool) (fields : List (String × Json)) :
    canonicalFields (fields.filter fun field => allowed field.1) =
      (canonicalFields fields).filter fun field => allowed field.1 := by
  induction fields with
  | nil => rfl
  | cons field fields ih =>
      rw [canonicalFields, filter_insert_field allowed (sorted_canonical_fields fields), ← ih,
        List.filter_cons]
      split <;> rfl

/-- The signed text does not tell a value from its sorted form. -/
theorem canonical_text_canonical (value : Json) :
    canonicalText (canonical value) = canonicalText value := by
  rw [canonicalText, canonicalText, canonical_canonical]

theorem json_dumps_canonical (value : Json) : jsonDumps (canonical value) = jsonDumps value := by
  rw [jsonDumps, jsonDumps, canonical_canonical]

end Json

namespace Dict

open Json

theorem get?_canonical_fields (data : Dict) (key : String) :
    get? (canonicalFields data) key = (get? data key).map canonical := by
  unfold get?
  rw [find?_canonical_fields]
  cases data.find? (fun field => field.1 = key) with
  | none => rfl
  | some field =>
      obtain ⟨name, value⟩ := field
      cases value <;> rfl

/-- `get` gives no `None` that is there. -/
theorem get?_ne_null (data : Dict) (key : String) : get? data key ≠ some .null := by
  unfold get?
  cases data.find? (fun field => field.1 = key) with
  | none => nofun
  | some field =>
      obtain ⟨name, value⟩ := field
      cases value <;> nofun

theorem has_canonical_fields (data : Dict) (key : String) :
    has (canonicalFields data) key = has data key := by
  rw [has, has, (canonical_fields_perm data).any_eq, List.any_map]
  rfl

/-- Sorting its keys leaves a dictionary as true as it was at every key. -/
theorem truthy_canonical_fields (data : Dict) (key : String) :
    truthy (canonicalFields data) key = truthy data key := by
  unfold truthy
  rw [get?_canonical_fields]
  cases get? data key with
  | none => rfl
  | some value => exact canonical_truthy value

/-- A dictionary that was written with sorted keys, and read back. -/
structure Rewritten (data read : Dict) : Prop where
  same : canonicalFields read = canonicalFields data
  sorted : ∀ field ∈ read, canonical field.2 = field.2

theorem rewritten_canonical_fields (data : Dict) : Rewritten data (canonicalFields data) where
  same := Json.obj.inj (canonical_canonical (.obj data))
  sorted field hfield := by
    obtain ⟨origin, -, rfl⟩ := List.mem_map.mp ((canonical_fields_perm data).mem_iff.mp hfield)
    exact canonical_canonical origin.2

theorem rewritten_map (data : Dict) :
    Rewritten data (data.map fun field => (field.1, canonical field.2)) where
  same := canonical_fields_map data
  sorted field hfield := by
    obtain ⟨origin, -, rfl⟩ := List.mem_map.mp hfield
    exact canonical_canonical origin.2

theorem Rewritten.get? {data read : Dict} (h : Rewritten data read) (key : String) :
    Dict.get? read key = (Dict.get? data key).map canonical := by
  rw [← get?_canonical_fields, ← h.same, get?_canonical_fields]
  unfold Dict.get?
  cases hfind : read.find? fun field => field.1 = key with
  | none => rfl
  | some field =>
      obtain ⟨name, value⟩ := field
      have hsorted : canonical value = value := h.sorted _ (List.mem_of_find?_eq_some hfind)
      cases value with
      | null => rfl
      | bool | int | float | str => rfl
      | arr | obj => exact congrArg some hsorted.symm

theorem Rewritten.has {data read : Dict} (h : Rewritten data read) (key : String) :
    Dict.has read key = Dict.has data key := by
  rw [← has_canonical_fields, h.same, has_canonical_fields]

theorem Rewritten.all_keys {data read : Dict} (h : Rewritten data read) (allowed : String → Bool) :
    read.all (fun field => allowed field.1) = data.all fun field => allowed field.1 := by
  have hsorted : ∀ fields : Dict, (canonicalFields fields).all (fun field => allowed field.1) =
      fields.all fun field => allowed field.1 := fun fields => by
    rw [(canonical_fields_perm fields).all_eq, List.all_map]
    rfl
  rw [← hsorted read, h.same, hsorted data]

variable {data : Dict} {key other : String}

/-- A dictionary has one value at a key. -/
structure Holds (data : Dict) (key : String) (value : Json) : Prop where
  has : data.has key = true
  only : ∀ field ∈ data, field.1 = key → field.2 = value

theorem holds_set (data : Dict) (key : String) (value : Json) :
    Holds (data.set key value) key value := by
  unfold set
  split
  · rename_i hhas
    obtain ⟨field, hfield, hkey⟩ := List.any_eq_true.mp hhas
    refine ⟨List.any_eq_true.mpr ⟨(key, value), List.mem_map.mpr ⟨field, hfield, ?_⟩, by simp⟩, ?_⟩
    · rw [if_pos (by simpa using hkey)]
    · intro other hother hkey
      obtain ⟨origin, -, rfl⟩ := List.mem_map.mp hother
      by_cases hsame : origin.1 = key
      · simp [hsame]
      · rw [if_neg hsame] at hkey
        exact absurd hkey hsame
  · rename_i hhas
    refine ⟨List.any_eq_true.mpr ⟨(key, value), by simp, by simp⟩, fun other hother hkey => ?_⟩
    rcases List.mem_append.mp hother with hother | hother
    · exact absurd (List.any_eq_true.mpr ⟨other, hother, by simpa using hkey⟩) hhas
    · rw [List.mem_singleton.mp hother]

theorem Holds.set_of_ne {value : Json} (h : Holds data key value) (other : Json) {name : String}
    (hne : name ≠ key) : Holds (data.set name other) key value := by
  unfold set
  split
  · obtain ⟨field, hfield, hkey⟩ := List.any_eq_true.mp h.has
    have hkey : field.1 = key := by simpa using hkey
    refine ⟨List.any_eq_true.mpr ⟨field, List.mem_map.mpr ⟨field, hfield, ?_⟩, by simpa using hkey⟩,
      fun x hx hxkey => ?_⟩
    · rw [if_neg fun hname => hne (hname.symm.trans hkey)]
    · obtain ⟨origin, horigin, rfl⟩ := List.mem_map.mp hx
      by_cases hname : origin.1 = name
      · rw [if_pos hname] at hxkey
        exact absurd hxkey hne
      · rw [if_neg hname] at hxkey ⊢
        exact h.only origin horigin hxkey
  · obtain ⟨field, hfield, hkey⟩ := List.any_eq_true.mp h.has
    refine ⟨List.any_eq_true.mpr ⟨field, List.mem_append_left _ hfield, hkey⟩, fun x hx hxkey => ?_⟩
    rcases List.mem_append.mp hx with hx | hx
    · exact h.only x hx hxkey
    · rw [List.mem_singleton.mp hx] at hxkey
      exact absurd hxkey hne

/-- Setting a key to the value it has changes nothing. -/
theorem Holds.set_eq {value : Json} (h : Holds data key value) : data.set key value = data := by
  rw [set, if_pos h.has]
  refine (List.map_congr_left fun field hfield => ?_).trans (List.map_id data)
  by_cases hkey : field.1 = key
  · rw [if_pos hkey, ← hkey, ← h.only field hfield hkey]
    rfl
  · rw [if_neg hkey]
    rfl

/-- Setting a key to a value that sorts alike leaves the sorted dictionary. -/
theorem Holds.canonical_set {value new : Json} (h : Holds data key value)
    (hsame : canonical new = canonical value) :
    canonicalFields (data.set key new) = canonicalFields data := by
  rw [set, if_pos h.has, ← canonical_fields_map, ← canonical_fields_map data, List.map_map]
  congr 1
  refine List.map_congr_left fun field hfield => ?_
  by_cases hkey : field.1 = key
  · rw [Function.comp_apply, if_pos hkey, h.only field hfield hkey, hsame, hkey]
  · rw [Function.comp_apply, if_neg hkey]

theorem Holds.get? {value : Json} (h : Holds data key value) (hne : value ≠ .null) :
    Dict.get? data key = some value := by
  rw [← h.set_eq]
  exact get?_set data key hne

/-- What a dictionary has at a key is read back, sorted. -/
theorem Holds.read {read : Dict} {value : Json} (h : Holds data key value)
    (hread : Rewritten data read) : Holds read key (canonical value) where
  has := (hread.has key).trans h.has
  only field hfield hkey := by
    have hsorted : (field.1, canonical field.2) ∈
        data.map fun field => (field.1, canonical field.2) := by
      rw [← (canonical_fields_perm data).mem_iff, ← hread.same,
        (canonical_fields_perm read).mem_iff]
      exact List.mem_map_of_mem hfield
    obtain ⟨origin, horigin, heq⟩ := List.mem_map.mp hsorted
    obtain ⟨hname, hvalue⟩ := Prod.mk.inj heq
    rw [← hread.sorted field hfield, ← hvalue, h.only origin horigin (hname.trans hkey)]

/-- Setting a key of a class leaves whether all keys are of the class. -/
theorem all_keys_set {allowed : String → Bool} (hkey : allowed key = true) (value : Json) :
    (data.set key value).all (fun field => allowed field.1) =
      data.all fun field => allowed field.1 := by
  unfold set
  split
  · rw [List.all_map]
    congr 1
    funext field
    by_cases hsame : field.1 = key
    · rw [Function.comp_apply, if_pos hsame, hsame]
    · rw [Function.comp_apply, if_neg hsame]
  · simp [hkey]

theorem truthy_set_of_ne (data : Dict) (value : Json) (h : key ≠ other) :
    (data.set key value).truthy other = data.truthy other := by
  unfold truthy
  rw [get?_set_of_ne data value h]

theorem truthy_set_default_of_ne (data : Dict) (value : Json) (h : key ≠ other) :
    (data.setDefault key value).truthy other = data.truthy other := by
  unfold truthy
  rw [get?_setDefault_of_ne data value h]

end Dict

end Python
