import Capmesh.Model.Platform
import Capmesh.Python.Ascii
import Capmesh.Python.Delimited

/-!
# The parity digest

`logical_digest` of `logical-catalog-digest.py` hashes the capabilities and the governance tables of
a database, a title and then the sorted rows of each table. `logical_digest_iff` says that it tells
two databases apart exactly when these rows differ. The text that is hashed is read back line by
line: a row is one line of JSON, and no such line is a title or a marker.
-/

namespace Capmesh

open Python

/-- A value of SQLite. -/
inductive SqlValue where
  | null
  | integer (value : Int)
  | text (value : String)
  | blob (data : List UInt8)
  deriving DecidableEq, Repr

/-- A table: the names of its columns, of which it has at least one, and its rows. -/
structure SqlTable where
  columns : List String
  rows : List (List SqlValue)
  columns_ne : columns ≠ []
  width : ∀ row ∈ rows, row.length = columns.length

/-- The tables of a database by their names. -/
abbrev SqlDatabase := String → Option SqlTable

/-- `CAPABILITY_COLUMNS`. -/
def capabilityColumns : List String :=
  ["uri", "canonical_key", "tenant_id", "store_id", "namespace_id", "type", "name", "version",
    "content_hash", "visibility", "discovery_mode", "owner", "plugin", "required_scopes_json",
    "allow_groups_json", "allow_users_json", "risk_tier", "mutating", "lifecycle", "created_by",
    "submitted_by", "promoted_from_uri", "approval_state", "share_state", "signature_status",
    "provenance_status", "risk_review_status"]

/-- `GOVERNANCE_TABLES`. -/
def governanceTables : List String :=
  ["tenants", "identities", "groups", "group_members", "stores", "namespaces", "organizations",
    "namespace_members", "role_assignments", "relationship_tuples", "shares", "apps",
    "capmesh_sessions", "oauth_sessions", "promotion_requests", "approval_steps",
    "promotion_gate_runs", "capability_reviews", "graph_subscriptions", "teams_bindings",
    "scim_sync_state"]

/-- `json_value`. -/
def jsonValue : SqlValue → Json
  | .null => .null
  | .integer value => .int value
  | .text value => .str value
  | .blob data => .obj [("bytes", .str (hexText data))]

/-- `json.dumps` of a row, with `separators=(",", ":")` and without `ensure_ascii`. -/
def rowLine (row : List SqlValue) : String := Json.text (.arr (row.map jsonValue))

/-- `SELECT` of some columns, each in double quotes; SQLite takes such a name that is no column for
a text. -/
def SqlTable.select (table : SqlTable) (columns : List String) : List (List SqlValue) :=
  table.rows.map fun row => columns.map fun column =>
    match table.columns.idxOf? column with
    | some index => row.getD index .null
    | none => .text column

/-- The columns selected: the ones asked for, or all of `PRAGMA table_info`. -/
def SqlTable.selected (table : SqlTable) (columns : Option (List String)) : List String :=
  (columns.filter (· ≠ [])).getD table.columns

/-- `table_lines`. -/
def tableLines (db : SqlDatabase) (name : String) (columns : Option (List String)) : List String :=
  match db name with
  | none => ["<absent>"]
  | some table =>
      let selected := table.selected columns
      if selected = [] then ["<no-columns>"]
      else ((table.select selected).map rowLine).insertionSort (· ≤ ·)

/-- The tables the digest covers, with the columns it takes of each. -/
def coveredTables : List (String × Option (List String)) :=
  ("capabilities", some capabilityColumns) :: governanceTables.map (·, none)

/-- The title of a table. -/
def tableTitle (name : String) : String := "[" ++ name ++ "]"

/-- The lines that `logical_digest` hashes. -/
def digestLines (db : SqlDatabase) : List String :=
  coveredTables.flatMap fun covered =>
    tableTitle covered.1 :: tableLines db covered.1 covered.2

/-- The text that `logical_digest` hashes, a piece at a time. -/
def digestText (db : SqlDatabase) : String :=
  String.ofList ((digestLines db).flatMap fun line => line.toList ++ ['\n'])

/-- `logical_digest`. -/
def logicalDigest (rt : Runtime) (db : SqlDatabase) : String := rt.sha256Text (digestText db)

/-- Two databases lack a table, or hold the same rows of it on the selected columns, in any order. -/
def SameSelection (db other : SqlDatabase) (name : String) (columns : Option (List String)) : Prop :=
  Option.Rel List.Perm ((db name).map fun table => table.select (table.selected columns))
    ((other name).map fun table => table.select (table.selected columns))

/-- The text of a value in a row. -/
def valueText (value : SqlValue) : List Char := (Json.text (jsonValue value)).toList

section

variable {db other : SqlDatabase} {table : SqlTable} {name : String}
variable {columns : Option (List String)} {row : List SqlValue}

theorem value_text_null : valueText .null = ['n', 'u', 'l', 'l'] := by decide +kernel

theorem value_text_text (value : String) : valueText (.text value) = (Json.quote value).toList := rfl

theorem value_text_blob (data : List UInt8) : valueText (.blob data) =
    '\x7b' :: '"' :: 'b' :: 'y' :: 't' :: 'e' :: 's' :: '"' :: ':' ::
      ((Json.quote (hexText data)).toList ++ ['\x7d']) := by
  have hkey : (Json.quote "bytes").toList = ['"', 'b', 'y', 't', 'e', 's', '"'] := by decide +kernel
  simp [valueText, jsonValue, Json.text, Json.fieldTexts, join, hkey]

/-- What the first character of the text of a value says of it. -/
def headKind (c : Char) : Nat :=
  if c = 'n' then 0 else if c = '-' || c.isDigit then 1 else if c = '"' then 2
  else if c = '\x7b' then 3 else 4

/-- The kind of a value. -/
def SqlValue.kind : SqlValue → Nat
  | .null => 0
  | .integer _ => 1
  | .text _ => 2
  | .blob _ => 3

theorem integer_head (value : Int) :
    ∃ c rest, (toString value).toList = c :: rest ∧ headKind c = 1 := by
  have hsome : (toString value).toList ≠ [] := by
    cases value with
    | ofNat n =>
        show (toString n).toList ≠ []
        simp
    | negSucc n =>
        have htext : toString (Int.negSucc n) = "-" ++ toString (n + 1) := rfl
        simp [htext]
  obtain ⟨c, rest, hc⟩ := List.exists_cons_of_ne_nil hsome
  refine ⟨c, rest, hc, ?_⟩
  have hchar := int_text_char value c (hc ▸ List.mem_cons_self)
  have hne : c ≠ 'n' := by
    rintro rfl
    exact absurd hchar (by decide)
  simp [headKind, hne, hchar]

theorem value_text_head (value : SqlValue) :
    ∃ c rest, valueText value = c :: rest ∧ headKind c = value.kind := by
  cases value with
  | null => exact ⟨'n', _, value_text_null, rfl⟩
  | integer value => exact integer_head value
  | text value =>
      have hquote : headKind '"' = 2 := by decide
      exact ⟨'"', _, by rw [value_text_text, quote_to_list], hquote⟩
  | blob data =>
      have hbrace : headKind '\x7b' = 3 := by decide
      exact ⟨'\x7b', _, value_text_blob data, hbrace⟩

/-- The text of a value ends where it is followed by a comma or a bracket. -/
theorem value_delimited : Delimited valueText fun rest =>
    rest.head? = some ',' ∨ rest.head? = some ']' := by
  intro a b front back hfront hback heq
  have hkind : a.kind = b.kind := by
    obtain ⟨c, rest, hc, ha⟩ := value_text_head a
    obtain ⟨d, more, hd, hb⟩ := value_text_head b
    rw [hc, hd] at heq
    rw [← ha, ← hb, (List.cons.inj heq).1]
  have hplain : ∀ rest : List Char, rest.head? = some ',' ∨ rest.head? = some ']' →
      ∀ c ∈ rest.head?, c ≠ '-' ∧ c.isDigit = false := by
    rintro rest (h | h) c hc
    · rw [h, Option.mem_some_iff] at hc
      exact hc ▸ by decide
    · rw [h, Option.mem_some_iff] at hc
      exact hc ▸ by decide
  cases a with
  | null =>
      cases b with
      | null => exact ⟨rfl, List.append_cancel_left heq⟩
      | integer | text | blob => cases hkind
  | integer m =>
      cases b with
      | integer n =>
          obtain ⟨rfl, hrest⟩ :=
            int_delimited m n front back (hplain front hfront) (hplain back hback) heq
          exact ⟨rfl, hrest⟩
      | null | text | blob => cases hkind
  | text text =>
      cases b with
      | text more =>
          obtain ⟨rfl, hrest⟩ := quote_delimited text more front back trivial trivial heq
          exact ⟨rfl, hrest⟩
      | null | integer | blob => cases hkind
  | blob data =>
      cases b with
      | blob more =>
          simp only [value_text_blob, List.cons_append, List.cons.injEq, true_and,
            List.append_assoc] at heq
          obtain ⟨hdata, hrest⟩ :=
            quote_delimited (hexText data) (hexText more) _ _ trivial trivial heq
          exact ⟨by rw [hex_text_inj hdata], List.cons.inj hrest |>.2⟩
      | null | integer | text => cases hkind

theorem row_line_to_list (row : List SqlValue) :
    (rowLine row).toList = '[' :: (separated valueText ',' row ++ [']']) := by
  have hitems : (join "," (Json.itemTexts (row.map jsonValue))).toList =
      separated valueText ',' row := by
    induction row with
    | nil => rfl
    | cons value row ih =>
        cases row with
        | nil => rfl
        | cons next row =>
            have hjoin : join "," (Json.itemTexts ((value :: next :: row).map jsonValue)) =
                Json.text (jsonValue value) ++ "," ++
                  join "," (Json.itemTexts ((next :: row).map jsonValue)) := rfl
            rw [hjoin, String.toList_append, String.toList_append, ih]
            simp [separated, valueText]
  have htext : rowLine row = "[" ++ join "," (Json.itemTexts (row.map jsonValue)) ++ "]" := by
    simp [rowLine, Json.text]
  rw [htext, String.toList_append, String.toList_append, hitems]
  rfl

theorem row_line_injective : Function.Injective rowLine := by
  intro row more heq
  have hchars := congrArg String.toList heq
  rw [row_line_to_list, row_line_to_list] at hchars
  have hbody := (List.cons.inj hchars).2
  have hhead : ∀ value, ∃ c rest, valueText value = c :: rest ∧ c ≠ ']' := by
    intro value
    obtain ⟨c, rest, hc, hkind⟩ := value_text_head value
    refine ⟨c, rest, hc, ?_⟩
    rintro rfl
    have hbracket : headKind ']' = 4 := by decide
    rw [hbracket] at hkind
    cases value <;> cases hkind
  exact (separated_delimited (by decide) value_delimited hhead row more [] [] trivial trivial
    (by simpa using hbody)).1

/-- No line has a line feed in it: JSON escapes those of the texts. -/
theorem row_line_plain (row : List SqlValue) : '\n' ∉ (rowLine row).toList := by
  have hquote : ∀ text, '\n' ∉ (Json.quote text).toList := by
    intro text hmem
    rw [quote_to_list] at hmem
    simp only [List.mem_cons, List.mem_append, List.mem_flatMap, List.not_mem_nil, or_false] at hmem
    rcases hmem with hmem | ⟨c, -, hmem⟩ | hmem
    · exact absurd hmem (by decide)
    · exact escape_plain c hmem
    · exact absurd hmem (by decide)
  have hvalue : ∀ value, '\n' ∉ valueText value := by
    intro value
    cases value with
    | null =>
        rw [value_text_null]
        decide
    | integer value =>
        exact fun hmem => absurd (int_text_char value '\n' hmem) (by decide)
    | text text => exact hquote text
    | blob data =>
        rw [value_text_blob]
        simp [hquote]
  have hseparated : '\n' ∉ separated valueText ',' row := by
    induction row with
    | nil => exact List.not_mem_nil
    | cons value row ih =>
        cases row with
        | nil => exact hvalue value
        | cons next row =>
            simp only [separated, List.mem_append, List.mem_cons, not_or]
            exact ⟨hvalue value, by decide, ih⟩
  rw [row_line_to_list]
  simp [hseparated]

/-- A table name whose title is no row. -/
def plainName (name : List Char) : Bool :=
  match name with
  | c :: d :: rest => (headKind c = 4 || c = 'n' && d ≠ 'u') && !(c :: d :: rest).contains '\n'
  | _ => false

theorem covered_plain : ∀ covered ∈ coveredTables, plainName covered.1.toList = true := by
  simp only [← fast_chars_eq]
  decide +kernel

theorem table_title_to_list (name : String) :
    (tableTitle name).toList = '[' :: (name.toList ++ [']']) := by
  simp [tableTitle]

theorem title_ne_row (hname : plainName name.toList = true) (row : List SqlValue) :
    tableTitle name ≠ rowLine row := by
  intro heq
  have hchars := congrArg String.toList heq
  rw [table_title_to_list, row_line_to_list] at hchars
  have hbody := (List.cons.inj hchars).2
  unfold plainName at hname
  split at hname
  · rename_i c d rest hsplit
    rw [hsplit] at hbody
    cases row with
    | nil => simp [separated] at hbody
    | cons value row =>
        obtain ⟨more, hmore⟩ : ∃ more, separated valueText ',' (value :: row) =
            valueText value ++ more := by
          cases row with
          | nil => exact ⟨[], (List.append_nil _).symm⟩
          | cons next row => exact ⟨_, rfl⟩
        obtain ⟨first, others, hfirst, hkind⟩ := value_text_head value
        rw [hmore, hfirst] at hbody
        have hc : c = first := (List.cons.inj hbody).1
        simp only [Bool.and_eq_true, Bool.or_eq_true, decide_eq_true_eq] at hname
        rcases hname.1 with hfour | ⟨hn, hd⟩
        · rw [← hc, hfour] at hkind
          cases value <;> cases hkind
        · -- only `null` begins as the name does
          have hzero : headKind 'n' = 0 := by decide
          rw [← hc, hn, hzero] at hkind
          cases value with
          | null =>
              rw [value_text_null] at hfirst
              have hothers := (List.cons.inj hfirst).2
              rw [← hothers] at hbody
              exact hd (List.cons.inj (List.cons.inj hbody).2).1
          | integer | text | blob => cases hkind
  · cases hname

theorem table_lines_plain (hname : plainName name.toList = true) (db : SqlDatabase)
    (other : String) (columns : Option (List String)) :
    tableTitle name ∉ tableLines db other columns ∧
      ∀ line ∈ tableLines db other columns, '\n' ∉ line.toList := by
  have hmarkers : ∀ marker ∈ ["<absent>", "<no-columns>"],
      '\n' ∉ marker.toList ∧ marker.toList.head? = some '<' := by decide +kernel
  have hmarker : ∀ marker ∈ ["<absent>", "<no-columns>"],
      tableTitle name ∉ [marker] ∧ ∀ line ∈ [marker], '\n' ∉ line.toList := by
    intro marker hmem
    obtain ⟨hplain, hhead⟩ := hmarkers marker hmem
    constructor
    · intro htitle
      rw [← List.mem_singleton.mp htitle, table_title_to_list] at hhead
      cases hhead
    · exact fun line hline => List.mem_singleton.mp hline ▸ hplain
  unfold tableLines
  split
  · exact hmarker _ (by simp)
  · dsimp only
    split
    · exact hmarker _ (by simp)
    · constructor
      · intro htitle
        rw [List.mem_insertionSort] at htitle
        obtain ⟨row, -, hrow⟩ := List.mem_map.mp htitle
        exact title_ne_row hname row hrow.symm
      · intro line hline
        rw [List.mem_insertionSort] at hline
        obtain ⟨row, -, rfl⟩ := List.mem_map.mp hline
        exact row_line_plain row

theorem digest_text_inj (h : digestText db = digestText other) : ∀ covered ∈ coveredTables,
    tableLines db covered.1 covered.2 = tableLines other covered.1 covered.2 := by
  have hplain : ∀ db, ∀ line ∈ (digestLines db).map String.toList, '\n' ∉ line := by
    intro db line hline
    obtain ⟨line, hmem, rfl⟩ := List.mem_map.mp hline
    obtain ⟨covered, hcovered, hsection⟩ := List.mem_flatMap.mp hmem
    have hname := covered_plain covered hcovered
    rcases List.mem_cons.mp hsection with rfl | hsection
    · have hinside : '\n' ∉ covered.1.toList := by
        unfold plainName at hname
        split at hname
        · rename_i c d rest hsplit
          rw [hsplit]
          rw [Bool.and_eq_true, Bool.not_eq_true', List.contains_eq_mem,
            decide_eq_false_iff_not] at hname
          exact hname.2
        · cases hname
      rw [table_title_to_list]
      simp [hinside]
    · exact (table_lines_plain hname db covered.1 covered.2).2 line hsection
  have hlines : digestLines db = digestLines other := by
    have htext := String.ofList_injective h
    have hflat : ∀ db, (digestLines db).flatMap (fun line => line.toList ++ ['\n']) =
        ((digestLines db).map String.toList).flatMap (· ++ ['\n']) := by
      intro db
      rw [List.flatMap_map]
    rw [hflat, hflat] at htext
    exact List.map_injective_iff.mpr (fun _ _ => String.toList_injective)
      (lines_inj (hplain db) (hplain other) htext)
  exact sections_inj
    (fun covered hcovered title htitle =>
      (table_lines_plain (covered_plain title htitle) db covered.1 covered.2).1)
    (fun covered hcovered title htitle =>
      (table_lines_plain (covered_plain title htitle) other covered.1 covered.2).1) hlines

theorem selected_ne (table : SqlTable) (columns : Option (List String)) :
    table.selected columns ≠ [] := by
  unfold SqlTable.selected
  cases hfilter : columns.filter (· ≠ []) with
  | none => exact table.columns_ne
  | some found =>
      obtain ⟨-, hne⟩ := Option.filter_eq_some_iff.mp hfilter
      simpa using hne

/-- The sorted lines of a table are those of another one exactly when the rows are the same. -/
theorem table_lines_eq_iff (name : String) (columns : Option (List String)) :
    tableLines db name columns = tableLines other name columns ↔
      SameSelection db other name columns := by
  have habsent : ∀ table : SqlTable, ["<absent>"] ≠
      ((table.select (table.selected columns)).map rowLine).insertionSort (· ≤ ·) := by
    intro table heq
    have hmem : "<absent>" ∈ ((table.select (table.selected columns)).map rowLine) := by
      rw [← List.mem_insertionSort (· ≤ ·), ← heq]
      exact List.mem_singleton_self _
    obtain ⟨row, -, hrow⟩ := List.mem_map.mp hmem
    have hhead := congrArg (·.toList.head?) hrow
    simp only [row_line_to_list, List.head?_cons] at hhead
    exact absurd hhead (by decide)
  unfold tableLines SameSelection
  cases hdb : db name with
  | none =>
      cases hother : other name with
      | none => exact iff_of_true rfl .none
      | some theirs =>
          simp only [selected_ne, if_false]
          exact iff_of_false (habsent theirs) nofun
  | some ours =>
      cases hother : other name with
      | none =>
          simp only [selected_ne, if_false]
          exact iff_of_false (fun h => habsent ours h.symm) nofun
      | some theirs =>
          simp only [selected_ne, if_false, Option.map_some]
          constructor
          · intro heq
            refine .some ((List.map_perm_map_iff row_line_injective).mp ?_)
            exact ((List.perm_insertionSort (· ≤ ·) _).symm.trans (heq ▸ .refl _)).trans
              (List.perm_insertionSort (· ≤ ·) _)
          · rintro (⟨hperm⟩)
            refine List.Perm.eq_of_pairwise' (List.pairwise_insertionSort (· ≤ ·) _)
              (List.pairwise_insertionSort (· ≤ ·) _) ?_
            exact ((List.perm_insertionSort (· ≤ ·) _).trans (hperm.map rowLine)).trans
              (List.perm_insertionSort (· ≤ ·) _).symm

/-- The text that is hashed depends on the covered rows alone, and not on their order. -/
theorem digest_text_congr (h : ∀ covered ∈ coveredTables,
      SameSelection db other covered.1 covered.2) : digestText db = digestText other := by
  have hlines : digestLines db = digestLines other := by
    unfold digestLines
    refine List.flatMap_congr fun covered hcovered => ?_
    rw [(table_lines_eq_iff _ _).mpr (h covered hcovered)]
  rw [digestText, digestText, hlines]

end

/-- The digests of two databases are equal exactly when each covered table is missing from both or
holds the same rows in both. -/
theorem logical_digest_iff (rt : Runtime) (db other : SqlDatabase)
    (hcollision : rt.sha256Text (digestText db) = rt.sha256Text (digestText other) →
      digestText db = digestText other) :
    logicalDigest rt db = logicalDigest rt other ↔
      ∀ covered ∈ coveredTables, SameSelection db other covered.1 covered.2 := by
  constructor
  · intro h covered hcovered
    exact (table_lines_eq_iff _ _).mp (digest_text_inj (hcollision h) covered hcovered)
  · intro h
    rw [logicalDigest, logicalDigest, digest_text_congr h]

/-- A database with groups alone. -/
def groupsDatabase (rows : List (List SqlValue)) (h : ∀ row ∈ rows, row.length = 2) :
    SqlDatabase := fun name =>
  if name = "groups" then some ⟨["group_id", "parent_id"], rows, by simp, h⟩ else none

/-- Two groups, the one in the other. -/
def twoGroups : SqlDatabase :=
  groupsDatabase [[.text "eng", .null], [.text "ops", .text "eng"]] (by simp)

/-- The same groups, read in the other order. -/
def twoGroupsReversed : SqlDatabase :=
  groupsDatabase [[.text "ops", .text "eng"], [.text "eng", .null]] (by simp)

/-- A deployment that knows the digest of the two groups. -/
def groupsPlatform : Platform := .ascii fun content =>
  if content = (digestText twoGroups).toUTF8.data.toList then
    "a940677972d3cc8124a67dbd52b47f643ee671d970d6a227228c17169dfd01d0"
  else ""

/-- The order of the rows does not matter to the digest. -/
theorem logical_digest_iff_groups :
    logicalDigest groupsPlatform.toRuntime twoGroups =
        logicalDigest groupsPlatform.toRuntime twoGroupsReversed ↔
      ∀ covered ∈ coveredTables,
        SameSelection twoGroups twoGroupsReversed covered.1 covered.2 := by
  have hsame : ∀ name columns, SameSelection twoGroups twoGroupsReversed name columns := by
    intro name columns
    unfold SameSelection twoGroups twoGroupsReversed groupsDatabase
    by_cases hname : name = "groups"
    · rw [if_pos hname, if_pos hname]
      exact .some (List.Perm.map _ (.swap _ _ _))
    · rw [if_neg hname, if_neg hname]
      exact .none
  exact logical_digest_iff groupsPlatform.toRuntime twoGroups twoGroupsReversed fun _ =>
    digest_text_congr fun covered _ => hsame covered.1 covered.2

end Capmesh
