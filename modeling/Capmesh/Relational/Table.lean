import Mathlib.Data.List.Pairwise

/-!
# Tables with uniqueness constraints

A `Table` is a list of rows no two of which conflict. The conflict relation of a
row type collects its primary key, its unique columns, and its partial unique
indexes, so a table that breaks one of them cannot be built. `insert?` and
`update?` are the SQL statements that may violate a constraint and then fail;
`map` and `filter` are the ones that cannot. `eq_of_conflict` and
`find?_eq_some` are the lookup rules: a key determines its row.
-/

namespace Relational

/-- The uniqueness constraints of a row type, as one decidable symmetric relation: two rows
conflict when they may not stand in one table. -/
class Constrained (ρ : Type) where
  Conflict : ρ → ρ → Prop
  symm : ∀ {a b : ρ}, Conflict a b → Conflict b a
  decidable : DecidableRel Conflict := by exact fun _ _ => inferInstance

open Constrained

instance {ρ : Type} [Constrained ρ] : DecidableRel (Conflict (ρ := ρ)) := Constrained.decidable

/-- A table: rows in insertion order, pairwise without conflict. -/
structure Table (ρ : Type) [Constrained ρ] where
  rows : List ρ
  unique : rows.Pairwise fun a b => ¬ Conflict a b

namespace Table

variable {ρ : Type} [Constrained ρ]

instance : Membership ρ (Table ρ) where
  mem table row := row ∈ table.rows

/-- The table without rows. -/
def empty : Table ρ := ⟨[], .nil⟩

/-- The first row satisfying `p`. -/
def find? (table : Table ρ) (p : ρ → Bool) : Option ρ := table.rows.find? p

/-- Whether some row satisfies `p`. -/
def any (table : Table ρ) (p : ρ → Bool) : Bool := table.rows.any p

/-- `INSERT`: append a row, or fail when it conflicts with a row already there. -/
def insert? (table : Table ρ) (row : ρ) : Option (Table ρ) :=
  if h : ∀ x ∈ table.rows, ¬ Conflict x row then
    some ⟨table.rows ++ [row], by
      refine List.pairwise_append.mpr ⟨table.unique, List.pairwise_singleton _ _, ?_⟩
      intro a ha b hb
      rw [List.mem_singleton.mp hb]
      exact h a ha⟩
  else none

/-- `UPDATE`: rewrite every row by `f`, or fail when two of the results conflict. -/
def update? (table : Table ρ) (f : ρ → ρ) : Option (Table ρ) :=
  if h : (table.rows.map f).Pairwise fun a b => ¬ Conflict a b then some ⟨table.rows.map f, h⟩
  else none

/-- `UPDATE` of columns no constraint mentions, which cannot fail. -/
def map (table : Table ρ) (f : ρ → ρ) (hf : ∀ a b, Conflict (f a) (f b) → Conflict a b) :
    Table ρ :=
  ⟨table.rows.map f, List.pairwise_map.mpr
    (table.unique.imp fun hab hconflict => hab (hf _ _ hconflict))⟩

/-- `DELETE`: keep the rows satisfying `p`. -/
def filter (table : Table ρ) (p : ρ → Bool) : Table ρ :=
  ⟨table.rows.filter p, table.unique.filter p⟩

/-- `INSERT OR REPLACE`: append a row in place of every row it conflicts with. -/
def replace (table : Table ρ) (row : ρ) : Table ρ where
  rows := table.rows.filter (fun x => ¬ Conflict x row) ++ [row]
  unique := by
    refine List.pairwise_append.mpr
      ⟨table.unique.filter _, List.pairwise_singleton _ _, fun a ha b hb => ?_⟩
    rw [List.mem_singleton.mp hb]
    simpa using (List.mem_filter.mp ha).2

variable {table result : Table ρ} {row : ρ} {f : ρ → ρ} {p : ρ → Bool}

@[ext] theorem ext {left right : Table ρ} (h : left.rows = right.rows) : left = right := by
  cases left
  cases right
  cases h
  rfl

@[simp] theorem mem_rows (x : ρ) : x ∈ table.rows ↔ x ∈ table := Iff.rfl

@[simp] theorem not_mem_empty (x : ρ) : x ∉ (empty : Table ρ) := List.not_mem_nil

@[simp] theorem rows_map (hf) : (table.map f hf).rows = table.rows.map f := rfl

theorem mem_map (hf) (x : ρ) : x ∈ table.map f hf ↔ ∃ y ∈ table, f y = x := List.mem_map

@[simp] theorem mem_filter (x : ρ) : x ∈ table.filter p ↔ x ∈ table ∧ p x = true :=
  List.mem_filter

/-- Two rows of a table that conflict are the same row. -/
theorem eq_of_conflict {a b : ρ} (ha : a ∈ table) (hb : b ∈ table) (h : Conflict a b) :
    a = b := by
  by_contra hne
  have hsymm : Std.Symm fun a b : ρ => ¬ Conflict a b := ⟨fun _ _ hab hba => hab (symm hba)⟩
  exact table.unique.forall ha hb hne h

theorem rows_insert? (h : table.insert? row = some result) :
    result.rows = table.rows ++ [row] := by
  unfold insert? at h
  split at h
  · cases h
    rfl
  · cases h

theorem not_conflict_of_insert? (h : table.insert? row = some result) :
    ∀ x ∈ table, ¬ Conflict x row := by
  unfold insert? at h
  split at h
  · assumption
  · cases h

theorem mem_insert? (h : table.insert? row = some result) (x : ρ) :
    x ∈ result ↔ x ∈ table ∨ x = row := by
  rw [← mem_rows, rows_insert? h]
  simp

theorem insert?_isSome_iff : (table.insert? row).isSome ↔ ∀ x ∈ table, ¬ Conflict x row := by
  unfold insert?
  split <;> simp_all

theorem mem_replace (x : ρ) :
    x ∈ table.replace row ↔ (x ∈ table ∧ ¬ Conflict x row) ∨ x = row := by
  rw [← mem_rows]
  simp [replace]

theorem rows_update? (h : table.update? f = some result) : result.rows = table.rows.map f := by
  unfold update? at h
  split at h
  · cases h
    rfl
  · cases h

theorem mem_update? (h : table.update? f = some result) (x : ρ) :
    x ∈ result ↔ ∃ y ∈ table, f y = x := by
  rw [← mem_rows, rows_update? h]
  exact List.mem_map

/-- An update that changes no row succeeds and leaves the table as it is. -/
theorem update?_eq_self (h : ∀ x ∈ table, f x = x) : table.update? f = some table := by
  have hrows : table.rows.map f = table.rows := by
    rw [List.map_congr_left h]
    exact List.map_id _
  unfold update?
  rw [dif_pos (by rw [hrows]; exact table.unique)]
  exact congrArg some (ext hrows)

/-- An update that brings no two rows into conflict succeeds. -/
theorem update?_of_keeps (h : ∀ a ∈ table, ∀ b ∈ table, Conflict (f a) (f b) → Conflict a b) :
    ∃ result, table.update? f = some result :=
  ⟨_, dif_pos (List.pairwise_map.mpr (table.unique.imp_of_mem fun ha hb hab hconflict =>
    hab (h _ ha _ hb hconflict)))⟩

theorem find?_some {x : ρ} (h : table.find? p = some x) : x ∈ table ∧ p x = true :=
  ⟨List.mem_of_find?_eq_some h, List.find?_some h⟩

theorem find?_none (h : table.find? p = none) {x : ρ} (hx : x ∈ table) : p x = false := by
  have hnone := List.find?_eq_none.mp h x hx
  simpa using hnone

/-- Looking up a key finds its row: any row that passes the test conflicts with it. -/
theorem find?_eq_some {x : ρ} (hx : x ∈ table) (hp : p x = true)
    (hkey : ∀ y ∈ table, p y = true → Conflict y x) : table.find? p = some x := by
  cases hfind : table.find? p with
  | none =>
      rw [find?_none hfind hx] at hp
      exact absurd hp (by simp)
  | some y =>
      obtain ⟨hy, hpy⟩ := find?_some hfind
      rw [eq_of_conflict hy hx (hkey y hy hpy)]

theorem any_iff : table.any p = true ↔ ∃ x ∈ table, p x = true := List.any_eq_true

end Table

end Relational
