import Capmesh.Relational.Table

/-!
# References between tables

A `Reference` is a column that names a row of another table, beside the key of its own
row. When the named row moves, an update rewrites the column in some of the rows.
`follows_iff` is the rule for such an update: the rows in use all follow the move exactly
when the update reaches each of them.
-/

namespace Relational

open Constrained

/-- A column that names a target, in rows with a key. -/
structure Reference (ρ : Type) [Constrained ρ] where
  key : ρ → String
  target : ρ → String
  unique : ∀ {a b : ρ}, key a = key b → Conflict a b

namespace Reference

variable {ρ : Type} [Constrained ρ]

/-- Every row in use that named the old target names the new one. -/
def Follows (ref : Reference ρ) (inUse : ρ → Prop) (before after : Table ρ) (old new : String) :
    Prop :=
  ∀ row ∈ before, inUse row → ref.target row = old →
    ∃ moved ∈ after, ref.key moved = ref.key row ∧ ref.target moved = new

/-- An update that reached some of the rows that named the old target, and no other column. -/
def Rewrites (ref : Reference ρ) (reached : ρ → Prop) (before after : Table ρ)
    (old new : String) : Prop :=
  ∀ row ∈ before, ref.target row = old →
    ∃ moved ∈ after, ref.key moved = ref.key row ∧
      (reached row → ref.target moved = new) ∧ (¬ reached row → ref.target moved = old)

variable {ref : Reference ρ} {inUse reached : ρ → Prop} {before after : Table ρ}
variable {old new : String}

/-- A table that no statement wrote was reached nowhere. -/
theorem rewrites_self : ref.Rewrites (fun _ => False) before before old new := by
  intro row hrow htarget
  exact ⟨row, hrow, rfl, False.elim, fun _ => htarget⟩

theorem rewrites_of_map {change : ρ → ρ} (hrows : after.rows = before.rows.map change)
    (hkey : ∀ row, ref.key (change row) = ref.key row)
    (hreached : ∀ row, ref.target row = old → reached row → ref.target (change row) = new)
    (hrest : ∀ row, ref.target row = old → ¬ reached row → ref.target (change row) = old) :
    ref.Rewrites reached before after old new := by
  intro row hrow htarget
  have hmoved : change row ∈ after := by
    rw [← Table.mem_rows, hrows]
    exact List.mem_map_of_mem hrow
  exact ⟨change row, hmoved, hkey row, hreached row htarget, hrest row htarget⟩

theorem follows_iff (hne : old ≠ new) (h : ref.Rewrites reached before after old new) :
    ref.Follows inUse before after old new ↔
      ∀ row ∈ before, inUse row → ref.target row = old → reached row := by
  constructor
  · intro hfollows row hrow huse htarget
    obtain ⟨moved, hmoved, hkey, hnew⟩ := hfollows row hrow huse htarget
    obtain ⟨found, hfound, hfoundKey, -, hstays⟩ := h row hrow htarget
    by_contra hreached
    have hsame : moved = found :=
      Table.eq_of_conflict hmoved hfound (ref.unique (hkey.trans hfoundKey.symm))
    have hold : ref.target moved = old := hsame ▸ hstays hreached
    exact hne (hold.symm.trans hnew)
  · intro hreached row hrow huse htarget
    obtain ⟨moved, hmoved, hkey, hmoves, -⟩ := h row hrow htarget
    exact ⟨moved, hmoved, hkey, hmoves (hreached row hrow huse htarget)⟩

end Reference

end Relational
