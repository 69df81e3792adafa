import Mathlib.Data.Set.Basic

/-!
# Derived rows

A table beside another one, each of whose rows holds a value derived from a text of the row with
its key, as a search index beside what it searches. `Fresh` says that no derived row is behind.
`fresh_put_iff` is the exact condition under which writing a text alone keeps that, and
`Fresh.refresh` is the rule for a write that refreshes the derived row or deletes it.
-/

namespace Relational

/-- How the rows of one table are derived from those of another. -/
structure Derivation (ρ ν κ τ δ : Type) where
  key : ρ → κ
  text : ρ → τ
  owner : ν → κ
  value : ν → δ
  derive : τ → δ

namespace Derivation

variable {ρ ν κ τ δ : Type} (d : Derivation ρ ν κ τ δ)

/-- Each derived row has the value of the text of each row with its key. -/
def Fresh (rows : Set ρ) (derived : Set ν) : Prop :=
  ∀ v ∈ derived, ∀ r ∈ rows, d.key r = d.owner v → d.value v = d.derive (d.text r)

/-- The rows with one written in place of those with its key. -/
def put (rows : Set ρ) (row : ρ) : Set ρ := {r | r = row ∨ r ∈ rows ∧ d.key r ≠ d.key row}

variable {d} {rows : Set ρ} {derived after : Set ν} {row : ρ}

theorem Fresh.mono {others : Set ρ} (h : d.Fresh rows derived) (hrows : others ⊆ rows)
    (hderived : after ⊆ derived) : d.Fresh others after :=
  fun v hv r hr hkey => h v (hderived hv) r (hrows hr) hkey

theorem fresh_put_iff (h : d.Fresh rows derived) :
    d.Fresh (d.put rows row) derived ↔
      ∀ v ∈ derived, d.owner v = d.key row → d.value v = d.derive (d.text row) := by
  constructor
  · intro hput v hv howner
    exact hput v hv row (.inl rfl) howner.symm
  · intro hkept v hv r hr hkey
    rcases hr with rfl | ⟨hr, -⟩
    · exact hkept v hv hkey.symm
    · exact h v hv r hr hkey

theorem Fresh.put (h : d.Fresh rows derived)
    (hsame : ∀ v ∈ derived, d.owner v = d.key row →
      ∃ old ∈ rows, d.key old = d.key row ∧ d.text old = d.text row) :
    d.Fresh (d.put rows row) derived := by
  refine (fresh_put_iff h).mpr fun v hv howner => ?_
  obtain ⟨old, hold, hkey, htext⟩ := hsame v hv howner
  rw [← htext]
  exact h v hv old hold (hkey.trans howner.symm)

theorem Fresh.refresh (h : d.Fresh rows derived)
    (hafter : ∀ v ∈ after, d.value v = d.derive (d.text row) ∧ d.owner v = d.key row ∨
      v ∈ derived ∧ (d.owner v = d.key row →
        ∃ old ∈ rows, d.key old = d.key row ∧ d.text old = d.text row)) :
    d.Fresh (d.put rows row) after := by
  intro v hv r hr hkey
  rcases hafter v hv with ⟨hvalue, howner⟩ | ⟨hv, hsame⟩
  · rcases hr with rfl | ⟨-, hne⟩
    · exact hvalue
    · exact absurd (hkey.trans howner) hne
  · rcases hr with rfl | ⟨hr, -⟩
    · obtain ⟨old, hold, holdKey, htext⟩ := hsame hkey.symm
      rw [← htext]
      exact h v hv old hold (holdKey.trans hkey)
    · exact h v hv r hr hkey

theorem Fresh.fill (h : d.Fresh rows derived) (hunique : ∀ r ∈ rows, ∀ s ∈ rows,
      d.key r = d.key s → r = s)
    (hafter : ∀ v ∈ after, v ∈ derived ∨
      ∃ r ∈ rows, d.key r = d.owner v ∧ d.value v = d.derive (d.text r)) :
    d.Fresh rows after := by
  intro v hv r hr hkey
  rcases hafter v hv with hv | ⟨s, hs, hsKey, hvalue⟩
  · exact h v hv r hr hkey
  · rw [hunique r hr s hs (hkey.trans hsKey.symm)]
    exact hvalue

end Derivation

end Relational
