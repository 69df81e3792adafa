import Capmesh.Relational.Table

/-!
# Upserts

`upsert?` is `INSERT … ON CONFLICT(key) DO UPDATE`, which fails when the row conflicts with
another one in some other way. What it leaves is `Replaced`: one row in place of the one with its
key. `Rewritten` is what a sequence of such writes leaves, of which the last one to a key counts,
and `insertAll` is a sequence of `INSERT OR IGNORE`.
-/

namespace Relational

namespace Table

variable {ρ κ ι : Type} [Constrained ρ] [DecidableEq κ]

/-- `INSERT … ON CONFLICT(key) DO UPDATE`: refresh the row with the key, or append a new one. -/
def upsert? (table : Table ρ) (key : ρ → κ) (row : ρ) (refresh : ρ → ρ) : Option (Table ρ) :=
  if table.any (key · = key row) then
    table.update? fun old => if key old = key row then refresh old else old
  else table.insert? row

/-- A row was written in place of the one with its key. -/
def Replaced (key : ρ → κ) (table result : Table ρ) (written : ρ) : Prop :=
  ∀ x, x ∈ result ↔ x = written ∨ x ∈ table ∧ key x ≠ key written

variable {table result before mid after : Table ρ} {row written : ρ} {key : ρ → κ}
variable {refresh : ρ → ρ} {info : ρ → ι} {writes : List (κ × ι)}

theorem mem_upsert? (hkey : ∀ a b, key a = key b → Constrained.Conflict a b)
    (h : table.upsert? key row refresh = some result)
    (hrefresh : ∀ old, key (refresh old) = key row) :
    ∃ written, Replaced key table result written ∧
      (written = row ∧ (∀ x ∈ table, key x ≠ key row) ∨
        ∃ old ∈ table, key old = key row ∧ written = refresh old) := by
  unfold upsert? at h
  split at h
  · rename_i hany
    obtain ⟨old, hold, hsame⟩ := any_iff.mp hany
    have hsame : key old = key row := by simpa using hsame
    refine ⟨refresh old, fun x => ?_, .inr ⟨old, hold, hsame, rfl⟩⟩
    rw [mem_update? h, hrefresh]
    constructor
    · rintro ⟨y, hy, rfl⟩
      by_cases hrow : key y = key row
      · rw [if_pos hrow, eq_of_conflict hy hold (hkey _ _ (hrow.trans hsame.symm))]
        exact .inl rfl
      · rw [if_neg hrow]
        exact .inr ⟨hy, hrow⟩
    · rintro (rfl | ⟨hx, hne⟩)
      · exact ⟨old, hold, if_pos hsame⟩
      · exact ⟨x, hx, if_neg hne⟩
  · rename_i hany
    have hnone : ∀ x ∈ table, key x ≠ key row := by
      intro x hx hsame
      exact hany (any_iff.mpr ⟨x, hx, by simpa using hsame⟩)
    refine ⟨row, fun x => ?_, .inl ⟨rfl, hnone⟩⟩
    rw [mem_insert? h]
    constructor
    · rintro (hx | rfl)
      · exact .inr ⟨hx, hnone x hx⟩
      · exact .inl rfl
    · rintro (rfl | ⟨hx, -⟩)
      · exact .inr rfl
      · exact .inl hx

theorem upsert?_succeeds (hkey : ∀ a b, key a = key b → Constrained.Conflict a b)
    (hinsert : (∀ x ∈ table, key x ≠ key row) → ∀ x ∈ table, ¬ Constrained.Conflict x row)
    (hupdate : ∀ old ∈ table, key old = key row → ∀ x ∈ table, key x ≠ key row →
      ¬ Constrained.Conflict x (refresh old)) :
    ∃ result, table.upsert? key row refresh = some result := by
  unfold upsert?
  split
  · have hrows : (table.rows.map fun old => if key old = key row then refresh old else old).Pairwise
        fun a b => ¬ Constrained.Conflict a b := by
      refine List.pairwise_map.mpr (table.unique.imp_of_mem fun {a b} ha hb hab hconflict => ?_)
      by_cases hfirst : key a = key row
      · have hsecond : key b ≠ key row := fun h => hab (hkey a b (hfirst.trans h.symm))
        rw [if_pos hfirst, if_neg hsecond] at hconflict
        exact hupdate a ha hfirst b hb hsecond (Constrained.symm hconflict)
      · rw [if_neg hfirst] at hconflict
        by_cases hsecond : key b = key row
        · rw [if_pos hsecond] at hconflict
          exact hupdate b hb hsecond a ha hfirst hconflict
        · rw [if_neg hsecond] at hconflict
          exact hab hconflict
    exact ⟨_, dif_pos hrows⟩
  · rename_i hnone
    refine ⟨_, dif_pos (hinsert fun x hx hsame => hnone ?_)⟩
    exact any_iff.mpr ⟨x, hx, by simpa using hsame⟩

/-- What writes to keys leave, the last write first: a key written holds a row with what the last
write says of it, and the rows of the other keys are the old ones. -/
structure Rewritten (key : ρ → κ) (info : ρ → ι) (before after : Table ρ)
    (writes : List (κ × ι)) : Prop where
  kept : ∀ x, writes.lookup (key x) = none → (x ∈ after ↔ x ∈ before)
  written : ∀ k i, writes.lookup k = some i → ∃ x ∈ after, key x = k ∧ info x = i

theorem Rewritten.refl (table : Table ρ) : Rewritten key info table table [] where
  kept _ _ := Iff.rfl
  written _ _ h := by cases h

/-- One more write. -/
theorem Rewritten.cons (h : Rewritten key info before mid writes)
    (hreplaced : Replaced key mid after written) :
    Rewritten key info before after ((key written, info written) :: writes) where
  kept x hlookup := by
    rw [List.lookup_cons] at hlookup
    split at hlookup
    · cases hlookup
    · rename_i hne
      have hne : key x ≠ key written := by simpa using hne
      rw [hreplaced, ← h.kept x hlookup]
      constructor
      · rintro (rfl | ⟨hx, -⟩)
        · exact absurd rfl hne
        · exact hx
      · exact fun hx => .inr ⟨hx, hne⟩
  written k i hlookup := by
    rw [List.lookup_cons] at hlookup
    split at hlookup
    · rename_i hsame
      have hsame : k = key written := by simpa using hsame
      exact ⟨written, (hreplaced written).mpr (.inl rfl), hsame.symm, Option.some.inj hlookup⟩
    · rename_i hne
      have hne : k ≠ key written := by simpa using hne
      obtain ⟨x, hx, hxkey, hxinfo⟩ := h.written k i hlookup
      exact ⟨x, (hreplaced x).mpr (.inr ⟨hx, hxkey ▸ hne⟩), hxkey, hxinfo⟩

/-- The row of a key that was written. -/
theorem Rewritten.info_eq (hkey : ∀ a b, key a = key b → Constrained.Conflict a b)
    (h : Rewritten key info before after writes) {x : ρ} (hx : x ∈ after) {i : ι}
    (hlookup : writes.lookup (key x) = some i) : info x = i := by
  obtain ⟨y, hy, hsame, hinfo⟩ := h.written _ _ hlookup
  rw [eq_of_conflict hx hy (hkey _ _ hsame.symm)]
  exact hinfo

/-- `INSERT OR IGNORE`, for each row. -/
def insertAll (table : Table ρ) (rows : List ρ) : Table ρ :=
  rows.foldl (fun table row => (table.insert? row).getD table) table

theorem mem_insertAll {rows : List ρ}
    (hrows : ∀ a ∈ rows, ∀ b ∈ rows, Constrained.Conflict a b → a = b) (x : ρ) :
    x ∈ table.insertAll rows ↔
      x ∈ table ∨ x ∈ rows ∧ ∀ y ∈ table, ¬ Constrained.Conflict y x := by
  induction rows generalizing table with
  | nil => simp [insertAll]
  | cons row rows ih =>
      have htail := fun a ha b hb => hrows a (.tail _ ha) b (.tail _ hb)
      show x ∈ ((table.insert? row).getD table).insertAll rows ↔ _
      rw [ih htail]
      cases hinsert : table.insert? row with
      | none =>
          have hconflict : ¬ ∀ y ∈ table, ¬ Constrained.Conflict y row := by
            rw [← insert?_isSome_iff, hinsert]
            simp
          simp only [Option.getD_none, List.mem_cons]
          refine or_congr_right ⟨fun ⟨hx, hfree⟩ => ⟨.inr hx, hfree⟩, ?_⟩
          rintro ⟨rfl | hx, hfree⟩
          · exact absurd hfree hconflict
          · exact ⟨hx, hfree⟩
      | some next =>
          have hfree := not_conflict_of_insert? hinsert
          simp only [Option.getD_some, mem_insert? hinsert, List.mem_cons]
          constructor
          · rintro ((hx | rfl) | ⟨hx, hnext⟩)
            · exact .inl hx
            · exact .inr ⟨.inl rfl, hfree⟩
            · exact .inr ⟨.inr hx, fun y hy => hnext y (.inl hy)⟩
          · rintro (hx | ⟨rfl | hx, hold⟩)
            · exact .inl (.inl hx)
            · exact .inl (.inr rfl)
            · by_cases hsame : x = row
              · exact .inl (.inr hsame)
              · refine .inr ⟨hx, ?_⟩
                rintro y (hy | rfl) hconflict
                · exact hold y hy hconflict
                · exact hsame (hrows _ List.mem_cons_self _ (.tail _ hx) hconflict).symm

end Table

end Relational
