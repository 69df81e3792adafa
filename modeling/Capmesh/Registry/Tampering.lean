import Capmesh.Registry.LogChain

/-!
# Changes made to the stored registry log

What `verify_log_chain` notices when a row of a valid log is edited or rows are deleted. The
verifier reads the rows in the order of their sequence numbers, so `linked_replaced_iff` and
`linked_sublist_iff` decide both: read `tampering_noticed_iff`. Values are of the declared types
of their columns, and the table keeps its uniqueness constraints.
-/

namespace Capmesh

open Python Relational Execution Ledger

/-- The text that `verify_log_chain` hashes of a row. -/
def LogRow.hashedText (row : LogRow) : String :=
  Capmesh.hashedText row.sequence row.entry row.payload row.actualPrev

/-- A change made to the stored log: one row is edited, or rows are deleted. -/
inductive Tampering where
  | edit (row edited : LogRow)
  | delete (gone : LogRow → Bool)

namespace Tampering

/-- The log after the change, when the table admits it. -/
def apply (log : Table LogRow) : Tampering → Option (Table LogRow)
  | .edit row edited => log.update? fun other => if other = row then edited else other
  | .delete gone => some (log.filter fun row => !gone row)

/-- The change makes a difference to the log. -/
def Touches (log : Table LogRow) : Tampering → Prop
  | .edit row edited => row ∈ log ∧ edited ≠ row
  | .delete gone => ∃ row ∈ log, gone row = true

/-- A change that no hash speaks of. An edited row stays in its place and reads the same hash of
the one before; its own hash and its hashed text stay, or it is the newest row and was hashed
again. Of deleted rows nothing newer is kept. -/
def Unnoticed (p : Platform) (log : Table LogRow) : Tampering → Prop
  | .edit row edited =>
      (∀ other ∈ log, other ≠ row →
        (other.sequence < edited.sequence ↔ other.sequence < row.sequence)) ∧
      edited.actualPrev = row.actualPrev ∧
      ((edited.entryHash = row.entryHash ∧ edited.hashedText = row.hashedText) ∨
        ((∀ other ∈ log, other.sequence ≤ row.sequence) ∧
          p.sha256Text edited.hashedText = edited.entryHash))
  | .delete gone => ∀ row ∈ log, ∀ other ∈ log,
      row.sequence < other.sequence → gone row = true → gone other = true

end Tampering

/-- No two of these rows have different texts with one digest. -/
def CollisionFree (p : Platform) (rows : List LogRow) : Prop :=
  ∀ a ∈ rows, ∀ b ∈ rows, p.sha256Text a.hashedText = p.sha256Text b.hashedText →
    a.hashedText = b.hashedText

instance (p : Platform) (rows : List LogRow) : Decidable (CollisionFree p rows) :=
  inferInstanceAs (Decidable (∀ a ∈ rows, ∀ b ∈ rows, _ → _))

section

variable {p : Platform} {log tampered : Table LogRow} {rows others : List LogRow}
  {row edited : LogRow}
variable {first rest : List LogRow}

theorem by_sequence_perm (rows : List LogRow) : (bySequence rows).Perm rows :=
  List.perm_insertionSort _ rows

theorem by_sequence_sorted (rows : List LogRow) :
    (bySequence rows).Pairwise fun a b => a.sequence ≤ b.sequence := by
  have htotal : Std.Total fun a b : LogRow => a.sequence ≤ b.sequence :=
    ⟨fun a b => Int.le_total a.sequence b.sequence⟩
  have htrans : IsTrans LogRow fun a b => a.sequence ≤ b.sequence := ⟨fun _ _ _ => Int.le_trans⟩
  exact List.pairwise_insertionSort _ rows

/-- The sequence number determines the row of a table. -/
theorem row_of_sequence {a b : LogRow} (ha : a ∈ log) (hb : b ∈ log)
    (h : a.sequence = b.sequence) : a = b :=
  log.eq_of_conflict ha hb (.inr (.inl h))

/-- The rows of a table in order are any list of the same rows that is in order. -/
theorem by_sequence_eq (hperm : rows.Perm log.rows)
    (hsorted : rows.Pairwise fun a b => a.sequence ≤ b.sequence) :
    bySequence log.rows = rows := by
  refine List.Perm.eq_of_pairwise (fun a b ha hb hab hba => ?_) (by_sequence_sorted _) hsorted
    ((by_sequence_perm _).trans hperm.symm)
  exact row_of_sequence ((by_sequence_perm _).mem_iff.mp ha) (hperm.mem_iff.mp hb)
    (Int.le_antisymm hab hba)

theorem by_sequence_strict (log : Table LogRow) :
    (bySequence log.rows).Pairwise fun a b => a.sequence < b.sequence := by
  have hnodup : (bySequence log.rows).Nodup :=
    (by_sequence_perm _).nodup_iff.mpr
      (log.unique.imp fun hconflict heq => hconflict (.inl (congrArg LogRow.id heq)))
  refine ((by_sequence_sorted log.rows).and hnodup).imp_of_mem fun {a b} ha hb h => ?_
  refine lt_of_le_of_ne h.1 fun heq => h.2 ?_
  exact row_of_sequence ((by_sequence_perm _).mem_iff.mp ha) ((by_sequence_perm _).mem_iff.mp hb) heq

theorem entry_hash_nodup (log : Table LogRow) :
    ((bySequence log.rows).map (registryLog p).digest).Nodup := by
  refine (((by_sequence_perm log.rows).map _).nodup_iff).mpr ?_
  refine List.pairwise_map.mpr (log.unique.imp fun hconflict heq => hconflict ?_)
  exact .inr (.inr heq)

theorem verify_log_chain_valid_iff (p : Platform) (reg : Registry) :
    (verifyLogChain p reg).valid = true ↔
      (registryLog p).Linked none (bySequence reg.logTable.rows) :=
  verify_rows_valid_iff p _ none _

/-- What holds of every two rows in order holds of every two rows with rising numbers. -/
theorem by_sequence_pairwise_iff (log : Table LogRow) (R : LogRow → LogRow → Prop) :
    (bySequence log.rows).Pairwise R ↔
      ∀ a ∈ log, ∀ b ∈ log, a.sequence < b.sequence → R a b := by
  have hmem : ∀ {a}, a ∈ bySequence log.rows ↔ a ∈ log := (by_sequence_perm _).mem_iff
  constructor
  · intro h a ha b hb hlt
    have hsymm : Std.Symm fun a b : LogRow =>
        (a.sequence < b.sequence → R a b) ∧ (b.sequence < a.sequence → R b a) :=
      ⟨fun _ _ hab => ⟨hab.2, hab.1⟩⟩
    have hpairwise : (bySequence log.rows).Pairwise fun a b =>
        (a.sequence < b.sequence → R a b) ∧ (b.sequence < a.sequence → R b a) :=
      (h.and (by_sequence_strict log)).imp fun hab =>
        ⟨fun _ => hab.1, fun hgt => absurd (lt_trans hab.2 hgt) (lt_irrefl _)⟩
    have hne : a ≠ b := fun heq => absurd (heq ▸ hlt) (lt_irrefl _)
    exact (hpairwise.forall (hmem.mpr ha) (hmem.mpr hb) hne).1 hlt
  · intro h
    exact (by_sequence_strict log).imp_of_mem fun ha hb hlt => h _ (hmem.mp ha) _ (hmem.mp hb) hlt

/-- Deletions leave the rows that are kept, in order. -/
theorem by_sequence_filter (log : Table LogRow) (keep : LogRow → Bool) :
    bySequence (log.filter keep).rows = (bySequence log.rows).filter keep :=
  by_sequence_eq ((by_sequence_perm log.rows).filter keep) ((by_sequence_sorted _).filter keep)

/-- Deletions leave a chain exactly when they cut off its end. -/
theorem deleted_linked_iff (h : (registryLog p).Linked none (bySequence log.rows))
    (gone : LogRow → Bool) :
    (registryLog p).Linked none (bySequence (log.filter fun row => !gone row).rows) ↔
      (Tampering.delete gone).Unnoticed p log := by
  rw [by_sequence_filter, Format.linked_sublist_iff h (entry_hash_nodup log) List.filter_sublist,
    Format.filter_prefix_iff, by_sequence_pairwise_iff]
  show (∀ a ∈ log, ∀ b ∈ log, a.sequence < b.sequence → (!gone b) = true → (!gone a) = true) ↔ _
  simp only [Bool.not_eq_true', Tampering.Unnoticed, ← Bool.not_eq_true]
  constructor
  · intro hcut a ha b hb hlt hgone
    by_contra hkept
    exact hcut a ha b hb hlt hkept hgone
  · intro hcut a ha b hb hlt hkept hgone
    exact hkept (hcut a ha b hb hlt hgone)

/-- An edited row stands between the others with lower and those with higher numbers. -/
theorem by_sequence_edited (hperm : (edited :: others).Perm tampered.rows)
    (hsorted : others.Pairwise fun a b => a.sequence ≤ b.sequence) :
    bySequence tampered.rows = others.filter (fun other => other.sequence < edited.sequence) ++
      edited :: others.filter fun other => !decide (other.sequence < edited.sequence) := by
  refine by_sequence_eq (List.perm_middle.trans (((List.filter_append_perm _ others).cons
    edited).trans hperm)) (List.pairwise_append.mpr ⟨hsorted.filter _,
      List.pairwise_cons.mpr ⟨fun b hb => ?_, hsorted.filter _⟩, fun a ha b hb => ?_⟩)
  · simpa using (List.mem_filter.mp hb).2
  · have hlt : a.sequence < edited.sequence := by simpa using (List.mem_filter.mp ha).2
    rcases List.mem_cons.mp hb with rfl | hb
    · exact Int.le_of_lt hlt
    · have hle : edited.sequence ≤ b.sequence := by simpa using (List.mem_filter.mp hb).2
      exact Int.le_trans (Int.le_of_lt hlt) hle

theorem filter_lower (h : (first ++ row :: rest).Pairwise fun a b => a.sequence < b.sequence) :
    first = (first ++ rest).filter fun other => other.sequence < row.sequence := by
  obtain ⟨-, hrest, hcross⟩ := List.pairwise_append.mp h
  rw [List.filter_append, List.filter_eq_self.mpr fun a ha => by
      simpa using hcross a ha row List.mem_cons_self,
    List.filter_eq_nil_iff.mpr fun b hb => by
      simpa using Int.le_of_lt ((List.pairwise_cons.mp hrest).1 b hb), List.append_nil]

/-- The other rows of a table, around the place of one of them. -/
theorem mem_others (h : bySequence log.rows = first ++ row :: rest) (other : LogRow) :
    other ∈ first ++ rest ↔ other ∈ log ∧ other ≠ row := by
  have hstrict := by_sequence_strict log
  rw [h] at hstrict
  obtain ⟨-, hrest, hcross⟩ := List.pairwise_append.mp hstrict
  have hmem : other ∈ log ↔ other ∈ first ++ row :: rest := by
    rw [← h]
    exact (by_sequence_perm log.rows).mem_iff.symm
  rw [hmem]
  constructor
  · intro hother
    refine ⟨by simp only [List.mem_append, List.mem_cons] at hother ⊢; tauto, ?_⟩
    rintro rfl
    rcases List.mem_append.mp hother with hfirst | hrest'
    · exact lt_irrefl _ (hcross other hfirst other List.mem_cons_self)
    · exact lt_irrefl _ ((List.pairwise_cons.mp hrest).1 other hrest')
  · rintro ⟨hother, hne⟩
    simp only [List.mem_append, List.mem_cons] at hother ⊢
    tauto

/-- An edit replaces the row among the others. -/
theorem edited_perm (h : bySequence log.rows = first ++ row :: rest)
    (happly : (Tampering.edit row edited).apply log = some tampered) :
    (edited :: (first ++ rest)).Perm tampered.rows := by
  have hkeep : ∀ other ∈ first ++ rest, (if other = row then edited else other) = other :=
    fun other hother => if_neg ((mem_others h other).mp hother).2
  have hmapped : (bySequence log.rows).map (fun other => if other = row then edited else other) =
      first ++ edited :: rest := by
    rw [h, List.map_append, List.map_cons, if_pos rfl,
      List.map_congr_left fun other hother => hkeep other (List.mem_append_left _ hother),
      List.map_congr_left (l := rest) fun other hother =>
        hkeep other (List.mem_append_right _ hother)]
    simp
  rw [Table.rows_update? happly]
  refine List.perm_middle.symm.trans ?_
  rw [← hmapped]
  exact (by_sequence_perm log.rows).map _

theorem sealed_iff (hsealed : (registryLog p).Sealed row)
    (hcollision : p.sha256Text edited.hashedText = p.sha256Text row.hashedText →
      edited.hashedText = row.hashedText) (newest : Prop) :
    ((registryLog p).Sealed edited ∧ (newest ∨ edited.entryHash = row.entryHash)) ↔
      (edited.entryHash = row.entryHash ∧ edited.hashedText = row.hashedText) ∨
        (newest ∧ p.sha256Text edited.hashedText = edited.entryHash) := by
  have hrow : p.sha256Text row.hashedText = row.entryHash := hsealed
  constructor
  · rintro ⟨hedited, hnewest | hhash⟩
    · exact .inr ⟨hnewest, hedited⟩
    · have hedited : p.sha256Text edited.hashedText = edited.entryHash := hedited
      exact .inl ⟨hhash, hcollision (hedited.trans (hhash.trans hrow.symm))⟩
  · rintro (⟨hhash, htext⟩ | ⟨hnewest, hedited⟩)
    · refine ⟨?_, .inr hhash⟩
      show p.sha256Text edited.hashedText = edited.entryHash
      rw [htext, hrow, hhash]
    · exact ⟨hedited, .inl hnewest⟩

/-- An edit leaves a chain exactly when it is one that no hash speaks of. -/
theorem edited_linked_iff (h : (registryLog p).Linked none (bySequence log.rows)) (hrow : row ∈ log)
    (happly : (Tampering.edit row edited).apply log = some tampered)
    (hcollision : CollisionFree p (log.rows ++ tampered.rows)) :
    (registryLog p).Linked none (bySequence tampered.rows) ↔
      (Tampering.edit row edited).Unnoticed p log := by
  obtain ⟨first, rest, hsplit⟩ :=
    List.append_of_mem ((by_sequence_perm log.rows).mem_iff.mpr hrow)
  have hstrict := by_sequence_strict log
  have hdigests := entry_hash_nodup (p := p) log
  rw [hsplit] at h hstrict hdigests
  have hsorted : (first ++ rest).Pairwise fun a b => a.sequence ≤ b.sequence :=
    (hstrict.imp fun hlt => Int.le_of_lt hlt).sublist
      (List.Sublist.append_left (List.sublist_cons_self row rest) first)
  have hperm := edited_perm hsplit happly
  have htampered := by_sequence_edited hperm hsorted
  have hnew := entry_hash_nodup (p := p) tampered
  have hnewSorted := by_sequence_sorted tampered.rows
  rw [htampered] at hnew hnewSorted
  have hothers := List.Perm.eq_of_pairwise (fun a b ha hb hab hba =>
      row_of_sequence ((mem_others hsplit a).mp ((List.filter_append_perm _ _).mem_iff.mp ha)).1
        ((mem_others hsplit b).mp hb).1 (Int.le_antisymm hab hba))
    (hnewSorted.sublist (List.Sublist.append_left (List.sublist_cons_self edited _) _)) hsorted
    (List.filter_append_perm (fun other => other.sequence < edited.sequence) (first ++ rest))
  have hplace : (first ++ rest).filter (fun other => other.sequence < edited.sequence) = first ↔
      ∀ other ∈ log, other ≠ row →
        (other.sequence < edited.sequence ↔ other.sequence < row.sequence) := by
    have hlower := filter_lower hstrict
    constructor
    · intro hfirst other hother hne
      have hmem := (mem_others hsplit other).mpr ⟨hother, hne⟩
      have hsame := congrArg (other ∈ ·) (hfirst.trans hlower)
      simpa only [List.mem_filter, hmem, true_and, decide_eq_true_eq, eq_iff_iff] using hsame
    · intro hsame
      refine (List.filter_congr fun other hother => ?_).trans hlower.symm
      obtain ⟨hlog, hne⟩ := (mem_others hsplit other).mp hother
      simpa using hsame other hlog hne
  have hnewest : rest = [] ↔ ∀ other ∈ log, other.sequence ≤ row.sequence := by
    obtain ⟨-, hrest, hcross⟩ := List.pairwise_append.mp hstrict
    constructor
    · rintro rfl other hother
      by_cases heq : other = row
      · exact le_of_eq (congrArg LogRow.sequence heq)
      · have hmem := (mem_others hsplit other).mpr ⟨hother, heq⟩
        rw [List.append_nil] at hmem
        exact Int.le_of_lt (hcross other hmem row List.mem_cons_self)
    · intro hle
      refine List.eq_nil_iff_forall_not_mem.mpr fun other hother => ?_
      have hlog := ((mem_others hsplit other).mp (List.mem_append_right _ hother)).1
      exact absurd (hle other hlog) (not_le.mpr ((List.pairwise_cons.mp hrest).1 other hother))
  have hedited : edited ∈ log.rows ++ tampered.rows :=
    List.mem_append_right _ (hperm.mem_iff.mp List.mem_cons_self)
  rw [htampered, Format.linked_replaced_iff h hdigests hothers hnew, hplace, hnewest]
  exact and_congr_right' (and_congr_right' (sealed_iff (Format.linked_cons_concat.mp h).2.2.1
    (hcollision edited hedited row (List.mem_append_left _ hrow)) _))

/-- **What tampering goes unnoticed.** After a change to a valid log, `verify_log_chain` reports
the log invalid exactly when some hash speaks of the change. -/
theorem tampering_noticed_iff {reg : Registry} {change : Tampering}
    (hvalid : (verifyLogChain p reg).valid = true) (htouches : change.Touches reg.logTable)
    (happly : change.apply reg.logTable = some tampered)
    (hcollision : CollisionFree p (reg.logTable.rows ++ tampered.rows)) :
    (verifyLogChain p { reg with log := some tampered }).valid = false ↔
      ¬ change.Unnoticed p reg.logTable := by
  rw [verify_log_chain_valid_iff] at hvalid
  rw [← Bool.not_eq_true, verify_log_chain_valid_iff, not_iff_not]
  show (registryLog p).Linked none (bySequence tampered.rows) ↔ _
  cases change with
  | edit row edited => exact edited_linked_iff hvalid htouches.1 happly hcollision
  | delete gone =>
      cases happly
      exact deleted_linked_iff hvalid gone

end

/-- The registry with the log of the notes skill, two rows. -/
def notesRegistry : Registry :=
  (run (logStep readablePlatform) (.settled freshRegistry) notesLog).committed

theorem notes_registry_valid : (verifyLogChain readablePlatform notesRegistry).valid = true := by
  decide +kernel

theorem notes_registry_touched (sequence : Int) (h : sequence = 1 ∨ sequence = 2) :
    (Tampering.delete (·.sequence = sequence)).Touches notesRegistry.logTable := by
  have hsequences : notesRegistry.logTable.rows.map (·.sequence) = [1, 2] := by decide +kernel
  have hmem : sequence ∈ notesRegistry.logTable.rows.map (·.sequence) := by
    rw [hsequences]
    simpa using h
  obtain ⟨row, hrow, heq⟩ := List.mem_map.mp hmem
  exact ⟨row, hrow, decide_eq_true heq⟩

/-- Without its oldest entry the log is reported invalid. -/
theorem tampering_noticed_iff_oldest :
    (verifyLogChain readablePlatform { notesRegistry with
      log := some (notesRegistry.logTable.filter fun row => !decide (row.sequence = 1)) }
      ).valid = false ∧
    ¬ (Tampering.delete (·.sequence = 1)).Unnoticed readablePlatform notesRegistry.logTable := by
  have hinvalid : (verifyLogChain readablePlatform { notesRegistry with
      log := some (notesRegistry.logTable.filter fun row => !decide (row.sequence = 1)) }
      ).valid = false := by decide +kernel
  exact ⟨hinvalid, (tampering_noticed_iff notes_registry_valid
    (notes_registry_touched 1 (.inl rfl)) rfl (by decide +kernel)).mp hinvalid⟩

/-- The newest entry can be deleted without a trace. -/
theorem newest_entry_deleted :
    ¬ ∀ (p : Platform) (reg : Registry) (change : Tampering) (tampered : Table LogRow),
      (verifyLogChain p reg).valid = true → change.Touches reg.logTable →
      change.apply reg.logTable = some tampered →
      CollisionFree p (reg.logTable.rows ++ tampered.rows) →
      (verifyLogChain p { reg with log := some tampered }).valid = false := by
  intro hclaim
  have hinvalid := hclaim readablePlatform notesRegistry (.delete (·.sequence = 2)) _
    notes_registry_valid (notes_registry_touched 2 (.inr rfl)) rfl (by decide +kernel)
  exact absurd hinvalid (by decide +kernel)

end Capmesh
