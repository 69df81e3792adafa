import Mathlib.Logic.Basic

/-!
# Remembered answers

A memo remembers the answer to a key the first time it is asked for, in front of several sources
that may change. It is transparent when every lookup through it answers what its source answers
now: `transparent_iff` says that this is so when each remembered answer is the one of every source,
and the two lemmas after it say which lookups and which changes of the sources keep it so.
-/

namespace Execution

/-- Answers remembered by key. -/
abbrev Memo (κ α : Type) := κ → Option α

namespace Memo

variable {ι κ α : Type} [DecidableEq κ] {memo : Memo κ α} {sources changed : ι → κ → α}

/-- Nothing is remembered yet. -/
def empty : Memo κ α := fun _ => none

/-- Remember an answer. -/
def record (memo : Memo κ α) (key : κ) (answer : α) : Memo κ α := fun other =>
  if other = key then some answer else memo other

/-- Look a key up: the remembered answer, else the one of the source, which is remembered. -/
def lookup (memo : Memo κ α) (source : κ → α) (key : κ) : α × Memo κ α :=
  match memo key with
  | some answer => (answer, memo)
  | none => (source key, memo.record key (source key))

/-- Every lookup answers what its source answers now. -/
def Transparent (memo : Memo κ α) (sources : ι → κ → α) : Prop :=
  ∀ i key, (memo.lookup (sources i) key).1 = sources i key

@[simp] theorem record_self (memo : Memo κ α) (key : κ) (answer : α) :
    memo.record key answer key = some answer := if_pos rfl

theorem record_other (memo : Memo κ α) {key other : κ} (answer : α) (h : other ≠ key) :
    memo.record key answer other = memo other := if_neg h

theorem lookup_some {source : κ → α} {key : κ} {answer : α} (h : memo key = some answer) :
    memo.lookup source key = (answer, memo) := by
  unfold lookup
  rw [h]

theorem lookup_none {source : κ → α} {key : κ} (h : memo key = none) :
    memo.lookup source key = (source key, memo.record key (source key)) := by
  unfold lookup
  rw [h]

/-- A second lookup of a key changes nothing, and answers as the first one did. -/
theorem lookup_lookup (source : κ → α) (key : κ) :
    (memo.lookup source key).2.lookup source key = memo.lookup source key := by
  cases hkey : memo key with
  | some answer => rw [lookup_some hkey, lookup_some hkey]
  | none => rw [lookup_none hkey, lookup_some (record_self memo key _)]

theorem transparent_iff : memo.Transparent sources ↔
    ∀ i key answer, memo key = some answer → sources i key = answer := by
  refine ⟨fun h i key answer hkey => ?_, fun h i key => ?_⟩
  · have hlookup := h i key
    rw [lookup_some hkey] at hlookup
    exact hlookup.symm
  · cases hkey : memo key with
    | some answer =>
        rw [lookup_some hkey]
        exact (h i key answer hkey).symm
    | none => rw [lookup_none hkey]

theorem transparent_empty (sources : ι → κ → α) : (empty : Memo κ α).Transparent sources :=
  fun _ _ => rfl

/-- A lookup keeps the memo transparent when it remembers nothing new, or what every source
answers. -/
theorem transparent_lookup_iff (h : memo.Transparent sources) (i : ι) (key : κ) :
    (memo.lookup (sources i) key).2.Transparent sources ↔
      (memo key = none → ∀ j, sources j key = sources i key) := by
  cases hkey : memo key with
  | some answer =>
      rw [lookup_some hkey]
      exact iff_of_true h (by simp)
  | none =>
      rw [lookup_none hkey]
      refine ⟨fun hafter _ j => ?_, fun hsame => transparent_iff.mpr fun j other answer => ?_⟩
      · exact transparent_iff.mp hafter j key _ (record_self memo key _)
      · show memo.record key (sources i key) other = some answer → _
        by_cases hother : other = key
        · subst hother
          rw [record_self]
          intro hanswer
          exact (hsame rfl j).trans (Option.some.inj hanswer)
        · rw [record_other memo _ hother]
          exact transparent_iff.mp h j other answer

theorem transparent_change_iff (h : memo.Transparent sources) : memo.Transparent changed ↔
    ∀ i key, memo key ≠ none → changed i key = sources i key := by
  refine ⟨fun hafter i key hkey => ?_, fun hsame => transparent_iff.mpr fun i key answer hkey => ?_⟩
  · obtain ⟨answer, hanswer⟩ := Option.ne_none_iff_exists'.mp hkey
    exact (transparent_iff.mp hafter i key answer hanswer).trans
      (transparent_iff.mp h i key answer hanswer).symm
  · rw [hsame i key (by simp [hkey])]
    exact transparent_iff.mp h i key answer hkey

end Memo

end Execution
